import MgRobot.Slam.ExactHeading
import MgRobot.Slam.NavBridge

/-!
# Headings of the navigation bridge

Over the reals: the yaw that the bridge publishes for the heading of motion of the
receiver, and the direction in which its map positions move.
-/

namespace MgRobot.Slam

set_option autoImplicit false

open MgRobot.Lib.Plane

/-- `std::remainder` by a full turn keeps the angle. -/
theorem remainder_coe (x : ℝ) : ((remainder x (2 * Real.pi) : ℝ) : Real.Angle) = x := by
  unfold remainder
  rw [Real.Angle.coe_sub, Real.Angle.intCast_mul_eq_zsmul, Real.Angle.coe_two_pi, smul_zero,
    sub_zero]

/-- The direction of a motion of `d` metres with the compass heading `h`. -/
theorem heading_compass {d : ℝ} (hd : 0 < d) (h : ℝ) :
    (heading (d * Real.sin h, d * Real.cos h) : Real.Angle) = (Real.pi / 2 - h : ℝ) := by
  have hmul : (⟨d * Real.sin h, d * Real.cos h⟩ : ℂ) =
      d * ⟨Real.cos (Real.pi / 2 - h), Real.sin (Real.pi / 2 - h)⟩ := by
    rw [Real.cos_pi_div_two_sub, Real.sin_pi_div_two_sub]
    apply Complex.ext
    · rw [Complex.re_ofReal_mul]
    · rw [Complex.im_ofReal_mul]
  have hunit := heading_cos_sin (Real.pi / 2 - h)
  unfold heading at hunit ⊢
  rw [hmul, Complex.arg_real_mul _ hd, hunit]

namespace NavBridge

variable (cfg : NavBridgeConfig ℝ) (utm : ℝ → ℝ → ℝ × ℝ)

/-- The displacement on the map is the displacement in UTM turned by the map rotation. -/
theorem convertToMap_sub (lat lon lat' lon' : ℝ) :
    convertToMap Numerics.exact cfg utm lat' lon' - convertToMap Numerics.exact cfg utm lat lon =
      turn cfg.rotationRad (utm lat' lon' - utm lat lon) := by
  unfold convertToMap
  rw [Numerics.exact_exact.rotate, Numerics.exact_exact.rotate, ← turn_sub]
  congr 1
  ext
  · exact sub_sub_sub_cancel_right ..
  · exact sub_sub_sub_cancel_right ..

/-- What the bridge publishes for the compass heading `h`. -/
theorem navpvtYaw_coe (h : ℝ) :
    ((navpvtYaw Numerics.exact cfg (h * 180 / Real.pi) : ℝ) : Real.Angle) =
      (Real.pi / 2 - h - cfg.rotationRad : ℝ) := by
  have hdeg : h * 180 / Real.pi * Real.pi / 180 = h := by
    field_simp
  show ((remainder (-(h * 180 / Real.pi * Real.pi / 180 + cfg.rotationRad) + Real.pi / 2)
    (2 * Real.pi) : ℝ) : Real.Angle) = _
  rw [remainder_coe, hdeg]
  congr 1
  ring

variable {cfg utm} {lat lon lat' lon' d h : ℝ}

/-- The direction of the motion on the map. -/
theorem course_coe (hd : 0 < d)
    (hutm : utm lat' lon' - utm lat lon = (d * Real.sin h, d * Real.cos h)) :
    (heading (convertToMap Numerics.exact cfg utm lat' lon' -
      convertToMap Numerics.exact cfg utm lat lon) : Real.Angle) =
      (cfg.rotationRad + (Real.pi / 2 - h) : ℝ) := by
  have hne : (d * Real.sin h, d * Real.cos h) ≠ (0 : ℝ × ℝ) := by
    intro hzero
    obtain ⟨hs, hc⟩ := Prod.mk.inj hzero
    have hone := Real.sin_sq_add_cos_sq h
    rw [(mul_eq_zero.mp hs).resolve_left hd.ne', (mul_eq_zero.mp hc).resolve_left hd.ne'] at hone
    norm_num at hone
  rw [convertToMap_sub, hutm, heading_turn hne, heading_compass hd, Real.Angle.coe_add]

/-- The yaw is behind the course by twice the map rotation: the rotation is added to an angle
that is clockwise. -/
theorem yaw_add_rotation (hd : 0 < d)
    (hutm : utm lat' lon' - utm lat lon = (d * Real.sin h, d * Real.cos h)) :
    (heading (convertToMap Numerics.exact cfg utm lat' lon' -
      convertToMap Numerics.exact cfg utm lat lon) : Real.Angle) =
      (2 : ℕ) • (cfg.rotationRad : Real.Angle) +
        (navpvtYaw Numerics.exact cfg (h * 180 / Real.pi) : ℝ) := by
  rw [course_coe hd hutm, navpvtYaw_coe, ← Real.Angle.coe_nsmul, ← Real.Angle.coe_add]
  congr 1
  rw [nsmul_eq_mul]
  push_cast
  ring

theorem two_nsmul_eq_zero_iff_sin (θ : ℝ) :
    (2 : ℕ) • (θ : Real.Angle) = 0 ↔ Real.sin θ = 0 := by
  rw [Real.Angle.two_nsmul_eq_zero_iff, ← Real.Angle.sin_eq_zero_iff, Real.Angle.sin_coe]

/-- `compute_heading` answers the direction from the last position it used, if that is far enough
away and the first. -/
theorem computeHeading_first {s : NavBridge ℝ} {q : ℝ × ℝ} (hq : s.lastMap = some q)
    (hfirst : s.lastHeading = none) {p : ℝ × ℝ}
    (hfar : cfg.headingMinDist ≤ Numerics.exact.hypot (p.1 - q.1) (p.2 - q.2)) :
    (s.computeHeading Numerics.exact cfg p).2 =
      some (Numerics.exact.atan2 (p.2 - q.2) (p.1 - q.1)) := by
  rw [computeHeading, hq]
  dsimp only
  rw [if_pos hfar, hfirst]

/-- The yaw published for the compass heading `h` of a motion is the direction of the motion on
the map exactly for the rotations by a multiple of half a turn. -/
theorem navpvtYaw_eq_course_iff (cfg : NavBridgeConfig ℝ) (utm : ℝ → ℝ → ℝ × ℝ)
    (lat lon lat' lon' h d : ℝ) (hd : 0 < d)
    (hutm : utm lat' lon' - utm lat lon = (d * Real.sin h, d * Real.cos h)) :
    let p := convertToMap Numerics.exact cfg utm lat lon
    let p' := convertToMap Numerics.exact cfg utm lat' lon'
    (((Numerics.exact.atan2 (p'.2 - p.2) (p'.1 - p.1) : ℝ) : Real.Angle) =
        (navpvtYaw Numerics.exact cfg (h * 180 / Real.pi) : ℝ)) ↔ Real.sin cfg.rotationRad = 0 := by
  intro p p'
  have hcourse : ((Numerics.exact.atan2 (p'.2 - p.2) (p'.1 - p.1) : ℝ) : Real.Angle) =
      (2 : ℕ) • (cfg.rotationRad : Real.Angle) +
        (navpvtYaw Numerics.exact cfg (h * 180 / Real.pi) : ℝ) := yaw_add_rotation hd hutm
  rw [hcourse, add_eq_right, two_nsmul_eq_zero_iff_sin]

/-- A metre to the north on a map that is not turned. -/
theorem navpvtYaw_eq_course_north :
    Real.sin (NavBridgeConfig.defaults (R := ℝ)).rotationRad = 0 ∧
      ((Numerics.exact.atan2
        ((convertToMap Numerics.exact .defaults (fun lat lon => (lon, lat)) 1 0).2 -
          (convertToMap Numerics.exact .defaults (fun lat lon => (lon, lat)) 0 0).2)
        ((convertToMap Numerics.exact .defaults (fun lat lon => (lon, lat)) 1 0).1 -
          (convertToMap Numerics.exact .defaults (fun lat lon => (lon, lat)) 0 0).1) : ℝ) :
          Real.Angle) = (navpvtYaw Numerics.exact .defaults (0 * 180 / Real.pi) : ℝ) := by
  have hrot : Real.sin (NavBridgeConfig.defaults (R := ℝ)).rotationRad = 0 := Real.sin_zero
  refine ⟨hrot, ?_⟩
  exact (navpvtYaw_eq_course_iff .defaults (fun lat lon => (lon, lat)) 0 0 1 0 0 1 one_pos
    (by simp)).mpr hrot

/-- A metre to the north on a map that is turned by a quarter: the position goes to the west, the
published yaw is to the east. -/
theorem navpvtYaw_against_course :
    let cfg : NavBridgeConfig ℝ := { NavBridgeConfig.defaults with rotationRad := Real.pi / 2 }
    let p := convertToMap Numerics.exact cfg (fun lat lon => (lon, lat)) 0 0
    let p' := convertToMap Numerics.exact cfg (fun lat lon => (lon, lat)) 1 0
    ((Numerics.exact.atan2 (p'.2 - p.2) (p'.1 - p.1) : ℝ) : Real.Angle) ≠
      (navpvtYaw Numerics.exact cfg (0 * 180 / Real.pi) : ℝ) := by
  intro cfg p p' heq
  have hcourse : ((Numerics.exact.atan2 (p'.2 - p.2) (p'.1 - p.1) : ℝ) : Real.Angle) =
      (2 : ℕ) • (cfg.rotationRad : Real.Angle) +
        (navpvtYaw Numerics.exact cfg (0 * 180 / Real.pi) : ℝ) :=
    yaw_add_rotation one_pos (by simp)
  rw [heq, right_eq_add, two_nsmul_eq_zero_iff_sin] at hcourse
  exact one_ne_zero (Real.sin_pi_div_two.symm.trans hcourse)

end NavBridge

end MgRobot.Slam
