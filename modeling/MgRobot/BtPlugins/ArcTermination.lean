import MgRobot.Lib.EqualChords
import MgRobot.Lib.RigidMotion
import MgRobot.BtPlugins.PathClearance

/-!
# The loop along the arc ends

`isMotionToCarrotBlocked` leaves its `while (true)` when the pose is further from
the robot than the carrot is, as the crow flies. That distance rises and falls
along a circle. The poses are a walk of equal chords; the pure-pursuit curvature
`2 * y / d²` is at most `2 / d`, and a walk on arcs of that curvature gets beyond `d`.
-/

namespace MgRobot.BtPlugins

set_option autoImplicit false

open MgRobot.Lib.Plane MgRobot.Lib.EqualChords

/-- `<cmath>` over the reals. -/
noncomputable def Cmath.exact : Cmath ℝ where
  sqrt := Real.sqrt
  sin := Real.sin
  cos := Real.cos
  atan2 y x := heading (x, y)
  hypot x y := Real.sqrt (x * x + y * y)

namespace PathClearanceChecker

section Fuel

variable {R : Type*} [Field R] [LinearOrder R] [FloorRing R] (m : Cmath R) (line : LineIterator)
  (c : PathClearanceChecker R)

/-- A result does not depend on the fuel that is left. -/
theorem arcBlocked_mono {robotPose : Pose2D R} {step curvature carrotDist : R} {result : Bool}
    {fuel fuel' : Nat} (hfuel : fuel ≤ fuel') :
    ∀ {pose : Pose2D R},
      c.arcBlocked m line robotPose step curvature carrotDist fuel pose = some result →
      c.arcBlocked m line robotPose step curvature carrotDist fuel' pose = some result := by
  induction fuel generalizing fuel' with
  | zero =>
      intro pose h
      exact absurd h nofun
  | succ fuel ih =>
      intro pose h
      obtain ⟨fuel', rfl⟩ : ∃ k, fuel' = k + 1 := ⟨fuel' - 1, by omega⟩
      unfold arcBlocked at h ⊢
      dsimp only at h ⊢
      split
      next hout => rwa [if_pos hout] at h
      next hout =>
        rw [if_neg hout] at h
        split
        next hhit => rwa [if_pos hhit] at h
        next hhit =>
          rw [if_neg hhit] at h
          exact ih (by omega) h

/-- The loop has ended by the round in which the pose is out of reach. -/
theorem arcBlocked_isSome {robotPose : Pose2D R} {step curvature carrotDist : R} (n : Nat) :
    ∀ {pose : Pose2D R},
      carrotDist < distance m ((advance m step curvature)^[n + 1] pose) robotPose →
      (c.arcBlocked m line robotPose step curvature carrotDist (n + 1) pose).isSome := by
  induction n with
  | zero =>
      intro pose h
      unfold arcBlocked
      dsimp only
      rw [if_pos (show carrotDist < distance m (advance m step curvature pose) robotPose from h)]
      rfl
  | succ n ih =>
      intro pose h
      unfold arcBlocked
      dsimp only
      split
      · rfl
      · split
        · rfl
        · exact ih h

end Fuel

/-- The poses of the loop are the walk, scaled by the step. -/
theorem iterate_advance (step curvature : ℝ) (pose : Pose2D ℝ) (n : ℕ) :
    (advance Cmath.exact step curvature)^[n] pose =
      ⟨pose.x + step * (walk pose.theta (step * curvature) n).1,
        pose.y + step * (walk pose.theta (step * curvature) n).2,
        pose.theta + n * (step * curvature)⟩ := by
  induction n with
  | zero => simp [walk]
  | succ n ih =>
      rw [Function.iterate_succ_apply', ih]
      simp only [advance, Cmath.exact, walk, Pose2D.mk.injEq]
      push_cast
      exact ⟨by ring, by ring, by ring⟩

theorem distance_iterate_advance {step : ℝ} (hstep : 0 < step) (curvature : ℝ) (pose : Pose2D ℝ)
    (n : ℕ) :
    distance Cmath.exact ((advance Cmath.exact step curvature)^[n] pose) pose =
      step * Real.sqrt (reach pose.theta (step * curvature) n) := by
  rw [iterate_advance]
  simp only [distance, Cmath.exact, reach, add_sub_cancel_left]
  rw [← Real.sqrt_sq hstep.le, ← Real.sqrt_mul (sq_nonneg step), Real.sqrt_sq hstep.le]
  congr 1
  ring

/-- The pure-pursuit curvature is at most that of the circle with the carrot's distance as its
diameter. -/
theorem abs_curvatureTo_mul (x y : ℝ) :
    |curvatureTo x y| * Real.sqrt (x * x + y * y) ≤ 2 := by
  unfold curvatureTo
  dsimp only
  split
  next hfar =>
    have hpos : 0 < x * x + y * y := lt_trans (by norm_num) hfar
    have hd := Real.sqrt_pos.mpr hpos
    have hsq := Real.mul_self_sqrt hpos.le
    have hy : |y| ≤ Real.sqrt (x * x + y * y) := by
      rw [← Real.sqrt_sq_eq_abs]
      exact Real.sqrt_le_sqrt (by nlinarith [mul_self_nonneg x])
    rw [abs_div, abs_mul, abs_two, abs_of_pos hpos, div_mul_eq_mul_div, div_le_iff₀ hpos]
    calc 2 * |y| * Real.sqrt (x * x + y * y)
        ≤ 2 * Real.sqrt (x * x + y * y) * Real.sqrt (x * x + y * y) := by gcongr
      _ = 2 * (x * x + y * y) := by rw [mul_assoc, hsq]
  next =>
    rw [abs_zero, zero_mul]
    exact zero_le_two

theorem exists_beyond {step : ℝ} (hstep : 0 < step) {curvature carrotDist : ℝ}
    (hdist : 0 ≤ carrotDist) (hcurvature : |curvature| * carrotDist ≤ 2) (pose : Pose2D ℝ) :
    ∃ n : ℕ, carrotDist <
      distance Cmath.exact ((advance Cmath.exact step curvature)^[n + 1] pose) pose := by
  have hscaled : |step * curvature| * (carrotDist / step) ≤ 2 := by
    rw [abs_mul, abs_of_pos hstep]
    calc step * |curvature| * (carrotDist / step) = |curvature| * carrotDist := by
          field_simp
      _ ≤ 2 := hcurvature
  have hnonneg : 0 ≤ carrotDist / step := by positivity
  obtain ⟨n, hn⟩ := exists_reach_gt_of_le pose.theta (step * curvature) hscaled hnonneg
  have hbeyond : carrotDist <
      distance Cmath.exact ((advance Cmath.exact step curvature)^[n] pose) pose := by
    rw [distance_iterate_advance hstep]
    calc carrotDist = step * (carrotDist / step) := by field_simp
      _ < step * Real.sqrt (reach pose.theta (step * curvature) n) := by
          have := Real.lt_sqrt_of_sq_lt hn
          gcongr
  match n with
  | 0 =>
      -- no step has been made yet
      rw [distance_iterate_advance hstep] at hbeyond
      simp only [reach, walk, mul_zero, add_zero, Real.sqrt_zero] at hbeyond
      exact absurd hbeyond (not_lt.mpr hdist)
  | n + 1 => exact ⟨n, hbeyond⟩

/-- From some fuel on, the sweep to the carrot has its result. -/
theorem motion_to_carrot_ends (c : PathClearanceChecker ℝ) (line : LineIterator)
    (robotPose carrot : Pose2D ℝ) (hresolution : 0 < c.costmap.resolution) :
    ∃ result, ∃ n, ∀ fuel, n ≤ fuel →
      c.isMotionToCarrotBlocked Cmath.exact line fuel robotPose carrot = some result := by
  unfold isMotionToCarrotBlocked
  dsimp only
  split
  next => exact ⟨_, 0, fun _ _ => rfl⟩
  next =>
    obtain ⟨n, hn⟩ := exists_beyond hresolution (Real.sqrt_nonneg _)
      (abs_curvatureTo_mul (carrotInRobotFrame Cmath.exact robotPose carrot).1
        (carrotInRobotFrame Cmath.exact robotPose carrot).2) robotPose
    obtain ⟨result, hresult⟩ := Option.isSome_iff_exists.mp
      (arcBlocked_isSome Cmath.exact line c n hn)
    exact ⟨result, n + 1, fun fuel hfuel => arcBlocked_mono Cmath.exact line c hfuel hresult⟩

/-- A map of cells of 5 cm, and a carrot to the left of the robot. -/
theorem motion_to_carrot_ends_left :
    ∃ result, ∃ n, ∀ fuel, n ≤ fuel →
      isMotionToCarrotBlocked Cmath.exact (fun c₀ c₁ => [c₀, c₁])
        ⟨⟨100, 100, 5 / 100, 0, 0, fun _ => 0⟩, ⟨[⟨1, 0⟩, ⟨0, 1⟩, ⟨-1, 0⟩], le_rfl⟩,
          ⟨false, 1, 1, 1, false, 1, 10, true, 0⟩⟩
        fuel ⟨2, 2, 0⟩ ⟨2, 3, 0⟩ = some result :=
  motion_to_carrot_ends _ _ _ _ (by norm_num)

end PathClearanceChecker

end MgRobot.BtPlugins
