import MgRobot.Lib.RigidMotion
import MgRobot.Slam.RelativePoses
import MgRobot.Slam.LocalMap

/-!
# Deskewing a scan

`core/deskew.cpp`: the end of every valid beam is taken to the frame of the robot at
the time of the scan, and range and angle of the beam are rewritten. The points of the
corrected scan are the ends moved by the robot's motion at the times of their beams, as
far as their distance from the lidar is still a valid range.
-/

namespace MgRobot.Slam

set_option autoImplicit false

open MgRobot.Lib.Plane

/-- A scan with the times the correction reads. -/
structure TimedScan (R : Type*) extends BeamScan R where
  timestamp : R
  scanDuration : R

structure DeskewConfig (R : Type*) where
  enabled : Bool := true
  direction : Int := -1
  startOffsetS : R
  durationS : R

/-- The defaults of `config.hpp`. -/
def DeskewConfig.defaults {R : Type*} [Field R] : DeskewConfig R where
  startOffsetS := -3 / 100
  durationS := 0

/-- `kSamples`. -/
def kSamples : Nat := 11

section Definitions

variable {R : Type*} [Field R] [LinearOrder R] [FloorRing R] (m : Numerics R)
  (config : DeskewConfig R) (scan : TimedScan R)

def deskewDuration : R := if 0 < config.durationS then config.durationS else scan.scanDuration

/-- The time of sample `k`. -/
def sampleTime (k : Nat) : R :=
  scan.timestamp + config.startOffsetS + deskewDuration config scan * k / ((kSamples - 1 : Nat) : R)

/-- The poses at the sample times, seen from the pose `reference`. -/
def relativeSamples (odomAt : R → Option (OdomData R)) (reference : OdomData R) :
    Option (List (Pose R)) :=
  (List.range kSamples).mapM fun k =>
    (odomAt (sampleTime config scan k)).map fun odom => m.deltaPose reference.pose odom.pose

/-- The place of a beam in the scan: `0` for the one measured first, `1` for the last. -/
def beamFrac (n i : Nat) : R :=
  if 0 < config.direction then (i : R) / ((n - 1 : Nat) : R)
  else ((n - 1 - i : Nat) : R) / ((n - 1 : Nat) : R)

/-- The pose at the part `u` of the samples. -/
def interpolateSamples (samples : List (Pose R)) (u : R) : Pose R :=
  let k := min (truncToInt u) ((kSamples - 2 : Nat) : Int)
  let w := u - k
  let a := samples.getD k.toNat ⟨0, 0, 0⟩
  let b := samples.getD (k + 1).toNat ⟨0, 0, 0⟩
  ⟨a.x + w * (b.x - a.x), a.y + w * (b.y - a.y), a.yaw + w * m.angleDiff b.yaw a.yaw⟩

/-- The range and the angle of beam `i` after the correction. -/
def correctBeam (samples : List (Pose R)) (i : Nat) (r : R) : R × R :=
  let angle := beamAngle scan.toBeamScan i
  if scan.inLimits r then
    let u := beamFrac config scan.ranges.length i * ((kSamples - 1 : Nat) : R)
    let d := interpolateSamples m samples u
    let px := scan.lidarX + r * m.cos angle
    let py := scan.lidarY + r * m.sin angle
    let c := m.cos d.yaw
    let s := m.sin d.yaw
    let rx := c * px - s * py + d.x - scan.lidarX
    let ry := s * px + c * py + d.y - scan.lidarY
    (m.hypot rx ry, m.atan2 ry rx)
  else (r, angle)

/-- `deskew_scan`: the scan it leaves, and whether it was corrected. -/
def deskewScan (odomAt : R → Option (OdomData R)) : TimedScan R × Bool :=
  if !config.enabled ∨ config.direction = 0 ∨ scan.ranges.length < 2 ∨
      deskewDuration config scan ≤ 0 then (scan, false)
  else
    match odomAt scan.timestamp with
    | none => (scan, false)
    | some reference =>
        match relativeSamples m config scan odomAt reference with
        | none => (scan, false)
        | some samples =>
            let beams := scan.ranges.zipIdx.map fun p => correctBeam m config scan samples p.2 p.1
            ({ scan with ranges := beams.map Prod.fst, angles := beams.map Prod.snd }, true)

end Definitions

/-! ## The points of a corrected scan -/

namespace TimedScan

variable (config : DeskewConfig ℝ) (scan : TimedScan ℝ) (odomAt : ℝ → Option (OdomData ℝ))

/-- The pose of the robot at a time. -/
noncomputable def robotAt (t : ℝ) : Motion := ((odomAt t).map fun o => o.pose.motion).getD 1

/-- The motion of the robot since the time of the scan, at sample `k`. -/
noncomputable def sampleMotion (k : ℕ) : Motion :=
  (robotAt odomAt scan.timestamp)⁻¹ * robotAt odomAt (sampleTime config scan k)

/-- The time at which beam `i` was measured. -/
noncomputable def beamTime (i : ℕ) : ℝ :=
  scan.timestamp + config.startOffsetS +
    deskewDuration config scan * beamFrac config scan.ranges.length i

/-- The motion of the robot since the time of the scan, linear between the samples. -/
noncomputable def motionAt (t : ℝ) : Motion :=
  Motion.path (scan.sampleMotion config odomAt)
    ((t - sampleTime config scan 0) / (deskewDuration config scan / (kSamples - 1 : ℕ)))

/-- The ends of the valid beams, each moved by the motion at its time. -/
noncomputable def movedPoints : List (ℝ × ℝ) :=
  (scan.validBeams .exact).map fun p =>
    (scan.motionAt config odomAt (scan.beamTime config p.2)).act p.1

/-- The scan can be corrected: the settings allow it, and the odometry is known at all times it is
asked for. -/
def Correctable : Prop :=
  config.enabled = true ∧ config.direction ≠ 0 ∧ 2 ≤ scan.ranges.length ∧
    0 < deskewDuration config scan ∧ (odomAt scan.timestamp).isSome = true ∧
    ∀ k < kSamples, (odomAt (sampleTime config scan k)).isSome = true

/-- The distance of a point from the lidar is a valid range. -/
def inReach (q : ℝ × ℝ) : Prop :=
  scan.inLimits (Real.sqrt (dot (q - (scan.lidarX, scan.lidarY)) (q - (scan.lidarX, scan.lidarY))))

end TimedScan

section Polar

/-- The point at a heading, at its distance. -/
theorem sqrt_mul_cos_heading (v : ℝ × ℝ) : Real.sqrt (dot v v) * Real.cos (heading v) = v.1 := by
  have hnorm : ‖(⟨v.1, v.2⟩ : ℂ)‖ = Real.sqrt (dot v v) := by
    rw [Complex.norm_def, Complex.normSq_mk]
    rfl
  rw [← hnorm]
  exact Complex.norm_mul_cos_arg _

theorem sqrt_mul_sin_heading (v : ℝ × ℝ) : Real.sqrt (dot v v) * Real.sin (heading v) = v.2 := by
  have hnorm : ‖(⟨v.1, v.2⟩ : ℂ)‖ = Real.sqrt (dot v v) := by
    rw [Complex.norm_def, Complex.normSq_mk]
    rfl
  rw [← hnorm]
  exact Complex.norm_mul_sin_arg _

/-- `angle_diff` is the representative of the difference in `(-π, π]`. -/
theorem angleDiff_exact (a b : ℝ) :
    Numerics.exact.angleDiff a b = ((a : Real.Angle) - b).toReal := by
  rw [← Numerics.exact_exact.angleDiff a b]
  exact (Complex.arg_coe_angle_toReal_eq_arg _).symm

end Polar

section Samples

/-- A list of answers is there when every single one is. -/
theorem mapM_eq_some_iff {α β : Type*} {f : α → Option β} {l : List α} {ys : List β} :
    l.mapM f = some ys ↔ l.map f = ys.map some := by
  induction l generalizing ys with
  | nil =>
      rw [List.mapM_nil, List.map_nil, eq_comm (b := ys.map some), List.map_eq_nil_iff]
      exact ⟨fun h => (Option.some.inj h).symm, fun h => by rw [h]; rfl⟩
  | cons x rest ih =>
      rw [List.mapM_cons, List.map_cons]
      constructor
      · intro h
        obtain ⟨y, hy, h⟩ := Option.bind_eq_some_iff.mp h
        obtain ⟨zs, hz, h⟩ := Option.bind_eq_some_iff.mp h
        obtain rfl := Option.some.inj h
        rw [hy, ih.mp hz]
        rfl
      · intro h
        cases ys with
        | nil => cases h
        | cons y zs =>
            obtain ⟨hy, hz⟩ := List.cons.inj h
            rw [hy, ih.mpr hz]
            rfl

theorem isSome_mapM_iff {α β : Type*} {f : α → Option β} {l : List α} :
    (l.mapM f).isSome = true ↔ ∀ x ∈ l, (f x).isSome = true := by
  constructor
  · intro h x hx
    obtain ⟨ys, hys⟩ := Option.isSome_iff_exists.mp h
    have hmem : f x ∈ ys.map some := by
      rw [← mapM_eq_some_iff.mp hys]
      exact List.mem_map_of_mem hx
    obtain ⟨y, _, hy⟩ := List.mem_map.mp hmem
    rw [← hy]
    rfl
  · intro h
    induction l with
    | nil => rfl
    | cons x rest ih =>
        obtain ⟨y, hy⟩ := Option.isSome_iff_exists.mp (h x List.mem_cons_self)
        obtain ⟨ys, hys⟩ := Option.isSome_iff_exists.mp
          (ih fun z hz => h z (List.mem_cons_of_mem x hz))
        rw [List.mapM_cons, hy, hys]
        rfl

variable {config : DeskewConfig ℝ} {scan : TimedScan ℝ} {odomAt : ℝ → Option (OdomData ℝ)}
  {reference : OdomData ℝ} {samples : List (Pose ℝ)}

/-- The samples of the code are the relative motions at the sample times. -/
theorem relativeSamples_motion (href : odomAt scan.timestamp = some reference)
    (h : relativeSamples .exact config scan odomAt reference = some samples) {k : ℕ}
    (hk : k < kSamples) :
    (samples.getD k ⟨0, 0, 0⟩).motion = scan.sampleMotion config odomAt k := by
  have hmap := congrArg (fun l => l[k]?) (mapM_eq_some_iff.mp h)
  simp only [List.getElem?_map, List.getElem?_range hk, Option.map_some] at hmap
  cases hs : samples[k]? with
  | none =>
      rw [hs] at hmap
      cases hmap
  | some sample =>
      rw [hs, Option.map_some, Option.some.injEq, Option.map_eq_some_iff] at hmap
      obtain ⟨odom, hodom, rfl⟩ := hmap
      rw [List.getD_eq_getElem?_getD, hs, Option.getD_some, Numerics.exact_exact.deltaPose,
        TimedScan.sampleMotion, TimedScan.robotAt, TimedScan.robotAt, href, hodom]
      rfl

/-- The interpolation of the code is the path through the sampled motions. -/
theorem interpolateSamples_motion (href : odomAt scan.timestamp = some reference)
    (h : relativeSamples .exact config scan odomAt reference = some samples) {u : ℝ}
    (hu0 : 0 ≤ u) (hu : u ≤ (kSamples - 1 : ℕ)) :
    (interpolateSamples .exact samples u).motion =
      Motion.path (scan.sampleMotion config odomAt) u := by
  obtain ⟨k, hkmin, hklt, hku, huk⟩ : ∃ k : ℕ,
      min (truncToInt u) ((kSamples - 2 : ℕ) : ℤ) = k ∧ k + 1 < kSamples ∧ (k : ℝ) ≤ u ∧
        u ≤ k + 1 := by
    have hfloor0 : 0 ≤ ⌊u⌋ := Int.floor_nonneg.mpr hu0
    rw [truncToInt_of_nonneg hu0]
    unfold kSamples at hu ⊢
    rcases le_total ⌊u⌋ ((11 - 2 : ℕ) : ℤ) with hle | hle
    · obtain ⟨k, hk⟩ := Int.eq_ofNat_of_zero_le hfloor0
      have hcast : ((k : ℤ) : ℝ) = k := Int.cast_natCast k
      refine ⟨k, by rw [min_eq_left hle, hk], by omega, ?_, ?_⟩
      · rw [← hcast, show (k : ℤ) = ⌊u⌋ from hk.symm]
        exact Int.floor_le u
      · rw [← hcast, show (k : ℤ) = ⌊u⌋ from hk.symm]
        exact (Int.lt_floor_add_one u).le
    · refine ⟨9, min_eq_right hle, by omega, ?_, ?_⟩
      · exact_mod_cast Int.le_floor.mp hle
      · push_cast at hu ⊢
        linarith
  have ha := relativeSamples_motion href h (show k < kSamples by omega)
  have hb := relativeSamples_motion href h hklt
  rw [Motion.path_eq hku huk, ← ha, ← hb]
  unfold interpolateSamples
  simp only [hkmin, Int.toNat_natCast, Int.cast_natCast,
    show ((k : ℤ) + 1).toNat = k + 1 by omega]
  apply Motion.ext
  · rfl
  · unfold Motion.between Pose.motion
    rw [angleDiff_exact, Real.Angle.coe_add]

theorem beamFrac_mem {n i : ℕ} (hi : i < n) (hn : 2 ≤ n) :
    0 ≤ (beamFrac config n i : ℝ) ∧ (beamFrac config n i : ℝ) ≤ 1 := by
  have hpos : (0 : ℝ) < (n - 1 : ℕ) := by
    rw [Nat.cast_pos]
    omega
  unfold beamFrac
  split_ifs
  · refine ⟨by positivity, (div_le_one hpos).mpr ?_⟩
    exact_mod_cast Nat.le_sub_one_of_lt hi
  · refine ⟨by positivity, (div_le_one hpos).mpr ?_⟩
    exact_mod_cast Nat.sub_le _ _

/-- The place of a beam among the samples is its time. -/
theorem motionAt_beamTime (hdur : 0 < deskewDuration config scan) (i : ℕ) :
    scan.motionAt config odomAt (scan.beamTime config i) =
      Motion.path (scan.sampleMotion config odomAt)
        (beamFrac config scan.ranges.length i * (kSamples - 1 : ℕ)) := by
  unfold TimedScan.motionAt TimedScan.beamTime sampleTime
  congr 1
  have hne : deskewDuration config scan ≠ 0 := hdur.ne'
  unfold kSamples
  push_cast
  field_simp
  ring

/-- The point of a corrected beam is the moved point, and its range the distance to the lidar. -/
theorem correctBeam_valid (href : odomAt scan.timestamp = some reference)
    (h : relativeSamples .exact config scan odomAt reference = some samples)
    (hdur : 0 < deskewDuration config scan) {i : ℕ} (hi : i < scan.ranges.length)
    (hn : 2 ≤ scan.ranges.length) {r : ℝ} (hr : scan.inLimits r) :
    let q := (scan.motionAt config odomAt (scan.beamTime config i)).act
      (scan.beamPoint .exact (beamAngle scan.toBeamScan i) r)
    let c := correctBeam .exact config scan samples i r
    c.1 = Real.sqrt (dot (q - (scan.lidarX, scan.lidarY)) (q - (scan.lidarX, scan.lidarY))) ∧
      scan.beamPoint .exact c.2 c.1 = q := by
  intro q c
  obtain ⟨hfrac0, hfrac1⟩ := beamFrac_mem hi hn
  have hu0 : (0 : ℝ) ≤ beamFrac config scan.ranges.length i * (kSamples - 1 : ℕ) := by positivity
  have hu : (beamFrac config scan.ranges.length i * (kSamples - 1 : ℕ) : ℝ) ≤ (kSamples - 1 : ℕ) :=
    mul_le_of_le_one_left (Nat.cast_nonneg _) hfrac1
  have hmotion := interpolateSamples_motion href h hu0 hu
  rw [← motionAt_beamTime hdur i] at hmotion
  have hq : q = (interpolateSamples .exact samples
      (beamFrac config scan.ranges.length i * (kSamples - 1 : ℕ))).motion.act
        (scan.beamPoint .exact (beamAngle scan.toBeamScan i) r) := by
    rw [hmotion]
  rw [act_motion] at hq
  -- what the code leaves is the image, seen from the lidar, in polar coordinates
  have hcorrected : c = (Real.sqrt (dot (q - (scan.lidarX, scan.lidarY))
      (q - (scan.lidarX, scan.lidarY))), heading (q - (scan.lidarX, scan.lidarY))) := by
    show correctBeam .exact config scan samples i r = _
    rw [correctBeam, if_pos hr, hq]
    unfold BeamScan.beamPoint
    simp only [add_comm scan.lidarX, add_comm scan.lidarY]
    rfl
  rw [hcorrected]
  refine ⟨rfl, ?_⟩
  unfold BeamScan.beamPoint
  have hx := sqrt_mul_cos_heading (q - (scan.lidarX, scan.lidarY))
  have hy := sqrt_mul_sin_heading (q - (scan.lidarX, scan.lidarY))
  rw [Prod.fst_sub] at hx
  rw [Prod.snd_sub] at hy
  ext
  · exact eq_sub_iff_add_eq.mp hx
  · exact eq_sub_iff_add_eq.mp hy

end Samples

section Points

variable {config : DeskewConfig ℝ} {scan : TimedScan ℝ} {odomAt : ℝ → Option (OdomData ℝ)}

theorem zipIdx_map_zipIdx {α β : Type*} (f : α × ℕ → β) (l : List α) (k : ℕ) :
    ((l.zipIdx k).map f).zipIdx k = (l.zipIdx k).map fun p => (f p, p.2) := by
  induction l generalizing k with
  | nil => rfl
  | cons x rest ih => simp [ih]

variable (scan) in
/-- Every beam of a corrected scan has an angle of its own. -/
theorem beamAngle_corrected {l : List ℝ} (f : ℝ × ℕ → ℝ × ℝ) {r : ℝ} {i : ℕ}
    (hi : (r, i) ∈ l.zipIdx) :
    beamAngle { scan with
      ranges := (l.zipIdx.map f).map Prod.fst, angles := (l.zipIdx.map f).map Prod.snd } i =
        (f (r, i)).2 := by
  have hget : l[i]? = some r := List.mem_zipIdx_iff_getElem?.mp hi
  have hne : l ≠ [] := by
    rintro rfl
    cases hi
  have hangles : ((l.zipIdx.map f).map Prod.snd).isEmpty = false := by
    simp [hne]
  unfold beamAngle
  dsimp only
  rw [hangles, if_neg Bool.false_ne_true, List.getD_eq_getElem?_getD, List.getElem?_map,
    List.getElem?_map, List.getElem?_zipIdx, hget]
  simp

open Classical in
/-- The points of a corrected scan are the moved points that are still in reach. -/
theorem scanToPoints_corrected (hc : scan.Correctable config odomAt) :
    ∃ corrected : TimedScan ℝ, deskewScan .exact config scan odomAt = (corrected, true) ∧
      scanToPoints .exact corrected.toBeamScan =
        (scan.movedPoints config odomAt).filter fun q => scan.inReach q := by
  obtain ⟨henabled, hdir, hn, hdur, href, hsome⟩ := hc
  obtain ⟨reference, href⟩ := Option.isSome_iff_exists.mp href
  have hsamples : (relativeSamples .exact config scan odomAt reference).isSome = true := by
    refine isSome_mapM_iff.mpr fun k hk => ?_
    rw [Option.isSome_map]
    exact hsome k (List.mem_range.mp hk)
  obtain ⟨samples, hsamples⟩ := Option.isSome_iff_exists.mp hsamples
  have hguard : ¬ ((!config.enabled) = true ∨ config.direction = 0 ∨ scan.ranges.length < 2 ∨
      deskewDuration config scan ≤ 0) := by
    simp only [henabled, Bool.not_true, Bool.false_eq_true, false_or, not_or, not_lt, not_le]
    exact ⟨hdir, hn, hdur⟩
  refine ⟨_, by rw [deskewScan, if_neg hguard, href]; dsimp only; rw [hsamples], ?_⟩
  unfold scanToPoints TimedScan.movedPoints BeamScan.validBeams
  dsimp only
  rw [List.map_map, zipIdx_map_zipIdx, List.filterMap_map, List.map_filterMap, List.map_filterMap,
    List.filter_filterMap]
  refine List.filterMap_congr fun p hp => ?_
  obtain ⟨r, i⟩ := p
  have hangle := beamAngle_corrected scan
    (fun p => correctBeam .exact config scan samples p.2 p.1) hp
  have hlt : i < scan.ranges.length := (List.mem_zipIdx' hp).1
  have hmoved : (some (scan.beamPoint .exact (beamAngle scan.toBeamScan i) r, i)).map
      (fun b => (scan.motionAt config odomAt (scan.beamTime config b.2)).act b.1) =
        some ((scan.motionAt config odomAt (scan.beamTime config i)).act
          (scan.beamPoint .exact (beamAngle scan.toBeamScan i) r)) := rfl
  simp only [Function.comp_apply, List.map_map] at hangle ⊢
  rw [hangle]
  by_cases hr : scan.inLimits r
  · obtain ⟨hrange, hpoint⟩ := correctBeam_valid href hsamples hdur hlt hn hr
    rw [if_pos hr, hmoved]
    change Option.map Prod.fst (if scan.inLimits (correctBeam .exact config scan samples i r).1 then
      some (scan.beamPoint .exact (correctBeam .exact config scan samples i r).2
        (correctBeam .exact config scan samples i r).1, i) else none) = _
    rw [hpoint, hrange, Option.filter_some]
    generalize (scan.motionAt config odomAt (scan.beamTime config i)).act
      (scan.beamPoint .exact (beamAngle scan.toBeamScan i) r) = q
    by_cases hreach : scan.inReach q
    · rw [if_pos (decide_eq_true hreach)]
      exact congrArg _ (if_pos hreach)
    · have hfalse : ¬ decide (scan.inReach q) = true := by simpa using hreach
      rw [if_neg hfalse]
      exact congrArg _ (if_neg hreach)
  · have hsame : (correctBeam .exact config scan samples i r).1 = r := by
      rw [correctBeam, if_neg hr]
    rw [if_neg hr, if_neg (by rw [hsame]; exact hr)]
    rfl

/-- A scan that cannot be corrected is left as it is. -/
theorem deskewScan_of_not_correctable (h : ¬ scan.Correctable config odomAt) :
    deskewScan .exact config scan odomAt = (scan, false) := by
  unfold deskewScan
  split_ifs with hguard
  · rfl
  · split
    next => rfl
    next reference href =>
      split
      next => rfl
      next samples hsamples =>
        refine absurd ?_ h
        simp only [not_or, not_lt, not_le] at hguard
        obtain ⟨henabled, hdir, hn, hdur⟩ := hguard
        refine ⟨by simpa using henabled, hdir, hn, hdur, by rw [href]; rfl, fun k hk => ?_⟩
        have hsome := isSome_mapM_iff.mp (Option.isSome_of_mem hsamples) k (List.mem_range.mpr hk)
        rwa [Option.isSome_map] at hsome

/-- Where the odometry does not change, no point moves. -/
theorem movedPoints_of_constant {p : Pose ℝ} (h : ∀ t, (odomAt t).map OdomData.pose = some p) :
    scan.movedPoints config odomAt = scanToPoints .exact scan.toBeamScan := by
  have hsample : scan.sampleMotion config odomAt = fun _ => 1 := by
    have hrobot : TimedScan.robotAt odomAt = fun _ => p.motion := by
      funext t
      have hmap : ((odomAt t).map OdomData.pose).map Pose.motion = some p.motion := by rw [h]; rfl
      rw [Option.map_map] at hmap
      exact congrArg (fun o => o.getD 1) hmap
    funext k
    rw [TimedScan.sampleMotion, hrobot, inv_mul_cancel]
  unfold TimedScan.movedPoints scanToPoints
  refine List.map_congr_left fun p _ => ?_
  rw [TimedScan.motionAt, hsample, Motion.path_const, Motion.one_act]

/-- The scan left is the scan given, or its points are the moved points of the scan given; with
constant odometry they do not change. -/
def DeskewedExactly (config : DeskewConfig ℝ) (scan : TimedScan ℝ)
    (odomAt : ℝ → Option (OdomData ℝ)) : Prop :=
  let result := deskewScan .exact config scan odomAt
  (result.2 = false → result.1 = scan) ∧
    (result.2 = true →
      scanToPoints .exact result.1.toBeamScan = scan.movedPoints config odomAt) ∧
    ((∃ p, ∀ t, (odomAt t).map OdomData.pose = some p) →
      scanToPoints .exact result.1.toBeamScan = scanToPoints .exact scan.toBeamScan)

open Classical in
theorem deskewedExactly_of_correctable (hc : scan.Correctable config odomAt) :
    DeskewedExactly config scan odomAt ↔ ∀ q ∈ scan.movedPoints config odomAt, scan.inReach q := by
  obtain ⟨corrected, hresult, hpoints⟩ := scanToPoints_corrected hc
  have hfilter : scanToPoints .exact corrected.toBeamScan = scan.movedPoints config odomAt ↔
      ∀ q ∈ scan.movedPoints config odomAt, scan.inReach q := by
    rw [hpoints, List.filter_eq_self]
    simp only [decide_eq_true_eq]
  unfold DeskewedExactly
  rw [hresult, ← hfilter]
  constructor
  · intro h
    exact h.2.1 rfl
  · intro hmoved
    refine ⟨fun hfalse => Bool.noConfusion hfalse, fun _ => hmoved, fun hconst => ?_⟩
    obtain ⟨p, hp⟩ := hconst
    exact hmoved.trans (movedPoints_of_constant hp)

/-- The correction moves the points of a scan, and loses none of them, as far as each moved point
is in reach. -/
theorem deskewedExactly_iff (config : DeskewConfig ℝ) (scan : TimedScan ℝ)
    (odomAt : ℝ → Option (OdomData ℝ)) :
    DeskewedExactly config scan odomAt ↔
      (scan.Correctable config odomAt → ∀ q ∈ scan.movedPoints config odomAt, scan.inReach q) := by
  by_cases hc : scan.Correctable config odomAt
  · rw [deskewedExactly_of_correctable hc]
    exact ⟨fun h _ => h, fun h => h hc⟩
  · unfold DeskewedExactly
    rw [deskewScan_of_not_correctable hc]
    exact ⟨fun _ h => absurd h hc,
      fun _ => ⟨fun _ => rfl, fun htrue => Bool.noConfusion htrue, fun _ => rfl⟩⟩

end Points

section Forward

/-- A beam straight ahead, as long as the lidar can see, and one without an echo. -/
noncomputable def aheadScan : TimedScan ℝ where
  ranges := [10, 0]
  angles := []
  angleMin := 0
  angleIncrement := 1
  rangeMin := 1 / 10
  rangeMax := 10
  lidarX := 0
  lidarY := 0
  timestamp := 0
  scanDuration := 1 / 10

/-- The robot drives ahead with `1 m/s`. -/
noncomputable def aheadOdom (t : ℝ) : Option (OdomData ℝ) :=
  some { timestamp := t, x := t, y := 0, yaw := 0 }

theorem aheadScan_duration : deskewDuration .defaults aheadScan = 1 / 10 := by
  simp [deskewDuration, DeskewConfig.defaults, aheadScan]

theorem aheadScan_correctable : aheadScan.Correctable .defaults aheadOdom := by
  refine ⟨rfl, by decide, le_rfl, ?_, rfl, fun _ _ => rfl⟩
  rw [aheadScan_duration]
  norm_num

theorem robotAt_ahead (t : ℝ) : TimedScan.robotAt aheadOdom t = ⟨(t, 0), 0⟩ := by
  refine Motion.ext rfl ?_
  exact Real.Angle.coe_zero

theorem sampleMotion_ahead (k : ℕ) :
    aheadScan.sampleMotion .defaults aheadOdom k = ⟨(k / 100 - 3 / 100, 0), 0⟩ := by
  have htime : sampleTime .defaults aheadScan k = k / 100 - 3 / 100 := by
    rw [sampleTime, aheadScan_duration]
    unfold kSamples DeskewConfig.defaults aheadScan
    push_cast
    ring
  rw [TimedScan.sampleMotion, robotAt_ahead, robotAt_ahead, htime]
  apply Motion.ext
  · rw [Motion.inv_mul_shift]
    simp [aheadScan]
  · simp

/-- The beam straight ahead is the last one measured, `0.07 s` after the time of the scan. -/
theorem aheadScan_moved :
    (10 + 7 / 100, 0) ∈ aheadScan.movedPoints .defaults aheadOdom := by
  have hbeam : ((10, 0), 0) ∈ aheadScan.validBeams .exact := by
    refine List.mem_filterMap.mpr ⟨(10, 0), by simp [aheadScan], ?_⟩
    rw [if_pos (by unfold BeamScan.inLimits aheadScan; norm_num)]
    simp [BeamScan.beamPoint, beamAngle, aheadScan, Numerics.exact]
  refine List.mem_map.mpr ⟨_, hbeam, ?_⟩
  have hpart : (beamFrac (.defaults : DeskewConfig ℝ) aheadScan.ranges.length 0 *
      (kSamples - 1 : ℕ) : ℝ) = (10 : ℕ) := by
    simp [beamFrac, DeskewConfig.defaults, aheadScan, kSamples]
  rw [motionAt_beamTime aheadScan_correctable.2.2.2.1, hpart, Motion.path_natCast,
    sampleMotion_ahead]
  ext
  · simp [Motion.act]
    norm_num
  · simp [Motion.act]

/-- The corrected scan has lost the point ahead. -/
theorem not_deskewedExactly_ahead : ¬ DeskewedExactly .defaults aheadScan aheadOdom := by
  rw [deskewedExactly_of_correctable aheadScan_correctable]
  intro h
  obtain ⟨-, hmax⟩ := h _ aheadScan_moved
  have hdist : Real.sqrt (dot ((10 + 7 / 100, 0) - (aheadScan.lidarX, aheadScan.lidarY))
      ((10 + 7 / 100, 0) - (aheadScan.lidarX, aheadScan.lidarY))) = 10 + 7 / 100 := by
    rw [Real.sqrt_eq_iff_mul_self_eq_of_pos (by norm_num)]
    simp [dot, aheadScan]
  rw [hdist] at hmax
  unfold aheadScan at hmax
  norm_num at hmax

end Forward

end MgRobot.Slam
