import Mathlib.Algebra.Order.Field.Basic
import Mathlib.Algebra.Order.Floor.Ring
import MgRobot.Lib.RigidMotion

/-!
# The corrector of the wheel odometry

`OdomCorrector` of `wheel_odom_correction.py`: the increments of the raw pose are taken
in the body frame, scaled, and added up again. A pose is a rigid motion, and an
increment is one raw pose seen from the last, which does not change when the plane is
moved; the corrected pose is composed with what is made of it.
-/

namespace MgRobot.WheelOdom

set_option autoImplicit false

open MgRobot.Lib.Plane

structure OdomPose (R : Type*) where
  x : R
  y : R
  yaw : R
  deriving DecidableEq, Repr

/-- The functions of `math`. -/
structure PyMath (R : Type*) where
  pi : R
  cos : R → R
  sin : R → R
  hypot : R → R → R

/-- The parameters of the node for the corrector. -/
structure CorrectorGains (R : Type*) where
  kV : R
  kW : R
  yawBiasPerMeter : R
  resetJumpM : R

/-- What the corrector keeps; `pose` is what the last `update` returned. -/
structure OdomCorrector (R : Type*) where
  prevRaw : Option (OdomPose R)
  pose : OdomPose R
  wasReset : Bool

/-- An increment in the body frame. -/
structure BodyDelta (R : Type*) where
  x : R
  y : R
  yaw : R

section

variable {R : Type*} [Field R] [LinearOrder R] [FloorRing R] (m : PyMath R) (g : CorrectorGains R)

/-- `wrap_angle`; `%` of Python has the sign of its second operand. -/
def PyMath.wrapAngle (angle : R) : R :=
  angle + m.pi - ⌊(angle + m.pi) / (2 * m.pi)⌋ * (2 * m.pi) - m.pi

/-- The increment of the raw pose, in the frame of the heading halfway. -/
def rawDelta (prev raw : OdomPose R) : BodyDelta R :=
  let dx := raw.x - prev.x
  let dy := raw.y - prev.y
  let dyaw := m.wrapAngle (raw.yaw - prev.yaw)
  let mid := prev.yaw + dyaw / 2
  let c := m.cos mid
  let s := m.sin mid
  ⟨c * dx + s * dy, -s * dx + c * dy, dyaw⟩

def CorrectorGains.correct (delta : BodyDelta R) : BodyDelta R :=
  let bodyX := delta.x * g.kV
  let bodyY := delta.y * g.kV
  ⟨bodyX, bodyY, g.kW * delta.yaw + g.yawBiasPerMeter * bodyX⟩

def OdomPose.advance (pose : OdomPose R) (delta : BodyDelta R) : OdomPose R :=
  let mid := pose.yaw + delta.yaw / 2
  let c := m.cos mid
  let s := m.sin mid
  ⟨pose.x + c * delta.x - s * delta.y, pose.y + s * delta.x + c * delta.y,
    m.wrapAngle (pose.yaw + delta.yaw)⟩

namespace OdomCorrector

def initial : OdomCorrector R := ⟨none, ⟨0, 0, 0⟩, true⟩

def update (s : OdomCorrector R) (raw : OdomPose R) : OdomCorrector R :=
  match s.prevRaw with
  | none => ⟨some raw, raw, true⟩
  | some prev =>
      -- After a jump, such as a restart of the driver, the pose follows the raw one again.
      if g.resetJumpM < m.hypot (raw.x - prev.x) (raw.y - prev.y) then ⟨some raw, raw, true⟩
      else ⟨some raw, s.pose.advance m (g.correct (rawDelta m prev raw)), false⟩

/-- The corrector after each pose of a stream. -/
def updates : OdomCorrector R → List (OdomPose R) → List (OdomCorrector R)
  | _, [] => []
  | s, raw :: raws => s.update m g raw :: updates (s.update m g raw) raws

/-- `correct_twist` of the velocity `(vx, wz)`. -/
def correctTwist (vx wz : R) : R × R :=
  let vxCorrected := g.kV * vx
  (vxCorrected, g.kW * wz + g.yawBiasPerMeter * vxCorrected)

end OdomCorrector

omit [LinearOrder R] [FloorRing R] in
/-- Increments are corrected as velocities are. -/
theorem correct_eq_correctTwist (delta : BodyDelta R) :
    ((g.correct delta).x, (g.correct delta).yaw) =
      OdomCorrector.correctTwist g delta.x delta.yaw := by
  simp only [CorrectorGains.correct, OdomCorrector.correctTwist, mul_comm]

end

/-! ## The corrector in a moved frame -/

noncomputable def PyMath.exact : PyMath ℝ where
  pi := Real.pi
  cos := Real.cos
  sin := Real.sin
  hypot x y := √(x ^ 2 + y ^ 2)

noncomputable def OdomPose.motion (p : OdomPose ℝ) : Motion := ⟨(p.x, p.y), p.yaw⟩

/-- The motion along an arc with the chord `delta`. -/
noncomputable def BodyDelta.motion (delta : BodyDelta ℝ) : Motion :=
  ⟨turn (delta.yaw / 2) (delta.x, delta.y), delta.yaw⟩

/-! ## Angles -/

theorem coe_wrapAngle (a : ℝ) : (PyMath.exact.wrapAngle a : Real.Angle) = a := by
  rw [Real.Angle.angle_eq_iff_two_pi_dvd_sub]
  refine ⟨-⌊(a + Real.pi) / (2 * Real.pi)⌋, ?_⟩
  simp only [PyMath.wrapAngle, PyMath.exact]
  push_cast
  ring

/-- Whole turns do not change what is left of an angle. -/
theorem wrapAngle_congr {a b : ℝ} (h : (a : Real.Angle) = b) :
    PyMath.exact.wrapAngle a = PyMath.exact.wrapAngle b := by
  obtain ⟨k, hk⟩ := Real.Angle.angle_eq_iff_two_pi_dvd_sub.mp h
  obtain rfl : a = b + 2 * Real.pi * k := by linarith
  have hfloor : (b + 2 * Real.pi * k + Real.pi) / (2 * Real.pi) =
      (b + Real.pi) / (2 * Real.pi) + k := by
    field_simp
    ring
  simp only [PyMath.wrapAngle, PyMath.exact]
  rw [hfloor, Int.floor_add_intCast]
  push_cast
  ring

/-! ## Increments -/

section Increments

variable {p r p' r' : OdomPose ℝ}

theorem motion_advance (p : OdomPose ℝ) (delta : BodyDelta ℝ) :
    (p.advance .exact delta).motion = p.motion * delta.motion := by
  have hmid : turnBy p.yaw (turn (delta.yaw / 2) (delta.x, delta.y)) =
      turn (p.yaw + delta.yaw / 2) (delta.x, delta.y) := by
    rw [← turnBy_coe, turnBy_turnBy, ← Real.Angle.coe_add, turnBy_coe]
  refine Motion.ext ?_ ?_
  · rw [Motion.mul_shift]
    simp only [OdomPose.motion, BodyDelta.motion]
    rw [hmid]
    ext <;> simp only [OdomPose.advance, PyMath.exact, turn, Prod.fst_add, Prod.snd_add] <;> ring
  · rw [Motion.mul_angle]
    exact coe_wrapAngle _

/-- The chord is turned back by the heading halfway. -/
theorem rawDelta_chord (p r : OdomPose ℝ) :
    ((rawDelta .exact p r).x, (rawDelta .exact p r).y) =
      turn (-(p.yaw + (rawDelta .exact p r).yaw / 2)) (r.x - p.x, r.y - p.y) := by
  simp only [turn, Real.cos_neg, Real.sin_neg, neg_mul, sub_neg_eq_add]
  refine Prod.ext rfl ?_
  show -Real.sin _ * (r.x - p.x) + _ = _
  rw [neg_mul]
  rfl

/-- The increment is the second pose seen from the first. -/
theorem motion_rawDelta (p r : OdomPose ℝ) :
    (rawDelta .exact p r).motion = p.motion⁻¹ * r.motion := by
  have hyaw : ((rawDelta .exact p r).yaw : Real.Angle) = (r.yaw - p.yaw : ℝ) := coe_wrapAngle _
  refine Motion.ext ?_ ?_
  · rw [Motion.inv_mul_shift, BodyDelta.motion, rawDelta_chord, ← turnBy_coe, ← turnBy_coe,
      turnBy_turnBy]
    have hangle : ∀ dyaw : ℝ, ((dyaw / 2 : ℝ) : Real.Angle) + (-(p.yaw + dyaw / 2) : ℝ) =
        -(p.yaw : Real.Angle) := by
      intro dyaw
      rw [← Real.Angle.coe_add, ← Real.Angle.coe_neg]
      congr 1
      ring
    rw [hangle]
    rfl
  · rw [Motion.inv_mul_angle]
    exact hyaw.trans (Real.Angle.coe_sub _ _)

theorem BodyDelta.ext_of_motion {delta delta' : BodyDelta ℝ} (h : delta.motion = delta'.motion)
    (hyaw : delta.yaw = delta'.yaw) : delta = delta' := by
  obtain ⟨x, y, yaw⟩ := delta
  obtain ⟨x', y', yaw'⟩ := delta'
  obtain rfl : yaw = yaw' := hyaw
  have hshift : turn (yaw / 2) ((x, y) - (x', y')) = 0 := by
    rw [turn_sub]
    exact sub_eq_zero.mpr (congrArg Motion.shift h)
  obtain ⟨rfl, rfl⟩ := Prod.mk.inj (sub_eq_zero.mp (turn_eq_zero.mp hshift))
  rfl

/-- What the corrector reads of two poses is the one seen from the other. -/
theorem rawDelta_congr (h : p.motion⁻¹ * r.motion = p'.motion⁻¹ * r'.motion) :
    rawDelta .exact p r = rawDelta .exact p' r' := by
  refine BodyDelta.ext_of_motion ?_ (wrapAngle_congr ?_)
  · rw [motion_rawDelta, motion_rawDelta, h]
  · have hangle := congrArg Motion.angle h
    rw [Motion.inv_mul_angle, Motion.inv_mul_angle] at hangle
    rw [Real.Angle.coe_sub, Real.Angle.coe_sub]
    exact hangle

/-- And so is how far apart they are. -/
theorem hypot_congr (h : p.motion⁻¹ * r.motion = p'.motion⁻¹ * r'.motion) :
    PyMath.exact.hypot (r.x - p.x) (r.y - p.y) = PyMath.exact.hypot (r'.x - p'.x) (r'.y - p'.y) := by
  have hdot : ∀ q s : OdomPose ℝ, (s.x - q.x) ^ 2 + (s.y - q.y) ^ 2 =
      dot (q.motion⁻¹ * s.motion).shift (q.motion⁻¹ * s.motion).shift := by
    intro q s
    rw [Motion.inv_mul_shift]
    simp only [OdomPose.motion]
    rw [← Real.Angle.coe_neg, turnBy_coe, dot_turn]
    simp only [dot, Prod.fst_sub, Prod.snd_sub]
    ring
  simp only [PyMath.exact]
  rw [hdot, hdot, h]

end Increments

/-! ## Streams -/

section Streams

variable {g : CorrectorGains ℝ} {T : Motion} {s s' : OdomCorrector ℝ} {raw raw' : OdomPose ℝ}
  {raws raws' : List (OdomPose ℝ)}

/-- `p'` is where `T` takes `p`: the position exactly, the heading up to whole turns. -/
def Moved (T : Motion) (p p' : OdomPose ℝ) : Prop := p'.motion = T * p.motion

theorem Moved.inv_mul {p r p' r' : OdomPose ℝ} (hp : Moved T p p') (hr : Moved T r r') :
    p.motion⁻¹ * r.motion = p'.motion⁻¹ * r'.motion := by
  rw [hp, hr, Motion.inv_mul_of_mul_left]

/-- A corrector that has read the moved poses; before the first one its pose is not read. -/
structure MovedState (T : Motion) (s s' : OdomCorrector ℝ) : Prop where
  prevRaw : Option.Rel (Moved T) s.prevRaw s'.prevRaw
  pose : s.prevRaw.isSome = true → Moved T s.pose s'.pose

theorem movedState_initial (T : Motion) : MovedState T .initial .initial :=
  ⟨.none, nofun⟩

theorem MovedState.resync (h : Moved T raw raw') (b b' : Bool) :
    MovedState T ⟨some raw, raw, b⟩ ⟨some raw', raw', b'⟩ :=
  ⟨.some h, fun _ => h⟩

theorem Moved.advance {p p' : OdomPose ℝ} (h : Moved T p p') (delta : BodyDelta ℝ) :
    Moved T (p.advance .exact delta) (p'.advance .exact delta) := by
  rw [Moved, motion_advance, motion_advance, h, mul_assoc]

theorem MovedState.update (h : MovedState T s s') (hraw : Moved T raw raw') :
    MovedState T (s.update .exact g raw) (s'.update .exact g raw') ∧
      (s'.update .exact g raw').wasReset = (s.update .exact g raw).wasReset := by
  obtain ⟨prevRaw, pose, b⟩ := s
  obtain ⟨prevRaw', pose', b'⟩ := s'
  obtain ⟨hprev, hpose⟩ := h
  cases hprev with
  | none => exact ⟨.resync hraw true true, rfl⟩
  | @some prev prev' hprev =>
      have hseen := hprev.inv_mul hraw
      simp only [OdomCorrector.update]
      rw [← hypot_congr hseen]
      split_ifs with hfar
      · exact ⟨.resync hraw true true, rfl⟩
      · rw [← rawDelta_congr hseen]
        exact ⟨⟨.some hraw, fun _ => (hpose rfl).advance _⟩, rfl⟩

/-- Correctors that start alike stay moved. -/
theorem updates_moved (h : MovedState T s s') (hraws : List.Forall₂ (Moved T) raws raws') :
    List.Forall₂ (fun s s' => Moved T s.pose s'.pose ∧ s'.wasReset = s.wasReset)
      (s.updates .exact g raws) (s'.updates .exact g raws') := by
  induction hraws generalizing s s' with
  | nil => exact .nil
  | cons hraw hraws ih =>
      obtain ⟨hstep, hreset⟩ := h.update (g := g) hraw
      refine .cons ⟨hstep.pose ?_, hreset⟩ (ih hstep)
      unfold OdomCorrector.update
      split
      · rfl
      · split_ifs <;> rfl

/-- The pose follows the raw one. -/
def Follows (s : OdomCorrector ℝ) : Prop := ∀ prev ∈ s.prevRaw, s.pose.motion = prev.motion

theorem follows_initial : Follows .initial := by
  intro prev hprev
  cases hprev

theorem correct_of_one (hv : g.kV = 1) (hw : g.kW = 1) (hbias : g.yawBiasPerMeter = 0)
    (delta : BodyDelta ℝ) : g.correct delta = delta := by
  simp [CorrectorGains.correct, hv, hw, hbias]

theorem Follows.update (hv : g.kV = 1) (hw : g.kW = 1) (hbias : g.yawBiasPerMeter = 0)
    (h : Follows s) (raw : OdomPose ℝ) :
    Follows (s.update .exact g raw) ∧ (s.update .exact g raw).pose.motion = raw.motion := by
  have hsync : (s.update .exact g raw).prevRaw = some raw ∧
      (s.update .exact g raw).pose.motion = raw.motion := by
    unfold OdomCorrector.update
    split
    next => exact ⟨rfl, rfl⟩
    next prev hprev =>
      split_ifs
      · exact ⟨rfl, rfl⟩
      · refine ⟨rfl, ?_⟩
        rw [correct_of_one hv hw hbias, motion_advance, motion_rawDelta, h prev hprev,
          mul_inv_cancel_left]
  refine ⟨fun prev hprev => ?_, hsync.2⟩
  rw [hsync.1] at hprev
  obtain rfl := Option.some.inj hprev
  exact hsync.2

theorem updates_of_one (hv : g.kV = 1) (hw : g.kW = 1) (hbias : g.yawBiasPerMeter = 0)
    (h : Follows s) (raws : List (OdomPose ℝ)) :
    List.Forall₂ (fun raw s => s.pose.motion = raw.motion) raws (s.updates .exact g raws) := by
  induction raws generalizing s with
  | nil => exact .nil
  | cons raw raws ih =>
      obtain ⟨hstep, hpose⟩ := h.update hv hw hbias raw
      exact .cons hpose (ih hstep)

end Streams

/-- Moved raw poses give moved corrected poses with the same resets, whatever the gains; and
without a correction the corrected pose is the raw one. -/
theorem updates_equivariant (g : CorrectorGains ℝ) :
    (∀ (T : Motion) (raws raws' : List (OdomPose ℝ)), List.Forall₂ (Moved T) raws raws' →
      List.Forall₂ (fun s s' => Moved T s.pose s'.pose ∧ s'.wasReset = s.wasReset)
        (OdomCorrector.initial.updates .exact g raws)
        (OdomCorrector.initial.updates .exact g raws')) ∧
    (g.kV = 1 → g.kW = 1 → g.yawBiasPerMeter = 0 → ∀ raws : List (OdomPose ℝ),
      List.Forall₂ (fun raw s => s.pose.motion = raw.motion) raws
        (OdomCorrector.initial.updates .exact g raws)) := by
  constructor
  · intro T raws raws' hraws
    exact updates_moved (movedState_initial T) hraws
  · intro hv hw hbias raws
    exact updates_of_one hv hw hbias follows_initial raws

section QuarterTurn

/-- A metre ahead, a turn to the left with a metre to the side, a jump, and a metre ahead. -/
noncomputable def rawPoses : List (OdomPose ℝ) :=
  [⟨0, 0, 0⟩, ⟨1, 0, 0⟩, ⟨1, 1, Real.pi / 2⟩, ⟨9, 1, Real.pi / 2⟩, ⟨9, 2, Real.pi / 2⟩]

/-- The same poses, turned by a quarter about the origin and moved by a metre. -/
noncomputable def turnedPoses : List (OdomPose ℝ) :=
  [⟨1, 0, Real.pi / 2⟩, ⟨1, 1, Real.pi / 2⟩, ⟨0, 1, Real.pi⟩, ⟨0, 9, Real.pi⟩, ⟨-1, 9, Real.pi⟩]

noncomputable def quarterTurn : Motion := ⟨(1, 0), (Real.pi / 2 : ℝ)⟩

theorem turnedPoses_moved : List.Forall₂ (Moved quarterTurn) rawPoses turnedPoses := by
  have hmoved (x y : ℝ) : Moved quarterTurn ⟨x, y, 0⟩ ⟨1 - y, x, Real.pi / 2⟩ := by
    refine Motion.ext ?_ ?_
    · simp [OdomPose.motion, quarterTurn, turnBy, sub_eq_add_neg]
    · simp [OdomPose.motion, quarterTurn]
  have hturned (x y : ℝ) : Moved quarterTurn ⟨x, y, Real.pi / 2⟩ ⟨1 - y, x, Real.pi⟩ := by
    refine Motion.ext ?_ ?_
    · simp [OdomPose.motion, quarterTurn, turnBy, sub_eq_add_neg]
    · rw [Motion.mul_angle]
      simp only [OdomPose.motion, quarterTurn]
      rw [← Real.Angle.coe_add, add_halves]
  have h₁ := hmoved 0 0
  have h₂ := hmoved 1 0
  have h₃ := hturned 1 1
  have h₄ := hturned 9 1
  have h₅ := hturned 9 2
  norm_num at h₁ h₂ h₃ h₄ h₅
  exact .cons h₁ (.cons h₂ (.cons h₃ (.cons h₄ (.cons h₅ .nil))))

section

variable {R : Type*} [Field R] [LinearOrder R] [FloorRing R] (m : PyMath R) (g : CorrectorGains R)

theorem OdomCorrector.prevRaw_update (s : OdomCorrector R) (raw : OdomPose R) :
    (s.update m g raw).prevRaw = some raw := by
  unfold OdomCorrector.update
  split
  · rfl
  · split_ifs <;> rfl

theorem OdomCorrector.wasReset_update {s : OdomCorrector R} {prev : OdomPose R}
    (h : s.prevRaw = some prev) (raw : OdomPose R) : (s.update m g raw).wasReset =
      decide (g.resetJumpM < m.hypot (raw.x - prev.x) (raw.y - prev.y)) := by
  unfold OdomCorrector.update
  rw [h]
  dsimp only
  split_ifs with hjump
  · exact (decide_eq_true hjump).symm
  · exact (decide_eq_false hjump).symm

end

/-- The corrector starts over where the raw pose jumps. -/
theorem resets_rawPoses {g : CorrectorGains ℝ} (hg : g.resetJumpM = 2) :
    (OdomCorrector.initial.updates .exact g rawPoses).map OdomCorrector.wasReset =
      [true, false, false, true, false] := by
  have hjump (x y : ℝ) : g.resetJumpM < PyMath.exact.hypot x y ↔ 2 ^ 2 < x ^ 2 + y ^ 2 := by
    rw [hg]
    exact Real.lt_sqrt zero_le_two
  simp only [rawPoses, OdomCorrector.updates, List.map_cons, List.map_nil,
    OdomCorrector.wasReset_update _ _ (OdomCorrector.prevRaw_update _ _ _ _), hjump]
  norm_num [OdomCorrector.update, OdomCorrector.initial]

/-- With gains, the resets and corrected poses of the turned stream are those of the raw one, and
without, the corrected poses are the raw ones. -/
theorem updates_equivariant_quarter :
    List.Forall₂ (Moved quarterTurn) rawPoses turnedPoses ∧
      (OdomCorrector.initial.updates .exact ⟨9 / 10, 11 / 10, 1 / 100, 2⟩ rawPoses).map
        OdomCorrector.wasReset = [true, false, false, true, false] ∧
      List.Forall₂ (fun s s' => Moved quarterTurn s.pose s'.pose ∧ s'.wasReset = s.wasReset)
        (OdomCorrector.initial.updates .exact ⟨9 / 10, 11 / 10, 1 / 100, 2⟩ rawPoses)
        (OdomCorrector.initial.updates .exact ⟨9 / 10, 11 / 10, 1 / 100, 2⟩ turnedPoses) ∧
      List.Forall₂ (fun raw s => s.pose.motion = raw.motion) rawPoses
        (OdomCorrector.initial.updates .exact ⟨1, 1, 0, 2⟩ rawPoses) :=
  ⟨turnedPoses_moved, resets_rawPoses rfl,
    (updates_equivariant ⟨9 / 10, 11 / 10, 1 / 100, 2⟩).1 _ _ _ turnedPoses_moved,
    (updates_equivariant ⟨1, 1, 0, 2⟩).2 rfl rfl rfl _⟩

end QuarterTurn

end MgRobot.WheelOdom
