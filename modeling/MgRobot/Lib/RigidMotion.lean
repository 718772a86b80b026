import MgRobot.Lib.Numerals
import Mathlib.Analysis.SpecialFunctions.Complex.Arg
import Mathlib.Algebra.Group.MinimalAxioms
import Mathlib.Algebra.Order.Floor.Ring
import Mathlib.Algebra.Order.Floor.Semiring

/-!
# Rotations of the plane

Vectors are pairs of reals. `turn θ` rotates by `θ`, `heading` is the angle to the
first axis; headings are compared as `Real.Angle`, that is modulo `2 * π`.
-/

namespace MgRobot.Lib.Plane

set_option autoImplicit false

noncomputable def turn (θ : ℝ) (v : ℝ × ℝ) : ℝ × ℝ :=
  (Real.cos θ * v.1 - Real.sin θ * v.2, Real.sin θ * v.1 + Real.cos θ * v.2)

def dot (v w : ℝ × ℝ) : ℝ := v.1 * w.1 + v.2 * w.2

/-- `atan2` of the vector; `0` for the zero vector. -/
noncomputable def heading (v : ℝ × ℝ) : ℝ := Complex.arg ⟨v.1, v.2⟩

variable {θ θ' : ℝ} {v w : ℝ × ℝ}

theorem turn_sub (θ : ℝ) (v w : ℝ × ℝ) : turn θ (v - w) = turn θ v - turn θ w := by
  ext
  · simp only [turn, Prod.fst_sub, Prod.snd_sub]
    ring
  · simp only [turn, Prod.fst_sub, Prod.snd_sub]
    ring

theorem turn_neg (θ : ℝ) (v : ℝ × ℝ) : turn θ (-v) = -turn θ v := by
  ext
  · simp only [turn, Prod.fst_neg, Prod.snd_neg]
    ring
  · simp only [turn, Prod.fst_neg, Prod.snd_neg]
    ring

theorem turn_zero (θ : ℝ) : turn θ 0 = 0 := by
  simp [turn]

theorem dot_turn (θ : ℝ) (v w : ℝ × ℝ) : dot (turn θ v) (turn θ w) = dot v w := by
  have h := Real.cos_sq_add_sin_sq θ
  unfold dot turn
  linear_combination (v.1 * w.1 + v.2 * w.2) * h

theorem dot_self_eq_zero : dot v v = 0 ↔ v = 0 := by
  unfold dot
  constructor
  · intro h
    have h1 := mul_self_nonneg v.1
    have h2 := mul_self_nonneg v.2
    ext
    · exact mul_self_eq_zero.mp (show v.1 * v.1 = 0 by linarith)
    · exact mul_self_eq_zero.mp (show v.2 * v.2 = 0 by linarith)
  · rintro rfl
    simp

theorem turn_eq_zero : turn θ v = 0 ↔ v = 0 := by
  rw [← dot_self_eq_zero, dot_turn, dot_self_eq_zero]

/-- The rotation depends on the angle only. -/
theorem turn_congr (h : (θ : Real.Angle) = θ') (v : ℝ × ℝ) : turn θ v = turn θ' v := by
  unfold turn
  rw [← Real.Angle.cos_coe, ← Real.Angle.sin_coe, h, Real.Angle.cos_coe, Real.Angle.sin_coe]

theorem heading_cos_sin (θ : ℝ) : (heading (Real.cos θ, Real.sin θ) : Real.Angle) = θ := by
  have hz : (⟨Real.cos θ, Real.sin θ⟩ : ℂ) =
      Real.Angle.cos θ + Real.Angle.sin θ * Complex.I := by
    rw [Real.Angle.cos_coe, Real.Angle.sin_coe]
    exact Complex.mk_eq_add_mul_I _ _
  unfold heading
  rw [hz, Complex.arg_cos_add_sin_mul_I_coe_angle]

theorem mk_ne_zero (hv : v ≠ 0) : (⟨v.1, v.2⟩ : ℂ) ≠ 0 := by
  intro h
  apply hv
  ext
  · exact congrArg Complex.re h
  · exact congrArg Complex.im h

/-- A rotation adds its angle to the heading. -/
theorem heading_turn (hv : v ≠ 0) :
    (heading (turn θ v) : Real.Angle) = θ + heading v := by
  have hunit : (Real.cos θ, Real.sin θ) ≠ (0 : ℝ × ℝ) := by
    intro h
    have hc := Real.cos_sq_add_sin_sq θ
    rw [(Prod.mk.inj h).1, (Prod.mk.inj h).2] at hc
    norm_num at hc
  have hmul : (⟨(turn θ v).1, (turn θ v).2⟩ : ℂ) =
      ⟨Real.cos θ, Real.sin θ⟩ * ⟨v.1, v.2⟩ := by
    apply Complex.ext
    · rfl
    · simp only [turn, Complex.mul_im]
      ring
  have harg := heading_cos_sin θ
  unfold heading at harg ⊢
  rw [hmul, Complex.arg_mul_coe_angle (mk_ne_zero hunit) (mk_ne_zero hv), harg]

theorem heading_neg (hv : v ≠ 0) : (heading (-v) : Real.Angle) = heading v + Real.pi := by
  have hneg : (⟨(-v).1, (-v).2⟩ : ℂ) = -⟨v.1, v.2⟩ := rfl
  unfold heading
  rw [hneg, Complex.arg_neg_coe_angle (mk_ne_zero hv)]

/-- Opposite vectors do not have the same heading. -/
theorem heading_neg_ne (hv : v ≠ 0) : (heading (-v) : Real.Angle) ≠ heading v := by
  rw [heading_neg hv]
  intro h
  exact Real.Angle.pi_ne_zero (add_eq_left.mp h)

end MgRobot.Lib.Plane

/-!
# The group of rigid motions of the plane

A pose is the motion that takes the frame of the origin to it: a shift and an angle
modulo `2 * π`. The pose of `q` seen from `p` is `p⁻¹ * q`. A path goes through a sample
at every natural number, linearly in between: the shift along the line and the angle
along the shorter arc.
-/

namespace MgRobot.Lib.Plane

set_option autoImplicit false

@[ext]
structure Motion where
  shift : ℝ × ℝ
  angle : Real.Angle

/-- `turn` by an angle that is known modulo `2 * π`. -/
noncomputable def turnBy (α : Real.Angle) (v : ℝ × ℝ) : ℝ × ℝ :=
  (α.cos * v.1 - α.sin * v.2, α.sin * v.1 + α.cos * v.2)

variable {α β : Real.Angle} {v w : ℝ × ℝ}

@[simp] theorem turnBy_coe (θ : ℝ) (v : ℝ × ℝ) : turnBy θ v = turn θ v := by
  unfold turnBy turn
  rw [Real.Angle.cos_coe, Real.Angle.sin_coe]

@[simp] theorem turnBy_zero_angle (v : ℝ × ℝ) : turnBy 0 v = v := by
  simp [turnBy]

theorem turnBy_add (α : Real.Angle) (v w : ℝ × ℝ) : turnBy α (v + w) = turnBy α v + turnBy α w := by
  ext
  · simp only [turnBy, Prod.fst_add, Prod.snd_add]
    ring
  · simp only [turnBy, Prod.fst_add, Prod.snd_add]
    ring

theorem turnBy_neg (α : Real.Angle) (v : ℝ × ℝ) : turnBy α (-v) = -turnBy α v := by
  ext
  · simp only [turnBy, Prod.fst_neg, Prod.snd_neg]
    ring
  · simp only [turnBy, Prod.fst_neg, Prod.snd_neg]
    ring

/-- Turning twice adds the angles. -/
theorem turnBy_turnBy (α β : Real.Angle) (v : ℝ × ℝ) :
    turnBy α (turnBy β v) = turnBy (α + β) v := by
  ext
  · simp only [turnBy, Real.Angle.cos_add, Real.Angle.sin_add]
    ring
  · simp only [turnBy, Real.Angle.cos_add, Real.Angle.sin_add]
    ring

namespace Motion

noncomputable instance : Mul Motion :=
  ⟨fun p q => ⟨p.shift + turnBy p.angle q.shift, p.angle + q.angle⟩⟩

noncomputable instance : One Motion := ⟨⟨0, 0⟩⟩

noncomputable instance : Inv Motion := ⟨fun p => ⟨-turnBy (-p.angle) p.shift, -p.angle⟩⟩

variable (p q : Motion)

@[simp] theorem mul_shift : (p * q).shift = p.shift + turnBy p.angle q.shift := rfl

@[simp] theorem mul_angle : (p * q).angle = p.angle + q.angle := rfl

@[simp] theorem one_shift : (1 : Motion).shift = 0 := rfl

@[simp] theorem one_angle : (1 : Motion).angle = 0 := rfl

@[simp] theorem inv_shift : p⁻¹.shift = -turnBy (-p.angle) p.shift := rfl

@[simp] theorem inv_angle : p⁻¹.angle = -p.angle := rfl

noncomputable instance : Group Motion :=
  Group.ofLeftAxioms
    (fun p q r => Motion.ext
      (by simp only [mul_shift, mul_angle, turnBy_add, turnBy_turnBy, add_assoc])
      (add_assoc _ _ _))
    (fun p => Motion.ext (by simp) (zero_add _))
    (fun p => Motion.ext (by simp) (neg_add_cancel _))

/-- The pose of `q` seen from `p` has the difference of the positions in the frame of `p`. -/
theorem inv_mul_shift : (p⁻¹ * q).shift = turnBy (-p.angle) (q.shift - p.shift) := by
  rw [mul_shift, inv_shift, inv_angle, sub_eq_add_neg, turnBy_add, turnBy_neg, add_comm]

theorem inv_mul_angle : (p⁻¹ * q).angle = q.angle - p.angle := by
  rw [mul_angle, inv_angle, neg_add_eq_sub]

/-- A point of the frame of `p`, in the frame of the origin. -/
noncomputable def act (v : ℝ × ℝ) : ℝ × ℝ := p.shift + turnBy p.angle v

@[simp] theorem one_act (v : ℝ × ℝ) : (1 : Motion).act v = v := by
  simp [act]

theorem mul_act (v : ℝ × ℝ) : (p * q).act v = p.act (q.act v) := by
  simp only [act, mul_shift, mul_angle, turnBy_add, turnBy_turnBy, add_assoc]

theorem inv_act (v : ℝ × ℝ) : p⁻¹.act v = turnBy (-p.angle) (v - p.shift) := by
  rw [act, inv_shift, inv_angle, sub_eq_neg_add, turnBy_add, turnBy_neg]

/-- Relative poses do not change when the whole plane is moved. -/
theorem inv_mul_of_mul_left (g : Motion) : (g * p)⁻¹ * (g * q) = p⁻¹ * q := by
  rw [mul_inv_rev, mul_assoc, inv_mul_cancel_left]

/-- The relative poses along a chain compose. -/
theorem inv_mul_mul_inv_mul (r : Motion) : p⁻¹ * q * (q⁻¹ * r) = p⁻¹ * r := by
  rw [mul_assoc, mul_inv_cancel_left]

end Motion

/-! ## Paths through sampled motions -/

namespace Motion

/-- The motion at the part `w` of the way from `p` to `q`. -/
noncomputable def between (p q : Motion) (w : ℝ) : Motion :=
  ⟨p.shift + w • (q.shift - p.shift), p.angle + (w * (q.angle - p.angle).toReal : ℝ)⟩

/-- The path through the samples `s 0`, `s 1`, … -/
noncomputable def path (s : ℕ → Motion) (u : ℝ) : Motion :=
  between (s ⌊u⌋₊) (s (⌊u⌋₊ + 1)) (u - ⌊u⌋₊)

variable (p q : Motion) {s : ℕ → Motion}

@[simp] theorem between_zero : between p q 0 = p := by
  apply Motion.ext
  · simp [between]
  · simp [between]

@[simp] theorem between_one : between p q 1 = q := by
  apply Motion.ext
  · simp [between]
  · rw [between, one_mul, Real.Angle.coe_toReal, add_sub_cancel]

@[simp] theorem between_self (w : ℝ) : between p p w = p := by
  apply Motion.ext
  · simp [between]
  · simp [between]

/-- Next to a sample, the path may be taken from either side. -/
theorem path_eq {u : ℝ} {k : ℕ} (hk : (k : ℝ) ≤ u) (hu : u ≤ k + 1) :
    path s u = between (s k) (s (k + 1)) (u - k) := by
  unfold path
  rcases hu.lt_or_eq with hlt | rfl
  · rw [(Nat.floor_eq_iff ((Nat.cast_nonneg k).trans hk)).mpr ⟨hk, hlt⟩]
  · have hfloor : ⌊(k : ℝ) + 1⌋₊ = k + 1 := by
      rw [show (k : ℝ) + 1 = ((k + 1 : ℕ) : ℝ) by push_cast; rfl, Nat.floor_natCast]
    rw [hfloor, Nat.cast_add, Nat.cast_one, sub_self, between_zero, add_sub_cancel_left,
      between_one]

/-- The path goes through its samples. -/
theorem path_natCast (k : ℕ) : path s k = s k := by
  rw [path, Nat.floor_natCast, sub_self, between_zero]

/-- A robot that stands still has a path that does. -/
theorem path_const (u : ℝ) : path (fun _ => p) u = p := between_self p _

end Motion

end MgRobot.Lib.Plane
