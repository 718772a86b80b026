import Mathlib.Algebra.BigOperators.Group.Multiset.Basic
import Mathlib.Analysis.Real.Sqrt
import Mathlib.LinearAlgebra.Matrix.Adjugate
import Mathlib.LinearAlgebra.Matrix.Trace
import Mathlib.Tactic.LinearCombination
import MgRobot.Lib.RigidMotion

/-!
# Rigid alignment of point pairs

Least squares over a list of pairs `(p, q)`: the turn and the shift that take the
points `p` closest to the points `q`. The cost splits into a part that only sees the
turn and a part that the shift brings to zero.
-/

namespace MgRobot.Lib.Plane

set_option autoImplicit false

variable {α : Type*}

/-! ## Root mean square -/

def sumSq (vs : List (ℝ × ℝ)) : ℝ := (vs.map fun v => dot v v).sum

noncomputable def rms (vs : List (ℝ × ℝ)) : ℝ := Real.sqrt (sumSq vs / vs.length)

@[simp] theorem sumSq_cons (v : ℝ × ℝ) (vs : List (ℝ × ℝ)) :
    sumSq (v :: vs) = dot v v + sumSq vs := by
  simp [sumSq]

theorem dot_self_nonneg (v : ℝ × ℝ) : 0 ≤ dot v v :=
  add_nonneg (mul_self_nonneg v.1) (mul_self_nonneg v.2)

theorem sumSq_nonneg (vs : List (ℝ × ℝ)) : 0 ≤ sumSq vs := by
  induction vs with
  | nil => exact le_rfl
  | cons v vs ih =>
      rw [sumSq_cons]
      exact add_nonneg (dot_self_nonneg v) ih

theorem eq_zero_of_sumSq {vs : List (ℝ × ℝ)} (h : sumSq vs = 0) : ∀ v ∈ vs, v = 0 := by
  induction vs with
  | nil => exact fun _ hv => absurd hv List.not_mem_nil
  | cons v vs ih =>
      rw [sumSq_cons, add_eq_zero_iff_of_nonneg (dot_self_nonneg v) (sumSq_nonneg vs)] at h
      refine List.forall_mem_cons.mpr ⟨?_, ih h.2⟩
      exact Prod.ext_iff.mpr (mul_self_add_mul_self_eq_zero.mp h.1)

theorem eq_zero_of_rms {vs : List (ℝ × ℝ)} (h : rms vs = 0) : ∀ v ∈ vs, v = 0 := by
  cases vs with
  | nil => exact fun _ hv => absurd hv List.not_mem_nil
  | cons v vs =>
      have hlen : ((v :: vs).length : ℝ) ≠ 0 := Nat.cast_ne_zero.mpr (Nat.succ_ne_zero _)
      have hquot := (Real.sqrt_eq_zero (div_nonneg (sumSq_nonneg _) (Nat.cast_nonneg _))).mp h
      exact eq_zero_of_sumSq ((div_eq_zero_iff.mp hquot).resolve_right hlen)

/-- The triangle inequality for vectors given by two lengths. -/
theorem sqrt_add_le (x y u v : ℝ) :
    Real.sqrt ((x + y) ^ 2 + (u + v) ^ 2) ≤
      Real.sqrt (x ^ 2 + u ^ 2) + Real.sqrt (y ^ 2 + v ^ 2) := by
  have h := norm_add_le (⟨x, u⟩ : ℂ) ⟨y, v⟩
  rwa [Complex.norm_eq_sqrt_sq_add_sq, Complex.norm_eq_sqrt_sq_add_sq,
    Complex.norm_eq_sqrt_sq_add_sq] at h

theorem sqrt_sumSq_add_le (l : List α) (f g : α → ℝ × ℝ) :
    Real.sqrt (sumSq (l.map fun a => f a + g a)) ≤
      Real.sqrt (sumSq (l.map f)) + Real.sqrt (sumSq (l.map g)) := by
  induction l with
  | nil => simp [sumSq]
  | cons a l ih =>
      rw [List.map_cons, List.map_cons, List.map_cons, sumSq_cons, sumSq_cons, sumSq_cons]
      have hhead : Real.sqrt (dot (f a + g a) (f a + g a)) ≤
          Real.sqrt (dot (f a) (f a)) + Real.sqrt (dot (g a) (g a)) := by
        have h := sqrt_add_le (f a).1 (g a).1 (f a).2 (g a).2
        simpa only [dot, Prod.fst_add, Prod.snd_add, ← pow_two] using h
      have hsq : ∀ v s, 0 ≤ s → dot v v + s =
          Real.sqrt (dot v v) ^ 2 + Real.sqrt s ^ 2 := fun v s hs => by
        rw [Real.sq_sqrt (dot_self_nonneg v), Real.sq_sqrt hs]
      rw [hsq _ _ (sumSq_nonneg _), hsq (f a) _ (sumSq_nonneg _), hsq (g a) _ (sumSq_nonneg _)]
      refine le_trans (Real.sqrt_le_sqrt ?_) (sqrt_add_le _ _ _ _)
      gcongr

theorem rms_add_le (l : List α) (f g : α → ℝ × ℝ) :
    rms (l.map fun a => f a + g a) ≤ rms (l.map f) + rms (l.map g) := by
  unfold rms
  rw [List.length_map, List.length_map, List.length_map, Real.sqrt_div (sumSq_nonneg _),
    Real.sqrt_div (sumSq_nonneg _), Real.sqrt_div (sumSq_nonneg _), ← add_div]
  exact div_le_div_of_nonneg_right (sqrt_sumSq_add_le l f g) (Real.sqrt_nonneg _)

/-- Vectors whose squares are all in one ratio. -/
theorem rms_of_dot (l : List α) (f g : α → ℝ × ℝ) {c : ℝ} (hc : 0 ≤ c)
    (h : ∀ a ∈ l, dot (f a) (f a) = c ^ 2 * dot (g a) (g a)) :
    rms (l.map f) = c * rms (l.map g) := by
  have hsum : sumSq (l.map f) = c ^ 2 * sumSq (l.map g) := by
    induction l with
    | nil => simp [sumSq]
    | cons a l ih =>
        rw [List.map_cons, List.map_cons, sumSq_cons, sumSq_cons, h a List.mem_cons_self,
          ih fun b hb => h b (List.mem_cons_of_mem a hb), mul_add]
  unfold rms
  rw [hsum, List.length_map, List.length_map, mul_div_assoc, Real.sqrt_mul (sq_nonneg c),
    Real.sqrt_sq hc]

/-- How far a turn moves a point. -/
theorem dot_turn_sub (θ : ℝ) (p : ℝ × ℝ) :
    dot (turn θ p - p) (turn θ p - p) = (2 * |Real.sin (θ / 2)|) ^ 2 * dot p p := by
  have hcos : Real.cos θ = 1 - 2 * Real.sin (θ / 2) ^ 2 := by
    have h := Real.cos_sq_add_sin_sq (θ / 2)
    have hdouble := Real.cos_two_mul (θ / 2)
    rw [mul_div_cancel₀ θ two_ne_zero] at hdouble
    linarith
  have hone := Real.cos_sq_add_sin_sq θ
  rw [mul_pow, sq_abs]
  simp only [dot, turn, Prod.fst_sub, Prod.snd_sub]
  linear_combination (p.1 * p.1 + p.2 * p.2) * hone - 2 * (p.1 * p.1 + p.2 * p.2) * hcos

theorem rms_turn_sub (l : List α) (f : α → ℝ × ℝ) (θ : ℝ) :
    rms (l.map fun a => turn θ (f a) - f a) = 2 * |Real.sin (θ / 2)| * rms (l.map f) :=
  rms_of_dot l _ f (by positivity) fun a _ => dot_turn_sub θ (f a)

theorem sum_map_sub {G : Type*} [AddCommGroup G] (l : List α) (f g : α → G) :
    (l.map fun a => f a - g a).sum = (l.map f).sum - (l.map g).sum := by
  have h := Multiset.sum_map_sub (m := (l : Multiset α)) (f := f) (g := g)
  simpa only [Multiset.map_coe, Multiset.sum_coe] using h

/-! ## Least squares -/

/-- What is left of a pair after a turn and a shift. -/
noncomputable def misfit (θ : ℝ) (shift : ℝ × ℝ) (pair : (ℝ × ℝ) × (ℝ × ℝ)) : ℝ × ℝ :=
  turn θ pair.1 + shift - pair.2

/-- The correlations that decide the turn: along the points and across them. -/
def inPhase (l : List ((ℝ × ℝ) × (ℝ × ℝ))) (p₀ q₀ : ℝ × ℝ) : ℝ :=
  (l.map fun pair => dot (pair.1 - p₀) (pair.2 - q₀)).sum

def quadrature (l : List ((ℝ × ℝ) × (ℝ × ℝ))) (p₀ q₀ : ℝ × ℝ) : ℝ :=
  (l.map fun pair => (pair.1 - p₀).1 * (pair.2 - q₀).2 - (pair.1 - p₀).2 * (pair.2 - q₀).1).sum

/-- The part of the cost that no turn changes. -/
def spread (l : List ((ℝ × ℝ) × (ℝ × ℝ))) (p₀ q₀ : ℝ × ℝ) : ℝ :=
  sumSq (l.map fun pair => pair.1 - p₀) + sumSq (l.map fun pair => pair.2 - q₀)

/-- The cost about any two centres. -/
theorem sumSq_misfit (l : List ((ℝ × ℝ) × (ℝ × ℝ))) (p₀ q₀ : ℝ × ℝ) (θ : ℝ)
    (shift : ℝ × ℝ) :
    sumSq (l.map (misfit θ shift)) =
      spread l p₀ q₀ - 2 * (Real.cos θ * inPhase l p₀ q₀ + Real.sin θ * quadrature l p₀ q₀) +
        2 * dot (turn θ (l.map fun pair => pair.1 - p₀).sum -
          (l.map fun pair => pair.2 - q₀).sum) (turn θ p₀ + shift - q₀) +
        l.length * dot (turn θ p₀ + shift - q₀) (turn θ p₀ + shift - q₀) := by
  induction l with
  | nil => simp [sumSq, spread, inPhase, quadrature, turn, dot]
  | cons pair l ih =>
      obtain ⟨p, q⟩ := pair
      have hone := Real.cos_sq_add_sin_sq θ
      simp only [spread, inPhase, quadrature, List.map_cons, List.sum_cons, sumSq_cons,
        List.length_cons, Nat.cast_succ] at ih ⊢
      rw [ih]
      simp only [misfit, dot, turn, Prod.fst_add, Prod.snd_add, Prod.fst_sub, Prod.snd_sub]
      linear_combination ((p.1 - p₀.1) ^ 2 + (p.2 - p₀.2) ^ 2) * hone

/-- A turn that is in phase with the points does best. -/
theorem inPhase_le {c s c' s' A B : ℝ} (hone : c ^ 2 + s ^ 2 = 1) (hone' : c' ^ 2 + s' ^ 2 = 1)
    (hphase : c * B = s * A) (hnonneg : 0 ≤ c * A + s * B) : c' * A + s' * B ≤ c * A + s * B := by
  have hA : A = c * (c * A + s * B) := by linear_combination -A * hone - s * hphase
  have hB : B = s * (c * A + s * B) := by linear_combination -B * hone + c * hphase
  have hcos : c' * c + s' * s ≤ 1 := by
    nlinarith [sq_nonneg (c' - c), sq_nonneg (s' - s)]
  calc c' * A + s' * B = (c' * c + s' * s) * (c * A + s * B) := by
        linear_combination c' * hA + s' * hB
    _ ≤ 1 * (c * A + s * B) := mul_le_mul_of_nonneg_right hcos hnonneg
    _ = c * A + s * B := one_mul _

/-- The alignment of centred points that are in phase is a least-squares alignment. -/
theorem rms_misfit_le {l : List ((ℝ × ℝ) × (ℝ × ℝ))} {p₀ q₀ : ℝ × ℝ} {θ : ℝ}
    (hp : (l.map fun pair => pair.1 - p₀).sum = 0) (hq : (l.map fun pair => pair.2 - q₀).sum = 0)
    (hphase : Real.cos θ * quadrature l p₀ q₀ = Real.sin θ * inPhase l p₀ q₀)
    (hnonneg : 0 ≤ Real.cos θ * inPhase l p₀ q₀ + Real.sin θ * quadrature l p₀ q₀)
    (θ' : ℝ) (shift : ℝ × ℝ) :
    rms (l.map (misfit θ (q₀ - turn θ p₀))) ≤ rms (l.map (misfit θ' shift)) := by
  have hzero : turn θ p₀ + (q₀ - turn θ p₀) - q₀ = 0 := by abel
  have hbest := inPhase_le (Real.cos_sq_add_sin_sq θ) (Real.cos_sq_add_sin_sq θ') hphase hnonneg
  have hshift : 0 ≤ (l.length : ℝ) * dot (turn θ' p₀ + shift - q₀) (turn θ' p₀ + shift - q₀) :=
    mul_nonneg (Nat.cast_nonneg _) (dot_self_nonneg _)
  have hcross : ∀ v, dot 0 v = 0 := fun v => by simp [dot]
  unfold rms
  rw [List.length_map, List.length_map]
  refine Real.sqrt_le_sqrt (div_le_div_of_nonneg_right ?_ (Nat.cast_nonneg _))
  rw [sumSq_misfit l p₀ q₀ θ, sumSq_misfit l p₀ q₀ θ', hp, hq, hzero, turn_zero, turn_zero,
    sub_zero, hcross, hcross]
  linarith

/-! ## The turn from a singular value decomposition -/

section Svd

open Matrix

/-- `h = u * diag(s₀, s₁) * vᵀ` with orthogonal `u` and `v`, the larger singular value first. -/
structure IsSvd {K : Type*} [CommRing K] [LE K] (u v h : Matrix (Fin 2) (Fin 2) K) : Prop where
  left : u * uᵀ = 1
  right : v * vᵀ = 1
  values : ∃ s₀ s₁, 0 ≤ s₁ ∧ s₁ ≤ s₀ ∧ h = u * diagonal ![s₀, s₁] * vᵀ

variable {u v h : Matrix (Fin 2) (Fin 2) ℝ}

/-- `v * uᵀ`, turned into a rotation where it is a reflection. -/
noncomputable def nearestRotation (u v : Matrix (Fin 2) (Fin 2) ℝ) : Matrix (Fin 2) (Fin 2) ℝ :=
  v * diagonal ![1, if (v * uᵀ).det < 0 then -1 else 1] * uᵀ

theorem diagonal_sign_mul_self {e : ℝ} (he : e * e = 1) :
    (diagonal ![1, e] : Matrix (Fin 2) (Fin 2) ℝ) * diagonal ![1, e] = 1 := by
  rw [diagonal_mul_diagonal, ← diagonal_one]
  refine congrArg diagonal (funext fun i => ?_)
  fin_cases i
  · exact one_mul 1
  · exact he

theorem det_of_orthogonal (hu : u * uᵀ = 1) : u.det = 1 ∨ u.det = -1 := by
  have hdet := congrArg det hu
  rw [det_mul, det_transpose, det_one] at hdet
  exact mul_self_eq_one_iff.mp hdet

noncomputable def turnMatrix (θ : ℝ) : Matrix (Fin 2) (Fin 2) ℝ :=
  !![Real.cos θ, -Real.sin θ; Real.sin θ, Real.cos θ]

/-- A rotation matrix is a turn by the heading of its first column. -/
theorem eq_turnMatrix {r : Matrix (Fin 2) (Fin 2) ℝ} (hr : r * rᵀ = 1) (hdet : r.det = 1) :
    r = turnMatrix (heading (r 0 0, r 1 0)) := by
  have hinv : r.adjugate = rᵀ := by
    have hadj := adjugate_mul r
    rw [hdet, one_smul] at hadj
    calc r.adjugate = r.adjugate * (r * rᵀ) := by rw [hr, mul_one]
      _ = rᵀ := by rw [← mul_assoc, hadj, one_mul]
  have h00 := congrFun (congrFun hinv 0) 0
  have h01 := congrFun (congrFun hinv 0) 1
  simp only [adjugate_fin_two, of_apply, cons_val_zero, cons_val_one, transpose_apply] at h00 h01
  have hone : r 0 0 ^ 2 + r 1 0 ^ 2 = 1 := by
    rw [det_fin_two] at hdet
    linear_combination hdet - r 0 0 * h00 - r 1 0 * h01
  have hnorm : ‖(⟨r 0 0, r 1 0⟩ : ℂ)‖ = 1 := by
    rw [Complex.norm_eq_sqrt_sq_add_sq, hone, Real.sqrt_one]
  have hne : (⟨r 0 0, r 1 0⟩ : ℂ) ≠ 0 := by
    intro hzero
    rw [hzero, norm_zero] at hnorm
    exact zero_ne_one hnorm
  have hcos : Real.cos (heading (r 0 0, r 1 0)) = r 0 0 := by
    rw [heading, Complex.cos_arg hne, hnorm, div_one]
  have hsin : Real.sin (heading (r 0 0, r 1 0)) = r 1 0 := by
    rw [heading, Complex.sin_arg, hnorm, div_one]
  ext i j
  fin_cases i <;> fin_cases j
  · exact hcos.symm
  · exact (neg_eq_iff_eq_neg.mp h01).trans (congrArg Neg.neg hsin.symm)
  · exact hsin.symm
  · exact h00.trans hcos.symm

theorem nearestRotation_orthogonal (hu : u * uᵀ = 1) (hv : v * vᵀ = 1) :
    nearestRotation u v * (nearestRotation u v)ᵀ = 1 := by
  have hu' : uᵀ * u = 1 := mul_eq_one_comm.mp hu
  obtain ⟨e, he, hr⟩ : ∃ e : ℝ, e * e = 1 ∧ nearestRotation u v = v * diagonal ![1, e] * uᵀ := by
    refine ⟨_, ?_, rfl⟩
    split_ifs
    · norm_num
    · norm_num
  rw [hr, transpose_mul, transpose_mul, transpose_transpose, diagonal_transpose]
  calc v * diagonal ![1, e] * uᵀ * (u * (diagonal ![1, e] * vᵀ))
      = v * (diagonal ![1, e] * (uᵀ * u) * diagonal ![1, e]) * vᵀ := by
        simp only [Matrix.mul_assoc]
    _ = 1 := by rw [hu', mul_one, diagonal_sign_mul_self he, mul_one, hv]

theorem det_nearestRotation (hu : u * uᵀ = 1) (hv : v * vᵀ = 1) :
    (nearestRotation u v).det = 1 := by
  have hdet : (v * uᵀ).det = v.det * u.det := by rw [det_mul, det_transpose]
  rw [nearestRotation, det_mul, det_mul, det_diagonal, det_transpose, Fin.prod_univ_two, hdet]
  simp only [cons_val_zero, cons_val_one]
  rcases det_of_orthogonal hu with hu | hu
  · rcases det_of_orthogonal hv with hv | hv
    · rw [hu, hv]
      norm_num
    · rw [hu, hv]
      norm_num
  · rcases det_of_orthogonal hv with hv | hv
    · rw [hu, hv]
      norm_num
    · rw [hu, hv]
      norm_num

/-- The rotation of a decomposition is in phase with the matrix. -/
theorem IsSvd.inPhase {θ : ℝ} (hsvd : IsSvd u v h) (hθ : nearestRotation u v = turnMatrix θ) :
    Real.cos θ * (h 0 1 - h 1 0) = Real.sin θ * (h 0 0 + h 1 1) ∧
      0 ≤ Real.cos θ * (h 0 0 + h 1 1) + Real.sin θ * (h 0 1 - h 1 0) := by
  obtain ⟨s₀, s₁, hs₁, hs, hh⟩ := hsvd.values
  have hu' : uᵀ * u = 1 := mul_eq_one_comm.mp hsvd.left
  have hv' : vᵀ * v = 1 := mul_eq_one_comm.mp hsvd.right
  obtain ⟨e, he, hr⟩ : ∃ e : ℝ, -1 ≤ e ∧ nearestRotation u v = v * diagonal ![1, e] * uᵀ := by
    refine ⟨_, ?_, rfl⟩
    split_ifs
    · exact le_rfl
    · norm_num
  have hproduct : turnMatrix θ * h = v * diagonal ![s₀, e * s₁] * vᵀ := by
    have hdiag : (diagonal ![1, e] : Matrix (Fin 2) (Fin 2) ℝ) * diagonal ![s₀, s₁] =
        diagonal ![s₀, e * s₁] := by
      rw [diagonal_mul_diagonal]
      refine congrArg diagonal (funext fun i => ?_)
      fin_cases i
      · exact one_mul s₀
      · rfl
    rw [← hθ, hr, hh]
    calc v * diagonal ![1, e] * uᵀ * (u * diagonal ![s₀, s₁] * vᵀ)
        = v * (diagonal ![1, e] * (uᵀ * u) * diagonal ![s₀, s₁]) * vᵀ := by
          simp only [Matrix.mul_assoc]
      _ = v * diagonal ![s₀, e * s₁] * vᵀ := by rw [hu', mul_one, hdiag]
  have hsymm : (turnMatrix θ * h)ᵀ = turnMatrix θ * h := by
    rw [hproduct, transpose_mul, transpose_mul, transpose_transpose, diagonal_transpose,
      Matrix.mul_assoc]
  have htrace : (turnMatrix θ * h).trace = s₀ + e * s₁ := by
    rw [hproduct, trace_mul_comm, ← Matrix.mul_assoc, hv', one_mul, trace_diagonal,
      Fin.sum_univ_two]
    rfl
  have h01 := congrFun (congrFun hsymm 0) 1
  simp only [transpose_apply, mul_apply, Fin.sum_univ_two, turnMatrix, of_apply, cons_val_zero,
    cons_val_one] at h01
  simp only [trace_fin_two, mul_apply, Fin.sum_univ_two, turnMatrix, of_apply, cons_val_zero,
    cons_val_one] at htrace
  constructor
  · linear_combination -h01
  · have hnonneg : 0 ≤ s₀ + e * s₁ := by nlinarith
    linarith

theorem turnMatrix_orthogonal (θ : ℝ) : turnMatrix θ * (turnMatrix θ)ᵀ = 1 := by
  have hone := Real.cos_sq_add_sin_sq θ
  ext i j
  fin_cases i <;> fin_cases j
  · simp [turnMatrix, mul_apply, ← pow_two, hone]
  · simp [turnMatrix, mul_apply, mul_comm]
  · simp [turnMatrix, mul_apply, mul_comm]
  · simp [turnMatrix, mul_apply, ← pow_two, add_comm, hone]

/-- Every matrix has a decomposition: it is a turn with a factor plus a reflection with a factor,
and half the sum and half the difference of the two angles are those of `u` and `v`. -/
theorem exists_isSvd (h : Matrix (Fin 2) (Fin 2) ℝ) : ∃ u v, IsSvd u v h := by
  obtain ⟨z, hz⟩ : ∃ z : ℂ, z = ⟨h 0 0 + h 1 1, h 1 0 - h 0 1⟩ := ⟨_, rfl⟩
  obtain ⟨w, hw⟩ : ∃ w : ℂ, w = ⟨h 0 0 - h 1 1, h 1 0 + h 0 1⟩ := ⟨_, rfl⟩
  obtain ⟨e, he, hvalues⟩ : ∃ e : ℝ, e * e = 1 ∧ 0 ≤ e * (‖z‖ - ‖w‖) := by
    rcases le_total ‖w‖ ‖z‖ with hle | hle
    · exact ⟨1, one_mul 1, by linarith⟩
    · exact ⟨-1, by norm_num, by linarith⟩
  have hz0 : ‖z‖ * Real.cos (Complex.arg z) = h 0 0 + h 1 1 := by
    rw [Complex.norm_mul_cos_arg, hz]
  have hz1 : ‖z‖ * Real.sin (Complex.arg z) = h 1 0 - h 0 1 := by
    rw [Complex.norm_mul_sin_arg, hz]
  have hw0 : ‖w‖ * Real.cos (Complex.arg w) = h 0 0 - h 1 1 := by
    rw [Complex.norm_mul_cos_arg, hw]
  have hw1 : ‖w‖ * Real.sin (Complex.arg w) = h 1 0 + h 0 1 := by
    rw [Complex.norm_mul_sin_arg, hw]
  obtain ⟨α, β, hα, hβ⟩ : ∃ α β, Complex.arg z = α - β ∧ Complex.arg w = α + β :=
    ⟨(Complex.arg z + Complex.arg w) / 2, (Complex.arg w - Complex.arg z) / 2, by ring, by ring⟩
  rw [hα, Real.cos_sub] at hz0
  rw [hα, Real.sin_sub] at hz1
  rw [hβ, Real.cos_add] at hw0
  rw [hβ, Real.sin_add] at hw1
  refine ⟨turnMatrix α, turnMatrix β * diagonal ![1, e], turnMatrix_orthogonal α, ?_,
    (‖z‖ + ‖w‖) / 2, e * (‖z‖ - ‖w‖) / 2, by linarith, ?_, ?_⟩
  · rw [transpose_mul, diagonal_transpose, Matrix.mul_assoc,
      ← Matrix.mul_assoc (diagonal _) (diagonal _), diagonal_sign_mul_self he, one_mul,
      turnMatrix_orthogonal]
  · have hz' := norm_nonneg z
    have hw' := norm_nonneg w
    rcases mul_self_eq_one_iff.mp he with rfl | rfl
    · linarith
    · linarith
  · have hsign : (diagonal ![(‖z‖ + ‖w‖) / 2, e * (‖z‖ - ‖w‖) / 2] : Matrix (Fin 2) (Fin 2) ℝ) *
        diagonal ![1, e] = diagonal ![(‖z‖ + ‖w‖) / 2, (‖z‖ - ‖w‖) / 2] := by
      rw [diagonal_mul_diagonal]
      refine congrArg diagonal (funext fun i => ?_)
      fin_cases i
      · exact mul_one _
      · change e * (‖z‖ - ‖w‖) / 2 * e = (‖z‖ - ‖w‖) / 2
        linear_combination (‖z‖ - ‖w‖) / 2 * he
    rw [transpose_mul, diagonal_transpose, Matrix.mul_assoc, ← Matrix.mul_assoc (diagonal _),
      hsign, ← Matrix.mul_assoc]
    have hentry : ∀ i j, (turnMatrix α * diagonal ![(‖z‖ + ‖w‖) / 2, (‖z‖ - ‖w‖) / 2] *
        (turnMatrix β)ᵀ) i j = turnMatrix α i 0 * ((‖z‖ + ‖w‖) / 2) * turnMatrix β j 0 +
          turnMatrix α i 1 * ((‖z‖ - ‖w‖) / 2) * turnMatrix β j 1 := by
      intro i j
      rw [mul_apply, Fin.sum_univ_two, mul_diagonal, mul_diagonal]
      rfl
    ext i j
    rw [hentry]
    fin_cases i <;> fin_cases j
    · simp [turnMatrix]
      linear_combination -(hz0 + hw0) / 2
    · simp [turnMatrix]
      linear_combination -(hw1 - hz1) / 2
    · simp [turnMatrix]
      linear_combination -(hw1 + hz1) / 2
    · simp [turnMatrix]
      linear_combination -(hz0 - hw0) / 2

end Svd

end MgRobot.Lib.Plane
