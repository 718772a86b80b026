import MgRobot.Lib.Numerals
import Mathlib.Algebra.BigOperators.Fin
import Mathlib.Algebra.Order.BigOperators.Group.Finset
import Mathlib.LinearAlgebra.Matrix.Notation
import Mathlib.Tactic.Linarith
import Mathlib.Tactic.Ring

/-!
# Positive definite matrices

Over an ordered field, by their quadratic form. A greater diagonal entry keeps a matrix
definite; when a smaller first entry of a three by three matrix does is an inequality.
-/

namespace MgRobot.Lib.PositiveDefinite

set_option autoImplicit false

variable {R : Type*} [Field R] {n : Nat}

def quad (A : Matrix (Fin n) (Fin n) R) (v : Fin n → R) : R := ∑ i, ∑ j, v i * A i j * v j

/-- Symmetric and positive definite. -/
structure PosDef [LinearOrder R] (A : Matrix (Fin n) (Fin n) R) : Prop where
  symm : ∀ i j, A i j = A j i
  pos : ∀ v, v ≠ 0 → 0 < quad A v

variable {A B : Matrix (Fin n) (Fin n) R} {k : Fin n}

/-- Two matrices that differ in one diagonal entry. -/
theorem quad_of_eq_off (h : ∀ i j, ¬ (i = k ∧ j = k) → B i j = A i j) (v : Fin n → R) :
    quad B v = quad A v + (B k k - A k k) * (v k * v k) := by
  have hentry : ∀ i j, v i * B i j * v j = v i * A i j * v j +
      if i = k then (if j = k then (B k k - A k k) * (v k * v k) else 0) else 0 := by
    intro i j
    by_cases hi : i = k
    · by_cases hj : j = k
      · rw [if_pos hi, if_pos hj, hi, hj]
        ring
      · rw [if_pos hi, if_neg hj, h i j fun hij => hj hij.2, add_zero]
    · rw [if_neg hi, h i j fun hij => hi hij.1, add_zero]
  unfold quad
  simp only [hentry, Finset.sum_add_distrib]
  generalize (B k k - A k k) * (v k * v k) = x
  congr 1
  simp

omit [Field R] in
theorem symm_of_eq_off (hA : ∀ i j, A i j = A j i)
    (h : ∀ i j, ¬ (i = k ∧ j = k) → B i j = A i j) (i j : Fin n) : B i j = B j i := by
  by_cases hij : i = k ∧ j = k
  · rw [hij.1, hij.2]
  · rw [h i j hij, h j i fun hji => hij ⟨hji.2, hji.1⟩]
    exact hA i j

variable [LinearOrder R] [IsStrictOrderedRing R]

/-- A greater diagonal entry. -/
theorem PosDef.of_le (hA : PosDef A) (h : ∀ i j, ¬ (i = k ∧ j = k) → B i j = A i j)
    (hle : A k k ≤ B k k) : PosDef B where
  symm := symm_of_eq_off hA.symm h
  pos v hv := by
    rw [quad_of_eq_off h]
    exact add_pos_of_pos_of_nonneg (hA.pos v hv)
      (mul_nonneg (sub_nonneg.mpr hle) (mul_self_nonneg _))

/-- A diagonal matrix with positive entries. -/
theorem posDef_of_diagonal (hoff : ∀ i j, i ≠ j → A i j = 0) (hpos : ∀ i, 0 < A i i) :
    PosDef A where
  symm i j := by
    by_cases hij : i = j
    · rw [hij]
    · rw [hoff i j hij, hoff j i (Ne.symm hij)]
  pos v hv := by
    have hquad : quad A v = ∑ i, A i i * (v i * v i) := by
      refine Finset.sum_congr rfl fun i _ => ?_
      rw [Finset.sum_eq_single i]
      · ring
      · intro j _ hj
        rw [hoff i j hj.symm, mul_zero, zero_mul]
      · exact fun hi => absurd (Finset.mem_univ i) hi
    obtain ⟨i, hi⟩ := Function.ne_iff.mp hv
    rw [hquad]
    refine Finset.sum_pos' (fun j _ => mul_nonneg (hpos j).le (mul_self_nonneg _)) ?_
    exact ⟨i, Finset.mem_univ i, mul_pos (hpos i) (mul_self_pos.mpr hi)⟩

section ThreeByThree

variable {A B : Matrix (Fin 3) (Fin 3) R}

omit [LinearOrder R] [IsStrictOrderedRing R] in
/-- The quadratic form of a symmetric matrix, written out. -/
theorem quad_three (hsymm : ∀ i j, A i j = A j i) (v : Fin 3 → R) :
    quad A v = A 0 0 * (v 0 * v 0) + A 1 1 * (v 1 * v 1) + A 2 2 * (v 2 * v 2) +
      2 * (A 0 1 * (v 0 * v 1) + A 0 2 * (v 0 * v 2) + A 1 2 * (v 1 * v 2)) := by
  unfold quad
  simp only [Fin.sum_univ_three]
  rw [hsymm 1 0, hsymm 2 0, hsymm 2 1]
  ring

omit [IsStrictOrderedRing R] in
/-- The lower block of a definite matrix is definite. -/
theorem PosDef.block_pos (hA : PosDef A) {x y : R} (h : x ≠ 0 ∨ y ≠ 0) :
    0 < A 1 1 * (x * x) + A 2 2 * (y * y) + 2 * (A 1 2 * (x * y)) := by
  have hv : (![0, x, y] : Fin 3 → R) ≠ 0 := by
    intro h0
    rcases h with h | h
    · exact h (congrFun h0 1)
    · exact h (congrFun h0 2)
  have hpos := hA.pos _ hv
  rw [quad_three hA.symm] at hpos
  simpa using hpos

omit [IsStrictOrderedRing R] in
theorem PosDef.block_nonneg (hA : PosDef A) (x y : R) :
    0 ≤ A 1 1 * (x * x) + A 2 2 * (y * y) + 2 * (A 1 2 * (x * y)) := by
  by_cases h : x ≠ 0 ∨ y ≠ 0
  · exact (hA.block_pos h).le
  · push Not at h
    rw [h.1, h.2]
    simp

theorem PosDef.minor_pos (hA : PosDef A) : 0 < A 1 1 * A 2 2 - A 1 2 * A 1 2 := by
  have h11 : 0 < A 1 1 := by
    have h := hA.block_pos (x := 1) (y := 0) (Or.inl one_ne_zero)
    linarith
  have h := hA.block_pos (x := -A 1 2) (y := A 1 1) (Or.inr h11.ne')
  have hmul : 0 < A 1 1 * (A 1 1 * A 2 2 - A 1 2 * A 1 2) := by linarith
  exact (pos_iff_pos_of_mul_pos hmul).mp h11

omit [IsStrictOrderedRing R] in
theorem PosDef.quad_first_entry (hA : PosDef A)
    (h : ∀ i j, ¬ (i = 0 ∧ j = 0) → B i j = A i j) (v : Fin 3 → R) :
    quad B v = B 0 0 * (v 0 * v 0) + A 1 1 * (v 1 * v 1) + A 2 2 * (v 2 * v 2) +
      2 * (A 0 1 * (v 0 * v 1) + A 0 2 * (v 0 * v 2) + A 1 2 * (v 1 * v 2)) := by
  rw [quad_three (symm_of_eq_off hA.symm h), h 1 1 (by decide), h 2 2 (by decide),
    h 0 1 (by decide), h 0 2 (by decide), h 1 2 (by decide)]

theorem PosDef.lt_first_entry (hA : PosDef A) (h : ∀ i j, ¬ (i = 0 ∧ j = 0) → B i j = A i j)
    (hB : PosDef B) :
    A 0 1 * A 0 1 * A 2 2 - 2 * (A 0 1 * A 0 2 * A 1 2) + A 0 2 * A 0 2 * A 1 1 <
      B 0 0 * (A 1 1 * A 2 2 - A 1 2 * A 1 2) := by
  -- The vector that the first column of the adjugate gives.
  have hv : (![A 1 1 * A 2 2 - A 1 2 * A 1 2, A 0 2 * A 1 2 - A 0 1 * A 2 2,
      A 0 1 * A 1 2 - A 0 2 * A 1 1] : Fin 3 → R) ≠ 0 := fun h0 =>
    hA.minor_pos.ne' (congrFun h0 0)
  have hpos := hB.pos _ hv
  rw [hA.quad_first_entry h] at hpos
  simp only [Matrix.cons_val_zero, Matrix.cons_val_one, Matrix.cons_val] at hpos
  have hmul : 0 < (A 1 1 * A 2 2 - A 1 2 * A 1 2) *
      (B 0 0 * (A 1 1 * A 2 2 - A 1 2 * A 1 2) -
        (A 0 1 * A 0 1 * A 2 2 - 2 * (A 0 1 * A 0 2 * A 1 2) + A 0 2 * A 0 2 * A 1 1)) := by
    linarith
  exact sub_pos.mp ((pos_iff_pos_of_mul_pos hmul).mp hA.minor_pos)

theorem PosDef.of_lt_first_entry (hA : PosDef A) (h : ∀ i j, ¬ (i = 0 ∧ j = 0) → B i j = A i j)
    (hlt : A 0 1 * A 0 1 * A 2 2 - 2 * (A 0 1 * A 0 2 * A 1 2) + A 0 2 * A 0 2 * A 1 1 <
      B 0 0 * (A 1 1 * A 2 2 - A 1 2 * A 1 2)) : PosDef B := by
  have hminor := hA.minor_pos
  refine ⟨symm_of_eq_off hA.symm h, fun v hv => ?_⟩
  rw [hA.quad_first_entry h]
  by_cases h0 : v 0 = 0
  · have hrest : v 1 ≠ 0 ∨ v 2 ≠ 0 := by
      by_contra hnot
      push Not at hnot
      refine hv (funext fun i => ?_)
      match i with
      | 0 => exact h0
      | 1 => exact hnot.1
      | 2 => exact hnot.2
    have hblock := hA.block_pos hrest
    rw [h0]
    linarith
  · -- Completing the square in the other two coordinates.
    have hsquare := hA.block_nonneg
      ((A 1 1 * A 2 2 - A 1 2 * A 1 2) * v 1 + v 0 * (A 2 2 * A 0 1 - A 1 2 * A 0 2))
      ((A 1 1 * A 2 2 - A 1 2 * A 1 2) * v 2 + v 0 * (A 1 1 * A 0 2 - A 1 2 * A 0 1))
    have hfirst : 0 < v 0 * v 0 * (A 1 1 * A 2 2 - A 1 2 * A 1 2) *
        (B 0 0 * (A 1 1 * A 2 2 - A 1 2 * A 1 2) -
          (A 0 1 * A 0 1 * A 2 2 - 2 * (A 0 1 * A 0 2 * A 1 2) + A 0 2 * A 0 2 * A 1 1)) :=
      mul_pos (mul_pos (mul_self_pos.mpr h0) hminor) (sub_pos.mpr hlt)
    have hmul := add_pos_of_nonneg_of_pos hsquare hfirst
    have hsq : 0 < (A 1 1 * A 2 2 - A 1 2 * A 1 2) * (A 1 1 * A 2 2 - A 1 2 * A 1 2) :=
      mul_pos hminor hminor
    refine (pos_iff_pos_of_mul_pos (lt_of_lt_of_eq hmul ?_)).mp hsq
    ring

/-- A definite matrix stays definite with another first entry, if and only if this entry is above
what the rest of the first row takes. -/
theorem PosDef.first_entry_iff (hA : PosDef A)
    (h : ∀ i j, ¬ (i = 0 ∧ j = 0) → B i j = A i j) :
    PosDef B ↔ A 0 1 * A 0 1 * A 2 2 - 2 * (A 0 1 * A 0 2 * A 1 2) + A 0 2 * A 0 2 * A 1 1 <
      B 0 0 * (A 1 1 * A 2 2 - A 1 2 * A 1 2) :=
  ⟨hA.lt_first_entry h, hA.of_lt_first_entry h⟩

end ThreeByThree

end MgRobot.Lib.PositiveDefinite
