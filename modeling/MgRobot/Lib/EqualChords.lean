import MgRobot.Lib.Numerals
import Mathlib.Analysis.SpecialFunctions.Trigonometric.Bounds
import Mathlib.Analysis.Real.Pi.Bounds
import Mathlib.Tactic.LinearCombination

/-!
# Equal chords

A walk of unit steps that turns by the same angle before every step but the
first: its points lie on a circle, or on a line where the angle is zero. The
distance from the start has a closed form, and it gets beyond the diameter of the
circle that has the steps as arcs.
-/

namespace MgRobot.Lib.EqualChords

set_option autoImplicit false

open Real

/-- The point after `n` steps, the first of them in direction `θ`. -/
noncomputable def walk (θ φ : ℝ) : ℕ → ℝ × ℝ
  | 0 => (0, 0)
  | n + 1 => ((walk θ φ n).1 + cos (θ + n * φ), (walk θ φ n).2 + sin (θ + n * φ))

/-- The square of the distance from the start. -/
noncomputable def reach (θ φ : ℝ) (n : ℕ) : ℝ :=
  (walk θ φ n).1 * (walk θ φ n).1 + (walk θ φ n).2 * (walk θ φ n).2

variable {θ φ : ℝ}

/-- Both coordinates telescope. -/
theorem two_sin_half_mul_walk (θ φ : ℝ) (n : ℕ) :
    2 * sin (φ / 2) * (walk θ φ n).1 = sin (θ + n * φ - φ / 2) - sin (θ - φ / 2) ∧
      2 * sin (φ / 2) * (walk θ φ n).2 = cos (θ - φ / 2) - cos (θ + n * φ - φ / 2) := by
  induction n with
  | zero => simp [walk]
  | succ n ih =>
      obtain ⟨hx, hy⟩ := ih
      have hnext : θ + ((n + 1 : ℕ) : ℝ) * φ - φ / 2 = θ + n * φ + φ / 2 := by
        push_cast
        ring
      rw [hnext]
      constructor
      · show 2 * sin (φ / 2) * ((walk θ φ n).1 + cos (θ + n * φ)) = _
        rw [sin_sub (θ + n * φ)] at hx
        rw [sin_add (θ + n * φ)]
        linear_combination hx
      · show 2 * sin (φ / 2) * ((walk θ φ n).2 + sin (θ + n * φ)) = _
        rw [cos_sub (θ + n * φ)] at hy
        rw [cos_add (θ + n * φ)]
        linear_combination hy

theorem four_sin_sq_mul_reach (θ φ : ℝ) (n : ℕ) :
    sin (φ / 2) ^ 2 * reach θ φ n = sin (n * φ / 2) ^ 2 := by
  obtain ⟨hx, hy⟩ := two_sin_half_mul_walk θ φ n
  have hcos : cos (n * φ) = 1 - 2 * sin (n * φ / 2) ^ 2 := by
    have hdouble := cos_two_mul (n * φ / 2)
    rw [mul_div_cancel₀ _ (two_ne_zero' ℝ)] at hdouble
    linear_combination hdouble + 2 * sin_sq_add_cos_sq (n * φ / 2)
  have hdiff : cos (n * φ) = cos (θ + n * φ - φ / 2) * cos (θ - φ / 2) +
      sin (θ + n * φ - φ / 2) * sin (θ - φ / 2) := by
    rw [← cos_sub]
    congr 1
    ring
  have hone := sin_sq_add_cos_sq (θ + n * φ - φ / 2)
  have hone' := sin_sq_add_cos_sq (θ - φ / 2)
  have hsquare : 4 * (sin (φ / 2) ^ 2 * reach θ φ n) =
      (2 * sin (φ / 2) * (walk θ φ n).1) ^ 2 + (2 * sin (φ / 2) * (walk θ φ n).2) ^ 2 := by
    unfold reach
    ring
  rw [hx, hy] at hsquare
  linarith

theorem reach_straight (θ : ℝ) (n : ℕ) : reach θ 0 n = n ^ 2 := by
  have hwalk : ∀ n : ℕ, walk θ 0 n = (n * cos θ, n * sin θ) := by
    intro n
    induction n with
    | zero => simp [walk]
    | succ n ih =>
        rw [walk, ih, mul_zero, add_zero]
        push_cast
        exact Prod.ext (by ring) (by ring)
  rw [reach, hwalk]
  linear_combination (n : ℝ) ^ 2 * sin_sq_add_cos_sq θ

/-- A multiple of an angle comes within half of it of any angle ahead. -/
theorem exists_mul_near {α : ℝ} (hα : 0 < α) {β : ℝ} (hβ : 0 ≤ β) :
    ∃ n : ℕ, |β - n * α| ≤ α / 2 := by
  refine ⟨⌊β / α + 1 / 2⌋₊, abs_le.mpr ⟨?_, ?_⟩⟩
  · have hle := Nat.floor_le (show (0 : ℝ) ≤ β / α + 1 / 2 by positivity)
    have hmul := mul_le_mul_of_nonneg_right hle hα.le
    rw [add_mul, div_mul_cancel₀ _ hα.ne'] at hmul
    linarith
  · have hlt := Nat.lt_floor_add_one (β / α + 1 / 2)
    have hmul := mul_lt_mul_of_pos_right hlt hα
    rw [add_mul, div_mul_cancel₀ _ hα.ne'] at hmul
    linarith

/-- The walk gets beyond the diameter `2 / |φ|` of the circle on which its steps would be arcs. -/
theorem exists_reach_gt (θ : ℝ) (hφ : φ ≠ 0) : ∃ n : ℕ, (2 / φ) ^ 2 < reach θ φ n := by
  have hpos := abs_pos.mpr hφ
  by_cases hlarge : π < |φ|
  · -- the first step alone is longer
    refine ⟨1, ?_⟩
    have hone : reach θ φ 1 = 1 := by
      simp only [reach, walk, Nat.cast_zero, zero_mul, add_zero, zero_add]
      linear_combination sin_sq_add_cos_sq θ
    have htwo : 2 < |φ| := by linarith [pi_gt_three]
    rw [hone, ← sq_abs, abs_div, abs_two]
    have hratio : 2 / |φ| < 1 := (div_lt_one hpos).mpr htwo
    have hnonneg : 0 ≤ 2 / |φ| := by positivity
    nlinarith
  · have hsmall := not_lt.mp hlarge
    -- after `n` steps the walk is about half way round
    obtain ⟨n, hn⟩ := exists_mul_near (half_pos hpos) (half_pos pi_pos).le
    refine ⟨n, ?_⟩
    have hquarter : 0 < |φ| / 4 := by linarith
    have hcos : 0 < cos (|φ| / 4) := cos_pos_of_mem_Ioo ⟨by linarith [pi_pos], by linarith [pi_pos]⟩
    have hsin : 0 < sin (|φ| / 4) := sin_pos_of_pos_of_lt_pi hquarter (by linarith [pi_pos])
    have hfar : cos (|φ| / 4) ≤ sin (n * (|φ| / 2)) := by
      rw [← cos_pi_div_two_sub, ← cos_abs (π / 2 - n * (|φ| / 2))]
      refine cos_le_cos_of_nonneg_of_le_pi (abs_nonneg _) (by linarith [pi_pos]) ?_
      linarith
    have hsq : ∀ a : ℝ, sin (a * φ / 2) ^ 2 = sin (a * (|φ| / 2)) ^ 2 := by
      intro a
      rcases abs_choice φ with habs | habs
      · rw [habs]
        ring_nf
      · rw [habs, show a * (-φ / 2) = -(a * φ / 2) by ring, sin_neg]
        ring
    have hreach := four_sin_sq_mul_reach θ φ n
    have hhalf := hsq 1
    rw [one_mul, one_mul] at hhalf
    rw [hsq, hhalf, show |φ| / 2 = 2 * (|φ| / 4) by ring, sin_two_mul] at hreach
    rw [show |φ| / 2 = 2 * (|φ| / 4) by ring] at hfar
    -- `4 sin² (φ / 4) * reach ≥ 1`, and `sin x < x`
    have hone : 1 ≤ (2 * sin (|φ| / 4)) ^ 2 * reach θ φ n := by
      have hle : cos (|φ| / 4) ^ 2 ≤ (2 * sin (|φ| / 4)) ^ 2 * reach θ φ n * cos (|φ| / 4) ^ 2 := by
        calc cos (|φ| / 4) ^ 2 ≤ sin (n * (2 * (|φ| / 4))) ^ 2 := by
              exact pow_le_pow_left₀ hcos.le hfar 2
          _ = (2 * sin (|φ| / 4)) ^ 2 * reach θ φ n * cos (|φ| / 4) ^ 2 := by
              rw [← hreach]
              ring
      have hcos2 : 0 < cos (|φ| / 4) ^ 2 := by positivity
      exact le_of_mul_le_mul_right (by rwa [one_mul]) hcos2
    have hlt : 2 * sin (|φ| / 4) < |φ| / 2 := by linarith [sin_lt hquarter]
    have hreachpos : 0 < reach θ φ n := by
      by_contra hneg
      have hs : 0 ≤ (2 * sin (|φ| / 4)) ^ 2 := by positivity
      nlinarith [not_lt.mp hneg]
    have hlt2 : (2 * sin (|φ| / 4)) ^ 2 < (|φ| / 2) ^ 2 :=
      pow_lt_pow_left₀ hlt (by positivity) two_ne_zero
    have hbeyond : 1 < (|φ| / 2) ^ 2 * reach θ φ n :=
      lt_of_le_of_lt hone (mul_lt_mul_of_pos_right hlt2 hreachpos)
    rw [div_pow, ← sq_abs φ, div_lt_iff₀ (by positivity)]
    have hfour : (|φ| / 2) ^ 2 * reach θ φ n = reach θ φ n * |φ| ^ 2 / 4 := by ring
    rw [hfour] at hbeyond
    linarith

/-- The walk gets beyond any bound that the diameter is not below; any bound at all if it is
straight. -/
theorem exists_reach_gt_of_le (θ φ : ℝ) {d : ℝ} (hd : |φ| * d ≤ 2) (hd0 : 0 ≤ d) :
    ∃ n : ℕ, d ^ 2 < reach θ φ n := by
  by_cases hφ : φ = 0
  · obtain ⟨n, hn⟩ := exists_nat_gt d
    refine ⟨n, ?_⟩
    rw [hφ, reach_straight]
    exact pow_lt_pow_left₀ hn hd0 two_ne_zero
  · obtain ⟨n, hn⟩ := exists_reach_gt θ hφ
    refine ⟨n, lt_of_le_of_lt ?_ hn⟩
    rw [← sq_abs (2 / φ), abs_div, abs_two]
    have hle : d ≤ 2 / |φ| := (le_div_iff₀ (abs_pos.mpr hφ)).mpr (by linarith)
    exact pow_le_pow_left₀ hd0 hle 2

end MgRobot.Lib.EqualChords
