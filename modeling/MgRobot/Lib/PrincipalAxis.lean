import Mathlib.Algebra.BigOperators.Ring.List
import Mathlib.Algebra.CharZero.Defs
import Mathlib.Algebra.Order.Ring.Nat
import Mathlib.Analysis.Real.Sqrt
import Mathlib.Data.Nat.Cast.Basic
import Mathlib.Tactic.FieldSimp
import Mathlib.Tactic.Linarith
import Mathlib.Tactic.LinearCombination
import Mathlib.Tactic.Ring
import MgRobot.Lib.RigidMotion

/-!
# Covariances and principal axes

Averages and covariances of functions over a list of samples: linear in each
function, and blind to shifts.

The eigenvectors of the larger eigenvalue of a symmetric matrix `(a, b; b, d)`. Unless
the eigenvalues agree, there are two of unit length, and they are opposite; a rotation
of the plane turns them along.
-/

namespace MgRobot.Lib.Covariance

set_option autoImplicit false

variable {α K : Type*} [Field K]

def average (l : List α) (f : α → K) : K := (l.map f).sum * (1 / l.length)

def covariance (l : List α) (f g : α → K) : K :=
  average l fun p => (f p - average l f) * (g p - average l g)

variable {l : List α} {f g h : α → K}

theorem average_add (l : List α) (f g : α → K) :
    average l (fun p => f p + g p) = average l f + average l g := by
  unfold average
  rw [List.sum_map_add, add_mul]

theorem average_mul (l : List α) (x : K) (f : α → K) :
    average l (fun p => x * f p) = x * average l f := by
  unfold average
  rw [List.sum_map_mul_left, mul_assoc]

theorem average_const [CharZero K] (hl : l ≠ []) (c : K) : average l (fun _ => c) = c := by
  have hlen : (l.length : K) ≠ 0 := Nat.cast_ne_zero.mpr (by simpa using hl)
  unfold average
  rw [List.map_const', List.sum_replicate, nsmul_eq_mul]
  field_simp

theorem average_combo [CharZero K] (hl : l ≠ []) (f g : α → K) (x y c : K) :
    average l (fun p => x * f p + y * g p + c) = x * average l f + y * average l g + c := by
  rw [average_add, average_add, average_mul, average_mul, average_const hl]

theorem covariance_comm (l : List α) (f g : α → K) : covariance l f g = covariance l g f := by
  unfold covariance
  congr 1
  funext p
  exact mul_comm _ _

theorem covariance_combo [CharZero K] (hl : l ≠ []) (f g h : α → K) (x y c : K) :
    covariance l (fun p => x * f p + y * g p + c) h =
      x * covariance l f h + y * covariance l g h := by
  have hcentre : ∀ p, x * f p + y * g p + c - average l (fun p => x * f p + y * g p + c) =
      x * (f p - average l f) + y * (g p - average l g) := by
    intro p
    rw [average_combo hl]
    ring
  unfold covariance
  rw [← average_mul, ← average_mul, ← average_add]
  congr 1
  funext p
  dsimp only
  rw [hcentre]
  ring

/-- The covariance of two combinations of the same two functions. -/
theorem covariance_combo_combo [CharZero K] (hl : l ≠ []) (f g : α → K) (x y c x' y' c' : K) :
    covariance l (fun p => x * f p + y * g p + c) (fun p => x' * f p + y' * g p + c') =
      x * x' * covariance l f f + (x * y' + y * x') * covariance l f g +
        y * y' * covariance l g g := by
  rw [covariance_combo hl, covariance_comm l f, covariance_comm l g, covariance_combo hl,
    covariance_combo hl, covariance_comm l g f]
  ring

end MgRobot.Lib.Covariance

namespace MgRobot.Lib.Plane

set_option autoImplicit false

/-- `v` is a unit eigenvector for the eigenvalue `l`; the other eigenvalue, `a + d - l`, is not
larger. -/
structure IsPrincipal (a b d l : ℝ) (v : ℝ × ℝ) : Prop where
  fst : a * v.1 + b * v.2 = l * v.1
  snd : b * v.1 + d * v.2 = l * v.2
  unit : dot v v = 1
  max : a + d ≤ 2 * l

variable {a b d l l' θ : ℝ} {v w : ℝ × ℝ}

theorem IsPrincipal.ne_zero (h : IsPrincipal a b d l v) : v ≠ 0 := by
  intro hv
  have hu := h.unit
  rw [dot_self_eq_zero.mpr hv] at hu
  exact zero_ne_one hu

/-- Of two principal axes, one is the other or its opposite, if the eigenvalues differ. -/
theorem IsPrincipal.eq_or_neg (h : IsPrincipal a b d l v) (h' : IsPrincipal a b d l' w)
    (hl : a + d < 2 * l) : w = v ∨ w = -v := by
  obtain ⟨h1, h2, hv, _⟩ := h
  obtain ⟨h1', h2', hw, hmax⟩ := h'
  unfold dot at hv hw
  -- the part of `w` across `v` belongs to the smaller eigenvalue
  have hacross : (l' - (a + d - l)) * (w.2 * v.1 - w.1 * v.2) = 0 := by
    linear_combination v.2 * h1' - v.1 * h2' - w.2 * h1 + w.1 * h2
  have hne : l' - (a + d - l) ≠ 0 := by
    intro hz
    linarith
  have hpar := (mul_eq_zero.mp hacross).resolve_left hne
  have hdot : dot w v * dot w v = 1 := by
    unfold dot
    linear_combination hv * (w.1 * w.1 + w.2 * w.2) + hw - (w.2 * v.1 - w.1 * v.2) * hpar
  have hw1 : w.1 = dot w v * v.1 := by
    unfold dot
    linear_combination -w.1 * hv - v.2 * hpar
  have hw2 : w.2 = dot w v * v.2 := by
    unfold dot
    linear_combination -w.2 * hv + v.1 * hpar
  rcases mul_self_eq_one_iff.mp hdot with hd | hd
  · left
    rw [hd, one_mul] at hw1 hw2
    exact Prod.ext hw1 hw2
  · right
    rw [hd, neg_one_mul] at hw1 hw2
    exact Prod.ext hw1 hw2

/-- The principal axis of the rotated matrix. -/
theorem IsPrincipal.turn (h : IsPrincipal a b d l v) (θ : ℝ) :
    IsPrincipal
      (Real.cos θ * Real.cos θ * a - 2 * (Real.cos θ * Real.sin θ) * b +
        Real.sin θ * Real.sin θ * d)
      (Real.cos θ * Real.sin θ * (a - d) +
        (Real.cos θ * Real.cos θ - Real.sin θ * Real.sin θ) * b)
      (Real.sin θ * Real.sin θ * a + 2 * (Real.cos θ * Real.sin θ) * b +
        Real.cos θ * Real.cos θ * d) l (turn θ v) := by
  have hcs := Real.cos_sq_add_sin_sq θ
  obtain ⟨h1, h2, hv, hmax⟩ := h
  refine ⟨?_, ?_, ?_, ?_⟩
  · unfold Plane.turn
    linear_combination Real.cos θ * h1 - Real.sin θ * h2 + (Real.cos θ * (a * v.1 + b * v.2) -
      Real.sin θ * (b * v.1 + d * v.2)) * hcs
  · unfold Plane.turn
    linear_combination Real.sin θ * h1 + Real.cos θ * h2 + (Real.sin θ * (a * v.1 + b * v.2) +
      Real.cos θ * (b * v.1 + d * v.2)) * hcs
  · rw [dot_turn]
    exact hv
  · linear_combination hmax + (a + d) * hcs

noncomputable def largerEigenvalue (a b d : ℝ) : ℝ :=
  (a + d + Real.sqrt ((a - d) * (a - d) + 4 * (b * b))) / 2

/-- A principal axis in closed form. -/
noncomputable def principalAxis (a b d : ℝ) : ℝ × ℝ :=
  if b = 0 then if d ≤ a then (1, 0) else (0, 1)
  else
    let y := largerEigenvalue a b d - a
    let n := Real.sqrt (b * b + y * y)
    (b / n, y / n)

theorem largerEigenvalue_spec (a b d : ℝ) :
    (largerEigenvalue a b d - a) * (largerEigenvalue a b d - d) = b * b := by
  have ha := mul_self_nonneg (a - d)
  have hb := mul_self_nonneg b
  have hs := Real.mul_self_sqrt (show 0 ≤ (a - d) * (a - d) + 4 * (b * b) by linarith)
  unfold largerEigenvalue
  linear_combination hs / 4

theorem le_largerEigenvalue (a b d : ℝ) : a + d ≤ 2 * largerEigenvalue a b d := by
  have hs := Real.sqrt_nonneg ((a - d) * (a - d) + 4 * (b * b))
  unfold largerEigenvalue
  linarith

/-- Without a mixed entry the larger of the two diagonal entries is the larger eigenvalue. -/
theorem largerEigenvalue_diag (a d : ℝ) : largerEigenvalue a 0 d = max a d := by
  unfold largerEigenvalue
  rw [mul_zero, mul_zero, add_zero, Real.sqrt_mul_self_eq_abs]
  rcases le_total d a with h | h
  · rw [abs_of_nonneg (sub_nonneg.mpr h), max_eq_left h]
    ring
  · rw [abs_of_nonpos (sub_nonpos.mpr h), max_eq_right h]
    ring

/-- The eigenvector `(b, l - a)`, scaled to unit length. -/
theorem isPrincipal_div {n : ℝ} (hl : (l - a) * (l - d) = b * b) (hmax : a + d ≤ 2 * l)
    (hn : n * n = b * b + (l - a) * (l - a)) (hn0 : n ≠ 0) :
    IsPrincipal a b d l (b / n, (l - a) / n) := by
  refine ⟨?_, ?_, ?_, hmax⟩
  · field_simp
    ring
  · field_simp
    linear_combination -hl
  · simp only [dot]
    field_simp
    linear_combination -hn

theorem isPrincipal_principalAxis (a b d : ℝ) :
    IsPrincipal a b d (largerEigenvalue a b d) (principalAxis a b d) := by
  have hmax := le_largerEigenvalue a b d
  unfold principalAxis
  by_cases hb : b = 0
  · subst hb
    rw [if_pos rfl, largerEigenvalue_diag] at *
    rcases le_or_gt d a with h | h
    · rw [if_pos h, max_eq_left h] at *
      exact ⟨by ring, by ring, by simp [dot], hmax⟩
    · rw [if_neg (not_le.mpr h), max_eq_right h.le] at *
      exact ⟨by ring, by ring, by simp [dot], hmax⟩
  · rw [if_neg hb]
    have hpos := mul_self_pos.mpr hb
    have hnonneg := mul_self_nonneg (largerEigenvalue a b d - a)
    have hsum : 0 < b * b + (largerEigenvalue a b d - a) * (largerEigenvalue a b d - a) := by
      linarith
    exact isPrincipal_div (largerEigenvalue_spec a b d) hmax (Real.mul_self_sqrt hsum.le)
      (Real.sqrt_pos.mpr hsum).ne'

/-- The eigenvector with the sign that points along `d`. -/
noncomputable def towards (d v : ℝ × ℝ) : ℝ × ℝ := if dot v d < 0 then -v else v

theorem dot_neg_left (v w : ℝ × ℝ) : dot (-v) w = -dot v w := by
  simp only [dot, Prod.fst_neg, Prod.snd_neg]
  ring

theorem towards_ne_zero {d v : ℝ × ℝ} (hv : v ≠ 0) : towards d v ≠ 0 := by
  unfold towards
  split
  · exact neg_ne_zero.mpr hv
  · exact hv

/-- Turned along, the axis points along `d` unless it is across `d`, when the sign is as it
comes. -/
theorem heading_towards_iff {d v w : ℝ × ℝ} (hv : v ≠ 0) (hw : w = turn θ v ∨ w = -turn θ v) :
    (heading (towards (turn θ d) w) : Real.Angle) = θ + heading (towards d v) ↔
      dot v d ≠ 0 ∨ w = turn θ v := by
  have hsame : towards (turn θ d) (turn θ v) = turn θ (towards d v) := by
    unfold towards
    rw [dot_turn]
    split
    · rw [turn_neg]
    · rfl
  rw [← heading_turn (towards_ne_zero hv), ← hsame]
  rcases hw with rfl | rfl
  · exact iff_of_true rfl (Or.inr rfl)
  · have hne : turn θ v ≠ 0 := fun h => hv (turn_eq_zero.mp h)
    have hself : -turn θ v ≠ turn θ v := by
      intro h
      exact hne (self_eq_neg.mp h.symm)
    rw [or_iff_left hself]
    unfold towards
    rw [dot_neg_left, dot_turn]
    rcases lt_trichotomy (dot v d) 0 with hlt | heq | hgt
    · rw [if_neg (by linarith), if_pos hlt]
      exact iff_of_true rfl hlt.ne
    · rw [heq, neg_zero, if_neg (lt_irrefl _), if_neg (lt_irrefl _)]
      exact iff_of_false (heading_neg_ne hne) (fun h => h rfl)
    · rw [if_pos (by linarith), if_neg (by linarith), neg_neg]
      exact iff_of_true rfl hgt.ne'

end MgRobot.Lib.Plane
