import Mathlib.Algebra.Order.Group.Unbundled.Abs
import Mathlib.Algebra.Order.Group.Defs
import Mathlib.Data.List.Chain
import Mathlib.Order.Defs.LinearOrder

/-!
# Search in a sorted list

`lowerBound` is the first place whose entry is not below the key, or the length. Next
to it stand the entries closest to the key.
-/

namespace MgRobot.Lib.SortedSearch

set_option autoImplicit false

variable {α : Type*} [LinearOrder α]

/-- `std::lower_bound` on a sorted range. -/
def lowerBound (ts : List α) (t : α) : Nat := ts.findIdx fun s => decide (t ≤ s)

variable {ts : List α} {t r s : α} {i j : Nat}

theorem getElem?_le (hs : ts.Pairwise (· ≤ ·)) (hij : i ≤ j) (hi : ts[i]? = some r)
    (hj : ts[j]? = some s) : r ≤ s := by
  obtain ⟨hli, rfl⟩ := List.getElem?_eq_some_iff.mp hi
  obtain ⟨hlj, rfl⟩ := List.getElem?_eq_some_iff.mp hj
  rcases Nat.eq_or_lt_of_le hij with rfl | hlt
  · exact le_rfl
  · exact List.pairwise_iff_getElem.mp hs i j hli hlj hlt

theorem lt_of_lt_lowerBound (h : i < lowerBound ts t) (hi : ts[i]? = some s) : s < t := by
  obtain ⟨hlt, rfl⟩ := List.getElem?_eq_some_iff.mp hi
  exact lt_of_not_ge (of_decide_eq_false (List.not_of_lt_findIdx h))

theorem le_of_lowerBound_le (hs : ts.Pairwise (· ≤ ·)) (h : lowerBound ts t ≤ i)
    (hi : ts[i]? = some s) : t ≤ s := by
  have hlt := lt_of_le_of_lt h (List.getElem?_eq_some_iff.mp hi).1
  have hat : t ≤ ts[lowerBound ts t] := of_decide_eq_true (List.findIdx_getElem (w := hlt))
  exact hat.trans (getElem?_le hs h (List.getElem?_eq_getElem hlt) hi)

/-- The place is the one that separates the smaller entries from the others. -/
theorem lowerBound_eq (hs : ts.Pairwise (· ≤ ·)) (hi : ts[i]? = some s) (hle : t ≤ s)
    (hbefore : ∀ r, 0 < i → ts[i - 1]? = some r → r < t) : lowerBound ts t = i := by
  have hlt := (List.getElem?_eq_some_iff.mp hi).1
  apply le_antisymm
  · by_contra hgt
    exact absurd (lt_of_lt_lowerBound (lt_of_not_ge hgt) hi) (not_lt_of_ge hle)
  · by_contra hgt
    have hpos : 0 < i := by omega
    have hget := List.getElem?_eq_getElem (show i - 1 < ts.length by omega)
    exact absurd (le_of_lowerBound_le hs (by omega) hget) (not_le_of_gt (hbefore _ hpos hget))

/-- Queries at the stamps of sorted samples answer the samples themselves, exactly if each sample
follows the one before it: it is the same one, or the answer between the two is the later one. -/
theorem answers_at_stamps_iff {σ : Type*} {stamp : σ → α} {l : List σ} (answer : α → Option σ)
    (between : σ → σ → Option σ) (hs : (l.map stamp).Pairwise (· ≤ ·))
    (hfirst : ∀ b, l[0]? = some b → answer (stamp b) = some b)
    (hnext : ∀ (i : Nat) (a b : σ), l[i]? = some a → l[i + 1]? = some b → stamp a < stamp b →
      answer (stamp b) = between a b) :
    (∀ x ∈ l, answer (stamp x) = some x) ↔
      l.IsChain fun a b => if stamp a = stamp b then a = b else between a b = some b := by
  have hle : ∀ (i : Nat) (a b : σ), l[i]? = some a → l[i + 1]? = some b → stamp a ≤ stamp b := by
    intro i a b ha hb
    exact getElem?_le hs (Nat.le_succ i) (by rw [List.getElem?_map, ha]; rfl)
      (by rw [List.getElem?_map, hb]; rfl)
  rw [List.isChain_iff_getElem]
  constructor
  · intro h i hi
    have ha := h _ (List.getElem_mem (show i < l.length by omega))
    have hb := h _ (List.getElem_mem hi)
    have hga := List.getElem?_eq_getElem (show i < l.length by omega)
    have hgb := List.getElem?_eq_getElem hi
    by_cases heq : stamp l[i] = stamp l[i + 1]
    · rw [if_pos heq]
      rw [heq, hb] at ha
      exact (Option.some.inj ha).symm
    · rw [if_neg heq, ← hnext i _ _ hga hgb (lt_of_le_of_ne (hle i _ _ hga hgb) heq)]
      exact hb
  · intro h
    have hall : ∀ (i : Nat) (x : σ), l[i]? = some x → answer (stamp x) = some x := by
      intro i
      induction i with
      | zero => exact hfirst
      | succ i ih =>
          intro b hb
          obtain ⟨hi, rfl⟩ := List.getElem?_eq_some_iff.mp hb
          have hga := List.getElem?_eq_getElem (show i < l.length by omega)
          have hc := h i hi
          by_cases heq : stamp l[i] = stamp l[i + 1]
          · rw [if_pos heq] at hc
            rw [← hc]
            exact ih _ hga
          · rw [if_neg heq] at hc
            rw [hnext i _ _ hga hb (lt_of_le_of_ne (hle i _ _ hga hb) heq)]
            exact hc
    intro x hx
    obtain ⟨i, hi⟩ := List.mem_iff_getElem?.mp hx
    exact hall i x hi

section Nearest

variable {α : Type*} [AddCommGroup α] [LinearOrder α] [IsOrderedAddMonoid α]
variable {ts : List α} {t r s : α} {i j : Nat}

/-- Of the entries up to one that is not above the key, that one is the closest. -/
theorem abs_sub_le_of_before (hs : ts.Pairwise (· ≤ ·)) (hi : ts[i]? = some r) (hr : r ≤ t)
    (hji : j ≤ i) (hj : ts[j]? = some s) : |t - r| ≤ |t - s| := by
  have hsr := getElem?_le hs hji hj hi
  rw [abs_of_nonneg (sub_nonneg.mpr hr), abs_of_nonneg (sub_nonneg.mpr (hsr.trans hr))]
  exact sub_le_sub_left hsr t

theorem abs_sub_le_of_after (hs : ts.Pairwise (· ≤ ·)) (hi : ts[i]? = some r) (hr : t ≤ r)
    (hij : i ≤ j) (hj : ts[j]? = some s) : |t - r| ≤ |t - s| := by
  have hrs := getElem?_le hs hij hi hj
  rw [abs_of_nonpos (sub_nonpos.mpr hr), abs_of_nonpos (sub_nonpos.mpr (hr.trans hrs))]
  exact neg_le_neg (sub_le_sub_left hrs t)

/-- On either side of the lower bound, the entry next to it is the closest one. -/
theorem abs_sub_le_of_lt_lowerBound (hs : ts.Pairwise (· ≤ ·)) (h : i < lowerBound ts t)
    (hi : ts[i]? = some r) (hji : j ≤ i) (hj : ts[j]? = some s) : |t - r| ≤ |t - s| :=
  abs_sub_le_of_before hs hi (lt_of_lt_lowerBound h hi).le hji hj

theorem abs_sub_le_of_lowerBound_le (hs : ts.Pairwise (· ≤ ·)) (h : lowerBound ts t ≤ i)
    (hi : ts[i]? = some r) (hij : i ≤ j) (hj : ts[j]? = some s) : |t - r| ≤ |t - s| :=
  abs_sub_le_of_after hs hi (le_of_lowerBound_le hs h hi) hij hj

end Nearest

end MgRobot.Lib.SortedSearch
