import Mathlib.Data.List.MinMax
import Mathlib.Data.List.Sort

/-!
# The two extreme values of a list

The smallest value and the second smallest one are kept while the values come in one after
another, with the order as a parameter, so that the largest two are kept in the same way.
-/

namespace MgRobot.Lib.OrderStatistics

set_option autoImplicit false

variable {α : Type*}

/-- The first value, and the second one when there is one, of those so far and of `z`. -/
def pushTwo (before : α → α → Prop) [DecidableRel before] (z : α) (s : α × Option α) :
    α × Option α :=
  if before z s.1 then (z, some s.1)
  else if ∀ w ∈ s.2, before z w then (s.1, some z)
  else s

section TwoFirst

variable (le : α → α → Prop) [DecidableRel le] [Std.Total le] [IsTrans α le] [Std.Antisymm le]

/-- The sorted list does not depend on the order of the values. -/
theorem insertionSort_congr {l l' : List α} (h : l.Perm l') :
    l.insertionSort le = l'.insertionSort le := by
  have hperm : (l.insertionSort le).Perm (l'.insertionSort le) :=
    (List.perm_insertionSort le l).trans (h.trans (List.perm_insertionSort le l').symm)
  exact hperm.eq_of_pairwise' (List.pairwise_insertionSort le l)
    (List.pairwise_insertionSort le l')

theorem insertionSort_concat (l : List α) (z : α) :
    (l ++ [z]).insertionSort le = (l.insertionSort le).orderedInsert le z :=
  insertionSort_congr le List.perm_append_comm

omit [Std.Total le] [IsTrans α le] in
/-- A value that is not before the head of a sorted list goes behind it. -/
theorem orderedInsert_cons_of_le {x z : α} {rest : List α} (hsorted : (x :: rest).Pairwise le)
    (hxz : le x z) : (x :: rest).orderedInsert le z = x :: rest.orderedInsert le z := by
  by_cases hzx : le z x
  · obtain rfl : z = x := Std.Antisymm.antisymm z x hzx hxz
    rw [List.orderedInsert_cons_of_le le rest hzx]
    cases rest with
    | nil => rfl
    | cons y tail =>
        have hzy : le z y := List.rel_of_pairwise_cons hsorted List.mem_cons_self
        rw [List.orderedInsert_cons_of_le le tail hzy]
  · exact List.orderedInsert_of_not_le le rest hzx

/-- The pair holds the first two values of the sorted list. -/
def TwoFirst (l : List α) (s : α × Option α) : Prop :=
  (l.insertionSort le).take 2 = s.1 :: s.2.toList

omit [Std.Total le] [IsTrans α le] [Std.Antisymm le] in
theorem twoFirst_singleton (z : α) : TwoFirst le [z] (z, none) := rfl

variable {le} {before : α → α → Prop} [DecidableRel before]

/-- One value more. -/
theorem TwoFirst.push (hbefore : ∀ a b, before a b ↔ ¬ le b a) {l : List α} {s : α × Option α}
    (h : TwoFirst le l s) (z : α) : TwoFirst le (l ++ [z]) (pushTwo before z s) := by
  obtain ⟨a, b⟩ := s
  have hsorted := List.pairwise_insertionSort le l
  unfold TwoFirst at h ⊢
  rw [insertionSort_concat]
  cases hsort : l.insertionSort le with
  | nil =>
      rw [hsort] at h
      exact absurd h (List.cons_ne_nil _ _).symm
  | cons x rest =>
      rw [hsort, List.take_succ_cons] at h
      rw [hsort] at hsorted
      obtain ⟨rfl, htail⟩ := List.cons.inj h
      unfold pushTwo
      by_cases hxz : le x z
      · have hstay : ¬ before z x := by
          rw [hbefore]
          exact not_not.mpr hxz
        rw [orderedInsert_cons_of_le le hsorted hxz, if_neg hstay]
        cases rest with
        | nil =>
            obtain rfl : b = none := Option.toList_eq_nil_iff.mp htail.symm
            simp
        | cons y tail =>
            obtain rfl : b = some y := by
              cases b with
              | none => exact absurd htail (List.cons_ne_nil _ _)
              | some w => exact congrArg some (List.cons.inj htail).1.symm
            by_cases hyz : le y z
            · have hskip : ¬ ∀ w ∈ some y, before z w := fun hw =>
                (hbefore z y).mp (hw y rfl) hyz
              rw [orderedInsert_cons_of_le le hsorted.of_cons hyz, if_neg hskip]
              rfl
            · have htake : ∀ w ∈ some y, before z w := by
                intro w hw
                rw [← Option.some.inj hw, hbefore]
                exact hyz
              have hzy : le z y := (Std.Total.total y z).resolve_left hyz
              rw [List.orderedInsert_cons_of_le le tail hzy, if_pos htake]
              rfl
      · have hzx : le z x := (Std.Total.total x z).resolve_left hxz
        rw [List.orderedInsert_cons_of_le le rest hzx, if_pos ((hbefore z x).mpr hxz)]
        rfl

omit [Std.Total le] [IsTrans α le] [Std.Antisymm le] in
theorem TwoFirst.getElem?_zero {l : List α} {s : α × Option α} (h : TwoFirst le l s) :
    (l.insertionSort le)[0]? = some s.1 := by
  have hget := congrArg (fun m : List α => m[0]?) h
  simpa using hget

omit [Std.Total le] [IsTrans α le] [Std.Antisymm le] in
/-- There is a second value exactly when the list has two. -/
theorem TwoFirst.getElem?_one {l : List α} {s : α × Option α} (h : TwoFirst le l s) :
    (l.insertionSort le)[1]? = s.2 := by
  have hget := congrArg (fun m : List α => m[1]?) h
  cases hs : s.2 <;> simpa [hs] using hget

end TwoFirst

section Extremes

variable [LinearOrder α] {l : List α}

theorem pushTwo_lt_fst (z : α) (s : α × Option α) : (pushTwo (· < ·) z s).1 = min s.1 z := by
  unfold pushTwo
  split_ifs with hlt hsecond
  · exact (min_eq_right hlt.le).symm
  · exact (min_eq_left (not_lt.mp hlt)).symm
  · exact (min_eq_left (not_lt.mp hlt)).symm

theorem pushTwo_gt_fst (z : α) (s : α × Option α) : (pushTwo (· > ·) z s).1 = max s.1 z := by
  unfold pushTwo
  split_ifs with hgt hsecond
  · exact (max_eq_right hgt.le).symm
  · exact (max_eq_left (not_lt.mp hgt)).symm
  · exact (max_eq_left (not_lt.mp hgt)).symm

theorem le_minimum_iff {b : WithTop α} : b ≤ l.minimum ↔ ∀ a ∈ l, b ≤ a :=
  ⟨fun h _ ha => h.trans (List.minimum_le_of_mem' ha), List.le_minimum_of_forall_le⟩

theorem maximum_le_iff {b : WithBot α} : l.maximum ≤ b ↔ ∀ a ∈ l, (a : WithBot α) ≤ b :=
  ⟨fun h _ ha => (List.le_maximum_of_mem' ha).trans h, List.maximum_le_of_forall_le⟩

end Extremes

end MgRobot.Lib.OrderStatistics
