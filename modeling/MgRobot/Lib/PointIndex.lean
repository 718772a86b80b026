import Mathlib.Data.List.Induction
import Mathlib.Data.List.Sort

/-!
# Searching through an index

A search tree is built from a list of points and asked later. Its answers are exact as
long as the points are those it was built from; they come in any order.
-/

namespace MgRobot.Lib.PointIndex

set_option autoImplicit false

variable {α P Q : Type*}

/-- The places that a search finds, from the points at the time the index was built, the points
at the time of the search, and the query. -/
abbrev Search (P Q : Type*) := List P → List P → Q → List Nat

/-- The places of the entries that are hit, in order. -/
def places (hit : α → Bool) (xs : List α) : List Nat :=
  (List.range xs.length).filter fun i => xs[i]?.any hit

/-- A search that is exact for the points its index was built from. -/
def Exact (hit : Q → P → Bool) (search : Search P Q) : Prop :=
  ∀ pts q, (search pts pts q).Perm (places (hit q) pts)

theorem pairwise_places (hit : α → Bool) (xs : List α) : (places hit xs).Pairwise (· ≤ ·) :=
  (List.pairwise_le_range (n := xs.length)).filter _

theorem places_map {f : α → P} (hit : P → Bool) (xs : List α) :
    places hit (xs.map f) = places (fun x => hit (f x)) xs := by
  unfold places
  rw [List.length_map]
  refine List.filter_congr fun i _ => ?_
  rw [List.getElem?_map]
  cases xs[i]? <;> rfl

theorem filter_places (hit keep : α → Bool) (xs : List α) :
    (places hit xs).filter (fun i => xs[i]?.any keep) = places (fun x => hit x && keep x) xs := by
  unfold places
  rw [List.filter_filter]
  refine List.filter_congr fun i _ => ?_
  cases xs[i]? with
  | none => rfl
  | some x => exact Bool.and_comm _ _

/-- The entries at the places that are hit. -/
theorem filterMap_places (hit : α → Bool) (xs : List α) :
    (places hit xs).filterMap (fun i => xs[i]?) = xs.filter hit := by
  induction xs using List.reverseRecOn with
  | nil => rfl
  | append_singleton xs x ih =>
      have hfront : (List.range xs.length).filter (fun i => (xs ++ [x])[i]?.any hit) =
          places hit xs := by
        refine List.filter_congr fun i hi => ?_
        rw [List.getElem?_append_left (List.mem_range.mp hi)]
      have hsame : (places hit xs).filterMap (fun i => (xs ++ [x])[i]?) =
          (places hit xs).filterMap fun i => xs[i]? := by
        refine List.filterMap_congr fun i hi => ?_
        rw [List.getElem?_append_left (List.mem_range.mp (List.mem_filter.mp hi).1)]
      rw [places, List.length_append, List.length_singleton, List.range_succ, List.filter_append,
        hfront, List.filterMap_append, hsame, ih, List.filter_append]
      congr 1
      by_cases hx : hit x
      · simp [hx]
      · simp [hx]

/-- What is found in a fresh index and sorted by place is what a scan of the list finds. -/
theorem found_sorted {hit : Q → P → Bool} {search : Search P Q} (h : Exact hit search)
    (f : α → P) (keep : α → Bool) (xs : List α) (q : Q) :
    (((search (xs.map f) (xs.map f) q).filter fun i => xs[i]?.any keep).insertionSort
      (· ≤ ·)).filterMap (fun i => xs[i]?) = xs.filter fun x => hit q (f x) && keep x := by
  have hperm : ((search (xs.map f) (xs.map f) q).filter fun i => xs[i]?.any keep).Perm
      (places (fun x => hit q (f x) && keep x) xs) := by
    rw [← filter_places, ← places_map]
    exact (h _ q).filter _
  have hsorted : ((search (xs.map f) (xs.map f) q).filter fun i => xs[i]?.any keep).insertionSort
      (· ≤ ·) = places (fun x => hit q (f x) && keep x) xs := by
    refine List.Perm.eq_of_pairwise' (r := (· ≤ ·)) (List.pairwise_insertionSort _ _)
      (pairwise_places _ xs) ?_
    exact (List.perm_insertionSort _ _).trans hperm
  rw [hsorted, filterMap_places]

end MgRobot.Lib.PointIndex
