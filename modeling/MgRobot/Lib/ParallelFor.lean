import Mathlib.Algebra.BigOperators.Group.List.Lemmas
import Mathlib.Data.List.FinRange
import Mathlib.Order.Defs.LinearOrder
import MgRobot.Lib.Runs

/-!
# Parallel loops with a state for each thread

A `Schedule` gives every item of a loop to one of `n` threads, in any order. A thread
works on its own state only, so what it ends with is the sequential loop over its own
items, and the items of all threads are the items of the loop. Where the threads share a
memory, a cell that one thread alone writes ends as that thread leaves it.

Elements have a score, and a key that orders them by score and breaks ties. A search that
keeps the best key finds the same element in any order and in any split over threads; in
the order of the ties it is the search that keeps the first best score.
-/

namespace MgRobot.Lib.ParallelFor

set_option autoImplicit false

variable {n : Nat} {α σ : Type*}

/-- The steps of all threads, in the order in which they happen. -/
structure Schedule (n : Nat) (items : List α) where
  steps : List (Fin n × α)
  covers : (steps.map Prod.snd).Perm items

/-- One thread takes every item in order. -/
def Schedule.serial (t : Fin n) (items : List α) : Schedule n items where
  steps := items.map fun a => (t, a)
  covers := by simp

/-- Every step changes the state of its own thread. -/
def run (body : σ → α → σ) (start : Fin n → σ) (steps : List (Fin n × α)) : Fin n → σ :=
  steps.foldl (fun s p => Function.update s p.1 (body (s p.1) p.2)) start

/-- The items of one thread, in the order in which it takes them. -/
def own (steps : List (Fin n × α)) (t : Fin n) : List α :=
  (steps.filter fun p => p.1 = t).map Prod.snd

theorem run_eq_foldl (body : σ → α → σ) (start : Fin n → σ) (steps : List (Fin n × α))
    (t : Fin n) : run body start steps t = (own steps t).foldl body (start t) := by
  induction steps generalizing start with
  | nil => rfl
  | cons p rest ih =>
      have hrest := ih (Function.update start p.1 (body (start p.1) p.2))
      by_cases hp : p.1 = t
      · subst hp
        rw [Function.update_self] at hrest
        simpa [run, own] using hrest
      · rw [Function.update_of_ne (Ne.symm hp)] at hrest
        simpa [run, own, hp] using hrest

theorem flatMap_ite_eq {ι : Type*} [DecidableEq ι] {l : List ι} {a : ι} (x : α) (hl : l.Nodup)
    (ha : a ∈ l) : l.flatMap (fun t => if a = t then [x] else []) = [x] := by
  induction l with
  | nil => exact absurd ha List.not_mem_nil
  | cons t rest ih =>
      obtain ⟨hnot, hrest⟩ := List.nodup_cons.mp hl
      rw [List.flatMap_cons]
      by_cases hat : a = t
      · subst hat
        rw [if_pos rfl, List.flatMap_eq_nil_iff.mpr]
        · rfl
        · intro u hu
          rw [if_neg]
          rintro rfl
          exact hnot hu
      · rw [if_neg hat, List.nil_append]
        exact ih hrest ((List.mem_cons.mp ha).resolve_left hat)

/-- Every step belongs to exactly one thread. -/
theorem flatMap_own_perm (steps : List (Fin n × α)) :
    ((List.finRange n).flatMap (own steps)).Perm (steps.map Prod.snd) := by
  induction steps with
  | nil =>
      have hnil : (List.finRange n).flatMap (own ([] : List (Fin n × α))) = [] :=
        List.flatMap_eq_nil_iff.mpr fun t _ => rfl
      rw [hnil]
      exact List.Perm.refl _
  | cons p rest ih =>
      have hown : own (p :: rest) = fun t => (if p.1 = t then [p.2] else []) ++ own rest t := by
        funext t
        by_cases hp : p.1 = t <;> simp [own, hp]
      rw [hown]
      refine (List.flatMap_append_perm _ _ _).symm.trans ?_
      rw [flatMap_ite_eq p.2 (List.nodup_finRange n) (List.mem_finRange p.1)]
      exact ih.cons p.2

/-- The items of all threads, in whatever order the threads are visited. -/
theorem Schedule.flatMap_own_perm {items : List α} (s : Schedule n items) {threads : List (Fin n)}
    (h : threads.Perm (List.finRange n)) : (threads.flatMap (own s.steps)).Perm items :=
  ((h.flatMap_right _).trans (ParallelFor.flatMap_own_perm s.steps)).trans s.covers

/-- The sums of the threads, added up in any order, are the sum over all items. -/
theorem Schedule.sum_own {M : Type*} [AddCommMonoid M] {items : List α} (s : Schedule n items)
    (f : α → M) {threads : List (Fin n)} (h : threads.Perm (List.finRange n)) :
    (threads.map fun t => ((own s.steps t).map f).sum).sum = (items.map f).sum := by
  calc (threads.map fun t => ((own s.steps t).map f).sum).sum
      = ((threads.flatMap (own s.steps)).map f).sum := by
        rw [List.map_flatMap, List.flatMap_def, List.sum_flatten, List.map_map]
        rfl
    _ = (items.map f).sum := ((s.flatMap_own_perm h).map f).sum_eq

section SharedCells

open MgRobot.Lib.Runs

variable {T ι β : Type*} [DecidableEq T] [DecidableEq ι]

/-- Tasks that update cells of a shared memory one after the other. An update reads its cell first
and writes it in a later step, so the steps of other tasks may come between. -/
structure Shared (T ι β : Type*) where
  mem : ι → β
  todo : T → List (ι × (β → β))
  held : T → Option β

namespace Shared

/-- The next step of a task. -/
def step (s : Shared T ι β) (t : T) : Option (Shared T ι β) :=
  match s.todo t with
  | [] => none
  | (i, f) :: rest =>
      match s.held t with
      | none => some { s with held := Function.update s.held t (some (s.mem i)) }
      | some x => some {
          mem := Function.update s.mem i (f x)
          todo := Function.update s.todo t rest
          held := Function.update s.held t none }

def start (mem : ι → β) (todo : T → List (ι × (β → β))) : Shared T ι β where
  mem := mem
  todo := todo
  held _ := none

/-- What a list of updates makes of a cell. -/
def updated (i : ι) (todo : List (ι × (β → β))) (x : β) : β :=
  todo.foldl (fun x u => if u.1 = i then u.2 x else x) x

/-- Every task works on cells of its own, and what it has read is still there. -/
structure Owned (owner : ι → T) (result : ι → β) (s : Shared T ι β) : Prop where
  owned : ∀ t, ∀ u ∈ s.todo t, owner u.1 = t
  held : ∀ t x, s.held t = some x → ∃ u rest, s.todo t = u :: rest ∧ s.mem u.1 = x
  result : ∀ i, updated i (s.todo (owner i)) (s.mem i) = result i

variable {owner : ι → T} {result : ι → β} {s s' : Shared T ι β} {t : T}

theorem Owned.step (h : Owned owner result s) (hs : s.step t = some s') :
    Owned owner result s' := by
  rw [Shared.step] at hs
  cases htodo : s.todo t with
  | nil =>
      rw [htodo] at hs
      cases hs
  | cons u rest =>
      obtain ⟨i, f⟩ := u
      have hi : owner i = t := h.owned t (i, f) (by rw [htodo]; exact List.mem_cons_self)
      cases hheld : s.held t with
      | none =>
          simp only [htodo, hheld] at hs
          obtain rfl := Option.some.inj hs
          refine ⟨h.owned, fun t' x hx => ?_, h.result⟩
          have hx : Function.update s.held t (some (s.mem i)) t' = some x := hx
          by_cases ht : t' = t
          · subst ht
            rw [Function.update_self] at hx
            exact ⟨(i, f), rest, htodo, Option.some.inj hx⟩
          · rw [Function.update_of_ne ht] at hx
            exact h.held t' x hx
      | some x =>
          simp only [htodo, hheld] at hs
          obtain rfl := Option.some.inj hs
          -- The cell still holds what was read: only its owner writes it.
          have hmem : s.mem i = x := by
            obtain ⟨u, rest', hu, hx⟩ := h.held t x hheld
            rw [htodo] at hu
            rw [← (List.cons.inj hu).1] at hx
            exact hx
          refine ⟨fun t' u hu => ?_, fun t' y hy => ?_, fun j => ?_⟩
          · by_cases ht : t' = t
            · subst ht
              simp only [Function.update_self] at hu
              exact h.owned t' u (by rw [htodo]; exact List.mem_cons_of_mem _ hu)
            · simp only [Function.update_of_ne ht] at hu
              exact h.owned t' u hu
          · have hy : Function.update s.held t none t' = some y := hy
            by_cases ht : t' = t
            · subst ht
              rw [Function.update_self] at hy
              cases hy
            · simp only [Function.update_of_ne ht] at hy ⊢
              obtain ⟨u, rest', hu, hx⟩ := h.held t' y hy
              have hother : u.1 ≠ i := by
                intro heq
                have hown := h.owned t' u (by rw [hu]; exact List.mem_cons_self)
                rw [heq, hi] at hown
                exact ht hown.symm
              exact ⟨u, rest', hu, by rw [Function.update_of_ne hother, hx]⟩
          · rw [← h.result j]
            show updated j (Function.update s.todo t rest (owner j))
              (Function.update s.mem i (f x) j) = _
            by_cases hj : owner j = t
            · rw [hj, Function.update_self, htodo]
              by_cases hij : j = i
              · subst hij
                rw [Function.update_self, updated, updated, List.foldl_cons, if_pos rfl, hmem]
              · rw [Function.update_of_ne hij, updated, updated, List.foldl_cons,
                  if_neg (Ne.symm hij)]
            · have hij : j ≠ i := by
                rintro rfl
                exact hj hi
              rw [Function.update_of_ne hj, Function.update_of_ne hij]

/-- Where every cell is written by one task only, the tasks leave in each cell, however their steps
interleave, what that task alone would leave there. -/
theorem exec_owned (owner : ι → T) {mem : ι → β} {todo : T → List (ι × (β → β))}
    (howned : ∀ t, ∀ u ∈ todo t, owner u.1 = t) {ts : List T}
    (hr : exec step (start mem todo) ts = some s) (hdone : ∀ t, s.todo t = []) (i : ι) :
    s.mem i = updated i (todo (owner i)) (mem i) := by
  have hstart : Owned owner (fun i => updated i (todo (owner i)) (mem i)) (start mem todo) := by
    refine ⟨howned, fun t x hx => ?_, fun _ => rfl⟩
    cases hx
  have hend := (invariant_of_step (fun s t s' h hs => h.step hs) hstart hr).result i
  rw [hdone] at hend
  exact hend

end Shared

end SharedCells

end MgRobot.Lib.ParallelFor

namespace MgRobot.Lib.FirstBest

set_option autoImplicit false

open ParallelFor

variable {α K S : Type*} [LinearOrder K] [LinearOrder S] (key : α → K) (score : α → S)

/-- The better of two elements. -/
def pick (b c : α) : α := if key b < key c then c else b

/-- The second element only if its score is better. -/
def pickFirst (b c : α) : α := if score b < score c then c else b

/-- An element of a list with the greatest key in it. -/
structure IsBest (l : List α) (x : α) : Prop where
  mem : x ∈ l
  le : ∀ y ∈ l, key y ≤ key x

variable {key score}

theorem le_pick (b c : α) : key b ≤ key (pick key b c) ∧ key c ≤ key (pick key b c) := by
  unfold pick
  split
  · rename_i h
    exact ⟨h.le, le_rfl⟩
  · rename_i h
    exact ⟨le_rfl, not_lt.mp h⟩

variable (key) in
theorem pick_mem (b c : α) : pick key b c = b ∨ pick key b c = c := by
  unfold pick
  split
  · exact Or.inr rfl
  · exact Or.inl rfl

/-- What a fold selects from a list has what all entries have. -/
theorem foldl_select {op : α → α → α} (hop : ∀ x y, op x y = x ∨ op x y = y)
    {P : α → Prop} {x : α} {l : List α} (hx : P x) (hl : ∀ y ∈ l, P y) : P (l.foldl op x) := by
  induction l generalizing x with
  | nil => exact hx
  | cons y rest ih =>
      apply ih
      · rcases hop x y with h | h
        · exact h.symm ▸ hx
        · exact h.symm ▸ hl y List.mem_cons_self
      · exact fun z hz => hl z (List.mem_cons_of_mem y hz)

/-- A search finds a best element. -/
theorem isBest_foldl_pick (b : α) (l : List α) : IsBest key (b :: l) (l.foldl (pick key) b) := by
  induction l generalizing b with
  | nil => exact ⟨List.mem_singleton_self b, fun y hy => (List.mem_singleton.mp hy ▸ le_rfl)⟩
  | cons c rest ih =>
      obtain ⟨hmem, hle⟩ := ih (pick key b c)
      have hpick := hle (pick key b c) List.mem_cons_self
      constructor
      · rcases List.mem_cons.mp hmem with h | h
        · rw [List.foldl_cons, h]
          rcases pick_mem key b c with hb | hc
          · rw [hb]
            exact List.mem_cons_self
          · rw [hc]
            exact List.mem_cons_of_mem b List.mem_cons_self
        · exact List.mem_cons_of_mem b (List.mem_cons_of_mem c h)
      · intro y hy
        rcases List.mem_cons.mp hy with rfl | hy
        · exact (le_pick y c).1.trans hpick
        · rcases List.mem_cons.mp hy with rfl | hy
          · exact (le_pick b y).2.trans hpick
          · exact hle y (List.mem_cons_of_mem _ hy)

/-- Where no two elements have the same key, there is one best element. -/
theorem IsBest.eq {l : List α} {x y : α} (hx : IsBest key l x) (hy : IsBest key l y)
    (hinj : ∀ a ∈ l, ∀ b ∈ l, key a = key b → a = b) : x = y :=
  hinj x hx.mem y hy.mem (le_antisymm (hy.le x hx.mem) (hx.le y hy.mem))

/-- The best of what is best in the parts is best in the whole. -/
theorem IsBest.of_parts {b r : α} {parts l : List α} (hr : IsBest key (b :: parts) r)
    (hb : b ∈ l) (hparts : ∀ p ∈ parts, p ∈ l)
    (hcover : ∀ y ∈ l, ∃ p ∈ b :: parts, key y ≤ key p) : IsBest key l r where
  mem := by
    rcases List.mem_cons.mp hr.mem with h | h
    · exact h ▸ hb
    · exact hparts r h
  le y hy := by
    obtain ⟨p, hp, hle⟩ := hcover y hy
    exact hle.trans (hr.le p hp)

/-- Where ties go to the earlier element, the best key is the first best score. -/
theorem foldl_pickFirst_eq {b : α} {l : List α}
    (h : (b :: l).Pairwise fun x y => key x < key y ↔ score x < score y) :
    l.foldl (pickFirst score) b = l.foldl (pick key) b := by
  induction l generalizing b with
  | nil => rfl
  | cons c rest ih =>
      obtain ⟨hb, hc⟩ := List.pairwise_cons.mp h
      have hhead := hb c List.mem_cons_self
      have hfirst : pickFirst score b c = pick key b c := by
        unfold pickFirst pick
        by_cases hlt : score b < score c
        · rw [if_pos hlt, if_pos (hhead.mpr hlt)]
        · rw [if_neg hlt, if_neg fun hk => hlt (hhead.mp hk)]
      rw [List.foldl_cons, List.foldl_cons, hfirst]
      refine ih (List.pairwise_cons.mpr ⟨?_, (List.pairwise_cons.mp hc).2⟩)
      rcases pick_mem key b c with hpick | hpick
      · rw [hpick]
        exact fun y hy => hb y (List.mem_cons_of_mem c hy)
      · rw [hpick]
        exact (List.pairwise_cons.mp hc).1

section Threads

variable {n : Nat} {ι : Type*} {items : List ι} (s : Schedule n items) (cands : ι → List α)
variable (init : α)

variable (key) in
/-- What a thread has found after its items. -/
def threadBest (t : Fin n) : α :=
  run (fun b i => (cands i).foldl (pick key) b) (fun _ => init) s.steps t

variable (key) in
theorem isBest_threadBest (t : Fin n) :
    IsBest key (init :: (own s.steps t).flatMap cands) (threadBest key s cands init t) := by
  unfold threadBest
  rw [run_eq_foldl, ← List.foldl_flatMap]
  exact isBest_foldl_pick init _

theorem mem_flatMap_own_iff {y : α} :
    (∃ t, y ∈ (own s.steps t).flatMap cands) ↔ y ∈ items.flatMap cands := by
  have hperm := s.flatMap_own_perm (List.Perm.refl (List.finRange n))
  have hmem : ∀ i, i ∈ items ↔ ∃ t, i ∈ own s.steps t := by
    intro i
    rw [← hperm.mem_iff, List.mem_flatMap]
    simp [List.mem_finRange]
  simp only [List.mem_flatMap, hmem]
  exact ⟨fun ⟨t, i, hi, hy⟩ => ⟨i, ⟨t, hi⟩, hy⟩, fun ⟨i, ⟨t, hi⟩, hy⟩ => ⟨t, i, hi, hy⟩⟩

end Threads

end MgRobot.Lib.FirstBest
