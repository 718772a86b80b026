import Mathlib.Algebra.Ring.Nat
import Mathlib.Data.List.Induction
import Mathlib.Data.List.Nodup
import Mathlib.Data.List.Perm.Subperm
import Mathlib.Logic.Function.Basic
import Mathlib.Logic.Relation

/-!
# Flood fill

The cells with the label `fresh` that can be reached from a seed are marked, with a stack
of cells whose neighbours have not been looked at. Every cell is pushed once, so a fill
that may pop as many cells as there are fresh ones ends with an empty stack. A sweep fills
from every seed that is still fresh: the components that are kept are numbered, the marks
of the others are taken back.
-/

namespace MgRobot.Lib.FloodFill

set_option autoImplicit false

variable {α L : Type*}

/-- The labels, the stack with the last pushed cell first, and the cells that were popped. -/
structure Fill (α L : Type*) where
  labels : α → L
  stack : List α
  popped : List α

/-- The labels, the components that were filled, and those of them that were kept. -/
structure Sweep (α L : Type*) where
  labels : α → L
  visited : List (List α)
  kept : List (List α)

/-- A chain of neighbours from the first cell to the second one, all in `F` but the first. -/
def Reach (nbrs : α → List α) (F : α → Prop) : α → α → Prop :=
  Relation.ReflTransGen fun a b => F b ∧ b ∈ nbrs a

section Definitions

variable [DecidableEq α] [DecidableEq L] (nbrs : α → List α) (fresh mark : L)

/-- A fresh cell is marked and pushed. -/
def touch (s : Fill α L) (y : α) : Fill α L :=
  if s.labels y = fresh then
    { s with labels := Function.update s.labels y mark, stack := y :: s.stack }
  else s

/-- A cell is popped, and its neighbours are touched. -/
def step (s : Fill α L) : Fill α L :=
  match s.stack with
  | [] => s
  | x :: rest =>
      (nbrs x).foldl (touch fresh mark) { s with stack := rest, popped := s.popped ++ [x] }

/-- At most `fuel` cells are popped. -/
def fill : Nat → Fill α L → Fill α L
  | 0, s => s
  | fuel + 1, s => if s.stack.isEmpty then s else fill fuel (step nbrs fresh mark s)

/-- The fill from a seed. -/
def start (labels : α → L) (seed : α) : Fill α L :=
  ⟨Function.update labels seed mark, [seed], []⟩

/-- A list of cells gets one label. -/
def relabel (l : List α) (labels : α → L) : α → L :=
  l.foldl (fun m y => Function.update m y mark) labels

variable (erased : L) (number : Nat → L) (keep : List α → Bool) (fuel : Nat)

/-- The component of a seed that is still fresh gets the next number, which is taken back when
the component is not kept. -/
def sweepStep (s : Sweep α L) (seed : α) : Sweep α L :=
  if s.labels seed = fresh then
    let mark := number s.kept.length
    let t := fill nbrs fresh mark fuel (start mark s.labels seed)
    if keep t.popped then
      { labels := t.labels, visited := s.visited ++ [t.popped], kept := s.kept ++ [t.popped] }
    else
      { s with labels := relabel erased t.popped t.labels, visited := s.visited ++ [t.popped] }
  else s

end Definitions

section Reach

variable {nbrs : α → List α} {F G : α → Prop} {a b seed : α}

theorem Reach.mono (h : Reach nbrs F a b) (hFG : ∀ x, F x → G x) : Reach nbrs G a b :=
  Relation.ReflTransGen.mono (fun _ _ hs => ⟨hFG _ hs.1, hs.2⟩) a b h

theorem Reach.mem (h : Reach nbrs F a b) (ha : F a) : F b := by
  cases h with
  | refl => exact ha
  | tail _ hs => exact hs.1

/-- A closed set that contains the seed contains what can be reached. -/
theorem Reach.mem_of_closed {V : α → Prop} (h : Reach nbrs F seed b) (hseed : V seed)
    (hV : ∀ x, V x → ∀ y ∈ nbrs x, F y → V y) : V b := by
  induction h with
  | refl => exact hseed
  | tail _ hs ih => exact hV _ ih _ hs.2 hs.1

theorem Reach.symm (hsymm : ∀ x y, F x → F y → y ∈ nbrs x → x ∈ nbrs y) (ha : F a)
    (h : Reach nbrs F a b) : Reach nbrs F b a := by
  induction h with
  | refl => exact .refl
  | tail hab hs ih =>
      have hb := Reach.mem hab ha
      exact Relation.ReflTransGen.head ⟨hb, hsymm _ _ hb hs.1 hs.2⟩ ih

/-- Outside of a closed set nothing of it is passed. -/
theorem Reach.diff {V : α → Prop} (hsymm : ∀ x y, F x → F y → y ∈ nbrs x → x ∈ nbrs y)
    (hV : ∀ x, V x → F x ∧ ∀ y ∈ nbrs x, F y → V y) (hseed : F seed) (hout : ¬ V seed) :
    Reach nbrs (fun x => F x ∧ ¬ V x) seed b ↔ Reach nbrs F seed b := by
  constructor
  · exact fun h => h.mono fun _ hx => hx.1
  · intro h
    have hboth : ¬ V b ∧ Reach nbrs (fun x => F x ∧ ¬ V x) seed b := by
      induction h with
      | refl => exact ⟨hout, .refl⟩
      | @tail x y hsx hs ih =>
          obtain ⟨hx, hreach⟩ := ih
          have hFx := Reach.mem hsx hseed
          have hy : ¬ V y := fun hVy => hx ((hV y hVy).2 x (hsymm x y hFx hs.1 hs.2) hFx)
          exact ⟨hy, hreach.tail ⟨⟨hs.1, hy⟩, hs.2⟩⟩
    exact hboth.2

end Reach

section Correct

variable [DecidableEq α] [DecidableEq L] {nbrs : α → List α} {fresh mark : L}

/-- What the neighbours of a cell add. -/
structure Touched (fresh mark : L) (l pushed : List α) (s t : Fill α L) : Prop where
  stack : t.stack = pushed ++ s.stack
  popped : t.popped = s.popped
  nodup : pushed.Nodup
  mem : ∀ y, y ∈ pushed ↔ y ∈ l ∧ s.labels y = fresh
  labels : ∀ y, t.labels y = if y ∈ pushed then mark else s.labels y

theorem foldl_touch (hmark : mark ≠ fresh) (l : List α) (s : Fill α L) :
    ∃ pushed, Touched fresh mark l pushed s (l.foldl (touch fresh mark) s) := by
  induction l generalizing s with
  | nil =>
      refine ⟨[], rfl, rfl, List.nodup_nil, fun y => ?_, fun y => ?_⟩
      · simp
      · simp
  | cons x rest ih =>
      rw [List.foldl_cons]
      by_cases hx : s.labels x = fresh
      · have htouch : touch fresh mark s x =
            { s with labels := Function.update s.labels x mark, stack := x :: s.stack } := if_pos hx
        rw [htouch]
        obtain ⟨pushed, h⟩ := ih
          { s with labels := Function.update s.labels x mark, stack := x :: s.stack }
        have hlabel (y : α) : Function.update s.labels x mark y = fresh ↔
            s.labels y = fresh ∧ y ≠ x := by
          rcases eq_or_ne y x with rfl | hne
          · simp [hmark]
          · simp [hne]
        have hxp : x ∉ pushed := by
          rw [h.mem, hlabel]
          exact fun hm => hm.2.2 rfl
        refine ⟨pushed ++ [x], ?_, h.popped, ?_, fun y => ?_, fun y => ?_⟩
        · rw [h.stack, List.append_assoc]
          rfl
        · rw [List.nodup_append_comm]
          exact List.nodup_cons.mpr ⟨hxp, h.nodup⟩
        · rw [List.mem_append, h.mem, hlabel, List.mem_singleton, List.mem_cons]
          rcases eq_or_ne y x with rfl | hne
          · simp [hx]
          · simp [hne]
        · rw [h.labels]
          rcases eq_or_ne y x with rfl | hne
          · simp
          · simp [hne]
      · have htouch : touch fresh mark s x = s := if_neg hx
        rw [htouch]
        obtain ⟨pushed, h⟩ := ih s
        refine ⟨pushed, h.stack, h.popped, h.nodup, fun y => ?_, h.labels⟩
        rw [h.mem, List.mem_cons]
        constructor
        · exact fun hy => ⟨Or.inr hy.1, hy.2⟩
        · intro hy
          refine ⟨hy.1.resolve_left fun heq => ?_, hy.2⟩
          rw [heq] at hy
          exact hx hy.2

/-- The cells that were pushed are marked and reached, and the neighbours of a popped cell have
been pushed. -/
structure Inv (nbrs : α → List α) (fresh mark : L) (labels : α → L) (seed : α) (s : Fill α L) :
    Prop where
  nodup : (s.stack ++ s.popped).Nodup
  marked : ∀ y, s.labels y = if y ∈ s.stack ++ s.popped then mark else labels y
  wasFresh : ∀ y ∈ s.stack ++ s.popped, labels y = fresh
  reach : ∀ y ∈ s.stack ++ s.popped, Reach nbrs (fun x => labels x = fresh) seed y
  hasSeed : seed ∈ s.stack ++ s.popped
  closed : ∀ x ∈ s.popped, ∀ y ∈ nbrs x, labels y = fresh → y ∈ s.stack ++ s.popped

variable {labels : α → L} {seed : α} {s : Fill α L}

omit [DecidableEq L] in
theorem inv_start (hseed : labels seed = fresh) :
    Inv nbrs fresh mark labels seed (start mark labels seed) where
  nodup := List.nodup_singleton seed
  marked y := by
    rcases eq_or_ne y seed with rfl | hne
    · simp [start]
    · simp [start, hne]
  wasFresh y hy := by
    obtain rfl : y = seed := by simpa [start] using hy
    exact hseed
  reach y hy := by
    obtain rfl : y = seed := by simpa [start] using hy
    exact .refl
  hasSeed := List.mem_singleton_self seed
  closed x hx := absurd hx List.not_mem_nil

theorem Inv.step (hmark : mark ≠ fresh) (h : Inv nbrs fresh mark labels seed s) :
    Inv nbrs fresh mark labels seed (step nbrs fresh mark s) := by
  unfold FloodFill.step
  cases hstack : s.stack with
  | nil => exact h
  | cons x rest =>
      obtain ⟨pushed, ht⟩ := foldl_touch hmark (nbrs x)
        { s with stack := rest, popped := s.popped ++ [x] }
      dsimp only
      generalize (nbrs x).foldl (touch fresh mark)
        { s with stack := rest, popped := s.popped ++ [x] } = t at ht ⊢
      -- the cells before the step, and the pushed ones
      have hperm : (t.stack ++ t.popped).Perm (pushed ++ (s.stack ++ s.popped)) := by
        rw [ht.stack, ht.popped, hstack, List.append_assoc]
        refine List.Perm.append_left pushed ?_
        rw [← List.append_assoc, List.cons_append]
        exact List.perm_append_comm
      have hmem (y : α) : y ∈ t.stack ++ t.popped ↔ y ∈ pushed ∨ y ∈ s.stack ++ s.popped := by
        rw [hperm.mem_iff, List.mem_append]
      have hpushed (y : α) : y ∈ pushed ↔
          y ∈ nbrs x ∧ labels y = fresh ∧ y ∉ s.stack ++ s.popped := by
        rw [ht.mem, h.marked]
        split_ifs with hy
        · simp [hmark, hy]
        · simp [hy]
      have hx : x ∈ s.stack ++ s.popped := by
        rw [hstack]
        exact List.mem_cons_self
      refine ⟨?_, fun y => ?_, fun y hy => ?_, fun y hy => ?_, ?_, fun z hz y hy hfresh => ?_⟩
      · rw [hperm.nodup_iff, List.nodup_append]
        exact ⟨ht.nodup, h.nodup, fun a ha b hb heq => ((hpushed a).mp ha).2.2 (heq ▸ hb)⟩
      · rw [ht.labels, h.marked]
        by_cases hy : y ∈ pushed
        · simp [hmem, hy]
        · simp [hmem, hy]
      · rcases (hmem y).mp hy with hy | hy
        · exact ((hpushed y).mp hy).2.1
        · exact h.wasFresh y hy
      · rcases (hmem y).mp hy with hy | hy
        · obtain ⟨hn, hf, -⟩ := (hpushed y).mp hy
          exact (h.reach x hx).tail ⟨hf, hn⟩
        · exact h.reach y hy
      · exact (hmem seed).mpr (Or.inr h.hasSeed)
      · rw [hmem]
        rw [ht.popped] at hz
        rcases List.mem_append.mp hz with hz | hz
        · exact Or.inr (h.closed z hz y hy hfresh)
        · obtain rfl := List.mem_singleton.mp hz
          by_cases hin : y ∈ s.stack ++ s.popped
          · exact Or.inr hin
          · exact Or.inl ((hpushed y).mpr ⟨hy, hfresh, hin⟩)

theorem step_popped {x : α} {rest : List α} (hmark : mark ≠ fresh) (hs : s.stack = x :: rest) :
    (step nbrs fresh mark s).popped = s.popped ++ [x] := by
  unfold step
  rw [hs]
  obtain ⟨pushed, ht⟩ := foldl_touch hmark (nbrs x)
    { s with stack := rest, popped := s.popped ++ [x] }
  exact ht.popped

/-- With a pop for every fresh cell the stack gets empty. -/
theorem Inv.fill (hmark : mark ≠ fresh) {U : List α} (hU : ∀ y, labels y = fresh → y ∈ U)
    {fuel : Nat} (h : Inv nbrs fresh mark labels seed s)
    (hfuel : U.length ≤ fuel + s.popped.length) :
    Inv nbrs fresh mark labels seed (fill nbrs fresh mark fuel s) ∧
      (fill nbrs fresh mark fuel s).stack = [] := by
  have hlen {t : Fill α L} (ht : Inv nbrs fresh mark labels seed t) :
      (t.stack ++ t.popped).length ≤ U.length :=
    (List.subperm_of_subset ht.nodup fun y hy => hU y (ht.wasFresh y hy)).length_le
  induction fuel generalizing s with
  | zero =>
      have hle := hlen h
      rw [List.length_append] at hle
      exact ⟨h, List.length_eq_zero_iff.mp (show s.stack.length = 0 by omega)⟩
  | succ fuel ih =>
      unfold FloodFill.fill
      cases hs : s.stack with
      | nil => exact ⟨h, hs⟩
      | cons x rest =>
          refine ih (h.step hmark) ?_
          rw [step_popped hmark hs, List.length_append, List.length_singleton]
          omega

variable (nbrs) in
/-- The fill pops the cells that can be reached from the seed over fresh cells, each one once, and
marks these. -/
theorem fill_spec (hmark : mark ≠ fresh) (hseed : labels seed = fresh) {U : List α}
    (hU : ∀ y, labels y = fresh → y ∈ U) {fuel : Nat} (hfuel : U.length ≤ fuel) :
    let s := fill nbrs fresh mark fuel (start mark labels seed)
    s.stack = [] ∧ s.popped.Nodup ∧
      (∀ y, y ∈ s.popped ↔ Reach nbrs (fun x => labels x = fresh) seed y) ∧
      ∀ y, s.labels y = if y ∈ s.popped then mark else labels y := by
  intro s
  have hstart : Inv nbrs fresh mark labels seed (start mark labels seed) := inv_start hseed
  obtain ⟨h, hempty⟩ := hstart.fill hmark hU (Nat.le_add_right_of_le hfuel)
  have hvisited : s.stack ++ s.popped = s.popped := by rw [hempty, List.nil_append]
  have hvis (y : α) : y ∈ s.popped ↔ y ∈ s.stack ++ s.popped := by rw [hvisited]
  refine ⟨hempty, ?_, fun y => ⟨fun hy => ?_, fun hy => ?_⟩, fun y => ?_⟩
  · rw [← hvisited]
    exact h.nodup
  · exact h.reach y ((hvis y).mp hy)
  · refine Reach.mem_of_closed (V := fun y => y ∈ s.popped) hy ((hvis seed).mpr h.hasSeed) ?_
    exact fun x hx z hz hf => (hvis z).mpr (h.closed x hx z hz hf)
  · rw [← hvisited]
    exact h.marked y

omit [DecidableEq L] in
theorem relabel_apply (l : List α) (labels : α → L) (y : α) :
    relabel mark l labels y = if y ∈ l then mark else labels y := by
  unfold relabel
  induction l generalizing labels with
  | nil => simp
  | cons x rest ih =>
      rw [List.foldl_cons, ih]
      rcases eq_or_ne y x with rfl | hne
      · simp
      · simp [hne]

end Correct

section Sweeps

variable [DecidableEq α] [DecidableEq L] {nbrs : α → List α} {fresh erased : L} {number : Nat → L}
  {keep : List α → Bool} {fuel : Nat} {labels : α → L} {done : List α} {s : Sweep α L}

/-- The filled components are whole and disjoint, they cover the seeds so far, and the labels tell
the component of a cell. -/
structure SweepInv (nbrs : α → List α) (fresh erased : L) (number : Nat → L)
    (keep : List α → Bool) (labels : α → L) (done : List α) (s : Sweep α L) : Prop where
  nodup : ∀ C ∈ s.visited, C.Nodup
  component : ∀ C ∈ s.visited, ∃ x ∈ C, labels x = fresh ∧
    ∀ y, y ∈ C ↔ Reach nbrs (fun z => labels z = fresh) x y
  disjoint : s.visited.Pairwise List.Disjoint
  covered : ∀ x ∈ done, labels x = fresh → ∃ C ∈ s.visited, x ∈ C
  kept_eq : s.kept = s.visited.filter keep
  untouched : ∀ y, (∀ C ∈ s.visited, y ∉ C) → s.labels y = labels y
  rejected : ∀ C ∈ s.visited, keep C = false → ∀ y ∈ C, s.labels y = erased
  numbered : ∀ k C, s.kept[k]? = some C → ∀ y ∈ C, s.labels y = number k

omit [DecidableEq α] [DecidableEq L] in
theorem sweepInv_start : SweepInv nbrs fresh erased number keep labels [] ⟨labels, [], []⟩ where
  nodup := by simp
  component := by simp
  disjoint := List.Pairwise.nil
  covered := by simp
  kept_eq := rfl
  untouched _ _ := rfl
  rejected := by simp
  numbered := by simp

/-- A component that no fill has come to. -/
structure NewComponent (nbrs : α → List α) (fresh : L) (labels : α → L) (visited : List (List α))
    (seed : α) (C : List α) : Prop where
  nodup : C.Nodup
  seed_fresh : labels seed = fresh
  mem : ∀ y, y ∈ C ↔ Reach nbrs (fun z => labels z = fresh) seed y
  disjoint : ∀ D ∈ visited, ∀ y ∈ C, y ∉ D

namespace SweepInv

variable (h : SweepInv nbrs fresh erased number keep labels done s)
include h

omit [DecidableEq α] [DecidableEq L] in
theorem fresh_of_mem {C : List α} (hC : C ∈ s.visited) {y : α} (hy : y ∈ C) : labels y = fresh := by
  obtain ⟨x, -, hx, hmem⟩ := h.component C hC
  exact Reach.mem (F := fun z => labels z = fresh) ((hmem y).mp hy) hx

omit [DecidableEq α] [DecidableEq L] in
/-- The neighbours of a cell of a component are in the component. -/
theorem closed {C : List α} (hC : C ∈ s.visited) {x y : α} (hx : x ∈ C) (hy : y ∈ nbrs x)
    (hfresh : labels y = fresh) : y ∈ C := by
  obtain ⟨z, -, -, hmem⟩ := h.component C hC
  exact (hmem y).mpr (((hmem x).mp hx).tail ⟨hfresh, hy⟩)

omit [DecidableEq α] [DecidableEq L] in
/-- Every cell of a component reaches the same cells. -/
theorem mem_iff_reach
    (hsymm : ∀ x y, labels x = fresh → labels y = fresh → y ∈ nbrs x → x ∈ nbrs y)
    {C : List α} (hC : C ∈ s.visited) {x y : α} (hx : x ∈ C) :
    y ∈ C ↔ Reach nbrs (fun z => labels z = fresh) x y := by
  obtain ⟨z, -, hz, hmem⟩ := h.component C hC
  have hzx := (hmem x).mp hx
  rw [hmem]
  constructor
  · exact fun hzy => (Reach.symm hsymm hz hzx).trans hzy
  · exact fun hxy => hzx.trans hxy

omit [DecidableEq α] [DecidableEq L] in
theorem mem_visited {k : Nat} {C : List α} (hk : s.kept[k]? = some C) : C ∈ s.visited := by
  have hC := List.mem_of_getElem? hk
  rw [h.kept_eq] at hC
  exact List.mem_of_mem_filter hC

omit [DecidableEq α] [DecidableEq L] in
/-- A new component with its labels. -/
theorem add {seed : α} {C : List α} (hC : NewComponent nbrs fresh labels s.visited seed C)
    {m : α → L} (hout : ∀ y, y ∉ C → m y = s.labels y)
    (hin : ∀ y ∈ C, m y = if keep C then number s.kept.length else erased) :
    SweepInv nbrs fresh erased number keep labels (done ++ [seed])
      ⟨m, s.visited ++ [C], if keep C then s.kept ++ [C] else s.kept⟩ := by
  have hmem {D : List α} : D ∈ s.visited ++ [C] ↔ D ∈ s.visited ∨ D = C := by
    rw [List.mem_append, List.mem_singleton]
  have hseed : seed ∈ C := (hC.mem seed).mpr .refl
  have hstay {D : List α} (hD : D ∈ s.visited) {y : α} (hy : y ∈ D) : m y = s.labels y :=
    hout y fun hyC => hC.disjoint D hD y hyC hy
  refine ⟨fun D hD => ?_, fun D hD => ?_, ?_, fun x hx hf => ?_, ?_, fun y hy => ?_,
    fun D hD hrej y hy => ?_, fun k D hk y hy => ?_⟩
  · rcases hmem.mp hD with hD | rfl
    · exact h.nodup D hD
    · exact hC.nodup
  · rcases hmem.mp hD with hD | rfl
    · exact h.component D hD
    · exact ⟨seed, hseed, hC.seed_fresh, hC.mem⟩
  · rw [List.pairwise_append]
    refine ⟨h.disjoint, List.pairwise_singleton _ _, fun D hD E hE y hyD hyE => ?_⟩
    rw [List.mem_singleton.mp hE] at hyE
    exact hC.disjoint D hD y hyE hyD
  · rcases List.mem_append.mp hx with hx | hx
    · obtain ⟨D, hD, hxD⟩ := h.covered x hx hf
      exact ⟨D, hmem.mpr (Or.inl hD), hxD⟩
    · obtain rfl := List.mem_singleton.mp hx
      exact ⟨C, hmem.mpr (Or.inr rfl), hseed⟩
  · rw [h.kept_eq, List.filter_append]
    cases hkeep : keep C with
    | false => simp [hkeep]
    | true => simp [hkeep]
  · refine (hout y (hy C (hmem.mpr (Or.inr rfl)))).trans ?_
    exact h.untouched y fun D hD => hy D (hmem.mpr (Or.inl hD))
  · rcases hmem.mp hD with hD | rfl
    · exact (hstay hD hy).trans (h.rejected D hD hrej y hy)
    · refine (hin y hy).trans ?_
      rw [hrej]
      rfl
  · by_cases hk' : s.kept[k]? = some D
    · exact (hstay (h.mem_visited hk') hy).trans (h.numbered k D hk' y hy)
    · dsimp only at hk
      -- the last one of the kept components is the new one
      split_ifs at hk with hkeep
      · have hlast : k = s.kept.length ∧ D = C := by
          rcases Nat.lt_trichotomy k s.kept.length with hlt | heq | hgt
          · rw [List.getElem?_append_left hlt] at hk
            exact absurd hk hk'
          · subst heq
            rw [List.getElem?_concat_length] at hk
            exact ⟨rfl, (Option.some.inj hk).symm⟩
          · have hlen : (s.kept ++ [C]).length ≤ k := by
              rw [List.length_append, List.length_singleton]
              omega
            rw [List.getElem?_eq_none hlen] at hk
            exact absurd hk.symm (Option.some_ne_none D)
        obtain ⟨rfl, rfl⟩ := hlast
        exact (hin y hy).trans (if_pos hkeep)
      · exact absurd hk hk'

variable (herased : erased ≠ fresh) (hnumber : ∀ k, number k ≠ fresh)
include herased hnumber

omit [DecidableEq α] [DecidableEq L] in
/-- The fresh labels are those of the cells that no fill has come to. -/
theorem labels_eq_fresh (y : α) :
    s.labels y = fresh ↔ labels y = fresh ∧ ¬ ∃ C ∈ s.visited, y ∈ C := by
  by_cases hv : ∃ C ∈ s.visited, y ∈ C
  · obtain ⟨C, hC, hy⟩ := hv
    have hne : s.labels y ≠ fresh := by
      cases hkeep : keep C with
      | false =>
          rw [h.rejected C hC hkeep y hy]
          exact herased
      | true =>
          have hk : C ∈ s.kept := by
            rw [h.kept_eq]
            exact List.mem_filter.mpr ⟨hC, hkeep⟩
          obtain ⟨k, hk⟩ := List.mem_iff_getElem?.mp hk
          rw [h.numbered k C hk y hy]
          exact hnumber k
    constructor
    · exact fun heq => absurd heq hne
    · exact fun hand => absurd ⟨C, hC, hy⟩ hand.2
  · have hout : ∀ C ∈ s.visited, y ∉ C := fun C hC hy => hv ⟨C, hC, hy⟩
    rw [h.untouched y hout]
    exact ⟨fun heq => ⟨heq, hv⟩, fun hand => hand.1⟩

omit [DecidableEq α] [DecidableEq L] herased hnumber in
/-- The number of a label is that of the component that the cell is in. -/
theorem labels_eq_number_iff (hinj : Function.Injective number)
    (hne : ∀ k, number k ≠ erased) (hold : ∀ y k, labels y ≠ number k) {y : α} {k : Nat} :
    s.labels y = number k ↔ ∃ C, s.kept[k]? = some C ∧ y ∈ C := by
  constructor
  · intro hlabel
    by_cases hv : ∃ C ∈ s.visited, y ∈ C
    · obtain ⟨C, hC, hy⟩ := hv
      cases hkeep : keep C with
      | false =>
          rw [h.rejected C hC hkeep y hy] at hlabel
          exact absurd hlabel.symm (hne k)
      | true =>
          have hkept : C ∈ s.kept := by
            rw [h.kept_eq]
            exact List.mem_filter.mpr ⟨hC, hkeep⟩
          obtain ⟨i, hi⟩ := List.mem_iff_getElem?.mp hkept
          rw [h.numbered i C hi y hy] at hlabel
          exact ⟨C, hinj hlabel ▸ hi, hy⟩
    · rw [h.untouched y fun C hC hy => hv ⟨C, hC, hy⟩] at hlabel
      exact absurd hlabel (hold y k)
  · intro hex
    obtain ⟨C, hk, hy⟩ := hex
    exact h.numbered k C hk y hy

/-- What is filled from a fresh seed is a new component. -/
theorem fill_new (hsymm : ∀ x y, labels x = fresh → labels y = fresh → y ∈ nbrs x → x ∈ nbrs y)
    {U : List α} (hU : ∀ y, labels y = fresh → y ∈ U) (hfuel : U.length ≤ fuel) {seed : α}
    (hseed : s.labels seed = fresh) (mark : L) (hmark : mark ≠ fresh) :
    let t := fill nbrs fresh mark fuel (start mark s.labels seed)
    NewComponent nbrs fresh labels s.visited seed t.popped ∧
      ∀ y, t.labels y = if y ∈ t.popped then mark else s.labels y := by
  intro t
  have hlab := h.labels_eq_fresh herased hnumber
  obtain ⟨hfseed, hout⟩ := (hlab seed).mp hseed
  obtain ⟨-, hnodup, hmem, hlabels⟩ := fill_spec nbrs hmark hseed
    (fun y hy => hU y ((hlab y).mp hy).1) hfuel
  refine ⟨⟨hnodup, hfseed, fun y => ?_, fun C hC y hy hyC => ?_⟩, hlabels⟩
  · rw [hmem]
    simp only [hlab]
    refine Reach.diff hsymm (fun x hx => ?_) hfseed hout
    obtain ⟨C, hC, hxC⟩ := hx
    exact ⟨h.fresh_of_mem hC hxC, fun y hy hf => ⟨C, hC, h.closed hC hxC hy hf⟩⟩
  · have hfresh : s.labels y = fresh :=
      Reach.mem (F := fun z => s.labels z = fresh) ((hmem y).mp hy) hseed
    exact ((hlab y).mp hfresh).2 ⟨C, hC, hyC⟩

/-- One seed more. -/
theorem step (hsymm : ∀ x y, labels x = fresh → labels y = fresh → y ∈ nbrs x → x ∈ nbrs y)
    {U : List α} (hU : ∀ y, labels y = fresh → y ∈ U) (hfuel : U.length ≤ fuel) (seed : α) :
    SweepInv nbrs fresh erased number keep labels (done ++ [seed])
      (sweepStep nbrs fresh erased number keep fuel s seed) := by
  unfold sweepStep
  by_cases hseed : s.labels seed = fresh
  · rw [if_pos hseed]
    obtain ⟨hnew, hlabels⟩ := h.fill_new herased hnumber hsymm hU hfuel hseed _
      (hnumber s.kept.length)
    dsimp only
    generalize fill nbrs fresh (number s.kept.length) fuel
      (start (number s.kept.length) s.labels seed) = t at hnew hlabels ⊢
    by_cases hkeep : keep t.popped = true
    · have hadd := h.add hnew (m := t.labels) (fun y hy => by rw [hlabels, if_neg hy])
        (fun y hy => by rw [hlabels, if_pos hy, if_pos hkeep])
      rw [if_pos hkeep] at hadd ⊢
      exact hadd
    · have hadd := h.add hnew (m := relabel erased t.popped t.labels)
        (fun y hy => by rw [relabel_apply, if_neg hy, hlabels, if_neg hy])
        (fun y hy => by rw [relabel_apply, if_pos hy, if_neg hkeep])
      rw [if_neg hkeep] at hadd ⊢
      exact hadd
  · rw [if_neg hseed]
    refine { h with covered := fun x hx hf => ?_ }
    rcases List.mem_append.mp hx with hx | hx
    · exact h.covered x hx hf
    · obtain rfl := List.mem_singleton.mp hx
      by_contra hv
      exact hseed ((h.labels_eq_fresh herased hnumber x).mpr ⟨hf, hv⟩)

end SweepInv

/-- A sweep over a list of seeds. -/
theorem sweepInv_foldl (herased : erased ≠ fresh) (hnumber : ∀ k, number k ≠ fresh)
    (hsymm : ∀ x y, labels x = fresh → labels y = fresh → y ∈ nbrs x → x ∈ nbrs y)
    {U : List α} (hU : ∀ y, labels y = fresh → y ∈ U) (hfuel : U.length ≤ fuel)
    (seeds : List α) :
    SweepInv nbrs fresh erased number keep labels seeds
      (seeds.foldl (sweepStep nbrs fresh erased number keep fuel) ⟨labels, [], []⟩) := by
  induction seeds using List.reverseRecOn with
  | nil => exact sweepInv_start
  | append_singleton rest seed ih =>
      rw [List.foldl_concat]
      exact ih.step herased hnumber hsymm hU hfuel seed

omit [DecidableEq L] in
/-- What lies in disjoint components is counted one component after another. -/
theorem countP_disjoint {β : Type*} (place : β → α) {kept : List (List α)}
    (hdisjoint : kept.Pairwise List.Disjoint) (l : List β) :
    (kept.map fun C => l.countP fun b => place b ∈ C).sum =
      l.countP fun b => ∃ C ∈ kept, place b ∈ C := by
  induction kept with
  | nil => simp
  | cons C rest ih =>
      obtain ⟨hC, hrest⟩ := List.pairwise_cons.mp hdisjoint
      rw [List.map_cons, List.sum_cons, ih hrest]
      clear ih
      simp only [List.exists_mem_cons_iff]
      induction l with
      | nil => rfl
      | cons b tail ih =>
          have hexcl : place b ∈ C → ¬ ∃ D ∈ rest, place b ∈ D := fun hb hex => by
            obtain ⟨D, hD, hbD⟩ := hex
            exact hC D hD hb hbD
          simp only [List.countP_cons, decide_eq_true_eq]
          rw [← ih]
          by_cases hb : place b ∈ C
          · simp only [hb, hexcl hb, true_or, if_true, if_false]
            omega
          · simp only [hb, false_or, if_false]
            omega

end Sweeps

end MgRobot.Lib.FloodFill
