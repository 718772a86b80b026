import Mathlib.Algebra.Order.Group.Multiset

/-!
# Pools of threads

The threads of a process, as a multiset of program points: each of them waits
for its next step. A step takes one thread out and puts back what that thread
goes on to. A thread may carry an item (a right to do something once); the
items of a pool are counted with multiplicity, so that a bound on them says
that no item is carried twice.
-/

namespace MgRobot.Lib.Pool

set_option autoImplicit false

variable {α β : Type*} {p new : Multiset α} {old x : α} {item : α → Option β} {b : β}

/-- The item a thread carries, as a multiset of at most one element. -/
def itemOf (item : α → Option β) (x : α) : Multiset β := (item x).elim 0 fun b => {b}

/-- The items a pool carries. -/
def items (item : α → Option β) (p : Multiset α) : Multiset β := p.filterMap item

@[simp] theorem items_zero : items item (0 : Multiset α) = 0 := rfl

@[simp] theorem items_cons (x : α) (p : Multiset α) :
    items item (x ::ₘ p) = itemOf item x + items item p := by
  unfold items itemOf
  cases h : item x with
  | none => simp [Multiset.filterMap_cons_none _ _ h]
  | some b => simp [Multiset.filterMap_cons_some _ _ _ h, Multiset.singleton_add]

@[simp] theorem items_add (p q : Multiset α) :
    items item (p + q) = items item p + items item q := by
  induction p using Multiset.induction with
  | empty => simp
  | cons x p ih => rw [Multiset.cons_add, items_cons, ih, items_cons, add_assoc]

@[simp] theorem items_singleton (x : α) : items item {x} = itemOf item x := by
  rw [← Multiset.cons_zero, items_cons, items_zero, add_zero]

theorem mem_items : b ∈ items item p ↔ ∃ x ∈ p, item x = some b :=
  Multiset.mem_filterMap _ _

variable [DecidableEq α]

/-- The thread `old` takes its step and goes on to `new`. -/
def advance (p : Multiset α) (old : α) (new : Multiset α) : Multiset α := new + p.erase old

theorem mem_of_mem_advance (h : x ∈ advance p old new) : x ∈ new ∨ x ∈ p :=
  (Multiset.mem_add.mp h).imp_right Multiset.mem_of_mem_erase

theorem mem_advance_left (h : x ∈ new) : x ∈ advance p old new :=
  Multiset.mem_add.mpr (Or.inl h)

theorem mem_advance_right (h : x ∈ p) (hne : x ≠ old) : x ∈ advance p old new :=
  Multiset.mem_add.mpr (Or.inr ((Multiset.mem_erase_of_ne hne).mpr h))

/-- What one of the threads does, one of them still does if the thread that steps hands it on. -/
theorem exists_advance {P : α → Prop} (hold : P old → ∃ y ∈ new, P y) (h : ∃ x ∈ p, P x) :
    ∃ y ∈ advance p old new, P y := by
  obtain ⟨x, hx, hP⟩ := h
  by_cases hne : x = old
  · obtain ⟨y, hy, hPy⟩ := hold (hne ▸ hP)
    exact ⟨y, mem_advance_left hy, hPy⟩
  · exact ⟨x, mem_advance_right hx hne, hP⟩

/-- What one of the threads does, one of them did if the thread that steps goes on to it only
from there. -/
theorem exists_of_advance {P : α → Prop} (hm : old ∈ p) (hnew : ∀ y ∈ new, P y → P old)
    (h : ∃ y ∈ advance p old new, P y) : ∃ x ∈ p, P x := by
  obtain ⟨y, hy, hP⟩ := h
  rcases mem_of_mem_advance hy with hy | hy
  · exact ⟨old, hm, hnew y hy hP⟩
  · exact ⟨y, hy, hP⟩

/-- A pool carries what one of its threads carries and what the others do. -/
theorem items_erase (h : old ∈ p) :
    items item p = itemOf item old + items item (p.erase old) := by
  rw [← items_cons, Multiset.cons_erase h]

/-- A step that lets its thread go on with no more than it carried adds no item. -/
theorem items_advance_le (h : old ∈ p) (hle : items item new ≤ itemOf item old) :
    items item (advance p old new) ≤ items item p := by
  rw [advance, items_add, items_erase h]
  exact add_le_add_left hle _

end MgRobot.Lib.Pool
