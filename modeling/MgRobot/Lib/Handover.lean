import Mathlib.Data.List.Perm.Basic

/-!
# Handing over a growing list by a count

A reader of a list that grows remembers how many elements it has seen and takes the
rest. This is right while the list grows at its end; when it is put together from
several lists that grow, what is new in an earlier one pushes old elements past the
count.
-/

namespace MgRobot.Lib.Handover

set_option autoImplicit false

variable {α : Type*} {p : α → Prop} {new old : List α}

/-- Old elements stand past the new ones in the rest that the reader takes. -/
theorem mem_drop_append (hn : new ≠ []) (ho : old ≠ []) :
    old.getLast ho ∈ (new ++ old).drop old.length := by
  have hpos := List.length_pos_of_ne_nil hn
  have hle : old.length ≤ (new ++ old.dropLast).length := by
    rw [List.length_append, List.length_dropLast]
    omega
  have hsplit : new ++ old = (new ++ old.dropLast) ++ [old.getLast ho] := by
    rw [List.append_assoc, List.dropLast_append_getLast ho]
  rw [hsplit, List.drop_append_of_le_length hle]
  exact List.mem_append_right _ List.mem_cons_self

/-- New elements in front of old ones are taken exactly if one of the two kinds is missing. -/
theorem drop_append_perm_iff (hn : ∀ x ∈ new, p x) (ho : ∀ x ∈ old, ¬ p x) :
    ((new ++ old).drop old.length).Perm new ↔ new = [] ∨ old = [] := by
  constructor
  · intro h
    by_contra hne
    rw [not_or] at hne
    have hmem := h.mem_iff.mp (mem_drop_append hne.1 hne.2)
    exact ho _ (List.getLast_mem hne.2) (hn _ hmem)
  · intro h
    rcases h with rfl | rfl
    · rw [List.nil_append, List.drop_length]
    · rw [List.append_nil, List.length_nil, List.drop_zero]

end MgRobot.Lib.Handover
