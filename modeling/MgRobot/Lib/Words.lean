import Std.Data.String.ToNat
import Mathlib.Data.List.Basic
import Mathlib.Data.List.DropRight

/-!
# Words and numbered names

The words of a text are its longest parts without a separator. They survive being
joined by separators. A decimal number at the end of a name can be taken off again, if
what stands before it does not end in a digit.
-/

namespace MgRobot.Lib

set_option autoImplicit false

section Separators

variable {α : Type*} {p : α → Bool}

def words (p : α → Bool) (text : List α) : List (List α) :=
  (text.splitOnP p).filter fun w => !w.isEmpty

/-- A text that is one word. -/
def IsWord (p : α → Bool) (w : List α) : Prop := w ≠ [] ∧ ∀ x ∈ w, p x = false

instance [DecidableEq α] (p : α → Bool) (w : List α) : Decidable (IsWord p w) :=
  inferInstanceAs (Decidable (_ ∧ _))

@[simp] theorem words_nil : words p [] = [] := rfl

theorem words_append_cons (a b : List α) {sep : α} (hsep : p sep = true) :
    words p (a ++ sep :: b) = words p a ++ words p b := by
  rw [words, List.splitOnP_append_cons a b hsep, List.filter_append, words, words]

theorem IsWord.words_eq {w : List α} (h : IsWord p w) : words p w = [w] := by
  rw [words, List.splitOnP_eq_singleton h.2, List.filter_cons_of_pos (by simpa using h.1),
    List.filter_nil]

/-- A text without separators has one word, or none if it is empty. -/
theorem words_of_forall {text : List α} (h : ∀ x ∈ text, p x = false) :
    words p text = if text = [] then [] else [text] := by
  split_ifs with hne
  · rw [hne, words_nil]
  · exact IsWord.words_eq ⟨hne, h⟩

theorem isWord_of_mem {text w : List α} (h : w ∈ words p text) : IsWord p w := by
  obtain ⟨hsplit, hne⟩ := List.mem_filter.mp h
  refine ⟨by simpa using hne, ?_⟩
  clear h hne
  induction text generalizing w with
  | nil =>
      obtain rfl : w = [] := by simpa using hsplit
      exact fun x hx => nomatch hx
  | cons c text ih =>
      rw [List.splitOnP_cons_eq_if_modifyHead] at hsplit
      cases hc : p c with
      | true =>
          rw [if_pos hc] at hsplit
          rcases List.mem_cons.mp hsplit with rfl | hsplit
          · exact fun x hx => nomatch hx
          · exact ih hsplit
      | false =>
          obtain ⟨first, rest, heq⟩ := List.exists_cons_of_ne_nil (List.splitOnP_ne_nil p text)
          rw [if_neg (by simp [hc]), heq, List.modifyHead_cons] at hsplit
          rw [heq] at ih
          rcases List.mem_cons.mp hsplit with rfl | hsplit
          · intro x hx
            rcases List.mem_cons.mp hx with rfl | hx
            · exact hc
            · exact ih List.mem_cons_self x hx
          · exact ih (List.mem_cons_of_mem first hsplit)

/-- The words of texts that are joined by a separator are those of the texts. -/
theorem words_intercalate {sep : α} (hsep : p sep = true) (texts : List (List α)) :
    words p ([sep].intercalate texts) = texts.flatMap (words p) := by
  induction texts with
  | nil => rfl
  | cons text rest ih =>
      cases rest with
      | nil => simp
      | cons text' rest =>
          rw [List.intercalate_cons_cons, List.append_assoc, List.singleton_append,
            words_append_cons _ _ hsep, ih]
          rfl

end Separators

namespace Numbered

variable {s t : String} {i j : Nat}

theorem isDigit_of_mem_toString {c : Char} (hc : c ∈ (toString i).toList) : c.isDigit = true := by
  rw [Nat.toString_eq_repr, Nat.toList_repr] at hc
  exact Nat.isDigit_of_mem_toDigits (by decide) (by decide) hc

theorem notMem_toString {c : Char} (hc : c.isDigit = false) : c ∉ (toString i).toList := by
  intro hmem
  rw [isDigit_of_mem_toString hmem] at hc
  exact absurd hc nofun

theorem rdropWhile_append_toString (hs : ∀ c ∈ s.toList.getLast?, c.isDigit = false) :
    (s ++ toString i).toList.rdropWhile Char.isDigit = s.toList := by
  have hdrop : s.toList.rdropWhile Char.isDigit = s.toList := by
    refine List.rdropWhile_eq_self_iff.mpr fun hne => ?_
    rw [hs _ (List.getLast?_eq_getLast_of_ne_nil hne)]
    exact Bool.false_ne_true
  rw [String.toList_append, List.rdropWhile, List.reverse_append,
    List.dropWhile_append_of_pos fun c hc => isDigit_of_mem_toString (List.mem_reverse.mp hc)]
  exact hdrop

/-- Name and number are determined by the numbered name. -/
theorem append_toString_inj (hs : ∀ c ∈ s.toList.getLast?, c.isDigit = false)
    (ht : ∀ c ∈ t.toList.getLast?, c.isDigit = false) :
    s ++ toString i = t ++ toString j ↔ s = t ∧ i = j := by
  constructor
  · intro h
    have hstem : s = t := by
      rw [← String.toList_inj, ← rdropWhile_append_toString hs, h, rdropWhile_append_toString ht]
    subst hstem
    exact ⟨rfl, Nat.repr_injective ((String.append_right_inj s).mp h)⟩
  · rintro ⟨rfl, rfl⟩
    rfl

end Numbered

end MgRobot.Lib
