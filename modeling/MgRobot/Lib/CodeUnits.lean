import Mathlib.Data.List.Basic
import Mathlib.Data.Nat.Basic

/-!
# Code units

Texts as lists of code units: characters, bytes in UTF-8, 16-bit units in UTF-16.
An encoding writes an ASCII character as the one unit that stands for it and any
other character with units outside the ASCII range, so what a program does by
looking for ASCII characters does not depend on the encoding.
-/

namespace MgRobot.Lib

set_option autoImplicit false

class CodeUnit (α : Type) where
  code : α → Nat
  unit : Char → α
  code_injective : ∀ {x y : α}, code x = code y → x = y
  code_unit : ∀ c : Char, c.toNat < 128 → code (unit c) = c.toNat

open CodeUnit

instance : CodeUnit Char where
  code := Char.toNat
  unit := id
  code_injective := Char.toNat_inj.mp
  code_unit _ _ := rfl

@[simp] theorem unit_char (c : Char) : (unit c : Char) = c := rfl

instance : CodeUnit UInt8 where
  code := UInt8.toNat
  unit c := UInt8.ofNat c.toNat
  code_injective := UInt8.toNat_inj.mp
  code_unit c hc := UInt8.toNat_ofNat_of_lt' (by show c.toNat < 256; omega)

instance : CodeUnit UInt16 where
  code := UInt16.toNat
  unit c := UInt16.ofNat c.toNat
  code_injective := UInt16.toNat_inj.mp
  code_unit c hc := UInt16.toNat_ofNat_of_lt' (by show c.toNat < 65536; omega)

/-- An ASCII string in code units. -/
def lit {α : Type} [CodeUnit α] (s : String) : List α := s.toList.map unit

/-- How characters become code units. -/
structure Encoding (α : Type) [CodeUnit α] where
  encode : Char → List α
  ascii : ∀ c, c.toNat < 128 → encode c = [unit c]
  above : ∀ c, 128 ≤ c.toNat → encode c ≠ [] ∧ ∀ u ∈ encode c, 128 ≤ code u

namespace Encoding

variable {α : Type} [CodeUnit α] (E : Encoding α)

def text (s : List Char) : List α := s.flatMap E.encode

@[simp] theorem text_nil : E.text [] = [] := rfl

@[simp] theorem text_cons (c : Char) (s : List Char) : E.text (c :: s) = E.encode c ++ E.text s := rfl

@[simp] theorem text_append (s t : List Char) : E.text (s ++ t) = E.text s ++ E.text t :=
  List.flatMap_append

theorem encode_ne_nil (c : Char) : E.encode c ≠ [] := by
  rcases Nat.lt_or_ge c.toNat 128 with h | h
  · rw [E.ascii c h]
    exact List.cons_ne_nil _ _
  · exact (E.above c h).1

theorem text_of_ascii {s : List Char} (h : ∀ c ∈ s, c.toNat < 128) : E.text s = s.map unit := by
  induction s with
  | nil => rfl
  | cons c s ih =>
      rw [text_cons, E.ascii c (h c List.mem_cons_self), List.map_cons,
        ih fun x hx => h x (List.mem_cons_of_mem c hx)]
      rfl

theorem text_eq_nil_iff {s : List Char} : E.text s = [] ↔ s = [] := by
  cases s with
  | nil => exact iff_of_true rfl rfl
  | cons c s =>
      have hne : E.encode c ++ E.text s ≠ [] := by simp [E.encode_ne_nil c]
      exact iff_of_false hne (List.cons_ne_nil c s)

/-- A test that only ASCII codes can meet is met by a unit iff it is met by a character. -/
theorem any_text {q : Nat → Bool} (hq : ∀ n, 128 ≤ n → q n = false) (s : List Char) :
    (E.text s).any (fun u => q (code u)) = s.any fun c => q c.toNat := by
  induction s with
  | nil => rfl
  | cons c s ih =>
      rw [text_cons, List.any_append, ih, List.any_cons]
      congr 1
      rcases Nat.lt_or_ge c.toNat 128 with h | h
      · rw [E.ascii c h, List.any_cons, List.any_nil, Bool.or_false, code_unit c h]
      · rw [hq _ h, List.any_eq_false]
        intro u hu
        rw [hq _ ((E.above c h).2 u hu)]
        exact Bool.false_ne_true

/-- A rewriting of units that leaves everything outside the ASCII range alone. -/
theorem text_flatMap {f : Char → List Char} {g : α → List α}
    (hascii : ∀ c, c.toNat < 128 → E.text (f c) = g (unit c))
    (habove : ∀ c, 128 ≤ c.toNat → f c = [c]) (hg : ∀ u, 128 ≤ code u → g u = [u])
    (s : List Char) : E.text (s.flatMap f) = (E.text s).flatMap g := by
  induction s with
  | nil => rfl
  | cons c s ih =>
      rw [List.flatMap_cons, text_append, ih, text_cons, List.flatMap_append]
      congr 1
      rcases Nat.lt_or_ge c.toNat 128 with h | h
      · rw [hascii c h, E.ascii c h, List.flatMap_singleton]
      · rw [habove c h, text_cons, text_nil, List.append_nil]
        have hunits : ∀ l : List α, (∀ u ∈ l, 128 ≤ code u) → l.flatMap g = l := by
          intro l hl
          induction l with
          | nil => rfl
          | cons u l ih =>
              rw [List.flatMap_cons, hg u (hl u List.mem_cons_self),
                ih fun x hx => hl x (List.mem_cons_of_mem u hx)]
              rfl
        exact (hunits _ (E.above c h).2).symm

end Encoding

def utf8 : Encoding UInt8 where
  encode := String.utf8EncodeChar
  ascii c hc := by
    have hv : c.val.toNat ≤ 127 := Nat.le_of_lt_succ hc
    simp only [String.utf8EncodeChar, if_pos hv]
    rfl
  above c hc := by
    have hv : ¬ c.val.toNat ≤ 127 := Nat.not_le.mpr hc
    simp only [String.utf8EncodeChar, if_neg hv]
    split_ifs <;> simp [code] <;> omega

def utf16 : Encoding UInt16 where
  encode c :=
    if c.toNat < 65536 then [UInt16.ofNat c.toNat]
    else
      [UInt16.ofNat (55296 + (c.toNat - 65536) / 1024),
        UInt16.ofNat (56320 + (c.toNat - 65536) % 1024)]
  ascii c hc := by
    rw [if_pos (by omega)]
    rfl
  above c hc := by
    have hmax : c.toNat < 1114112 := by
      have := c.valid
      simp only [UInt32.isValidChar, Nat.isValidChar] at this
      show c.val.toNat < 1114112
      omega
    split_ifs <;> simp [code] <;> omega

end MgRobot.Lib
