import Mathlib.Algebra.BigOperators.Group.List.Basic
import Mathlib.Data.List.GetD
import MgRobot.Lib.Numerals

/-!
# Words and check sums in byte frames

A word is cut into bytes and put together again, least significant byte first,
and a frame is closed by the sum of what stands before it. A closed frame with
one entry replaced is not closed any more.
-/

namespace MgRobot.Lib.Frames

set_option autoImplicit false

abbrev Byte := BitVec 8

section Words

variable {w : Nat}

/-- Byte `i` of a word, byte 0 being the least significant one. -/
def byteAt (v : BitVec w) (i : Nat) : Byte := v.extractLsb' (8 * i) 8

/-- The `n` lowest bytes of a word. -/
def bytesOf (n : Nat) (v : BitVec w) : List Byte := (List.range n).map (byteAt v)

/-- The word of the given bytes. -/
def ofBytes (w : Nat) : List Byte → BitVec w
  | [] => 0#w
  | b :: rest => b.setWidth w ||| ofBytes w rest <<< 8

@[simp] theorem length_bytesOf (n : Nat) (v : BitVec w) : (bytesOf n v).length = n := by
  rw [bytesOf, List.length_map, List.length_range]

theorem getLsbD_byteAt (v : BitVec w) (i j : Nat) :
    (byteAt v i).getLsbD j = (decide (j < 8) && v.getLsbD (8 * i + j)) :=
  BitVec.getLsbD_extractLsb' ..

theorem getLsbD_ofBytes (bs : List Byte) (j : Nat) :
    (ofBytes w bs).getLsbD j =
      (decide (j < w) && (bs.getD (j / 8) 0#8).getLsbD (j % 8)) := by
  induction bs generalizing j with
  | nil => simp [ofBytes]
  | cons b rest ih =>
      rw [ofBytes, BitVec.getLsbD_or, BitVec.getLsbD_shiftLeft, BitVec.getLsbD_setWidth, ih]
      by_cases hj : j < 8
      · have hdiv : j / 8 = 0 := by omega
        have hmod : j % 8 = j := by omega
        simp [hj, hdiv, hmod]
      · have hdiv : j / 8 = (j - 8) / 8 + 1 := by omega
        have hmod : j % 8 = (j - 8) % 8 := by omega
        have hb : b.getLsbD j = false := BitVec.getLsbD_of_ge b j (by omega)
        have hlt : j < w → j - 8 < w := by omega
        rw [hdiv, hmod, List.getD_cons_succ, hb]
        by_cases hw : j < w
        · simp [hj, hw, hlt hw]
        · simp [hw]

theorem byteAt_ofBytes (bs : List Byte) {i : Nat} (hi : 8 * i + 8 ≤ w) :
    byteAt (ofBytes w bs) i = bs.getD i 0#8 := by
  refine BitVec.eq_of_getLsbD_eq fun j hj => ?_
  have hdiv : (8 * i + j) / 8 = i := by omega
  have hmod : (8 * i + j) % 8 = j := by omega
  have hlt : 8 * i + j < w := by omega
  rw [getLsbD_byteAt, getLsbD_ofBytes, hdiv, hmod]
  simp [hj, hlt]

/-- Cutting a word into enough bytes loses nothing. -/
theorem ofBytes_bytesOf {n : Nat} (v : BitVec w) (hn : w ≤ 8 * n) :
    ofBytes w (bytesOf n v) = v := by
  refine BitVec.eq_of_getLsbD_eq fun j hj => ?_
  have hlt : j / 8 < n := by omega
  have hjoin : 8 * (j / 8) + j % 8 = j := by omega
  have hget : (bytesOf n v).getD (j / 8) 0#8 = byteAt v (j / 8) := by
    rw [List.getD_eq_getElem _ _ (by rw [length_bytesOf]; exact hlt)]
    simp [bytesOf]
  rw [getLsbD_ofBytes, hget, getLsbD_byteAt, hjoin]
  have hmod : j % 8 < 8 := by omega
  simp [hj, hmod]

/-- A word wide enough gives its bytes back. -/
theorem bytesOf_ofBytes (bs : List Byte) (hw : 8 * bs.length ≤ w) :
    bytesOf bs.length (ofBytes w bs) = bs := by
  refine List.ext_getElem (length_bytesOf _ _) fun i _ hi => ?_
  have hbyte : byteAt (ofBytes w bs) i = bs.getD i 0#8 := byteAt_ofBytes bs (by omega)
  simp only [bytesOf, List.getElem_map, List.getElem_range]
  rw [hbyte, List.getD_eq_getElem _ _ hi]

end Words

section CheckSums

variable {G : Type*} [AddCommGroup G] {f : List G}

/-- The last entry is the sum of the others. -/
def Closed (f : List G) : Prop := ∃ body, f = body ++ [body.sum]

theorem closed_append_sum (body : List G) : Closed (body ++ [body.sum]) := ⟨body, rfl⟩

theorem closed_iff (hf : f ≠ []) : Closed f ↔ f.dropLast.sum = f.getLast hf := by
  constructor
  · rintro ⟨body, rfl⟩
    rw [List.dropLast_concat, List.getLast_concat]
  · intro h
    exact ⟨f.dropLast, by rw [h, List.dropLast_append_getLast]⟩

/-- Replacing one entry by another opens a closed frame. -/
theorem Closed.eq_of_set {i : Nat} {b : G} (hf : Closed f) (hi : i < f.length)
    (hset : Closed (f.set i b)) : b = f[i] := by
  obtain ⟨body, rfl⟩ := hf
  obtain ⟨body', hbody'⟩ := hset
  rw [List.length_append, List.length_singleton] at hi
  by_cases hlast : i < body.length
  · rw [List.set_append_left _ _ hlast] at hbody'
    obtain ⟨rfl, hsum⟩ := List.append_inj' hbody' rfl
    have hsum : body.sum = (body.set i b).sum := by simpa using hsum
    rw [List.sum_set', dif_pos hlast] at hsum
    have hzero : -body[i] + b = 0 := left_eq_add.mp hsum
    rw [List.getElem_append_left hlast]
    exact (neg_add_eq_zero.mp hzero).symm
  · have heq : i = body.length := by omega
    subst heq
    rw [List.set_append_right _ _ le_rfl, Nat.sub_self, List.set_cons_zero] at hbody'
    obtain ⟨rfl, hsum⟩ := List.append_inj' hbody' rfl
    have hsum : b = body.sum := by simpa using hsum
    rw [List.getElem_concat_length rfl]
    exact hsum

end CheckSums

end MgRobot.Lib.Frames
