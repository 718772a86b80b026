import Mathlib.Algebra.Field.Defs
import Mathlib.Data.BitVec
import MgRobot.Lib.Frames

/-!
# SerialCommunicator2

The bytes the drivers exchange with their devices: `encode`, `decode`,
`calc_checksum` and `check_error` of `serial_communicator2`, the speed command of
`motor_driver.cpp` and the reply of `wheel_odometry.cpp`. The system calls
behind `serial_write` and `serial_read` are what an `Exchange` says they returned.
-/

namespace MgRobot.Drivers

set_option autoImplicit false

open MgRobot.Lib.Frames

inductive SerialError where
  | noError
  | writeError
  | receiveSizeError
  | invalidHeader
  | checksumError
  | otherError
  deriving DecidableEq, Repr

/-- What the system calls of one exchange with a device return. -/
structure Exchange where
  written : Int
  reply : Option (List Byte)  -- `none` where `read` fails

namespace SerialCommunicator2

def calcChecksum (buf : List Byte) : Byte := buf.foldl (fun sum b => sum + b) 0#8

def checkError (ret header : List Byte) (size : Nat) : SerialError :=
  if ret.length ≠ size then .receiveSizeError
  else if (List.range header.length).any fun i => ret.getD i 0#8 ≠ header.getD i 0#8 then
    .invalidHeader
  else if calcChecksum ret.dropLast ≠ ret.getLastD 0#8 then .checksumError
  else .noError

/-- `encode` at a signed type of `s` bytes, whose shift keeps the sign. -/
def encode (s : Nat) (data : BitVec (8 * s)) : List Byte :=
  (List.range s).map fun i => (data.sshiftRight (8 * (s - i - 1))).setWidth 8

def decode (w : Nat) (buf : List Byte) : BitVec w :=
  let buf := buf.reverse
  (List.range' 1 (buf.length - 1)).foldl
    (fun ret i => ret ||| (buf.getD i 0#8).setWidth w <<< (8 * i)) ((buf.getD 0 0#8).setWidth w)

/-- The result of `write`, and the bytes that went out on the line. -/
def serialWrite (isOpenSerial : Bool) (x : Exchange) (writeBuf : List Byte) :
    Int × List (List Byte) :=
  if !isOpenSerial then (-1, []) else (x.written, [writeBuf.take x.written.toNat])

def serialRead (isOpenSerial : Bool) (x : Exchange) : List Byte :=
  if !isOpenSerial then []
  else match x.reply with
    | none => []
    | some retbuf => retbuf.take 64

theorem calcChecksum_eq (buf : List Byte) : calcChecksum buf = buf.sum :=
  List.sum_eq_foldl.symm

theorem encode_eq (s : Nat) (data : BitVec (8 * s)) :
    encode s data = (bytesOf s data).reverse := by
  refine List.ext_getElem (by simp [encode]) fun i hi _ => ?_
  have his : i < s := by simpa [encode] using hi
  simp only [encode, bytesOf, List.getElem_map, List.getElem_range, List.getElem_reverse,
    List.length_map, List.length_range]
  refine BitVec.eq_of_getLsbD_eq fun j hj => ?_
  have hlt : 8 * (s - i - 1) + j < 8 * s := by omega
  have hswap : s - 1 - i = s - i - 1 := by omega
  rw [getLsbD_byteAt, BitVec.getLsbD_setWidth, BitVec.getLsbD_sshiftRight, hswap, if_pos hlt]
  have hle : ¬ 8 * s ≤ j := by omega
  simp [hj, hle]

theorem getLsbD_join {w : Nat} (buf : List Byte) (n j : Nat) :
    ((List.range' 1 n).foldl (fun ret i => ret ||| (buf.getD i 0#8).setWidth w <<< (8 * i))
      ((buf.getD 0 0#8).setWidth w)).getLsbD j =
      (decide (j < w) && (decide (j / 8 ≤ n) && (buf.getD (j / 8) 0#8).getLsbD (j % 8))) := by
  induction n with
  | zero =>
      rw [List.range'_zero, List.foldl_nil, BitVec.getLsbD_setWidth]
      by_cases hj : j < 8
      · have hdiv : j / 8 = 0 := by omega
        have hmod : j % 8 = j := by omega
        simp [hdiv, hmod]
      · have hdiv : ¬ j / 8 ≤ 0 := by omega
        have hbit : (buf.getD 0 0#8).getLsbD j = false :=
          BitVec.getLsbD_of_ge _ j (by omega)
        simp only [hdiv, hbit, decide_false, Bool.false_and, Bool.and_false]
  | succ n ih =>
      rw [List.range'_concat, List.foldl_append, List.foldl_cons, List.foldl_nil,
        BitVec.getLsbD_or, ih, BitVec.getLsbD_shiftLeft, BitVec.getLsbD_setWidth]
      -- byte `n + 1` is the one that the last round puts in
      rcases Nat.lt_trichotomy (j / 8) (n + 1) with hlt | heq | hgt
      · have hold : j / 8 ≤ n := by omega
        have hnew : j < 8 * (1 + 1 * n) := by omega
        have hle : j / 8 ≤ n + 1 := by omega
        simp only [hold, hnew, hle, decide_true, Bool.not_true, Bool.and_false, Bool.false_and,
          Bool.or_false]
      · have hold : ¬ j / 8 ≤ n := by omega
        have hnew : ¬ j < 8 * (1 + 1 * n) := by omega
        have hsub : j - 8 * (1 + 1 * n) = j % 8 := by omega
        have hidx : 1 + 1 * n = j / 8 := by omega
        have hw : j < w → j % 8 < w := by omega
        have hle : j / 8 ≤ n + 1 := by omega
        rw [hsub, hidx]
        by_cases hjw : j < w
        · have hnew' : ¬ j < 8 * (j / 8) := by omega
          simp [hjw, hw hjw, hold, hle, hnew']
        · simp [hjw]
      · have hold : ¬ j / 8 ≤ n := by omega
        have hle : ¬ j / 8 ≤ n + 1 := by omega
        have hbit : (buf.getD (1 + 1 * n) 0#8).getLsbD (j - 8 * (1 + 1 * n)) = false :=
          BitVec.getLsbD_of_ge _ _ (by omega)
        simp only [hold, hle, hbit, decide_false, Bool.false_and, Bool.and_false, Bool.or_false]

theorem decode_eq (w : Nat) (buf : List Byte) : decode w buf = ofBytes w buf.reverse := by
  refine BitVec.eq_of_getLsbD_eq fun j hj => ?_
  rw [decode, getLsbD_join, getLsbD_ofBytes]
  by_cases hin : j / 8 ≤ buf.reverse.length - 1
  · simp only [hin, decide_true, Bool.true_and]
  · have hge : buf.reverse.length ≤ j / 8 := by omega
    rw [List.getD_eq_default _ _ hge]
    simp

/-- Decoding undoes encoding. -/
theorem decode_encode (s : Nat) (data : BitVec (8 * s)) :
    decode (8 * s) (encode s data) = data := by
  rw [decode_eq, encode_eq, List.reverse_reverse]
  exact ofBytes_bytesOf data le_rfl

/-- Encoding undoes decoding. -/
theorem encode_decode {s : Nat} {buf : List Byte} (hs : buf.length = s) :
    encode s (decode (8 * s) buf) = buf := by
  subst hs
  rw [decode_eq, encode_eq]
  have hbytes := bytesOf_ofBytes (w := 8 * buf.length) buf.reverse (by rw [List.length_reverse])
  rw [List.length_reverse] at hbytes
  rw [hbytes, List.reverse_reverse]

@[simp] theorem length_encode (s : Nat) (data : BitVec (8 * s)) :
    (encode s data).length = s := by
  rw [encode, List.length_map, List.length_range]

theorem header_iff (ret header : List Byte) (h : header.length ≤ ret.length) :
    ((List.range header.length).any fun i =>
      decide (ret.getD i 0#8 ≠ header.getD i 0#8)) = false ↔ header <+: ret := by
  rw [List.any_eq_false, List.prefix_iff_eq_take]
  constructor
  · intro hall
    refine List.ext_getElem (by rw [List.length_take]; omega) fun i hi hi' => ?_
    have hsame := hall i (List.mem_range.mpr hi)
    have hret : i < ret.length := by omega
    rw [List.getD_eq_getElem _ _ hret, List.getD_eq_getElem _ _ hi] at hsame
    rw [List.getElem_take]
    exact (not_not.mp (of_decide_eq_false (Bool.not_eq_true _ ▸ hsame))).symm
  · intro htake i hi
    rw [List.mem_range] at hi
    have hret : i < ret.length := by omega
    have hget : header[i] = ret[i] := (List.getElem_of_eq htake hi).trans List.getElem_take
    rw [List.getD_eq_getElem _ _ hret, List.getD_eq_getElem _ _ hi, hget]
    simp

/-- What `check_error` lets through: the size, the header and the check sum are right. -/
theorem checkError_eq_noError {ret header : List Byte} {size : Nat} (h : header.length < size) :
    checkError ret header size = .noError ↔
      ret.length = size ∧ header <+: ret ∧ Closed ret := by
  by_cases hsize : ret.length = size
  · have hne : ret ≠ [] := by
      intro hnil
      rw [hnil, List.length_nil] at hsize
      omega
    have hlast : ret.getLastD 0#8 = ret.getLast hne := List.getLastD_eq_getLast? .. ▸ by
      rw [List.getLast?_eq_getLast_of_ne_nil hne, Option.getD_some]
    rw [checkError, if_neg (not_not.mpr hsize), ← header_iff ret header (by omega),
      closed_iff hne, calcChecksum_eq, hlast]
    split <;> rename_i hhead
    · exact ⟨fun h => SerialError.noConfusion h, fun h => absurd (h.2.1.symm.trans hhead) Bool.noConfusion⟩
    · rw [Bool.not_eq_true] at hhead
      split <;> rename_i hsum
      · exact ⟨fun h => SerialError.noConfusion h, fun h => absurd h.2.2 hsum⟩
      · exact ⟨fun _ => ⟨hsize, hhead, not_not.mp hsum⟩, fun _ => rfl⟩
  · rw [checkError, if_pos hsize]
    exact ⟨fun h => SerialError.noConfusion h, fun h => absurd h.1 hsize⟩

end SerialCommunicator2

end MgRobot.Drivers
