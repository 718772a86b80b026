import Mathlib.Algebra.Order.Field.Rat
import Mathlib.Data.List.TakeDrop
import MgRobot.Drivers.SerialCommunicator

/-!
# MotorDriver and WheelOdometry

The two serial devices: the frame of a speed command and what its answer is worth,
the odometry reply and its fields, and what the two probes send and report.
-/

namespace MgRobot.Drivers

set_option autoImplicit false

open MgRobot.Lib.Frames SerialCommunicator2

/-- `{&ret[i], &ret[i] + n}` -/
def slice (ret : List Byte) (i n : Nat) : List Byte := (ret.drop i).take n

theorem slice_append_slice (ret : List Byte) (i n m : Nat) :
    slice ret i n ++ slice ret (i + n) m = slice ret i (n + m) := by
  rw [slice, slice, slice, List.take_add, List.drop_drop]

theorem slice_head {part rest : List Byte} {n : Nat} (hn : part.length = n) :
    slice (part ++ rest) 0 n = part := by
  subst hn
  exact List.take_left

theorem slice_tail {part rest : List Byte} {i k n : Nat} (hk : part.length = k) :
    slice (part ++ rest) (k + i) n = slice rest i n := by
  subst hk
  rw [slice, ← List.drop_drop, List.drop_left, slice]

theorem length_slice {ret : List Byte} {i n : Nat} (h : i + n ≤ ret.length) :
    (slice ret i n).length = n := by
  rw [slice, List.length_take, List.length_drop]
  omega

/-- `ret.insert(ret.begin() + i, part.begin(), part.end())` -/
def insertAt (ret : List Byte) (i : Nat) (part : List Byte) : List Byte :=
  ret.take i ++ part ++ ret.drop i

theorem insertAt_end {ret : List Byte} {i : Nat} {part : List Byte} (hi : ret.length = i) :
    insertAt ret i part = ret ++ part := by
  subst hi
  rw [insertAt, List.take_length, List.drop_length, List.append_nil]

structure MotorDriverResponse where
  raw : List Byte
  error : SerialError

/-- The wheel speeds in mm/s. -/
structure SpeedParameter where
  rightWheelSpeed : BitVec 16
  leftWheelSpeed : BitVec 16
  deriving DecidableEq

def SpeedParameter.stop : SpeedParameter where
  rightWheelSpeed := 0#16
  leftWheelSpeed := 0#16

namespace MotorDriver

def sendSpeedCommandSize : Nat := 7

def receiveSpeedCommandSize : Nat := 4

def sendSpeedCommandHeader : List Byte := [0x96#8, 0x47#8]

def encode (param : SpeedParameter) : List Byte :=
  let ret := insertAt [] 0 sendSpeedCommandHeader
  let ret := insertAt ret 2 (SerialCommunicator2.encode 2 param.rightWheelSpeed)
  let ret := insertAt ret 4 (SerialCommunicator2.encode 2 param.leftWheelSpeed)
  ret ++ [calcChecksum ret]

def sendSpeedCommand (isOpenSerial : Bool) (x : Exchange) (param : SpeedParameter) :
    MotorDriverResponse × List (List Byte) :=
  let sendBuf := encode param
  let (rec, sent) := serialWrite isOpenSerial x sendBuf
  if rec ≤ 0 then ({ raw := [], error := .writeError }, sent)
  else
    let retbuf := serialRead isOpenSerial x
    ({ raw := retbuf
       error := checkError retbuf sendSpeedCommandHeader receiveSpeedCommandSize }, sent)

def probe (isOpenSerial : Bool) (x : Exchange) : SerialError × List (List Byte) :=
  let (res, sent) := sendSpeedCommand isOpenSerial x .stop
  (if res.error = .checksumError then .noError else res.error, sent)

/-- The layout of a frame: the header, the two speeds and the check sum. -/
theorem encode_eq (param : SpeedParameter) :
    ∃ body, body = sendSpeedCommandHeader ++
        (SerialCommunicator2.encode 2 param.rightWheelSpeed ++
          SerialCommunicator2.encode 2 param.leftWheelSpeed) ∧
      encode param = body ++ [body.sum] := by
  have hr : (SerialCommunicator2.encode 2 param.rightWheelSpeed).length = 2 := length_encode 2 _
  have hbase : insertAt [] 0 sendSpeedCommandHeader = sendSpeedCommandHeader := rfl
  have hlen : (sendSpeedCommandHeader ++
      SerialCommunicator2.encode 2 param.rightWheelSpeed).length = 4 := by
    rw [List.length_append, hr]
    rfl
  refine ⟨_, rfl, ?_⟩
  simp only [encode]
  rw [hbase, insertAt_end (i := 2) rfl, insertAt_end hlen, calcChecksum_eq,
    List.append_assoc sendSpeedCommandHeader]

theorem length_encode (param : SpeedParameter) : (encode param).length = sendSpeedCommandSize := by
  obtain ⟨body, hbody, henc⟩ := encode_eq param
  have hr := SerialCommunicator2.length_encode 2 param.rightWheelSpeed
  have hl := SerialCommunicator2.length_encode 2 param.leftWheelSpeed
  rw [henc, hbody]
  simp only [List.length_append, hr, hl, sendSpeedCommandHeader, sendSpeedCommandSize,
    List.length_cons, List.length_nil]

/-- The two speeds stand where a reader of the frame looks for them. -/
theorem decode_encode (param : SpeedParameter) :
    decode 16 (slice (encode param) 2 2) = param.rightWheelSpeed ∧
      decode 16 (slice (encode param) 4 2) = param.leftWheelSpeed := by
  obtain ⟨body, hbody, henc⟩ := encode_eq param
  have hr := SerialCommunicator2.length_encode 2 param.rightWheelSpeed
  have hl := SerialCommunicator2.length_encode 2 param.leftWheelSpeed
  have hright : slice (encode param) 2 2 = SerialCommunicator2.encode 2 param.rightWheelSpeed := by
    rw [henc, hbody, slice]
    simp [sendSpeedCommandHeader, hr]
  have hleft : slice (encode param) 4 2 = SerialCommunicator2.encode 2 param.leftWheelSpeed := by
    rw [henc, hbody, slice]
    simp [sendSpeedCommandHeader, hr, hl]
  rw [hright, hleft]
  exact ⟨SerialCommunicator2.decode_encode 2 _, SerialCommunicator2.decode_encode 2 _⟩

theorem checkError_encode (param : SpeedParameter) :
    checkError (encode param) sendSpeedCommandHeader sendSpeedCommandSize = .noError := by
  obtain ⟨body, hbody, henc⟩ := encode_eq param
  refine (checkError_eq_noError (by decide)).mpr ⟨length_encode param, ?_, ?_⟩
  · rw [henc, hbody, List.append_assoc]
    exact List.prefix_append _ _
  · rw [henc]
    exact closed_append_sum body

/-- A frame that passes the check is the frame of a command. -/
theorem exists_encode {f : List Byte}
    (hf : checkError f sendSpeedCommandHeader sendSpeedCommandSize = .noError) :
    ∃ param, f = encode param := by
  obtain ⟨hlen, ⟨tail, htail⟩, body, hbody⟩ := (checkError_eq_noError (by decide)).mp hf
  have hblen : body.length = 6 := by
    have := congrArg List.length hbody
    rw [hlen, sendSpeedCommandSize, List.length_append, List.length_singleton] at this
    omega
  refine ⟨⟨decode 16 (slice body 2 2), decode 16 (slice body 4 2)⟩, ?_⟩
  obtain ⟨body', hbody', henc⟩ :=
    encode_eq ⟨decode 16 (slice body 2 2), decode 16 (slice body 4 2)⟩
  have hr : SerialCommunicator2.encode 2 (decode 16 (slice body 2 2)) = slice body 2 2 :=
    encode_decode (length_slice (by omega))
  have hl : SerialCommunicator2.encode 2 (decode 16 (slice body 4 2)) = slice body 4 2 :=
    encode_decode (length_slice (by omega))
  have hhead : body.take 2 = sendSpeedCommandHeader := by
    have htake : f.take 2 = sendSpeedCommandHeader := by
      rw [← htail]
      rfl
    rw [← htake, hbody, List.take_append_of_le_length (by omega)]
  have hsame : body' = body := by
    rw [hbody', hr, hl, ← hhead]
    have hrest : slice body 2 4 = body.drop 2 :=
      List.take_of_length_le (by rw [List.length_drop, hblen])
    rw [slice_append_slice body 2 2 2, hrest, List.take_append_drop]
  rw [henc, hsame, hbody]

end MotorDriver

/-- The frames that `check_error` accepts for a speed command are exactly those of `encode`, one
for each command; reading the two words gives the command back, and no byte of a frame can be
replaced alone without the check failing. -/
theorem speed_command_frames :
    (∀ param, checkError (MotorDriver.encode param) MotorDriver.sendSpeedCommandHeader
        MotorDriver.sendSpeedCommandSize = .noError ∧
      decode 16 (slice (MotorDriver.encode param) 2 2) = param.rightWheelSpeed ∧
      decode 16 (slice (MotorDriver.encode param) 4 2) = param.leftWheelSpeed) ∧
    (∀ f, checkError f MotorDriver.sendSpeedCommandHeader
        MotorDriver.sendSpeedCommandSize = .noError → ∃! param, f = MotorDriver.encode param) ∧
    ∀ param i b, checkError ((MotorDriver.encode param).set i b)
        MotorDriver.sendSpeedCommandHeader MotorDriver.sendSpeedCommandSize = .noError →
      (MotorDriver.encode param).set i b = MotorDriver.encode param := by
  have hread := MotorDriver.decode_encode
  refine ⟨fun param => ⟨MotorDriver.checkError_encode param, hread param⟩, ?_, ?_⟩
  · intro f hf
    obtain ⟨param, hparam⟩ := MotorDriver.exists_encode hf
    refine ⟨param, hparam, fun other hother => ?_⟩
    have henc : MotorDriver.encode other = MotorDriver.encode param := hother.symm.trans hparam
    obtain ⟨hr, hl⟩ := hread param
    obtain ⟨hr', hl'⟩ := hread other
    rw [henc] at hr' hl'
    cases other
    cases param
    exact SpeedParameter.mk.injEq .. ▸ ⟨hr'.symm.trans hr, hl'.symm.trans hl⟩
  · intro param i b hset
    by_cases hi : i < (MotorDriver.encode param).length
    · have hopen : Closed (MotorDriver.encode param) :=
        ((checkError_eq_noError (by decide)).mp (MotorDriver.checkError_encode param)).2.2
      have hb := hopen.eq_of_set hi ((checkError_eq_noError (by decide)).mp hset).2.2
      rw [hb, List.set_getElem_self]
    · exact List.set_eq_of_length_le (by omega)

/-- What a reply says, in m, rad, m/s and rad/s. -/
structure Motion (R : Type*) where
  x : R
  y : R
  th : R
  vx : R
  vy : R
  vth : R
  deriving DecidableEq

/-- `motion` is `none` where the fields of the source hold no value. -/
structure OdometryData (R : Type*) where
  motion : Option (Motion R)
  raw : List Byte
  error : SerialError

namespace WheelOdometry

variable {R : Type*} [DivisionRing R]

def getOdomRetSize : Nat := 19

def odomBuf : List Byte := [0x24#8, 0x75#8]

def decode (ret : List Byte) : OdometryData R where
  motion := some
    { x := ((SerialCommunicator2.decode 32 (slice ret 2 4)).toInt : R) / 1000
      y := ((SerialCommunicator2.decode 32 (slice ret 6 4)).toInt : R) / 1000
      th := ((SerialCommunicator2.decode 16 (slice ret 10 2)).toNat : R) / 10000
      vx := ((SerialCommunicator2.decode 16 (slice ret 12 2)).toInt : R) / 1000
      vy := ((SerialCommunicator2.decode 16 (slice ret 14 2)).toInt : R) / 1000
      vth := ((SerialCommunicator2.decode 16 (slice ret 16 2)).toInt : R) / 10000 }
  raw := ret
  error := .noError

def getData (isOpenSerial : Bool) (x : Exchange) : OdometryData R × List (List Byte) :=
  let (rec, sent) := serialWrite isOpenSerial x odomBuf
  if rec ≤ 0 then ({ motion := none, raw := [], error := .writeError }, sent)
  else
    let retbuf := serialRead isOpenSerial x
    let err := checkError retbuf odomBuf getOdomRetSize
    if err ≠ .noError then ({ motion := none, raw := retbuf, error := err }, sent)
    else ({ decode retbuf with error := err }, sent)

def probe (isOpenSerial : Bool) (x : Exchange) : SerialError × List (List Byte) :=
  let (odom, sent) := getData (R := ℚ) isOpenSerial x
  (odom.error, sent)

/-- The counters of a reply, as the device holds them. -/
structure Counters where
  x : BitVec 32
  y : BitVec 32
  th : BitVec 16
  vx : BitVec 16
  vy : BitVec 16
  vth : BitVec 16

/-- The counters in the units of the node. -/
def Counters.motion (c : Counters) : Motion R where
  x := (c.x.toInt : R) / 1000
  y := (c.y.toInt : R) / 1000
  th := (c.th.toNat : R) / 10000
  vx := (c.vx.toInt : R) / 1000
  vy := (c.vy.toInt : R) / 1000
  vth := (c.vth.toInt : R) / 10000

/-- The reply that carries the counters. -/
def Counters.reply (c : Counters) : List Byte :=
  let body := odomBuf ++ (SerialCommunicator2.encode 4 c.x ++ (SerialCommunicator2.encode 4 c.y ++
    (SerialCommunicator2.encode 2 c.th ++ (SerialCommunicator2.encode 2 c.vx ++
      (SerialCommunicator2.encode 2 c.vy ++ SerialCommunicator2.encode 2 c.vth)))))
  body ++ [body.sum]

theorem closed_reply (c : Counters) : Closed c.reply := closed_append_sum _

theorem length_reply (c : Counters) : c.reply.length = getOdomRetSize := by
  simp only [Counters.reply, List.length_append, SerialCommunicator2.length_encode, odomBuf,
    getOdomRetSize, List.length_cons, List.length_nil]

theorem checkError_reply (c : Counters) :
    checkError c.reply odomBuf getOdomRetSize = .noError := by
  refine (checkError_eq_noError (by decide)).mpr ⟨length_reply c, ?_, closed_reply c⟩
  rw [Counters.reply, List.append_assoc]
  exact List.prefix_append _ _

/-- The fields are read where the reply holds them. -/
theorem decode_reply (c : Counters) : (decode (R := R) c.reply).motion = some c.motion := by
  have hx := SerialCommunicator2.length_encode 4 c.x
  have hy := SerialCommunicator2.length_encode 4 c.y
  have hth := SerialCommunicator2.length_encode 2 c.th
  have hvx := SerialCommunicator2.length_encode 2 c.vx
  have hvy := SerialCommunicator2.length_encode 2 c.vy
  have hvth := SerialCommunicator2.length_encode 2 c.vth
  obtain ⟨sum, hlayout⟩ : ∃ sum, c.reply = odomBuf ++ (SerialCommunicator2.encode 4 c.x ++
      (SerialCommunicator2.encode 4 c.y ++ (SerialCommunicator2.encode 2 c.th ++
        (SerialCommunicator2.encode 2 c.vx ++ (SerialCommunicator2.encode 2 c.vy ++
          (SerialCommunicator2.encode 2 c.vth ++ [sum])))))) := by
    rw [Counters.reply]
    simp only [List.append_assoc]
    exact ⟨_, rfl⟩
  have sx : slice c.reply 2 4 = SerialCommunicator2.encode 4 c.x := by
    rw [hlayout, slice_tail (k := 2) (i := 0) rfl, slice_head hx]
  have sy : slice c.reply 6 4 = SerialCommunicator2.encode 4 c.y := by
    rw [hlayout, slice_tail (k := 2) (i := 4) rfl, slice_tail (i := 0) hx, slice_head hy]
  have sth : slice c.reply 10 2 = SerialCommunicator2.encode 2 c.th := by
    rw [hlayout, slice_tail (k := 2) (i := 8) rfl, slice_tail (i := 4) hx,
      slice_tail (i := 0) hy, slice_head hth]
  have svx : slice c.reply 12 2 = SerialCommunicator2.encode 2 c.vx := by
    rw [hlayout, slice_tail (k := 2) (i := 10) rfl, slice_tail (i := 6) hx,
      slice_tail (i := 2) hy, slice_tail (i := 0) hth, slice_head hvx]
  have svy : slice c.reply 14 2 = SerialCommunicator2.encode 2 c.vy := by
    rw [hlayout, slice_tail (k := 2) (i := 12) rfl, slice_tail (i := 8) hx,
      slice_tail (i := 4) hy, slice_tail (i := 2) hth, slice_tail (i := 0) hvx, slice_head hvy]
  have svth : slice c.reply 16 2 = SerialCommunicator2.encode 2 c.vth := by
    rw [hlayout, slice_tail (k := 2) (i := 14) rfl, slice_tail (i := 10) hx,
      slice_tail (i := 6) hy, slice_tail (i := 4) hth, slice_tail (i := 2) hvx,
      slice_tail (i := 0) hvy, slice_head hvth]
  have word32 := SerialCommunicator2.decode_encode 4
  have word16 := SerialCommunicator2.decode_encode 2
  rw [decode, sx, sy, sth, svx, svy, svth, Counters.motion]
  simp only [word32, word16]

/-- A reply that passes the check carries counters. -/
theorem exists_reply {f : List Byte} (hf : checkError f odomBuf getOdomRetSize = .noError) :
    ∃ c : Counters, f = c.reply := by
  obtain ⟨hlen, ⟨tail, htail⟩, body, hbody⟩ := (checkError_eq_noError (by decide)).mp hf
  have hblen : body.length = 18 := by
    have := congrArg List.length hbody
    rw [hlen, getOdomRetSize, List.length_append, List.length_singleton] at this
    omega
  let c : Counters :=
    { x := SerialCommunicator2.decode 32 (slice body 2 4)
      y := SerialCommunicator2.decode 32 (slice body 6 4)
      th := SerialCommunicator2.decode 16 (slice body 10 2)
      vx := SerialCommunicator2.decode 16 (slice body 12 2)
      vy := SerialCommunicator2.decode 16 (slice body 14 2)
      vth := SerialCommunicator2.decode 16 (slice body 16 2) }
  have hword : ∀ {i n : Nat}, i + n ≤ 18 →
      SerialCommunicator2.encode n (SerialCommunicator2.decode (8 * n) (slice body i n)) =
        slice body i n := fun hin => encode_decode (length_slice (by omega))
  have hhead : odomBuf = slice body 0 2 := by
    have htake : f.take 2 = odomBuf := by
      rw [← htail]
      rfl
    rw [← htake, hbody, List.take_append_of_le_length (by omega)]
    rfl
  have hwhole : slice body 0 18 = body := by
    rw [slice, List.drop_zero, ← hblen, List.take_length]
  refine ⟨c, ?_⟩
  have hreply : c.reply = body ++ [body.sum] := by
    simp only [Counters.reply, c]
    rw [hword (i := 2) (n := 4) (by omega), hword (i := 6) (n := 4) (by omega),
      hword (i := 10) (n := 2) (by omega), hword (i := 12) (n := 2) (by omega),
      hword (i := 14) (n := 2) (by omega), hword (i := 16) (n := 2) (by omega), hhead,
      slice_append_slice body 14 2 2, slice_append_slice body 12 2 4,
      slice_append_slice body 10 2 6, slice_append_slice body 6 4 8,
      slice_append_slice body 2 4 12, slice_append_slice body 0 2 16, hwhole]
  rw [hreply, hbody]

/-- `get_data` succeeds on the replies that carry counters, and on nothing else. -/
theorem getData_noError_iff (isOpenSerial : Bool) (x : Exchange) :
    (getData (R := R) isOpenSerial x).1.error = .noError ↔
      isOpenSerial = true ∧ 0 < x.written ∧ ∃ c : Counters, serialRead isOpenSerial x = c.reply := by
  cases isOpenSerial with
  | false =>
      refine ⟨fun h => ?_, fun h => absurd h.1 Bool.noConfusion⟩
      have hw : (getData (R := R) false x).1.error = .writeError := rfl
      rw [hw] at h
      cases h
  | true =>
      have hwrite : serialWrite true x odomBuf = (x.written, [odomBuf.take x.written.toNat]) := rfl
      by_cases hpos : x.written ≤ 0
      · have hw : (getData (R := R) true x).1.error = .writeError := by
          simp only [getData, hwrite, if_pos hpos]
        rw [hw]
        refine ⟨fun h => SerialError.noConfusion h, fun h => ?_⟩
        have := h.2.1
        omega
      · have herr : (getData (R := R) true x).1.error =
            checkError (serialRead true x) odomBuf getOdomRetSize := by
          simp only [getData, hwrite, if_neg hpos]
          split <;> rfl
        rw [herr]
        constructor
        · intro h
          exact ⟨rfl, by omega, exists_reply h⟩
        · intro h
          obtain ⟨c, hc⟩ := h.2.2
          rw [hc]
          exact checkError_reply c

theorem getData_motion {isOpenSerial : Bool} {x : Exchange} {c : Counters}
    (h : (getData (R := R) isOpenSerial x).1.error = .noError)
    (hc : serialRead isOpenSerial x = c.reply) :
    (getData (R := R) isOpenSerial x).1.motion = some c.motion := by
  obtain ⟨hopen, hpos, _⟩ := (getData_noError_iff isOpenSerial x).mp h
  subst hopen
  have hwrite : serialWrite true x odomBuf = (x.written, [odomBuf.take x.written.toNat]) := rfl
  have hle : ¬ x.written ≤ 0 := by omega
  have hcheck : ¬ checkError (serialRead true x) odomBuf getOdomRetSize ≠ .noError := by
    rw [hc, checkError_reply]
    exact not_not.mpr rfl
  simp only [getData, hwrite, if_neg hle, if_neg hcheck]
  rw [hc]
  exact decode_reply c

end WheelOdometry

/-- Reading the odometry: `get_data` succeeds exactly when the port is open, the request went out
and the answer is the reply of some counters, and then returns those counters; it never takes a
reply in which one byte was replaced by another. -/
theorem odometry_replies {R : Type*} [DivisionRing R] (isOpenSerial : Bool) (x : Exchange) :
    ((WheelOdometry.getData (R := R) isOpenSerial x).1.error = .noError ↔
      isOpenSerial = true ∧ 0 < x.written ∧
        ∃ c : WheelOdometry.Counters, serialRead isOpenSerial x = c.reply ∧
          (WheelOdometry.getData (R := R) isOpenSerial x).1.motion = some c.motion) ∧
    ∀ (c : WheelOdometry.Counters) (i : Nat) (b : Byte),
      serialRead isOpenSerial x = c.reply.set i b →
      (WheelOdometry.getData (R := R) isOpenSerial x).1.error = .noError →
      serialRead isOpenSerial x = c.reply := by
  have hiff := WheelOdometry.getData_noError_iff (R := R) isOpenSerial x
  refine ⟨⟨fun h => ?_, fun ⟨hopen, hpos, c, hc, _⟩ => hiff.mpr ⟨hopen, hpos, c, hc⟩⟩, ?_⟩
  · obtain ⟨hopen, hpos, c, hc⟩ := hiff.mp h
    exact ⟨hopen, hpos, c, hc, WheelOdometry.getData_motion h hc⟩
  · intro c i b hread herr
    obtain ⟨_, _, c', hc'⟩ := hiff.mp herr
    by_cases hi : i < c.reply.length
    · have hset : Closed (c.reply.set i b) := by
        rw [← hread, hc']
        exact WheelOdometry.closed_reply c'
      have hb := (WheelOdometry.closed_reply c).eq_of_set hi hset
      rw [hread, hb, List.set_getElem_self]
    · rw [hread, List.set_eq_of_length_le (by omega)]

end MgRobot.Drivers
