import Mathlib.Algebra.Order.Floor.Ring
import Mathlib.Data.Rat.Floor
import Mathlib.Tactic.Linarith
import MgRobot.Drivers.SerialDriver

/-!
# MotorDriverNode

The node of `motor_driver_node.cpp` on top of `SerialDriverNode`: it turns twists into
speed commands and holds the wheels while the emergency stop is on.
-/

namespace MgRobot.Drivers

set_option autoImplicit false

open MgRobot.Lib.Frames MgRobot.Lib.Runs Output

inductive MotorOutput where
  | sent (bytes : List Byte)
  | estopChanged (device : String) (active : Bool)

structure MotorDriverNode (R : Type*) where
  base : SerialDriverNode
  wheelPitch : R
  maxSpeed : R
  emergencyStop : Bool

namespace MotorDriverNode

variable {R : Type*} [Field R] [LinearOrder R] [FloorRing R]

/-- The integral part of a value. -/
def truncate (v : R) : ℤ := if 0 ≤ v then ⌊v⌋ else ⌈v⌉

/-- `static_cast<int16_t>` of a value in range. -/
def toInt16 (v : R) : BitVec 16 := BitVec.ofInt 16 (truncate v)

def createSpeedParameter (n : MotorDriverNode R) (linearX angularZ : R) : SpeedParameter :=
  let linearX :=
    if n.maxSpeed < linearX then n.maxSpeed
    else if linearX < -n.maxSpeed then -n.maxSpeed
    else linearX
  let angularZ := if 4 / 5 < |angularZ| then 4 / 5 * angularZ / |angularZ| else angularZ
  let leftSpeed := linearX - angularZ * n.wheelPitch / 2
  let rightSpeed := linearX + angularZ * n.wheelPitch / 2
  { leftWheelSpeed := toInt16 (leftSpeed * 1000)
    rightWheelSpeed := toInt16 (rightSpeed * 1000) }

def twistSubCb (n : MotorDriverNode R) (linearX angularZ : R) (opens : Bool) (x : Exchange) :
    MotorDriverNode R × List (Output MotorOutput) :=
  if n.emergencyStop then (n, [])
  else
    let req := n.createSpeedParameter linearX angularZ
    let (res, sent) := MotorDriver.sendSpeedCommand n.base.port.isOpenSerial x req
    let lines := sent.map fun bytes => .own (.sent bytes)
    -- a wrong check sum still is an answer
    if res.error ≠ .checksumError then
      let (base, out) := n.base.handleSerialError opens res.error
      ({ n with base := base }, lines ++ out)
    else (n, lines)

def emergencyStopSubCb (n : MotorDriverNode R) (data : Bool) (x : Exchange) :
    MotorDriverNode R × List (Output MotorOutput) :=
  let changed := n.emergencyStop != data
  let n := { n with emergencyStop := data }
  let event : List (Output MotorOutput) :=
    if changed then [.own (.estopChanged "motor_driver" n.emergencyStop)] else []
  if n.emergencyStop then
    let (_, sent) := MotorDriver.sendSpeedCommand n.base.port.isOpenSerial x .stop
    (n, event ++ sent.map fun bytes => .own (.sent bytes))
  else (n, event)

/-- The probe of the motor driver, as the base class calls it. -/
def probe (isOpenSerial : Bool) (x : Exchange) : SerialError × List MotorOutput :=
  let (error, sent) := MotorDriver.probe isOpenSerial x
  (error, sent.map .sent)

end MotorDriverNode

/-- What reaches the node: the device file comes or goes, a message, the 1 Hz timer. -/
inductive MotorCall (R : Type*) where
  | present (data : Bool)
  | twist (linearX angularZ : R) (opens : Bool) (x : Exchange)
  | emergencyStop (data : Bool) (x : Exchange)
  | healthCheck (i : HealthInput)

structure Motor (R : Type*) where
  node : MotorDriverNode R
  log : List (Output MotorOutput)

namespace Motor

variable {R : Type*}

def after (w : Motor R) (r : MotorDriverNode R × List (Output MotorOutput)) : Motor R where
  node := r.1
  log := w.log ++ r.2

theorem after_after (w : Motor R) (r r' : MotorDriverNode R × List (Output MotorOutput)) :
    (w.after r).after r' = w.after (r'.1, r.2 ++ r'.2) := by
  rw [after, after, after, List.append_assoc]

/-- The part of the base class. -/
def driver (w : Motor R) : Driver MotorOutput where
  node := w.node.base
  log := w.log

variable [Field R] [LinearOrder R] [FloorRing R]

def step (w : Motor R) : MotorCall R → Option (Motor R)
  | .present data => some
      { w with node.base.port.present := data }
  | .twist linearX angularZ opens x => some (w.after (w.node.twistSubCb linearX angularZ opens x))
  | .emergencyStop data x => some (w.after (w.node.emergencyStopSubCb data x))
  | .healthCheck i =>
      let (base, out) := w.node.base.healthCheck MotorDriverNode.probe i
      some (w.after ({ w.node with base := base }, out))

def start (base : SerialDriverNode) (wheelPitch maxSpeed : R) : Motor R where
  node := { base := base, wheelPitch := wheelPitch, maxSpeed := maxSpeed, emergencyStop := false }
  log := []

end Motor

section MotorRuns

variable {R : Type*} [Field R] [LinearOrder R] [FloorRing R] {w w' : Motor R}

namespace MotorDriverNode

variable (n : MotorDriverNode R)

/-- What `emergency_stop_sub_cb` says: the change, and then the stop. -/
def stopOutputs (data : Bool) (x : Exchange) : List MotorOutput :=
  (if n.emergencyStop != data then [.estopChanged "motor_driver" data] else []) ++
    if data then (MotorDriver.sendSpeedCommand n.base.port.isOpenSerial x .stop).2.map .sent else []

omit [Field R] [LinearOrder R] [FloorRing R] in
theorem emergencyStopSubCb_eq (data : Bool) (x : Exchange) :
    n.emergencyStopSubCb data x =
      ({ n with emergencyStop := data }, (n.stopOutputs data x).map .own) := by
  have hevent : (if n.emergencyStop != data then
      [Output.own (.estopChanged "motor_driver" data)] else []) =
      (if n.emergencyStop != data then [MotorOutput.estopChanged "motor_driver" data] else []).map
        .own := by
    split <;> rfl
  rw [emergencyStopSubCb, stopOutputs, List.map_append, ← hevent]
  cases data with
  | true =>
      simp only [if_true, List.map_map]
      rfl
  | false => simp only [Bool.false_eq_true, if_false, List.map_nil, List.append_nil]

/-- What `twist_sub_cb` sends, and what it then reports to the base class. -/
theorem twistSubCb_cases (linearX angularZ : R) (opens : Bool) (x : Exchange) :
    n.emergencyStop = true ∧ n.twistSubCb linearX angularZ opens x = (n, []) ∨
      n.emergencyStop = false ∧
        ∃ res, res = MotorDriver.sendSpeedCommand n.base.port.isOpenSerial x
            (n.createSpeedParameter linearX angularZ) ∧
          (res.1.error = .checksumError ∧ n.twistSubCb linearX angularZ opens x =
              (n, (res.2.map .sent).map .own) ∨
            n.twistSubCb linearX angularZ opens x =
              ({ n with base := (n.base.handleSerialError (δ := MotorOutput) opens
                  res.1.error).1 },
                (res.2.map .sent).map .own ++ (n.base.handleSerialError opens res.1.error).2)) := by
  cases hstop : n.emergencyStop with
  | true => exact .inl ⟨rfl, by rw [twistSubCb, hstop]; rfl⟩
  | false =>
      refine .inr ⟨rfl, _, rfl, ?_⟩
      rw [twistSubCb, hstop, List.map_map]
      by_cases herr : (MotorDriver.sendSpeedCommand n.base.port.isOpenSerial x
          (n.createSpeedParameter linearX angularZ)).1.error = .checksumError
      · refine .inl ⟨herr, ?_⟩
        simp only [Bool.false_eq_true, if_false, herr, ne_eq, not_true_eq_false]
        rfl
      · refine .inr ?_
        simp only [Bool.false_eq_true, if_false, herr, ne_eq, not_false_eq_true, if_true]
        rfl

/-- What goes out on the line is the frame of the command, or the beginning of it. -/
theorem prefix_of_sent {isOpenSerial : Bool} {x : Exchange} {param : SpeedParameter}
    {bytes : List Byte} (h : bytes ∈ (MotorDriver.sendSpeedCommand isOpenSerial x param).2) :
    bytes <+: MotorDriver.encode param := by
  have hsent : (MotorDriver.sendSpeedCommand isOpenSerial x param).2 =
      (SerialCommunicator2.serialWrite isOpenSerial x (MotorDriver.encode param)).2 := by
    simp only [MotorDriver.sendSpeedCommand]
    split <;> rfl
  rw [hsent, SerialCommunicator2.serialWrite] at h
  split at h
  · exact absurd h List.not_mem_nil
  · rw [List.mem_singleton] at h
    rw [h]
    exact List.take_prefix _ _

/-- The probe sends the stop. -/
theorem mem_probe {isOpenSerial : Bool} {x : Exchange} {o : MotorOutput}
    (h : o ∈ (probe isOpenSerial x).2) :
    ∃ bytes, o = .sent bytes ∧ bytes <+: MotorDriver.encode .stop := by
  obtain ⟨bytes, hbytes, rfl⟩ := List.mem_map.mp h
  exact ⟨bytes, rfl, prefix_of_sent hbytes⟩

end MotorDriverNode

/-- Every step of the node is a run of its base class. -/
theorem Motor.driver_step {c : MotorCall R} (h : w.step c = some w') :
    ∃ calls, exec (Driver.step MotorDriverNode.probe) w.driver calls = some w'.driver := by
  cases c with
  | present data =>
      obtain rfl := Option.some.inj h
      exact ⟨[.present data], rfl⟩
  | healthCheck i =>
      obtain rfl := Option.some.inj h
      exact ⟨[.healthCheck i], rfl⟩
  | emergencyStop data x =>
      obtain rfl := Option.some.inj h
      rw [w.node.emergencyStopSubCb_eq data x]
      exact ⟨_, Driver.exec_own _ _ _⟩
  | twist linearX angularZ opens x =>
      obtain rfl := Option.some.inj h
      rcases w.node.twistSubCb_cases linearX angularZ opens x with
        ⟨_, heq⟩ | ⟨_, res, _, ⟨_, heq⟩ | heq⟩
      · refine ⟨[], ?_⟩
        rw [heq, exec_nil, Motor.after, List.append_nil]
      · rw [heq]
        exact ⟨_, Driver.exec_own _ _ _⟩
      · rw [heq]
        refine ⟨_ ++ [.report res.1.error opens], exec_append (Driver.exec_own _ _ (res.2.map .sent)) (exec_single ?_)⟩
        rw [Driver.step, Driver.after_after]
        rfl

/-- A run of the node is a run of its base class, with the probe of the motor driver. -/
theorem motor_driver_refines {calls : List (MotorCall R)} (hr : exec Motor.step w calls = some w') :
    ∃ calls, exec (Driver.step MotorDriverNode.probe) w.driver calls = some w'.driver :=
  exec_matched (fun _ _ _ h => Motor.driver_step h) hr

/-- The bytes that a log entry put on the line. -/
def Output.sentBytes : Output MotorOutput → Option (List Byte)
  | .own (.sent bytes) => some bytes
  | _ => none

theorem Output.own_of_sentBytes {o : Output MotorOutput} {bytes : List Byte}
    (h : o.sentBytes = some bytes) : .own (.sent bytes) = o := by
  cases o with
  | own o =>
      cases o with
      | sent line => rw [← Option.some.inj h]
      | estopChanged device active => cases h
  | _ => cases h

def Output.estop : Output MotorOutput → Option Bool
  | .own (.estopChanged _ active) => some active
  | _ => none

/-- The state of the emergency stop by what a log says. -/
def activeAt (log : List (Output MotorOutput)) : Bool :=
  (log.filterMap Output.estop).getLast?.getD false

theorem activeAt_append {log outs : List (Output MotorOutput)}
    (h : ∀ o ∈ outs, o.estop = none) : activeAt (log ++ outs) = activeAt log := by
  rw [activeAt, List.filterMap_append, List.filterMap_eq_nil_iff.mpr h, List.append_nil, activeAt]

theorem activeAt_snoc (log : List (Output MotorOutput)) (device : String) (active : Bool) :
    activeAt (log ++ [.own (.estopChanged device active)]) = active := by
  rw [activeAt, List.filterMap_append]
  exact congrArg (fun o : Option Bool => o.getD false) List.getLast?_concat

/-- The frame of a speed command for a twist within the limits of the node. -/
def WithinLimits (wheelPitch maxSpeed : R) (bytes : List Byte) : Prop :=
  ∃ (param : SpeedParameter) (v ω : R), bytes <+: MotorDriver.encode param ∧
    |v| ≤ maxSpeed ∧ |ω| ≤ 4 / 5 ∧
    param.rightWheelSpeed = MotorDriverNode.toInt16 ((v + ω * wheelPitch / 2) * 1000) ∧
    param.leftWheelSpeed = MotorDriverNode.toInt16 ((v - ω * wheelPitch / 2) * 1000)

/-- What holds of the log of a motor driver node. -/
structure Governed (w : Motor R) : Prop where
  active : activeAt w.log = w.node.emergencyStop
  held : Logged (fun pre o => ∀ bytes, o.sentBytes = some bytes → activeAt pre = true →
    bytes <+: MotorDriver.encode .stop) w.log
  limits : 0 ≤ w.node.maxSpeed → ∀ bytes, .own (.sent bytes) ∈ w.log →
    WithinLimits w.node.wheelPitch w.node.maxSpeed bytes

namespace Governed

/-- Outputs that do not touch the emergency stop and send no more than they may. -/
theorem append (h : Governed w) {n : MotorDriverNode R} {outs : List (Output MotorOutput)}
    (hstop : n.emergencyStop = w.node.emergencyStop) (hpitch : n.wheelPitch = w.node.wheelPitch)
    (hmax : n.maxSpeed = w.node.maxSpeed) (hquiet : ∀ o ∈ outs, o.estop = none)
    (hheld : w.node.emergencyStop = true → ∀ bytes, .own (.sent bytes) ∈ outs →
      bytes <+: MotorDriver.encode .stop)
    (hlimits : 0 ≤ w.node.maxSpeed → ∀ bytes, .own (.sent bytes) ∈ outs →
      WithinLimits w.node.wheelPitch w.node.maxSpeed bytes) : Governed (w.after (n, outs)) where
  active := by
    show activeAt (w.log ++ outs) = n.emergencyStop
    rw [activeAt_append hquiet, hstop]
    exact h.active
  held := by
    refine Logged.append h.held fun pre o post houts bytes hbytes hactive => ?_
    have houts : outs = pre ++ o :: post := houts
    have hquiet' : ∀ o ∈ pre, o.estop = none := by
      intro o ho
      refine hquiet o ?_
      rw [houts]
      exact List.mem_append_left _ ho
    rw [activeAt_append hquiet', h.active] at hactive
    refine hheld hactive bytes ?_
    rw [houts, ← Output.own_of_sentBytes hbytes]
    exact List.mem_append_right _ List.mem_cons_self
  limits := by
    show 0 ≤ n.maxSpeed → ∀ bytes, .own (.sent bytes) ∈ w.log ++ outs →
      WithinLimits n.wheelPitch n.maxSpeed bytes
    rw [hmax, hpitch]
    intro hnonneg bytes hmem
    rcases List.mem_append.mp hmem with hold | hnew
    · exact h.limits hnonneg bytes hold
    · exact hlimits hnonneg bytes hnew

/-- The emergency stop is switched. -/
theorem event (h : Governed w) (data : Bool) :
    Governed (w.after ({ w.node with emergencyStop := data },
      [.own (.estopChanged "motor_driver" data)])) where
  active := activeAt_snoc w.log "motor_driver" data
  held := by
    refine Logged.snoc h.held fun bytes hbytes => ?_
    cases hbytes
  limits := by
    intro hnonneg bytes hmem
    rcases List.mem_append.mp hmem with hold | hnew
    · exact h.limits hnonneg bytes hold
    · cases List.mem_singleton.mp hnew

end Governed

variable [IsStrictOrderedRing R]

theorem toInt16_zero : MotorDriverNode.toInt16 (0 : R) = 0#16 := by
  rw [MotorDriverNode.toInt16, MotorDriverNode.truncate, if_pos le_rfl, Int.floor_zero]
  rfl

theorem withinLimits_stop {wheelPitch maxSpeed : R} {bytes : List Byte} (hmax : 0 ≤ maxSpeed)
    (h : bytes <+: MotorDriver.encode .stop) : WithinLimits wheelPitch maxSpeed bytes := by
  refine ⟨.stop, 0, 0, h, by rwa [abs_zero], by rw [abs_zero]; norm_num, ?_, ?_⟩
  · rw [zero_mul, zero_div, add_zero, zero_mul, toInt16_zero]
    rfl
  · rw [zero_mul, zero_div, sub_zero, zero_mul, toInt16_zero]
    rfl

theorem withinLimits_twist (n : MotorDriverNode R) (hmax : 0 ≤ n.maxSpeed) (linearX angularZ : R)
    {bytes : List Byte} (h : bytes <+: MotorDriver.encode (n.createSpeedParameter linearX angularZ)) :
    WithinLimits n.wheelPitch n.maxSpeed bytes := by
  refine ⟨_, if n.maxSpeed < linearX then n.maxSpeed
    else if linearX < -n.maxSpeed then -n.maxSpeed else linearX,
    if 4 / 5 < |angularZ| then 4 / 5 * angularZ / |angularZ| else angularZ, h, ?_, ?_, rfl, rfl⟩
  · split <;> rename_i hhigh
    · rw [abs_of_nonneg hmax]
    · split <;> rename_i hlow
      · rw [abs_neg, abs_of_nonneg hmax]
      · exact abs_le.mpr ⟨not_lt.mp hlow, not_lt.mp hhigh⟩
  · split <;> rename_i hfast
    · have hpos : 0 < |angularZ| := lt_trans (by norm_num) hfast
      rw [abs_div, abs_mul, abs_abs, mul_div_assoc, div_self hpos.ne', mul_one,
        abs_of_nonneg (by norm_num)]
    · exact not_lt.mp hfast

/-- Lines on the wire, seen as log entries. -/
theorem mem_lines {sent : List (List Byte)} {o : Output MotorOutput}
    (h : o ∈ (sent.map MotorOutput.sent).map .own) : ∃ bytes ∈ sent, o = .own (.sent bytes) := by
  obtain ⟨line, hline, rfl⟩ := List.mem_map.mp h
  obtain ⟨bytes, hbytes, rfl⟩ := List.mem_map.mp hline
  exact ⟨bytes, hbytes, rfl⟩

theorem Governed.emergencyStop (h : Governed w) (data : Bool) (x : Exchange) :
    Governed (w.after ({ w.node with emergencyStop := data },
      (w.node.stopOutputs data x).map .own)) := by
  have hswitch : Governed (w.after ({ w.node with emergencyStop := data },
      (if w.node.emergencyStop != data then [.estopChanged "motor_driver" data]
        else ([] : List MotorOutput)).map .own)) := by
    by_cases hchanged : (w.node.emergencyStop != data) = true
    · rw [if_pos hchanged]
      exact h.event data
    · rw [if_neg hchanged]
      have hsame : data = w.node.emergencyStop := by
        rw [bne_iff_ne, ne_eq, not_not] at hchanged
        exact hchanged.symm
      exact h.append hsame rfl rfl (fun _ ho => absurd ho List.not_mem_nil)
        (fun _ _ ho => absurd ho List.not_mem_nil) fun _ _ ho => absurd ho List.not_mem_nil
  have hlines : ∀ o ∈ ((if data then (MotorDriver.sendSpeedCommand w.node.base.port.isOpenSerial x
      .stop).2.map MotorOutput.sent else []).map Output.own),
      ∃ bytes, o = .own (.sent bytes) ∧ bytes <+: MotorDriver.encode .stop := by
    intro o ho
    cases data with
    | false => exact absurd ho List.not_mem_nil
    | true =>
        obtain ⟨bytes, hbytes, rfl⟩ := mem_lines ho
        exact ⟨bytes, rfl, MotorDriverNode.prefix_of_sent hbytes⟩
  have hstopped : ∀ bytes, .own (.sent bytes) ∈ ((if data then (MotorDriver.sendSpeedCommand
      w.node.base.port.isOpenSerial x .stop).2.map MotorOutput.sent else []).map Output.own) →
      bytes <+: MotorDriver.encode .stop := by
    intro bytes hbytes
    obtain ⟨bytes', heq, hpre⟩ := hlines _ hbytes
    exact MotorOutput.sent.inj (Output.own.inj heq) ▸ hpre
  have hsent := hswitch.append rfl rfl rfl
    (fun o ho => by
      obtain ⟨bytes, rfl, _⟩ := hlines o ho
      rfl)
    (fun _ => hstopped) fun hmax bytes hbytes => withinLimits_stop hmax (hstopped bytes hbytes)
  rw [Motor.after_after] at hsent
  rw [MotorDriverNode.stopOutputs, List.map_append]
  exact hsent

/-- A twist that is not ignored goes out within the limits. -/
theorem Governed.command (h : Governed w) (hoff : w.node.emergencyStop = false)
    (linearX angularZ : R) (x : Exchange) :
    Governed (w.after (w.node, ((MotorDriver.sendSpeedCommand w.node.base.port.isOpenSerial x
      (w.node.createSpeedParameter linearX angularZ)).2.map .sent).map .own)) := by
  refine h.append rfl rfl rfl (fun o ho => ?_) (fun hon => ?_) fun hmax bytes hbytes => ?_
  · obtain ⟨bytes, _, rfl⟩ := mem_lines ho
    rfl
  · rw [hoff] at hon
    cases hon
  · obtain ⟨bytes', hbytes', heq⟩ := mem_lines hbytes
    obtain rfl := MotorOutput.sent.inj (Output.own.inj heq)
    exact withinLimits_twist w.node hmax linearX angularZ (MotorDriverNode.prefix_of_sent hbytes')

omit [IsStrictOrderedRing R] in
/-- What the base class does with the result of an exchange sends nothing. -/
theorem Governed.report (h : Governed w) (opens : Bool) (error : SerialError) :
    Governed (w.after ({ w.node with
      base := (w.node.base.handleSerialError (δ := MotorOutput) opens error).1 },
      (w.node.base.handleSerialError opens error).2)) := by
  have hnot : ∀ o : MotorOutput, Output.own o ∉ (w.node.base.handleSerialError opens error).2 := fun _ =>
    w.node.base.not_own_handleSerialError
  refine h.append rfl rfl rfl (fun o ho => ?_) (fun _ bytes hb => absurd hb (hnot _))
    fun _ bytes hb => absurd hb (hnot _)
  cases o with
  | own o => exact absurd ho (hnot o)
  | _ => rfl

theorem Governed.step {c : MotorCall R} (h : Governed w) (hc : w.step c = some w') :
    Governed w' := by
  cases c with
  | present data =>
      obtain rfl := Option.some.inj hc
      exact ⟨h.active, h.held, h.limits⟩
  | healthCheck i =>
      obtain rfl := Option.some.inj hc
      have hown : ∀ o, .own o ∈ (w.node.base.healthCheck MotorDriverNode.probe i).2 →
          ∃ bytes, o = .sent bytes ∧ bytes <+: MotorDriver.encode .stop := fun o ho =>
        MotorDriverNode.mem_probe (w.node.base.mem_probe_of_own ho)
      have hsent : ∀ bytes,
          .own (.sent bytes) ∈ (w.node.base.healthCheck MotorDriverNode.probe i).2 →
          bytes <+: MotorDriver.encode .stop := by
        intro bytes hbytes
        obtain ⟨_, heq, hpre⟩ := hown _ hbytes
        exact MotorOutput.sent.inj heq ▸ hpre
      refine h.append rfl rfl rfl ?_ (fun _ => hsent) fun hmax bytes hbytes =>
        withinLimits_stop hmax (hsent bytes hbytes)
      intro o ho
      cases o with
      | own o =>
          obtain ⟨bytes, rfl, _⟩ := hown o ho
          rfl
      | _ => rfl
  | emergencyStop data x =>
      obtain rfl := Option.some.inj hc
      rw [w.node.emergencyStopSubCb_eq data x]
      exact h.emergencyStop data x
  | twist linearX angularZ opens x =>
      obtain rfl := Option.some.inj hc
      rcases w.node.twistSubCb_cases linearX angularZ opens x with
        ⟨_, heq⟩ | ⟨hoff, res, rfl, ⟨_, heq⟩ | heq⟩
      · rw [heq]
        exact h.append rfl rfl rfl (fun _ ho => absurd ho List.not_mem_nil)
          (fun _ _ ho => absurd ho List.not_mem_nil) fun _ _ ho => absurd ho List.not_mem_nil
      · rw [heq]
        exact h.command hoff linearX angularZ x
      · rw [heq]
        have hcommand := h.command hoff linearX angularZ x
        have hreport := hcommand.report opens (MotorDriver.sendSpeedCommand
          w.node.base.port.isOpenSerial x (w.node.createSpeedParameter linearX angularZ)).1.error
        rw [Motor.after_after] at hreport
        exact hreport

theorem Governed.run {base : SerialDriverNode} {wheelPitch maxSpeed : R}
    {calls : List (MotorCall R)}
    (hr : exec Motor.step (Motor.start base wheelPitch maxSpeed) calls = some w) : Governed w := by
  refine invariant_of_step (I := Governed) (fun _ _ _ h hs => h.step hs) ?_ hr
  exact ⟨rfl, Logged.nil, fun _ bytes h => absurd h List.not_mem_nil⟩

omit [IsStrictOrderedRing R] in
/-- The wheel pitch and the speed limit never change. -/
theorem Motor.parameters_step {c : MotorCall R} (h : w.step c = some w') :
    w'.node.wheelPitch = w.node.wheelPitch ∧ w'.node.maxSpeed = w.node.maxSpeed := by
  cases c with
  | present data => exact Option.some.inj h ▸ ⟨rfl, rfl⟩
  | healthCheck i => exact Option.some.inj h ▸ ⟨rfl, rfl⟩
  | emergencyStop data x =>
      obtain rfl := Option.some.inj h
      rw [w.node.emergencyStopSubCb_eq data x]
      exact ⟨rfl, rfl⟩
  | twist linearX angularZ opens x =>
      obtain rfl := Option.some.inj h
      rcases w.node.twistSubCb_cases linearX angularZ opens x with
        ⟨_, heq⟩ | ⟨_, _, _, ⟨_, heq⟩ | heq⟩ <;>
      · rw [heq]
        exact ⟨rfl, rfl⟩

/-- While the emergency stop is on nothing but stop commands goes out, from whichever callback,
and every message that switches it on sends a stop if the port is open. -/
theorem emergency_stop_holds {base : SerialDriverNode} {wheelPitch maxSpeed : R}
    {calls : List (MotorCall R)}
    (hr : exec Motor.step (Motor.start base wheelPitch maxSpeed) calls = some w) :
    (∀ pre bytes post, w.log = pre ++ .own (.sent bytes) :: post → activeAt pre = true →
      bytes <+: MotorDriver.encode .stop) ∧
    ∀ x w', w.step (.emergencyStop true x) = some w' → w.node.base.port.isOpenSerial = true →
      ∃ pre, activeAt pre = true ∧ w'.log =
        pre ++ [.own (.sent ((MotorDriver.encode .stop).take x.written.toNat))] := by
  have hgov := Governed.run hr
  refine ⟨fun pre bytes post hlog => hgov.held pre _ post hlog bytes rfl,
    fun x w' hstep hopen => ?_⟩
  obtain rfl := Option.some.inj hstep
  have hsent : (MotorDriver.sendSpeedCommand true x .stop).2 =
      [(MotorDriver.encode .stop).take x.written.toNat] := by
    simp only [MotorDriver.sendSpeedCommand]
    split <;> rfl
  have houts : (w.node.emergencyStopSubCb true x).2 =
      (if w.node.emergencyStop != true then [.own (.estopChanged "motor_driver" true)] else []) ++
        [.own (.sent ((MotorDriver.encode .stop).take x.written.toNat))] := by
    rw [w.node.emergencyStopSubCb_eq true x, MotorDriverNode.stopOutputs, hopen, if_pos rfl, hsent,
      List.map_append]
    split <;> rfl
  refine ⟨w.log ++ if w.node.emergencyStop != true then
    [.own (.estopChanged "motor_driver" true)] else [], ?_, ?_⟩
  · cases hstop : w.node.emergencyStop with
    | true =>
        show activeAt (w.log ++ []) = true
        rw [List.append_nil, hgov.active, hstop]
    | false => exact activeAt_snoc w.log "motor_driver" true
  · show w.log ++ (w.node.emergencyStopSubCb true x).2 = _
    rw [houts, List.append_assoc]

theorem abs_truncate_le (v : R) : |((MotorDriverNode.truncate v : ℤ) : R)| ≤ |v| := by
  rw [MotorDriverNode.truncate]
  split <;> rename_i hv
  · have hfloor : (0 : R) ≤ (⌊v⌋ : ℤ) := Int.cast_nonneg (Int.floor_nonneg.mpr hv)
    rw [abs_of_nonneg hfloor, abs_of_nonneg hv]
    exact Int.floor_le v
  · have hneg : v ≤ 0 := (not_le.mp hv).le
    have hceil : ((⌈v⌉ : ℤ) : R) ≤ 0 := Int.cast_nonpos.mpr (Int.ceil_le.mpr (by simpa using hneg))
    rw [abs_of_nonpos hceil, abs_of_nonpos hneg]
    exact neg_le_neg (Int.le_ceil v)

theorem toInt_toInt16 {v : R} (hv : |v| ≤ 32767) :
    (MotorDriverNode.toInt16 v).toInt = MotorDriverNode.truncate v := by
  have habs : |((MotorDriverNode.truncate v : ℤ) : R)| ≤ (32767 : ℤ) := by
    refine (abs_truncate_le v).trans (hv.trans ?_)
    norm_num
  rw [← Int.cast_abs, Int.cast_le, abs_le] at habs
  rw [MotorDriverNode.toInt16, BitVec.toInt_ofInt_eq_self (by decide)]
  · obtain ⟨hlow, _⟩ := habs
    show -32768 ≤ MotorDriverNode.truncate v
    omega
  · obtain ⟨_, hhigh⟩ := habs
    show MotorDriverNode.truncate v < 32768
    omega

/-- Whatever twists arrive, in every frame that goes out the wheel speeds are the millimetres per
second of some twist within `max_speed` and 0.8 rad/s, and no wheel is told to run faster than
such a twist needs. -/
theorem commanded_speeds_bounded {base : SerialDriverNode} {wheelPitch maxSpeed : R}
    {calls : List (MotorCall R)} (hmax : 0 ≤ maxSpeed) (hpitch : 0 ≤ wheelPitch)
    (hfit : (maxSpeed + 2 / 5 * wheelPitch) * 1000 ≤ 32767)
    (hr : exec Motor.step (Motor.start base wheelPitch maxSpeed) calls = some w) :
    ∀ bytes, .own (.sent bytes) ∈ w.log → ∃ (param : SpeedParameter) (v ω : R),
      bytes <+: MotorDriver.encode param ∧ |v| ≤ maxSpeed ∧ |ω| ≤ 4 / 5 ∧
      param.rightWheelSpeed.toInt =
        MotorDriverNode.truncate ((v + ω * wheelPitch / 2) * 1000) ∧
      param.leftWheelSpeed.toInt =
        MotorDriverNode.truncate ((v - ω * wheelPitch / 2) * 1000) ∧
      |(param.rightWheelSpeed.toInt : R)| ≤ (maxSpeed + 2 / 5 * wheelPitch) * 1000 ∧
      |(param.leftWheelSpeed.toInt : R)| ≤ (maxSpeed + 2 / 5 * wheelPitch) * 1000 := by
  have hparams : w.node.wheelPitch = wheelPitch ∧ w.node.maxSpeed = maxSpeed := by
    refine invariant_of_step (I := fun w : Motor R =>
      w.node.wheelPitch = wheelPitch ∧ w.node.maxSpeed = maxSpeed) ?_ ⟨rfl, rfl⟩ hr
    intro s c t h hs
    obtain ⟨hpitch', hmax'⟩ := Motor.parameters_step hs
    exact ⟨hpitch'.trans h.1, hmax'.trans h.2⟩
  intro bytes hbytes
  obtain ⟨param, v, ω, hpre, hv, hω, hright, hleft⟩ :=
    (Governed.run hr).limits (by rw [hparams.2]; exact hmax) bytes hbytes
  rw [hparams.2] at hv
  rw [hparams.1] at hright hleft
  have hturn : |ω * wheelPitch / 2| ≤ 2 / 5 * wheelPitch := by
    rw [abs_div, abs_mul, abs_of_nonneg hpitch, abs_of_pos (two_pos : (0 : R) < 2)]
    have := mul_le_mul_of_nonneg_right hω hpitch
    linarith
  have hwheel : ∀ s : R, |s| ≤ 2 / 5 * wheelPitch →
      |(v + s) * 1000| ≤ (maxSpeed + 2 / 5 * wheelPitch) * 1000 := by
    intro s hs
    have hsum : |v + s| ≤ maxSpeed + 2 / 5 * wheelPitch := (abs_add_le v s).trans (add_le_add hv hs)
    rw [abs_mul, abs_of_pos (by norm_num : (0 : R) < 1000)]
    exact mul_le_mul_of_nonneg_right hsum (by norm_num)
  have hr' := hwheel _ hturn
  have hl' := hwheel (-(ω * wheelPitch / 2)) (by rwa [abs_neg])
  rw [← sub_eq_add_neg] at hl'
  have hright' : param.rightWheelSpeed.toInt =
      MotorDriverNode.truncate ((v + ω * wheelPitch / 2) * 1000) := by
    rw [hright, toInt_toInt16 (hr'.trans hfit)]
  have hleft' : param.leftWheelSpeed.toInt =
      MotorDriverNode.truncate ((v - ω * wheelPitch / 2) * 1000) := by
    rw [hleft, toInt_toInt16 (hl'.trans hfit)]
  refine ⟨param, v, ω, hpre, hv, hω, hright', hleft', ?_, ?_⟩
  · rw [hright']
    exact (abs_truncate_le _).trans hr'
  · rw [hleft']
    exact (abs_truncate_le _).trans hl'

/-- A twist, the emergency stop, another twist and its release. -/
def stopAndGo : List (MotorCall ℚ) :=
  [.twist 3 (-2) true answered, .emergencyStop true answered, .twist 1 0 true answered,
    .emergencyStop false answered, .twist (1 / 2) 0 true answered]

theorem exists_stopAndGo : ∃ w : Motor ℚ, exec Motor.step (Motor.start
    (.start "motor_driver" ⟨true, true⟩ 4) (179 / 500) 1) stopAndGo = some w := ⟨_, rfl⟩

theorem emergency_stop_holds_stopAndGo :
    ∃ w w' : Motor ℚ, exec Motor.step (Motor.start (.start "motor_driver" ⟨true, true⟩ 4)
        (179 / 500) 1) stopAndGo = some w ∧
      (∀ pre bytes post, w.log = pre ++ .own (.sent bytes) :: post → activeAt pre = true →
        bytes <+: MotorDriver.encode .stop) ∧
      w.step (.emergencyStop true answered) = some w' ∧
      ∃ pre, activeAt pre = true ∧
        w'.log = pre ++ [.own (.sent ((MotorDriver.encode .stop).take 7))] := by
  obtain ⟨w, hw, hopen⟩ : ∃ w : Motor ℚ, exec Motor.step (Motor.start
      (.start "motor_driver" ⟨true, true⟩ 4) (179 / 500) 1) stopAndGo = some w ∧
        w.node.base.port.isOpenSerial = true := ⟨_, rfl, rfl⟩
  obtain ⟨hheld, hstops⟩ := emergency_stop_holds hw
  exact ⟨w, _, hw, hheld, rfl, hstops answered _ rfl hopen⟩

theorem commanded_speeds_bounded_stopAndGo :
    ∃ w : Motor ℚ, exec Motor.step (Motor.start (.start "motor_driver" ⟨true, true⟩ 4)
        (179 / 500) 1) stopAndGo = some w ∧
      ∀ bytes, .own (.sent bytes) ∈ w.log → ∃ (param : SpeedParameter) (v ω : ℚ),
        bytes <+: MotorDriver.encode param ∧ |v| ≤ 1 ∧ |ω| ≤ 4 / 5 ∧
        param.rightWheelSpeed.toInt =
          MotorDriverNode.truncate ((v + ω * (179 / 500) / 2) * 1000) ∧
        param.leftWheelSpeed.toInt =
          MotorDriverNode.truncate ((v - ω * (179 / 500) / 2) * 1000) ∧
        |(param.rightWheelSpeed.toInt : ℚ)| ≤ (1 + 2 / 5 * (179 / 500)) * 1000 ∧
        |(param.leftWheelSpeed.toInt : ℚ)| ≤ (1 + 2 / 5 * (179 / 500)) * 1000 := by
  obtain ⟨w, hw⟩ := exists_stopAndGo
  exact ⟨w, hw, commanded_speeds_bounded (by norm_num) (by norm_num) (by norm_num) hw⟩

end MotorRuns

end MgRobot.Drivers
