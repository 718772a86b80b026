import Mathlib.Data.List.Destutter
import Mathlib.Data.List.DropRight
import MgRobot.Drivers.SerialDevices
import MgRobot.Lib.Runs

/-!
# SerialDriverNode

The base class of the serial drivers: what a result of an exchange does to the count
of consecutive errors, the 1 Hz health check, the reconnects, and the record of
connections and disconnections it keeps in `~/connected` and in the event log.
A derived class adds its probe and outputs of its own.
-/

namespace MgRobot.Drivers

set_option autoImplicit false

open MgRobot.Lib.Frames MgRobot.Lib.Runs

/-- The serial port of a device, and whether its device file exists. -/
structure Port where
  isOpenSerial : Bool
  present : Bool
  deriving DecidableEq

def Port.closeSerial (p : Port) : Port := { p with isOpenSerial := false }

/-- `opens` says how the system calls of `open_serial` end where the device file exists. -/
def Port.resetSerial (p : Port) (opens : Bool) : Port :=
  { p with isOpenSerial := p.present && opens }

/-- What a driver says to the outside, with the calls of `reset_serial` and
`handle_serial_error` in between. -/
inductive Output (δ : Type*) where
  | reconnectAttempt (device reason : String) (count : Nat)
  | connectedEvent (device : String) (afterAttempts : Nat)
  | disconnectedEvent (device reason : String)
  | connected (data : Bool)
  | reset
  | report (error : SerialError)
  | own (o : δ)

structure SerialDriverNode where
  deviceLabel : String
  port : Port
  errorRecoveryCount : Int
  consecutiveErrors : Nat
  resetAttempts : Nat
  disconnectCount : Nat
  lastConnected : Option Bool
  deriving DecidableEq

/-- What the outside does during one health check. -/
structure HealthInput where
  opens : Bool       -- the open of the check itself
  opensAgain : Bool  -- the open after a failed probe
  exchange : Exchange

variable {δ : Type*}

namespace SerialDriverNode

def isConnected (n : SerialDriverNode) : Bool :=
  n.port.isOpenSerial && n.port.present && n.consecutiveErrors == 0

def disconnectReason (n : SerialDriverNode) : String :=
  if !n.port.present then "device missing"
  else if !n.port.isOpenSerial then "port closed"
  else if 0 < n.consecutiveErrors then "communication errors"
  else ""

def resetDevice (n : SerialDriverNode) (opens : Bool) (reason : String) :
    SerialDriverNode × List (Output δ) :=
  let attempts := n.resetAttempts + 1
  ({ n with resetAttempts := attempts, port := n.port.resetSerial opens },
    (if attempts = 1 ∨ attempts % 10 = 0 then
      [.reconnectAttempt n.deviceLabel reason attempts] else []) ++ [.reset])

def handleSerialError (n : SerialDriverNode) (opens : Bool) (error : SerialError) :
    SerialDriverNode × List (Output δ) :=
  if error = .noError then ({ n with consecutiveErrors := 0 }, [.report error])
  else
    let n := { n with consecutiveErrors := n.consecutiveErrors + 1 }
    if (n.consecutiveErrors : Int) = n.errorRecoveryCount then
      let (n, out) := n.resetDevice opens "consecutive errors"
      (n, .report error :: out)
    else (n, [.report error])

variable (probe : Bool → Exchange → SerialError × List δ)

def probeConnection (n : SerialDriverNode) (opens : Bool) (x : Exchange) :
    SerialDriverNode × List (Output δ) :=
  if !n.port.isOpenSerial then (n, [])
  else
    let (error, sent) := probe n.port.isOpenSerial x
    let (n, out) := n.handleSerialError opens error
    (n, sent.map .own ++ out)

/-- The first half of `health_check`: the device is looked after. -/
def maintain (n : SerialDriverNode) (i : HealthInput) : SerialDriverNode × List (Output δ) :=
  if !n.port.present then
    (if n.port.isOpenSerial then { n with port := n.port.closeSerial } else n, [])
  else if !n.port.isOpenSerial || decide (n.errorRecoveryCount ≤ n.consecutiveErrors) then
    let (n', out) := n.resetDevice i.opens
      (if n.port.isOpenSerial then "consecutive errors" else "port closed")
    let (n'', out') := n'.probeConnection probe i.opensAgain i.exchange
    (n'', out ++ out')
  else if 0 < n.consecutiveErrors then n.probeConnection probe i.opens i.exchange
  else (n, [])

/-- The second half: the state of the connection is recorded and published. -/
def publishConnected (n : SerialDriverNode) : SerialDriverNode × List (Output δ) :=
  let connected := n.isConnected
  let (n', out) :=
    if n.lastConnected = some connected then (n, [])
    else if connected then
      ({ n with resetAttempts := 0 }, [.connectedEvent n.deviceLabel n.resetAttempts])
    else
      ({ n with disconnectCount := n.disconnectCount + 1 },
        [.disconnectedEvent n.deviceLabel n.disconnectReason])
  ({ n' with lastConnected := some connected }, out ++ [.connected connected])

def healthCheck (n : SerialDriverNode) (i : HealthInput) : SerialDriverNode × List (Output δ) :=
  let (n, out) := n.maintain probe i
  let (n, out') := n.publishConnected
  (n, out ++ out')

/-- The node once it is built and `set_device` was called. -/
def start (deviceLabel : String) (port : Port) (errorRecoveryCount : Int) : SerialDriverNode where
  deviceLabel := deviceLabel
  port := port
  errorRecoveryCount := errorRecoveryCount
  consecutiveErrors := 0
  resetAttempts := 0
  disconnectCount := 0
  lastConnected := none

end SerialDriverNode

/-- What happens to a driver: its device file comes or goes, a callback of the derived class
says something of its own or reports the result of an exchange, the timer fires. -/
inductive DriverCall (δ : Type*) where
  | present (data : Bool)
  | own (o : δ)
  | report (error : SerialError) (opens : Bool)
  | healthCheck (i : HealthInput)

/-- A driver with everything it said so far. -/
structure Driver (δ : Type*) where
  node : SerialDriverNode
  log : List (Output δ)

namespace Driver

/-- The driver after an operation that leaves the node `r.1` and says `r.2`. -/
def after (d : Driver δ) (r : SerialDriverNode × List (Output δ)) : Driver δ where
  node := r.1
  log := d.log ++ r.2

theorem after_nil (d : Driver δ) (n : SerialDriverNode) :
    d.after (n, []) = { d with node := n } := by
  rw [after, List.append_nil]

theorem after_after (d : Driver δ) (r r' : SerialDriverNode × List (Output δ)) :
    (d.after r).after r' = d.after (r'.1, r.2 ++ r'.2) := by
  rw [after, after, after, List.append_assoc]

def step (probe : Bool → Exchange → SerialError × List δ) (d : Driver δ) :
    DriverCall δ → Option (Driver δ)
  | .present data => some { d with node := { d.node with port := { d.node.port with present := data } } }
  | .own o => some (d.after (d.node, [.own o]))
  | .report error opens => some (d.after (d.node.handleSerialError opens error))
  | .healthCheck i => some (d.after (d.node.healthCheck probe i))

theorem exec_own (probe : Bool → Exchange → SerialError × List δ) (d : Driver δ) (outs : List δ) : exec (Driver.step probe) d (outs.map .own) =
      some (d.after (d.node, outs.map .own)) := by
  induction outs generalizing d with
  | nil => rw [List.map_nil, List.map_nil, exec_nil, after_nil]
  | cons o rest ih =>
      refine exec_cons_iff.mpr ⟨d.after (d.node, [.own o]), rfl, ?_⟩
      rw [ih, after_after]
      rfl

end Driver

/-! ## The record of the connection -/

namespace Output

/-- The value on `~/connected`. -/
def shown : Output δ → Option Bool
  | .connected data => some data
  | _ => none

/-- The change of the connection that an event reports. -/
def change : Output δ → Option Bool
  | .connectedEvent _ _ => some true
  | .disconnectedEvent _ _ => some false
  | _ => none

def reported : Output δ → Option SerialError
  | .report error => some error
  | _ => none

def attempt : Output δ → Option Nat
  | .reconnectAttempt _ _ count => some count
  | _ => none

def isReset : Output δ → Bool
  | .reset => true
  | _ => false

/-- The part of the log after the last `driver.connected`. -/
def sinceConnected (log : List (Output δ)) : List (Output δ) :=
  log.rtakeWhile fun o => o.change ≠ some true

end Output

open Output

theorem sinceConnected_append {log outs : List (Output δ)} (hc : outs.filterMap change = []) :
    sinceConnected (log ++ outs) = sinceConnected log ++ outs := by
  have hall : ∀ o ∈ outs.reverse, decide (o.change ≠ some true) = true := by
    intro o ho
    rw [List.filterMap_eq_nil_iff.mp hc o (List.mem_reverse.mp ho)]
    rfl
  rw [sinceConnected, sinceConnected, List.rtakeWhile, List.rtakeWhile, List.reverse_append,
    List.takeWhile_append_of_pos hall, List.reverse_append, List.reverse_reverse]

theorem destutter_ne_concat {α : Type*} [DecidableEq α] (l : List α) (x : α) :
    (l ++ [x]).destutter (· ≠ ·) =
      l.destutter (· ≠ ·) ++ if l.getLast? = some x then [] else [x] := by
  have hrun : ∀ (l : List α) (a : α), (l ++ [x]).destutter' (· ≠ ·) a =
      l.destutter' (· ≠ ·) a ++ if (a :: l).getLast? = some x then [] else [x] := by
    intro l
    induction l with
    | nil =>
        intro a
        by_cases ha : a = x <;> simp [ha]
    | cons b l ih =>
        intro a
        by_cases hab : a = b
        · subst hab
          have hlast : (a :: a :: l).getLast? = (a :: l).getLast? := by simp
          rw [List.cons_append, List.destutter'_cons_neg _ (not_not.mpr rfl),
            List.destutter'_cons_neg _ (not_not.mpr rfl), ih, hlast]
        · have hlast : (a :: b :: l).getLast? = (b :: l).getLast? := by simp
          rw [List.cons_append, List.destutter'_cons_pos _ hab,
            List.destutter'_cons_pos _ hab, ih, hlast, List.cons_append]
  cases l with
  | nil => simp
  | cons a l => exact hrun l a

/-- What the node knows is what its log says. -/
structure Recorded (d : Driver δ) : Prop where
  shown : d.node.lastConnected = (d.log.filterMap shown).getLast?
  changes : d.log.filterMap change = (d.log.filterMap Output.shown).destutter (· ≠ ·)
  dropped : d.node.disconnectCount = (d.log.filterMap change).count false
  errors : d.node.consecutiveErrors =
    ((d.log.filterMap reported).rtakeWhile fun e => e ≠ .noError).length
  attempts : d.node.resetAttempts = (sinceConnected d.log).countP isReset
  logged : (sinceConnected d.log).filterMap attempt =
    (List.range' 1 d.node.resetAttempts).filter fun k => k = 1 ∨ k % 10 = 0

namespace Recorded

variable {d : Driver δ}

theorem start (deviceLabel : String) (port : Port) (errorRecoveryCount : Int) :
    Recorded (⟨SerialDriverNode.start deviceLabel port errorRecoveryCount, []⟩ : Driver δ) where
  shown := rfl
  changes := rfl
  dropped := rfl
  errors := rfl
  attempts := rfl
  logged := rfl

/-- The port may change as it likes. -/
theorem port (h : Recorded d) (p : Port) :
    Recorded { d with node := { d.node with port := p } } :=
  ⟨h.shown, h.changes, h.dropped, h.errors, h.attempts, h.logged⟩

/-- Outputs that neither publish nor report a change of the connection. -/
theorem append {n : SerialDriverNode} {outs : List (Output δ)} (h : Recorded d)
    (hs : outs.filterMap Output.shown = []) (hc : outs.filterMap change = [])
    (hlast : n.lastConnected = d.node.lastConnected)
    (hdisc : n.disconnectCount = d.node.disconnectCount)
    (herr : n.consecutiveErrors = ((d.log.filterMap reported ++
      outs.filterMap reported).rtakeWhile fun e => e ≠ .noError).length)
    (hat : n.resetAttempts = d.node.resetAttempts + outs.countP isReset)
    (hlog : outs.filterMap attempt = (List.range' (1 + d.node.resetAttempts)
      (outs.countP isReset)).filter fun k => k = 1 ∨ k % 10 = 0) :
    Recorded (d.after (n, outs)) where
  shown := by
    rw [Driver.after, List.filterMap_append, hs, List.append_nil, hlast]
    exact h.shown
  changes := by
    rw [Driver.after, List.filterMap_append, List.filterMap_append, hs, hc, List.append_nil,
      List.append_nil]
    exact h.changes
  dropped := by
    rw [Driver.after, List.filterMap_append, hc, List.append_nil, hdisc]
    exact h.dropped
  errors := by
    rw [Driver.after, List.filterMap_append]
    exact herr
  attempts := by
    rw [Driver.after, sinceConnected_append hc, List.countP_append, hat, h.attempts]
  logged := by
    rw [Driver.after, sinceConnected_append hc, List.filterMap_append, h.logged, hlog, hat,
      ← List.filter_append]
    congr 1
    rw [← List.range'_append_1]

/-- Outputs that do not report the result of an exchange either. -/
theorem append_silent {n : SerialDriverNode} {outs : List (Output δ)} (h : Recorded d)
    (hs : outs.filterMap Output.shown = []) (hc : outs.filterMap change = [])
    (hr : outs.filterMap reported = []) (hlast : n.lastConnected = d.node.lastConnected)
    (hdisc : n.disconnectCount = d.node.disconnectCount)
    (herr : n.consecutiveErrors = d.node.consecutiveErrors)
    (hat : n.resetAttempts = d.node.resetAttempts + outs.countP isReset)
    (hlog : outs.filterMap attempt = (List.range' (1 + d.node.resetAttempts)
      (outs.countP isReset)).filter fun k => k = 1 ∨ k % 10 = 0) :
    Recorded (d.after (n, outs)) :=
  h.append hs hc hlast hdisc (by rw [hr, List.append_nil, herr]; exact h.errors) hat hlog

theorem own (h : Recorded d) (outs : List δ) :
    Recorded (d.after (d.node, outs.map .own)) := by
  have hnone : ∀ {β : Type} (f : Output δ → Option β), (∀ o, f (.own o) = none) →
      (outs.map Output.own).filterMap f = [] := by
    intro β f hf
    rw [List.filterMap_map, List.filterMap_eq_nil_iff]
    exact fun o _ => hf o
  have hreset : (outs.map Output.own).countP isReset = 0 := by
    rw [List.countP_map, List.countP_eq_zero]
    exact fun o _ => Bool.noConfusion
  refine h.append_silent (hnone _ fun _ => rfl) (hnone _ fun _ => rfl) (hnone _ fun _ => rfl)
    rfl rfl rfl ?_ ?_
  · rw [hreset]
    rfl
  · rw [hreset, hnone _ fun _ => rfl]
    rfl

theorem resetDevice (h : Recorded d) (opens : Bool) (reason : String) :
    Recorded (d.after (d.node.resetDevice opens reason)) := by
  have hone : List.range' (1 + d.node.resetAttempts) 1 = [d.node.resetAttempts + 1] := by
    rw [Nat.add_comm]
    rfl
  simp only [SerialDriverNode.resetDevice]
  by_cases hk : d.node.resetAttempts + 1 = 1 ∨ (d.node.resetAttempts + 1) % 10 = 0
  · rw [if_pos hk]
    refine h.append_silent rfl rfl rfl rfl rfl rfl rfl ?_
    show [d.node.resetAttempts + 1] = (List.range' (1 + d.node.resetAttempts) 1).filter _
    rw [hone, List.filter_singleton, decide_eq_true hk]
    rfl
  · rw [if_neg hk]
    refine h.append_silent rfl rfl rfl rfl rfl rfl rfl ?_
    show [] = (List.range' (1 + d.node.resetAttempts) 1).filter _
    rw [hone, List.filter_singleton, decide_eq_false hk]
    rfl

/-- One more result of an exchange. -/
theorem report (h : Recorded d) (error : SerialError) (n : ℕ)
    (hn : n = if error = .noError then 0 else d.node.consecutiveErrors + 1) :
    Recorded (d.after ({ d.node with consecutiveErrors := n }, [.report error])) := by
  refine h.append rfl rfl rfl rfl ?_ rfl rfl
  show n = (((d.log.filterMap reported) ++ [error]).rtakeWhile fun e => e ≠ .noError).length
  by_cases herr : error = .noError
  · rw [hn, if_pos herr, List.rtakeWhile_concat_neg _ _ _ (by simp [herr]), List.length_nil]
  · rw [hn, if_neg herr, List.rtakeWhile_concat_pos _ _ _ (by simp [herr]), List.length_append,
      h.errors, List.length_singleton]

theorem handleSerialError (h : Recorded d) (opens : Bool) (error : SerialError) :
    Recorded (d.after (d.node.handleSerialError opens error)) := by
  by_cases herr : error = .noError
  · rw [SerialDriverNode.handleSerialError, if_pos herr]
    exact h.report error 0 (if_pos herr).symm
  · have hreport := h.report error (d.node.consecutiveErrors + 1) (if_neg herr).symm
    simp only [SerialDriverNode.handleSerialError, if_neg herr]
    split
    · have hreset := hreport.resetDevice opens "consecutive errors"
      rw [Driver.after_after] at hreset
      exact hreset
    · exact hreport

theorem probeConnection (probe : Bool → Exchange → SerialError × List δ) (h : Recorded d)
    (opens : Bool) (x : Exchange) :
    Recorded (d.after (d.node.probeConnection probe opens x)) := by
  rw [SerialDriverNode.probeConnection]
  split
  · rw [Driver.after_nil]
    exact h
  · have hown := h.own (probe d.node.port.isOpenSerial x).2
    have hreport := hown.handleSerialError opens (probe d.node.port.isOpenSerial x).1
    rw [Driver.after_after] at hreport
    exact hreport

theorem maintain (probe : Bool → Exchange → SerialError × List δ) (h : Recorded d)
    (i : HealthInput) : Recorded (d.after (d.node.maintain probe i)) := by
  rw [SerialDriverNode.maintain]
  split
  · split
    · rw [Driver.after_nil]
      exact h.port _
    · rw [Driver.after_nil]
      exact h
  · split
    · have hreset := h.resetDevice i.opens
        (if d.node.port.isOpenSerial then "consecutive errors" else "port closed")
      have hprobe := hreset.probeConnection probe i.opensAgain i.exchange
      rw [Driver.after_after] at hprobe
      exact hprobe
    · split
      · exact h.probeConnection probe i.opens i.exchange
      · rw [Driver.after_nil]
        exact h

/-- The value is published again: nothing changes. -/
theorem publish_same (h : Recorded d) {b : Bool} (hb : d.node.lastConnected = some b) :
    Recorded (d.after ({ d.node with lastConnected := some b }, [.connected b])) := by
  have hsame : (d.log.filterMap Output.shown).getLast? = some b := h.shown.symm.trans hb
  have hshown : (d.log ++ [Output.connected b]).filterMap Output.shown =
      d.log.filterMap Output.shown ++ [b] := List.filterMap_append
  have hchange : (d.log ++ [Output.connected b]).filterMap change = d.log.filterMap change := by
    rw [List.filterMap_append]
    exact List.append_nil _
  have hsince : sinceConnected (d.log ++ [Output.connected b]) =
      sinceConnected d.log ++ [Output.connected b] := sinceConnected_append rfl
  refine ⟨?_, ?_, ?_, ?_, ?_, ?_⟩
  · rw [Driver.after, hshown, List.getLast?_concat]
  · rw [Driver.after, hshown, hchange, destutter_ne_concat, if_pos hsame, List.append_nil]
    exact h.changes
  · rw [Driver.after, hchange]
    exact h.dropped
  · rw [Driver.after, List.filterMap_append]
    exact h.errors.trans (congrArg (fun l => (List.rtakeWhile _ l).length) (List.append_nil _).symm)
  · rw [Driver.after, hsince, List.countP_append]
    exact h.attempts
  · rw [Driver.after, hsince, List.filterMap_append]
    exact (List.append_nil _).trans h.logged

/-- The first value, or one that differs from the last: an event goes with it. -/
theorem publish_change (h : Recorded d) {b : Bool} (event : Output δ)
    (hb : d.node.lastConnected ≠ some b) (hevent : event.change = some b)
    (hs : event.shown = none) (hr : event.reported = none) (ha : event.attempt = none)
    (hreset : event.isReset = false) :
    Recorded (d.after
      ({ d.node with
          resetAttempts := if b then 0 else d.node.resetAttempts
          disconnectCount := if b then d.node.disconnectCount else d.node.disconnectCount + 1
          lastConnected := some b }, [event, .connected b])) := by
  have hnew : (d.log.filterMap Output.shown).getLast? ≠ some b := h.shown ▸ hb
  have hshown : (d.log ++ [event, Output.connected b]).filterMap Output.shown =
      d.log.filterMap Output.shown ++ [b] := by
    rw [List.filterMap_append, List.filterMap_cons_none hs]
    rfl
  have hchange : (d.log ++ [event, .connected b]).filterMap change =
      d.log.filterMap change ++ [b] := by
    rw [List.filterMap_append, List.filterMap_cons_some hevent]
    rfl
  have hreported : (d.log ++ [event, .connected b]).filterMap reported =
      d.log.filterMap reported := by
    rw [List.filterMap_append, List.filterMap_cons_none hr]
    exact List.append_nil _
  have hsince : sinceConnected (d.log ++ [event, .connected b]) =
      if b then [.connected b] else sinceConnected d.log ++ [event, .connected b] := by
    rw [sinceConnected, List.append_cons, List.rtakeWhile_concat_pos _ _ _ rfl]
    cases b with
    | true =>
        rw [List.rtakeWhile_concat_neg _ _ _ (by simp [hevent])]
        rfl
    | false =>
        rw [List.rtakeWhile_concat_pos _ _ _ (by simp [hevent]), List.append_assoc]
        rfl
  refine ⟨?_, ?_, ?_, ?_, ?_, ?_⟩
  · rw [Driver.after, hshown, List.getLast?_concat]
  · rw [Driver.after, hshown, hchange, destutter_ne_concat, if_neg hnew, h.changes]
  · rw [Driver.after, hchange, List.count_append, ← h.dropped]
    cases b <;> rfl
  · rw [Driver.after, hreported]
    exact h.errors
  · rw [Driver.after, hsince]
    cases b with
    | true => rfl
    | false =>
        show d.node.resetAttempts = (sinceConnected d.log ++ [event, .connected false]).countP _
        rw [List.countP_append, List.countP_cons_of_neg (by rw [hreset]; exact Bool.noConfusion)]
        exact h.attempts
  · rw [Driver.after, hsince]
    cases b with
    | true => rfl
    | false =>
        show (sinceConnected d.log ++ [event, .connected false]).filterMap _ = _
        rw [List.filterMap_append, List.filterMap_cons_none ha]
        exact (List.append_nil _).trans h.logged

theorem publishConnected (h : Recorded d) : Recorded (d.after d.node.publishConnected) := by
  simp only [SerialDriverNode.publishConnected]
  split <;> rename_i hlast
  · exact h.publish_same hlast
  · cases hconn : d.node.isConnected with
    | true =>
        rw [hconn] at hlast
        exact h.publish_change (.connectedEvent d.node.deviceLabel d.node.resetAttempts) hlast rfl rfl rfl rfl rfl
    | false =>
        rw [hconn] at hlast
        exact h.publish_change (.disconnectedEvent d.node.deviceLabel d.node.disconnectReason) hlast
          rfl rfl rfl rfl rfl

theorem healthCheck (probe : Bool → Exchange → SerialError × List δ) (h : Recorded d)
    (i : HealthInput) : Recorded (d.after (d.node.healthCheck probe i)) := by
  have hpublish := (h.maintain probe i).publishConnected
  rw [Driver.after_after] at hpublish
  exact hpublish

theorem step {probe : Bool → Exchange → SerialError × List δ} {d' : Driver δ} {c : DriverCall δ}
    (h : Recorded d) (hc : d.step probe c = some d') : Recorded d' := by
  cases c with
  | present data => exact Option.some.inj hc ▸ h.port _
  | own o => exact Option.some.inj hc ▸ h.own [o]
  | report error opens => exact Option.some.inj hc ▸ h.handleSerialError opens error
  | healthCheck i => exact Option.some.inj hc ▸ h.healthCheck probe i

/-- The count of errors is zero exactly when the last exchange went well, if there was one. -/
theorem errors_zero_iff (h : Recorded d) : d.node.consecutiveErrors = 0 ↔
    ∀ e ∈ (d.log.filterMap reported).getLast?, e = .noError := by
  rw [h.errors, List.length_eq_zero_iff, List.rtakeWhile_eq_nil_iff]
  constructor
  · intro hl e he
    have hne : d.log.filterMap reported ≠ [] := by
      intro hnil
      rw [hnil] at he
      cases he
    have hlast : (d.log.filterMap reported).getLast hne = e := by
      rw [List.getLast?_eq_getLast_of_ne_nil hne] at he
      exact Option.some.inj he
    have hstop := hl hne
    rw [hlast, decide_eq_true_iff, not_not] at hstop
    exact hstop
  · intro he hl
    rw [decide_eq_true_iff, not_not]
    exact he _ (List.getLast?_eq_getLast_of_ne_nil hl)

end Recorded

namespace SerialDriverNode

variable (n : SerialDriverNode)

theorem handleSerialError_errors (opens : Bool) (error : SerialError) :
    (n.handleSerialError (δ := δ) opens error).1.consecutiveErrors =
      if error = .noError then 0 else n.consecutiveErrors + 1 := by
  by_cases herr : error = .noError
  · rw [handleSerialError, if_pos herr, if_pos herr]
  · simp only [handleSerialError, if_neg herr]
    split <;> rfl

theorem handleSerialError_noError (opens : Bool) :
    (n.handleSerialError (δ := δ) opens .noError).1 = { n with consecutiveErrors := 0 } := rfl

/-- A probe leaves no error behind exactly when it went well. -/
theorem probeConnection_connected (probe : Bool → Exchange → SerialError × List δ) (opens : Bool)
    (x : Exchange) (hopen : n.port.isOpenSerial = true) :
    (n.probeConnection probe opens x).1.isConnected = true ↔
      n.port.present = true ∧ (probe true x).1 = .noError := by
  have hprobe : (n.probeConnection probe opens x).1 =
      (n.handleSerialError (δ := δ) opens (probe true x).1).1 := by
    simp only [probeConnection, hopen]
    rfl
  rw [hprobe]
  by_cases herr : (probe true x).1 = .noError
  · rw [herr, handleSerialError_noError, isConnected, hopen]
    simp
  · have hcount := n.handleSerialError_errors (δ := δ) opens (probe true x).1
    rw [if_neg herr] at hcount
    rw [isConnected, hcount]
    simp [herr]

/-- When a health check finds the device connected: its file is there and either nothing has
failed since the last good exchange, or the probe of this check goes well, on a port that had to
be opened again if it was closed or had failed too often. -/
theorem maintain_connected_iff (probe : Bool → Exchange → SerialError × List δ) (i : HealthInput) :
    (n.maintain probe i).1.isConnected = true ↔
      n.port.present = true ∧
        if n.port.isOpenSerial = true ∧ (n.consecutiveErrors : Int) < n.errorRecoveryCount then
          n.consecutiveErrors = 0 ∨ (probe true i.exchange).1 = .noError
        else i.opens = true ∧ (probe true i.exchange).1 = .noError := by
  have hgone : ∀ m : SerialDriverNode, m.port.present = false → m.isConnected = false := by
    intro m hm
    rw [isConnected, hm, Bool.and_false, Bool.false_and]
  cases hpresent : n.port.present with
  | false =>
      have hfalse : (n.maintain probe i).1.isConnected = false := by
        rw [maintain, hpresent]
        cases n.port.isOpenSerial with
        | true => exact hgone { n with port := n.port.closeSerial } hpresent
        | false => exact hgone n hpresent
      rw [hfalse]
      exact ⟨fun h => Bool.noConfusion h, fun h => Bool.noConfusion h.1⟩
  | true =>
      by_cases hsound : n.port.isOpenSerial = true ∧
          (n.consecutiveErrors : Int) < n.errorRecoveryCount
      · obtain ⟨hopen, hfew⟩ := hsound
        have hskip : (!n.port.isOpenSerial ||
            decide (n.errorRecoveryCount ≤ (n.consecutiveErrors : Int))) = false := by
          rw [hopen, decide_eq_false (by omega)]
          rfl
        rw [if_pos ⟨hopen, hfew⟩, maintain, hpresent, hskip]
        by_cases herr : 0 < n.consecutiveErrors
        · have hne : n.consecutiveErrors ≠ 0 := by omega
          have hprobe := n.probeConnection_connected probe i.opens i.exchange hopen
          rw [hpresent] at hprobe
          simpa [herr, hne] using hprobe
        · have hzero : n.consecutiveErrors = 0 := by omega
          simp [isConnected, hopen, hpresent, hzero]
      · have hreset : (!n.port.isOpenSerial ||
            decide (n.errorRecoveryCount ≤ (n.consecutiveErrors : Int))) = true := by
          cases hopen : n.port.isOpenSerial with
          | false => rfl
          | true =>
              have hmany : n.errorRecoveryCount ≤ (n.consecutiveErrors : Int) := by
                by_contra hlt
                exact hsound ⟨hopen, by omega⟩
              rw [decide_eq_true hmany]
              rfl
        let m : SerialDriverNode :=
          { n with resetAttempts := n.resetAttempts + 1, port := n.port.resetSerial i.opens }
        have hmaintain : (n.maintain probe i).1 =
            (m.probeConnection probe i.opensAgain i.exchange).1 := by
          simp only [maintain, hpresent, hreset, Bool.not_true, Bool.false_eq_true, if_false,
            if_true]
          rfl
        have hport : m.port = { isOpenSerial := i.opens, present := true } := by
          show n.port.resetSerial i.opens = _
          rw [Port.resetSerial, hpresent, Bool.true_and]
        rw [if_neg hsound, hmaintain]
        cases hopens : i.opens with
        | true =>
            have hprobe := m.probeConnection_connected probe i.opensAgain i.exchange
              (by rw [hport, hopens])
            rw [hport] at hprobe
            simpa using hprobe
        | false =>
            have hclosed : (m.probeConnection probe i.opensAgain i.exchange).1 = m := by
              rw [probeConnection, hport, hopens]
              rfl
            rw [hclosed, isConnected, hport, hopens]
            simp

theorem not_own_handleSerialError {opens : Bool} {error : SerialError} {o : δ} :
    Output.own o ∉ (n.handleSerialError opens error).2 := by
  have hreset : ∀ (m : SerialDriverNode) (reason : String),
      Output.own o ∉ (m.resetDevice opens reason).2 := by
    intro m reason
    rw [resetDevice]
    split <;> simp
  rw [handleSerialError]
  split
  · simp
  · simp only
    split
    · simp only [List.mem_cons, not_or]
      refine ⟨fun h => ?_, hreset _ _⟩
      cases h
    · simp

/-- What a health check says beyond the record of the connection comes from the probe. -/
theorem mem_probe_of_own {probe : Bool → Exchange → SerialError × List δ} {i : HealthInput} {o : δ}
    (ho : .own o ∈ (n.healthCheck probe i).2) : o ∈ (probe true i.exchange).2 := by
  have hprobe : ∀ (m : SerialDriverNode) (opens : Bool),
      .own o ∈ (m.probeConnection probe opens i.exchange).2 → o ∈ (probe true i.exchange).2 := by
    intro m opens hm
    rw [probeConnection] at hm
    cases hopen : m.port.isOpenSerial with
    | false =>
        rw [hopen] at hm
        exact absurd hm List.not_mem_nil
    | true =>
        rw [hopen] at hm
        rcases List.mem_append.mp hm with hsent | hreport
        · obtain ⟨o', ho', heq⟩ := List.mem_map.mp hsent
          exact Output.own.inj heq ▸ ho'
        · exact absurd hreport (m.not_own_handleSerialError)
  have hpublish : ∀ m : SerialDriverNode, Output.own o ∉ m.publishConnected.2 := by
    intro m
    rw [publishConnected]
    simp only
    split
    · simp
    · split <;> simp
  have hreset : ∀ (reason : String), Output.own o ∉ (n.resetDevice i.opens reason).2 := by
    intro reason
    rw [resetDevice]
    split <;> simp
  rw [healthCheck] at ho
  rcases List.mem_append.mp ho with hmaintain | hshow
  · rw [maintain] at hmaintain
    split at hmaintain
    · exact absurd hmaintain List.not_mem_nil
    · split at hmaintain
      · rcases List.mem_append.mp hmaintain with h | h
        · exact absurd h (hreset _)
        · exact hprobe _ _ h
      · split at hmaintain
        · exact hprobe _ _ hmaintain
        · exact absurd hmaintain List.not_mem_nil
  · exact absurd hshow (hpublish _)

theorem publishConnected_shown :
    ∃ outs : List (Output δ),
      n.publishConnected.2 = outs ++ [.connected n.isConnected] := by
  simp only [publishConnected]
  exact ⟨_, rfl⟩

theorem publishConnected_port : (n.publishConnected (δ := δ)).1.port = n.port := by
  simp only [publishConnected]
  split
  · rfl
  · split <;> rfl

theorem publishConnected_errors :
    (n.publishConnected (δ := δ)).1.consecutiveErrors = n.consecutiveErrors := by
  simp only [publishConnected]
  split
  · rfl
  · split <;> rfl

end SerialDriverNode

variable {probe : Bool → Exchange → SerialError × List δ} {d d' : Driver δ}
  {calls : List (DriverCall δ)}

/-- A health check publishes what its first half found. -/
theorem healthCheck_shown {i : HealthInput} (h : d.step probe (.healthCheck i) = some d') :
    (d'.log.filterMap Output.shown).getLast? =
        some (d.node.maintain probe i).1.isConnected ∧
      d'.node.isConnected = (d.node.maintain probe i).1.isConnected := by
  obtain rfl := Option.some.inj h
  obtain ⟨outs, houts⟩ := (d.node.maintain probe i).1.publishConnected_shown (δ := δ)
  have hlog : (d.after (d.node.healthCheck probe i)).log =
      (d.log ++ (d.node.maintain probe i).2 ++ outs) ++
        [.connected (d.node.maintain probe i).1.isConnected] := by
    show d.log ++ ((d.node.maintain probe i).2 ++
      ((d.node.maintain probe i).1.publishConnected (δ := δ)).2) = _
    rw [houts]
    simp only [List.append_assoc]
  have hnode : (d.after (d.node.healthCheck probe i)).node =
      ((d.node.maintain probe i).1.publishConnected (δ := δ)).1 := rfl
  constructor
  · rw [hlog, List.filterMap_append]
    exact List.getLast?_concat ..
  · rw [hnode, SerialDriverNode.isConnected, SerialDriverNode.publishConnected_port,
      SerialDriverNode.publishConnected_errors, SerialDriverNode.isConnected]

theorem Recorded.run {deviceLabel : String} {port : Port} {errorRecoveryCount : Int}
    (hr : exec (Driver.step probe)
      ⟨SerialDriverNode.start deviceLabel port errorRecoveryCount, []⟩ calls = some d) :
    Recorded d :=
  invariant_of_step (I := Recorded) (fun _ _ _ h hs => h.step hs) (Recorded.start _ _ _) hr

/-- The events `driver.connected` and `driver.disconnected` of a run are the changes of what it
published, `disconnect_count` counts the second kind, and what a health check publishes is true
exactly when the port is open, the device file exists and the last exchange, if any, went well. -/
theorem connection_record {deviceLabel : String} {port : Port} {errorRecoveryCount : Int}
    (hr : exec (Driver.step probe)
      ⟨SerialDriverNode.start deviceLabel port errorRecoveryCount, []⟩ calls = some d) :
    d.log.filterMap change = (d.log.filterMap Output.shown).destutter (· ≠ ·) ∧
      d.node.disconnectCount = (d.log.filterMap change).count false ∧
      ∀ i d', d.step probe (.healthCheck i) = some d' →
        ∃ b, (d'.log.filterMap Output.shown).getLast? = some b ∧
          (b = true ↔ d'.node.port.isOpenSerial = true ∧ d'.node.port.present = true ∧
            ∀ e ∈ (d'.log.filterMap reported).getLast?, e = .noError) := by
  have hrec := Recorded.run hr
  refine ⟨hrec.changes, hrec.dropped, fun i d' hstep => ?_⟩
  obtain ⟨hshown, hconn⟩ := healthCheck_shown hstep
  refine ⟨_, hshown, ?_⟩
  rw [← hconn, ← (hrec.step hstep).errors_zero_iff]
  simp [SerialDriverNode.isConnected, and_assoc]

/-- An exchange that the motor driver answers. -/
def answered : Exchange where
  written := 7
  reply := some [0x96#8, 0x47#8, 0x00#8, 0xdd#8]

/-- A device that is pulled out and put in again, and opens at the second attempt. -/
def pulledOut : List (DriverCall (List Byte)) :=
  [.healthCheck ⟨true, true, answered⟩, .present false, .healthCheck ⟨true, true, answered⟩,
    .present true, .healthCheck ⟨false, false, answered⟩]

/-- The driver after a run from a port that is open. -/
def driven (calls : List (DriverCall (List Byte))) : Option (Driver (List Byte)) :=
  exec (Driver.step MotorDriver.probe)
    ⟨SerialDriverNode.start "motor_driver" ⟨true, true⟩ 4, []⟩ calls

theorem connection_record_pulledOut : ∃ d, driven pulledOut = some d ∧
    [true, false] = [true, false, false].destutter (· ≠ ·) ∧
      d.node.disconnectCount = [true, false].count false ∧
      ∀ i d', d.step MotorDriver.probe (.healthCheck i) = some d' →
        ∃ b, (d'.log.filterMap Output.shown).getLast? = some b ∧
          (b = true ↔ d'.node.port.isOpenSerial = true ∧ d'.node.port.present = true ∧
            ∀ e ∈ (d'.log.filterMap reported).getLast?, e = .noError) := by
  obtain ⟨d, hd⟩ : ∃ d, driven pulledOut = some d := ⟨_, rfl⟩
  have hlog : (driven pulledOut).map (fun d => (d.log.filterMap change,
      d.log.filterMap Output.shown)) = some ([true, false], [true, false, false]) := by decide
  rw [hd] at hlog
  obtain ⟨hchange, hshown⟩ := Prod.mk.inj (Option.some.inj hlog)
  have hrecord := connection_record hd
  rw [hchange, hshown] at hrecord
  exact ⟨d, hd, hrecord⟩

/-- Since the last `driver.connected` the port was opened again `reset_attempts` times, and the
first, the tenth, the twentieth time and so on went into the event log. -/
theorem reconnect_attempts {deviceLabel : String} {port : Port} {errorRecoveryCount : Int}
    (hr : exec (Driver.step probe)
      ⟨SerialDriverNode.start deviceLabel port errorRecoveryCount, []⟩ calls = some d) :
    (sinceConnected d.log).countP isReset = d.node.resetAttempts ∧
      (sinceConnected d.log).filterMap attempt =
        (List.range' 1 d.node.resetAttempts).filter fun k => k = 1 ∨ k % 10 = 0 :=
  ⟨(Recorded.run hr).attempts.symm, (Recorded.run hr).logged⟩

theorem reconnect_attempts_pulledOut : ∃ d, driven pulledOut = some d ∧
    (sinceConnected d.log).countP isReset = 1 ∧
      (sinceConnected d.log).filterMap attempt =
        (List.range' 1 1).filter fun k => k = 1 ∨ k % 10 = 0 := by
  obtain ⟨d, hd⟩ : ∃ d, driven pulledOut = some d := ⟨_, rfl⟩
  have hone : (driven pulledOut).map (fun d => d.node.resetAttempts) = some 1 := by decide
  rw [hd] at hone
  have hone : d.node.resetAttempts = 1 := Option.some.inj hone
  have hattempts := reconnect_attempts hd
  rw [hone] at hattempts
  exact ⟨d, hd, hattempts⟩

/-- Whatever happened before, one health check tells how the device is. It shows a connection
exactly when the device file is there and either the port is open and nothing failed since the
last good exchange, or the probe goes well, on a port that opens again if it was closed or had
failed too often; without the device file the port is closed, and nothing is sent or opened. -/
theorem health_check_recovers {i : HealthInput} (h : d.step probe (.healthCheck i) = some d') :
    ((d'.log.filterMap Output.shown).getLast? = some true ↔
      d.node.port.present = true ∧
        if d.node.port.isOpenSerial = true ∧
            (d.node.consecutiveErrors : Int) < d.node.errorRecoveryCount then
          d.node.consecutiveErrors = 0 ∨ (probe true i.exchange).1 = .noError
        else i.opens = true ∧ (probe true i.exchange).1 = .noError) ∧
      (d.node.port.present = false →
        d'.node.port.isOpenSerial = false ∧
          d'.log = d.log ++ ((if d.node.lastConnected = some false then [] else
            [.disconnectedEvent d.node.deviceLabel "device missing"]) ++ [.connected false])) := by
  refine ⟨?_, fun hgone => ?_⟩
  · rw [(healthCheck_shown h).1, ← d.node.maintain_connected_iff probe i]
    exact ⟨fun hb => Option.some.inj hb, fun hb => congrArg some hb⟩
  · obtain rfl := Option.some.inj h
    let n : SerialDriverNode := { d.node with port := d.node.port.closeSerial }
    have hmaintain : d.node.maintain probe i = (n, []) := by
      simp only [SerialDriverNode.maintain, hgone, Bool.not_false, if_true]
      cases hopen : d.node.port.isOpenSerial with
      | true => rfl
      | false =>
          have hsame : d.node.port.closeSerial = d.node.port := by
            rw [Port.closeSerial, ← hopen]
          simp only [Bool.false_eq_true, if_false, n, hsame]
    have hcheck : d.node.healthCheck probe i = n.publishConnected := by
      rw [SerialDriverNode.healthCheck, hmaintain]
      exact Prod.ext rfl (List.nil_append _)
    have hconn : n.isConnected = false := rfl
    have hreason : n.disconnectReason = "device missing" := by
      show (if !d.node.port.present then "device missing" else _) = _
      rw [hgone]
      rfl
    refine ⟨?_, ?_⟩
    · show (d.node.healthCheck probe i).1.port.isOpenSerial = false
      rw [hcheck, SerialDriverNode.publishConnected_port]
      rfl
    · show d.log ++ (d.node.healthCheck probe i).2 = _
      rw [hcheck]
      simp only [SerialDriverNode.publishConnected, hconn, hreason]
      split <;> rfl

/-- The device that was pulled out is seen missing, and once it is back and open it is shown
connected. -/
theorem health_check_recovers_pulledOut : ∃ d₀ d₁ d d', driven (pulledOut.take 2) = some d₀ ∧
    d₀.step MotorDriver.probe (.healthCheck ⟨true, true, answered⟩) = some d₁ ∧
      d₁.node.port.isOpenSerial = false ∧
      d₁.log = d₀.log ++
        [.disconnectedEvent "motor_driver" "device missing", .connected false] ∧
      driven pulledOut = some d ∧
      d.step MotorDriver.probe (.healthCheck ⟨true, true, answered⟩) = some d' ∧
      (d'.log.filterMap Output.shown).getLast? = some true := by
  obtain ⟨d₀, hd₀, hgone, hlast, hlabel⟩ : ∃ d₀, driven (pulledOut.take 2) = some d₀ ∧
      (d₀.node.port.present = false ∧ d₀.node.lastConnected = some true ∧
        d₀.node.deviceLabel = "motor_driver") := exists_exec (by decide)
  obtain ⟨d, hd, hback, hclosed⟩ : ∃ d, driven pulledOut = some d ∧
      (d.node.port.present = true ∧ d.node.port.isOpenSerial = false) := exists_exec (by decide)
  have hmissing : d₀.step MotorDriver.probe (.healthCheck ⟨true, true, answered⟩) = some _ := rfl
  obtain ⟨hshut, hlog⟩ := (health_check_recovers hmissing).2 hgone
  rw [hlast, hlabel, if_neg (by decide)] at hlog
  have hfound : d.step MotorDriver.probe (.healthCheck ⟨true, true, answered⟩) = some _ := rfl
  have hshown := (health_check_recovers hfound).1.mpr
    ⟨hback, by rw [hclosed]; exact ⟨rfl, rfl⟩⟩
  exact ⟨d₀, _, d, _, hd₀, hmissing, hshut, hlog, hd, hfound, hshown⟩

end MgRobot.Drivers
