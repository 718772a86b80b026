import MgRobot.Lib.Runs
import Mathlib.Algebra.Order.Group.Defs

/-!
# AmclWatchdogNode

The pose callback of the AMCL watchdog and the recovery threads it starts. The
callback runs on the one thread of the executor; it looks at `_in_recovery` under
the lock, and everything it does later happens next to the steps of the recovery
threads. A started thread takes its first step at any later time.
-/

namespace MgRobot.Localization

set_option autoImplicit false

open MgRobot.Lib.Runs

structure WatchdogConfig (R : Type*) where
  threshold : R
  consecCount : Int := 3
  backoff : R
  maxRetries : Int := 3
  minInterval : R

/-- The defaults of the parameters. -/
def WatchdogConfig.defaults {R : Type*} [Zero R] [OfNat R 2] [OfNat R 20] : WatchdogConfig R where
  threshold := 2
  backoff := 20
  minInterval := 0

structure AmclWatchdogNode (R : Type*) where
  consec : Int
  lastEvent : R
  lastRecovery : R
  inRecovery : Bool
  recoveryFailed : Bool
  deriving DecidableEq, Repr

namespace AmclWatchdogNode

variable {R : Type*}

/-- `__init__`. -/
def init [Zero R] : AmclWatchdogNode R := ⟨0, 0, 0, false, false⟩

variable [Sub R] [LE R] [LT R] [DecidableLE R] [DecidableLT R] (cfg : WatchdogConfig R)
  (n : AmclWatchdogNode R)

/-- `_is_anomaly` at the time `now`. -/
def isAnomaly (now value : R) : AmclWatchdogNode R × Bool :=
  if value ≤ cfg.threshold then ({ n with consec := 0 }, false)
  else
    let n := { n with consec := n.consec + 1 }
    if n.consec < cfg.consecCount then (n, false)
    else if now - n.lastEvent < cfg.minInterval then (n, false)
    else ({ n with lastEvent := now, consec := 0 }, true)

/-- `_on_pose` from the metric to the verdict; `none` is a metric that raises. -/
def judge (now : R) : Option R → AmclWatchdogNode R × Bool
  | none => (n, false)
  | some value =>
      let n := if value ≤ cfg.threshold then { n with recoveryFailed := false } else n
      n.isAnomaly cfg now value

end AmclWatchdogNode

/-- How far the pose callback has come. -/
inductive PoseCallback (R : Type*) where
  | idle
  | looked              -- `_in_recovery` was false
  | judged              -- the value is an anomaly
  | timed (now : R)     -- `now = time.monotonic()`
  deriving DecidableEq, Repr

/-- How far a recovery thread has come. -/
inductive RecoveryPhase where
  | pending                     -- started, before its first step
  | attempting (attempt : Int)  -- in `_call_reinit`
  | sleeping (attempt : Int)
  | closing                     -- `_do_recovery` is over, `_in_recovery` is still set
  | left
  deriving DecidableEq, Repr

/-- A recovery thread; `start` is the time of its first step. -/
structure Recovery (R : Type*) where
  phase : RecoveryPhase := .pending
  start : Option R := none
  succeeded : Bool := false
  deriving DecidableEq, Repr

/-- What `_call_reinit` comes to; it raises what the future raises. -/
inductive ReinitOutcome where
  | ok | failed | raised
  deriving DecidableEq, Repr

namespace Recovery

variable {R : Type*} (r : Recovery R)

/-- The thread is in `_recovery_thread`. -/
def Running : Prop := r.phase ≠ .pending ∧ r.phase ≠ .left

/-- The thread has not come to its end. -/
def Alive : Prop := r.phase ≠ .left

instance : Decidable r.Running := inferInstanceAs (Decidable (_ ∧ _))

instance : Decidable r.Alive := inferInstanceAs (Decidable (¬ _))

end Recovery

/-- The node with its callback and its threads, in the order in which they were started. No object
of the source records `sawPending`: a thread had not taken its first step when the callback looked
at the flag. -/
structure WatchdogRun (R : Type*) where
  node : AmclWatchdogNode R
  callback : PoseCallback R
  recoveries : List (Recovery R)
  clock : R
  sawPending : Bool
  deriving DecidableEq, Repr

inductive WatchdogAct (R : Type*) where
  | look
  | judge (value : Option R)
  | readClock
  | decide
  | enter (i : Nat)
  | answer (i : Nat) (outcome : ReinitOutcome)
  | retry (i : Nat)
  | leave (i : Nat)
  deriving DecidableEq, Repr

namespace WatchdogRun

variable {R : Type*}

def init [Zero R] : WatchdogRun R := ⟨.init, .idle, [], 0, false⟩

section Step

variable [AddCommGroup R] [LinearOrder R] (cfg : WatchdogConfig R) (s : WatchdogRun R)

/-- The callback comes out of its backoff check with a thread to start. -/
def Starts : Prop := ∃ now, s.callback = .timed now ∧ ¬ now - s.node.lastRecovery < cfg.backoff

/-- `_on_pose`, the look at the flag. -/
def look : WatchdogRun R :=
  if s.node.inRecovery then s
  else { s with callback := .looked, sawPending := s.recoveries.any fun r => r.phase == .pending }

/-- `_on_pose`, the backoff check and `Thread(...).start()`. -/
def checkBackoff (now : R) : WatchdogRun R :=
  { s with
    callback := .idle
    recoveries :=
      if now - s.node.lastRecovery < cfg.backoff then s.recoveries else s.recoveries ++ [{}] }

def setRecovery (i : Nat) (r : Recovery R) : WatchdogRun R :=
  { s with recoveries := s.recoveries.set i r }

/-- The first step of `_recovery_thread`, up to the first call; the loop may be empty. -/
def enter (i : Nat) (r : Recovery R) : WatchdogRun R :=
  if 1 ≤ cfg.maxRetries then
    { s.setRecovery i { r with phase := .attempting 1, start := some s.clock } with
      node := { s.node with inRecovery := true } }
  else
    { s.setRecovery i { r with phase := .closing, start := some s.clock } with
      node := { s.node with inRecovery := true, recoveryFailed := true } }

/-- `_do_recovery` after an attempt. -/
def answer (i : Nat) (r : Recovery R) (attempt : Int) : ReinitOutcome → WatchdogRun R
  | .ok =>
      { s.setRecovery i { r with phase := .closing, succeeded := true } with
        node := { s.node with lastRecovery := s.clock } }
  | .raised => s.setRecovery i { r with phase := .closing }
  | .failed =>
      if attempt < cfg.maxRetries then s.setRecovery i { r with phase := .sleeping attempt }
      else
        { s.setRecovery i { r with phase := .closing } with
          node := { s.node with recoveryFailed := true } }

/-- The `finally` of `_recovery_thread`. -/
def leave (i : Nat) (r : Recovery R) : WatchdogRun R :=
  { s.setRecovery i { r with phase := .left } with node := { s.node with inRecovery := false } }

/-- An action, once the clock shows its time. -/
def act : WatchdogAct R → Option (WatchdogRun R)
  | .look => if s.callback = .idle then some s.look else none
  | .judge value =>
      if s.callback = .looked then
        let v := s.node.judge cfg s.clock value
        some { s with node := v.1, callback := if v.2 then .judged else .idle }
      else none
  | .readClock =>
      if s.callback = .judged then some { s with callback := .timed s.clock } else none
  | .decide =>
      match s.callback with
      | .timed now => some (s.checkBackoff cfg now)
      | _ => none
  | .enter i =>
      match s.recoveries[i]? with
      | some r => if r.phase = .pending then some (s.enter cfg i r) else none
      | none => none
  | .answer i outcome =>
      match s.recoveries[i]? with
      | some r =>
          match r.phase with
          | .attempting attempt => some (s.answer cfg i r attempt outcome)
          | _ => none
      | none => none
  | .retry i =>
      match s.recoveries[i]? with
      | some r =>
          match r.phase with
          | .sleeping attempt => some (s.setRecovery i { r with phase := .attempting (attempt + 1) })
          | _ => none
      | none => none
  | .leave i =>
      match s.recoveries[i]? with
      | some r => if r.phase = .closing then some (s.leave i r) else none
      | none => none

/-- A step of the system: an action at a time that is not before the last one. -/
def step (s : WatchdogRun R) (e : R × WatchdogAct R) : Option (WatchdogRun R) :=
  if e.1 < s.clock then none else { s with clock := e.1 }.act cfg e.2

end Step

end WatchdogRun

end MgRobot.Localization
