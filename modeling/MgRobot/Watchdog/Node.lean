import MgRobot.Lib.OrderedMap
import MgRobot.Lib.Runs
import MgRobot.Watchdog.Activity

/-!
# DriverWatchdogNode

The callbacks of `driver_watchdog_node.py`, which one thread runs one after the
other, with the restart policy and the terminator of `driver_watchdog_core.py`.
-/

namespace MgRobot.Watchdog

set_option autoImplicit false

open MgRobot.Lib MgRobot.Lib.Runs

variable {R : Type*} [Field R] [LinearOrder R]

structure RestartPolicy (R : Type*) where
  restartAfter : R
  cooldown : R
  lastRestart : Option R

def RestartPolicy.shouldRestart (p : RestartPolicy R) (now staleSec : R) :
    RestartPolicy R × Bool :=
  if staleSec < p.restartAfter then (p, false)
  else if p.lastRestart.any fun last => now - last < p.cooldown then (p, false)
  else ({ p with lastRestart := some now }, true)

inductive Signal where
  | term
  | kill
  deriving DecidableEq, Repr

/-- What the node says and does to the outside. -/
inductive Output (R : Type*) where
  | warn (text : String)
  | stale (source topic reason : String) (staleSec : R)
  | recovered (source topic : String)
  | restartRequested (source node : String) (pids : List Nat) (staleSec : R)
  | restartFailed (source node reason : String) (staleSec : R)
  | pauseChanged (active : Bool) (sources : String)
  | pauseRequest (requesterId : String) (active : Bool) (reason : String)
  | signal (pid : Nat) (signal : Signal)

structure ProcessTerminator (R : Type*) where
  killTimeout : R
  pending : OrderedMap Nat (String × R)

namespace ProcessTerminator

variable (t : ProcessTerminator R) (findPids : String → List Nat)

def terminate (nodeName : String) (now : R) :
    ProcessTerminator R × List Nat × List (Output R) :=
  let pids := findPids nodeName
  ({ t with
      pending := pids.foldl (fun p pid => p.set pid (nodeName, now + t.killTimeout)) t.pending },
    pids, pids.map fun pid => .signal pid .term)

def escalate (now : R) : ProcessTerminator R × List (Output R) :=
  t.pending.entries.foldl
    (fun (t, out) (pid, nodeName, deadline) =>
      if pid ∉ findPids nodeName then ({ t with pending := t.pending.erase pid }, out)
      else if deadline ≤ now then
        ({ t with pending := t.pending.erase pid }, out ++ [.signal pid .kill])
      else (t, out))
    (t, [])

end ProcessTerminator

structure WatchedSource (R : Type*) where
  id : String
  topic : String
  expectedHz : R
  faultLevel : FaultLevel
  restartNode : String
  monitor : ActivityMonitor R
  policy : RestartPolicy R
  restarts : Nat
  faulted : Bool

structure WatchdogConfig (R : Type*) where
  hzWarnRatio : R
  pauseOnFault : Bool
  pauseRequester : String
  restartEnabled : Bool
  fixed : Nat → R → String  -- `format(x, '.nf')`
  round : R → R             -- `round(x, 1)`

structure DriverWatchdogNode (R : Type*) where
  guard : TickGuard R
  terminator : ProcessTerminator R
  sources : List (WatchedSource R)
  pausedBy : List String

namespace DriverWatchdogNode

variable (cfg : WatchdogConfig R) (findPids : String → List Nat)

def describe (w : WatchedSource R) : String :=
  if w.monitor.disconnected then "reports disconnected" else "no data"

def logTransition (w : WatchedSource R) (faulted : Bool) (now : R) : List (Output R) :=
  if faulted && !w.faulted then
    [.stale w.id w.topic (describe w) (cfg.round (w.monitor.staleSec now))]
  else if !faulted && w.faulted then [.recovered w.id w.topic]
  else []

def restart (t : ProcessTerminator R) (w : WatchedSource R) (now : R) :
    ProcessTerminator R × WatchedSource R × List (Output R) :=
  let (t, pids, out) := t.terminate findPids w.restartNode now
  let staleSec := cfg.round (w.monitor.staleSec now)
  (t, { w with restarts := w.restarts + 1 }, out ++
    [if pids.isEmpty then .restartFailed w.id w.restartNode "process not found" staleSec
      else .restartRequested w.id w.restartNode pids staleSec])

/-- The monitor after its part of `_check`. -/
def checkMonitor (monitor : ActivityMonitor R) (now : R) (lagged : Bool) : ActivityMonitor R :=
  (if lagged then monitor.forgive now else monitor).update now

/-- The loop of `_check` for one source. -/
def checkSource (t : ProcessTerminator R) (w : WatchedSource R) (now : R) (lagged : Bool) :
    ProcessTerminator R × WatchedSource R × List (Output R) :=
  let monitor := checkMonitor w.monitor now lagged
  let out := logTransition cfg { w with monitor := monitor } monitor.faulted now
  let w := { w with monitor := monitor, faulted := monitor.faulted }
  if cfg.restartEnabled && w.restartNode ≠ "" && !lagged then
    let (policy, should) := w.policy.shouldRestart now (w.monitor.staleSec now)
    let w := { w with policy := policy }
    if should then
      let (t, w, more) := restart cfg findPids t w now
      (t, w, out ++ more)
    else (t, w, out)
  else (t, w, out)

def checkSources (t : ProcessTerminator R) (now : R) (lagged : Bool) :
    List (WatchedSource R) → ProcessTerminator R × List (WatchedSource R) × List (Output R)
  | [] => (t, [], [])
  | w :: rest =>
      let (t, w, out) := checkSource cfg findPids t w now lagged
      let (t, rest, more) := checkSources t now lagged rest
      (t, w :: rest, out ++ more)

/-- `_check`. -/
def check (n : DriverWatchdogNode R) (now : R) : DriverWatchdogNode R × List (Output R) :=
  let (guard, lagged) := n.guard.check now
  let warning : List (Output R) :=
    if lagged then [.warn "watchdog tick was delayed; skipping restart this cycle"] else []
  let (t, sources, out) := checkSources cfg findPids n.terminator now lagged n.sources
  let (t, killed) := t.escalate findPids now
  ({ n with guard := guard, terminator := t, sources := sources }, warning ++ out ++ killed)

/-- `_publish_pause`. -/
def publishPause (n : DriverWatchdogNode R) : DriverWatchdogNode R × List (Output R) :=
  if !cfg.pauseOnFault then (n, [])
  else
    let faulted := (n.sources.filter fun w => w.faulted).map fun w => w.id
    let request : Output R :=
      .pauseRequest cfg.pauseRequester (!faulted.isEmpty) (", ".intercalate faulted)
    if faulted = n.pausedBy then (n, [request])
    else
      ({ n with pausedBy := faulted },
        [request, .pauseChanged (!faulted.isEmpty) (",".intercalate faulted)])

/-- The subscription of source `i` records a message. -/
def onMessage (n : DriverWatchdogNode R) (i : Nat) (now : R) (ok : Bool) : DriverWatchdogNode R :=
  { n with sources := n.sources.modify i fun w => { w with monitor := w.monitor.onMessage now ok } }

/-- `TopicHealthTask.run` of source `i`. -/
def diagnose (n : DriverWatchdogNode R) (i : Nat) (now : R) : DriverWatchdogNode R :=
  { n with
    sources := n.sources.modify i fun w =>
      { w with
        monitor := (evaluateTopicHealth cfg.fixed w.monitor now w.expectedHz cfg.hzWarnRatio
          w.faultLevel).1 } }

/-- The callbacks of the node, with the times they read. -/
inductive Callback (R : Type*) where
  | message (i : Nat) (now : R) (ok : Bool)
  | check (now : R) (findPids : String → List Nat)
  | diagnose (i : Nat) (now : R)
  | publishPause

def Callback.time : Callback R → Option R
  | .message _ now _ | .check now _ | .diagnose _ now => some now
  | .publishPause => none

end DriverWatchdogNode

/-- The node and the latest reading of `time.monotonic`, which never goes back. -/
structure World (R : Type*) where
  node : DriverWatchdogNode R
  clock : R

namespace World

open DriverWatchdogNode

variable (cfg : WatchdogConfig R)

def run (n : DriverWatchdogNode R) : Callback R → DriverWatchdogNode R
  | .message i now ok => n.onMessage i now ok
  | .check now findPids => (n.check cfg findPids now).1
  | .diagnose i now => n.diagnose cfg i now
  | .publishPause => (n.publishPause cfg).1

def step (w : World R) (c : Callback R) : Option (World R) :=
  if c.time.all fun now => w.clock ≤ now then
    some ⟨run cfg w.node c, c.time.getD w.clock⟩
  else none

/-- The monitor of source `i`. -/
def monitor? (w : World R) (i : Nat) : Option (ActivityMonitor R) :=
  w.node.sources[i]?.map WatchedSource.monitor

end World

end MgRobot.Watchdog
