import MgRobot.Lib.OrderedMap
import MgRobot.Lib.Resumption

/-!
# The services of the system manager

`config.py`: the services that the API operates on, the part of the settings
that its requests read, and the patterns that their bodies have to match.
-/

namespace MgRobot.SystemManager

set_option autoImplicit false

structure ServiceSpec where
  key : String
  label : String
  layer : Option String
  hardware : Bool
  deriving DecidableEq, Repr

def SERVICES : List ServiceSpec :=
  [⟨"foxglove-bridge", "Foxglove Bridge", some "core", false⟩,
    ⟨"navigation", "Navigation", some "function", true⟩,
    ⟨"slam", "SLAM", some "function", true⟩,
    ⟨"slam-gnss-2d", "SLAM GNSS 2D", none, true⟩,
    ⟨"waypoint-editor", "Waypoint Editor", some "tool", false⟩,
    ⟨"gazebo-simulation", "Gazebo Simulation", some "tool", false⟩,
    ⟨"rviz2", "RViz2", some "tool", false⟩,
    ⟨"rviz2-navigation", "RViz2 Navigation", some "tool", false⟩,
    ⟨"rviz2-slam", "RViz2 SLAM", some "tool", false⟩,
    ⟨"scenario-test", "Scenario Test", none, false⟩,
    ⟨"map-preview", "Map Preview", none, false⟩,
    ⟨"reoptimize-slam", "Reoptimize SLAM", none, false⟩,
    ⟨"scenario-remote-stack", "Scenario Remote Stack", none, false⟩,
    ⟨"scenario-env", "Scenario Env", none, false⟩]

def SERVICE_KEYS : List String := SERVICES.map ServiceSpec.key

def HARDWARE_SERVICE_KEYS : List String :=
  (SERVICES.filter ServiceSpec.hardware).map ServiceSpec.key

def SCENARIO_STACK_SERVICE : String := "scenario-remote-stack"
def SCENARIO_TEST_SERVICE : String := "scenario-test"
def SCENARIO_ENV_SERVICE : String := "scenario-env"
def MAP_PREVIEW_SERVICE : String := "map-preview"
def REOPTIMIZE_SERVICE : String := "reoptimize-slam"
def ROSBAG_REPLAY_SERVICE : String := "rosbag-replay"
def GAZEBO_SERVICE : String := "gazebo-simulation"

structure Settings where
  simulationWorld : String
  scenarioStackAllowedPackages : List String
  scenarioDirs : List String
  scenarioResultsDir : String
  scenarioProfile : String
  scenarioRosDomainId : String
  deriving DecidableEq, Repr

/-- `re.match` of a pattern `^[first][rest]*$`; `$` also matches before a final newline. -/
def reMatch (first rest : Char → Bool) (s : String) : Bool :=
  let chars := s.toList
  match if chars.getLast? = some '\n' then chars.dropLast else chars with
  | [] => false
  | c :: cs => first c && cs.all rest

def isAsciiAlnum (c : Char) : Bool :=
  ('a' ≤ c ∧ c ≤ 'z') ∨ ('A' ≤ c ∧ c ≤ 'Z') ∨ ('0' ≤ c ∧ c ≤ '9')

def isPathChar (c : Char) : Bool := isAsciiAlnum c || c ∈ ['/', '_', '-', '.']

def PATH_RE : String → Bool := reMatch isPathChar isPathChar

def ARG_KEY_RE : String → Bool :=
  reMatch (fun c => (isAsciiAlnum c && !c.isDigit) || c = '_') fun c => isAsciiAlnum c || c = '_'

def isNameChar (c : Char) : Bool := isAsciiAlnum c || c = '_' || c = '-'

def SCENARIO_NAME_RE : String → Bool := reMatch isNameChar isNameChar

def HOST_RE : String → Bool :=
  reMatch isAsciiAlnum fun c => isAsciiAlnum c || c = '.' || c = '-'

/-- `str.strip` -/
def strip (s : String) : String :=
  let isSpace (c : Char) : Bool :=
    c.val ∈ [0x85, 0xa0, 0x1680, 0x2028, 0x2029, 0x202f, 0x205f, 0x3000] ∨
      (9 ≤ c.val ∧ c.val ≤ 13) ∨ (28 ≤ c.val ∧ c.val ≤ 32) ∨ (0x2000 ≤ c.val ∧ c.val ≤ 0x200a)
  String.ofList ((s.toList.dropWhile isSpace).reverse.dropWhile isSpace).reverse

/-- A list of service names as Python prints it. -/
def reprKeys (keys : List String) : String :=
  "[" ++ ", ".intercalate (keys.map fun k => "'" ++ k ++ "'") ++ "]"

example : HARDWARE_SERVICE_KEYS = ["navigation", "slam", "slam-gnss-2d"] := rfl

end MgRobot.SystemManager

/-!
# ComposeRunner

`docker_ops.py` as programs over the locks and the Docker engine: one action for
each attempt at a lock, each query and each end of a command. The methods keep
their names; the status cache is left out, as the requests that act on a status
ask for a fresh one.
-/

namespace MgRobot.SystemManager

set_option autoImplicit false

open MgRobot.Lib MgRobot.Lib.Resumption

/-- `State` of a container. -/
inductive ContainerState where
  | created
  | running
  | restarting
  | paused
  | exited
  | dead
  deriving DecidableEq, Repr

structure Container where
  id : Nat
  service : String
  state : ContainerState
  deriving DecidableEq, Repr

abbrev Status := OrderedMap String ContainerState

/-- How a query or a command ends. -/
inductive Outcome where
  | completed (returncode : Int) (stdout stderr : String)
  | timedOut
  | raised (message : String)
  deriving DecidableEq, Repr

namespace Outcome

def isCompleted : Outcome → Bool
  | completed _ _ _ => true
  | timedOut | raised _ => false

/-- What a query or an operation on a container gives. -/
def result {α : Type} (outcome : Outcome) (value : α) : Except String α :=
  match outcome with
  | completed _ _ _ => .ok value
  | timedOut => .error "timed out"
  | raised message => .error message

end Outcome

inductive Exn where
  | busy (message : String)
  | docker (message : String)
  | runtime (message : String)
  deriving DecidableEq, Repr

inductive Action where
  | acquire (key : String)
  | release (key : String)
  | containers
  | list (service : String)
  | stop (container : Container) (timeout : Option Nat)
  | remove (container : Container)
  | composeBegin (args : List String) (env : List (String × String)) (timeout : Nat)
  | composeEnd (args : List String)
  | strftime
  deriving DecidableEq, Repr

@[reducible]
def Action.Response : Action → Type
  | .acquire _ | .release _ => Bool
  | .containers | .list _ => Except String (List Container)
  | .stop _ _ | .remove _ => Except String Unit
  | .composeBegin _ _ _ => Unit
  | .composeEnd _ => Outcome
  | .strftime => String

abbrev Program (α : Type) := Prog Action Action.Response Exn α

def EXCLUSIVE_SERVICES : List String := HARDWARE_SERVICE_KEYS ++ [SCENARIO_STACK_SERVICE]
def EXCLUSIVE_GROUP : String := "<hardware-exclusive>"

/-- The loop of `_fetch_status`: of several containers of a service, one that runs. -/
def noteContainer (status : Status) (item : Container) : Status :=
  if status.get? item.service = some .running then status
  else status.set item.service item.state

def fetchStatus (raw : List Container) : Status := raw.foldl noteContainer .empty

namespace ComposeRunner

variable {α : Type}

def tryAcquire (key : String) : Program Bool := Prog.perform (Action.acquire key)

def release (key : String) : Program Unit := do
  let owned : Bool ← Prog.perform (Action.release key)
  if owned then pure () else .raise (.runtime "cannot release un-acquired lock")

/-- The `with` block of `operation`: it takes the locks in turn, and releases those it has
taken in the reverse order. -/
def withLocks (service : String) : List String → Program α → Program α
  | [], body => body
  | key :: keys, body => do
      let acquired ← tryAcquire key
      if acquired then (withLocks service keys body).tryFinally (release key)
      else .raise (.busy ("another operation is in progress: " ++ service))

def operationKeys (service : String) (exclusive : Bool) : List String :=
  service :: if exclusive ∧ service ∈ EXCLUSIVE_SERVICES then [EXCLUSIVE_GROUP] else []

def operation (service : String) (exclusive : Bool) (body : Program α) : Program α :=
  withLocks service (operationKeys service exclusive) body

/-- `except BusyError as e: return False, str(e)` -/
def catchBusy (p : Program (Bool × String)) : Program (Bool × String) :=
  p.tryCatch fun
    | .busy message => pure (false, message)
    | e => .raise e

def compose (args : List String) (env : List (String × String)) (timeout : Nat) :
    Program (Bool × String) := do
  Prog.perform (Action.composeBegin args env timeout)
  let outcome : Outcome ← Prog.perform (Action.composeEnd args)
  match outcome with
  | .completed returncode stdout stderr =>
      if returncode = 0 then pure (true, strip stdout) else pure (false, strip stderr)
  | .timedOut => pure (false, "command timed out")
  | .raised message => pure (false, message)

def up (service : String) (env : List (String × String)) (timeout : Nat)
    (extraArgs : List String) : Program (Bool × String) :=
  catchBusy (operation service true (compose (["up", "-d"] ++ extraArgs ++ [service]) env timeout))

def restart (service : String) : Program (Bool × String) :=
  catchBusy (operation service true (compose ["restart", service] [] 60))

/-- `_list`: the containers of a service, those that run first. -/
def list (service : String) : Program (List Container) := do
  let result : Except String (List Container) ← Prog.perform (Action.list service)
  match result with
  | .ok containers =>
      pure (containers.filter (fun c => c.state = .running) ++
        containers.filter fun c => c.state ≠ .running)
  | .error message => .raise (.docker message)

def getContainer (service : String) : Program (Option Container) := do
  pure (← list service).head?

/-- `get_status(fresh=True)` -/
def getStatus : Program Status := do
  let result : Except String (List Container) ← Prog.perform Action.containers
  match result with
  | .ok raw => pure (fetchStatus raw)
  | .error message => .raise (.docker message)

/-- The loop of `_stop`, up to the first exception. -/
def stopAll (timeout : Option Nat) : List Container → Program (Bool × String)
  | [] => pure (true, "")
  | container :: rest => do
      let result : Except String Unit ← Prog.perform (Action.stop container timeout)
      match result with
      | .ok _ => stopAll timeout rest
      | .error message => pure (false, message)

/-- `_stop` -/
def stopContainers (service : String) (timeout : Option Nat) : Program (Bool × String) := do
  let containers ← list service
  if containers.isEmpty then pure (false, "container not found: " ++ service)
  else
    let targets := containers.filter fun c => c.state = .running
    stopAll timeout (if targets.isEmpty then containers.take 1 else targets)

def stop (service : String) (timeout : Option Nat) : Program (Bool × String) :=
  catchBusy (operation service false (stopContainers service timeout))

def remove (service : String) : Program (Bool × String) := do
  match ← getContainer service with
  | none => pure (true, "not found")
  | some container =>
      let result : Except String Unit ← Prog.perform (Action.remove container)
      match result with
      | .ok _ => pure (true, "")
      | .error message => pure (false, message)

/-- The loop of `remove_stopped`; a failure is only logged. -/
def removeAll : List Container → Program Unit
  | [] => pure ()
  | container :: rest => do
      if container.state = .running then removeAll rest
      else
        let _ : Except String Unit ← Prog.perform (Action.remove container)
        removeAll rest

def removeStopped (service : String) : Program Unit := do
  removeAll (← list service)

end ComposeRunner

/-! ## What the programs share -/

/-- The engine's containers, the compose commands in progress with the thread and the service
they are for, the locks with their owners and depths, and the status each thread was last told
and has not acted on. -/
structure Host where
  containers : List Container
  commands : List (Nat × String)
  locks : String → Option (Nat × Nat)
  seen : Nat → Option Status

def composeService (args : List String) : String := args.getLastD ""

namespace Host

variable (h : Host)

def running (service : String) : Bool :=
  h.containers.any fun c => c.service = service ∧ c.state = .running

/-- Another thread has a command for the service in progress. -/
def startedByOther (i : Nat) (service : String) : Bool :=
  h.commands.any fun e => e.1 ≠ i ∧ e.2 = service

/-- `RLock.acquire(blocking=False)` by thread `i`. -/
def acquire (i : Nat) (key : String) : Host × Bool :=
  match h.locks key with
  | none => ({ h with locks := Function.update h.locks key (some (i, 1)) }, true)
  | some (owner, depth) =>
      if owner = i then
        ({ h with locks := Function.update h.locks key (some (i, depth + 1)) }, true)
      else (h, false)

/-- `RLock.release`: whether thread `i` owns the lock. -/
def release (i : Nat) (key : String) : Host × Bool :=
  match h.locks key with
  | none => (h, false)
  | some (owner, depth) =>
      if owner ≠ i then (h, false)
      else
        let left := if depth ≤ 1 then none else some (i, depth - 1)
        ({ h with locks := Function.update h.locks key left }, true)

def perform (i : Nat) (action : Action) (outcome : Outcome) : Host × action.Response :=
  match action with
  | .acquire key => h.acquire i key
  | .release key => h.release i key
  | .containers =>
      (if outcome.isCompleted then
        { h with seen := Function.update h.seen i (some (fetchStatus h.containers)) }
      else h, outcome.result h.containers)
  | .list service => (h, outcome.result (h.containers.filter fun c => c.service = service))
  | .stop container _ =>
      (if outcome.isCompleted then
        { h with containers := h.containers.map fun c =>
            if c.id = container.id then { c with state := .exited } else c }
      else h, outcome.result ())
  | .remove container =>
      (if outcome.isCompleted then
        { h with containers := h.containers.filter fun c => c.id ≠ container.id }
      else h, outcome.result ())
  | .composeBegin args _ _ =>
      ({ h with
          commands := h.commands ++ [(i, composeService args)]
          seen := Function.update h.seen i none }, ())
  | .composeEnd _ => ({ h with commands := h.commands.filter fun e => e.1 ≠ i }, outcome)
  | .strftime =>
      (h, match outcome with
        | .completed _ stdout _ => stdout
        | .timedOut | .raised _ => "")

/-- The engine changes the containers on its own; a service comes up only while a command for
it is in progress. -/
def engine (containers : List Container) : Option Host :=
  if ∀ c ∈ containers, c.state = .running →
      h.running c.service ∨ ∃ e ∈ h.commands, e.2 = c.service then
    some { h with containers := containers }
  else none

end Host

end MgRobot.SystemManager
