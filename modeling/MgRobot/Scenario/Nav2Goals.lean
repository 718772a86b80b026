import MgRobot.Scenario.RunPlan

/-!
# Nav2GoalsDriver

`run` and `_navigate` of `drivers/nav2_goals.py`, one step for each point at which
the driver waits for something or reads what other threads write.
-/

namespace MgRobot.Scenario

set_option autoImplicit false

structure ActionCall where
  name : String
  location : String  -- `where`
  deriving DecidableEq, Repr

/-- The plan for one goal; its pose is left to the navigator. -/
structure Plan where
  label : String
  before : List ActionCall
  after : List ActionCall
  deriving DecidableEq, Repr

structure Nav2GoalsSpec where
  plans : List Plan
  goalTimeoutSec : ℚ
  deriving DecidableEq, Repr

/-- `TaskResult` of the navigator. -/
inductive TaskResult where
  | unknown
  | succeeded
  | canceled
  | failed
  deriving DecidableEq, Repr

def TaskResult.name : TaskResult → String
  | .unknown => "UNKNOWN"
  | .succeeded => "SUCCEEDED"
  | .canceled => "CANCELED"
  | .failed => "FAILED"

/-- Where the driver is, for goal `i` and action `k` of its hooks. -/
inductive DriverPc where
  | goal (i : Nat)                      -- at the top of the loop
  | before (i k : Nat)                  -- in `run_actions(before)`, before action `k`
  | inBefore (i k : Nat)
  | check (i : Nat)                     -- after the hooks
  | sending (i : Nat)                   -- `to_map`, `expand` and `goToPose`
  | accepted (i : Nat)                  -- computing the deadline
  | polling (i : Nat) (deadline : ℚ)    -- `isTaskComplete`
  | pending (i : Nat) (deadline : ℚ)    -- it is not complete
  | waiting (i : Nat) (deadline : ℚ)    -- and nothing has been aborted
  | complete (i : Nat)                  -- `getResult`
  | after (i k : Nat)                   -- in `run_actions(after)`, before action `k`
  | inAfter (i k : Nat)
  | returned (outcome : Outcome)
  | raised (message : String)           -- a `ScenarioError`
  deriving DecidableEq, Repr

/-- What the driver gets from what it waits for. -/
inductive DriverStep where
  | go
  | returns
  | raises (message : String)
  | sent (accepted : Bool)
  | polled (complete : Bool)
  | clock (now : ℚ)
  | result (r : TaskResult)
  deriving DecidableEq, Repr

structure Driver where
  pc : DriverPc
  reached : Nat
  deriving DecidableEq, Repr

namespace Driver

variable (fixed : Fixed) (spec : Nav2GoalsSpec)

/-- `abort_event` and `abort_reason`, as the driver reads them. -/
structure Abort where
  event : Bool
  reason : Option String
  deriving DecidableEq, Repr

/-- `Outcome(total, reached, i, failure)`. -/
def outcome (d : Driver) (i : Nat) (failure : Option String) : Outcome :=
  ⟨spec.plans.length, d.reached, i, failure⟩

/-- What `run` does with the result of `_navigate`. -/
def settle (d : Driver) (i : Nat) : Option String → Driver
  | some failure => { d with pc := .returned (d.outcome spec i (some failure)) }
  | none => { pc := .after i 0, reached := d.reached + 1 }

/-- `run_actions` before its action `k`: the action to run, or none if it is over. -/
def nextAction (abort : Abort) (calls : List ActionCall) (k : Nat) : Option ActionCall :=
  if abort.event then none else calls[k]?

def step (abort : Abort) (d : Driver) : DriverStep → Option Driver := fun e =>
  match d.pc, e with
  | .goal i, .go =>
      some { d with
        pc :=
          if spec.plans.length ≤ i then .returned ⟨spec.plans.length, d.reached, -1, none⟩
          else if abort.event then .returned (d.outcome spec i abort.reason)
          else .before i 0 }
  | .before i k, .go =>
      spec.plans[i]?.map fun plan =>
        { d with pc := if (nextAction abort plan.before k).isSome then .inBefore i k else .check i }
  | .inBefore i k, .returns => some { d with pc := .before i (k + 1) }
  | .inBefore i k, .raises message =>
      (spec.plans[i]?.bind fun plan => plan.before[k]?).map fun call =>
        { d with pc := .raised (call.location ++ ": " ++ message) }
  | .check i, .go =>
      some { d with
        pc := if abort.event then .returned (d.outcome spec i abort.reason) else .sending i }
  | .sending _, .raises message => some { d with pc := .raised message }
  | .sending i, .sent true => some { d with pc := .accepted i }
  | .sending i, .sent false => some (d.settle spec i (some "goal rejected"))
  | .accepted i, .clock now => some { d with pc := .polling i (now + spec.goalTimeoutSec) }
  | .polling i deadline, .polled false => some { d with pc := .pending i deadline }
  | .polling i _, .polled true => some { d with pc := .complete i }
  | .pending i deadline, .go =>
      some (if abort.event then d.settle spec i abort.reason
        else { d with pc := .waiting i deadline })
  | .waiting i deadline, .clock now =>
      some (if deadline < now then
          d.settle spec i
            (some ("not finished within " ++ fixed 0 spec.goalTimeoutSec ++ "s"))
        else { d with pc := .polling i deadline })
  | .complete i, .result r =>
      some (d.settle spec i
        (if r = .succeeded then none else some ("navigation finished with " ++ r.name)))
  | .after i k, .go =>
      spec.plans[i]?.map fun plan =>
        { d with
          pc := if (nextAction abort plan.after k).isSome then .inAfter i k else .goal (i + 1) }
  | .inAfter i k, .returns => some { d with pc := .after i (k + 1) }
  | .inAfter i k, .raises message =>
      (spec.plans[i]?.bind fun plan => plan.after[k]?).map fun call =>
        { d with pc := .raised (call.location ++ ": " ++ message) }
  | _, _ => none

/-- `run` is over. -/
def ended (d : Driver) : Bool :=
  match d.pc with
  | .returned _ | .raised _ => true
  | _ => false

/-- The goal for which the step reads the abort event outside the hooks. -/
def readsAt (d : Driver) (e : DriverStep) : Option Nat :=
  match d.pc, e with
  | .goal i, .go => if i < spec.plans.length then some i else none
  | .check i, .go | .pending i _, .go => some i
  | _, _ => none

/-- The goal to which the navigation fails by itself. -/
def failsAt (d : Driver) (e : DriverStep) : Option Nat :=
  match d.pc, e with
  | .sending i, .sent accepted => if accepted then none else some i
  | .waiting i deadline, .clock now => if deadline < now then some i else none
  | .complete i, .result r => if r = .succeeded then none else some i
  | _, _ => none

end Driver

end MgRobot.Scenario
