import Mathlib.Algebra.Order.Ring.Rat
import Mathlib.Data.List.Basic
import Mathlib.Data.List.DropRight
import Mathlib.Data.List.Infix

/-!
# Results of a scenario

`engine/result.py` and the expectations of `builtin/expectations.py`.
-/

namespace MgRobot.Scenario

set_option autoImplicit false

inductive ResultStatus where
  | passed
  | failed
  | error
  deriving DecidableEq, Repr

structure CheckResult where
  name : String
  status : ResultStatus
  message : String
  deriving DecidableEq, Repr

/-- What a run driver returns. -/
structure Outcome where
  total : Nat
  reached : Nat
  failedIndex : Int
  failure : Option String
  deriving DecidableEq, Repr

def aggregate (checks : List CheckResult) : ResultStatus :=
  let statuses := checks.map CheckResult.status
  if .error ∈ statuses then .error
  else if .failed ∈ statuses then .failed
  else .passed

def AllPassed (checks : List CheckResult) : Prop := ∀ c ∈ checks, c.status = .passed

theorem aggregate_eq_passed_iff {checks : List CheckResult} :
    aggregate checks = .passed ↔ AllPassed checks := by
  unfold aggregate
  constructor
  · intro h c hc
    have hmem : c.status ∈ checks.map CheckResult.status := List.mem_map.mpr ⟨c, hc, rfl⟩
    dsimp only at h
    split_ifs at h with he hf
    cases hs : c.status with
    | passed => rfl
    | failed => exact absurd (hs ▸ hmem) hf
    | error => exact absurd (hs ▸ hmem) he
  · intro h
    have hnot : ∀ s, s ≠ .passed → s ∉ checks.map CheckResult.status := by
      rintro s hs hmem
      obtain ⟨c, hc, rfl⟩ := List.mem_map.mp hmem
      exact hs (h c hc)
    dsimp only
    rw [if_neg (hnot .error nofun), if_neg (hnot .failed nofun)]

theorem allPassed_append {checks more : List CheckResult} :
    AllPassed (checks ++ more) ↔ AllPassed checks ∧ AllPassed more := List.forall_mem_append

theorem allPassed_singleton {c : CheckResult} : AllPassed [c] ↔ c.status = .passed :=
  List.forall_mem_singleton

/-- `format(x, '.nf')`. -/
abbrev Fixed := Nat → ℚ → String

/-- The expectations of `builtin/expectations.py`. `final_pose_error`, which measures a floating
point distance, is answered from outside, as those of plugins are. -/
inductive Expectation where
  | reachedAll
  | timeLimit (sec : ℚ)
  | navigationFails (index : Option Int)
  | other (name : String)
  deriving DecidableEq, Repr

/-- What an expectation implemented elsewhere returns, or the message of the `ScenarioError`. -/
abbrev Answer := Except String (ResultStatus × String)

namespace Expectation

def name : Expectation → String
  | reachedAll => "reached_all"
  | timeLimit _ => "time_limit"
  | navigationFails _ => "navigation_fails"
  | other name => name

/-- Status and message of the check; `finished` is the time of the event `run_finished`. -/
def judge (fixed : Fixed) (start : ℚ) (finished : Option ℚ) (outcome : Outcome)
    (answer : Answer) : Expectation → ResultStatus × String
  | reachedAll =>
      let count := toString outcome.reached ++ "/" ++ toString outcome.total ++ " reached"
      if outcome.failure = none ∧ outcome.reached = outcome.total then (.passed, count)
      else (.failed, count ++ "; goal " ++ toString outcome.failedIndex ++ ": " ++
        outcome.failure.getD "None")
  | timeLimit sec =>
      match finished with
      | none => (.error, "run did not finish")
      | some time =>
          (if time - start ≤ sec then .passed else .failed,
            fixed 1 (time - start) ++ "s (limit " ++ fixed 1 sec ++ "s)")
  | navigationFails index =>
      match outcome.failure with
      | none => (.failed, "navigation unexpectedly succeeded")
      | some failure =>
          match index with
          | some i =>
              if outcome.failedIndex ≠ i then
                (.failed, "failed at goal " ++ toString outcome.failedIndex ++ ", expected " ++
                  toString i)
              else (.passed, "failed at goal " ++ toString outcome.failedIndex ++
                " as expected: " ++ failure)
          | none => (.passed, "failed at goal " ++ toString outcome.failedIndex ++
              " as expected: " ++ failure)
  | other _ =>
      match answer with
      | .ok result => result
      | .error message => (.error, message)

/-- The check that `_evaluate_expectations` appends. -/
def check (fixed : Fixed) (start : ℚ) (finished : Option ℚ) (outcome : Outcome) (answer : Answer)
    (x : Expectation) : CheckResult :=
  let (status, message) := x.judge fixed start finished outcome answer
  ⟨"expect:" ++ x.name, status, message⟩

end Expectation

end MgRobot.Scenario

/-!
# Planned runs

`_run` of `cli.py`: the runs of a suite with their result directories, and the attempts
of each run. What a run yields is given by its place in the plan and the attempt.
-/

namespace MgRobot.Scenario

set_option autoImplicit false

/-! ## `os.path` -/

def basename (path : String) : String := String.ofList (path.toList.rtakeWhile fun c => c ≠ '/')

/-- `os.path.splitext(path)[0]`; the dots a file name starts with do not begin an extension. -/
def splitextRoot (path : String) : String :=
  let stem := ((path.toList.rtakeWhile fun c => c ≠ '/').rdropWhile fun c => c ≠ '.').dropLast
  if stem.all fun c => c = '.' then path
  else String.ofList (path.toList.rdropWhile fun c => c ≠ '.').dropLast

/-- `os.path.join`. -/
def joinPath (directory path : String) : String :=
  if path.toList.head? = some '/' then path
  else if directory.toList.getLast?.all fun c => c = '/' then directory ++ path
  else directory ++ "/" ++ path

/-! ## The plan -/

structure PlannedRun where
  name : String
  scenarioFile : String
  outDir : String
  deriving DecidableEq, Repr

/-- The arguments of `run` and `run-all` that the plan reads. -/
structure PlanArgs where
  resultsDir : String
  repeatCount : Int
  infraRetries : Int

def nameOf (path : String) : String := splitextRoot (basename path)

def repeatSuffix (args : PlanArgs) (k : Nat) : String :=
  if 1 < args.repeatCount then "_run" ++ toString (k + 1) else ""

def plannedRun (args : PlanArgs) (k : Nat) (path : String) : PlannedRun :=
  ⟨nameOf path, path, joinPath args.resultsDir (nameOf path ++ repeatSuffix args k)⟩

def planned (args : PlanArgs) (scenarios : List String) : List PlannedRun :=
  (List.range args.repeatCount.toNat).flatMap fun k => scenarios.map (plannedRun args k)

/-! ## The attempts -/

structure RunRecord where
  name : String
  status : ResultStatus
  message : String
  elapsedSec : ℚ
  resultDir : String
  checks : List CheckResult
  deriving DecidableEq, Repr

def INFRASTRUCTURE_MARKERS : List String :=
  ["no result was produced", "readiness timeout", "simulation clock stalled", "timed out after",
    "remote stack"]

def isInfrastructureError (record : RunRecord) : Bool :=
  record.status = .error ∧
    INFRASTRUCTURE_MARKERS.any fun marker => marker.toList <:+: record.message.toList

def attemptDir (outDir : String) (attempt : Nat) : String :=
  if attempt = 0 then outDir else outDir ++ "_retry" ++ toString attempt

/-- The inner loop over the attempts `from`, …: the directories used, and the last record. -/
def attempts (results : Nat → RunRecord) (outDir : String) :
    Nat → Nat → List String × Option RunRecord
  | 0, _ => ([], none)
  | n + 1, attempt =>
      let record := results attempt
      if isInfrastructureError record ∧ 0 < n then
        let rest := attempts results outDir n (attempt + 1)
        (attemptDir outDir attempt :: rest.1, rest.2)
      else ([attemptDir outDir attempt], some record)

/-- The outer loop; `results` is asked for the place of a run in the plan and the attempt. -/
def runAll (args : PlanArgs) (results : Nat → Nat → RunRecord) (runs : List PlannedRun) :
    List (List String × Option RunRecord) :=
  runs.mapIdx fun index run => attempts (results index) run.outDir (args.infraRetries + 1).toNat 0

example : nameOf "/app/scenarios/door.v2.yaml" = "door.v2" := by decide

end MgRobot.Scenario
