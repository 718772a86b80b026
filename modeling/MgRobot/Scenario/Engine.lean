import MgRobot.Lib.Runs
import MgRobot.Scenario.Timeline

/-!
# ScenarioEngine

A scenario from the moment the run driver starts: the driver, the timeline with
the threads of its items, and the engine, which waits for the driver and then
judges the run. Any of them may take the next step.
-/

namespace MgRobot.Scenario

set_option autoImplicit false

open MgRobot.Lib.Runs

structure Config where
  fixed : Fixed
  timeline : TimelineSpec
  driver : Nav2GoalsSpec
  monitors : List String
  expect : List Expectation

/-- Where `execute` is; the outcome is the driver's, if the run is `executed`. -/
inductive EnginePc where
  | running
  | returned (outcome : Outcome)                      -- about to emit `run_finished`
  | emitted (outcome : Outcome)                       -- about to read `abort_is_error`
  | stopping (executed : Option Outcome)
  | items (executed : Option Outcome) (k : Nat)       -- in `timeline.checks()`
  | errors (executed : Option Outcome)
  | monitors (executed : Option Outcome) (k : Nat)
  | teardown (executed : Option Outcome)
  | expecting (executed : Option Outcome) (k : Nat)
  | done (status : ResultStatus)
  deriving DecidableEq, Repr

/-- What the engine gets from the clock, the monitors, the teardown and the expectations. -/
inductive EngineStep where
  | go
  | emit (now : ℚ)
  | monitor (status : ResultStatus) (message : String)
  | teardown (errors : List String)
  | expect (answer : Answer)

inductive Event where
  | driver (e : DriverStep)
  | loop (e : LoopStep)
  | item (k : Nat) (e : ItemStep)
  | engine (e : EngineStep)

def Event.isLoop : Event → Bool
  | .loop _ => true
  | _ => false

namespace EnginePc

/-- `abort_is_error` has been read. -/
def looked : EnginePc → Bool
  | running | returned _ | emitted _ => false
  | _ => true

/-- The errors of the timeline have been collected. -/
def collected : EnginePc → Bool
  | running | returned _ | emitted _ | stopping _ | items _ _ | errors _ => false
  | _ => true

/-- Item `k` is still to be checked. -/
def awaits (k : Nat) : EnginePc → Bool
  | running | returned _ | emitted _ | stopping _ => true
  | items _ j => j ≤ k
  | _ => false

end EnginePc

structure World where
  abort : AbortState
  driver : Driver
  timeline : Timeline
  engine : EnginePc
  finishedAt : Option ℚ  -- the event `run_finished`
  checks : List CheckResult
  deriving DecidableEq, Repr

namespace World

variable (cfg : Config)

def init : World where
  abort := ⟨false, none, false⟩
  driver := ⟨.goal 0, 0⟩
  timeline := .initial cfg.timeline
  engine := .running
  finishedAt := none
  checks := []

/-- Where `execute` goes on, and the checks it appends. -/
def engineStep (w : World) (e : EngineStep) : Option (EnginePc × List CheckResult) :=
  match w.engine, e with
  | .running, .go =>
      match w.driver.pc with
      | .returned outcome => some (.returned outcome, [])
      | .raised message => some (.stopping none, [⟨"execution", .error, message⟩])
      | _ => none
  | .returned outcome, .emit _ => some (.emitted outcome, [])
  | .emitted outcome, .go =>
      if w.abort.isError then
        some (.stopping none, [⟨"execution", .error, w.abort.reason.getD "None"⟩])
      else some (.stopping (some outcome), [])
  | .stopping executed, .go => some (.items executed 0, [])
  | .items executed k, .go =>
      match cfg.timeline.entries[k]?, w.timeline.items[k]? with
      | some entry, some item =>
          some (.items executed (k + 1), Timeline.itemCheck cfg.fixed entry item)
      | _, _ => some (.errors executed, [])
  | .errors executed, .go => some (.monitors executed 0, w.timeline.errorChecks)
  | .monitors executed k, .monitor status message =>
      cfg.monitors[k]?.map fun name =>
        (.monitors executed (k + 1), [⟨"monitor:" ++ name, status, message⟩])
  | .monitors executed k, .go =>
      if cfg.monitors.length ≤ k then some (.teardown executed, []) else none
  | .teardown executed, .teardown errors =>
      some (.expecting executed 0, errors.map fun e => ⟨"teardown", .error, e⟩)
  | .expecting (some outcome) k, .expect answer =>
      cfg.expect[k]?.map fun x =>
        (.expecting (some outcome) (k + 1),
          [x.check cfg.fixed cfg.timeline.start w.finishedAt outcome answer])
  | .expecting executed k, .go =>
      if executed = none ∨ cfg.expect.length ≤ k then some (.done (aggregate w.checks), [])
      else none
  | _, _ => none

def step (w : World) : Event → Option World
  | .driver e =>
      (w.driver.step cfg.fixed cfg.driver w.abort.read e).map fun d => { w with driver := d }
  | .loop e =>
      (w.timeline.loopStep cfg.fixed cfg.timeline w.abort e).map fun (t, a) =>
        { w with timeline := t, abort := a }
  | .item k e =>
      (w.timeline.itemStep cfg.timeline w.abort k e).map fun (t, a) =>
        { w with timeline := t, abort := a }
  | .engine e =>
      (w.engineStep cfg e).map fun (pc, checks) =>
        { w with
          engine := pc
          checks := w.checks ++ checks
          finishedAt :=
            match w.engine, e with
            | .returned _, .emit now => some now
            | _, _ => w.finishedAt
          timeline :=
            match w.engine with
            | .stopping _ => w.timeline.stopAll
            | _ => w.timeline }

/-- The loop observes that the timeout is exceeded, and `run` has not returned. -/
def ObservesTimeout (w : World) : Event → Prop
  | .loop (.elapsed now) =>
      w.timeline.pc = .timeout ∧ w.driver.ended = false ∧ cfg.timeline.exceeded now = true
  | _ => False

instance (w : World) : ∀ e, Decidable (w.ObservesTimeout cfg e)
  | .loop (.elapsed _) => inferInstanceAs (Decidable (_ ∧ _ ∧ _))
  | .loop .go | .loop (.clocks _ _) | .loop (.poll _ _) | .loop (.pollRaises _) => isFalse id
  | .driver _ | .item _ _ | .engine _ => isFalse id

/-- The timeout is observed in the run, before the driver returns. -/
def TimedOut (events : List Event) : Prop :=
  ¬ Meets (step cfg) (fun w e => ¬ w.ObservesTimeout cfg e) (init cfg) events

instance (events : List Event) : Decidable (TimedOut cfg events) := inferInstanceAs (Decidable (¬ _))

/-! ## Where the driver is stopped -/

/-- The loop has observed the timeout and has come two steps further, and the driver reads the
event for goal `i`. -/
def ReadsTimeout (events : List Event) (i : Nat) : Prop :=
  ∃ pre now mid e post u v, events = pre ++ .loop (.elapsed now) :: mid ++ .driver e :: post ∧
    exec (step cfg) (init cfg) pre = some u ∧ u.ObservesTimeout cfg (.loop (.elapsed now)) ∧
    exec (step cfg) (init cfg) (pre ++ .loop (.elapsed now) :: mid) = some v ∧
    2 ≤ mid.countP Event.isLoop ∧ v.driver.readsAt cfg.driver e = some i

/-- The navigation to goal `i` fails. -/
def NavigationFails (events : List Event) (i : Nat) : Prop :=
  ∃ pre e post v, events = pre ++ .driver e :: post ∧
    exec (step cfg) (init cfg) pre = some v ∧ v.driver.failsAt e = some i

def StoppedAt (events : List Event) (i : Nat) : Prop :=
  ReadsTimeout cfg events i ∨ NavigationFails cfg events i

/-! ## What else can go wrong -/

/-- The step appends to the errors of the timeline. -/
def Records (w : World) : Event → Prop
  | .loop .go => ∃ k message, w.timeline.pc = .itemFailed k (.record message)
  | .item k .go =>
      ∃ item message, w.timeline.items[k]? = some item ∧ item.thread = .failing (.record message)
  | _ => False

/-- The step aborts for a stalled clock, and nobody has given another reason. -/
def TakesStall (w : World) : Event → Prop
  | .loop .go => w.timeline.pc = .stallReason ∧ w.abort.reason = none
  | _ => False

/-- The trigger of item `k` fires. -/
def Fires (k : Nat) (w : World) : Event → Prop
  | .loop (.poll fires _) => w.timeline.pc = .item k ∧ fires = true
  | _ => False

/-- Nothing but the timeout and the navigation goes wrong with the step: nothing raises or stalls
while the engine still looks, and what the engine gets is as it should be. -/
def Sound (w : World) (e : Event) : Prop :=
  (w.TakesStall e → w.engine.looked = true) ∧ (w.Records e → w.engine.collected = true) ∧
    match e with
    | .driver (.raises _) => False
    | .engine (.emit now) => ∀ sec, .timeLimit sec ∈ cfg.expect → now - cfg.timeline.start ≤ sec
    | .engine (.monitor status _) => status = .passed
    | .engine (.teardown errors) => errors = []
    | .engine (.expect answer) => ∀ executed k name, w.engine = .expecting executed k →
        cfg.expect[k]? = some (.other name) → ∃ message, answer = .ok (.passed, message)
    | _ => True

/-- The trigger of item `k` fires before the engine checks the item. -/
def FiresInTime (events : List Event) (k : Nat) : Prop :=
  ¬ Meets (step cfg) (fun w e => ¬ (w.Fires k e ∧ w.engine.awaits k = true)) (init cfg) events

/-- A step is not sound, or the trigger of a required item does not fire in time. -/
def FailsOtherwise (events : List Event) : Prop :=
  ¬ Meets (step cfg) (Sound cfg) (init cfg) events ∨
    ∃ k entry, cfg.timeline.entries[k]? = some entry ∧ entry.required = true ∧
      ¬ FiresInTime cfg events k

end World

/-- The expectation is met by a driver that is stopped at these goals, whatever else it asks. -/
def Expectation.MetBy (stopped : Nat → Prop) : Expectation → Prop
  | reachedAll => ∀ i, ¬ stopped i
  | navigationFails index => ∃ i, stopped i ∧ ∀ j ∈ index, (i : Int) = j
  | timeLimit _ | other _ => True

end MgRobot.Scenario
