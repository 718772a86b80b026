import MgRobot.Scenario.Nav2Goals

/-!
# Timeline

The loop of `engine/timeline.py`, the threads of its items, and the part of the
context they share with the run driver. `abort` is two steps: it takes the
reason under the lock and then sets the event.
-/

namespace MgRobot.Scenario

set_option autoImplicit false

/-- `abort_event`, `abort_reason` and `abort_is_error` of the context. -/
structure AbortState where
  event : Bool
  reason : Option String
  isError : Bool
  deriving DecidableEq, Repr

namespace AbortState

/-- The first reason counts. -/
def take (a : AbortState) (reason : String) (error : Bool) : AbortState :=
  if a.reason = none then { a with reason := some reason, isError := error } else a

def set (a : AbortState) : AbortState := { a with event := true }

def read (a : AbortState) : Driver.Abort := ⟨a.event, a.reason⟩

end AbortState

structure TimelineEntry where
  label : String
  required : Bool
  hasUntil : Bool
  actions : List ActionCall  -- `do`
  deriving DecidableEq, Repr

/-- Where a thread is in `_fail`. -/
inductive FailPc where
  | record (message : String)
  | reason (message : String)
  | event
  deriving DecidableEq, Repr

/-- Where the thread of an item is in `_run_item`. -/
inductive ThreadPc where
  | notStarted
  | next (k : Nat)
  | inAction (k : Nat)
  | failing (pc : FailPc)
  | ended
  deriving DecidableEq, Repr

/-- `_Item`. -/
structure Item where
  firedAt : Option ℚ
  finished : Bool
  interrupted : Bool
  stop : Bool
  thread : ThreadPc
  deriving DecidableEq, Repr

def Item.initial : Item := ⟨none, false, false, false, .notStarted⟩

/-- Where the loop is. -/
inductive LoopPc where
  | starting                           -- about to read both clocks
  | head
  | stall                              -- about to read the clocks
  | stallReason
  | stallEvent
  | timeout                            -- about to compare the elapsed time
  | timeoutReason                      -- the timeout has been observed
  | timeoutEvent
  | item (k : Nat)
  | untilPoll (k : Nat)
  | itemFailed (k : Nat) (pc : FailPc)
  | sleeping
  | ended
  deriving DecidableEq, Repr

/-- What the loop gets from the clocks and the triggers it reads. -/
inductive LoopStep where
  | go
  | clocks (sim wall : ℚ)
  | elapsed (now : ℚ)
  | poll (fires : Bool) (now : ℚ)
  | pollRaises (message : String)
  deriving DecidableEq, Repr

inductive ItemStep where
  | go
  | returns
  | raises (message : String)
  deriving DecidableEq, Repr

structure Timeline where
  pc : LoopPc
  stop : Bool
  lastSim : ℚ
  lastChange : ℚ
  items : List Item
  errors : List String
  deriving DecidableEq, Repr

/-- What the timeline reads of the scenario and its profile. -/
structure TimelineSpec where
  timeout : Option ℚ
  clockStallSec : ℚ
  entries : List TimelineEntry
  start : ℚ  -- `run_start_time`
  deriving DecidableEq, Repr

/-- `timeout is not None and elapsed() > timeout`. -/
def TimelineSpec.exceeded (spec : TimelineSpec) (now : ℚ) : Bool :=
  spec.timeout.any fun timeout => timeout < now - spec.start

namespace Timeline

variable (fixed : Fixed) (spec : TimelineSpec)

def initial : Timeline where
  pc := .starting
  stop := false
  lastSim := 0
  lastChange := 0
  items := spec.entries.map fun _ => .initial
  errors := []

/-- One step of `_fail`, and where it goes on (`none`: it returns). -/
def fail (t : Timeline) (a : AbortState) : FailPc → (Timeline × AbortState) × Option FailPc
  | .record message => (({ t with errors := t.errors ++ [message] }, a), some (.reason message))
  | .reason message => ((t, a.take ("timeline error: " ++ message) false), some .event)
  | .event => ((t, a.set), none)

def setItem (t : Timeline) (k : Nat) (item : Item) : Timeline :=
  { t with items := t.items.set k item }

/-- The thread of item `k`. -/
def itemStep (t : Timeline) (a : AbortState) (k : Nat) (e : ItemStep) :
    Option (Timeline × AbortState) := do
  let entry ← spec.entries[k]?
  let item ← t.items[k]?
  match item.thread, e with
  | .next j, .go =>
      if item.stop = false ∧ j < entry.actions.length then
        some (t.setItem k { item with thread := .inAction j }, a)
      else
        some (t.setItem k
          { item with
            thread := .ended
            interrupted := item.interrupted || item.stop
            finished := true }, a)
  | .inAction j, .returns => some (t.setItem k { item with thread := .next (j + 1) }, a)
  | .inAction j, .raises message =>
      entry.actions[j]?.map fun call =>
        (t.setItem k
          { item with
            thread := .failing (.record
              (entry.label ++ ": " ++ call.location ++ ": " ++ message)) }, a)
  | .failing pc, .go =>
      let ((t', a'), pc') := t.fail a pc
      some (t'.setItem k
        (match pc' with
        | some pc' => { item with thread := .failing pc' }
        | none => { item with thread := .ended, finished := true }), a')
  | _, _ => none

/-- `_fail` is called for a trigger that raised. -/
def pollFailed (t : Timeline) (k : Nat) (entry : TimelineEntry) (message : String) : Timeline :=
  { t with pc := .itemFailed k (.record (entry.label ++ ": " ++ message)) }

/-- `_step`, up to the poll of `until`. -/
def stepItem (t : Timeline) (k : Nat) (item : Item) (entry : TimelineEntry) :
    LoopStep → Option Timeline := fun e =>
  if item.firedAt = none then
    match e with
    | .poll true now =>
        some { t.setItem k { item with firedAt := some (now - spec.start), thread := .next 0 } with
          pc := .item (k + 1) }
    | .poll false _ => some { t with pc := .item (k + 1) }
    | .pollRaises message => some (t.pollFailed k entry message)
    | _ => none
  else
    match e with
    | .go =>
        some { t with
          pc :=
            if item.finished = false ∧ entry.hasUntil ∧ item.stop = false then .untilPoll k
            else .item (k + 1) }
    | _ => none

/-- The rest of `_step`. -/
def pollUntil (t : Timeline) (k : Nat) (item : Item) (entry : TimelineEntry) :
    LoopStep → Option Timeline
  | .poll true _ =>
      some { t.setItem k { item with interrupted := true, stop := true } with pc := .item (k + 1) }
  | .poll false _ => some { t with pc := .item (k + 1) }
  | .pollRaises message => some (t.pollFailed k entry message)
  | _ => none

/-- The loop of `_loop`. -/
def loopStep (t : Timeline) (a : AbortState) (e : LoopStep) : Option (Timeline × AbortState) :=
  match t.pc, e with
  | .starting, .clocks sim wall =>
      some ({ t with pc := .head, lastSim := sim, lastChange := wall }, a)
  | .head, .go => some ({ t with pc := if t.stop then .ended else .stall }, a)
  | .stall, .clocks sim wall =>
      if sim ≠ t.lastSim then
        some ({ t with pc := .timeout, lastSim := sim, lastChange := wall }, a)
      else if spec.clockStallSec < wall - t.lastChange then some ({ t with pc := .stallReason }, a)
      else some ({ t with pc := .timeout }, a)
  | .stallReason, .go =>
      some ({ t with pc := .stallEvent }, a.take
        ("simulation clock stalled for " ++ fixed 0 spec.clockStallSec ++ "s (wall)") true)
  | .stallEvent, .go => some ({ t with pc := .timeout }, a.set)
  | .timeout, .elapsed now =>
      some ({ t with pc := if spec.exceeded now then .timeoutReason else .item 0 }, a)
  | .timeoutReason, .go =>
      some ({ t with pc := .timeoutEvent }, a.take
        ("scenario timeout (" ++ fixed 0 (spec.timeout.getD 0) ++ "s sim time)") false)
  | .timeoutEvent, .go => some ({ t with pc := .item 0 }, a.set)
  | .item k, e =>
      match t.items[k]?, spec.entries[k]? with
      | some item, some entry => (t.stepItem spec k item entry e).map (·, a)
      | _, _ =>
          match e with
          | .go => some ({ t with pc := .sleeping }, a)
          | _ => none
  | .untilPoll k, e =>
      match t.items[k]?, spec.entries[k]? with
      | some item, some entry => (t.pollUntil k item entry e).map (·, a)
      | _, _ => none
  | .itemFailed k pc, .go =>
      let ((t', a'), pc') := t.fail a pc
      some ({ t' with
        pc :=
          match pc' with
          | some pc' => .itemFailed k pc'
          | none => .item (k + 1) }, a')
  | .sleeping, .go => some ({ t with pc := .head }, a)
  | _, _ => none

/-- `stop`, but for the joins: they end at the latest by a timeout. -/
def stopAll (t : Timeline) : Timeline :=
  { t with stop := true, items := t.items.map fun item => { item with stop := true } }

/-- The check for an item, if there is one. -/
def itemCheck (entry : TimelineEntry) (item : Item) : List CheckResult :=
  match item.firedAt with
  | none =>
      if entry.required then
        [⟨entry.label, .error, "never triggered (set required: false if this is intended)"⟩]
      else []
  | some firedAt =>
      [⟨entry.label, .passed, "fired at t=" ++ fixed 1 firedAt ++ "s, " ++
        if item.interrupted then "interrupted" else "completed"⟩]

def errorChecks (t : Timeline) : List CheckResult :=
  t.errors.map fun e => ⟨"timeline", .error, e⟩

theorem allPassed_itemCheck {entry : TimelineEntry} {item : Item} :
    AllPassed (itemCheck fixed entry item) ↔ ¬(entry.required = true ∧ item.firedAt = none) := by
  unfold itemCheck
  cases item.firedAt with
  | none =>
      cases entry.required with
      | false => simp [AllPassed]
      | true => simp [AllPassed]
  | some firedAt => simp [AllPassed]

theorem allPassed_errorChecks {t : Timeline} : AllPassed t.errorChecks ↔ t.errors = [] := by
  cases h : t.errors with
  | nil => simp [AllPassed, errorChecks, h]
  | cons e errors => simp [AllPassed, errorChecks, h]

end Timeline

end MgRobot.Scenario
