import Mathlib.Data.Finset.Sort
import Mathlib.Data.String.Basic
import MgRobot.Sequencer.Navigator

/-!
# WaypointSequencerFSM

The state enumeration of the sequencer with its transition table, and the state
machine's record and its operations. Each operation runs under the
FSM lock and is one `Turn`: the new record, the calls it makes on the outside
in order, and whether it ended in an `IndexError`. `send_goal` is always the
last call, so an operation is over when its turn is, but for the wait inside
`send_goal`.
-/

namespace MgRobot.Sequencer

set_option autoImplicit false

structure CommandResult where
  success : Bool
  message : String
  deriving DecidableEq, Repr

inductive SequencerState where
  -- stable states
  | idle
  | navigating
  | goalReached
  | suspended
  | error
  -- processing in progress
  | onStarting
  | onArriving
  deriving DecidableEq, Repr

namespace SequencerState

def value : SequencerState → String
  | idle => "IDLE"
  | navigating => "NAVIGATING"
  | goalReached => "GOAL_REACHED"
  | suspended => "SUSPENDED"
  | error => "ERROR"
  | onStarting => "ON_STARTING"
  | onArriving => "ON_ARRIVING"

end SequencerState

open SequencerState in
/-- `ALLOWED_TRANSITIONS`. -/
def allowedTransitions : SequencerState → List SequencerState
  | idle => [onStarting]
  | onStarting => [navigating, suspended, idle]
  | navigating => [navigating, onArriving, goalReached, idle, error, suspended]
  | onArriving => [navigating, goalReached, idle, suspended]
  | goalReached => [onStarting, idle]
  | suspended => [onStarting, navigating, idle]
  | error => [idle]

variable {R : Type*}

/-- `str.__repr__`; `isPrintable` is the table behind `str.isprintable`. -/
def pyRepr (isPrintable : Char → Bool) (s : String) : String :=
  let single := Char.ofNat 39
  let double := Char.ofNat 34
  let backslash := Char.ofNat 92
  let quote := if s.toList.contains single && !s.toList.contains double then double else single
  let hex (width n : Nat) : String :=
    let digits := String.ofList (Nat.toDigits 16 n)
    String.ofList (List.replicate (width - digits.length) '0') ++ digits
  let escape (c : Char) : String :=
    if c = quote || c = backslash then String.ofList [backslash, c]
    else if c.toNat = 9 then String.ofList [backslash, 't']
    else if c.toNat = 10 then String.ofList [backslash, 'n']
    else if c.toNat = 13 then String.ofList [backslash, 'r']
    else if 32 ≤ c.toNat && c.toNat < 127 then c.toString
    else if 128 ≤ c.toNat && isPrintable c then c.toString
    else if c.toNat < 256 then String.ofList [backslash, 'x'] ++ hex 2 c.toNat
    else if c.toNat < 65536 then String.ofList [backslash, 'u'] ++ hex 4 c.toNat
    else String.ofList [backslash, 'U'] ++ hex 8 c.toNat
  quote.toString ++ String.join (s.toList.map escape) ++ quote.toString

/-- The check of `_advance_to_next` for a `wait_trigger` action. -/
def Waypoint.waitsForTrigger (w : Waypoint R) : Bool :=
  w.onReachedActions.any fun a => a.type = "wait_trigger"

def navigationModes : List String := ["normal", "queue_wait"]

def manualGoalModes : List String := navigationModes ++ [defaultBtMode]

/-- `MANUAL_GOAL_STATES`. -/
def manualGoalStates : List SequencerState := [.idle, .goalReached, .error]

/-- Clock readings are in nanoseconds. -/
structure CountdownTimer where
  running : Bool
  durationMs : Int
  startNs : Int
  generation : Nat
  deriving DecidableEq, Repr

namespace CountdownTimer

def cancel (c : CountdownTimer) : CountdownTimer :=
  { c with generation := c.generation + 1, running := false }

def start (c : CountdownTimer) (durationMs nowNs : Int) : CountdownTimer :=
  { c.cancel with durationMs := max 0 durationMs, startNs := nowNs, running := true }

def remainingMs (c : CountdownTimer) (nowNs : Int) : Int :=
  if c.running then max 0 ((c.durationMs * 10 ^ 6 - (nowNs - c.startNs)).tdiv (10 ^ 6)) else 0

end CountdownTimer

/-- The result callbacks the state machine passes to `send_goal`. -/
inductive Callback where
  | sequence  -- `_on_navigation_result`
  | manual    -- `_on_manual_goal_result`
  deriving DecidableEq, Repr

/-- A call on the navigator, a timer, the executor, a publisher or the logger. -/
inductive Call (R : Type*) where
  | cancel
  | sendGoal (waypoint : Waypoint R) (resultCallback : Callback) (navigationMode : String)
  | startTimer (durationMs : Int) (generation : Nat)
  | execute (actions : List ActionConfig) (waypointIndex : Int)
  | publishNavigationMode (mode : String)
  | invalidTransition (old new : SequencerState)
  deriving DecidableEq, Repr

structure SequencerFsm (R : Type*) where
  state : SequencerState
  waypoints : WaypointList R
  currentIndex : Int
  stopPending : Bool
  preSuspendState : SequencerState
  savedCountdownMs : Int
  navigationMode : String
  manualGoalActive : Bool
  waitingTrigger : Bool
  countdownTimer : CountdownTimer
  pauseSlots : Finset String

structure Turn (R : Type*) where
  fsm : SequencerFsm R
  calls : List (Call R) := []
  raised : Bool := false

/-- `_publish_navigation_mode`: the fields of the JSON text it publishes. -/
def navigationModeMsg (cfg : NavConfig R) (mode : String) : String × String :=
  (mode, ((behaviorTreeFor cfg mode).splitOn "/").getLastD "")

namespace Turn

variable (t : Turn R)

def call (c : Call R) : Turn R := { t with calls := t.calls ++ [c] }

/-- `_transition`. -/
def transition (newState : SequencerState) : Turn R :=
  if newState ∈ allowedTransitions t.fsm.state then
    { t with fsm := { t.fsm with state := newState, waitingTrigger := false } }
  else t.call (.invalidTransition t.fsm.state newState)

def enterOnStarting (countdownMs nowNs : Int) : Turn R :=
  let t := t.transition .onStarting
  let timer := t.fsm.countdownTimer.start countdownMs nowNs
  { t with fsm := { t.fsm with countdownTimer := timer } }.call
    (.startTimer timer.durationMs timer.generation)

def enterNavigating : Turn R :=
  match t.fsm.waypoints.get t.fsm.currentIndex with
  | none => { t with raised := true }
  | some waypoint =>
      let t := t.transition .navigating
      t.call (.sendGoal waypoint .sequence t.fsm.navigationMode)

/-- The loop body of `_enter_on_arriving`. -/
def setNavigationMode (action : ActionConfig) : Turn R :=
  if action.type = "set_navigation_mode" then
    { t with fsm := { t.fsm with navigationMode := action.mode } }.call
      (.publishNavigationMode action.mode)
  else t

def enterOnArriving (actions : List ActionConfig) : Turn R :=
  let t := actions.foldl setNavigationMode (t.call .cancel)
  let t := t.transition .onArriving
  t.call (.execute actions t.fsm.currentIndex)

def advanceToNext : Turn R :=
  if t.fsm.stopPending then
    let t := { t with fsm := { t.fsm with stopPending := false, pauseSlots := ∅ } }
    (t.call .cancel).transition .idle
  else
    match t.fsm.waypoints.get t.fsm.currentIndex with
    | none => { t with raised := true }
    | some waypoint =>
        let t := { t with fsm := { t.fsm with currentIndex := t.fsm.currentIndex + 1 } }
        if (t.fsm.waypoints.getSize : Int) ≤ t.fsm.currentIndex then
          (t.call .cancel).transition .goalReached
        else if waypoint.waitsForTrigger then
          let t := (t.call .cancel).transition .idle
          { t with fsm := { t.fsm with waitingTrigger := t.fsm.state == .idle } }
        else if t.fsm.pauseSlots ≠ ∅ then
          let t := t.call .cancel
          let t := { t with fsm := { t.fsm with preSuspendState := .navigating } }
          t.transition .suspended
        else t.enterNavigating

end Turn

namespace SequencerFsm

variable (f : SequencerFsm R)

/-- `requesters` of the pause slots. -/
def pauseRequesters : List String := f.pauseSlots.sort

def pausedMessage : String := "Paused by " ++ ", ".intercalate f.pauseRequesters

/-- `_manual_goal_rejection`. -/
def manualGoalRejection (isPrintable : Char → Bool) (navigationMode : String) : Option String :=
  if navigationMode ∉ manualGoalModes then
    some ("Unknown navigation_mode " ++ pyRepr isPrintable navigationMode ++
      "; expected one of (" ++ ", ".intercalate (manualGoalModes.map (pyRepr isPrintable)) ++ ")")
  else if f.state ∉ manualGoalStates then
    some ("Cannot send a manual goal in state " ++ f.state.value ++ "; stop the sequence first")
  else if f.pauseSlots ≠ ∅ then some f.pausedMessage
  else none

/-- The conditions of `_manual_goal_rejection`. -/
def AcceptsManualGoal (navigationMode : String) : Prop :=
  navigationMode ∈ manualGoalModes ∧ f.state ∈ manualGoalStates ∧ f.pauseSlots = ∅

instance (navigationMode : String) : Decidable (f.AcceptsManualGoal navigationMode) :=
  inferInstanceAs (Decidable (_ ∧ _))

theorem manualGoalRejection_eq_none {isPrintable : Char → Bool} {navigationMode : String} :
    f.manualGoalRejection isPrintable navigationMode = none ↔
      f.AcceptsManualGoal navigationMode := by
  unfold manualGoalRejection AcceptsManualGoal
  split
  · rename_i hm
    exact iff_of_false (fun h => by cases h) fun h => hm h.1
  · rename_i hm
    split
    · rename_i hs
      exact iff_of_false (fun h => by cases h) fun h => hs h.2.1
    · rename_i hs
      split
      · rename_i hp
        exact iff_of_false (fun h => by cases h) fun h => hp h.2.2
      · rename_i hp
        exact iff_of_true rfl ⟨not_not.mp hm, not_not.mp hs, not_not.mp hp⟩

def loadWaypoints (waypoints : WaypointList R) : Turn R :=
  { fsm := { f with waypoints := waypoints, currentIndex := 0, waitingTrigger := false } }

def setNextIndex (index : Int) : Turn R × Bool :=
  if f.state ≠ .idle ∧ f.state ≠ .suspended then ({ fsm := f }, false)
  else if index < 0 ∨ f.waypoints.getSize ≤ index then ({ fsm := f }, false)
  else ({ fsm := { f with currentIndex := index, waitingTrigger := false } }, true)

/-- The index `reload_waypoints` goes on with. -/
def clampIndex (size : Nat) (index : Int) : Int :=
  if size = 0 then 0 else if size ≤ index then size - 1 else index

def reloadWaypoints (waypoints : WaypointList R) : Turn R × CommandResult :=
  if f.state ≠ .idle ∧ f.state ≠ .goalReached ∧ f.state ≠ .error then
    ({ fsm := f }, ⟨false, "Cannot reload in state " ++ f.state.value⟩)
  else
    let size := waypoints.getSize
    ({ fsm :=
        { f with
          waypoints := waypoints
          waitingTrigger := false
          currentIndex := clampIndex size f.currentIndex } },
      ⟨true, "Reloaded " ++ toString size ++ " waypoints"⟩)

def start (countdownMs nowNs : Int) : Turn R × CommandResult :=
  if f.manualGoalActive then ({ fsm := f }, ⟨false, "A manual goal is running; stop it first"⟩)
  else if f.pauseSlots ≠ ∅ ∧ (f.state = .idle ∨ f.state = .goalReached) then
    ({ fsm := f }, ⟨false, f.pausedMessage⟩)
  else
    match f.state with
    | .idle =>
        if f.waypoints.getSize = 0 then ({ fsm := f }, ⟨false, "No waypoints loaded"⟩)
        else (Turn.enterOnStarting { fsm := f } countdownMs nowNs, ⟨true, "OK"⟩)
    | .goalReached =>
        (Turn.enterOnStarting { fsm := { f with currentIndex := 0 } } countdownMs nowNs,
          ⟨true, "OK"⟩)
    | state => ({ fsm := f }, ⟨false, "Cannot start from state " ++ state.value⟩)

def stop : Turn R × CommandResult :=
  let t : Turn R :=
    if f.manualGoalActive then
      { fsm := { f with manualGoalActive := false }, calls := [.cancel] }
    else { fsm := f }
  let released : Turn R := { t with fsm := { t.fsm with pauseSlots := ∅ } }
  match f.state with
  | .idle =>
      (t, ⟨true, if f.manualGoalActive then "Manual goal canceled" else "Already idle"⟩)
  | .onStarting =>
      let timer := f.countdownTimer.cancel
      ({ released with fsm := { released.fsm with countdownTimer := timer } }.transition .idle,
        ⟨true, "OK"⟩)
  | .navigating => ((released.call .cancel).transition .idle, ⟨true, "OK"⟩)
  | .onArriving =>
      ({ t with fsm := { t.fsm with stopPending := true } },
        ⟨true, "Stop deferred until actions complete"⟩)
  | .suspended | .goalReached | .error => (released.transition .idle, ⟨true, "OK"⟩)

def applyPause (nowNs : Int) : Turn R :=
  match f.state with
  | .onStarting =>
      Turn.transition
        { fsm :=
            { f with
              savedCountdownMs := f.countdownTimer.remainingMs nowNs
              countdownTimer := f.countdownTimer.cancel
              preSuspendState := .onStarting } } .suspended
  | .navigating =>
      Turn.transition
        { fsm := { f with preSuspendState := .navigating }, calls := [.cancel] } .suspended
  | _ => { fsm := f }

def tryResume (nowNs : Int) : Turn R :=
  if f.pauseSlots ≠ ∅ ∨ f.state ≠ .suspended then { fsm := f }
  else if f.preSuspendState = .onStarting then
    Turn.enterOnStarting { fsm := f } f.savedCountdownMs nowNs
  else Turn.enterNavigating { fsm := f }

def pauseRequest (requesterId : String) (active : Bool) (nowNs : Int) : Turn R :=
  if active then applyPause { f with pauseSlots := insert requesterId f.pauseSlots } nowNs
  else tryResume { f with pauseSlots := f.pauseSlots.erase requesterId } nowNs

def onStartingDone (generation : Nat) : Turn R :=
  if f.state ≠ .onStarting ∨ generation ≠ f.countdownTimer.generation then { fsm := f }
  else Turn.enterNavigating { fsm := f }

def onManualGoalResult (_result : NavigationResult) : Turn R :=
  { fsm := { f with manualGoalActive := false } }

def onNavigationResult (result : NavigationResult) : Turn R :=
  if f.state ≠ .navigating then { fsm := f }
  else if result = .canceled then { fsm := f }
  else if result ≠ .succeeded ∧ result ≠ .passed then Turn.transition { fsm := f } .error
  else
    match f.waypoints.get f.currentIndex with
    | none => { fsm := f, raised := true }
    | some waypoint =>
        if waypoint.onReachedActions ≠ [] then
          Turn.enterOnArriving { fsm := f } waypoint.onReachedActions
        else Turn.advanceToNext { fsm := f }

def onArrivingDone : Turn R :=
  if f.state ≠ .onArriving then { fsm := f } else Turn.advanceToNext { fsm := f }

/-- The waypoint of a manual goal, with the default `through_tolerance`. -/
def manualWaypoint [Field R] (pose : Pose R) : Waypoint R where
  index := -1
  pose := pose
  navigation := ⟨3, false⟩
  onReachedActions := []

/-- The second section of `navigate_to_pose`, after the costmap layers were switched. -/
def sendManualGoal [Field R] (isPrintable : Char → Bool) (pose : Pose R)
    (navigationMode : String) : Turn R × CommandResult :=
  match f.manualGoalRejection isPrintable navigationMode with
  | some rejection => ({ fsm := f }, ⟨false, rejection⟩)
  | none =>
      ({ fsm := { f with manualGoalActive := true }
         calls := [.sendGoal (manualWaypoint pose) .manual navigationMode] },
        ⟨true, "OK"⟩)

def init : SequencerFsm R where
  state := .idle
  waypoints := ⟨[]⟩
  currentIndex := 0
  stopPending := false
  preSuspendState := .idle
  savedCountdownMs := 0
  navigationMode := "normal"
  manualGoalActive := false
  waitingTrigger := false
  countdownTimer := ⟨false, 0, 0, 0⟩
  pauseSlots := ∅

end SequencerFsm

end MgRobot.Sequencer
