import MgRobot.Sequencer.Waypoint

/-!
# WaypointNavigator

The navigator's record and its critical sections, one function each: what a
method does while it holds the navigator lock. What a method does between or
after its sections (handing a goal to the action client, asking a handle to
cancel, running a result callback) is returned to the caller as data and
becomes a step of its own in `NavSystem`.

As in the source, the record falls into the logical goal, which the sequencer
sees, and the Nav2 goal that is live. A Nav2 goal handle is identified by the
sequence number of its goal.
-/

namespace MgRobot.Sequencer

set_option autoImplicit false

variable {κ R : Type*}

inductive NavigationResult where
  | succeeded
  | passed
  | failed
  | canceled
  deriving DecidableEq, Repr

/-- The terminal statuses of a Nav2 goal. -/
inductive GoalStatus where
  | succeeded
  | canceled
  | aborted
  deriving DecidableEq, Repr

inductive LiveState where
  | none
  | pending
  | active
  deriving DecidableEq, Repr

/-- `NavigateToPose.Goal`. -/
structure NavGoal (R : Type*) where
  pose : Pose R
  behaviorTree : String
  deriving DecidableEq, Repr

/-- The arguments of one `_dispatch` call: what `_on_live_idle` closes over. -/
structure Dispatch (R : Type*) where
  goalId : Nat
  goal : NavGoal R
  deriving DecidableEq, Repr

/-- What `_dispatch` does after its critical section. -/
inductive DispatchOutcome where
  | stale
  | send (seq : Nat)
  | deferred (cancelHandle : Option Nat)
  deriving DecidableEq, Repr

structure PathMsg (R : Type*) where
  stampNs : Int
  poses : List (R × R)

structure FeedbackMsg (R : Type*) where
  distanceRemaining : R
  x : R
  y : R
  numberOfRecoveries : Int

/-- The fields of the logical goal. -/
structure LogicalGoal (κ R : Type*) where
  goalId : Nat
  active : Bool
  resultCallback : Option κ
  waypoint : Option (Waypoint R)
  throughTolerance : Option R
  sendTimeNs : Int
  distanceRemaining : R
  planPoints : List (R × R)
  planSuffix : List R
  planIndex : Nat
  progress : ProgressMonitor R

/-- The fields of the Nav2 goal: `_live_seq`, `_live_state`, ..., `_on_live_idle`. -/
structure LiveGoal (R : Type*) where
  seq : Nat
  state : LiveState
  handle : Option Nat
  bt : String
  canceling : Bool
  onIdle : Option (Dispatch R)

structure WaypointNavigator (κ R : Type*) where
  logical : LogicalGoal κ R
  live : LiveGoal R

/-- `DEFAULT_BT_MODE`. -/
def defaultBtMode : String := "default"

def behaviorTreeFor (cfg : NavConfig R) (navigationMode : String) : String :=
  if navigationMode = defaultBtMode then ""
  else if navigationMode = "queue_wait" then cfg.btXmlQueueWait
  else cfg.btXmlNormal

/-- The result a terminal status is reported as. -/
def resultOf : GoalStatus → NavigationResult
  | .succeeded => .succeeded
  | .canceled => .canceled
  | .aborted => .failed

theorem resultOf_ne_passed (status : GoalStatus) : resultOf status ≠ .passed := by
  cases status <;> simp [resultOf]

namespace LiveGoal

variable (l : LiveGoal R)

/-- `_begin_cancel_live`: the handle to send a cancel request to. -/
def beginCancelLive : LiveGoal R × Option Nat :=
  if l.state = .none ∨ l.canceling = true then (l, none)
  else ({ l with canceling := true }, if l.state = .active then l.handle else none)

def canSend (goal : NavGoal R) : Bool :=
  l.state = .none || (!l.canceling && l.bt == goal.behaviorTree)

/-- The newest sequence number is taken for a goal. -/
def claim (goal : NavGoal R) : LiveGoal R :=
  { l with
    seq := l.seq + 1
    state := .pending
    handle := none
    bt := goal.behaviorTree
    canceling := false }

/-- `_mark_live_done`: the deferred dispatch, when the newest goal has ended. -/
def markLiveDone (seq : Nat) : LiveGoal R × Option (Dispatch R) :=
  if seq = l.seq then
    ({ l with state := .none, handle := none, canceling := false, onIdle := none }, l.onIdle)
  else (l, none)

/-- The section of `_goal_response_callback` for an accepted goal: whether the goal is to be
cancelled at once, or `none` when a newer one has superseded it. -/
def goalAccepted (seq : Nat) : LiveGoal R × Option Bool :=
  if seq = l.seq then ({ l with state := .active, handle := some seq }, some l.canceling)
  else (l, none)

def init : LiveGoal R where
  seq := 0
  state := .none
  handle := none
  bt := ""
  canceling := false
  onIdle := none

@[simp] theorem beginCancelLive_seq : l.beginCancelLive.1.seq = l.seq := by
  unfold beginCancelLive; split <;> rfl

@[simp] theorem beginCancelLive_state : l.beginCancelLive.1.state = l.state := by
  unfold beginCancelLive; split <;> rfl

@[simp] theorem beginCancelLive_handle : l.beginCancelLive.1.handle = l.handle := by
  unfold beginCancelLive; split <;> rfl

@[simp] theorem beginCancelLive_onIdle : l.beginCancelLive.1.onIdle = l.onIdle := by
  unfold beginCancelLive; split <;> rfl

/-- Afterwards the live goal, if there is one, is being cancelled. -/
theorem beginCancelLive_canceling (h : l.state ≠ .none) :
    l.beginCancelLive.1.canceling = true := by
  unfold beginCancelLive
  split
  · rename_i hc
    exact hc.resolve_left h
  · rfl

theorem beginCancelLive_of_none (h : l.state = .none) : l.beginCancelLive = (l, none) := by
  simp [beginCancelLive, h]

theorem markLiveDone_of_ne {q : Nat} (h : q ≠ l.seq) : l.markLiveDone q = (l, none) := by
  simp [markLiveDone, h]

@[simp] theorem markLiveDone_seq (q : Nat) : (l.markLiveDone q).1.seq = l.seq := by
  unfold markLiveDone; split <;> rfl

theorem canSend_of_none (goal : NavGoal R) (h : l.state = .none) : l.canSend goal = true := by
  simp [canSend, h]

end LiveGoal

namespace LogicalGoal

variable (g : LogicalGoal κ R)

def isCurrent (goalId : Nat) : Bool := g.active && goalId == g.goalId

/-- The section of `_finish`: the result callback it selects, if the goal is current. -/
def finish (goalId : Nat) : LogicalGoal κ R × Option κ :=
  if g.isCurrent goalId then ({ g with active := false }, g.resultCallback) else (g, none)

/-- The two agree on everything that decides which callback may still be selected. -/
def SameGoal (g g' : LogicalGoal κ R) : Prop :=
  g'.goalId = g.goalId ∧ g'.active = g.active ∧ g'.resultCallback = g.resultCallback

variable {g} in
theorem isCurrent_iff {goalId : Nat} :
    g.isCurrent goalId = true ↔ g.active = true ∧ goalId = g.goalId := by
  simp [isCurrent]

variable {g} in
theorem ne_of_not_current {goalId : Nat} (h : g.isCurrent goalId = false)
    (ha : g.active = true) : goalId ≠ g.goalId := by
  simpa [isCurrent, ha] using h

theorem finish_of_current {goalId : Nat} (h : g.isCurrent goalId = true) :
    g.finish goalId = ({ g with active := false }, g.resultCallback) := by
  simp [finish, h]

theorem finish_of_not_current {goalId : Nat} (h : g.isCurrent goalId ≠ true) :
    g.finish goalId = (g, none) := by
  simp [finish, h]

variable [Field R] [LinearOrder R] (cfg : NavConfig R)

/-- The section of `send_goal`. -/
def begin (waypoint : Waypoint R) (resultCallback : κ) (nowNs : Int) : LogicalGoal κ R :=
  { g with
    goalId := g.goalId + 1
    active := true
    resultCallback := some resultCallback
    waypoint := some waypoint
    throughTolerance :=
      if waypoint.navigation.isThroughPoint then some waypoint.navigation.throughTolerance
      else none
    sendTimeNs := nowNs
    planPoints := []
    planSuffix := []
    planIndex := 0
    progress := g.progress.reset (toSec nowNs) }

def progressStatus (nowNs : Int) : Option (ProgressStatus R) :=
  if g.active then some (g.progress.status (toSec nowNs)) else none

def planCallback (msg : PathMsg R) : LogicalGoal κ R :=
  match g.active, g.throughTolerance, g.waypoint, msg.poses.getLast? with
  | true, some _, some w, some last =>
      if msg.stampNs ≠ 0 ∧ msg.stampNs < g.sendTimeNs then g
      else if cfg.planGoalMatchTolerance <
          cfg.hypot (last.1 - w.pose.x) (last.2 - w.pose.y) then g
      else
        { g with
          planPoints := msg.poses
          planSuffix := suffixLengths cfg msg.poses
          planIndex := 0 }
  | _, _, _, _ => g

/-- `_remaining_plan_length`; `none` is the infinity of an empty search. -/
def remainingPlanLength (x y : R) : LogicalGoal κ R × Option R :=
  let indices := (List.range g.planPoints.length).drop g.planIndex
  let (best, bestDist) :=
    nearestPoint cfg g.planPoints g.planSuffix g.planIndex x y indices (g.planIndex, none)
  ({ g with planIndex := best }, bestDist.map (· + g.planSuffix.getD best 0))

/-- The section of `_feedback_callback` past its first check: whether the through point
has been passed. -/
def onFeedback (msg : FeedbackMsg R) (nowNs : Int) : LogicalGoal κ R × Bool :=
  let g :=
    { g with
      distanceRemaining := msg.distanceRemaining
      progress := g.progress.update cfg msg.x msg.y msg.numberOfRecoveries (toSec nowNs) }
  match g.throughTolerance, g.waypoint with
  | some tolerance, some w =>
      if g.planPoints = [] then (g, false)
      else
        let (g, remaining) := g.remainingPlanLength cfg msg.x msg.y
        match remaining with
        | none => (g, false)
        | some r =>
            (g, decide (r ≤ tolerance ∧
              cfg.hypot (w.pose.x - msg.x) (w.pose.y - msg.y) ≤ tolerance))
  | _, _ => (g, false)

/-- `_feedback_callback`. -/
def feedbackCallback (goalId : Nat) (msg : FeedbackMsg R) (nowNs : Int) :
    LogicalGoal κ R × Bool :=
  if g.isCurrent goalId then g.onFeedback cfg msg nowNs else (g, false)

theorem onFeedback_same (msg : FeedbackMsg R) (nowNs : Int) :
    SameGoal g (g.onFeedback cfg msg nowNs).1 := by
  unfold onFeedback
  dsimp only
  split
  · split
    · exact ⟨rfl, rfl, rfl⟩
    · split <;> exact ⟨rfl, rfl, rfl⟩
  · exact ⟨rfl, rfl, rfl⟩

theorem feedbackCallback_same (goalId : Nat) (msg : FeedbackMsg R) (nowNs : Int) :
    SameGoal g (g.feedbackCallback cfg goalId msg nowNs).1 := by
  unfold feedbackCallback
  split
  · exact g.onFeedback_same cfg msg nowNs
  · exact ⟨rfl, rfl, rfl⟩

theorem feedbackCallback_of_not_current {goalId : Nat} (msg : FeedbackMsg R) (nowNs : Int)
    (h : g.isCurrent goalId ≠ true) : g.feedbackCallback cfg goalId msg nowNs = (g, false) := by
  simp [feedbackCallback, h]

theorem planCallback_same (msg : PathMsg R) : SameGoal g (g.planCallback cfg msg) := by
  unfold planCallback
  split
  · split
    · exact ⟨rfl, rfl, rfl⟩
    · split <;> exact ⟨rfl, rfl, rfl⟩
  · exact ⟨rfl, rfl, rfl⟩

def init (stallDistance : R) : LogicalGoal κ R where
  goalId := 0
  active := false
  resultCallback := none
  waypoint := none
  throughTolerance := none
  sendTimeNs := 0
  distanceRemaining := 0
  planPoints := []
  planSuffix := []
  planIndex := 0
  progress := ProgressMonitor.init stallDistance

end LogicalGoal

namespace WaypointNavigator

variable (n : WaypointNavigator κ R)

def hasLiveGoal : Bool := n.live.state != .none

def cancel : WaypointNavigator κ R × Option Nat :=
  let (live, handle) := { n.live with onIdle := none }.beginCancelLive
  ({ logical := { n.logical with active := false }, live := live }, handle)

def dispatch (d : Dispatch R) : WaypointNavigator κ R × DispatchOutcome :=
  if n.logical.isCurrent d.goalId = false then (n, .stale)
  else if n.live.canSend d.goal then
    ({ n with live := n.live.claim d.goal }, .send (n.live.seq + 1))
  else
    let (live, handle) := { n.live with onIdle := some d }.beginCancelLive
    ({ n with live := live }, .deferred handle)

variable [Field R] [LinearOrder R] (cfg : NavConfig R)

/-- `send_goal` up to its wait for the server, with the dispatch it goes on to. -/
def sendGoal (waypoint : Waypoint R) (resultCallback : κ) (navigationMode : String)
    (nowNs : Int) : WaypointNavigator κ R × Dispatch R :=
  let logical := n.logical.begin waypoint resultCallback nowNs
  ({ n with logical := logical },
   { goalId := logical.goalId
     goal := { pose := waypoint.pose, behaviorTree := behaviorTreeFor cfg navigationMode } })

omit [LinearOrder R] in
def init (stallDistance : R) : WaypointNavigator κ R where
  logical := .init stallDistance
  live := .init

end WaypointNavigator

end MgRobot.Sequencer
