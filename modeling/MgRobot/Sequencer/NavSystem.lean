import MgRobot.Lib.Pool
import MgRobot.Lib.Runs
import MgRobot.Sequencer.Navigator
import Mathlib.Algebra.Order.Ring.Rat
import Mathlib.Logic.Function.Basic

/-!
# The navigator, its threads and Nav2

A navigator shared by client threads, and the action server it talks to. Every
critical section is one step, and so is everything a thread does between two
of them: handing a claimed goal to the action client, asking a handle to
cancel, running the result callback `_finish` selected. Nav2 answers, preempts
and terminates goals whenever it likes, within the contract of the action: a
request is accepted or rejected, an accepted goal ends the one running before,
a rejected one does not, and an accepted goal terminates once.
-/

namespace MgRobot.Sequencer

open MgRobot.Lib

set_option autoImplicit false

variable {κ R : Type*}

/-- How far the client is with the Nav2 goal of one sequence number. -/
inductive ClientPc where
  | unclaimed
  | claimed     -- `_live_seq` taken, `send_goal_async` not called yet
  | sent        -- waiting for the response
  | superseded  -- accepted, but no longer the newest: the callback has returned
  | tracked     -- waiting for the result
  | closed      -- rejection or result handled
  deriving DecidableEq, Repr

/-- The goal of one sequence number inside Nav2. -/
inductive ServerPc where
  | absent
  | requested
  | rejected
  | running
  | ended (status : GoalStatus)
  deriving DecidableEq, Repr

structure Lane where
  goalId : Nat
  client : ClientPc
  server : ServerPc
  cancelSent : Bool
  deriving DecidableEq, Repr

namespace Lane

def unclaimed : Lane := ⟨0, .unclaimed, .absent, false⟩

def claim (goalId : Nat) : Lane := ⟨goalId, .claimed, .absent, false⟩

/-- Nav2 has seen the goal through: it is neither under way nor still to come. -/
def terminated (l : Lane) : Bool :=
  match l.server with
  | .rejected | .ended _ => true
  | _ => false

/-- Nav2 has accepted the goal, and its response says so. -/
def Accepted (l : Lane) : Prop := l.server = .running ∨ ∃ st, l.server = .ended st

/-- Preemption: a running goal ends when another one is accepted. -/
def preempt (l : Lane) : Lane :=
  if l.server = .running then { l with server := .ended .aborted } else l

end Lane

/-- A program point between two critical sections of a client thread. `onIdle` is the
deferred dispatch a callback took over and runs last. -/
inductive Thread (κ R : Type*) where
  | waitServer (d : Dispatch R)
  | dispatch (d : Dispatch R)
  | cancelGoalAsync (seq : Nat)
  | finish (goalId : Nat) (result : NavigationResult) (onIdle : Option (Dispatch R))
  | runCallback (goalId : Nat) (callback : κ) (result : NavigationResult)
      (onIdle : Option (Dispatch R))
  deriving DecidableEq, Repr

/-- `handle.cancel_goal_async()`, if there is a handle. -/
def cancelCall (handle : Option Nat) : Multiset (Thread κ R) :=
  handle.elim 0 fun seq => {.cancelGoalAsync seq}

/-- `on_idle()`, if there is one. -/
def idleCall (onIdle : Option (Dispatch R)) : Multiset (Thread κ R) :=
  onIdle.elim 0 fun d => {.dispatch d}

structure NavSystem (κ R : Type*) where
  nav : WaypointNavigator κ R
  lane : Nat → Lane
  threads : Multiset (Thread κ R)

inductive NavEvent (κ R : Type*) where
  -- calls of the sequencer
  | sendGoal (waypoint : Waypoint R) (callback : κ) (navigationMode : String) (nowNs : Int)
  | cancel
  -- client threads
  | serverReady (d : Dispatch R)
  | serverUnavailable (d : Dispatch R)
  | dispatch (d : Dispatch R)
  | sendGoalAsync (seq : Nat)
  | cancelGoalAsync (seq : Nat)
  | goalResponse (seq : Nat)
  | resultDone (seq : Nat)
  | finish (goalId : Nat) (result : NavigationResult) (onIdle : Option (Dispatch R))
  | runCallback (goalId : Nat) (callback : κ) (result : NavigationResult)
      (onIdle : Option (Dispatch R))
  | feedback (seq : Nat) (msg : FeedbackMsg R) (nowNs : Int)
  | plan (msg : PathMsg R)
  -- Nav2
  | accept (seq : Nat)
  | reject (seq : Nat)
  | terminate (seq : Nat) (status : GoalStatus)

namespace NavSystem

variable (s : NavSystem κ R)

def setLane (seq : Nat) (l : Lane) : NavSystem κ R :=
  { s with lane := Function.update s.lane seq l }

variable [DecidableEq κ] [LinearOrder R]

def advance (old : Thread κ R) (new : Multiset (Thread κ R)) : NavSystem κ R :=
  { s with threads := Pool.advance s.threads old new }

def cancel : NavSystem κ R :=
  let (nav, handle) := s.nav.cancel
  { s with nav := nav, threads := cancelCall handle + s.threads }

/-- The thread `old` runs `_dispatch`. -/
def runDispatch (d : Dispatch R) (old : Thread κ R) : NavSystem κ R :=
  match s.nav.dispatch d with
  | (nav, .stale) => { s with nav := nav, threads := Pool.advance s.threads old 0 }
  | (nav, .send seq) =>
      { nav := nav
        lane := Function.update s.lane seq (.claim d.goalId)
        threads := Pool.advance s.threads old 0 }
  | (nav, .deferred handle) =>
      { s with nav := nav, threads := Pool.advance s.threads old (cancelCall handle) }

def sendGoalAsync (seq : Nat) : NavSystem κ R :=
  s.setLane seq { s.lane seq with client := .sent, server := .requested }

def cancelGoalAsync (seq : Nat) : NavSystem κ R :=
  (s.setLane seq { s.lane seq with cancelSent := true }).advance (.cancelGoalAsync seq) 0

/-- `_goal_response_callback` of a rejected goal, up to its `_finish`. -/
def goalRejected (seq : Nat) : NavSystem κ R :=
  let (live, onIdle) := s.nav.live.markLiveDone seq
  { nav := { s.nav with live := live }
    lane := Function.update s.lane seq { s.lane seq with client := .closed }
    threads := .finish (s.lane seq).goalId .failed onIdle ::ₘ s.threads }

/-- `_goal_response_callback` of an accepted goal. -/
def goalAccepted (seq : Nat) : NavSystem κ R :=
  match s.nav.live.goalAccepted seq with
  | (live, none) =>
      { s with
        nav := { s.nav with live := live }
        lane := Function.update s.lane seq { s.lane seq with client := .superseded } }
  | (live, some cancelNow) =>
      { nav := { s.nav with live := live }
        lane := Function.update s.lane seq { s.lane seq with client := .tracked }
        threads := cancelCall (if cancelNow then some seq else none) + s.threads }

/-- `_result_done_callback`, up to its `_finish`. -/
def resultDone (seq : Nat) (status : GoalStatus) : NavSystem κ R :=
  let (live, onIdle) := s.nav.live.markLiveDone seq
  { nav := { s.nav with live := live }
    lane := Function.update s.lane seq { s.lane seq with client := .closed }
    threads := .finish (s.lane seq).goalId (resultOf status) onIdle ::ₘ s.threads }

/-- `_finish`: its section, and the callback it selects to run next. -/
def finish (goalId : Nat) (result : NavigationResult) (onIdle : Option (Dispatch R)) :
    NavSystem κ R :=
  match s.nav.logical.finish goalId with
  | (logical, some callback) =>
      { s with
        nav := { s.nav with logical := logical }
        threads := Pool.advance s.threads (.finish goalId result onIdle)
          {.runCallback goalId callback result onIdle} }
  | (logical, none) =>
      { s with
        nav := { s.nav with logical := logical }
        threads := Pool.advance s.threads (.finish goalId result onIdle) (idleCall onIdle) }

/-- Nav2 accepts a goal, which ends the one that was running. -/
def accept (seq : Nat) : NavSystem κ R :=
  { s with
    lane := Function.update (fun q => (s.lane q).preempt) seq
      { s.lane seq with server := .running } }

def setServer (seq : Nat) (pc : ServerPc) : NavSystem κ R :=
  s.setLane seq { s.lane seq with server := pc }

variable [Field R] (cfg : NavConfig R)

def sendGoal (waypoint : Waypoint R) (callback : κ) (navigationMode : String) (nowNs : Int) :
    NavSystem κ R :=
  let (nav, d) := s.nav.sendGoal cfg waypoint callback navigationMode nowNs
  { s with nav := nav, threads := .waitServer d ::ₘ s.threads }

/-- `_feedback_callback` of the goal `seq` was sent for, up to its `_finish`. -/
def feedback (seq : Nat) (msg : FeedbackMsg R) (nowNs : Int) : NavSystem κ R :=
  let (logical, passed) := s.nav.logical.feedbackCallback cfg (s.lane seq).goalId msg nowNs
  { s with
    nav := { s.nav with logical := logical }
    threads := (if passed then {.finish (s.lane seq).goalId .passed none} else 0) + s.threads }

def step (s : NavSystem κ R) : NavEvent κ R → Option (NavSystem κ R)
  | .sendGoal w cb mode now => some (s.sendGoal cfg w cb mode now)
  | .cancel => some s.cancel
  | .serverReady d =>
      if .waitServer d ∈ s.threads then some (s.runDispatch d (.waitServer d)) else none
  | .serverUnavailable d =>
      if .waitServer d ∈ s.threads then
        some (s.advance (.waitServer d) {.finish d.goalId .failed none})
      else none
  | .dispatch d =>
      if .dispatch d ∈ s.threads then some (s.runDispatch d (.dispatch d)) else none
  | .sendGoalAsync q => if (s.lane q).client = .claimed then some (s.sendGoalAsync q) else none
  | .cancelGoalAsync q =>
      if .cancelGoalAsync q ∈ s.threads then some (s.cancelGoalAsync q) else none
  | .goalResponse q =>
      if (s.lane q).client = .sent then
        match (s.lane q).server with
        | .rejected => some (s.goalRejected q)
        | .running | .ended _ => some (s.goalAccepted q)
        | _ => none
      else none
  | .resultDone q =>
      if (s.lane q).client = .tracked then
        match (s.lane q).server with
        | .ended status => some (s.resultDone q status)
        | _ => none
      else none
  | .finish g r onIdle =>
      if .finish g r onIdle ∈ s.threads then some (s.finish g r onIdle) else none
  | .runCallback g cb r onIdle =>
      if .runCallback g cb r onIdle ∈ s.threads then
        some (s.advance (.runCallback g cb r onIdle) (idleCall onIdle))
      else none
  | .feedback q msg now =>
      match (s.lane q).server with
      | .running | .ended _ => some (s.feedback cfg q msg now)
      | _ => none
  | .plan msg => some { s with nav := { s.nav with logical := s.nav.logical.planCallback cfg msg } }
  | .accept q => if (s.lane q).server = .requested then some (s.accept q) else none
  | .reject q =>
      if (s.lane q).server = .requested then some (s.setServer q .rejected) else none
  | .terminate q status =>
      if (s.lane q).server = .running then some (s.setServer q (.ended status)) else none

omit [DecidableEq κ] [LinearOrder R] in
def boot (stallDistance : R) : NavSystem κ R where
  nav := .init stallDistance
  lane := fun _ => .unclaimed
  threads := 0

/-- The thread `old` runs `_dispatch` for `d` in the event. -/
def Dispatching (e : NavEvent κ R) (d : Dispatch R) (old : Thread κ R) : Prop :=
  (e = .serverReady d ∧ old = .waitServer d) ∨ (e = .dispatch d ∧ old = .dispatch d)

/-- What each event does, with the branches of its critical section told apart. -/
inductive Effect (cfg : NavConfig R) (s : NavSystem κ R) : NavEvent κ R → NavSystem κ R → Prop
  | sendGoal {w : Waypoint R} {cb : κ} {mode : String} {now : Int} :
      Effect cfg s (.sendGoal w cb mode now) (s.sendGoal cfg w cb mode now)
  | cancel : Effect cfg s .cancel s.cancel
  | unavailable {d : Dispatch R} (hm : .waitServer d ∈ s.threads) :
      Effect cfg s (.serverUnavailable d)
        (s.advance (.waitServer d) {.finish d.goalId .failed none})
  | dispatchStale {e : NavEvent κ R} {d : Dispatch R} {old : Thread κ R}
      (he : Dispatching e d old) (hm : old ∈ s.threads)
      (hc : s.nav.logical.isCurrent d.goalId = false) :
      Effect cfg s e (s.advance old 0)
  | dispatchSend {e : NavEvent κ R} {d : Dispatch R} {old : Thread κ R}
      (he : Dispatching e d old) (hm : old ∈ s.threads)
      (hc : s.nav.logical.isCurrent d.goalId = true) (hs : s.nav.live.canSend d.goal = true) :
      Effect cfg s e
        { nav := { s.nav with live := s.nav.live.claim d.goal }
          lane := Function.update s.lane (s.nav.live.seq + 1) (.claim d.goalId)
          threads := Pool.advance s.threads old 0 }
  | dispatchDefer {e : NavEvent κ R} {d : Dispatch R} {old : Thread κ R}
      (he : Dispatching e d old) (hm : old ∈ s.threads)
      (hc : s.nav.logical.isCurrent d.goalId = true) (hs : s.nav.live.canSend d.goal = false) :
      Effect cfg s e
        { s with
          nav :=
            { s.nav with live := ({ s.nav.live with onIdle := some d }.beginCancelLive).1 }
          threads := Pool.advance s.threads old
            (cancelCall ({ s.nav.live with onIdle := some d }.beginCancelLive).2) }
  | sendGoalAsync {q : Nat} (hc : (s.lane q).client = .claimed) :
      Effect cfg s (.sendGoalAsync q) (s.sendGoalAsync q)
  | cancelGoalAsync {q : Nat} (hm : .cancelGoalAsync q ∈ s.threads) :
      Effect cfg s (.cancelGoalAsync q) (s.cancelGoalAsync q)
  | rejected {q : Nat} (hc : (s.lane q).client = .sent) (hr : (s.lane q).server = .rejected) :
      Effect cfg s (.goalResponse q) (s.goalRejected q)
  | accepted {q : Nat} (hc : (s.lane q).client = .sent) (ha : (s.lane q).Accepted)
      (hq : q = s.nav.live.seq) :
      Effect cfg s (.goalResponse q)
        { nav := { s.nav with live := { s.nav.live with state := .active, handle := some q } }
          lane := Function.update s.lane q { s.lane q with client := .tracked }
          threads := cancelCall (if s.nav.live.canceling then some q else none) + s.threads }
  | superseded {q : Nat} (hc : (s.lane q).client = .sent) (ha : (s.lane q).Accepted)
      (hq : q ≠ s.nav.live.seq) :
      Effect cfg s (.goalResponse q)
        { s with lane := Function.update s.lane q { s.lane q with client := .superseded } }
  | resultDone {q : Nat} {st : GoalStatus} (hc : (s.lane q).client = .tracked)
      (hst : (s.lane q).server = .ended st) :
      Effect cfg s (.resultDone q) (s.resultDone q st)
  | finishCurrent {g : Nat} {r : NavigationResult} {o : Option (Dispatch R)}
      (hm : .finish g r o ∈ s.threads) (hc : s.nav.logical.isCurrent g = true) :
      Effect cfg s (.finish g r o)
        { s with
          nav := { s.nav with logical := { s.nav.logical with active := false } }
          threads := Pool.advance s.threads (.finish g r o)
            (match s.nav.logical.resultCallback with
              | some cb => {.runCallback g cb r o}
              | none => idleCall o) }
  | finishStale {g : Nat} {r : NavigationResult} {o : Option (Dispatch R)}
      (hm : .finish g r o ∈ s.threads) (hc : s.nav.logical.isCurrent g = false) :
      Effect cfg s (.finish g r o) (s.advance (.finish g r o) (idleCall o))
  | runCallback {g : Nat} {cb : κ} {r : NavigationResult} {o : Option (Dispatch R)}
      (hm : .runCallback g cb r o ∈ s.threads) :
      Effect cfg s (.runCallback g cb r o) (s.advance (.runCallback g cb r o) (idleCall o))
  | feedback {q : Nat} {msg : FeedbackMsg R} {now : Int} (ha : (s.lane q).Accepted) :
      Effect cfg s (.feedback q msg now) (s.feedback cfg q msg now)
  | plan {msg : PathMsg R} :
      Effect cfg s (.plan msg)
        { s with nav := { s.nav with logical := s.nav.logical.planCallback cfg msg } }
  | accept {q : Nat} (hr : (s.lane q).server = .requested) : Effect cfg s (.accept q) (s.accept q)
  | reject {q : Nat} (hr : (s.lane q).server = .requested) :
      Effect cfg s (.reject q) (s.setServer q .rejected)
  | terminate {q : Nat} {st : GoalStatus} (hr : (s.lane q).server = .running) :
      Effect cfg s (.terminate q st) (s.setServer q (.ended st))

variable {cfg} {s} {t : NavSystem κ R} {e : NavEvent κ R}

private theorem effect_dispatch {d : Dispatch R} {old : Thread κ R} (he : Dispatching e d old)
    (hm : old ∈ s.threads) : Effect cfg s e (s.runDispatch d old) := by
  cases hc : s.nav.logical.isCurrent d.goalId with
  | false =>
      have h : s.runDispatch d old = s.advance old 0 := by
        simp [runDispatch, WaypointNavigator.dispatch, hc, advance]
      exact h ▸ .dispatchStale he hm hc
  | true =>
      cases hs : s.nav.live.canSend d.goal with
      | true =>
          have h : Effect cfg s e _ := .dispatchSend he hm hc hs
          simpa [runDispatch, WaypointNavigator.dispatch, hc, hs] using h
      | false =>
          have h : Effect cfg s e _ := .dispatchDefer he hm hc hs
          simpa [runDispatch, WaypointNavigator.dispatch, hc, hs] using h

private theorem effect_accepted {q : Nat} (hc : (s.lane q).client = .sent)
    (ha : (s.lane q).Accepted) : Effect cfg s (.goalResponse q) (s.goalAccepted q) := by
  by_cases hq : q = s.nav.live.seq
  · have h : Effect cfg s (.goalResponse q) _ := .accepted hc ha hq
    simpa [goalAccepted, LiveGoal.goalAccepted, hq] using h
  · have h : Effect cfg s (.goalResponse q) _ := .superseded hc ha hq
    simpa [goalAccepted, LiveGoal.goalAccepted, hq] using h

private theorem effect_finish {g : Nat} {r : NavigationResult} {o : Option (Dispatch R)}
    (hm : .finish g r o ∈ s.threads) : Effect cfg s (.finish g r o) (s.finish g r o) := by
  cases hc : s.nav.logical.isCurrent g with
  | false =>
      have h : Effect cfg s (.finish g r o) _ := .finishStale hm hc
      simpa [finish, LogicalGoal.finish, hc, advance] using h
  | true =>
      have h : Effect cfg s (.finish g r o) _ := .finishCurrent hm hc
      cases hcb : s.nav.logical.resultCallback <;>
        simpa [finish, LogicalGoal.finish, hc, hcb] using h

/-- Every enabled event has one of the effects above. -/
theorem step_effect (h : s.step cfg e = some t) : Effect cfg s e t := by
  cases e with
  | sendGoal w cb mode now => cases h; exact .sendGoal
  | cancel => cases h; exact .cancel
  | serverReady d =>
      obtain ⟨hm, ⟨⟩⟩ := Option.ite_none_right_eq_some.mp h
      exact effect_dispatch (Or.inl ⟨rfl, rfl⟩) hm
  | serverUnavailable d =>
      obtain ⟨hm, ⟨⟩⟩ := Option.ite_none_right_eq_some.mp h
      exact .unavailable hm
  | dispatch d =>
      obtain ⟨hm, ⟨⟩⟩ := Option.ite_none_right_eq_some.mp h
      exact effect_dispatch (Or.inr ⟨rfl, rfl⟩) hm
  | sendGoalAsync q =>
      obtain ⟨hc, ⟨⟩⟩ := Option.ite_none_right_eq_some.mp h
      exact .sendGoalAsync hc
  | cancelGoalAsync q =>
      obtain ⟨hm, ⟨⟩⟩ := Option.ite_none_right_eq_some.mp h
      exact .cancelGoalAsync hm
  | goalResponse q =>
      obtain ⟨hc, h⟩ := Option.ite_none_right_eq_some.mp h
      cases hsv : (s.lane q).server with
      | rejected =>
          simp only [hsv, Option.some.injEq] at h
          exact h ▸ .rejected hc hsv
      | running =>
          simp only [hsv, Option.some.injEq] at h
          exact h ▸ effect_accepted hc (Or.inl hsv)
      | ended st =>
          simp only [hsv, Option.some.injEq] at h
          exact h ▸ effect_accepted hc (Or.inr ⟨st, hsv⟩)
      | absent => simp [hsv] at h
      | requested => simp [hsv] at h
  | resultDone q =>
      obtain ⟨hc, h⟩ := Option.ite_none_right_eq_some.mp h
      cases hsv : (s.lane q).server with
      | ended st =>
          simp only [hsv, Option.some.injEq] at h
          exact h ▸ .resultDone hc hsv
      | _ => simp [hsv] at h
  | finish g r o =>
      obtain ⟨hm, ⟨⟩⟩ := Option.ite_none_right_eq_some.mp h
      exact effect_finish hm
  | runCallback g cb r o =>
      obtain ⟨hm, ⟨⟩⟩ := Option.ite_none_right_eq_some.mp h
      exact .runCallback hm
  | feedback q msg now =>
      simp only [step] at h
      cases hsv : (s.lane q).server with
      | running =>
          simp only [hsv, Option.some.injEq] at h
          exact h ▸ .feedback (Or.inl hsv)
      | ended st =>
          simp only [hsv, Option.some.injEq] at h
          exact h ▸ .feedback (Or.inr ⟨st, hsv⟩)
      | _ => simp [hsv] at h
  | plan msg => cases h; exact .plan
  | accept q =>
      obtain ⟨hr, ⟨⟩⟩ := Option.ite_none_right_eq_some.mp h
      exact .accept hr
  | reject q =>
      obtain ⟨hr, ⟨⟩⟩ := Option.ite_none_right_eq_some.mp h
      exact .reject hr
  | terminate q st =>
      obtain ⟨hr, ⟨⟩⟩ := Option.ite_none_right_eq_some.mp h
      exact .terminate hr

end NavSystem

/-! A configuration and goals for concrete runs. -/

/-- `hypot` is exact along the axes, where the goals below lie. -/
def NavConfig.axes : NavConfig ℚ where
  btXmlNormal := "mg_navigate_to_pose.xml"
  btXmlQueueWait := "mg_navigate_to_pose_queue_wait.xml"
  planGoalMatchTolerance := 3 / 5
  hypot x y := |x| + |y|

/-- The `_dispatch` call for a goal sent to `Waypoint.stop x`. -/
def Dispatch.toStop (goalId : Nat) (x : ℚ) (navigationMode : String) : Dispatch ℚ :=
  ⟨goalId, (Waypoint.stop x).pose, behaviorTreeFor .axes navigationMode⟩

end MgRobot.Sequencer
