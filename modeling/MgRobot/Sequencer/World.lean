import MgRobot.Lib.Ledger
import MgRobot.Sequencer.NavResults
import MgRobot.Sequencer.FsmMoves
import MgRobot.Sequencer.NavGoals

/-!
# The navigator as its client sees it

To the state machine the navigator is a ledger of logical goals: the newest one
may be open, and the results `_finish` selected wait for their callbacks to run.
Every step of the navigator, its threads and Nav2 is one of the ledger's.
-/

namespace MgRobot.Sequencer

open MgRobot.Lib

set_option autoImplicit false

variable {κ R : Type*}

/-- The result callback a thread is about to run. -/
def Thread.outcome : Thread κ R → Option (Nat × κ × NavigationResult)
  | .runCallback g cb r _ => some (g, cb, r)
  | _ => none

theorem Thread.outcome_eq_some {x : Thread κ R} {g : Nat} {cb : κ} {r : NavigationResult} :
    x.outcome = some (g, cb, r) ↔ ∃ o, x = .runCallback g cb r o := by
  cases x <;> simp [Thread.outcome]

namespace NavSystem

def ledger (s : NavSystem κ R) : Ledger κ NavigationResult where
  newest := s.nav.logical.goalId
  isOpen := s.nav.logical.active
  tag := s.nav.logical.resultCallback
  undelivered := Pool.items Thread.outcome s.threads

section

variable {s t : NavSystem κ R}

@[simp] theorem outcomes_cancelCall (handle : Option Nat) :
    Pool.items Thread.outcome (cancelCall handle : Multiset (Thread κ R)) = 0 := by
  cases handle with
  | none => rfl
  | some q => rw [cancelCall, Option.elim_some, Pool.items_singleton]; rfl

@[simp] theorem outcomes_idleCall (onIdle : Option (Dispatch R)) :
    Pool.items Thread.outcome (idleCall onIdle : Multiset (Thread κ R)) = 0 := by
  cases onIdle with
  | none => rfl
  | some d => rw [idleCall, Option.elim_some, Pool.items_singleton]; rfl

theorem mem_undelivered {g : Nat} {cb : κ} {r : NavigationResult} :
    (g, cb, r) ∈ s.ledger.undelivered ↔ ∃ o, .runCallback g cb r o ∈ s.threads := by
  simp only [ledger, Pool.mem_items, Thread.outcome_eq_some]
  constructor
  · rintro ⟨x, hx, o, rfl⟩
    exact ⟨o, hx⟩
  · rintro ⟨o, hx⟩
    exact ⟨_, hx, o, rfl⟩

/-- The ledger is read off the logical goal and the threads. -/
theorem ledger_congr (hl : s.nav.logical.SameGoal t.nav.logical)
    (ht : Pool.items Thread.outcome t.threads = Pool.items Thread.outcome s.threads) :
    t.ledger = s.ledger := by
  obtain ⟨hid, hact, hcb⟩ := hl
  simp only [ledger, hid, hact, hcb, ht]

theorem ledger_cancel : s.cancel.ledger = s.ledger.revoke := by
  simp [ledger, cancel, WaypointNavigator.cancel, Ledger.revoke]

theorem ledger_sendGoal [Field R] (cfg : NavConfig R) (w : Waypoint R) (cb : κ) (mode : String)
    (now : Int) : (s.sendGoal cfg w cb mode now).ledger = s.ledger.issue cb := by
  simp [ledger, sendGoal, WaypointNavigator.sendGoal, LogicalGoal.begin, Ledger.issue,
    Pool.itemOf, Thread.outcome]

end

variable [DecidableEq κ] [LinearOrder R] {s t : NavSystem κ R}

/-- A thread without an outcome goes on to threads without one. -/
private theorem outcomes_advance {old : Thread κ R} {new : Multiset (Thread κ R)}
    (hm : old ∈ s.threads) (hold : old.outcome = none)
    (hnew : Pool.items Thread.outcome new = 0) :
    Pool.items Thread.outcome (Pool.advance s.threads old new) =
      Pool.items Thread.outcome s.threads := by
  rw [Pool.advance, Pool.items_add, hnew, Pool.items_erase hm, Pool.itemOf, hold]
  rfl

omit [DecidableEq κ] [LinearOrder R] in
private theorem outcome_dispatching {e : NavEvent κ R} {d : Dispatch R} {old : Thread κ R}
    (he : Dispatching e d old) : old.outcome = none := by
  rcases he with ⟨-, rfl⟩ | ⟨-, rfl⟩ <;> rfl

/-- The callback of a selected result runs. -/
theorem ledger_runCallback {g : Nat} {cb : κ} {r : NavigationResult} {o : Option (Dispatch R)}
    (hm : .runCallback g cb r o ∈ s.threads) :
    (s.advance (.runCallback g cb r o) (idleCall o)).ledger = s.ledger.deliver (g, cb, r) := by
  have hitems : Pool.items Thread.outcome (Pool.advance s.threads (.runCallback g cb r o)
      (idleCall o)) = (Pool.items Thread.outcome s.threads).erase (g, cb, r) := by
    rw [Pool.items_erase hm, Pool.advance, Pool.items_add, outcomes_idleCall, zero_add]
    simp only [Pool.itemOf, Thread.outcome, Option.elim_some, Multiset.singleton_add,
      Multiset.erase_cons_head]
  simp only [ledger, advance, Ledger.deliver, hitems]

/-- A dispatch is none of the client's business. -/
theorem ledger_runDispatch {d : Dispatch R} {old : Thread κ R} (hm : old ∈ s.threads)
    (hold : old.outcome = none) : (s.runDispatch d old).ledger = s.ledger := by
  have hl : (s.nav.dispatch d).1.logical = s.nav.logical := by
    unfold WaypointNavigator.dispatch
    split
    · rfl
    · split <;> rfl
  have hsame : ∀ {t : NavSystem κ R} {new : Multiset (Thread κ R)},
      t.nav = (s.nav.dispatch d).1 → t.threads = Pool.advance s.threads old new →
      Pool.items Thread.outcome new = 0 → t.ledger = s.ledger := by
    intro t new hn ht hnew
    refine ledger_congr ?_ (by rw [ht, outcomes_advance hm hold hnew])
    rw [hn, hl]
    exact ⟨rfl, rfl, rfl⟩
  unfold runDispatch
  split
  · rename_i hd
    exact hsame (by rw [hd]) rfl rfl
  · rename_i hd
    exact hsame (by rw [hd]) rfl rfl
  · rename_i hd
    exact hsame (by rw [hd]) rfl (outcomes_cancelCall _)

theorem ledger_cancelGoalAsync {q : Nat} (hm : .cancelGoalAsync q ∈ s.threads) :
    (s.cancelGoalAsync q).ledger = s.ledger :=
  ledger_congr ⟨rfl, rfl, rfl⟩ (outcomes_advance hm rfl rfl)

/-- `_finish` resolves the open goal. -/
private theorem ledger_finish {g : Nat} {r : NavigationResult} {o : Option (Dispatch R)}
    (hm : .finish g r o ∈ s.threads) (hc : s.nav.logical.isCurrent g = true) :
    s.ledger.Background
      (ledger
        { s with
          nav := { s.nav with logical := { s.nav.logical with active := false } }
          threads := Pool.advance s.threads (.finish g r o)
            (match s.nav.logical.resultCallback with
              | some cb => {.runCallback g cb r o}
              | none => idleCall o) }) := by
  obtain ⟨ha, hg⟩ := LogicalGoal.isCurrent_iff.mp hc
  cases hcb : s.nav.logical.resultCallback with
  | none =>
      have hl := outcomes_advance hm rfl (outcomes_idleCall o)
      have h := Ledger.Background.lapse (l := s.ledger) ha hcb
      simpa only [ledger, Ledger.revoke, hcb, hl] using h
  | some cb =>
      have hl : Pool.items Thread.outcome (Pool.advance s.threads (.finish g r o)
          {.runCallback g cb r o}) = (g, cb, r) ::ₘ Pool.items Thread.outcome s.threads := by
        have hfin : Pool.itemOf Thread.outcome (.finish g r o : Thread κ R) = 0 := rfl
        have hrun : Pool.itemOf Thread.outcome (.runCallback g cb r o : Thread κ R) =
            {(g, cb, r)} := rfl
        rw [Pool.advance, Multiset.singleton_add, Pool.items_cons, Pool.items_erase hm, hfin, hrun,
          zero_add, Multiset.singleton_add]
      have h := Ledger.Background.resolve (l := s.ledger) r ha hcb
      simpa only [ledger, Ledger.resolve, hcb, hl, ← hg] using h

end NavSystem

namespace NavEvent

/-- The ledger's step that a step of the navigator is. -/
def OnLedger [DecidableEq κ] (e : NavEvent κ R) (l l' : Ledger κ NavigationResult) : Prop :=
  match e with
  | .sendGoal _ cb _ _ => l' = l.issue cb
  | .cancel => l' = l.revoke
  | .runCallback g cb r _ => (g, cb, r) ∈ l.undelivered ∧ l' = l.deliver (g, cb, r)
  | _ => l.Background l'

/-- The events the client has no part in. -/
def background : NavEvent κ R → Bool
  | .sendGoal .. | .cancel | .runCallback .. => false
  | _ => true

theorem OnLedger.of_background [DecidableEq κ] {e : NavEvent κ R}
    {l l' : Ledger κ NavigationResult} (h : e.OnLedger l l') (hb : e.background = true) :
    l.Background l' := by
  cases e with
  | sendGoal | cancel | runCallback => cases hb
  | _ => exact h

end NavEvent

namespace NavSystem

variable [DecidableEq κ] [LinearOrder R] [Field R] {cfg : NavConfig R} {s t : NavSystem κ R}
  {e : NavEvent κ R}

/-- **The navigator refines the ledger.** -/
theorem ledger_step (he : Effect cfg s e t) : e.OnLedger s.ledger t.ledger := by
  have of_eq : ∀ {s t : NavSystem κ R}, t.ledger = s.ledger → s.ledger.Background t.ledger := by
    intro s t h
    rw [h]
    exact .same
  have same : ∀ {s t : NavSystem κ R}, t.nav.logical = s.nav.logical →
      Pool.items Thread.outcome t.threads = Pool.items Thread.outcome s.threads →
      s.ledger.Background t.ledger := by
    intro s t hl ht
    exact of_eq (ledger_congr (by rw [hl]; exact ⟨rfl, rfl, rfl⟩) ht)
  have dispatching : ∀ {d : Dispatch R} {old : Thread κ R}, Dispatching e d old →
      s.ledger.Background t.ledger → e.OnLedger s.ledger t.ledger := by
    rintro d old (⟨rfl, -⟩ | ⟨rfl, -⟩) h <;> exact h
  cases he with
  | sendGoal => exact ledger_sendGoal cfg _ _ _ _
  | cancel => exact ledger_cancel
  | runCallback hm => exact ⟨mem_undelivered.mpr ⟨_, hm⟩, ledger_runCallback hm⟩
  | finishCurrent hm hc => exact ledger_finish hm hc
  | unavailable hm | cancelGoalAsync hm =>
      exact same rfl (outcomes_advance hm rfl rfl)
  | finishStale hm => exact same rfl (outcomes_advance hm rfl (outcomes_idleCall _))
  | dispatchStale hd hm =>
      exact dispatching hd (same rfl (outcomes_advance hm (outcome_dispatching hd) rfl))
  | dispatchSend hd hm =>
      exact dispatching hd (same rfl (outcomes_advance hm (outcome_dispatching hd) rfl))
  | dispatchDefer hd hm =>
      refine dispatching hd (same rfl (outcomes_advance hm (outcome_dispatching hd) ?_))
      exact outcomes_cancelCall _
  | @rejected q | @resultDone q =>
      refine same (t := ⟨_, _, _ ::ₘ s.threads⟩) rfl ?_
      rw [Pool.items_cons]
      exact zero_add _
  | accepted =>
      refine same rfl ?_
      rw [Pool.items_add, outcomes_cancelCall, zero_add]
  | @feedback q msg now =>
      have hl := s.nav.logical.feedbackCallback_same cfg (s.lane q).goalId msg now
      have hledger : (s.feedback cfg q msg now).ledger = s.ledger := by
        apply ledger_congr hl
        rw [feedback, Pool.items_add]
        split
        · rw [Pool.items_singleton]; exact zero_add _
        · rw [Pool.items_zero, zero_add]
      exact of_eq hledger
  | @plan msg =>
      exact of_eq (ledger_congr (s.nav.logical.planCallback_same cfg msg) rfl)
  | _ => exact same rfl rfl

end NavSystem

end MgRobot.Sequencer

/-!
# The sequencer and its navigator

The two objects and their two locks. An operation of the state machine runs
under the FSM lock, and so does the rest of a `send_goal` it ends in: the wait
for the server, the dispatch and the hand-over to the action client. Meanwhile
the threads of the navigator and Nav2 go on, and a result callback that `_finish`
selected waits for the FSM lock, unless it runs inside the `send_goal` itself.

An operation is one step: it reaches the navigator at most once, but for a
second `cancel` right after the first, and nobody else reads the FSM record.
-/

namespace MgRobot.Sequencer

open MgRobot.Lib

set_option autoImplicit false

variable {R : Type*}

structure SequencerConfig (R : Type*) extends NavConfig R where
  isPrintable : Char → Bool

/-- What the thread inside `send_goal` does next while it holds the FSM lock. -/
inductive Holder (R : Type*) where
  | thread (x : Thread Callback R)
  | sendGoalAsync (seq : Nat)
  deriving DecidableEq, Repr

/-- `actions` counts the executor threads that have not called back, and `manualRequests` are
the `navigate_to_pose` calls between their two sections. `episode` is the goal id of the last
`_enter_navigating`, which no object of the source records. -/
structure World (R : Type*) where
  sequencer : TimedFsm R
  nav : NavSystem Callback R
  holder : Option (Holder R)
  actions : Nat
  manualRequests : Multiset (Pose R × String)
  episode : Nat

inductive WorldEvent (R : Type*) where
  | operation (e : FsmEvent R) (nowNs : Int)
  | navigateToPose (pose : Pose R) (navigationMode : String)
  | layersFailed (pose : Pose R) (navigationMode : String)
  | deliver (goalId : Nat) (callback : Callback) (result : NavigationResult)
      (onIdle : Option (Dispatch R)) (nowNs : Int)
  | nav (e : NavEvent Callback R)

/-- The operation a result callback is. -/
def Callback.event : Callback → NavigationResult → FsmEvent R
  | .sequence, result => .onNavigationResult result
  | .manual, result => .onManualGoalResult result

namespace World

variable (w : World R)

section

variable [DecidableEq R]

/-- What an operation waits for, its lock aside. The result callbacks come with `deliver`. -/
def Due : FsmEvent R → Prop
  | .sendManualGoal pose mode => (pose, mode) ∈ w.manualRequests
  | .onArrivingDone => 0 < w.actions
  | .onManualGoalResult _ | .onNavigationResult _ => False
  | _ => True

instance decidableDue : (e : FsmEvent R) → Decidable (w.Due e)
  | .sendManualGoal pose mode => inferInstanceAs (Decidable ((pose, mode) ∈ w.manualRequests))
  | .onArrivingDone => inferInstanceAs (Decidable (0 < w.actions))
  | .onManualGoalResult _ | .onNavigationResult _ => inferInstanceAs (Decidable False)
  | .setNextIndex _ | .reloadWaypoints _ | .start _ _ | .stop | .pauseRequest _ _ _
  | .onStartingDone _ => inferInstanceAs (Decidable True)

/-- The operation has begun. -/
def consume : FsmEvent R → World R
  | .sendManualGoal pose mode => { w with manualRequests := w.manualRequests.erase (pose, mode) }
  | .onArrivingDone => { w with actions := w.actions - 1 }
  | _ => w

end

variable [LinearOrder R]

/-- What the holder of the FSM lock does after an event of the navigator. -/
def follow (e : NavEvent Callback R) : Option (Holder R) :=
  match e with
  | .serverReady d =>
      if w.holder = some (.thread (.waitServer d)) then
        match (w.nav.nav.dispatch d).2 with
        | .stale => none
        | .send seq => some (.sendGoalAsync seq)
        | .deferred handle => handle.map fun seq => .thread (.cancelGoalAsync seq)
      else w.holder
  | .serverUnavailable d =>
      if w.holder = some (.thread (.waitServer d)) then
        some (.thread (.finish d.goalId .failed none))
      else w.holder
  | .finish g r o =>
      if w.holder = some (.thread (.finish g r o)) then
        (w.nav.nav.logical.finish g).2.map fun cb => .thread (.runCallback g cb r o)
      else w.holder
  | .sendGoalAsync seq => if w.holder = some (.sendGoalAsync seq) then none else w.holder
  | .cancelGoalAsync seq =>
      if w.holder = some (.thread (.cancelGoalAsync seq)) then none else w.holder
  | _ => w.holder

variable [Field R] (cfg : SequencerConfig R)

def call (nowNs : Int) (w : World R) : Call R → World R
  | .cancel => { w with nav := w.nav.cancel }
  | .sendGoal waypoint cb mode =>
      let (_, d) := w.nav.nav.sendGoal cfg.toNavConfig waypoint cb mode nowNs
      { w with
        nav := w.nav.sendGoal cfg.toNavConfig waypoint cb mode nowNs
        holder := some (.thread (.waitServer d))
        episode := if cb = .sequence then d.goalId else w.episode }
  | .execute _ _ => { w with actions := w.actions + 1 }
  | .startTimer _ _ | .publishNavigationMode _ | .invalidTransition _ _ => w

/-- An operation runs; `TimedFsm.step` has its effect on the record and the timers. -/
def runOperation (e : FsmEvent R) (nowNs : Int) : Option (World R) :=
  (w.sequencer.step cfg.isPrintable e).map fun sequencer =>
    (w.sequencer.fsm.handle cfg.isPrintable e).calls.foldl (call cfg nowNs)
      { w with sequencer := sequencer }

def step (w : World R) : WorldEvent R → Option (World R)
  | .operation e now =>
      if w.holder = none ∧ w.Due e then (w.consume e).runOperation cfg e now else none
  | .navigateToPose pose mode =>
      if w.holder = none then
        match w.sequencer.fsm.manualGoalRejection cfg.isPrintable mode with
        | some _ => some w
        | none => some { w with manualRequests := (pose, mode) ::ₘ w.manualRequests }
      else none
  | .layersFailed pose mode =>
      if (pose, mode) ∈ w.manualRequests ∧ mode ≠ defaultBtMode then
        some { w with manualRequests := w.manualRequests.erase (pose, mode) }
      else none
  | .deliver g cb r o now =>
      if (w.holder = none ∨ w.holder = some (.thread (.runCallback g cb r o))) ∧
          .runCallback g cb r o ∈ w.nav.threads then
        -- `o` belongs to a goal sent before `g`: its dispatch finds itself stale, also when
        -- it runs before a `send_goal` of the callback is over
        runOperation
          { w with nav := w.nav.advance (.runCallback g cb r o) (idleCall o), holder := none }
          cfg (cb.event r) now
      else none
  | .nav e =>
      if e.background then
        (w.nav.step cfg.toNavConfig e).map fun nav => { w with nav := nav, holder := w.follow e }
      else none

omit [LinearOrder R] in
/-- The sequencer with its waypoints loaded. -/
def boot (waypoints : WaypointList R) (stallDistance : R) : World R where
  sequencer := .boot waypoints
  nav := .boot stallDistance
  holder := none
  actions := 0
  manualRequests := 0
  episode := 0

end World

/-- The configuration of `NavConfig.axes`, for concrete runs. -/
def SequencerConfig.axes : SequencerConfig ℚ := { NavConfig.axes with isPrintable := fun _ => true }

end MgRobot.Sequencer
