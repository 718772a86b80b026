import MgRobot.Sequencer.Fsm

/-!
# What each operation of the state machine does

`FsmEvent` lists the operations that take the FSM lock, and `Effect` tells their
branches apart: the guard, the new record and the calls, with every transition
carried out. Invariants are read off from here.
-/

namespace MgRobot.Sequencer

set_option autoImplicit false

variable {R : Type*}

inductive FsmEvent (R : Type*) where
  | setNextIndex (index : Int)
  | reloadWaypoints (waypoints : WaypointList R)
  | sendManualGoal (pose : Pose R) (navigationMode : String)
  | start (countdownMs nowNs : Int)
  | stop
  | pauseRequest (requesterId : String) (active : Bool) (nowNs : Int)
  | onStartingDone (generation : Nat)
  | onManualGoalResult (result : NavigationResult)
  | onNavigationResult (result : NavigationResult)
  | onArrivingDone
  deriving DecidableEq, Repr

namespace SequencerFsm

/-- `_transition` where the table allows it. -/
def moveTo (f : SequencerFsm R) (newState : SequencerState) : SequencerFsm R :=
  { f with state := newState, waitingTrigger := false }

variable (f : SequencerFsm R)

def handle [Field R] (isPrintable : Char → Bool) : FsmEvent R → Turn R
  | .setNextIndex index => (f.setNextIndex index).1
  | .reloadWaypoints waypoints => (f.reloadWaypoints waypoints).1
  | .sendManualGoal pose mode => (f.sendManualGoal isPrintable pose mode).1
  | .start countdownMs nowNs => (f.start countdownMs nowNs).1
  | .stop => f.stop.1
  | .pauseRequest requesterId active nowNs => f.pauseRequest requesterId active nowNs
  | .onStartingDone generation => f.onStartingDone generation
  | .onManualGoalResult result => f.onManualGoalResult result
  | .onNavigationResult result => f.onNavigationResult result
  | .onArrivingDone => f.onArrivingDone

/-- A start of the countdown. -/
def countdown (countdownMs nowNs : Int) : Turn R :=
  let timer := f.countdownTimer.start countdownMs nowNs
  { fsm := { f.moveTo .onStarting with countdownTimer := timer }
    calls := [.startTimer timer.durationMs timer.generation] }

/-- The modes the actions of a waypoint switch to, in order. -/
def modesOf (actions : List ActionConfig) : List String :=
  (actions.filter fun a => a.type = "set_navigation_mode").map ActionConfig.mode

/-- What `_enter_navigating` does from a state it is called in. -/
inductive Enters (f : SequencerFsm R) : Turn R → Prop
  | raised (hg : f.waypoints.get f.currentIndex = none) : Enters f ⟨f, [], true⟩
  | sent {w : Waypoint R} (hg : f.waypoints.get f.currentIndex = some w) :
      Enters f ⟨f.moveTo .navigating, [.sendGoal w .sequence f.navigationMode], false⟩

/-- What `_advance_to_next` does from a state it is called in. -/
inductive Advances (f : SequencerFsm R) : Turn R → Prop
  | stopped (hs : f.stopPending = true) :
      Advances f ⟨{ f.moveTo .idle with stopPending := false, pauseSlots := ∅ }, [.cancel], false⟩
  | raised (hs : f.stopPending = false) (hg : f.waypoints.get f.currentIndex = none) :
      Advances f ⟨f, [], true⟩
  | goalReached (hs : f.stopPending = false) (hi : f.waypoints.getSize ≤ f.currentIndex + 1) :
      Advances f
        ⟨{ f.moveTo .goalReached with currentIndex := f.currentIndex + 1 }, [.cancel], false⟩
  | waitTrigger {w : Waypoint R} (hs : f.stopPending = false)
      (hi : f.currentIndex + 1 < f.waypoints.getSize)
      (hg : f.waypoints.get f.currentIndex = some w) (hw : w.waitsForTrigger = true) :
      Advances f
        ⟨{ f.moveTo .idle with currentIndex := f.currentIndex + 1, waitingTrigger := true },
          [.cancel], false⟩
  | paused (hs : f.stopPending = false) (hi : f.currentIndex + 1 < f.waypoints.getSize)
      (hp : f.pauseSlots ≠ ∅) :
      Advances f
        ⟨{ f.moveTo .suspended with
            currentIndex := f.currentIndex + 1, preSuspendState := .navigating },
          [.cancel], false⟩
  | next {t : Turn R} {w : Waypoint R} (hs : f.stopPending = false)
      (hi : f.currentIndex + 1 < f.waypoints.getSize) (hp : f.pauseSlots = ∅)
      (ht : Enters { f with currentIndex := f.currentIndex + 1 } t)
      (hg : f.waypoints.get f.currentIndex = some w) (hw : w.waitsForTrigger = false) :
      Advances f t

variable {f}

theorem enters (hs : .navigating ∈ allowedTransitions f.state) :
    Enters f (Turn.enterNavigating { fsm := f }) := by
  unfold Turn.enterNavigating
  cases hg : f.waypoints.get f.currentIndex with
  | none => exact .raised hg
  | some w =>
      simp only [Turn.transition, hs, if_true, Turn.call, List.nil_append]
      exact .sent hg

theorem advances (hs : f.state = .navigating ∨ f.state = .onArriving) :
    Advances f (Turn.advanceToNext { fsm := f }) := by
  have hidle : .idle ∈ allowedTransitions f.state := by rcases hs with h | h <;> simp [h, allowedTransitions]
  have hgoal : .goalReached ∈ allowedTransitions f.state := by
    rcases hs with h | h <;> simp [h, allowedTransitions]
  have hsusp : .suspended ∈ allowedTransitions f.state := by
    rcases hs with h | h <;> simp [h, allowedTransitions]
  have hnav : .navigating ∈ allowedTransitions f.state := by
    rcases hs with h | h <;> simp [h, allowedTransitions]
  unfold Turn.advanceToNext
  cases hstop : f.stopPending with
  | true =>
      simp only [Turn.transition, Turn.call, hidle, if_true, List.nil_append]
      exact .stopped hstop
  | false =>
      simp only [Bool.false_eq_true, if_false]
      cases hg : f.waypoints.get f.currentIndex with
      | none => exact .raised hstop hg
      | some w =>
          simp only
          split
          · rename_i hi
            simp only [Turn.transition, Turn.call, hgoal, if_true, List.nil_append]
            exact .goalReached hstop hi
          · rename_i hi
            have hi : f.currentIndex + 1 < f.waypoints.getSize := by omega
            split
            · rename_i hw
              simp only [Turn.transition, Turn.call, hidle, if_true, List.nil_append]
              exact .waitTrigger hstop hi hg hw
            · rename_i hw
              split
              · rename_i hp
                simp only [Turn.transition, Turn.call, hsusp, if_true, List.nil_append]
                exact .paused hstop hi hp
              · rename_i hp
                exact .next hstop hi (not_not.mp hp) (enters hnav) hg (Bool.eq_false_iff.mpr hw)

theorem modesOf_cons (a : ActionConfig) (rest : List ActionConfig) :
    modesOf (a :: rest) =
      if a.type = "set_navigation_mode" then a.mode :: modesOf rest else modesOf rest := by
  by_cases ha : a.type = "set_navigation_mode" <;> simp [modesOf, ha]

theorem foldl_setNavigationMode (actions : List ActionConfig) (t : Turn R) :
    actions.foldl Turn.setNavigationMode t =
      { t with
        fsm := { t.fsm with navigationMode := (modesOf actions).getLastD t.fsm.navigationMode }
        calls := t.calls ++ (modesOf actions).map .publishNavigationMode } := by
  induction actions generalizing t with
  | nil => simp [modesOf]
  | cons a rest ih =>
      rw [List.foldl_cons, ih, modesOf_cons]
      by_cases ha : a.type = "set_navigation_mode"
      · simp only [Turn.setNavigationMode, ha, if_true, Turn.call, List.getLastD_cons,
          List.map_cons, List.append_assoc, List.singleton_append]
      · simp only [Turn.setNavigationMode, ha, if_false]

/-- The branches of `handle`. -/
inductive Effect [Field R] (f : SequencerFsm R) : FsmEvent R → Turn R → Prop
  | setNextIndexRejected {index : Int} : Effect f (.setNextIndex index) ⟨f, [], false⟩
  | setNextIndex {index : Int} (hs : f.state = .idle ∨ f.state = .suspended) (h0 : 0 ≤ index)
      (hi : index < f.waypoints.getSize) :
      Effect f (.setNextIndex index)
        ⟨{ f with currentIndex := index, waitingTrigger := false }, [], false⟩
  | reloadRejected {waypoints : WaypointList R} : Effect f (.reloadWaypoints waypoints) ⟨f, [], false⟩
  | reload {waypoints : WaypointList R}
      (hs : f.state = .idle ∨ f.state = .goalReached ∨ f.state = .error) :
      Effect f (.reloadWaypoints waypoints)
        ⟨{ f with
            waypoints := waypoints
            waitingTrigger := false
            currentIndex := clampIndex waypoints.getSize f.currentIndex }, [], false⟩
  | manualRejected {pose : Pose R} {mode : String} :
      Effect f (.sendManualGoal pose mode) ⟨f, [], false⟩
  | manual {pose : Pose R} {mode : String} (ha : f.AcceptsManualGoal mode) :
      Effect f (.sendManualGoal pose mode)
        ⟨{ f with manualGoalActive := true }, [.sendGoal (manualWaypoint pose) .manual mode], false⟩
  | startRejected {ms now : Int}
      (hr : f.manualGoalActive = true ∨ f.pauseSlots ≠ ∅ ∨
        f.state = .idle ∧ f.waypoints.getSize = 0 ∨ f.state ≠ .idle ∧ f.state ≠ .goalReached) :
      Effect f (.start ms now) ⟨f, [], false⟩
  | startIdle {ms now : Int} (hs : f.state = .idle) (hm : f.manualGoalActive = false)
      (hp : f.pauseSlots = ∅) (hsize : f.waypoints.getSize ≠ 0) :
      Effect f (.start ms now) (f.countdown ms now)
  | startAgain {ms now : Int} (hs : f.state = .goalReached) (hm : f.manualGoalActive = false)
      (hp : f.pauseSlots = ∅) :
      Effect f (.start ms now) (countdown { f with currentIndex := 0 } ms now)
  | stopIdle (hs : f.state = .idle) :
      Effect f .stop
        ⟨{ f with manualGoalActive := false },
          if f.manualGoalActive then [.cancel] else [], false⟩
  | stopStarting (hs : f.state = .onStarting) :
      Effect f .stop
        ⟨{ f.moveTo .idle with
            manualGoalActive := false
            countdownTimer := f.countdownTimer.cancel
            pauseSlots := ∅ },
          if f.manualGoalActive then [.cancel] else [], false⟩
  | stopNavigating (hs : f.state = .navigating) :
      Effect f .stop
        ⟨{ f.moveTo .idle with manualGoalActive := false, pauseSlots := ∅ },
          if f.manualGoalActive then [.cancel, .cancel] else [.cancel], false⟩
  | stopDeferred (hs : f.state = .onArriving) :
      Effect f .stop
        ⟨{ f with manualGoalActive := false, stopPending := true },
          if f.manualGoalActive then [.cancel] else [], false⟩
  | stopResting (hs : f.state = .suspended ∨ f.state = .goalReached ∨ f.state = .error) :
      Effect f .stop
        ⟨{ f.moveTo .idle with manualGoalActive := false, pauseSlots := ∅ },
          if f.manualGoalActive then [.cancel] else [], false⟩
  | pauseStarting {r : String} {now : Int} (hs : f.state = .onStarting) :
      Effect f (.pauseRequest r true now)
        ⟨{ f.moveTo .suspended with
            savedCountdownMs := f.countdownTimer.remainingMs now
            countdownTimer := f.countdownTimer.cancel
            preSuspendState := .onStarting
            pauseSlots := insert r f.pauseSlots }, [], false⟩
  | pauseNavigating {r : String} {now : Int} (hs : f.state = .navigating) :
      Effect f (.pauseRequest r true now)
        ⟨{ f.moveTo .suspended with
            preSuspendState := .navigating, pauseSlots := insert r f.pauseSlots },
          [.cancel], false⟩
  | pause {r : String} {now : Int} (hs : f.state ≠ .onStarting) (hn : f.state ≠ .navigating) :
      Effect f (.pauseRequest r true now)
        ⟨{ f with pauseSlots := insert r f.pauseSlots }, [], false⟩
  | unpause {r : String} {now : Int} (hs : f.pauseSlots.erase r ≠ ∅ ∨ f.state ≠ .suspended) :
      Effect f (.pauseRequest r false now) ⟨{ f with pauseSlots := f.pauseSlots.erase r }, [], false⟩
  | resumeStarting {r : String} {now : Int} (hp : f.pauseSlots.erase r = ∅)
      (hs : f.state = .suspended) (hpre : f.preSuspendState = .onStarting) :
      Effect f (.pauseRequest r false now)
        (countdown { f with pauseSlots := ∅ } f.savedCountdownMs now)
  | resumeNavigating {r : String} {now : Int} {t : Turn R} (hp : f.pauseSlots.erase r = ∅)
      (hs : f.state = .suspended) (hpre : f.preSuspendState ≠ .onStarting)
      (ht : Enters { f with pauseSlots := ∅ } t) : Effect f (.pauseRequest r false now) t
  | startingStale {g : Nat} (hg : f.state ≠ .onStarting ∨ g ≠ f.countdownTimer.generation) :
      Effect f (.onStartingDone g) ⟨f, [], false⟩
  | startingDone {g : Nat} {t : Turn R} (hs : f.state = .onStarting)
      (hg : g = f.countdownTimer.generation) (ht : Enters f t) : Effect f (.onStartingDone g) t
  | manualResult {r : NavigationResult} :
      Effect f (.onManualGoalResult r) ⟨{ f with manualGoalActive := false }, [], false⟩
  | resultIgnored {r : NavigationResult} (hr : f.state ≠ .navigating ∨ r = .canceled) :
      Effect f (.onNavigationResult r) ⟨f, [], false⟩
  | resultFailed (hs : f.state = .navigating) :
      Effect f (.onNavigationResult .failed) ⟨f.moveTo .error, [], false⟩
  | resultRaised {r : NavigationResult} (hs : f.state = .navigating)
      (hr : r = .succeeded ∨ r = .passed) (hg : f.waypoints.get f.currentIndex = none) :
      Effect f (.onNavigationResult r) ⟨f, [], true⟩
  | arrived {r : NavigationResult} {w : Waypoint R} (hs : f.state = .navigating)
      (hr : r = .succeeded ∨ r = .passed) (hg : f.waypoints.get f.currentIndex = some w)
      (ha : w.onReachedActions ≠ []) :
      Effect f (.onNavigationResult r)
        ⟨{ f.moveTo .onArriving with
            navigationMode := (modesOf w.onReachedActions).getLastD f.navigationMode },
          .cancel :: (modesOf w.onReachedActions).map .publishNavigationMode ++
            [.execute w.onReachedActions f.currentIndex], false⟩
  | reached {r : NavigationResult} {t : Turn R} {w : Waypoint R} (hs : f.state = .navigating)
      (hr : r = .succeeded ∨ r = .passed) (ht : Advances f t)
      (hg : f.waypoints.get f.currentIndex = some w) (ha : w.onReachedActions = []) :
      Effect f (.onNavigationResult r) t
  | arrivingIgnored (hs : f.state ≠ .onArriving) : Effect f .onArrivingDone ⟨f, [], false⟩
  | arrivingDone {t : Turn R} (hs : f.state = .onArriving) (ht : Advances f t) :
      Effect f .onArrivingDone t

theorem enterOnStarting_eq (ms now : Int) (hs : .onStarting ∈ allowedTransitions f.state) :
    Turn.enterOnStarting { fsm := f } ms now = f.countdown ms now := by
  simp only [Turn.enterOnStarting, Turn.transition, hs, if_true, Turn.call, List.nil_append]
  rfl

variable [Field R]

theorem effect_setNextIndex (index : Int) :
    Effect f (.setNextIndex index) (f.setNextIndex index).1 := by
  unfold SequencerFsm.setNextIndex
  split
  · exact .setNextIndexRejected
  · split
    · exact .setNextIndexRejected
    · rename_i hs hi
      exact .setNextIndex (by tauto) (by omega) (by omega)

theorem effect_reload (waypoints : WaypointList R) :
    Effect f (.reloadWaypoints waypoints) (f.reloadWaypoints waypoints).1 := by
  unfold reloadWaypoints
  split
  · exact .reloadRejected
  · exact .reload (by tauto)

theorem effect_manual (isPrintable : Char → Bool) (pose : Pose R) (mode : String) :
    Effect f (.sendManualGoal pose mode) (f.sendManualGoal isPrintable pose mode).1 := by
  unfold sendManualGoal
  cases hr : f.manualGoalRejection isPrintable mode with
  | some rejection => exact .manualRejected
  | none => exact .manual (f.manualGoalRejection_eq_none.mp hr)

theorem effect_start (ms now : Int) : Effect f (.start ms now) (f.start ms now).1 := by
  unfold start
  split
  · exact .startRejected (Or.inl ‹_›)
  · rename_i hm
    split
    · rename_i hp
      exact .startRejected (Or.inr (Or.inl hp.1))
    · rename_i hp
      have hm : f.manualGoalActive = false := by simpa using hm
      cases hs : f.state with
      | idle =>
          have hp : f.pauseSlots = ∅ := by tauto
          simp only
          split
          · exact .startRejected (Or.inr (Or.inr (Or.inl ⟨hs, ‹_›⟩)))
          · rename_i hsize
            rw [enterOnStarting_eq ms now (by simp [hs, allowedTransitions])]
            exact .startIdle hs hm hp hsize
      | goalReached =>
          have hp : f.pauseSlots = ∅ := by tauto
          simp only
          rw [enterOnStarting_eq ms now (by simp [allowedTransitions])]
          exact .startAgain hs hm hp
      | _ => exact .startRejected (Or.inr (Or.inr (Or.inr (by simp [hs]))))

theorem effect_stop : Effect f .stop f.stop.1 := by
  obtain ⟨state, ws, index, pending, pre, saved, mode, manual, waiting, timer, slots⟩ := f
  cases state with
  | idle => cases manual <;> exact .stopIdle rfl
  | onStarting => cases manual <;> exact .stopStarting rfl
  | navigating => cases manual <;> exact .stopNavigating rfl
  | onArriving => cases manual <;> exact .stopDeferred rfl
  | suspended => cases manual <;> exact .stopResting (Or.inl rfl)
  | goalReached => cases manual <;> exact .stopResting (Or.inr (Or.inl rfl))
  | error => cases manual <;> exact .stopResting (Or.inr (Or.inr rfl))

theorem effect_pauseRequest (r : String) (active : Bool) (now : Int) :
    Effect f (.pauseRequest r active now) (f.pauseRequest r active now) := by
  cases active with
  | true =>
      cases hs : f.state with
      | onStarting =>
          have h : Effect f (.pauseRequest r true now) _ := .pauseStarting hs
          simpa [pauseRequest, applyPause, hs, Turn.transition, allowedTransitions, moveTo] using h
      | navigating =>
          have h : Effect f (.pauseRequest r true now) _ := .pauseNavigating hs
          simpa [pauseRequest, applyPause, hs, Turn.transition, allowedTransitions, moveTo] using h
      | _ =>
          have h : Effect f (.pauseRequest r true now) _ := .pause (by simp [hs]) (by simp [hs])
          simpa [pauseRequest, applyPause, hs] using h
  | false =>
      simp only [pauseRequest, Bool.false_eq_true, if_false, tryResume]
      split
      · rename_i hp
        exact .unpause hp
      · rename_i hp
        simp only [not_or, not_not] at hp
        obtain ⟨hp, hs⟩ := hp
        rw [hp]
        split
        · rename_i hpre
          rw [enterOnStarting_eq _ _ (by simp [hs, allowedTransitions])]
          exact .resumeStarting hp hs hpre
        · rename_i hpre
          exact .resumeNavigating hp hs hpre (enters (by simp [hs, allowedTransitions]))

theorem effect_onNavigationResult (r : NavigationResult) :
    Effect f (.onNavigationResult r) (f.onNavigationResult r) := by
  unfold onNavigationResult
  split
  · rename_i hs
    exact .resultIgnored (Or.inl hs)
  · rename_i hs
    have hs : f.state = .navigating := not_not.mp hs
    split
    · rename_i hr
      exact .resultIgnored (Or.inr hr)
    · rename_i hr
      split
      · rename_i hn
        obtain rfl : r = .failed := by cases r <;> simp_all
        simp only [Turn.transition, hs, allowedTransitions]
        exact .resultFailed hs
      · rename_i hn
        have hok : r = .succeeded ∨ r = .passed := by tauto
        cases hg : f.waypoints.get f.currentIndex with
        | none => exact .resultRaised hs hok hg
        | some w =>
            simp only
            split
            · rename_i ha
              have h := Effect.arrived hs hok hg ha
              simpa [Turn.enterOnArriving, foldl_setNavigationMode, Turn.transition, Turn.call,
                hs, allowedTransitions, moveTo] using h
            · rename_i ha
              exact .reached hs hok (advances (Or.inl hs)) hg (not_not.mp ha)

/-- Every operation has one of the effects above. -/
theorem handle_effect (isPrintable : Char → Bool) (e : FsmEvent R) :
    Effect f e (f.handle isPrintable e) := by
  cases e with
  | setNextIndex index => exact effect_setNextIndex index
  | reloadWaypoints waypoints => exact effect_reload waypoints
  | sendManualGoal pose mode => exact effect_manual isPrintable pose mode
  | start ms now => exact effect_start ms now
  | stop => exact effect_stop
  | pauseRequest r active now => exact effect_pauseRequest r active now
  | onStartingDone g =>
      simp only [handle, onStartingDone]
      split
      · exact .startingStale ‹_›
      · rename_i hs
        simp only [not_or, not_not] at hs
        exact .startingDone hs.1 hs.2 (enters (by simp [hs.1, allowedTransitions]))
  | onManualGoalResult r => exact .manualResult
  | onNavigationResult r => exact effect_onNavigationResult r
  | onArrivingDone =>
      simp only [handle, onArrivingDone]
      split
      · exact .arrivingIgnored ‹_›
      · rename_i hs
        have hs : f.state = .onArriving := not_not.mp hs
        exact .arrivingDone hs (advances (Or.inr hs))

end SequencerFsm

end MgRobot.Sequencer
