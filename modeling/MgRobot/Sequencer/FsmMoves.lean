import MgRobot.Sequencer.FsmInvariant

/-!
# What a turn asks of the navigator

Seen from the navigator an operation of the state machine does one of few
things: it asks for nothing, it cancels, or it sends a goal. Which of them it is
goes together with how the state and the manual goal flag change.
-/

namespace MgRobot.Sequencer

set_option autoImplicit false

variable {R : Type*}

def Call.onNavigator : Call R → Bool
  | .cancel | .sendGoal .. => true
  | _ => false

namespace SequencerFsm

variable (f : SequencerFsm R)

/-- The guards of `_advance_to_next` on the way to `_enter_navigating`. -/
def goesOn : Bool :=
  !f.stopPending && decide (f.currentIndex + 1 < f.waypoints.getSize) &&
    decide (f.pauseSlots = ∅) &&
    (f.waypoints.get f.currentIndex).any fun w => !w.waitsForTrigger

/-- The guards under which an operation goes on to `_enter_navigating` and its `send_goal`. -/
def entersNavigating : FsmEvent R → Bool
  | .onStartingDone generation =>
      decide (f.state = .onStarting ∧ generation = f.countdownTimer.generation) &&
        (f.waypoints.get f.currentIndex).isSome
  | .pauseRequest requesterId active _ =>
      !active && decide (f.state = .suspended ∧ f.pauseSlots.erase requesterId = ∅ ∧
        f.preSuspendState ≠ .onStarting)
  | .onNavigationResult result =>
      decide (f.state = .navigating ∧ (result = .succeeded ∨ result = .passed)) &&
        ((f.waypoints.get f.currentIndex).any fun w => w.onReachedActions.isEmpty) && f.goesOn
  | .onArrivingDone => decide (f.state = .onArriving) && f.goesOn
  | _ => false

/-- What a turn means to the navigator. -/
inductive Move (e : FsmEvent R) (t : Turn R) : Prop
  | quiet (hc : ∀ c ∈ t.calls, c.onNavigator = false)
      (hs : t.fsm.state = .navigating ↔ f.state = .navigating)
      (hm : t.fsm.manualGoalActive = f.manualGoalActive)
      (he : ∀ r, e = .onNavigationResult r → f.state = .navigating → r = .canceled)
  | manualDone {r : NavigationResult} (he : e = .onManualGoalResult r)
      (ht : t = ⟨{ f with manualGoalActive := false }, [], false⟩)
  | failed (he : e = .onNavigationResult .failed) (hs : f.state = .navigating)
      (ht : t = ⟨f.moveTo .error, [], false⟩)
  | canceled {rest : List (Call R)} (hc : t.calls = .cancel :: rest)
      (hrest : ∀ c ∈ rest, ∀ w cb mode, c ≠ .sendGoal w cb mode)
      (hs : t.fsm.state ≠ .navigating)
  | sequence {w : Waypoint R} {mode : String} (hc : t.calls = [.sendGoal w .sequence mode])
      (hs : t.fsm.state = .navigating) (he : f.entersNavigating e = true)
  | manual {pose : Pose R} {w : Waypoint R} {mode : String} (he : e = .sendManualGoal pose mode)
      (hc : t.calls = [.sendGoal w .manual mode]) (ha : f.AcceptsManualGoal mode)
      (ht : t.fsm = { f with manualGoalActive := true })

variable {f} {t : Turn R}

/-- A waypoint in range was read without an error. -/
theorem Enters.sent_of_lt {g : SequencerFsm R} (ht : Enters g t) (h0 : 0 ≤ g.currentIndex)
    (hi : g.currentIndex < g.waypoints.getSize) :
    ∃ w, t.calls = [.sendGoal w .sequence g.navigationMode] ∧ t.fsm = g.moveTo .navigating := by
  cases ht with
  | raised hg =>
      obtain ⟨w, hw⟩ := g.waypoints.get_isSome_of_lt h0 hi
      rw [hg] at hw
      cases hw
  | @sent w => exact ⟨w, rfl, rfl⟩

/-- A turn that cancels and sends nothing. -/
private theorem Move.cancel {e : FsmEvent R} (hc : t.calls = [.cancel])
    (hs : t.fsm.state ≠ .navigating) : Move f e t :=
  .canceled hc (by simp) hs

private theorem Advances.move {e : FsmEvent R} (ht : Advances f t) (h : f.Coherent)
    (hs : f.state = .navigating ∨ f.state = .onArriving)
    (he : f.goesOn = true → f.entersNavigating e = true) : Move f e t := by
  have hlt : f.currentIndex < f.waypoints.getSize := by
    rcases hs with hs | hs
    · exact h.inRange (Or.inl hs)
    · exact h.inRange (Or.inr (Or.inl hs))
  cases ht with
  | stopped | goalReached | waitTrigger | paused => exact .cancel rfl fun h => by cases h
  | raised _ hg =>
      obtain ⟨w, hw⟩ := f.waypoints.get_isSome_of_lt h.index_nonneg hlt
      rw [hg] at hw
      cases hw
  | next hstop hi hp ht hg hw =>
      have h1 : 0 ≤ f.currentIndex + 1 := by have := h.index_nonneg; omega
      obtain ⟨w, hc, hfsm⟩ := ht.sent_of_lt h1 hi
      refine .sequence hc (by rw [hfsm]; rfl) (he ?_)
      simp [goesOn, hstop, hi, hp, hg, hw]

/-- A `stop` cancels if a manual goal is recorded. -/
private theorem Move.stop {e : FsmEvent R} (hc : t.calls = if f.manualGoalActive then [.cancel] else [])
    (hs : t.fsm.state ≠ .navigating) (hn : f.state ≠ .navigating)
    (hm : t.fsm.manualGoalActive = false) (he : e = .stop) : Move f e t := by
  cases hf : f.manualGoalActive with
  | false =>
      rw [hf] at hc
      exact .quiet (by simp [hc]) (by simp [hs, hn]) (by rw [hm, hf]) (by simp [he])
  | true =>
      rw [hf] at hc
      exact .cancel hc hs

variable [Field R] {e : FsmEvent R}

theorem Effect.move (h : f.Coherent) (he : Effect f e t) : Move f e t := by
  cases he with
  | setNextIndexRejected | setNextIndex | reloadRejected | reload | manualRejected
  | startRejected | unpause | startingStale | pause | arrivingIgnored =>
      exact .quiet (by simp) Iff.rfl rfl (by simp)
  | manual ha => exact .manual rfl rfl ha rfl
  | startIdle hs | startAgain hs =>
      exact .quiet (by simp [countdown, Call.onNavigator]) (by simp [countdown, moveTo, hs]) rfl
        (by simp)
  | stopIdle hs => exact .stop rfl (by simp [hs]) (by simp [hs]) rfl rfl
  | stopStarting hs => exact .stop rfl (fun h => by cases h) (by simp [hs]) rfl rfl
  | stopDeferred hs => exact .stop rfl (by simp [hs]) (by simp [hs]) rfl rfl
  | stopResting hs =>
      refine .stop rfl (fun h => by cases h) ?_ rfl rfl
      rcases hs with hs | hs | hs <;> simp [hs]
  | stopNavigating =>
      cases hm : f.manualGoalActive with
      | false => exact .cancel rfl fun h => by cases h
      | true => exact .canceled rfl (by simp) fun h => by cases h
  | pauseStarting hs => exact .quiet (by simp) (by simp [moveTo, hs]) rfl (by simp)
  | pauseNavigating => exact .cancel rfl fun h => by cases h
  | resumeStarting _ hs =>
      exact .quiet (by simp [countdown, Call.onNavigator]) (by simp [countdown, moveTo, hs]) rfl
        (by simp)
  | resumeNavigating hp hs hpre ht =>
      have hlt := h.inRange (Or.inr (Or.inr ⟨hs, hpre⟩))
      obtain ⟨w, hc, hfsm⟩ := ht.sent_of_lt h.index_nonneg hlt
      refine .sequence hc (by rw [hfsm]; rfl) ?_
      simp [entersNavigating, hs, hp, hpre]
  | startingDone hs hg ht =>
      cases ht with
      | raised => exact .quiet (by simp) Iff.rfl rfl (by simp)
      | sent hget => exact .sequence rfl rfl (by simp [entersNavigating, hs, hg, hget])
  | manualResult => exact .manualDone rfl rfl
  | resultIgnored hr =>
      refine .quiet (by simp) Iff.rfl rfl fun r he hs => ?_
      obtain rfl := FsmEvent.onNavigationResult.inj he
      exact hr.resolve_left fun hne => hne hs
  | resultFailed hs => exact .failed rfl hs rfl
  | resultRaised hs _ hg =>
      obtain ⟨w, hw⟩ := f.waypoints.get_isSome_of_lt h.index_nonneg (h.inRange (Or.inl hs))
      rw [hg] at hw
      cases hw
  | @arrived r w =>
      refine .canceled rfl (fun c hc => ?_) fun h => by cases h
      rcases List.mem_append.mp hc with hc | hc
      · obtain ⟨mode, -, rfl⟩ := List.mem_map.mp hc
        simp
      · obtain rfl := List.mem_singleton.mp hc
        simp
  | reached hs hr ht hg ha =>
      refine ht.move h (Or.inl hs) fun hgo => ?_
      simp [entersNavigating, hs, hr, hg, ha, hgo]
  | arrivingDone hs ht =>
      refine ht.move h (Or.inr hs) fun hgo => ?_
      simp [entersNavigating, hs, hgo]

omit [Field R] in
private theorem Advances.sends (ht : Advances f t) (h0 : 0 ≤ f.currentIndex)
    (hgo : f.goesOn = true) :
    ∃ w mode, t.calls = [.sendGoal w .sequence mode] ∧ t.fsm.state = .navigating := by
  simp only [goesOn, Bool.and_eq_true, Bool.not_eq_true', decide_eq_true_eq,
    Option.any_eq_true] at hgo
  obtain ⟨⟨⟨hstop, hi⟩, hp⟩, w, hg, hw⟩ := hgo
  cases ht with
  | stopped hs => rw [hstop] at hs; cases hs
  | raised _ hn => rw [hn] at hg; cases hg
  | goalReached _ hle => omega
  | waitTrigger _ _ hg' hw' =>
      obtain rfl := Option.some.inj (hg.symm.trans hg')
      rw [hw] at hw'
      cases hw'
  | paused _ _ hp' => exact absurd hp hp'
  | next _ _ _ ht =>
      have h1 : 0 ≤ f.currentIndex + 1 := by omega
      obtain ⟨w, hc, hfsm⟩ := ht.sent_of_lt h1 hi
      exact ⟨w, _, hc, by rw [hfsm]; rfl⟩

/-- Under the guards the operation sends a goal of the sequence. -/
theorem Effect.sends (h : f.Coherent) (he : Effect f e t) (hen : f.entersNavigating e = true) :
    ∃ w mode, t.calls = [.sendGoal w .sequence mode] ∧ t.fsm.state = .navigating := by
  cases e with
  | onStartingDone g =>
      simp only [entersNavigating, Bool.and_eq_true, decide_eq_true_eq] at hen
      obtain ⟨⟨hs, hg⟩, hw⟩ := hen
      cases he with
      | startingStale hstale => exact absurd hstale (by simp [hs, hg])
      | startingDone _ _ ht =>
          cases ht with
          | raised hn => rw [hn] at hw; cases hw
          | sent => exact ⟨_, _, rfl, rfl⟩
  | pauseRequest r active now =>
      simp only [entersNavigating, Bool.and_eq_true, Bool.not_eq_true', decide_eq_true_eq] at hen
      obtain ⟨rfl, hs, hp, hpre⟩ := hen
      cases he with
      | unpause hne => exact absurd hne (by simp [hs, hp])
      | resumeStarting _ _ hstart => exact absurd hstart hpre
      | resumeNavigating _ _ _ ht =>
          have hlt := h.inRange (Or.inr (Or.inr ⟨hs, hpre⟩))
          obtain ⟨w, hc, hfsm⟩ := ht.sent_of_lt h.index_nonneg hlt
          exact ⟨w, _, hc, by rw [hfsm]; rfl⟩
  | onNavigationResult r =>
      simp only [entersNavigating, Bool.and_eq_true, decide_eq_true_eq, Option.any_eq_true,
        List.isEmpty_iff] at hen
      obtain ⟨⟨⟨hs, hr⟩, w, hg, ha⟩, hgo⟩ := hen
      cases he with
      | resultIgnored hi => rcases hr with rfl | rfl <;> simp [hs] at hi
      | resultFailed => simp at hr
      | resultRaised _ _ hn => rw [hn] at hg; cases hg
      | arrived _ _ hg' ha' =>
          obtain rfl := Option.some.inj (hg.symm.trans hg')
          exact absurd ha ha'
      | reached _ _ ht => exact ht.sends h.index_nonneg hgo
  | onArrivingDone =>
      simp only [entersNavigating, Bool.and_eq_true, decide_eq_true_eq] at hen
      cases he with
      | arrivingIgnored hs => exact absurd hen.1 hs
      | arrivingDone _ ht => exact ht.sends h.index_nonneg hen.2
  | _ => cases hen

/-- The state machine leaves its current waypoint. -/
def Leaves (f f' : SequencerFsm R) : Prop :=
  f'.currentIndex ≠ f.currentIndex ∨ f'.state = .onArriving ∧ f.state ≠ .onArriving ∨
    f'.state = .error ∧ f.state ≠ .error

omit [Field R] in
private theorem Advances.leaves (ht : Advances f t) (h : f.Coherent) (hs : f.state = .navigating) :
    f.Leaves t.fsm := by
  have hne : f.currentIndex + 1 ≠ f.currentIndex := by omega
  cases ht with
  | stopped hstop => exact absurd (h.stopPending hstop) (by simp [hs])
  | raised _ hg =>
      obtain ⟨w, hw⟩ := f.waypoints.get_isSome_of_lt h.index_nonneg (h.inRange (Or.inl hs))
      rw [hg] at hw
      cases hw
  | goalReached | waitTrigger | paused => exact Or.inl hne
  | next _ _ _ ht => cases ht <;> exact Or.inl hne

/-- A result makes the state machine leave its waypoint exactly if it navigates and the result
is not `CANCELED`. -/
theorem leaves_iff {r : NavigationResult} (h : f.Coherent)
    (he : Effect f (.onNavigationResult r) t) :
    f.Leaves t.fsm ↔ f.state = .navigating ∧ r ≠ .canceled := by
  cases he with
  | resultIgnored hr =>
      apply iff_of_false (by simp [Leaves])
      rintro ⟨hs, hne⟩
      exact hr.elim (fun hn => hn hs) hne
  | resultFailed hs =>
      exact iff_of_true (Or.inr (Or.inr ⟨rfl, by simp [hs]⟩)) ⟨hs, fun h => by cases h⟩
  | resultRaised hs _ hg =>
      obtain ⟨w, hw⟩ := f.waypoints.get_isSome_of_lt h.index_nonneg (h.inRange (Or.inl hs))
      rw [hg] at hw
      cases hw
  | arrived hs hr =>
      refine iff_of_true (Or.inr (Or.inl ⟨rfl, by simp [hs]⟩)) ⟨hs, ?_⟩
      rcases hr with rfl | rfl <;> (intro h; cases h)
  | reached hs hr ht =>
      refine iff_of_true (ht.leaves h hs) ⟨hs, ?_⟩
      rcases hr with rfl | rfl <;> (intro h; cases h)

theorem not_leaves_manual {r : NavigationResult} (he : Effect f (.onManualGoalResult r) t) :
    ¬ f.Leaves t.fsm := by
  cases he
  simp [Leaves]

end SequencerFsm

end MgRobot.Sequencer
