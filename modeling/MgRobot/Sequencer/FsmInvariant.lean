import MgRobot.Sequencer.SequencerRuns

/-!
# What every run of the state machine keeps

Pause slots, the deferred stop and the countdown agree with the state: a held
slot keeps the sequence out of `ON_STARTING` and `NAVIGATING`, `SUSPENDED` means
that a slot is held, a stop waits only for actions, and the countdown of the
current generation runs only in `ON_STARTING`. No operation asks for a
transition that the table refuses.
-/

namespace MgRobot.Sequencer

open MgRobot.Lib

set_option autoImplicit false

variable {R : Type*}

namespace SequencerFsm

/-- The parts of the record agree with the state. -/
structure Coherent (f : SequencerFsm R) : Prop where
  index_nonneg : 0 ≤ f.currentIndex
  inRange : f.state = .navigating ∨ f.state = .onArriving ∨
    f.state = .suspended ∧ f.preSuspendState ≠ .onStarting → f.currentIndex < f.waypoints.getSize
  paused : f.pauseSlots ≠ ∅ → f.state ≠ .onStarting ∧ f.state ≠ .navigating
  suspended : f.state = .suspended → f.pauseSlots ≠ ∅
  stopPending : f.stopPending = true → f.state = .onArriving

variable {f g : SequencerFsm R} {t : Turn R}

namespace Coherent

theorem pending_false (h : f.Coherent) (hs : f.state ≠ .onArriving) : f.stopPending = false :=
  Bool.eq_false_iff.mpr fun hp => hs (h.stopPending hp)

theorem unpaused (h : f.Coherent) (hs : f.state = .onStarting ∨ f.state = .navigating) :
    f.pauseSlots = ∅ := by
  by_contra hp
  have hn := h.paused hp
  tauto

/-- In a state of rest only the index and the deferred stop matter. -/
theorem of_resting (hs : f.state = .idle ∨ f.state = .goalReached ∨ f.state = .error)
    (h0 : 0 ≤ f.currentIndex) (hstop : f.stopPending = false) : f.Coherent where
  index_nonneg := h0
  inRange h := by rcases hs with hs | hs | hs <;> simp [hs] at h
  paused _ := by rcases hs with hs | hs | hs <;> simp [hs]
  suspended h := by rcases hs with hs | hs | hs <;> simp [hs] at h
  stopPending h := by rw [hstop] at h; cases h

/-- Without a held slot and a deferred stop the sequence may be under way. -/
theorem of_running (hs : f.state = .onStarting ∨
      f.state = .navigating ∧ f.currentIndex < f.waypoints.getSize)
    (h0 : 0 ≤ f.currentIndex) (hp : f.pauseSlots = ∅) (hstop : f.stopPending = false) :
    f.Coherent where
  index_nonneg := h0
  inRange h := by
    rcases hs with hs | hs
    · simp [hs] at h
    · exact hs.2
  paused h := absurd hp h
  suspended h := by rcases hs with hs | hs <;> simp [hs] at h
  stopPending h := by rw [hstop] at h; cases h

end Coherent

theorem Enters.coherent (ht : Enters g t) (h0 : 0 ≤ g.currentIndex) (hp : g.pauseSlots = ∅)
    (hstop : g.stopPending = false) (hraised : g.waypoints.get g.currentIndex = none → g.Coherent) :
    t.fsm.Coherent := by
  cases ht with
  | raised hg => exact hraised hg
  | sent hg => exact .of_running (Or.inr ⟨rfl, g.waypoints.lt_of_get_eq_some hg⟩) h0 hp hstop

theorem Enters.coherent_of_lt (ht : Enters g t) (h0 : 0 ≤ g.currentIndex)
    (hi : g.currentIndex < g.waypoints.getSize) (hp : g.pauseSlots = ∅)
    (hstop : g.stopPending = false) : t.fsm.Coherent := by
  refine ht.coherent h0 hp hstop fun hg => ?_
  obtain ⟨w, hw⟩ := g.waypoints.get_isSome_of_lt h0 hi
  rw [hg] at hw
  cases hw

theorem Advances.coherent (ht : Advances f t) (h : f.Coherent) : t.fsm.Coherent := by
  have h1 : 0 ≤ f.currentIndex + 1 := by have := h.index_nonneg; omega
  cases ht with
  | stopped => exact .of_resting (Or.inl rfl) h.index_nonneg rfl
  | raised => exact h
  | goalReached hs => exact .of_resting (Or.inr (Or.inl rfl)) h1 hs
  | waitTrigger hs => exact .of_resting (Or.inl rfl) h1 hs
  | paused hs hi hp =>
      exact
        { index_nonneg := h1
          inRange := fun _ => hi
          paused := fun _ => ⟨fun h => (by cases h), fun h => by cases h⟩
          suspended := fun _ => hp
          stopPending := fun hst => absurd (hs.symm.trans hst) Bool.false_ne_true }
  | next hs hi hp ht => exact ht.coherent_of_lt h1 hi hp hs

variable [Field R] {e : FsmEvent R}

theorem Coherent.step (h : f.Coherent) (he : Effect f e t) : t.fsm.Coherent := by
  have h0 := h.index_nonneg
  cases he with
  | setNextIndex hs h0' hi =>
      exact
        { index_nonneg := h0'
          inRange := fun _ => hi
          paused := h.paused
          suspended := h.suspended
          stopPending := h.stopPending }
  | reload hs =>
      refine .of_resting hs (index_nonneg_step h0 (.reload hs)) (h.pending_false ?_)
      rcases hs with hs | hs | hs <;> simp [hs]
  | startIdle hs _ hp =>
      exact .of_running (Or.inl rfl) h0 hp (h.pending_false (by simp [hs]))
  | startAgain hs _ hp =>
      exact .of_running (Or.inl rfl) le_rfl hp (h.pending_false (by simp [hs]))
  | stopIdle hs => exact .of_resting (Or.inl hs) h0 (h.pending_false (by simp [hs]))
  | stopStarting hs => exact .of_resting (Or.inl rfl) h0 (h.pending_false (by simp [hs]))
  | stopNavigating hs => exact .of_resting (Or.inl rfl) h0 (h.pending_false (by simp [hs]))
  | stopDeferred hs => exact ⟨h0, h.inRange, h.paused, h.suspended, fun _ => hs⟩
  | stopResting hs =>
      refine .of_resting (Or.inl rfl) h0 (h.pending_false ?_)
      rcases hs with hs | hs | hs <;> simp [hs]
  | pauseStarting hs =>
      exact
        { index_nonneg := h0
          inRange := fun hr => by simp [moveTo] at hr
          paused := fun _ => ⟨fun h => (by cases h), fun h => by cases h⟩
          suspended := fun _ => Finset.insert_ne_empty _ _
          stopPending := fun hst => absurd (h.stopPending hst) (by simp [hs]) }
  | pauseNavigating hs =>
      exact
        { index_nonneg := h0
          inRange := fun _ => h.inRange (Or.inl hs)
          paused := fun _ => ⟨fun h => (by cases h), fun h => by cases h⟩
          suspended := fun _ => Finset.insert_ne_empty _ _
          stopPending := fun hst => absurd (h.stopPending hst) (by simp [hs]) }
  | pause hs hn =>
      exact ⟨h0, h.inRange, fun _ => ⟨hs, hn⟩, fun _ => Finset.insert_ne_empty _ _, h.stopPending⟩
  | unpause hs =>
      refine ⟨h0, h.inRange, fun hp => h.paused fun he => hp (by simp [he]), fun hsus => ?_,
        h.stopPending⟩
      exact hs.resolve_right fun hne => hne hsus
  | resumeStarting _ hs =>
      exact .of_running (Or.inl rfl) h0 rfl (h.pending_false (by simp [hs]))
  | resumeNavigating _ hs hpre ht =>
      refine ht.coherent_of_lt h0 (h.inRange ?_) rfl (h.pending_false (by simp [hs]))
      exact Or.inr (Or.inr ⟨hs, hpre⟩)
  | startingDone hs _ ht =>
      exact ht.coherent h0 (h.unpaused (Or.inl hs)) (h.pending_false (by simp [hs])) fun _ => h
  | resultFailed hs =>
      exact .of_resting (Or.inr (Or.inr rfl)) h0 (h.pending_false (by simp [hs]))
  | arrived hs =>
      exact
        { index_nonneg := h0
          inRange := fun _ => h.inRange (Or.inl hs)
          paused := fun _ => ⟨fun h => (by cases h), fun h => by cases h⟩
          suspended := fun hsus => by cases hsus
          stopPending := fun _ => rfl }
  | reached _ _ ht | arrivingDone _ ht => exact ht.coherent h
  | manual | manualResult => exact ⟨h0, h.inRange, h.paused, h.suspended, h.stopPending⟩
  | _ => exact h

/-- No operation asks for a transition the table refuses. -/
theorem Effect.allowed (he : Effect f e t) (old new : SequencerState) :
    .invalidTransition old new ∉ t.calls := by
  have henters : ∀ {g : SequencerFsm R} {t : Turn R}, Enters g t →
      .invalidTransition old new ∉ t.calls := by
    rintro g t (_ | _) <;> simp
  have hadvances : ∀ {t : Turn R}, Advances f t → .invalidTransition old new ∉ t.calls := by
    intro t ht
    cases ht with
    | next _ _ _ ht => exact henters ht
    | _ => simp
  cases he with
  | resumeNavigating _ _ _ ht | startingDone _ _ ht => exact henters ht
  | reached _ _ ht | arrivingDone _ ht => exact hadvances ht
  | stopIdle | stopStarting | stopNavigating | stopDeferred | stopResting => split <;> simp
  | startIdle | startAgain | resumeStarting => simp [countdown]
  | _ => simp

/-- Generations of the countdown: a turn starts a timer of a fresh one, or retires the current
one, or keeps it for as long as the state stays `ON_STARTING`. -/
theorem Effect.timers (he : Effect f e t) :
    (t.calls.filterMap Call.timer? = [f.countdownTimer.generation + 1] ∧
        t.fsm.countdownTimer.generation = f.countdownTimer.generation + 1 ∧
        t.fsm.state = .onStarting) ∨
      t.calls.filterMap Call.timer? = [] ∧
        (t.fsm.countdownTimer.generation = f.countdownTimer.generation + 1 ∨
          t.fsm.countdownTimer.generation = f.countdownTimer.generation ∧
            (f.state = .onStarting →
              t.fsm.state = .onStarting ∨ e = .onStartingDone f.countdownTimer.generation)) := by
  have henters : ∀ {g : SequencerFsm R} {t : Turn R}, Enters g t →
      t.calls.filterMap Call.timer? = [] ∧
        t.fsm.countdownTimer.generation = g.countdownTimer.generation := by
    rintro g t (_ | _) <;> exact ⟨rfl, rfl⟩
  have hadvances : ∀ {t : Turn R}, Advances f t → t.calls.filterMap Call.timer? = [] ∧
      t.fsm.countdownTimer.generation = f.countdownTimer.generation := by
    intro t ht
    cases ht with
    | next _ _ _ ht =>
        obtain ⟨hc, hg⟩ := henters ht
        exact ⟨hc, hg⟩
    | _ => exact ⟨rfl, rfl⟩
  have hnone : (if f.manualGoalActive = true then [.cancel] else []).filterMap
      (Call.timer? : Call R → Option Nat) = [] := by split <;> rfl
  cases he with
  | startIdle | startAgain | resumeStarting => exact Or.inl ⟨rfl, rfl, rfl⟩
  | stopStarting => exact Or.inr ⟨hnone, Or.inl rfl⟩
  | pauseStarting => exact Or.inr ⟨rfl, Or.inl rfl⟩
  | stopIdle hs | stopDeferred hs => exact Or.inr ⟨hnone, Or.inr ⟨rfl, fun h => Or.inl h⟩⟩
  | stopResting hs =>
      refine Or.inr ⟨hnone, Or.inr ⟨rfl, fun h => ?_⟩⟩
      rcases hs with hs | hs | hs <;> simp [hs] at h
  | stopNavigating hs =>
      refine Or.inr ⟨?_, Or.inr ⟨rfl, fun h => by simp [hs] at h⟩⟩
      split <;> rfl
  | pauseNavigating hs | resultFailed hs =>
      exact Or.inr ⟨rfl, Or.inr ⟨rfl, fun h => by simp [hs] at h⟩⟩
  | @arrived r w hs =>
      refine Or.inr ⟨?_, Or.inr ⟨rfl, fun h => by simp [hs] at h⟩⟩
      have hpub : ((modesOf w.onReachedActions).map Call.publishNavigationMode).filterMap
          (Call.timer? : Call R → Option Nat) = [] := by
        simp [List.filterMap_map, Function.comp_def, Call.timer?]
      rw [List.filterMap_append, List.filterMap_cons_none rfl, hpub]
      rfl
  | resumeNavigating _ hs _ ht =>
      obtain ⟨hc, hg⟩ := henters ht
      exact Or.inr ⟨hc, Or.inr ⟨hg, fun h => by simp [hs] at h⟩⟩
  | startingDone _ hg ht =>
      obtain ⟨hc, hgen⟩ := henters ht
      exact Or.inr ⟨hc, Or.inr ⟨hgen, fun _ => Or.inr (by rw [hg])⟩⟩
  | reached hs _ ht | arrivingDone hs ht =>
      obtain ⟨hc, hg⟩ := hadvances ht
      exact Or.inr ⟨hc, Or.inr ⟨hg, fun h => by simp [hs] at h⟩⟩
  | _ => exact Or.inr ⟨rfl, Or.inr ⟨rfl, Or.inl⟩⟩

end SequencerFsm

namespace TimedFsm

/-- At most one timer of a generation is outstanding, and one of the current generation only
while the countdown runs. -/
structure Counting (s : TimedFsm R) : Prop where
  issued : ∀ g ∈ s.timers, g ≤ s.fsm.countdownTimer.generation
  nodup : s.timers.Nodup
  counting : s.fsm.countdownTimer.generation ∈ s.timers → s.fsm.state = .onStarting

variable {s : TimedFsm R}

/-- A turn from a state whose expired timer is taken out already. -/
theorem Counting.run [Field R] {t : Turn R} {e : FsmEvent R} (h : s.Counting)
    (he : SequencerFsm.Effect s.fsm e t)
    (hexpired : e = .onStartingDone s.fsm.countdownTimer.generation →
      s.fsm.countdownTimer.generation ∉ s.timers) : (s.run t).Counting := by
  obtain ⟨hcalls, hgen, hst⟩ | ⟨hcalls, hgen⟩ := he.timers
  · have hfresh : s.fsm.countdownTimer.generation + 1 ∉ s.timers := fun hm => by
      have := h.issued _ hm
      omega
    refine ⟨fun g hg => ?_, ?_, fun _ => hst⟩
    · simp only [TimedFsm.run, hcalls, Multiset.coe_singleton, Multiset.singleton_add,
        Multiset.mem_cons] at hg ⊢
      rcases hg with rfl | hg
      · omega
      · have := h.issued g hg
        omega
    · simpa [TimedFsm.run, hcalls] using ⟨hfresh, h.nodup⟩
  · have htimers : (s.run t).timers = s.timers := by simp [TimedFsm.run, hcalls]
    refine ⟨fun g hg => ?_, htimers ▸ h.nodup, fun hm => ?_⟩
    · have hle := h.issued g (htimers ▸ hg)
      show g ≤ t.fsm.countdownTimer.generation
      omega
    · change t.fsm.countdownTimer.generation ∈ _ at hm
      rw [htimers] at hm
      rcases hgen with hgen | ⟨hgen, hst⟩
      · have := h.issued _ hm
        omega
      · rw [hgen] at hm
        exact (hst (h.counting hm)).resolve_right fun he => hexpired he hm

variable [Field R] {isPrintable : Char → Bool} {t : TimedFsm R} {e : FsmEvent R}

/-- What every run of the state machine keeps. -/
structure Sound (s : TimedFsm R) : Prop where
  coherent : s.fsm.Coherent
  counting : s.Counting

theorem Sound.step (h : s.Sound) (he : s.step isPrintable e = some t) : t.Sound := by
  have heff := SequencerFsm.handle_effect (f := s.fsm) isPrintable e
  refine ⟨step_fsm he ▸ h.coherent.step heff, ?_⟩
  cases e with
  | onStartingDone g =>
      obtain ⟨hg, ⟨⟩⟩ := Option.ite_none_right_eq_some.mp he
      have hrest : Counting { s with timers := s.timers.erase g } :=
        ⟨fun p hp => h.counting.issued p (Multiset.mem_of_mem_erase hp),
          Multiset.nodup_of_le (Multiset.erase_le _ _) h.counting.nodup,
          fun hm => h.counting.counting (Multiset.mem_of_mem_erase hm)⟩
      refine hrest.run heff fun he => ?_
      have hgen : g = s.fsm.countdownTimer.generation := FsmEvent.onStartingDone.inj he
      show s.fsm.countdownTimer.generation ∉ s.timers.erase g
      rw [hgen]
      exact h.counting.nodup.notMem_erase
  | _ =>
      cases he
      exact h.counting.run heff (fun h => by cases h)

omit [Field R] in
theorem Sound.boot (waypoints : WaypointList R) : (TimedFsm.boot waypoints).Sound where
  coherent := .of_resting (Or.inl rfl) le_rfl rfl
  counting := ⟨by simp [TimedFsm.boot], by simp [TimedFsm.boot], by simp [TimedFsm.boot]⟩

end TimedFsm

end MgRobot.Sequencer
