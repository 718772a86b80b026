import MgRobot.Sequencer.Episodes
import MgRobot.Sequencer.ManualGoals

/-!
# Held pause slots and `stop`

A held slot keeps the sequence out of its running states, and its countdown and
its goals with it. Only the goals depend on the order of results: a failed
result of an earlier goal would end the run in `ERROR` with the new goal open,
where a slot changes nothing any more.

A `stop` is deferred while actions run, and then takes effect when they are
done, whatever comes in between. Otherwise it takes effect at once, but for two
things: in `IDLE` it keeps the pause slots, and it closes the open goal only if
the manual goal flag or the state tells it that there is one.
-/

namespace MgRobot.Sequencer

set_option autoImplicit false

open MgRobot.Lib

section Slots

variable {R : Type*}

namespace World

/-- The slots, the deferred stop and the countdown agree with the state, and no operation asks
for a transition that the table refuses. -/
structure SlotsAgree [Field R] (cfg : SequencerConfig R) (w : World R) : Prop where
  held : w.sequencer.fsm.pauseSlots ≠ ∅ → w.sequencer.fsm.state ≠ .onStarting ∧
    w.sequencer.fsm.state ≠ .navigating ∧
    w.sequencer.fsm.countdownTimer.generation ∉ w.sequencer.timers
  suspended : w.sequencer.fsm.state = .suspended → w.sequencer.fsm.pauseSlots ≠ ∅
  stopPending : w.sequencer.fsm.stopPending = true → w.sequencer.fsm.state = .onArriving
  transitions : ∀ e old new,
    .invalidTransition old new ∉ (w.sequencer.fsm.handle cfg.isPrintable e).calls

/-- A goal of the sequence is open. -/
def SequenceGoalActive (w : World R) : Prop :=
  w.nav.nav.logical.active = true ∧ w.nav.nav.logical.resultCallback = some .sequence

instance (w : World R) : Decidable w.SequenceGoalActive := inferInstanceAs (Decidable (_ ∧ _))

/-- No FAILED result of the sequence is on its way when an episode begins. -/
abbrev FailuresSettled (w : World R) (a : WorldEvent R) : Prop :=
  w.session.EntersSettled (· = .failed) a

section

variable [LinearOrder R] [Field R] {cfg : SequencerConfig R} {w u : World R} {a : WorldEvent R}

omit [LinearOrder R] in
theorem Sound.slotsAgree (h : w.Sound) : w.SlotsAgree cfg := by
  have hcoh := h.sequencer.coherent
  constructor
  · intro hp
    have hn := hcoh.paused hp
    exact ⟨hn.1, hn.2, fun hm => hn.1 (h.sequencer.counting.counting hm)⟩
  · exact hcoh.suspended
  · exact hcoh.stopPending
  · intro e old new
    exact (SequencerFsm.handle_effect cfg.isPrintable e).allowed old new

/-- With failed results settled, an open goal of the sequence is navigated for. -/
theorem openNavigates {waypoints : WaypointList R} {stallDistance : R} {es : List (WorldEvent R)}
    (h : Runs.exec (World.step cfg) (.boot waypoints stallDistance) es = some w)
    (hm : Runs.Meets (World.step cfg) FailuresSettled (.boot waypoints stallDistance) es) :
    w.session.OpenNavigates := by
  have hinv := Runs.invariant
    (I := fun w => w.Episodic ∧ w.session.Own (· = .failed) ∧ w.session.OpenNavigates)
    (fun w a u hI hq he => ?_) ⟨.boot _ _, nofun, nofun⟩ hm h
  · exact hinv.2.2
  · have hmoved := moved hI.1.1 he
    exact ⟨hI.1.step he, hI.2.1.step hI.1.2 hmoved hq,
      hI.2.2.step hI.1.2 hI.1.1.goals hI.2.1 hmoved⟩

/-- A failed result of an earlier goal ends the run in `ERROR` and leaves the goal of the present
episode open; a slot that is then held finds it so. -/
private theorem slot_held_of_failure (hs : w.sequencer.fsm.state = .navigating)
    (hactive : w.SequenceGoalActive) {g : Nat}
    {o : Option (Dispatch R)} (he : w.step cfg (.deliver g .sequence .failed o 0) = some u) :
    ∃ v, u.step cfg (.operation (.pauseRequest "ui" true 0) 0) = some v ∧
      v.sequencer.fsm.pauseSlots ≠ ∅ ∧ v.SequenceGoalActive := by
  obtain ⟨⟨-, hm⟩, hr⟩ := Option.ite_none_right_eq_some.mp he
  have hfailed : w.sequencer.fsm.handle cfg.isPrintable (.onNavigationResult .failed) =
      ⟨w.sequencer.fsm.moveTo .error, [], false⟩ := by
    have heff := SequencerFsm.handle_effect (f := w.sequencer.fsm) cfg.isPrintable
      (.onNavigationResult .failed)
    generalize w.sequencer.fsm.handle cfg.isPrintable (.onNavigationResult .failed) = t at heff
    cases heff with
    | resultIgnored hr => simp [hs] at hr
    | resultFailed => rfl
    | resultRaised _ hr | arrived _ hr | reached _ hr => simp at hr
  -- the failed result asks nothing of the navigator
  have hu := eq_of_no_calls hr (congrArg Turn.calls hfailed)
  have hholder : u.holder = none := by rw [hu]
  have hnav : u.nav.nav = w.nav.nav := by rw [hu]; rfl
  have hstate : u.sequencer.fsm.state = .error := by
    have hq := runOperation_sequencer hr
    rw [TimedFsm.step_fsm hq]
    exact congrArg (fun t : Turn R => t.fsm.state) hfailed
  have hpause : u.sequencer.fsm.handle cfg.isPrintable (.pauseRequest "ui" true 0) =
      { fsm := { u.sequencer.fsm with pauseSlots := insert "ui" u.sequencer.fsm.pauseSlots } } := by
    simp [SequencerFsm.handle, SequencerFsm.pauseRequest, SequencerFsm.applyPause, hstate]
  obtain ⟨v, hv, hsession⟩ := exists_pauseRequest cfg hholder "ui"
  rw [hpause] at hsession
  refine ⟨v, hv, ?_, ?_⟩
  · have hslots : v.sequencer.fsm = _ := congrArg Session.fsm hsession
    rw [hslots]
    exact Finset.insert_ne_empty _ _
  · have hopen : v.nav.nav.logical.active = u.nav.nav.logical.active :=
      congrArg (fun s => s.goals.isOpen) hsession
    have htag : v.nav.nav.logical.resultCallback = u.nav.nav.logical.resultCallback :=
      congrArg (fun s => s.goals.tag) hsession
    rw [SequenceGoalActive, hopen, htag, hnav]
    exact hactive

/-- **A held slot stops the sequence.** In every run the slots, the deferred stop and the
countdown agree with the state and no operation asks for a refused transition. In every run in
which no failed result is on its way when an episode begins, no goal of the sequence is open
while a slot is held. Where an episode begins with a failed result on its way, the run can go on
to a state with a slot held and a goal of the sequence open. -/
theorem held_slot_stops_sequence {waypoints : WaypointList R} {stallDistance : R}
    {es : List (WorldEvent R)}
    (h : Runs.exec (World.step cfg) (.boot waypoints stallDistance) es = some w) :
    w.SlotsAgree cfg ∧
      (Runs.Meets (World.step cfg) FailuresSettled (.boot waypoints stallDistance) es →
        w.sequencer.fsm.pauseSlots ≠ ∅ → ¬ w.SequenceGoalActive) ∧
      ∀ a u, w.step cfg a = some u → ¬ w.FailuresSettled a →
        ∃ es' v, Runs.exec (World.step cfg) u es' = some v ∧
          v.sequencer.fsm.pauseSlots ≠ ∅ ∧ v.SequenceGoalActive := by
  have hw := Sound.run h
  refine ⟨hw.slotsAgree, fun hm hp hactive => ?_, fun a u he hv => ?_⟩
  · have hn := openNavigates h hm hactive.1 hactive.2
    exact (hw.sequencer.coherent.paused hp).2 hn
  · simp only [FailuresSettled, Session.EntersSettled, not_forall, not_not] at hv
    obtain ⟨hen, ⟨g, cb, r⟩, hx, rfl, rfl⟩ := hv
    obtain ⟨es', v, o, y, hes, -, hy, -, hs, hopen, htag⟩ := foreign_delivered hw he hen hx
    obtain ⟨z, hz, hslots, hactive⟩ := slot_held_of_failure hs ⟨hopen, htag⟩ hy
    exact ⟨_, z, Runs.exec_snoc (Runs.exec_snoc hes hy) hz, hslots, hactive⟩

/-- The same with goal 1 failing: its result ends the run in `ERROR` while goal 2 is open, and
then a slot is held. -/
def failedResultRun : List (WorldEvent ℚ) :=
  [.operation (.start 0 0) 0, .operation (.onStartingDone 1) 0,
    .nav (.serverReady (.toStop 1 1 "normal")), .nav (.sendGoalAsync 1), .nav (.accept 1),
    .nav (.goalResponse 1), .nav (.terminate 1 .aborted), .nav (.resultDone 1),
    .nav (.finish 1 .failed none),
    .operation (.pauseRequest "ui" true 0) 0, .operation (.pauseRequest "ui" false 0) 0,
    .nav (.serverReady (.toStop 2 1 "normal")), .nav (.sendGoalAsync 2),
    .deliver 1 .sequence .failed none 0, .operation (.pauseRequest "ui" true 0) 0]

theorem held_slot_with_open_goal :
    ¬ ∀ (waypoints : WaypointList ℚ) (es : List (WorldEvent ℚ)) (w : World ℚ),
      Runs.exec (World.step .axes) (.boot waypoints (1 / 2)) es = some w →
        w.sequencer.fsm.pauseSlots ≠ ∅ → ¬ w.SequenceGoalActive := by
  intro h
  have hrun : (Runs.exec (World.step .axes) (.boot ⟨[.stop 1]⟩ (1 / 2)) failedResultRun).any
      (fun w => decide (w.sequencer.fsm.pauseSlots ≠ ∅ ∧ w.SequenceGoalActive)) = true := by
    rfl
  obtain ⟨w, hw, hslots, hactive⟩ := Runs.exists_exec hrun
  exact h _ _ w hw hslots hactive

/-- A running sequence is paused. -/
def pausedRun : List (WorldEvent ℚ) :=
  [.operation (.start 0 0) 0, .operation (.onStartingDone 1) 0,
    .nav (.serverReady (.toStop 1 1 "normal")), .nav (.sendGoalAsync 1), .nav (.accept 1),
    .nav (.goalResponse 1), .operation (.pauseRequest "ui" true 0) 0]

theorem held_slot_without_open_goal : ∃ w : World ℚ,
    Runs.exec (World.step .axes) (.boot ⟨[.stop 1]⟩ (1 / 2)) pausedRun = some w ∧
      w.sequencer.fsm.pauseSlots ≠ ∅ ∧ ¬ w.SequenceGoalActive := by
  have hrun : (Runs.exec (World.step .axes) (.boot ⟨[.stop 1]⟩ (1 / 2)) pausedRun).any
      (fun w => decide (w.sequencer.fsm.pauseSlots ≠ ∅)) = true := by
    rfl
  have hm : Runs.Meets (World.step .axes) FailuresSettled (.boot ⟨[.stop 1]⟩ (1 / 2))
      pausedRun := by
    decide +kernel
  obtain ⟨w, hw, hslots⟩ := Runs.exists_exec hrun
  exact ⟨w, hw, hslots, (held_slot_stops_sequence hw).2.1 hm hslots⟩

end

end World

end Slots

section Stop

variable {R : Type*}

namespace SequencerFsm

variable [Field R] {f : SequencerFsm R} {e : FsmEvent R} {t : Turn R}

/-- A `stop` that is not deferred ends in `IDLE`, and keeps the slots only if it began there. -/
theorem Effect.stop_idle (he : Effect f .stop t) (hs : f.state ≠ .onArriving) :
    t.fsm.state = .idle ∧ (t.fsm.pauseSlots = ∅ ↔ (f.state = .idle → f.pauseSlots = ∅)) := by
  cases he with
  | stopIdle hi => exact ⟨hi, by simp [hi]⟩
  | stopStarting hi | stopNavigating hi => exact ⟨rfl, by simp [hi]⟩
  | stopDeferred hi => exact absurd hi hs
  | stopResting hi => exact ⟨rfl, by rcases hi with hi | hi | hi <;> simp [hi]⟩

/-- A deferred stop waits for the actions and for nothing else. -/
theorem Effect.stays_deferred (he : Effect f e t) (hs : f.state = .onArriving)
    (hstop : f.stopPending = true) (hne : e ≠ .onArrivingDone) :
    t.fsm.state = .onArriving ∧ t.fsm.stopPending = true := by
  have hstate : ∀ {x : SequencerState}, f.state = x → x ≠ .onArriving → False :=
    fun hx hne => hne (hx.symm.trans hs)
  cases he with
  | setNextIndex hx => rcases hx with hx | hx <;> exact (hstate hx nofun).elim
  | reload hx | stopResting hx => rcases hx with hx | hx | hx <;> exact (hstate hx nofun).elim
  | startIdle hx | startAgain hx | stopIdle hx | stopStarting hx | stopNavigating hx
  | pauseStarting hx | pauseNavigating hx | startingDone hx | resultFailed hx | resultRaised hx
  | arrived hx | reached hx => exact (hstate hx nofun).elim
  | resumeStarting _ hx | resumeNavigating _ hx => exact (hstate hx nofun).elim
  | arrivingIgnored | arrivingDone => exact absurd rfl hne
  | stopDeferred => exact ⟨hs, rfl⟩
  | _ => exact ⟨hs, hstop⟩

/-- The end of the actions carries a deferred stop out. -/
theorem Effect.stop_carried_out (he : Effect f .onArrivingDone t) (hs : f.state = .onArriving)
    (hstop : f.stopPending = true) :
    t.fsm.state = .idle ∧ t.fsm.pauseSlots = ∅ ∧ t.calls = [.cancel] := by
  cases he with
  | arrivingIgnored hn => exact absurd hs hn
  | arrivingDone _ ht =>
      cases ht with
      | stopped => exact ⟨rfl, rfl, rfl⟩
      | raised hn | goalReached hn | waitTrigger hn | paused hn | next hn =>
          rw [hstop] at hn
          cases hn

end SequencerFsm

namespace World

/-- The sequence is at rest: `IDLE`, no slot held, no logical goal active. -/
def Stopped (w : World R) : Prop :=
  w.sequencer.fsm.state = .idle ∧ w.sequencer.fsm.pauseSlots = ∅ ∧
    w.nav.nav.logical.active = false

/-- What a `stop` that is not deferred has to find. -/
def StopSettled (w : World R) : Prop :=
  (w.sequencer.fsm.state = .idle → w.sequencer.fsm.pauseSlots = ∅) ∧
    (w.nav.nav.logical.active = true →
      w.sequencer.fsm.manualGoalActive = true ∨ w.sequencer.fsm.state = .navigating)

/-- A stop waits for the running actions. -/
def StopDeferred (w : World R) : Prop :=
  w.sequencer.fsm.state = .onArriving ∧ w.sequencer.fsm.stopPending = true

variable [LinearOrder R] [Field R] {cfg : SequencerConfig R} {w u : World R} {a : WorldEvent R}
  {now : Int}

/-- The record changes by a turn, or not at all. -/
theorem fsm_step (he : w.step cfg a = some u) : u.sequencer.fsm = w.sequencer.fsm ∨
    ∃ e, w.sequencer.fsm.Effect e (w.sequencer.fsm.handle cfg.isPrintable e) ∧
      u.sequencer.fsm = (w.sequencer.fsm.handle cfg.isPrintable e).fsm ∧
      (e = .onArrivingDone → ∃ now, a = .operation .onArrivingDone now) := by
  have hs := session_step he
  generalize hu : u.session = s' at hs
  have hf : u.sequencer.fsm = s'.fsm := congrArg Session.fsm hu
  cases hs with
  | background | navigateToPose | layersFailed => exact Or.inl hf
  | @turn _ e s₀ hb =>
      refine Or.inr ⟨e, SequencerFsm.handle_effect _ _, hf.trans Session.turn_fsm, ?_⟩
      rintro rfl
      generalize hd : (FsmEvent.onArrivingDone : FsmEvent R) = d at hb
      cases hb with
      | operation => exact ⟨_, rfl⟩
      | @deliver g cb => cases cb <;> cases hd

theorem StopDeferred.step (h : w.StopDeferred) (he : w.step cfg a = some u)
    (hne : ∀ now, a ≠ .operation .onArrivingDone now) : u.StopDeferred := by
  rcases fsm_step he with hf | ⟨e, heff, hf, hdone⟩
  · rw [StopDeferred, hf]
    exact h
  · rw [StopDeferred, hf]
    refine heff.stays_deferred h.1 h.2 fun hd => ?_
    obtain ⟨now, ha⟩ := hdone hd
    exact hne now ha

/-- A `stop` that is not deferred leaves the open goal as it is, unless the flag or the state tells
of it. -/
theorem active_of_stop (he : w.step cfg (.operation .stop now) = some u) :
    u.nav.nav.logical.active = false ↔ (w.nav.nav.logical.active = true →
      w.sequencer.fsm.manualGoalActive = true ∨ w.sequencer.fsm.state = .navigating) := by
  by_cases hc : w.sequencer.fsm.manualGoalActive = true ∨ w.sequencer.fsm.state = .navigating
  · exact iff_of_true (closed_of_stop he hc) fun _ => hc
  · have hs : u.session = w.session.turn w.sequencer.fsm.stop.1 := operation_session he
    have hcalls := w.sequencer.fsm.stop_calls
    rw [if_neg fun hf => hc (Or.inl hf), if_neg fun hn => hc (Or.inr hn)] at hcalls
    rw [Session.turn_of_quiet (by simp [hcalls])] at hs
    have hopen : u.nav.nav.logical.active = w.nav.nav.logical.active :=
      congrArg (fun s => s.goals.isOpen) hs
    rw [hopen]
    cases w.nav.nav.logical.active <;> simp [hc]

/-- **What `stop` leaves behind.** A `stop` that is not deferred leaves the sequence at rest
exactly if it finds no slot held in `IDLE` and an open goal only with the flag set or navigated
for; the latter holds in every run in which no result is on its way that could close the wrong
goal. A deferred `stop` leaves it at rest when the actions are done, whatever came in between. -/
theorem stop_leaves_at_rest {waypoints : WaypointList R} {stallDistance : R}
    {es : List (WorldEvent R)}
    (h : Runs.exec (World.step cfg) (.boot waypoints stallDistance) es = some w) :
    (∀ now u, w.sequencer.fsm.state ≠ .onArriving → w.step cfg (.operation .stop now) = some u →
        (u.Stopped ↔ w.StopSettled)) ∧
      (∀ now u es' v now' y, w.sequencer.fsm.state = .onArriving →
        w.step cfg (.operation .stop now) = some u →
        (∀ a ∈ es', ∀ now, a ≠ .operation .onArrivingDone now) →
        Runs.exec (World.step cfg) u es' = some v →
        v.step cfg (.operation .onArrivingDone now') = some y → y.Stopped) ∧
      (Runs.Meets (World.step cfg) ManualSettled (.boot waypoints stallDistance) es →
        Runs.Meets (World.step cfg) FailuresSettled (.boot waypoints stallDistance) es →
        w.nav.nav.logical.active = true →
          w.sequencer.fsm.manualGoalActive = true ∨ w.sequencer.fsm.state = .navigating) := by
  refine ⟨fun now u hs he => ?_, fun now u es' v now' y hs he hes hv hy => ?_,
    fun hman hfail hactive => ?_⟩
  · have hu := operation_session he
    have hf : u.sequencer.fsm = _ := (congrArg Session.fsm hu).trans Session.turn_fsm
    have heff := SequencerFsm.handle_effect (f := w.sequencer.fsm) cfg.isPrintable .stop
    obtain ⟨hidle, hslots⟩ := heff.stop_idle hs
    rw [Stopped, StopSettled, hf, hslots, active_of_stop he]
    exact and_iff_right hidle
  · -- the stop waits until the actions are done
    have hu : u.StopDeferred := by
      have hf : u.sequencer.fsm = _ := (congrArg Session.fsm (operation_session he)).trans
        Session.turn_fsm
      have heff := SequencerFsm.handle_effect (f := w.sequencer.fsm) cfg.isPrintable .stop
      rw [StopDeferred, hf]
      generalize w.sequencer.fsm.handle cfg.isPrintable .stop = t at heff
      cases heff with
      | stopDeferred => exact ⟨hs, rfl⟩
      | stopIdle hn | stopStarting hn | stopNavigating hn => rw [hn] at hs; cases hs
      | stopResting hn => rcases hn with hn | hn | hn <;> (rw [hn] at hs; cases hs)
    obtain ⟨hvs, hvp⟩ := Runs.invariant_of_mem
      (fun w a u ha hI he => hI.step he (hes a ha)) hu hv
    have hys := operation_session hy
    obtain ⟨hidle, hslots, hcalls⟩ := (SequencerFsm.handle_effect (f := v.sequencer.fsm)
      cfg.isPrintable .onArrivingDone).stop_carried_out hvs hvp
    rw [Session.turn_of_canceled hcalls (by simp)] at hys
    have hf : y.sequencer.fsm = _ := congrArg Session.fsm hys
    refine ⟨by rw [hf, hidle], by rw [hf, hslots], ?_⟩
    exact congrArg (fun s => s.goals.isOpen) hys
  · have hw := Sound.run h
    cases htag : w.nav.nav.logical.resultCallback with
    | none => exact absurd htag (hw.goals.tagged hactive)
    | some cb =>
        cases cb with
        | sequence => exact Or.inr (openNavigates h hfail hactive htag)
        | manual => exact Or.inl (manualFlagged h hman hactive htag).1

/-- A pause is requested before the first start, and then a stop. -/
def pausedIdleRun : List (WorldEvent ℚ) := [.operation (.pauseRequest "ui" true 0) 0]

theorem stop_keeps_slot :
    ¬ ∀ (waypoints : WaypointList ℚ) (es : List (WorldEvent ℚ)) (w u : World ℚ),
      Runs.exec (World.step .axes) (.boot waypoints (1 / 2)) es = some w →
        w.sequencer.fsm.state ≠ .onArriving → w.step .axes (.operation .stop 0) = some u →
          u.Stopped := by
  intro h
  have hrun : (Runs.exec (World.step .axes) (.boot ⟨[.stop 1]⟩ (1 / 2)) pausedIdleRun).any
      (fun w => decide (w.sequencer.fsm.state ≠ .onArriving ∧
        (w.step .axes (.operation .stop 0)).any
          (fun u => u.sequencer.fsm.pauseSlots ≠ ∅) = true)) = true := by
    rfl
  obtain ⟨w, hw, hs, hu⟩ := Runs.exists_exec hrun
  obtain ⟨u, hu, hslots⟩ := (Option.any_eq_true _ _).mp hu
  exact of_decide_eq_true hslots (h _ _ w u hw hs hu).2.1

/-- The sequence is on its way to the first waypoint. -/
def startedRun : List (WorldEvent ℚ) :=
  [.operation (.start 0 0) 0, .operation (.onStartingDone 1) 0,
    .nav (.serverReady (.toStop 1 1 "normal")), .nav (.sendGoalAsync 1)]

theorem stop_while_navigating : ∃ w u : World ℚ,
    Runs.exec (World.step .axes) (.boot ⟨[.stop 1]⟩ (1 / 2)) startedRun = some w ∧
      w.step .axes (.operation .stop 0) = some u ∧ u.Stopped := by
  have hrun : (Runs.exec (World.step .axes) (.boot ⟨[.stop 1]⟩ (1 / 2)) startedRun).any
      (fun w => decide (w.sequencer.fsm.state = .navigating ∧
        (w.step .axes (.operation .stop 0)).isSome = true)) = true := by
    rfl
  obtain ⟨w, hw, hs, hu⟩ := Runs.exists_exec hrun
  obtain ⟨u, hu⟩ := Option.isSome_iff_exists.mp hu
  refine ⟨w, u, hw, hu, ((stop_leaves_at_rest hw).1 0 u (by simp [hs]) hu).mpr ?_⟩
  constructor
  · intro hn
    rw [hs] at hn
    cases hn
  · exact fun _ => Or.inr hs

end World

end Stop

end MgRobot.Sequencer
