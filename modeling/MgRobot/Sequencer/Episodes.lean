import MgRobot.Sequencer.Session

/-!
# Results and navigation episodes

An episode begins when an operation goes on to `_enter_navigating`; the goal it
sends is the one whose result the state machine waits for. A result callback
carries no goal id, so a result that is selected but not delivered when the next
episode begins would decide that episode. Without one every result decides its
own episode, and a failed one leaves no goal behind.
-/

namespace MgRobot.Sequencer

open MgRobot.Lib

set_option autoImplicit false

variable {R : Type*}

namespace Session

variable (s : Session R)

/-- The operation an event is begins an episode. -/
def entersNavigating : WorldEvent R → Bool
  | .operation e _ => s.fsm.entersNavigating e
  | .deliver _ cb r _ _ => s.fsm.entersNavigating (cb.event r)
  | _ => false

/-- The outcomes other than the one the event delivers. -/
def remaining : WorldEvent R → Multiset (Nat × Callback × NavigationResult)
  | .deliver g cb r _ _ => s.goals.undelivered.erase (g, cb, r)
  | _ => s.goals.undelivered

/-- No result of the sequence that `P` picks out is on its way when an episode begins. -/
def EntersSettled (P : NavigationResult → Prop) (a : WorldEvent R) : Prop :=
  s.entersNavigating a = true → ∀ x ∈ s.remaining a, x.2.1 = .sequence → ¬ P x.2.2

instance (P : NavigationResult → Prop) [DecidablePred P] (a : WorldEvent R) :
    Decidable (s.EntersSettled P a) :=
  inferInstanceAs (Decidable (_ → _))

/-- The state machine navigates for the newest goal. -/
structure Tracked (s : Session R) : Prop where
  episode : s.goals.tag = some .sequence → s.episode = s.goals.newest
  navigating : s.fsm.state = .navigating → s.goals.tag = some .sequence

/-- While the state machine navigates, the results that `P` picks out are of this episode. -/
def Own (P : NavigationResult → Prop) (s : Session R) : Prop :=
  s.fsm.state = .navigating →
    ∀ x ∈ s.goals.undelivered, x.2.1 = .sequence → P x.2.2 → x.1 = s.episode

/-- An open goal of the sequence is navigated for. -/
def OpenNavigates (s : Session R) : Prop :=
  s.goals.isOpen = true → s.goals.tag = some .sequence → s.fsm.state = .navigating

variable {s} {s' : Session R} {a : WorldEvent R} {P : NavigationResult → Prop}

theorem Begins.remaining {e : FsmEvent R} {s₀ : Session R} (h : s.Begins a e s₀) :
    s₀.goals.undelivered = s.remaining a ∧ s.entersNavigating a = s.fsm.entersNavigating e := by
  cases h <;> exact ⟨rfl, rfl⟩

/-- In a state that accepts manual goals the sequence does not navigate. -/
theorem not_navigating_of_manual {f : SequencerFsm R} {mode : String}
    (ha : f.AcceptsManualGoal mode) : f.state ≠ .navigating := by
  intro hn
  have hs := ha.2.1
  rw [hn] at hs
  simp [manualGoalStates] at hs

/-- A step that keeps the newest goal keeps track of it. -/
theorem Tracked.carry (h : s.Tracked) {e : FsmEvent R} {s₀ : Session R} (hb : s.Begins a e s₀)
    (htag : s'.goals.tag = s₀.goals.tag) (hnew : s'.goals.newest = s₀.goals.newest)
    (hep : s'.episode = s₀.episode)
    (hn : s'.fsm.state = .navigating → s.fsm.state = .navigating) : s'.Tracked := by
  obtain ⟨m, -, rfl⟩ := hb.goals
  constructor
  · intro ht
    rw [hep, hnew]
    exact h.episode (htag.symm.trans ht)
  · intro hs
    rw [htag]
    exact h.navigating (hn hs)

theorem Tracked.step (h : s.Tracked) (hs : s.Moved a s') : s'.Tracked := by
  cases hs with
  | background hl hs' =>
      subst hs'
      cases hl <;> exact ⟨h.episode, h.navigating⟩
  | quiet hb hs _ _ hs' =>
      subst hs'
      exact h.carry hb rfl rfl rfl hs.mp
  | manualDone hb hs' =>
      subst hs'
      exact h.carry hb rfl rfl rfl id
  | failed hb _ hs' =>
      subst hs'
      exact h.carry hb rfl rfl rfl nofun
  | canceled hb hs hs' =>
      subst hs'
      exact h.carry hb rfl rfl rfl fun hn => absurd hn hs
  | sequence _ _ _ hs' =>
      subst hs'
      exact ⟨fun _ => rfl, fun _ => rfl⟩
  | manual _ ha hs' =>
      subst hs'
      exact ⟨nofun, fun hn => absurd hn (not_navigating_of_manual ha)⟩

theorem Own.step (h : s.Own P) (ht : s.Tracked) (hs : s.Moved a s') (hq : s.EntersSettled P a) :
    s'.Own P := by
  have keep : ∀ {s₀ : Session R} {e : FsmEvent R}, s.Begins a e s₀ → s.fsm.state = .navigating →
      ∀ x ∈ s₀.goals.undelivered, x.2.1 = .sequence → P x.2.2 → x.1 = s₀.episode := by
    intro s₀ e hb hn x hx hseq hP
    obtain ⟨m, hm, rfl⟩ := hb.goals
    exact h hn x (Multiset.mem_of_le hm hx) hseq hP
  cases hs with
  | background hl hs' =>
      subst hs'
      cases hl with
      | same | lapse => exact h
      | resolve r _ htag =>
          intro hn x hx hseq hP
          rcases Multiset.mem_cons.mp hx with rfl | hx
          · exact (ht.episode (ht.navigating hn)).symm
          · exact h hn x hx hseq hP
  | quiet hb hs _ _ hs' =>
      subst hs'
      exact fun hn x hx => keep hb (hs.mp hn) x hx
  | manualDone hb hs' =>
      subst hs'
      exact fun hn x hx => keep hb hn x hx
  | failed _ _ hs' =>
      subst hs'
      exact nofun
  | canceled _ hs hs' =>
      subst hs'
      exact fun hn => absurd hn hs
  | @sequence _ s₀ _ hb _ he hs' =>
      -- nothing that `P` picks out is left when the episode begins
      subst hs'
      obtain ⟨hrem, hen⟩ := hb.remaining
      intro _ x hx hseq hP
      have hx : x ∈ s₀.goals.undelivered := hx
      rw [hrem] at hx
      exact absurd hP (hq (hen.trans he) x hx hseq)
  | manual _ ha hs' =>
      subst hs'
      exact fun hn => absurd hn (not_navigating_of_manual ha)

/-- A failed result closes the goal it leaves in `ERROR`, if it is that goal's own. -/
theorem OpenNavigates.step (h : s.OpenNavigates) (ht : s.Tracked) (hg : s.goals.Sound)
    (hown : s.Own (· = .failed)) (hs : s.Moved a s') : s'.OpenNavigates := by
  cases hs with
  | background hl hs' =>
      subst hs'
      cases hl with
      | same => exact h
      | resolve | lapse => exact fun ho => by cases ho
  | quiet hb hs _ _ hs' =>
      subst hs'
      obtain ⟨m, -, rfl⟩ := hb.goals
      exact fun ho htag => hs.mpr (h ho htag)
  | manualDone hb hs' =>
      subst hs'
      obtain ⟨m, -, rfl⟩ := hb.goals
      exact h
  | failed hb hs hs' =>
      subst hs'
      obtain ⟨g, o, now, -, hx, rfl⟩ := hb.result
      have hep := hown hs _ hx rfl rfl
      have hclosed := hg.not_open hx (hep.trans (ht.episode (ht.navigating hs)))
      intro ho
      have ho : s.goals.isOpen = true := ho
      rw [hclosed] at ho
      cases ho
  | canceled _ _ hs' =>
      subst hs'
      exact fun ho => by cases ho
  | sequence _ hs _ hs' =>
      subst hs'
      exact fun _ _ => hs
  | manual _ _ hs' =>
      subst hs'
      exact fun _ htag => by cases htag

end Session

namespace World

variable [LinearOrder R] [Field R] {cfg : SequencerConfig R} {w u : World R} {a : WorldEvent R}
  {P : NavigationResult → Prop}

/-- What every run of the sequencer keeps. -/
def Episodic (w : World R) : Prop := w.Sound ∧ w.session.Tracked

theorem moved (h : w.Sound) (he : w.step cfg a = some u) : w.session.Moved a u.session :=
  (session_step he).moved h.sequencer.coherent

theorem Episodic.step (h : w.Episodic) (he : w.step cfg a = some u) : u.Episodic :=
  ⟨h.1.step he, h.2.step (moved h.1 he)⟩

omit [LinearOrder R] in
theorem Episodic.boot (waypoints : WaypointList R) (stallDistance : R) :
    (World.boot waypoints stallDistance).Episodic :=
  ⟨.boot waypoints stallDistance, nofun, nofun⟩

omit [LinearOrder R] in
/-- An episode begins with an open goal of its own, under the FSM lock. -/
private theorem entered_runOperation {e : FsmEvent R} {now : Int}
    (h : w.sequencer.fsm.Coherent) (hr : w.runOperation cfg e now = some u)
    (hen : w.sequencer.fsm.entersNavigating e = true) :
    ∃ f d, f.state = .navigating ∧
      u.session = ⟨f, w.session.goals.issue .sequence, w.session.goals.newest + 1⟩ ∧
      u.holder = some (.thread (.waitServer d)) ∧ .waitServer d ∈ u.nav.threads := by
  have heff := SequencerFsm.handle_effect (f := w.sequencer.fsm) cfg.isPrintable e
  obtain ⟨waypoint, mode, hc, hs⟩ := heff.sends h hen
  obtain ⟨d, hh, hm⟩ := holder_of_sends hr hc
  refine ⟨_, d, hs, ?_, hh, hm⟩
  rw [runOperation_session hr, Session.turn_of_sequence hc]

theorem entered (h : w.Sound) (he : w.step cfg a = some u)
    (hen : w.session.entersNavigating a = true) :
    ∃ f d, f.state = .navigating ∧
      u.session = ⟨f, { w.session.goals.issue .sequence with undelivered := w.session.remaining a },
        w.session.goals.newest + 1⟩ ∧
      u.holder = some (.thread (.waitServer d)) ∧ .waitServer d ∈ u.nav.threads := by
  cases a with
  | operation e now =>
      obtain ⟨-, hr⟩ := Option.ite_none_right_eq_some.mp he
      have hcoh := h.sequencer.coherent
      rw [← consume_sequencer e] at hcoh
      have hen : (w.consume e).sequencer.fsm.entersNavigating e = true := by
        rw [consume_sequencer]
        exact hen
      obtain ⟨f, d, hs, hu, hh, hm⟩ := entered_runOperation hcoh hr hen
      rw [consume_session] at hu
      exact ⟨f, d, hs, hu, hh, hm⟩
  | deliver g cb r o now =>
      obtain ⟨⟨-, hm'⟩, hr⟩ := Option.ite_none_right_eq_some.mp he
      obtain ⟨f, d, hs, hu, hh, hm⟩ := entered_runOperation (by exact h.sequencer.coherent) hr hen
      rw [session_deliver hm'] at hu
      exact ⟨f, d, hs, hu, hh, hm⟩
  | _ => cases hen

/-- A result on its way when an episode begins can be delivered in it, and decides it if it is
not `CANCELED`. -/
theorem foreign_delivered (h : w.Sound) (he : w.step cfg a = some u)
    (hen : w.session.entersNavigating a = true) {g : Nat} {r : NavigationResult}
    (hx : (g, .sequence, r) ∈ w.session.remaining a) :
    ∃ es v o y, Runs.exec (World.step cfg) u es = some v ∧ v.holder = none ∧
      v.step cfg (.deliver g .sequence r o 0) = some y ∧ g ≠ v.episode ∧
      v.sequencer.fsm.state = .navigating ∧ v.session.goals.isOpen = true ∧
      v.session.goals.tag = some .sequence := by
  obtain ⟨f, d, hs, hu, hh, hm⟩ := entered h he hen
  obtain ⟨es, v, hes, hnone, hv⟩ := release cfg hh hm
  have hsession := hv.trans hu
  have hxv : (g, .sequence, r) ∈ v.session.goals.undelivered := by
    rw [hsession]
    exact hx
  obtain ⟨o, y, hy, -⟩ := exists_deliver cfg hnone hxv
  refine ⟨es, v, o, y, hes, hnone, hy, ?_, ?_, ?_, ?_⟩
  · have hmem : (g, .sequence, r) ∈ w.session.goals.undelivered := by
      cases a with
      | deliver => exact Multiset.mem_of_mem_erase hx
      | _ => exact hx
    have hep : v.episode = w.session.goals.newest + 1 := congrArg Session.episode hsession
    rw [hep]
    exact h.goals.ne_next hmem
  · have hf : v.sequencer.fsm = f := congrArg Session.fsm hsession
    rw [hf, hs]
  · rw [hsession]
    rfl
  · rw [hsession]
    rfl

/-- The result that makes the state machine leave its waypoint is that of the goal its episode
began with. -/
def OwnResult (cfg : SequencerConfig R) (w : World R) (a : WorldEvent R) : Prop :=
  ∀ g cb r o now u, a = .deliver g cb r o now → w.step cfg a = some u →
    w.sequencer.fsm.Leaves u.sequencer.fsm → g = w.episode

/-- No SUCCEEDED, PASSED or FAILED result of the sequence is on its way when an episode
begins. -/
abbrev EntersSettled (w : World R) (a : WorldEvent R) : Prop :=
  w.session.EntersSettled (· ≠ .canceled) a

/-- A delivered result is a turn of the state machine. -/
theorem deliver_effect {g : Nat} {cb : Callback} {r : NavigationResult} {o : Option (Dispatch R)}
    {now : Int} (he : w.step cfg (.deliver g cb r o now) = some u) :
    (g, cb, r) ∈ w.session.goals.undelivered ∧
      w.sequencer.fsm.Effect (cb.event r) (w.sequencer.fsm.handle cfg.isPrintable (cb.event r)) ∧
      u.sequencer.fsm = (w.sequencer.fsm.handle cfg.isPrintable (cb.event r)).fsm := by
  obtain ⟨⟨-, hm⟩, hr⟩ := Option.ite_none_right_eq_some.mp he
  refine ⟨NavSystem.mem_undelivered.mpr ⟨o, hm⟩, SequencerFsm.handle_effect _ _, ?_⟩
  have hq := runOperation_sequencer hr
  exact TimedFsm.step_fsm hq

theorem ownResult_of_own (h : w.Sound) (hown : w.session.Own (· ≠ .canceled)) :
    w.OwnResult cfg a := by
  rintro g cb r o now u rfl he hl
  obtain ⟨hx, heff, hf⟩ := deliver_effect he
  rw [hf] at hl
  cases cb with
  | sequence =>
      obtain ⟨hs, hr⟩ := (SequencerFsm.leaves_iff h.sequencer.coherent heff).mp hl
      exact hown hs _ hx rfl hr
  | manual => exact absurd hl (SequencerFsm.not_leaves_manual heff)

/-- **Results decide their own episode.** In every run in which no result that could decide is on
its way when an episode begins, every result that makes the state machine leave its waypoint was
produced by the goal its present episode began with. Where an episode begins with such a result
on its way, the run can go on so that this result of an earlier goal decides it. -/
theorem results_decide_their_episode {waypoints : WaypointList R} {stallDistance : R}
    {es : List (WorldEvent R)}
    (h : Runs.exec (World.step cfg) (.boot waypoints stallDistance) es = some w) :
    (Runs.Meets (World.step cfg) EntersSettled (.boot waypoints stallDistance) es →
        Runs.Meets (World.step cfg) (OwnResult cfg) (.boot waypoints stallDistance) es) ∧
      ∀ a u, w.step cfg a = some u → ¬ w.EntersSettled a →
        ∃ es' v b, Runs.exec (World.step cfg) u es' = some v ∧ ¬ v.OwnResult cfg b := by
  constructor
  · intro hm
    refine Runs.meets_of_invariant
      (I := fun w => w.Episodic ∧ w.session.Own (· ≠ .canceled)) (fun w a u hI hq he => ?_)
      (fun w a hI _ => ownResult_of_own hI.1.1 hI.2) ⟨.boot _ _, nofun⟩ hm
    exact ⟨hI.1.step he, hI.2.step hI.1.2 (moved hI.1.1 he) hq⟩
  · intro a u he hv
    simp only [EntersSettled, Session.EntersSettled, not_forall, not_not] at hv
    obtain ⟨hen, ⟨g, cb, r⟩, hx, rfl, hr⟩ := hv
    have hw := Sound.run h
    obtain ⟨es', v, o, y, hes, -, hy, hne, hs, -⟩ := foreign_delivered hw he hen hx
    refine ⟨es', v, _, hes, fun hown => hne (hown g _ r o 0 y rfl hy ?_)⟩
    obtain ⟨-, heff, hf⟩ := deliver_effect hy
    have hcoh : v.sequencer.fsm.Coherent :=
      (Runs.invariant_of_step (fun _ _ _ h he => h.step he) (hw.step he) hes).sequencer.coherent
    rw [hf]
    exact (SequencerFsm.leaves_iff hcoh heff).mpr ⟨hs, hr⟩

/-- Goal 1 succeeds, its result is selected, and before it is delivered the sequence is paused,
moved on to the second waypoint and resumed. -/
def pausedResultRun : List (WorldEvent ℚ) :=
  [.operation (.start 0 0) 0, .operation (.onStartingDone 1) 0,
    .nav (.serverReady (.toStop 1 1 "normal")), .nav (.sendGoalAsync 1), .nav (.accept 1),
    .nav (.goalResponse 1), .nav (.terminate 1 .succeeded), .nav (.resultDone 1),
    .nav (.finish 1 .succeeded none),
    .operation (.pauseRequest "ui" true 0) 0, .operation (.setNextIndex 1) 0,
    .operation (.pauseRequest "ui" false 0) 0,
    .nav (.serverReady (.toStop 2 2 "normal")), .nav (.sendGoalAsync 2)]

theorem earlier_result_decides :
    ¬ ∀ (waypoints : WaypointList ℚ) (es : List (WorldEvent ℚ)),
      Runs.Meets (World.step .axes) (OwnResult .axes) (.boot waypoints (1 / 2)) es := by
  intro h
  have hrun : (Runs.exec (World.step .axes) (.boot ⟨[.stop 1, .stop 2, .stop 3]⟩ (1 / 2))
      pausedResultRun).any (fun w =>
        decide (w.episode = 2 ∧ (w.step .axes (.deliver 1 .sequence .succeeded none 0)).any
          (fun u => u.sequencer.fsm.currentIndex ≠ w.sequencer.fsm.currentIndex) = true)) =
            true := by
    rfl
  obtain ⟨w, hw, hep, hu⟩ := Runs.exists_exec hrun
  obtain ⟨u, hu, hne⟩ := (Option.any_eq_true _ _).mp hu
  have hown := (h _ (pausedResultRun ++ [.deliver 1 .sequence .succeeded none 0])).at hw
  have heq := hown 1 _ _ _ _ u rfl hu (Or.inl (of_decide_eq_true hne))
  omega

/-- The first waypoint is reached, and its result begins the episode of the second one. -/
def reachedRun : List (WorldEvent ℚ) :=
  [.operation (.start 0 0) 0, .operation (.onStartingDone 1) 0,
    .nav (.serverReady (.toStop 1 1 "normal")), .nav (.sendGoalAsync 1), .nav (.accept 1),
    .nav (.goalResponse 1), .nav (.terminate 1 .succeeded), .nav (.resultDone 1),
    .nav (.finish 1 .succeeded none), .deliver 1 .sequence .succeeded none 0]

theorem reached_by_own_result : Runs.Meets (World.step .axes) (OwnResult .axes)
    (.boot ⟨[.stop 1, .stop 2]⟩ (1 / 2)) reachedRun := by
  have hrun : (Runs.exec (World.step .axes) (.boot ⟨[.stop 1, .stop 2]⟩ (1 / 2))
      reachedRun).isSome = true := by
    rfl
  have hm : Runs.Meets (World.step .axes) EntersSettled (.boot ⟨[.stop 1, .stop 2]⟩ (1 / 2))
      reachedRun := by
    decide +kernel
  obtain ⟨w, hw⟩ := Option.isSome_iff_exists.mp hrun
  exact (results_decide_their_episode hw).1 hm

end World

end MgRobot.Sequencer
