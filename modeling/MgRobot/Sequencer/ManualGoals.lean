import MgRobot.Sequencer.Episodes

/-!
# The manual goal flag

`_manual_goal_active` stands for the goal that `navigate_to_pose` sent last. The
result callback that clears it carries no goal id, so a result of an earlier
manual goal that comes late would clear it under a running one. Without such a
result the flag is set as long as a manual goal is open.
-/

namespace MgRobot.Sequencer

open MgRobot.Lib

set_option autoImplicit false

variable {R : Type*}

/-- A `stop` cancels once for the flag and once for the state. -/
theorem SequencerFsm.stop_calls [Field R] (f : SequencerFsm R) :
    f.stop.1.calls = (if f.manualGoalActive = true then [.cancel] else []) ++
      if f.state = .navigating then [.cancel] else [] := by
  have he := f.effect_stop
  generalize f.stop.1 = t at he
  cases he with
  | stopNavigating hs =>
      rw [if_pos hs]
      split <;> rfl
  | stopIdle hs | stopStarting hs | stopDeferred hs => simp [hs]
  | stopResting hs => rcases hs with hs | hs | hs <;> simp [hs]

namespace Session

/-- No result of a manual goal is on its way when the next one is accepted. -/
def ManualSettled (s : Session R) : WorldEvent R → Prop
  | .operation (.sendManualGoal _ mode) _ =>
      s.fsm.AcceptsManualGoal mode → ∀ x ∈ s.goals.undelivered, x.2.1 ≠ .manual
  | _ => True

instance (s : Session R) : ∀ a, Decidable (s.ManualSettled a)
  | .operation (.sendManualGoal _ _) _ => inferInstanceAs (Decidable (_ → _))
  | .operation (.setNextIndex _) _ | .operation (.reloadWaypoints _) _ | .operation (.start _ _) _
  | .operation .stop _ | .operation (.pauseRequest _ _ _) _ | .operation (.onStartingDone _) _
  | .operation (.onManualGoalResult _) _ | .operation (.onNavigationResult _) _
  | .operation .onArrivingDone _ | .navigateToPose _ _ | .layersFailed _ _ | .deliver .. | .nav _ =>
      isTrue trivial

/-- An open manual goal is flagged, and no result is on its way that would clear the flag. -/
def ManualFlagged (s : Session R) : Prop :=
  s.goals.isOpen = true → s.goals.tag = some .manual →
    s.fsm.manualGoalActive = true ∧ ∀ x ∈ s.goals.undelivered, x.2.1 ≠ .manual

variable {s s' : Session R} {a : WorldEvent R}

theorem ManualFlagged.step (h : s.ManualFlagged) (hs : s.Moved a s') (hq : s.ManualSettled a) :
    s'.ManualFlagged := by
  cases hs with
  | background hl hs' =>
      subst hs'
      cases hl with
      | same => exact h
      | resolve | lapse => exact fun ho => by cases ho
  | quiet hb _ hm _ hs' =>
      subst hs'
      obtain ⟨m, hle, rfl⟩ := hb.goals
      intro ho htag
      obtain ⟨hf, hx⟩ := h ho htag
      exact ⟨hm.trans hf, fun x hxm => hx x (Multiset.mem_of_le hle hxm)⟩
  | @manualDone r s₀ hb hs' =>
      -- the result that clears the flag was on its way
      subst hs'
      generalize he : FsmEvent.onManualGoalResult r = e at hb
      cases hb with
      | operation hm => exact absurd he.symm (hm r)
      | @deliver g cb r' o now hx =>
          cases cb with
          | sequence => cases he
          | manual => exact fun ho htag => absurd rfl ((h ho htag).2 _ hx)
  | failed hb _ hs' =>
      subst hs'
      obtain ⟨m, hle, rfl⟩ := hb.goals
      intro ho htag
      obtain ⟨hf, hx⟩ := h ho htag
      exact ⟨hf, fun x hxm => hx x (Multiset.mem_of_le hle hxm)⟩
  | canceled _ _ hs' =>
      subst hs'
      exact fun ho => by cases ho
  | sequence _ _ _ hs' =>
      subst hs'
      exact fun _ htag => by cases htag
  | @manual pose mode s₀ hb ha hs' =>
      subst hs'
      refine fun _ _ => ⟨rfl, ?_⟩
      generalize he : FsmEvent.sendManualGoal pose mode = e at hb
      cases hb with
      | operation =>
          subst he
          exact hq ha
      | @deliver g cb r o now hx => cases cb <;> cases he

end Session

namespace World

/-- A goal that `navigate_to_pose` sent is open. -/
def ManualGoalActive (w : World R) : Prop :=
  w.nav.nav.logical.active = true ∧ w.nav.nav.logical.resultCallback = some .manual

instance (w : World R) : Decidable w.ManualGoalActive := inferInstanceAs (Decidable (_ ∧ _))

abbrev ManualSettled (w : World R) (a : WorldEvent R) : Prop := w.session.ManualSettled a

variable [LinearOrder R] [Field R] {cfg : SequencerConfig R} {w u : World R} {a : WorldEvent R}
  {now : Int}

theorem manualFlagged {waypoints : WaypointList R} {stallDistance : R} {es : List (WorldEvent R)}
    (h : Runs.exec (World.step cfg) (.boot waypoints stallDistance) es = some w)
    (hm : Runs.Meets (World.step cfg) ManualSettled (.boot waypoints stallDistance) es) :
    w.session.ManualFlagged := by
  have hinv := Runs.invariant (I := fun w => World.Sound w ∧ w.session.ManualFlagged)
    (fun w a u hI hq he => ⟨hI.1.step he, hI.2.step (moved hI.1 he) hq⟩)
    ⟨.boot _ _, nofun⟩ hm h
  exact hinv.2

/-- A `stop` that finds the flag set or the sequence navigating closes the goal. -/
theorem closed_of_stop (he : w.step cfg (.operation .stop now) = some u)
    (hc : w.sequencer.fsm.manualGoalActive = true ∨ w.sequencer.fsm.state = .navigating) :
    u.nav.nav.logical.active = false := by
  have hs : u.session = w.session.turn w.sequencer.fsm.stop.1 := operation_session he
  have hcalls := w.sequencer.fsm.stop_calls
  have hopen : ∃ rest, w.sequencer.fsm.stop.1.calls = .cancel :: rest ∧
      ∀ c ∈ rest, ∀ w cb mode, c ≠ .sendGoal w cb mode := by
    by_cases hf : w.sequencer.fsm.manualGoalActive = true
    · rw [if_pos hf] at hcalls
      refine ⟨_, hcalls, ?_⟩
      split <;> simp
    · rw [if_neg hf, if_pos (hc.resolve_left hf)] at hcalls
      exact ⟨[], hcalls, by simp⟩
  obtain ⟨rest, hcancel, hrest⟩ := hopen
  rw [Session.turn_of_canceled hcancel hrest] at hs
  exact congrArg (fun s => s.goals.isOpen) hs

/-- A result on its way when a manual goal is accepted can be delivered next, and clears the flag
under the open goal. -/
theorem flag_cleared {pose : Pose R} {mode : String}
    (he : w.step cfg (.operation (.sendManualGoal pose mode) now) = some u)
    (ha : w.sequencer.fsm.AcceptsManualGoal mode) {g : Nat} {r : NavigationResult}
    (hx : (g, .manual, r) ∈ w.session.goals.undelivered) :
    ∃ es v, Runs.exec (World.step cfg) u es = some v ∧
      v.sequencer.fsm.manualGoalActive = false ∧ v.ManualGoalActive := by
  have hsent : w.sequencer.fsm.handle cfg.isPrintable (.sendManualGoal pose mode) =
      { fsm := { w.sequencer.fsm with manualGoalActive := true }
        calls := [.sendGoal (SequencerFsm.manualWaypoint pose) .manual mode] } := by
    simp only [SequencerFsm.handle, SequencerFsm.sendManualGoal,
      w.sequencer.fsm.manualGoalRejection_eq_none.mpr ha]
  have hu := operation_session he
  rw [Session.turn_of_manual (by rw [hsent])] at hu
  obtain ⟨-, hr⟩ := Option.ite_none_right_eq_some.mp he
  obtain ⟨d, hh, hm⟩ := holder_of_sends hr (by rw [consume_sequencer, hsent])
  obtain ⟨es, v, hes, hnone, hv⟩ := release cfg hh hm
  have hsession := hv.trans hu
  have hxv : (g, .manual, r) ∈ v.session.goals.undelivered := by
    rw [hsession]
    exact hx
  obtain ⟨o, y, hy, hys⟩ := exists_deliver cfg hnone hxv
  have hys : y.session = { v.session.deliver (g, .manual, r) with
      fsm := { v.sequencer.fsm with manualGoalActive := false } } := hys
  refine ⟨_, y, Runs.exec_snoc hes hy, ?_, ?_, ?_⟩
  · exact congrArg (fun s => s.fsm.manualGoalActive) hys
  · have hopen : y.nav.nav.logical.active = v.session.goals.isOpen :=
      congrArg (fun s => s.goals.isOpen) hys
    rw [hopen, hsession]
    rfl
  · have htag : y.nav.nav.logical.resultCallback = v.session.goals.tag :=
      congrArg (fun s => s.goals.tag) hys
    rw [htag, hsession]
    rfl

/-- **An open manual goal is flagged.** In every run in which no result of a manual goal is on its
way when the next one is accepted, no manual goal is open without the flag, `start` is refused
while one is open, and `stop` closes it. Where a manual goal is accepted with such a result on its
way, the run can go on to an open manual goal without the flag. -/
theorem manual_goal_flagged {waypoints : WaypointList R} {stallDistance : R}
    {es : List (WorldEvent R)}
    (h : Runs.exec (World.step cfg) (.boot waypoints stallDistance) es = some w) :
    (Runs.Meets (World.step cfg) ManualSettled (.boot waypoints stallDistance) es →
        (w.sequencer.fsm.manualGoalActive = false → ¬ w.ManualGoalActive) ∧
        (w.ManualGoalActive → ∀ ms now, (w.sequencer.fsm.start ms now).2.success = false) ∧
        (w.ManualGoalActive → ∀ now u, w.step cfg (.operation .stop now) = some u →
          u.nav.nav.logical.active = false)) ∧
      ∀ a u, w.step cfg a = some u → ¬ w.ManualSettled a →
        ∃ es' v, Runs.exec (World.step cfg) u es' = some v ∧
          v.sequencer.fsm.manualGoalActive = false ∧ v.ManualGoalActive := by
  constructor
  · intro hm
    have hflag : w.ManualGoalActive → w.sequencer.fsm.manualGoalActive = true := fun hactive =>
      (manualFlagged h hm hactive.1 hactive.2).1
    refine ⟨fun hf hactive => ?_, fun hactive ms now => ?_, fun hactive now u he => ?_⟩
    · rw [hflag hactive] at hf
      cases hf
    · simp only [SequencerFsm.start, hflag hactive, if_true]
    · exact closed_of_stop he (Or.inl (hflag hactive))
  · intro a u he hv
    cases a with
    | operation e now =>
        cases e with
        | sendManualGoal pose mode =>
            simp only [ManualSettled, Session.ManualSettled, not_forall, not_not] at hv
            obtain ⟨ha, ⟨g, cb, r⟩, hx, rfl⟩ := hv
            exact flag_cleared he ha hx
        | _ => exact absurd trivial hv
    | _ => exact absurd trivial hv

/-- Manual goal 1 succeeds, its result is selected, and before it is delivered the second section
of another `navigate_to_pose` runs. -/
def lateManualResultRun : List (WorldEvent ℚ) :=
  [.navigateToPose ⟨1, 0⟩ "default", .navigateToPose ⟨2, 0⟩ "default",
    .operation (.sendManualGoal ⟨1, 0⟩ "default") 0,
    .nav (.serverReady (.toStop 1 1 "default")), .nav (.sendGoalAsync 1), .nav (.accept 1),
    .nav (.goalResponse 1), .nav (.terminate 1 .succeeded), .nav (.resultDone 1),
    .nav (.finish 1 .succeeded none),
    .operation (.sendManualGoal ⟨2, 0⟩ "default") 0,
    .nav (.serverReady (.toStop 2 2 "default")), .nav (.sendGoalAsync 2),
    .deliver 1 .manual .succeeded none 0]

theorem open_manual_goal_unflagged :
    ¬ ∀ (waypoints : WaypointList ℚ) (es : List (WorldEvent ℚ)) (w : World ℚ),
      Runs.exec (World.step .axes) (.boot waypoints (1 / 2)) es = some w →
        w.sequencer.fsm.manualGoalActive = false → ¬ w.ManualGoalActive := by
  intro h
  have hrun : (Runs.exec (World.step .axes) (.boot ⟨[.stop 1]⟩ (1 / 2)) lateManualResultRun).any
      (fun w => decide (w.sequencer.fsm.manualGoalActive = false ∧ w.ManualGoalActive)) = true := by
    rfl
  obtain ⟨w, hw, hflag, hactive⟩ := Runs.exists_exec hrun
  exact h _ _ w hw hflag hactive

/-- One manual goal runs. -/
def manualRun : List (WorldEvent ℚ) :=
  [.navigateToPose ⟨1, 0⟩ "default", .operation (.sendManualGoal ⟨1, 0⟩ "default") 0,
    .nav (.serverReady (.toStop 1 1 "default")), .nav (.sendGoalAsync 1), .nav (.accept 1),
    .nav (.goalResponse 1)]

theorem start_refused_for_manual_goal : ∃ w : World ℚ,
    Runs.exec (World.step .axes) (.boot ⟨[.stop 1]⟩ (1 / 2)) manualRun = some w ∧
      w.ManualGoalActive ∧ (w.sequencer.fsm.start 0 0).2.success = false := by
  have hrun : (Runs.exec (World.step .axes) (.boot ⟨[.stop 1]⟩ (1 / 2)) manualRun).any
      (fun w => decide w.ManualGoalActive) = true := by
    rfl
  have hm : Runs.Meets (World.step .axes) ManualSettled (.boot ⟨[.stop 1]⟩ (1 / 2))
      manualRun := by
    decide +kernel
  obtain ⟨w, hw, hactive⟩ := Runs.exists_exec hrun
  exact ⟨w, hw, hactive, ((manual_goal_flagged hw).1 hm).2.1 hactive 0 0⟩

end World

end MgRobot.Sequencer
