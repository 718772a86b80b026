import MgRobot.Sequencer.ActionThreads

/-!
# The mode of the next goal and the costmap layers

`_enter_on_arriving` sets the mode for the whole list before its first action runs, and the
layers follow switch by switch, or fail to. When the actions have completed the two agree exactly
if the switches that took effect leave the layers as the list asks.
-/

namespace MgRobot.Sequencer

set_option autoImplicit false

open MgRobot.Lib SequencerFsm ManualCall

variable {R : Type*}

/-- The mode and the last switch that took effect fit each other. -/
def Agrees (mode : String) (last : Option Bool) : Prop :=
  (mode = "queue_wait" ↔ last = some false) ∧ (mode = "normal" ↔ last = some true ∨ last = none)

instance (mode : String) (last : Option Bool) : Decidable (Agrees mode last) :=
  inferInstanceAs (Decidable (_ ∧ _))

theorem agrees_iff {mode : String} {last : Option Bool} (hm : mode ∈ navigationModes) :
    Agrees mode last ↔ asksFor mode = last.getD true := by
  have hmode : mode = "normal" ∨ mode = "queue_wait" := by simpa [navigationModes] using hm
  rcases hmode with rfl | rfl <;> rcases last with _ | _ | _ <;> decide

/-- What the actions of a list ask the layers to be, in order. -/
def asked (actions : List ActionConfig) : List Bool := (modesOf actions).map asksFor

theorem asksFor_getLastD (actions : List ActionConfig) (mode : String) :
    asksFor ((modesOf actions).getLastD mode) = (asked actions).getLastD (asksFor mode) := by
  rw [asked]
  generalize modesOf actions = modes
  induction modes generalizing mode with
  | nil => rfl
  | cons m rest ih => rw [List.getLastD_cons, List.map_cons, List.getLastD_cons, ih]

namespace ModeRun

variable (s : ModeRun R)

/-- The layers after the last completion; they start out enabled. -/
def base : Bool := s.settled.getD true

/-- The switches that took effect since then leave the layers as the actions ask. -/
def EndsAsAsked (actions : List ActionConfig) : Prop :=
  s.switches.getLastD s.base = (asked actions).getLastD s.base

instance (actions : List ActionConfig) : Decidable (s.EndsAsAsked actions) :=
  inferInstanceAs (Decidable (_ = _))

theorem lastSwitch_getD : s.lastSwitch.getD true = s.switches.getLastD s.base := by
  rw [lastSwitch, base, List.getLastD_eq_getLast?]
  cases s.switches.getLast? with
  | none => rfl
  | some enabled => rfl

section GoalLayers

variable [Field R] (isPrintable : Char → Bool)

/-- The modes of the goals that an operation sends for the sequence. -/
def goalModes (e : FsmEvent R) : List String :=
  (s.fsm.handle isPrintable e).calls.filterMap Call.goalMode?

/-- Where actions complete, and wherever a goal is sent, the mode and the layers agree. -/
def LayersAgree : ModeEvent R → Prop
  | .actionsDone _ =>
      Agrees (s.fsm.handle isPrintable .onArrivingDone).fsm.navigationMode s.lastSwitch ∧
        ∀ mode ∈ s.goalModes isPrintable .onArrivingDone, Agrees mode s.lastSwitch
  | .operation e => ∀ mode ∈ s.goalModes isPrintable e, Agrees mode s.lastSwitch
  | .action _ _ | .late _ _ => True

/-- Where a list completes, the layers are left as it asks; and where a goal is sent without one,
as they were. -/
def SwitchesAsAsked : ModeEvent R → Prop
  | .actionsDone i => ∀ th ∈ s.threads[i]?, s.EndsAsAsked th.actions
  | .operation e => s.goalModes isPrintable e ≠ [] → s.EndsAsAsked []
  | .action _ _ | .late _ _ => True

instance decidableLayersAgree : (e : ModeEvent R) → Decidable (s.LayersAgree isPrintable e)
  | .actionsDone _ => inferInstanceAs (Decidable (_ ∧ ∀ mode ∈ s.goalModes _ _, _))
  | .operation e => inferInstanceAs (Decidable (∀ mode ∈ s.goalModes isPrintable e, _))
  | .action _ _ | .late _ _ => isTrue trivial

instance decidableSwitchesAsAsked : (e : ModeEvent R) →
    Decidable (s.SwitchesAsAsked isPrintable e)
  | .actionsDone i => inferInstanceAs (Decidable (∀ th ∈ s.threads[i]?, s.EndsAsAsked th.actions))
  | .operation e =>
      inferInstanceAs (Decidable (s.goalModes isPrintable e ≠ [] → s.EndsAsAsked []))
  | .action _ _ | .late _ _ => isTrue trivial

end GoalLayers

/-- The actions that are under way. -/
def running : List ActionConfig := (s.threads.head?.map ActionThread.actions).getD []

/-- The mode is what the actions under way ask for; there is one thread at most, while the state
machine waits for it. -/
structure ModeSet (s : ModeRun R) : Prop where
  checked : s.fsm.waypoints.ModesChecked
  mode : s.fsm.navigationMode ∈ navigationModes
  threads : s.threads = [] ∨ s.fsm.state = .onArriving ∧ ∃ th, s.threads = [th]
  asked : asksFor s.fsm.navigationMode = (asked s.running).getLastD s.base

theorem modeSet_boot (waypoints : { l : WaypointList R // l.ModesChecked }) :
    ModeSet (.boot waypoints) where
  checked := waypoints.property
  mode := List.mem_cons_self
  threads := .inl rfl
  asked := rfl

variable {s} {t : ModeRun R}

theorem ModeSet.agrees_iff (h : ModeSet s) :
    Agrees s.fsm.navigationMode s.lastSwitch ↔ s.EndsAsAsked s.running := by
  rw [Sequencer.agrees_iff h.mode, lastSwitch_getD, h.asked]
  exact eq_comm

/-- A thread is the only one. -/
theorem ModeSet.only {i : Nat} {th : ActionThread} (h : ModeSet s)
    (hi : s.threads[i]? = some th) : i = 0 ∧ s.threads = [th] ∧ s.running = th.actions := by
  rcases h.threads with hnil | ⟨_, th', hth⟩
  · rw [hnil] at hi
    exact absurd hi nofun
  · rw [hth] at hi
    cases i with
    | zero =>
        obtain rfl := Option.some.inj hi
        refine ⟨rfl, hth, ?_⟩
        rw [running, hth]
        rfl
    | succ i => exact absurd hi nofun

/-! ## Steps -/

section Steps

variable [Field R] {isPrintable : Char → Bool} {e : FsmEvent R}

/-- What an operation leaves alone, and the threads that it starts. -/
theorem operate_eq_some (h : s.operate isPrintable e = some t) :
    t.fsm = (s.fsm.handle isPrintable e).fsm ∧
      t.threads = s.threads ++ (s.fsm.handle isPrintable e).calls.filterMap Call.thread? ∧
      t.base = s.base := by
  obtain ⟨sequencer, hstep, rfl⟩ := Option.map_eq_some_iff.mp h
  exact ⟨TimedFsm.step_fsm hstep, rfl, rfl⟩

theorem getLastD_mem_navigationModes {modes : List String} {mode : String}
    (h : ∀ m ∈ modes, m ∈ navigationModes) (hm : mode ∈ navigationModes) :
    modes.getLastD mode ∈ navigationModes := by
  rw [List.getLastD_eq_getLast?]
  cases hl : modes.getLast? with
  | none => exact hm
  | some m => exact h m (List.mem_of_getLast? hl)

theorem ModeSet.operation (h : ModeSet s) (ho : Outside e)
    (hs : s.operate isPrintable e = some t) : ModeSet t := by
  obtain ⟨hfsm, hthreads, hbase⟩ := operate_eq_some hs
  have heffect := handle_effect (f := s.fsm) isPrintable e
  rcases heffect.keepsMode ho with ⟨hkeeps, hchecked⟩ | ⟨actions, ha⟩
  · rw [hkeeps.threads, List.append_nil] at hthreads
    have hrunning : t.running = s.running := by rw [running, running, hthreads]
    refine ⟨?_, ?_, ?_, ?_⟩
    · rw [hfsm]
      exact hchecked h.checked
    · rw [hfsm, hkeeps.mode]
      exact h.mode
    · rw [hfsm, hthreads]
      exact h.threads.imp_right fun hth => ⟨(heffect.onArriving ho hth.1).1, hth.2⟩
    · rw [hfsm, hkeeps.mode, hrunning, hbase]
      exact h.asked
  · -- nobody waits for a thread while the robot is on its way
    have hnone : s.threads = [] := by
      rcases h.threads with hnil | ⟨hstate, _⟩
      · exact hnil
      · exact absurd (ha.before.symm.trans hstate) nofun
    rw [hnone, ha.threads, List.nil_append] at hthreads
    have hbefore : asksFor s.fsm.navigationMode = s.base := by
      rw [h.asked, running, hnone]
      rfl
    obtain ⟨w, hw, rfl⟩ := ha.reached
    refine ⟨?_, ?_, ?_, ?_⟩
    · rw [hfsm, ha.waypoints]
      exact h.checked
    · rw [hfsm, ha.mode]
      exact getLastD_mem_navigationModes (h.checked w hw) h.mode
    · rw [hfsm, hthreads]
      exact .inr ⟨ha.after, _, rfl⟩
    · have hrunning : t.running = w.onReachedActions := by
        rw [running, hthreads]
        rfl
      rw [hfsm, ha.mode, asksFor_getLastD, hbefore, hrunning, hbase]

/-- The actions complete, with the layers as they ask. -/
theorem ModeSet.completion {i : Nat} {th : ActionThread} (h : ModeSet s)
    (hi : s.threads[i]? = some th) (hends : s.EndsAsAsked th.actions)
    (hs : operate { s with
        threads := s.threads.eraseIdx i, settled := s.lastSwitch, switches := [] }
      isPrintable .onArrivingDone = some t) : ModeSet t := by
  obtain ⟨rfl, hth, hrunning⟩ := h.only hi
  obtain ⟨hfsm, hthreads, hbase⟩ := operate_eq_some hs
  obtain ⟨hkeeps, hw⟩ := (handle_effect (f := s.fsm) isPrintable .onArrivingDone).arrivingDone_keepsMode
  have hnone : t.threads = [] := by
    rw [hthreads]
    dsimp only
    rw [hkeeps.threads, hth]
    rfl
  refine ⟨?_, ?_, .inl hnone, ?_⟩
  · rw [hfsm, hw]
    exact h.checked
  · rw [hfsm, hkeeps.mode]
    exact h.mode
  · have hlast : t.base = s.switches.getLastD s.base := hbase.trans s.lastSwitch_getD
    have hidle : t.running = [] := by
      rw [running, hnone]
      rfl
    rw [hfsm, hkeeps.mode, h.asked, hrunning, hidle, hlast]
    exact hends.symm

omit [Field R] in
theorem ModeSet.action {i : Nat} {th : ActionThread} {a : ActionConfig} {rest : List ActionConfig}
    (h : ModeSet s) (hi : s.threads[i]? = some th) (call : SwitchCall) :
    ModeSet (s.runAction th a rest i call) := by
  obtain ⟨rfl, hth, hrunning⟩ := h.only hi
  have hstate : s.fsm.state = .onArriving := by
    rcases h.threads with hnil | ⟨hstate, _⟩
    · exact absurd (hth.symm.trans hnil) nofun
    · exact hstate
  have hasked := h.asked
  rw [hrunning] at hasked
  unfold runAction
  dsimp only
  split
  · exact ⟨h.checked, h.mode, .inr ⟨hstate, _, by rw [hth]; rfl⟩, by rw [running, hth]; exact hasked⟩
  · exact ⟨h.checked, h.mode, .inr ⟨hstate, _, by rw [hth]; rfl⟩, by rw [running, hth]; exact hasked⟩

theorem ModeSet.step {e : ModeEvent R} (h : ModeSet s) (hq : s.SwitchesAsAsked isPrintable e)
    (hs : s.step isPrintable e = some t) : ModeSet t := by
  unfold ModeRun.step at hs
  cases e with
  | operation e =>
      obtain ⟨ho, hs⟩ := Option.ite_none_right_eq_some.mp hs
      exact h.operation ho hs
  | action i call =>
      dsimp only at hs
      split at hs
      · rename_i th hi
        split at hs
        · obtain rfl := Option.some.inj hs
          exact h.action hi call
        · exact absurd hs nofun
      · exact absurd hs nofun
  | actionsDone i =>
      dsimp only at hs
      split at hs
      · rename_i th hi
        obtain ⟨_, hs⟩ := Option.ite_none_right_eq_some.mp hs
        exact h.completion hi (hq th hi) hs
      · exact absurd hs nofun
  | late enabled successful =>
      obtain ⟨_, hs⟩ := Option.ite_none_right_eq_some.mp hs
      obtain rfl := Option.some.inj hs
      exact ⟨h.checked, h.mode, h.threads, h.asked⟩

/-- Under the invariant the two conditions say the same of a step. -/
theorem ModeSet.layersAgree_iff {e : ModeEvent R} (h : ModeSet s)
    (hs : s.step isPrintable e = some t) :
    s.SwitchesAsAsked isPrintable e ↔ s.LayersAgree isPrintable e := by
  have hagrees := h.agrees_iff
  unfold ModeRun.step at hs
  cases e with
  | action | late => exact Iff.rfl
  | operation e =>
      obtain ⟨ho, _⟩ := Option.ite_none_right_eq_some.mp hs
      have heffect := handle_effect (f := s.fsm) isPrintable e
      have hgoals : ∀ mode ∈ s.goalModes isPrintable e, mode = s.fsm.navigationMode := by
        rcases heffect.keepsMode ho with ⟨hkeeps, _⟩ | ⟨_, ha⟩
        · exact hkeeps.goals
        · rw [goalModes, ha.goals]
          exact nofun
      rcases h.threads with hnone | ⟨hstate, _⟩
      · have hidle : s.running = [] := by
          rw [running, hnone]
          rfl
        rw [hidle] at hagrees
        constructor
        · intro hends mode hm
          rw [hgoals mode hm]
          exact hagrees.mpr (hends (List.ne_nil_of_mem hm))
        · intro hall hne
          obtain ⟨mode, hm⟩ := List.exists_mem_of_ne_nil _ hne
          have hmode := hall mode hm
          rw [hgoals mode hm] at hmode
          exact hagrees.mp hmode
      · -- no goal is sent while actions are under way
        have hnil : s.goalModes isPrintable e = [] := (heffect.onArriving ho hstate).2
        refine iff_of_true (fun hne => absurd hnil hne) fun mode hm => ?_
        rw [hnil] at hm
        exact absurd hm List.not_mem_nil
  | actionsDone i =>
      dsimp only at hs
      split at hs
      · rename_i th hi
        obtain ⟨_, _, hrunning⟩ := h.only hi
        obtain ⟨hkeeps, _⟩ :=
          (handle_effect (f := s.fsm) isPrintable .onArrivingDone).arrivingDone_keepsMode
        rw [hrunning] at hagrees
        rw [SwitchesAsAsked, LayersAgree, hkeeps.mode, hi, hagrees]
        constructor
        · intro hends
          have hends := hends th rfl
          refine ⟨hends, fun mode hm => ?_⟩
          rw [hkeeps.goals mode hm]
          exact hagrees.mpr hends
        · rintro ⟨hends, _⟩ th' hth'
          obtain rfl := Option.some.inj hth'
          exact hends
      · exact absurd hs nofun

end Steps

/-! ## Runs -/

/-- **The mode and the layers agree exactly if the switches end as asked.** Over every run, at
every completion of actions and every goal that is sent. -/
theorem layers_agree_iff [Field R] {isPrintable : Char → Bool}
    {waypoints : { l : WaypointList R // l.ModesChecked }} {es : List (ModeEvent R)}
    (hr : Runs.exec (step isPrintable) (boot waypoints) es = some s) :
    Runs.Meets (step isPrintable) (fun s e => s.LayersAgree isPrintable e) (boot waypoints) es ↔
      Runs.Meets (step isPrintable) (fun s e => s.SwitchesAsAsked isPrintable e)
        (boot waypoints) es :=
  (Runs.meets_iff_meets (fun _ _ _ h hq hs => h.step hq hs) (fun _ _ _ h hs => h.layersAgree_iff hs)
    (modeSet_boot waypoints) hr).symm

/-- A waypoint to stop at whose actions switch to the modes. -/
def modeStop (x : ℚ) (modes : List String) : Waypoint ℚ :=
  { Waypoint.stop x with onReachedActions := modes.map fun mode => ⟨"set_navigation_mode", mode⟩ }

/-- A queue between the first waypoint and the second. -/
def queueWaypoints : { l : WaypointList ℚ // l.ModesChecked } :=
  ⟨⟨[modeStop 1 ["queue_wait"], modeStop 2 ["normal"], .stop 3]⟩, by decide⟩

/-- The first waypoint is reached, and its switch comes to what `call` says. -/
def queueRun (call : SwitchCall) : List (ModeEvent ℚ) :=
  [.operation (.start 0 0), .operation (.onStartingDone 1),
    .operation (.onNavigationResult .succeeded), .action 0 call, .actionsDone 0]

theorem layers_agree_answered : Runs.Meets (step fun _ => true)
    (fun s e => s.LayersAgree (fun _ => true) e) (boot queueWaypoints)
    (queueRun (.answered true)) := by
  obtain ⟨s, hs, _⟩ : ∃ s, Runs.exec (step fun _ => true) (boot queueWaypoints)
      (queueRun (.answered true)) = some s ∧ s.lastSwitch = some false :=
    Runs.exists_exec (by rfl)
  exact (layers_agree_iff hs).mpr (by decide +kernel)

/-- The costmap is not there: the next goal waits in a queue that the layers do not know of. -/
theorem failed_switch_disagrees :
    (∃ s, Runs.exec (step fun _ => true) (boot queueWaypoints) (queueRun .unavailable) = some s ∧
      s.fsm.navigationMode = "queue_wait" ∧ s.lastSwitch = none) ∧
    ¬ Runs.Meets (step fun _ => true) (fun s e => s.LayersAgree (fun _ => true) e)
      (boot queueWaypoints) (queueRun .unavailable) :=
  ⟨Runs.exists_exec (by rfl), by decide +kernel⟩

end ModeRun

end MgRobot.Sequencer
