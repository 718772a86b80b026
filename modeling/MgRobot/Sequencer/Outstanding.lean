import MgRobot.Sequencer.Episodes

/-!
# What `NAVIGATING` waits for

While the state machine navigates, the goal its episode began with is still to
be resolved: `send_goal` is at work on it, Nav2 or the navigator has it in hand,
or its result is on the way. One result ends that without ending the episode:
`CANCELED`, which `_on_navigation_result` ignores.
-/

namespace MgRobot.Sequencer

open MgRobot.Lib

set_option autoImplicit false

variable {R : Type*}

namespace World

/-- The goal the episode began with is unresolved for the state machine: it is the active logical
goal, on its way to Nav2 or in hand, or its result callback is on its way. -/
def Unresolved (w : World R) : Prop :=
  (w.nav.nav.logical.active = true ∧ w.nav.nav.logical.goalId = w.episode ∧
      w.nav.nav.logical.resultCallback = some .sequence ∧
      ((∃ d, .waitServer d ∈ w.nav.threads ∧ d.goalId = w.episode) ∨ InHand w.nav w.episode)) ∨
    ∃ r o, .runCallback w.episode .sequence r o ∈ w.nav.threads

/-- The `CANCELED` result of the goal was delivered in the run. -/
def CanceledDelivered (g : Nat) (es : List (WorldEvent R)) : Prop :=
  ∃ o now, .deliver g .sequence .canceled o now ∈ es

end World

namespace Session

variable {s s' : Session R} {a : WorldEvent R} {es : List (WorldEvent R)}

/-- While the state machine navigates, its goal is open, or its outcome is in the mailbox, or it
was `CANCELED` and delivered. -/
def Awaiting (es : List (WorldEvent R)) (s : Session R) : Prop :=
  s.fsm.state = .navigating → s.goals.isOpen = true ∨
    (∃ r, (s.episode, .sequence, r) ∈ s.goals.undelivered) ∨ World.CanceledDelivered s.episode es

/-- A delivery takes the outcome of the goal only if it is `CANCELED`. -/
theorem Awaiting.begins (h : s.Awaiting es) {e : FsmEvent R} {s₀ : Session R}
    (hb : s.Begins a e s₀) (he : ∀ r, e = .onNavigationResult r → r = .canceled)
    (hn : s.fsm.state = .navigating) :
    s₀.goals.isOpen = true ∨ (∃ r, (s₀.episode, .sequence, r) ∈ s₀.goals.undelivered) ∨
      World.CanceledDelivered s₀.episode (es ++ [a]) := by
  rcases h hn with ho | ⟨r, hr⟩ | ⟨o, now, hm⟩
  · left
    cases hb <;> exact ho
  · cases hb with
    | operation => exact Or.inr (Or.inl ⟨r, hr⟩)
    | @deliver g cb r' o now hx =>
        by_cases hx' : (s.episode, Callback.sequence, r) = (g, cb, r')
        · cases hx'
          obtain rfl := he r rfl
          exact Or.inr (Or.inr ⟨o, now, List.mem_append_right _ List.mem_cons_self⟩)
        · exact Or.inr (Or.inl ⟨r, (Multiset.mem_erase_of_ne hx').mpr hr⟩)
  · right
    right
    cases hb <;> exact ⟨o, now, List.mem_append_left _ hm⟩

theorem Awaiting.step (h : s.Awaiting es) (ht : s.Tracked) (hs : s.Moved a s') :
    s'.Awaiting (es ++ [a]) := by
  have past : ∀ {g : Nat}, World.CanceledDelivered g es → World.CanceledDelivered g (es ++ [a]) := by
    rintro g ⟨o, now, hm⟩
    exact ⟨o, now, List.mem_append_left _ hm⟩
  cases hs with
  | background hl hs' =>
      subst hs'
      intro hn
      cases hl with
      | same =>
          rcases h hn with ho | hr | hc
          · exact Or.inl ho
          · exact Or.inr (Or.inl hr)
          · exact Or.inr (Or.inr (past hc))
      | @resolve k r ho htag =>
          -- the open goal is that of the episode
          have htag' := ht.navigating hn
          obtain rfl := Option.some.inj (htag.symm.trans htag')
          refine Or.inr (Or.inl ⟨r, ?_⟩)
          rw [show Session.episode _ = s.goals.newest from ht.episode htag']
          exact Multiset.mem_cons_self _ _
      | lapse _ htag =>
          rw [ht.navigating hn] at htag
          cases htag
  | @quiet e s₀ f hb hs _ he hs' =>
      subst hs'
      intro hn
      have hn := hs.mp hn
      have hnext := h.begins hb (fun r her => he r her hn) hn
      exact hnext
  | manualDone hb hs' =>
      subst hs'
      intro hn
      have hnext := h.begins hb nofun hn
      exact hnext
  | failed _ _ hs' =>
      subst hs'
      exact nofun
  | canceled _ hs hs' =>
      subst hs'
      exact fun hn => absurd hn hs
  | sequence _ _ _ hs' =>
      subst hs'
      exact fun _ => Or.inl rfl
  | manual _ ha hs' =>
      subst hs'
      exact fun hn => absurd hn (not_navigating_of_manual ha)

end Session

namespace World

variable [LinearOrder R] [Field R] {cfg : SequencerConfig R} {w : World R}

/-- **Nothing is outstanding only after `CANCELED`.** In every state a run reaches, if the state
machine navigates then the goal its episode began with is unresolved, or its own `CANCELED` result
was delivered in the run. -/
theorem navigating_unresolved {waypoints : WaypointList R} {stallDistance : R}
    {es : List (WorldEvent R)}
    (h : Runs.exec (World.step cfg) (.boot waypoints stallDistance) es = some w)
    (hn : w.sequencer.fsm.state = .navigating) :
    w.Unresolved ∨ CanceledDelivered w.episode es := by
  obtain ⟨⟨hw, ht⟩, hawait⟩ := Runs.invariant_of_history
    (H := fun es w => World.Episodic w ∧ w.session.Awaiting es)
    (fun es w a u hI he => ⟨hI.1.step he, hI.2.step hI.1.2 (moved hI.1.1 he)⟩)
    ⟨.boot waypoints stallDistance, nofun⟩ h
  have htag := ht.navigating hn
  have hep : w.nav.nav.logical.goalId = w.episode := (ht.episode htag).symm
  rcases hawait hn with ho | ⟨r, hr⟩ | hc
  · refine Or.inl (Or.inl ⟨ho, hep, htag, ?_⟩)
    by_cases hwait : ∃ d, .waitServer d ∈ w.nav.threads ∧ d.goalId = w.episode
    · exact Or.inl hwait
    · right
      rw [← hep] at hwait ⊢
      exact (hw.nav.placed ho).inHand fun d hm hd => hwait ⟨d, hm, hd⟩
  · obtain ⟨o, hm⟩ := NavSystem.mem_undelivered.mp hr
    exact Or.inl (Or.inr ⟨r, o, hm⟩)
  · exact Or.inr hc

/-- Nav2 cancels the goal at the request of somebody else. -/
def canceledRun : List (WorldEvent ℚ) :=
  [.operation (.start 0 0) 0, .operation (.onStartingDone 1) 0,
    .nav (.serverReady (.toStop 1 1 "normal")), .nav (.sendGoalAsync 1), .nav (.accept 1),
    .nav (.goalResponse 1), .nav (.terminate 1 .canceled), .nav (.resultDone 1),
    .nav (.finish 1 .canceled none), .deliver 1 .sequence .canceled none 0]

theorem navigating_with_nothing_outstanding :
    ¬ ∀ (waypoints : WaypointList ℚ) (es : List (WorldEvent ℚ)) (w : World ℚ),
      Runs.exec (World.step .axes) (.boot waypoints (1 / 2)) es = some w →
        w.sequencer.fsm.state = .navigating → w.Unresolved := by
  intro h
  have hrun : (Runs.exec (World.step .axes) (.boot ⟨[.stop 1]⟩ (1 / 2)) canceledRun).any (fun w =>
      decide (w.sequencer.fsm.state = .navigating ∧ w.nav.nav.logical.active = false ∧
        w.nav.threads = 0)) = true := by
    rfl
  obtain ⟨w, hw, hn, hactive, hthreads⟩ := Runs.exists_exec hrun
  rcases h _ _ w hw hn with ⟨ha, -⟩ | ⟨r, o, hm⟩
  · rw [hactive] at ha
    cases ha
  · rw [hthreads] at hm
    exact Multiset.notMem_zero _ hm

/-- The goal is accepted and runs. -/
def navigatingRun : List (WorldEvent ℚ) :=
  [.operation (.start 0 0) 0, .operation (.onStartingDone 1) 0,
    .nav (.serverReady (.toStop 1 1 "normal")), .nav (.sendGoalAsync 1), .nav (.accept 1),
    .nav (.goalResponse 1)]

theorem navigating_for_running_goal : ∃ w : World ℚ,
    Runs.exec (World.step .axes) (.boot ⟨[.stop 1]⟩ (1 / 2)) navigatingRun = some w ∧
      w.Unresolved := by
  have hrun : (Runs.exec (World.step .axes) (.boot ⟨[.stop 1]⟩ (1 / 2)) navigatingRun).any
      (fun w => decide (w.sequencer.fsm.state = .navigating)) = true := by
    rfl
  obtain ⟨w, hw, hp⟩ := Runs.exists_exec hrun
  refine ⟨w, hw, (navigating_unresolved hw hp).resolve_right ?_⟩
  rintro ⟨o, now, hm⟩
  simp [navigatingRun] at hm

end World

end MgRobot.Sequencer
