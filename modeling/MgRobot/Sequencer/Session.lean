import MgRobot.Sequencer.World

/-!
# The state machine and its goals

`World` seen through the ledger: the record of the state machine, its goals and
the results on their way to it. Every step of the world is a step here, so what
holds of the goals is read off a handful of moves. The parts of the world keep
their own invariants.
-/

namespace MgRobot.Sequencer

open MgRobot.Lib

set_option autoImplicit false

variable {R : Type*}

structure Session (R : Type*) where
  fsm : SequencerFsm R
  goals : Ledger Callback NavigationResult
  episode : Nat

namespace Session

variable (s : Session R)

def call (s : Session R) : Call R → Session R
  | .cancel => { s with goals := s.goals.revoke }
  | .sendGoal _ cb _ =>
      { s with
        goals := s.goals.issue cb
        episode := if cb = .sequence then s.goals.newest + 1 else s.episode }
  | _ => s

def turn (t : Turn R) : Session R := t.calls.foldl call { s with fsm := t.fsm }

/-- The outcome a callback brings is taken from the mailbox. -/
def deliver (x : Nat × Callback × NavigationResult) : Session R :=
  { s with goals := s.goals.deliver x }

variable {s} {t : Turn R}

theorem foldl_call_of_quiet {calls : List (Call R)} (h : ∀ c ∈ calls, c.onNavigator = false) :
    calls.foldl call s = s := by
  induction calls generalizing s with
  | nil => rfl
  | cons c rest ih =>
      have hc : s.call c = s := by
        have hn := h c List.mem_cons_self
        cases c <;> first | rfl | cases hn
      rw [List.foldl_cons, hc, ih fun d hd => h d (List.mem_cons_of_mem c hd)]

/-- A second `cancel` changes nothing. -/
theorem foldl_call_of_canceled {rest : List (Call R)} (hs : s.goals.revoke = s.goals)
    (h : ∀ c ∈ rest, ∀ w cb mode, c ≠ .sendGoal w cb mode) : rest.foldl call s = s := by
  induction rest generalizing s with
  | nil => rfl
  | cons c rest ih =>
      have hc : s.call c = s := by
        cases c with
        | cancel => rw [call, hs]
        | sendGoal w cb mode => exact absurd rfl (h _ List.mem_cons_self w cb mode)
        | _ => rfl
      rw [List.foldl_cons, hc, ih hs fun d hd => h d (List.mem_cons_of_mem c hd)]

theorem turn_of_quiet (h : ∀ c ∈ t.calls, c.onNavigator = false) :
    s.turn t = { s with fsm := t.fsm } := foldl_call_of_quiet h

theorem turn_of_canceled {rest : List (Call R)} (hc : t.calls = .cancel :: rest)
    (h : ∀ c ∈ rest, ∀ w cb mode, c ≠ .sendGoal w cb mode) :
    s.turn t = { s with fsm := t.fsm, goals := s.goals.revoke } := by
  rw [turn, hc, List.foldl_cons]
  exact foldl_call_of_canceled rfl h

theorem turn_of_sequence {w : Waypoint R} {mode : String}
    (hc : t.calls = [.sendGoal w .sequence mode]) :
    s.turn t = ⟨t.fsm, s.goals.issue .sequence, s.goals.newest + 1⟩ := by
  rw [turn, hc]
  rfl

theorem turn_of_manual {w : Waypoint R} {mode : String}
    (hc : t.calls = [.sendGoal w .manual mode]) :
    s.turn t = ⟨t.fsm, s.goals.issue .manual, s.episode⟩ := by
  rw [turn, hc]
  rfl

theorem turn_fsm : (s.turn t).fsm = t.fsm := by
  have hfold : ∀ (calls : List (Call R)) (s : Session R), (calls.foldl call s).fsm = s.fsm := by
    intro calls
    induction calls with
    | nil => exact fun _ => rfl
    | cons c rest ih =>
        intro s
        rw [List.foldl_cons, ih]
        cases c <;> rfl
  exact hfold t.calls _

/-- The event begins the operation `e`, and takes the outcome it brings from the mailbox. -/
inductive Begins (s : Session R) : WorldEvent R → FsmEvent R → Session R → Prop
  | operation {e : FsmEvent R} {now : Int} (hm : ∀ r, e ≠ .onManualGoalResult r)
      (hs : ∀ r, e ≠ .onNavigationResult r) : Begins s (.operation e now) e s
  | deliver {g : Nat} {cb : Callback} {r : NavigationResult} {o : Option (Dispatch R)} {now : Int}
      (hx : (g, cb, r) ∈ s.goals.undelivered) :
      Begins s (.deliver g cb r o now) (cb.event r) (s.deliver (g, cb, r))

inductive Step [Field R] (isPrintable : Char → Bool) (s : Session R) :
    WorldEvent R → Session R → Prop
  | turn {a : WorldEvent R} {e : FsmEvent R} {s₀ : Session R} (hb : s.Begins a e s₀) :
      Step isPrintable s a (s₀.turn (s.fsm.handle isPrintable e))
  | background {e : NavEvent Callback R} {l : Ledger Callback NavigationResult}
      (hl : s.goals.Background l) : Step isPrintable s (.nav e) { s with goals := l }
  | navigateToPose {pose : Pose R} {mode : String} : Step isPrintable s (.navigateToPose pose mode) s
  | layersFailed {pose : Pose R} {mode : String} : Step isPrintable s (.layersFailed pose mode) s

theorem goals_sound_turn (h : s.goals.Sound) : (s.turn t).goals.Sound := by
  have hfold : ∀ (calls : List (Call R)) (s : Session R), s.goals.Sound →
      (calls.foldl call s).goals.Sound := by
    intro calls
    induction calls with
    | nil => exact fun s h => h
    | cons c rest ih =>
        refine fun s h => ih _ ?_
        cases c with
        | cancel => exact h.revoke
        | sendGoal w cb mode => exact h.issue cb
        | _ => exact h
  exact hfold t.calls _ h

theorem Step.goals_sound [Field R] {isPrintable : Char → Bool} {a : WorldEvent R} {s' : Session R}
    (he : s.Step isPrintable a s') (h : s.goals.Sound) : s'.goals.Sound := by
  cases he with
  | turn hb =>
      apply goals_sound_turn
      cases hb with
      | operation => exact h
      | deliver => exact h.deliver _
  | background hl => exact h.background hl
  | navigateToPose | layersFailed => exact h

/-- A result callback comes from the mailbox. -/
theorem Begins.result {a : WorldEvent R} {s₀ : Session R} {r : NavigationResult}
    (h : s.Begins a (.onNavigationResult r) s₀) :
    ∃ g o now, a = .deliver g .sequence r o now ∧ (g, .sequence, r) ∈ s.goals.undelivered ∧
      s₀ = s.deliver (g, .sequence, r) := by
  generalize he : FsmEvent.onNavigationResult r = e at h
  cases h with
  | operation _ hs => exact absurd he.symm (hs r)
  | @deliver g cb r' o now hx =>
      cases cb with
      | sequence =>
          obtain rfl := FsmEvent.onNavigationResult.inj he
          exact ⟨g, o, now, rfl, hx, rfl⟩
      | manual => cases he

/-- What begins leaves the newest goal alone. -/
theorem Begins.goals {a : WorldEvent R} {e : FsmEvent R} {s₀ : Session R} (h : s.Begins a e s₀) :
    ∃ m ≤ s.goals.undelivered, s₀ = { s with goals := { s.goals with undelivered := m } } := by
  cases h with
  | operation => exact ⟨_, le_rfl, rfl⟩
  | deliver => exact ⟨_, Multiset.erase_le _ _, rfl⟩

/-- What a step means to the goals. -/
inductive Moved (s : Session R) (a : WorldEvent R) (s' : Session R) : Prop
  | background {l : Ledger Callback NavigationResult} (hl : s.goals.Background l)
      (hs' : s' = { s with goals := l })
  | quiet {e : FsmEvent R} {s₀ : Session R} {f : SequencerFsm R} (hb : s.Begins a e s₀)
      (hs : f.state = .navigating ↔ s.fsm.state = .navigating)
      (hm : f.manualGoalActive = s.fsm.manualGoalActive)
      (he : ∀ r, e = .onNavigationResult r → s.fsm.state = .navigating → r = .canceled)
      (hs' : s' = { s₀ with fsm := f })
  | manualDone {r : NavigationResult} {s₀ : Session R} (hb : s.Begins a (.onManualGoalResult r) s₀)
      (hs' : s' = { s₀ with fsm := { s.fsm with manualGoalActive := false } })
  | failed {s₀ : Session R} (hb : s.Begins a (.onNavigationResult .failed) s₀)
      (hs : s.fsm.state = .navigating) (hs' : s' = { s₀ with fsm := s.fsm.moveTo .error })
  | canceled {e : FsmEvent R} {s₀ : Session R} {f : SequencerFsm R} (hb : s.Begins a e s₀)
      (hs : f.state ≠ .navigating) (hs' : s' = { s₀ with fsm := f, goals := s₀.goals.revoke })
  | sequence {e : FsmEvent R} {s₀ : Session R} {f : SequencerFsm R} (hb : s.Begins a e s₀)
      (hs : f.state = .navigating) (he : s.fsm.entersNavigating e = true)
      (hs' : s' = ⟨f, s₀.goals.issue .sequence, s₀.goals.newest + 1⟩)
  | manual {pose : Pose R} {mode : String} {s₀ : Session R}
      (hb : s.Begins a (.sendManualGoal pose mode) s₀) (ha : s.fsm.AcceptsManualGoal mode)
      (hs' : s' =
        ⟨{ s.fsm with manualGoalActive := true }, s₀.goals.issue .manual, s₀.episode⟩)

theorem Step.moved [Field R] {isPrintable : Char → Bool} {a : WorldEvent R} {s' : Session R}
    (he : s.Step isPrintable a s') (h : s.fsm.Coherent) : s.Moved a s' := by
  cases he with
  | background hl => exact .background hl rfl
  | navigateToPose | layersFailed => exact .background .same rfl
  | @turn _ e s₀ hb =>
      have hmove := (SequencerFsm.handle_effect (f := s.fsm) isPrintable e).move h
      cases hmove with
      | quiet hc hs hm he => exact .quiet hb hs hm he (turn_of_quiet hc)
      | manualDone he ht =>
          subst he
          refine .manualDone hb ?_
          rw [ht]
          rfl
      | failed he hs ht =>
          subst he
          refine .failed hb hs ?_
          rw [ht]
          rfl
      | canceled hc hrest hs => exact .canceled hb hs (turn_of_canceled hc hrest)
      | sequence hc hs he => exact .sequence hb hs he (turn_of_sequence hc)
      | manual he hc ha ht =>
          subst he
          refine .manual hb ha ?_
          rw [turn_of_manual hc, ht]

end Session

namespace World

def session (w : World R) : Session R := ⟨w.sequencer.fsm, w.nav.ledger, w.episode⟩

/-- The parts keep what they keep on their own. -/
structure Sound (w : World R) : Prop where
  sequencer : w.sequencer.Sound
  nav : w.nav.Sound
  goals : w.nav.ledger.Sound

section

variable [DecidableEq R] {w : World R}

theorem consume_session (e : FsmEvent R) : (w.consume e).session = w.session := by
  cases e <;> rfl

theorem consume_nav (e : FsmEvent R) : (w.consume e).nav = w.nav := by
  cases e <;> rfl

theorem consume_sequencer (e : FsmEvent R) : (w.consume e).sequencer = w.sequencer := by
  cases e <;> rfl

end

section

variable [Field R] {cfg : SequencerConfig R} {w u : World R} {now : Int}

theorem foldl_call_sequencer (calls : List (Call R)) :
    (calls.foldl (call cfg now) w).sequencer = w.sequencer := by
  induction calls generalizing w with
  | nil => rfl
  | cons c rest ih => rw [List.foldl_cons, ih]; cases c <;> rfl

theorem session_call (c : Call R) : (w.call cfg now c).session = w.session.call c := by
  cases c with
  | cancel => rw [session, call, NavSystem.ledger_cancel]; rfl
  | sendGoal waypoint cb mode =>
      simp only [session, call, NavSystem.ledger_sendGoal, Session.call]
      rfl
  | _ => rfl

theorem session_foldl_call (calls : List (Call R)) :
    (calls.foldl (call cfg now) w).session = calls.foldl Session.call w.session := by
  induction calls generalizing w with
  | nil => rfl
  | cons c rest ih => rw [List.foldl_cons, List.foldl_cons, ih, session_call]

/-- What an operation does to the parts. -/
theorem runOperation_session {e : FsmEvent R} (h : w.runOperation cfg e now = some u) :
    u.session = w.session.turn (w.sequencer.fsm.handle cfg.isPrintable e) := by
  obtain ⟨q, hq, rfl⟩ := Option.map_eq_some_iff.mp h
  rw [session_foldl_call, Session.turn, session, TimedFsm.step_fsm hq]
  rfl

theorem runOperation_sequencer {e : FsmEvent R} (h : w.runOperation cfg e now = some u) :
    w.sequencer.step cfg.isPrintable e = some u.sequencer := by
  obtain ⟨q, hq, rfl⟩ := Option.map_eq_some_iff.mp h
  rw [foldl_call_sequencer]
  exact hq

theorem eq_of_no_calls {e : FsmEvent R} (h : w.runOperation cfg e now = some u)
    (hc : (w.sequencer.fsm.handle cfg.isPrintable e).calls = []) :
    u = { w with sequencer := u.sequencer } := by
  obtain ⟨q, -, rfl⟩ := Option.map_eq_some_iff.mp h
  rw [hc]
  rfl

/-- A `send_goal` waits for the server under the FSM lock. -/
theorem holder_of_sends {e : FsmEvent R} {waypoint : Waypoint R} {cb : Callback} {mode : String}
    (h : w.runOperation cfg e now = some u)
    (hc : (w.sequencer.fsm.handle cfg.isPrintable e).calls = [.sendGoal waypoint cb mode]) :
    ∃ d, u.holder = some (.thread (.waitServer d)) ∧ .waitServer d ∈ u.nav.threads := by
  obtain ⟨q, -, rfl⟩ := Option.map_eq_some_iff.mp h
  rw [hc]
  exact ⟨_, rfl, Multiset.mem_cons_self _ _⟩

end

variable [LinearOrder R] {w : World R}

theorem session_deliver {g : Nat} {cb : Callback} {r : NavigationResult}
    {o : Option (Dispatch R)} {holder : Option (Holder R)}
    (hm : .runCallback g cb r o ∈ w.nav.threads) :
    session { w with nav := w.nav.advance (.runCallback g cb r o) (idleCall o), holder := holder } =
      w.session.deliver (g, cb, r) := by
  rw [session, NavSystem.ledger_runCallback hm]
  rfl

variable [Field R] {cfg : SequencerConfig R} {u : World R} {a : WorldEvent R} {now : Int}

/-- An operation is a turn of the state machine. -/
theorem operation_session {e : FsmEvent R} (h : w.step cfg (.operation e now) = some u) :
    u.session = w.session.turn (w.sequencer.fsm.handle cfg.isPrintable e) := by
  obtain ⟨-, hr⟩ := Option.ite_none_right_eq_some.mp h
  rw [runOperation_session hr, consume_session, consume_sequencer]

/-- **The world refines the session.** -/
theorem session_step (h : w.step cfg a = some u) :
    Session.Step cfg.isPrintable w.session a u.session := by
  cases a with
  | operation e now =>
      obtain ⟨⟨-, hd⟩, -⟩ := Option.ite_none_right_eq_some.mp h
      rw [operation_session h]
      refine .turn (.operation ?_ ?_) <;>
        · rintro r rfl
          exact hd
  | deliver g cb r o now =>
      obtain ⟨⟨-, hm⟩, hr⟩ := Option.ite_none_right_eq_some.mp h
      rw [runOperation_session hr, session_deliver hm]
      exact .turn (.deliver (NavSystem.mem_undelivered.mpr ⟨o, hm⟩))
  | navigateToPose pose mode =>
      obtain ⟨-, hr⟩ := Option.ite_none_right_eq_some.mp h
      split at hr <;> cases hr <;> exact .navigateToPose
  | layersFailed pose mode =>
      obtain ⟨-, hr⟩ := Option.ite_none_right_eq_some.mp h
      cases hr
      exact .layersFailed
  | nav e =>
      obtain ⟨hb, hr⟩ := Option.ite_none_right_eq_some.mp h
      obtain ⟨n, hn, rfl⟩ := Option.map_eq_some_iff.mp hr
      exact .background ((NavSystem.ledger_step (NavSystem.step_effect hn)).of_background hb)

theorem step_nav {e : NavEvent Callback R} {n : NavSystem Callback R} (hb : e.background = true)
    (hn : w.nav.step cfg.toNavConfig e = some n) :
    w.step cfg (.nav e) = some { w with nav := n, holder := w.follow e } := by
  rw [step, if_pos hb, hn]
  rfl

private theorem release_sendGoalAsync (cfg : SequencerConfig R) {q : Nat}
    (hh : w.holder = some (.sendGoalAsync q))
    (hc : (w.nav.lane q).client = .claimed) :
    ∃ u, w.step cfg (.nav (.sendGoalAsync q)) = some u ∧ u.holder = none ∧
      u.session = w.session := by
  have hn : w.nav.step cfg.toNavConfig (.sendGoalAsync q) = some (w.nav.sendGoalAsync q) := by
    rw [NavSystem.step, if_pos hc]
  have hf : w.follow (.sendGoalAsync q) = none := by rw [follow, if_pos hh]
  exact ⟨_, step_nav rfl hn, hf, rfl⟩

private theorem release_cancelGoalAsync (cfg : SequencerConfig R) {q : Nat}
    (hh : w.holder = some (.thread (.cancelGoalAsync q)))
    (hm : .cancelGoalAsync q ∈ w.nav.threads) :
    ∃ u, w.step cfg (.nav (.cancelGoalAsync q)) = some u ∧ u.holder = none ∧
      u.session = w.session := by
  have hn : w.nav.step cfg.toNavConfig (.cancelGoalAsync q) = some (w.nav.cancelGoalAsync q) := by
    rw [NavSystem.step, if_pos hm]
  have hf : w.follow (.cancelGoalAsync q) = none := by rw [follow, if_pos hh]
  refine ⟨_, step_nav rfl hn, hf, ?_⟩
  rw [session, NavSystem.ledger_cancelGoalAsync hm]
  rfl

/-- The thread inside `send_goal` can always finish and release the FSM lock. -/
theorem release (cfg : SequencerConfig R) {d : Dispatch R}
    (hh : w.holder = some (.thread (.waitServer d))) (hm : .waitServer d ∈ w.nav.threads) :
    ∃ es u, Runs.exec (World.step cfg) w es = some u ∧ u.holder = none ∧
      u.session = w.session := by
  have hn : w.nav.step cfg.toNavConfig (.serverReady d) =
      some (w.nav.runDispatch d (.waitServer d)) := by
    rw [NavSystem.step, if_pos hm]
  have hready : w.step cfg (.nav (.serverReady d)) = some
      { w with
        nav := w.nav.runDispatch d (.waitServer d)
        holder := w.follow (.serverReady d) } := step_nav rfl hn
  have hsession : session
      { w with
        nav := w.nav.runDispatch d (.waitServer d)
        holder := w.follow (.serverReady d) } = w.session := by
    rw [session, NavSystem.ledger_runDispatch hm rfl]
    rfl
  rcases hd : w.nav.nav.dispatch d with ⟨nav, out⟩
  cases out with
  | stale =>
      have hfollow : w.follow (.serverReady d) = none := by
        rw [follow, if_pos hh, hd]
      exact ⟨_, _, Runs.exec_single hready, hfollow, hsession⟩
  | send q =>
      have hfollow : w.follow (.serverReady d) = some (.sendGoalAsync q) := by
        rw [follow, if_pos hh, hd]
      have hlane : ((w.nav.runDispatch d (.waitServer d)).lane q).client = .claimed := by
        rw [NavSystem.runDispatch, hd]
        simp [Lane.claim]
      obtain ⟨u, hu, hnone, hs⟩ := release_sendGoalAsync cfg
        (w := { w with nav := _, holder := w.follow (.serverReady d) }) hfollow hlane
      exact ⟨_, u, Runs.exec_snoc (Runs.exec_single hready) hu, hnone, hs.trans hsession⟩
  | deferred handle =>
      cases handle with
      | none =>
          have hfollow : w.follow (.serverReady d) = none := by
            rw [follow, if_pos hh, hd]
            rfl
          exact ⟨_, _, Runs.exec_single hready, hfollow, hsession⟩
      | some q =>
          have hfollow : w.follow (.serverReady d) = some (.thread (.cancelGoalAsync q)) := by
            rw [follow, if_pos hh, hd]
            rfl
          have hthread : .cancelGoalAsync q ∈ (w.nav.runDispatch d (.waitServer d)).threads := by
            rw [NavSystem.runDispatch, hd]
            exact Pool.mem_advance_left (Multiset.mem_singleton_self _)
          obtain ⟨u, hu, hnone, hs⟩ := release_cancelGoalAsync cfg
            (w := { w with nav := _, holder := w.follow (.serverReady d) }) hfollow hthread
          exact ⟨_, u, Runs.exec_snoc (Runs.exec_single hready) hu, hnone, hs.trans hsession⟩

/-- A selected result can be delivered whenever the FSM lock is free. -/
theorem exists_deliver (cfg : SequencerConfig R) (hh : w.holder = none) {g : Nat} {cb : Callback}
    {r : NavigationResult} (hx : (g, cb, r) ∈ w.session.goals.undelivered) :
    ∃ o u, w.step cfg (.deliver g cb r o 0) = some u ∧ u.session =
      (w.session.deliver (g, cb, r)).turn (w.sequencer.fsm.handle cfg.isPrintable (cb.event r)) := by
  obtain ⟨o, hm⟩ := NavSystem.mem_undelivered.mp hx
  obtain ⟨u, hu⟩ : ∃ u, runOperation
      { w with nav := w.nav.advance (.runCallback g cb r o) (idleCall o), holder := none }
      cfg (cb.event r) 0 = some u := by
    cases cb <;> exact ⟨_, rfl⟩
  refine ⟨o, u, ?_, ?_⟩
  · rw [step, if_pos ⟨Or.inl hh, hm⟩, hu]
  · rw [runOperation_session hu, session_deliver hm]

/-- A pause can be requested whenever the FSM lock is free. -/
theorem exists_pauseRequest (cfg : SequencerConfig R) (hh : w.holder = none) (id : String) :
    ∃ u, w.step cfg (.operation (.pauseRequest id true 0) 0) = some u ∧ u.session =
      w.session.turn (w.sequencer.fsm.handle cfg.isPrintable (.pauseRequest id true 0)) := by
  obtain ⟨u, hu⟩ : ∃ u, w.runOperation cfg (.pauseRequest id true 0) 0 = some u := ⟨_, rfl⟩
  refine ⟨u, ?_, runOperation_session hu⟩
  rw [step, if_pos ⟨hh, trivial⟩]
  exact hu

/-- The calls of an operation are steps of the navigator. -/
theorem nav_sound_foldl_call (calls : List (Call R)) (h : w.nav.Sound) :
    (calls.foldl (call cfg now) w).nav.Sound := by
  induction calls generalizing w with
  | nil => exact h
  | cons c rest ih =>
      apply ih
      cases c with
      | cancel =>
          have hn : w.nav.step cfg.toNavConfig .cancel = some w.nav.cancel := rfl
          exact h.step hn
      | sendGoal waypoint cb mode =>
          have hn : w.nav.step cfg.toNavConfig (.sendGoal waypoint cb mode now) =
              some (w.nav.sendGoal cfg.toNavConfig waypoint cb mode now) := rfl
          exact h.step hn
      | _ => exact h

theorem nav_sound_runOperation {e : FsmEvent R} (h : w.nav.Sound)
    (hr : w.runOperation cfg e now = some u) : u.nav.Sound := by
  obtain ⟨q, -, rfl⟩ := Option.map_eq_some_iff.mp hr
  exact nav_sound_foldl_call _ h

namespace Sound

theorem nav_step (h : w.Sound) (he : w.step cfg a = some u) : u.nav.Sound := by
  cases a with
  | operation e now =>
      obtain ⟨-, hr⟩ := Option.ite_none_right_eq_some.mp he
      exact nav_sound_runOperation (by rw [consume_nav]; exact h.nav) hr
  | deliver g cb r o now =>
      obtain ⟨⟨-, hm⟩, hr⟩ := Option.ite_none_right_eq_some.mp he
      have hn : w.nav.step cfg.toNavConfig (.runCallback g cb r o) =
          some (w.nav.advance (.runCallback g cb r o) (idleCall o)) := by
        rw [NavSystem.step, if_pos hm]
      exact nav_sound_runOperation (h.nav.step hn) hr
  | navigateToPose pose mode =>
      obtain ⟨-, hr⟩ := Option.ite_none_right_eq_some.mp he
      split at hr <;> cases hr <;> exact h.nav
  | layersFailed pose mode =>
      obtain ⟨-, hr⟩ := Option.ite_none_right_eq_some.mp he
      cases hr
      exact h.nav
  | nav e =>
      obtain ⟨-, hr⟩ := Option.ite_none_right_eq_some.mp he
      obtain ⟨n, hn, rfl⟩ := Option.map_eq_some_iff.mp hr
      exact h.nav.step hn

theorem sequencer_step (h : w.Sound) (he : w.step cfg a = some u) : u.sequencer.Sound := by
  cases a with
  | operation e now =>
      obtain ⟨-, hr⟩ := Option.ite_none_right_eq_some.mp he
      have hq := runOperation_sequencer hr
      rw [consume_sequencer] at hq
      exact h.sequencer.step hq
  | deliver g cb r o now =>
      obtain ⟨-, hr⟩ := Option.ite_none_right_eq_some.mp he
      have hq := runOperation_sequencer hr
      exact h.sequencer.step hq
  | navigateToPose pose mode =>
      obtain ⟨-, hr⟩ := Option.ite_none_right_eq_some.mp he
      split at hr <;> cases hr <;> exact h.sequencer
  | layersFailed pose mode =>
      obtain ⟨-, hr⟩ := Option.ite_none_right_eq_some.mp he
      cases hr
      exact h.sequencer
  | nav e =>
      obtain ⟨-, hr⟩ := Option.ite_none_right_eq_some.mp he
      obtain ⟨n, -, rfl⟩ := Option.map_eq_some_iff.mp hr
      exact h.sequencer

theorem step (h : w.Sound) (he : w.step cfg a = some u) : u.Sound :=
  ⟨h.sequencer_step he, h.nav_step he, (session_step he).goals_sound h.goals⟩

omit [LinearOrder R] in
theorem boot (waypoints : WaypointList R) (stallDistance : R) :
    (World.boot waypoints stallDistance).Sound where
  sequencer := .boot waypoints
  nav := .boot stallDistance
  goals := ⟨nofun, nofun, nofun⟩

theorem run {waypoints : WaypointList R} {stallDistance : R} {es : List (WorldEvent R)}
    (h : Runs.exec (World.step cfg) (.boot waypoints stallDistance) es = some w) : w.Sound :=
  Runs.invariant_of_step (fun _ _ _ h he => h.step he) (.boot waypoints stallDistance) h

end Sound

end World

end MgRobot.Sequencer
