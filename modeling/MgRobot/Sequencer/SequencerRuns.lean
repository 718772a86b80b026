import MgRobot.Lib.Pool
import MgRobot.Lib.Runs
import MgRobot.Sequencer.FsmEffect
import Mathlib.Data.Multiset.Basic

/-!
# Runs of the state machine

The state machine and the countdown timers it started, under any commands,
expiries, navigation results and action completions. A cancelled timer may have
fired already, so every timer that was started stays able to expire once.
-/

namespace MgRobot.Sequencer

open MgRobot.Lib

set_option autoImplicit false

variable {R : Type*}

/-- The generation of a timer the call starts. -/
def Call.timer? : Call R → Option Nat
  | .startTimer _ generation => some generation
  | _ => none

structure TimedFsm (R : Type*) where
  fsm : SequencerFsm R
  timers : Multiset Nat

namespace TimedFsm

variable (s : TimedFsm R)

/-- The state after a turn. -/
def run (t : Turn R) : TimedFsm R where
  fsm := t.fsm
  timers := ↑(t.calls.filterMap Call.timer?) + s.timers

def step [Field R] (isPrintable : Char → Bool) (s : TimedFsm R) : FsmEvent R → Option (TimedFsm R)
  | .onStartingDone generation =>
      if generation ∈ s.timers then
        some (run { s with timers := s.timers.erase generation }
          (s.fsm.handle isPrintable (.onStartingDone generation)))
      else none
  | e => some (s.run (s.fsm.handle isPrintable e))

/-- The sequencer with its waypoints loaded. -/
def boot (waypoints : WaypointList R) : TimedFsm R where
  fsm := (SequencerFsm.init.loadWaypoints waypoints).fsm
  timers := 0

end TimedFsm

namespace SequencerFsm

variable {f : SequencerFsm R} {t : Turn R}

/-- The index points into the list wherever the sequence is under way. -/
def IndexInRange (f : SequencerFsm R) : Prop :=
  f.state = .onStarting ∨ f.state = .navigating ∨ f.state = .onArriving ∨ f.state = .suspended →
    0 ≤ f.currentIndex ∧ f.currentIndex < f.waypoints.getSize

/-- A start that is accepted finds a waypoint at the index it goes on with. -/
def StartsInRange (f : SequencerFsm R) : FsmEvent R → Prop
  | .start _ _ => f.manualGoalActive = false → f.pauseSlots = ∅ →
      (f.state = .idle → f.waypoints.getSize ≠ 0 → f.currentIndex < f.waypoints.getSize) ∧
        (f.state = .goalReached → f.waypoints.getSize ≠ 0)
  | _ => True

theorem IndexInRange.of_resting (h : f.state = .idle ∨ f.state = .goalReached ∨ f.state = .error) :
    f.IndexInRange := by
  intro hs
  rcases h with h | h | h <;> simp [h] at hs

theorem Enters.inRange (h : Enters f t) (h0 : 0 ≤ f.currentIndex)
    (hi : f.currentIndex < f.waypoints.getSize) : t.fsm.IndexInRange ∧ t.raised = false := by
  cases h with
  | raised hg =>
      obtain ⟨w, hw⟩ := f.waypoints.get_isSome_of_lt h0 hi
      rw [hg] at hw
      cases hw
  | sent hg => exact ⟨fun _ => ⟨h0, hi⟩, rfl⟩

theorem Advances.inRange (h : Advances f t) (h0 : 0 ≤ f.currentIndex)
    (hi : f.currentIndex < f.waypoints.getSize) : t.fsm.IndexInRange ∧ t.raised = false := by
  cases h with
  | stopped => exact ⟨.of_resting (Or.inl rfl), rfl⟩
  | raised _ hg =>
      obtain ⟨w, hw⟩ := f.waypoints.get_isSome_of_lt h0 hi
      rw [hg] at hw
      cases hw
  | goalReached => exact ⟨.of_resting (Or.inr (Or.inl rfl)), rfl⟩
  | waitTrigger => exact ⟨.of_resting (Or.inl rfl), rfl⟩
  | paused _ hi' => exact ⟨fun _ => ⟨by simp only; omega, hi'⟩, rfl⟩
  | next _ hi' _ ht => exact ht.inRange (by simp only; omega) hi'

variable [Field R] {e : FsmEvent R}

theorem index_nonneg_step (h0 : 0 ≤ f.currentIndex) (he : Effect f e t) :
    0 ≤ t.fsm.currentIndex := by
  have henters : ∀ {g : SequencerFsm R} {t : Turn R}, 0 ≤ g.currentIndex → Enters g t →
      0 ≤ t.fsm.currentIndex := by
    rintro g t h0 (_ | _) <;> exact h0
  have hadvances : ∀ {t : Turn R}, Advances f t → 0 ≤ t.fsm.currentIndex := by
    intro t ht
    have h1 : 0 ≤ f.currentIndex + 1 := by omega
    cases ht with
    | stopped | raised => exact h0
    | goalReached | waitTrigger | paused => exact h1
    | next _ _ _ ht => exact henters h1 ht
  cases he with
  | setNextIndex _ hi => exact hi
  | @reload waypoints =>
      simp only [clampIndex]
      split
      · exact le_rfl
      · split <;> omega
  | startAgain => exact le_rfl
  | resumeNavigating _ _ _ ht => exact henters (by exact h0) ht
  | startingDone _ _ ht => exact henters h0 ht
  | reached _ _ ht | arrivingDone _ ht => exact hadvances ht
  | _ => exact h0

/-- From an index in range no operation raises, and only a start can leave the range. -/
theorem inRange_step (h0 : 0 ≤ f.currentIndex) (hi : f.IndexInRange) (he : Effect f e t) :
    (t.fsm.IndexInRange ↔ f.StartsInRange e) ∧ t.raised = false := by
  have hrest : ∀ {g : SequencerFsm R}, g.state = .idle ∨ g.state = .goalReached ∨ g.state = .error →
      (g.IndexInRange ↔ True) := fun h => iff_true_intro (.of_resting h)
  cases he with
  | startRejected hr =>
      refine ⟨iff_of_true hi fun hm hp => ⟨fun hs hsize => ?_, fun hs => ?_⟩, rfl⟩
      · simp [hm, hp, hs, hsize] at hr
      · simp [hm, hp, hs] at hr
  | startIdle hs hm hp hsize =>
      refine ⟨⟨fun h _ _ => ⟨fun _ _ => ?_, fun hg => ?_⟩, fun h _ => ⟨h0, ?_⟩⟩, rfl⟩
      · exact (h (Or.inl rfl)).2
      · rw [hs] at hg
        cases hg
      · exact (h hm hp).1 hs hsize
  | startAgain hs hm hp =>
      refine ⟨⟨fun h _ _ => ⟨fun hg => ?_, fun _ => ?_⟩, fun h _ => ⟨le_rfl, ?_⟩⟩, rfl⟩
      · rw [hs] at hg
        cases hg
      · have := (h (Or.inl rfl)).2
        simp only [countdown, moveTo] at this
        omega
      · have := (h hm hp).2 hs
        simp only [countdown, moveTo]
        omega
  | setNextIndex _ h0' hi' => exact ⟨iff_true_intro fun _ => ⟨h0', hi'⟩, rfl⟩
  | reload hs => exact ⟨hrest hs, rfl⟩
  | stopIdle hs => exact ⟨hrest (Or.inl hs), rfl⟩
  | stopStarting | stopNavigating | stopResting => exact ⟨hrest (Or.inl rfl), rfl⟩
  | pauseStarting hs => exact ⟨iff_true_intro fun _ => hi (by simp [hs]), rfl⟩
  | pauseNavigating hs => exact ⟨iff_true_intro fun _ => hi (by simp [hs]), rfl⟩
  | resumeStarting _ hs => exact ⟨iff_true_intro fun _ => hi (by simp [hs]), rfl⟩
  | resumeNavigating _ hs _ ht =>
      have hr := hi (by simp [hs])
      exact (ht.inRange hr.1 hr.2).imp_left iff_true_intro
  | startingDone hs _ ht =>
      have hr := hi (by simp [hs])
      exact (ht.inRange hr.1 hr.2).imp_left iff_true_intro
  | resultFailed => exact ⟨hrest (Or.inr (Or.inr rfl)), rfl⟩
  | resultRaised hs _ hg =>
      have hr := hi (by simp [hs])
      obtain ⟨w, hw⟩ := f.waypoints.get_isSome_of_lt hr.1 hr.2
      rw [hg] at hw
      cases hw
  | arrived hs => exact ⟨iff_true_intro fun _ => hi (by simp [hs]), rfl⟩
  | reached hs _ ht | arrivingDone hs ht =>
      have hr := hi (by simp [hs])
      exact (ht.inRange hr.1 hr.2).imp_left iff_true_intro
  | _ => exact ⟨iff_true_intro hi, rfl⟩

end SequencerFsm

namespace TimedFsm

variable [Field R] {isPrintable : Char → Bool} {s t : TimedFsm R} {e : FsmEvent R}

/-- A step is a turn of the state machine. -/
theorem step_fsm (he : s.step isPrintable e = some t) :
    t.fsm = (s.fsm.handle isPrintable e).fsm := by
  cases e with
  | onStartingDone g =>
      obtain ⟨-, ⟨⟩⟩ := Option.ite_none_right_eq_some.mp he
      rfl
  | _ => cases he; rfl

/-- **The index stays in range, exactly as long as starts do.** A run keeps the index in range
wherever the sequence is under way exactly if every accepted start finds a waypoint at its
index, and then no operation reads outside the list. -/
theorem index_in_range_iff {waypoints : WaypointList R} {es : List (FsmEvent R)}
    (h : Runs.exec (TimedFsm.step isPrintable) (.boot waypoints) es = some s) :
    (Runs.Always (TimedFsm.step isPrintable) (fun s => s.fsm.IndexInRange) (.boot waypoints) es ↔
        Runs.Meets (TimedFsm.step isPrintable) (fun s e => s.fsm.StartsInRange e)
          (.boot waypoints) es) ∧
      (Runs.Meets (TimedFsm.step isPrintable) (fun s e => s.fsm.StartsInRange e)
          (.boot waypoints) es →
        Runs.Meets (TimedFsm.step isPrintable)
          (fun s e => (s.fsm.handle isPrintable e).raised = false) (.boot waypoints) es) := by
  have hindex : ∀ (s : TimedFsm R) e t, 0 ≤ s.fsm.currentIndex → s.step isPrintable e = some t →
      0 ≤ t.fsm.currentIndex := fun s e t h0 he => by
    rw [step_fsm he]
    exact SequencerFsm.index_nonneg_step h0 (SequencerFsm.handle_effect isPrintable e)
  have hrange : ∀ (s : TimedFsm R) e t, 0 ≤ s.fsm.currentIndex → s.fsm.IndexInRange →
      s.step isPrintable e = some t → (t.fsm.IndexInRange ↔ s.fsm.StartsInRange e) :=
    fun s e t h0 hi he => by
      rw [step_fsm he]
      exact (SequencerFsm.inRange_step h0 hi (SequencerFsm.handle_effect isPrintable e)).1
  have hboot : (boot waypoints).fsm.IndexInRange := .of_resting (Or.inl rfl)
  refine ⟨Runs.always_iff_meets hindex hrange le_rfl hboot h, fun hm => ?_⟩
  refine Runs.meets_of_invariant
    (I := fun s => 0 ≤ s.fsm.currentIndex ∧ s.fsm.IndexInRange) (fun s e t hI hq he => ?_)
    (fun s e hI _ => ?_) ⟨le_rfl, hboot⟩ hm
  · exact ⟨hindex s e t hI.1 he, (hrange s e t hI.1 hI.2 he).mpr hq⟩
  · exact (SequencerFsm.inRange_step hI.1 hI.2 (SequencerFsm.handle_effect isPrintable e)).2

/-- The one waypoint is reached, the sequence is stopped and started again. -/
def restartRun : List (FsmEvent ℚ) :=
  [.start 0 0, .onStartingDone 1, .onNavigationResult .succeeded, .stop, .start 0 0]

theorem index_out_of_range :
    ¬ ∀ (waypoints : WaypointList ℚ) (es : List (FsmEvent ℚ)) (s : TimedFsm ℚ),
      Runs.exec (TimedFsm.step fun _ => true) (.boot waypoints) es = some s →
        s.fsm.IndexInRange := by
  intro h
  have hrun : (Runs.exec (TimedFsm.step fun _ => true) (.boot ⟨[.stop 1]⟩) restartRun).any (fun s =>
      decide (s.fsm.state = .onStarting ∧ s.fsm.currentIndex = 1 ∧
        s.fsm.waypoints.getSize = 1)) = true := by
    decide +kernel
  obtain ⟨s, hs, hst, hi, hsize⟩ := Runs.exists_exec hrun
  have hlt := (h _ _ s hs (Or.inl hst)).2
  omega

/-- The first waypoint is passed on the way to the second one. -/
def passingRun : List (FsmEvent ℚ) :=
  [.start 0 0, .onStartingDone 1, .onNavigationResult .passed]

theorem index_stays_in_range : Runs.Always (TimedFsm.step fun _ => true)
    (fun s => s.fsm.IndexInRange) (.boot ⟨[.stop 1, .stop 2]⟩) passingRun := by
  have hrun : (Runs.exec (TimedFsm.step fun _ => true) (.boot ⟨[.stop 1, .stop 2]⟩)
      passingRun).isSome = true := by
    decide +kernel
  obtain ⟨s, hs⟩ := Option.isSome_iff_exists.mp hrun
  refine (index_in_range_iff hs).1.mpr ⟨?_, fun t ht => ?_⟩
  · -- the only start of the run is in `IDLE` with the index at 0
    exact fun _ _ => ⟨fun _ _ => by decide, fun hg => by cases hg⟩
  · exact ⟨trivial, fun u hu => ⟨trivial, fun v hv => trivial⟩⟩

end TimedFsm

end MgRobot.Sequencer
