import MgRobot.Sequencer.NavSystem

/-!
# Results and their goals

`_finish` selects a result callback once per logical goal and never for a goal
that was cancelled or superseded, and a message reaches only the goal and the
sequence number it belongs to. Both hold whatever order the messages come in.
-/

namespace MgRobot.Sequencer

open MgRobot.Lib

set_option autoImplicit false

variable {κ R : Type*}

namespace NavEvent

/-- `cancel()` and `send_goal()` end every logical goal sent before. -/
def EndsGoals : NavEvent κ R → Prop
  | .cancel | .sendGoal .. => True
  | _ => False

/-- The logical goal a message of Nav2, or a thread that handles it, belongs to. -/
def goalOf (s : NavSystem κ R) : NavEvent κ R → Option Nat
  | .goalResponse q | .resultDone q | .feedback q _ _ => some (s.lane q).goalId
  | .finish g _ _ | .runCallback g _ _ _ => some g
  | _ => none

/-- The sequence number a message of Nav2 belongs to. -/
def seqOf : NavEvent κ R → Option Nat
  | .goalResponse q | .resultDone q | .feedback q _ _ => some q
  | _ => none

end NavEvent

namespace NavSystem

section

variable [DecidableEq κ] [DecidableEq R]

/-- The logical goal whose result callback `_finish` selects in the event. -/
def selected (s : NavSystem κ R) : NavEvent κ R → List Nat
  | .finish g r onIdle =>
      if .finish g r onIdle ∈ s.threads then (s.nav.logical.finish g).2.elim [] fun _ => [g]
      else []
  | _ => []

/-- The logical goal was sent, and it is not to be finished any more. -/
def Over (s : NavSystem κ R) (g : Nat) : Prop :=
  g ≤ s.nav.logical.goalId ∧ s.nav.logical.isCurrent g = false

variable {s : NavSystem κ R} {e : NavEvent κ R} {g : Nat}

theorem selected_nodup : (s.selected e).Nodup := by
  cases e with
  | finish g r o =>
      simp only [selected]
      split
      · cases (s.nav.logical.finish g).2 <;> simp
      · simp
  | _ => exact List.nodup_nil

/-- A callback is selected for the current goal. -/
theorem isCurrent_of_selected (h : g ∈ s.selected e) :
    (∃ r o, e = .finish g r o) ∧ s.nav.logical.isCurrent g = true := by
  cases e with
  | finish g' r o =>
      simp only [selected] at h
      split at h
      · by_cases hc : s.nav.logical.isCurrent g' = true
        · rw [LogicalGoal.finish_of_current _ hc] at h
          cases hcb : s.nav.logical.resultCallback with
          | none => simp [hcb] at h
          | some cb =>
              obtain rfl : g = g' := by simpa [hcb] using h
              exact ⟨⟨r, o, rfl⟩, hc⟩
        · simp [LogicalGoal.finish_of_not_current _ hc] at h
      · simp at h
  | _ => simp [selected] at h

end

variable [DecidableEq κ] [LinearOrder R] [Field R] {cfg : NavConfig R} {s t : NavSystem κ R}
  {e : NavEvent κ R} {g : Nat}

/-- Only `send_goal` changes the goal id or activates the goal. -/
theorem goal_step (he : Effect cfg s e t) :
    (t.nav.logical.goalId = s.nav.logical.goalId ∧
        (t.nav.logical.active = true → s.nav.logical.active = true)) ∨
      (e.EndsGoals ∧ t.nav.logical.goalId = s.nav.logical.goalId + 1) := by
  cases he with
  | sendGoal => exact Or.inr ⟨trivial, rfl⟩
  | cancel => exact Or.inl ⟨rfl, fun h => by cases h⟩
  | finishCurrent => exact Or.inl ⟨rfl, fun h => by cases h⟩
  | @feedback q msg now =>
      obtain ⟨hid, hact, -⟩ := s.nav.logical.feedbackCallback_same cfg (s.lane q).goalId msg now
      exact Or.inl ⟨hid, fun h => hact ▸ h⟩
  | @plan msg =>
      obtain ⟨hid, hact, -⟩ := s.nav.logical.planCallback_same cfg msg
      exact Or.inl ⟨hid, fun h => hact ▸ h⟩
  | _ => exact Or.inl ⟨rfl, id⟩

theorem Over.step (h : s.Over g) (he : Effect cfg s e t) : t.Over g := by
  obtain ⟨hle, hc⟩ := h
  obtain ⟨hid, hact⟩ | ⟨-, hid⟩ := goal_step he
  · refine ⟨hid ▸ hle, Bool.eq_false_iff.mpr fun hcur => ?_⟩
    obtain ⟨ha, hg⟩ := LogicalGoal.isCurrent_iff.mp hcur
    exact LogicalGoal.ne_of_not_current hc (hact ha) (hg.trans hid)
  · refine ⟨by omega, Bool.eq_false_iff.mpr fun hcur => ?_⟩
    obtain ⟨-, hg⟩ := LogicalGoal.isCurrent_iff.mp hcur
    omega

/-- A selected goal is over. -/
theorem over_of_selected (h : g ∈ s.selected e) (he : Effect cfg s e t) : t.Over g := by
  obtain ⟨⟨r, o, rfl⟩, hc⟩ := isCurrent_of_selected h
  have hg := (LogicalGoal.isCurrent_iff.mp hc).2
  cases he with
  | finishCurrent => exact ⟨le_of_eq hg, by simp [LogicalGoal.isCurrent]⟩
  | finishStale _ hn =>
      rw [hc] at hn
      cases hn
  | dispatchStale hd | dispatchSend hd | dispatchDefer hd => obtain ⟨hd, -⟩ | ⟨hd, -⟩ := hd <;> cases hd

/-- Every goal sent before a `cancel()` or a newer `send_goal()` is over. -/
theorem over_of_endsGoals (hends : e.EndsGoals) (he : Effect cfg s e t)
    (hg : g ≤ s.nav.logical.goalId) : t.Over g := by
  cases he with
  | cancel => exact ⟨hg, by simp [cancel, WaypointNavigator.cancel, LogicalGoal.isCurrent]⟩
  | sendGoal =>
      refine ⟨Nat.le_succ_of_le hg, ?_⟩
      simp only [sendGoal, WaypointNavigator.sendGoal, LogicalGoal.begin, LogicalGoal.isCurrent,
        Bool.true_and, beq_eq_false_iff_ne]
      omega
  | dispatchStale hd | dispatchSend hd | dispatchDefer hd =>
      obtain ⟨rfl, -⟩ | ⟨rfl, -⟩ := hd <;> cases hends
  | _ => cases hends

/-- A message leaves the record of a different logical goal as it is. -/
theorem logical_of_other_goal (he : Effect cfg s e t) (hg : e.goalOf s = some g)
    (hne : g ≠ s.nav.logical.goalId) : t.nav.logical = s.nav.logical := by
  cases he with
  | @feedback q msg now =>
      obtain rfl : (s.lane q).goalId = g := Option.some.inj hg
      have hc : s.nav.logical.isCurrent (s.lane q).goalId ≠ true := fun h =>
        hne (LogicalGoal.isCurrent_iff.mp h).2
      simp only [feedback, LogicalGoal.feedbackCallback_of_not_current _ cfg msg now hc]
  | finishCurrent _ hc =>
      obtain rfl := Option.some.inj hg
      exact absurd (LogicalGoal.isCurrent_iff.mp hc).2 hne
  | sendGoal | cancel | plan => cases hg
  | _ => rfl

/-- A message leaves the live state of a different sequence number as it is. -/
theorem live_of_other_seq (he : Effect cfg s e t) (hg : e.goalOf s = some g)
    (hne : e.seqOf ≠ some s.nav.live.seq) : t.nav.live = s.nav.live := by
  cases he with
  | @rejected q | @resultDone q =>
      have hq : q ≠ s.nav.live.seq := fun h => hne (congrArg some h)
      simp only [goalRejected, NavSystem.resultDone, LiveGoal.markLiveDone_of_ne _ hq]
  | accepted _ _ hq => exact absurd (congrArg some hq) hne
  | dispatchStale hd | dispatchSend hd | dispatchDefer hd =>
      obtain ⟨rfl, -⟩ | ⟨rfl, -⟩ := hd <;> cases hg
  | cancel => cases hg
  | _ => rfl

/-- **Results reach their own goal only, and once.** Over every run `_finish` selects at most
one result callback for each logical goal, none for a goal sent before a `cancel()` or a newer
`send_goal()`, and a message of goal `g` and sequence `q` changes neither the record of a
different goal nor the live state of a different sequence. -/
theorem results_reach_own_goal_once (cfg : NavConfig R) :
    (∀ (s : NavSystem κ R) es, (Runs.outputs (NavSystem.step cfg) selected s es).Nodup) ∧
      (∀ (s t : NavSystem κ R) e es, s.step cfg e = some t → e.EndsGoals →
        ∀ g ≤ s.nav.logical.goalId, g ∉ Runs.outputs (NavSystem.step cfg) selected t es) ∧
      (∀ (s t : NavSystem κ R) e g, s.step cfg e = some t → e.goalOf s = some g →
        g ≠ s.nav.logical.goalId → t.nav.logical = s.nav.logical) ∧
      ∀ (s t : NavSystem κ R) e g, s.step cfg e = some t → e.goalOf s = some g →
        e.seqOf ≠ some s.nav.live.seq → t.nav.live = s.nav.live := by
  have hout : ∀ (s : NavSystem κ R) e g, g ∈ s.selected e → ¬ s.Over g := fun s e g h ho => by
    have hc := ho.2
    rw [(isCurrent_of_selected h).2] at hc
    cases hc
  have hstable : ∀ (s : NavSystem κ R) e t g, s.Over g → s.step cfg e = some t → t.Over g :=
    fun s e t g h he => h.step (step_effect he)
  refine ⟨fun s es => ?_, fun s t e es he hends g hg => ?_, fun s t e g he => ?_,
    fun s t e g he => ?_⟩
  · refine Runs.outputs_nodup (fun s e => selected_nodup) hout (fun s e t g h he => ?_) hstable
    exact over_of_selected h (step_effect he)
  · exact Runs.not_mem_outputs hout hstable (over_of_endsGoals hends (step_effect he) hg)
  · exact logical_of_other_goal (step_effect he)
  · exact live_of_other_seq (step_effect he)

/-- A goal is preempted by the next one, and its result comes late. -/
def preemptingRun : List (NavEvent Unit ℚ) :=
  [.sendGoal (.stop 1) () "normal" 0, .serverReady (.toStop 1 1 "normal"), .sendGoalAsync 1,
    .accept 1, .goalResponse 1,
    .sendGoal (.stop 2) () "normal" 0, .serverReady (.toStop 2 2 "normal"), .sendGoalAsync 2,
    .accept 2]

theorem late_result_changes_nothing : ∃ s t : NavSystem Unit ℚ,
    Runs.exec (NavSystem.step .axes) (.boot (1 / 2)) preemptingRun = some s ∧
      s.step .axes (.resultDone 1) = some t ∧ t.nav.logical = s.nav.logical ∧
      t.nav.live = s.nav.live := by
  have hrun : (Runs.exec (NavSystem.step .axes) (.boot (1 / 2)) preemptingRun).any (fun s =>
      decide ((s.lane 1).goalId = 1 ∧ s.nav.logical.goalId = 2 ∧ s.nav.live.seq = 2 ∧
        (s.step .axes (.resultDone 1)).isSome = true)) = true := by
    decide +kernel
  obtain ⟨s, hs, hlane, hg, hseq, hstep⟩ := Runs.exists_exec hrun
  obtain ⟨t, ht⟩ := Option.isSome_iff_exists.mp hstep
  obtain ⟨-, -, hlogical, hlive⟩ :=
    @results_reach_own_goal_once Unit ℚ _ _ _ .axes
  refine ⟨s, t, hs, ht, hlogical s t _ 1 ht (congrArg some hlane) (by omega), ?_⟩
  exact hlive s t _ 1 ht (congrArg some hlane) (by simp [NavEvent.seqOf, hseq])

end NavSystem

end MgRobot.Sequencer
