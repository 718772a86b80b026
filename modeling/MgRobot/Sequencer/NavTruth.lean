import MgRobot.Sequencer.NavInvariant

/-!
# What `has_live_goal` and `cancel` promise

The navigator tracks the newest goal only. As long as Nav2 neither accepts an
older goal once it has answered the newest one nor rejects the newest one while
an older one is running, that is enough: with no live goal nothing runs in Nav2,
and a `cancel()` reaches whatever is left running.
-/

namespace MgRobot.Sequencer

open MgRobot.Lib

set_option autoImplicit false

variable {κ R : Type*}

/-- The goal is running in Nav2. -/
def Lane.Running (l : Lane) : Prop := l.server = .running

/-- Nav2 has not answered the goal yet. -/
def Lane.Unanswered (l : Lane) : Prop := l.server = .absent ∨ l.server = .requested

/-- Nav2 accepts no older goal once it has answered the newest one, and does not reject the
newest one while another is running. -/
def NavSystem.NewestDecides (s : NavSystem κ R) : NavEvent κ R → Prop
  | .accept q => q = s.nav.live.seq ∨ (s.lane s.nav.live.seq).Unanswered
  | .reject q => q = s.nav.live.seq → ∀ p, ¬ (s.lane p).Running
  | _ => True

/-- The cancellation of the live goal was requested, or is about to be. -/
def NavSystem.CancelRequested (s : NavSystem κ R) (q : Nat) : Prop :=
  (s.lane q).cancelSent = true ∨ .cancelGoalAsync q ∈ s.threads

/-- At most one goal runs, none once the newest one is over, and the live goal is told of its
cancellation. -/
structure Truthful (s : NavSystem κ R) : Prop where
  unique : ∀ p q, (s.lane p).Running → (s.lane q).Running → p = q
  newest : (s.lane s.nav.live.seq).terminated = true → ∀ q, ¬ (s.lane q).Running
  canceled : s.nav.live.state = .active → s.nav.live.canceling = true →
    s.CancelRequested s.nav.live.seq

theorem Lane.preempt_not_running (l : Lane) : ¬ l.preempt.Running := by
  unfold Lane.preempt Lane.Running
  split
  · simp
  · assumption

namespace Truthful

variable {s t : NavSystem κ R}

theorem of_servers (h : Truthful s) (hs : ∀ q, (t.lane q).server = (s.lane q).server)
    (hseq : t.nav.live.seq = s.nav.live.seq)
    (hc : t.nav.live.state = .active → t.nav.live.canceling = true →
      t.CancelRequested t.nav.live.seq) : Truthful t where
  unique p q := by
    simp only [Lane.Running, hs]
    exact h.unique p q
  newest hterm q := by
    rw [hseq, Lane.terminated_congr (hs _)] at hterm
    simp only [Lane.Running, hs]
    exact h.newest hterm q
  canceled := hc

theorem cancelRequested_mono {q : Nat} (h : s.CancelRequested q)
    (hl : (s.lane q).cancelSent = true → (t.lane q).cancelSent = true)
    (hm : .cancelGoalAsync q ∈ s.threads → .cancelGoalAsync q ∈ t.threads) :
    t.CancelRequested q := h.imp hl hm

/-- Asking the live goal to end leaves a thread that does, if it was not asked before. -/
theorem beginCancelLive (h : Truthful s) (ht : Tracking s.nav.live s.lane)
    {o : Option (Dispatch R)} {logical : LogicalGoal κ R} {threads : Multiset (Thread κ R)}
    (hm : ∀ q, .cancelGoalAsync q ∈ s.threads → .cancelGoalAsync q ∈ threads) :
    Truthful
      { s with
        nav := ⟨logical, ({ s.nav.live with onIdle := o }.beginCancelLive).1⟩
        threads := cancelCall ({ s.nav.live with onIdle := o }.beginCancelLive).2 + threads } := by
  refine h.of_servers (fun _ => rfl) (by simp) fun hst hc => ?_
  have hst : s.nav.live.state = .active := by simpa using hst
  by_cases hcan : s.nav.live.canceling = true
  · have hreq := h.canceled hst hcan
    simp only [LiveGoal.beginCancelLive_seq]
    exact cancelRequested_mono hreq id fun hmem => Multiset.mem_add.mpr (Or.inr (hm _ hmem))
  · have hhandle : s.nav.live.handle = some s.nav.live.seq := by
      have hn := ht.newest
      simp only [LiveGoal.Agrees, hst] at hn
      exact hn.2
    refine Or.inr (Multiset.mem_add.mpr (Or.inl ?_))
    simp [LiveGoal.beginCancelLive, hst, hcan, hhandle, cancelCall]

/-- A goal's end is handled: the live fields follow, or nothing of them changes. -/
theorem markLiveDone (h : Truthful s) {q : Nat} {l : Lane} {x : Thread κ R}
    (hl : l.server = (s.lane q).server) (hc : l.cancelSent = (s.lane q).cancelSent) :
    Truthful
      { nav := { s.nav with live := (s.nav.live.markLiveDone q).1 }
        lane := Function.update s.lane q l
        threads := x ::ₘ s.threads } := by
  refine h.of_servers (lane_update Lane.server hl) (by simp) fun hst hcan => ?_
  by_cases hq : q = s.nav.live.seq
  · simp [LiveGoal.markLiveDone, hq] at hst
  · simp only [LiveGoal.markLiveDone_of_ne _ hq] at hst hcan ⊢
    refine cancelRequested_mono (h.canceled hst hcan) (fun hs => ?_) Multiset.mem_cons_of_mem
    exact (lane_update Lane.cancelSent hc _).trans hs

/-- A goal comes to a point where it does not run, and nothing else starts to. -/
theorem setLane (h : Truthful s) {q : Nat} {l : Lane} (hl : ¬ l.Running)
    (hc : l.cancelSent = (s.lane q).cancelSent)
    (hq : q = s.nav.live.seq → l.terminated = true → ∀ p, p ≠ q → ¬ (s.lane p).Running) :
    Truthful (s.setLane q l) := by
  have hrun : ∀ p, ((s.setLane q l).lane p).Running → (s.lane p).Running ∧ p ≠ q := by
    intro p hp
    by_cases hpq : p = q
    · subst hpq
      exact absurd (by simpa [NavSystem.setLane] using hp) hl
    · exact ⟨by simpa [NavSystem.setLane, hpq] using hp, hpq⟩
  refine ⟨fun p p' hp hp' => h.unique p p' (hrun p hp).1 (hrun p' hp').1, fun hterm p hp => ?_,
    fun hst hcan => ?_⟩
  · obtain ⟨hp, hpq⟩ := hrun p hp
    by_cases hseq : q = s.nav.live.seq
    · exact hq hseq (by simpa [NavSystem.setLane, hseq] using hterm) p hpq hp
    · refine h.newest ?_ p hp
      simpa [NavSystem.setLane, Ne.symm hseq] using hterm
  · refine cancelRequested_mono (h.canceled hst hcan) (fun hs => ?_) id
    exact (lane_update Lane.cancelSent hc _).trans hs

/-- Nav2 accepts a goal: it is the only one that runs. -/
theorem accept (h : Truthful s) {q : Nat}
    (hq : q = s.nav.live.seq ∨ (s.lane s.nav.live.seq).Unanswered) : Truthful (s.accept q) := by
  have hrun : ∀ p, ((s.accept q).lane p).Running → p = q := by
    intro p hp
    by_contra hpq
    simp only [NavSystem.accept, Function.update_of_ne hpq] at hp
    exact Lane.preempt_not_running _ hp
  refine ⟨fun p p' hp hp' => (hrun p hp).trans (hrun p' hp').symm, fun hterm => ?_,
    fun hst hcan => ?_⟩
  · -- the newest goal now runs, or is still unanswered
    exfalso
    by_cases hseq : s.nav.live.seq = q
    · simp [NavSystem.accept, hseq, Lane.terminated] at hterm
    · have hu := hq.resolve_left (Ne.symm hseq)
      rcases hu with hu | hu <;>
        simp [NavSystem.accept, hseq, Lane.preempt, hu, Lane.terminated] at hterm
  · refine cancelRequested_mono (h.canceled hst hcan) (fun hs => ?_) id
    by_cases hseq : s.nav.live.seq = q
    · simpa [NavSystem.accept, hseq] using hseq ▸ hs
    · simp only [NavSystem.accept, Function.update_of_ne hseq, Lane.preempt]
      split <;> exact hs

variable [DecidableEq κ] [LinearOrder R] [Field R] {cfg : NavConfig R} {e : NavEvent κ R}

theorem step (h : Truthful s) (ht : Tracking s.nav.live s.lane) (he : NavSystem.Effect cfg s e t)
    (hd : s.NewestDecides e) : Truthful t := by
  -- a thread other than the one that steps stays
  have hmem : ∀ {old : Thread κ R} {new : Multiset (Thread κ R)} {q : Nat},
      old ≠ .cancelGoalAsync q → .cancelGoalAsync q ∈ s.threads →
      .cancelGoalAsync q ∈ Pool.advance s.threads old new := fun hne hm =>
    Pool.mem_advance_right hm (Ne.symm hne)
  have hdisp : ∀ {d : Dispatch R} {old : Thread κ R} {q : Nat},
      NavSystem.Dispatching e d old → old ≠ .cancelGoalAsync q := by
    rintro d old q (⟨-, rfl⟩ | ⟨-, rfl⟩) <;> simp
  cases he with
  | sendGoal =>
      exact h.of_servers (fun _ => rfl) rfl fun hst hc =>
        cancelRequested_mono (h.canceled hst hc) id Multiset.mem_cons_of_mem
  | cancel => exact h.beginCancelLive ht fun _ hm => hm
  | unavailable =>
      exact h.of_servers (fun _ => rfl) rfl fun hst hc =>
        cancelRequested_mono (h.canceled hst hc) id (hmem (by simp))
  | dispatchStale he =>
      exact h.of_servers (fun _ => rfl) rfl fun hst hc =>
        cancelRequested_mono (h.canceled hst hc) id (hmem (hdisp he))
  | @dispatchSend _ d =>
      -- the fresh lane is as absent from Nav2 as it was
      have hsrv := lane_update Lane.server (l := .claim d.goalId)
        (ht.absent_of_lt (Nat.lt_succ_self _)).symm
      refine ⟨fun p q => ?_, fun hterm => ?_, fun _ hc => by cases hc⟩
      · simp only [Lane.Running, hsrv]
        exact h.unique p q
      · simp [LiveGoal.claim, Lane.claim, Lane.terminated] at hterm
  | dispatchDefer he =>
      exact h.beginCancelLive ht fun _ hm => (Multiset.mem_erase_of_ne (hdisp he).symm).mpr hm
  | sendGoalAsync =>
      exact h.setLane (by simp [Lane.Running]) rfl fun _ hterm => by simp [Lane.terminated] at hterm
  | @cancelGoalAsync q hm =>
      refine h.of_servers (lane_update Lane.server rfl) rfl fun hst hcan => ?_
      by_cases hq : s.nav.live.seq = q
      · apply Or.inl
        simp [NavSystem.cancelGoalAsync, NavSystem.setLane, NavSystem.advance, hq]
      · refine cancelRequested_mono (h.canceled hst hcan) (fun hs => ?_)
          (hmem fun he => hq (Thread.cancelGoalAsync.inj he).symm)
        simpa [NavSystem.cancelGoalAsync, NavSystem.setLane, NavSystem.advance, hq] using hs
  | rejected => exact h.markLiveDone rfl rfl
  | accepted hc ha hq =>
      subst hq
      refine h.of_servers (lane_update Lane.server rfl) rfl fun _ hcan => Or.inr ?_
      have hcan : s.nav.live.canceling = true := hcan
      simp [hcan, cancelCall]
  | @superseded q =>
      refine h.of_servers (lane_update Lane.server rfl) rfl fun hst hc => ?_
      refine cancelRequested_mono (h.canceled hst hc) (fun hs => ?_) id
      exact (lane_update Lane.cancelSent (l := { s.lane q with client := .superseded }) rfl _).trans hs
  | resultDone => exact h.markLiveDone rfl rfl
  | finishCurrent | finishStale | runCallback =>
      exact h.of_servers (fun _ => rfl) rfl fun hst hc =>
        cancelRequested_mono (h.canceled hst hc) id (hmem (by simp))
  | feedback =>
      exact h.of_servers (fun _ => rfl) rfl fun hst hc =>
        cancelRequested_mono (h.canceled hst hc) id fun hm => Multiset.mem_add.mpr (Or.inr hm)
  | plan => exact h.of_servers (fun _ => rfl) rfl h.canceled
  | accept => exact h.accept hd
  | reject => exact h.setLane (by simp [Lane.Running]) rfl fun hseq _ p _ => hd hseq p
  | @terminate q st hr =>
      exact h.setLane (by simp [Lane.Running]) rfl fun _ _ p hpq hp => hpq (h.unique p q hp hr)

omit [DecidableEq κ] [LinearOrder R] in
theorem boot (stallDistance : R) : Truthful (NavSystem.boot stallDistance : NavSystem κ R) where
  unique p q hp := by cases hp
  newest hterm := by cases hterm
  canceled hst := by cases hst

end Truthful

/-- The logical goal was ended for good, and so is the live goal unless it is being cancelled. -/
structure Stopping (s : NavSystem κ R) : Prop where
  inactive : s.nav.logical.active = false
  idle : s.nav.live.onIdle = none
  canceling : s.nav.live.state ≠ .none → s.nav.live.canceling = true

section

variable {s t : NavSystem κ R}

private theorem Stopping.markLiveDone (h : Stopping s) {q : Nat} {lane : Nat → Lane}
    {threads : Multiset (Thread κ R)} :
    Stopping ⟨{ s.nav with live := (s.nav.live.markLiveDone q).1 }, lane, threads⟩ := by
  refine ⟨h.inactive, ?_, ?_⟩
  · by_cases hq : q = s.nav.live.seq
    · simp [LiveGoal.markLiveDone, hq]
    · simpa only [LiveGoal.markLiveDone_of_ne _ hq] using h.idle
  · by_cases hq : q = s.nav.live.seq
    · simp [LiveGoal.markLiveDone, hq]
    · simpa only [LiveGoal.markLiveDone_of_ne _ hq] using h.canceling

/-- Every sent goal was answered, the answer was handled, and no cancel request is on its
way. -/
structure NavSystem.Handled (s : NavSystem κ R) : Prop where
  responses : ∀ q, (s.lane q).client ≠ .claimed ∧ (s.lane q).client ≠ .sent
  cancels : ∀ q, .cancelGoalAsync q ∉ s.threads

/-- A sent goal that neither waits for its answer nor runs is over. -/
theorem terminated_of_not_running {l : Lane} (h : l.Consistent) (hu : l.client ≠ .unclaimed)
    (hc : l.client ≠ .claimed) (hs : l.client ≠ .sent) (hr : ¬ l.Running) :
    l.terminated = true := by
  unfold Lane.Consistent at h
  unfold Lane.Running at hr
  cases hcl : l.client with
  | closed => simpa [hcl] using h
  | superseded | tracked =>
      simp only [hcl, Lane.Accepted] at h
      obtain ⟨st, hst⟩ := h.resolve_left hr
      simp [Lane.terminated, hst]
  | unclaimed => exact absurd hcl hu
  | claimed => exact absurd hcl hc
  | sent => exact absurd hcl hs

/-- With no live goal nothing runs. -/
theorem Truthful.not_running (h : Truthful s) (ht : Tracking s.nav.live s.lane)
    (hst : s.nav.live.state = .none) (q : Nat) : ¬ (s.lane q).Running := by
  by_cases hpos : s.nav.live.seq = 0
  · -- no sequence number was taken yet
    intro hr
    rw [Lane.Running, ht.absent_of_zero hpos] at hr
    cases hr
  · have hl := ht.lanes s.nav.live.seq
    simp only [Lane.Consistent, ht.closed_of_none hst hpos] at hl
    exact h.newest hl q

/-- Once stopped and with every message handled, whatever still runs was told to end. -/
theorem Truthful.terminated_or_cancelSent (h : Truthful s) (ht : Tracking s.nav.live s.lane)
    (hstop : Stopping s) (hh : s.Handled) {q : Nat} (hu : (s.lane q).client ≠ .unclaimed) :
    (s.lane q).terminated = true ∨ (s.lane q).cancelSent = true := by
  by_cases hr : (s.lane q).Running
  · right
    have hne : s.nav.live.state ≠ .none := fun hst => h.not_running ht hst q hr
    have hn := ht.newest
    cases hst : s.nav.live.state with
    | none => exact absurd hst hne
    | pending =>
        simp only [LiveGoal.Agrees, hst] at hn
        rcases hn with hn | hn
        · exact absurd hn (hh.responses _).1
        · exact absurd hn (hh.responses _).2
    | active =>
        -- the newest goal is the one that runs, and its cancellation went out
        simp only [LiveGoal.Agrees, hst] at hn
        have hseq : (s.lane s.nav.live.seq).Running := by
          by_contra hnr
          have hterm := terminated_of_not_running (ht.lanes _) (by simp [hn.1]) (by simp [hn.1])
            (by simp [hn.1]) hnr
          exact h.newest hterm q hr
        rw [h.unique q _ hr hseq]
        exact (h.canceled hst (hstop.canceling hne)).resolve_right (hh.cancels _)
  · exact Or.inl (terminated_of_not_running (ht.lanes q) hu (hh.responses q).1 (hh.responses q).2 hr)

variable [DecidableEq κ] [LinearOrder R] [Field R] {cfg : NavConfig R} {e : NavEvent κ R}

/-- After `cancel()` nothing is left to send. -/
theorem Stopping.of_cancel (h : s.step cfg .cancel = some t) : Stopping t := by
  obtain rfl := Option.some.inj h
  refine ⟨rfl, ?_, fun hst => ?_⟩
  · simp [NavSystem.cancel, WaypointNavigator.cancel]
  · exact LiveGoal.beginCancelLive_canceling _ (by
      simpa [NavSystem.cancel, WaypointNavigator.cancel] using hst)

/-- Without a new `send_goal` the navigator stays stopped. -/
theorem Stopping.step (h : Stopping s) (ht : Tracking s.nav.live s.lane)
    (he : NavSystem.Effect cfg s e t) (hne : ∀ w cb mode now, e ≠ .sendGoal w cb mode now) :
    Stopping t := by
  cases he with
  | sendGoal => exact absurd rfl (hne _ _ _ _)
  | cancel =>
      refine ⟨rfl, ?_, fun hst => ?_⟩
      · simp [NavSystem.cancel, WaypointNavigator.cancel]
      · exact LiveGoal.beginCancelLive_canceling _ (by
          simpa [NavSystem.cancel, WaypointNavigator.cancel] using hst)
  | dispatchSend _ _ hc | dispatchDefer _ _ hc =>
      have ha := (LogicalGoal.isCurrent_iff.mp hc).1
      rw [h.inactive] at ha
      cases ha
  | rejected | resultDone => exact h.markLiveDone
  | accepted hc _ hq =>
      have hpend := ht.pending_of_sent (hq ▸ hc)
      exact ⟨h.inactive, h.idle, fun _ => h.canceling (by simp [hpend])⟩
  | finishCurrent => exact ⟨rfl, h.idle, h.canceling⟩
  | @feedback q msg now =>
      obtain ⟨-, hact, -⟩ := s.nav.logical.feedbackCallback_same cfg (s.lane q).goalId msg now
      exact ⟨hact.trans h.inactive, h.idle, h.canceling⟩
  | @plan msg =>
      obtain ⟨-, hact, -⟩ := s.nav.logical.planCallback_same cfg msg
      exact ⟨hact.trans h.inactive, h.idle, h.canceling⟩
  | _ => exact ⟨h.inactive, h.idle, h.canceling⟩

/-- The newest goal's result is handled. -/
private theorem resultDone_newest (cfg : NavConfig R) (st : GoalStatus)
    (hc : (s.lane s.nav.live.seq).client = .tracked)
    (hst : (s.lane s.nav.live.seq).server = .ended st) :
    ∃ t, s.step cfg (.resultDone s.nav.live.seq) = some t ∧ t.nav.live.state = .none ∧
      ∀ q, q ≠ s.nav.live.seq → t.lane q = s.lane q := by
  refine ⟨s.resultDone s.nav.live.seq st, by simp only [NavSystem.step, hc, hst, if_true], ?_,
    fun q hq => ?_⟩
  · simp [NavSystem.resultDone, LiveGoal.markLiveDone]
  · simp [NavSystem.resultDone, hq]

/-- When the newest goal is over in Nav2 and another one runs, handling the newest goal's
messages leaves the navigator with no live goal while that one runs. -/
theorem misled_of_newest_over (cfg : NavConfig R) (ht : Tracking s.nav.live s.lane)
    (hterm : (s.lane s.nav.live.seq).terminated = true) {q : Nat} (hr : (s.lane q).Running) :
    ∃ es t, Runs.exec (NavSystem.step cfg) s es = some t ∧ t.nav.live.state = .none ∧
      (t.lane q).Running := by
  have hq : q ≠ s.nav.live.seq := by
    rintro rfl
    rw [Lane.terminated, hr] at hterm
    cases hterm
  have hn := ht.newest
  have hl := ht.lanes s.nav.live.seq
  cases hst : s.nav.live.state with
  | none => exact ⟨[], s, rfl, hst, hr⟩
  | active =>
      simp only [LiveGoal.Agrees, hst] at hn
      simp only [Lane.Consistent, hn.1, Lane.Accepted] at hl
      obtain ⟨st, hsv⟩ := hl.resolve_left fun h => by simp [Lane.terminated, h] at hterm
      obtain ⟨t, htr, hnone, hlane⟩ := resultDone_newest cfg st hn.1 hsv
      exact ⟨_, t, Runs.exec_single htr, hnone, by rw [hlane q hq]; exact hr⟩
  | pending =>
      simp only [LiveGoal.Agrees, hst] at hn
      rcases hn with hn | hn
      · simp only [Lane.Consistent, hn] at hl
        simp [Lane.terminated, hl] at hterm
      · cases hsv : (s.lane s.nav.live.seq).server with
        | absent | requested | running => simp [Lane.terminated, hsv] at hterm
        | rejected =>
            refine ⟨[.goalResponse s.nav.live.seq], s.goalRejected s.nav.live.seq,
              Runs.exec_single (by simp only [NavSystem.step, hn, hsv, if_true]), ?_, ?_⟩
            · simp [NavSystem.goalRejected, LiveGoal.markLiveDone]
            · simpa [NavSystem.goalRejected, hq] using hr
        | ended st =>
            -- the goal is accepted and over: its response comes first, then its result
            have hresp : s.step cfg (.goalResponse s.nav.live.seq) =
                some (s.goalAccepted s.nav.live.seq) := by
              simp only [NavSystem.step, hn, hsv, if_true]
            have hseq : (s.goalAccepted s.nav.live.seq).nav.live.seq = s.nav.live.seq := by
              simp [NavSystem.goalAccepted, LiveGoal.goalAccepted]
            obtain ⟨t, htr, hnone, hlane⟩ := resultDone_newest cfg st
              (s := s.goalAccepted s.nav.live.seq)
              (by simp [NavSystem.goalAccepted, LiveGoal.goalAccepted])
              (by simp [NavSystem.goalAccepted, LiveGoal.goalAccepted, hsv])
            rw [hseq] at htr hlane
            refine ⟨_, t, Runs.exec_append (Runs.exec_single hresp) (Runs.exec_single htr), hnone, ?_⟩
            rw [hlane q hq]
            simpa [NavSystem.goalAccepted, LiveGoal.goalAccepted, hq] using hr

/-- The condition is exact: any answer against it can leave a goal running that the navigator
takes for gone. -/
theorem misled_of_not_newestDecides (ht : Tracking s.nav.live s.lane)
    (he : s.step cfg e = some t) (hv : ¬ s.NewestDecides e) :
    ∃ es u, Runs.exec (NavSystem.step cfg) t es = some u ∧ u.nav.live.state = .none ∧
      ∃ q, (u.lane q).Running := by
  have he := NavSystem.step_effect he
  have ht' := ht.step he
  suffices hover : (t.lane t.nav.live.seq).terminated = true ∧ ∃ q, (t.lane q).Running by
    obtain ⟨hterm, q, hr⟩ := hover
    obtain ⟨es, u, hu, hnone, hr⟩ := misled_of_newest_over cfg ht' hterm hr
    exact ⟨es, u, hu, hnone, q, hr⟩
  cases he with
  | @accept q hr =>
      simp only [NavSystem.NewestDecides, not_or] at hv
      obtain ⟨hq, hu⟩ := hv
      refine ⟨?_, q, by simp [NavSystem.accept, Lane.Running]⟩
      simp only [NavSystem.accept]
      rw [Function.update_of_ne (Ne.symm hq)]
      cases hsv : (s.lane s.nav.live.seq).server <;>
        simp_all [Lane.Unanswered, Lane.preempt, Lane.terminated]
  | @reject q hr =>
      simp only [NavSystem.NewestDecides, not_forall, not_not] at hv
      obtain ⟨rfl, p, hp⟩ := hv
      refine ⟨by simp [NavSystem.setServer, NavSystem.setLane, Lane.terminated], p, ?_⟩
      have hpq : p ≠ s.nav.live.seq := by
        rintro rfl
        rw [Lane.Running, hr] at hp
        cases hp
      simpa [NavSystem.setServer, NavSystem.setLane, hpq] using hp
  | dispatchStale hd | dispatchSend hd | dispatchDefer hd =>
      obtain ⟨rfl, -⟩ | ⟨rfl, -⟩ := hd <;> exact absurd trivial hv
  | _ => exact absurd trivial hv

/-- **Truthful tracking.** In every run in which Nav2 lets the newest goal decide, no goal runs
while there is no live one, and after a `cancel()` without a later `send_goal()`, once every
message is handled, every goal sent is over or was told to end. An answer of Nav2 against the
condition can always leave a goal running that the navigator takes for gone. -/
theorem tracking_truthful {stallDistance : R} {es : List (NavEvent κ R)}
    (h : Runs.exec (NavSystem.step cfg) (.boot stallDistance) es = some s)
    (hm : Runs.Meets (NavSystem.step cfg) NavSystem.NewestDecides (.boot stallDistance) es) :
    (s.nav.live.state = .none → ∀ q, ¬ (s.lane q).Running) ∧
      (∀ es₁ es₂, es = es₁ ++ .cancel :: es₂ →
        (∀ e ∈ es₂, ∀ w cb mode now, e ≠ .sendGoal w cb mode now) → s.Handled →
        ∀ q, (s.lane q).client ≠ .unclaimed →
          (s.lane q).terminated = true ∨ (s.lane q).cancelSent = true) ∧
      ∀ e t, s.step cfg e = some t → ¬ s.NewestDecides e →
        ∃ es' u, Runs.exec (NavSystem.step cfg) t es' = some u ∧ u.nav.live.state = .none ∧
          ∃ q, (u.lane q).Running := by
  have hinv : Tracking s.nav.live s.lane ∧ Truthful s :=
    Runs.invariant (I := fun s => Tracking s.nav.live s.lane ∧ Truthful s)
      (fun s e t hI hq he =>
        have he := NavSystem.step_effect he
        ⟨hI.1.step he, hI.2.step hI.1 he hq⟩)
      ⟨.init, .boot stallDistance⟩ hm h
  obtain ⟨ht, hs⟩ := hinv
  refine ⟨hs.not_running ht, ?_, fun e t => misled_of_not_newestDecides ht⟩
  rintro es₁ es₂ rfl hsend hh q hu
  obtain ⟨s₁, h₁, h₂⟩ := Runs.exec_append_iff.mp h
  obtain ⟨s₂, hc, h₂⟩ := Runs.exec_cons_iff.mp h₂
  have ht₂ : Tracking s₂.nav.live s₂.lane :=
    Runs.invariant_of_step (I := fun s => Tracking s.nav.live s.lane)
      (fun s e t hI he => hI.step (NavSystem.step_effect he)) .init (Runs.exec_append h₁
        (Runs.exec_single hc))
  have hstop : Tracking s.nav.live s.lane ∧ Stopping s :=
    Runs.invariant_of_mem (I := fun s => Tracking s.nav.live s.lane ∧ Stopping s)
      (fun s e t he hI hst =>
        have hst := NavSystem.step_effect hst
        ⟨hI.1.step hst, hI.2.step hI.1 hst (hsend e he)⟩) ⟨ht₂, .of_cancel hc⟩ h₂
  exact hs.terminated_or_cancelSent ht hstop.2 hh hu

end

/-- The next goal of the same behaviour tree is rejected while the first one is running. -/
def rejectingRun : List (NavEvent Unit ℚ) :=
  [.sendGoal (.stop 1) () "normal" 0, .serverReady (.toStop 1 1 "normal"), .sendGoalAsync 1,
    .accept 1, .goalResponse 1,
    .sendGoal (.stop 2) () "normal" 0, .serverReady (.toStop 2 2 "normal"), .sendGoalAsync 2,
    .reject 2, .goalResponse 2]

theorem running_goal_untracked : ¬ ∀ (es : List (NavEvent Unit ℚ)) (s : NavSystem Unit ℚ),
    Runs.exec (NavSystem.step .axes) (.boot (1 / 2)) es = some s →
      s.nav.live.state = .none → ∀ q, ¬ (s.lane q).Running := by
  intro h
  have hrun : (Runs.exec (NavSystem.step .axes) (.boot (1 / 2)) rejectingRun).any (fun s =>
      decide (s.nav.live.state = .none ∧ (s.lane 1).server = .running)) = true := by
    decide +kernel
  obtain ⟨s, hs, hst, hr⟩ := Runs.exists_exec hrun
  exact h _ s hs hst 1 hr

/-- The second goal ends the first one, and is cancelled. -/
def cancelingRun : List (NavEvent Unit ℚ) :=
  [.sendGoal (.stop 1) () "normal" 0, .serverReady (.toStop 1 1 "normal"), .sendGoalAsync 1,
    .accept 1, .goalResponse 1,
    .sendGoal (.stop 2) () "normal" 0, .serverReady (.toStop 2 2 "normal"), .sendGoalAsync 2,
    .accept 2, .goalResponse 2, .cancel, .cancelGoalAsync 2, .terminate 2 .canceled,
    .resultDone 2]

/-- Nav2 accepts the newest goal only, and rejects none. -/
def acceptsNewest (s : NavSystem Unit ℚ) : NavEvent Unit ℚ → Bool
  | .accept q => q == s.nav.live.seq
  | .reject _ => false
  | _ => true

theorem nothing_runs_after_cancel : ∃ s : NavSystem Unit ℚ,
    Runs.exec (NavSystem.step .axes) (.boot (1 / 2)) cancelingRun = some s ∧
      ∀ q, ¬ (s.lane q).Running := by
  have hrun : (Runs.exec (NavSystem.step .axes) (.boot (1 / 2)) cancelingRun).any (fun s =>
      decide (s.nav.live.state = .none)) = true := by
    decide +kernel
  have hnewest : Runs.Meets (NavSystem.step .axes) (fun s e => acceptsNewest s e = true)
      (.boot (1 / 2)) cancelingRun := by
    decide +kernel
  obtain ⟨s, hs, hp⟩ := Runs.exists_exec hrun
  have hm : Runs.Meets (NavSystem.step .axes) NavSystem.NewestDecides (.boot (1 / 2))
      cancelingRun := hnewest.mono fun s e hq => by
    cases e with
    | accept q => exact Or.inl (beq_iff_eq.mp hq)
    | reject q => cases hq
    | _ => trivial
  exact ⟨s, hs, (tracking_truthful hs hm).1 hp⟩

end MgRobot.Sequencer
