import MgRobot.Sequencer.NavInvariant

/-!
# Where the current goal is

A goal that was sent is never lost: until it is finished, cancelled or
superseded, it waits for the server, is the live goal, is deferred behind the
live goal, is handed over by the callback that ended that goal, or has its own
end under way. A goal taken over from `_on_live_idle` finds the live goal gone,
so it is sent and not deferred once more.
-/

namespace MgRobot.Sequencer

open MgRobot.Lib

set_option autoImplicit false

variable {κ R : Type*}

/-- The deferred dispatch a callback took over from `_on_live_idle`. -/
def Thread.takenOver : Thread κ R → Option (Dispatch R)
  | .dispatch d => some d
  | .finish _ _ onIdle | .runCallback _ _ _ onIdle => onIdle
  | .waitServer _ | .cancelGoalAsync _ => none

def Thread.TookOver (x : Thread κ R) (g : Nat) : Prop :=
  ∃ d, x.takenOver = some d ∧ d.goalId = g

/-- The thread is yet to dispatch the goal, or handles its terminal response. -/
def Thread.Holds (x : Thread κ R) (g : Nat) : Prop :=
  x.right = some g ∨ ∃ r o, r ≠ .passed ∧ x = .finish g r o

theorem Thread.TookOver.right {x : Thread κ R} {g : Nat} (h : x.TookOver g) :
    x.right = some g := by
  obtain ⟨d, hd, rfl⟩ := h
  cases x <;> simp_all [Thread.takenOver, Thread.right]

/-- The places of a goal that has not been finished, cancelled or superseded. -/
inductive Placed (s : NavSystem κ R) (g : Nat) : Prop
  | live (hl : (s.lane s.nav.live.seq).goalId = g) (hs : s.nav.live.state ≠ .none)
      (hc : s.nav.live.canceling = false)
  | deferred {d : Dispatch R} (ho : s.nav.live.onIdle = some d) (hd : d.goalId = g)
      (hs : s.nav.live.state ≠ .none) (hc : s.nav.live.canceling = true)
  | held (hm : ∃ x ∈ s.threads, x.Holds g)

/-- What the runs of the navigator keep. -/
structure NavSystem.Sound (s : NavSystem κ R) : Prop where
  tracking : Tracking s.nav.live s.lane
  rights : s.Rights
  placed : s.nav.logical.active = true → Placed s s.nav.logical.goalId
  handed : s.nav.logical.active = true → (∃ x ∈ s.threads, x.TookOver s.nav.logical.goalId) →
    s.nav.live.state = .none

namespace NavSystem

namespace Rights

variable {s : NavSystem κ R}

/-- A goal that was sent to Nav2 is not to be dispatched any more. -/
theorem not_right_of_lane (h : s.Rights) {q : Nat} (h1 : 1 ≤ q) (hq : q ≤ s.nav.live.seq)
    {x : Thread κ R} (hx : x ∈ s.threads) : x.right ≠ some (s.lane q).goalId := by
  intro hr
  have hlane : (s.lane q).goalId ∈ laneGoals s.lane s.nav.live.seq :=
    Multiset.mem_map.mpr ⟨q - 1, Multiset.mem_range.mpr (by omega), by
      rw [Nat.sub_add_cancel h1]⟩
  have hd := (Multiset.nodup_add.mp h.nodup).2.2
  refine Multiset.disjoint_left.mp hd ?_ hlane
  exact Multiset.mem_add.mpr (Or.inl (Pool.mem_items.mpr ⟨x, hx, hr⟩))

/-- A deferred goal is not to be dispatched by a thread as well. -/
theorem not_right_of_onIdle (h : s.Rights) {d : Dispatch R} (ho : s.nav.live.onIdle = some d)
    {x : Thread κ R} (hx : x ∈ s.threads) : x.right ≠ some d.goalId := by
  intro hr
  have hd := (Multiset.nodup_add.mp (Multiset.nodup_add.mp h.nodup).1).2.2
  refine Multiset.disjoint_left.mp hd (Pool.mem_items.mpr ⟨x, hx, hr⟩) ?_
  simp [LiveGoal.right, ho]

/-- No goal is sent to Nav2 twice. -/
theorem lane_inj (h : s.Rights) {q q' : Nat} (h1 : 1 ≤ q) (hq : q ≤ s.nav.live.seq)
    (h1' : 1 ≤ q') (hq' : q' ≤ s.nav.live.seq) (hg : (s.lane q).goalId = (s.lane q').goalId) :
    q = q' := by
  have hn := (Multiset.nodup_add.mp h.nodup).2.1
  have hinj := Multiset.inj_on_of_nodup_map hn (q - 1) (Multiset.mem_range.mpr (by omega))
    (q' - 1) (Multiset.mem_range.mpr (by omega))
  rw [Nat.sub_add_cancel h1, Nat.sub_add_cancel h1'] at hinj
  have := hinj hg
  omega

end Rights

end NavSystem

section

variable {s t : NavSystem κ R} {g : Nat}

/-- A step that keeps the live goal and its deferred dispatch, and every goal held, keeps the
goal in its place. -/
theorem Placed.carry (h : Placed s g)
    (hg : ∀ q, (t.lane q).goalId = (s.lane q).goalId) (hseq : t.nav.live.seq = s.nav.live.seq)
    (hs : s.nav.live.state ≠ .none → t.nav.live.state ≠ .none)
    (hc : t.nav.live.canceling = s.nav.live.canceling)
    (ho : t.nav.live.onIdle = s.nav.live.onIdle)
    (hheld : (∃ x ∈ s.threads, x.Holds g) → ∃ y ∈ t.threads, y.Holds g) : Placed t g := by
  cases h with
  | live hl hs' hc' => exact .live (by rw [hseq, hg, hl]) (hs hs') (hc.trans hc')
  | deferred ho' hd hs' hc' => exact .deferred (ho.trans ho') hd (hs hs') (hc.trans hc')
  | held hm => exact .held (hheld hm)

/-- The end of a goal leaves the current goal with the callback, if it was the live goal or
deferred behind it. -/
theorem Placed.markLiveDone (h : Placed s g) {q : Nat} {r : NavigationResult} {lane : Nat → Lane}
    (hr : r ≠ .passed) (hg : ∀ p, (lane p).goalId = (s.lane p).goalId) :
    Placed
      { nav := { s.nav with live := (s.nav.live.markLiveDone q).1 }
        lane := lane
        threads := .finish (s.lane q).goalId r (s.nav.live.markLiveDone q).2 ::ₘ s.threads } g := by
  have hmem := Multiset.mem_cons_self
    (.finish (s.lane q).goalId r (s.nav.live.markLiveDone q).2) s.threads
  by_cases hq : q = s.nav.live.seq
  · cases h with
    | live hl => exact .held ⟨_, hmem, Or.inr ⟨_, _, hr, by rw [hq, hl]⟩⟩
    | deferred ho hd =>
        refine .held ⟨_, hmem, Or.inl ?_⟩
        simp [LiveGoal.markLiveDone, hq, Thread.right, ho, hd]
    | held hm =>
        obtain ⟨x, hx, hh⟩ := hm
        exact .held ⟨x, Multiset.mem_cons_of_mem hx, hh⟩
  · rw [LiveGoal.markLiveDone_of_ne _ hq]
    refine h.carry hg rfl id rfl rfl ?_
    rintro ⟨x, hx, hh⟩
    exact ⟨x, Multiset.mem_cons_of_mem hx, hh⟩

theorem holds_idleCall {o : Option (Dispatch R)} (h : o.map Dispatch.goalId = some g) :
    ∃ y ∈ (idleCall o : Multiset (Thread κ R)), y.Holds g := by
  cases o with
  | none => simp at h
  | some d =>
      obtain rfl : d.goalId = g := by simpa using h
      exact ⟨.dispatch d, Multiset.mem_singleton_self _, Or.inl rfl⟩

private theorem not_tookOver_cancelCall {handle : Option Nat} {g : Nat} :
    ∀ y ∈ (cancelCall handle : Multiset (Thread κ R)), ¬ y.TookOver g := by
  intro y hy hh
  cases handle with
  | none => simp [cancelCall] at hy
  | some q =>
      obtain rfl := Multiset.mem_singleton.mp hy
      cases hh.choose_spec.1

private theorem takenOver_idleCall {o : Option (Dispatch R)} {y : Thread κ R}
    (hy : y ∈ (idleCall o : Multiset (Thread κ R))) : y.takenOver = o := by
  cases o with
  | none => simp [idleCall] at hy
  | some d =>
      obtain rfl := Multiset.mem_singleton.mp hy
      rfl

/-- New threads that took nothing over change nothing. -/
private theorem exists_of_add {new p : Multiset (Thread κ R)} {g : Nat}
    (hnew : ∀ y ∈ new, ¬ y.TookOver g) (h : ∃ y ∈ new + p, y.TookOver g) :
    ∃ x ∈ p, x.TookOver g := by
  obtain ⟨y, hy, hh⟩ := h
  exact ⟨y, (Multiset.mem_add.mp hy).resolve_left fun hn => hnew y hn hh, hh⟩

/-- A callback takes the deferred dispatch over when it ends the live goal. -/
private theorem handed_markLiveDone {g q goal : Nat} {r : NavigationResult}
    (h : (∃ x ∈ s.threads, x.TookOver g) → s.nav.live.state = .none)
    (hx : ∃ x ∈ .finish goal r (s.nav.live.markLiveDone q).2 ::ₘ s.threads, x.TookOver g) :
    (s.nav.live.markLiveDone q).1.state = .none := by
  by_cases hq : q = s.nav.live.seq
  · simp [LiveGoal.markLiveDone, hq]
  · rw [LiveGoal.markLiveDone_of_ne _ hq] at hx ⊢
    obtain ⟨x, hx, hh⟩ := hx
    rcases Multiset.mem_cons.mp hx with rfl | hx
    · cases hh.choose_spec.1
    · exact h ⟨x, hx, hh⟩

end

namespace NavSystem.Sound

variable [DecidableEq κ] [LinearOrder R] [Field R] {cfg : NavConfig R} {s t : NavSystem κ R}
  {e : NavEvent κ R}

theorem placed_step (h : s.Sound) (he : Effect cfg s e t) (ha : t.nav.logical.active = true) :
    Placed t t.nav.logical.goalId := by
  have hmem : ∀ {new : Multiset (Thread κ R)} {g : Nat}, (∃ x ∈ s.threads, x.Holds g) →
      ∃ y ∈ new + s.threads, y.Holds g := fun ⟨x, hx, hh⟩ =>
    ⟨x, Multiset.mem_add.mpr (Or.inr hx), hh⟩
  cases he with
  | sendGoal => exact .held ⟨_, Multiset.mem_cons_self _ _, Or.inl rfl⟩
  | cancel => simp [NavSystem.cancel, WaypointNavigator.cancel] at ha
  | @unavailable d hm =>
      refine (h.placed ha).carry (fun _ => rfl) rfl id rfl rfl (Pool.exists_advance ?_)
      rintro (hr | ⟨r, o, -, hr⟩)
      · have hd : d.goalId = _ := Option.some.inj hr
        exact ⟨_, Multiset.mem_singleton_self _, Or.inr ⟨.failed, none, by simp, by rw [hd]⟩⟩
      · cases hr
  | @dispatchStale _ d old he hm hc =>
      refine (h.placed ha).carry (fun _ => rfl) rfl id rfl rfl (Pool.exists_advance fun hh => ?_)
      have hd := LogicalGoal.ne_of_not_current hc ha
      obtain ⟨_, rfl⟩ | ⟨_, rfl⟩ := he <;>
        · rcases hh with hr | ⟨r, o, -, hr⟩
          · exact absurd (Option.some.inj hr) hd
          · cases hr
  | dispatchSend he hm hc hs =>
      have hd := (LogicalGoal.isCurrent_iff.mp hc).2
      exact .live (by simp [LiveGoal.claim, Lane.claim, hd]) (by simp [LiveGoal.claim]) rfl
  | @dispatchDefer _ d _ he hm hc hs =>
      have hst : s.nav.live.state ≠ .none := fun hn => by
        rw [LiveGoal.canSend_of_none _ _ hn] at hs
        cases hs
      have hd := (LogicalGoal.isCurrent_iff.mp hc).2
      exact .deferred (d := d) (by simp) hd (by simpa using hst)
        (LiveGoal.beginCancelLive_canceling _ (by exact hst))
  | sendGoalAsync => exact (h.placed ha).carry (lane_update Lane.goalId rfl) rfl id rfl rfl id
  | cancelGoalAsync hm =>
      refine (h.placed ha).carry (lane_update Lane.goalId rfl) rfl id rfl rfl (Pool.exists_advance ?_)
      rintro (hr | ⟨r, o, -, hr⟩) <;> cases hr
  | rejected => exact (h.placed ha).markLiveDone (by simp) (lane_update Lane.goalId rfl)
  | accepted => exact (h.placed ha).carry (lane_update Lane.goalId rfl) rfl (fun _ => by simp) rfl rfl hmem
  | superseded => exact (h.placed ha).carry (lane_update Lane.goalId rfl) rfl id rfl rfl id
  | resultDone => exact (h.placed ha).markLiveDone (resultOf_ne_passed _) (lane_update Lane.goalId rfl)
  | finishCurrent => simp at ha
  | @finishStale g r o hm hc =>
      refine (h.placed ha).carry (fun _ => rfl) rfl id rfl rfl (Pool.exists_advance ?_)
      rintro (hr | ⟨r', o', -, hr⟩)
      · exact holds_idleCall hr
      · obtain ⟨hg, -, -⟩ := Thread.finish.inj hr
        exact absurd hg (LogicalGoal.ne_of_not_current hc ha)
  | runCallback hm =>
      refine (h.placed ha).carry (fun _ => rfl) rfl id rfl rfl (Pool.exists_advance ?_)
      rintro (hr | ⟨r, o, -, hr⟩)
      · exact holds_idleCall hr
      · cases hr
  | @feedback q msg now =>
      obtain ⟨hid, hact, -⟩ := s.nav.logical.feedbackCallback_same cfg (s.lane q).goalId msg now
      have hp := h.placed (hact ▸ ha)
      rw [show (s.feedback cfg q msg now).nav.logical.goalId = s.nav.logical.goalId from hid]
      exact hp.carry (fun _ => rfl) rfl id rfl rfl hmem
  | @plan msg =>
      obtain ⟨hid, hact, -⟩ := s.nav.logical.planCallback_same cfg msg
      rw [hid]
      exact (h.placed (hact ▸ ha)).carry (fun _ => rfl) rfl id rfl rfl id
  | accept =>
      refine (h.placed ha).carry (fun p => ?_) rfl id rfl rfl id
      exact (lane_update Lane.goalId (by simp) _).trans (Lane.preempt_goalId _)
  | reject => exact (h.placed ha).carry (lane_update Lane.goalId rfl) rfl id rfl rfl id
  | terminate => exact (h.placed ha).carry (lane_update Lane.goalId rfl) rfl id rfl rfl id

theorem handed_step (h : s.Sound) (he : Effect cfg s e t) (ht : t.Rights)
    (ha : t.nav.logical.active = true)
    (hx : ∃ x ∈ t.threads, x.TookOver t.nav.logical.goalId) : t.nav.live.state = .none := by
  cases he with
  | sendGoal =>
      obtain ⟨x, hx, hh⟩ := hx
      rcases Multiset.mem_cons.mp hx with rfl | hx
      · cases hh.choose_spec.1
      · have hissued : s.nav.logical.goalId + 1 ∈ s.rights :=
          Multiset.mem_add.mpr (Or.inl (Multiset.mem_add.mpr
            (Or.inl (Pool.mem_items.mpr ⟨x, hx, hh.right⟩))))
        have := h.rights.issued _ hissued
        omega
  | cancel => simp [NavSystem.cancel, WaypointNavigator.cancel] at ha
  | unavailable hm =>
      refine h.handed ha (Pool.exists_of_advance hm (fun y hy hh => ?_) hx)
      obtain rfl := Multiset.mem_singleton.mp hy
      cases hh.choose_spec.1
  | dispatchStale _ hm => exact h.handed ha (Pool.exists_of_advance hm (by simp) hx)
  | @dispatchSend _ d _ he hm hc hs =>
      -- the goal has its sequence number, so nothing is left to take over
      obtain ⟨x, hx, hh⟩ := hx
      apply absurd hh.right
      have hd := (LogicalGoal.isCurrent_iff.mp hc).2
      have hn := ht.not_right_of_lane (q := s.nav.live.seq + 1) (by omega) le_rfl hx
      simpa [Lane.claim, hd] using hn
  | @dispatchDefer _ d _ he hm hc hs =>
      -- the goal is deferred, so no thread has it
      obtain ⟨x, hx, hh⟩ := hx
      apply absurd hh.right
      have hd := (LogicalGoal.isCurrent_iff.mp hc).2
      have hn := ht.not_right_of_onIdle (d := d) (by simp) hx
      simpa [hd] using hn
  | sendGoalAsync => exact h.handed ha hx
  | cancelGoalAsync hm => exact h.handed ha (Pool.exists_of_advance hm (by simp) hx)
  | rejected => exact handed_markLiveDone (h.handed ha) hx
  | accepted hc _ hq =>
      -- the goal was pending, so nothing had been taken over
      have hpend := h.tracking.pending_of_sent (hq ▸ hc)
      have hnone := h.handed ha (exists_of_add not_tookOver_cancelCall hx)
      rw [hpend] at hnone
      cases hnone
  | superseded => exact h.handed ha hx
  | resultDone => exact handed_markLiveDone (h.handed ha) hx
  | finishCurrent => simp at ha
  | finishStale hm hc =>
      refine h.handed ha (Pool.exists_of_advance hm (fun y hy hover => ?_) hx)
      obtain ⟨d, hd, hg⟩ := hover
      exact ⟨d, (takenOver_idleCall hy).symm.trans hd, hg⟩
  | runCallback hm =>
      refine h.handed ha (Pool.exists_of_advance hm (fun y hy hover => ?_) hx)
      obtain ⟨d, hd, hg⟩ := hover
      exact ⟨d, (takenOver_idleCall hy).symm.trans hd, hg⟩
  | @feedback q msg now =>
      obtain ⟨hid, hact, -⟩ := s.nav.logical.feedbackCallback_same cfg (s.lane q).goalId msg now
      rw [show (s.feedback cfg q msg now).nav.logical.goalId = s.nav.logical.goalId from hid] at hx
      refine h.handed (hact ▸ ha) (exists_of_add (fun y hy hh => ?_) hx)
      split at hy
      · obtain rfl := Multiset.mem_singleton.mp hy
        cases hh.choose_spec.1
      · simp at hy
  | @plan msg =>
      obtain ⟨hid, hact, -⟩ := s.nav.logical.planCallback_same cfg msg
      rw [hid] at hx
      exact h.handed (hact ▸ ha) hx
  | accept => exact h.handed ha hx
  | reject => exact h.handed ha hx
  | terminate => exact h.handed ha hx

theorem step (h : s.Sound) (he : s.step cfg e = some t) : t.Sound := by
  have he := step_effect he
  have hr := h.rights.step he
  exact ⟨h.tracking.step he, hr, h.placed_step he, h.handed_step he hr⟩

omit [DecidableEq κ] [LinearOrder R] in
theorem boot (stallDistance : R) : (NavSystem.boot stallDistance : NavSystem κ R).Sound where
  tracking := .init
  rights := .boot stallDistance
  placed h := by simp [NavSystem.boot, WaypointNavigator.init, LogicalGoal.init] at h
  handed h := by simp [NavSystem.boot, WaypointNavigator.init, LogicalGoal.init] at h

theorem run {stallDistance : R} {es : List (NavEvent κ R)}
    (h : Runs.exec (NavSystem.step cfg) (.boot stallDistance) es = some s) : s.Sound :=
  Runs.invariant_of_step (fun _ _ _ h he => h.step he) (.boot stallDistance) h

end NavSystem.Sound

/-- Where a goal is from its `_dispatch` on, until it is finished, cancelled or superseded. -/
inductive InHand (s : NavSystem κ R) (g : Nat) : Prop
  | live (hl : (s.lane s.nav.live.seq).goalId = g)
      (hs : s.nav.live.state = .pending ∨ s.nav.live.state = .active)
      (hc : s.nav.live.canceling = false)
  | deferred {d : Dispatch R} (ho : s.nav.live.onIdle = some d) (hd : d.goalId = g)
      (hs : s.nav.live.state ≠ .none) (hc : s.nav.live.canceling = true)
  | redispatch {x : Thread κ R} (hm : x ∈ s.threads) (hx : x.TookOver g)
  | ending {r : NavigationResult} {o : Option (Dispatch R)} (hr : r ≠ .passed)
      (hm : .finish g r o ∈ s.threads)

section

variable {s t : NavSystem κ R} {g : Nat}

theorem Thread.TookOver.of_right {x : Thread κ R} (h : x.right = some g)
    (hw : ∀ d, x ≠ .waitServer d) : x.TookOver g := by
  cases x with
  | waitServer d => exact absurd rfl (hw d)
  | cancelGoalAsync q => cases h
  | dispatch d => exact ⟨d, rfl, Option.some.inj h⟩
  | finish g' r o | runCallback g' cb r o =>
      obtain ⟨d, rfl, hd⟩ := Option.map_eq_some_iff.mp h
      exact ⟨d, rfl, hd⟩

theorem Placed.inHand (h : Placed s g) (hw : ∀ d, .waitServer d ∈ s.threads → d.goalId ≠ g) :
    InHand s g := by
  cases h with
  | live hl hs hc =>
      refine .live hl ?_ hc
      cases hst : s.nav.live.state <;> simp_all
  | deferred ho hd hs hc => exact .deferred ho hd hs hc
  | held hm =>
      obtain ⟨x, hx, hr | ⟨r, o, hne, rfl⟩⟩ := hm
      · refine .redispatch hx (.of_right hr ?_)
        rintro d rfl
        exact hw d hx (Option.some.inj hr)
      · exact .ending hne hx

theorem exists_takenOver_idleCall (d : Dispatch R) :
    ∃ y ∈ (idleCall (some d) : Multiset (Thread κ R)), y.takenOver = some d :=
  ⟨.dispatch d, Multiset.mem_singleton_self _, rfl⟩

private theorem finish_mem_markLiveDone {d : Dispatch R} {q goal : Nat} {r : NavigationResult}
    (hst : s.nav.live.state ≠ .none) (ho : s.nav.live.onIdle = some d)
    (ht : (s.nav.live.markLiveDone q).1.state = .none) :
    ∃ g r', .finish g r' (some d) ∈
      (.finish goal r (s.nav.live.markLiveDone q).2 ::ₘ s.threads : Multiset (Thread κ R)) := by
  by_cases hq : q = s.nav.live.seq
  · have ho' : (s.nav.live.markLiveDone q).2 = some d := by simp [LiveGoal.markLiveDone, hq, ho]
    rw [ho']
    exact ⟨_, _, Multiset.mem_cons_self _ _⟩
  · rw [LiveGoal.markLiveDone_of_ne _ hq] at ht
    exact absurd ht hst

variable [DecidableEq κ] [LinearOrder R] [Field R] {cfg : NavConfig R} {e : NavEvent κ R}

/-- When the live goal ends, its callback takes the deferred dispatch over. -/
theorem finish_mem_of_live_ended {d : Dispatch R} (h : Tracking s.nav.live s.lane)
    (ho : s.nav.live.onIdle = some d) (he : NavSystem.Effect cfg s e t)
    (ht : t.nav.live.state = .none) : ∃ g r, .finish g r (some d) ∈ t.threads := by
  obtain ⟨hst, hc⟩ := h.deferred (by simp [ho])
  cases he with
  | cancel =>
      exact absurd ht (by simpa [NavSystem.cancel, WaypointNavigator.cancel] using hst)
  | dispatchSend _ _ _ hs => simp [LiveGoal.canSend, hst, hc] at hs
  | dispatchDefer => exact absurd ht (by simpa using hst)
  | rejected | resultDone => exact finish_mem_markLiveDone hst ho ht
  | accepted => cases ht
  | _ => exact absurd ht hst

/-- A dispatch that was taken over stays with its thread until it runs. -/
theorem takenOver_step {d : Dispatch R} (hx : ∃ x ∈ s.threads, x.takenOver = some d)
    (he : NavSystem.Effect cfg s e t) (hne : e ≠ .dispatch d) :
    ∃ y ∈ t.threads, y.takenOver = some d := by
  have hadd : ∀ {new : Multiset (Thread κ R)}, ∃ y ∈ new + s.threads, y.takenOver = some d := by
    obtain ⟨x, hx, hd⟩ := hx
    exact ⟨x, Multiset.mem_add.mpr (Or.inr hx), hd⟩
  have hcons : ∀ {y : Thread κ R}, ∃ z ∈ y ::ₘ s.threads, z.takenOver = some d := by
    obtain ⟨x, hx, hd⟩ := hx
    exact ⟨x, Multiset.mem_cons_of_mem hx, hd⟩
  have hdispatch : ∀ {d' : Dispatch R} {old : Thread κ R} {new : Multiset (Thread κ R)},
      NavSystem.Dispatching e d' old → ∃ y ∈ Pool.advance s.threads old new,
        y.takenOver = some d := by
    rintro d' old new (⟨rfl, rfl⟩ | ⟨rfl, rfl⟩)
    · exact Pool.exists_advance (by simp [Thread.takenOver]) hx
    · refine Pool.exists_advance (fun h => absurd ?_ hne) hx
      rw [Option.some.inj h]
  cases he with
  | sendGoal | rejected | resultDone => exact hcons
  | cancel | accepted | feedback => exact hadd
  | dispatchStale he | dispatchSend he | dispatchDefer he => exact hdispatch he
  | unavailable | cancelGoalAsync => exact Pool.exists_advance (by simp [Thread.takenOver]) hx
  | finishCurrent =>
      refine Pool.exists_advance (fun h => ?_) hx
      split
      · exact ⟨_, Multiset.mem_singleton_self _, h⟩
      · obtain rfl : _ = some d := h
        exact exists_takenOver_idleCall d
  | finishStale | runCallback =>
      refine Pool.exists_advance (fun h => ?_) hx
      obtain rfl : _ = some d := h
      exact exists_takenOver_idleCall d
  | _ => exact hx

/-- The dispatch of the current goal that was taken over takes a sequence number. -/
theorem dispatch_claims (h : s.Sound) {d : Dispatch R}
    (hc : s.nav.logical.isCurrent d.goalId = true) (he : s.step cfg (.dispatch d) = some t) :
    t.nav.live.seq = s.nav.live.seq + 1 ∧ t.lane t.nav.live.seq = .claim d.goalId := by
  obtain ⟨hm, ht⟩ := Option.ite_none_right_eq_some.mp he
  obtain ⟨ha, hd⟩ := LogicalGoal.isCurrent_iff.mp hc
  have hnone := h.handed ha ⟨_, hm, d, rfl, hd⟩
  have hs := s.nav.live.canSend_of_none d.goal hnone
  obtain rfl := Option.some.inj ht
  simp [NavSystem.runDispatch, WaypointNavigator.dispatch, hc, hs, LiveGoal.claim]

/-- **No goal is lost.** From its `_dispatch` on, the current goal is the live goal, or
deferred behind a live goal that is being cancelled, or taken over, or about to end; no goal
is sent twice; the end of the live goal hands the deferred dispatch over, it stays with its
thread until it runs, and then it sends its goal if that is still the current one. -/
theorem dispatched_goal_not_lost {stallDistance : R} {es : List (NavEvent κ R)}
    (h : Runs.exec (NavSystem.step cfg) (.boot stallDistance) es = some s) :
    (s.nav.logical.active = true →
        (∀ d, .waitServer d ∈ s.threads → d.goalId ≠ s.nav.logical.goalId) →
        InHand s s.nav.logical.goalId) ∧
      (∀ q q', 1 ≤ q → q ≤ s.nav.live.seq → 1 ≤ q' → q' ≤ s.nav.live.seq →
        (s.lane q).goalId = (s.lane q').goalId → q = q') ∧
      (∀ d e t, s.nav.live.onIdle = some d → s.step cfg e = some t → t.nav.live.state = .none →
        ∃ g r, .finish g r (some d) ∈ t.threads) ∧
      (∀ d e t, (∃ x ∈ s.threads, x.takenOver = some d) → s.step cfg e = some t →
        e ≠ .dispatch d → ∃ y ∈ t.threads, y.takenOver = some d) ∧
      ∀ d t, s.nav.logical.isCurrent d.goalId = true → s.step cfg (.dispatch d) = some t →
        t.nav.live.seq = s.nav.live.seq + 1 ∧ t.lane t.nav.live.seq = .claim d.goalId := by
  have hs := NavSystem.Sound.run h
  refine ⟨fun ha hw => (hs.placed ha).inHand hw, ?_, ?_, ?_, fun d t hc => dispatch_claims hs hc⟩
  · intro q q' h1 hq h1' hq' hg
    exact hs.rights.lane_inj h1 hq h1' hq' hg
  · intro d e t ho he ht
    exact finish_mem_of_live_ended hs.tracking ho (NavSystem.step_effect he) ht
  · intro d e t hx he hne
    exact takenOver_step hx (NavSystem.step_effect he) hne

end

/-- A `queue_wait` goal is sent while a `normal` one is running, and waits for its end. -/
def deferringRun : List (NavEvent Unit ℚ) :=
  [.sendGoal (.stop 1) () "normal" 0, .serverReady (.toStop 1 1 "normal"), .sendGoalAsync 1,
    .accept 1, .goalResponse 1,
    .sendGoal (.stop 2) () "queue_wait" 0, .serverReady (.toStop 2 2 "queue_wait"),
    .cancelGoalAsync 1]

theorem deferred_goal_in_hand : ∃ s : NavSystem Unit ℚ,
    Runs.exec (NavSystem.step .axes) (.boot (1 / 2)) deferringRun = some s ∧
      s.nav.live.onIdle = some (.toStop 2 2 "queue_wait") ∧ InHand s 2 := by
  have hrun : (Runs.exec (NavSystem.step .axes) (.boot (1 / 2)) deferringRun).any (fun s =>
      decide (s.threads = 0 ∧ s.nav.logical.active = true ∧ s.nav.logical.goalId = 2 ∧
        s.nav.live.onIdle = some (.toStop 2 2 "queue_wait"))) = true := by
    decide +kernel
  obtain ⟨s, hs, ht, ha, hg, ho⟩ := Runs.exists_exec hrun
  have hin := (dispatched_goal_not_lost hs).1 ha (by simp [ht])
  exact ⟨s, hs, ho, hg ▸ hin⟩

end MgRobot.Sequencer
