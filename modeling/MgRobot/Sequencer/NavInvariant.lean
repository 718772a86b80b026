import MgRobot.Sequencer.NavSystem
import Mathlib.Data.Multiset.Range
import Mathlib.Tactic.Abel

/-!
# What the navigator tracks

Two invariants of every run. `Tracking` ties the live fields to the lane of the
newest sequence number. `Rights` counts the rights to dispatch: a logical goal
has one from its `send_goal` on, which waits with the thread, in `_on_live_idle`
or with a callback that took it over, and becomes a sequence number once.
-/

namespace MgRobot.Sequencer

open MgRobot.Lib

set_option autoImplicit false

variable {κ R : Type*}

/-- The client and Nav2 agree on how far a goal has come. -/
def Lane.Consistent (l : Lane) : Prop :=
  match l.client with
  | .unclaimed | .claimed => l.server = .absent
  | .sent => l.server ≠ .absent
  | .superseded | .tracked => l.Accepted
  | .closed => l.terminated = true

@[simp] theorem Lane.preempt_client (l : Lane) : l.preempt.client = l.client := by
  unfold Lane.preempt; split <;> rfl

/-- What a step leaves alone on its lane, it leaves alone on all of them. -/
theorem lane_update {α : Type*} (f : Lane → α) {lane : Nat → Lane} {q : Nat} {l : Lane}
    (h : f l = f (lane q)) (p : Nat) : f (Function.update lane q l p) = f (lane p) := by
  by_cases hp : p = q
  · subst hp; simpa using h
  · rw [Function.update_of_ne hp]

namespace Lane.Consistent

variable {l : Lane}

/-- A request that Nav2 has not answered is one the client waits for. -/
theorem client_eq_sent (h : l.Consistent) (hr : l.server = .requested) : l.client = .sent := by
  unfold Lane.Consistent at h
  cases hc : l.client <;> simp [hc, hr, Lane.Accepted, Lane.terminated] at h ⊢

/-- Nav2 answers a request. -/
theorem answer (h : l.Consistent) (hr : l.server = .requested) {pc : ServerPc}
    (hpc : pc ≠ .absent) : Lane.Consistent { l with server := pc } := by
  simpa [Lane.Consistent, h.client_eq_sent hr] using hpc

/-- Nav2 ends a running goal. -/
theorem ended (h : l.Consistent) (hr : l.server = .running) (st : GoalStatus) :
    Lane.Consistent { l with server := .ended st } := by
  unfold Lane.Consistent at h ⊢
  cases hc : l.client <;> simp [hc, hr, Lane.Accepted, Lane.terminated] at h ⊢

theorem preempted (h : l.Consistent) : l.preempt.Consistent := by
  unfold Lane.preempt
  split
  · rename_i hr
    exact h.ended hr _
  · exact h

theorem update {lane : Nat → Lane} {q : Nat} (hl : l.Consistent) (h : ∀ p, (lane p).Consistent)
    (p : Nat) : (Function.update lane q l p).Consistent := by
  by_cases hp : p = q
  · subst hp; simpa using hl
  · simpa [Function.update_of_ne hp] using h p

end Lane.Consistent

theorem client_accept {s : NavSystem κ R} (q p : Nat) :
    ((s.accept q).lane p).client = (s.lane p).client := by
  refine (lane_update Lane.client ?_ p).trans (Lane.preempt_client _)
  exact (s.lane q).preempt_client.symm

/-- The live state is that of the newest goal's lane. -/
def LiveGoal.Agrees (l : LiveGoal R) (newest : ClientPc) : Prop :=
  match l.state with
  | .none => l.seq = 0 ∨ newest = .closed
  | .pending => newest = .claimed ∨ newest = .sent
  | .active => newest = .tracked ∧ l.handle = some l.seq

structure Tracking (live : LiveGoal R) (lane : Nat → Lane) : Prop where
  claimed : ∀ q, (lane q).client ≠ .unclaimed ↔ 1 ≤ q ∧ q ≤ live.seq
  lanes : ∀ q, (lane q).Consistent
  newest : live.Agrees (lane live.seq).client
  canceling : live.canceling = true → live.state ≠ .none
  deferred : live.onIdle ≠ none → live.state ≠ .none ∧ live.canceling = true

namespace Tracking

variable {live live' : LiveGoal R} {lane lane' : Nat → Lane}

theorem init : Tracking (LiveGoal.init : LiveGoal R) (fun _ => .unclaimed) where
  claimed q := by simp [LiveGoal.init, Lane.unclaimed]; omega
  lanes q := by simp [Lane.Consistent, Lane.unclaimed]
  newest := Or.inl rfl
  canceling h := by simp [LiveGoal.init] at h
  deferred h := by simp [LiveGoal.init] at h

theorem seq_pos (h : Tracking live lane) {q : Nat} (hq : (lane q).client ≠ .unclaimed) :
    1 ≤ q ∧ q ≤ live.seq := (h.claimed q).mp hq

/-- Nav2 knows nothing of a sequence number that was not taken. -/
theorem absent_of_lt (h : Tracking live lane) {q : Nat} (hq : live.seq < q) :
    (lane q).server = .absent := by
  have hc : (lane q).client = .unclaimed := by
    by_contra hne
    have := (h.seq_pos hne).2
    omega
  simpa [Lane.Consistent, hc] using h.lanes q

theorem absent_of_zero (h : Tracking live lane) (h0 : live.seq = 0) {q : Nat} :
    (lane q).server = .absent := by
  have hc : (lane q).client = .unclaimed := by
    by_contra hne
    have := h.seq_pos hne
    omega
  simpa [Lane.Consistent, hc] using h.lanes q

/-- The newest goal is pending from its claim until its response is handled. -/
theorem pending_of_client (h : Tracking live lane)
    (hs : (lane live.seq).client = .claimed ∨ (lane live.seq).client = .sent) :
    live.state = .pending := by
  have hn := h.newest
  have hpos := (h.seq_pos (q := live.seq) (by rcases hs with hs | hs <;> simp [hs])).1
  unfold LiveGoal.Agrees at hn
  cases hst : live.state with
  | pending => rfl
  | none =>
      simp only [hst] at hn
      rcases hs with hs | hs <;>
        · simp only [hs, reduceCtorEq, or_false] at hn
          omega
  | active => rcases hs with hs | hs <;> simp [hst, hs] at hn

theorem pending_of_sent (h : Tracking live lane) (hs : (lane live.seq).client = .sent) :
    live.state = .pending := h.pending_of_client (Or.inr hs)

theorem closed_of_none (h : Tracking live lane) (hs : live.state = .none) (hpos : live.seq ≠ 0) :
    (lane live.seq).client = .closed := by
  have hn := h.newest
  simp only [LiveGoal.Agrees, hs] at hn
  exact hn.resolve_left hpos

/-- A step inside Nav2, or a cancel request, leaves the client's view alone. -/
theorem of_clients (h : Tracking live lane) (hc : ∀ q, (lane' q).client = (lane q).client)
    (hl : ∀ q, (lane' q).Consistent) : Tracking live lane' where
  claimed q := by rw [hc]; exact h.claimed q
  lanes := hl
  newest := by rw [hc]; exact h.newest
  canceling := h.canceling
  deferred := h.deferred

/-- The same for a step on one lane. -/
theorem of_server (h : Tracking live lane) {q : Nat} {pc : ServerPc} {b : Bool}
    (hl : Lane.Consistent { lane q with server := pc, cancelSent := b }) :
    Tracking live
      (Function.update lane q { lane q with server := pc, cancelSent := b }) :=
  h.of_clients (lane_update Lane.client rfl) (hl.update h.lanes)

/-- A sequence number in use stays in use. -/
theorem claimed_update (h : Tracking live lane) {q : Nat} {l : Lane}
    (hq : (lane q).client ≠ .unclaimed) (hu : l.client ≠ .unclaimed) (p : Nat) :
    (Function.update lane q l p).client ≠ .unclaimed ↔ 1 ≤ p ∧ p ≤ live.seq := by
  rw [← h.claimed p]
  by_cases hp : p = q
  · subst hp; simp [hq, hu]
  · rw [Function.update_of_ne hp]

/-- A client step on one lane that the live fields do not follow. -/
theorem of_update (h : Tracking live lane) {q : Nat} {l : Lane}
    (hq : (lane q).client ≠ .unclaimed) (hl : l.Consistent) (hu : l.client ≠ .unclaimed)
    (hn : q = live.seq → live.Agrees l.client) :
    Tracking live (Function.update lane q l) where
  claimed := h.claimed_update hq hu
  lanes := hl.update h.lanes
  newest := by
    by_cases hp : live.seq = q
    · subst hp
      simpa using hn rfl
    · simpa [Function.update_of_ne hp] using h.newest
  canceling := h.canceling
  deferred := h.deferred

theorem beginCancelLive (h : Tracking live lane) {o : Option (Dispatch R)}
    (ho : o ≠ none → live.state ≠ .none) :
    Tracking ({ live with onIdle := o }.beginCancelLive).1 lane where
  claimed q := by simpa using h.claimed q
  lanes := h.lanes
  newest := by
    have hn := h.newest
    simpa [LiveGoal.Agrees] using hn
  canceling hc := by
    by_cases hs : live.state = .none
    · rw [LiveGoal.beginCancelLive_of_none _ (by exact hs)] at hc
      exact absurd hs (h.canceling hc)
    · simpa using hs
  deferred hd := by
    have hs := ho (by simpa using hd)
    exact ⟨by simpa using hs, LiveGoal.beginCancelLive_canceling _ (by exact hs)⟩

/-- A fresh sequence number starts a fresh lane. -/
theorem claim (h : Tracking live lane) (goal : NavGoal R) (g : Nat)
    (hs : live.canSend goal = true) :
    Tracking (live.claim goal) (Function.update lane (live.seq + 1) (.claim g)) where
  claimed q := by
    by_cases hq : q = live.seq + 1
    · subst q
      simp [Lane.claim, LiveGoal.claim]
    · rw [Function.update_of_ne hq, h.claimed q]
      simp only [LiveGoal.claim]
      omega
  lanes := Lane.Consistent.update (by simp [Lane.Consistent, Lane.claim]) h.lanes
  newest := by simp [LiveGoal.Agrees, LiveGoal.claim, Lane.claim]
  canceling hc := by simp [LiveGoal.claim] at hc
  deferred hd := by
    -- a deferred dispatch waits for a goal being cancelled, so nothing may be sent
    obtain ⟨hst, hc⟩ := h.deferred hd
    simp [LiveGoal.canSend, hst, hc] at hs

/-- The end of a goal is handled: the live fields follow if it is the newest one. -/
theorem markLiveDone (h : Tracking live lane) {q : Nat} {l : Lane}
    (hq : (lane q).client ≠ .unclaimed) (hc : l.client = .closed) (ht : l.terminated = true) :
    Tracking (live.markLiveDone q).1 (Function.update lane q l) := by
  have hl : l.Consistent := by simpa only [Lane.Consistent, hc] using ht
  by_cases hn : q = live.seq
  · subst hn
    simp only [LiveGoal.markLiveDone, if_true]
    exact ⟨h.claimed_update hq (by simp [hc]), hl.update h.lanes, Or.inr (by simp [hc]),
      by simp, by simp⟩
  · rw [LiveGoal.markLiveDone_of_ne _ hn]
    exact h.of_update hq hl (by simp [hc]) (fun he => absurd he hn)

/-- The acceptance of the newest goal is handled. -/
theorem accepted (h : Tracking live lane) {l : Lane} (hs : (lane live.seq).client = .sent)
    (hc : l.client = .tracked) (ha : l.Accepted) :
    Tracking { live with state := .active, handle := some live.seq }
      (Function.update lane live.seq l) := by
  have hst := h.pending_of_sent hs
  have hl : l.Consistent := by simpa only [Lane.Consistent, hc] using ha
  exact ⟨h.claimed_update (by simp [hs]) (by simp [hc]), hl.update h.lanes,
    by simp [LiveGoal.Agrees, hc], by simp, fun hd => ⟨by simp, (h.deferred hd).2⟩⟩

/-- One step of the system keeps it. -/
theorem step [DecidableEq κ] [LinearOrder R] [Field R] {cfg : NavConfig R}
    {s t : NavSystem κ R} {e : NavEvent κ R} (h : Tracking s.nav.live s.lane)
    (he : NavSystem.Effect cfg s e t) : Tracking t.nav.live t.lane := by
  cases he with
  | sendGoal => exact h
  | cancel => exact h.beginCancelLive (by simp)
  | unavailable => exact h
  | dispatchStale => exact h
  | dispatchSend _ _ _ hs => exact h.claim _ _ hs
  | dispatchDefer _ _ _ hs =>
      refine h.beginCancelLive fun _ hn => ?_
      rw [LiveGoal.canSend_of_none _ _ hn] at hs
      cases hs
  | @sendGoalAsync q hc =>
      refine h.of_update (by simp [hc]) (by simp [Lane.Consistent]) (by simp) fun hq => ?_
      have hp := h.pending_of_client (Or.inl (hq ▸ hc))
      simp [LiveGoal.Agrees, hp]
  | cancelGoalAsync => exact h.of_server (h.lanes _)
  | rejected hc hr => exact h.markLiveDone (by simp [hc]) rfl (by simp [Lane.terminated, hr])
  | accepted hc ha hq =>
      subst hq
      exact h.accepted hc rfl ha
  | superseded hc ha hq =>
      exact h.of_update (by simp [hc]) ha (by simp) (fun he => absurd he hq)
  | resultDone hc hst => exact h.markLiveDone (by simp [hc]) rfl (by simp [Lane.terminated, hst])
  | finishCurrent => exact h
  | finishStale => exact h
  | runCallback => exact h
  | feedback => exact h
  | plan => exact h
  | @accept q hr =>
      have hl : Lane.Consistent { s.lane q with server := .running } :=
        (h.lanes q).answer hr (by simp)
      exact h.of_clients (client_accept q) (hl.update fun p => (h.lanes p).preempted)
  | reject hr => exact h.of_server ((h.lanes _).answer hr (by simp))
  | terminate hr => exact h.of_server ((h.lanes _).ended hr _)

end Tracking

/-- The logical goal a thread may still dispatch. -/
def Thread.right : Thread κ R → Option Nat
  | .waitServer d | .dispatch d => some d.goalId
  | .cancelGoalAsync _ => none
  | .finish _ _ onIdle | .runCallback _ _ _ onIdle => onIdle.map Dispatch.goalId

/-- The logical goal `_on_live_idle` will dispatch. -/
def LiveGoal.right (l : LiveGoal R) : Multiset Nat := l.onIdle.elim 0 fun d => {d.goalId}

/-- The logical goals of the sequence numbers taken so far. -/
def laneGoals (lane : Nat → Lane) (seq : Nat) : Multiset Nat :=
  (Multiset.range seq).map fun i => (lane (i + 1)).goalId

@[simp] theorem items_cancelCall (handle : Option Nat) :
    Pool.items Thread.right (cancelCall handle : Multiset (Thread κ R)) = 0 := by
  cases handle with
  | none => rfl
  | some q => simp [cancelCall, Pool.itemOf, Thread.right]

@[simp] theorem items_idleCall (onIdle : Option (Dispatch R)) :
    Pool.items Thread.right (idleCall onIdle : Multiset (Thread κ R)) =
      onIdle.elim 0 fun d => {d.goalId} := by
  cases onIdle with
  | none => rfl
  | some d => simp [idleCall, Pool.itemOf, Thread.right]

@[simp] theorem itemOf_finish (g : Nat) (r : NavigationResult) (o : Option (Dispatch R)) :
    Pool.itemOf Thread.right (.finish g r o : Thread κ R) = o.elim 0 fun d => {d.goalId} := by
  cases o <;> rfl

@[simp] theorem itemOf_runCallback (g : Nat) (cb : κ) (r : NavigationResult)
    (o : Option (Dispatch R)) :
    Pool.itemOf Thread.right (.runCallback g cb r o : Thread κ R) =
      o.elim 0 fun d => {d.goalId} := by
  cases o <;> rfl

theorem laneGoals_congr {lane lane' : Nat → Lane} {seq : Nat}
    (h : ∀ q, (lane' q).goalId = (lane q).goalId) : laneGoals lane' seq = laneGoals lane seq := by
  simp only [laneGoals, h]

theorem laneGoals_claim (lane : Nat → Lane) (seq g : Nat) :
    laneGoals (Function.update lane (seq + 1) (.claim g)) (seq + 1) = g ::ₘ laneGoals lane seq := by
  have hrest : ∀ i ∈ Multiset.range seq,
      (Function.update lane (seq + 1) (.claim g) (i + 1)).goalId = (lane (i + 1)).goalId := by
    intro i hi
    have hne : i + 1 ≠ seq + 1 := by have := Multiset.mem_range.mp hi; omega
    rw [Function.update_of_ne hne]
  simp only [laneGoals, Multiset.range_succ, Multiset.map_cons, Multiset.map_congr rfl hrest]
  simp [Lane.claim]

theorem Lane.terminated_congr {l l' : Lane} (h : l'.server = l.server) :
    l'.terminated = l.terminated := by
  simp only [Lane.terminated, h]

@[simp] theorem Lane.preempt_goalId (l : Lane) : l.preempt.goalId = l.goalId := by
  unfold Lane.preempt; split <;> rfl

@[simp] theorem LiveGoal.right_beginCancelLive (l : LiveGoal R) :
    l.beginCancelLive.1.right = l.right := by
  simp [LiveGoal.right]

/-- The handling of a goal's end hands the deferred dispatch over, if it takes it at all. -/
theorem LiveGoal.right_markLiveDone (l : LiveGoal R) (q : Nat) :
    ((l.markLiveDone q).2.elim 0 fun d => {d.goalId}) + (l.markLiveDone q).1.right = l.right := by
  unfold LiveGoal.markLiveDone
  split <;> simp [LiveGoal.right]

namespace NavSystem

/-- Every right to dispatch a logical goal, and every one that was used. -/
def rights (s : NavSystem κ R) : Multiset Nat :=
  Pool.items Thread.right s.threads + s.nav.live.right + laneGoals s.lane s.nav.live.seq

/-- No goal is dispatched twice: it has at most one right, and none before its `send_goal`. -/
structure Rights (s : NavSystem κ R) : Prop where
  nodup : s.rights.Nodup
  issued : ∀ g ∈ s.rights, g ≤ s.nav.logical.goalId

variable {cfg : NavConfig R} {s t : NavSystem κ R} {e : NavEvent κ R}

private theorem rights_le
    (hh : Pool.items Thread.right t.threads + t.nav.live.right ≤
      Pool.items Thread.right s.threads + s.nav.live.right)
    (hseq : t.nav.live.seq = s.nav.live.seq)
    (hg : ∀ q, (t.lane q).goalId = (s.lane q).goalId) : t.rights ≤ s.rights := by
  unfold rights
  rw [hseq, laneGoals_congr hg]
  exact add_le_add_left hh _

/-- A goal's end is handled by a new thread. -/
private theorem rights_markLiveDone {g q : Nat} {r : NavigationResult} {lane : Nat → Lane}
    (hg : ∀ q, (lane q).goalId = (s.lane q).goalId) :
    rights
      { nav := { s.nav with live := (s.nav.live.markLiveDone q).1 }
        lane := lane
        threads := .finish g r (s.nav.live.markLiveDone q).2 ::ₘ s.threads } ≤ s.rights := by
  refine rights_le (le_of_eq ?_) (by simp) hg
  have h := s.nav.live.right_markLiveDone q
  simp only [Pool.items_cons, itemOf_finish]
  rw [← h]
  abel

private theorem itemOf_dispatching {d : Dispatch R} {old : Thread κ R}
    (he : Dispatching e d old) : Pool.itemOf Thread.right old = {d.goalId} := by
  obtain ⟨_, rfl⟩ | ⟨_, rfl⟩ := he <;> rfl

variable [DecidableEq κ] [LinearOrder R]

private theorem rights_advance {old : Thread κ R} {new : Multiset (Thread κ R)}
    {logical : LogicalGoal κ R} (hm : old ∈ s.threads)
    (hle : Pool.items Thread.right new ≤ Pool.itemOf Thread.right old) :
    rights { s with nav := { s.nav with logical := logical }
                    threads := Pool.advance s.threads old new } ≤ s.rights :=
  rights_le (add_le_add_left (Pool.items_advance_le hm hle) _) rfl fun _ => rfl

variable [Field R]

/-- Only `send_goal` issues a right, for the goal id it takes. -/
theorem rights_step (he : Effect cfg s e t) :
    (t.rights ≤ s.rights ∧ t.nav.logical.goalId = s.nav.logical.goalId) ∨
      (t.rights = (s.nav.logical.goalId + 1) ::ₘ s.rights ∧
        t.nav.logical.goalId = s.nav.logical.goalId + 1) := by
  cases he with
  | sendGoal =>
      refine Or.inr ⟨?_, rfl⟩
      simp [rights, sendGoal, WaypointNavigator.sendGoal, Pool.itemOf, Thread.right,
        LogicalGoal.begin, Multiset.singleton_add]
  | cancel =>
      refine Or.inl ⟨rights_le ?_ (by simp [cancel, WaypointNavigator.cancel]) fun _ => rfl, rfl⟩
      have hitems : Pool.items Thread.right s.cancel.threads + s.cancel.nav.live.right =
          Pool.items Thread.right s.threads := by
        simp [cancel, WaypointNavigator.cancel, LiveGoal.right]
      rw [hitems]
      exact Multiset.le_add_right _ _
  | unavailable hm =>
      refine Or.inl ⟨rights_advance hm ?_, rfl⟩
      rw [Pool.items_singleton]
      exact Multiset.zero_le _
  | dispatchStale he hm hc => exact Or.inl ⟨rights_advance hm (Multiset.zero_le _), rfl⟩
  | @dispatchSend _ d old he hm hc hs =>
      refine Or.inl ⟨le_of_eq ?_, rfl⟩
      simp only [rights, LiveGoal.claim, laneGoals_claim, LiveGoal.right]
      rw [Pool.items_erase hm, itemOf_dispatching he, ← Multiset.singleton_add]
      simp only [Pool.advance, zero_add]
      abel
  | @dispatchDefer _ d old he hm hc hs =>
      refine Or.inl ⟨rights_le ?_ (by simp) fun _ => rfl, rfl⟩
      rw [Pool.items_erase hm, itemOf_dispatching he]
      have hd : ({ s.nav.live with onIdle := some d } : LiveGoal R).right = {d.goalId} := rfl
      simp only [Pool.advance, Pool.items_add, items_cancelCall, zero_add,
        LiveGoal.right_beginCancelLive, hd]
      rw [add_comm _ ({d.goalId} : Multiset Nat)]
      exact Multiset.le_add_right _ _
  | sendGoalAsync => exact Or.inl ⟨rights_le le_rfl rfl (lane_update Lane.goalId rfl), rfl⟩
  | cancelGoalAsync hm =>
      exact Or.inl ⟨rights_le (add_le_add_left (Pool.items_advance_le hm (Multiset.zero_le _)) _) rfl
        (lane_update Lane.goalId rfl), rfl⟩
  | rejected => exact Or.inl ⟨rights_markLiveDone (lane_update Lane.goalId rfl), rfl⟩
  | accepted => exact Or.inl ⟨rights_le (by simp [LiveGoal.right]) rfl (lane_update Lane.goalId rfl), rfl⟩
  | superseded => exact Or.inl ⟨rights_le le_rfl rfl (lane_update Lane.goalId rfl), rfl⟩
  | resultDone => exact Or.inl ⟨rights_markLiveDone (lane_update Lane.goalId rfl), rfl⟩
  | finishCurrent hm hc =>
      refine Or.inl ⟨rights_advance hm ?_, rfl⟩
      split <;> simp
  | finishStale hm => exact Or.inl ⟨rights_advance hm (by simp), rfl⟩
  | runCallback hm => exact Or.inl ⟨rights_advance hm (by simp), rfl⟩
  | @feedback q msg now =>
      refine Or.inl ⟨rights_le ?_ rfl fun _ => rfl, ?_⟩
      · unfold feedback
        dsimp only
        split <;> simp
      · exact (s.nav.logical.feedbackCallback_same cfg _ msg now).1
  | plan => exact Or.inl ⟨rights_le le_rfl rfl fun _ => rfl, (s.nav.logical.planCallback_same cfg _).1⟩
  | accept =>
      refine Or.inl ⟨rights_le le_rfl rfl fun p => ?_, rfl⟩
      exact (lane_update Lane.goalId (by simp) p).trans (Lane.preempt_goalId _)
  | reject => exact Or.inl ⟨rights_le le_rfl rfl (lane_update Lane.goalId rfl), rfl⟩
  | terminate => exact Or.inl ⟨rights_le le_rfl rfl (lane_update Lane.goalId rfl), rfl⟩

namespace Rights

omit [DecidableEq κ] [LinearOrder R] in
theorem boot (stallDistance : R) : (NavSystem.boot stallDistance : NavSystem κ R).Rights where
  nodup := by simp [rights, NavSystem.boot, WaypointNavigator.init, LiveGoal.init, LiveGoal.right,
    laneGoals]
  issued := by simp [rights, NavSystem.boot, WaypointNavigator.init, LiveGoal.init, LiveGoal.right,
    laneGoals]

theorem step (h : s.Rights) (he : Effect cfg s e t) : t.Rights := by
  obtain ⟨hle, hid⟩ | ⟨heq, hid⟩ := rights_step he
  · refine ⟨Multiset.nodup_of_le hle h.nodup, fun g hg => ?_⟩
    rw [hid]
    exact h.issued g (Multiset.mem_of_le hle hg)
  · have hfresh : s.nav.logical.goalId + 1 ∉ s.rights := fun hm => by
      have := h.issued _ hm
      omega
    refine ⟨heq ▸ Multiset.nodup_cons.mpr ⟨hfresh, h.nodup⟩, fun g hg => ?_⟩
    rw [heq, Multiset.mem_cons] at hg
    rw [hid]
    rcases hg with rfl | hg
    · exact le_rfl
    · exact (h.issued g hg).trans (Nat.le_succ _)

end Rights

end NavSystem

end MgRobot.Sequencer
