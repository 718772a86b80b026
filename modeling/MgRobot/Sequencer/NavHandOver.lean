import MgRobot.Sequencer.NavInvariant

/-!
# The order of claims and the order of sends

`_dispatch` takes its sequence number under the lock and hands its goal to the
action client after it. When no goal is handed over before an older one, the
goal handed over last is the newest one; a goal that is handed over before an
older one can make the older one the last.
-/

namespace MgRobot.Sequencer

open MgRobot.Lib

set_option autoImplicit false

variable {κ R : Type*}

/-- `send_goal_async` was called for the goal. -/
def Lane.HandedOver (l : Lane) : Prop := l.client ≠ .unclaimed ∧ l.client ≠ .claimed

/-- The goal was handed over last in a run. -/
def LastHandedOver (es : List (NavEvent κ R)) (q : Nat) : Prop :=
  ∃ es₁ es₂, es = es₁ ++ .sendGoalAsync q :: es₂ ∧ ∀ e ∈ es₂, ∀ r, e ≠ .sendGoalAsync r

namespace NavSystem

/-- No dispatch is between its claim and its hand-over. -/
def DispatchesDone (s : NavSystem κ R) : Prop := ∀ q, (s.lane q).client ≠ .claimed

/-- A goal is handed over only when every older one was. -/
def HandsOverInTurn (s : NavSystem κ R) : NavEvent κ R → Prop
  | .sendGoalAsync q => ∀ p < q, (s.lane p).client ≠ .claimed
  | _ => True

instance decidableHandsOverInTurn (s : NavSystem κ R) : ∀ e, Decidable (s.HandsOverInTurn e)
  | .sendGoalAsync q => inferInstanceAs (Decidable (∀ p < q, (s.lane p).client ≠ .claimed))
  | .sendGoal .. | .cancel | .serverReady _ | .serverUnavailable _ | .dispatch _
  | .cancelGoalAsync _ | .goalResponse _ | .resultDone _ | .finish .. | .runCallback ..
  | .feedback .. | .plan _ | .accept _ | .reject _ | .terminate .. => isTrue trivial

/-- Nav2 answers its requests in the order of their sequence numbers. -/
def AnswersInTurn (s : NavSystem κ R) : NavEvent κ R → Prop
  | .accept q | .reject q => ∀ p < q, (s.lane p).server ≠ .requested
  | _ => True

/-- No goal was handed over before an older one. -/
def InTurn (s : NavSystem κ R) : Prop :=
  ∀ p r, p < r → (s.lane r).HandedOver → (s.lane p).client ≠ .claimed

/-- A goal that Nav2 accepted has ended every older one. -/
def Preempting (s : NavSystem κ R) : Prop :=
  ∀ p r, 1 ≤ p → p < r → (s.lane r).Accepted → (s.lane p).terminated = true

variable {s t : NavSystem κ R} {e : NavEvent κ R}

theorem InTurn.of_clients (h : s.InTurn) (hc : ∀ q, (t.lane q).client = (s.lane q).client) :
    t.InTurn := by
  intro p r hpr hr
  simp only [Lane.HandedOver, hc] at hr ⊢
  exact h p r hpr hr

theorem handedOver_of_clients (hc : ∀ q, (t.lane q).client = (s.lane q).client) (q : Nat) :
    (t.lane q).HandedOver ↔ (s.lane q).HandedOver := by
  simp only [Lane.HandedOver, hc]

/-- A client step on a goal that was handed over. -/
theorem InTurn.update (h : s.InTurn) {q : Nat} {l : Lane} {nav : WaypointNavigator κ R}
    {threads : Multiset (Thread κ R)} (hq : (s.lane q).HandedOver) (hl : l.client ≠ .claimed) :
    InTurn ⟨nav, Function.update s.lane q l, threads⟩ := by
  intro p r hpr hr
  have hr : (s.lane r).HandedOver := by
    by_cases hrq : r = q
    · exact hrq ▸ hq
    · simpa [Function.update_of_ne hrq] using hr
  by_cases hpq : p = q
  · subst hpq; simpa using hl
  · simpa [Function.update_of_ne hpq] using h p r hpr hr

variable [DecidableEq κ] [LinearOrder R] [Field R] {cfg : NavConfig R}

theorem InTurn.step (h : s.InTurn) (ht : Tracking s.nav.live s.lane) (he : Effect cfg s e t)
    (hq : s.HandsOverInTurn e) : t.InTurn := by
  cases he with
  | dispatchSend =>
      intro p r hpr hr
      by_cases hrq : r = s.nav.live.seq + 1
      · simp [Lane.HandedOver, Lane.claim, hrq] at hr
      · have hr : (s.lane r).HandedOver := by simpa [Function.update_of_ne hrq] using hr
        have hle := (ht.seq_pos hr.1).2
        simpa [Function.update_of_ne (show p ≠ s.nav.live.seq + 1 by omega)] using h p r hpr hr
  | @sendGoalAsync q hc =>
      intro p r hpr hr
      by_cases hpq : p = q
      · subst hpq
        simp [sendGoalAsync, setLane]
      · simp only [sendGoalAsync, setLane, Function.update_of_ne hpq]
        by_cases hrq : r = q
        · exact hq p (hrq ▸ hpr)
        · exact h p r hpr (by simpa [sendGoalAsync, setLane, hrq] using hr)
  | cancelGoalAsync => exact h.of_clients (lane_update Lane.client rfl)
  | rejected hc | accepted hc | superseded hc | resultDone hc =>
      exact h.update (by simp [Lane.HandedOver, hc]) (by simp)
  | accept => exact h.of_clients (client_accept _)
  | reject | terminate => exact h.of_clients (lane_update Lane.client rfl)
  | _ => exact h.of_clients fun _ => rfl

omit [DecidableEq κ] [LinearOrder R] [Field R] in
theorem Preempting.of_servers (h : s.Preempting)
    (hs : ∀ q, (t.lane q).server = (s.lane q).server) : t.Preempting := by
  intro p r h1 hpr hr
  rw [Lane.terminated_congr (hs p)]
  exact h p r h1 hpr (by simpa only [Lane.Accepted, hs] using hr)

omit [DecidableEq κ] [LinearOrder R] [Field R] in
/-- A step on one goal in Nav2 that accepts nothing. -/
theorem Preempting.setLane (h : s.Preempting) {q : Nat} {l : Lane}
    (ha : l.Accepted → (s.lane q).Accepted)
    (ht : (s.lane q).terminated = true → l.terminated = true) : (s.setLane q l).Preempting := by
  intro p r h1 hpr hr
  have hr' : (s.lane r).Accepted := by
    by_cases hrq : r = q
    · subst hrq
      exact ha (by simpa [NavSystem.setLane] using hr)
    · simpa [NavSystem.setLane, hrq] using hr
  have hterm := h p r h1 hpr hr'
  by_cases hpq : p = q
  · subst hpq
    simpa [NavSystem.setLane] using ht hterm
  · simpa [NavSystem.setLane, hpq] using hterm

omit [DecidableEq κ] [LinearOrder R] [Field R] in
theorem Lane.preempt_terminated {l : Lane} (h : l.terminated = true) :
    l.preempt.terminated = true := by
  unfold Lane.preempt
  split
  · rfl
  · exact h

omit [DecidableEq κ] [LinearOrder R] [Field R] in
/-- Nav2 accepts a goal after every older one. -/
theorem Preempting.accept (h : s.Preempting) (hi : s.InTurn) (ht : Tracking s.nav.live s.lane)
    {q : Nat} (hr : (s.lane q).server = .requested)
    (hq : ∀ p < q, (s.lane p).server ≠ .requested) : (s.accept q).Preempting := by
  have hsent := (ht.lanes q).client_eq_sent hr
  intro p r h1 hpr hacc
  by_cases hrq : r = q
  · -- an older goal was answered before, and whatever ran of them ends now
    subst hrq
    have hne : p ≠ r := by omega
    simp only [NavSystem.accept, Function.update_of_ne hne]
    have hclaimed := hi p r hpr (by simp [Lane.HandedOver, hsent])
    have hl := ht.lanes p
    have hu : (s.lane p).client ≠ .unclaimed :=
      (ht.claimed p).mpr ⟨h1, (Nat.le_of_lt hpr).trans (ht.seq_pos (by simp [hsent])).2⟩
    have hnr := hq p hpr
    cases hsv : (s.lane p).server with
    | absent => cases hc : (s.lane p).client <;> simp_all [Lane.Consistent, Lane.Accepted, Lane.terminated]
    | requested => exact absurd hsv hnr
    | running => simp [Lane.preempt, hsv, Lane.terminated]
    | rejected | ended => simp [Lane.preempt, hsv, Lane.terminated]
  · have hold : (s.lane r).Accepted := by
      simp only [NavSystem.accept, Function.update_of_ne hrq, Lane.Accepted, Lane.preempt] at hacc
      split at hacc
      · exact Or.inl ‹_›
      · exact hacc
    have hterm := h p r h1 hpr hold
    by_cases hpq : p = q
    · rw [hpq, Lane.terminated, hr] at hterm
      cases hterm
    · simp only [NavSystem.accept, Function.update_of_ne hpq]
      exact Lane.preempt_terminated hterm

theorem Preempting.step (h : s.Preempting) (hi : s.InTurn) (ht : Tracking s.nav.live s.lane)
    (he : Effect cfg s e t) (hq : s.AnswersInTurn e) : t.Preempting := by
  cases he with
  | @dispatchSend _ d =>
      exact h.of_servers (lane_update Lane.server (l := .claim d.goalId)
        (ht.absent_of_lt (Nat.lt_succ_self _)).symm)
  | @sendGoalAsync q hc =>
      have hl := ht.lanes q
      simp only [Lane.Consistent, hc] at hl
      exact h.setLane (by simp [Lane.Accepted]) (by simp [Lane.terminated, hl])
  | accept hr => exact h.accept hi ht hr hq
  | reject hr => exact h.setLane (by simp [Lane.Accepted]) (by simp [Lane.terminated])
  | terminate hr => exact h.setLane (fun _ => Or.inl hr) (by simp [Lane.terminated])
  | cancelGoalAsync | rejected | accepted | superseded | resultDone =>
      exact h.of_servers (lane_update Lane.server rfl)
  | _ => exact h.of_servers fun _ => rfl

/-- Only `send_goal_async` hands a goal over, and none is taken back. -/
theorem handedOver_step (ht : Tracking s.nav.live s.lane) (he : Effect cfg s e t) (q : Nat)
    (hne : e ≠ .sendGoalAsync q) : (t.lane q).HandedOver ↔ (s.lane q).HandedOver := by
  have hupdate : ∀ {p : Nat} {l : Lane}, (s.lane p).HandedOver → l.HandedOver →
      ((Function.update s.lane p l q).HandedOver ↔ (s.lane q).HandedOver) := by
    intro p l hp hl
    by_cases hqp : q = p
    · subst hqp; simp [hp, hl]
    · rw [Function.update_of_ne hqp]
  cases he with
  | dispatchSend =>
      by_cases hq : q = s.nav.live.seq + 1
      · have hfresh : ¬ (s.lane q).HandedOver := fun hh => by
          have := (ht.seq_pos hh.1).2
          omega
        simp only [hfresh, iff_false]
        simp [hq, Lane.HandedOver, Lane.claim]
      · simp only [Function.update_of_ne hq]
  | @sendGoalAsync p =>
      have hqp : q ≠ p := by rintro rfl; exact hne rfl
      simp [sendGoalAsync, setLane, hqp]
  | cancelGoalAsync | reject | terminate => exact handedOver_of_clients (lane_update Lane.client (by rfl)) q
  | rejected hc | accepted hc | superseded hc | resultDone hc =>
      exact hupdate (by simp [Lane.HandedOver, hc]) (by simp [Lane.HandedOver])
  | accept => exact handedOver_of_clients (client_accept _) q
  | _ => exact Iff.rfl

/-- In turn, the goal handed over last is the newest once every dispatch is done. -/
theorem last_eq_newest {s₁ s₂ : NavSystem κ R} {q : Nat} {es : List (NavEvent κ R)}
    (ht₁ : Tracking s₁.nav.live s₁.lane) (hi : s₁.InTurn)
    (hq : s₁.step cfg (.sendGoalAsync q) = some s₂)
    (hes : ∀ e ∈ es, ∀ r, e ≠ .sendGoalAsync r) (h : Runs.exec (NavSystem.step cfg) s₂ es = some s)
    (hdone : s.DispatchesDone) : q = s.nav.live.seq := by
  have ht₂ := ht₁.step (step_effect hq)
  -- the later events hand nothing over
  have hkeep : Tracking s.nav.live s.lane ∧
      ∀ r, (s.lane r).HandedOver ↔ (s₂.lane r).HandedOver :=
    Runs.invariant_of_mem (I := fun s => Tracking s.nav.live s.lane ∧
        ∀ r, (s.lane r).HandedOver ↔ (s₂.lane r).HandedOver)
      (fun s e t he hI hst =>
        ⟨hI.1.step (step_effect hst), fun r =>
          (handedOver_step hI.1 (step_effect hst) r (hes e he r)).trans (hI.2 r)⟩)
      ⟨ht₂, fun _ => Iff.rfl⟩ h
  obtain ⟨ht, hkeep⟩ := hkeep
  obtain ⟨hclaimed, hs₂⟩ := Option.ite_none_right_eq_some.mp hq
  obtain rfl := Option.some.inj hs₂
  have hqs : (s.lane q).HandedOver :=
    (hkeep q).mpr (by simp [sendGoalAsync, setLane, Lane.HandedOver])
  by_contra hne
  have hlt : q < s.nav.live.seq := lt_of_le_of_ne (ht.seq_pos hqs.1).2 hne
  -- the newest goal was handed over before, in front of an older one
  have hnew : (s.lane s.nav.live.seq).HandedOver :=
    ⟨(ht.claimed _).mpr ⟨by omega, le_rfl⟩, hdone _⟩
  have hnew₁ : (s₁.lane s.nav.live.seq).HandedOver := by
    have h₂ := (hkeep _).mp hnew
    simpa [sendGoalAsync, setLane, Ne.symm hne] using h₂
  exact hi q _ hlt hnew₁ hclaimed

/-- Every dispatch under way but one can complete. -/
theorem exec_drain (cfg : NavConfig R) (ht : Tracking s.nav.live s.lane) (p n : Nat) :
    ∃ es u, Runs.exec (NavSystem.step cfg) s es = some u ∧ u.nav = s.nav ∧
      ∀ r, (u.lane r).client = .claimed ↔ (s.lane r).client = .claimed ∧ (r = p ∨ n < r) := by
  induction n with
  | zero =>
      refine ⟨[], s, rfl, rfl, fun r => ⟨fun hr => ⟨hr, Or.inr ?_⟩, And.left⟩⟩
      exact (ht.seq_pos (by simp [hr])).1
  | succ n ih =>
      obtain ⟨es, u, hu, hnav, hclient⟩ := ih
      by_cases hc : (u.lane (n + 1)).client = .claimed ∧ n + 1 ≠ p
      · have hstep : u.step cfg (.sendGoalAsync (n + 1)) = some (u.sendGoalAsync (n + 1)) := by
          simp [step, hc.1]
        refine ⟨_, _, Runs.exec_snoc hu hstep, hnav, fun r => ?_⟩
        by_cases hr : r = n + 1
        · subst hr
          simp [sendGoalAsync, setLane, hc.2]
        · simp only [sendGoalAsync, setLane, Function.update_of_ne hr, hclient]
          refine and_congr_right fun _ => or_congr_right ?_
          omega
      · refine ⟨es, u, hu, hnav, fun r => ?_⟩
        by_cases hr : r = n + 1
        · subst hr
          constructor
          · intro hcl
            exact ⟨((hclient _).mp hcl).1, Or.inl (not_not.mp fun hne => hc ⟨hcl, hne⟩)⟩
          · rintro ⟨hcl, hp | hlt⟩
            · exact (hclient _).mpr ⟨hcl, Or.inl hp⟩
            · omega
        · rw [hclient]
          refine and_congr_right fun _ => or_congr_right ?_
          omega

/-- The condition is exact: after a hand-over out of turn the dispatches under way can complete
with an older goal handed over last. -/
theorem overtaken_of_not_handsOverInTurn (ht : Tracking s.nav.live s.lane)
    (he : s.step cfg e = some t) (hv : ¬ s.HandsOverInTurn e) :
    ∃ es u p, Runs.exec (NavSystem.step cfg) t es = some u ∧ LastHandedOver es p ∧
      u.DispatchesDone ∧ p ≠ u.nav.live.seq := by
  cases e with
  | sendGoalAsync q =>
      simp only [HandsOverInTurn, not_forall, not_not] at hv
      obtain ⟨p, hpq, hp⟩ := hv
      have ht' := ht.step (step_effect he)
      obtain ⟨hq, ⟨⟩⟩ := Option.ite_none_right_eq_some.mp he
      have hqle := (ht.seq_pos (q := q) (by simp [hq])).2
      obtain ⟨es, u, hu, hnav, hclient⟩ := exec_drain cfg ht' p s.nav.live.seq
      have hpt : ((s.sendGoalAsync q).lane p).client = .claimed := by
        simpa [sendGoalAsync, setLane, Nat.ne_of_lt hpq] using hp
      have hpu : (u.lane p).client = .claimed := (hclient p).mpr ⟨hpt, Or.inl rfl⟩
      have hstep : u.step cfg (.sendGoalAsync p) = some (u.sendGoalAsync p) := by
        simp [step, hpu]
      refine ⟨_, _, p, Runs.exec_snoc hu hstep, ⟨es, [], rfl, by simp⟩, fun r hr => ?_, ?_⟩
      · by_cases hrp : r = p
        · simp [hrp, sendGoalAsync, setLane] at hr
        · have hr' : (u.lane r).client = .claimed := by
            simpa [sendGoalAsync, setLane, hrp] using hr
          obtain ⟨hrt, hlt⟩ := (hclient r).mp hr'
          have hle := (ht'.seq_pos (q := r) (by simp [hrt])).2
          exact absurd (hlt.resolve_left hrp) (Nat.not_lt.mpr hle)
      · have hseq : (u.sendGoalAsync p).nav.live.seq = s.nav.live.seq := by
          rw [show (u.sendGoalAsync p).nav = u.nav from rfl, hnav]
          rfl
        omega
  | _ => exact absurd trivial hv

/-- What a run that hands over in turn keeps. -/
def Ordered (s : NavSystem κ R) : Prop := Tracking s.nav.live s.lane ∧ s.InTurn

theorem Ordered.step (h : s.Ordered) (he : s.step cfg e = some t) (hq : s.HandsOverInTurn e) :
    t.Ordered :=
  ⟨h.1.step (step_effect he), h.2.step h.1 (step_effect he) hq⟩

omit [DecidableEq κ] [LinearOrder R] in
theorem Ordered.boot (stallDistance : R) : (NavSystem.boot stallDistance : NavSystem κ R).Ordered :=
  ⟨.init, fun _ _ _ hr => absurd rfl hr.1⟩

/-- **Claims and sends keep one order.** In every run in which no goal is handed over before an
older one, the goal handed over last is the newest once every dispatch is done, and when Nav2
answers in turn the goal it runs is that one, unless its answer is pending or was a rejection.
A hand-over out of turn can always end with an older goal handed over last. -/
theorem last_handed_over_is_newest {stallDistance : R} {es : List (NavEvent κ R)}
    (h : Runs.exec (NavSystem.step cfg) (.boot stallDistance) es = some s)
    (hm : Runs.Meets (NavSystem.step cfg) HandsOverInTurn (.boot stallDistance) es) :
    (s.DispatchesDone → ∀ q, LastHandedOver es q → q = s.nav.live.seq) ∧
      (Runs.Meets (NavSystem.step cfg) AnswersInTurn (.boot stallDistance) es → s.DispatchesDone →
        ∀ q, (s.lane q).server = .running → q = s.nav.live.seq ∨
          (s.lane s.nav.live.seq).server = .requested ∨
          (s.lane s.nav.live.seq).server = .rejected) ∧
      ∀ e t, s.step cfg e = some t → ¬ s.HandsOverInTurn e →
        ∃ es' u p, Runs.exec (NavSystem.step cfg) t es' = some u ∧ LastHandedOver es' p ∧
          u.DispatchesDone ∧ p ≠ u.nav.live.seq := by
  have ht := (Runs.invariant (fun s e t hI hq he => hI.step he hq) (Ordered.boot stallDistance)
    hm h).1
  refine ⟨?_, ?_, fun e t => overtaken_of_not_handsOverInTurn ht⟩
  · rintro hdone q ⟨es₁, es₂, rfl, hes⟩
    obtain ⟨s₁, h₁, h₂⟩ := Runs.exec_append_iff.mp h
    obtain ⟨s₂, hq, h₂⟩ := Runs.exec_cons_iff.mp h₂
    obtain ⟨ht₁, hi₁⟩ := Runs.invariant (fun s e t hI hq he => hI.step he hq)
      (Ordered.boot stallDistance) (Runs.Meets.left hm) h₁
    exact last_eq_newest ht₁ hi₁ hq hes h₂ hdone
  · intro ha hdone q hr
    have hpre : s.Preempting :=
      (Runs.invariant (I := fun s => s.Ordered ∧ s.Preempting)
        (fun s e t hI hq he =>
          ⟨hI.1.step he hq.1, hI.2.step hI.1.2 hI.1.1 (step_effect he) hq.2⟩)
        ⟨.boot stallDistance, fun p r _ _ hr => by
          simp [NavSystem.boot, Lane.unclaimed, Lane.Accepted] at hr⟩
        (hm.and ha) h).2
    by_contra hne
    simp only [not_or] at hne
    obtain ⟨hq, hreq, hrej⟩ := hne
    have hu : (s.lane q).client ≠ .unclaimed := fun hu => by
      have hl := ht.lanes q
      simp [Lane.Consistent, hu, hr] at hl
    obtain ⟨h1, hle⟩ := ht.seq_pos hu
    have hnew : (s.lane s.nav.live.seq).Accepted := by
      have hl := ht.lanes s.nav.live.seq
      have hcl := (ht.claimed s.nav.live.seq).mpr ⟨h1.trans hle, le_rfl⟩
      have hdn := hdone s.nav.live.seq
      unfold Lane.Accepted
      cases hsv : (s.lane s.nav.live.seq).server with
      | absent => cases hc : (s.lane s.nav.live.seq).client <;>
          simp_all [Lane.Consistent, Lane.Accepted, Lane.terminated]
      | requested => exact absurd hsv hreq
      | rejected => exact absurd hsv hrej
      | running => exact Or.inl rfl
      | ended st => exact Or.inr ⟨st, rfl⟩
    have hterm := hpre q _ h1 (lt_of_le_of_ne hle hq) hnew
    rw [Lane.terminated, hr] at hterm
    cases hterm

/-- A deferred dispatch claims its sequence number, and a newer `send_goal` of the same
behaviour tree claims and sends before it. -/
def overtakingRun : List (NavEvent Unit ℚ) :=
  [.sendGoal (.stop 1) () "normal" 0, .serverReady (.toStop 1 1 "normal"), .sendGoalAsync 1,
    .accept 1, .goalResponse 1,
    .sendGoal (.stop 2) () "queue_wait" 0, .serverReady (.toStop 2 2 "queue_wait"),
    .cancelGoalAsync 1, .terminate 1 .canceled, .resultDone 1,
    .finish 1 .canceled (some (.toStop 2 2 "queue_wait")), .dispatch (.toStop 2 2 "queue_wait"),
    .sendGoal (.stop 3) () "queue_wait" 0, .serverReady (.toStop 3 3 "queue_wait"),
    .sendGoalAsync 3, .sendGoalAsync 2]

/-- Of three claimed sequence numbers none waits for its call. -/
theorem dispatchesDone_of_three {es : List (NavEvent Unit ℚ)} {s : NavSystem Unit ℚ}
    (hs : Runs.exec (NavSystem.step .axes) (.boot (1 / 2)) es = some s)
    (hseq : s.nav.live.seq = 3) (h1 : (s.lane 1).client ≠ .claimed)
    (h2 : (s.lane 2).client ≠ .claimed) (h3 : (s.lane 3).client ≠ .claimed) :
    s.DispatchesDone := by
  intro q hc
  have ht : Tracking s.nav.live s.lane :=
    Runs.invariant_of_step (I := fun s => Tracking s.nav.live s.lane)
      (fun s e t hI he => hI.step (step_effect he)) .init hs
  have hq := ht.seq_pos (q := q) (by simp [hc])
  obtain rfl | rfl | rfl : q = 1 ∨ q = 2 ∨ q = 3 := by omega
  · exact h1 hc
  · exact h2 hc
  · exact h3 hc

theorem older_goal_handed_over_last :
    ¬ ∀ (es : List (NavEvent Unit ℚ)) (s : NavSystem Unit ℚ) (q : Nat),
      Runs.exec (NavSystem.step .axes) (.boot (1 / 2)) es = some s → s.DispatchesDone →
        LastHandedOver es q → q = s.nav.live.seq := by
  intro h
  obtain ⟨s, hs, hseq, h1, h2, h3⟩ : ∃ s : NavSystem Unit ℚ,
      Runs.exec (NavSystem.step .axes) (.boot (1 / 2)) overtakingRun = some s ∧
        s.nav.live.seq = 3 ∧ (s.lane 1).client ≠ .claimed ∧ (s.lane 2).client ≠ .claimed ∧
        (s.lane 3).client ≠ .claimed := Runs.exists_exec (by decide +kernel)
  have h23 := h _ s 2 hs (dispatchesDone_of_three hs hseq h1 h2 h3)
    ⟨overtakingRun.dropLast, [], rfl, by simp⟩
  omega

/-- The same goals, with the deferred one handed over first. -/
def orderlyRun : List (NavEvent Unit ℚ) :=
  overtakingRun.dropLast.dropLast ++ [.sendGoalAsync 2, .sendGoalAsync 3]

/-- All dispatches are done, and the goal handed over last is the newest. -/
theorem newest_goal_handed_over_last : ∃ s : NavSystem Unit ℚ,
    Runs.exec (NavSystem.step .axes) (.boot (1 / 2)) orderlyRun = some s ∧ s.DispatchesDone ∧
      LastHandedOver orderlyRun 3 ∧ 3 = s.nav.live.seq := by
  obtain ⟨s, hs, hseq, h1, h2, h3⟩ : ∃ s : NavSystem Unit ℚ,
      Runs.exec (NavSystem.step .axes) (.boot (1 / 2)) orderlyRun = some s ∧
        s.nav.live.seq = 3 ∧ (s.lane 1).client ≠ .claimed ∧ (s.lane 2).client ≠ .claimed ∧
        (s.lane 3).client ≠ .claimed := Runs.exists_exec (by decide +kernel)
  have hm : Runs.Meets (NavSystem.step .axes) HandsOverInTurn (.boot (1 / 2)) orderlyRun := by
    decide +kernel
  have hdone := dispatchesDone_of_three hs hseq h1 h2 h3
  have hlast : LastHandedOver orderlyRun 3 := ⟨orderlyRun.dropLast, [], rfl, by simp⟩
  exact ⟨s, hs, hdone, hlast, (last_handed_over_is_newest hs hm).1 hdone 3 hlast⟩

end NavSystem

end MgRobot.Sequencer
