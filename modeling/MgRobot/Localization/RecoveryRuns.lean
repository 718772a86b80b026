import MgRobot.Localization.SupervisorRuns
import Mathlib.Algebra.Order.Group.Defs
import Mathlib.Algebra.Order.Sub.Basic

/-!
# What a recovery waits for

The counter and the time stamps of a recovery against the whole run. AMCL comes
back only on a count of confirmations that no REINIT and no contrary verdict
interrupts, and the holds between ISOLATE, the REINITs and DEGRADED are kept
through retries and through a new series.
-/

namespace MgRobot.Localization

set_option autoImplicit false

open MgRobot.Lib.Runs

variable {R : Type*}

/-- One step of a run: what it was given and what it emitted. -/
structure Tick (R : Type*) where
  now : R
  checks : Checks
  actions : List Action
  deriving DecidableEq, Repr

namespace Tick

/-- The tick starts the confirmation over: it reinitialises, or its verdicts are against AMCL. -/
def startsOver (t : Tick R) : Bool :=
  decide (.reinit ∈ t.actions) || t.checks.gnss == some true || t.checks.converged == some false

/-- The ticks with `converged` since the last one that starts over. -/
def confirmations (l : List (Tick R)) : Nat :=
  (l.reverse.takeWhile fun t => !t.startsOver).countP fun t => t.checks.converged == some true

/-- The time of the last ISOLATE. -/
def isolatedAt (l : List (Tick R)) : Option R :=
  (l.reverse.find? fun t => decide (.isolate ∈ t.actions)).map Tick.now

variable {l : List (Tick R)} {t : Tick R}

theorem confirmations_snoc : confirmations (l ++ [t]) =
    if t.startsOver then 0
    else confirmations l + if t.checks.converged = some true then 1 else 0 := by
  rw [confirmations, List.reverse_append, List.reverse_singleton, List.singleton_append]
  by_cases hs : t.startsOver = true
  · simp [hs]
  · rw [Bool.not_eq_true] at hs
    rw [List.takeWhile_cons_of_pos (by rw [hs]; rfl), List.countP_cons]
    simp [hs, confirmations]

theorem isolatedAt_snoc : isolatedAt (l ++ [t]) =
    if .isolate ∈ t.actions then some t.now else isolatedAt l := by
  rw [isolatedAt, List.reverse_append, List.reverse_singleton, List.singleton_append]
  by_cases hi : .isolate ∈ t.actions <;> simp [hi, isolatedAt]

end Tick

namespace SupervisorMachine

variable {cfg : MachineConfig R} {m m' m1 m2 : SupervisorMachine R} {e : R × Checks}
  {now : R} {checks : Checks} {r : SupervisorMachine R × Decision}

section Guards

variable [Sub R] [LE R] [DecidableLE R]

/-- What a REINIT waits for. -/
inductive ReinitDue (cfg : MachineConfig R) (m : SupervisorMachine R) (now : R) : Prop
  | hold (hs : m.state = .isolated) (ht : cfg.isolateHoldSec ≤ now - m.isolatedAt)
  | timeout (hs : m.state = .recovering) (ht : cfg.recoverTimeoutSec ≤ now - m.reinitAt)
  | retry (hs : m.state = .degraded) (ht : cfg.degradedRetrySec ≤ now - m.degradedAt)

theorem reinitDue (h : .reinit ∈ (m.step cfg now checks).2.actions) : ReinitDue cfg m now := by
  have hr : (m.updateRuns checks).reinitAt = m.reinitAt := rfl
  revert h
  simp only [step, state_updateRuns]
  cases hs : m.state with
  | normal => rw [stepNormal]; split_ifs <;> simp
  | suspect => rw [stepSuspect]; split_ifs <;> simp
  | isolated =>
      rw [stepIsolated]
      split_ifs with ht
      · exact fun _ => .hold hs ht
      · simp
  | recovering =>
      obtain ⟨n, hn⟩ : ∃ n, (m.updateRuns checks).countOk checks = _ := countOk_eq
      rw [stepRecovering, hn]
      split_ifs with _ ht
      · simp
      · exact fun _ => .timeout hs ht
      · simp
      · simp
  | degraded =>
      rw [stepDegraded]
      split_ifs with _ _ ht
      · simp
      · simp
      · exact fun _ => .retry hs ht
      · simp

/-- An ATTACH of an enabled recovery is confirmed in RECOVERING, and comes alone. -/
theorem attach_confirmed (hd : cfg.recoveryEnabled = true)
    (h : .attach ∈ (m.step cfg now checks).2.actions) :
    m.state = .recovering ∧
      cfg.recoverOkTicks ≤ ((m.updateRuns checks).countOk checks).okRun ∧
      (m.step cfg now checks).2.actions = [.attach] := by
  revert h
  simp only [step, state_updateRuns]
  cases hs : m.state with
  | normal => rw [stepNormal]; split_ifs <;> simp
  | suspect => rw [stepSuspect]; split_ifs <;> simp
  | isolated => rw [stepIsolated]; split_ifs <;> simp [startRecovery]
  | recovering =>
      rw [stepRecovering]
      split_ifs with ht
      · exact fun _ => ⟨rfl, ht, rfl⟩
      all_goals simp
  | degraded =>
      rw [stepDegraded, if_neg (by rw [hd]; decide)]
      split_ifs <;> simp [startRecovery]

/-- `attached` is set by an ATTACH only. -/
theorem attach_of_attached (hd : cfg.recoveryEnabled = true) (h : Coherent cfg m)
    (hm : m.attached = false) (hm' : (m.step cfg now checks).1.attached = true) :
    .attach ∈ (m.step cfg now checks).2.actions := by
  rcases step_effect.gate h hd with ⟨_, ha⟩ | ⟨hg, _⟩
  · cases hm.symm.trans (ha.symm.trans hm')
  · rw [hm] at hg
    have hmem : Action.attach ∈ gateActions (m.step cfg now checks).2.actions := by simp [hg]
    exact (List.mem_filter.mp hmem).1

/-- The ticks of a run. -/
def ticks (cfg : MachineConfig R) (m : SupervisorMachine R) (es : List (R × Checks)) :
    List (Tick R) :=
  outputs (next cfg) (fun m e => [⟨e.1, e.2, emitted cfg m e⟩]) m es

theorem ticks_snoc {es : List (R × Checks)} (hr : exec (next cfg) m es = some m') :
    ticks cfg m (es ++ [e]) = ticks cfg m es ++ [⟨e.1, e.2, emitted cfg m' e⟩] :=
  outputs_snoc hr rfl

/-- The times of a run do not go back. -/
def NonDecreasing (es : List (R × Checks)) : Prop := (es.map Prod.fst).Pairwise (· ≤ ·)

instance (es : List (R × Checks)) : Decidable (NonDecreasing es) :=
  inferInstanceAs (Decidable (List.Pairwise _ _))

omit [Sub R] [DecidableLE R] in
theorem NonDecreasing.le_of_mem {pre mid : List (R × Checks)}
    (h : NonDecreasing (pre ++ e :: mid)) : ∀ x ∈ mid, e.1 ≤ x.1 := by
  rw [NonDecreasing, List.map_append, List.pairwise_append] at h
  intro x hx
  exact List.rel_of_pairwise_cons h.2.1 (List.mem_map_of_mem hx)

omit [Sub R] [DecidableLE R] in
theorem NonDecreasing.snoc_iff {es : List (R × Checks)} : NonDecreasing (es ++ [e]) ↔
    NonDecreasing es ∧ ∀ x ∈ es, x.1 ≤ e.1 := by
  simp [NonDecreasing, List.pairwise_append]

end Guards

/-- A REINIT is stamped. -/
theorem Effect.reinitAt_eq (he : Effect cfg m now checks r) (h : .reinit ∈ r.2.actions) :
    r.1.reinitAt = now := by
  cases he with
  | recoveryStarted | retried => rfl
  | _ => simp at h

/-- The entry into DEGRADED of an enabled recovery is stamped. -/
theorem Effect.degradedAt_eq (he : Effect cfg m now checks r) (hd : cfg.recoveryEnabled = true)
    (hs : m.state ≠ .degraded) (hs' : r.1.state = .degraded) : r.1.degradedAt = now := by
  cases he with
  | gaveUp => rfl
  | alerted _ he => cases hd.symm.trans he
  | alertHeld h | degradedHeld h => exact absurd h hs
  | watched h =>
      rw [state_countClear, state_updateRuns, h] at hs'
      cases hs'
  | held h => cases h.symm.trans hs'
  | confirming h =>
      rw [state_countOk, state_updateRuns, h] at hs'
      cases hs'
  | _ => cases hs'

theorem okRun_countOk_le {n : Nat} {actions : List Action} (h : m.okRun ≤ n)
    (hr : .reinit ∉ actions) : (m.countOk checks).okRun ≤
      if (⟨now, checks, actions⟩ : Tick R).startsOver then 0
      else n + if checks.converged = some true then 1 else 0 := by
  unfold countOk
  split_ifs with hbad hs hs hok hs hok <;> simp_all [Tick.startsOver]

variable [AddCommGroup R] [LinearOrder R] {es mid : List (R × Checks)}

/-- What the time stamps and the counter of the machine say about the run, when `now` is not
before any of its steps. -/
structure Recovery (cfg : MachineConfig R) (l : List (Tick R)) (now : R)
    (m : SupervisorMachine R) : Prop where
  okRun_le : m.state = .recovering → m.okRun ≤ Tick.confirmations l
  isolated : m.state ∈ detachedStates → Tick.isolatedAt l = some m.isolatedAt
  isolated_le : m.state ∈ detachedStates → m.isolatedAt ≤ now
  reinit_held : m.state = .recovering → cfg.isolateHoldSec ≤ m.reinitAt - m.isolatedAt
  reinit_le : m.state = .recovering → m.reinitAt ≤ now
  degraded_held : m.state = .degraded → cfg.isolateHoldSec ≤ m.degradedAt - m.isolatedAt
  degraded_le : m.state = .degraded → m.degradedAt ≤ now

theorem Recovery.init : Recovery cfg ([] : List (Tick R)) now init := by
  constructor <;> simp [SupervisorMachine.init, detachedStates]

theorem Recovery.later {l : List (Tick R)} {later : R} (h : Recovery cfg l now m)
    (hle : now ≤ later) : Recovery cfg l later m :=
  { h with
    isolated_le := fun hs => (h.isolated_le hs).trans hle
    reinit_le := fun hs => (h.reinit_le hs).trans hle
    degraded_le := fun hs => (h.degraded_le hs).trans hle }

/-- NORMAL and SUSPECT have nothing to keep. -/
theorem Recovery.of_attached {l : List (Tick R)} (hs : m.state = .normal ∨ m.state = .suspect) :
    Recovery cfg l now m := by
  rcases hs with hs | hs <;> constructor <;> simp [hs, detachedStates]

/-- Within one series of attempts the last REINIT only gets later. -/
theorem le_reinitAt {a : R} (ha : a ≤ m.reinitAt) (hle : ∀ x ∈ mid, a ≤ x.1)
    (hin : Meets (next cfg) (fun m _ => m.state = .recovering) m mid)
    (hr : exec (next cfg) m mid = some m') : a ≤ m'.reinitAt := by
  induction mid generalizing m with
  | nil =>
      obtain rfl := Option.some.inj hr
      exact ha
  | cons x rest ih =>
      obtain ⟨v, hv, hr⟩ := exec_cons_iff.mp hr
      refine ih ?_ (fun y hy => hle y (List.mem_cons_of_mem x hy)) (hin.2 v hv) hr
      have hs : m.state = .recovering := hin.1
      have hx : a ≤ x.1 := hle x List.mem_cons_self
      have he : Effect cfg m x.1 x.2 (m.step cfg x.1 x.2) := step_effect
      obtain rfl := Option.some.inj hv
      revert he
      generalize m.step cfg x.1 x.2 = r
      intro he
      obtain ⟨n, hn⟩ : ∃ n, (m.updateRuns x.2).countOk x.2 = _ := countOk_eq
      cases he with
      | recovered | gaveUp | confirming => rw [hn]; exact ha
      | retried => exact hx
      | recoveryStarted => exact hx
      | calm hs' | suspected hs' | alerted hs' | isolated hs' | cleared hs' | watched hs'
      | held hs' | alertCleared hs' | alertHeld hs' | degradedHeld hs' =>
          cases hs.symm.trans hs'

/-- DEGRADED keeps the time it was entered. -/
theorem degradedAt_eq
    (hin : Meets (next cfg) (fun m _ => m.state = .degraded) m (mid ++ [e]))
    (hr : exec (next cfg) m mid = some m') : m'.degradedAt = m.degradedAt := by
  induction mid generalizing m with
  | nil =>
      obtain rfl := Option.some.inj hr
      rfl
  | cons x rest ih =>
      obtain ⟨v, hv, hr⟩ := exec_cons_iff.mp hr
      rw [ih (hin.2 v hv) hr]
      have hs : m.state = .degraded := hin.1
      have he : Effect cfg m x.1 x.2 (m.step cfg x.1 x.2) := step_effect
      obtain rfl := Option.some.inj hv
      revert he
      generalize m.step cfg x.1 x.2 = r
      intro he
      cases he with
      | recoveryStarted | alertCleared | degradedHeld => rfl
      | alertHeld =>
          obtain ⟨n, hn⟩ : ∃ n, (m.updateRuns x.2).countClear x.2 = _ := countClear_eq
          rw [hn]
          rfl
      | calm hs' | suspected hs' | alerted hs' | isolated hs' | cleared hs' | watched hs'
      | held hs' | recovered hs' | retried hs' | gaveUp hs' | confirming hs' =>
          cases hs.symm.trans hs'

variable [IsOrderedAddMonoid R]

theorem Recovery.effect {l : List (Tick R)} (h : Recovery cfg l now m)
    (hd : cfg.recoveryEnabled = true) (he : Effect cfg m now checks r)
    (hdue : .reinit ∈ r.2.actions → ReinitDue cfg m now) :
    Recovery cfg (l ++ [⟨now, checks, r.2.actions⟩]) now r.1 := by
  have hlast : .isolate ∉ r.2.actions → m.state ∈ detachedStates →
      Tick.isolatedAt (l ++ [⟨now, checks, r.2.actions⟩]) = some m.isolatedAt := by
    intro hi hs
    rw [Tick.isolatedAt_snoc, if_neg hi]
    exact h.isolated hs
  have hheld : m.state = .recovering → cfg.isolateHoldSec ≤ now - m.isolatedAt := fun hs =>
    (h.reinit_held hs).trans (sub_le_sub_right (h.reinit_le hs) _)
  cases he with
  | calm | cleared | recovered => exact .of_attached (Or.inl rfl)
  | suspected => exact .of_attached (Or.inr rfl)
  | watched hs => exact .of_attached (Or.inr (by rw [state_countClear, state_updateRuns, hs]))
  | alerted _ he | alertCleared _ he | alertHeld _ he =>
      rw [hd] at he
      cases he
  | isolated =>
      constructor
      case isolated =>
        intro _
        rw [Tick.isolatedAt_snoc]
        exact if_pos List.mem_cons_self
      case isolated_le => exact fun _ => le_rfl
      all_goals
        intro hs''
        cases hs''
  | held hs =>
      have hs' : m.state ∈ detachedStates := by rw [hs]; decide
      constructor
      case isolated => exact fun _ => hlast (by simp) hs'
      case isolated_le => exact fun _ => h.isolated_le hs'
      all_goals
        intro hs''
        cases hs.symm.trans hs''
  | recoveryStarted hs =>
      have hs' : m.state ∈ detachedStates := by
        rcases hs with hs | ⟨hs, _⟩ <;> rw [hs] <;> decide
      constructor
      case okRun_le => exact fun _ => Nat.zero_le _
      case isolated => exact fun _ => hlast (by simp [startRecovery]) hs'
      case isolated_le => exact fun _ => h.isolated_le hs'
      case reinit_held =>
        intro _
        cases hdue List.mem_cons_self with
        | hold _ ht => exact ht
        | timeout hs'' => exact hheld hs''
        | retry hs'' =>
            exact (h.degraded_held hs'').trans (sub_le_sub_right (h.degraded_le hs'') _)
      case reinit_le => exact fun _ => le_rfl
      all_goals
        intro hs''
        cases hs''
  | retried hs =>
      have hs' : m.state ∈ detachedStates := by rw [hs]; decide
      obtain ⟨n, hn⟩ : ∃ n, (m.updateRuns checks).countOk checks = _ := countOk_eq
      rw [hn]
      constructor
      case okRun_le => exact fun _ => Nat.zero_le _
      case isolated => exact fun _ => hlast (by simp) hs'
      case isolated_le => exact fun _ => h.isolated_le hs'
      case reinit_held => exact fun _ => hheld hs
      case reinit_le => exact fun _ => le_rfl
      all_goals
        intro hs''
        cases hs''
  | gaveUp hs =>
      have hs' : m.state ∈ detachedStates := by rw [hs]; decide
      obtain ⟨n, hn⟩ : ∃ n, (m.updateRuns checks).countOk checks = _ := countOk_eq
      rw [hn]
      constructor
      case isolated => exact fun _ => hlast (by simp) hs'
      case isolated_le => exact fun _ => h.isolated_le hs'
      case degraded_held => exact fun _ => hheld hs
      case degraded_le => exact fun _ => le_rfl
      all_goals
        intro hs''
        cases hs''
  | confirming hs =>
      have hs' : m.state ∈ detachedStates := by rw [hs]; decide
      have hok : ((m.updateRuns checks).countOk checks).okRun ≤
          Tick.confirmations (l ++ [⟨now, checks, []⟩]) := by
        rw [Tick.confirmations_snoc]
        exact okRun_countOk_le (h.okRun_le hs) (by simp)
      obtain ⟨n, hn⟩ : ∃ n, (m.updateRuns checks).countOk checks = _ := countOk_eq
      rw [hn] at hok ⊢
      constructor
      case okRun_le => exact fun _ => hok
      case isolated => exact fun _ => hlast (by simp) hs'
      case isolated_le => exact fun _ => h.isolated_le hs'
      case reinit_held => exact fun _ => h.reinit_held hs
      case reinit_le => exact fun _ => h.reinit_le hs
      all_goals
        intro hs''
        cases hs.symm.trans hs''
  | degradedHeld hs =>
      have hs' : m.state ∈ detachedStates := by rw [hs]; decide
      constructor
      case isolated => exact fun _ => hlast (by simp) hs'
      case isolated_le => exact fun _ => h.isolated_le hs'
      case degraded_held => exact fun _ => h.degraded_held hs
      case degraded_le => exact fun _ => h.degraded_le hs
      all_goals
        intro hs''
        cases hs.symm.trans hs''

theorem Recovery.step {l : List (Tick R)} (h : Recovery cfg l e.1 m)
    (hd : cfg.recoveryEnabled = true) :
    Recovery cfg (l ++ [⟨e.1, e.2, emitted cfg m e⟩]) e.1 (m.step cfg e.1 e.2).1 :=
  h.effect hd step_effect reinitDue

theorem recovery_run (hd : cfg.recoveryEnabled = true) (ht : NonDecreasing es)
    (hle : ∀ x ∈ es, x.1 ≤ now) (hr : exec (next cfg) init es = some m) :
    Recovery cfg (ticks cfg init es) now m := by
  have hrun := invariant_of_history (s := init) (t := m)
    (H := fun es m => exec (next cfg) init es = some m ∧ (NonDecreasing es →
      ∀ now, (∀ x ∈ es, x.1 ≤ now) → Recovery cfg (ticks cfg init es) now m)) ?_ ?_ hr
  · exact hrun.2 ht now hle
  · rintro es s e t ⟨hs, h⟩ hn
    refine ⟨exec_snoc hs hn, fun ht now hle => ?_⟩
    rw [NonDecreasing.snoc_iff] at ht
    obtain rfl := Option.some.inj hn
    rw [ticks_snoc hs]
    exact ((h ht.1 e.1 ht.2).step hd).later (hle e (by simp))
  · exact ⟨rfl, fun _ _ _ => .init⟩

/-- In every run of an enabled recovery whose times do not go back: an ATTACH comes in RECOVERING
only, after `recover_ok_ticks` confirmations that no REINIT and no contrary verdict interrupts; a
REINIT comes `isolate_hold_sec` after the last ISOLATE, `recover_timeout_sec` after every other one
of its series, and `degraded_retry_sec` after DEGRADED was entered if it starts a series there. -/
theorem recovery_waits (cfg : MachineConfig R) (es : List (R × Checks)) (e : R × Checks)
    (m : SupervisorMachine R) (hd : cfg.recoveryEnabled = true) (ht : NonDecreasing (es ++ [e]))
    (hr : exec (next cfg) init es = some m) :
    (.attach ∈ emitted cfg m e ∨ m.attached = false ∧ (m.step cfg e.1 e.2).1.attached = true →
      m.state = .recovering ∧
        cfg.recoverOkTicks ≤ Tick.confirmations (ticks cfg init (es ++ [e]))) ∧
    (.reinit ∈ emitted cfg m e → ∃ t, Tick.isolatedAt (ticks cfg init es) = some t ∧
      cfg.isolateHoldSec ≤ e.1 - t) ∧
    (∀ pre a mid m1 m2, es = pre ++ a :: mid → exec (next cfg) init pre = some m1 →
      next cfg m1 a = some m2 → .reinit ∈ emitted cfg m1 a →
      Meets (next cfg) (fun m _ => m.state = .recovering) m2 (mid ++ [e]) →
      .reinit ∈ emitted cfg m e → cfg.recoverTimeoutSec ≤ e.1 - a.1) ∧
    (∀ pre a mid m1 m2, es = pre ++ a :: mid → exec (next cfg) init pre = some m1 →
      next cfg m1 a = some m2 → m1.state ≠ .degraded →
      Meets (next cfg) (fun m _ => m.state = .degraded) m2 (mid ++ [e]) →
      .reinit ∈ emitted cfg m e → cfg.degradedRetrySec ≤ e.1 - a.1) := by
  have hsnoc := NonDecreasing.snoc_iff.mp ht
  have h := recovery_run hd hsnoc.1 hsnoc.2 hr
  refine ⟨fun ha => ?_, fun hi => ?_, ?_, ?_⟩
  · have hatt : .attach ∈ emitted cfg m e := by
      rcases ha with ha | ⟨hm, hm'⟩
      · exact ha
      · exact attach_of_attached hd (coherent_run hr) hm hm'
    obtain ⟨hs, hok, hacts⟩ := attach_confirmed hd hatt
    refine ⟨hs, hok.trans ?_⟩
    rw [ticks_snoc hr, Tick.confirmations_snoc, Int.ofNat_le]
    refine okRun_countOk_le (m := m.updateRuns e.2) (h.okRun_le hs) ?_
    rw [emitted, hacts]
    decide
  · have hs : m.state ∈ detachedStates := by
      cases reinitDue hi with
      | hold hs | timeout hs | retry hs => rw [hs]; decide
    refine ⟨m.isolatedAt, h.isolated hs, ?_⟩
    cases reinitDue hi with
    | hold _ hdue => exact hdue
    | timeout hs => exact (h.reinit_held hs).trans (sub_le_sub_right (h.reinit_le hs) _)
    | retry hs => exact (h.degraded_held hs).trans (sub_le_sub_right (h.degraded_le hs) _)
  · rintro pre a mid m1 m2 rfl hpre ha hreinit hin hi
    obtain ⟨m2', ha', hmid⟩ := exec_after_cons hr hpre
    obtain rfl := Option.some.inj (ha.symm.trans ha')
    have hs : m.state = .recovering := hin.at hmid
    have hfirst : a.1 ≤ m2.reinitAt := by
      obtain rfl := Option.some.inj ha
      exact (step_effect.reinitAt_eq hreinit).ge
    have hle : a.1 ≤ m.reinitAt := le_reinitAt hfirst hsnoc.1.le_of_mem hin.left hmid
    cases reinitDue hi with
    | timeout _ hdue => exact hdue.trans (sub_le_sub_left hle _)
    | hold hs' | retry hs' => cases hs.symm.trans hs'
  · rintro pre a mid m1 m2 rfl hpre ha hs1 hin hi
    obtain ⟨m2', ha', hmid⟩ := exec_after_cons hr hpre
    obtain rfl := Option.some.inj (ha.symm.trans ha')
    have hs : m.state = .degraded := hin.at hmid
    have heq : m.degradedAt = a.1 := by
      rw [degradedAt_eq hin hmid]
      have hs2 : m2.state = .degraded := by
        cases mid with
        | nil => exact hin.1
        | cons => exact hin.1
      obtain rfl := Option.some.inj ha
      exact step_effect.degradedAt_eq hd hs1 hs2
    cases reinitDue hi with
    | retry _ hdue => rw [← heq]; exact hdue
    | hold hs' | timeout hs' => cases hs.symm.trans hs'

/-- An isolation at 5 s and two REINITs that time out. -/
def degradedRun : List (ℤ × Checks) :=
  (List.range 6).map (fun (i : Nat) => ((i : ℤ), ({ gnss := some true } : Checks))) ++
    [(8, ({} : Checks)), (38, ({} : Checks)), (68, ({} : Checks))]

/-- The series that starts in DEGRADED at 130 s is 125 s after the ISOLATE and 62 s after DEGRADED
was entered; one confirmation after the first REINIT attaches AMCL where one is asked for. -/
theorem recovery_waits_degraded :
    let cfg : MachineConfig ℤ :=
      { MachineConfig.defaults with recoveryEnabled := true, maxReinitAttempts := 2 }
    let one : MachineConfig ℤ := { cfg with recoverOkTicks := 1 }
    (∃ t, Tick.isolatedAt (ticks cfg init degradedRun) = some t ∧ cfg.isolateHoldSec ≤ 130 - t) ∧
      cfg.degradedRetrySec ≤ 130 - 68 ∧
      one.recoverOkTicks ≤ Tick.confirmations (ticks one init recoveredRun) := by
  intro cfg one
  obtain ⟨_, hhold, _, hretry⟩ := recovery_waits cfg degradedRun (130, {}) _ rfl
    (by decide +kernel) rfl
  refine ⟨hhold (by decide +kernel), ?_, ?_⟩
  · exact hretry (degradedRun.take 8) (68, {}) [] _ _ rfl rfl rfl (by decide +kernel)
      (by decide +kernel) (by decide +kernel)
  · exact ((recovery_waits one (recoveredRun.take 7) (9, { converged := some true }) _ rfl
      (by decide +kernel) rfl).1 (Or.inl (by decide +kernel))).2

end SupervisorMachine

end MgRobot.Localization
