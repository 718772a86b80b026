import MgRobot.Localization.StateMachine
import Mathlib.Algebra.Order.Ring.Int

/-!
# Runs of the supervisor

A run is a list of steps, each with its time and its checks. What `attached`
says, which states occur, how ISOLATE and ATTACH alternate and how many REINITs
a recovery takes follow from what one step can do.
-/

namespace MgRobot.Localization

set_option autoImplicit false

open MgRobot.Lib.Runs

variable {R : Type*}

namespace SupervisorMachine

section Run

variable [Sub R] [LE R] [DecidableLE R] (cfg : MachineConfig R)

/-- `step` as a step of a run; it is enabled in every state. -/
def next (m : SupervisorMachine R) (e : R × Checks) : Option (SupervisorMachine R) :=
  some (m.step cfg e.1 e.2).1

/-- The actions of the decision `step` returns. -/
def emitted (m : SupervisorMachine R) (e : R × Checks) : List Action :=
  (m.step cfg e.1 e.2).2.actions

end Run

variable {cfg : MachineConfig R} {m m' u : SupervisorMachine R} {e : R × Checks}
  {now : R} {checks : Checks} {r : SupervisorMachine R × Decision}

/-- The states in which the machine holds AMCL off the EKF. -/
def detachedStates : List State := [.isolated, .recovering, .degraded]

/-- `attached`, `attempts` and the reachable states. -/
structure Coherent (cfg : MachineConfig R) (m : SupervisorMachine R) : Prop where
  attached_iff : m.attached = false ↔ cfg.recoveryEnabled = true ∧ m.state ∈ detachedStates
  enabled : m.state = .isolated ∨ m.state = .recovering → cfg.recoveryEnabled = true
  attempts_le : m.state = .recovering → (m.attempts : Int) ≤ max 1 cfg.maxReinitAttempts

theorem coherent_init [Zero R] : Coherent cfg init where
  attached_iff := by simp [init, detachedStates]
  enabled := by simp [init]
  attempts_le := by simp [init]

/-- The machine switches AMCL off with ISOLATE and on with ATTACH, and does nothing else to it. -/
def gateActions (actions : List Action) : List Action :=
  actions.filter fun a => a = .isolate ∨ a = .attach

theorem Effect.coherent (h : Coherent cfg m) (he : Effect cfg m now checks r) :
    Coherent cfg r.1 := by
  have ha := h.attached_iff
  have hen := h.enabled
  cases he with
  | calm hs | suspected hs | alerted hs hd | isolated hs hd | cleared hs | watched hs | held hs
  | recovered hs | gaveUp hs | alertCleared hs hd | alertHeld hs hd | degradedHeld hs hd =>
      constructor <;> simp_all [detachedStates, resetCounters]
  | recoveryStarted hs =>
      constructor
      · rcases hs with hs | ⟨hs, hd⟩ <;> simp_all [detachedStates, startRecovery]
      · rcases hs with hs | ⟨hs, hd⟩ <;> simp_all
      · simp [startRecovery]
  | confirming hs =>
      have hle := h.attempts_le hs
      constructor
      · simpa using ha
      · simpa using hen
      · rw [attempts_countOk, attempts_updateRuns]
        exact fun _ => hle
  | retried hs hlt =>
      constructor
      · simp_all [detachedStates]
      · simp_all
      · intro _
        rw [le_max_iff]
        right
        show ((m.attempts + 1 : Nat) : Int) ≤ cfg.maxReinitAttempts
        omega

/-- With recovery disabled a step neither isolates nor reinitialises. -/
theorem Effect.disabled (h : Coherent cfg m) (he : Effect cfg m now checks r)
    (hd : cfg.recoveryEnabled = false) : .isolate ∉ r.2.actions ∧ .reinit ∉ r.2.actions := by
  have hen := h.enabled
  cases he with
  | isolated hs he => rw [hd] at he; cases he
  | retried hs => have h' := hen (Or.inr hs); rw [hd] at h'; cases h'
  | recoveryStarted hs =>
      rcases hs with hs | ⟨_, he⟩
      · have h' := hen (Or.inl hs)
        rw [hd] at h'
        cases h'
      · rw [hd] at he
        cases he
  | _ => exact ⟨by simp, by simp⟩

/-- With recovery enabled a step leaves the gate alone or turns it over. -/
theorem Effect.gate (h : Coherent cfg m) (he : Effect cfg m now checks r)
    (hd : cfg.recoveryEnabled = true) :
    gateActions r.2.actions = [] ∧ r.1.attached = m.attached ∨
      gateActions r.2.actions = [if m.attached then .isolate else .attach] ∧
        r.1.attached = !m.attached := by
  have ha := h.attached_iff
  cases he with
  | isolated hs =>
      have hm : m.attached = true := by simp_all [detachedStates]
      right
      rw [hm]
      exact ⟨rfl, rfl⟩
  | recovered hs =>
      have hm : m.attached = false := by simp_all [detachedStates]
      right
      rw [hm]
      exact ⟨rfl, rfl⟩
  | alertCleared hs he => rw [hd] at he; cases he
  | alertHeld hs he => rw [hd] at he; cases he
  | confirming | gaveUp | retried | watched =>
      left
      exact ⟨rfl, by simp⟩
  | _ => exact Or.inl ⟨rfl, rfl⟩

/-- A recovery goes on, with its REINITs counted, or it ends in NORMAL or DEGRADED. -/
theorem Effect.recovering (he : Effect cfg m now checks r) (hs : m.state = .recovering) :
    r.1.state = .recovering ∧ r.2.actions.count .reinit + m.attempts = r.1.attempts ∨
      (r.1.state = .normal ∨ r.1.state = .degraded) ∧ .reinit ∉ r.2.actions := by
  cases he with
  | recovered => exact Or.inr ⟨Or.inl rfl, by simp⟩
  | gaveUp => exact Or.inr ⟨Or.inr rfl, by simp⟩
  | confirming => exact Or.inl ⟨by simp [hs], by simp⟩
  | retried => exact Or.inl ⟨rfl, Nat.add_comm 1 m.attempts⟩
  | recoveryStarted h => rcases h with h | ⟨h, _⟩ <;> rw [hs] at h <;> cases h
  | calm h | suspected h | alerted h | isolated h | cleared h | watched h | held h
  | alertCleared h | alertHeld h | degradedHeld h => rw [hs] at h; cases h

/-- A recovery begins with its first REINIT. -/
theorem Effect.enters (he : Effect cfg m now checks r) (hs : m.state ≠ .recovering)
    (hs' : r.1.state = .recovering) : r.2.actions = [.reinit] ∧ r.1.attempts = 1 := by
  cases he with
  | recoveryStarted => exact ⟨rfl, rfl⟩
  | retried h | confirming h => exact absurd h hs
  | watched h | alertHeld h =>
      rw [state_countClear, state_updateRuns, h] at hs'
      cases hs'
  | held h | degradedHeld h => rw [state_updateRuns, h] at hs'; cases hs'
  | calm | suspected | alerted | isolated | cleared | recovered | gaveUp | alertCleared =>
      cases hs'

variable [Sub R] [LE R] [DecidableLE R] {es : List (R × Checks)}

theorem coherent_next (h : Coherent cfg m) (hn : next cfg m e = some m') : Coherent cfg m' := by
  obtain rfl := Option.some.inj hn
  exact step_effect.coherent h

theorem coherent_run [Zero R] (hr : exec (next cfg) init es = some m) : Coherent cfg m :=
  invariant_of_step (fun _ _ _ h hn => coherent_next h hn) coherent_init hr

/-- The steps of `es` are taken before the machine is back in NORMAL or DEGRADED. -/
def InEpisode (cfg : MachineConfig R) (m : SupervisorMachine R) (es : List (R × Checks)) : Prop :=
  Meets (next cfg) (fun m _ => m.state ≠ .normal ∧ m.state ≠ .degraded) m es

theorem not_mem_outputs_disabled (hd : cfg.recoveryEnabled = false) (h : Coherent cfg m) :
    .isolate ∉ outputs (next cfg) (emitted cfg) m es ∧
      .reinit ∉ outputs (next cfg) (emitted cfg) m es := by
  induction es generalizing m with
  | nil => exact ⟨by simp [outputs], by simp [outputs]⟩
  | cons e rest ih =>
      have hnext : next cfg m e = some (m.step cfg e.1 e.2).1 := rfl
      obtain ⟨h1, h2⟩ := step_effect.disabled h hd
      obtain ⟨h3, h4⟩ := ih (coherent_next h hnext)
      rw [outputs_cons hnext, List.mem_append, List.mem_append]
      exact ⟨not_or.mpr ⟨h1, h3⟩, not_or.mpr ⟨h2, h4⟩⟩

/-- The rest of a recovery has as many REINITs as attempts are left. -/
theorem count_reinit_add_attempts_le (h : Coherent cfg m) (hs : m.state = .recovering)
    (hin : InEpisode cfg m es) :
    ((outputs (next cfg) (emitted cfg) m es).count .reinit + m.attempts : Int) ≤
      max 1 cfg.maxReinitAttempts := by
  induction es generalizing m with
  | nil =>
      have hle := h.attempts_le hs
      show ((0 : Nat) : Int) + m.attempts ≤ _
      omega
  | cons e rest ih =>
      have hnext : next cfg m e = some (m.step cfg e.1 e.2).1 := rfl
      have hin' : InEpisode cfg (m.step cfg e.1 e.2).1 rest := hin.2 _ hnext
      rw [outputs_cons hnext, List.count_append]
      rcases step_effect.recovering hs with
        ⟨hst, hc⟩ | ⟨hst, hc⟩
      · have hle := ih (coherent_next h hnext) hst hin'
        rw [← hc] at hle
        show (((emitted cfg m e).count .reinit + _ : Nat) : Int) + _ ≤ _
        rw [emitted]
        push_cast at hle ⊢
        omega
      · have hrest : rest = [] := by
          cases rest with
          | nil => rfl
          | cons e' rest => rcases hst with hst | hst <;> simp [InEpisode, Meets, hst] at hin'
        have hle := h.attempts_le hs
        subst hrest
        rw [emitted, List.count_eq_zero_of_not_mem hc]
        show ((0 : Nat) : Int) + m.attempts ≤ _
        omega

/-- What holds of every run of the supervisor, for every configuration: `attached` is false
exactly in the detached states of an enabled recovery; a disabled recovery only alerts; an
enabled one alternates ISOLATE and ATTACH; and one recovery has at most
`max(1, max_reinit_attempts)` REINITs. -/
theorem attached_alternation_attempts [Zero R] (cfg : MachineConfig R) (es : List (R × Checks))
    (m : SupervisorMachine R) (hr : exec (next cfg) init es = some m) :
    (m.attached = false ↔ cfg.recoveryEnabled = true ∧
      (m.state = .isolated ∨ m.state = .recovering ∨ m.state = .degraded)) ∧
    (cfg.recoveryEnabled = false →
      (m.state = .normal ∨ m.state = .suspect ∨ m.state = .degraded) ∧
      .isolate ∉ outputs (next cfg) (emitted cfg) init es ∧
      .reinit ∉ outputs (next cfg) (emitted cfg) init es) ∧
    (cfg.recoveryEnabled = true →
      Alternates .isolate .attach (gateActions (outputs (next cfg) (emitted cfg) init es))) ∧
    (∀ pre e mid m1 m2, es = pre ++ e :: mid → exec (next cfg) init pre = some m1 →
      next cfg m1 e = some m2 → m1.state ≠ .recovering → m2.state = .recovering →
      InEpisode cfg m2 mid →
      ((outputs (next cfg) (emitted cfg) m1 (e :: mid)).count .reinit : Int) ≤
        max 1 cfg.maxReinitAttempts) := by
  have h := coherent_run hr
  refine ⟨?_, ?_, ?_, ?_⟩
  · have ha := h.attached_iff
    simpa [detachedStates] using ha
  · intro hd
    refine ⟨?_, not_mem_outputs_disabled hd coherent_init⟩
    have hen := h.enabled
    cases hs : m.state <;> simp_all
  · intro hd
    rw [gateActions, filter_outputs]
    refine alternates_outputs attached (I := Coherent cfg) ?_ coherent_init hr
    intro s a t hc hn
    refine ⟨coherent_next hc hn, ?_⟩
    obtain rfl := Option.some.inj hn
    exact step_effect.gate hc hd
  · intro pre e mid m1 m2 _ hpre hn hs hs' hin
    have hc := coherent_run hpre
    obtain ⟨hacts, hatt⟩ : emitted cfg m1 e = [.reinit] ∧ m2.attempts = 1 := by
      obtain rfl := Option.some.inj hn
      exact step_effect.enters hs hs'
    have hle := count_reinit_add_attempts_le (coherent_next hc hn) hs' hin
    rw [outputs_cons hn, hacts, List.count_append, List.count_singleton_self]
    rw [hatt] at hle
    push_cast at hle ⊢
    omega

/-- Six rounds of GNSS disagreement, the reinitialisation, and one round of convergence. -/
def recoveredRun : List (ℤ × Checks) :=
  (List.range 6).map (fun (i : Nat) => ((i : ℤ), ({ gnss := some true } : Checks))) ++
    [(8, ({} : Checks)), (9, ({ converged := some true } : Checks))]

theorem attached_alternation_attempts_recovered :
    let cfg : MachineConfig ℤ :=
      { MachineConfig.defaults with recoveryEnabled := true, recoverOkTicks := 1 }
    let acts := gateActions (outputs (next cfg) (emitted cfg) init recoveredRun)
    acts = [.isolate, .attach] ∧ Alternates .isolate .attach acts := by
  refine ⟨by decide +kernel, ?_⟩
  exact (attached_alternation_attempts _ recoveredRun _ rfl).2.2.1 rfl

end SupervisorMachine

end MgRobot.Localization
