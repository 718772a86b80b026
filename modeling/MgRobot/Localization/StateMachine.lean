import MgRobot.Lib.Runs

/-!
# SupervisorMachine

The state machine of the localization supervisor. A step reads the time and one
round of checks and answers with a `Decision`. Times are of any type with a
difference and a comparison: no step computes anything else with them.
-/

namespace MgRobot.Localization

set_option autoImplicit false

inductive State where
  | normal | suspect | isolated | recovering | degraded
  deriving DecidableEq, Repr

inductive Action where
  | isolate | reinit | attach | notifyDegraded
  deriving DecidableEq, Repr

structure MachineConfig (R : Type*) where
  gnssSuspectTicks : Int := 3
  gnssIsolateTicks : Int := 6
  scanSuspectTicks : Int := 5
  scanIsolateTicks : Int := 10
  diffSuspectTicks : Int := 5
  diffIsolateTicks : Int := 10
  corroborateTicks : Int := 2
  clearTicks : Int := 5
  isolateHoldSec : R
  recoverOkTicks : Int := 5
  recoverTimeoutSec : R
  maxReinitAttempts : Int := 3
  degradedRetrySec : R
  recoveryEnabled : Bool := false

/-- `MachineConfig()`. -/
def MachineConfig.defaults {R : Type*} [OfNat R 3] [OfNat R 30] [OfNat R 60] : MachineConfig R where
  isolateHoldSec := 3
  recoverTimeoutSec := 30
  degradedRetrySec := 60

/-- One round of verdicts: `some true` is an anomaly, `none` that it cannot be told. -/
structure Checks where
  gnss : Option Bool := none
  jump : Option Bool := none
  scan : Option Bool := none
  diff : Option Bool := none
  converged : Option Bool := none
  deriving DecidableEq, Repr

namespace Checks

variable (c : Checks)

def anomaly : Bool := [c.gnss, c.jump, c.scan, c.diff].any fun v => v == some true

def known : Bool := [c.gnss, c.jump, c.scan, c.diff].any Option.isSome

end Checks

structure Decision where
  state : State
  actions : List Action
  event : String := ""
  deriving DecidableEq, Repr

structure SupervisorMachine (R : Type*) where
  state : State
  attached : Bool
  gnssRun : Nat
  scanRun : Nat
  diffRun : Nat
  jumpSeen : Bool
  clearRun : Nat
  okRun : Nat
  isolatedAt : R
  reinitAt : R
  degradedAt : R
  attempts : Nat
  deriving DecidableEq, Repr

/-- `_run`. -/
def run (count : Nat) : Option Bool → Nat
  | some true => count + 1
  | some false => 0
  | none => count

variable {R : Type*}

namespace SupervisorMachine

/-- `__init__`. -/
def init [Zero R] : SupervisorMachine R where
  state := .normal
  attached := true
  gnssRun := 0
  scanRun := 0
  diffRun := 0
  jumpSeen := false
  clearRun := 0
  okRun := 0
  isolatedAt := 0
  reinitAt := 0
  degradedAt := 0
  attempts := 0

variable (cfg : MachineConfig R) (m : SupervisorMachine R) (now : R) (checks : Checks)

/-- `_reset_counters`. -/
def resetCounters : SupervisorMachine R :=
  { m with gnssRun := 0, scanRun := 0, diffRun := 0, jumpSeen := false, clearRun := 0, okRun := 0 }

/-- `_update_runs`. -/
def updateRuns : SupervisorMachine R :=
  { m with
    gnssRun := run m.gnssRun checks.gnss
    scanRun := run m.scanRun checks.scan
    diffRun := run m.diffRun checks.diff
    jumpSeen := if checks.jump = some true then true else m.jumpSeen }

/-- `_suspect_reason`. -/
def suspectReason : String :=
  if checks.jump = some true then "amcl_jump"
  else if cfg.gnssSuspectTicks ≤ m.gnssRun then "amcl_gnss"
  else if cfg.scanSuspectTicks ≤ m.scanRun then "scan_map"
  else if cfg.diffSuspectTicks ≤ m.diffRun then "amcl_ekf"
  else ""

/-- `_isolate_reason`. -/
def isolateReason : String :=
  if cfg.gnssIsolateTicks ≤ m.gnssRun then "amcl_gnss"
  else if cfg.scanIsolateTicks ≤ m.scanRun then "scan_map"
  else if cfg.diffIsolateTicks ≤ m.diffRun then "amcl_ekf"
  else if m.jumpSeen ∧ cfg.corroborateTicks ≤ max m.gnssRun (max m.scanRun m.diffRun) then
    "amcl_jump"
  else ""

/-- `_start_recovery`. -/
def startRecovery (event : String) : SupervisorMachine R × Decision :=
  ({ m with state := .recovering, reinitAt := now, attempts := 1, okRun := 0 },
    ⟨.recovering, [.reinit], event⟩)

/-- The `_clear_run` bookkeeping of SUSPECT and DEGRADED: the count, and whether it is reached. -/
def countClear : SupervisorMachine R :=
  if checks.known && !checks.anomaly then { m with clearRun := m.clearRun + 1 }
  else if checks.anomaly then { m with clearRun := 0 }
  else m

def clearDone : Bool :=
  checks.known && !checks.anomaly && decide (cfg.clearTicks ≤ (m.countClear checks).clearRun)

/-- `step` in NORMAL, after `_update_runs`. -/
def stepNormal : SupervisorMachine R × Decision :=
  let m := { m with jumpSeen := decide (checks.jump = some true) }
  let reason := m.suspectReason cfg checks
  if reason ≠ "" then
    ({ m with state := .suspect, clearRun := 0 }, ⟨.suspect, [], "suspect: " ++ reason⟩)
  else (m, ⟨m.state, [], ""⟩)

/-- `step` in SUSPECT, after `_update_runs`. -/
def stepSuspect : SupervisorMachine R × Decision :=
  let reason := m.isolateReason cfg
  if reason ≠ "" ∧ cfg.recoveryEnabled = false then
    ({ m with state := .degraded, clearRun := 0 },
      ⟨.degraded, [.notifyDegraded], "alert: " ++ reason⟩)
  else if reason ≠ "" then
    ({ m with state := .isolated, attached := false, isolatedAt := now },
      ⟨.isolated, [.isolate], "isolated: " ++ reason⟩)
  else if m.clearDone cfg checks then
    (resetCounters { m with state := .normal }, ⟨.normal, [], "cleared"⟩)
  else (m.countClear checks, ⟨m.state, [], ""⟩)

/-- `step` in ISOLATED, after `_update_runs`. -/
def stepIsolated [Sub R] [LE R] [DecidableLE R] : SupervisorMachine R × Decision :=
  if cfg.isolateHoldSec ≤ now - m.isolatedAt then m.startRecovery now "reinit"
  else (m, ⟨m.state, [], ""⟩)

/-- The `_ok_run` bookkeeping of RECOVERING. -/
def countOk : SupervisorMachine R :=
  if checks.gnss = some true ∨ checks.converged = some false then { m with okRun := 0 }
  else if checks.converged = some true then { m with okRun := m.okRun + 1 }
  else m

/-- `step` in RECOVERING, after `_update_runs`. -/
def stepRecovering [Sub R] [LE R] [DecidableLE R] : SupervisorMachine R × Decision :=
  let m := m.countOk checks
  if cfg.recoverOkTicks ≤ m.okRun then
    (resetCounters { m with state := .normal, attached := true },
      ⟨.normal, [.attach], "recovered"⟩)
  else if cfg.recoverTimeoutSec ≤ now - m.reinitAt then
    if m.attempts < cfg.maxReinitAttempts then
      let attempts := m.attempts + 1
      ({ m with attempts := attempts, reinitAt := now, okRun := 0 },
        ⟨m.state, [.reinit], "reinit retry " ++ toString attempts⟩)
    else ({ m with state := .degraded, degradedAt := now },
      ⟨.degraded, [.notifyDegraded], "degraded"⟩)
  else (m, ⟨m.state, [], ""⟩)

/-- `step` in DEGRADED, after `_update_runs`. -/
def stepDegraded [Sub R] [LE R] [DecidableLE R] : SupervisorMachine R × Decision :=
  if cfg.recoveryEnabled = false then
    if m.clearDone cfg checks then
      (resetCounters { m with state := .normal }, ⟨.normal, [.attach], "cleared"⟩)
    else (m.countClear checks, ⟨m.state, [], ""⟩)
  else if cfg.degradedRetrySec ≤ now - m.degradedAt then
    m.startRecovery now "retry from degraded"
  else (m, ⟨m.state, [], ""⟩)

def step [Sub R] [LE R] [DecidableLE R] : SupervisorMachine R × Decision :=
  let m := m.updateRuns checks
  match m.state with
  | .normal => m.stepNormal cfg checks
  | .suspect => m.stepSuspect cfg now checks
  | .isolated => m.stepIsolated cfg now
  | .recovering => m.stepRecovering cfg now checks
  | .degraded => m.stepDegraded cfg now checks

variable {cfg m now checks}

theorem suspectReason_jump (h : checks.jump = some true) :
    m.suspectReason cfg checks ≠ "" := by
  rw [suspectReason, if_pos h]
  decide

/-- What names a reason to isolate: a run that is long enough, or a jump another run backs. -/
theorem isolateReason_ne_empty : m.isolateReason cfg ≠ "" ↔
    cfg.gnssIsolateTicks ≤ m.gnssRun ∨ cfg.scanIsolateTicks ≤ m.scanRun ∨
      cfg.diffIsolateTicks ≤ m.diffRun ∨ m.jumpSeen = true ∧
        cfg.corroborateTicks ≤ max m.gnssRun (max m.scanRun m.diffRun) := by
  unfold isolateReason
  split_ifs <;> simp_all

section Effect

variable (cfg m now checks)

/-- What a step can do, with the guard of each branch. -/
inductive Effect : SupervisorMachine R × Decision → Prop
  | calm (hs : m.state = .normal) (hj : checks.jump ≠ some true) :
      Effect ({ m.updateRuns checks with jumpSeen := false, state := .normal },
        ⟨.normal, [], ""⟩)
  | suspected {reason : String} (hs : m.state = .normal) :
      Effect ({ m.updateRuns checks with
          jumpSeen := decide (checks.jump = some true), state := .suspect, clearRun := 0 },
        ⟨.suspect, [], "suspect: " ++ reason⟩)
  | alerted {reason : String} (hs : m.state = .suspect) (he : cfg.recoveryEnabled = false)
      (hr : (m.updateRuns checks).isolateReason cfg ≠ "") :
      Effect ({ m.updateRuns checks with state := .degraded, clearRun := 0 },
        ⟨.degraded, [.notifyDegraded], "alert: " ++ reason⟩)
  | isolated {reason : String} (hs : m.state = .suspect) (he : cfg.recoveryEnabled = true)
      (hr : (m.updateRuns checks).isolateReason cfg ≠ "") :
      Effect ({ m.updateRuns checks with state := .isolated, attached := false, isolatedAt := now },
        ⟨.isolated, [.isolate], "isolated: " ++ reason⟩)
  | cleared (hs : m.state = .suspect) :
      Effect (resetCounters { m.updateRuns checks with state := .normal },
        ⟨.normal, [], "cleared"⟩)
  | watched (hs : m.state = .suspect) (hr : (m.updateRuns checks).isolateReason cfg = "") :
      Effect ((m.updateRuns checks).countClear checks, ⟨.suspect, [], ""⟩)
  | held (hs : m.state = .isolated) : Effect (m.updateRuns checks, ⟨.isolated, [], ""⟩)
  | recoveryStarted {event : String} (hs : m.state = .isolated ∨
        m.state = .degraded ∧ cfg.recoveryEnabled = true) :
      Effect ((m.updateRuns checks).startRecovery now event)
  | recovered (hs : m.state = .recovering) :
      Effect (resetCounters { (m.updateRuns checks).countOk checks with
        state := .normal, attached := true }, ⟨.normal, [.attach], "recovered"⟩)
  | retried (hs : m.state = .recovering) (ha : m.attempts < cfg.maxReinitAttempts) :
      Effect ({ (m.updateRuns checks).countOk checks with
          state := .recovering, attempts := m.attempts + 1, reinitAt := now, okRun := 0 },
        ⟨.recovering, [.reinit], "reinit retry " ++ toString (m.attempts + 1)⟩)
  | gaveUp (hs : m.state = .recovering) :
      Effect ({ (m.updateRuns checks).countOk checks with state := .degraded, degradedAt := now },
        ⟨.degraded, [.notifyDegraded], "degraded"⟩)
  | confirming (hs : m.state = .recovering) :
      Effect ((m.updateRuns checks).countOk checks, ⟨.recovering, [], ""⟩)
  | alertCleared (hs : m.state = .degraded) (he : cfg.recoveryEnabled = false) :
      Effect (resetCounters { m.updateRuns checks with state := .normal },
        ⟨.normal, [.attach], "cleared"⟩)
  | alertHeld (hs : m.state = .degraded) (he : cfg.recoveryEnabled = false) :
      Effect ((m.updateRuns checks).countClear checks, ⟨.degraded, [], ""⟩)
  | degradedHeld (hs : m.state = .degraded) (he : cfg.recoveryEnabled = true) :
      Effect (m.updateRuns checks, ⟨.degraded, [], ""⟩)

end Effect

@[simp] theorem state_updateRuns : (m.updateRuns checks).state = m.state := rfl

@[simp] theorem attached_updateRuns : (m.updateRuns checks).attached = m.attached := rfl

@[simp] theorem attempts_updateRuns : (m.updateRuns checks).attempts = m.attempts := rfl

/-- The fields that only the transitions change. -/
theorem countClear_eq : ∃ n, m.countClear checks = { m with clearRun := n } := by
  unfold countClear
  split_ifs
  exacts [⟨_, rfl⟩, ⟨_, rfl⟩, ⟨m.clearRun, rfl⟩]

theorem countOk_eq : ∃ n, m.countOk checks = { m with okRun := n } := by
  unfold countOk
  split_ifs
  exacts [⟨_, rfl⟩, ⟨_, rfl⟩, ⟨m.okRun, rfl⟩]

@[simp] theorem state_countClear : (m.countClear checks).state = m.state := by
  obtain ⟨n, hn⟩ := countClear_eq (m := m)
  rw [hn]

@[simp] theorem attached_countClear : (m.countClear checks).attached = m.attached := by
  obtain ⟨n, hn⟩ := countClear_eq (m := m)
  rw [hn]

@[simp] theorem attempts_countClear : (m.countClear checks).attempts = m.attempts := by
  obtain ⟨n, hn⟩ := countClear_eq (m := m)
  rw [hn]

@[simp] theorem state_countOk : (m.countOk checks).state = m.state := by
  obtain ⟨n, hn⟩ := countOk_eq (m := m)
  rw [hn]

@[simp] theorem attached_countOk : (m.countOk checks).attached = m.attached := by
  obtain ⟨n, hn⟩ := countOk_eq (m := m)
  rw [hn]

@[simp] theorem attempts_countOk : (m.countOk checks).attempts = m.attempts := by
  obtain ⟨n, hn⟩ := countOk_eq (m := m)
  rw [hn]

variable [Sub R] [LE R] [DecidableLE R]

theorem step_effect : Effect cfg m now checks (m.step cfg now checks) := by
  simp only [step, state_updateRuns]
  cases hs : m.state with
  | normal =>
      rw [stepNormal]
      split_ifs with hr
      · exact .suspected hs
      · rw [state_updateRuns, hs]
        have hj : checks.jump ≠ some true := fun hj => hr (suspectReason_jump hj)
        have hf : decide (checks.jump = some true) = false := decide_eq_false hj
        rw [hf]
        exact .calm hs hj
  | suspect =>
      rw [stepSuspect]
      split_ifs with h1 h2 h3
      · exact .alerted hs h1.2 h1.1
      · have he : cfg.recoveryEnabled = true := by
          rw [← Bool.not_eq_false]
          exact fun he => h1 ⟨h2, he⟩
        exact .isolated hs he h2
      · exact .cleared hs
      · rw [state_updateRuns, hs]
        exact .watched hs (not_not.mp h2)
  | isolated =>
      rw [stepIsolated]
      split_ifs
      · exact .recoveryStarted (Or.inl hs)
      · rw [state_updateRuns, hs]
        exact .held hs
  | recovering =>
      have hst : ((m.updateRuns checks).countOk checks).state = .recovering := by
        rw [state_countOk, state_updateRuns, hs]
      rw [stepRecovering]
      split_ifs with h1 h2 h3
      · exact .recovered hs
      · rw [attempts_countOk, attempts_updateRuns] at h3
        rw [hst, attempts_countOk, attempts_updateRuns]
        exact .retried hs h3
      · exact .gaveUp hs
      · rw [hst]
        exact .confirming hs
  | degraded =>
      rw [stepDegraded]
      split_ifs with h1 h2 h3
      · exact .alertCleared hs h1
      · rw [state_updateRuns, hs]
        exact .alertHeld hs h1
      · exact .recoveryStarted (Or.inr ⟨hs, by rw [← Bool.not_eq_false]; exact h1⟩)
      · rw [state_updateRuns, hs]
        exact .degradedHeld hs (by rw [← Bool.not_eq_false]; exact h1)

end SupervisorMachine

end MgRobot.Localization
