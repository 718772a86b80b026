import MgRobot.Localization.StateMachine
import Mathlib.Data.String.Basic

/-!
# LocalizationSupervisorNode

The supervisor's timer callback and its client of the arbiter's service. What
the checks of a round say and what `_reinit` answers are inputs; everything the
callback does with them is here, and the calls it makes outside, in order.
-/

namespace MgRobot.Localization

set_option autoImplicit false

structure SupervisorConfig (R : Type*) where
  machine : MachineConfig R
  startupGraceSec : R
  graceAfterRecoverySec : R
  actionOnDegraded : String := "warn"
  degradedSpeedLimitPercent : R

/-- The defaults of `_declare_parameters`. -/
def SupervisorConfig.defaults {R : Type*} [OfNat R 3] [OfNat R 10] [OfNat R 30] [OfNat R 60] :
    SupervisorConfig R where
  machine := { MachineConfig.defaults with
    gnssSuspectTicks := 2, gnssIsolateTicks := 3, diffSuspectTicks := 3, diffIsolateTicks := 5 }
  startupGraceSec := 30
  graceAfterRecoverySec := 10
  degradedSpeedLimitPercent := 30

/-- A call on the gate's client, a publisher, the event log or the logger. -/
inductive SupervisorCall (R : Type*) where
  | reinit (text : String)
  | error (text : String)
  | speedLimit (percent : R)
  | stateChanged (before after : State) (reason : String)
  | callGate (data : Bool)
  | publishStatus (state : State) (amclAttached : Bool) (lastEvent : String)
  | info (text : String)
  | warning (text : String)
  deriving DecidableEq, Repr

/-- The request a call sends to the arbiter. -/
def SupervisorCall.sent? {R : Type*} : SupervisorCall R → Option Bool
  | .callGate data => some data
  | _ => none

structure SupervisorNode (R : Type*) where
  machine : SupervisorMachine R
  appliedAttach : Bool
  gatePending : Bool
  graceUntil : Option R
  state : State
  lastEvent : String
  deriving DecidableEq, Repr

namespace SupervisorConfig

variable {R : Type*} [OfNat R 100] (cfg : SupervisorConfig R)

/-- `_apply_degraded`. -/
def applyDegraded (degraded : Bool) : List (SupervisorCall R) :=
  if cfg.actionOnDegraded ≠ "slow" then []
  else [.speedLimit (if degraded then cfg.degradedSpeedLimitPercent else 100)]

/-- What an action of a decision calls; `reinit` is the text that `_reinit` answers. -/
def actionCalls (reinit : String) : Action → List (SupervisorCall R)
  | .isolate => []
  | .reinit => [.reinit reinit]
  | .notifyDegraded =>
      .error "localization degraded: AMCL could not be recovered" :: cfg.applyDegraded true
  | .attach => cfg.applyDegraded false

variable {cfg} {reinit : String}

theorem sent_actionCalls (action : Action) :
    (cfg.actionCalls reinit action).filterMap SupervisorCall.sent? = [] := by
  cases action with
  | isolate | reinit => rfl
  | notifyDegraded | attach =>
      unfold actionCalls applyDegraded
      split_ifs <;> rfl

theorem sent_actionsCalls (actions : List Action) :
    (actions.flatMap (cfg.actionCalls reinit)).filterMap SupervisorCall.sent? = [] := by
  induction actions with
  | nil => rfl
  | cons action rest ih =>
      rw [List.flatMap_cons, List.filterMap_append, sent_actionCalls, ih]
      rfl

end SupervisorConfig

namespace SupervisorNode

variable {R : Type*}

/-- `__init__`. -/
def init [Zero R] : SupervisorNode R where
  machine := .init
  appliedAttach := true
  gatePending := false
  graceUntil := none
  state := .normal
  lastEvent := ""

variable (n : SupervisorNode R)

/-- `_call_gate`; `ready` is what `service_is_ready` answers. -/
def callGate (attach ready : Bool) : SupervisorNode R × List (SupervisorCall R) :=
  if n.gatePending then (n, [])
  else if !ready then (n, [])
  else ({ n with gatePending := true }, [.callGate attach])

/-- `_on_gate_done`; `result` is the `success` of the response, or none at all. -/
def onGateDone (result : Option Bool) (attach : Bool) :
    SupervisorNode R × List (SupervisorCall R) :=
  let n := { n with gatePending := false }
  if result = some true then
    ({ n with appliedAttach := attach },
      [.info (if attach then "AMCL output attached" else "AMCL output detached")])
  else (n, [.warning "failed to change AMCL output state; will retry"])

/-- The texts a decision leaves in `_last_event`. -/
def eventTexts (decision : Decision) (reinit : String) : List String :=
  (if decision.event = "" then [] else [decision.event]) ++
    (decision.actions.filter fun a => a = .reinit).map fun _ => reinit

/-- The node after a step of its machine, before the gate is brought to it. -/
def decided [Add R] (cfg : SupervisorConfig R) (now grace : R) (reinit : String)
    (r : SupervisorMachine R × Decision) : SupervisorNode R :=
  let events := eventTexts r.2 reinit
  { n with
    machine := r.1
    graceUntil := some
      (if .attach ∈ r.2.actions then now + cfg.graceAfterRecoverySec else grace)
    lastEvent := if events = [] then n.lastEvent else String.intercalate "; " events
    state := r.2.state }

/-- The last part of `_on_timer`: the gate is brought to what the machine wants. -/
def bringGate (ready : Bool) : SupervisorNode R × List (SupervisorCall R) :=
  if n.appliedAttach ≠ n.machine.attached then n.callGate n.machine.attached ready else (n, [])

variable {n} {now : R} {checks : Checks} {reinit : String} {ready : Bool}

/-- What a round leaves of the node before it turns to the gate. -/
structure Decided (n m : SupervisorNode R) : Prop where
  applied : m.appliedAttach = n.appliedAttach
  pending : m.gatePending = n.gatePending
  started : m.graceUntil ≠ none

section Effect

variable (n)

/-- What a timer callback can do, and what it sends to the arbiter. -/
inductive Timed [Zero R] (now : R) : Bool → SupervisorNode R → List Bool → Prop
  | early {ready : Bool} (ht : now = 0) : Timed now ready n []
  | agreed {ready : Bool} {m} (hd : Decided n m) (ha : m.appliedAttach = m.machine.attached) :
      Timed now ready m []
  | held {ready : Bool} {m} (hd : Decided n m) (ha : m.appliedAttach ≠ m.machine.attached)
      (hp : n.gatePending = true ∨ ready = false) : Timed now ready m []
  | sent {ready : Bool} {m} (hd : Decided n m) (ha : m.appliedAttach ≠ m.machine.attached)
      (hp : n.gatePending = false) (hr : ready = true) :
      Timed now ready { m with gatePending := true } [m.machine.attached]

end Effect

theorem Decided.bringGate [Zero R] {m : SupervisorNode R} (hd : Decided n m) :
    n.Timed now ready (m.bringGate ready).1
      ((m.bringGate ready).2.filterMap SupervisorCall.sent?) := by
  rw [SupervisorNode.bringGate]
  split_ifs with ha
  · rw [callGate, hd.pending]
    split_ifs with hp hr
    · exact .held hd ha (Or.inl hp)
    · exact .held hd ha (Or.inr (by simpa using hr))
    · rw [Bool.not_eq_true] at hp
      rw [Bool.not_eq_true, Bool.not_eq_false'] at hr
      exact .sent hd ha hp hr
  · exact .agreed hd (not_not.mp ha)

section Timer

variable [Zero R] [Add R] [Sub R] [LE R] [LT R] [OfNat R 100] [DecidableEq R] [DecidableLE R]
  [DecidableLT R] (cfg : SupervisorConfig R)

/-- `_on_timer`: `checks` is what the checks of this round say. -/
def onTimer (n : SupervisorNode R) (now : R) (checks : Checks) (reinit : String) (ready : Bool) :
    SupervisorNode R × List (SupervisorCall R) :=
  if now = 0 then (n, [])
  else
    let grace := n.graceUntil.getD (now + cfg.startupGraceSec)
    let r := n.machine.step cfg.machine now (if now < grace then {} else checks)
    let m := n.decided cfg now grace reinit r
    let changed :=
      if r.2.state ≠ n.state then [.stateChanged n.state r.2.state m.lastEvent] else []
    let g := m.bringGate ready
    (g.1, r.2.actions.flatMap (cfg.actionCalls reinit) ++ changed ++ g.2 ++
      [.publishStatus r.2.state g.1.appliedAttach g.1.lastEvent])

variable {cfg}

theorem onTimer_effect : n.Timed now ready (n.onTimer cfg now checks reinit ready).1
    ((n.onTimer cfg now checks reinit ready).2.filterMap SupervisorCall.sent?) := by
  unfold onTimer
  split_ifs with ht
  · exact .early ht
  · dsimp only
    generalize n.graceUntil.getD (now + cfg.startupGraceSec) = grace
    generalize n.machine.step cfg.machine now (if now < grace then {} else checks) = r
    have hd : Decided n (n.decided cfg now grace reinit r) := ⟨rfl, rfl, nofun⟩
    have hchanged : ∀ text, (if r.2.state ≠ n.state then
        [SupervisorCall.stateChanged (R := R) n.state r.2.state text]
        else []).filterMap SupervisorCall.sent? = [] := by
      intro text
      split_ifs <;> rfl
    have hsent : n.Timed now ready _ _ := hd.bringGate
    simp only [List.filterMap_append, SupervisorConfig.sent_actionsCalls, hchanged,
      List.nil_append]
    rw [List.filterMap_cons_none rfl, List.filterMap_nil, List.append_nil]
    exact hsent

end Timer

end SupervisorNode

end MgRobot.Localization
