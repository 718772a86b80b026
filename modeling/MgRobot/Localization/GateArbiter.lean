import MgRobot.Lib.Runs
import Mathlib.Data.List.Sort
import Mathlib.Data.String.Basic

/-!
# The AMCL gate arbiter

`GateArbiter` holds what each requester wants and what the gate is believed to
have; `AmclGateArbiterNode` brings the gate to it. Each callback of the node is
one function: the new node and the calls it makes on the outside, in order.
-/

namespace MgRobot.Localization

set_option autoImplicit false

/-- `REQUESTERS`. -/
def requesters : List String := ["waypoint", "supervisor"]

structure GateArbiter where
  /-- `_wants`, a dict in its order of insertion. -/
  wants : List (String × Bool)
  /-- `_applied`. -/
  mark : Option Bool
  deriving DecidableEq, Repr

namespace GateArbiter

/-- `__init__`. -/
def init (requesters : List String) : GateArbiter := ⟨requesters.map fun name => (name, true), none⟩

variable (a : GateArbiter)

/-- `request`; the error is the text of its `KeyError`. -/
def request (requester : String) (attach : Bool) : Except String GateArbiter :=
  if requester ∈ a.wants.map Prod.fst then
    .ok { a with wants := a.wants.map fun w => if w.1 = requester then (w.1, attach) else w }
  else .error ("unknown requester: " ++ requester)

def desired : Bool := a.wants.all Prod.snd

def holders : List String :=
  ((a.wants.filter fun w => !w.2).map Prod.fst).insertionSort (· ≤ ·)

/-- What a requester wants. -/
def want (requester : String) : Option Bool := a.wants.lookup requester

/-- The property `applied`. -/
def applied : Bool := a.mark.isSome && decide (a.mark = some a.desired)

def needsApply : Bool := decide (a.mark ≠ some a.desired)

def markApplied (attach : Bool) : GateArbiter := { a with mark := some attach }

def markUnknown : GateArbiter := { a with mark := none }

variable {a}

/-- What is not applied is due. -/
theorem applied_eq : a.applied = !a.needsApply := by
  unfold applied needsApply
  cases h : a.mark <;> simp

theorem needsApply_eq_false : a.needsApply = false ↔ a.mark = some a.desired := by
  simp [needsApply]

theorem mark_request {a' : GateArbiter} {requester : String} {attach : Bool}
    (h : a.request requester attach = .ok a') : a'.mark = a.mark := by
  unfold request at h
  split_ifs at h
  cases h
  rfl

theorem lookup_set {l : List (String × Bool)} {who requester : String} {attach : Bool} :
    (l.map fun w => if w.1 = requester then (w.1, attach) else w).lookup who =
      (l.lookup who).map fun v => if who = requester then attach else v := by
  induction l with
  | nil => rfl
  | cons w rest ih =>
      obtain ⟨name, v⟩ := w
      by_cases hr : name = requester
      · by_cases hw : who = name
        · simp [hr, hw]
        · simp [List.lookup_cons, hr, ih, beq_false_of_ne (hr ▸ hw)]
      · by_cases hw : who = name
        · simp [hr, hw]
        · simp [List.lookup_cons, hr, ih, beq_false_of_ne hw]

/-- A request sets the want of its requester and of no other. -/
theorem want_request {a' : GateArbiter} {requester who : String} {attach : Bool}
    (h : a.request requester attach = .ok a') :
    a'.want who = (a.want who).map fun v => if who = requester then attach else v := by
  unfold request at h
  split_ifs at h
  cases h
  exact lookup_set

/-- One requester that wants to detach is enough. -/
theorem desired_of_want {who : String} (h : a.want who = some false) : a.desired = false := by
  obtain ⟨l₁, l₂, hl, _⟩ := List.lookup_eq_some_iff.mp h
  rw [desired, hl, List.all_append, List.all_cons, Bool.false_and, Bool.and_false]

end GateArbiter

/-- `mg_msgs/GateArbiterState`. -/
structure GateArbiterState where
  desired : Bool
  applied : Bool
  holders : List String
  deriving DecidableEq, Repr

/-- A call on the gate's client, a publisher, the event log or the logger. -/
inductive NodeCall where
  | serviceIsReady (answer : Bool)
  | callGate (data : Bool)
  | publishState (state : GateArbiterState)
  | gateChanged (warn : Bool) (requester : String) (attached : Bool) (holders : List String)
  | warning (text : String)
  deriving DecidableEq, Repr

/-- The request a call sends to the gate. -/
def NodeCall.sent? : NodeCall → Option Bool
  | .callGate data => some data
  | _ => none

structure AmclGateArbiterNode where
  arbiter : GateArbiter
  pending : Bool
  gateWasReady : Bool
  lastState : Option GateArbiterState
  deriving DecidableEq, Repr

namespace AmclGateArbiterNode

variable (n : AmclGateArbiterNode)

/-- `_publish_state`. -/
def publishState : AmclGateArbiterNode × List NodeCall :=
  let state : GateArbiterState := ⟨n.arbiter.desired, n.arbiter.applied, n.arbiter.holders⟩
  if n.lastState = some state then (n, [])
  else ({ n with lastState := some state }, [.publishState state])

/-- `__init__`, up to its first `_publish_state`. -/
def init : AmclGateArbiterNode :=
  (publishState ⟨GateArbiter.init requesters, false, false, none⟩).1

/-- The first half of `_reconcile`: a gate that is gone has an unknown state. -/
def noteReady (ready : Bool) : AmclGateArbiterNode × List NodeCall :=
  let (n, published) :=
    if n.gateWasReady && !ready then
      publishState { n with arbiter := n.arbiter.markUnknown }
    else (n, [])
  ({ n with gateWasReady := ready }, published)

/-- `_reconcile`; `ready` is what `service_is_ready` answers. -/
def reconcile (ready : Bool) : AmclGateArbiterNode × List NodeCall :=
  let (n, published) := n.noteReady ready
  if n.pending || !ready || !n.arbiter.needsApply then (n, .serviceIsReady ready :: published)
  else
    ({ n with pending := true },
      .serviceIsReady ready :: published ++ [.callGate n.arbiter.desired])

/-- The text of the response to a requester. -/
def responseMessage (arbiter : GateArbiter) : String :=
  if arbiter.desired then "attached"
  else "detached (held by: " ++ String.intercalate ", " arbiter.holders ++ ")"

/-- `_on_request`: the node, its calls, and the response's `success` and `message`. -/
def onRequest (who : String) (data ready : Bool) :
    Except String (AmclGateArbiterNode × List NodeCall × Bool × String) :=
  match n.arbiter.request who data with
  | .error e => .error e
  | .ok arbiter =>
      let changed :=
        if n.arbiter.desired ≠ arbiter.desired ∨ n.arbiter.holders ≠ arbiter.holders then
          [NodeCall.gateChanged (decide ("supervisor" ∈ arbiter.holders)) who arbiter.desired
            arbiter.holders]
        else []
      let (m, published) := publishState { n with arbiter := arbiter }
      let (m, calls) := if n.arbiter.desired ≠ arbiter.desired then m.reconcile ready else (m, [])
      .ok (m, changed ++ published ++ calls, true, responseMessage arbiter)

/-- `_on_done`; `result` is the `success` of the response, or none at all. -/
def onDone (result : Option Bool) (attach : Bool) : AmclGateArbiterNode × List NodeCall :=
  let n := { n with pending := false }
  if result = some true then publishState { n with arbiter := n.arbiter.markApplied attach }
  else (n, [.warning "failed to change the AMCL gate; will retry"])

variable {n}

/-- `_publish_state` sends nothing to the gate and asks it nothing. -/
theorem publishState_eq : ∃ last calls, n.publishState = ({ n with lastState := last }, calls) ∧
    calls.filterMap NodeCall.sent? = [] ∧ ∀ b, .serviceIsReady b ∉ calls := by
  unfold publishState
  dsimp only
  split_ifs
  · exact ⟨n.lastState, [], rfl, rfl, by simp⟩
  · exact ⟨_, _, rfl, rfl, by simp⟩

/-- A successful response ends the call and marks its value. -/
theorem onDone_eq (attach : Bool) : ∃ last calls, n.onDone (some true) attach =
    ({ n with pending := false, arbiter := n.arbiter.markApplied attach, lastState := last },
      calls) ∧ calls.filterMap NodeCall.sent? = [] ∧ ∀ b, .serviceIsReady b ∉ calls := by
  rw [onDone, if_pos rfl]
  exact publishState_eq

section Effect

variable (n)

/-- What `_reconcile` can do to the node, and what it sends to the gate. -/
inductive Reconciled : Bool → AmclGateArbiterNode → List Bool → Prop
  | lost {last} (hw : n.gateWasReady = true) : Reconciled false
      { n with arbiter := n.arbiter.markUnknown, gateWasReady := false, lastState := last } []
  | away (hw : n.gateWasReady = false) : Reconciled false n []
  | waiting (hp : n.pending = true) : Reconciled true { n with gateWasReady := true } []
  | applied (hp : n.pending = false) (ha : n.arbiter.mark = some n.arbiter.desired) :
      Reconciled true { n with gateWasReady := true } []
  | sent (hp : n.pending = false) (ha : n.arbiter.mark ≠ some n.arbiter.desired) :
      Reconciled true { n with gateWasReady := true, pending := true } [n.arbiter.desired]

end Effect

theorem noteReady_lost (hw : n.gateWasReady = true) : ∃ last calls,
    n.noteReady false =
      ({ n with arbiter := n.arbiter.markUnknown, gateWasReady := false, lastState := last },
        calls) ∧
    calls.filterMap NodeCall.sent? = [] ∧ ∀ b, .serviceIsReady b ∉ calls := by
  obtain ⟨last, calls, he, hs, hr⟩ :=
    publishState_eq (n := { n with arbiter := n.arbiter.markUnknown })
  refine ⟨last, calls, ?_, hs, hr⟩
  rw [noteReady, hw, Bool.not_false, Bool.and_self, if_pos rfl, ← hw, he]

theorem noteReady_of_not_lost (ready : Bool) (h : (n.gateWasReady && !ready) = false) :
    n.noteReady ready = ({ n with gateWasReady := ready }, []) := by
  rw [noteReady, h]
  rfl

theorem reconcile_effect (ready : Bool) :
    Reconciled n ready (n.reconcile ready).1 ((n.reconcile ready).2.filterMap NodeCall.sent?) ∧
      ∀ b, .serviceIsReady b ∈ (n.reconcile ready).2 ↔ b = ready := by
  cases ready with
  | false =>
      by_cases hw : n.gateWasReady = true
      · obtain ⟨last, calls, he, hs, hr⟩ := noteReady_lost hw
        simp only [reconcile, he, Bool.not_false, Bool.or_true, Bool.true_or, if_true,
          List.mem_cons, hr, or_false, NodeCall.serviceIsReady.injEq]
        rw [List.filterMap_cons_none rfl, hs]
        exact ⟨.lost hw, fun b => trivial⟩
      · rw [Bool.not_eq_true] at hw
        have he := noteReady_of_not_lost (n := n) false (by rw [hw]; rfl)
        have hn : { n with gateWasReady := false } = n := by rw [← hw]
        rw [hn] at he
        simp only [reconcile, he, Bool.not_false, Bool.or_true, Bool.true_or, if_true]
        exact ⟨.away hw, by simp⟩
  | true =>
      have he := noteReady_of_not_lost (n := n) true (Bool.and_false _)
      simp only [reconcile, he, Bool.not_true, Bool.or_false]
      split_ifs with h
      · refine ⟨?_, by simp⟩
        by_cases hp : n.pending = true
        · exact .waiting hp
        · rw [Bool.not_eq_true] at hp
          rw [hp, Bool.false_or, Bool.not_eq_true', GateArbiter.needsApply_eq_false] at h
          exact .applied hp h
      · rw [Bool.not_eq_true, Bool.or_eq_false_iff, Bool.not_eq_false'] at h
        have ha : n.arbiter.mark ≠ some n.arbiter.desired := by
          rw [Ne, ← GateArbiter.needsApply_eq_false, h.2]
          decide
        exact ⟨.sent h.1 ha, by simp⟩

/-- What a request that is accepted does: the want, and `_reconcile` if the desired value
changed. -/
theorem onRequest_effect {who : String} {data ready : Bool} {m : AmclGateArbiterNode}
    {calls : List NodeCall} {response : Bool × String}
    (h : n.onRequest who data ready = .ok (m, calls, response)) :
    ∃ arbiter last, n.arbiter.request who data = .ok arbiter ∧
      (arbiter.desired = n.arbiter.desired ∧ m = { n with arbiter := arbiter, lastState := last } ∧
          calls.filterMap NodeCall.sent? = [] ∧ (∀ b, .serviceIsReady b ∉ calls) ∨
        arbiter.desired ≠ n.arbiter.desired ∧
          Reconciled { n with arbiter := arbiter, lastState := last } ready m
            (calls.filterMap NodeCall.sent?) ∧ ∀ b, .serviceIsReady b ∈ calls ↔ b = ready) := by
  unfold onRequest at h
  split at h
  · cases h
  · rename_i arbiter ha
    obtain ⟨last, published, he, hs, hr⟩ := publishState_eq (n := { n with arbiter := arbiter })
    refine ⟨arbiter, last, ha, ?_⟩
    have hchanged : ∀ p : Prop, ∀ [Decidable p] (c : NodeCall), c.sent? = none →
        (if p then [c] else []).filterMap NodeCall.sent? = [] := by
      intro p _ c hc
      split_ifs
      · rw [List.filterMap_cons_none hc]
        rfl
      · rfl
    simp only [he] at h
    by_cases hd : n.arbiter.desired = arbiter.desired
    · left
      simp only [hd, ne_eq, not_true_eq_false, if_false, false_or, List.append_nil] at h
      cases h
      refine ⟨hd.symm, rfl, ?_, fun b hb => ?_⟩
      · rw [List.filterMap_append, hs, hchanged _ _ rfl]
        rfl
      · rw [List.mem_append] at hb
        rcases hb with hb | hb
        · split_ifs at hb <;> simp at hb
        · exact hr b hb
    · right
      simp only [hd, ne_eq, not_false_eq_true, if_true, true_or] at h
      cases h
      obtain ⟨hrec, hready⟩ :=
        reconcile_effect (n := { n with arbiter := arbiter, lastState := last }) ready
      refine ⟨Ne.symm hd, ?_, fun b => ?_⟩
      · rw [List.filterMap_append, List.filterMap_append, hs]
        exact hrec
      · rw [← hready b]
        simp [hr]

end AmclGateArbiterNode

end MgRobot.Localization
