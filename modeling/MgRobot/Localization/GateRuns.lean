import MgRobot.Localization.GateArbiter

/-!
# The arbiter and its gate

The arbiter's node, the gate node, and what is on its way between them. The gate
may go down at any time, with the requests it has not served, and comes back
open; a response already sent may still arrive, or be lost.
-/

namespace MgRobot.Localization

set_option autoImplicit false

open MgRobot.Lib.Runs

structure GateWorld where
  node : AmclGateArbiterNode
  /-- The gate's `_publish`, `none` while the gate node is down. -/
  gate : Option Bool
  requests : List Bool
  /-- The values of the requests whose responses are on their way. -/
  responses : List Bool
  /-- A reconcile has found the gate not ready since it last went down. A ghost field. -/
  outageSeen : Bool
  /-- A request or a response has been lost. A ghost field. -/
  lost : Bool
  deriving DecidableEq, Repr

inductive GateEvent where
  | request (who : String) (data : Bool)
  | tick
  | serve
  | respond
  | loseResponse
  | crash
  | restart
  deriving DecidableEq, Repr

namespace GateWorld

/-- The node has started; the gate node may be up or not. -/
def init (up : Bool) : GateWorld where
  node := .init
  gate := if up then some true else none
  requests := []
  responses := []
  outageSeen := true
  lost := false

variable (w : GateWorld)

/-- The world after a callback of the arbiter's node. -/
def after (r : AmclGateArbiterNode × List NodeCall) : GateWorld :=
  { w with
    node := r.1
    requests := w.requests ++ r.2.filterMap NodeCall.sent?
    outageSeen := w.outageSeen || decide (.serviceIsReady false ∈ r.2) }

def step : GateEvent → Option GateWorld
  | .request who data =>
      match w.node.onRequest who data w.gate.isSome with
      | .ok (m, calls, _) => some (w.after (m, calls))
      | .error _ => none
  | .tick => some (w.after (w.node.reconcile w.gate.isSome))
  | .serve =>
      match w.gate, w.requests with
      | some _, data :: rest =>
          some { w with gate := some data, requests := rest, responses := w.responses ++ [data] }
      | _, _ => none
  | .respond =>
      match w.responses with
      | data :: rest => some (after { w with responses := rest } (w.node.onDone (some true) data))
      | [] => none
  | .loseResponse =>
      match w.responses with
      | _ :: rest => some { w with responses := rest, lost := true }
      | [] => none
  | .crash =>
      match w.gate with
      | some _ =>
          some { w with
            gate := none
            requests := []
            outageSeen := false
            lost := w.lost || !w.requests.isEmpty }
      | none => none
  | .restart =>
      match w.gate with
      | none => some { w with gate := some true }
      | some _ => none

/-- The event runs `_reconcile`. -/
def reconciles : GateEvent → Bool
  | .tick => true
  | .request who data =>
      match w.node.arbiter.request who data with
      | .ok arbiter => decide (arbiter.desired ≠ w.node.arbiter.desired)
      | .error _ => false
  | _ => false

/-- Each outage is seen by a reconcile before the gate is back. -/
def OutageSeen (w : GateWorld) (e : GateEvent) : Prop := e = .restart → w.outageSeen = true

instance : DecidableRel OutageSeen := fun _ _ => inferInstanceAs (Decidable (_ → _))

/-- The reconcile that sees an outage finds no response of a closing request on its way. -/
def NoLateResponse (w : GateWorld) (e : GateEvent) : Prop :=
  w.reconciles e = true → w.gate = none → w.node.gateWasReady = true → false ∉ w.responses

instance : DecidableRel NoLateResponse := fun _ _ => inferInstanceAs (Decidable (_ → _))

/-- While a call is out to a gate that is up, the desired value does not come back to the one
applied before. -/
def NoReturn (w : GateWorld) : GateEvent → Prop
  | .request who data => w.node.pending = true → w.gate ≠ none →
      ∀ arbiter, w.node.arbiter.request who data = .ok arbiter →
        arbiter.mark ≠ some arbiter.desired
  | _ => True

instance : DecidableRel NoReturn
  | w, .request who data =>
      match h : w.node.arbiter.request who data with
      | .ok arbiter => decidable_of_iff
          (w.node.pending = true → w.gate ≠ none → arbiter.mark ≠ some arbiter.desired) (by
            simp [NoReturn, h])
      | .error _ => isTrue (by simp [NoReturn, h])
  | _, .tick | _, .serve | _, .respond | _, .loseResponse | _, .crash | _, .restart =>
      isTrue trivial

/-- The world after a `_reconcile` that sends `sends`. -/
def reconciledTo (m : AmclGateArbiterNode) (sends : List Bool) : GateWorld :=
  { w with
    node := m
    requests := w.requests ++ sends
    outageSeen := w.outageSeen || w.gate.isNone }

/-- What one event can do. -/
inductive Effect : GateEvent → GateWorld → Prop
  | want {who data arbiter last} (ha : w.node.arbiter.request who data = .ok arbiter) :
      Effect (.request who data)
        { w with node := { w.node with arbiter := arbiter, lastState := last } }
  | changed {who data arbiter last m sends} (ha : w.node.arbiter.request who data = .ok arbiter)
      (hd : arbiter.desired ≠ w.node.arbiter.desired)
      (hr : AmclGateArbiterNode.Reconciled { w.node with arbiter := arbiter, lastState := last }
        w.gate.isSome m sends) : Effect (.request who data) (w.reconciledTo m sends)
  | tick {m sends} (hr : w.node.Reconciled w.gate.isSome m sends) :
      Effect .tick (w.reconciledTo m sends)
  | serve {g v rest} (hg : w.gate = some g) (hv : w.requests = v :: rest) :
      Effect .serve
        { w with gate := some v, requests := rest, responses := w.responses ++ [v] }
  | respond {v rest last} (hv : w.responses = v :: rest) :
      Effect .respond { w with
        node := { w.node with
          pending := false
          arbiter := w.node.arbiter.markApplied v
          lastState := last }
        responses := rest }
  | loseResponse {v rest} (hv : w.responses = v :: rest) :
      Effect .loseResponse { w with responses := rest, lost := true }
  | crash {g} (hg : w.gate = some g) :
      Effect .crash { w with
        gate := none
        requests := []
        outageSeen := false
        lost := w.lost || !w.requests.isEmpty }
  | restart (hg : w.gate = none) : Effect .restart { w with gate := some true }

variable {w} {w' : GateWorld} {e : GateEvent} {m : AmclGateArbiterNode} {calls : List NodeCall}

/-- What a `_reconcile` leaves of the world. -/
theorem after_reconciled (hq : ∀ b, .serviceIsReady b ∈ calls ↔ b = w.gate.isSome) :
    w.after (m, calls) = w.reconciledTo m (calls.filterMap NodeCall.sent?) := by
  have hd : decide (.serviceIsReady false ∈ calls) = w.gate.isNone := by
    have h := hq false
    cases hg : w.gate <;> rw [hg] at h <;> simpa using h
  rw [after, hd]
  rfl

/-- What a callback leaves of the world that neither asks the gate nor calls it. -/
theorem after_quiet (hs : calls.filterMap NodeCall.sent? = [])
    (hq : ∀ b, .serviceIsReady b ∉ calls) : w.after (m, calls) = { w with node := m } := by
  have hd : decide (.serviceIsReady false ∈ calls) = false := decide_eq_false (hq false)
  rw [after, hs, hd, List.append_nil, Bool.or_false]

theorem step_effect (hs : w.step e = some w') : Effect w e w' := by
  cases e with
  | request who data =>
      simp only [step] at hs
      split at hs
      · next he =>
        cases hs
        obtain ⟨arbiter, last, ha, ⟨_, rfl, hsent, hq⟩ | ⟨hd, hr, hq⟩⟩ :=
          AmclGateArbiterNode.onRequest_effect he
        · rw [after_quiet hsent hq]
          exact .want ha
        · rw [after_reconciled hq]
          exact .changed ha hd hr
      · cases hs
  | tick =>
      cases hs
      obtain ⟨hr, hq⟩ := AmclGateArbiterNode.reconcile_effect (n := w.node) w.gate.isSome
      rw [after_reconciled hq]
      exact .tick hr
  | serve =>
      simp only [step] at hs
      split at hs
      · next hg hv =>
        cases hs
        exact .serve hg hv
      · cases hs
  | respond =>
      simp only [step] at hs
      split at hs
      · next v rest hv =>
        cases hs
        obtain ⟨last, calls, he, hsent, hq⟩ := AmclGateArbiterNode.onDone_eq (n := w.node) v
        rw [he, after_quiet hsent hq]
        exact .respond hv
      · cases hs
  | loseResponse =>
      simp only [step] at hs
      split at hs
      · next hv =>
        cases hs
        exact .loseResponse hv
      · cases hs
  | crash =>
      simp only [step] at hs
      split at hs
      · next hg =>
        cases hs
        exact .crash hg
      · cases hs
  | restart =>
      simp only [step] at hs
      split at hs
      · next hg =>
        cases hs
        exact .restart hg
      · cases hs

/-- One call at most is out, and what the arbiter believes is so, or is no longer waited for. -/
structure Sound (w : GateWorld) : Prop where
  idle : w.node.pending = false → w.requests = [] ∧ w.responses = []
  one : w.requests.length + w.responses.length ≤ 1
  out : w.node.pending = true → w.requests = [] → w.responses = [] → w.lost = true
  down : w.gate = none → w.requests = []
  seen : w.gate = none → w.outageSeen = true → w.node.gateWasReady = false
  fresh : w.node.gateWasReady = false → w.gate ≠ some false ∧ w.requests = [] ∧
    false ∉ w.responses ∧ w.node.arbiter.mark ≠ some false ∧
    (w.node.pending = true → w.node.arbiter.mark = none)
  answer : ∀ g, w.gate = some g → ∀ v ∈ w.responses, v = g
  mark : ∀ g a, w.gate = some g → w.node.pending = false → w.node.arbiter.mark = some a → a = g

theorem sound_init (up : Bool) : Sound (init up) := by
  have hp : AmclGateArbiterNode.init.pending = false := rfl
  have hm : AmclGateArbiterNode.init.arbiter.mark = none := rfl
  constructor <;> simp [init, hp, hm]
  exact fun _ => rfl

theorem Sound.reconciled (h : Sound w)
    (hl : w.gate = none → w.node.gateWasReady = true → false ∉ w.responses)
    {sends : List Bool} (hr : w.node.Reconciled w.gate.isSome m sends) :
    Sound (w.reconciledTo m sends) := by
  unfold reconciledTo
  obtain ⟨hidle, hone, hout, hdown, hseen, hfresh, hanswer, hmark⟩ := h
  obtain hg | ⟨g, hg⟩ := Option.eq_none_or_eq_some w.gate
  · rw [hg] at hr
    cases hr with
    | lost hw =>
        rw [List.append_nil]
        exact
          { idle := hidle, one := hone, out := hout, down := hdown, seen := fun _ _ => rfl
            fresh := fun _ => ⟨by rw [hg]; nofun, hdown hg, hl hg hw, nofun, fun _ => rfl⟩
            answer := hanswer
            mark := fun _ _ _ _ => nofun }
    | away hw =>
        rw [List.append_nil]
        exact
          { idle := hidle, one := hone, out := hout, down := hdown, seen := fun _ _ => hw
            fresh := hfresh, answer := hanswer, mark := hmark }
  · rw [hg] at hr
    cases hr with
    | waiting | applied =>
        rw [List.append_nil]
        exact
          { idle := hidle, one := hone, out := hout, down := hdown
            seen := fun hn => nomatch hg.symm.trans hn
            fresh := nofun, answer := hanswer, mark := hmark }
    | sent hp ha =>
        obtain ⟨hreq, hresp⟩ := hidle hp
        rw [hreq, List.nil_append]
        exact
          { idle := nofun
            one := by rw [hresp]; exact Nat.le_refl 1
            out := fun _ => nofun
            down := fun hn => nomatch hg.symm.trans hn
            seen := fun hn => nomatch hg.symm.trans hn
            fresh := nofun, answer := hanswer, mark := fun _ _ _ => nofun }

theorem Sound.want {arbiter : GateArbiter} {last : Option GateArbiterState} (h : Sound w)
    (hm : arbiter.mark = w.node.arbiter.mark) :
    Sound { w with node := { w.node with arbiter := arbiter, lastState := last } } where
  idle := h.idle
  one := h.one
  out := h.out
  down := h.down
  seen := h.seen
  fresh := by rw [hm]; exact h.fresh
  answer := h.answer
  mark := by rw [hm]; exact h.mark

theorem Sound.respond {v : Bool} {rest : List Bool} {last : Option GateArbiterState} (h : Sound w)
    (hv : w.responses = v :: rest) :
    Sound { w with
      node := { w.node with
        pending := false
        arbiter := w.node.arbiter.markApplied v
        lastState := last }
      responses := rest } := by
  have hone := h.one
  rw [hv, List.length_cons] at hone
  have hreq : w.requests = [] := List.eq_nil_of_length_eq_zero (by omega)
  have hrest : rest = [] := List.eq_nil_of_length_eq_zero (by omega)
  have hmem : v ∈ w.responses := by rw [hv]; exact List.mem_cons_self
  subst hrest
  exact
    { idle := fun _ => ⟨hreq, rfl⟩
      one := by rw [hreq]; exact Nat.zero_le 1
      out := nofun
      down := h.down
      seen := h.seen
      fresh := fun hw => by
        obtain ⟨hg, _, hfalse, _⟩ := h.fresh hw
        refine ⟨hg, hreq, by simp, fun hvf => ?_, nofun⟩
        obtain rfl := Option.some.inj hvf
        exact hfalse hmem
      answer := fun _ _ => by simp
      mark := fun g a hg _ ha => by
        obtain rfl := Option.some.inj ha
        exact h.answer g hg v hmem }

theorem Sound.serve {v : Bool} {rest : List Bool} (h : Sound w) (hv : w.requests = v :: rest) :
    Sound { w with gate := some v, requests := rest, responses := w.responses ++ [v] } := by
  have hone := h.one
  rw [hv, List.length_cons] at hone
  have hrest : rest = [] := List.eq_nil_of_length_eq_zero (by omega)
  have hresp : w.responses = [] := List.eq_nil_of_length_eq_zero (by omega)
  have hp : w.node.pending = true := by
    rw [← Bool.not_eq_false]
    intro hp
    rw [(h.idle hp).1] at hv
    cases hv
  have hw : w.node.gateWasReady = true := by
    rw [← Bool.not_eq_false]
    intro hw
    rw [(h.fresh hw).2.1] at hv
    cases hv
  subst hrest
  rw [hresp, List.nil_append]
  exact
    { idle := fun hn => by rw [hp] at hn; cases hn
      one := Nat.le_refl 1
      out := fun _ _ => nofun
      down := nofun
      seen := nofun
      fresh := fun hn => by rw [hw] at hn; cases hn
      answer := fun g hg u hu => by
        obtain rfl := Option.some.inj hg
        exact List.mem_singleton.mp hu
      mark := fun _ _ _ hn => by rw [hp] at hn; cases hn }

theorem Sound.loseResponse {v : Bool} {rest : List Bool} (h : Sound w)
    (hv : w.responses = v :: rest) : Sound { w with responses := rest, lost := true } := by
  have hone := h.one
  rw [hv, List.length_cons] at hone
  have hmem : ∀ u ∈ rest, u ∈ w.responses := fun u hu => by
    rw [hv]
    exact List.mem_cons_of_mem v hu
  exact
    { idle := fun hp => by
        rw [(h.idle hp).2] at hv
        cases hv
      one := by show w.requests.length + rest.length ≤ 1; omega
      out := fun _ _ _ => rfl
      down := h.down
      seen := h.seen
      fresh := fun hw => by
        obtain ⟨hg, hreq, hfalse, hm⟩ := h.fresh hw
        exact ⟨hg, hreq, fun hf => hfalse (hmem _ hf), hm⟩
      answer := fun g hg u hu => h.answer g hg u (hmem u hu)
      mark := h.mark }

theorem Sound.crash (h : Sound w) : Sound { w with
    gate := none
    requests := []
    outageSeen := false
    lost := w.lost || !w.requests.isEmpty } where
  idle hp := ⟨rfl, (h.idle hp).2⟩
  one := by
    have := h.one
    show 0 + w.responses.length ≤ 1
    omega
  out hp _ hresp := by
    cases hreq : w.requests with
    | nil => rw [h.out hp hreq hresp]; rfl
    | cons => exact Bool.or_true _
  down _ := rfl
  seen _ := nofun
  fresh hw := ⟨nofun, rfl, (h.fresh hw).2.2⟩
  answer _ := nofun
  mark _ _ := nofun

theorem Sound.restart (h : Sound w) (hg : w.gate = none) (hs : w.outageSeen = true) :
    Sound { w with gate := some true } := by
  obtain ⟨_, hreq, hfalse, hm, hpm⟩ := h.fresh (h.seen hg hs)
  exact
    { idle := h.idle
      one := h.one
      out := h.out
      down := nofun
      seen := nofun
      fresh := fun hw => ⟨by simp, hreq, hfalse, hm, hpm⟩
      answer := fun g hg' v hv => by
        obtain rfl := Option.some.inj hg'
        cases v with
        | true => rfl
        | false => exact absurd hv hfalse
      mark := fun g a hg' _ ha => by
        obtain rfl := Option.some.inj hg'
        cases a with
        | true => rfl
        | false => exact absurd ha hm }

theorem Sound.step (h : Sound w) (ho : OutageSeen w e) (hl : NoLateResponse w e)
    (hs : w.step e = some w') : Sound w' := by
  cases step_effect hs with
  | want ha => exact h.want (GateArbiter.mark_request ha)
  | @changed who data arbiter last m sends ha hd hr =>
      have hrec : w.reconciles (.request who data) = true := by
        simp only [reconciles, ha]
        exact decide_eq_true hd
      exact (h.want (GateArbiter.mark_request ha)).reconciled (hl hrec) hr
  | tick hr => exact h.reconciled (hl rfl) hr
  | serve _ hv => exact h.serve hv
  | respond hv => exact h.respond hv
  | loseResponse hv => exact h.loseResponse hv
  | crash => exact h.crash
  | restart hg => exact h.restart hg (ho rfl)

theorem sound_run {up : Bool} {es : List GateEvent} (ho : Meets step OutageSeen (init up) es)
    (hl : Meets step NoLateResponse (init up) es) (hr : exec step (init up) es = some w) :
    Sound w :=
  invariant (fun _ _ _ h hq hs => h.step hq.1 hq.2 hs) (sound_init up) (ho.and hl) hr

end GateWorld

end MgRobot.Localization
