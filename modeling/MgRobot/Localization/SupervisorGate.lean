import MgRobot.Localization.SupervisorNode
import MgRobot.Localization.GateRuns
import Mathlib.Algebra.Order.Ring.Int

/-!
# The supervisor and the arbiter

The supervisor's node and the arbiter with its gate, and the supervisor's calls
on their way between them. The arbiter may crash at any time, with everything
it has not answered, and starts again with every want at attach. A gate request
of an arbiter that has crashed may still be served.
-/

namespace MgRobot.Localization

set_option autoImplicit false

open MgRobot.Lib.Runs

variable {R : Type*}

/-- The events that the arbiter's own process takes part in. -/
def GateEvent.byArbiter : GateEvent → Bool
  | .request _ _ | .tick | .respond => true
  | .serve | .loseResponse | .crash | .restart => false

structure SupervisorWorld (R : Type*) where
  node : SupervisorNode R
  /-- The arbiter is up. -/
  up : Bool
  /-- The arbiter's node and the gate; while the arbiter is down, its node is the one that crashed. -/
  gate : GateWorld
  /-- Gate requests of arbiters that have crashed. -/
  orphans : List Bool
  requests : List Bool
  /-- The values of the requests whose responses are on their way. -/
  responses : List Bool
  deriving DecidableEq, Repr

inductive SupervisorEvent (R : Type*) where
  | timer (now : R) (checks : Checks) (reinit : String)
  | serve
  | respond
  | loseResponse
  | crash
  | restart
  | gate (e : GateEvent)
  | lateServe
  deriving DecidableEq, Repr

namespace GateWorld

variable {w w' : GateWorld} {e : GateEvent} {who : String}

theorem wants_reconciled {n m : AmclGateArbiterNode} {ready : Bool} {sends : List Bool}
    (h : n.Reconciled ready m sends) : m.arbiter.wants = n.arbiter.wants := by
  cases h <;> rfl

/-- Only a request of a requester changes its want. -/
theorem want_step (hs : w.step e = some w') : w'.node.arbiter.want who =
    (w.node.arbiter.want who).map fun v =>
      match e with
      | .request requester data => if who = requester then data else v
      | _ => v := by
  cases step_effect hs with
  | want ha => exact GateArbiter.want_request ha
  | changed ha hd hr =>
      rw [← GateArbiter.want_request ha]
      exact congrArg (List.lookup who) (wants_reconciled hr)
  | tick hr =>
      rw [Option.map_id']
      exact congrArg (List.lookup who) (wants_reconciled hr)
  | serve | respond | loseResponse | crash | restart => exact Option.map_id'.symm

theorem want_step_eq (hs : w.step e = some w') (he : ∀ data, e ≠ .request who data) :
    w'.node.arbiter.want who = w.node.arbiter.want who := by
  have hw : w'.node.arbiter.want who = _ := want_step hs
  cases e with
  | request requester data =>
      have hne : who ≠ requester := fun h => he data (h ▸ rfl)
      simpa [hne] using hw
  | tick | serve | respond | loseResponse | crash | restart => simpa using hw

end GateWorld

namespace SupervisorWorld

/-- Everything is up and the gate is open. -/
def init [Zero R] : SupervisorWorld R where
  node := .init
  up := true
  gate := .init true
  orphans := []
  requests := []
  responses := []

section Step

variable [Zero R] [Add R] [Sub R] [LE R] [LT R] [OfNat R 100] [DecidableEq R] [DecidableLE R]
  [DecidableLT R] (cfg : SupervisorConfig R) (s : SupervisorWorld R)

def step : SupervisorEvent R → Option (SupervisorWorld R)
  | .timer now checks reinit =>
      let r := s.node.onTimer cfg now checks reinit s.up
      some { s with node := r.1, requests := s.requests ++ r.2.filterMap SupervisorCall.sent? }
  | .serve =>
      match s.up, s.requests with
      | true, data :: rest =>
          (s.gate.step (.request "supervisor" data)).map fun gate =>
            { s with gate := gate, requests := rest, responses := s.responses ++ [data] }
      | _, _ => none
  | .respond =>
      match s.responses with
      | data :: rest =>
          some { s with node := (s.node.onGateDone (some true) data).1, responses := rest }
      | [] => none
  | .loseResponse =>
      match s.responses with
      | _ :: rest => some { s with responses := rest }
      | [] => none
  | .crash =>
      if s.up then
        some { s with
          up := false
          gate := { s.gate with requests := [], responses := [] }
          orphans := s.orphans ++ s.gate.requests
          requests := []
          responses := [] }
      else none
  | .restart =>
      if s.up then none
      else some { s with up := true, gate := { s.gate with node := .init, outageSeen := true } }
  | .gate e =>
      if e.byArbiter && !s.up then none
      else
        match e with
        | .request "supervisor" _ => none
        | .crash => (s.gate.step e).map fun gate => { s with gate := gate, orphans := [] }
        | _ => (s.gate.step e).map fun gate => { s with gate := gate }
  | .lateServe =>
      match s.gate.gate, s.orphans with
      | some _, data :: rest => some { s with gate := { s.gate with gate := some data }, orphans := rest }
      | _, _ => none

end Step

/-- The want of the requester `supervisor`. -/
def want (s : SupervisorWorld R) : Option Bool := s.gate.node.arbiter.want "supervisor"

variable (s : SupervisorWorld R)

/-- No request of the supervisor is out. -/
def Settled : Prop := s.requests = [] ∧ s.responses = []

instance : Decidable s.Settled := inferInstanceAs (Decidable (_ ∧ _))

/-- The arbiter wants what the machine wants, or a request for it has been sent. -/
def Told : Prop := s.want = some s.node.machine.attached ∨ s.node.machine.attached ∈ s.requests

instance : Decidable s.Told := inferInstanceAs (Decidable (_ ∨ _))

/-- No response is lost, the arbiter crashes only while nothing of the supervisor is out and its
want is to attach, and the clock does not go back to 0. -/
def Safe [Zero R] (s : SupervisorWorld R) : SupervisorEvent R → Prop
  | .loseResponse => False
  | .crash => s.Settled ∧ s.want = some true
  | .timer now _ _ => now = 0 → s.node.graceUntil = none
  | _ => True

instance Safe.decidable [Zero R] [DecidableEq R] :
    ∀ (s : SupervisorWorld R) (e : SupervisorEvent R), Decidable (s.Safe e)
  | _, .loseResponse => isFalse id
  | s, .crash => inferInstanceAs (Decidable (s.Settled ∧ s.want = some true))
  | s, .timer now _ _ => inferInstanceAs (Decidable (now = 0 → s.node.graceUntil = none))
  | _, .serve | _, .respond | _, .restart | _, .gate _ | _, .lateServe => isTrue trivial

section Effect

variable [Zero R]

/-- What one event can do. -/
inductive Effect : SupervisorEvent R → SupervisorWorld R → Prop
  | timer {now checks reinit m sends} (ht : s.node.Timed now s.up m sends) :
      Effect (.timer now checks reinit) { s with node := m, requests := s.requests ++ sends }
  | serve {data rest gate} (hu : s.up = true) (hr : s.requests = data :: rest)
      (hw : gate.node.arbiter.want "supervisor" = s.want.map fun _ => data) :
      Effect .serve
        { s with gate := gate, requests := rest, responses := s.responses ++ [data] }
  | respond {data rest} (hr : s.responses = data :: rest) :
      Effect .respond { s with
        node := { s.node with gatePending := false, appliedAttach := data }
        responses := rest }
  | loseResponse {data rest} (hr : s.responses = data :: rest) :
      Effect .loseResponse { s with responses := rest }
  | crash {gate orphans} (hu : s.up = true) (hn : gate.node = s.gate.node) :
      Effect .crash { s with
        up := false, gate := gate, orphans := orphans, requests := [], responses := [] }
  | restart {gate} (hu : s.up = false) (hn : gate.node = .init) :
      Effect .restart { s with up := true, gate := gate }
  | gate {e gate orphans} (hw : gate.node.arbiter.want "supervisor" = s.want) :
      Effect (.gate e) { s with gate := gate, orphans := orphans }
  | lateServe {gate orphans} (hn : gate.node = s.gate.node) :
      Effect .lateServe { s with gate := gate, orphans := orphans }

end Effect

/-- What the supervisor believes of the arbiter is so, and a pending call is answered yet. -/
structure Synced (s : SupervisorWorld R) : Prop where
  known : s.want.isSome = true
  idle : s.node.gatePending = false → s.Settled ∧ s.want = some s.node.appliedAttach ∧
    (s.up = false → s.node.appliedAttach = true)
  busy : s.node.gatePending = true → s.up = true ∧
    s.requests.length + s.responses.length = 1 ∧ ∀ v ∈ s.responses, s.want = some v
  early : s.node.graceUntil = none →
    s.node.gatePending = false ∧ s.node.appliedAttach = s.node.machine.attached

theorem synced_init [Zero R] : Synced (init : SupervisorWorld R) where
  known := rfl
  idle _ := ⟨⟨rfl, rfl⟩, rfl, nofun⟩
  busy := nofun
  early _ := ⟨rfl, rfl⟩

variable {s}

theorem Synced.not_pending (h : Synced s) (hs : s.Settled) : s.node.gatePending = false := by
  rw [← Bool.not_eq_true]
  intro hp
  obtain ⟨_, hone, _⟩ := h.busy hp
  rw [hs.1, hs.2] at hone
  exact absurd hone (by decide)

theorem Synced.timer [Zero R] {now : R} {m : SupervisorNode R} {sends : List Bool} (h : Synced s)
    (ht : s.node.Timed now s.up m sends) :
    Synced { s with node := m, requests := s.requests ++ sends } := by
  cases ht with
  | early =>
      rw [List.append_nil]
      exact h
  | agreed hd | held hd =>
      rw [List.append_nil]
      refine ⟨h.known, ?_, ?_, fun hn => absurd hn hd.started⟩
      · rw [hd.pending, hd.applied]
        exact h.idle
      · rw [hd.pending]
        exact h.busy
  | sent hd _ hp hu =>
      obtain ⟨⟨hreq, hresp⟩, _⟩ := h.idle hp
      refine ⟨h.known, nofun, fun _ => ⟨hu, ?_, ?_⟩, fun hn => absurd hn hd.started⟩
      · simp [hreq, hresp]
      · simp [hresp]

/-- What goes on between the arbiter and the gate. -/
theorem Synced.gate {gate : GateWorld} {orphans : List Bool} (h : Synced s)
    (hw : gate.node.arbiter.want "supervisor" = s.want) :
    Synced { s with gate := gate, orphans := orphans } where
  known := (congrArg Option.isSome hw).trans h.known
  idle hp := by
    obtain ⟨hset, happ, hdown⟩ := h.idle hp
    exact ⟨hset, hw.trans happ, hdown⟩
  busy hp := by
    obtain ⟨hu, hone, hval⟩ := h.busy hp
    exact ⟨hu, hone, fun v hv => hw.trans (hval v hv)⟩
  early := h.early

variable [Zero R] [Add R] [Sub R] [LE R] [LT R] [OfNat R 100] [DecidableEq R] [DecidableLE R]
  [DecidableLT R] {cfg : SupervisorConfig R} {s' : SupervisorWorld R} {e : SupervisorEvent R}
  {es : List (SupervisorEvent R)}

theorem gate_effect {e : GateEvent} (hs : s.step cfg (.gate e) = some s') :
    Effect s (.gate e) s' := by
  simp only [step] at hs
  split_ifs at hs
  split at hs
  · cases hs
  · obtain ⟨gate, hg, rfl⟩ := Option.map_eq_some_iff.mp hs
    exact .gate (GateWorld.want_step_eq hg nofun)
  · next hne _ =>
    obtain ⟨gate, hg, rfl⟩ := Option.map_eq_some_iff.mp hs
    exact .gate (GateWorld.want_step_eq hg hne)

theorem step_effect (hs : s.step cfg e = some s') : Effect s e s' := by
  cases e with
  | timer now checks reinit =>
      cases hs
      exact .timer SupervisorNode.onTimer_effect
  | serve =>
      simp only [step] at hs
      split at hs
      · next hu hr =>
        obtain ⟨gate, hg, rfl⟩ := Option.map_eq_some_iff.mp hs
        refine .serve hu hr ((GateWorld.want_step hg).trans ?_)
        simp only [if_true, want]
      · cases hs
  | respond =>
      simp only [step] at hs
      split at hs
      · next hr =>
        cases hs
        exact .respond hr
      · cases hs
  | loseResponse =>
      simp only [step] at hs
      split at hs
      · next hr =>
        cases hs
        exact .loseResponse hr
      · cases hs
  | crash =>
      simp only [step] at hs
      split_ifs at hs with hu
      cases hs
      exact .crash hu rfl
  | restart =>
      simp only [step] at hs
      split_ifs at hs with hu
      cases hs
      exact .restart (Bool.not_eq_true _ ▸ hu) rfl
  | gate e => exact gate_effect hs
  | lateServe =>
      simp only [step] at hs
      split at hs
      · cases hs
        exact .lateServe rfl
      · cases hs

theorem Synced.step (h : Synced s) (hsafe : s.Safe e) (hs : s.step cfg e = some s') :
    Synced s' := by
  cases step_effect hs with
  | timer ht => exact h.timer ht
  | @serve data rest gate hu hr hw =>
      have hwant : gate.node.arbiter.want "supervisor" = some data := by
        obtain ⟨v, hv⟩ := Option.isSome_iff_exists.mp h.known
        rw [hw, hv, Option.map_some]
      have hp : s.node.gatePending = true := by
        rw [← Bool.not_eq_false]
        intro hp
        exact nomatch hr.symm.trans (h.idle hp).1.1
      obtain ⟨_, hone, _⟩ := h.busy hp
      rw [hr, List.length_cons] at hone
      refine ⟨?_, fun hn => (nomatch hp.symm.trans hn), fun _ => ⟨hu, ?_, fun v hv => ?_⟩,
        fun hn => nomatch hp.symm.trans (h.early hn).1⟩
      · exact Option.isSome_iff_exists.mpr ⟨data, hwant⟩
      · show rest.length + (s.responses ++ [data]).length = 1
        rw [List.length_append, List.length_singleton]
        omega
      · have hresp : s.responses = [] := List.eq_nil_of_length_eq_zero (by omega)
        rw [hresp, List.nil_append, List.mem_singleton] at hv
        rw [hv]
        exact hwant
  | @respond data rest hr =>
      have hp : s.node.gatePending = true := by
        rw [← Bool.not_eq_false]
        intro hp
        exact nomatch hr.symm.trans (h.idle hp).1.2
      obtain ⟨hu, hone, hval⟩ := h.busy hp
      rw [hr, List.length_cons] at hone
      refine ⟨h.known, fun _ => ⟨⟨?_, ?_⟩, ?_, ?_⟩, nofun,
        fun hn => nomatch hp.symm.trans (h.early hn).1⟩
      · exact List.eq_nil_of_length_eq_zero (by show s.requests.length = 0; omega)
      · exact List.eq_nil_of_length_eq_zero (by show rest.length = 0; omega)
      · exact hval data (by rw [hr]; exact List.mem_cons_self)
      · exact fun hn => nomatch hu.symm.trans hn
  | loseResponse => exact hsafe.elim
  | crash hu hn =>
      obtain ⟨hset, hw⟩ := hsafe
      have hp := h.not_pending hset
      obtain ⟨_, happ, _⟩ := h.idle hp
      have hgate : ∀ gate : GateWorld, gate.node = s.gate.node →
          gate.node.arbiter.want "supervisor" = s.want := fun gate hg => by rw [hg]; rfl
      refine ⟨?_, fun _ => ⟨⟨rfl, rfl⟩, ?_, fun _ => ?_⟩, fun hn' => (nomatch hp.symm.trans hn'),
        h.early⟩
      · exact (congrArg Option.isSome (hgate _ hn)).trans h.known
      · exact (hgate _ hn).trans happ
      · exact Option.some.inj (happ.symm.trans hw)
  | restart hu hn =>
      have hp : s.node.gatePending = false := by
        rw [← Bool.not_eq_true]
        exact fun hp => nomatch hu.symm.trans (h.busy hp).1
      obtain ⟨hset, _, happ⟩ := h.idle hp
      have hinit : ∀ gate : GateWorld, gate.node = .init →
          gate.node.arbiter.want "supervisor" = some true := fun gate hg => by rw [hg]; rfl
      refine ⟨?_, fun _ => ⟨hset, ?_, nofun⟩, fun hn' => (nomatch hp.symm.trans hn'), h.early⟩
      · exact congrArg Option.isSome (hinit _ hn)
      · exact (hinit _ hn).trans (congrArg some (happ hu).symm)
  | gate hw => exact h.gate hw
  | lateServe hn =>
      exact h.gate (congrArg (fun n : AmclGateArbiterNode => n.arbiter.want "supervisor") hn)

theorem synced_run (hm : Meets (step cfg) Safe init es) (hr : exec (step cfg) init es = some s) :
    Synced s :=
  invariant (fun _ _ _ h hq hs => h.step hq hs) synced_init hm hr

/-- In a run without lost responses, crashes of the arbiter in the middle of a detachment and
clocks that go back to 0: after a tick with the arbiter up and nothing of the supervisor out, the
arbiter wants what the machine wants, or a request for it has been sent. -/
theorem supervisor_told (cfg : SupervisorConfig R) (es : List (SupervisorEvent R))
    (s s' : SupervisorWorld R) (now : R) (checks : Checks) (reinit : String)
    (hm : Meets (step cfg) Safe init (es ++ [.timer now checks reinit]))
    (hr : exec (step cfg) init es = some s) (hup : s.up = true) (hset : s.Settled)
    (hs : s.step cfg (.timer now checks reinit) = some s') :
    s'.Told ∧ (s'.node.machine.attached = false →
      s'.gate.node.arbiter.desired = false ∨ false ∈ s'.requests) := by
  have h := synced_run hm.left hr
  have hp := h.not_pending hset
  obtain ⟨_, happ, _⟩ := h.idle hp
  have htold : s'.Told := by
    cases step_effect hs with
    | timer ht =>
        cases ht with
        | early hnow =>
            have hearly := h.early (hm.at hr hnow)
            exact Or.inl (happ.trans (congrArg some hearly.2))
        | agreed hd ha =>
            exact Or.inl (happ.trans (congrArg some (hd.applied.symm.trans ha)))
        | held _ _ hh =>
            rcases hh with hh | hh
            · exact nomatch hp.symm.trans hh
            · exact nomatch hup.symm.trans hh
        | sent => exact Or.inr (List.mem_append_right _ List.mem_cons_self)
  refine ⟨htold, fun hd => ?_⟩
  rw [Told, hd] at htold
  exact htold.imp_left GateArbiter.desired_of_want

/-- The supervisor isolates AMCL and the gate closes. -/
def isolatedRun : List (SupervisorEvent ℤ) :=
  [.timer 1 {} "", .timer 31 { gnss := some true } "", .timer 32 { gnss := some true } "",
    .timer 33 { gnss := some true } "", .serve, .respond,
    .gate .tick, .gate .serve, .gate .respond]

/-- The defaults, with the recovery enabled. -/
def recoveringConfig : SupervisorConfig ℤ :=
  { SupervisorConfig.defaults with
    machine := { SupervisorConfig.defaults.machine with recoveryEnabled := true } }

/-- The arbiter crashes while AMCL is attached and is back when the supervisor isolates it. -/
def restartedRun : List (SupervisorEvent ℤ) :=
  [.timer 1 {} "", .gate .tick, .gate .serve, .gate .respond, .crash, .timer 2 {} "", .restart,
    .gate .tick, .gate .serve, .gate .respond] ++ isolatedRun.tail

/-- Right after the isolation the arbiter keeps the gate closed. -/
theorem supervisor_told_isolated : ∃ s s' : SupervisorWorld ℤ,
    exec (step recoveringConfig) init restartedRun = some s ∧ s.up = true ∧ s.Settled ∧
      s.step recoveringConfig (.timer 34 {} "") = some s' ∧
      s'.node.machine.attached = false ∧ s'.Told ∧
      (s'.gate.node.arbiter.desired = false ∨ false ∈ s'.requests) := by
  obtain ⟨s, hr, hup, hset, hdetached⟩ : ∃ s,
      exec (step recoveringConfig) init restartedRun = some s ∧ s.up = true ∧ s.Settled ∧
        ∀ s' ∈ s.step recoveringConfig (.timer 34 {} ""), s'.node.machine.attached = false :=
    exists_exec (by decide +kernel)
  have hdetached := hdetached _ rfl
  obtain ⟨htold, hdesired⟩ := supervisor_told recoveringConfig restartedRun s _ 34 {} ""
    (by decide +kernel) hr hup hset rfl
  exact ⟨s, _, hr, hup, hset, rfl, hdetached, htold, hdesired hdetached⟩

/-- The arbiter crashes with the gate closed, starts again and opens it: the supervisor's tick
tells it nothing. -/
theorem restarted_arbiter_not_told :
    let es : List (SupervisorEvent ℤ) :=
      isolatedRun ++ [.crash, .restart, .gate .tick, .gate .serve, .gate .respond]
    (∃ s, exec (step recoveringConfig) init es = some s ∧ s.up = true ∧ s.Settled) ∧
      ∃ s', exec (step recoveringConfig) init (es ++ [.timer 34 {} ""]) = some s' ∧
        ¬ s'.Told ∧ s'.node.machine.attached = false ∧ s'.gate.gate = some true :=
  ⟨exists_exec (by decide +kernel), exists_exec (by decide +kernel)⟩

/-- The supervisor takes AMCL for detached and has nothing more to send, while the arbiter wants it
attached. -/
structure Forgotten (s : SupervisorWorld R) : Prop where
  idle : s.node.gatePending = false
  settled : s.Settled
  believed : s.node.appliedAttach = false
  want : s.want = some true

theorem Forgotten.step (h : Forgotten s) (hd : s'.node.machine.attached = false)
    (hs : s.step cfg e = some s') : Forgotten s' := by
  cases step_effect hs with
  | timer ht =>
      cases ht with
      | early =>
          rw [List.append_nil]
          exact h
      | agreed hm | held hm =>
          rw [List.append_nil]
          exact ⟨hm.pending.trans h.idle, h.settled, hm.applied.trans h.believed, h.want⟩
      | sent hm ha =>
          have hb := hm.applied.trans h.believed
          exact absurd (hb.trans hd.symm) ha
  | serve _ hr => exact nomatch h.settled.1.symm.trans hr
  | respond hr | loseResponse hr => exact nomatch h.settled.2.symm.trans hr
  | crash _ hn =>
      have hw := congrArg (fun n : AmclGateArbiterNode => n.arbiter.want "supervisor") hn
      exact ⟨h.idle, ⟨rfl, rfl⟩, h.believed, hw.trans h.want⟩
  | restart _ hn =>
      have hw := congrArg (fun n : AmclGateArbiterNode => n.arbiter.want "supervisor") hn
      exact ⟨h.idle, h.settled, h.believed, hw.trans rfl⟩
  | lateServe hn =>
      have hw := congrArg (fun n : AmclGateArbiterNode => n.arbiter.want "supervisor") hn
      exact ⟨h.idle, h.settled, h.believed, hw.trans h.want⟩
  | gate hw => exact ⟨h.idle, h.settled, h.believed, hw.trans h.want⟩

/-- What a restart has undone stays undone for as long as the machine holds AMCL off. -/
theorem forgotten_run (h : Forgotten s)
    (hd : Meets (step cfg) (fun s e => ∀ t, s.step cfg e = some t →
      t.node.machine.attached = false) s es)
    (hr : exec (step cfg) s es = some s') : Forgotten s' :=
  invariant (fun _ _ t h hq hs => h.step (hq t hs) hs) h hd hr

/-- The supervisor waits for the answer to a call that is out no more. -/
structure Deaf (s : SupervisorWorld R) : Prop where
  pending : s.node.gatePending = true
  settled : s.Settled

theorem Deaf.step (h : Deaf s) (hs : s.step cfg e = some s') : Deaf s' := by
  cases step_effect hs with
  | timer ht =>
      cases ht with
      | early =>
          rw [List.append_nil]
          exact h
      | agreed hm | held hm =>
          rw [List.append_nil]
          exact ⟨hm.pending.trans h.pending, h.settled⟩
      | sent _ _ hp => exact nomatch h.pending.symm.trans hp
  | serve _ hr => exact nomatch h.settled.1.symm.trans hr
  | respond hr | loseResponse hr => exact nomatch h.settled.2.symm.trans hr
  | crash => exact ⟨h.pending, rfl, rfl⟩
  | restart | gate | lateServe => exact ⟨h.pending, h.settled⟩

/-- A response that is lost ends the supervisor's calls. -/
theorem deaf_run (h : Deaf s) (hr : exec (step cfg) s es = some s') : Deaf s' :=
  invariant_of_step (fun _ _ _ h hs => h.step hs) h hr

end SupervisorWorld

end MgRobot.Localization
