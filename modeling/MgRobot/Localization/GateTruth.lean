import MgRobot.Localization.GateRuns

/-!
# What the arbiter achieves

A tick at a ready gate with no call out leaves the gate as it is wanted or sends
what is wanted; what the arbiter takes for applied is so. Both rest on outages
being seen and on no response coming after its outage was seen. A call that is
never answered ends all this: the arbiter sends nothing more.
-/

namespace MgRobot.Localization

set_option autoImplicit false

open MgRobot.Lib.Runs

namespace GateWorld

variable {w w' : GateWorld} {e : GateEvent} {up : Bool} {es : List GateEvent}

theorem Sound.tick {g : Bool} (h : Sound w) (hg : w.gate = some g)
    (hp : w.node.pending = false) (hs : w.step .tick = some w') :
    w'.gate = some w'.node.arbiter.desired ∨ w'.node.arbiter.desired ∈ w'.requests := by
  cases step_effect hs with
  | tick hr =>
      unfold reconciledTo
      rw [hg] at hr ⊢
      cases hr with
      | waiting hp' =>
          rw [hp] at hp'
          cases hp'
      | applied _ ha =>
          left
          exact congrArg some (h.mark g _ hg hp ha).symm
      | sent =>
          right
          exact List.mem_append_right _ List.mem_cons_self

/-- After a tick at a ready gate with no call out and none lost, the gate has the desired value or
a request for it has been sent. -/
theorem tick_applies (up : Bool) (es : List GateEvent) (w w' : GateWorld)
    (hr : exec step (init up) es = some w) (ho : Meets step OutageSeen (init up) es)
    (hl : Meets step NoLateResponse (init up) es) (hgate : w.gate ≠ none)
    (hreq : w.requests = []) (hresp : w.responses = []) (hlost : w.lost = false)
    (hs : w.step .tick = some w') :
    w'.gate = some w'.node.arbiter.desired ∨ w'.node.arbiter.desired ∈ w'.requests := by
  have h := sound_run ho hl hr
  obtain ⟨g, hg⟩ := Option.ne_none_iff_exists'.mp hgate
  have hp : w.node.pending = false := by
    rw [← Bool.not_eq_true]
    intro hp
    rw [h.out hp hreq hresp] at hlost
    cases hlost
  exact h.tick hg hp hs

/-- The gate has closed for the waypoint and goes down. -/
def closedThenDown : List GateEvent :=
  [.tick, .serve, .respond, .request "waypoint" false, .serve, .respond, .crash]

/-- An outage that a tick sees: the next tick closes the gate again. -/
theorem tick_applies_after_outage :
    ∃ w w', exec step (init true) (closedThenDown ++ [.tick, .restart]) = some w ∧
      w.step .tick = some w' ∧ w'.requests = [false] ∧
      (w'.gate = some w'.node.arbiter.desired ∨ w'.node.arbiter.desired ∈ w'.requests) := by
  have h : (exec step (init true) (closedThenDown ++ [.tick, .restart])).any (fun w =>
      decide (w.gate ≠ none ∧ w.requests = [] ∧ w.responses = [] ∧ w.lost = false) &&
        (w.step .tick).any fun w' => decide (w'.requests = [false])) = true := by decide +kernel
  obtain ⟨w, hr, hw⟩ := Option.any_eq_true _ _ |>.mp h
  rw [Bool.and_eq_true, decide_eq_true_eq] at hw
  obtain ⟨⟨hgate, hreq, hresp, hlost⟩, ht⟩ := hw
  obtain ⟨w', hs, hreq'⟩ := Option.any_eq_true _ _ |>.mp ht
  refine ⟨w, w', hr, hs, of_decide_eq_true hreq', ?_⟩
  exact tick_applies true _ w w' hr (by decide +kernel) (by decide +kernel) hgate hreq hresp hlost
    hs

/-- An outage between two ticks: the next tick sends nothing to the open gate. -/
theorem tick_misses_short_outage :
    ∃ w w', exec step (init true) (closedThenDown ++ [.restart]) = some w ∧
      (w.gate = some true ∧ w.requests = [] ∧ w.responses = [] ∧ w.lost = false) ∧
      w.step .tick = some w' ∧
      ¬ (w'.gate = some w'.node.arbiter.desired ∨ w'.node.arbiter.desired ∈ w'.requests) := by
  have h : (exec step (init true) (closedThenDown ++ [.restart])).any (fun w =>
      decide (w.gate = some true ∧ w.requests = [] ∧ w.responses = [] ∧ w.lost = false) &&
        (w.step .tick).any fun w' => decide (¬ (w'.gate = some w'.node.arbiter.desired ∨
          w'.node.arbiter.desired ∈ w'.requests))) = true := by decide +kernel
  obtain ⟨w, hr, hw⟩ := Option.any_eq_true _ _ |>.mp h
  rw [Bool.and_eq_true, decide_eq_true_eq] at hw
  obtain ⟨w', hs, hbad⟩ := Option.any_eq_true _ _ |>.mp hw.2
  exact ⟨w, w', hr, hw.1, hs, of_decide_eq_true hbad⟩

/-- The arbiter waits for an answer that is not coming. -/
structure Stuck (w : GateWorld) : Prop where
  pending : w.node.pending = true
  requests : w.requests = []
  responses : w.responses = []

theorem Stuck.reconciled {m : AmclGateArbiterNode} {sends : List Bool} (h : Stuck w)
    (hr : w.node.Reconciled w.gate.isSome m sends) : Stuck (w.reconciledTo m sends) := by
  have hp := h.pending
  have hreq : w.requests ++ [] = [] := by rw [List.append_nil, h.requests]
  unfold reconciledTo
  generalize w.gate.isSome = ready at hr
  cases hr with
  | lost | away | waiting => exact ⟨hp, hreq, h.responses⟩
  | applied hp' =>
      rw [hp] at hp'
      cases hp'
  | sent hp' =>
      rw [hp] at hp'
      cases hp'

theorem Stuck.step (h : Stuck w) (hs : w.step e = some w') : Stuck w' := by
  cases step_effect hs with
  | want => exact ⟨h.pending, h.requests, h.responses⟩
  | @changed who data arbiter last m sends ha hd hr =>
      have h' : Stuck { w with node := { w.node with arbiter := arbiter, lastState := last } } :=
        ⟨h.pending, h.requests, h.responses⟩
      exact h'.reconciled hr
  | tick hr => exact h.reconciled hr
  | serve _ hv =>
      rw [h.requests] at hv
      cases hv
  | respond hv =>
      rw [h.responses] at hv
      cases hv
  | loseResponse hv =>
      rw [h.responses] at hv
      cases hv
  | crash => exact ⟨h.pending, rfl, h.responses⟩
  | restart => exact ⟨h.pending, h.requests, h.responses⟩

/-- After a lost call no request is ever sent again, whatever happens. -/
theorem stuck_run (h : Stuck w) (hr : exec step w es = some w') : Stuck w' :=
  invariant_of_step (fun _ _ _ h hs => h.step hs) h hr

/-- While a call is out, the arbiter knows that the desired value is not applied. -/
def Waits (w : GateWorld) : Prop :=
  w.gate ≠ none → w.node.pending = true → w.node.arbiter.mark ≠ some w.node.arbiter.desired

theorem Waits.reconciled {m : AmclGateArbiterNode} {sends : List Bool} (h : Waits w)
    (hr : w.node.Reconciled w.gate.isSome m sends) : Waits (w.reconciledTo m sends) := by
  intro hg hp
  have hg : w.gate ≠ none := hg
  rw [Option.isSome_iff_ne_none.mpr hg] at hr
  cases hr with
  | waiting hp' => exact h hg hp'
  | applied hp' =>
      have hp : w.node.pending = true := hp
      rw [hp'] at hp
      cases hp
  | sent _ ha => exact ha

theorem Waits.step (h : Waits w) (hsound : Sound w) (ho : OutageSeen w e) (hn : NoReturn w e)
    (hs : w.step e = some w') : Waits w' := by
  cases step_effect hs with
  | want ha => exact fun hg hp => hn hp hg _ ha
  | @changed who data arbiter last m sends ha hd hr =>
      have h' : Waits { w with node := { w.node with arbiter := arbiter, lastState := last } } :=
        fun hg hp => hn hp hg arbiter ha
      exact h'.reconciled hr
  | tick hr => exact h.reconciled hr
  | serve hg =>
      intro _ hp
      apply h _ hp
      rw [hg]
      exact Option.some_ne_none _
  | respond => exact fun _ hp => nomatch hp
  | loseResponse => exact h
  | crash => exact fun hg _ => absurd rfl hg
  | restart hg =>
      have hw := hsound.seen hg (ho rfl)
      intro _ hp
      rw [(hsound.fresh hw).2.2.2.2 hp]
      exact (Option.some_ne_none _).symm

theorem waits_run (ho : Meets step OutageSeen (init up) es)
    (hl : Meets step NoLateResponse (init up) es) (hn : Meets step NoReturn (init up) es)
    (hr : exec step (init up) es = some w) : Waits w := by
  have hrun := invariant (I := fun w => Sound w ∧ Waits w)
    (fun _ _ _ h hq hs => ⟨h.1.step hq.1.1 hq.1.2 hs, h.2.step h.1 hq.1.1 hq.2 hs⟩)
    ⟨sound_init up, fun _ hp => nomatch hp⟩ ((ho.and hl).and hn) hr
  exact hrun.2

/-- In a run whose outages are seen, what the arbiter takes for applied is what the gate has, when
no closing response comes after its outage was seen and the desired value does not come back to
the applied one while a call is out. -/
theorem believed_value_is_applied (up : Bool) (es : List GateEvent) (w : GateWorld)
    (hr : exec step (init up) es = some w) (ho : Meets step OutageSeen (init up) es)
    (hl : Meets step NoLateResponse (init up) es) (hn : Meets step NoReturn (init up) es)
    (hb : w.node.arbiter.needsApply = false) :
    ∀ g, w.gate = some g → g = w.node.arbiter.desired := by
  intro g hg
  have ha := GateArbiter.needsApply_eq_false.mp hb
  have hp : w.node.pending = false := by
    rw [← Bool.not_eq_true]
    intro hp
    exact waits_run ho hl hn hr (by rw [hg]; nofun) hp ha
  exact ((sound_run ho hl hr).mark g _ hg hp ha).symm

/-- An outage that is seen with nothing out, and the closing that follows. -/
theorem believed_value_is_applied_closed :
    ∃ w, exec step (init true) (closedThenDown ++ [.tick, .restart, .tick, .serve, .respond]) =
        some w ∧ w.gate = some false ∧ w.node.arbiter.needsApply = false ∧
      ∀ g, w.gate = some g → g = w.node.arbiter.desired := by
  obtain ⟨w, hr, hg, hb⟩ : ∃ w, exec step (init true)
      (closedThenDown ++ [.tick, .restart, .tick, .serve, .respond]) = some w ∧
        w.gate = some false ∧ w.node.arbiter.needsApply = false :=
    exists_exec (by decide +kernel)
  refine ⟨w, hr, hg, hb, ?_⟩
  refine believed_value_is_applied true _ w hr (by decide +kernel) (by decide +kernel) ?_ hb
  decide +kernel

/-- The gate closes, answers and goes down; a tick sees it, and only then comes the answer: the
arbiter takes the gate that restarts open for closed. -/
theorem late_response_believed :
    let es : List GateEvent := [.tick, .serve, .respond, .request "waypoint" false, .serve, .crash,
      .tick, .respond, .restart]
    Meets step OutageSeen (init true) es ∧
      ∃ w, exec step (init true) es = some w ∧ w.node.arbiter.needsApply = false ∧
        w.gate = some true ∧ w.node.arbiter.desired = false := by
  intro es
  exact ⟨by decide +kernel, exists_exec (by decide +kernel)⟩

end GateWorld

end MgRobot.Localization
