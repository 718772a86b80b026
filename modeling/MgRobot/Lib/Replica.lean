import MgRobot.Lib.Runs
import Mathlib.Order.Lattice

/-!
# A replica kept up by snapshots and differences

A server whose content only grows publishes what it adds, in order, and answers
a request with a snapshot of its content. The replica adds the differences it
gets, replaces its content by a snapshot, and asks for one at a time. A
difference may only say that a snapshot is needed. Contents are elements of a
join semilattice.
-/

namespace MgRobot.Lib

set_option autoImplicit false

open MgRobot.Lib.Runs

variable {α : Type*}

/-- Differences and snapshots carry the number of server steps they are made after. -/
structure Replica (α : Type*) where
  server : α
  steps : Nat
  client : α
  busy : Bool
  requests : Nat
  responses : List (Nat × α)
  diffs : List (Nat × Option α)
  deriving DecidableEq

namespace Replica

inductive Event (α : Type*) where
  | grow (added : α) (carried : Bool)
  | fetch
  | snapshot
  | deliverDiff
  | deliverResponse
  deriving DecidableEq

/-- The replica has just asked for its first snapshot. -/
def init (server client : α) : Replica α := ⟨server, 0, client, true, 1, [], []⟩

def fetch (s : Replica α) : Replica α :=
  if s.busy then s else { s with busy := true, requests := s.requests + 1 }

def step [Max α] (s : Replica α) : Event α → Option (Replica α)
  | .grow added carried =>
      some { s with
        server := s.server ⊔ added
        steps := s.steps + 1
        diffs := s.diffs ++ [(s.steps + 1, if carried then some added else none)] }
  | .fetch => some s.fetch
  | .snapshot =>
      match s.requests with
      | 0 => none
      | k + 1 =>
          some { s with requests := k, responses := s.responses ++ [(s.steps, s.server)] }
  | .deliverDiff =>
      match s.diffs with
      | [] => none
      | (_, some added) :: rest => some { s with client := s.client ⊔ added, diffs := rest }
      | (_, none) :: rest => some (fetch { s with diffs := rest })
  | .deliverResponse =>
      match s.responses with
      | [] => none
      | (_, content) :: rest =>
          some { s with client := content, busy := false, responses := rest }

/-- A difference that is delivered while a snapshot is on its way is part of that snapshot. -/
def Covered (s : Replica α) (e : Event α) : Prop :=
  e = .deliverDiff → ∀ d ∈ s.diffs.head?, ∀ r ∈ s.responses, d.1 ≤ r.1

/-- Nothing is on its way. -/
def Quiet (s : Replica α) : Prop := s.requests = 0 ∧ s.responses = [] ∧ s.diffs = []

variable [SemilatticeSup α] {s t : Replica α} {e : Event α} {es : List (Event α)} {n : Nat}
  {content : α}

/-- `content` is what the server had after some step `n`, brought no further than to now: it has
the differences up to `n`, and with the later ones, if each carries what it adds, it has
everything. -/
structure Current (s : Replica α) (n : Nat) (content : α) : Prop where
  le_steps : n ≤ s.steps
  le_server : content ≤ s.server
  old : ∀ d ∈ s.diffs, d.1 ≤ n → ∀ a ∈ d.2, a ≤ content
  rest : (∀ d ∈ s.diffs, n < d.1 → d.2 ≠ none) → ∀ b, content ≤ b →
    (∀ d ∈ s.diffs, n < d.1 → ∀ a ∈ d.2, a ≤ b) → s.server ≤ b

structure Sound (s : Replica α) : Prop where
  waits : s.busy = true → s.requests + s.responses.length = 1
  idle : s.busy = false → s.requests = 0 ∧ s.responses = [] ∧ ∃ n, Current s n s.client
  snapshot : ∀ r ∈ s.responses, Current s r.1 r.2
  carried : ∀ d ∈ s.diffs, ∀ a ∈ d.2, a ≤ s.server

theorem sound_init (server client : α) : Sound (init server client) where
  waits _ := rfl
  idle := nofun
  snapshot := nofun
  carried := nofun

theorem Current.grow {added : α} {carries : Bool} (h : Current s n content) :
    Current { s with
      server := s.server ⊔ added
      steps := s.steps + 1
      diffs := s.diffs ++ [(s.steps + 1, if carries then some added else none)] } n content where
  le_steps := h.le_steps.trans (Nat.le_succ _)
  le_server := h.le_server.trans le_sup_left
  old d hd hn := by
    rcases List.mem_append.mp hd with hd | hd
    · exact h.old d hd hn
    · obtain rfl := List.mem_singleton.mp hd
      have hle := h.le_steps
      dsimp only at hn
      omega
  rest hcarry b hb hall := by
    have hlast := List.mem_append_right s.diffs
      (List.mem_singleton_self (s.steps + 1, if carries then some added else none))
    have hlt : n < s.steps + 1 := Nat.lt_succ_of_le h.le_steps
    have hsome := hcarry _ hlast hlt
    cases carries with
    | false => exact absurd rfl hsome
    | true =>
        apply sup_le
        · exact h.rest (fun d hd => hcarry d (List.mem_append_left _ hd)) b hb
            fun d hd => hall d (List.mem_append_left _ hd)
        · exact hall _ hlast hlt added rfl

/-- A difference that is delivered is dropped: it is old, or it has been added. -/
theorem Current.deliver {k : Nat} {x : Option α} {rest : List (Nat × Option α)} {content' : α}
    (h : Current s n content) (hd : s.diffs = (k, x) :: rest) (hle : content ≤ content')
    (hle' : content' ≤ s.server) (hx : n < k → ∃ a, x = some a ∧ a ≤ content') :
    Current { s with diffs := rest } n content' where
  le_steps := h.le_steps
  le_server := hle'
  old d hmem hn a ha := (h.old d (by rw [hd]; exact List.mem_cons_of_mem _ hmem) hn a ha).trans hle
  rest hcarry b hb hall := by
    refine h.rest ?_ b (hle.trans hb) ?_
    · intro d hmem hn
      rw [hd] at hmem
      rcases List.mem_cons.mp hmem with rfl | hmem
      · obtain ⟨a, rfl, _⟩ := hx hn
        nofun
      · exact hcarry d hmem hn
    · intro d hmem hn a ha
      rw [hd] at hmem
      rcases List.mem_cons.mp hmem with rfl | hmem
      · obtain ⟨a', hxa, ha'⟩ := hx hn
        obtain rfl := Option.some.inj (hxa.symm.trans ha)
        exact ha'.trans hb
      · exact hall d hmem hn a ha

/-- A step that leaves the server and the differences alone. -/
theorem Current.congr (h : Current s n content) (h1 : t.server = s.server)
    (h2 : t.steps = s.steps) (h3 : t.diffs = s.diffs) : Current t n content where
  le_steps := by rw [h2]; exact h.le_steps
  le_server := by rw [h1]; exact h.le_server
  old := by rw [h3]; exact h.old
  rest := by rw [h1, h3]; exact h.rest

theorem Sound.current_server (h : Sound s) : Current s s.steps s.server where
  le_steps := Nat.le_refl _
  le_server := le_refl _
  old d hd _ := h.carried d hd
  rest _ _ hb _ := hb

theorem Sound.fetch (h : Sound s) : Sound s.fetch := by
  unfold Replica.fetch
  split_ifs with hb
  · exact h
  · rw [Bool.not_eq_true] at hb
    obtain ⟨hreq, hresp, _⟩ := h.idle hb
    exact
      { waits := fun _ => by simp [hreq, hresp]
        idle := nofun
        snapshot := fun r hr => by rw [hresp] at hr; cases hr
        carried := h.carried }

/-- A replica with a request or a snapshot on its way is busy. -/
theorem Sound.busy_of_out (h : Sound s) (ho : s.requests ≠ 0 ∨ s.responses ≠ []) :
    s.busy = true := by
  rw [← Bool.not_eq_false]
  intro hb
  obtain ⟨hreq, hresp, _⟩ := h.idle hb
  rcases ho with ho | ho
  · exact ho hreq
  · exact ho hresp

theorem Sound.grow (h : Sound s) (added : α) (carries : Bool) : Sound { s with
    server := s.server ⊔ added
    steps := s.steps + 1
    diffs := s.diffs ++ [(s.steps + 1, if carries then some added else none)] } where
  waits := h.waits
  idle hb := by
    obtain ⟨hreq, hresp, n, hn⟩ := h.idle hb
    exact ⟨hreq, hresp, n, hn.grow⟩
  snapshot r hr := (h.snapshot r hr).grow
  carried d hd a ha := by
    rcases List.mem_append.mp hd with hd | hd
    · exact (h.carried d hd a ha).trans le_sup_left
    · obtain rfl := List.mem_singleton.mp hd
      cases carries with
      | false => cases ha
      | true =>
          obtain rfl := Option.some.inj ha
          exact le_sup_right

/-- The server answers the one request that is out. -/
theorem Sound.answer (h : Sound s) {k : Nat} (hk : s.requests = k + 1) :
    Sound { s with requests := k, responses := s.responses ++ [(s.steps, s.server)] } := by
  have hb := h.busy_of_out (Or.inl (by omega))
  have hone := h.waits hb
  have hresp : s.responses = [] := List.eq_nil_of_length_eq_zero (by omega)
  refine ⟨fun _ => ?_, fun hf => ?_, fun r hr => ?_, h.carried⟩
  · rw [List.length_append, List.length_singleton]
    show k + (s.responses.length + 1) = 1
    omega
  · rw [hb] at hf
    cases hf
  · rw [hresp, List.nil_append, List.mem_singleton] at hr
    subst hr
    exact h.current_server.congr rfl rfl rfl

section Diff

variable {k : Nat} {x : Option α} {rest : List (Nat × Option α)}

theorem Sound.carried_rest (h : Sound s) (hd : s.diffs = (k, x) :: rest) :
    ∀ d ∈ rest, ∀ a ∈ d.2, a ≤ s.server := by
  intro d hmem
  apply h.carried d
  rw [hd]
  exact List.mem_cons_of_mem _ hmem

/-- The snapshots on their way do not miss a covered difference. -/
theorem Sound.snapshot_rest (h : Sound s) (hc : Covered s .deliverDiff)
    (hd : s.diffs = (k, x) :: rest) :
    ∀ r ∈ s.responses, Current { s with diffs := rest } r.1 r.2 := by
  intro r hr
  have hle : k ≤ r.1 := by
    apply hc rfl (k, x) _ r hr
    rw [hd]
    rfl
  have hcur := h.snapshot r hr
  apply hcur.deliver hd (le_refl _) hcur.le_server
  intro hlt
  omega

theorem Sound.deliverDiff {added : α} (h : Sound s) (hc : Covered s .deliverDiff)
    (hd : s.diffs = (k, some added) :: rest) :
    Sound { s with client := s.client ⊔ added, diffs := rest } where
  waits := h.waits
  idle hb := by
    obtain ⟨hreq, hresp, n, hn⟩ := h.idle hb
    have ha : added ≤ s.server := by
      apply h.carried (k, some added) _ added rfl
      rw [hd]
      exact List.mem_cons_self
    have hcur := hn.deliver hd le_sup_left (sup_le hn.le_server ha)
      fun _ => ⟨added, rfl, le_sup_right⟩
    exact ⟨hreq, hresp, n, hcur.congr rfl rfl rfl⟩
  snapshot r hr := (h.snapshot_rest hc hd r hr).congr rfl rfl rfl
  carried := h.carried_rest hd

/-- A difference without content is made up for by a snapshot: the one on its way has it, or it is
asked for now. -/
theorem Sound.deliverRefresh (h : Sound s) (hc : Covered s .deliverDiff)
    (hd : s.diffs = (k, none) :: rest) : Sound (Replica.fetch { s with diffs := rest }) := by
  unfold Replica.fetch
  split_ifs with hb
  · refine ⟨h.waits, fun hf => ?_, h.snapshot_rest hc hd, h.carried_rest hd⟩
    rw [show s.busy = true from hb] at hf
    cases hf
  · rw [Bool.not_eq_true] at hb
    obtain ⟨hreq, hresp, _⟩ := h.idle hb
    refine ⟨fun _ => ?_, nofun, fun r hr => ?_, h.carried_rest hd⟩
    · show s.requests + 1 + s.responses.length = 1
      rw [hreq, hresp]
      rfl
    · rw [hresp] at hr
      cases hr

end Diff

theorem Sound.deliverResponse (h : Sound s) {rest : List (Nat × α)}
    (hr : s.responses = (n, content) :: rest) :
    Sound { s with client := content, busy := false, responses := rest } := by
  have hmem : (n, content) ∈ s.responses := by
    rw [hr]
    exact List.mem_cons_self
  have hb := h.busy_of_out (Or.inr (List.ne_nil_of_mem hmem))
  have hone := h.waits hb
  rw [hr, List.length_cons] at hone
  have hrest : rest = [] := List.eq_nil_of_length_eq_zero (by omega)
  subst hrest
  refine ⟨nofun, fun _ => ?_, nofun, h.carried⟩
  exact ⟨show s.requests = 0 by omega, rfl, n, (h.snapshot _ hmem).congr rfl rfl rfl⟩

theorem Sound.step (h : Sound s) (hc : Covered s e) (hs : s.step e = some t) : Sound t := by
  cases e with
  | grow added carries =>
      cases hs
      exact h.grow added carries
  | fetch =>
      cases hs
      exact h.fetch
  | snapshot =>
      simp only [Replica.step] at hs
      split at hs
      · cases hs
      · next k hk =>
        cases hs
        exact h.answer hk
  | deliverDiff =>
      simp only [Replica.step] at hs
      split at hs
      · cases hs
      · next hd =>
        cases hs
        exact h.deliverDiff hc hd
      · next hd =>
        cases hs
        exact h.deliverRefresh hc hd
  | deliverResponse =>
      simp only [Replica.step] at hs
      split at hs
      · cases hs
      · next hr =>
        cases hs
        exact h.deliverResponse hr

theorem Sound.client_eq (h : Sound s) (hq : Quiet s) : s.client = s.server := by
  obtain ⟨hreq, hresp, hd⟩ := hq
  have hb : s.busy = false := by
    rw [← Bool.not_eq_true]
    intro hb
    have hone := h.waits hb
    rw [hreq, hresp] at hone
    cases hone
  obtain ⟨_, _, n, hn⟩ := h.idle hb
  apply le_antisymm hn.le_server
  apply hn.rest
  · rw [hd]
    nofun
  · exact le_refl _
  · rw [hd]
    nofun

/-- A replica whose snapshots cover the differences delivered before them has the server's
content once nothing is on its way. -/
theorem client_eq_server {server client : α}
    (hc : Meets Replica.step Covered (init server client) es)
    (hr : exec Replica.step (init server client) es = some s) (hq : Quiet s) :
    s.client = s.server := by
  have h : Sound s := invariant (fun _ _ _ h hc hs => h.step hc hs) (sound_init server client) hc hr
  exact h.client_eq hq

end Replica

end MgRobot.Lib
