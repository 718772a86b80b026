import MgRobot.WebUi.LogStreamRuns

/-!
# What every run of the log stream keeps

The rows are few and have different keys, and a mounted hook waits for an event of the
socket in `wsRef` or for a timer, whatever its timers do.
-/

namespace MgRobot.WebUi

set_option autoImplicit false

open MgRobot.Lib.Runs

namespace DockerLogStream

variable {s t : DockerLogStream} {e : Event} {events : List Event} {i : Nat} {ws : LogSocket}

/-! ## The rows -/

/-- The rows on show, those that wait for the next flush, and the last key given. -/
def rows (s : DockerLogStream) : List LogLine × List LogLine × Nat :=
  (s.entries, s.pending, s.entryId)

@[simp] theorem rows_onSocket (f : LogSocket → LogSocket) : (s.onSocket i f).rows = s.rows := rfl

@[simp] theorem rows_send (services : List String) : (s.send services).rows = s.rows := by
  unfold send
  split
  · rfl
  · split_ifs
    · rfl
    · rfl

@[simp] theorem rows_scheduleReconnect (baseUrl : String) :
    (s.scheduleReconnect baseUrl).rows = s.rows := by
  unfold scheduleReconnect
  split_ifs
  · rfl
  · rfl

@[simp] theorem rows_connect (baseUrl : String) : (s.connect baseUrl).rows = s.rows := by
  unfold connect
  split_ifs
  · rfl
  · rfl
  · rfl

@[simp] theorem rows_cleanup : s.cleanup.rows = s.rows := by
  rw [cleanup_eq]
  rfl

@[simp] theorem rows_effect : s.effect.rows = s.rows :=
  rows_connect (s := { s with mounted := true }) s.baseUrl

@[simp] theorem rows_onopen : (s.onopen i).rows = s.rows := by
  unfold onopen
  split_ifs
  · rfl
  · exact rows_send _

/-- The rows have different keys, given in order, and no more are on show than the panel holds. -/
structure Keyed (s : DockerLogStream) : Prop where
  bounded : s.entries.length ≤ maxLogEntries
  increasing : ((s.entries ++ s.pending).map LogLine.id).Pairwise (· < ·)
  given : ∀ row ∈ s.entries ++ s.pending, row.id ≤ s.entryId

theorem Keyed.of_rows (h : Keyed s) (hrows : t.rows = s.rows) : Keyed t := by
  obtain ⟨hentries, hrest⟩ := Prod.ext_iff.mp hrows
  obtain ⟨hpending, hid⟩ := Prod.ext_iff.mp hrest
  have hentries : t.entries = s.entries := hentries
  have hpending : t.pending = s.pending := hpending
  have hid : t.entryId = s.entryId := hid
  refine ⟨?_, ?_, ?_⟩
  · rw [hentries]
    exact h.bounded
  · rw [hentries, hpending]
    exact h.increasing
  · rw [hentries, hpending, hid]
    exact h.given

theorem Keyed.pushEntry (h : Keyed s) (entry : StreamEntry) : Keyed (s.pushEntry entry) := by
  unfold DockerLogStream.pushEntry
  split
  · exact h
  · split
    · rename_i service line _ _
      refine ⟨h.bounded, ?_, fun row hrow => ?_⟩
      · show ((s.entries ++ (s.pending ++ [_])).map LogLine.id).Pairwise (· < ·)
        rw [← List.append_assoc, List.map_append]
        refine List.pairwise_append.mpr ⟨h.increasing, List.pairwise_singleton _ _, ?_⟩
        intro a ha b hb
        obtain ⟨row, hrow, rfl⟩ := List.mem_map.mp ha
        obtain rfl := List.mem_singleton.mp hb
        exact Nat.lt_succ_of_le (h.given row hrow)
      · change row ∈ s.entries ++ (s.pending ++ [⟨s.entryId + 1, service, line⟩]) at hrow
        rw [← List.append_assoc, List.mem_append] at hrow
        rcases hrow with hrow | hrow
        · exact Nat.le_succ_of_le (h.given row hrow)
        · obtain rfl := List.mem_singleton.mp hrow
          exact le_rfl
    · exact h

theorem Keyed.onmessage (h : Keyed s) (batch : Option StreamBatch) : Keyed (s.onmessage batch) := by
  cases batch with
  | none => exact h
  | some batch =>
      simp only [DockerLogStream.onmessage]
      generalize batch.entries.getD [] = entries
      induction entries generalizing s with
      | nil => exact h
      | cons entry rest ih => exact ih (h.pushEntry entry)

theorem Keyed.flushPending (h : Keyed s) : Keyed s.flushPending := by
  unfold DockerLogStream.flushPending
  split_ifs
  · exact h
  · have hsub := List.drop_sublist ((s.entries ++ s.pending).length - maxLogEntries)
      (s.entries ++ s.pending)
    refine ⟨?_, ?_, fun row hrow => ?_⟩
    · dsimp only
      rw [List.length_drop]
      omega
    · dsimp only
      rw [List.append_nil]
      exact h.increasing.sublist (hsub.map LogLine.id)
    · dsimp only at hrow
      rw [List.append_nil] at hrow
      exact h.given row (hsub.subset hrow)

theorem Keyed.step (h : Keyed s) (hs : s.step e = some t) : Keyed t := by
  cases step_effect hs with
  | sameUrl => exact h
  | newUrl => exact h.of_rows (rows_effect.trans rows_cleanup)
  | servicesChanged => exact h.of_rows (rows_send _)
  | unmount => exact h.of_rows rows_cleanup
  | reconnect => exact h.of_rows (rows_connect _)
  | flush => exact h.flushPending
  | clear =>
      exact ⟨Nat.zero_le _, List.Pairwise.nil, fun row hrow => absurd hrow List.not_mem_nil⟩
  | opened => exact h.of_rows (by simp)
  | received => exact h.onmessage _
  | errored => exact h.of_rows rfl
  | closed => exact h.of_rows (rows_scheduleReconnect _)

theorem Keyed.initial (baseUrl : String) : Keyed (initial baseUrl) :=
  ⟨Nat.zero_le _, List.Pairwise.nil, fun _ hrow => absurd hrow List.not_mem_nil⟩

/-- Two rows never have the same key, and at most `maxLogEntries` are on show. -/
theorem rows_keyed (baseUrl : String) (subscribedServices : List String)
    (hr : exec step (mount baseUrl subscribedServices) events = some t) : Keyed t := by
  have hmount : Keyed (mount baseUrl subscribedServices) :=
    (Keyed.initial baseUrl).of_rows ((rows_send _).trans rows_effect)
  exact invariant_of_step (fun _ _ _ h hs => h.step hs) hmount hr

/-! ## What the hook waits for -/

/-- A mounted hook has a socket whose close event is still to come, or its timer runs. -/
def Waiting (s : DockerLogStream) : Prop :=
  s.mounted = true → s.reconnectTimer = none →
    ∃ i ws, s.ws = some i ∧ s.sockets[i]? = some ws ∧ ws.state ≠ .closed

/-- The sockets change, but none is closed by it. -/
theorem Waiting.onSocket (h : Waiting s) {f : LogSocket → LogSocket}
    (hf : ∀ ws, s.sockets[i]? = some ws → ws.state ≠ .closed → (f ws).state ≠ .closed) :
    Waiting (s.onSocket i f) := by
  intro hm htimer
  obtain ⟨j, ws, hws, hget, hstate⟩ := h hm htimer
  by_cases hj : i = j
  · subst hj
    exact ⟨i, f ws, hws, onSocket_getElem?_self f hget, hf ws hget hstate⟩
  · refine ⟨j, ws, hws, ?_, hstate⟩
    rw [DockerLogStream.onSocket, List.getElem?_modify_ne _ _ hj]
    exact hget

theorem Waiting.send (h : Waiting s) (services : List String) : Waiting (s.send services) := by
  unfold DockerLogStream.send
  split
  · exact h
  · split_ifs
    · exact h.onSocket fun _ _ hstate => hstate
    · exact h

theorem Waiting.servicesEffect (h : Waiting s) (subscribedServices : List String) :
    Waiting (s.servicesEffect subscribedServices) := by
  let payload := servicePayload subscribedServices
  exact Waiting.send (s := { s with
    subscribedServices := subscribedServices, lastServices := payload }) h payload

/-- The rows do not matter. -/
theorem Waiting.frame (h : Waiting s) (entries pending : List LogLine) (entryId : Nat) :
    Waiting { s with entries := entries, pending := pending, entryId := entryId } :=
  fun hm htimer => h hm htimer

theorem Waiting.connect (baseUrl : String) : Waiting (s.connect baseUrl) := by
  intro hm htimer
  unfold DockerLogStream.connect at hm ⊢
  split_ifs at hm ⊢ with hunmounted hopen
  · simp [hm] at hunmounted
  · obtain ⟨i, ws, hws, hget, hstate⟩ := isOpen_iff.mp hopen
    exact ⟨i, ws, hws, hget, by simp [hstate]⟩
  · refine ⟨s.sockets.length, ⟨baseUrl, .connecting, []⟩, rfl, ?_, by simp⟩
    exact List.getElem?_concat_length

theorem Waiting.onopen (h : Waiting s) : Waiting (s.onopen i) := by
  unfold DockerLogStream.onopen
  split_ifs with hm
  · intro hmounted
    simp only [DockerLogStream.onSocket] at hmounted
    simp [hmounted] at hm
  · exact Waiting.send (s := { s with connected := true }) h _

/-- After `scheduleReconnect` the timer of a mounted hook runs. -/
theorem Waiting.scheduleReconnect (baseUrl : String) : Waiting (s.scheduleReconnect baseUrl) := by
  unfold DockerLogStream.scheduleReconnect
  split_ifs with hoff
  · intro hm htimer
    simp [hm, htimer] at hoff
  · exact fun _ htimer => absurd htimer (Option.some_ne_none baseUrl)

theorem Waiting.step (h : Waiting s) (hs : s.step e = some t) : Waiting t := by
  cases step_effect hs with
  | sameUrl => exact h
  | newUrl | reconnect => exact Waiting.connect _
  | servicesChanged => exact h.servicesEffect _
  | unmount =>
      rw [cleanup_eq]
      exact fun hmounted => absurd hmounted Bool.false_ne_true
  | flush =>
      obtain ⟨entries, pending, heq⟩ := flushPending_eq (s := s)
      rw [heq]
      exact h.frame _ _ _
  | clear => exact h.frame _ _ _
  | opened => exact (h.onSocket fun _ _ _ => by simp).onopen
  | @received i ws batch =>
      obtain ⟨pending, entryId, heq⟩ := onmessage_eq (s := s) batch
      rw [heq]
      exact h.frame _ _ _
  | errored => exact h.onSocket (f := fun ws => { ws with state := .failed }) fun _ _ _ => by simp
  | closed => exact Waiting.scheduleReconnect _

/-- The hook never gives up: while it is mounted, a connection is there or on its way, or the
timer will make one. -/
theorem waits_for_events (baseUrl : String) (subscribedServices : List String)
    (hr : exec step (mount baseUrl subscribedServices) events = some t) : Waiting t := by
  have heffect : Waiting (initial baseUrl).effect :=
    Waiting.connect (s := { initial baseUrl with mounted := true }) baseUrl
  have hmount : Waiting (mount baseUrl subscribedServices) := heffect.servicesEffect _
  exact invariant_of_step (fun _ _ _ h hs => h.step hs) hmount hr

end DockerLogStream

end MgRobot.WebUi
