import MgRobot.WebUi.ServiceCalls
import Mathlib.Data.List.Induction

/-!
# Every call is settled once

An event settles some of the calls that wait, and they leave the table. Over a run the
promise of a call gets the outcome of the first event that has one for its id.
-/

namespace MgRobot.WebUi

set_option autoImplicit false

open MgRobot.Lib MgRobot.Lib.Runs

variable {P D : Type} {codec : CallCodec P D}

/-! ## What an event settles -/

namespace CallWorld

variable {w w' : CallWorld D} {e : CallEvent P} {f : Nat → PendingCall → Option (Outcome D)}

/-- The calls for which `f` has an outcome are settled with it and leave the table, and their timers
are cleared. -/
structure Settles (f : Nat → PendingCall → Option (Outcome D)) (w w' : CallWorld D) : Prop where
  get?_iff : ∀ id call, w'.conn.pendingCalls.get? id = some call ↔
    w.conn.pendingCalls.get? id = some call ∧ f id call = none
  settled : w'.settled = w.settled ++ w.conn.pendingCalls.entries.filterMap fun e =>
    (f e.1 e.2).map fun outcome => (e.2.promise, outcome)
  timers : ∀ id, id ∈ w'.timers ↔
    id ∈ w.timers ∧ ∀ call, w.conn.pendingCalls.get? id = some call → f id call = none
  sent : w'.sent = w.sent
  promises : w'.promises = w.promises
  callCounter : w'.conn.callCounter = w.conn.callCounter

/-- The part of a world that only the calls change. -/
structure SameCalls (w w' : CallWorld D) : Prop where
  pendingCalls : w'.conn.pendingCalls = w.conn.pendingCalls
  callCounter : w'.conn.callCounter = w.conn.callCounter
  settled : w'.settled = w.settled
  timers : w'.timers = w.timers
  sent : w'.sent = w.sent
  promises : w'.promises = w.promises

theorem SameCalls.settles (h : SameCalls w w')
    (hf : ∀ id call, w.conn.pendingCalls.get? id = some call → f id call = none) :
    Settles f w w' where
  get?_iff id call := by
    rw [h.pendingCalls]
    exact ⟨fun hc => ⟨hc, hf id call hc⟩, And.left⟩
  settled := by
    rw [h.settled, List.filterMap_eq_nil_iff.mpr, List.append_nil]
    intro e he
    rw [hf e.1 e.2 (w.conn.pendingCalls.get?_eq_some_iff.mpr he), Option.map_none]
  timers id := by
    rw [h.timers]
    exact ⟨fun ht => ⟨ht, hf id⟩, And.left⟩
  sent := h.sent
  promises := h.promises
  callCounter := h.callCounter

/-- One call leaves the table with its outcome. -/
theorem settles_erase {id : Nat} {call : PendingCall} {outcome : Outcome D}
    (hget : w.conn.pendingCalls.get? id = some call) (hf : f id call = some outcome)
    (hother : ∀ id' call', id' ≠ id → f id' call' = none)
    (hpending : w'.conn.pendingCalls = w.conn.pendingCalls.erase id)
    (hcounter : w'.conn.callCounter = w.conn.callCounter)
    (hsettled : w'.settled = w.settled ++ [(call.promise, outcome)])
    (htimers : ∀ id', id' ∈ w'.timers ↔ id' ∈ w.timers ∧ id' ≠ id)
    (hsent : w'.sent = w.sent) (hpromises : w'.promises = w.promises) : Settles f w w' := by
  refine ⟨fun id' call' => ?_, ?_, fun id' => ?_, hsent, hpromises, hcounter⟩
  · rw [hpending, OrderedMap.get?_erase]
    split_ifs with hid
    · subst hid
      constructor
      · intro h
        cases h
      · intro h
        obtain rfl := Option.some.inj (hget.symm.trans h.1)
        cases hf.symm.trans h.2
    · exact ⟨fun h => ⟨h, hother id' call' hid⟩, And.left⟩
  · have hmap : (fun e : Nat × PendingCall =>
          (f e.1 e.2).map fun outcome => (e.2.promise, outcome)) =
        fun e => if e.1 = id then (f id e.2).map fun outcome => (e.2.promise, outcome) else none := by
      funext e
      split_ifs with hid
      · rw [hid]
      · rw [hother e.1 e.2 hid, Option.map_none]
    rw [hsettled, hmap,
      OrderedMap.filterMap_key _ fun call => (f id call).map fun o => (call.promise, o), hget,
      Option.bind_some, hf]
    rfl
  · rw [htimers]
    refine and_congr_right fun _ => ⟨fun hne call' _ => hother id' call' hne, fun h hid => ?_⟩
    subst hid
    cases hf.symm.trans (h call hget)

/-- A call is taken from the table, and its outcome is known. -/
theorem settles_take {id : Nat} {settle : PendingCall → Option (Outcome D)}
    (htimer : ∀ id call, w.conn.pendingCalls.get? id = some call → call.timer = id)
    (hsettle : ∀ call, settle call ≠ none) :
    Settles (fun id' call => if id' = id then settle call else none) w
      (w.commit (w.conn.takePending id settle)) := by
  unfold CallConnection.takePending
  split
  next hget =>
    refine SameCalls.settles ⟨rfl, rfl, List.append_nil _, ?_, rfl, rfl⟩ fun id' call hcall => ?_
    · exact List.filter_eq_self.mpr fun timer _ => by simp [CallConnection.quiet]
    · rw [if_neg]
      rintro rfl
      cases hget.symm.trans hcall
  next call hget =>
    obtain ⟨outcome, houtcome⟩ := Option.ne_none_iff_exists'.mp (hsettle call)
    refine settles_erase hget (by rw [if_pos rfl, houtcome]) (fun id' call' hne => if_neg hne) rfl rfl
      ?_ (fun id' => ?_) rfl rfl
    · show w.settled ++ _ = _
      rw [houtcome]
      rfl
    · show id' ∈ w.timers.filter (fun timer => timer ∉ [call.timer]) ↔ _
      simp [htimer id call hget]

theorem settles_timeout {id : Nat} (htimer : ∀ id, id ∈ w.timers ↔ id ∈ w.conn.pendingCalls.keys)
    (hid : id ∈ w.timers) :
    Settles (fun id' _ => if id = id' then some (.rejected "service call timed out") else none) w
      (commit { w with timers := w.timers.filter fun timer => timer ≠ id } (w.conn.onTimeout id)) := by
  obtain ⟨call, hget⟩ := w.conn.pendingCalls.mem_keys_iff.mp ((htimer id).mp hid)
  unfold CallConnection.onTimeout
  rw [hget]
  refine settles_erase hget (if_pos rfl) (fun id' _ hne => if_neg (Ne.symm hne)) rfl rfl rfl
    (fun id' => ?_) rfl rfl
  simp [commit]

/-- The end of a connection settles all calls. -/
theorem settles_reset (conn : CallConnection)
    (htimer : ∀ id call, w.conn.pendingCalls.get? id = some call → call.timer = id)
    (htimers : ∀ id, id ∈ w.timers ↔ id ∈ w.conn.pendingCalls.keys)
    (hconn : conn.pendingCalls = w.conn.pendingCalls) (hpending : w'.conn.pendingCalls = .empty)
    (hcounter : w'.conn.callCounter = w.conn.callCounter)
    (hsettled : w'.settled = w.settled ++ conn.resetConnectionState.settled)
    (hcleared : w'.timers =
      w.timers.filter fun timer => timer ∉ (conn.resetConnectionState (D := D)).cleared)
    (hsent : w'.sent = w.sent) (hpromises : w'.promises = w.promises) :
    Settles (fun _ _ => some (.rejected "connection closed")) w w' := by
  refine ⟨fun id call => ?_, ?_, fun id => ?_, hsent, hpromises, hcounter⟩
  · rw [hpending, OrderedMap.get?_empty]
    exact ⟨(fun h => by cases h), fun h => by cases h.2⟩
  · rw [hsettled]
    simp [CallConnection.resetConnectionState, hconn]
  · rw [hcleared, CallConnection.resetConnectionState, hconn, List.mem_filter]
    constructor
    · intro h
      obtain ⟨call, hget⟩ := OrderedMap.mem_keys_iff _ |>.mp ((htimers id).mp h.1)
      have hmem := List.mem_map_of_mem (f := Prod.snd) (OrderedMap.get?_eq_some_iff _ |>.mp hget)
      have hcall := List.mem_map_of_mem (f := PendingCall.timer) hmem
      rw [htimer id call hget] at hcall
      exact absurd hcall (by simpa using h.2)
    · intro h
      obtain ⟨call, hget⟩ := OrderedMap.mem_keys_iff _ |>.mp ((htimers id).mp h.1)
      cases h.2 call hget

/-! ## The books of a world -/

/-- A socket is in use only between `connect` and the end of the connection. -/
structure Lifecycle (w : CallWorld D) : Prop where
  stopped : w.conn.started = false → w.conn.ws = none ∧ w.conn.reconnectTimer = false
  timer : w.conn.reconnectTimer = true → w.conn.ws = none
  sockets : ∀ ws ∈ w.conn.ws, ws.id < w.sockets

/-- Each promise is settled once or waits; the calls that wait are those in the table. -/
structure Accounts (w : CallWorld D) : Prop where
  pending : ∀ id call, w.conn.pendingCalls.get? id = some call → call.timer = id ∧
    ∃ s ∈ w.sent, s.id = id ∧ s.promise = call.promise ∧ s.response = call.response ∧
      s.socket ∈ w.conn.ws.map SocketState.id
  increasing : w.sent.Pairwise fun a b => a.id < b.id ∧ a.promise < b.promise
  bounded : ∀ s ∈ w.sent, s.id ≤ w.conn.callCounter ∧ s.promise < w.promises
  waiting : ∀ s ∈ w.sent, s.id ∈ w.conn.pendingCalls.keys ↔ w.outcomesOf s.promise = []
  once : ∀ p, (w.outcomesOf p).length ≤ 1
  answered : ∀ p, w.outcomesOf p = [] → w.promises ≤ p ∨ ∃ s ∈ w.sent, s.promise = p
  unmade : ∀ p, w.promises ≤ p → w.outcomesOf p = []
  timers : ∀ id, id ∈ w.timers ↔ id ∈ w.conn.pendingCalls.keys

/-- An id and a promise each belong to one call. -/
theorem Accounts.inj (h : Accounts w) {s s' : SentCall} (hs : s ∈ w.sent) (hs' : s' ∈ w.sent) :
    (s.id = s'.id → s = s') ∧ (s.promise = s'.promise → s = s') := by
  have hid : (w.sent.map SentCall.id).Nodup :=
    List.pairwise_map.mpr (h.increasing.imp fun hlt => Nat.ne_of_lt hlt.1)
  have hpromise : (w.sent.map SentCall.promise).Nodup :=
    List.pairwise_map.mpr (h.increasing.imp fun hlt => Nat.ne_of_lt hlt.2)
  exact ⟨List.inj_on_of_nodup_map hid hs hs', List.inj_on_of_nodup_map hpromise hs hs'⟩

/-- The call that waits under the id of a sent one is that one. -/
theorem Accounts.get?_sent (h : Accounts w) {s : SentCall} {call : PendingCall} (hs : s ∈ w.sent)
    (hget : w.conn.pendingCalls.get? s.id = some call) :
    s.promise = call.promise ∧ s.response = call.response ∧
      s.socket ∈ w.conn.ws.map SocketState.id := by
  obtain ⟨-, s', hs', hid, hpromise, hresponse, hsocket⟩ := h.pending s.id call hget
  obtain rfl := (h.inj hs' hs).1 hid
  exact ⟨hpromise, hresponse, hsocket⟩

theorem Settles.outcomesOf_eq (h : Settles f w w') (p : Nat) :
    w'.outcomesOf p = w.outcomesOf p ++ w.conn.pendingCalls.entries.filterMap fun e =>
      if e.2.promise = p then f e.1 e.2 else none := by
  rw [outcomesOf, h.settled, List.filter_append, List.map_append, List.filter_filterMap,
    List.map_filterMap]
  refine congrArg (w.outcomesOf p ++ ·) (List.filterMap_congr fun e _ => ?_)
  cases hf : f e.1 e.2 with
  | none => simp
  | some outcome =>
      by_cases hp : e.2.promise = p
      · simp [hp]
      · simp [hp]

/-- The promise of a call that waits gets the outcome that the event has for it. -/
theorem Settles.outcomesOf_waiting (h : Settles f w w') (ha : Accounts w) {s : SentCall}
    {call : PendingCall} (hs : s ∈ w.sent) (hget : w.conn.pendingCalls.get? s.id = some call) :
    w'.outcomesOf s.promise = (f s.id call).toList := by
  have hnil : w.outcomesOf s.promise = [] :=
    (ha.waiting s hs).mp ((OrderedMap.mem_keys_iff _).mpr ⟨call, hget⟩)
  have hkey : ∀ e ∈ w.conn.pendingCalls.entries,
      (if e.2.promise = s.promise then f e.1 e.2 else none) =
        if e.1 = s.id then f s.id e.2 else none := by
    intro e he
    have he' := (OrderedMap.get?_eq_some_iff _).mpr he
    obtain ⟨-, s', hs', hid, hpromise, -⟩ := ha.pending e.1 e.2 he'
    by_cases heq : e.1 = s.id
    · rw [heq] at he'
      rw [if_pos (ha.get?_sent hs he').1.symm, if_pos heq, heq]
    · rw [if_neg heq, if_neg]
      intro hp
      rw [(ha.inj hs' hs).2 (hpromise.trans hp)] at hid
      exact heq hid.symm
  rw [h.outcomesOf_eq, hnil, List.nil_append, List.filterMap_congr hkey,
    OrderedMap.filterMap_key _ fun call => f s.id call, hget]
  rfl

/-- Nothing is added to a promise for which no call waits. -/
theorem Settles.outcomesOf_other (h : Settles f w w') (ha : Accounts w) {p : Nat}
    (hp : ∀ s ∈ w.sent, s.promise = p → s.id ∉ w.conn.pendingCalls.keys) :
    w'.outcomesOf p = w.outcomesOf p := by
  rw [h.outcomesOf_eq, List.filterMap_eq_nil_iff.mpr, List.append_nil]
  intro e he
  have he' := (OrderedMap.get?_eq_some_iff _).mpr he
  obtain ⟨-, s, hs, hid, hpromise, -⟩ := ha.pending e.1 e.2 he'
  rw [if_neg]
  intro heq
  refine hp s hs (hpromise.trans heq) ?_
  rw [hid]
  exact (OrderedMap.mem_keys_iff _).mpr ⟨e.2, he'⟩

/-- The books stay right when calls are settled and the socket stays or no call is left. -/
theorem Settles.accounts (h : Settles f w w') (ha : Accounts w)
    (hws : w'.conn.ws.map SocketState.id = w.conn.ws.map SocketState.id ∨
      w'.conn.pendingCalls = .empty) : Accounts w' := by
  have hkeys : ∀ s ∈ w.sent, s.id ∈ w'.conn.pendingCalls.keys ↔
      ∃ call, w.conn.pendingCalls.get? s.id = some call ∧ f s.id call = none := by
    intro s _
    simp only [OrderedMap.mem_keys_iff, h.get?_iff]
  have hwaiting : ∀ s ∈ w.sent, s.id ∈ w'.conn.pendingCalls.keys ↔ w'.outcomesOf s.promise = [] := by
    intro s hs
    rw [hkeys s hs]
    by_cases hmem : s.id ∈ w.conn.pendingCalls.keys
    · obtain ⟨call, hget⟩ := (OrderedMap.mem_keys_iff _).mp hmem
      rw [h.outcomesOf_waiting ha hs hget]
      simp [hget, Option.toList_eq_nil_iff]
    · rw [h.outcomesOf_other ha fun s' hs' hp => by rwa [(ha.inj hs' hs).2 hp]]
      constructor
      · intro hcall
        obtain ⟨call, hget, -⟩ := hcall
        exact absurd ((OrderedMap.mem_keys_iff _).mpr ⟨call, hget⟩) hmem
      · exact fun hnil => absurd ((ha.waiting s hs).mpr hnil) hmem
  refine ⟨fun id call hget => ?_, by rw [h.sent]; exact ha.increasing, ?_, ?_, fun p => ?_,
    fun p hp => ?_, fun p hp => ?_, fun id => ?_⟩
  · have hget' := ((h.get?_iff id call).mp hget).1
    obtain ⟨htimer, s, hs, hid, hpromise, hresponse, hsocket⟩ := ha.pending id call hget'
    rw [h.sent]
    refine ⟨htimer, s, hs, hid, hpromise, hresponse, ?_⟩
    rcases hws with hws | hempty
    · rwa [hws]
    · rw [hempty] at hget
      cases hget
  · rw [h.sent, h.callCounter, h.promises]
    exact ha.bounded
  · rw [h.sent]
    exact hwaiting
  · by_cases hex : ∃ s ∈ w.sent, s.promise = p ∧ s.id ∈ w.conn.pendingCalls.keys
    · obtain ⟨s, hs, rfl, hmem⟩ := hex
      obtain ⟨call, hget⟩ := (OrderedMap.mem_keys_iff _).mp hmem
      rw [h.outcomesOf_waiting ha hs hget]
      cases f s.id call <;> simp
    · rw [h.outcomesOf_other ha fun s hs hp hmem => hex ⟨s, hs, hp, hmem⟩]
      exact ha.once p
  · rw [h.promises, h.sent]
    refine ha.answered p ?_
    rw [h.outcomesOf_eq] at hp
    exact (List.append_eq_nil_iff.mp hp).1
  · rw [h.promises] at hp
    rw [h.outcomesOf_other ha, ha.unmade p hp]
    intro s hs hsp
    have hlt := (ha.bounded s hs).2
    omega
  · rw [h.timers, OrderedMap.mem_keys_iff, ha.timers, OrderedMap.mem_keys_iff]
    simp only [h.get?_iff]
    constructor
    · intro hid
      obtain ⟨⟨call, hget⟩, hnone⟩ := hid
      exact ⟨call, hget, hnone call hget⟩
    · intro hid
      obtain ⟨call, hget, hnone⟩ := hid
      refine ⟨⟨call, hget⟩, fun call' hget' => ?_⟩
      obtain rfl := Option.some.inj (hget.symm.trans hget')
      exact hnone

/-! ## The events -/

theorem Settles.congr {g : Nat → PendingCall → Option (Outcome D)} (h : Settles f w w')
    (hfg : ∀ id call, w.conn.pendingCalls.get? id = some call → f id call = g id call) :
    Settles g w w' where
  get?_iff id call := by
    rw [h.get?_iff]
    exact and_congr_right fun hget => by rw [hfg id call hget]
  settled := by
    rw [h.settled]
    refine congrArg (w.settled ++ ·) (List.filterMap_congr fun e he => ?_)
    rw [hfg e.1 e.2 ((OrderedMap.get?_eq_some_iff _).mpr he)]
  timers id := by
    rw [h.timers]
    refine and_congr_right fun _ => forall_congr' fun call => ?_
    exact imp_congr_right fun hget => by rw [hfg id call hget]
  sent := h.sent
  promises := h.promises
  callCounter := h.callCounter

/-- What an event other than a call does. -/
structure Effect (f : Nat → PendingCall → Option (Outcome D)) (w w' : CallWorld D) : Prop where
  settles : Settles f w w'
  socket : w'.conn.ws.map SocketState.id = w.conn.ws.map SocketState.id ∨
    w'.conn.pendingCalls = .empty
  lifecycle : Lifecycle w'

theorem Effect.congr {g : Nat → PendingCall → Option (Outcome D)} (h : Effect f w w')
    (hfg : ∀ id call, w.conn.pendingCalls.get? id = some call → f id call = g id call) :
    Effect g w w' :=
  ⟨h.settles.congr hfg, h.socket, h.lifecycle⟩

theorem Accounts.pending_empty (ha : Accounts w) (hws : w.conn.ws = none) :
    w.conn.pendingCalls = .empty := by
  refine OrderedMap.ext (List.eq_nil_iff_forall_not_mem.mpr fun e he => ?_)
  obtain ⟨-, s, -, -, -, -, hsocket⟩ :=
    ha.pending e.1 e.2 ((OrderedMap.get?_eq_some_iff _).mpr he)
  rw [hws] at hsocket
  cases hsocket

/-- The number of the socket in use. -/
def socketId (w : CallWorld D) : Nat := (w.conn.ws.map SocketState.id).getD 0

/-- A handler that leaves the life of the socket as it is. -/
theorem Lifecycle.of_eq (hl : Lifecycle w) (hsockets : w'.sockets = w.sockets)
    (hws : w'.conn.ws.map SocketState.id = w.conn.ws.map SocketState.id)
    (hstarted : w'.conn.started = w.conn.started)
    (htimer : w'.conn.reconnectTimer = w.conn.reconnectTimer) : Lifecycle w' := by
  have hnone : w.conn.ws = none → w'.conn.ws = none := by
    intro hnone
    rw [hnone] at hws
    exact Option.map_eq_none_iff.mp hws
  refine ⟨fun h => ?_, fun h => ?_, fun ws hmem => ?_⟩
  · rw [hstarted] at h
    exact ⟨hnone (hl.stopped h).1, htimer.trans (hl.stopped h).2⟩
  · rw [htimer] at h
    exact hnone (hl.timer h)
  · rw [hmem] at hws
    obtain ⟨ws', hws', hid⟩ := Option.map_eq_some_iff.mp hws.symm
    rw [hsockets, ← hid]
    exact hl.sockets ws' hws'

theorem effect_quiet (hl : Lifecycle w) {conn : CallConnection}
    (hpending : conn.pendingCalls = w.conn.pendingCalls)
    (hcounter : conn.callCounter = w.conn.callCounter)
    (hws : conn.ws.map SocketState.id = w.conn.ws.map SocketState.id)
    (hstarted : conn.started = w.conn.started)
    (htimer : conn.reconnectTimer = w.conn.reconnectTimer) :
    Effect (fun _ _ => none) w (w.commit conn.quiet) where
  settles := SameCalls.settles ⟨hpending, hcounter, List.append_nil _,
    List.filter_eq_self.mpr fun timer _ => by simp [CallConnection.quiet], rfl, rfl⟩
    fun _ _ _ => rfl
  socket := .inl hws
  lifecycle := hl.of_eq rfl hws hstarted htimer

theorem effect_take (hl : Lifecycle w) (ha : Accounts w) (id : Nat)
    {settle : PendingCall → Option (Outcome D)} (hsettle : ∀ call, settle call ≠ none) :
    Effect (fun id' call => if id' = id then settle call else none) w
      (w.commit (w.conn.takePending id settle)) := by
  refine ⟨settles_take (fun id call hget => (ha.pending id call hget).1) hsettle, ?_, ?_⟩
  · unfold CallConnection.takePending
    split <;> exact .inl rfl
  · unfold CallConnection.takePending
    split <;> exact hl.of_eq rfl rfl rfl rfl

/-- A frame or an event of a socket counts if the socket is in use. -/
theorem effect_onSocket (hl : Lifecycle w) (ha : Accounts w) (socket : Nat)
    {h : SocketState → Handled D}
    (hin : ∀ ws, w.conn.ws = some ws → Effect f w (w.commit (h ws))) :
    Effect (fun id call => if socket = w.socketId then f id call else none) w
      (w.onSocket socket h) := by
  unfold onSocket socketId
  cases hws : w.conn.ws with
  | none =>
      refine ⟨SameCalls.settles ⟨rfl, rfl, rfl, rfl, rfl, rfl⟩ fun id call hget => ?_, .inl rfl, hl⟩
      rw [ha.pending_empty hws] at hget
      cases hget
  | some ws =>
      show Effect (fun id call => if socket = ws.id then f id call else none) w
        (if ws.id ≠ socket then w else w.commit (h ws))
      by_cases hid : socket = ws.id
      · rw [if_neg (not_not.mpr hid.symm)]
        exact (hin ws hws).congr fun _ _ _ => (if_pos hid).symm
      · rw [if_pos (Ne.symm hid)]
        exact ⟨SameCalls.settles ⟨rfl, rfl, rfl, rfl, rfl, rfl⟩ fun _ _ _ => if_neg hid, .inl rfl, hl⟩

theorem effect_onSocket_quiet (hl : Lifecycle w) (ha : Accounts w) (socket : Nat)
    {h : SocketState → Handled D}
    (hin : ∀ ws, w.conn.ws = some ws → Effect (fun _ _ => none) w (w.commit (h ws))) :
    Effect (fun _ _ => none) w (w.onSocket socket h) :=
  (effect_onSocket hl ha socket hin).congr fun _ _ _ => ite_self _

/-- A new socket comes into use when there is none. -/
theorem effect_connect (hl : Lifecycle w) (ha : Accounts w) {conn : CallConnection}
    (hconn : conn = { w.conn with
      ws := some ⟨w.sockets, .connecting⟩, started := true, reconnectTimer := false } ∧
        w.conn.ws = none ∨ conn = w.conn) :
    Effect (fun _ _ => none) w { w with conn := conn, sockets := w.sockets + 1 } := by
  rcases hconn with ⟨rfl, hws⟩ | rfl
  · refine ⟨SameCalls.settles ⟨rfl, rfl, rfl, rfl, rfl, rfl⟩ fun _ _ _ => rfl,
      .inr (ha.pending_empty hws), (fun h => by cases h), (fun h => by cases h), fun ws hmem => ?_⟩
    obtain rfl := Option.some.inj hmem
    exact Nat.lt_succ_self w.sockets
  · exact ⟨SameCalls.settles ⟨rfl, rfl, rfl, rfl, rfl, rfl⟩ fun _ _ _ => rfl, .inl rfl,
      hl.stopped, hl.timer, fun ws hmem => Nat.lt_succ_of_lt (hl.sockets ws hmem)⟩

theorem effect_stop (ha : Accounts w) :
    Effect (fun _ _ => some (.rejected "connection closed")) w (w.commit w.conn.stop) where
  settles := settles_reset _ (fun id call hget => (ha.pending id call hget).1) ha.timers rfl rfl rfl
    rfl rfl rfl rfl
  socket := .inr rfl
  lifecycle := ⟨fun _ => ⟨rfl, rfl⟩, fun _ => rfl, fun _ h => by cases h⟩

theorem effect_onclose (hl : Lifecycle w) (ha : Accounts w) {ws : SocketState}
    (hws : w.conn.ws = some ws) :
    Effect (fun _ _ => some (.rejected "connection closed")) w (w.commit w.conn.onclose) := by
  have hstarted : w.conn.started = true := by
    cases h : w.conn.started with
    | true => rfl
    | false => cases hws.symm.trans (hl.stopped h).1
  have hconn : (w.conn.onclose (D := D)).conn = { w.conn with
      ws := none, services := .empty, pendingCalls := .empty, statusValue := .disconnected,
      reconnectTimer := true } := by
    simp [CallConnection.onclose, CallConnection.resetConnectionState, hstarted]
  have hempty : (w.commit w.conn.onclose).conn.pendingCalls = .empty :=
    congrArg CallConnection.pendingCalls hconn
  have hcounter : (w.conn.onclose (D := D)).conn.callCounter = w.conn.callCounter := by
    rw [hconn]
  refine ⟨settles_reset { w.conn with ws := none }
    (fun id call hget => (ha.pending id call hget).1) ha.timers rfl hempty hcounter rfl rfl rfl rfl,
    .inr hempty, ?_⟩
  show Lifecycle { w.commit w.conn.onclose with conn := (w.conn.onclose (D := D)).conn }
  rw [hconn]
  exact ⟨fun h => (by cases hstarted.symm.trans h), fun _ => rfl, fun _ h => by cases h⟩

theorem exists_getUint32 {buffer : List UInt8} {offset : Nat} (h : offset + 4 ≤ buffer.length) :
    ∃ value, FoxgloveConnection.getUint32 buffer offset = some value := by
  have hlength : 4 ≤ (buffer.drop offset).length := by
    rw [List.length_drop]
    omega
  unfold FoxgloveConnection.getUint32
  split
  next => exact ⟨_, rfl⟩
  next hshort =>
    match hdrop : buffer.drop offset, hlength with
    | b₀ :: b₁ :: b₂ :: b₃ :: rest, _ => exact absurd hdrop (hshort b₀ b₁ b₂ b₃ rest)

/-- A response that is well formed settles the call whose id it bears. -/
theorem effect_binary (hl : Lifecycle w) (ha : Accounts w) {socket : Nat} {buffer : List UInt8}
    (hwell : WellFormed buffer = true) :
    Effect (fun id call =>
        (CallEvent.binary socket buffer : CallEvent P).outcomeFor codec id call.response w.socketId) w
      (w.onSocket socket fun _ => w.conn.handleBinary codec buffer) := by
  unfold CallConnection.handleBinary
  by_cases hhead : buffer.head? = some 3
  · have hlength : 13 ≤ buffer.length := by simpa [WellFormed, hhead] using hwell
    obtain ⟨callId, hcallId⟩ := exists_getUint32 (by omega : 5 + 4 ≤ buffer.length)
    obtain ⟨length, hdecode⟩ := exists_getUint32 (by omega : 9 + 4 ≤ buffer.length)
    have hsome : ∀ call : PendingCall,
        CallConnection.decodeResponse codec buffer call.response ≠ none := by
      intro call
      simp [CallConnection.decodeResponse, hdecode]
    rw [if_neg (not_not.mpr hhead), hcallId]
    have htake := effect_onSocket hl ha socket fun ws _ => effect_take hl ha callId hsome
    refine htake.congr fun id call _ => ?_
    simp only [CallEvent.outcomeFor, hhead, hcallId, true_and, Option.some.injEq, ite_and,
      eq_comm (a := callId)]
  · rw [if_pos hhead]
    have hquiet := effect_onSocket_quiet hl ha socket
      fun ws _ => effect_quiet hl rfl rfl rfl rfl rfl
    refine hquiet.congr fun id call _ => ?_
    exact (if_neg fun h => hhead h.2.1).symm

theorem step_effect (hl : Lifecycle w) (ha : Accounts w) (hs : step codec w e = some w')
    (hcall : ∀ service payload, e ≠ .callService service payload) :
    Effect (fun id call => e.outcomeFor codec id call.response w.socketId) w w' := by
  cases e with
  | start =>
      obtain rfl := Option.some.inj hs
      refine effect_connect hl ha ?_
      unfold CallConnection.start CallConnection.connect
      cases h : w.conn.started with
      | true => exact .inr rfl
      | false =>
          obtain ⟨hws, htimer⟩ := hl.stopped h
          refine .inl ⟨?_, hws⟩
          simp [htimer]
  | reconnect =>
      simp only [step] at hs
      split_ifs at hs with htimer
      obtain rfl := Option.some.inj hs
      refine effect_connect hl ha ?_
      have hws := hl.timer htimer
      unfold CallConnection.reconnect CallConnection.connect
      cases h : w.conn.started with
      | true => exact .inl ⟨by simp, hws⟩
      | false => cases htimer.symm.trans (hl.stopped h).2
  | stop =>
      obtain rfl := Option.some.inj hs
      exact effect_stop ha
  | opened socket =>
      simp only [step] at hs
      split_ifs at hs
      obtain rfl := Option.some.inj hs
      exact effect_onSocket_quiet hl ha socket fun ws hws =>
        effect_quiet hl rfl rfl (by rw [hws]; rfl) rfl rfl
  | failed socket =>
      obtain rfl := Option.some.inj hs
      exact effect_onSocket_quiet hl ha socket fun ws hws => effect_quiet hl rfl rfl rfl rfl rfl
  | closing socket =>
      obtain rfl := Option.some.inj hs
      exact effect_onSocket_quiet hl ha socket fun ws hws =>
        effect_quiet hl rfl rfl (by rw [hws]; rfl) rfl rfl
  | closed socket =>
      obtain rfl := Option.some.inj hs
      exact effect_onSocket hl ha socket fun ws hws => effect_onclose hl ha hws
  | text socket frame =>
      obtain rfl := Option.some.inj hs
      cases frame with
      | advertiseServices services | unadvertiseServices ids =>
          exact effect_onSocket_quiet hl ha socket fun ws hws => effect_quiet hl rfl rfl rfl rfl rfl
      | serviceCallFailure callId message =>
          have hsome : ∀ _ : PendingCall, some (Outcome.rejected (D := D) message) ≠ none :=
            fun _ h => by cases h
          have htake := effect_onSocket hl ha socket
            fun ws _ => effect_take hl ha callId hsome
          refine htake.congr fun id call _ => ?_
          simp only [CallEvent.outcomeFor, ite_and, eq_comm (a := callId)]
  | binary socket buffer =>
      simp only [step] at hs
      split_ifs at hs with hwell
      obtain rfl := Option.some.inj hs
      exact effect_binary hl ha hwell
  | callService service payload => exact absurd rfl (hcall service payload)
  | timeout callId =>
      simp only [step] at hs
      split_ifs at hs with hmem
      obtain rfl := Option.some.inj hs
      refine ⟨settles_timeout ha.timers hmem, ?_, ?_⟩
      · unfold CallConnection.onTimeout
        split <;> exact .inl rfl
      · unfold CallConnection.onTimeout
        split <;> exact hl.of_eq rfl rfl rfl rfl

/-! ## The calls -/

section Call

variable {service : String} {payload : P} {promise : Nat}

/-- A call that is not refused waits under the next id. -/
theorem callService_ok {c conn : CallConnection} {call : PendingCall} {frame : List UInt8}
    (h : c.callService codec service payload promise = .ok (conn, call, frame)) :
    c.isOpen = true ∧ call.promise = promise ∧ call.timer = c.callCounter + 1 ∧
      conn = { c with
        callCounter := c.callCounter + 1
        pendingCalls := c.pendingCalls.set (c.callCounter + 1) call } := by
  unfold CallConnection.callService at h
  split_ifs at h with hopen
  split at h
  next => cases h
  next info _ =>
    split at h
    next => cases h
    next payloadBytes _ =>
      obtain ⟨rfl, rfl, -⟩ := Prod.mk.inj (Except.ok.inj h) |>.imp_right Prod.mk.inj
      exact ⟨by simpa using hopen, rfl, rfl, rfl⟩

/-- The world after a call that was refused. -/
def refused (w : CallWorld D) (outcome : Outcome D) : CallWorld D :=
  { w with promises := w.promises + 1, settled := w.settled ++ [(w.promises, outcome)] }

/-- A refused call settles its own promise only. -/
theorem outcomesOf_refused {p : Nat} (hp : p ≠ w.promises) (outcome : Outcome D) :
    (w.refused outcome).outcomesOf p = w.outcomesOf p := by
  rw [outcomesOf, refused, List.filter_append, List.filter_cons_of_neg (by simpa using hp.symm),
    List.filter_nil, List.append_nil]
  rfl

theorem accounts_refused (ha : Accounts w) (outcome : Outcome D) : Accounts (w.refused outcome) := by
  have hown : (w.refused outcome).outcomesOf w.promises = [outcome] := by
    have hnil := ha.unmade w.promises (Nat.le_refl _)
    rw [outcomesOf] at hnil
    rw [outcomesOf, refused, List.filter_append, List.map_append, hnil]
    simp
  refine ⟨ha.pending, ha.increasing, fun s hs => ?_, fun s hs => ?_, fun p => ?_, fun p hp => ?_,
    fun p hp => ?_, ha.timers⟩
  · exact ⟨(ha.bounded s hs).1, Nat.lt_succ_of_lt (ha.bounded s hs).2⟩
  · rw [outcomesOf_refused (Nat.ne_of_lt (ha.bounded s hs).2)]
    exact ha.waiting s hs
  · by_cases heq : p = w.promises
    · rw [heq, hown]
      exact Nat.le_refl 1
    · rw [outcomesOf_refused heq]
      exact ha.once p
  · have hne : p ≠ w.promises := by
      rintro rfl
      rw [hown] at hp
      cases hp
    rw [outcomesOf_refused hne] at hp
    refine (ha.answered p hp).imp_left fun hle => ?_
    exact Nat.lt_of_le_of_ne hle hne.symm
  · have hp' : w.promises < p := hp
    rw [outcomesOf_refused (Nat.ne_of_gt hp')]
    exact ha.unmade p (Nat.le_of_lt hp')

/-- A call that went over the socket waits under a new id. -/
theorem accounts_sent (ha : Accounts w) {call : PendingCall} {s : SentCall}
    (hid : s.id = w.conn.callCounter + 1) (htimer : call.timer = w.conn.callCounter + 1)
    (hpromise : s.promise = w.promises ∧ call.promise = w.promises)
    (hresponse : s.response = call.response) (hsocket : s.socket ∈ w.conn.ws.map SocketState.id) :
    Accounts { w with
      conn := { w.conn with
        callCounter := w.conn.callCounter + 1
        pendingCalls := w.conn.pendingCalls.set (w.conn.callCounter + 1) call }
      promises := w.promises + 1
      timers := w.timers ++ [call.timer]
      sent := w.sent ++ [s] } := by
  have hkeys : ∀ id, id ∈ (w.conn.pendingCalls.set (w.conn.callCounter + 1) call).keys ↔
      id ∈ w.conn.pendingCalls.keys ∨ id = w.conn.callCounter + 1 := by
    intro id
    simp only [OrderedMap.mem_keys_iff, OrderedMap.get?_set]
    split_ifs with heq <;> simp [heq]
  have hmem : ∀ s', s' ∈ w.sent ++ [s] → s' ∈ w.sent ∨ s' = s := by
    intro s' hs'
    simpa using hs'
  refine ⟨fun id call' hget => ?_, ?_, fun s' hs' => ?_, fun s' hs' => ?_, ha.once, fun p hp => ?_,
    fun p hp => ha.unmade p (Nat.le_of_succ_le hp), fun id => ?_⟩
  · rw [OrderedMap.get?_set] at hget
    split_ifs at hget with heq
    · obtain rfl := Option.some.inj hget
      exact ⟨htimer.trans heq.symm, s, List.mem_append_right _ (List.mem_singleton.mpr rfl),
        hid.trans heq.symm, hpromise.1.trans hpromise.2.symm, hresponse, hsocket⟩
    · obtain ⟨ht, s', hs', hrest⟩ := ha.pending id call' hget
      exact ⟨ht, s', List.mem_append_left _ hs', hrest⟩
  · refine List.pairwise_append.mpr ⟨ha.increasing, List.pairwise_singleton _ _, fun a hmem b hb => ?_⟩
    rw [List.mem_singleton.mp hb, hid, hpromise.1]
    exact ⟨Nat.lt_succ_of_le (ha.bounded a hmem).1, (ha.bounded a hmem).2⟩
  · rcases hmem s' hs' with hs' | rfl
    · exact ⟨Nat.le_succ_of_le (ha.bounded s' hs').1, Nat.lt_succ_of_lt (ha.bounded s' hs').2⟩
    · exact ⟨Nat.le_of_eq hid, by rw [hpromise.1]; exact Nat.lt_succ_self _⟩
  · rw [hkeys]
    rcases hmem s' hs' with hs' | rfl
    · have hne : s'.id ≠ w.conn.callCounter + 1 := by
        have := (ha.bounded s' hs').1
        omega
      rw [or_iff_left hne]
      exact ha.waiting s' hs'
    · refine iff_of_true (.inr hid) ?_
      rw [hpromise.1]
      exact ha.unmade _ (Nat.le_refl _)
  · rcases ha.answered p hp with hle | ⟨s', hs', hp'⟩
    · rcases Nat.eq_or_lt_of_le hle with rfl | hlt
      · exact .inr ⟨s, List.mem_append_right _ (List.mem_singleton.mpr rfl), hpromise.1⟩
      · exact .inl hlt
    · exact .inr ⟨s', List.mem_append_left _ hs', hp'⟩
  · rw [hkeys, List.mem_append, List.mem_singleton, htimer, ha.timers]

/-- What a call does: nothing to the calls before it. -/
theorem callService_effect (codec : CallCodec P D) (hl : Lifecycle w) (ha : Accounts w)
    (service : String) (payload : P) :
    Lifecycle (w.callService codec service payload) ∧
      Accounts (w.callService codec service payload) ∧
      (∀ p < w.promises, (w.callService codec service payload).outcomesOf p = w.outcomesOf p) ∧
      ((w.callService codec service payload).sent = w.sent ∨
        ∃ s, (w.callService codec service payload).sent = w.sent ++ [s] ∧
          s.promise = w.promises ∧
          (w.callService codec service payload).outcomesOf s.promise = []) := by
  unfold callService
  split
  next message _ =>
    exact ⟨hl.of_eq rfl rfl rfl rfl, accounts_refused ha (.rejected message),
      fun p hp => outcomesOf_refused (Nat.ne_of_lt hp) (.rejected message), .inl rfl⟩
  next conn call frame hok =>
    obtain ⟨hopen, hpromise, htimer, rfl⟩ := callService_ok hok
    obtain ⟨ws, hws, -⟩ := Option.any_eq_true _ _ |>.mp hopen
    refine ⟨hl.of_eq rfl rfl rfl rfl, accounts_sent ha rfl htimer ⟨hpromise, hpromise⟩ rfl ?_,
      fun _ _ => rfl, .inr ⟨_, rfl, hpromise, ?_⟩⟩
    · rw [hws]
      rfl
    · rw [hpromise]
      exact ha.unmade _ (Nat.le_refl _)

end Call

/-! ## Runs -/

theorem accounts_initial : Accounts (initial : CallWorld D) where
  pending _ _ h := by cases h
  increasing := .nil
  bounded _ h := by cases h
  waiting _ h := by cases h
  once _ := Nat.zero_le 1
  answered p _ := .inl (Nat.zero_le p)
  unmade _ _ := rfl
  timers _ := iff_of_false (fun h => by cases h) (fun h => by cases h)

theorem lifecycle_initial : Lifecycle (initial : CallWorld D) :=
  ⟨fun _ => ⟨rfl, rfl⟩, (fun h => by cases h), fun _ h => by cases h⟩

/-- A step keeps the books, and gives each call that waits the outcome it has for it. -/
theorem step_keeps (hl : Lifecycle w) (ha : Accounts w) (hs : step codec w e = some w') :
    Lifecycle w' ∧ Accounts w' ∧
      (∀ s ∈ w.sent, w'.outcomesOf s.promise = if w.outcomesOf s.promise = [] then
        (e.outcomeFor codec s.id s.response s.socket).toList else w.outcomesOf s.promise) ∧
      (w'.sent = w.sent ∨ ∃ service payload s, e = .callService service payload ∧
        w'.sent = w.sent ++ [s] ∧ s.promise = w.promises ∧ w'.outcomesOf s.promise = []) := by
  by_cases hcall : ∃ service payload, e = .callService service payload
  · obtain ⟨service, payload, rfl⟩ := hcall
    obtain rfl := Option.some.inj hs
    obtain ⟨hlife, haccounts, hother, hsent⟩ := callService_effect codec hl ha service payload
    refine ⟨hlife, haccounts, fun s hmem => ?_,
      hsent.imp_right fun ⟨s, hs⟩ => ⟨service, payload, s, rfl, hs⟩⟩
    rw [hother s.promise (ha.bounded s hmem).2]
    split_ifs with hnil
    · exact hnil
    · rfl
  · obtain ⟨hsettles, hsocket, hlife⟩ := step_effect hl ha hs
      fun service payload heq => hcall ⟨service, payload, heq⟩
    refine ⟨hlife, hsettles.accounts ha hsocket, fun s hmem => ?_, .inl hsettles.sent⟩
    split_ifs with hnil
    · obtain ⟨call, hget⟩ := (OrderedMap.mem_keys_iff _).mp ((ha.waiting s hmem).mpr hnil)
      obtain ⟨-, hresponse, hws⟩ := ha.get?_sent hmem hget
      rw [hsettles.outcomesOf_waiting ha hmem hget, hresponse, socketId, Option.mem_def.mp hws]
      rfl
    · refine hsettles.outcomesOf_other ha fun s' hs' hp hmem' => hnil ?_
      rw [← hp]
      exact (ha.waiting s' hs').mp hmem'

/-- The call that sent `s` and made its promise, and what came for it since. -/
def Answered (codec : CallCodec P D) (events : List (CallEvent P)) (w : CallWorld D)
    (s : SentCall) : Prop :=
  ∃ before service payload after w₀, events = before ++ .callService service payload :: after ∧
    exec (step codec) initial before = some w₀ ∧
    (w₀.callService codec service payload).sent = w₀.sent ++ [s] ∧ s.promise = w₀.promises ∧
    w.outcomesOf s.promise =
      (after.findSome? fun e => e.outcomeFor codec s.id s.response s.socket).toList

theorem exec_keeps {events : List (CallEvent P)} (h : exec (step codec) initial events = some w) :
    Lifecycle w ∧ Accounts w ∧ ∀ s ∈ w.sent, Answered codec events w s := by
  induction events using List.reverseRecOn generalizing w with
  | nil =>
      obtain rfl := Option.some.inj h
      exact ⟨lifecycle_initial, accounts_initial, fun _ h => by cases h⟩
  | append_singleton events e ih =>
      obtain ⟨v, hv, hlast⟩ := exec_append_iff.mp h
      obtain ⟨u, hs, hu⟩ := exec_cons_iff.mp hlast
      obtain rfl := Option.some.inj hu
      obtain ⟨hl, ha, hanswered⟩ := ih hv
      obtain ⟨hl', ha', hold, hsent⟩ := step_keeps hl ha hs
      have hkept : ∀ s ∈ v.sent, Answered codec (events ++ [e]) u s := by
        intro s hmem
        obtain ⟨before, service, payload, after, w₀, rfl, hbefore, hw₀, hpromise, houtcomes⟩ :=
          hanswered s hmem
        refine ⟨before, service, payload, after ++ [e], w₀, by rw [List.append_assoc]; rfl, hbefore,
          hw₀, hpromise, ?_⟩
        rw [hold s hmem, houtcomes, List.findSome?_append]
        cases after.findSome? fun e => e.outcomeFor codec s.id s.response s.socket with
        | none => cases hown : e.outcomeFor codec s.id s.response s.socket <;> simp [hown]
        | some outcome => simp
      refine ⟨hl', ha', fun s hmem => ?_⟩
      rcases hsent with hsent | ⟨service, payload, new, rfl, hsent, hpromise, hnew⟩
      · rw [hsent] at hmem
        exact hkept s hmem
      · rw [hsent] at hmem
        rcases List.mem_append.mp hmem with hmem | hmem
        · exact hkept s hmem
        · obtain rfl := List.mem_singleton.mp hmem
          have hcall : v.callService codec service payload = u := Option.some.inj hs
          exact ⟨events, service, payload, [], v, rfl, hv, by rw [hcall, hsent], hpromise, hnew⟩

/-- Over any run the table holds the calls that were sent and wait, a timer for each; every promise
is settled once unless its call waits, and the promise of a sent call is settled by the first
response, failure, timeout or end of the connection that is its own. -/
theorem calls_settle_once (codec : CallCodec P D) (events : List (CallEvent P)) (w : CallWorld D)
    (h : exec (step codec) initial events = some w) :
    (∀ id, (id ∈ w.conn.pendingCalls.keys ↔
        ∃ s ∈ w.sent, s.id = id ∧ w.outcomesOf s.promise = []) ∧
      (id ∈ w.timers ↔ id ∈ w.conn.pendingCalls.keys)) ∧
    (∀ p < w.promises, (w.outcomesOf p).length = 1 ∨
      w.outcomesOf p = [] ∧ ∃ s ∈ w.sent, s.promise = p) ∧
    ∀ s ∈ w.sent, Answered codec events w s := by
  obtain ⟨-, ha, hanswered⟩ := exec_keeps h
  refine ⟨fun id => ⟨⟨fun hid => ?_, fun hs => ?_⟩, ha.timers id⟩, fun p hp => ?_, hanswered⟩
  · obtain ⟨call, hget⟩ := (OrderedMap.mem_keys_iff _).mp hid
    obtain ⟨-, s, hs, rfl, -⟩ := ha.pending id call hget
    exact ⟨s, hs, rfl, (ha.waiting s hs).mp hid⟩
  · obtain ⟨s, hs, rfl, hnil⟩ := hs
    exact (ha.waiting s hs).mpr hnil
  · cases houtcomes : w.outcomesOf p with
    | nil => exact .inr ⟨rfl, (ha.answered p houtcomes).resolve_left (Nat.not_le_of_lt hp)⟩
    | cons outcome rest =>
        have honce := ha.once p
        rw [houtcomes] at honce
        exact .inl (Nat.le_antisymm honce (Nat.succ_le_succ (Nat.zero_le _)))

/-- A call, its response, and the same response again. -/
theorem calls_settle_once_duplicate :
    ∃ w, exec (step rawCodec) initial
        [.start, .opened 0, .text 0 (.advertiseServices [⟨⟨7, none, none⟩, "/save"⟩]),
          .callService "save" (), .binary 0 ([3] ++ setUint32 7 ++ setUint32 1 ++ setUint32 0 ++ [5]),
          .binary 0 ([3] ++ setUint32 7 ++ setUint32 1 ++ setUint32 0 ++ [6])] = some w ∧
      w.outcomesOf 0 = [.resolved [5]] ∧ 1 ∉ w.conn.pendingCalls.keys := by
  have hexec : ∃ w : CallWorld (List UInt8), exec (step rawCodec) initial
        [.start, .opened 0, .text 0 (.advertiseServices [⟨⟨7, none, none⟩, "/save"⟩]),
          .callService "save" (), .binary 0 ([3] ++ setUint32 7 ++ setUint32 1 ++ setUint32 0 ++ [5]),
          .binary 0 ([3] ++ setUint32 7 ++ setUint32 1 ++ setUint32 0 ++ [6])] = some w ∧
      w.outcomesOf 0 = [.resolved [5]] ∧ w.sent.map SentCall.promise = [0] :=
    exists_exec (by decide)
  obtain ⟨w, hrun, houtcomes, hsent⟩ := hexec
  refine ⟨w, hrun, houtcomes, fun hid => ?_⟩
  obtain ⟨s, hs, -, hnil⟩ := ((calls_settle_once rawCodec _ w hrun).1 1).1.mp hid
  have hpromise : s.promise = 0 := by
    have hmem := List.mem_map_of_mem (f := SentCall.promise) hs
    rw [hsent] at hmem
    exact List.mem_singleton.mp hmem
  rw [hpromise, houtcomes] at hnil
  cases hnil

end CallWorld

end MgRobot.WebUi
