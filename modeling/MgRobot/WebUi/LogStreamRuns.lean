import MgRobot.WebUi.DockerLogStream

/-!
# The sockets of the log stream over a run

Of the steps only a reconnection timer can make a second socket or one to an earlier base
URL: it carries the closures of the effect run that set it, and a close event that comes
after the effect has run again sets it as well. As long as no timer does so, the socket
in `wsRef` is the only one whose messages are accepted.
-/

namespace MgRobot.WebUi

set_option autoImplicit false

open MgRobot.Lib.Runs

@[simp] theorem LogSocket.accepting_iff {ws : LogSocket} :
    ws.accepting = true ↔ ws.state = .connecting ∨ ws.state = .open := by
  simp [LogSocket.accepting]

theorem LogSocket.not_accepting_close (ws : LogSocket) : ¬ ws.close.accepting = true := by
  unfold LogSocket.close
  split
  · simp
  · assumption

namespace DockerLogStream

variable {s t : DockerLogStream} {e : Event} {events : List Event} {i : Nat} {ws : LogSocket}

theorem onSocket_getElem? {f : LogSocket → LogSocket} {j : Nat}
    (h : (s.onSocket i f).sockets[j]? = some ws) :
    (j ≠ i ∧ s.sockets[j]? = some ws) ∨
      (j = i ∧ ∃ old, s.sockets[i]? = some old ∧ ws = f old) := by
  by_cases hj : i = j
  · subst hj
    rw [onSocket, List.getElem?_modify_eq, Option.map_eq_map, Option.map_eq_some_iff] at h
    obtain ⟨old, hold, rfl⟩ := h
    exact .inr ⟨rfl, old, hold, rfl⟩
  · rw [onSocket, List.getElem?_modify_ne _ _ hj] at h
    exact .inl ⟨Ne.symm hj, h⟩

theorem onSocket_getElem?_self (f : LogSocket → LogSocket) (hget : s.sockets[i]? = some ws) :
    (s.onSocket i f).sockets[i]? = some (f ws) := by
  rw [onSocket, List.getElem?_modify_eq, hget]
  rfl

/-- A message leaves the state of its socket as it is. -/
theorem onSocket_same {state : LogSocketState} (hget : s.sockets[i]? = some ws)
    (hstate : ws.state = state) :
    (s.onSocket i fun ws => { ws with state := state }) = s := by
  subst hstate
  have hsame : (s.sockets.modify i fun old => { old with state := ws.state }) = s.sockets := by
    apply List.ext_getElem?
    intro j
    by_cases hj : i = j
    · subst hj
      rw [List.getElem?_modify_eq, hget]
      rfl
    · rw [List.getElem?_modify_ne _ _ hj]
  unfold onSocket
  rw [hsame]

theorem socket?_any_iff {p : LogSocket → Bool} : s.socket?.any p = true ↔
    ∃ i ws, s.ws = some i ∧ s.sockets[i]? = some ws ∧ p ws = true := by
  simp only [socket?, Option.any_eq_true, Option.bind_eq_some_iff]
  constructor
  · rintro ⟨ws, ⟨i, hi, hget⟩, hp⟩
    exact ⟨i, ws, hi, hget, hp⟩
  · rintro ⟨i, ws, hi, hget, hp⟩
    exact ⟨ws, ⟨i, hi, hget⟩, hp⟩

theorem isOpen_iff : s.isOpen = true ↔
    ∃ i ws, s.ws = some i ∧ s.sockets[i]? = some ws ∧ ws.state = .open := by
  simp only [isOpen, socket?_any_iff, decide_eq_true_eq]

theorem isConnecting_iff : s.isConnecting = true ↔
    ∃ i ws, s.ws = some i ∧ s.sockets[i]? = some ws ∧ ws.state = .connecting := by
  simp only [isConnecting, socket?_any_iff, decide_eq_true_eq]

theorem send_of_open (hws : s.ws = some i) (hget : s.sockets[i]? = some ws)
    (hopen : ws.state = .open) (services : List String) : s.send services = s.onSocket i fun ws => ws.send services := by
  have hisOpen : s.isOpen = true := isOpen_iff.mpr ⟨i, ws, hws, hget, hopen⟩
  simp only [send, hws, hisOpen, if_true]

theorem send_of_not_open (h : ¬ s.isOpen = true) (services : List String) :
    s.send services = s := by
  unfold send
  split
  · rfl
  · rw [if_neg h]

theorem fire_eq_some {before : List LogSocketState} {state : LogSocketState}
    {handler : LogSocket → DockerLogStream → DockerLogStream}
    (h : s.fire i before state handler = some t) :
    ∃ ws, s.sockets[i]? = some ws ∧ ws.state ∈ before ∧
      t = handler ws (s.onSocket i fun ws => { ws with state := state }) := by
  unfold fire at h
  split at h
  · cases h
  · rename_i ws hget
    split_ifs at h with hstate
    exact ⟨ws, hget, hstate, (Option.some.inj h).symm⟩

/-- The rows change, and nothing else. -/
theorem onmessage_eq (batch : Option StreamBatch) :
    ∃ pending entryId, s.onmessage batch = { s with pending := pending, entryId := entryId } := by
  cases batch with
  | none => exact ⟨s.pending, s.entryId, rfl⟩
  | some batch =>
      simp only [onmessage]
      generalize batch.entries.getD [] = entries
      induction entries generalizing s with
      | nil => exact ⟨s.pending, s.entryId, rfl⟩
      | cons entry rest ih =>
          have hpush : ∃ pending entryId,
              s.pushEntry entry = { s with pending := pending, entryId := entryId } := by
            unfold pushEntry
            split
            · exact ⟨s.pending, s.entryId, rfl⟩
            · split
              · exact ⟨_, _, rfl⟩
              · exact ⟨s.pending, s.entryId, rfl⟩
          obtain ⟨pending, entryId, hpush⟩ := hpush
          obtain ⟨pending', entryId', hrest⟩ := ih (s := s.pushEntry entry)
          refine ⟨pending', entryId', ?_⟩
          rw [List.foldl_cons, hrest, hpush]

theorem cleanup_eq : s.cleanup = { s with
    mounted := false
    reconnectTimer := none
    flushTimer := false
    ws := none
    connected := false
    sockets := s.cleanup.sockets } := by
  unfold cleanup
  split
  · rfl
  · rfl

theorem flushPending_eq : ∃ entries pending,
    s.flushPending = { s with entries := entries, pending := pending } := by
  unfold flushPending
  split_ifs
  · exact ⟨s.entries, s.pending, rfl⟩
  · exact ⟨_, _, rfl⟩

/-- What an event can do. -/
inductive Effect (s : DockerLogStream) : Event → DockerLogStream → Prop where
  | sameUrl : Effect s (.baseUrlChanged s.baseUrl) s
  | newUrl {baseUrl : String} :
      Effect s (.baseUrlChanged baseUrl) (effect { s.cleanup with baseUrl := baseUrl })
  | servicesChanged {subscribedServices : List String} :
      Effect s (.servicesChanged subscribedServices) (s.servicesEffect subscribedServices)
  | unmount : Effect s .unmount s.cleanup
  | reconnect {baseUrl : String} (htimer : s.reconnectTimer = some baseUrl) :
      Effect s .reconnect (connect { s with reconnectTimer := none } baseUrl)
  | flush : Effect s .flush s.flushPending
  | clear : Effect s .clear s.clear
  | opened {i : Nat} {ws : LogSocket} (hget : s.sockets[i]? = some ws)
      (hstate : ws.state = .connecting) :
      Effect s (.opened i) ((s.onSocket i fun ws => { ws with state := .open }).onopen i)
  | received {i : Nat} {ws : LogSocket} {batch : Option StreamBatch}
      (hget : s.sockets[i]? = some ws) (hstate : ws.state = .open) :
      Effect s (.received i batch) (s.onmessage batch)
  | errored {i : Nat} :
      Effect s (.errored i) (s.onSocket i fun ws => { ws with state := .failed }).onerror
  | closed {i : Nat} {ws : LogSocket} :
      Effect s (.closed i)
        ((s.onSocket i fun ws => { ws with state := .closed }).onclose i ws.baseUrl)

theorem step_effect (hs : s.step e = some t) : Effect s e t := by
  cases e with
  | baseUrlChanged baseUrl =>
      simp only [step] at hs
      split_ifs at hs with hm hsame
      · obtain rfl := Option.some.inj hs
        rw [hsame]
        exact .sameUrl
      · obtain rfl := Option.some.inj hs
        exact .newUrl
  | servicesChanged subscribedServices =>
      simp only [step] at hs
      split_ifs at hs
      obtain rfl := Option.some.inj hs
      exact .servicesChanged
  | unmount =>
      simp only [step] at hs
      split_ifs at hs
      obtain rfl := Option.some.inj hs
      exact .unmount
  | reconnect =>
      obtain ⟨baseUrl, htimer, rfl⟩ := Option.map_eq_some_iff.mp hs
      exact .reconnect htimer
  | flush =>
      simp only [step] at hs
      split_ifs at hs
      obtain rfl := Option.some.inj hs
      exact .flush
  | clear =>
      obtain rfl := Option.some.inj hs
      exact .clear
  | opened i =>
      simp only [step] at hs
      obtain ⟨ws, hget, hstate, rfl⟩ := fire_eq_some hs
      exact .opened hget (List.mem_singleton.mp hstate)
  | received i batch =>
      simp only [step] at hs
      obtain ⟨ws, hget, hstate, rfl⟩ := fire_eq_some hs
      have hopen := List.mem_singleton.mp hstate
      rw [onSocket_same hget hopen]
      exact .received hget hopen
  | errored i =>
      simp only [step] at hs
      obtain ⟨ws, -, -, rfl⟩ := fire_eq_some hs
      exact .errored
  | closed i =>
      simp only [step] at hs
      obtain ⟨ws, -, -, rfl⟩ := fire_eq_some hs
      exact .closed

/-! ## What the refs know about the sockets -/

/-- The socket in `wsRef` is the only one whose messages are accepted, and the state of the
hook is about it. -/
structure Tracked (s : DockerLogStream) : Prop where
  held : ∀ (i : Nat) (ws : LogSocket),
    s.sockets[i]? = some ws → ws.accepting = true → s.ws = some i
  current : ∀ (i : Nat) (ws : LogSocket),
    s.sockets[i]? = some ws → ws.accepting = true → ws.url = streamUrl s.baseUrl
  informed : ∀ (i : Nat) (ws : LogSocket), s.sockets[i]? = some ws → ws.state = .open →
    ws.sent.getLast? = some (servicePayload s.subscribedServices)
  connected : s.connected = true → s.isOpen = true
  services : s.lastServices = servicePayload s.subscribedServices
  unmounted : s.mounted = false → s.ws = none ∧ s.reconnectTimer = none

theorem length_filter_le_one {α : Type*} {p : α → Bool} {l : List α}
    (h : ∀ (i j : Nat) (a b : α),
      l[i]? = some a → l[j]? = some b → p a = true → p b = true → i = j) :
    (l.filter p).length ≤ 1 := by
  induction l with
  | nil => exact Nat.zero_le 1
  | cons x rest ih =>
      by_cases hx : p x = true
      · have hrest : rest.filter p = [] := by
          rw [List.filter_eq_nil_iff]
          intro a ha hp
          obtain ⟨j, hj⟩ := List.getElem?_of_mem ha
          exact absurd (h 0 (j + 1) x a rfl hj hx hp) (Nat.succ_ne_zero j).symm
        rw [List.filter_cons_of_pos hx, hrest]
        exact le_rfl
      · rw [List.filter_cons_of_neg hx]
        exact ih fun i j a b hi hj ha hb => Nat.succ.inj (h (i + 1) (j + 1) a b hi hj ha hb)

theorem Tracked.oneSocket (h : Tracked s) : OneSocket s where
  atMostOne := by
    refine length_filter_le_one fun i j a b hi hj ha hb => ?_
    exact Option.some.inj ((h.held i a hi ha).symm.trans (h.held j b hj hb))
  current ws hws hacc := by
    obtain ⟨i, hi⟩ := List.getElem?_of_mem hws
    exact h.current i ws hi hacc
  informed ws hws hopen := by
    obtain ⟨i, hi⟩ := List.getElem?_of_mem hws
    exact h.informed i ws hi hopen
  connected hc := by
    obtain ⟨i, ws, -, hget, hopen⟩ := isOpen_iff.mp (h.connected hc)
    exact ⟨ws, List.mem_of_getElem? hget, hopen⟩

/-- The rows and the flush timer do not matter. -/
theorem Tracked.frame (h : Tracked s) (entries pending : List LogLine) (entryId : Nat)
    (flushTimer : Bool) : Tracked { s with
      entries := entries, pending := pending, entryId := entryId, flushTimer := flushTimer } :=
  ⟨h.held, h.current, h.informed, h.connected, h.services, h.unmounted⟩

/-- A socket that is over is no longer looked at. -/
theorem Tracked.retire (h : Tracked s) {f : LogSocket → LogSocket}
    (hf : ∀ ws, ¬ (f ws).accepting = true) :
    Tracked { s.onSocket i f with connected := false } := by
  have hkept : ∀ (j : Nat) (ws : LogSocket),
      (s.onSocket i f).sockets[j]? = some ws → ws.accepting = true → s.sockets[j]? = some ws := by
    intro j ws hget hacc
    obtain ⟨-, hget⟩ | ⟨-, old, -, rfl⟩ := onSocket_getElem? hget
    · exact hget
    · exact absurd hacc (hf old)
  refine ⟨fun j ws hget hacc => ?_, fun j ws hget hacc => ?_, fun j ws hget hopen => ?_, ?_, ?_, ?_⟩
  · exact h.held j ws (hkept j ws hget hacc) hacc
  · exact h.current j ws (hkept j ws hget hacc) hacc
  · exact h.informed j ws (hkept j ws hget (by simp [hopen])) hopen
  · exact fun hc => absurd hc Bool.false_ne_true
  · exact h.services
  · exact h.unmounted

/-- `wsRef` lets go of a socket that is over. -/
theorem Tracked.release (h : Tracked s)
    (hover : ∀ ws, s.sockets[i]? = some ws → ¬ ws.accepting = true) :
    Tracked { s with ws := if s.ws = some i then none else s.ws, connected := false } := by
  refine ⟨fun j ws hget hacc => ?_, h.current, h.informed, ?_, h.services, fun hm => ?_⟩
  · have hheld := h.held j ws hget hacc
    have hne : s.ws ≠ some i := by
      intro hi
      obtain rfl := Option.some.inj (hheld.symm.trans hi)
      exact hover ws hget hacc
    rw [if_neg hne]
    exact hheld
  · exact fun hc => absurd hc Bool.false_ne_true
  · obtain ⟨hws, htimer⟩ := h.unmounted hm
    rw [hws]
    exact ⟨rfl, htimer⟩

theorem Tracked.scheduleReconnect (h : Tracked s) (baseUrl : String) :
    Tracked (s.scheduleReconnect baseUrl) := by
  unfold DockerLogStream.scheduleReconnect
  split_ifs with hoff
  · exact h
  · simp only [Bool.or_eq_true, Bool.not_eq_true', not_or] at hoff
    exact ⟨h.held, h.current, h.informed, h.connected, h.services, fun hm => absurd hm hoff.1⟩

theorem Tracked.onclose (h : Tracked s) (baseUrl : String) :
    Tracked ((s.onSocket i fun ws => { ws with state := .closed }).onclose i baseUrl) := by
  have hretired := h.retire (i := i) (f := fun ws => { ws with state := .closed })
    (fun ws hacc => by simp at hacc)
  refine Tracked.scheduleReconnect (hretired.release fun ws hget hacc => ?_) baseUrl
  obtain ⟨hne, -⟩ | ⟨-, old, -, rfl⟩ := onSocket_getElem? hget
  · exact hne rfl
  · simp at hacc

/-- A socket made while no other is accepted. -/
theorem Tracked.connect {baseUrl : String} (hnone : ∀ ws ∈ s.sockets, ¬ ws.accepting = true)
    (hurl : streamUrl baseUrl = streamUrl s.baseUrl) (hconnected : s.connected = false)
    (hservices : s.lastServices = servicePayload s.subscribedServices)
    (hmounted : s.mounted = true) :
    Tracked (s.connect baseUrl) := by
  have hclosed : ¬ s.isOpen = true := by
    intro hopen
    obtain ⟨i, ws, -, hget, hstate⟩ := isOpen_iff.mp hopen
    exact hnone ws (List.mem_of_getElem? hget) (by simp [hstate])
  have hnew : ∀ (j : Nat) (ws : LogSocket),
      (s.sockets ++ [⟨baseUrl, .connecting, []⟩])[j]? = some ws →
      ws.accepting = true → j = s.sockets.length ∧ ws = ⟨baseUrl, .connecting, []⟩ := by
    intro j ws hget hacc
    rw [List.getElem?_append] at hget
    split_ifs at hget with hj
    · exact absurd hacc (hnone ws (List.mem_of_getElem? hget))
    · obtain ⟨hj', hget⟩ := List.getElem?_eq_some_iff.mp hget
      rw [List.length_singleton] at hj'
      refine ⟨by omega, ?_⟩
      simpa using hget.symm
  unfold DockerLogStream.connect
  rw [if_neg (by simp [hmounted]), if_neg hclosed]
  refine ⟨fun j ws hget hacc => ?_, fun j ws hget hacc => ?_, fun j ws hget hopen => ?_, ?_, ?_, ?_⟩
  · obtain ⟨rfl, -⟩ := hnew j ws hget hacc
    rfl
  · obtain ⟨-, rfl⟩ := hnew j ws hget hacc
    exact hurl
  · obtain ⟨-, rfl⟩ := hnew j ws hget (by simp [hopen])
    cases hopen
  · exact fun hc => absurd (hconnected.symm.trans hc) Bool.false_ne_true
  · exact hservices
  · exact fun hm => Bool.noConfusion (hmounted.symm.trans hm)

theorem Tracked.cleanup (h : Tracked s) : ∀ ws ∈ s.cleanup.sockets, ¬ ws.accepting = true := by
  intro ws hmem hacc
  obtain ⟨j, hget⟩ := List.getElem?_of_mem hmem
  cases hws : s.ws with
  | none =>
      simp only [DockerLogStream.cleanup, hws] at hget
      exact absurd (hws.symm.trans (h.held j ws hget hacc)) (by simp)
  | some i =>
      simp only [DockerLogStream.cleanup, hws] at hget
      obtain ⟨hne, hget⟩ | ⟨-, old, -, rfl⟩ := onSocket_getElem? hget
      · exact hne (Option.some.inj ((h.held j ws hget hacc).symm.trans hws))
      · exact old.not_accepting_close hacc

theorem Tracked.effect {baseUrl : String} (hnone : ∀ ws ∈ s.sockets, ¬ ws.accepting = true)
    (hconnected : s.connected = false)
    (hservices : s.lastServices = servicePayload s.subscribedServices) :
    Tracked (DockerLogStream.effect { s with baseUrl := baseUrl }) := by
  let s' := { s with baseUrl := baseUrl, mounted := true }
  have h : Tracked (s'.connect baseUrl) := Tracked.connect hnone rfl hconnected hservices rfl
  exact h.frame _ _ _ true

theorem Tracked.baseUrlChanged (h : Tracked s) (baseUrl : String) :
    Tracked (DockerLogStream.effect { s.cleanup with baseUrl := baseUrl }) := by
  refine Tracked.effect h.cleanup ?_ ?_
  · rw [cleanup_eq]
  · rw [cleanup_eq]
    exact h.services

theorem Tracked.unmount (h : Tracked s) : Tracked s.cleanup := by
  have hnone : ∀ (i : Nat) (ws : LogSocket), s.cleanup.sockets[i]? = some ws →
      ¬ ws.accepting = true := fun i ws hget => h.cleanup ws (List.mem_of_getElem? hget)
  rw [cleanup_eq]
  refine ⟨fun i ws hget hacc => absurd hacc (hnone i ws hget),
    fun i ws hget hacc => absurd hacc (hnone i ws hget), fun i ws hget hopen => ?_, ?_,
    h.services, ?_⟩
  · exact absurd (by simp [hopen]) (hnone i ws hget)
  · exact fun hc => absurd hc Bool.false_ne_true
  · exact fun _ => ⟨rfl, rfl⟩

/-- What happens to the socket in `wsRef` when it is open at the end and has the services. -/
theorem Tracked.update (h : Tracked s) (hws : s.ws = some i) (hget : s.sockets[i]? = some ws)
    (hacc : ws.accepting = true) {f : LogSocket → LogSocket} (hopen : (f ws).state = .open)
    (hbase : (f ws).baseUrl = ws.baseUrl) {subscribedServices lastServices : List String}
    (hsent : (f ws).sent.getLast? = some lastServices)
    (hservices : lastServices = servicePayload subscribedServices) (connected : Bool) :
    Tracked { s.onSocket i f with
      subscribedServices := subscribedServices
      lastServices := lastServices
      connected := connected } := by
  have honly : ∀ (j : Nat) (ws' : LogSocket), (s.onSocket i f).sockets[j]? = some ws' →
      ws'.accepting = true → j = i ∧ ws' = f ws := by
    intro j ws' hget' hacc'
    obtain ⟨hne, hget'⟩ | ⟨hj, old, hold, rfl⟩ := onSocket_getElem? hget'
    · exact absurd (Option.some.inj ((h.held j ws' hget' hacc').symm.trans hws)) hne
    · obtain rfl := Option.some.inj (hold.symm.trans hget)
      exact ⟨hj, rfl⟩
  refine ⟨fun j ws' hget' hacc' => ?_, fun j ws' hget' hacc' => ?_, fun j ws' hget' hopen' => ?_,
    fun _ => ?_, hservices, h.unmounted⟩
  · obtain ⟨rfl, -⟩ := honly j ws' hget' hacc'
    exact hws
  · obtain ⟨-, rfl⟩ := honly j ws' hget' hacc'
    exact (congrArg streamUrl hbase).trans (h.current i ws hget hacc)
  · obtain ⟨-, rfl⟩ := honly j ws' hget' (by simp [hopen'])
    exact hsent.trans (congrArg some hservices)
  · exact isOpen_iff.mpr ⟨i, f ws, hws, onSocket_getElem?_self f hget, hopen⟩

theorem Tracked.mounted (h : Tracked s) (hws : s.ws = some i) : s.mounted = true := by
  cases hm : s.mounted with
  | true => rfl
  | false =>
      rw [(h.unmounted hm).1] at hws
      cases hws

theorem Tracked.mounted_of_timer {baseUrl : String} (h : Tracked s)
    (htimer : s.reconnectTimer = some baseUrl) : s.mounted = true := by
  cases hm : s.mounted with
  | true => rfl
  | false =>
      rw [(h.unmounted hm).2] at htimer
      cases htimer

theorem Tracked.servicesEffect (h : Tracked s) (subscribedServices : List String) :
    Tracked (s.servicesEffect subscribedServices) := by
  let payload := servicePayload subscribedServices
  let s' := { s with subscribedServices := subscribedServices, lastServices := payload }
  show Tracked (s'.send payload)
  by_cases hopen : s'.isOpen = true
  · obtain ⟨i, ws, hws, hget, hstate⟩ := isOpen_iff.mp hopen
    rw [send_of_open (s := s') hws hget hstate]
    exact h.update (f := fun ws => ws.send payload) hws hget (by simp [hstate]) hstate rfl
      List.getLast?_concat rfl s.connected
  · rw [send_of_not_open hopen]
    refine ⟨h.held, h.current, fun i ws hget hstate => ?_, h.connected, rfl, h.unmounted⟩
    have hws := h.held i ws hget (by simp [hstate])
    exact absurd (isOpen_iff.mpr ⟨i, ws, hws, hget, hstate⟩) hopen

/-- A socket that opens is the one in `wsRef`, and is sent the services. -/
theorem Tracked.opened (h : Tracked s) (hget : s.sockets[i]? = some ws)
    (hstate : ws.state = .connecting) :
    Tracked ((s.onSocket i fun ws => { ws with state := .open }).onopen i) := by
  have hws : s.ws = some i := h.held i ws hget (by simp [hstate])
  let s' := { s.onSocket i fun ws => { ws with state := .open } with connected := true }
  have hget' : s'.sockets[i]? = some { ws with state := .open } := onSocket_getElem?_self _ hget
  have hopened : (s.onSocket i fun ws => { ws with state := .open }).onopen i =
      { s.onSocket i fun ws => { ws with state := .open, sent := ws.sent ++ [s.lastServices] } with
        connected := true } := by
    unfold onopen
    rw [if_neg (by simp [onSocket, h.mounted hws])]
    refine (send_of_open (s := s') hws hget' rfl s.lastServices).trans ?_
    simp only [onSocket, s', List.modify_modify_eq]
    rfl
  rw [hopened]
  exact h.update (f := fun ws => { ws with state := .open, sent := ws.sent ++ [s.lastServices] })
    hws hget (by simp [hstate]) rfl rfl List.getLast?_concat h.services true

/-! ## Which steps keep it so -/

/-- A timer goes off while the socket is open, or while none is being connected and with the
closures of an effect run whose URL is the present one. -/
def ReconnectFits (s : DockerLogStream) : Event → Prop
  | .reconnect => ∀ baseUrl ∈ s.reconnectTimer, s.isOpen = true ∨
      s.isConnecting = false ∧ streamUrl baseUrl = streamUrl s.baseUrl
  | _ => True

instance ReconnectFits.decidable (s : DockerLogStream) : ∀ e, Decidable (s.ReconnectFits e)
  | .reconnect => inferInstanceAs (Decidable (∀ baseUrl ∈ s.reconnectTimer, s.isOpen = true ∨
      s.isConnecting = false ∧ streamUrl baseUrl = streamUrl s.baseUrl))
  | .baseUrlChanged _ | .servicesChanged _ | .unmount | .flush | .clear | .opened _
  | .received _ _ | .errored _ | .closed _ => isTrue trivial

theorem Tracked.reconnect {baseUrl : String} (h : Tracked s) (hq : s.ReconnectFits .reconnect)
    (htimer : s.reconnectTimer = some baseUrl) :
    Tracked (DockerLogStream.connect { s with reconnectTimer := none } baseUrl) := by
  have hidle : Tracked { s with reconnectTimer := none } :=
    ⟨h.held, h.current, h.informed, h.connected, h.services, fun hm => ⟨(h.unmounted hm).1, rfl⟩⟩
  have hmounted := h.mounted_of_timer htimer
  by_cases hopen : s.isOpen = true
  · unfold DockerLogStream.connect
    rw [if_neg (by simp [hmounted]), if_pos (by exact hopen)]
    exact hidle
  · obtain ⟨hconnecting, hurl⟩ := (hq baseUrl htimer).resolve_left hopen
    refine Tracked.connect (fun ws hmem hacc => ?_) hurl ?_ h.services hmounted
    · obtain ⟨i, hget⟩ := List.getElem?_of_mem hmem
      have hws := h.held i ws hget hacc
      rcases LogSocket.accepting_iff.mp hacc with hstate | hstate
      · have := isConnecting_iff.mpr ⟨i, ws, hws, hget, hstate⟩
        exact Bool.noConfusion (hconnecting.symm.trans this)
      · exact hopen (isOpen_iff.mpr ⟨i, ws, hws, hget, hstate⟩)
    · cases hc : s.connected with
      | false => rfl
      | true => exact absurd (h.connected hc) hopen

/-- The step lemma. -/
theorem Tracked.step (h : Tracked s) (hq : s.ReconnectFits e) (hs : s.step e = some t) :
    Tracked t := by
  cases step_effect hs with
  | sameUrl => exact h
  | newUrl => exact h.baseUrlChanged _
  | servicesChanged => exact h.servicesEffect _
  | unmount => exact h.unmount
  | reconnect htimer => exact h.reconnect hq htimer
  | flush =>
      obtain ⟨entries, pending, heq⟩ := flushPending_eq (s := s)
      rw [heq]
      exact h.frame _ _ _ _
  | clear => exact h.frame _ _ _ _
  | opened hget hstate => exact h.opened hget hstate
  | @received i ws batch =>
      obtain ⟨pending, entryId, heq⟩ := onmessage_eq (s := s) batch
      rw [heq]
      exact h.frame _ _ _ _
  | errored => exact h.retire fun ws hacc => by simp at hacc
  | closed => exact h.onclose _

/-- A timer that does not fit makes a second socket or one to another URL. -/
theorem Tracked.reconnectFits {baseUrl : String} (h : Tracked s)
    (htimer : s.reconnectTimer = some baseUrl)
    (ht : OneSocket (DockerLogStream.connect { s with reconnectTimer := none } baseUrl)) :
    s.ReconnectFits .reconnect := by
  intro baseUrl' htimer'
  obtain rfl := Option.some.inj (htimer.symm.trans htimer')
  by_cases hopen : s.isOpen = true
  · exact .inl hopen
  · have hmounted := h.mounted_of_timer htimer
    have hnew : DockerLogStream.connect { s with reconnectTimer := none } baseUrl = { s with
        reconnectTimer := none
        ws := some s.sockets.length
        sockets := s.sockets ++ [⟨baseUrl, .connecting, []⟩] } := by
      unfold DockerLogStream.connect
      rw [if_neg (by simp [hmounted]), if_neg (by exact hopen)]
    rw [hnew] at ht
    refine .inr ⟨?_, ?_⟩
    · cases hc : s.isConnecting with
      | false => rfl
      | true =>
          obtain ⟨i, ws, -, hget, hstate⟩ := isConnecting_iff.mp hc
          have hmem : ws ∈ s.sockets.filter LogSocket.accepting :=
            List.mem_filter.mpr ⟨List.mem_of_getElem? hget, by simp [hstate]⟩
          have hpos := List.length_pos_of_mem hmem
          have hone := ht.atMostOne
          rw [List.filter_append, List.length_append] at hone
          have hlast : ([⟨baseUrl, .connecting, []⟩].filter LogSocket.accepting).length = 1 := rfl
          omega
    · exact ht.current ⟨baseUrl, .connecting, []⟩
        (List.mem_append_right _ List.mem_cons_self) rfl

theorem Tracked.mount (baseUrl : String) (subscribedServices : List String) :
    Tracked (mount baseUrl subscribedServices) := by
  refine Tracked.servicesEffect ?_ subscribedServices
  exact Tracked.effect (s := initial baseUrl) (fun ws hmem => absurd hmem List.not_mem_nil) rfl rfl

/-! ## Whole runs -/

theorem Tracked.keeps_iff (h : Tracked s) (hs : s.step e = some t) :
    OneSocket t ↔ s.ReconnectFits e := by
  refine ⟨fun ht => ?_, fun hq => (h.step hq hs).oneSocket⟩
  cases step_effect hs with
  | reconnect htimer => exact h.reconnectFits htimer ht
  | _ => trivial

/-- The runs that keep to one socket are those whose timers fit. -/
theorem oneSocket_iff (baseUrl : String) (subscribedServices : List String)
    (hr : exec step (mount baseUrl subscribedServices) events = some t) :
    Always step OneSocket (mount baseUrl subscribedServices) events ↔
      Meets step ReconnectFits (mount baseUrl subscribedServices) events := by
  have hmount := Tracked.mount baseUrl subscribedServices
  exact always_iff_meets_of_kept (fun _ _ _ h hq hs => h.step hq hs)
    (fun _ _ _ h _ hs => h.keeps_iff hs) hmount hmount.oneSocket hr

/-- A socket that the server closes, other services, another URL, and the late close event of
the socket to the first one. -/
theorem oneSocket_iff_reopened : Always step OneSocket (mount "http://a:8001" ["nav"])
    [.opened 0, .closed 0, .reconnect, .opened 1, .servicesChanged ["nav", "log"],
      .baseUrlChanged "http://b:8001", .opened 2, .closed 1, .reconnect] :=
  (oneSocket_iff "http://a:8001" ["nav"] rfl).mpr (by decide +kernel)

instance OneSocket.decidable (s : DockerLogStream) : Decidable (OneSocket s) :=
  decidable_of_iff
    ((s.sockets.filter LogSocket.accepting).length ≤ 1 ∧
      (∀ ws ∈ s.sockets, ws.accepting = true → ws.url = streamUrl s.baseUrl) ∧
      (∀ ws ∈ s.sockets, ws.state = .open →
        ws.sent.getLast? = some (servicePayload s.subscribedServices)) ∧
      (s.connected = true → ∃ ws ∈ s.sockets, ws.state = .open))
    ⟨fun h => ⟨h.1, h.2.1, h.2.2.1, h.2.2.2⟩,
      fun h => ⟨h.atMostOne, h.current, h.informed, h.connected⟩⟩

/-- The URL changes, the close event of the first socket comes and its timer goes off while the
second socket is being connected: two sockets open, one of them to the first URL. -/
theorem late_close_two_sockets : ∃ s, exec step (mount "http://a:8001" ["nav"])
    [.opened 0, .baseUrlChanged "http://b:8001", .closed 0, .reconnect, .opened 2, .opened 1] =
      some s ∧
    (s.sockets.filter fun ws => ws.state = .open).map LogSocket.url =
      ["ws://b:8001/logs/stream", "ws://a:8001/logs/stream"] ∧ ¬ OneSocket s :=
  exists_exec (by decide +kernel)

/-- Lines come from one server only: whatever is received in such a run comes over the socket
in `wsRef`, which is to the present URL. -/
theorem received_from_current (baseUrl : String) (subscribedServices : List String)
    (hm : Meets step ReconnectFits (mount baseUrl subscribedServices) events) :
    Meets step (fun s e => ∀ i batch t, e = .received i batch → s.step e = some t →
      s.ws = some i ∧ ∃ ws, s.sockets[i]? = some ws ∧ ws.url = streamUrl s.baseUrl)
      (mount baseUrl subscribedServices) events := by
  refine meets_of_invariant (fun _ _ _ h hq hs => h.step hq hs) (fun s e h _ => ?_)
    (Tracked.mount baseUrl subscribedServices) hm
  rintro i batch t rfl hs
  cases step_effect hs with
  | @received _ ws _ hget hstate =>
      have hacc : ws.accepting = true := by simp [hstate]
      exact ⟨h.held i ws hget hacc, ws, hget, h.current i ws hget hacc⟩

end DockerLogStream

end MgRobot.WebUi
