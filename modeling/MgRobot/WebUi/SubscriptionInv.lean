import MgRobot.WebUi.Reconcile

/-!
# What the connection keeps

The invariant of a `FoxgloveConnection` under its methods and the events of its
socket, and what it says about an open socket.
-/

namespace MgRobot.WebUi

set_option autoImplicit false

open MgRobot.Lib

namespace FoxgloveConnection

variable {L : Type} {c c' : FoxgloveConnection L}

/-- The connection and the server agree. -/
structure Agreed (c : FoxgloveConnection L) : Prop where
  ledger : Ledger c
  settled : Settled c
  channels : ∀ key, c.channels.get? key = current (liveChannels c.frames) key
  ids : ∀ a ∈ liveChannels c.frames, ∀ b ∈ liveChannels c.frames, a.id = b.id → a.key = b.key

/-- Nothing is left of an earlier socket. -/
def Reset (c : FoxgloveConnection L) : Prop :=
  c.channels = .empty ∧ c.active = .empty ∧ c.topicBySubId = .empty

structure Inv (c : FoxgloveConnection L) : Prop where
  stopped : c.started = false → c.ws = none ∧ c.reconnectTimer = false
  timer : c.reconnectTimer = true → c.ws = none
  noSocket : c.ws = none → Reset c
  connecting : ∀ ws, c.ws = some ws → ws.readyState = .connecting → ws.frames = [] ∧ Reset c
  agreed : c.isOpen = true → Agreed c

theorem isOpen_of_ws_none (h : c.ws = none) : c.isOpen ≠ true := by
  rw [isOpen, h]
  exact Bool.false_ne_true

/-- A connection with an open socket is started, and no timer is on. -/
theorem Inv.of_open (hopen : c.isOpen = true) (hstarted : c.started = true)
    (htimer : c.reconnectTimer = false) (h : Agreed c) : Inv c where
  stopped hs := by cases hstarted.symm.trans hs
  timer ht := by cases htimer.symm.trans ht
  noSocket hws := absurd hopen (isOpen_of_ws_none hws)
  connecting ws hws hstate := by
    obtain ⟨ws', hws', hstate'⟩ := isOpen_iff.mp hopen
    obtain rfl := Option.some.inj (hws.symm.trans hws')
    cases hstate.symm.trans hstate'
  agreed _ := h

theorem Inv.started (h : Inv c) (hopen : c.isOpen = true) : c.started = true := by
  cases hs : c.started with
  | true => rfl
  | false => exact absurd hopen (isOpen_of_ws_none (h.stopped hs).1)

theorem Inv.timer_off (h : Inv c) (hopen : c.isOpen = true) : c.reconnectTimer = false := by
  cases ht : c.reconnectTimer with
  | false => rfl
  | true => exact absurd hopen (isOpen_of_ws_none (h.timer ht))

/-- `reconcile` on a connection that agrees with the server up to what is wanted. -/
theorem Inv.reconcile_open (hopen : c.isOpen = true) (hstarted : c.started = true)
    (htimer : c.reconnectTimer = false) (hledger : Ledger c) (hcovered : Covered c)
    (hchannels : ∀ key, c.channels.get? key = current (liveChannels c.frames) key)
    (hids : ∀ a ∈ liveChannels c.frames, ∀ b ∈ liveChannels c.frames, a.id = b.id → a.key = b.key) :
    Inv c.reconcile := by
  obtain ⟨hkept, hledger', hsettled⟩ := reconcile_spec hopen hledger hcovered
  refine Inv.of_open (hkept.isOpen.trans hopen) (hkept.started.trans hstarted)
    (hkept.reconnectTimer.trans htimer) ⟨hledger', hsettled, fun key => ?_, ?_⟩
  · rw [hkept.channels, hkept.live]
    exact hchannels key
  · rw [hkept.live]
    exact hids

theorem reconcile_closed (h : c.isOpen ≠ true) : c.reconcile = c := by
  rw [reconcile, if_pos (by simpa using h)]

/-- What the user asks for is reconciled at once. -/
theorem Inv.request (h : Inv c) (listeners : OrderedMap String (OrderedMap Nat L))
    (listenerCounter : Nat) (paused : Bool) :
    Inv (reconcile { c with
      listeners := listeners, listenerCounter := listenerCounter, paused := paused }) := by
  by_cases hopen : c.isOpen = true
  · obtain ⟨hledger, hsettled, hchannels, hids⟩ := h.agreed hopen
    exact Inv.reconcile_open hopen (h.started hopen) (h.timer_off hopen)
      ⟨hledger.server, hledger.inverse, hledger.fresh⟩ hsettled.covered hchannels hids
  · rw [reconcile_closed (by exact hopen)]
    exact ⟨h.stopped, h.timer, h.noSocket, h.connecting, fun hopen' => absurd hopen' hopen⟩

theorem Inv.subscribe (h : Inv c) (topic : String) (onMessage : L) :
    Inv (c.subscribe topic onMessage) :=
  h.request _ _ c.paused

theorem Inv.unsubscribe (h : Inv c) (key : String) (id : Nat) : Inv (c.unsubscribe key id) := by
  unfold FoxgloveConnection.unsubscribe
  split
  · exact h
  · split_ifs with hid
    · exact h.request _ c.listenerCounter c.paused
    · exact h

theorem Inv.setPaused (h : Inv c) (paused : Bool) : Inv (c.setPaused paused) := by
  unfold FoxgloveConnection.setPaused
  split_ifs with hp
  · exact h
  · exact h.request c.listeners c.listenerCounter paused

theorem Inv.create : Inv (create : FoxgloveConnection L) where
  stopped _ := ⟨rfl, rfl⟩
  timer h := by cases h
  noSocket _ := ⟨rfl, rfl, rfl⟩
  connecting _ h := by cases h
  agreed h := by cases h

theorem Inv.stop (c : FoxgloveConnection L) : Inv c.stop where
  stopped _ := ⟨rfl, rfl⟩
  timer h := by cases h
  noSocket _ := ⟨rfl, rfl, rfl⟩
  connecting _ h := by cases h
  agreed h := by cases h

theorem Inv.onclose (h : Inv c) : Inv c.onclose := by
  unfold FoxgloveConnection.onclose
  by_cases hstarted : c.started = true
  · rw [if_pos (show (resetConnectionState { c with ws := none }).started = true from hstarted)]
    exact ⟨fun hs => (by cases hstarted.symm.trans hs), fun _ => rfl,
      fun _ => ⟨rfl, rfl, rfl⟩, (fun _ h => by cases h), fun h => by cases h⟩
  · rw [if_neg (show ¬ (resetConnectionState { c with ws := none }).started = true from hstarted)]
    exact ⟨fun hs => ⟨rfl, (h.stopped hs).2⟩, fun _ => rfl, fun _ => ⟨rfl, rfl, rfl⟩,
      (fun _ h => by cases h), fun h => by cases h⟩

/-- A new socket finds nothing left of an earlier one. -/
theorem Inv.connect (hws : c.ws = none) (htimer : c.reconnectTimer = false) (hreset : Reset c)
    (socket : Nat) : Inv (c.connect socket) := by
  unfold FoxgloveConnection.connect
  split_ifs with hs
  · refine ⟨fun _ => ⟨hws, htimer⟩, fun _ => hws, fun _ => hreset, fun ws hws' => ?_, fun hopen => ?_⟩
    · cases hws.symm.trans hws'
    · exact absurd hopen (isOpen_of_ws_none hws)
  · refine ⟨fun hstopped => absurd (by rw [hstopped]; rfl) hs,
      fun ht => (by cases htimer.symm.trans ht), (fun h => by cases h), ?_, fun h => by cases h⟩
    rintro ws ⟨⟩ -
    exact ⟨rfl, hreset⟩

theorem Inv.start (h : Inv c) (socket : Nat) : Inv (c.start socket) := by
  unfold FoxgloveConnection.start
  split_ifs with hs
  · exact h
  · obtain ⟨hws, htimer⟩ := h.stopped (by simpa using hs)
    exact Inv.connect (c := { c with started := true }) hws htimer (h.noSocket hws) socket

theorem Inv.reconnect (h : Inv c) (htimer : c.reconnectTimer = true) (socket : Nat) :
    Inv (c.reconnect socket) :=
  Inv.connect (c := { c with reconnectTimer := false }) (h.timer htimer) rfl
    (h.noSocket (h.timer htimer)) socket

theorem Inv.opened (h : Inv c) {ws : Socket} (hws : c.ws = some ws)
    (hstate : ws.readyState = .connecting) :
    Inv { c with ws := some { ws with readyState := .open } } := by
  obtain ⟨hframes, hchannels, hactive, hinverse⟩ := h.connecting ws hws hstate
  have hnotnone : c.ws ≠ none := by rw [hws]; exact Option.some_ne_none ws
  refine ⟨fun hs => absurd (h.stopped hs).1 hnotnone, fun ht => absurd (h.timer ht) hnotnone,
    (fun h => by cases h), ?_, fun _ => ?_⟩
  · rintro ws' ⟨⟩ hconnecting
    cases hconnecting
  · have hlog : frames { c with ws := some { ws with readyState := .open } } = [] := hframes
    refine ⟨⟨?_, ?_, ?_⟩, fun key => ?_, fun key => ?_, ?_⟩
    · rw [hlog, hactive]
      rfl
    · rw [hactive, hinverse]
      rfl
    · rw [hactive]
      intro _ h
      cases h
    · rw [channelId, hactive, hchannels]
      split_ifs
      · rfl
      · rfl
    · rw [hlog, hchannels]
      rfl
    · rw [hlog]
      intro _ h
      cases h

theorem Inv.closing (h : Inv c) {ws : Socket} (hws : c.ws = some ws) :
    Inv { c with ws := some { ws with readyState := .closing } } := by
  have hnotnone : c.ws ≠ none := by rw [hws]; exact Option.some_ne_none ws
  refine ⟨fun hs => absurd (h.stopped hs).1 hnotnone, fun ht => absurd (h.timer ht) hnotnone,
    (fun h => by cases h), ?_, fun h => by cases h⟩
  rintro ws' ⟨⟩ hconnecting
  cases hconnecting

/-! ## Frames of the server -/

theorem foldl_set_ne_none {channels : List ServerChannel} {m : OrderedMap String ServerChannel}
    {key : String}
    (h : (channels.foldl (fun m ch => m.set (normalizeName ch.topic) ch) m).get? key = none) :
    m.get? key = none := by
  induction channels generalizing m with
  | nil => exact h
  | cons ch rest ih =>
      have hset := ih h
      rw [OrderedMap.get?_set] at hset
      split_ifs at hset
      exact hset

theorem mem_foldl_advertiseChannel {channels live : List ServerChannel} {a : ServerChannel}
    (h : a ∈ channels.foldl advertiseChannel live) : a ∈ live ++ channels := by
  induction channels generalizing live with
  | nil =>
      rw [List.append_nil]
      exact h
  | cons ch rest ih =>
      rcases List.mem_append.mp (ih h) with hmem | hmem
      · rcases List.mem_append.mp hmem with hmem | hmem
        · exact List.mem_append_left _ (List.mem_of_mem_filter hmem)
        · obtain rfl := List.mem_singleton.mp hmem
          exact List.mem_append_right live List.mem_cons_self
      · exact List.mem_append_right live (List.mem_cons_of_mem ch hmem)

theorem Inv.advertise (h : Inv c) (hopen : c.isOpen = true) {channels : List ServerChannel}
    (hd : (Frame.advertise channels).Disciplined (liveChannels c.frames)) :
    Inv ((c.log (.advertise channels)).advertise channels) := by
  obtain ⟨hledger, hsettled, hchannels, hids⟩ := h.agreed hopen
  have hframes := frames_log hopen (.advertise channels)
  have hopen' : (c.log (.advertise channels)).isOpen = true := (isOpen_log _).trans hopen
  refine Inv.reconcile_open (c := { c.log (.advertise channels) with
      channels := channels.foldl (fun m ch => m.set (normalizeName ch.topic) ch) c.channels })
    hopen' (h.started hopen) (h.timer_off hopen) ⟨?_, hledger.inverse, hledger.fresh⟩ ?_ ?_ ?_
  · show serverSubscriptions (c.log (.advertise channels)).frames = _
    rw [hframes, serverSubscriptions_append]
    exact hledger.server
  · intro key hnone
    exact hsettled.covered key (foldl_set_ne_none hnone)
  · intro key
    show _ = current (liveChannels (c.log (.advertise channels)).frames) key
    rw [hframes, liveChannels_append]
    exact current_advertise hd hchannels key
  · show ∀ a ∈ liveChannels (c.log (.advertise channels)).frames,
      ∀ b ∈ liveChannels (c.log (.advertise channels)).frames, a.id = b.id → a.key = b.key
    rw [hframes, liveChannels_append]
    exact fun a ha b hb => hd a (mem_foldl_advertiseChannel ha) b (mem_foldl_advertiseChannel hb)

/-- The subscriptions of removed channels go from all three. -/
theorem Ledger.removeChannels (h : Ledger c) (hopen : c.isOpen = true) (ids : List Nat) :
    Ledger ((c.log (.unadvertise ids)).removeChannels ids) := by
  constructor
  · show serverSubscriptions (c.log (.unadvertise ids)).frames =
      (c.active.entries.filter fun e => !decide (e.2.channel.id ∈ ids)).map _
    rw [frames_log hopen, serverSubscriptions_append, h.server]
    show (c.active.entries.map _).filter _ = _
    rw [List.filter_map]
    refine congrArg (List.map _) (List.filter_congr fun e _ => ?_)
    simp
  · show (((c.active.entries.filter fun e => decide (e.2.channel.id ∈ ids)).map
        fun e => e.2.subId).foldl OrderedMap.erase c.topicBySubId).entries =
      (c.active.entries.filter fun e => !decide (e.2.channel.id ∈ ids)).map _
    rw [OrderedMap.entries_foldl_erase, h.inverse, List.filter_map]
    refine congrArg (List.map _) (List.filter_congr fun e he => ?_)
    have hsame : e.2.subId ∈ (c.active.entries.filter fun e => decide (e.2.channel.id ∈ ids)).map
        (fun e => e.2.subId) ↔ e.2.channel.id ∈ ids := by
      simp only [List.mem_map, List.mem_filter, decide_eq_true_eq]
      constructor
      · rintro ⟨e', ⟨he', hid⟩, heq⟩
        rw [← h.subId_inj he' he heq]
        exact hid
      · intro hid
        exact ⟨e, ⟨he, hid⟩, rfl⟩
    simp [hsame]
  · exact fun e he => h.fresh e (List.mem_of_mem_filter he)

theorem Inv.unadvertise (h : Inv c) (hopen : c.isOpen = true) {ids : List Nat}
    (hd : (Frame.unadvertise ids).Disciplined (liveChannels c.frames)) :
    Inv ((c.log (.unadvertise ids)).removeChannels ids) := by
  obtain ⟨hledger, hsettled, hchannels, hids⟩ := h.agreed hopen
  have hframes := frames_log hopen (.unadvertise ids)
  have hopen' : (c.log (.unadvertise ids)).isOpen = true := (isOpen_log _).trans hopen
  refine Inv.of_open hopen' (h.started hopen) (h.timer_off hopen)
    ⟨hledger.removeChannels hopen ids, fun key => ?_, fun key => ?_, ?_⟩
  · ext x
    have hactive := c.active.map_get?_eraseIf (k := key) (x := x) (fun sub => sub.channel.id)
      fun id => decide (id ∈ ids)
    have hremaining := c.channels.map_get?_eraseIf (k := key) (x := x) ServerChannel.id
      fun id => decide (id ∈ ids)
    have hbefore : c.channelId key = _ := hsettled key
    show ((c.active.eraseIf _).get? key).map (fun sub => sub.channel.id) = some x ↔
      (if c.Wanted key then ((c.channels.eraseIf _).get? key).map ServerChannel.id else none) = some x
    rw [hactive, ← channelId, hbefore]
    split_ifs with hw
    · exact hremaining.symm
    · simp
  · show (c.channels.eraseIf fun _ ch => ch.id ∈ ids).get? key =
      current (liveChannels (c.log (.unadvertise ids)).frames) key
    ext ch
    rw [OrderedMap.get?_eraseIf, hchannels, hframes, liveChannels_append, Frame.channels,
      current_unadvertise hd, decide_eq_false_iff_not]
  · show ∀ a ∈ liveChannels (c.log (.unadvertise ids)).frames,
      ∀ b ∈ liveChannels (c.log (.unadvertise ids)).frames, a.id = b.id → a.key = b.key
    rw [hframes, liveChannels_append]
    exact fun a ha b hb => hids a (List.mem_of_mem_filter ha) b (List.mem_of_mem_filter hb)

/-! ## What an agreed connection has on the server -/

theorem Agreed.entry (h : Agreed c) {e : String × Subscription} (he : e ∈ c.active.entries) :
    c.Wanted e.1 ∧
      ∃ ch, current (liveChannels c.frames) e.1 = some ch ∧ ch.id = e.2.channel.id := by
  have hid : c.channelId e.1 = some e.2.channel.id := by
    rw [channelId, c.active.get?_eq_some_iff.mpr he]
    rfl
  have hsettled := h.settled e.1
  rw [hid] at hsettled
  split_ifs at hsettled with hw
  · obtain ⟨ch, hch, heq⟩ := Option.map_eq_some_iff.mp hsettled.symm
    rw [h.channels] at hch
    exact ⟨hw, ch, hch, heq⟩

/-- The live channel of an active subscription stands for its topic. -/
theorem Agreed.key_of_live (h : Agreed c) {e : String × Subscription}
    (he : e ∈ c.active.entries) {ch : ServerChannel} (hch : ch ∈ liveChannels c.frames)
    (hid : ch.id = e.2.channel.id) : ch.key = e.1 := by
  obtain ⟨-, ch', hcurrent, hid'⟩ := h.entry he
  obtain ⟨hmem, hkey⟩ := mem_of_current hcurrent
  exact (h.ids ch hch ch' hmem (hid.trans hid'.symm)).trans hkey

theorem Agreed.topicSubscriptions (h : Agreed c) (key : String) :
    topicSubscriptions c.frames key =
      ((c.active.get? key).map fun sub => ⟨sub.subId, sub.channel.id⟩).toList := by
  rw [WebUi.topicSubscriptions, h.ledger.server, List.filter_map,
    ← c.active.map_filter_key (fun e => (⟨e.2.subId, e.2.channel.id⟩ : ServerSubscription))]
  refine congrArg (List.map _) (List.filter_congr fun e he => ?_)
  rw [Function.comp_apply, Bool.eq_iff_iff, List.any_eq_true, decide_eq_true_eq]
  constructor
  · rintro ⟨ch, hch, hand⟩
    obtain ⟨hid, hkey⟩ := of_decide_eq_true hand
    exact (h.key_of_live he hch hid).symm.trans hkey
  · intro hkey
    obtain ⟨-, ch, hcurrent, hid⟩ := h.entry he
    obtain ⟨hmem, hchkey⟩ := mem_of_current hcurrent
    exact ⟨ch, hmem, decide_eq_true ⟨hid, hchkey.trans hkey⟩⟩

theorem Ledger.topicBySubId_iff (h : Ledger c) {subId : Nat} {key : String} :
    c.topicBySubId.get? subId = some key ↔
      ∃ sub, c.active.get? key = some sub ∧ sub.subId = subId := by
  rw [OrderedMap.get?_eq_some_iff, h.inverse, List.mem_map]
  constructor
  · rintro ⟨e, he, heq⟩
    obtain ⟨rfl, rfl⟩ := Prod.mk.inj heq
    exact ⟨e.2, c.active.get?_eq_some_iff.mpr he, rfl⟩
  · rintro ⟨sub, hsub, rfl⟩
    exact ⟨(key, sub), c.active.get?_eq_some_iff.mp hsub, rfl⟩

/-! ## Messages -/

theorem handleBinary_fst {D : Type} (codec : Codec D) (buffer : List UInt8) (now : Nat) :
    ∃ lastMessageAt,
      (c.handleBinary codec buffer now).1 = { c with lastMessageAt := lastMessageAt } := by
  unfold handleBinary
  split_ifs
  · exact ⟨c.lastMessageAt, rfl⟩
  · split
    · exact ⟨c.lastMessageAt, rfl⟩
    · split
      · split_ifs
        · exact ⟨c.lastMessageAt, rfl⟩
        · exact ⟨_, rfl⟩
      · exact ⟨c.lastMessageAt, rfl⟩

theorem Inv.handleBinary {D : Type} (h : Inv c) (codec : Codec D) (buffer : List UInt8)
    (now : Nat) : Inv (c.handleBinary codec buffer now).1 := by
  obtain ⟨lastMessageAt, heq⟩ := handleBinary_fst codec buffer now (c := c)
  rw [heq]
  refine ⟨h.stopped, h.timer, h.noSocket, h.connecting, fun hopen => ?_⟩
  obtain ⟨⟨hserver, hinverse, hfresh⟩, hsettled, hchannels, hids⟩ := h.agreed hopen
  exact ⟨⟨hserver, hinverse, hfresh⟩, hsettled, hchannels, hids⟩

/-- The listeners of a topic, in the order of their calls. -/
def listenersOf (c : FoxgloveConnection L) (key : String) : List (Nat × L) :=
  ((c.listeners.get? key).map OrderedMap.entries).getD []

theorem length_listenersOf (key : String) : (c.listenersOf key).length = c.size key := by
  unfold listenersOf size
  split
  · rename_i hnone
    rw [hnone]
    rfl
  · rename_i listeners hsome
    rw [hsome]
    rfl

theorem listenersOf_of_calls (h : c'.calls = c.calls) (key : String) :
    c'.listenersOf key = c.listenersOf key := by
  have hlisteners : c'.listeners = c.listeners := congrArg Prod.fst h
  rw [listenersOf, hlisteners]
  rfl

theorem listenersOf_subscribe (topic : String) (onMessage : L)
    (hfresh : ∀ e ∈ c.listenersOf (normalizeName topic), e.1 ≤ c.listenerCounter) (k : String) :
    (c.subscribe topic onMessage).listenersOf k =
      if k = normalizeName topic then c.listenersOf k ++ [(c.listenerCounter + 1, onMessage)]
      else c.listenersOf k := by
  rw [FoxgloveConnection.subscribe, listenersOf_of_calls calls_reconcile, listenersOf,
    OrderedMap.get?_set]
  split_ifs with hk
  · subst hk
    have hnew : c.listenerCounter + 1 ∉ ((c.listeners.get? (normalizeName topic)).getD .empty).keys := by
      intro hmem
      obtain ⟨e, he, heq⟩ := List.mem_map.mp hmem
      have hle := hfresh e (by
        rw [listenersOf]
        cases hl : c.listeners.get? (normalizeName topic) with
        | none => rw [hl] at he; cases he
        | some listeners => rw [hl] at he; exact he)
      omega
    rw [Option.map_some, Option.getD_some, OrderedMap.entries_set_of_notMem _ hnew, listenersOf]
    cases c.listeners.get? (normalizeName topic) with
    | none => rfl
    | some listeners => rfl
  · rfl

theorem listenersOf_unsubscribe (key : String) (id : Nat) (k : String) :
    (c.unsubscribe key id).listenersOf k =
      if k = key then (c.listenersOf k).filter fun e => e.1 ≠ id else c.listenersOf k := by
  unfold FoxgloveConnection.unsubscribe
  cases hl : c.listeners.get? key with
  | none =>
      dsimp only
      split_ifs with hk
      · rw [listenersOf, hk, hl]
        rfl
      · rfl
  | some listeners =>
      have hkey : c.listenersOf key = listeners.entries := by
        rw [listenersOf, hl]
        rfl
      dsimp only
      by_cases hid : id ∈ listeners.keys
      · rw [if_neg (not_not.mpr hid), listenersOf_of_calls calls_reconcile]
        by_cases hempty : (listeners.erase id).entries.length = 0
        · rw [if_pos hempty, listenersOf, OrderedMap.get?_erase]
          split_ifs with hk
          · rw [hk, hkey]
            exact (List.length_eq_zero_iff.mp hempty).symm
          · rfl
        · rw [if_neg hempty, listenersOf, OrderedMap.get?_set]
          split_ifs with hk
          · rw [hk, hkey]
            rfl
          · rfl
      · rw [if_pos hid]
        split_ifs with hk
        · rw [hk, hkey]
          refine (List.filter_eq_self.mpr fun e he => ?_).symm
          have hne : e.1 ≠ id := fun heq => hid (List.mem_map.mpr ⟨e, he, heq⟩)
          simpa using hne
        · rfl

theorem unsubscribe_listenerCounter (key : String) (id : Nat) :
    (c.unsubscribe key id).listenerCounter = c.listenerCounter := by
  unfold FoxgloveConnection.unsubscribe
  split
  · rfl
  · dsimp only
    split_ifs
    · exact congrArg Prod.snd calls_reconcile
    · exact congrArg Prod.snd calls_reconcile
    · rfl

/-- A message of a subscription goes to the listeners of its topic. -/
theorem handleBinary_active {D : Type} (codec : Codec D) {buffer : List UInt8} (now : Nat)
    {subId : Nat} {key : String} {sub : Subscription} (hop : buffer.head? = some 1)
    (hid : getUint32 buffer 1 = some subId) (hkey : c.topicBySubId.get? subId = some key)
    (hsub : c.active.get? key = some sub) :
    (c.handleBinary codec buffer now).2 = (c.listenersOf key).map fun e =>
      ⟨e.1, e.2, decodePayload codec (buffer.drop 13) (some sub.channel.toAdvertisedSchema)⟩ := by
  unfold handleBinary listenersOf
  rw [if_neg (not_not.mpr hop), hid, Option.bind_some, hkey]
  dsimp only
  rw [hsub]
  cases hl : c.listeners.get? key with
  | none => rfl
  | some listeners =>
      obtain ⟨id, channel⟩ := sub
      dsimp only
      split_ifs with hnil
      · rw [Option.map_some, Option.getD_some, List.length_eq_zero_iff.mp hnil]
        rfl
      · rfl

/-- A message of a subscription that has ended goes to nobody. -/
theorem handleBinary_ended {D : Type} (codec : Codec D) {buffer : List UInt8} (now : Nat)
    {subId : Nat} (hid : getUint32 buffer 1 = some subId)
    (hkey : c.topicBySubId.get? subId = none) : (c.handleBinary codec buffer now).2 = [] := by
  unfold handleBinary
  split_ifs
  · rfl
  · rw [hid, Option.bind_some, hkey]

end FoxgloveConnection

end MgRobot.WebUi
