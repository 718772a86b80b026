import MgRobot.WebUi.SubscriptionInv

/-!
# The subscriptions over a run

Whatever reaches the connection, while its socket is open the server has the
subscriptions of the active map and each topic the one its listeners ask for.
-/

namespace MgRobot.WebUi

set_option autoImplicit false

open MgRobot.Lib MgRobot.Lib.Runs

namespace World

open FoxgloveConnection

variable {L D : Type} {codec : Codec D} {w w' : World L} {e : Event L} {events : List (Event L)}

theorem onSocket_some {socket : Nat} {f : Socket → Option (FoxgloveConnection L)}
    (h : w.onSocket socket f = some w') :
    w' = w ∨ ∃ ws conn, w.conn.ws = some ws ∧ f ws = some conn ∧ w' = { w with conn := conn } := by
  unfold onSocket at h
  split at h
  · exact .inl (Option.some.inj h).symm
  · rename_i ws hws
    split_ifs at h
    · exact .inl (Option.some.inj h).symm
    · obtain ⟨conn, hconn, rfl⟩ := Option.map_eq_some_iff.mp h
      exact .inr ⟨ws, conn, hws, hconn, rfl⟩

theorem inv_received {ws : Socket} {frame : Frame} (h : Inv w.conn) (hws : w.conn.ws = some ws)
    (hopen : ws.readyState = .open) (hd : frame.Disciplined (liveChannels ws.frames)) :
    Inv ((w.conn.log frame).handleText frame) := by
  have hframes : w.conn.frames = ws.frames := by
    rw [FoxgloveConnection.frames, hws]
    rfl
  have hisOpen := isOpen_iff.mpr ⟨ws, hws, hopen⟩
  rw [← hframes] at hd
  cases frame with
  | subscribe subscriptions => exact absurd hd id
  | unsubscribe ids => exact absurd hd id
  | advertise channels => exact h.advertise hisOpen hd
  | unadvertise ids => exact h.unadvertise hisOpen hd

theorem inv_step (h : Inv w.conn) (hs : step codec w e = some w') : Inv w'.conn := by
  cases e with
  | start =>
      obtain rfl := Option.some.inj hs
      exact h.start _
  | stop =>
      obtain rfl := Option.some.inj hs
      exact Inv.stop _
  | reconnect =>
      unfold step at hs
      split_ifs at hs with htimer
      obtain rfl := Option.some.inj hs
      exact h.reconnect htimer _
  | subscribe topic onMessage =>
      obtain rfl := Option.some.inj hs
      exact h.subscribe topic onMessage
  | unsubscribe key id =>
      obtain rfl := Option.some.inj hs
      exact h.unsubscribe key id
  | setPaused paused =>
      obtain rfl := Option.some.inj hs
      exact h.setPaused paused
  | opened socket =>
      obtain rfl | ⟨ws, conn, hws, hconn, rfl⟩ := onSocket_some hs
      · exact h
      · split_ifs at hconn with hstate
        obtain rfl := Option.some.inj hconn
        exact h.opened hws hstate
  | closing socket =>
      obtain rfl | ⟨ws, conn, hws, hconn, rfl⟩ := onSocket_some hs
      · exact h
      · obtain rfl := Option.some.inj hconn
        exact h.closing hws
  | closed socket =>
      obtain rfl | ⟨ws, conn, hws, hconn, rfl⟩ := onSocket_some hs
      · exact h
      · obtain rfl := Option.some.inj hconn
        exact h.onclose
  | received socket frame =>
      obtain rfl | ⟨ws, conn, hws, hconn, rfl⟩ := onSocket_some hs
      · exact h
      · split_ifs at hconn with hstate
        obtain rfl := Option.some.inj hconn
        exact inv_received h hws hstate.1 hstate.2
  | message socket buffer now =>
      obtain rfl | ⟨ws, conn, hws, hconn, rfl⟩ := onSocket_some hs
      · exact h
      · split_ifs at hconn with hstate
        obtain rfl := Option.some.inj hconn
        exact h.handleBinary codec buffer now

/-! ## The calls of subscribe and of what it returns -/

/-- A call of `subscribe` whose returned function has not been called. -/
structure Registration (L : Type) where
  key : String
  id : Nat
  listener : L

/-- The calls of `subscribe` so far, and those of them that still count. -/
def register : Nat × List (Registration L) → Event L → Nat × List (Registration L)
  | (n, regs), .subscribe topic onMessage =>
      (n + 1, regs ++ [⟨normalizeName topic, n + 1, onMessage⟩])
  | (n, regs), .unsubscribe key id => (n, regs.filter fun r => ¬ (r.key = key ∧ r.id = id))
  | acc, _ => acc

def registrations (events : List (Event L)) : Nat × List (Registration L) :=
  events.foldl register (0, [])

/-- The events other than these calls leave the listeners as they are. -/
theorem step_calls (hs : step codec w e = some w')
    (hsub : ∀ topic onMessage, e ≠ .subscribe topic onMessage)
    (hunsub : ∀ key id, e ≠ .unsubscribe key id) : w'.conn.calls = w.conn.calls := by
  cases e with
  | start =>
      obtain rfl := Option.some.inj hs
      show (w.conn.start w.sockets).calls = w.conn.calls
      unfold FoxgloveConnection.start
      split_ifs
      · rfl
      · rfl
  | stop =>
      obtain rfl := Option.some.inj hs
      rfl
  | reconnect =>
      unfold step at hs
      split_ifs at hs
      obtain rfl := Option.some.inj hs
      show (w.conn.reconnect w.sockets).calls = w.conn.calls
      unfold FoxgloveConnection.reconnect connect
      split_ifs
      · rfl
      · rfl
  | subscribe topic onMessage => exact absurd rfl (hsub topic onMessage)
  | unsubscribe key id => exact absurd rfl (hunsub key id)
  | setPaused paused =>
      obtain rfl := Option.some.inj hs
      show (w.conn.setPaused paused).calls = w.conn.calls
      unfold FoxgloveConnection.setPaused
      split_ifs
      · rfl
      · exact calls_reconcile
  | opened socket =>
      obtain rfl | ⟨ws, conn, -, hconn, rfl⟩ := onSocket_some hs
      · rfl
      · split_ifs at hconn
        obtain rfl := Option.some.inj hconn
        rfl
  | closing socket =>
      obtain rfl | ⟨ws, conn, -, hconn, rfl⟩ := onSocket_some hs
      · rfl
      · obtain rfl := Option.some.inj hconn
        rfl
  | closed socket =>
      obtain rfl | ⟨ws, conn, -, hconn, rfl⟩ := onSocket_some hs
      · rfl
      · obtain rfl := Option.some.inj hconn
        show w.conn.onclose.calls = w.conn.calls
        unfold FoxgloveConnection.onclose
        dsimp only
        split_ifs
        · rfl
        · rfl
  | received socket frame =>
      obtain rfl | ⟨ws, conn, -, hconn, rfl⟩ := onSocket_some hs
      · rfl
      · split_ifs at hconn
        obtain rfl := Option.some.inj hconn
        cases frame with
        | advertise channels => exact calls_reconcile
        | unadvertise ids => rfl
        | subscribe subscriptions => rfl
        | unsubscribe ids => rfl
  | message socket buffer now =>
      obtain rfl | ⟨ws, conn, -, hconn, rfl⟩ := onSocket_some hs
      · rfl
      · split_ifs at hconn
        obtain rfl := Option.some.inj hconn
        obtain ⟨lastMessageAt, heq⟩ := handleBinary_fst codec buffer now (c := w.conn)
        rw [heq]
        rfl

/-- The listeners of a connection are the calls of `subscribe` that still count. -/
structure Registered (events : List (Event L)) (w : World L) : Prop where
  inv : Inv w.conn
  counter : (registrations events).1 = w.conn.listenerCounter
  listeners : ∀ key, w.conn.listenersOf key =
    ((registrations events).2.filter fun r => r.key = key).map fun r => (r.id, r.listener)
  fresh : ∀ r ∈ (registrations events).2, r.id ≤ w.conn.listenerCounter

theorem registrations_snoc (events : List (Event L)) (e : Event L) :
    registrations (events ++ [e]) = register (registrations events) e := by
  rw [registrations, List.foldl_append]
  rfl

theorem Registered.subscribe (h : Registered events w) (topic : String) (onMessage : L) :
    Registered (events ++ [.subscribe topic onMessage])
      { w with conn := w.conn.subscribe topic onMessage } := by
  have hcounter : (w.conn.subscribe topic onMessage).listenerCounter =
      w.conn.listenerCounter + 1 := congrArg Prod.snd calls_reconcile
  have hregs : (registrations (events ++ [.subscribe topic onMessage])).2 =
      (registrations events).2 ++ [⟨normalizeName topic, w.conn.listenerCounter + 1, onMessage⟩] := by
    rw [registrations_snoc, ← h.counter]
    rfl
  refine ⟨h.inv.subscribe topic onMessage, ?_, fun key => ?_, ?_⟩
  · rw [registrations_snoc]
    show (registrations events).1 + 1 = _
    rw [h.counter, hcounter]
  · have hfresh : ∀ e ∈ w.conn.listenersOf (normalizeName topic), e.1 ≤ w.conn.listenerCounter := by
      intro e he
      rw [h.listeners, List.mem_map] at he
      obtain ⟨r, hr, rfl⟩ := he
      exact h.fresh r (List.mem_of_mem_filter hr)
    rw [hregs, listenersOf_subscribe topic onMessage hfresh, List.filter_append, List.map_append,
      ← h.listeners]
    split_ifs with hkey
    · rw [List.filter_cons_of_pos (by simpa using hkey.symm)]
      rfl
    · rw [List.filter_cons_of_neg (by simpa using Ne.symm hkey)]
      exact (List.append_nil _).symm
  · rw [hregs]
    intro r hr
    show r.id ≤ (w.conn.subscribe topic onMessage).listenerCounter
    rw [hcounter]
    rcases List.mem_append.mp hr with hr | hr
    · have hle := h.fresh r hr
      omega
    · obtain rfl := List.mem_singleton.mp hr
      exact Nat.le_refl _

theorem Registered.unsubscribe (h : Registered events w) (key : String) (id : Nat) :
    Registered (events ++ [.unsubscribe key id])
      { w with conn := w.conn.unsubscribe key id } := by
  have hcounter := unsubscribe_listenerCounter (c := w.conn) key id
  refine ⟨h.inv.unsubscribe key id, ?_, fun k => ?_, ?_⟩
  · rw [registrations_snoc]
    exact h.counter.trans hcounter.symm
  · rw [registrations_snoc]
    show (w.conn.unsubscribe key id).listenersOf k =
      (((registrations events).2.filter fun r => ¬ (r.key = key ∧ r.id = id)).filter
        fun r => r.key = k).map fun r => (r.id, r.listener)
    rw [listenersOf_unsubscribe, h.listeners, List.filter_filter]
    split_ifs with hk
    · subst hk
      rw [List.filter_map, List.filter_filter]
      refine congrArg (List.map _) (List.filter_congr fun r _ => ?_)
      by_cases hr : r.key = k
      · simp [hr]
      · simp [hr]
    · refine congrArg (List.map _) (List.filter_congr fun r _ => ?_)
      by_cases hr : r.key = k
      · simp [hr, hk]
      · simp [hr]
  · rw [registrations_snoc]
    show ∀ r ∈ (registrations events).2.filter _, r.id ≤ (w.conn.unsubscribe key id).listenerCounter
    rw [hcounter]
    exact fun r hr => h.fresh r (List.mem_of_mem_filter hr)

theorem Registered.step (h : Registered events w) (hs : step codec w e = some w') :
    Registered (events ++ [e]) w' := by
  by_cases hsub : ∃ topic onMessage, e = .subscribe topic onMessage
  · obtain ⟨topic, onMessage, rfl⟩ := hsub
    obtain rfl := Option.some.inj hs
    exact h.subscribe topic onMessage
  · by_cases hunsub : ∃ key id, e = .unsubscribe key id
    · obtain ⟨key, id, rfl⟩ := hunsub
      obtain rfl := Option.some.inj hs
      exact h.unsubscribe key id
    · have hcalls := step_calls hs (fun topic onMessage heq => hsub ⟨topic, onMessage, heq⟩)
        fun key id heq => hunsub ⟨key, id, heq⟩
      have hcounter : w'.conn.listenerCounter = w.conn.listenerCounter := congrArg Prod.snd hcalls
      have hsame : register (registrations events) e = registrations events := by
        cases e with
        | subscribe topic onMessage => exact absurd ⟨topic, onMessage, rfl⟩ hsub
        | unsubscribe key id => exact absurd ⟨key, id, rfl⟩ hunsub
        | _ => rfl
      refine ⟨inv_step h.inv hs, ?_, fun key => ?_, ?_⟩
      · rw [registrations_snoc, hsame, h.counter, hcounter]
      · rw [registrations_snoc, hsame, listenersOf_of_calls hcalls, h.listeners]
      · rw [registrations_snoc, hsame, hcounter]
        exact h.fresh

theorem registered_run (hexec : exec (step codec) initial events = some w) :
    Registered events w := by
  refine invariant_of_history (H := Registered) (fun _ _ _ _ h hs => h.step hs) ?_ hexec
  exact ⟨Inv.create, rfl, fun _ => rfl, nofun⟩

/-- Somebody listens to the topic, it is advertised, and the connection is not paused. -/
def Demanded (events : List (Event L)) (c : FoxgloveConnection L) (key : String) : Prop :=
  (∃ r ∈ (registrations events).2, r.key = key) ∧
    (∃ ch ∈ liveChannels c.frames, ch.key = key) ∧ c.paused = false

theorem Registered.demanded_iff (h : Registered events w) (key : String) :
    Demanded events w.conn key ↔
      w.conn.Wanted key ∧ ∃ ch, current (liveChannels w.conn.frames) key = some ch := by
  have hlisteners : (∃ r ∈ (registrations events).2, r.key = key) ↔ 0 < w.conn.size key := by
    rw [← length_listenersOf, h.listeners, List.length_map, List.length_pos_iff_exists_mem]
    simp
  have hadvertised : (∃ ch ∈ liveChannels w.conn.frames, ch.key = key) ↔
      ∃ ch, current (liveChannels w.conn.frames) key = some ch := by
    rw [← Option.isSome_iff_exists, ← Option.ne_none_iff_isSome, Ne, current_eq_none_iff]
    simp
  rw [Demanded, Wanted, hlisteners, hadvertised]
  constructor
  · rintro ⟨hsize, hch, hpaused⟩
    exact ⟨⟨hpaused, hsize⟩, hch⟩
  · rintro ⟨⟨hpaused, hsize⟩, hch⟩
    exact ⟨hsize, hch, hpaused⟩

/-- What holds on an open socket after a run. -/
structure Synchronized (codec : Codec D) (events : List (Event L)) (c : FoxgloveConnection L) :
    Prop where
  server : serverSubscriptions c.frames =
    c.active.entries.map fun e => ⟨e.2.subId, e.2.channel.id⟩
  inverse : ∀ subId key, c.topicBySubId.get? subId = some key ↔
    ∃ sub, c.active.get? key = some sub ∧ sub.subId = subId
  demanded : ∀ key, Demanded events c key → ∃ subId ch,
    current (liveChannels c.frames) key = some ch ∧
      topicSubscriptions c.frames key = [⟨subId, ch.id⟩]
  idle : ∀ key, ¬ Demanded events c key →
    c.active.get? key = none ∧ topicSubscriptions c.frames key = []
  delivered : ∀ buffer now subId, buffer.head? = some 1 → getUint32 buffer 1 = some subId →
    ∀ s ∈ serverSubscriptions c.frames, s.id = subId →
    ∀ ch ∈ liveChannels c.frames, ch.id = s.channelId →
    ∃ sub, c.active.get? ch.key = some sub ∧ (c.handleBinary codec buffer now).2 =
      ((registrations events).2.filter fun r => r.key = ch.key).map fun r =>
        ⟨r.id, r.listener,
          decodePayload codec (buffer.drop 13) (some sub.channel.toAdvertisedSchema)⟩
  ended : ∀ buffer now subId, getUint32 buffer 1 = some subId →
    (∀ s ∈ serverSubscriptions c.frames, s.id ≠ subId) →
    (c.handleBinary codec buffer now).2 = []

/-- While the socket is open, the server has the subscriptions that are asked for, and their
messages go to the listeners. -/
theorem subscriptions_synchronized (hexec : exec (step codec) initial events = some w)
    (hopen : w.conn.isOpen = true) : Synchronized codec events w.conn := by
  have hreg := registered_run hexec
  have hagreed := hreg.inv.agreed hopen
  have hledger := hagreed.ledger
  constructor
  · exact hledger.server
  · intro subId key
    exact hledger.topicBySubId_iff
  · intro key hdemanded
    obtain ⟨hw, ch, hch⟩ := (hreg.demanded_iff key).mp hdemanded
    have hid := hagreed.settled key
    rw [if_pos hw, hagreed.channels, hch] at hid
    obtain ⟨sub, hsub, hsubid⟩ := Option.map_eq_some_iff.mp hid
    refine ⟨sub.subId, ch, hch, ?_⟩
    rw [hagreed.topicSubscriptions, hsub, Option.map_some, hsubid]
    rfl
  · intro key hidle
    have hnone : w.conn.active.get? key = none := by
      refine Option.eq_none_iff_forall_ne_some.mpr fun sub hsub => hidle ?_
      obtain ⟨hw, ch, hch, -⟩ := hagreed.entry (w.conn.active.get?_eq_some_iff.mp hsub)
      exact (hreg.demanded_iff key).mpr ⟨hw, ch, hch⟩
    refine ⟨hnone, ?_⟩
    rw [hagreed.topicSubscriptions, hnone]
    rfl
  · intro buffer now subId hop hid s hs hsid ch hch hchid
    rw [hledger.server, List.mem_map] at hs
    obtain ⟨e, he, rfl⟩ := hs
    have hkey : ch.key = e.1 := hagreed.key_of_live he hch hchid
    have hsub := w.conn.active.get?_eq_some_iff.mpr he
    rw [hkey]
    refine ⟨e.2, hsub, ?_⟩
    rw [handleBinary_active codec now hop hid (hledger.topicBySubId_iff.mpr ⟨e.2, hsub, hsid⟩) hsub,
      hreg.listeners, List.map_map]
    rfl
  · intro buffer now subId hid hnot
    refine handleBinary_ended codec now hid (Option.eq_none_iff_forall_ne_some.mpr fun key hkey => ?_)
    obtain ⟨sub, hsub, hsubid⟩ := hledger.topicBySubId_iff.mp hkey
    refine hnot ⟨sub.subId, sub.channel.id⟩ ?_ hsubid
    rw [hledger.server]
    exact List.mem_map.mpr ⟨(key, sub), w.conn.active.get?_eq_some_iff.mp hsub, rfl⟩

def cmdVel (id : Nat) : ServerChannel :=
  { encoding := "cdr", schemaName := "geometry_msgs/msg/Twist", schema := "", id := id,
    topic := "/cmd_vel" }

/-- A codec for which no schema parses. -/
def rawCodec : Codec (List UInt8) := ⟨id, fun _ => none, fun _ => none⟩

/-- A channel is replaced, the socket reconnects, and the tab is hidden for a while. -/
def reconnecting : List (Event Nat) :=
  [.subscribe "cmd_vel" 1, .start, .opened 0, .received 0 (.advertise [cmdVel 7]),
    .received 0 (.advertise [cmdVel 8]), .received 0 (.unadvertise [7]), .closed 0, .reconnect,
    .subscribe "/cmd_vel" 2, .opened 1, .setPaused true, .received 1 (.advertise [cmdVel 2]),
    .setPaused false]

theorem reconnecting_synchronized : ∃ w,
    exec (step rawCodec) initial reconnecting = some w ∧
      Synchronized rawCodec reconnecting w.conn := by
  have hrun : (exec (step rawCodec) initial reconnecting).any
      (fun w => decide (w.conn.isOpen = true)) = true := by decide +kernel
  obtain ⟨w, hw, hopen⟩ := exists_exec hrun
  exact ⟨w, hw, subscriptions_synchronized hw hopen⟩

/-- The topic ends up with one subscription, the third, on its new channel. -/
example : (exec (step rawCodec) initial reconnecting).map
    (fun w => topicSubscriptions w.conn.frames "cmd_vel") = some [⟨3, 2⟩] := by decide +kernel

end World

end MgRobot.WebUi
