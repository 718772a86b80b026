import MgRobot.WebUi.ClientChannels

/-!
# The books of the client channels

While the socket is open, what was published on a channel is what was sent on it followed
by its queue, and a timer is set for a queue that is not empty.
-/

namespace MgRobot.WebUi

set_option autoImplicit false

open MgRobot.Lib

/-- The messages with the id of a channel. -/
def publishedOn (published : List (Nat × List UInt8)) (id : Nat) : List (List UInt8) :=
  (published.filter fun e => e.1 = id).map Prod.snd

/-- The payload of a data frame with the id of a channel. -/
def ClientFrame.payloadOn (id : Nat) : ClientFrame → Option (List UInt8)
  | .data id' payload => if id' = id then some payload else none
  | .advertise .. | .unadvertise _ => none

namespace PublishConnection

def sentOn (c : PublishConnection) (id : Nat) : List (List UInt8) :=
  c.frames.filterMap fun e => e.2.payloadOn id

variable {options : PublishOptions} {c c' : PublishConnection} {topic : String}
  {ch ch' : ClientChannel} {published : List (Nat × List UInt8)} {now : Nat}

/-- A channel that can be sent on. -/
def Live (c : PublishConnection) (id : Nat) : Prop :=
  c.isOpen = true ∧ ∃ topic ch, c.clientChannels.get? topic = some ch ∧ ch.id = id

structure Books (options : PublishOptions) (c : PublishConnection)
    (published : List (Nat × List UInt8)) : Prop where
  bounded : ∀ topic ch, c.clientChannels.get? topic = some ch → ch.id ≤ c.clientChannelCounter
  inj : ∀ topic topic' ch ch', c.clientChannels.get? topic = some ch →
    c.clientChannels.get? topic' = some ch' → ch.id = ch'.id → topic = topic'
  exact : c.isOpen = true → ∀ topic ch, c.clientChannels.get? topic = some ch →
    publishedOn published ch.id = c.sentOn ch.id ++ ch.queue
  fresh : ∀ id, c.clientChannelCounter < id → publishedOn published id = [] ∧ c.sentOn id = []
  flagged : ∀ topic ch, c.clientChannels.get? topic = some ch →
    (ch.flushTimer = true ↔ ∃ timer ∈ c.timers, timer.channelId = ch.id) ∧
      (ch.queue ≠ [] → ch.flushTimer = true)
  timers : ∀ timer ∈ c.timers, ∃ ch, c.clientChannels.get? timer.topic = some ch ∧
    ch.id = timer.channelId ∧ ch.readyAt ≤ timer.due
  single : ∀ timer ∈ c.timers, ∀ timer' ∈ c.timers, timer.channelId = timer'.channelId →
    timer = timer'
  opened : ∀ topic ch, c.clientChannels.get? topic = some ch → ∃ t encoding schemaName,
    (t, .advertise ch.id topic encoding schemaName) ∈ c.frames ∧
      ch.readyAt = t + options.publisherWarmupMs
  ready : ∀ t id payload, (t, .data id payload) ∈ c.frames → ∃ t₀ topic encoding schemaName,
    (t₀, .advertise id topic encoding schemaName) ∈ c.frames ∧ t₀ + options.publisherWarmupMs ≤ t
  noSocket : c.ws = none ∨ c.ws = some .connecting → c.clientChannels = .empty

/-! ## What is sent and published -/

theorem publishedOn_append (published new : List (Nat × List UInt8)) (id : Nat) :
    publishedOn (published ++ new) id = publishedOn published id ++ publishedOn new id := by
  rw [publishedOn, List.filter_append, List.map_append, publishedOn, publishedOn]

theorem publishedOn_map (id id' : Nat) (payloads : List (List UInt8)) :
    publishedOn (payloads.map fun payload => (id, payload)) id' =
      if id = id' then payloads else [] := by
  induction payloads with
  | nil => simp [publishedOn]
  | cons payload payloads ih =>
      rw [List.map_cons, ← List.singleton_append, publishedOn_append, ih, publishedOn]
      split_ifs with h
      · simp [h]
      · simp [h]

/-- Data frames for a channel, at one time. -/
def dataFrames (now id : Nat) (payloads : List (List UInt8)) : List (Nat × ClientFrame) :=
  payloads.map fun payload => (now, .data id payload)

theorem filterMap_dataFrames (id id' : Nat) (payloads : List (List UInt8)) :
    (dataFrames now id payloads).filterMap (fun e => e.2.payloadOn id') =
      if id = id' then payloads else [] := by
  unfold dataFrames
  induction payloads with
  | nil => simp
  | cons payload payloads ih =>
      rw [List.map_cons, List.filterMap_cons, ih]
      simp only [ClientFrame.payloadOn]
      split_ifs <;> rfl

/-- The loop of a flush sends the queue if the socket is open. -/
theorem foldl_sendClientMessage (channel : ClientChannel) (payloads : List (List UInt8))
    (c : PublishConnection) :
    payloads.foldl (fun c payload => c.sendClientMessage now channel payload) c =
      { c with
        frames := c.frames ++ if c.isOpen then dataFrames now channel.id payloads else [] } := by
  induction payloads generalizing c with
  | nil => simp [dataFrames]
  | cons payload payloads ih =>
      rw [List.foldl_cons, ih]
      cases h : c.isOpen with
      | true =>
          have hsend : c.sendClientMessage now channel payload =
              c.send now (.data channel.id payload) := by
            rw [sendClientMessage, h]
            rfl
          have hopen : (c.send now (.data channel.id payload)).isOpen = true := h
          rw [hsend, hopen]
          simp [send, dataFrames]
      | false =>
          have hsend : c.sendClientMessage now channel payload = c := by
            rw [sendClientMessage, h]
            rfl
          rw [hsend, h]
          simp

theorem sentOn_of_frames {frames : List (Nat × ClientFrame)} (h : c'.frames = c.frames ++ frames)
    (id : Nat) : c'.sentOn id = c.sentOn id ++ frames.filterMap fun e => e.2.payloadOn id := by
  rw [sentOn, h, List.filterMap_append, sentOn]

/-! ## A channel changes -/

/-- A channel is replaced by `ch'`: it took `new` in and sent `sent`. -/
structure Update (c c' : PublishConnection) (now : Nat) (topic : String) (ch ch' : ClientChannel)
    (new sent : List (List UInt8)) : Prop where
  id : ch'.id = ch.id
  readyAt : ch'.readyAt = ch.readyAt
  get? : ∀ t, c'.clientChannels.get? t = if t = topic then some ch' else c.clientChannels.get? t
  ws : c'.ws = c.ws
  counter : c'.clientChannelCounter = c.clientChannelCounter
  frames : c'.frames = c.frames ++ dataFrames now ch.id sent
  exact : c.isOpen = true → ch.queue ++ new = sent ++ ch'.queue
  closed : c.isOpen = false → new = [] ∧ sent = []
  time : sent ≠ [] → ch.readyAt ≤ now
  timer : ∀ timer ∈ c'.timers, timer.channelId = ch.id →
    timer.topic = topic ∧ ch.readyAt ≤ timer.due
  others : ∀ timer, timer.channelId ≠ ch.id → (timer ∈ c'.timers ↔ timer ∈ c.timers)
  flagged : (ch'.flushTimer = true ↔ ∃ timer ∈ c'.timers, timer.channelId = ch.id) ∧
    (ch'.queue ≠ [] → ch'.flushTimer = true)
  single : ∀ timer ∈ c'.timers, ∀ timer' ∈ c'.timers, timer.channelId = ch.id →
    timer'.channelId = ch.id → timer = timer'

section Update

variable {new sent : List (List UInt8)}

theorem Update.isOpen (hu : Update c c' now topic ch ch' new sent) : c'.isOpen = c.isOpen := by
  rw [PublishConnection.isOpen, hu.ws, PublishConnection.isOpen]

theorem Update.sentOn (hu : Update c c' now topic ch ch' new sent) (id : Nat) :
    c'.sentOn id = c.sentOn id ++ if ch.id = id then sent else [] := by
  rw [sentOn_of_frames hu.frames, filterMap_dataFrames]

/-- Every other channel is what it was. -/
theorem Update.cases (hu : Update c c' now topic ch ch' new sent) {t : String} {x : ClientChannel}
    (hx : c'.clientChannels.get? t = some x) :
    t = topic ∧ x = ch' ∨ t ≠ topic ∧ c.clientChannels.get? t = some x := by
  rw [hu.get?] at hx
  split_ifs at hx with ht
  · exact .inl ⟨ht, (Option.some.inj hx).symm⟩
  · exact .inr ⟨ht, hx⟩

theorem Books.update (hb : Books options c published) (hget : c.clientChannels.get? topic = some ch)
    (hu : Update c c' now topic ch ch' new sent) :
    Books options c' (published ++ new.map fun payload => (ch.id, payload)) := by
  have hne : ∀ {t x}, t ≠ topic → c.clientChannels.get? t = some x → ch.id ≠ x.id :=
    fun ht hx hid => ht (hb.inj _ _ _ _ hget hx hid).symm
  refine ⟨fun t x hx => ?_, fun t t' x x' hx hx' hid => ?_, fun hopen t x hx => ?_, fun id hid => ?_,
    fun t x hx => ?_, fun timer hmem => ?_, fun timer hmem timer' hmem' hid => ?_, fun t x hx => ?_,
    fun t id payload hmem => ?_, fun hws => ?_⟩
  · rw [hu.counter]
    rcases hu.cases hx with ⟨-, rfl⟩ | ⟨-, hx⟩
    · rw [hu.id]
      exact hb.bounded topic ch hget
    · exact hb.bounded t x hx
  · rcases hu.cases hx with ⟨rfl, rfl⟩ | ⟨ht, hx⟩
    · rcases hu.cases hx' with ⟨rfl, rfl⟩ | ⟨ht', hx'⟩
      · rfl
      · exact absurd (hu.id.symm.trans hid) (hne ht' hx')
    · rcases hu.cases hx' with ⟨rfl, rfl⟩ | ⟨ht', hx'⟩
      · exact absurd (hid.trans hu.id).symm (hne ht hx)
      · exact hb.inj t t' x x' hx hx' hid
  · rw [hu.isOpen] at hopen
    rw [publishedOn_append, publishedOn_map, hu.sentOn]
    rcases hu.cases hx with ⟨-, rfl⟩ | ⟨ht, hx⟩
    · rw [hu.id, if_pos rfl, if_pos rfl, hb.exact hopen topic ch hget, List.append_assoc,
        List.append_assoc, hu.exact hopen]
    · rw [if_neg (hne ht hx), if_neg (hne ht hx), List.append_nil, List.append_nil]
      exact hb.exact hopen t x hx
  · rw [hu.counter] at hid
    have hneq : ch.id ≠ id := by
      have := hb.bounded topic ch hget
      omega
    rw [publishedOn_append, publishedOn_map, hu.sentOn, if_neg hneq, if_neg hneq, List.append_nil,
      List.append_nil]
    exact hb.fresh id hid
  · rcases hu.cases hx with ⟨-, rfl⟩ | ⟨ht, hx⟩
    · rw [hu.id]
      exact hu.flagged
    · obtain ⟨hflag, hqueue⟩ := hb.flagged t x hx
      refine ⟨hflag.trans (exists_congr fun timer => ?_), hqueue⟩
      constructor
      · intro h
        exact ⟨(hu.others timer (by rw [h.2]; exact (hne ht hx).symm)).mpr h.1, h.2⟩
      · intro h
        exact ⟨(hu.others timer (by rw [h.2]; exact (hne ht hx).symm)).mp h.1, h.2⟩
  · by_cases hid : timer.channelId = ch.id
    · obtain ⟨htopic, hdue⟩ := hu.timer timer hmem hid
      refine ⟨ch', by rw [hu.get?, if_pos htopic], hu.id.trans hid.symm, ?_⟩
      rw [hu.readyAt]
      exact hdue
    · obtain ⟨x, hx, hxid, hdue⟩ := hb.timers timer ((hu.others timer hid).mp hmem)
      refine ⟨x, ?_, hxid, hdue⟩
      rw [hu.get?, if_neg]
      · exact hx
      · intro ht
        rw [ht] at hx
        obtain rfl := Option.some.inj (hget.symm.trans hx)
        exact hid hxid.symm
  · by_cases hch : timer.channelId = ch.id
    · exact hu.single timer hmem timer' hmem' hch (hid.symm.trans hch)
    · exact hb.single timer ((hu.others timer hch).mp hmem) timer'
        ((hu.others timer' fun h => hch (hid.trans h)).mp hmem') hid
  · rw [hu.frames]
    rcases hu.cases hx with ⟨rfl, rfl⟩ | ⟨-, hx⟩
    · obtain ⟨t₀, encoding, schemaName, hmem, hready⟩ := hb.opened t ch hget
      rw [hu.id, hu.readyAt]
      exact ⟨t₀, encoding, schemaName, List.mem_append_left _ hmem, hready⟩
    · obtain ⟨t₀, encoding, schemaName, hmem, hready⟩ := hb.opened t x hx
      exact ⟨t₀, encoding, schemaName, List.mem_append_left _ hmem, hready⟩
  · rw [hu.frames] at hmem ⊢
    rcases List.mem_append.mp hmem with hmem | hmem
    · obtain ⟨t₀, topic', encoding, schemaName, hmem', hle⟩ := hb.ready t id payload hmem
      exact ⟨t₀, topic', encoding, schemaName, List.mem_append_left _ hmem', hle⟩
    · obtain ⟨payload', hpayload, heq⟩ := List.mem_map.mp hmem
      obtain ⟨rfl, hframe⟩ := Prod.mk.inj heq
      obtain ⟨rfl, rfl⟩ := ClientFrame.data.inj hframe
      obtain ⟨t₀, encoding, schemaName, hmem', hready⟩ := hb.opened topic ch hget
      refine ⟨t₀, topic, encoding, schemaName, List.mem_append_left _ hmem', ?_⟩
      rw [← hready]
      exact hu.time (List.ne_nil_of_mem hpayload)
  · rw [hu.ws] at hws
    rw [hb.noSocket hws] at hget
    cases hget

end Update

theorem Books.own_timer (hb : Books options c published)
    (hget : c.clientChannels.get? topic = some ch) {timer : FlushTimer} (hmem : timer ∈ c.timers)
    (hid : timer.channelId = ch.id) : timer.topic = topic ∧ ch.readyAt ≤ timer.due := by
  obtain ⟨x, hx, hxid, hdue⟩ := hb.timers timer hmem
  obtain rfl := hb.inj _ _ x ch hx hget (hxid.trans hid)
  obtain rfl := Option.some.inj (hx.symm.trans hget)
  exact ⟨rfl, hdue⟩

theorem Books.own_single (hb : Books options c published) {id : Nat} : ∀ timer ∈ c.timers,
    ∀ timer' ∈ c.timers, timer.channelId = id → timer'.channelId = id → timer = timer' :=
  fun timer hmem timer' hmem' hid hid' => hb.single timer hmem timer' hmem' (hid.trans hid'.symm)

/-- A message waits behind others, whose timer is set. -/
theorem update_queue (hb : Books options c published)
    (hget : c.clientChannels.get? topic = some ch) (hopen : c.isOpen = true)
    (hset : ch.flushTimer = true) (bytes : List UInt8) :
    Update c
      { c with clientChannels := c.clientChannels.set topic { ch with queue := ch.queue ++ [bytes] } }
      now topic ch { ch with queue := ch.queue ++ [bytes] } [bytes] [] where
  id := rfl
  readyAt := rfl
  get? := OrderedMap.get?_set _
  ws := rfl
  counter := rfl
  frames := (List.append_nil _).symm
  exact _ := rfl
  closed h := absurd (hopen.symm.trans h) nofun
  time h := absurd rfl h
  timer _ hmem hid := hb.own_timer hget hmem hid
  others _ _ := Iff.rfl
  flagged := ⟨(hb.flagged topic ch hget).1, fun _ => hset⟩
  single := hb.own_single

/-- The first message that waits sets the timer. -/
theorem update_arm (hb : Books options c published)
    (hget : c.clientChannels.get? topic = some ch) (hopen : c.isOpen = true)
    (hset : ch.flushTimer ≠ true) {map : OrderedMap String ClientChannel} (bytes : List UInt8)
    (hmap : ∀ t, map.get? t = if t = topic then
      some { ch with queue := ch.queue ++ [bytes], flushTimer := true }
      else c.clientChannels.get? t) :
    Update c
      { c with
        clientChannels := map
        timers := c.timers ++ [⟨topic, ch.id, now + (ch.readyAt - now)⟩] }
      now topic ch { ch with queue := ch.queue ++ [bytes], flushTimer := true } [bytes] [] := by
  have hnew : ∀ timer ∈ c.timers ++ [(⟨topic, ch.id, now + (ch.readyAt - now)⟩ : FlushTimer)],
      timer.channelId = ch.id → timer = ⟨topic, ch.id, now + (ch.readyAt - now)⟩ := by
    intro timer hmem hid
    rcases List.mem_append.mp hmem with hmem | hmem
    · exact absurd ((hb.flagged topic ch hget).1.mpr ⟨timer, hmem, hid⟩) hset
    · exact List.mem_singleton.mp hmem
  refine ⟨rfl, rfl, hmap, rfl, rfl, (List.append_nil _).symm, fun _ => rfl,
    fun h => absurd (hopen.symm.trans h) nofun, fun h => absurd rfl h, fun timer hmem hid => ?_,
    fun timer hid => ?_, ⟨iff_of_true rfl ?_, fun _ => rfl⟩, fun timer hmem timer' hmem' hid hid' => ?_⟩
  · rw [hnew timer hmem hid]
    exact ⟨rfl, by show ch.readyAt ≤ now + (ch.readyAt - now); omega⟩
  · refine List.mem_append.trans (or_iff_left fun hmem => hid ?_)
    rw [List.mem_singleton.mp hmem]
  · exact ⟨_, List.mem_append_right _ (List.mem_singleton.mpr rfl), rfl⟩
  · exact (hnew timer hmem hid).trans (hnew timer' hmem' hid').symm

/-- A message that nothing holds up is sent. -/
theorem update_send (hb : Books options c published)
    (hget : c.clientChannels.get? topic = some ch) (hopen : c.isOpen = true)
    (hempty : ch.queue = []) (hready : ch.readyAt ≤ now) (bytes : List UInt8) :
    Update c (c.send now (.data ch.id bytes)) now topic ch ch [bytes] [bytes] where
  id := rfl
  readyAt := rfl
  get? t := by
    split_ifs with ht
    · rw [ht]
      exact hget
    · rfl
  ws := rfl
  counter := rfl
  frames := rfl
  exact _ := by rw [hempty, List.nil_append, List.append_nil]
  closed h := absurd (hopen.symm.trans h) nofun
  time _ := hready
  timer _ hmem hid := hb.own_timer hget hmem hid
  others _ _ := Iff.rfl
  flagged := hb.flagged topic ch hget
  single := hb.own_single

/-- A message that is accepted is sent, or goes to the queue with a timer set. -/
theorem publishOn_update (hb : Books options c published)
    (hget : c.clientChannels.get? topic = some ch) (hopen : c.isOpen = true) (bytes : List UInt8) :
    ∃ ch' sent, Update c (c.publishOn now topic ch bytes) now topic ch ch' [bytes] sent := by
  unfold publishOn
  split_ifs with hwait
  · simp only [scheduleFlush]
    split_ifs with hset
    · exact ⟨_, [], update_queue hb hget hopen hset bytes⟩
    · refine ⟨_, [], update_arm hb hget hopen hset bytes fun t => ?_⟩
      rw [OrderedMap.get?_set, OrderedMap.get?_set]
      split_ifs <;> rfl
  · obtain ⟨hempty, hready⟩ := not_or.mp hwait
    have hsend : c.sendClientMessage now ch bytes = c.send now (.data ch.id bytes) := by
      rw [sendClientMessage, hopen]
      rfl
    rw [hsend]
    exact ⟨ch, [bytes], update_send hb hget hopen (not_not.mp hempty) (Nat.le_of_not_lt hready) bytes⟩

/-- A timer that fires sends the queue of its channel. -/
theorem onFlush_update (hb : Books options c published) {timer : FlushTimer} (hmem : timer ∈ c.timers)
    (hdue : timer.due ≤ now) : ∃ ch sent, c.clientChannels.get? timer.topic = some ch ∧
      ch.id = timer.channelId ∧ Update c (c.onFlush now timer) now timer.topic ch
        { ch with queue := [], flushTimer := false } [] sent := by
  obtain ⟨ch, hget, hid, hready⟩ := hb.timers timer hmem
  have hflush : c.onFlush now timer = { c with
      timers := c.timers.filter fun t => t ≠ timer
      clientChannels :=
        c.clientChannels.set timer.topic { ch with queue := [], flushTimer := false }
      frames := c.frames ++ if c.isOpen then dataFrames now ch.id ch.queue else [] } := by
    unfold onFlush
    simp only [hget]
    rw [if_neg (not_not.mpr hid), foldl_sendClientMessage]
    rfl
  have hnone : ∀ t ∈ c.timers.filter fun t => t ≠ timer, t.channelId ≠ ch.id := by
    intro t ht htid
    obtain ⟨ht, hne⟩ := List.mem_filter.mp ht
    exact of_decide_eq_true hne (hb.single t ht timer hmem (htid.trans hid))
  rw [hflush]
  refine ⟨ch, if c.isOpen then ch.queue else [], hget, hid, rfl, rfl, OrderedMap.get?_set _, rfl, rfl,
    ?_, fun hopen => ?_, fun hclosed => ?_, fun _ => ?_, fun t ht htid => absurd htid (hnone t ht),
    fun t htid => ?_, ⟨iff_of_false Bool.false_ne_true ?_, fun h => absurd rfl h⟩,
    fun t ht _ _ htid => absurd htid (hnone t ht)⟩
  · split_ifs <;> rfl
  · rw [hopen, if_pos rfl, List.append_nil]
  · rw [hclosed]
    exact ⟨rfl, rfl⟩
  · exact Nat.le_trans hready hdue
  · refine ⟨fun ht => (List.mem_filter.mp ht).1, fun ht => List.mem_filter.mpr ⟨ht, ?_⟩⟩
    refine decide_eq_true fun heq => htid ?_
    rw [heq]
    exact hid.symm
  · intro h
    obtain ⟨t, ht, htid⟩ := h
    exact hnone t ht htid

/-! ## Channels come and go -/

theorem openClientChannel_eq (options : PublishOptions) (now : Nat) (topic schemaName : String)
    (hopen : c.isOpen = true) :
    ∃ encoding, c.openClientChannel options now topic schemaName = { c with
      clientChannelCounter := c.clientChannelCounter + 1
      clientChannels := c.clientChannels.set topic (c.newChannel options now schemaName)
      frames := c.frames ++
        [(now, .advertise (c.clientChannelCounter + 1) topic encoding schemaName)] } := by
  unfold openClientChannel sendJson
  exact ⟨_, if_pos hopen⟩

/-- Frames that carry no message. -/
theorem sentOn_of_quiet {frames : List (Nat × ClientFrame)}
    (hframes : c'.frames = c.frames ++ frames)
    (hquiet : ∀ e ∈ frames, ∀ id, e.2.payloadOn id = none) (id : Nat) :
    c'.sentOn id = c.sentOn id := by
  rw [sentOn_of_frames hframes, List.filterMap_eq_nil_iff.mpr fun e he => hquiet e he id,
    List.append_nil]

theorem Books.ready_of_quiet (hb : Books options c published) {frames : List (Nat × ClientFrame)}
    (hframes : c'.frames = c.frames ++ frames)
    (hquiet : ∀ e ∈ frames, ∀ id, e.2.payloadOn id = none) (t id : Nat) (payload : List UInt8)
    (hmem : (t, .data id payload) ∈ c'.frames) : ∃ t₀ topic encoding schemaName,
      (t₀, .advertise id topic encoding schemaName) ∈ c'.frames ∧
        t₀ + options.publisherWarmupMs ≤ t := by
  rw [hframes] at hmem ⊢
  rcases List.mem_append.mp hmem with hmem | hmem
  · obtain ⟨t₀, topic, encoding, schemaName, hadv, hle⟩ := hb.ready t id payload hmem
    exact ⟨t₀, topic, encoding, schemaName, List.mem_append_left _ hadv, hle⟩
  · have hnone := hquiet _ hmem id
    simp [ClientFrame.payloadOn] at hnone

/-- A new channel, with nothing published on it yet. -/
theorem Books.open (hb : Books options c published) (hopen : c.isOpen = true)
    (hnew : topic ∉ c.clientChannels.keys) (now : Nat) (schemaName : String) :
    Books options (c.openClientChannel options now topic schemaName) published := by
  obtain ⟨encoding, heq⟩ := openClientChannel_eq options now topic schemaName hopen
  rw [heq]
  set c' : PublishConnection := { c with
    clientChannelCounter := c.clientChannelCounter + 1
    clientChannels := c.clientChannels.set topic (c.newChannel options now schemaName)
    frames := c.frames ++ [(now, .advertise (c.clientChannelCounter + 1) topic encoding schemaName)] }
    with hc'
  have hquiet : ∀ e ∈ [(now, ClientFrame.advertise (c.clientChannelCounter + 1) topic encoding
      schemaName)], ∀ id, e.2.payloadOn id = none := by
    intro e he id
    rw [List.mem_singleton.mp he]
    rfl
  have hsent : ∀ id, c'.sentOn id = c.sentOn id := sentOn_of_quiet rfl hquiet
  have hcases : ∀ {t x}, c'.clientChannels.get? t = some x →
      t = topic ∧ x = c.newChannel options now schemaName ∨
        t ≠ topic ∧ c.clientChannels.get? t = some x := by
    intro t x hx
    rw [hc', OrderedMap.get?_set] at hx
    split_ifs at hx with ht
    · exact .inl ⟨ht, (Option.some.inj hx).symm⟩
    · exact .inr ⟨ht, hx⟩
  have hkept : ∀ {t x}, c.clientChannels.get? t = some x → c'.clientChannels.get? t = some x := by
    intro t x hx
    rw [hc', OrderedMap.get?_set, if_neg]
    · exact hx
    · rintro rfl
      exact hnew ((OrderedMap.mem_keys_iff _).mpr ⟨x, hx⟩)
  have hid : (c.newChannel options now schemaName).id = c.clientChannelCounter + 1 := rfl
  refine ⟨fun t x hx => ?_, fun t t' x x' hx hx' h => ?_, fun _ t x hx => ?_, fun id h => ?_,
    fun t x hx => ?_, fun timer hmem => ?_, hb.single, fun t x hx => ?_,
    hb.ready_of_quiet rfl hquiet, fun hws => ?_⟩
  · rcases hcases hx with ⟨-, rfl⟩ | ⟨-, hx⟩
    · exact Nat.le_refl _
    · exact Nat.le_succ_of_le (hb.bounded t x hx)
  · rcases hcases hx with ⟨rfl, rfl⟩ | ⟨-, hx⟩
    · rcases hcases hx' with ⟨rfl, -⟩ | ⟨-, hx'⟩
      · rfl
      · have := hb.bounded t' x' hx'
        omega
    · rcases hcases hx' with ⟨-, rfl⟩ | ⟨-, hx'⟩
      · have := hb.bounded t x hx
        omega
      · exact hb.inj t t' x x' hx hx' h
  · rw [hsent]
    rcases hcases hx with ⟨-, rfl⟩ | ⟨-, hx⟩
    · obtain ⟨hpublished, hnone⟩ := hb.fresh (c.clientChannelCounter + 1) (Nat.lt_succ_self _)
      rw [hid, hpublished, hnone]
      rfl
    · exact hb.exact hopen t x hx
  · rw [hsent]
    exact hb.fresh id (Nat.lt_of_succ_lt h)
  · rcases hcases hx with ⟨-, rfl⟩ | ⟨-, hx⟩
    · refine ⟨iff_of_false Bool.false_ne_true fun h => ?_, fun h => absurd rfl h⟩
      obtain ⟨timer, hmem, htimer⟩ := h
      obtain ⟨x, hx, hxid, -⟩ := hb.timers timer hmem
      have := hb.bounded _ x hx
      omega
    · exact hb.flagged t x hx
  · obtain ⟨x, hx, hxid, hdue⟩ := hb.timers timer hmem
    exact ⟨x, hkept hx, hxid, hdue⟩
  · rcases hcases hx with ⟨rfl, rfl⟩ | ⟨-, hx⟩
    · exact ⟨now, encoding, schemaName, List.mem_append_right _ (List.mem_singleton.mpr rfl), rfl⟩
    · obtain ⟨t₀, encoding', schemaName', hmem, hready⟩ := hb.opened t x hx
      exact ⟨t₀, encoding', schemaName', List.mem_append_left _ hmem, hready⟩
  · have hnot : c.ws = some .open := by simpa [isOpen] using hopen
    have hws' : c.ws = none ∨ c.ws = some .connecting := hws
    rw [hnot] at hws'
    rcases hws' with h | h <;> cases h

theorem closeClientChannel_eq (hget : c.clientChannels.get? topic = some ch) :
    c.closeClientChannel now topic = { c with
      timers := if ch.flushTimer then c.timers.filter fun timer => timer.channelId ≠ ch.id
        else c.timers
      clientChannels := c.clientChannels.erase topic
      frames := c.frames ++ if c.isOpen then [(now, .unadvertise ch.id)] else [] } := by
  unfold closeClientChannel
  simp only [hget]
  cases hopen : c.isOpen with
  | true =>
      have hopen' : c.ws = some .open := by simpa [isOpen] using hopen
      cases hflag : ch.flushTimer with
      | true => simp [clearTimeout, hflag, sendJson, isOpen, hopen', send]
      | false => simp [clearTimeout, hflag, sendJson, isOpen, hopen', send]
  | false =>
      have hopen' : c.ws ≠ some .open := by simpa [isOpen] using hopen
      cases hflag : ch.flushTimer with
      | true => simp [clearTimeout, hflag, sendJson, isOpen, hopen']
      | false => simp [clearTimeout, hflag, sendJson, isOpen, hopen']

/-- Channels go, and their timers with them. -/
theorem Books.shrink (hb : Books options c published) {frames : List (Nat × ClientFrame)}
    (hsub : ∀ t x, c'.clientChannels.get? t = some x → c.clientChannels.get? t = some x)
    (hcounter : c'.clientChannelCounter = c.clientChannelCounter)
    (hframes : c'.frames = c.frames ++ frames)
    (hquiet : ∀ e ∈ frames, ∀ id, e.2.payloadOn id = none)
    (hopen : c'.isOpen = true → c.isOpen = true)
    (htimers : ∀ timer, timer ∈ c'.timers ↔ timer ∈ c.timers ∧
      ∃ x, c'.clientChannels.get? timer.topic = some x ∧ x.id = timer.channelId)
    (hws : c'.ws = none ∨ c'.ws = some .connecting → c'.clientChannels = .empty) :
    Books options c' published := by
  have hsent : ∀ id, c'.sentOn id = c.sentOn id := sentOn_of_quiet hframes hquiet
  refine ⟨fun t x hx => ?_, fun t t' x x' hx hx' => hb.inj t t' x x' (hsub t x hx) (hsub t' x' hx'),
    fun h t x hx => ?_, fun id h => ?_, fun t x hx => ?_, fun timer hmem => ?_,
    fun timer hmem timer' hmem' => ?_, fun t x hx => ?_, hb.ready_of_quiet hframes hquiet, hws⟩
  · rw [hcounter]
    exact hb.bounded t x (hsub t x hx)
  · rw [hsent]
    exact hb.exact (hopen h) t x (hsub t x hx)
  · rw [hcounter] at h
    rw [hsent]
    exact hb.fresh id h
  · obtain ⟨hflag, hqueue⟩ := hb.flagged t x (hsub t x hx)
    refine ⟨hflag.trans (exists_congr fun timer => ?_), hqueue⟩
    refine and_congr_left fun hid => ?_
    rw [htimers]
    refine ⟨fun hmem => ⟨hmem, x, ?_, hid.symm⟩, And.left⟩
    rw [(hb.own_timer (hsub t x hx) hmem hid).1]
    exact hx
  · obtain ⟨hmem, x, hx, hid⟩ := (htimers timer).mp hmem
    obtain ⟨y, hy, -, hdue⟩ := hb.timers timer hmem
    obtain rfl := Option.some.inj (hy.symm.trans (hsub _ _ hx))
    exact ⟨y, hx, hid, hdue⟩
  · exact hb.single timer ((htimers timer).mp hmem).1 timer' ((htimers timer').mp hmem').1
  · obtain ⟨t₀, encoding, schemaName, hmem, hready⟩ := hb.opened t x (hsub t x hx)
    rw [hframes]
    exact ⟨t₀, encoding, schemaName, List.mem_append_left _ hmem, hready⟩

/-- Only the parts that the channels do not depend on are different. -/
theorem Books.of_eq (hb : Books options c published) (hmap : c'.clientChannels = c.clientChannels)
    (hcounter : c'.clientChannelCounter = c.clientChannelCounter) (hframes : c'.frames = c.frames)
    (htimers : c'.timers = c.timers) (hopen : c'.isOpen = true → c.isOpen = true)
    (hws : c'.ws = none ∨ c'.ws = some .connecting → c.clientChannels = .empty) :
    Books options c' published := by
  refine hb.shrink (fun t x hx => by rwa [← hmap]) hcounter (hframes.trans (List.append_nil _).symm)
    nofun hopen (fun timer => ?_) fun h => hmap.trans (hws h)
  rw [htimers, hmap]
  refine ⟨fun hmem => ⟨hmem, ?_⟩, And.left⟩
  obtain ⟨ch, hget, hid, -⟩ := hb.timers timer hmem
  exact ⟨ch, hget, hid⟩

theorem Books.close (hb : Books options c published) (now : Nat) (topic : String) :
    Books options (c.closeClientChannel now topic) published := by
  cases hget : c.clientChannels.get? topic with
  | none =>
      have hsame : c.closeClientChannel now topic = c := by
        unfold closeClientChannel
        rw [hget]
      rw [hsame]
      exact hb
  | some ch =>
      rw [closeClientChannel_eq hget]
      refine hb.shrink (fun t x hx => ?_) rfl rfl (fun e he id => ?_) id (fun timer => ?_)
        fun hws => ?_
      · have hx : (c.clientChannels.erase topic).get? t = some x := hx
        rw [OrderedMap.get?_erase] at hx
        split_ifs at hx
        exact hx
      · split_ifs at he
        · rw [List.mem_singleton.mp he]
          rfl
        · cases he
      · have hleft : timer ∈ (if ch.flushTimer then
            c.timers.filter fun timer => timer.channelId ≠ ch.id else c.timers) ↔
              timer ∈ c.timers ∧ timer.channelId ≠ ch.id := by
          split_ifs with hflag
          · simp [List.mem_filter]
          · exact ⟨fun hmem => ⟨hmem, fun hid =>
              hflag ((hb.flagged topic ch hget).1.mpr ⟨timer, hmem, hid⟩)⟩, And.left⟩
        refine hleft.trans (and_congr_right fun hmem => ?_)
        obtain ⟨x, hx, hid, -⟩ := hb.timers timer hmem
        show _ ↔ ∃ x, (c.clientChannels.erase topic).get? timer.topic = some x ∧ _
        rw [OrderedMap.get?_erase]
        constructor
        · intro hne
          refine ⟨x, ?_, hid⟩
          rw [if_neg]
          · exact hx
          · intro ht
            rw [ht] at hx
            obtain rfl := Option.some.inj (hget.symm.trans hx)
            exact hne hid.symm
        · intro hy hid'
          obtain ⟨y, hy, -⟩ := hy
          rw [if_pos (hb.own_timer hget hmem hid').1] at hy
          cases hy
      · have hempty := hb.noSocket hws
        rw [hempty] at hget
        cases hget

theorem foldl_clearTimeout (channels : List ClientChannel) (c : PublishConnection) :
    channels.foldl clearTimeout c = { c with
      timers := c.timers.filter fun timer =>
        channels.all fun ch => !(ch.flushTimer && timer.channelId = ch.id) } := by
  induction channels generalizing c with
  | nil => simp
  | cons ch channels ih =>
      rw [List.foldl_cons, ih]
      cases hflag : ch.flushTimer with
      | true => simp [clearTimeout, hflag, List.filter_filter, Bool.and_comm]
      | false => simp [clearTimeout, hflag]

theorem Books.reset (hb : Books options c published) : Books options c.reset published := by
  have hreset : c.reset = { c with
      ws := none, channels := [], clientChannels := .empty
      timers := c.timers.filter fun timer => (c.clientChannels.entries.map Prod.snd).all fun ch =>
        !(ch.flushTimer && timer.channelId = ch.id) } := by
    rw [PublishConnection.reset, foldl_clearTimeout]
  rw [hreset]
  refine hb.shrink nofun rfl (List.append_nil _).symm nofun nofun (fun timer => ?_) fun _ => rfl
  refine iff_of_false (fun hmem => ?_) fun h => nomatch h.2
  obtain ⟨hmem, hall⟩ := List.mem_filter.mp hmem
  obtain ⟨ch, hget, hid, -⟩ := hb.timers timer hmem
  have hflag := (hb.flagged timer.topic ch hget).1.mpr ⟨timer, hmem, hid.symm⟩
  have hentry := List.mem_map_of_mem (f := Prod.snd) ((OrderedMap.get?_eq_some_iff _).mp hget)
  have hch := List.all_eq_true.mp hall ch hentry
  simp [hflag, hid] at hch

end PublishConnection

end MgRobot.WebUi
