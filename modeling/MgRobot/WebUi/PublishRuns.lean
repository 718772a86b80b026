import MgRobot.WebUi.PublishBooks
import Mathlib.Data.List.Induction

/-!
# What is published over a run

Every event keeps the books. A channel that can be sent on stays one until it is released
or the socket goes, and from then on nothing is published or sent on it.
-/

namespace MgRobot.WebUi

set_option autoImplicit false

open MgRobot.Lib MgRobot.Lib.Runs

namespace PublishConnection

variable {options : PublishOptions} {c c' c'' : PublishConnection} {topic : String}
  {ch ch' : ClientChannel} {published published' published'' : List (Nat × List UInt8)} {now : Nat}

/-- The channels stay, and those that are gone stay as they are. -/
structure Keeps (c : PublishConnection) (published : List (Nat × List UInt8))
    (c' : PublishConnection) (published' : List (Nat × List UInt8)) : Prop where
  counter : c.clientChannelCounter ≤ c'.clientChannelCounter
  live : ∀ id ≤ c.clientChannelCounter, c'.Live id ↔ c.Live id
  frozen : ∀ id ≤ c.clientChannelCounter, ¬ c.Live id →
    c'.sentOn id = c.sentOn id ∧ publishedOn published' id = publishedOn published id
  new : ∀ id, c.clientChannelCounter < id → id ≤ c'.clientChannelCounter → c'.Live id

theorem Keeps.refl (c : PublishConnection) (published : List (Nat × List UInt8)) :
    Keeps c published c published where
  counter := Nat.le_refl _
  live _ _ := Iff.rfl
  frozen _ _ _ := ⟨rfl, rfl⟩
  new _ hlt hle := absurd (Nat.lt_of_lt_of_le hlt hle) (Nat.lt_irrefl _)

theorem Keeps.trans (h : Keeps c published c' published')
    (h' : Keeps c' published' c'' published'') : Keeps c published c'' published'' where
  counter := Nat.le_trans h.counter h'.counter
  live id hid := (h'.live id (Nat.le_trans hid h.counter)).trans (h.live id hid)
  frozen id hid hnot := by
    have hid' := Nat.le_trans hid h.counter
    obtain ⟨hsent, hpublished⟩ := h.frozen id hid hnot
    obtain ⟨hsent', hpublished'⟩ := h'.frozen id hid' fun hlive => hnot ((h.live id hid).mp hlive)
    exact ⟨hsent'.trans hsent, hpublished'.trans hpublished⟩
  new id hlt hle := by
    rcases Nat.lt_or_ge c'.clientChannelCounter id with hlt' | hge
    · exact h'.new id hlt' hle
    · exact (h'.live id hge).mpr (h.new id hlt hge)

/-- Only the parts that the channels do not depend on are different. -/
theorem keeps_of_eq (hws : c'.isOpen = c.isOpen) (hmap : c'.clientChannels = c.clientChannels)
    (hcounter : c'.clientChannelCounter = c.clientChannelCounter) (hframes : c'.frames = c.frames) :
    Keeps c published c' published where
  counter := Nat.le_of_eq hcounter.symm
  live id _ := by rw [Live, hws, hmap, Live]
  frozen id _ _ := ⟨by rw [sentOn, hframes, sentOn], rfl⟩
  new _ hlt hle := absurd (Nat.lt_of_lt_of_le hlt (by rw [← hcounter]; exact hle)) (Nat.lt_irrefl _)

theorem publishers_keeps (hb : Books options c published)
    (publishers : OrderedMap String ExplicitPublisher) :
    Books options { c with explicitPublishers := publishers } published ∧
      Keeps c published { c with explicitPublishers := publishers } published :=
  ⟨hb.of_eq rfl rfl rfl rfl id hb.noSocket, keeps_of_eq rfl rfl rfl rfl⟩

theorem Update.keeps {new sent : List (List UInt8)} (hu : Update c c' now topic ch ch' new sent)
    (hget : c.clientChannels.get? topic = some ch) :
    Keeps c published c' (published ++ new.map fun payload => (ch.id, payload)) := by
  refine ⟨Nat.le_of_eq hu.counter.symm, fun id _ => ?_, fun id _ hnot => ?_, fun id hlt hle => ?_⟩
  · rw [Live, Live, hu.isOpen]
    refine and_congr_right fun _ => ⟨fun h => ?_, fun h => ?_⟩
    · obtain ⟨t, x, hx, rfl⟩ := h
      rcases hu.cases hx with ⟨-, rfl⟩ | ⟨-, hx⟩
      · exact ⟨topic, ch, hget, hu.id.symm⟩
      · exact ⟨t, x, hx, rfl⟩
    · obtain ⟨t, x, hx, rfl⟩ := h
      by_cases ht : t = topic
      · subst ht
        obtain rfl := Option.some.inj (hget.symm.trans hx)
        exact ⟨t, ch', by rw [hu.get?, if_pos rfl], hu.id⟩
      · exact ⟨t, x, by rw [hu.get?, if_neg ht, hx], rfl⟩
  · rw [hu.sentOn, publishedOn_append, publishedOn_map]
    cases hopen : c.isOpen with
    | true =>
        have hne : ch.id ≠ id := fun hid => hnot ⟨hopen, topic, ch, hget, hid⟩
        rw [if_neg hne, if_neg hne, List.append_nil, List.append_nil]
        exact ⟨rfl, rfl⟩
    | false =>
        obtain ⟨rfl, rfl⟩ := hu.closed hopen
        simp
  · rw [hu.counter] at hle
    exact absurd (Nat.lt_of_lt_of_le hlt hle) (Nat.lt_irrefl _)

theorem keeps_open (hopen : c.isOpen = true)
    (hnew : topic ∉ c.clientChannels.keys) (now : Nat) (schemaName : String) :
    Keeps c published (c.openClientChannel options now topic schemaName) published := by
  obtain ⟨encoding, heq⟩ := openClientChannel_eq options now topic schemaName hopen
  have hget : ∀ t, (c.openClientChannel options now topic schemaName).clientChannels.get? t =
      if t = topic then some (c.newChannel options now schemaName) else c.clientChannels.get? t := by
    intro t
    rw [heq, OrderedMap.get?_set]
  have hopen' : (c.openClientChannel options now topic schemaName).isOpen = true := by
    rw [heq]
    exact hopen
  have hcounter : (c.openClientChannel options now topic schemaName).clientChannelCounter =
      c.clientChannelCounter + 1 := by
    rw [heq]
  refine ⟨by rw [hcounter]; exact Nat.le_succ _, fun id hid => ?_, fun id _ _ => ⟨?_, rfl⟩,
    fun id hlt hle => ?_⟩
  · constructor
    · intro h
      obtain ⟨-, t, x, hx, rfl⟩ := h
      rw [hget] at hx
      split_ifs at hx
      · obtain rfl := Option.some.inj hx
        exact absurd hid (Nat.not_succ_le_self _)
      · exact ⟨hopen, t, x, hx, rfl⟩
    · intro h
      obtain ⟨-, t, x, hx, rfl⟩ := h
      refine ⟨hopen', t, x, ?_, rfl⟩
      rw [hget, if_neg]
      · exact hx
      · rintro rfl
        exact hnew ((OrderedMap.mem_keys_iff _).mpr ⟨x, hx⟩)
  · have hframes : (c.openClientChannel options now topic schemaName).frames = c.frames ++
        [(now, .advertise (c.clientChannelCounter + 1) topic encoding schemaName)] := by
      rw [heq]
    refine sentOn_of_quiet hframes (fun e he id => ?_) id
    rw [List.mem_singleton.mp he]
    rfl
  · rw [hcounter] at hle
    obtain rfl := Nat.le_antisymm hle hlt
    exact ⟨hopen', topic, _, by rw [hget, if_pos rfl], rfl⟩

/-! ## The methods -/

/-- `publish` adds what it accepts to what was published. -/
theorem publish_keeps {P D : Type} (codec : CallCodec P D) (hb : Books options c published)
    (now : Nat) (topic schemaName : String) (data : P) :
    let r := c.publish codec options now topic schemaName data
    Books options r.1 (published ++ r.2.toList) ∧
      Keeps c published r.1 (published ++ r.2.toList) := by
  unfold publish
  cases hopen : c.isOpen with
  | false =>
      rw [Bool.not_false, if_pos rfl]
      dsimp only
      rw [Option.toList_none, List.append_nil]
      exact ⟨hb, .refl c published⟩
  | true =>
      rw [Bool.not_true, if_neg Bool.false_ne_true]
      -- The channel of the topic, which may be new.
      obtain ⟨c₁, hc₁, hb₁, hk₁, hopen₁⟩ : ∃ c₁, (if topic ∈ c.clientChannels.keys then c else
          c.openClientChannel options now topic schemaName) = c₁ ∧ Books options c₁ published ∧
            Keeps c published c₁ published ∧ c₁.isOpen = true := by
        split_ifs with hmem
        · exact ⟨c, rfl, hb, .refl c published, hopen⟩
        · obtain ⟨encoding, heq⟩ := openClientChannel_eq options now topic schemaName hopen
          refine ⟨_, rfl, hb.open hopen hmem now schemaName, keeps_open hopen hmem now schemaName, ?_⟩
          rw [heq]
          exact hopen
      rw [hc₁]
      dsimp only
      split
      next =>
        rw [Option.toList_none, List.append_nil]
        exact ⟨hb₁, hk₁⟩
      next channel hget =>
        split
        next =>
          rw [Option.toList_none, List.append_nil]
          exact ⟨hb₁, hk₁⟩
        next bytes _ =>
          obtain ⟨ch', sent, hu⟩ : ∃ ch' sent,
              Update c₁ (c₁.publishOn now topic channel bytes) now topic channel ch' [bytes] sent :=
            publishOn_update hb₁ hget hopen₁ bytes
          exact ⟨hb₁.update hget hu, hk₁.trans (hu.keeps hget)⟩

/-- Waiting or sent, a message leaves the channel with its id and schema. -/
theorem get?_publishOn (hget : c.clientChannels.get? topic = some ch) (now : Nat)
    (bytes : List UInt8) : ∃ ch', (c.publishOn now topic ch bytes).clientChannels.get? topic =
      some ch' ∧ ch'.id = ch.id ∧ ch'.schema = ch.schema := by
  unfold publishOn scheduleFlush sendClientMessage
  dsimp only
  split_ifs
  · exact ⟨_, (OrderedMap.get?_set _ _).trans (if_pos rfl), rfl, rfl⟩
  · exact ⟨_, (OrderedMap.get?_set _ _).trans (if_pos rfl), rfl, rfl⟩
  · exact ⟨ch, hget, rfl, rfl⟩
  · exact ⟨ch, hget, rfl, rfl⟩

/-- On an open socket `publish` accepts every message that can be encoded. -/
theorem publish_accepted {P D : Type} (codec : CallCodec P D) (hopen : c.isOpen = true)
    (options : PublishOptions) (now : Nat) (topic schemaName : String) (data : P) :
    let r := c.publish codec options now topic schemaName data
    ∃ ch, r.1.clientChannels.get? topic = some ch ∧
      ∀ bytes, encodePayload codec data ch.schema = .ok bytes → r.2 = some (ch.id, bytes) := by
  unfold publish
  rw [hopen, Bool.not_true, if_neg Bool.false_ne_true]
  obtain ⟨c₁, hc₁, channel, hget⟩ : ∃ c₁, (if topic ∈ c.clientChannels.keys then c else
      c.openClientChannel options now topic schemaName) = c₁ ∧
        ∃ channel, c₁.clientChannels.get? topic = some channel := by
    split_ifs with hmem
    · exact ⟨c, rfl, (OrderedMap.mem_keys_iff _).mp hmem⟩
    · obtain ⟨encoding, heq⟩ := openClientChannel_eq options now topic schemaName hopen
      rw [heq]
      exact ⟨_, rfl, _, by rw [OrderedMap.get?_set, if_pos rfl]⟩
  rw [hc₁]
  dsimp only
  rw [hget]
  dsimp only
  cases hencode : encodePayload codec data channel.schema with
  | error message =>
      refine ⟨channel, hget, fun bytes hbytes => ?_⟩
      rw [hencode] at hbytes
      cases hbytes
  | ok bytes =>
      obtain ⟨ch', hget', hid, hschema⟩ := get?_publishOn hget now bytes
      refine ⟨ch', hget', fun bytes' hbytes => ?_⟩
      rw [hschema, hencode] at hbytes
      obtain rfl := Except.ok.inj hbytes
      rw [hid]

theorem flush_keeps (hb : Books options c published) {timer : FlushTimer} (hmem : timer ∈ c.timers)
    (hdue : timer.due ≤ now) : Books options (c.onFlush now timer) published ∧
      Keeps c published (c.onFlush now timer) published := by
  obtain ⟨ch, sent, hget, -, hu⟩ := onFlush_update hb hmem hdue
  have hbooks := hb.update hget hu
  have hkeeps : Keeps c published _ _ := hu.keeps hget
  rw [List.map_nil, List.append_nil] at hbooks hkeeps
  exact ⟨hbooks, hkeeps⟩

/-- The socket opens, and there are no channels yet. -/
theorem Books.opening (hb : Books options c published) (hempty : c.clientChannels = .empty) :
    Books options { c with ws := some .open } published ∧
      Keeps c published { c with ws := some .open } published := by
  have hnone : ∀ t x, c.clientChannels.get? t ≠ some x := by
    intro t x hx
    rw [hempty] at hx
    cases hx
  refine ⟨⟨hb.bounded, hb.inj, fun _ t x hx => absurd hx (hnone t x), hb.fresh, hb.flagged, hb.timers,
    hb.single, hb.opened, hb.ready, fun _ => hempty⟩, Nat.le_refl _, fun id _ => ?_,
    fun _ _ _ => ⟨rfl, rfl⟩, fun id hlt hle => absurd (Nat.lt_of_lt_of_le hlt hle) (Nat.lt_irrefl _)⟩
  exact iff_of_false (fun ⟨_, t, x, hx, _⟩ => hnone t x hx) fun ⟨_, t, x, hx, _⟩ => hnone t x hx

theorem foldl_open (entries : List (String × ExplicitPublisher)) (hnodup : (entries.map Prod.fst).Nodup)
    (hnew : ∀ e ∈ entries, e.1 ∉ c.clientChannels.keys) (hb : Books options c published)
    (hopen : c.isOpen = true) (now : Nat) :
    let c' := entries.foldl (fun c e => c.openClientChannel options now e.1 e.2.schemaName) c
    Books options c' published ∧ Keeps c published c' published ∧
      c'.explicitPublishers = c.explicitPublishers := by
  induction entries generalizing c with
  | nil => exact ⟨hb, .refl c published, rfl⟩
  | cons e entries ih =>
      obtain ⟨hnot, hnodup⟩ := List.nodup_cons.mp hnodup
      have hmem := hnew e List.mem_cons_self
      obtain ⟨encoding, heq⟩ := openClientChannel_eq options now e.1 e.2.schemaName hopen
      have hnew' : ∀ e' ∈ entries,
          e'.1 ∉ (c.openClientChannel options now e.1 e.2.schemaName).clientChannels.keys := by
        intro e' he' hkey
        rw [heq, OrderedMap.mem_keys_iff] at hkey
        obtain ⟨x, hx⟩ := hkey
        rw [OrderedMap.get?_set] at hx
        split_ifs at hx with htopic
        · exact hnot (by rw [← htopic]; exact List.mem_map_of_mem he')
        · exact hnew e' (List.mem_cons_of_mem e he') ((OrderedMap.mem_keys_iff _).mpr ⟨x, hx⟩)
      have hopen' : (c.openClientChannel options now e.1 e.2.schemaName).isOpen = true := by
        rw [heq]
        exact hopen
      obtain ⟨hbooks, hkeeps, hpublishers⟩ :=
        ih hnodup hnew' (hb.open hopen hmem now e.2.schemaName) hopen'
      refine ⟨hbooks, (keeps_open hopen hmem now e.2.schemaName).trans hkeeps, hpublishers.trans ?_⟩
      rw [heq]

theorem onopen_keeps (hb : Books options c published) (hempty : c.clientChannels = .empty)
    (now : Nat) : Books options (c.onopen options now) published ∧
      Keeps c published (c.onopen options now) published ∧
        (c.onopen options now).explicitPublishers = c.explicitPublishers := by
  obtain ⟨hb₀, hk₀⟩ := hb.opening hempty
  have hnew : ∀ e ∈ c.explicitPublishers.entries,
      e.1 ∉ ({ c with ws := some .open } : PublishConnection).clientChannels.keys := by
    intro e _ hmem
    obtain ⟨x, hx⟩ := (OrderedMap.mem_keys_iff _).mp hmem
    have hx : c.clientChannels.get? e.1 = some x := hx
    rw [hempty] at hx
    cases hx
  obtain ⟨hbooks, hkeeps, hpublishers⟩ :=
    foldl_open c.explicitPublishers.entries c.explicitPublishers.nodup hnew hb₀ rfl now
  exact ⟨hbooks, hk₀.trans hkeeps, hpublishers⟩

/-- A channel can still be sent on, or is left as it is; it is lost only if `ends` holds of its
topic. -/
structure Passes (ends : String → Prop) (c : PublishConnection)
    (published : List (Nat × List UInt8)) (c' : PublishConnection)
    (published' : List (Nat × List UInt8)) : Prop where
  counter : c.clientChannelCounter ≤ c'.clientChannelCounter
  kept : ∀ id ≤ c.clientChannelCounter, c'.Live id ∨
    c'.sentOn id = c.sentOn id ∧ publishedOn published' id = publishedOn published id ∧
      ∀ topic ch, c.isOpen = true → c.clientChannels.get? topic = some ch → ch.id = id → ends topic
  new : ∀ id, c.clientChannelCounter < id → id ≤ c'.clientChannelCounter → c'.Live id

theorem Keeps.passes (h : Keeps c published c' published') (ends : String → Prop) :
    Passes ends c published c' published' where
  counter := h.counter
  kept id hid := by
    by_cases hlive : c.Live id
    · exact .inl ((h.live id hid).mpr hlive)
    · obtain ⟨hsent, hpublished⟩ := h.frozen id hid hlive
      exact .inr ⟨hsent, hpublished, fun topic ch hopen hget hch =>
        absurd ⟨hopen, topic, ch, hget, hch⟩ hlive⟩
  new := h.new

/-- No frame with a message is sent, and no channel is new. -/
theorem passes_of_quiet {frames : List (Nat × ClientFrame)} {ends : String → Prop}
    (hcounter : c'.clientChannelCounter = c.clientChannelCounter)
    (hframes : c'.frames = c.frames ++ frames)
    (hquiet : ∀ e ∈ frames, ∀ id, e.2.payloadOn id = none)
    (hends : ∀ topic ch, c.isOpen = true → c.clientChannels.get? topic = some ch →
      c'.Live ch.id ∨ ends topic) : Passes ends c published c' published where
  counter := Nat.le_of_eq hcounter.symm
  kept id _ := by
    by_cases hlive : c'.Live id
    · exact .inl hlive
    · refine .inr ⟨sentOn_of_quiet hframes hquiet id, rfl, fun topic ch hopen hget hid => ?_⟩
      refine (hends topic ch hopen hget).resolve_left ?_
      rw [hid]
      exact hlive
  new id hlt hle := by
    rw [hcounter] at hle
    exact absurd (Nat.lt_of_lt_of_le hlt hle) (Nat.lt_irrefl _)

theorem close_passes (published : List (Nat × List UInt8)) (ends : String → Prop) (now : Nat)
    (hends : ends topic) :
    Passes ends c published (c.closeClientChannel now topic) published ∧
      (c.closeClientChannel now topic).explicitPublishers = c.explicitPublishers := by
  cases hget : c.clientChannels.get? topic with
  | none =>
      have hsame : c.closeClientChannel now topic = c := by
        unfold closeClientChannel
        rw [hget]
      rw [hsame]
      exact ⟨(Keeps.refl c published).passes ends, rfl⟩
  | some ch =>
      rw [closeClientChannel_eq hget]
      refine ⟨passes_of_quiet rfl rfl (fun e he id => ?_) fun t x hopen hx => ?_, rfl⟩
      · split_ifs at he
        · rw [List.mem_singleton.mp he]
          rfl
        · cases he
      · by_cases ht : t = topic
        · rw [ht]
          exact .inr hends
        · refine .inl ⟨hopen, t, x, ?_, rfl⟩
          show (c.clientChannels.erase topic).get? t = some x
          rw [OrderedMap.get?_erase, if_neg ht]
          exact hx

end PublishConnection

/-! ## The world -/

/-- The socket goes, or the last advertisement of a topic is released. -/
def PublishEvent.Ends {P : Type} (w : PublishWorld) (topic : String) : PublishEvent P → Prop
  | .closing | .closed => True
  | .release advertisement => w.advertisements.get? advertisement = some topic ∧
      ∀ other, w.advertisements.get? other = some topic → other = advertisement
  | _ => False

namespace PublishWorld

open PublishConnection

variable {P D : Type} {codec : CallCodec P D} {options : PublishOptions} {w w' : PublishWorld}
  {e : PublishEvent P}

/-- The advertisements of a topic that have not been released. -/
def holders (w : PublishWorld) (topic : String) : Nat :=
  w.advertisements.entries.countP fun a => a.2 = topic

/-- The counts of the publishers are right. -/
structure Counted (w : PublishWorld) : Prop where
  fresh : ∀ a topic, w.advertisements.get? a = some topic → a < w.nextAdvertisement
  none : ∀ topic, w.conn.explicitPublishers.get? topic = none → w.holders topic = 0
  some : ∀ topic entry, w.conn.explicitPublishers.get? topic = some entry →
    entry.count = w.holders topic ∧ 0 < entry.count

/-- Releasing takes one advertisement off. -/
theorem holders_erase {a : Nat} {topic : String} (hget : w.advertisements.get? a = some topic)
    (conn : PublishConnection) (t : String) :
    w.holders t =
      holders { w with conn := conn, advertisements := w.advertisements.erase a } t +
        if t = topic then 1 else 0 := by
  rw [holders, OrderedMap.countP_erase _ _ hget]
  simp only [holders, decide_eq_true_eq, eq_comm (a := t)]

theorem holders_set (hc : Counted w) (conn : PublishConnection) (topic t : String) :
    holders { w with
      conn := conn
      advertisements := w.advertisements.set w.nextAdvertisement topic
      nextAdvertisement := w.nextAdvertisement + 1 } t = w.holders t + if t = topic then 1 else 0 := by
  have hnot : w.nextAdvertisement ∉ w.advertisements.keys := by
    intro hmem
    obtain ⟨topic', hget⟩ := (OrderedMap.mem_keys_iff _).mp hmem
    exact Nat.lt_irrefl _ (hc.fresh _ topic' hget)
  rw [holders, OrderedMap.entries_set_of_notMem _ hnot, List.countP_append, List.countP_singleton]
  simp only [holders, decide_eq_true_eq, eq_comm (a := t)]

/-- The last advertisement of a topic is the only one. -/
theorem only_of_holders {a : Nat} {topic : String} (hget : w.advertisements.get? a = some topic)
    (hone : w.holders topic ≤ 1) : ∀ b, w.advertisements.get? b = some topic → b = a := by
  intro b hb
  by_contra hne
  have hpos : 0 < (w.advertisements.erase a).entries.countP fun e => e.2 = topic := by
    refine List.countP_pos_iff.mpr ⟨(b, topic), ?_, by simp⟩
    rw [← OrderedMap.get?_eq_some_iff, OrderedMap.get?_erase, if_neg hne]
    exact hb
  have hsum := OrderedMap.countP_erase _ (fun e : Nat × String => decide (e.2 = topic)) hget
  rw [if_pos (by simp)] at hsum
  rw [holders] at hone
  omega

theorem Counted.of_eq (hc : Counted w)
    (hpublishers : w'.conn.explicitPublishers = w.conn.explicitPublishers)
    (hads : w'.advertisements = w.advertisements)
    (hnext : w'.nextAdvertisement = w.nextAdvertisement) : Counted w' := by
  have hholders : ∀ topic, w'.holders topic = w.holders topic := by
    intro topic
    rw [holders, hads, holders]
  refine ⟨fun a topic h => ?_, fun topic h => ?_, fun topic entry h => ?_⟩
  · rw [hads] at h
    rw [hnext]
    exact hc.fresh a topic h
  · rw [hpublishers] at h
    rw [hholders]
    exact hc.none topic h
  · rw [hpublishers] at h
    rw [hholders]
    exact hc.some topic entry h

theorem explicitPublishers_publish (c : PublishConnection) (now : Nat) (topic schemaName : String)
    (data : P) : (c.publish codec options now topic schemaName data).1.explicitPublishers =
      c.explicitPublishers := by
  have hopenChannel : ∀ c : PublishConnection,
      (c.openClientChannel options now topic schemaName).explicitPublishers =
        c.explicitPublishers := by
    intro c
    unfold openClientChannel sendJson
    dsimp only
    split_ifs <;> rfl
  have hon : ∀ (c : PublishConnection) channel bytes,
      (c.publishOn now topic channel bytes).explicitPublishers = c.explicitPublishers := by
    intro c channel bytes
    unfold publishOn scheduleFlush sendClientMessage
    dsimp only
    split_ifs <;> rfl
  unfold publish
  split_ifs with hclosed hmem
  · rfl
  · dsimp only
    split
    · rfl
    · split
      · rfl
      · exact hon _ _ _
  · dsimp only
    split
    · exact hopenChannel c
    · split
      · exact hopenChannel c
      · exact (hon _ _ _).trans (hopenChannel c)

theorem explicitPublishers_onFlush (c : PublishConnection) (now : Nat) (timer : FlushTimer) :
    (c.onFlush now timer).explicitPublishers = c.explicitPublishers := by
  unfold onFlush
  dsimp only
  split
  next => rfl
  next =>
    split_ifs
    · rfl
    · rw [foldl_sendClientMessage]

theorem explicitPublishers_reset (c : PublishConnection) :
    c.reset.explicitPublishers = c.explicitPublishers := by
  rw [PublishConnection.reset, foldl_clearTimeout]

/-! ## Steps -/

theorem counted_advertise (hc : Counted w) {conn : PublishConnection} {topic : String}
    (entry : ExplicitPublisher) (hcount : entry.count = w.holders topic + 1)
    (hget : ∀ t, conn.explicitPublishers.get? t =
      if t = topic then some entry else w.conn.explicitPublishers.get? t) :
    Counted { w with
      conn := conn
      advertisements := w.advertisements.set w.nextAdvertisement topic
      nextAdvertisement := w.nextAdvertisement + 1 } := by
  refine ⟨fun a t h => ?_, fun t h => ?_, fun t x h => ?_⟩
  · rw [OrderedMap.get?_set] at h
    split_ifs at h with ha
    · rw [ha]
      exact Nat.lt_succ_self _
    · exact Nat.lt_succ_of_lt (hc.fresh a t h)
  · rw [hget] at h
    split_ifs at h with ht
    rw [holders_set hc, if_neg ht, hc.none t h]
  · rw [hget] at h
    split_ifs at h with ht
    · obtain rfl := Option.some.inj h
      rw [holders_set hc, if_pos ht, ht, hcount]
      exact ⟨rfl, Nat.succ_pos _⟩
    · rw [holders_set hc, if_neg ht]
      exact hc.some t x h

theorem advertise_ok (hb : Books options w.conn w.published) (hc : Counted w)
    (topic schemaName : String) (ends : String → Prop) :
    Books options (w.conn.advertise options w.now topic schemaName) w.published ∧
      Passes ends w.conn w.published (w.conn.advertise options w.now topic schemaName) w.published ∧
      Counted { w with
        conn := w.conn.advertise options w.now topic schemaName
        advertisements := w.advertisements.set w.nextAdvertisement topic
        nextAdvertisement := w.nextAdvertisement + 1 } := by
  unfold advertise
  cases hentry : w.conn.explicitPublishers.get? topic with
  | some entry =>
      obtain ⟨hbooks, hkeeps⟩ := publishers_keeps hb
        (w.conn.explicitPublishers.set topic { entry with count := entry.count + 1 })
      exact ⟨hbooks, hkeeps.passes ends, counted_advertise hc _
        (congrArg (· + 1) (hc.some topic entry hentry).1) fun t => OrderedMap.get?_set _ t⟩
  | none =>
      obtain ⟨hbooks, hkeeps⟩ := publishers_keeps hb
        (w.conn.explicitPublishers.set topic ⟨schemaName, 1⟩)
      have hcount : (1 : Nat) = w.holders topic + 1 := by rw [hc.none topic hentry]
      dsimp only
      split_ifs with hopen
      · obtain ⟨encoding, heq⟩ := openClientChannel_eq options w.now topic schemaName hopen.1
        refine ⟨hbooks.open hopen.1 hopen.2 w.now schemaName,
          (hkeeps.trans (keeps_open hopen.1 hopen.2 w.now schemaName)).passes ends,
          counted_advertise hc ⟨schemaName, 1⟩ hcount fun t => ?_⟩
        rw [heq]
        exact OrderedMap.get?_set _ t
      · exact ⟨hbooks, hkeeps.passes ends,
          counted_advertise hc ⟨schemaName, 1⟩ hcount fun t => OrderedMap.get?_set _ t⟩

theorem counted_release (hc : Counted w) {a : Nat} {topic : String} {conn : PublishConnection}
    (entry : Option ExplicitPublisher) (hget : w.advertisements.get? a = some topic)
    (hentry : ∀ t, conn.explicitPublishers.get? t =
      if t = topic then entry else w.conn.explicitPublishers.get? t)
    (hcount : (entry.map ExplicitPublisher.count).getD 0 + 1 = w.holders topic)
    (hpos : ∀ x ∈ entry, 0 < x.count) :
    Counted { w with conn := conn, advertisements := w.advertisements.erase a } := by
  refine ⟨fun b t h => ?_, fun t h => ?_, fun t x h => ?_⟩
  · rw [OrderedMap.get?_erase] at h
    split_ifs at h
    exact hc.fresh b t h
  · have hholders := holders_erase hget conn t
    rw [hentry] at h
    split_ifs at h with ht
    · rw [if_pos ht, ht, ← hcount, h] at hholders
      rw [ht]
      exact (Nat.succ.inj hholders).symm
    · rw [if_neg ht, hc.none t h] at hholders
      exact hholders.symm
  · have hholders := holders_erase hget conn t
    rw [hentry] at h
    split_ifs at h with ht
    · rw [if_pos ht, ht, ← hcount, h] at hholders
      rw [ht]
      exact ⟨Nat.succ.inj hholders, hpos x h⟩
    · rw [if_neg ht] at hholders
      rw [← Nat.add_zero (holders _ t), ← hholders]
      exact hc.some t x h

theorem release_ok (hb : Books options w.conn w.published) (hc : Counted w) {a : Nat} {topic : String}
    (hget : w.advertisements.get? a = some topic) :
    Books options (w.conn.release w.now topic) w.published ∧
      Passes (fun t => (PublishEvent.release a : PublishEvent P).Ends w t) w.conn w.published
        (w.conn.release w.now topic) w.published ∧
      Counted { w with
        conn := w.conn.release w.now topic
        advertisements := w.advertisements.erase a } := by
  have hpos : 0 < w.holders topic := by
    rw [holders_erase hget w.conn topic, if_pos rfl]
    exact Nat.succ_pos _
  unfold release
  cases hentry : w.conn.explicitPublishers.get? topic with
  | none =>
      rw [hc.none topic hentry] at hpos
      exact absurd hpos (Nat.lt_irrefl 0)
  | some current =>
      obtain ⟨hcount, -⟩ := hc.some topic current hentry
      dsimp only
      split_ifs with hmore
      · obtain ⟨hbooks, hkeeps⟩ := publishers_keeps hb
          (w.conn.explicitPublishers.set topic { current with count := current.count - 1 })
        refine ⟨hbooks, hkeeps.passes _, counted_release hc
          (some { current with count := current.count - 1 }) hget
          (fun t => OrderedMap.get?_set _ t) ?_ fun x hx => ?_⟩
        · show current.count - 1 + 1 = _
          omega
        · rw [← Option.some.inj hx]
          exact hmore
      · obtain ⟨hbooks, hkeeps⟩ := publishers_keeps hb (w.conn.explicitPublishers.erase topic)
        have hends : (PublishEvent.release a : PublishEvent P).Ends w topic :=
          ⟨hget, only_of_holders hget (by omega)⟩
        obtain ⟨hpasses, hpublishers⟩ := close_passes
          (c := { w.conn with explicitPublishers := w.conn.explicitPublishers.erase topic })
          w.published (fun t => (PublishEvent.release a : PublishEvent P).Ends w t) w.now hends
        refine ⟨hbooks.close w.now topic, ⟨hpasses.counter, hpasses.kept, hpasses.new⟩,
          counted_release hc none hget (fun t => ?_) ?_ (fun _ h => by cases h)⟩
        · rw [hpublishers]
          exact OrderedMap.get?_erase _ t
        · show 0 + 1 = _
          omega

theorem step_ok (hb : Books options w.conn w.published) (hc : Counted w)
    (hs : step codec options w e = some w') :
    Books options w'.conn w'.published ∧
      Passes (fun topic => e.Ends w topic) w.conn w.published w'.conn w'.published ∧ Counted w' := by
  cases e with
  | tick ms =>
      obtain rfl := Option.some.inj hs
      exact ⟨hb, (Keeps.refl _ _).passes _, hc.of_eq rfl rfl rfl⟩
  | connect =>
      simp only [step] at hs
      split_ifs at hs with hws
      obtain rfl := Option.some.inj hs
      have hclosed : w.conn.isOpen = false := by
        rw [PublishConnection.isOpen, hws]
        rfl
      have hkeeps : Keeps w.conn w.published { w.conn with ws := some .connecting } w.published :=
        keeps_of_eq hclosed.symm rfl rfl rfl
      exact ⟨hb.of_eq rfl rfl rfl rfl (fun h => by cases h) fun _ => hb.noSocket (.inl hws),
        hkeeps.passes _, hc.of_eq rfl rfl rfl⟩
  | opened =>
      simp only [step] at hs
      split_ifs at hs with hws
      obtain rfl := Option.some.inj hs
      obtain ⟨hbooks, hkeeps, hpublishers⟩ := onopen_keeps hb (hb.noSocket (.inr hws)) w.now
      exact ⟨hbooks, hkeeps.passes _, hc.of_eq hpublishers rfl rfl⟩
  | closing =>
      simp only [step] at hs
      split_ifs at hs with hws
      obtain rfl := Option.some.inj hs
      refine ⟨hb.of_eq rfl rfl rfl rfl (fun h => by cases h) fun h => ?_,
        passes_of_quiet rfl (List.append_nil _).symm (fun _ h => by cases h) fun _ _ _ _ => .inr trivial,
        hc.of_eq rfl rfl rfl⟩
      rcases h with h | h <;> cases h
  | closed =>
      obtain rfl := Option.some.inj hs
      have hframes : w.conn.reset.frames = w.conn.frames ++ [] := by
        rw [PublishConnection.reset, foldl_clearTimeout, List.append_nil]
      refine ⟨hb.reset, passes_of_quiet ?_ hframes (fun _ h => by cases h) fun _ _ _ _ => .inr trivial,
        hc.of_eq (explicitPublishers_reset _) rfl rfl⟩
      rw [PublishConnection.reset, foldl_clearTimeout]
  | serverChannels channels =>
      obtain rfl := Option.some.inj hs
      have hkeeps : Keeps w.conn w.published { w.conn with channels := channels } w.published :=
        keeps_of_eq rfl rfl rfl rfl
      exact ⟨hb.of_eq rfl rfl rfl rfl id hb.noSocket, hkeeps.passes _, hc.of_eq rfl rfl rfl⟩
  | advertise topic schemaName =>
      obtain rfl := Option.some.inj hs
      exact advertise_ok hb hc topic schemaName _
  | release a =>
      obtain ⟨topic, hget, rfl⟩ := Option.map_eq_some_iff.mp hs
      exact release_ok hb hc hget
  | publish topic schemaName data =>
      obtain rfl := Option.some.inj hs
      obtain ⟨hbooks, hkeeps⟩ := publish_keeps codec hb w.now topic schemaName data
      exact ⟨hbooks, hkeeps.passes _,
        hc.of_eq (explicitPublishers_publish _ _ _ _ _) rfl rfl⟩
  | flush timer =>
      simp only [step] at hs
      split_ifs at hs with htimer
      obtain rfl := Option.some.inj hs
      obtain ⟨hbooks, hkeeps⟩ := flush_keeps hb htimer.1 htimer.2
      exact ⟨hbooks, hkeeps.passes _, hc.of_eq (explicitPublishers_onFlush _ _ _) rfl rfl⟩

/-! ## Runs -/

theorem books_initial : Books options (initial : PublishWorld).conn initial.published where
  bounded _ _ h := by cases h
  inj _ _ _ _ h := by cases h
  exact _ _ _ h := by cases h
  fresh _ _ := ⟨rfl, rfl⟩
  flagged _ _ h := by cases h
  timers _ h := by cases h
  single _ h := by cases h
  opened _ _ h := by cases h
  ready _ _ _ h := by cases h
  noSocket _ := rfl

theorem counted_initial : Counted (initial : PublishWorld) :=
  ⟨fun _ _ h => (by cases h), fun _ _ => rfl, fun _ _ h => by cases h⟩

/-- The channel `id` was lost at an event that ends it, and all that was published on it and not
sent is the queue it had then. -/
def Ended (codec : CallCodec P D) (options : PublishOptions) (events : List (PublishEvent P))
    (w : PublishWorld) (id : Nat) : Prop :=
  ∃ before e after w₀ topic ch, events = before ++ e :: after ∧
    exec (step codec options) initial before = some w₀ ∧ w₀.conn.isOpen = true ∧
    w₀.conn.clientChannels.get? topic = some ch ∧ ch.id = id ∧ e.Ends w₀ topic ∧
    publishedOn w.published id = w.conn.sentOn id ++ ch.queue

theorem exec_ok {events : List (PublishEvent P)}
    (h : exec (step codec options) initial events = some w) :
    Books options w.conn w.published ∧ Counted w ∧
      ∀ id, 0 < id → id ≤ w.conn.clientChannelCounter →
        w.conn.Live id ∨ Ended codec options events w id := by
  induction events using List.reverseRecOn generalizing w with
  | nil =>
      obtain rfl := Option.some.inj h
      exact ⟨books_initial, counted_initial, fun id hpos hle =>
        absurd (Nat.lt_of_lt_of_le hpos hle) (Nat.lt_irrefl 0)⟩
  | append_singleton events e ih =>
      obtain ⟨v, hv, hlast⟩ := exec_append_iff.mp h
      obtain ⟨u, hs, hu⟩ := exec_cons_iff.mp hlast
      obtain rfl := Option.some.inj hu
      obtain ⟨hb, hc, hids⟩ := ih hv
      obtain ⟨hb', hpasses, hc'⟩ := step_ok hb hc hs
      refine ⟨hb', hc', fun id hpos hle => ?_⟩
      rcases Nat.lt_or_ge v.conn.clientChannelCounter id with hlt | hge
      · exact .inl (hpasses.new id hlt hle)
      · rcases hpasses.kept id hge with hlive | ⟨hsent, hpublished, hends⟩
        · exact .inl hlive
        · refine .inr ?_
          rcases hids id hpos hge with ⟨hopen, topic, ch, hget, rfl⟩ |
            ⟨before, e₀, after, w₀, topic, ch, rfl, hbefore, hopen, hget, hid, hend, hexact⟩
          · exact ⟨events, e, [], v, topic, ch, rfl, hv, hopen, hget, rfl,
              hends topic ch hopen hget rfl, by rw [hsent, hpublished, hb.exact hopen topic ch hget]⟩
          · exact ⟨before, e₀, after ++ [e], w₀, topic, ch, by simp, hbefore, hopen, hget, hid, hend,
              by rw [hsent, hpublished, hexact]⟩

/-- Over any run, what was published on a channel of an open socket is what was sent on it, in order,
and then its queue, for which a timer is set that sends it; a channel is lost with its queue only
when the last advertisement of its topic is released or the socket goes; nothing is sent on a
channel before it is ready; and while the socket is open every message that can be encoded is
taken. -/
theorem published_is_sent (codec : CallCodec P D) (options : PublishOptions)
    (events : List (PublishEvent P)) (w : PublishWorld)
    (h : exec (step codec options) initial events = some w) :
    (∀ topic ch, w.conn.isOpen = true → w.conn.clientChannels.get? topic = some ch →
      publishedOn w.published ch.id = w.conn.sentOn ch.id ++ ch.queue ∧
      (ch.queue ≠ [] → ∃ timer ∈ w.conn.timers, timer.topic = topic ∧ timer.channelId = ch.id)) ∧
    (∀ timer ∈ w.conn.timers, ∀ w', step codec options w (.flush timer) = some w' →
      ∃ ch, w'.conn.clientChannels.get? timer.topic = some ch ∧ ch.id = timer.channelId ∧
        ch.queue = []) ∧
    (∀ id, 0 < id → id ≤ w.conn.clientChannelCounter →
      w.conn.Live id ∨ Ended codec options events w id) ∧
    (∀ t id payload, (t, ClientFrame.data id payload) ∈ w.conn.frames →
      ∃ t₀ topic encoding schemaName,
        (t₀, ClientFrame.advertise id topic encoding schemaName) ∈ w.conn.frames ∧
          t₀ + options.publisherWarmupMs ≤ t) ∧
    ∀ topic schemaName data w', w.conn.isOpen = true →
      step codec options w (.publish topic schemaName data) = some w' →
      ∃ ch, w'.conn.clientChannels.get? topic = some ch ∧
        ∀ bytes, encodePayload codec data ch.schema = .ok bytes →
          w'.published = w.published ++ [(ch.id, bytes)] := by
  obtain ⟨hb, -, hids⟩ := exec_ok h
  refine ⟨fun topic ch hopen hget => ⟨hb.exact hopen topic ch hget, fun hqueue => ?_⟩,
    fun timer hmem w' hs => ?_, hids, hb.ready, fun topic schemaName data w' hopen hs => ?_⟩
  · obtain ⟨hflag, hset⟩ := hb.flagged topic ch hget
    obtain ⟨timer, hmem, hid⟩ := hflag.mp (hset hqueue)
    exact ⟨timer, hmem, (hb.own_timer hget hmem hid).1, hid⟩
  · simp only [step] at hs
    split_ifs at hs with htimer
    obtain rfl := Option.some.inj hs
    obtain ⟨ch, sent, -, hid, hu⟩ := onFlush_update hb hmem htimer.2
    exact ⟨{ ch with queue := [], flushTimer := false }, by rw [hu.get?, if_pos rfl], hid, rfl⟩
  · obtain rfl := Option.some.inj hs
    obtain ⟨ch, hget, haccepted⟩ := publish_accepted codec hopen options w.now topic schemaName data
    refine ⟨ch, hget, fun bytes hbytes => ?_⟩
    show w.published ++ (w.conn.publish codec options w.now topic schemaName data).2.toList = _
    rw [haccepted bytes hbytes]
    rfl

/-- A codec that writes each message as its byte. -/
def byteCodec : CallCodec UInt8 (List UInt8) where
  raw payload := payload
  parseJson _ := none
  reader _ := none
  stringify data := .ok [data]
  writer _ := none
  decodeText _ := "json"

def door : List (PublishEvent UInt8) :=
  [.connect, .opened, .publish "/door" "String" 1, .tick 300, .publish "/door" "String" 2,
    .tick 100, .flush ⟨"/door", 1, 400⟩, .publish "/door" "String" 3]

/-- The second message waits behind the first, the third is sent at once, and a fourth is taken. -/
theorem published_is_sent_door :
    ∃ w w', exec (step byteCodec ⟨400, fun _ => none⟩) initial door = some w ∧
      w.conn.sentOn 1 = [[1], [2], [3]] ∧ publishedOn w.published 1 = [[1], [2], [3]] ++ [] ∧
      step byteCodec ⟨400, fun _ => none⟩ w (.publish "/door" "String" 4) = some w' ∧
      w'.published = w.published ++ [(1, [4])] := by
  obtain ⟨w, hrun, hopen, hget, hafter, hsent⟩ : ∃ w : PublishWorld,
      exec (step byteCodec ⟨400, fun _ => none⟩) initial door = some w ∧
        (w.conn.isOpen = true ∧
          w.conn.clientChannels.get? "/door" = some ⟨1, none, 400, [], false⟩ ∧
          (w.conn.publish byteCodec ⟨400, fun _ => none⟩ w.now "/door" "String"
            4).1.clientChannels.get? "/door" = some ⟨1, none, 400, [], false⟩ ∧
          w.conn.sentOn 1 = [[1], [2], [3]]) := exists_exec (by decide)
  obtain ⟨hchannels, _, _, _, htaken⟩ := published_is_sent _ _ _ w hrun
  have hexact := (hchannels "/door" _ hopen hget).1
  rw [hsent] at hexact
  have hstep : step byteCodec ⟨400, fun _ => none⟩ w (.publish "/door" "String" 4) = some _ := rfl
  obtain ⟨ch, hch, hpublished⟩ := htaken "/door" "String" 4 _ hopen hstep
  obtain rfl := Option.some.inj (hafter.symm.trans hch)
  exact ⟨w, _, hrun, hsent, hexact, hstep, hpublished [4] rfl⟩

end PublishWorld

end MgRobot.WebUi
