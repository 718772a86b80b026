import MgRobot.WebUi.FoxgloveServer

/-!
# What reconcile brings about

On an open socket the subscriptions on the server are those of the active map, in
the same order, and `reconcile` leaves each topic with the one its listeners ask
for.
-/

namespace MgRobot.WebUi

set_option autoImplicit false

open MgRobot.Lib

namespace FoxgloveConnection

variable {L : Type} {c c' c'' : FoxgloveConnection L} {key : String}

/-- The frames that have gone over the socket in use. -/
def frames (c : FoxgloveConnection L) : List Frame := (c.ws.map Socket.frames).getD []

/-- The channel that a topic is subscribed on. -/
def channelId (c : FoxgloveConnection L) (key : String) : Option Nat :=
  (c.active.get? key).map fun sub => sub.channel.id

/-- The server's subscriptions, the active map and its inverse say the same. -/
structure Ledger (c : FoxgloveConnection L) : Prop where
  server : serverSubscriptions c.frames =
    c.active.entries.map fun e => ⟨e.2.subId, e.2.channel.id⟩
  inverse : c.topicBySubId.entries = c.active.entries.map fun e => (e.2.subId, e.1)
  fresh : ∀ e ∈ c.active.entries, e.2.subId ≤ c.subCounter

/-- What the server and the user have asked for is the same. -/
structure Kept (c c' : FoxgloveConnection L) : Prop where
  isOpen : c'.isOpen = c.isOpen
  live : liveChannels c'.frames = liveChannels c.frames
  channels : c'.channels = c.channels
  listeners : c'.listeners = c.listeners
  paused : c'.paused = c.paused
  started : c'.started = c.started
  reconnectTimer : c'.reconnectTimer = c.reconnectTimer

theorem Kept.refl (c : FoxgloveConnection L) : Kept c c := ⟨rfl, rfl, rfl, rfl, rfl, rfl, rfl⟩

theorem Kept.trans (h : Kept c c') (h' : Kept c' c'') : Kept c c'' where
  isOpen := h'.isOpen.trans h.isOpen
  live := h'.live.trans h.live
  channels := h'.channels.trans h.channels
  listeners := h'.listeners.trans h.listeners
  paused := h'.paused.trans h.paused
  started := h'.started.trans h.started
  reconnectTimer := h'.reconnectTimer.trans h.reconnectTimer

theorem Kept.size (h : Kept c c') (key : String) : c'.size key = c.size key := by
  rw [FoxgloveConnection.size, h.listeners]
  rfl

theorem isOpen_iff : c.isOpen = true ↔ ∃ ws, c.ws = some ws ∧ ws.readyState = .open := by
  rw [isOpen, Option.any_eq_true]
  simp

theorem frames_log (hopen : c.isOpen = true) (frame : Frame) :
    (c.log frame).frames = c.frames ++ [frame] := by
  obtain ⟨ws, hws, -⟩ := isOpen_iff.mp hopen
  simp [log, frames, hws]

@[simp] theorem isOpen_log (frame : Frame) : (c.log frame).isOpen = c.isOpen := by
  cases hws : c.ws with
  | none => simp [isOpen, log, hws]
  | some ws => simp [isOpen, log, hws]

/-! ## One subscription more, or one less -/

theorem subscribeServer_eq (hopen : c.isOpen = true) (channel : ServerChannel) :
    c.subscribeServer key channel =
      { c with
        subCounter := c.subCounter + 1
        active := c.active.set key ⟨c.subCounter + 1, channel⟩
        topicBySubId := c.topicBySubId.set (c.subCounter + 1) key
        ws := c.ws.map fun ws =>
          { ws with frames := ws.frames ++ [.subscribe [⟨c.subCounter + 1, channel.id⟩]] } } :=
  if_pos hopen

theorem subscribeServer_frames (hopen : c.isOpen = true) (channel : ServerChannel) :
    (c.subscribeServer key channel).frames =
      c.frames ++ [.subscribe [⟨c.subCounter + 1, channel.id⟩]] := by
  rw [subscribeServer_eq hopen]
  exact frames_log hopen _

theorem subscribeServer_kept (hopen : c.isOpen = true) (channel : ServerChannel) :
    Kept c (c.subscribeServer key channel) where
  isOpen := by
    rw [subscribeServer_eq hopen]
    exact isOpen_log _
  live := by
    rw [subscribeServer_frames hopen, liveChannels_append]
    rfl
  channels := by rw [subscribeServer_eq hopen]
  listeners := by rw [subscribeServer_eq hopen]
  paused := by rw [subscribeServer_eq hopen]
  started := by rw [subscribeServer_eq hopen]
  reconnectTimer := by rw [subscribeServer_eq hopen]

theorem subscribeServer_channelId (hopen : c.isOpen = true) (channel : ServerChannel)
    (k : String) :
    (c.subscribeServer key channel).channelId k =
      if k = key then some channel.id else c.channelId k := by
  rw [subscribeServer_eq hopen, channelId, OrderedMap.get?_set]
  split_ifs
  · rfl
  · rfl

theorem Ledger.subscribeServer (h : Ledger c) (hopen : c.isOpen = true)
    (hkey : c.active.get? key = none) (channel : ServerChannel) :
    Ledger (c.subscribeServer key channel) := by
  have hactive : (c.active.set key ⟨c.subCounter + 1, channel⟩).entries =
      c.active.entries ++ [(key, ⟨c.subCounter + 1, channel⟩)] :=
    c.active.entries_set_of_notMem (c.active.get?_eq_none_iff.mp hkey)
  have hnew : c.subCounter + 1 ∉ c.topicBySubId.keys := by
    rw [OrderedMap.keys, h.inverse, List.map_map, List.mem_map]
    rintro ⟨e, he, heq⟩
    have hle := h.fresh e he
    have heq : e.2.subId = c.subCounter + 1 := heq
    omega
  constructor
  · rw [subscribeServer_frames hopen, serverSubscriptions_append, h.server,
      subscribeServer_eq hopen, hactive, List.map_append]
    rfl
  · rw [subscribeServer_eq hopen, hactive, List.map_append]
    show (c.topicBySubId.set (c.subCounter + 1) key).entries = _
    rw [c.topicBySubId.entries_set_of_notMem hnew, h.inverse]
    rfl
  · rw [subscribeServer_eq hopen, hactive]
    intro e he
    show e.2.subId ≤ c.subCounter + 1
    rcases List.mem_append.mp he with he | he
    · have hle := h.fresh e he
      omega
    · obtain rfl := List.mem_singleton.mp he
      exact Nat.le_refl _

/-- No two topics share a subscription id. -/
theorem Ledger.subId_inj (h : Ledger c) {e e' : String × Subscription}
    (he : e ∈ c.active.entries) (he' : e' ∈ c.active.entries) (heq : e.2.subId = e'.2.subId) :
    e = e' := by
  have hnodup := c.topicBySubId.nodup
  rw [h.inverse, List.map_map] at hnodup
  exact List.inj_on_of_nodup_map hnodup he he' heq

theorem unsubscribeServer_none (hkey : c.active.get? key = none) : c.unsubscribeServer key = c := by
  rw [unsubscribeServer, hkey]

theorem unsubscribeServer_some (hopen : c.isOpen = true) {sub : Subscription}
    (hkey : c.active.get? key = some sub) :
    c.unsubscribeServer key =
      { c with
        active := c.active.erase key
        topicBySubId := c.topicBySubId.erase sub.subId
        ws := c.ws.map fun ws => { ws with frames := ws.frames ++ [.unsubscribe [sub.subId]] } } := by
  rw [unsubscribeServer, hkey]
  exact if_pos hopen

theorem unsubscribeServer_frames (hopen : c.isOpen = true) {sub : Subscription}
    (hkey : c.active.get? key = some sub) :
    (c.unsubscribeServer key).frames = c.frames ++ [.unsubscribe [sub.subId]] := by
  rw [unsubscribeServer_some hopen hkey]
  exact frames_log hopen _

theorem unsubscribeServer_kept (hopen : c.isOpen = true) : Kept c (c.unsubscribeServer key) := by
  cases hkey : c.active.get? key with
  | none =>
      rw [unsubscribeServer_none hkey]
      exact Kept.refl c
  | some sub =>
      constructor
      · rw [unsubscribeServer_some hopen hkey]
        exact isOpen_log _
      · rw [unsubscribeServer_frames hopen hkey, liveChannels_append]
        rfl
      all_goals rw [unsubscribeServer_some hopen hkey]

theorem unsubscribeServer_get? (hopen : c.isOpen = true) (k : String) :
    (c.unsubscribeServer key).active.get? k = if k = key then none else c.active.get? k := by
  cases hkey : c.active.get? key with
  | none =>
      rw [unsubscribeServer_none hkey]
      split_ifs with hk
      · rw [hk, hkey]
      · rfl
  | some sub => rw [unsubscribeServer_some hopen hkey, OrderedMap.get?_erase]

theorem unsubscribeServer_channelId (hopen : c.isOpen = true) (k : String) :
    (c.unsubscribeServer key).channelId k = if k = key then none else c.channelId k := by
  rw [channelId, unsubscribeServer_get? hopen]
  split_ifs
  · rfl
  · rfl

theorem Ledger.unsubscribeServer (h : Ledger c) (hopen : c.isOpen = true) :
    Ledger (c.unsubscribeServer key) := by
  cases hkey : c.active.get? key with
  | none =>
      rw [unsubscribeServer_none hkey]
      exact h
  | some sub =>
      have hmem := c.active.get?_eq_some_iff.mp hkey
      -- the id and the key single out the same entry
      have hsame : ∀ e ∈ c.active.entries, (e.2.subId = sub.subId ↔ e.1 = key) := by
        intro e he
        constructor
        · intro heq
          rw [h.subId_inj he hmem heq]
        · intro heq
          rw [List.inj_on_of_nodup_map c.active.nodup he hmem heq]
      constructor
      · rw [unsubscribeServer_frames hopen hkey, serverSubscriptions_append, h.server,
          unsubscribeServer_some hopen hkey]
        show ((c.active.entries.map _).filter _) = (c.active.entries.filter _).map _
        rw [List.filter_map]
        refine congrArg (List.map _) (List.filter_congr fun e he => ?_)
        simp [hsame e he]
      · rw [unsubscribeServer_some hopen hkey]
        show c.topicBySubId.entries.filter _ = (c.active.entries.filter _).map _
        rw [h.inverse, List.filter_map]
        refine congrArg (List.map _) (List.filter_congr fun e he => ?_)
        simp [hsame e he]
      · rw [unsubscribeServer_some hopen hkey]
        exact fun e he => h.fresh e (List.mem_of_mem_filter he)

/-! ## reconcile -/

/-- What `reconcile` is to bring about for a topic. -/
def Wanted (c : FoxgloveConnection L) (key : String) : Prop := c.paused = false ∧ 0 < c.size key

instance (c : FoxgloveConnection L) (key : String) : Decidable (c.Wanted key) :=
  inferInstanceAs (Decidable (_ ∧ _))

/-- A wanted topic is subscribed on its channel, another one is not subscribed. -/
def Settled (c : FoxgloveConnection L) : Prop :=
  ∀ key, c.channelId key = if c.Wanted key then (c.channels.get? key).map ServerChannel.id else none

/-- Only topics with a channel are subscribed. -/
def Covered (c : FoxgloveConnection L) : Prop :=
  ∀ key, c.channels.get? key = none → c.channelId key = none

theorem Settled.covered (h : Settled c) : Covered c := by
  intro key hnone
  rw [h key, hnone]
  split_ifs
  · rfl
  · rfl

theorem Kept.wanted (h : Kept c c') (key : String) : c'.Wanted key ↔ c.Wanted key := by
  rw [Wanted, Wanted, h.paused, h.size]

/-- Where the first loop leaves the subscription of a topic. -/
def afterListeners (c : FoxgloveConnection L) (key : String) (id : Option Nat) : Option Nat :=
  if c.Wanted key then ((c.channels.get? key).map ServerChannel.id).or id else id

/-- Where the second loop leaves it. -/
def afterActive (c : FoxgloveConnection L) (key : String) (id : Option Nat) : Option Nat :=
  if c.Wanted key then id else none

theorem Kept.afterListeners (h : Kept c c') : c'.afterListeners = c.afterListeners := by
  funext key id
  simp only [FoxgloveConnection.afterListeners, h.wanted, h.channels]

theorem Kept.afterActive (h : Kept c c') : c'.afterActive = c.afterActive := by
  funext key id
  simp only [FoxgloveConnection.afterActive, h.wanted]

theorem afterListeners_idem (key : String) (id : Option Nat) :
    c.afterListeners key (c.afterListeners key id) = c.afterListeners key id := by
  unfold afterListeners
  split_ifs
  · cases (c.channels.get? key).map ServerChannel.id with
    | none => rfl
    | some channelId => rfl
  · rfl

theorem afterActive_idem (key : String) (id : Option Nat) :
    c.afterActive key (c.afterActive key id) = c.afterActive key id := by
  unfold afterActive
  split_ifs
  · rfl
  · rfl

/-- What a step towards a settled connection makes of the subscription of `key`. -/
structure Moves (c c' : FoxgloveConnection L) (key : String) (id : Option Nat) : Prop where
  kept : Kept c c'
  ledger : Ledger c'
  channelId : ∀ k, c'.channelId k = if k = key then id else c.channelId k

theorem Moves.refl (h : Ledger c) (key : String) : Moves c c key (c.channelId key) := by
  refine ⟨Kept.refl c, h, fun k => ?_⟩
  split_ifs with hk
  · rw [hk]
  · rfl

theorem size_of_get? {listeners : OrderedMap Nat L} (h : c.listeners.get? key = some listeners) :
    c.size key = listeners.entries.length := by
  rw [size, h]

/-- The condition of both loops. -/
theorem idle_iff : (c.paused || decide (c.size key = 0)) = true ↔ ¬ c.Wanted key := by
  rw [Wanted, Nat.pos_iff_ne_zero]
  cases c.paused with
  | true => simp
  | false => simp

/-- The first loop subscribes a wanted topic on its channel. -/
theorem reconcileListeners_moves (h : Ledger c) (hopen : c.isOpen = true)
    {listeners : OrderedMap Nat L} (hl : c.listeners.get? key = some listeners) :
    Moves c (c.reconcileListeners key listeners) key
      (c.afterListeners key (c.channelId key)) := by
  unfold reconcileListeners afterListeners
  rw [← size_of_get? hl]
  by_cases hw : c.Wanted key
  · rw [if_neg (idle_iff.not.mpr (not_not.mpr hw)), if_pos hw]
    cases hch : c.channels.get? key with
    | none => exact Moves.refl h key
    | some channel =>
        cases hsub : c.active.get? key with
        | none =>
            exact ⟨subscribeServer_kept hopen channel, h.subscribeServer hopen hsub channel,
              subscribeServer_channelId hopen channel⟩
        | some sub =>
            dsimp only
            split_ifs with hid
            · have hsame : c.channelId key = some channel.id := by
                rw [FoxgloveConnection.channelId, hsub, ← hid]
                rfl
              have hmoves := Moves.refl h key
              rw [hsame] at hmoves
              exact hmoves
            · have hkept : Kept c (c.unsubscribeServer key) := unsubscribeServer_kept hopen
              have hopen' : (c.unsubscribeServer key).isOpen = true := hkept.isOpen.trans hopen
              have hnone : (c.unsubscribeServer key).active.get? key = none := by
                rw [unsubscribeServer_get? hopen, if_pos rfl]
              refine ⟨hkept.trans (subscribeServer_kept hopen' channel),
                (h.unsubscribeServer hopen).subscribeServer hopen' hnone channel, fun k => ?_⟩
              rw [subscribeServer_channelId hopen', unsubscribeServer_channelId hopen]
              split_ifs
              · rfl
              · rfl
  · rw [if_pos (idle_iff.mpr hw), if_neg hw]
    exact Moves.refl h key

/-- The second loop ends the subscription of a topic that is not wanted. -/
theorem reconcileActive_moves (h : Ledger c) (hopen : c.isOpen = true) (key : String) :
    Moves c (c.reconcileActive key) key (c.afterActive key (c.channelId key)) := by
  unfold reconcileActive afterActive
  by_cases hw : c.Wanted key
  · rw [if_neg (idle_iff.not.mpr (not_not.mpr hw)), if_pos hw]
    exact Moves.refl h key
  · rw [if_pos (idle_iff.mpr hw), if_neg hw]
    exact ⟨unsubscribeServer_kept hopen, h.unsubscribeServer hopen,
      unsubscribeServer_channelId hopen⟩

/-- A loop of such steps, when a topic that comes up again is left where it is. -/
theorem foldl_moves {α : Type} (f : FoxgloveConnection L → α → FoxgloveConnection L)
    (key : α → String) (target : String → Option Nat → Option Nat) (items : List α)
    (hidem : ∀ k id, target k (target k id) = target k id)
    (hf : ∀ c₁, ∀ a ∈ items, Kept c c₁ → Ledger c₁ →
      Moves c₁ (f c₁ a) (key a) (target (key a) (c₁.channelId (key a))))
    (hkept : Kept c c') (h : Ledger c') :
    Kept c (items.foldl f c') ∧ Ledger (items.foldl f c') ∧
      (∀ k ∈ items.map key, (items.foldl f c').channelId k = target k (c'.channelId k)) ∧
      ∀ k ∉ items.map key, (items.foldl f c').channelId k = c'.channelId k := by
  induction items generalizing c' with
  | nil => exact ⟨hkept, h, fun k hk => absurd hk (List.not_mem_nil), fun k _ => rfl⟩
  | cons a rest ih =>
      have hmove := hf c' a List.mem_cons_self hkept h
      obtain ⟨hkept', hledger, hin, hout⟩ := ih
        (fun c₁ b hb => hf c₁ b (List.mem_cons_of_mem a hb)) (hkept.trans hmove.kept) hmove.ledger
      refine ⟨hkept', hledger, fun k hk => ?_, fun k hk => ?_⟩
      · rw [List.foldl_cons]
        by_cases hrest : k ∈ rest.map key
        · rw [hin k hrest, hmove.channelId]
          split_ifs with hka
          · rw [hka, hidem]
          · rfl
        · have hka : k = key a := (List.mem_cons.mp hk).resolve_right hrest
          rw [hout k hrest, hmove.channelId, if_pos hka, hka]
      · rw [List.map_cons, List.mem_cons, not_or] at hk
        rw [List.foldl_cons, hout k hk.2, hmove.channelId, if_neg hk.1]

theorem size_eq_zero (h : key ∉ c.listeners.keys) : c.size key = 0 := by
  rw [size, c.listeners.get?_eq_none_iff.mpr h]

theorem channelId_eq_none (h : key ∉ c.active.keys) : c.channelId key = none := by
  rw [channelId, c.active.get?_eq_none_iff.mpr h]
  rfl

/-- `reconcile` makes the subscriptions follow what is wanted. -/
theorem reconcile_spec (hopen : c.isOpen = true) (h : Ledger c) (hcovered : Covered c) :
    Kept c c.reconcile ∧ Ledger c.reconcile ∧ Settled c.reconcile := by
  obtain ⟨hkept₁, hledger₁, hin₁, -⟩ := foldl_moves
    (fun c (e : String × OrderedMap Nat L) => c.reconcileListeners e.1 e.2) Prod.fst
    c.afterListeners c.listeners.entries afterListeners_idem
    (fun c₁ e he hkept hledger => by
      have hl : c₁.listeners.get? e.1 = some e.2 := by
        rw [hkept.listeners]
        exact c.listeners.get?_eq_some_iff.mpr he
      rw [← hkept.afterListeners]
      exact reconcileListeners_moves hledger (hkept.isOpen.trans hopen) hl) (Kept.refl c) h
  generalize hc₁ : c.listeners.entries.foldl (fun c e => c.reconcileListeners e.1 e.2) c = c₁
    at hkept₁ hledger₁ hin₁
  obtain ⟨hkept₂, hledger₂, hin₂, hout₂⟩ := foldl_moves reconcileActive id c.afterActive
    c₁.active.keys afterActive_idem
    (fun c₂ key _ hkept hledger => by
      rw [← hkept.afterActive]
      exact reconcileActive_moves hledger (hkept.isOpen.trans hopen) key) hkept₁ hledger₁
  have hreconcile : c.reconcile = c₁.active.keys.foldl reconcileActive c₁ := by
    rw [reconcile, if_neg (by simp [hopen]), hc₁]
  rw [hreconcile]
  rw [List.map_id] at hin₂ hout₂
  refine ⟨hkept₂, hledger₂, fun k => ?_⟩
  simp only [hkept₂.wanted, hkept₂.channels]
  by_cases hw : c.Wanted k
  · have hmem : k ∈ c.listeners.keys := by
      by_contra hnot
      have hsize := hw.2
      rw [size_eq_zero hnot] at hsize
      exact absurd hsize (Nat.lt_irrefl 0)
    have hfirst : c₁.channelId k = (c.channels.get? k).map ServerChannel.id := by
      rw [hin₁ k hmem, afterListeners, if_pos hw]
      cases hch : c.channels.get? k with
      | none => rw [hcovered k hch]; rfl
      | some channel => rfl
    rw [if_pos hw, ← hfirst]
    by_cases hk : k ∈ c₁.active.keys
    · rw [hin₂ k hk, afterActive, if_pos hw]
    · rw [hout₂ k hk]
  · rw [if_neg hw]
    by_cases hk : k ∈ c₁.active.keys
    · rw [hin₂ k hk, afterActive, if_neg hw]
    · rw [hout₂ k hk, channelId_eq_none hk]

/-! ## What reconcile never touches -/

/-- What the calls of `subscribe` have left. -/
def calls (c : FoxgloveConnection L) : OrderedMap String (OrderedMap Nat L) × Nat :=
  (c.listeners, c.listenerCounter)

theorem calls_sendJson (frame : Frame) : (c.sendJson frame).calls = c.calls := by
  unfold sendJson
  split_ifs
  · rfl
  · rfl

theorem calls_unsubscribeServer : (c.unsubscribeServer key).calls = c.calls := by
  unfold unsubscribeServer
  split
  · rfl
  · exact calls_sendJson _

theorem calls_reconcileListeners (listeners : OrderedMap Nat L) :
    (c.reconcileListeners key listeners).calls = c.calls := by
  unfold reconcileListeners
  split_ifs
  · rfl
  · split
    · rfl
    · split
      · exact calls_sendJson _
      · split_ifs
        · rfl
        · exact (calls_sendJson _).trans calls_unsubscribeServer

theorem calls_reconcileActive : (c.reconcileActive key).calls = c.calls := by
  unfold reconcileActive
  split_ifs
  · exact calls_unsubscribeServer
  · rfl

theorem calls_foldl {α : Type} {f : FoxgloveConnection L → α → FoxgloveConnection L}
    (hf : ∀ c a, (f c a).calls = c.calls) (items : List α) :
    (items.foldl f c).calls = c.calls := by
  induction items generalizing c with
  | nil => rfl
  | cons a rest ih => exact ih.trans (hf c a)

theorem calls_reconcile : c.reconcile.calls = c.calls := by
  unfold reconcile
  split_ifs
  · rfl
  · have hfirst : (c.listeners.entries.foldl (fun c e => c.reconcileListeners e.1 e.2) c).calls =
        c.calls := calls_foldl (fun c e => calls_reconcileListeners e.2) c.listeners.entries
    exact (calls_foldl (fun c key => calls_reconcileActive) _).trans hfirst

end FoxgloveConnection

end MgRobot.WebUi
