import MgRobot.Lib.Runs
import MgRobot.WebUi.FoxgloveConnection

/-!
# The server's side of a socket

What the frames of a socket have made of the channels and the subscriptions on
the server, and the events that reach a `FoxgloveConnection`.
-/

namespace MgRobot.WebUi

set_option autoImplicit false

open MgRobot.Lib

/-- A subscription ends with an `unsubscribe`, or together with its channel. -/
def Frame.subscriptions (subs : List ServerSubscription) : Frame → List ServerSubscription
  | .subscribe new => subs ++ new
  | .unsubscribe ids => subs.filter fun s => s.id ∉ ids
  | .advertise _ => subs
  | .unadvertise ids => subs.filter fun s => s.channelId ∉ ids

def serverSubscriptions (frames : List Frame) : List ServerSubscription :=
  frames.foldl Frame.subscriptions []

/-- A channel that is advertised again moves to the end. -/
def advertiseChannel (live : List ServerChannel) (ch : ServerChannel) : List ServerChannel :=
  live.filter (fun c => c.id ≠ ch.id) ++ [ch]

def Frame.channels (live : List ServerChannel) : Frame → List ServerChannel
  | .advertise channels => channels.foldl advertiseChannel live
  | .unadvertise ids => live.filter fun c => c.id ∉ ids
  | .subscribe _ | .unsubscribe _ => live

def liveChannels (frames : List Frame) : List ServerChannel := frames.foldl Frame.channels []

def ServerChannel.key (ch : ServerChannel) : String := normalizeName ch.topic

/-- The live channel of a topic; of several, the one that replaces the others. -/
def current (live : List ServerChannel) (key : String) : Option ServerChannel :=
  (live.filter fun c => c.key = key).getLast?

/-- The subscriptions on channels of a topic. -/
def topicSubscriptions (frames : List Frame) (key : String) : List ServerSubscription :=
  (serverSubscriptions frames).filter fun s =>
    (liveChannels frames).any fun ch => ch.id = s.channelId ∧ ch.key = key

/-- What the server may send: an id stands for one topic, and the current channel of a topic
goes last. -/
def Frame.Disciplined (live : List ServerChannel) : Frame → Prop
  | .advertise channels =>
      ∀ a ∈ live ++ channels, ∀ b ∈ live ++ channels, a.id = b.id → a.key = b.key
  | .unadvertise ids => ∀ ch ∈ live, current live ch.key = some ch → ch.id ∈ ids →
      ∀ c ∈ live, c.key = ch.key → c.id ∈ ids
  | .subscribe _ | .unsubscribe _ => False

instance (live : List ServerChannel) : ∀ frame : Frame, Decidable (frame.Disciplined live)
  | .advertise _ | .unadvertise _ => by unfold Frame.Disciplined; infer_instance
  | .subscribe _ | .unsubscribe _ => isFalse id

@[simp] theorem serverSubscriptions_append (frames : List Frame) (frame : Frame) :
    serverSubscriptions (frames ++ [frame]) = frame.subscriptions (serverSubscriptions frames) := by
  rw [serverSubscriptions, List.foldl_append]
  rfl

@[simp] theorem liveChannels_append (frames : List Frame) (frame : Frame) :
    liveChannels (frames ++ [frame]) = frame.channels (liveChannels frames) := by
  rw [liveChannels, List.foldl_append]
  rfl

variable {live : List ServerChannel}

theorem mem_of_current {key : String} {ch : ServerChannel} (h : current live key = some ch) :
    ch ∈ live ∧ ch.key = key := by
  have hmem := List.mem_filter.mp (List.mem_of_getLast? h)
  exact ⟨hmem.1, of_decide_eq_true hmem.2⟩

theorem current_eq_none_iff {key : String} :
    current live key = none ↔ ∀ c ∈ live, c.key ≠ key := by
  rw [current, List.getLast?_eq_none_iff, List.filter_eq_nil_iff]
  simp

theorem current_advertiseChannel {ch : ServerChannel} {key : String}
    (h : ∀ c ∈ live, c.id = ch.id → c.key = ch.key) :
    current (advertiseChannel live ch) key =
      if key = ch.key then some ch else current live key := by
  rw [current, advertiseChannel, List.filter_append]
  split_ifs with hkey
  · rw [List.filter_cons_of_pos (by simpa using hkey.symm), List.filter_nil, List.getLast?_concat]
  · rw [List.filter_cons_of_neg (by simpa using Ne.symm hkey), List.filter_nil, List.append_nil,
      List.filter_filter]
    refine congrArg List.getLast? (List.filter_congr fun c hc => ?_)
    by_cases hc' : c.key = key
    · have hid : c.id ≠ ch.id := fun hid => hkey (hc'.symm.trans (h c hc hid))
      simp [hc', hid]
    · simp [hc']

/-- A frame that advertises channels replaces the current ones in turn. -/
theorem current_advertise {channels : List ServerChannel} {m : OrderedMap String ServerChannel}
    (h : ∀ a ∈ live ++ channels, ∀ b ∈ live ++ channels, a.id = b.id → a.key = b.key)
    (hm : ∀ key, m.get? key = current live key) (key : String) :
    (channels.foldl (fun m ch => m.set (normalizeName ch.topic) ch) m).get? key =
      current (channels.foldl advertiseChannel live) key := by
  induction channels generalizing live m with
  | nil => exact hm key
  | cons ch rest ih =>
      have hch : ch ∈ live ++ ch :: rest := List.mem_append_right live List.mem_cons_self
      rw [List.foldl_cons, List.foldl_cons]
      apply ih
      · have hsub : ∀ a ∈ advertiseChannel live ch ++ rest, a ∈ live ++ ch :: rest := by
          intro a ha
          simp only [advertiseChannel, List.mem_append, List.mem_filter, List.mem_singleton] at ha
          rcases ha with (⟨ha, -⟩ | rfl) | ha
          · exact List.mem_append_left _ ha
          · exact hch
          · exact List.mem_append_right live (List.mem_cons_of_mem ch ha)
        exact fun a ha b hb => h a (hsub a ha) b (hsub b hb)
      · intro key
        rw [OrderedMap.get?_set, current_advertiseChannel fun c hc =>
          h c (List.mem_append_left _ hc) ch hch, hm]
        rfl

theorem current_unadvertise {ids : List Nat} (h : (Frame.unadvertise ids).Disciplined live)
    {key : String} {ch : ServerChannel} :
    current (live.filter fun c => c.id ∉ ids) key = some ch ↔
      current live key = some ch ∧ ch.id ∉ ids := by
  have hcomm : (live.filter fun c => c.id ∉ ids).filter (fun c => c.key = key) =
      (live.filter fun c => c.key = key).filter fun c => c.id ∉ ids := by
    rw [List.filter_filter, List.filter_filter]
    exact List.filter_congr fun c _ => Bool.and_comm _ _
  rw [current, hcomm]
  rcases List.eq_nil_or_concat (live.filter fun c => c.key = key) with hnil | ⟨init, last, hlast⟩
  · rw [current, hnil]
    simp
  · have hcurrent : current live key = some last := by
      rw [current, hlast, List.concat_eq_append, List.getLast?_concat]
    obtain ⟨hmem, hkey⟩ := mem_of_current hcurrent
    by_cases hid : last.id ∈ ids
    · have hgone : (live.filter fun c => c.key = key).filter (fun c => c.id ∉ ids) = [] := by
        refine List.filter_eq_nil_iff.mpr fun c hc => ?_
        obtain ⟨hc, hckey⟩ := List.mem_filter.mp hc
        have hcid := h last hmem (by rw [hkey]; exact hcurrent) hid c hc
          ((of_decide_eq_true hckey).trans hkey.symm)
        simpa using hcid
      rw [hgone, hcurrent]
      refine iff_of_false nofun ?_
      rintro ⟨heq, hch⟩
      obtain rfl := Option.some.inj heq
      exact hch hid
    · rw [hlast, List.concat_eq_append, List.filter_append,
        List.filter_cons_of_pos (by simpa using hid), List.filter_nil, List.getLast?_concat,
        hcurrent]
      refine ⟨fun heq => ⟨heq, ?_⟩, And.left⟩
      rw [← Option.some.inj heq]
      exact hid

/-- A connection and the number of sockets created for it. -/
structure World (L : Type) where
  conn : FoxgloveConnection L
  sockets : Nat

/-- Calls of the methods, the timer, and the events of a socket. -/
inductive Event (L : Type) where
  | start
  | stop
  | reconnect
  | subscribe (topic : String) (onMessage : L)
  | unsubscribe (key : String) (id : Nat)
  | setPaused (paused : Bool)
  | opened (socket : Nat)
  | closing (socket : Nat)
  | closed (socket : Nat)
  | received (socket : Nat) (frame : Frame)
  | message (socket : Nat) (buffer : List UInt8) (now : Nat)

namespace World

variable {L D : Type} (codec : Codec D)

def initial : World L := ⟨.create, 0⟩

/-- The handlers of a socket that is no longer in use do nothing. -/
def onSocket (w : World L) (socket : Nat) (f : Socket → Option (FoxgloveConnection L)) :
    Option (World L) :=
  match w.conn.ws with
  | none => some w
  | some ws => if ws.id ≠ socket then some w else (f ws).map fun conn => { w with conn := conn }

def step (w : World L) : Event L → Option (World L)
  | .start => some ⟨w.conn.start w.sockets, w.sockets + 1⟩
  | .stop => some { w with conn := w.conn.stop }
  | .reconnect =>
      if w.conn.reconnectTimer then some ⟨w.conn.reconnect w.sockets, w.sockets + 1⟩ else none
  | .subscribe topic onMessage => some { w with conn := w.conn.subscribe topic onMessage }
  | .unsubscribe key id => some { w with conn := w.conn.unsubscribe key id }
  | .setPaused paused => some { w with conn := w.conn.setPaused paused }
  | .opened socket => w.onSocket socket fun ws =>
      if ws.readyState = .connecting then
        some { w.conn with ws := some { ws with readyState := .open } }
      else none
  | .closing socket => w.onSocket socket fun ws =>
      some { w.conn with ws := some { ws with readyState := .closing } }
  | .closed socket => w.onSocket socket fun _ => some w.conn.onclose
  | .received socket frame => w.onSocket socket fun ws =>
      if ws.readyState = .open ∧ frame.Disciplined (liveChannels ws.frames) then
        some ((w.conn.log frame).handleText frame)
      else none
  | .message socket buffer now => w.onSocket socket fun ws =>
      if ws.readyState = .open then some (w.conn.handleBinary codec buffer now).1 else none

end World

end MgRobot.WebUi
