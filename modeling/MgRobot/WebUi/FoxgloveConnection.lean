import MgRobot.Lib.OrderedMap
import Mathlib.Algebra.Group.Nat.Defs

/-!
# FoxgloveConnection

The subscriptions of `foxgloveConnection.ts`: the listeners outlive a socket, and
`reconcile` makes the server's subscriptions follow them. The sockets come from
`createSocket`; each keeps the frames that have gone over it.
-/

namespace MgRobot.WebUi

set_option autoImplicit false

open MgRobot.Lib

structure AdvertisedSchema where
  encoding : String
  schemaName : String
  schema : String
  deriving DecidableEq, Repr

structure ServerChannel extends AdvertisedSchema where
  id : Nat
  topic : String
  deriving DecidableEq, Repr

def normalizeName (name : String) : String :=
  match name.toList with
  | '/' :: rest => String.ofList rest
  | _ => name

/-- The decoders that `codec.ts` calls, `none` where they throw. -/
structure Codec (D : Type) where
  raw : List UInt8 → D
  parseJson : List UInt8 → Option D
  reader : AdvertisedSchema → Option (List UInt8 → Option D)

def decodePayload {D : Type} (codec : Codec D) (payload : List UInt8)
    (schema : Option AdvertisedSchema) : D :=
  match schema with
  | none => codec.raw payload
  | some schema =>
      if schema.encoding = "json" then (codec.parseJson payload).getD (codec.raw payload)
      else if schema.encoding ≠ "cdr" then codec.raw payload
      else
        match codec.reader schema with
        | none => codec.raw payload
        | some readMessage => (readMessage payload).getD (codec.raw payload)

structure ServerSubscription where
  id : Nat
  channelId : Nat
  deriving DecidableEq, Repr

/-- The frames about channels and subscriptions, sent and received. -/
inductive Frame where
  | subscribe (subscriptions : List ServerSubscription)
  | unsubscribe (subscriptionIds : List Nat)
  | advertise (channels : List ServerChannel)
  | unadvertise (channelIds : List Nat)
  deriving DecidableEq, Repr

inductive ReadyState where
  | connecting
  | open
  | closing
  deriving DecidableEq, Repr

structure Socket where
  id : Nat
  readyState : ReadyState
  frames : List Frame
  deriving DecidableEq, Repr

structure Subscription where
  subId : Nat
  channel : ServerChannel
  deriving DecidableEq, Repr

/-- `L` is the type of the callbacks. -/
structure FoxgloveConnection (L : Type) where
  ws : Option Socket
  started : Bool
  reconnectTimer : Bool
  channels : OrderedMap String ServerChannel
  listeners : OrderedMap String (OrderedMap Nat L)
  active : OrderedMap String Subscription
  topicBySubId : OrderedMap Nat String
  lastMessageAt : OrderedMap String Nat
  paused : Bool
  listenerCounter : Nat
  subCounter : Nat

namespace FoxgloveConnection

variable {L : Type} (c : FoxgloveConnection L)

def create : FoxgloveConnection L where
  ws := none
  started := false
  reconnectTimer := false
  channels := .empty
  listeners := .empty
  active := .empty
  topicBySubId := .empty
  lastMessageAt := .empty
  paused := false
  listenerCounter := 0
  subCounter := 0

def isOpen : Bool := c.ws.any fun ws => ws.readyState = .open

/-- A frame goes over the socket. -/
def log (frame : Frame) : FoxgloveConnection L :=
  { c with ws := c.ws.map fun ws => { ws with frames := ws.frames ++ [frame] } }

def sendJson (frame : Frame) : FoxgloveConnection L := if c.isOpen then c.log frame else c

def subscribeServer (key : String) (channel : ServerChannel) : FoxgloveConnection L :=
  let subId := c.subCounter + 1
  sendJson
    { c with
      subCounter := subId
      active := c.active.set key ⟨subId, channel⟩
      topicBySubId := c.topicBySubId.set subId key }
    (.subscribe [⟨subId, channel.id⟩])

def unsubscribeServer (key : String) : FoxgloveConnection L :=
  match c.active.get? key with
  | none => c
  | some current =>
      sendJson
        { c with
          active := c.active.erase key
          topicBySubId := c.topicBySubId.erase current.subId }
        (.unsubscribe [current.subId])

/-- The number of listeners of a topic. -/
def size (key : String) : Nat :=
  match c.listeners.get? key with
  | none => 0
  | some listeners => listeners.entries.length

/-- The first loop of `reconcile`. -/
def reconcileListeners (key : String) (listeners : OrderedMap Nat L) : FoxgloveConnection L :=
  if c.paused || listeners.entries.length = 0 then c
  else
    match c.channels.get? key with
    | none => c
    | some channel =>
        match c.active.get? key with
        | none => c.subscribeServer key channel
        | some current =>
            if current.channel.id = channel.id then c
            else (c.unsubscribeServer key).subscribeServer key channel

/-- The second loop of `reconcile`. -/
def reconcileActive (key : String) : FoxgloveConnection L :=
  if c.paused || c.size key = 0 then c.unsubscribeServer key else c

def reconcile : FoxgloveConnection L :=
  if !c.isOpen then c
  else
    let c := c.listeners.entries.foldl (fun c e => c.reconcileListeners e.1 e.2) c
    c.active.keys.foldl reconcileActive c

/-- `subscribe`; what it returns calls `unsubscribe` with the key and the new id. -/
def subscribe (topic : String) (onMessage : L) : FoxgloveConnection L :=
  let key := normalizeName topic
  let id := c.listenerCounter + 1
  let topicListeners := (c.listeners.get? key).getD .empty
  reconcile
    { c with
      listenerCounter := id
      listeners := c.listeners.set key (topicListeners.set id onMessage) }

/-- The function that `subscribe` returns. -/
def unsubscribe (key : String) (id : Nat) : FoxgloveConnection L :=
  match c.listeners.get? key with
  | none => c
  | some current =>
      if id ∉ current.keys then c
      else
        let current := current.erase id
        reconcile
          { c with
            listeners :=
              if current.entries.length = 0 then c.listeners.erase key
              else c.listeners.set key current }

def setPaused (paused : Bool) : FoxgloveConnection L :=
  if c.paused = paused then c else reconcile { c with paused := paused }

def resetConnectionState : FoxgloveConnection L :=
  { c with channels := .empty, active := .empty, topicBySubId := .empty }

/-- `socket` is the number of the socket that `createSocket` returns. -/
def connect (socket : Nat) : FoxgloveConnection L :=
  if !c.started then c else { c with ws := some ⟨socket, .connecting, []⟩ }

def start (socket : Nat) : FoxgloveConnection L :=
  if c.started then c else connect { c with started := true } socket

def stop : FoxgloveConnection L :=
  resetConnectionState { c with started := false, reconnectTimer := false, ws := none }

/-- The reconnect timer fires. -/
def reconnect (socket : Nat) : FoxgloveConnection L :=
  connect { c with reconnectTimer := false } socket

/-- `onclose` of the socket in use. -/
def onclose : FoxgloveConnection L :=
  let c := resetConnectionState { c with ws := none }
  if c.started then { c with reconnectTimer := true } else c

def advertise (channels : List ServerChannel) : FoxgloveConnection L :=
  reconcile
    { c with
      channels := channels.foldl (fun m ch => m.set (normalizeName ch.topic) ch) c.channels }

def removeChannels (channelIds : List Nat) : FoxgloveConnection L :=
  let removed (sub : Subscription) : Bool := sub.channel.id ∈ channelIds
  { c with
    channels := c.channels.eraseIf fun _ ch => ch.id ∈ channelIds
    active := c.active.eraseIf fun _ sub => removed sub
    topicBySubId :=
      ((c.active.entries.filter fun e => removed e.2).map fun e => e.2.subId).foldl
        OrderedMap.erase c.topicBySubId }

/-- `handleText` for the frames about channels. -/
def handleText : Frame → FoxgloveConnection L
  | .advertise channels => c.advertise channels
  | .unadvertise channelIds => c.removeChannels channelIds
  | .subscribe _ | .unsubscribe _ => c

def getUint32 (buffer : List UInt8) (offset : Nat) : Option Nat :=
  match buffer.drop offset with
  | b₀ :: b₁ :: b₂ :: b₃ :: _ =>
      some (b₀.toNat + 2 ^ 8 * b₁.toNat + 2 ^ 16 * b₂.toNat + 2 ^ 24 * b₃.toNat)
  | _ => none

/-- A callback is called. -/
structure Delivery (L D : Type) where
  id : Nat
  listener : L
  data : D
  deriving DecidableEq, Repr

/-- `handleBinary` for message data: the callbacks called, in order. -/
def handleBinary {D : Type} (codec : Codec D) (buffer : List UInt8) (now : Nat) :
    FoxgloveConnection L × List (Delivery L D) :=
  if buffer.head? ≠ some 1 then (c, [])
  else
    match (getUint32 buffer 1).bind c.topicBySubId.get? with
    | none => (c, [])
    | some topic =>
        match c.listeners.get? topic, c.active.get? topic with
        | some listeners, some ⟨_, channel⟩ =>
            if listeners.entries.length = 0 then (c, [])
            else
              let decoded := decodePayload codec (buffer.drop 13) (some channel.toAdvertisedSchema)
              ({ c with lastMessageAt := c.lastMessageAt.set topic now },
                listeners.entries.map fun e => ⟨e.1, e.2, decoded⟩)
        | _, _ => (c, [])

end FoxgloveConnection

end MgRobot.WebUi
