import MgRobot.WebUi.ServiceCalls

/-!
# The client channels of a connection

`advertise` and `publish` of `foxgloveConnection.ts`. A topic that is published for the
first time gets a channel; until that is ready its messages wait in a queue, which a timer
sends.
-/

namespace MgRobot.WebUi

set_option autoImplicit false

open MgRobot.Lib

structure ClientChannel where
  id : Nat
  schema : Option AdvertisedSchema
  readyAt : Nat
  queue : List (List UInt8)
  flushTimer : Bool
  deriving DecidableEq, Repr

/-- A timer that `scheduleFlush` has set, with what its function has captured. -/
structure FlushTimer where
  topic : String
  channelId : Nat
  due : Nat
  deriving DecidableEq, Repr

structure ExplicitPublisher where
  schemaName : String
  count : Nat
  deriving DecidableEq, Repr

/-- The frames about client channels. -/
inductive ClientFrame where
  | advertise (id : Nat) (topic encoding schemaName : String)
  | unadvertise (id : Nat)
  | data (id : Nat) (payload : List UInt8)
  deriving DecidableEq, Repr

structure PublishOptions where
  publisherWarmupMs : Nat
  clientSchemas : String → Option AdvertisedSchema

/-- The part of a `FoxgloveConnection` that publishes, with its timers and the frames it has sent,
each with the time. `channels` are the values of the map. -/
structure PublishConnection where
  ws : Option ReadyState
  channels : List ServerChannel
  clientChannels : OrderedMap String ClientChannel
  explicitPublishers : OrderedMap String ExplicitPublisher
  clientChannelCounter : Nat
  timers : List FlushTimer
  frames : List (Nat × ClientFrame)

namespace PublishConnection

variable {P D : Type} (codec : CallCodec P D) (options : PublishOptions) (c : PublishConnection)
  (now : Nat) (topic : String)

def create : PublishConnection := ⟨none, [], .empty, .empty, 0, [], []⟩

def isOpen : Bool := c.ws = some .open

def send (frame : ClientFrame) : PublishConnection :=
  { c with frames := c.frames ++ [(now, frame)] }

def sendJson (frame : ClientFrame) : PublishConnection :=
  if c.isOpen then c.send now frame else c

def sendClientMessage (channel : ClientChannel) (payload : List UInt8) : PublishConnection :=
  if !c.isOpen then c else c.send now (.data channel.id payload)

def clearTimeout (channel : ClientChannel) : PublishConnection :=
  if channel.flushTimer then
    { c with timers := c.timers.filter fun timer => timer.channelId ≠ channel.id }
  else c

def getMessageSchema (schemaName : String) : Option AdvertisedSchema :=
  match options.clientSchemas schemaName with
  | some known => some known
  | none =>
      (c.channels.find? fun ch =>
        ch.schemaName = schemaName ∧ ch.encoding = "cdr" ∧ ch.schema ≠ "").map
          ServerChannel.toAdvertisedSchema

/-- The channel that `openClientChannel` makes. -/
def newChannel (schemaName : String) : ClientChannel where
  id := c.clientChannelCounter + 1
  schema := c.getMessageSchema options schemaName
  readyAt := now + options.publisherWarmupMs
  queue := []
  flushTimer := false

def openClientChannel (schemaName : String) : PublishConnection :=
  let channel := c.newChannel options now schemaName
  sendJson
    { c with
      clientChannelCounter := channel.id
      clientChannels := c.clientChannels.set topic channel }
    now (.advertise channel.id topic ((channel.schema.map AdvertisedSchema.encoding).getD "json")
      schemaName)

def closeClientChannel : PublishConnection :=
  match c.clientChannels.get? topic with
  | none => c
  | some channel =>
      let c := c.clearTimeout channel
      sendJson { c with clientChannels := c.clientChannels.erase topic } now (.unadvertise channel.id)

/-- The delay is what is left until `readyAt`. -/
def scheduleFlush (channel : ClientChannel) : PublishConnection :=
  if channel.flushTimer then c
  else
    { c with
      clientChannels := c.clientChannels.set topic { channel with flushTimer := true }
      timers := c.timers ++ [⟨topic, channel.id, now + (channel.readyAt - now)⟩] }

/-- The function of a timer. -/
def onFlush (timer : FlushTimer) : PublishConnection :=
  let c := { c with timers := c.timers.filter fun t => t ≠ timer }
  match c.clientChannels.get? timer.topic with
  | none => c
  | some channel =>
      if channel.id ≠ timer.channelId then c
      else
        channel.queue.foldl (fun c payload => c.sendClientMessage now channel payload)
          { c with
            clientChannels :=
              c.clientChannels.set timer.topic { channel with queue := [], flushTimer := false } }

def advertise (schemaName : String) : PublishConnection :=
  match c.explicitPublishers.get? topic with
  | some entry =>
      { c with
        explicitPublishers := c.explicitPublishers.set topic { entry with count := entry.count + 1 } }
  | none =>
      let c := { c with explicitPublishers := c.explicitPublishers.set topic ⟨schemaName, 1⟩ }
      if c.isOpen ∧ topic ∉ c.clientChannels.keys then
        c.openClientChannel options now topic schemaName
      else c

/-- The function that `advertise` returns. -/
def release : PublishConnection :=
  match c.explicitPublishers.get? topic with
  | none => c
  | some current =>
      if 0 < current.count - 1 then
        { c with
          explicitPublishers :=
            c.explicitPublishers.set topic { current with count := current.count - 1 } }
      else
        closeClientChannel { c with explicitPublishers := c.explicitPublishers.erase topic } now topic

/-- A message goes to its channel: to the queue, or over the socket. -/
def publishOn (channel : ClientChannel) (bytes : List UInt8) : PublishConnection :=
  if channel.queue ≠ [] ∨ now < channel.readyAt then
    let channel := { channel with queue := channel.queue ++ [bytes] }
    scheduleFlush { c with clientChannels := c.clientChannels.set topic channel } now topic channel
  else c.sendClientMessage now channel bytes

/-- `publish`, with the id of the channel and the bytes if it does not throw. -/
def publish (schemaName : String) (data : P) : PublishConnection × Option (Nat × List UInt8) :=
  if !c.isOpen then (c, none)
  else
    let c := if topic ∈ c.clientChannels.keys then c else
      c.openClientChannel options now topic schemaName
    match c.clientChannels.get? topic with
    | none => (c, none)
    | some channel =>
        match encodePayload codec data channel.schema with
        | .error _ => (c, none)
        | .ok bytes => (c.publishOn now topic channel bytes, some (channel.id, bytes))

/-- `onopen`. -/
def onopen : PublishConnection :=
  c.explicitPublishers.entries.foldl
    (fun c e => c.openClientChannel options now e.1 e.2.schemaName) { c with ws := some .open }

/-- `resetConnectionState`, when the socket has closed or is given up. -/
def reset : PublishConnection :=
  let channels := c.clientChannels.entries.map Prod.snd
  { channels.foldl clearTimeout c with ws := none, channels := [], clientChannels := .empty }

end PublishConnection

/-- `published` are the messages that `publish` has accepted, each with its channel. -/
structure PublishWorld where
  conn : PublishConnection
  now : Nat
  advertisements : OrderedMap Nat String
  nextAdvertisement : Nat
  published : List (Nat × List UInt8)

inductive PublishEvent (P : Type) where
  | tick (ms : Nat)
  | connect
  | opened
  | closing
  | closed
  | serverChannels (channels : List ServerChannel)
  | advertise (topic schemaName : String)
  | release (advertisement : Nat)
  | publish (topic schemaName : String) (data : P)
  | flush (timer : FlushTimer)

namespace PublishWorld

variable {P D : Type} (codec : CallCodec P D) (options : PublishOptions) (w : PublishWorld)

def initial : PublishWorld := ⟨.create, 0, .empty, 0, []⟩

/-- An advertisement is released once; a timer fires when it is due. -/
def step : PublishEvent P → Option PublishWorld
  | .tick ms => some { w with now := w.now + ms }
  | .connect =>
      if w.conn.ws = none then some { w with conn := { w.conn with ws := some .connecting } } else none
  | .opened =>
      if w.conn.ws = some .connecting then some { w with conn := w.conn.onopen options w.now }
      else none
  | .closing =>
      if w.conn.ws = none then none
      else some { w with conn := { w.conn with ws := some .closing } }
  | .closed => some { w with conn := w.conn.reset }
  | .serverChannels channels => some { w with conn := { w.conn with channels := channels } }
  | .advertise topic schemaName =>
      some { w with
        conn := w.conn.advertise options w.now topic schemaName
        advertisements := w.advertisements.set w.nextAdvertisement topic
        nextAdvertisement := w.nextAdvertisement + 1 }
  | .release advertisement =>
      (w.advertisements.get? advertisement).map fun topic => { w with
        conn := w.conn.release w.now topic
        advertisements := w.advertisements.erase advertisement }
  | .publish topic schemaName data =>
      let (conn, accepted) := w.conn.publish codec options w.now topic schemaName data
      some { w with conn := conn, published := w.published ++ accepted.toList }
  | .flush timer =>
      if timer ∈ w.conn.timers ∧ timer.due ≤ w.now then
        some { w with conn := w.conn.onFlush w.now timer }
      else none

end PublishWorld

end MgRobot.WebUi
