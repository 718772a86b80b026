import MgRobot.Lib.Runs
import MgRobot.WebUi.FoxgloveConnection

/-!
# The service calls of a connection

`callService` of `foxgloveConnection.ts` and the four ways in which its promise is
settled: a response, a failure, the timer of the call, and the end of the connection.
-/

namespace MgRobot.WebUi

set_option autoImplicit false

open MgRobot.Lib

inductive ConnectionStatus where
  | connecting
  | connected
  | disconnected
  | error
  deriving DecidableEq, Repr

def ConnectionStatus.text : ConnectionStatus → String
  | .connecting => "connecting"
  | .connected => "connected"
  | .disconnected => "disconnected"
  | .error => "error"

/-- With the encoders that `codec.ts` calls, an error where they throw. -/
structure CallCodec (P D : Type) extends Codec D where
  stringify : P → Except String (List UInt8)
  writer : AdvertisedSchema → Option (P → Except String (List UInt8))
  /-- `TextDecoder`. -/
  decodeText : List UInt8 → String

def encodePayload {P D : Type} (codec : CallCodec P D) (data : P) :
    Option AdvertisedSchema → Except String (List UInt8)
  | none => codec.stringify data
  | some schema =>
      if schema.encoding = "json" then codec.stringify data
      else
        match codec.writer schema with
        | none => .error ("cannot build a message writer for " ++ schema.schemaName)
        | some writeMessage => writeMessage data

/-- A codec that decodes nothing. -/
def rawCodec : CallCodec Unit (List UInt8) where
  raw payload := payload
  parseJson _ := none
  reader _ := none
  stringify _ := .ok []
  writer _ := none
  decodeText _ := "json"

/-- `setUint32`, which keeps the lowest 32 bits. -/
def setUint32 (value : Nat) : List UInt8 :=
  [.ofNat value, .ofNat (value / 2 ^ 8), .ofNat (value / 2 ^ 16), .ofNat (value / 2 ^ 24)]

structure ServiceInfo where
  id : Nat
  request : Option AdvertisedSchema
  response : Option AdvertisedSchema
  deriving DecidableEq, Repr

/-- `resolve` and `reject` are those of a promise; a timer is known by the call that sets it. -/
structure PendingCall where
  promise : Nat
  response : Option AdvertisedSchema
  timer : Nat
  deriving DecidableEq, Repr

inductive Outcome (D : Type) where
  | resolved (value : D)
  | rejected (message : String)
  deriving DecidableEq, Repr

structure AdvertisedService extends ServiceInfo where
  name : String
  deriving DecidableEq, Repr

/-- The text frames about services. -/
inductive ServiceFrame where
  | advertiseServices (services : List AdvertisedService)
  | unadvertiseServices (serviceIds : List Nat)
  | serviceCallFailure (callId : Nat) (message : String)
  deriving DecidableEq, Repr

structure SocketState where
  id : Nat
  readyState : ReadyState
  deriving DecidableEq, Repr

/-- The part of a `FoxgloveConnection` that calls services. -/
structure CallConnection where
  ws : Option SocketState
  started : Bool
  reconnectTimer : Bool
  statusValue : ConnectionStatus
  services : OrderedMap String ServiceInfo
  pendingCalls : OrderedMap Nat PendingCall
  callCounter : Nat

/-- What a handler does besides: the timers it clears and the promises it settles. -/
structure Handled (D : Type) where
  conn : CallConnection
  cleared : List Nat
  settled : List (Nat × Outcome D)

namespace CallConnection

variable {P D : Type} (codec : CallCodec P D) (c : CallConnection)

def create : CallConnection where
  ws := none
  started := false
  reconnectTimer := false
  statusValue := .connecting
  services := .empty
  pendingCalls := .empty
  callCounter := 0

def isOpen : Bool := c.ws.any fun ws => ws.readyState = .open

/-- The handler only changes the connection. -/
def quiet : Handled D := ⟨c, [], []⟩

def serviceCallRequest (serviceId callId : Nat) (encoding payload : List UInt8) : List UInt8 :=
  [2] ++ setUint32 serviceId ++ setUint32 callId ++ setUint32 encoding.length ++ encoding ++ payload

/-- `callService`: the reason for a rejection, or the frame that is sent. -/
def callService (service : String) (payload : P) (promise : Nat) :
    Except String (CallConnection × PendingCall × List UInt8) :=
  if !c.isOpen then .error ("not connected (status: " ++ c.statusValue.text ++ ")")
  else
    match c.services.get? (normalizeName service) with
    | none =>
        .error ("service not found: " ++ service ++ " (status: " ++ c.statusValue.text ++ ")")
    | some info =>
        match encodePayload codec payload info.request with
        | .error e => .error e
        | .ok payloadBytes =>
            let callId := c.callCounter + 1
            let call : PendingCall := ⟨promise, info.response, callId⟩
            let encoding := (info.request.map AdvertisedSchema.encoding).getD "json"
            .ok ({ c with callCounter := callId, pendingCalls := c.pendingCalls.set callId call },
              call, serviceCallRequest info.id callId encoding.toUTF8.data.toList payloadBytes)

/-- The timer of a call fires. -/
def onTimeout (callId : Nat) : Handled D :=
  match c.pendingCalls.get? callId with
  | none => c.quiet
  | some call =>
      ⟨{ c with pendingCalls := c.pendingCalls.erase callId }, [],
        [(call.promise, .rejected "service call timed out")]⟩

/-- `takePending`, and what is then done with the call. -/
def takePending (callId : Nat) (settle : PendingCall → Option (Outcome D)) : Handled D :=
  match c.pendingCalls.get? callId with
  | none => c.quiet
  | some call =>
      ⟨{ c with pendingCalls := c.pendingCalls.erase callId }, [call.timer],
        ((settle call).map fun outcome => (call.promise, outcome)).toList⟩

def handleText : ServiceFrame → Handled D
  | .advertiseServices services =>
      quiet { c with
        services := services.foldl
          (fun m svc => m.set (normalizeName svc.name) svc.toServiceInfo) c.services }
  | .unadvertiseServices serviceIds =>
      quiet { c with services := c.services.eraseIf fun _ info => info.id ∈ serviceIds }
  | .serviceCallFailure callId message =>
      c.takePending callId fun _ => some (.rejected message)

/-- The end of `handleBinary`, where the length of the encoding cannot be read if the frame is cut
short. -/
def decodeResponse (buffer : List UInt8) (response : Option AdvertisedSchema) :
    Option (Outcome D) :=
  (FoxgloveConnection.getUint32 buffer 9).map fun encodingLength =>
    let encoding := codec.decodeText ((buffer.drop 13).take encodingLength)
    .resolved (decodePayload codec.toCodec (buffer.drop (13 + encodingLength))
      (response.map fun schema => { schema with encoding := encoding }))

/-- `handleBinary` for a service response. -/
def handleBinary (buffer : List UInt8) : Handled D :=
  if buffer.head? ≠ some 3 then c.quiet
  else
    match FoxgloveConnection.getUint32 buffer 5 with
    | none => c.quiet
    | some callId => c.takePending callId fun call => decodeResponse codec buffer call.response

def resetConnectionState : Handled D :=
  let calls := c.pendingCalls.entries.map Prod.snd
  ⟨{ c with services := .empty, pendingCalls := .empty }, calls.map PendingCall.timer,
    calls.map fun call => (call.promise, .rejected "connection closed")⟩

/-- `socket` is the number of the socket that `createSocket` returns. -/
def connect (socket : Nat) : CallConnection :=
  if !c.started then c else { c with ws := some ⟨socket, .connecting⟩ }

def start (socket : Nat) : CallConnection :=
  if c.started then c else connect { c with started := true } socket

def stop : Handled D :=
  resetConnectionState { c with started := false, reconnectTimer := false, ws := none }

/-- The reconnect timer fires. -/
def reconnect (socket : Nat) : CallConnection := connect { c with reconnectTimer := false } socket

/-- `onclose` of the socket in use. -/
def onclose : Handled D :=
  let handled := resetConnectionState { c with ws := none }
  let c := { handled.conn with statusValue := .disconnected }
  { handled with conn := if c.started then { c with reconnectTimer := true } else c }

/-- The server reads the id of a call in its request, as long as ids have 32 bits. -/
theorem getUint32_serviceCallRequest (serviceId callId : Nat) (encoding payload : List UInt8) :
    FoxgloveConnection.getUint32 (serviceCallRequest serviceId callId encoding payload) 5 =
      some (callId % 2 ^ 32) := by
  have hdrop : (serviceCallRequest serviceId callId encoding payload).drop 5 =
      setUint32 callId ++ (setUint32 encoding.length ++ encoding ++ payload) := by
    simp [serviceCallRequest, setUint32]
  rw [FoxgloveConnection.getUint32, hdrop]
  simp only [setUint32, List.cons_append, UInt8.toNat_ofNat']
  congr 1
  omega

end CallConnection

/-- A service response that can be read to the end of its header. -/
def WellFormed (buffer : List UInt8) : Bool := buffer.head? ≠ some 3 || 13 ≤ buffer.length

/-- A request that went over a socket. -/
structure SentCall where
  id : Nat
  promise : Nat
  response : Option AdvertisedSchema
  socket : Nat
  frame : List UInt8
  deriving DecidableEq, Repr

/-- The connection with the timers that are set, and what has happened to its calls. -/
structure CallWorld (D : Type) where
  conn : CallConnection
  sockets : Nat
  timers : List Nat
  promises : Nat
  sent : List SentCall
  settled : List (Nat × Outcome D)

inductive CallEvent (P : Type) where
  | start
  | stop
  | reconnect
  | opened (socket : Nat)
  | failed (socket : Nat)
  | closing (socket : Nat)
  | closed (socket : Nat)
  | text (socket : Nat) (frame : ServiceFrame)
  | binary (socket : Nat) (buffer : List UInt8)
  | callService (service : String) (payload : P)
  | timeout (callId : Nat)

/-- What an event means for a call that waits: a frame counts only if it bears the id of the call
and came over its socket. -/
def CallEvent.outcomeFor {P D : Type} (codec : CallCodec P D) (id : Nat)
    (response : Option AdvertisedSchema) (socket : Nat) : CallEvent P → Option (Outcome D)
  | .binary socket' buffer =>
      if socket' = socket ∧ buffer.head? = some 3 ∧
          FoxgloveConnection.getUint32 buffer 5 = some id then
        CallConnection.decodeResponse codec buffer response
      else none
  | .text socket' (.serviceCallFailure callId message) =>
      if socket' = socket ∧ callId = id then some (.rejected message) else none
  | .timeout callId => if callId = id then some (.rejected "service call timed out") else none
  | .closed socket' => if socket' = socket then some (.rejected "connection closed") else none
  | .stop => some (.rejected "connection closed")
  | _ => none

namespace CallWorld

variable {P D : Type} (codec : CallCodec P D) (w : CallWorld D)

def initial : CallWorld D := ⟨.create, 0, [], 0, [], []⟩

def commit (h : Handled D) : CallWorld D :=
  { w with
    conn := h.conn
    timers := w.timers.filter fun timer => timer ∉ h.cleared
    settled := w.settled ++ h.settled }

/-- The handlers of a socket that is no longer in use do nothing. -/
def onSocket (socket : Nat) (f : SocketState → Handled D) : CallWorld D :=
  match w.conn.ws with
  | none => w
  | some ws => if ws.id ≠ socket then w else w.commit (f ws)

def callService (service : String) (payload : P) : CallWorld D :=
  match w.conn.callService codec service payload w.promises with
  | .error message =>
      { w with promises := w.promises + 1, settled := w.settled ++ [(w.promises, .rejected message)] }
  | .ok (conn, call, frame) =>
      { w with
        conn := conn
        promises := w.promises + 1
        timers := w.timers ++ [call.timer]
        sent := w.sent ++
          [⟨conn.callCounter, call.promise, call.response, (conn.ws.map SocketState.id).getD 0,
            frame⟩] }

def step : CallEvent P → Option (CallWorld D)
  | .start => some { w with conn := w.conn.start w.sockets, sockets := w.sockets + 1 }
  | .stop => some (w.commit w.conn.stop)
  | .reconnect =>
      if w.conn.reconnectTimer then
        some { w with conn := w.conn.reconnect w.sockets, sockets := w.sockets + 1 }
      else none
  | .opened socket =>
      if w.conn.ws.any fun ws => ws.id = socket ∧ ws.readyState ≠ .connecting then none
      else some <| w.onSocket socket fun ws => CallConnection.quiet
        { w.conn with ws := some { ws with readyState := .open }, statusValue := .connected }
  | .failed socket => some <| w.onSocket socket fun _ => CallConnection.quiet
      { w.conn with statusValue := .error }
  | .closing socket => some <| w.onSocket socket fun ws => CallConnection.quiet
      { w.conn with ws := some { ws with readyState := .closing } }
  | .closed socket => some <| w.onSocket socket fun _ => w.conn.onclose
  | .text socket frame => some <| w.onSocket socket fun _ => w.conn.handleText frame
  | .binary socket buffer =>
      if WellFormed buffer then
        some <| w.onSocket socket fun _ => w.conn.handleBinary codec buffer
      else none
  | .callService service payload => some (w.callService codec service payload)
  | .timeout callId =>
      if callId ∈ w.timers then
        some (commit { w with timers := w.timers.filter fun timer => timer ≠ callId }
          (w.conn.onTimeout callId))
      else none

/-- The outcomes that a promise was settled with. -/
def outcomesOf (promise : Nat) : List (Outcome D) :=
  (w.settled.filter fun s => s.1 = promise).map Prod.snd

end CallWorld

end MgRobot.WebUi
