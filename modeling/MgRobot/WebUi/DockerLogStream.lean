import MgRobot.Lib.CodeUnits
import MgRobot.Lib.Runs
import Mathlib.Data.List.Sort

/-!
# DockerLogStream

The hook `useDockerLogStream` and every socket it has made. A run of its connection
effect closes over the base URL of that run, and so do the handlers of its sockets and
its timer; the refs are shared by all runs. The ready state of a socket follows the
events that it fires and the calls of `close`.
-/

namespace MgRobot.WebUi

set_option autoImplicit false

open MgRobot.Lib

/-- What a row of the panel shows; `id` is its key. -/
structure LogLine where
  id : Nat
  service : String
  line : String
  deriving DecidableEq, Repr

/-- An entry as the server sends it, `none` for what is not a string. -/
structure StreamEntry where
  service : Option String
  line : Option String
  error : Bool
  deriving DecidableEq, Repr

structure StreamBatch where
  entries : Option (List StreamEntry)
  deriving DecidableEq, Repr

/-- `failed` is between the error event and the close event; `readyState` is `CLOSED` there. -/
inductive LogSocketState where
  | connecting
  | open
  | closing
  | failed
  | closed
  deriving DecidableEq, Repr

/-- `baseUrl` is the one of the effect run that made the socket; `sent` are the lists of
services that went over it. -/
structure LogSocket where
  baseUrl : String
  state : LogSocketState
  sent : List (List String)
  deriving DecidableEq, Repr

/-- `baseUrl.replace(/^http/, "ws") + "/logs/stream"`. -/
def streamUrl (baseUrl : String) : String :=
  let url :=
    match baseUrl.toList with
    | 'h' :: 't' :: 't' :: 'p' :: rest => String.ofList ('w' :: 's' :: rest)
    | _ => baseUrl
  url ++ "/logs/stream"

namespace LogSocket

variable (ws : LogSocket)

def url : String := streamUrl ws.baseUrl

/-- Neither closed nor failed: `onmessage` has no condition of its own, so what such a
socket brings, now or once it is open, is taken in. -/
def accepting : Bool := ws.state = .connecting || ws.state = .open

/-- `close()`. -/
def close : LogSocket := if ws.accepting then { ws with state := .closing } else ws

def send (services : List String) : LogSocket := { ws with sent := ws.sent ++ [services] }

end LogSocket

/-- The order of `sort()`: by UTF-16 code units. -/
def codeUnitsLe : List UInt16 → List UInt16 → Bool
  | [], _ => true
  | _ :: _, [] => false
  | x :: xs, y :: ys => x < y || (x == y && codeUnitsLe xs ys)

def servicePayload (subscribedServices : List String) : List String :=
  subscribedServices.insertionSort fun a b =>
    codeUnitsLe (utf16.text a.toList) (utf16.text b.toList)

/-- The same services, each as often as before. -/
theorem servicePayload_perm (subscribedServices : List String) :
    (servicePayload subscribedServices).Perm subscribedServices :=
  List.perm_insertionSort _ _

/-- The props, the state and the refs of the hook; `ws` and `reconnectTimer` are
`wsRef.current`, as a position in `sockets`, and `reconnectTimerRef.current`, as the base
URL of the effect run that set the timer. -/
structure DockerLogStream where
  subscribedServices : List String
  baseUrl : String
  entries : List LogLine
  connected : Bool
  ws : Option Nat
  reconnectTimer : Option String
  flushTimer : Bool
  pending : List LogLine
  mounted : Bool
  lastServices : List String
  entryId : Nat
  sockets : List LogSocket
  deriving DecidableEq, Repr

def maxLogEntries : Nat := 500

namespace DockerLogStream

variable (s : DockerLogStream)

/-- The socket in `wsRef`. -/
def socket? : Option LogSocket := s.ws.bind fun i => s.sockets[i]?

def isOpen : Bool := s.socket?.any fun ws => ws.state = .open

def isConnecting : Bool := s.socket?.any fun ws => ws.state = .connecting

/-- Something happens to the `i`-th socket. -/
def onSocket (i : Nat) (f : LogSocket → LogSocket) : DockerLogStream :=
  { s with sockets := s.sockets.modify i f }

def clear : DockerLogStream := { s with pending := [], entries := [] }

def flushPending : DockerLogStream :=
  if s.pending.length = 0 then s
  else
    let all := s.entries ++ s.pending
    { s with pending := [], entries := all.drop (all.length - maxLogEntries) }

/-- `ws.send` on the socket in `wsRef`, if that is open. -/
def send (services : List String) : DockerLogStream :=
  match s.ws with
  | none => s
  | some i => if s.isOpen then s.onSocket i fun ws => ws.send services else s

def sendServices : DockerLogStream := s.send s.lastServices

/-- `scheduleReconnect` of the effect run with this base URL. -/
def scheduleReconnect (baseUrl : String) : DockerLogStream :=
  if !s.mounted || s.reconnectTimer.isSome then s else { s with reconnectTimer := some baseUrl }

/-- `connect` of the effect run with this base URL. -/
def connect (baseUrl : String) : DockerLogStream :=
  if !s.mounted then s
  else if s.isOpen then s
  else
    { s with
      ws := some s.sockets.length
      sockets := s.sockets ++ [⟨baseUrl, .connecting, []⟩] }

/-- `onopen` of the `i`-th socket. -/
def onopen (i : Nat) : DockerLogStream :=
  if !s.mounted then s.onSocket i LogSocket.close else sendServices { s with connected := true }

/-- The body of the loop of `onmessage`. -/
def pushEntry (entry : StreamEntry) : DockerLogStream :=
  if entry.error then s
  else
    match entry.service, entry.line with
    | some service, some line =>
        { s with
          pending := s.pending ++ [⟨s.entryId + 1, service, line⟩]
          entryId := s.entryId + 1 }
    | _, _ => s

/-- `onmessage`; the batch is `none` where `JSON.parse` throws. -/
def onmessage (batch : Option StreamBatch) : DockerLogStream :=
  match batch with
  | none => s
  | some batch => (batch.entries.getD []).foldl pushEntry s

/-- `onclose` of the `i`-th socket, which was made with this base URL. -/
def onclose (i : Nat) (baseUrl : String) : DockerLogStream :=
  scheduleReconnect
    { s with
      ws := if s.ws = some i then none else s.ws
      connected := false }
    baseUrl

def onerror : DockerLogStream := { s with connected := false }

/-- The connection effect. -/
def effect : DockerLogStream :=
  { connect { s with mounted := true } s.baseUrl with flushTimer := true }

/-- What the connection effect returns. -/
def cleanup : DockerLogStream :=
  let s' := { s with
    mounted := false
    reconnectTimer := none
    flushTimer := false
    ws := none
    connected := false }
  match s.ws with
  | none => s'
  | some i => s'.onSocket i LogSocket.close

/-- The effect of `servicePayload`. -/
def servicesEffect (subscribedServices : List String) : DockerLogStream :=
  let payload := servicePayload subscribedServices
  send { s with subscribedServices := subscribedServices, lastServices := payload } payload

/-- The hook before its effects have run. -/
def initial (baseUrl : String) : DockerLogStream where
  subscribedServices := []
  baseUrl := baseUrl
  entries := []
  connected := false
  ws := none
  reconnectTimer := none
  flushTimer := false
  pending := []
  mounted := false
  lastServices := []
  entryId := 0
  sockets := []

/-- The hook after the commit that mounts it. -/
def mount (baseUrl : String) (subscribedServices : List String) : DockerLogStream :=
  (initial baseUrl).effect.servicesEffect subscribedServices

/-- The timer goes off. -/
def reconnect : Option DockerLogStream :=
  s.reconnectTimer.map fun baseUrl => connect { s with reconnectTimer := none } baseUrl

/-- An event of the `i`-th socket: it changes the state of the socket from one of `before`
and calls the handler. -/
def fire (i : Nat) (before : List LogSocketState) (state : LogSocketState)
    (handler : LogSocket → DockerLogStream → DockerLogStream) : Option DockerLogStream :=
  match s.sockets[i]? with
  | none => none
  | some ws =>
      if ws.state ∈ before then
        some (handler ws (s.onSocket i fun ws => { ws with state := state }))
      else none

inductive Event where
  | baseUrlChanged (baseUrl : String)
  | servicesChanged (subscribedServices : List String)
  | unmount
  | reconnect
  | flush
  | clear
  | opened (socket : Nat)
  | received (socket : Nat) (batch : Option StreamBatch)
  | errored (socket : Nat)
  | closed (socket : Nat)
  deriving DecidableEq, Repr

/-- A close event is the last one of its socket, also of one that the hook has closed. -/
def step : Event → Option DockerLogStream
  | .baseUrlChanged baseUrl =>
      if !s.mounted then none
      else if baseUrl = s.baseUrl then some s
      else some (effect { s.cleanup with baseUrl := baseUrl })
  | .servicesChanged subscribedServices =>
      if !s.mounted then none else some (s.servicesEffect subscribedServices)
  | .unmount => if !s.mounted then none else some s.cleanup
  | .reconnect => s.reconnect
  | .flush => if s.flushTimer then some s.flushPending else none
  | .clear => some s.clear
  | .opened i => s.fire i [.connecting] .open fun _ s => s.onopen i
  | .received i batch => s.fire i [.open] .open fun _ s => s.onmessage batch
  | .errored i => s.fire i [.connecting, .open, .closing] .failed fun _ s => s.onerror
  | .closed i =>
      s.fire i [.connecting, .open, .closing, .failed] .closed fun ws s => s.onclose i ws.baseUrl

/-- What is to hold of the sockets, the URL, the service list and `connected`. -/
structure OneSocket : Prop where
  atMostOne : (s.sockets.filter LogSocket.accepting).length ≤ 1
  current : ∀ ws ∈ s.sockets, ws.accepting = true → ws.url = streamUrl s.baseUrl
  informed : ∀ ws ∈ s.sockets, ws.state = .open →
    ws.sent.getLast? = some (servicePayload s.subscribedServices)
  connected : s.connected = true → ∃ ws ∈ s.sockets, ws.state = .open

end DockerLogStream

end MgRobot.WebUi
