import LighterApi.Source.Json

/-!
The WebSocket session: lighter_ws_session.cpp:60-560. Callers on any thread change the
topic lists under the lock and post handlers to the strand; the strand runs one handler
at a time, a posted one or the completion of an outstanding operation, in any order and
with any outcome. A completion that was cancelled may still be queued with success, so
operations stay outstanding until they complete. A handler changes the topic lists in
one locked section, so that what a caller does to them meanwhile falls before or after
it; a flush that throws into a read is taken together with the error handling it ends
in. Of `lastActivity` only the verdict of the watchdog is kept, and of the consumer of
data messages nothing. The trace, newest event first, only records; no step reads it.
-/
namespace LighterApi.Source.WsSession

def reconnectDelayMaxInS : Nat := 30

/-- The payload of a text message to the venue. -/
inductive Frame where
  | subscribe (channel : String) (auth : Option String)
  | unsubscribe (channel : String)
  | ping
  | pong
  deriving DecidableEq, Repr

/-- Outstanding asynchronous operations, by generation. -/
inductive Op where
  | resolve (gen : Nat)
  | connect (gen : Nat)
  | tlsHandshake (gen : Nat)
  | wsHandshake (gen : Nat)
  | read (gen : Nat)
  | write (gen : Nat) (frame : Frame)
  | pingWait (gen : Nat)
  | reconnectWait (gen : Nat) (seconds : Nat)
  deriving DecidableEq, Repr

def Op.gen : Op → Nat
  | resolve gen | connect gen | tlsHandshake gen | wsHandshake gen | read gen | write gen _
  | pingWait gen | reconnectWait gen _ => gen

/-- The connect chain, up to the WS handshake. -/
def Op.isChain : Op → Bool
  | resolve _ | connect _ | tlsHandshake _ | wsHandshake _ => true
  | _ => false

/-- Handlers posted to the strand. -/
inductive Posted where
  | startConnect
  | flushTopics
  | unsubscribe (channel : String)
  | closeByUser
  deriving DecidableEq, Repr

/-- What the auth-token provider does for a channel; an unset provider gives no text. -/
inductive Token where
  | text (token : String)
  | throws (jsonException : Bool)
  deriving DecidableEq, Repr

inductive Event where
  | started (op : Op)
  | enqueued (frame : Frame)
  | written (gen : Nat) (frame : Frame)
  | handshake (gen : Nat)
  | greeted (gen : Nat)
  | failed (gen : Nat)
  | closed
  deriving DecidableEq, Repr

structure State where
  outboundQueue : List Frame
  writeInFlight : Bool
  subscriptions : List String
  pendingTopics : List String
  reconnectDelayS : Nat
  generation : Nat
  connected : Bool
  ready : Bool
  connectedFlag : Bool
  reconnectScheduled : Bool
  userClosed : Bool
  wsOpen : Bool
  ops : List Op
  posted : List Posted
  /-- What the callers between their change of the lists and their post have still to post. -/
  calls : List Posted
  trace : List Event

namespace State

/-- After `run()`, which posts the first connect. -/
def start : State where
  outboundQueue := []
  writeInFlight := false
  subscriptions := []
  pendingTopics := []
  reconnectDelayS := 1
  generation := 0
  connected := false
  ready := false
  connectedFlag := false
  reconnectScheduled := false
  userClosed := false
  wsOpen := false
  ops := []
  posted := [.startConnect]
  calls := []
  trace := []

variable (s : State)

def log (event : Event) : State := { s with trace := event :: s.trace }

/-- The frames written, with their generation, latest first. -/
def written : List (Nat × Frame) :=
  s.trace.filterMap fun
    | .written gen frame => some (gen, frame)
    | _ => none

def isConnected : Bool := s.connectedFlag

def isSubscribed (channel : String) : Bool :=
  decide (channel ∈ s.subscriptions ∨ channel ∈ s.pendingTopics)

/-! ## Outbound write pump -/

/-- Start an asynchronous operation. -/
def launch (op : Op) : State := { s.log (.started op) with ops := op :: s.ops }

def enqueueOp (frame : Frame) : State :=
  { s.log (.enqueued frame) with outboundQueue := s.outboundQueue ++ [frame] }

def pump : State :=
  if s.writeInFlight || !s.connected || !s.wsOpen then s
  else
    match s.outboundQueue with
    | [] => s
    | frame :: rest =>
      { s with outboundQueue := rest, writeInFlight := true }.launch (.write s.generation frame)

/-! ## Subscription bookkeeping -/

def addTopic (channel : String) : State :=
  if channel ∈ s.subscriptions ∨ channel ∈ s.pendingTopics then s
  else { s with pendingTopics := s.pendingTopics ++ [channel] }

def removeTopic (channel : String) : State × Bool :=
  let s := { s with pendingTopics := s.pendingTopics.filter (· ≠ channel) }
  if channel ∈ s.subscriptions then
    ({ s with subscriptions := s.subscriptions.erase channel }, true)
  else (s, false)

end State

/-- An exception is reported with its kind. -/
def subscribeMsg (provider : String → Token) (channel : String) : Except Bool Frame :=
  match provider channel with
  | .text token => .ok (.subscribe channel (if token = "" then none else some token))
  | .throws jsonException => .error jsonException

namespace State

/-- The second half of `flushTopics`: an exception leaves the remaining frames unbuilt. -/
def enqueueTopics (provider : String → Token) : List String → State → State × Option Bool
  | [], s => (s.pump, none)
  | channel :: rest, s =>
    match subscribeMsg provider channel with
    | .error jsonException => (s, some jsonException)
    | .ok frame => enqueueTopics provider rest (s.enqueueOp frame)

variable (s : State)

/-- `flushTopics`, with the exception that leaves it. -/
def flushTopics (provider : String → Token) : State × Option Bool :=
  if !s.connected || !s.ready then (s, none)
  else
    enqueueTopics provider s.pendingTopics { s with
      subscriptions := s.subscriptions ++ s.pendingTopics, pendingTopics := [] }

/-! ## Connect chain, errors and close -/

def startConnect : State :=
  if s.userClosed then s
  else
    { s with
      generation := s.generation + 1, connected := false, ready := false, connectedFlag := false,
      writeInFlight := false, wsOpen := false }.launch (.resolve (s.generation + 1))

def handleError (gen : Nat) : State :=
  if gen ≠ s.generation || s.reconnectScheduled then s
  else if s.userClosed then s.log (.failed gen)
  else
    { s.log (.failed gen) with
      reconnectScheduled := true, connected := false, ready := false, connectedFlag := false,
      writeInFlight := false, outboundQueue := [],
      pendingTopics := s.subscriptions ++ s.pendingTopics, subscriptions := [],
      reconnectDelayS := min (s.reconnectDelayS * 2) reconnectDelayMaxInS }.launch
        (.reconnectWait gen s.reconnectDelayS)

def onHandshake (gen : Nat) : State :=
  let s := { s.log (.handshake gen) with wsOpen := true }
  if s.userClosed then s
  else ({ s with connected := true }.launch (.pingWait gen)).launch (.read gen)

/-- A stream closing already is not open; otherwise only its socket is closed. -/
def closeByUser : State :=
  if s.userClosed then s
  else if s.wsOpen && !s.writeInFlight then
    { s.log .closed with userClosed := true, wsOpen := false }
  else { s.log .closed with userClosed := true }

/-! ## Inbound -/

/-- `dispatch`, with the exception that leaves it. -/
def dispatch (json : Json) (provider : String → Token) : State × Option Bool :=
  let type := textOf json "type"
  if type = "connected" then
    flushTopics { s.log (.greeted s.generation) with
      ready := true, connectedFlag := true, reconnectDelayS := 1 } provider
  else if type = "ping" then ((s.enqueueOp .pong).pump, none)
  else (s, none)

/-- After a message was dispatched: read on, unless the connection is gone. -/
def readOn (gen : Nat) : State :=
  if gen ≠ s.generation || s.reconnectScheduled || !s.connected then s
  else { s with reconnectDelayS := if s.ready then 1 else s.reconnectDelayS }.launch (.read gen)

/-- What a read yields: an error, a text that is no JSON, or a JSON value. -/
inductive ReadResult where
  | error
  | unparsable
  | message (json : Json)

/-- Only a JSON exception is caught here; any other one ends the handler. -/
def onRead (gen : Nat) (result : ReadResult) (provider : String → Token) : State :=
  match result with
  | .error | .unparsable => s.handleError gen
  | .message json =>
    match if json.isObject then s.dispatch json provider else (s, none) with
    | (s, none) => s.readOn gen
    | (s, some true) => s.handleError gen
    | (s, some false) => s

def onPingTimer (gen : Nat) (ok silent : Bool) : State :=
  if !ok || s.userClosed then s
  else if s.connected && silent then s.handleError gen
  else
    (if s.connected && s.ready then (s.enqueueOp .ping).pump else s).launch (.pingWait gen)

def onReconnectTimer (ok : Bool) : State :=
  let s := { s with reconnectScheduled := false }
  if !ok || s.userClosed then s else s.startConnect

/-- A completion: the handler runs unless the generation is over. -/
def complete (op : Op) (handler : State → State) : Option State :=
  if op ∈ s.ops then
    let s := { s with ops := s.ops.erase op }
    some (if op.gen = s.generation then handler s else s)
  else none

end State

inductive Action where
  | subscribe (channel : String)
  | unsubscribe (channel : String)
  | post (handler : Posted)
  | close
  | execute (provider : String → Token)
  | streamFails
  | resolved (gen : Nat) (ok : Bool)
  | tcpConnected (gen : Nat) (ok sni : Bool)
  | tlsDone (gen : Nat) (ok : Bool)
  | wsDone (gen : Nat) (ok : Bool)
  | readDone (gen : Nat) (result : State.ReadResult) (provider : String → Token)
  | writeDone (gen : Nat) (frame : Frame) (ok : Bool)
  | pingFired (gen : Nat) (ok silent : Bool)
  | reconnectFired (gen seconds : Nat) (ok : Bool)

/-- The strand runs the handler that was posted first. -/
def runPosted (s : State) (provider : String → Token) : Option State :=
  match s.posted with
  | [] => none
  | handler :: rest =>
    let s := { s with posted := rest }
    match handler with
    | .startConnect => some s.startConnect
    | .flushTopics => some (s.flushTopics provider).1
    | .unsubscribe channel =>
      some (if s.connected then (s.enqueueOp (.unsubscribe channel)).pump else s)
    | .closeByUser => some s.closeByUser

def step (s : State) : Action → Option State
  | .subscribe channel =>
    some { s.addTopic channel with calls := .flushTopics :: s.calls }
  | .unsubscribe channel =>
    match s.removeTopic channel with
    | (s', true) => some { s' with calls := .unsubscribe channel :: s.calls }
    | (s', false) => some s'
  | .post handler =>
    if handler ∈ s.calls then
      some { s with posted := s.posted ++ [handler], calls := s.calls.erase handler }
    else none
  | .close => some { s with posted := s.posted ++ [.closeByUser] }
  | .execute provider => runPosted s provider
  | .streamFails => some { s with wsOpen := false }
  | .resolved gen ok => s.complete (.resolve gen) fun s =>
      if ok then s.launch (.connect gen) else s.handleError gen
  | .tcpConnected gen ok sni => s.complete (.connect gen) fun s =>
      if ok && sni then s.launch (.tlsHandshake gen) else s.handleError gen
  | .tlsDone gen ok => s.complete (.tlsHandshake gen) fun s =>
      if ok then s.launch (.wsHandshake gen) else s.handleError gen
  | .wsDone gen ok => s.complete (.wsHandshake gen) fun s =>
      if ok then s.onHandshake gen else s.handleError gen
  | .readDone gen result provider => s.complete (.read gen) fun s => s.onRead gen result provider
  | .writeDone gen frame ok =>
    let s := if ok then s.log (.written gen frame) else s
    s.complete (.write gen frame) fun s =>
      let s := { s with writeInFlight := false }
      if ok then s.pump else s.handleError gen
  | .pingFired gen ok silent => s.complete (.pingWait gen) fun s => s.onPingTimer gen ok silent
  | .reconnectFired gen seconds ok => s.complete (.reconnectWait gen seconds) fun s =>
      s.onReconnectTimer ok

end LighterApi.Source.WsSession
