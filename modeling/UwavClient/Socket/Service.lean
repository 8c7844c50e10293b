import UwavClient.Library.Machine
import UwavClient.Socket.Client

/-!
# Connections over a whole run

The client together with what asio and websocketpp hold for it: the handlers that wait, whether the
loop of the network thread runs, whether a connection is being made and whether one is open. The main
thread calls functions of the client at any time; the network thread runs handlers and is called back.
`connect` joins a thread that is left over, so that it goes on only when the loop has ended.

Every call of the main thread and every callback of the network thread is one step, from its beginning
to its end. Both threads read and write `m_con_state` and `m_abort_retries` without a lock; what becomes
of a call that falls inside a callback is not described here.
-/

namespace UwavClient

open Json (DoubleCodec)

structure SioService where
  client : SioClient := {}
  posted : List Handler := []
  running : Bool := false
  attempt : Bool := false
  link : Bool := false

inductive ServiceEvent where
  -- the main thread; `joining` is `connect` before it waits, `joined` the end of `sync_close`
  | joining
  | connect (uri : Text) (auth : Message)
  | close
  | joined
  | emit (name : String) (messages : List Message)
  | listener (change : ListenerChange)
  -- the network thread
  | handler
  | failed
  | opened
  | closed (normal : Bool)
  | message (payload : Text)
  | reconnectExpired
  | pingExpired
  | socketExpired (nsp : Text)
  | loopEnds

/-- The handler that a call leaves to asio. -/
def ClientCall.dispatched : ClientCall → Option Handler
  | .dispatch h => some h
  | _ => none

/-- A call of websocketpp that begins an attempt. -/
def ClientCall.begins : ClientCall → Bool
  | .connect _ => true
  | _ => false

namespace SioService

variable (w : DoubleCodec UInt64) (validUri : Text → Bool)

def Idle (s : SioService) : Prop :=
  s.posted = [] ∧ s.attempt = false ∧ s.link = false ∧ s.client.reconnTimer = none ∧
    s.client.pingTimeoutTimer = none ∧ ∀ t ∈ s.client.sockets, t.connectionTimer = none

/-- `connect` finds a connection that is not closing or closed, and returns. -/
def ConnectReturns (s : SioService) : Prop :=
  s.client.networkThread ∧ s.client.conState ≠ .closing ∧ s.client.conState ≠ .closed

instance (s : SioService) : Decidable s.ConnectReturns := inferInstanceAs (Decidable (_ ∧ _ ∧ _))

def Enabled (e : ServiceEvent) (s : SioService) : Prop :=
  match e with
  | .joining => s.running ∧ ¬s.ConnectReturns
  | .connect _ _ => s.ConnectReturns ∨ s.running = false
  | .close | .emit _ _ | .listener _ => True
  | .joined => s.running = false
  | .handler => s.running ∧ s.posted ≠ []
  | .failed | .opened => s.running ∧ s.attempt
  | .closed _ | .message _ => s.running ∧ s.link
  | .reconnectExpired => s.running ∧ s.client.reconnTimer.isSome
  | .pingExpired => s.running ∧ s.client.pingTimeoutTimer.isSome
  | .socketExpired nsp => s.running ∧ (s.client.findSocket nsp).any (·.connectionTimer.isSome)
  | .loopEnds => s.running ∧ s.Idle

instance (s : SioService) : Decidable s.Idle := inferInstanceAs (Decidable (_ ∧ _))

instance (e : ServiceEvent) (s : SioService) : Decidable (Enabled e s) :=
  match e with
  | .connect _ _ => inferInstanceAs (Decidable (_ ∨ _))
  | .close | .emit _ _ | .listener _ => inferInstanceAs (Decidable True)
  | .joined => inferInstanceAs (Decidable (_ = _))
  | .joining | .handler | .failed | .opened | .closed _ | .message _ | .reconnectExpired
  | .pingExpired | .socketExpired _ | .loopEnds => inferInstanceAs (Decidable (_ ∧ _))

def begin (e : ServiceEvent) (s : SioService) : SioService :=
  match e with
  | .joining => { s with client := { s.client with reconnTimer := none } }
  | .connect _ _ => if s.ConnectReturns then s else { s with running := true }
  | .handler => { s with posted := s.posted.tail }
  | .failed => { s with attempt := false }
  | .opened => { s with attempt := false, link := true }
  | .closed _ => { s with link := false }
  | .reconnectExpired =>
    { s with client := { s.client with reconnTimer := none }, posted := s.posted ++ [.timeoutReconnect] }
  | .pingExpired =>
    { s with client := { s.client with pingTimeoutTimer := none }, posted := s.posted ++ [.timeoutPing] }
  | .loopEnds => { s with running := false }
  | _ => s

def withSocket (f : SioSocket → SioSocket × List SocketCall) (c : SioClient) :
    Except Crash (SioClient × List ClientCall) := do
  let (c, connecting) := c.socket []
  match c.findSocket ['/'] with
  | none => return (c, [])
  | some t =>
    let (t, sending) := f t
    let calls ← SioClient.runCalls w SioClient.dispatchSend (connecting ++ sending)
    return (c.updateSocket t, calls)

def emit (name : String) (messages : List Message) (c : SioClient) :
    Except Crash (SioClient × List ClientCall) := withSocket w (fun t => t.emit name messages none) c

def runHandler (h : Handler) (c : SioClient) : SioClient × List ClientCall :=
  match h with
  | .connectImpl uri => (c, SioClient.connectImpl validUri uri)
  | .closeImpl code => c.closeImpl code
  | .sendImpl binary payload => (c, c.sendImpl binary payload)
  | .timeoutReconnect => c.timeoutReconnect validUri
  | .timeoutPing => c.timeoutPing

/-- `timeout_connection` and the timer of `close`, both of which end in `on_close`. -/
def socketTimeout (nsp : Text) (c : SioClient) : SioClient × List ClientCall :=
  match c.findSocket nsp with
  | none => (c, [])
  | some t => (c.removeSocket nsp, t.onClose.2.map .socket)

/-- The function of the client that the event calls; `posted` are the handlers before the event. -/
def call (e : ServiceEvent) (posted : List Handler) (c : SioClient) :
    Except Crash (SioClient × List ClientCall) :=
  match e with
  | .connect uri auth => .ok (c.connect uri auth)
  | .close => c.close w
  | .joined => .ok ({ c with networkThread := false }, [])
  | .emit name messages => emit w name messages c
  | .listener change => withSocket w (fun t => (t.changeListener change, [])) c
  | .handler => .ok (posted.head?.elim (c, []) fun h => runHandler validUri h c)
  | .failed => c.onFail w
  | .opened => c.onOpen w
  | .closed normal => .ok (c.onClose normal)
  | .message payload => c.onMessage w payload
  | .joining | .reconnectExpired | .pingExpired | .loopEnds => .ok (c, [])
  | .socketExpired nsp => .ok (socketTimeout nsp c)

/-- What becomes of the calls that are for asio and websocketpp. -/
def accept (calls : List ClientCall) (c : SioClient) (s : SioService) : SioService :=
  { s with
    client := c
    posted := s.posted ++ calls.filterMap ClientCall.dispatched
    attempt := s.attempt || calls.any ClientCall.begins }

def step (e : ServiceEvent) (s : SioService) : Except Crash (SioService × List ClientCall) :=
  (call w validUri e s.posted (s.begin e).client).map fun r =>
    ((s.begin e).accept r.2 r.1, r.2)

end SioService

end UwavClient
