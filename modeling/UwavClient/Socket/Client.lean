import UwavClient.Library.Binary64
import UwavClient.Socket.Socket

/-!
# The socket client (`sio_client_impl.cpp`)

The functions that the main thread calls hand work to the network thread; the callbacks of the
network thread do it at once. A function returns what it calls, in order. The connection itself is
websocketpp's; whether a URI is one that it accepts is a parameter.
-/

namespace UwavClient

open Json (DoubleCodec)

inductive ConState where
  | opening
  | opened
  | closing
  | closed
  deriving DecidableEq, Repr

/-- `close::status::value`, as far as the code passes it on. -/
inductive CloseCode where
  | normal
  | abnormalClose
  | policyViolation
  deriving DecidableEq, Repr

inductive CloseReason where
  | normal
  | drop
  deriving DecidableEq, Repr

/-- What is handed to the network thread, and the timers that have expired. -/
inductive Handler where
  | connectImpl (uri : Text)
  | closeImpl (code : CloseCode)
  | sendImpl (binary : Bool) (payload : Text)
  | timeoutReconnect
  | timeoutPing
  deriving DecidableEq, Repr

/-- What the client calls: its listeners, `dispatch`, and the functions of the connection. -/
inductive ClientCall where
  | failed
  | reconnecting
  | opened
  | closed (reason : CloseReason)
  | socket (call : SocketCall)
  | dispatch (h : Handler)
  | connect (uri : Text)
  | close (code : CloseCode)
  | transmit (binary : Bool) (payload : Text)

/-- `client_impl`. Of `m_con` only whether it refers to a connection is kept, of a timer its time in
milliseconds; the sockets are in the order of their namespaces. -/
structure SioClient where
  conState : ConState := .closed
  con : Bool := false
  networkThread : Bool := false
  baseUrl : Text := []
  auth : Message := .nullptr
  sid : Text := []
  pingInterval : ℕ := 0
  pingTimeout : ℕ := 0
  pingTimeoutTimer : Option ℕ := none
  reconnTimer : Option ℕ := none
  reconnDelay : ℕ := 5000
  reconnDelayMax : ℕ := 25000
  reconnAttempts : ℕ := 0xFFFFFFFF
  reconnMade : ℕ := 0
  abortRetries : Bool := false
  sockets : List SioSocket := []
  partialPacket : Option Packet := none

namespace SioClient

/-! ## Settings -/

def opened (c : SioClient) : Bool := c.conState = .opened

/-- `pow(1.5, n)`, which a double holds exactly up to the 32nd power. -/
def powOneAndHalf (n : ℕ) : Binary64.Constant where
  mant := 3 ^ min n 32
  exp := min n 32
  mant_lt := (Nat.pow_le_pow_right (by decide) (min_le_right n 32)).trans_lt (by decide)

/-- `next_delay`: a delay is an `unsigned`, so a double holds it. -/
def nextDelay (c : SioClient) : ℕ :=
  min (Binary64.mulTrunc (powOneAndHalf c.reconnMade) c.reconnDelay) c.reconnDelayMax

/-! ## Sockets -/

def findSocket (nsp : Text) (c : SioClient) : Option SioSocket := c.sockets.find? (·.nsp = nsp)

def insertSocket (s : SioSocket) : List SioSocket → List SioSocket
  | [] => [s]
  | t :: sockets => if keyLt s.nsp t.nsp then s :: t :: sockets else t :: insertSocket s sockets

def removeSocket (nsp : Text) (c : SioClient) : SioClient :=
  { c with sockets := c.sockets.filter (·.nsp ≠ nsp) }

def updateSocket (s : SioSocket) (c : SioClient) : SioClient :=
  { c with sockets := c.sockets.map fun t => if t.nsp = s.nsp then s else t }

variable (w : DoubleCodec UInt64)

/-- What sockets call, of which the packets they send are encoded; `send` says what becomes of a
payload. -/
def runCalls (send : Bool → Text → List ClientCall) :
    List SocketCall → Except Crash (List ClientCall)
  | [] => .ok []
  | .send p :: calls => do
    let frames ← PacketManager.encode w p
    let rest ← runCalls send calls
    return frames.flatMap (fun f => send f.1 f.2) ++ rest
  | call :: calls => do
    let rest ← runCalls send calls
    return .socket call :: rest

/-- `dispatch` of `send_impl` on the main thread. -/
def dispatchSend (binary : Bool) (payload : Text) : List ClientCall :=
  [.dispatch (.sendImpl binary payload)]

/-- `send_impl`: nothing is sent unless the connection is open. -/
def sendImpl (binary : Bool) (payload : Text) (c : SioClient) : List ClientCall :=
  if c.conState = .opened then [.transmit binary payload] else []

def socketsInvoke (f : SioSocket → SioSocket × List SocketCall) (c : SioClient) :
    SioClient × List SocketCall :=
  ({ c with sockets := c.sockets.map fun s => (f s).1 }, c.sockets.flatMap fun s => (f s).2)

/-- `socket`: the socket of a namespace, which is made if there is none. -/
def socket (nsp : Text) (c : SioClient) : SioClient × List SocketCall :=
  let aux := if nsp = [] then ['/'] else if nsp.head? ≠ some '/' then '/' :: nsp else nsp
  match c.findSocket aux with
  | some _ => (c, [])
  | none =>
    let s : SioSocket := {
      nsp := aux, hasClient := true, connected := false, auth := c.auth, acks := [],
      eventListener := false, errorListener := false, connectionTimer := none, packetQueue := [] }
    let (s, calls) := if c.opened then s.sendConnect else (s, [])
    ({ c with sockets := insertSocket s c.sockets }, calls)

/-! ## Connecting and closing -/

def resetStates (c : SioClient) : SioClient := { c with sid := [], partialPacket := none }

/-- `connect`. A thread that is left from an earlier connection is joined, so that it has ended. -/
def connect (uri : Text) (auth : Message) (c : SioClient) : SioClient × List ClientCall :=
  let c := { c with reconnTimer := none }
  if c.networkThread ∧ c.conState ≠ .closing ∧ c.conState ≠ .closed then (c, [])
  else
    let c := { c with conState := .opening, baseUrl := uri, reconnMade := 0, auth }
    ({ c.resetStates with abortRetries := false, networkThread := true },
      [.dispatch (.connectImpl uri)])

variable (validUri : Text → Bool)

/-- `connect_impl`: an attempt, or a failure at once. -/
def connectImpl (uri : Text) : List ClientCall :=
  if validUri uri then [.connect uri] else [.failed]

def closeImpl (code : CloseCode) (c : SioClient) : SioClient × List ClientCall :=
  ({ c with reconnTimer := none }, if c.con then [.close code] else [])

/-- `close` up to its last statement, which dispatches `close_impl`. -/
def beginClose (send : Bool → Text → List ClientCall) (c : SioClient) :
    Except Crash (SioClient × List ClientCall) := do
  let (c, calls) := socketsInvoke SioSocket.close { c with conState := .closing, abortRetries := true }
  let calls ← runCalls w send calls
  return (c, calls)

/-- `close` on the main thread; `sync_close` then waits for the network thread to end. -/
def close (c : SioClient) : Except Crash (SioClient × List ClientCall) := do
  let (c, calls) ← c.beginClose w dispatchSend
  return (c, calls ++ [.dispatch (.closeImpl .normal)])

def closeOnNetwork (c : SioClient) : Except Crash (SioClient × List ClientCall) := do
  let (c, calls) ← c.beginClose w fun _ _ => []
  let (c, closing) := c.closeImpl .normal
  return (c, calls ++ closing)

/-! ## Callbacks of the connection -/

/-- The second half of `on_fail` and `on_close`: another attempt after a delay, if one is left. -/
def retry (c : SioClient) : Option SioClient :=
  if c.reconnMade < c.reconnAttempts ∧ !c.abortRetries then
    some { c with reconnTimer := some c.nextDelay }
  else none

def onDisconnectAll (c : SioClient) : SioClient :=
  { c with sockets := c.sockets.map SioSocket.onDisconnect }

def onFail (c : SioClient) : Except Crash (SioClient × List ClientCall) :=
  if c.conState = .closing then c.closeOnNetwork w
  else
    let c := onDisconnectAll { c with con := false, conState := .closed }
    .ok (match c.retry with
      | some c => (c, [])
      | none => (c, [.failed]))

def onOpen (c : SioClient) : Except Crash (SioClient × List ClientCall) :=
  if c.conState = .closing then c.closeOnNetwork w
  else do
    let c := { c with conState := .opened, con := true, reconnMade := 0 }
    let (c, calls) := c.socketsInvoke SioSocket.sendConnect
    let (c, more) := c.socket []
    let calls ← runCalls w (fun binary payload => c.sendImpl binary payload) (calls ++ more)
    return (c, calls ++ [.opened])

/-- `on_close`; `normal` says that the local close code is. -/
def onClose (normal : Bool) (c : SioClient) : SioClient × List ClientCall :=
  let closing : Bool := c.conState = .closing
  let c := onDisconnectAll { c with conState := .closed, con := false, pingTimeoutTimer := none }
  if normal ∨ closing then (c, [.closed .normal])
  else match c.retry with
    | some c => (c, [])
    | none => (c, [.closed .drop])

def timeoutReconnect (c : SioClient) : SioClient × List ClientCall :=
  if c.conState = .closed then
    let c := { c with conState := .opening, reconnMade := c.reconnMade + 1 }
    (c.resetStates, .reconnecting :: connectImpl validUri c.baseUrl)
  else (c, [])

def timeoutPing (c : SioClient) : SioClient × List ClientCall := c.closeImpl .policyViolation

/-! ## Payloads -/

/-- `update_ping_timeout_timer`; the sum is an `unsigned`. -/
def updatePingTimeoutTimer (c : SioClient) : SioClient :=
  { c with pingTimeoutTimer := some ((c.pingInterval + c.pingTimeout) % 2 ^ 32) }

/-- An entry of the handshake that may be missing or no integer. -/
def handshakeNumber (fields : List (String × Message)) (key : String) (default : ℕ) :
    Except Crash ℕ :=
  match fields.lookup key with
  | none => .ok default
  | some .nullptr => .error (.fault .nullDereference)
  | some (.integer v) => .ok (v % 2 ^ 32).toNat
  | some _ => .ok default

def entryString (m : Message) : Except Crash Text :=
  match m.getString with
  | .ok s => .ok s.toList
  | .error f => .error (.fault f)

def onHandshake (m : Message) (c : SioClient) : Except Crash (SioClient × List ClientCall) :=
  match m with
  | .object fields =>
    match fields.lookup "sid" with
    | none => .ok (c.closeImpl .policyViolation)
    | some entry => do
      let sid ← entryString entry
      let pingInterval ← handshakeNumber fields "pingInterval" 25000
      let pingTimeout ← handshakeNumber fields "pingTimeout" 60000
      return (updatePingTimeoutTimer { c with sid, pingInterval, pingTimeout }, [])
  | _ => .ok (c.closeImpl .policyViolation)

/-- `on_ping`; the answer goes to the connection without a look at the state, and `send` throws if
there is none. -/
def onPing (c : SioClient) : Except Crash (SioClient × List ClientCall) := do
  let frames ← PacketManager.encode w (.ofFrame Packet.framePong)
  if !c.con then throw .exception
  return (c.updatePingTimeoutTimer, frames.map fun f => .transmit false f.2)

def connectSid (p : Packet) (c : SioClient) : Except Crash SioClient :=
  match p.message with
  | .object fields =>
    match fields.lookup "sid" with
    | none => .ok c
    | some entry => do
      let sid ← entryString entry
      return { c with sid }
  | _ => .ok c

/-- `on_message_packet` of the socket of the packet's namespace. -/
def toSocket (p : Packet) (c : SioClient) : Except Crash (SioClient × List ClientCall) :=
  match c.findSocket p.nsp with
  | none => .ok (c, [])
  | some s => do
    let (s, calls) ← s.onMessagePacket p
    let calls ← runCalls w (fun binary payload => c.sendImpl binary payload) calls
    return (if s.hasClient then c.updateSocket s else c.removeSocket p.nsp, calls)

def onDecode (p : Packet) (c : SioClient) : Except Crash (SioClient × List ClientCall) :=
  if p.frame = Packet.frameMessage then do
    let type ← p.getType
    if type = Packet.typeConnect then
      let c ← c.connectSid p
      c.toSocket w p
    else c.toSocket w p
  else if p.frame = Packet.frameOpen then c.onHandshake p.message
  else if p.frame = Packet.frameClose then .ok (c.closeImpl .abnormalClose)
  else if p.frame = Packet.framePing then c.onPing w
  else .ok (c, [])

def onMessage (payload : Text) (c : SioClient) : Except Crash (SioClient × List ClientCall) := do
  let (partialPacket, decoded) ← PacketManager.putPayload w payload c.partialPacket
  let c := { c with partialPacket }
  match decoded with
  | none => return (c, [])
  | some p => c.onDecode w p

def onMessages : List Text → SioClient → Except Crash (SioClient × List ClientCall)
  | [], c => .ok (c, [])
  | payload :: payloads, c => do
    let (c, calls) ← c.onMessage w payload
    let (c, more) ← onMessages payloads c
    return (c, calls ++ more)

end SioClient

end UwavClient
