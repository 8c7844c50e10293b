import UwavClient.Socket.Packet

/-!
# Sockets (`sio_socket.cpp`)

The network thread hands a packet to the socket of its namespace, which keeps the packets that cannot
be sent yet and calls the listeners. The only listener of events is the one for all of them, by which
the program posts `signalSioMessage`.
-/

namespace UwavClient

/-- The wait of `m_connection_timer`. One that is given up calls nothing here; `close` binds `on_close`
without the error code, so the program calls it then too. -/
inductive ConnectionTimer where
  | connect
  | close
  deriving DecidableEq, Repr

/-- `socket::impl`. A callback for an acknowledgement is known by its number. -/
structure SioSocket where
  nsp : Text
  hasClient : Bool
  connected : Bool
  auth : Message
  acks : List ℕ
  eventListener : Bool
  errorListener : Bool
  connectionTimer : Option ConnectionTimer
  packetQueue : List Packet

/-- What a socket calls, in order: the listeners, and `send` of the client. -/
inductive SocketCall where
  | socketOpened (nsp : Text)
  | socketClosed (nsp : Text)
  | message (name : String) (messages : List Message)
  | errorMessage (m : Message)
  | acknowledged (id : ℕ) (messages : List Message)
  | send (p : Packet)

/-- What the program does to the listeners of a socket. -/
inductive ListenerChange where
  | onAny
  | onError
  | offAll
  | offError

/-- `message::list::push` of every message: null pointers are left out. -/
def pushAll (items : List Message) : List Message := items.filter Packet.hasMessage

namespace SioSocket

/-- `off_all` forgets the listeners of single events, of which there are none, and no other. -/
def changeListener (change : ListenerChange) (s : SioSocket) : SioSocket :=
  match change with
  | .onAny => { s with eventListener := true }
  | .onError => { s with errorListener := true }
  | .offAll => s
  | .offError => { s with errorListener := false }

def sendPacket (p : Packet) (s : SioSocket) : SioSocket × List SocketCall :=
  if !s.hasClient then (s, [])
  else if s.connected then
    ({ s with packetQueue := [] }, s.packetQueue.map .send ++ [.send p])
  else ({ s with packetQueue := s.packetQueue ++ [p] }, [])

/-- `Emit`; who asks for an acknowledgement is given the next number of `s_global_event_id`, which all
sockets share. -/
def emit (name : String) (msglist : List Message) (ack : Option ℕ) (s : SioSocket) :
    SioSocket × List SocketCall :=
  if !s.hasClient then (s, [])
  else
    let message := Message.array (.string name :: msglist)
    let packId : ℤ := ack.elim (-1) fun id => if id < 2 ^ 31 then id else id - 2 ^ 32
    let s := ack.elim s fun id => { s with acks := id :: s.acks.filter (· ≠ id) }
    sendPacket {
      frame := Packet.frameMessage, type := Packet.typeEvent + Packet.typeUndetermined, nsp := s.nsp,
      packId, message, pendingBuffers := 0, buffers := [] } s

def sendConnect (s : SioSocket) : SioSocket × List SocketCall :=
  if !s.hasClient then (s, [])
  else ({ s with connectionTimer := some .connect },
    [.send (.ofType Packet.typeConnect s.nsp s.auth)])

def close (s : SioSocket) : SioSocket × List SocketCall :=
  if !s.hasClient ∨ !s.connected then (s, [])
  else
    let (s, calls) := s.sendPacket (.ofType Packet.typeDisconnect s.nsp .nullptr)
    ({ s with connectionTimer := some .close }, calls)

def onConnected (s : SioSocket) : SioSocket × List SocketCall :=
  let s := { s with connectionTimer := none }
  if s.connected then (s, [])
  else ({ s with connected := true, packetQueue := [] },
    .socketOpened s.nsp :: s.packetQueue.map .send)

/-- `on_close`; the client forgets the socket afterwards. -/
def onClose (s : SioSocket) : SioSocket × List SocketCall :=
  if !s.hasClient then (s, [])
  else ({ s with hasClient := false, connected := false, connectionTimer := none, packetQueue := [] },
    [.socketClosed s.nsp])

def onDisconnect (s : SioSocket) : SioSocket :=
  if s.hasClient ∧ s.connected then { s with connected := false, packetQueue := [] } else s

/-- `ack`, which constructs a packet and therefore asserts that it has a number. -/
def ack (msgId : ℤ) (ackMessage : List Message) (s : SioSocket) :
    Except Crash (SioSocket × List SocketCall) := do
  let p ← Packet.ofMessage s.nsp (.array ackMessage) msgId true
  return s.sendPacket p

/-- `on_socketio_event` with `signalSioEvent` as the listener, which answers `PONG`. -/
def onSocketioEvent (msgId : ℤ) (name : String) (messages : List Message) (s : SioSocket) :
    Except Crash (SioSocket × List SocketCall) := do
  let needAck := 0 ≤ msgId
  let ackMessage : List Message := if s.eventListener ∧ needAck then [.string "PONG"] else []
  let posted : List SocketCall := if s.eventListener then [.message name messages] else []
  if !needAck then return (s, posted)
  let (s, calls) ← s.ack msgId ackMessage
  return (s, posted ++ calls)

def onSocketioAck (msgId : ℕ) (messages : List Message) (s : SioSocket) : SioSocket × List SocketCall :=
  if msgId ∈ s.acks then
    ({ s with acks := s.acks.filter (· ≠ msgId) }, [.acknowledged msgId messages])
  else (s, [])

/-- An event has the form of an array that starts with its name. -/
def onEventPacket (p : Packet) (s : SioSocket) : Except Crash (SioSocket × List SocketCall) :=
  match p.message with
  | .nullptr => .error (.fault .nullDereference)
  | .array (.nullptr :: _) => .error (.fault .nullDereference)
  | .array (.string name :: items) => s.onSocketioEvent p.packId name (pushAll items)
  | _ => .ok (s, [])

def onAckPacket (p : Packet) (s : SioSocket) : Except Crash (SioSocket × List SocketCall) :=
  match p.message with
  | .nullptr => .error (.fault .nullDereference)
  | .array items => .ok (s.onSocketioAck p.getPackId items)
  | m => .ok (s.onSocketioAck p.getPackId [m])

def onMessagePacket (p : Packet) (s : SioSocket) : Except Crash (SioSocket × List SocketCall) := do
  if !s.hasClient ∨ p.nsp ≠ s.nsp then return (s, [])
  let type ← p.getType
  if type = Packet.typeConnect then return s.onConnected
  else if type = Packet.typeDisconnect then return s.onClose
  else if type = Packet.typeEvent ∨ type = Packet.typeBinaryEvent then s.onEventPacket p
  else if type = Packet.typeAck ∨ type = Packet.typeBinaryAck then s.onAckPacket p
  else if type = Packet.typeError then
    return (s, if s.errorListener then [.errorMessage p.message] else [])
  else return (s, [])

end SioSocket

end UwavClient
