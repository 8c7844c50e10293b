import UwavClient.Client.Message
import UwavClient.Config.Settings
import UwavClient.Library.Json

/-!
# Packets of the socket client (`sio_packet.cpp`)

A packet is sent as a text, with a placeholder for each binary buffer in its message, and then the
buffers, each as a payload of its own. A `std::string` is the list of its bytes, one character for
each. How a `double` is written and read is a parameter.
-/

namespace UwavClient

open Json (Value DoubleCodec)

/-- What ends the program: a fault, or an exception that nothing catches. -/
inductive Crash where
  | fault (f : Fault)
  | exception
  deriving DecidableEq, Repr

def bytesText (b : Bytes) : Text := b.map fun x => Char.ofNat x.toNat

def textBytes (s : Text) : Bytes := s.map fun c => UInt8.ofNat c.toNat

/-! ## Messages as JSON -/

def binPlaceHolder : Text := "_placeholder".toList

def numKey : Text := "num".toList

/-- `accept_binary_message`; the number is cast to an `int`. -/
def acceptBinaryMessage (v : Bytes) (buffers : List Text) : Value UInt64 × List Text :=
  (.object [(binPlaceHolder, .bool true), (numKey, .int ((buffers.length : ℤ).bmod (2 ^ 32)))],
    buffers ++ [bytesText v])

mutual

def acceptMessage : Message → List Text → Except Crash (Value UInt64 × List Text)
  | .nullptr, _ => .error (.fault .nullDereference)
  | .null, buffers => .ok (.null, buffers)
  | .boolean v, buffers => .ok (.bool v, buffers)
  | .integer v, buffers => .ok (.int v, buffers)
  | .double bits, buffers => .ok (.double bits, buffers)
  | .string v, buffers => .ok (.string v.toList, buffers)
  | .binary v, buffers => .ok (acceptBinaryMessage v buffers)
  | .array items, buffers => do
    let (vs, buffers) ← acceptItems items buffers
    return (.array vs, buffers)
  | .object fields, buffers => do
    let (ms, buffers) ← acceptFields fields buffers
    return (.object ms, buffers)

def acceptItems : List Message → List Text → Except Crash (List (Value UInt64) × List Text)
  | [], buffers => .ok ([], buffers)
  | m :: items, buffers => do
    let (v, buffers) ← acceptMessage m buffers
    let (vs, buffers) ← acceptItems items buffers
    return (v :: vs, buffers)

def acceptFields :
    List (String × Message) → List Text → Except Crash (List (Text × Value UInt64) × List Text)
  | [], buffers => .ok ([], buffers)
  | (key, m) :: fields, buffers => do
    let (v, buffers) ← acceptMessage m buffers
    let (ms, buffers) ← acceptFields fields buffers
    return ((key.toList, v) :: ms, buffers)

end

def keyLt : Text → Text → Bool
  | _, [] => false
  | [], _ :: _ => true
  | c :: s, d :: t => if c = d then keyLt s t else c.toNat < d.toNat

def insertField (key : String) (m : Message) : List (String × Message) → List (String × Message)
  | [] => [(key, m)]
  | (k, v) :: fields =>
    if keyLt key.toList k.toList then (key, m) :: (k, v) :: fields
    else if key = k then (key, m) :: fields
    else (k, v) :: insertField key m fields

/-- The member that marks a placeholder; `GetBool` asserts. -/
def isPlaceHolder (members : List (Text × Value UInt64)) : Except Crash Bool :=
  match members.lookup binPlaceHolder with
  | none => .ok false
  | some (.bool b) => .ok b
  | some _ => .error (.fault .assertion)

/-- The buffer of a placeholder. `operator[]` asserts that there is a number and `GetInt` that it is
an `int`. -/
def placeHolderBuffer (buffers : List Text) (members : List (Text × Value UInt64)) :
    Except Crash Message :=
  match members.lookup numKey with
  | some (.int num) =>
    if -2 ^ 31 ≤ num ∧ num < 2 ^ 31 then
      .ok (if 0 ≤ num then (buffers[num.toNat]?).elim .nullptr fun b => .binary (textBytes b)
        else .nullptr)
    else .error (.fault .assertion)
  | _ => .error (.fault .assertion)

mutual

def fromJson (buffers : List Text) : Value UInt64 → Except Crash Message
  | .int n => .ok (if -2 ^ 63 ≤ n ∧ n < 2 ^ 63 then .integer n else .nullptr)
  | .double d => .ok (.double d)
  | .string s => .ok (.string (String.ofList s))
  | .array vs => do
    let items ← fromItems buffers vs
    return .array items
  | .object ms => do
    if ← isPlaceHolder ms then placeHolderBuffer buffers ms
    else
      let fields ← fromMembers buffers ms []
      return .object fields
  | .bool b => .ok (.boolean b)
  | .null => .ok .null

def fromItems (buffers : List Text) : List (Value UInt64) → Except Crash (List Message)
  | [] => .ok []
  | v :: vs => do
    let m ← fromJson buffers v
    let items ← fromItems buffers vs
    return m :: items

def fromMembers (buffers : List Text) :
    List (Text × Value UInt64) → List (String × Message) → Except Crash (List (String × Message))
  | [], fields => .ok fields
  | (key, v) :: ms, fields => do
    let m ← fromJson buffers v
    fromMembers buffers ms (insertField (String.ofList key) m fields)

end

/-- `Document::Parse`. A text with an error leaves the document null; one on which the reader breaks
is taken to end in the assertion. -/
def parseDocument (w : DoubleCodec UInt64) (s : Text) : Except Crash (Value UInt64) :=
  match Json.read w s with
  | .ok v => .ok v
  | .error .syntaxError => .ok .null
  | .error .broken => .error (.fault .assertion)

/-! ## Strings and numbers of the header -/

/-- `s[i]`, as a signed `char`; past the end there is a NUL. -/
def charAt (s : Text) (i : ℕ) : ℤ :=
  let n := ((s[i]?).getD '\x00').toNat
  if n < 128 then n else n - 256

def findFirstOf (set : List Char) (pos : ℕ) (s : Text) : Option ℕ :=
  ((s.drop pos).findIdx? (· ∈ set)).map (pos + ·)

/-- `s.substr(first, last - first)`; the difference is unsigned. -/
def substr (first last : ℕ) (s : Text) : Text :=
  if last < first then s.drop first else (s.take last).drop first

/-- `std::stoul`, for an `unsigned long` of 64 bits. -/
def stoul (s : Text) : Except Crash ℕ :=
  let s := removeLeading s
  let sign := (s.take 1).filter fun c => c = '+' || c = '-'
  let digits := (s.drop sign.length).takeWhile Char.isDigit
  let n := Nat.ofDigitChars 10 digits 0
  if digits = [] ∨ 2 ^ 64 ≤ n then .error .exception
  else .ok (if sign = ['-'] then (2 ^ 64 - n) % 2 ^ 64 else n)

def stoi (s : Text) : Except Crash ℤ :=
  let n := Nat.ofDigitChars 10 s 0
  if 2 ^ 31 ≤ n then .error .exception else .ok n

/-! ## `packet` -/

/-- `frame_type` and `type` are integers, since the parser casts any character to them. -/
structure Packet where
  frame : ℤ
  type : ℤ
  nsp : Text
  packId : ℤ
  message : Message
  pendingBuffers : ℕ
  buffers : List Text

namespace Packet

def frameOpen : ℤ := 0
def frameClose : ℤ := 1
def framePing : ℤ := 2
def framePong : ℤ := 3
def frameMessage : ℤ := 4
def frameUpgrade : ℤ := 5
def frameNoop : ℤ := 6

def typeMin : ℤ := 0
def typeConnect : ℤ := 0
def typeDisconnect : ℤ := 1
def typeEvent : ℤ := 2
def typeAck : ℤ := 3
def typeError : ℤ := 4
def typeBinaryEvent : ℤ := 5
def typeBinaryAck : ℤ := 6
def typeMax : ℤ := 6
def typeUndetermined : ℤ := 0x10

/-- The constructor of events and acknowledgements. -/
def ofMessage (nsp : Text) (message : Message) (packId : ℤ) (isAck : Bool) : Except Crash Packet :=
  if isAck ∧ packId < 0 then .error (.fault .assertion)
  else .ok {
    frame := frameMessage, type := (if isAck then typeAck else typeEvent) + typeUndetermined, nsp,
    packId, message, pendingBuffers := 0, buffers := [] }

def ofType (type : ℤ) (nsp : Text) (message : Message) : Packet :=
  { frame := frameMessage, type, nsp, packId := -1, message, pendingBuffers := 0, buffers := [] }

def ofFrame (frame : ℤ) : Packet :=
  { frame, type := typeUndetermined, nsp := [], packId := -1, message := .nullptr,
    pendingBuffers := 0, buffers := [] }

/-- The empty constructor; the frame is not initialised. -/
def empty : Packet := ofFrame frameOpen

def isBinaryMessage (payload : Text) : Bool := payload ≠ [] ∧ charAt payload 0 = frameMessage

def isTextMessage (payload : Text) : Bool :=
  payload ≠ [] ∧ charAt payload 0 = frameMessage + charAt ['0'] 0

def hasBinaryType (p : Packet) : Bool := p.type = typeBinaryEvent ∨ p.type = typeBinaryAck

variable (w : DoubleCodec UInt64)

def parsePackId (payload : Text) (pos jsonPos : ℕ) : Except Crash ℤ :=
  let text := substr pos jsonPos payload
  if pos < jsonPos ∧ text.all Char.isDigit then stoi text else .ok (-1)

/-- `parse` from the message identifier on. -/
def parseMessage (payload : Text) (pos jsonPos : ℕ) (p : Packet) : Except Crash (Packet × Bool) := do
  let packId ← parsePackId payload pos jsonPos
  let p := { p with packId }
  if p.frame = frameMessage ∧ p.hasBinaryType then
    return ({ p with buffers := [payload.drop jsonPos] }, true)
  let doc ← parseDocument w (payload.drop jsonPos)
  let message ← fromJson [] doc
  return ({ p with message }, false)

/-- `parse` from the namespace on. The comma is looked for in the whole payload. -/
def parseNamespace (payload : Text) (pos : ℕ) (p : Packet) : Except Crash (Packet × Bool) :=
  match findFirstOf ['{', '[', '"', '/'] pos payload with
  | none => .ok ({ p with nsp := ['/'] }, false)
  | some nspJsonPos =>
    if charAt payload nspJsonPos = charAt ['/'] 0 then
      match findFirstOf [','] 0 payload with
      | none => .ok ({ p with nsp := payload.drop nspJsonPos }, false)
      | some commaPos =>
        let p := { p with nsp := substr nspJsonPos commaPos payload }
        match findFirstOf ['"', '[', '{'] (commaPos + 1) payload with
        | none => .ok (p, false)
        | some jsonPos => parseMessage w payload (commaPos + 1) jsonPos p
    else parseMessage w payload pos nspJsonPos { p with nsp := ['/'] }

/-- `parse`; true if there are buffers to come. -/
def parse (payload : Text) (p : Packet) : Except Crash (Packet × Bool) := do
  if isBinaryMessage payload then throw (.fault .assertion)
  let p := { p with
    frame := charAt payload 0 - charAt ['0'] 0, message := .nullptr, packId := -1, buffers := []
    pendingBuffers := 0 }
  if p.frame ≠ frameMessage then parseNamespace w payload 1 p
  else
    let p := { p with type := charAt payload 1 - charAt ['0'] 0 }
    if p.type < typeMin ∨ typeMax < p.type then return (p, false)
    if p.hasBinaryType then
      -- without a hyphen the position wraps around
      let scorePos := findFirstOf ['-'] 0 payload
      let count ← stoul (scorePos.elim (payload.drop 2) fun i => substr 2 i payload)
      parseNamespace w payload (scorePos.elim 0 (· + 1)) { p with pendingBuffers := count % 2 ^ 32 }
    else parseNamespace w payload 2 p

/-- `parse_buffer`; true if there are more to come. The first buffer is the text of the message. -/
def parseBuffer (payload : Text) (p : Packet) : Except Crash (Packet × Bool) :=
  if p.pendingBuffers = 0 then .ok (p, false)
  else
    let p := { p with buffers := p.buffers ++ [payload], pendingBuffers := p.pendingBuffers - 1 }
    if p.pendingBuffers ≠ 0 then .ok (p, true)
    else do
      let doc ← parseDocument w (p.buffers.headD [])
      let message ← fromJson p.buffers.tail doc
      return ({ p with message, buffers := [] }, false)

def wireType (p : Packet) (hasBinary : Bool) : ℤ :=
  let type := if p.type / 0x10 % 2 = 1 then p.type - typeUndetermined else p.type
  if type = typeEvent then if hasBinary then typeBinaryEvent else typeEvent
  else if type = typeAck then if hasBinary then typeBinaryAck else typeAck
  else type

def hasMessage : Message → Bool
  | .nullptr => false
  | _ => true

def acceptDocument (m : Message) : Except Crash (Text × List Text) :=
  if hasMessage m then (acceptMessage m []).map fun accepted => (Json.write w accepted.1, accepted.2)
  else .ok ([], [])

def accept (p : Packet) : Except Crash (Text × List Text) := do
  let frameChar := Char.ofNat (p.frame + charAt ['0'] 0).toNat
  if p.frame ≠ frameMessage then return ([frameChar], [])
  let (json, buffers) ← acceptDocument w p.message
  let hasBinary := buffers ≠ []
  let count := if hasBinary then Nat.toDigits 10 buffers.length ++ ['-'] else []
  let nsp :=
    if p.nsp ≠ [] ∧ p.nsp ≠ ['/'] then p.nsp ++ if hasMessage p.message ∨ 0 ≤ p.packId then [','] else []
    else []
  let packId := if 0 ≤ p.packId then Nat.toDigits 10 p.packId.toNat else []
  return (frameChar :: Json.writeInt (p.wireType hasBinary) ++ count ++ nsp ++ packId ++ json, buffers)

def getType (p : Packet) : Except Crash ℤ :=
  if p.type / 0x10 % 2 = 1 then .error (.fault .assertion) else .ok p.type

/-- `get_pack_id` returns an `unsigned`. -/
def getPackId (p : Packet) : ℕ := (p.packId % 2 ^ 32).toNat

end Packet

/-! ## `packet_manager` -/

namespace PacketManager

variable (w : DoubleCodec UInt64)

/-- `encode`: what the callback is given, payload by payload; true says that one is binary. -/
def encode (p : Packet) : Except Crash (List (Bool × Text)) := do
  let (text, buffers) ← p.accept w
  return (false, text) :: buffers.map fun b => (true, b)

/-- `put_payload`: the packet that waits for buffers, and the one that the callback is given. -/
def putPayload (payload : Text) (partialPacket : Option Packet) :
    Except Crash (Option Packet × Option Packet) :=
  match partialPacket with
  | some p => do
    let (p, more) ← p.parseBuffer w payload
    return if more then (some p, none) else (none, some p)
  | none => do
    if Packet.isTextMessage payload then
      let (p, more) ← Packet.parse w payload .empty
      return if more then (some p, none) else (none, some p)
    else if Packet.isBinaryMessage payload then return (none, none)
    else
      let (p, _) ← Packet.parse w payload .empty
      return (none, some p)

def putPayloads : List Text → Option Packet → Except Crash (Option Packet × List Packet)
  | [], partialPacket => .ok (partialPacket, [])
  | payload :: payloads, partialPacket => do
    let (partialPacket, decoded) ← putPayload w payload partialPacket
    let (partialPacket, packets) ← putPayloads payloads partialPacket
    return (partialPacket, decoded.toList ++ packets)

end PacketManager

end UwavClient
