import UwavClient.Audio.Stream

/-!
# Messages of the socket client (`sio_message.h`)

An accessor asserts on every message type but its own; `get_double` also accepts an integer. Looking
up a missing key of a `std::map` with `[]` gives a null pointer, as `from_json` does for a value that
it cannot represent, and `message::list::at` does not check its index.
-/

namespace UwavClient

/-- `sio::message::ptr`. A double is its bit pattern; the fields of an object are in key order. -/
inductive Message where
  | nullptr
  | null
  | boolean (v : Bool)
  | integer (v : ℤ)
  | double (bits : UInt64)
  | string (v : String)
  | binary (v : Bytes)
  | array (items : List Message)
  | object (fields : List (String × Message))

inductive MessageFlag where
  | null
  | boolean
  | integer
  | double
  | string
  | binary
  | array
  | object
  deriving DecidableEq, Repr

/-- What `get_double` returns, before conversion. -/
inductive Number where
  | ofInt (v : ℤ)
  | ofBits (bits : UInt64)
  deriving DecidableEq, Repr

namespace Message

def getFlag : Message → Except Fault MessageFlag
  | .nullptr => .error .nullDereference
  | .null => .ok .null
  | .boolean _ => .ok .boolean
  | .integer _ => .ok .integer
  | .double _ => .ok .double
  | .string _ => .ok .string
  | .binary _ => .ok .binary
  | .array _ => .ok .array
  | .object _ => .ok .object

def getBool : Message → Except Fault Bool
  | .boolean v => .ok v
  | .nullptr => .error .nullDereference
  | _ => .error .assertion

def getInt : Message → Except Fault ℤ
  | .integer v => .ok v
  | .nullptr => .error .nullDereference
  | _ => .error .assertion

def getDouble : Message → Except Fault Number
  | .integer v => .ok (.ofInt v)
  | .double bits => .ok (.ofBits bits)
  | .nullptr => .error .nullDereference
  | _ => .error .assertion

def getString : Message → Except Fault String
  | .string v => .ok v
  | .nullptr => .error .nullDereference
  | _ => .error .assertion

def getBinary : Message → Except Fault Bytes
  | .binary v => .ok v
  | .nullptr => .error .nullDereference
  | _ => .error .assertion

def getVector : Message → Except Fault (List Message)
  | .array items => .ok items
  | .nullptr => .error .nullDereference
  | _ => .error .assertion

def getMap : Message → Except Fault (List (String × Message))
  | .object fields => .ok fields
  | .nullptr => .error .nullDereference
  | _ => .error .assertion

def first : List Message → Except Fault Message
  | [] => .error .outOfRange
  | m :: _ => .ok m

def field (fields : List (String × Message)) (key : String) : Message :=
  (fields.lookup key).getD .nullptr

def isObject : Message → Bool
  | .object _ => true
  | _ => false

end Message

end UwavClient
