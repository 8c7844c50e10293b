import UwavClient.Client.Message
import UwavClient.Audio.Provider

/-!
# The main window (`uwavclient.h`)

The slots of `UwaVClient` run on the main thread. Its members and the parts of the UI that a slot
reads are a `UwaVClient`, which no other thread touches. Everything else a slot uses is an operation:
calls of the socket client, reads and calls of the audio provider, and what the rest of the world
decides (where a combo box settles after its rows change, the settings file, floating-point results).
-/

namespace UwavClient

/-- A `QComboBox`; `current` is -1 when nothing is selected. -/
structure Combo where
  items : List String := []
  current : ℤ := -1
  deriving DecidableEq, Repr

namespace Combo

def count (b : Combo) : ℤ := b.items.length

def itemText (b : Combo) (i : ℤ) : String :=
  if i < 0 then "" else b.items.getD i.toNat ""

def currentText (b : Combo) : String := b.itemText b.current

def findText (b : Combo) (text : String) : Option ℤ := (b.items.findIdx? (· = text)).map (↑)

/-- The index `setCurrentIndex` arrives at: -1 when there is no such item. -/
def settle (b : Combo) (i : ℤ) : ℤ := if 0 ≤ i ∧ i < b.count then i else -1

/-- `setCurrentIndex` with signals blocked. -/
def select (b : Combo) (i : ℤ) : Combo := { b with current := b.settle i }

/-- The items after `insertItem`, which clamps the index. -/
def insertItem (items : List String) (i : ℤ) (text : String) : List String :=
  items.insertIdx (min i.toNat items.length) text

/-- The items after `removeItem`, which ignores an invalid index. -/
def removeItem (items : List String) (i : ℤ) : List String :=
  if i < 0 then items else items.eraseIdx i.toNat

end Combo

structure ConfigData where
  clientID : String := ""
  inputDevice : String := ""
  outputDevice : String := ""
  inferDevice : String := ""
  modelName : String := ""
  deriving DecidableEq, Repr

structure UwaVClient where
  comboAudioSrcLocal : Combo := {}
  comboAudioSinkLocal : Combo := {}
  comboServerSelect : Combo := {}
  comboInferDevice : Combo := {}
  comboModel : Combo := {}
  sliderChunkSize : ℤ := 40
  buttonConnect : Bool := true
  buttonStart : Bool := false
  buttonStop : Bool := false
  groupServer : Bool := false
  primaryInputDeviceNum : ℤ := -1
  primaryOutputDeviceNum : ℤ := -1
  connectRetryState : Bool := false
  serverStarting : Bool := false
  serverStarted : Bool := false
  chunkSize : ℤ := 0
  numInputSamplesPerChunk : ℤ := 0
  numOutputSamplesPerChunk : ℤ := 0
  savedConfig : ConfigData := {}
  deriving DecidableEq, Repr

/-- What the client sends to the server. -/
inductive Emission where
  | getParams (clientId : String)
  | getDevices
  | getStatus
  | getModels
  | getCompute
  | ping
  | serverStart
  | serverStop
  | serverRequestExit
  | setCompute (inferDevice : String)
  | modelLoad (modelName : String)
  | updateChunkSize (milliseconds : ℤ)
  | audioIn (samples : Bytes)
  deriving DecidableEq, Repr

/-- What `LocalConfig::Save` takes from the UI. -/
structure SavedTexts where
  inferDevice : String
  modelName : String
  currentServer : String
  servers : List String
  deriving DecidableEq, Repr

inductive ClientOp where
  -- `sioClient`
  | opened
  | connect (uri : String)
  | close
  | syncClose
  | offAll
  | listen
  | emit (m : Emission)
  -- `audio`
  | connected (dir : Direction)
  | startAudio
  | stopAudio
  | setActive (dir : Direction) (index : ℤ)
  | getActive (dir : Direction)
  | getDeviceList (dir : Direction)
  | setInputGateTail
  | bufferRate (dir : Direction)
  | getWriteAheadLength
  | readRawData (count : ℤ)
  | discardSamples (count : ℤ)
  | writeRawData (binData : Bytes) (count : ℤ)
  -- the rest of the world
  | validateConnectString (uri : String)
  | indexAfterRowChange
  | rounded (x : Number) (factor : ℤ)
  | doubleText (bits : UInt64)
  | load
  | save (config : ConfigData) (texts : Option SavedTexts)
  | generateLocalUID
  deriving DecidableEq

/-- `validateConnectString` answers the corrected address; `load` the assignments in the settings
file, if there is one; `save` which of the config's infer device and model name it took from the
UI. -/
def ClientOp.Answer : ClientOp → Type
  | .opened | .connected _ => Bool
  | .startAudio | .setActive _ _ | .setInputGateTail | .discardSamples _ | .writeRawData _ _ =>
    Except Fault Unit
  | .getActive _ | .bufferRate _ | .getWriteAheadLength => Except Fault ℤ
  | .readRawData _ => Except Fault Bytes
  | .getDeviceList _ => List String
  | .validateConnectString _ => Option String
  | .indexAfterRowChange | .rounded _ _ => ℤ
  | .doubleText _ | .generateLocalUID => String
  | .load => Option (List (String × String))
  | .save _ _ => Bool × Bool
  | _ => Unit

/-- Why a slot does not return: the process is gone, or the fuel of a loop is. -/
inductive Halt where
  | fault (f : Fault)
  | unfinished
  deriving DecidableEq, Repr

abbrev Slot := ExceptT Halt (Program ClientOp ClientOp.Answer)

namespace Slot

variable {α : Type}

def ask (e : ClientOp) : Slot e.Answer := ExceptT.lift (Program.perform e)

def ofExcept : Except Fault α → Slot α
  | .ok a => pure a
  | .error f => throw (.fault f)

def opened : Slot Bool := ask .opened
def connect (uri : String) : Slot Unit := ask (.connect uri)
def close : Slot Unit := ask .close
def syncClose : Slot Unit := ask .syncClose
def offAll : Slot Unit := ask .offAll
def listen : Slot Unit := ask .listen
def emit (m : Emission) : Slot Unit := ask (.emit m)

/-- `audio->inStreamConnected` and `audio->outStreamConnected`. -/
def connected (dir : Direction) : Slot Bool := ask (.connected dir)

/-- `audio->inStreamConnected || audio->outStreamConnected`. -/
def anyConnected : Slot Bool := do
  if ← connected .input then return true
  connected .output

def startAudio : Slot Unit := do ofExcept (← ask .startAudio)
def stopAudio : Slot Unit := ask .stopAudio
def setActive (dir : Direction) (index : ℤ) : Slot Unit := do ofExcept (← ask (.setActive dir index))
def getActive (dir : Direction) : Slot ℤ := do ofExcept (← ask (.getActive dir))
def getDeviceList (dir : Direction) : Slot (List String) := ask (.getDeviceList dir)
def setInputGateTail : Slot Unit := do ofExcept (← ask .setInputGateTail)
def bufferRate (dir : Direction) : Slot ℤ := do ofExcept (← ask (.bufferRate dir))
def getWriteAheadLength : Slot ℤ := do ofExcept (← ask .getWriteAheadLength)
def readRawData (count : ℤ) : Slot Bytes := do ofExcept (← ask (.readRawData count))
def discardSamples (count : ℤ) : Slot Unit := do ofExcept (← ask (.discardSamples count))
def writeRawData (binData : Bytes) (count : ℤ) : Slot Unit := do
  ofExcept (← ask (.writeRawData binData count))

def validateConnectString (uri : String) : Slot (Option String) := ask (.validateConnectString uri)
def indexAfterRowChange : Slot ℤ := ask .indexAfterRowChange
def rounded (x : Number) (factor : ℤ) : Slot ℤ := ask (.rounded x factor)
def doubleText (bits : UInt64) : Slot String := ask (.doubleText bits)
def load : Slot (Option (List (String × String))) := ask .load
def save (config : ConfigData) (texts : Option SavedTexts) : Slot (Bool × Bool) :=
  ask (.save config texts)
def generateLocalUID : Slot String := ask .generateLocalUID

end Slot

end UwavClient
