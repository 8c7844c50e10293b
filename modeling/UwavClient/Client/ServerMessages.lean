import UwavClient.Client.DeviceMenus

/-!
# Server messages (`onSioMessage`)

Every event of the server by name. The values of sliders other than the chunk size, check boxes and
labels are left out; the accessors that read them are not, since they assert.
-/

namespace UwavClient

open Slot

def getFlag (m : Message) : Slot MessageFlag := Slot.ofExcept m.getFlag

def sioToString : Message → Slot String
  | .nullptr => throw (.fault .nullDereference)
  | .array _ => return "(array)"
  | .binary _ => return "(binary data)"
  | .boolean v => return if v then "true" else "false"
  | .double bits => Slot.doubleText bits
  | .integer v => return toString v
  | .null => return "null"
  | .object _ => return "(Object)"
  | .string v => return v

/-- The fields of `messages.at(0)`; a message that is not an object is dropped. -/
def withObject (messages : List Message) (c : UwaVClient)
    (body : List (String × Message) → Slot UwaVClient) : Slot UwaVClient := do
  let m ← ofExcept (Message.first messages)
  if (← getFlag m) ≠ .object then return c
  body (← ofExcept m.getMap)

def forFields (fields : List (String × Message))
    (body : String → Message → UwaVClient → Slot UwaVClient) (c : UwaVClient) : Slot UwaVClient :=
  fields.foldlM (fun c kv => body kv.1 kv.2 c) c

/-! ## The model and device menus -/

def onComboModelCurrentIndexChanged (index : ℤ) (c : UwaVClient) : Slot Unit := do
  if ← opened then emit (.modelLoad (c.comboModel.itemText index))

def onComboInferDeviceCurrentIndexChanged (index : ℤ) (c : UwaVClient) : Slot Unit := do
  if ← opened then emit (.setCompute (c.comboInferDevice.itemText index))

/-- `setCurrentIndex` on the model menu. -/
def setModelIndex (index : ℤ) (c : UwaVClient) : Slot UwaVClient := do
  let b := c.comboModel.select index
  if b.current = c.comboModel.current then return c
  let c := { c with comboModel := b }
  onComboModelCurrentIndexChanged b.current c
  return c

/-- `setCurrentIndex` on the menu of inference devices. -/
def setInferDeviceIndex (index : ℤ) (c : UwaVClient) : Slot UwaVClient := do
  let b := c.comboInferDevice.select index
  if b.current = c.comboInferDevice.current then return c
  let c := { c with comboInferDevice := b }
  onComboInferDeviceCurrentIndexChanged b.current c
  return c

/-- Every item with the text of the message is selected in turn; the message is read for each item. -/
def selectModels (m : Message) (c : UwaVClient) : Slot UwaVClient :=
  (List.range c.comboModel.items.length).foldlM (fun c (i : ℕ) => do
    if (← sioToString m) = c.comboModel.itemText i then setModelIndex i c else return c) c

/-- The first item with this text is selected. -/
def selectModel (text : String) (c : UwaVClient) : Slot UwaVClient :=
  match c.comboModel.findText text with
  | some index => setModelIndex index c
  | none => return c

def onListModels (messages : List Message) (c : UwaVClient) : Slot UwaVClient :=
  withObject messages c fun fields => do
    let models ← ofExcept (Message.field fields "models").getVector
    let previous := c.comboModel.currentText
    let items ← models.mapM sioToString
    let b : Combo := { items, current := -1 }
    let b := if previous = "" then b else (b.findText previous).elim b b.select
    let c := { c with comboModel := b }
    if b.current ≠ -1 then return c
    if c.savedConfig.modelName ≠ "" then selectModel c.savedConfig.modelName c
    else if 0 < b.count then setModelIndex 0 c
    else return c

def onListDevices (messages : List Message) (c : UwaVClient) : Slot UwaVClient :=
  withObject messages c fun fields => do
    let inputs ← ofExcept (Message.field fields "input").getVector
    let _ ← inputs.mapM getFlag
    let outputs ← ofExcept (Message.field fields "output").getVector
    let _ ← outputs.mapM getFlag
    return c

def onListCompute (messages : List Message) (c : UwaVClient) : Slot UwaVClient :=
  withObject messages c fun fields => do
    if fields.isEmpty then return c
    let devices ← ofExcept (Message.field fields "devices").getVector
    let _ ← devices.mapM getFlag
    let b : Combo := {
      items := devices.filterMap fun m => m.getString.toOption
      current := ← indexAfterRowChange }
    return { c with comboInferDevice := (b.findText c.savedConfig.inferDevice).elim b b.select }

/-! ## Parameters -/

/-- One field of `SET_PARAMS`. The gain and gate sliders look the active device up; no update is sent
back, since the time of the last one was just set. -/
def setParam (key : String) (m : Message) (c : UwaVClient) : Slot UwaVClient := do
  if key = "model_name" then selectModels m c
  else if key = "input_device" ∨ key = "output_device" then
    let _ ← ofExcept m.getString
    return c
  else if key = "input_volume" then
    let _ ← ofExcept m.getDouble
    let _ ← getActive .input
    return c
  else if key = "output_volume" then
    let _ ← ofExcept m.getDouble
    let _ ← getActive .output
    return c
  else if key = "chunk_size_s" then
    let milliseconds ← Slot.rounded (← ofExcept m.getDouble) 1000
    return { c with sliderChunkSize := max 20 (min 500 milliseconds) }
  else if key = "chunk_pad_s" ∨ key = "crossfade_s" ∨ key = "use_output_rms" then
    let _ ← ofExcept m.getDouble
    return c
  else if key = "pitch_shift_semitones" ∨ key = "formant_shift" then
    let _ ← ofExcept m.getInt
    return c
  else if key = "input_gate_db" then
    let _ ← ofExcept m.getInt
    let _ ← getActive .input
    return c
  else if key = "use_noise_reduction" ∨ key = "use_vocode_smoothing" ∨ key = "use_fp32" ∨
      key = "use_jit" then
    let _ ← ofExcept m.getBool
    return c
  else return c

def onSetParams (messages : List Message) (c : UwaVClient) : Slot UwaVClient :=
  withObject messages c fun fields => do
    let c ← forFields fields setParam c
    return uiServerConnect c

/-! ## The server's life -/

def startedField (key : String) (m : Message) (c : UwaVClient) : Slot UwaVClient := do
  if key = "input_sample_rate" ∨ key = "output_sample_rate" then
    let _ ← ofExcept m.getInt
    return c
  else if key = "received_timestamp" then
    let _ ← sioToString m
    return c
  else return c

def onServerStarted (messages : List Message) (c : UwaVClient) : Slot UwaVClient :=
  withObject messages c fun fields => do
    let c ← forFields fields startedField c
    saveConfig true (uiRemoteStart { c with serverStarting := false, serverStarted := true })

def onServerStopped (c : UwaVClient) : Slot UwaVClient := do
  stopAudio
  return uiRemoteStop c.clearServerState

def onServerExiting (c : UwaVClient) : Slot UwaVClient := do
  let c ← stopIfConnected c
  uiServerDisconnect (uiRemoteStop c)

/-! ## The other events -/

def onAudioOut (messages : List Message) (c : UwaVClient) : Slot UwaVClient := do
  let m ← ofExcept (Message.first messages)
  if (← getFlag m) = .object then onSamplesReceived m c else return c

/-- The fields go to labels. -/
def statusField (key : String) (m : Message) (c : UwaVClient) : Slot UwaVClient := do
  if key = "gpu_load" ∨ key = "gpu_mem_used_mib" ∨ key = "gpu_mem_total_mib" ∨
      key = "host_name" then
    let _ ← sioToString m
    return c
  else return c

def onSetStatus (messages : List Message) (c : UwaVClient) : Slot UwaVClient :=
  withObject messages c fun fields => forFields fields statusField c

/-- A `message` that is null goes on to the accessor. -/
def onMessage (messages : List Message) (c : UwaVClient) : Slot UwaVClient :=
  withObject messages c fun fields => do
    let m := Message.field fields "message"
    if m.getFlag.toOption.any (· ≠ .string) then return c
    let _ ← ofExcept m.getString
    return c

def pongField (key : String) (m : Message) (c : UwaVClient) : Slot UwaVClient := do
  if key = "received_timestamp" then
    let _ ← ofExcept m.getDouble
    return c
  else return c

def onPong (messages : List Message) (c : UwaVClient) : Slot UwaVClient :=
  withObject messages c fun fields => forFields fields pongField c

def onSioMessage (name : String) (messages : List Message) (c : UwaVClient) : Slot UwaVClient :=
  if name = "AUDIO_OUT" then onAudioOut messages c
  else if name = "SET_STATUS" then onSetStatus messages c
  else if name = "SET_PARAMS" then onSetParams messages c
  else if name = "SERVER_STARTED" then onServerStarted messages c
  else if name = "SERVER_STOPPED" then onServerStopped c
  else if name = "SERVER_EXITING" then onServerExiting c
  else if name = "LIST_MODELS" then onListModels messages c
  else if name = "LIST_DEVICES" then onListDevices messages c
  else if name = "LIST_COMPUTE" then onListCompute messages c
  else if name = "MESSAGE" then onMessage messages c
  else if name = "PONG" then onPong messages c
  else return c

end UwavClient
