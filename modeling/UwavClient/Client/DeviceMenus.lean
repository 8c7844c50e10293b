import UwavClient.Client.Connection

/-!
# The device drop-downs and the saved settings

Inserting or removing a row may move the current index of a `QComboBox`; where it settles is Qt's
answer. Whenever the current index of a device drop-down changes, its slot selects the device.
-/

namespace UwavClient

open Slot

namespace UwaVClient

/-- `comboAudioSrcLocal` and `comboAudioSinkLocal`. -/
def deviceCombo (c : UwaVClient) : Direction → Combo
  | .input => c.comboAudioSrcLocal
  | .output => c.comboAudioSinkLocal

def setDeviceCombo (c : UwaVClient) (b : Combo) : Direction → UwaVClient
  | .input => { c with comboAudioSrcLocal := b }
  | .output => { c with comboAudioSinkLocal := b }

/-- `primaryInputDeviceNum` and `primaryOutputDeviceNum`. -/
def primaryDeviceNum (c : UwaVClient) : Direction → ℤ
  | .input => c.primaryInputDeviceNum
  | .output => c.primaryOutputDeviceNum

def setPrimaryDeviceNum (c : UwaVClient) (n : ℤ) : Direction → UwaVClient
  | .input => { c with primaryInputDeviceNum := n }
  | .output => { c with primaryOutputDeviceNum := n }

def setSavedDevice (c : UwaVClient) (name : String) : Direction → UwaVClient
  | .input => { c with savedConfig := { c.savedConfig with inputDevice := name } }
  | .output => { c with savedConfig := { c.savedConfig with outputDevice := name } }

def savedDevice (c : UwaVClient) : Direction → String
  | .input => c.savedConfig.inputDevice
  | .output => c.savedConfig.outputDevice

end UwaVClient

def placeholder : Direction → String
  | .input => "Input Audio on Server"
  | .output => "Output Audio on Server"

/-- What `on_comboAudioSrcLocal_currentIndexChanged` and its twin for the output share;
`onSelected` is what only one of them does for a local device. -/
def onDeviceIndexChanged (dir : Direction) (onSelected : Slot Unit) (index : ℤ) (c : UwaVClient) :
    Slot UwaVClient := do
  let b := c.deviceCombo dir
  if c.primaryDeviceNum dir = index then return c
  if 0 ≤ index ∧ index < b.count - 1 then
    setActive dir index
    onSelected
    return (c.setPrimaryDeviceNum index dir).setSavedDevice b.currentText dir
  if index = b.count - 1 then
    setActive dir (-1)
    return (c.setPrimaryDeviceNum index dir).setSavedDevice "server" dir
  if index = -1 then return c.setPrimaryDeviceNum (-1) dir
  return c

def onComboAudioSrcLocalCurrentIndexChanged : ℤ → UwaVClient → Slot UwaVClient :=
  onDeviceIndexChanged .input setInputGateTail

def onComboAudioSinkLocalCurrentIndexChanged : ℤ → UwaVClient → Slot UwaVClient :=
  onDeviceIndexChanged .output (return ())

def deviceIndexChanged : Direction → ℤ → UwaVClient → Slot UwaVClient
  | .input => onComboAudioSrcLocalCurrentIndexChanged
  | .output => onComboAudioSinkLocalCurrentIndexChanged

/-- The drop-down arrives at a current index, and its slot runs if that is another one. -/
def moveDeviceIndex (dir : Direction) (index : ℤ) (c : UwaVClient) : Slot UwaVClient := do
  let b := c.deviceCombo dir
  if b.current = index then return c
  deviceIndexChanged dir index (c.setDeviceCombo { b with current := index } dir)

/-- `setCurrentIndex` on a device drop-down. -/
def setDeviceIndex (dir : Direction) (index : ℤ) (c : UwaVClient) : Slot UwaVClient :=
  moveDeviceIndex dir ((c.deviceCombo dir).settle index) c

/-- The rows of a device drop-down change, after which Qt settles its current index. -/
def setDeviceItems (dir : Direction) (items : List String) (c : UwaVClient) : Slot UwaVClient := do
  let c := c.setDeviceCombo { c.deviceCombo dir with items := items } dir
  moveDeviceIndex dir (← indexAfterRowChange) c

/-- `addItems` on a device drop-down. -/
def addDeviceItems (dir : Direction) (items : List String) (c : UwaVClient) : Slot UwaVClient :=
  if items = [] then return c else setDeviceItems dir ((c.deviceCombo dir).items ++ items) c

/-- `setCurrentText` on a device drop-down, which cannot be edited. -/
def setDeviceText (dir : Direction) (text : String) (c : UwaVClient) : Slot UwaVClient :=
  match (c.deviceCombo dir).findText text with
  | some index => setDeviceIndex dir index c
  | none => return c

def onDeviceAdded (dir : Direction) (index : ℤ) (name : String) (c : UwaVClient) :
    Slot UwaVClient := do
  let c ← setDeviceItems dir (Combo.insertItem (c.deviceCombo dir).items index name) c
  if c.savedDevice dir = name then setDeviceIndex dir index c else return c

/-- The current device of a drop-down has gone: its selection is cleared, by `clearText` too, and a
connected client stops. -/
def onCurrentDeviceRemoved (dir : Direction) (clearText : UwaVClient → Slot UwaVClient)
    (c : UwaVClient) : Slot UwaVClient := do
  let c ← setDeviceIndex dir (-1) c
  let c ← clearText c
  if ← opened then
    emit .serverStop
    stopAudio
    setActive dir (-1)
    return c.clearServerState
  return c

/-- What `on_InputDeviceRemoved` and `on_OutputDeviceRemoved` share. -/
def onDeviceRemoved (dir : Direction) (clearText : UwaVClient → Slot UwaVClient) (index : ℤ)
    (c : UwaVClient) : Slot UwaVClient := do
  let c ← if (c.deviceCombo dir).current = index then onCurrentDeviceRemoved dir clearText c
    else pure c
  setDeviceItems dir (Combo.removeItem (c.deviceCombo dir).items index) c

def onInputDeviceRemoved : ℤ → UwaVClient → Slot UwaVClient :=
  onDeviceRemoved .input fun c => return c

def onOutputDeviceRemoved : ℤ → UwaVClient → Slot UwaVClient :=
  onDeviceRemoved .output (setDeviceText .output "")

/-- A saved device is selected by its description, or the placeholder for `server`. -/
def selectSavedDevice (dir : Direction) (value : String) (c : UwaVClient) : Slot UwaVClient := do
  let b := c.deviceCombo dir
  match b.findText value with
  | some index => setDeviceIndex dir index c
  | none =>
    match if value = "server" then b.findText (placeholder dir) else none with
    | some index => setDeviceIndex dir index c
    | none => return c

/-- The first five `;`-separated fields of the saved server history. -/
def historyFields (value : String) : List String :=
  let fields := value.splitOn ";"
  (if fields.getLast? = some "" then fields.dropLast else fields).take 5

def loadSetting (kv : String × String) (c : UwaVClient) : Slot UwaVClient := do
  let (key, value) := kv
  if key = "uid" then return { c with savedConfig := { c.savedConfig with clientID := value } }
  if value = "none" then return c
  if key = "inputDevice" then selectSavedDevice .input value (c.setSavedDevice value .input)
  else if key = "outputDevice" then selectSavedDevice .output value (c.setSavedDevice value .output)
  else if key = "previousServers" then
    if value = "" then throw (.fault .outOfRange)
    let items := historyFields value
    return { c with comboServerSelect := { items, current := if items = [] then -1 else 0 } }
  else if key = "inferDevice" then
    let b := c.comboInferDevice
    return { c with
      savedConfig := { c.savedConfig with inferDevice := value }
      comboInferDevice := (b.findText value).elim b b.select }
  else if key = "modelName" then
    let b := c.comboModel
    return { c with
      savedConfig := { c.savedConfig with modelName := value }
      comboModel := (b.findText value).elim b b.select }
  else return c

/-- `LocalConfig::Load` with a UI. -/
def loadConfig (c : UwaVClient) : Slot UwaVClient := do
  match ← Slot.load with
  | some settings => settings.foldlM (fun c kv => loadSetting kv c) c
  | none =>
    let newid ← generateLocalUID
    saveConfig true { c with savedConfig := { c.savedConfig with
      clientID := newid
      inputDevice := "none"
      outputDevice := "none" } }

/-- The devices of a list, then the placeholder. -/
def fillDeviceItems (dir : Direction) (c : UwaVClient) : Slot UwaVClient := do
  let c ← addDeviceItems dir (← Slot.getDeviceList dir) c
  addDeviceItems dir [placeholder dir] c

def onDeviceListsReady (c : UwaVClient) : Slot UwaVClient := do
  let c ← fillDeviceItems .output c
  let c ← fillDeviceItems .input c
  loadConfig c

end UwavClient
