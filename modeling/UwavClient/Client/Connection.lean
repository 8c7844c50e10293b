import UwavClient.Client.Streaming

/-!
# Connection events and buttons

The slots for the signals of the socket client and for the buttons. Texts and colours of widgets are
left out; of the enabled states only those of the three buttons and of the server group are kept.
-/

namespace UwavClient

open Slot

/-! ## UI helper functions -/

def uiLocalStop (c : UwaVClient) : UwaVClient := { c with buttonStop := false, buttonStart := false }

def uiRemoteStart (c : UwaVClient) : UwaVClient := { c with buttonStart := false, buttonStop := true }

def uiRemoteStop (c : UwaVClient) : UwaVClient := { c with buttonStop := false, buttonStart := true }

def uiServerConnect (c : UwaVClient) : UwaVClient :=
  { c with buttonConnect := true, groupServer := true, buttonStart := true, buttonStop := false }

/-- `if (audio->inStreamConnected || audio->outStreamConnected)` with the session cleared and the
audio stopped. -/
def stopIfConnected (c : UwaVClient) : Slot UwaVClient := do
  if ← anyConnected then
    stopAudio
    return c.clearServerState
  return c

def uiServerDisconnect (c : UwaVClient) : Slot UwaVClient := do
  let c := { c with
    buttonStart := false
    buttonStop := false
    buttonConnect := false
    groupServer := false }
  if ← opened then
    Slot.offAll
    Slot.syncClose
  let c ← stopIfConnected c
  return { c with buttonConnect := true }

/-! ## Signals of the socket client -/

def onSioConnectFail (c : UwaVClient) : Slot UwaVClient :=
  uiServerDisconnect { c with connectRetryState := false }

def onSioConnectRetry (c : UwaVClient) : UwaVClient :=
  if c.buttonConnect then c else { c with connectRetryState := true, buttonConnect := true }

def onSioConnectSuccess (c : UwaVClient) : UwaVClient := { c with connectRetryState := false }

def onSioConnectClose (c : UwaVClient) : Slot UwaVClient := do
  let c ← if ← anyConnected then do
      stopAudio
      pure (uiRemoteStop c.clearServerState)
    else pure c
  uiServerDisconnect c

/-- `LocalConfig::Save`: with a UI, the infer device and the model name may be taken from it. -/
def saveConfig (withUi : Bool) (c : UwaVClient) : Slot UwaVClient := do
  let texts : SavedTexts := {
    inferDevice := c.comboInferDevice.currentText
    modelName := c.comboModel.currentText
    currentServer := c.comboServerSelect.currentText
    servers := c.comboServerSelect.items }
  let (inferDevice, modelName) ← Slot.save c.savedConfig (if withUi then some texts else none)
  let keep (take : Bool) (new old : String) : String := if withUi ∧ take ∧ new ≠ "" then new else old
  return { c with savedConfig := { c.savedConfig with
    inferDevice := keep inferDevice texts.inferDevice c.savedConfig.inferDevice
    modelName := keep modelName texts.modelName c.savedConfig.modelName } }

def getClientID (c : UwaVClient) : Slot UwaVClient := do
  if c.savedConfig.clientID = "" then
    let newid ← generateLocalUID
    saveConfig false { c with savedConfig := { c.savedConfig with clientID := newid } }
  else return c

def onSioSocketOpen (c : UwaVClient) : Slot UwaVClient := do
  Slot.listen
  let c ← getClientID c
  emit (.getParams c.savedConfig.clientID)
  emit .getDevices
  emit .getStatus
  emit .getModels
  emit .getCompute
  if ← opened then emit .ping
  return c

def onSioSocketClose : Slot Unit := Slot.offAll

/-! ## Buttons -/

def validateStartStopState (c : UwaVClient) : Slot Bool := do
  let input ← getActive .input
  let output ← getActive .output
  return c.comboAudioSrcLocal.current = input ∧ c.comboAudioSinkLocal.current = output

def onButtonStartClicked (c : UwaVClient) : Slot UwaVClient := do
  if ← validateStartStopState c then
    Slot.startAudio
    return { c with buttonStart := false, buttonStop := true }
  return c

def onButtonStopClicked (c : UwaVClient) : Slot UwaVClient := do
  let c := (uiLocalStop c).clearServerState
  if ← opened then emit .serverStop
  stopAudio
  return c

def attemptConnectionTo (dest : String) (c : UwaVClient) : Slot UwaVClient := do
  if c.comboAudioSrcLocal.current = -1 ∨ c.comboAudioSinkLocal.current = -1 then return c
  match ← validateConnectString dest with
  | some uri =>
    Slot.connect uri
    return { c with buttonConnect := false }
  | none => return { c with buttonConnect := true }

/-- In cancel mode the button abandons the attempt; connected, it closes the connection. -/
def onButtonConnectClicked (dest : String) (c : UwaVClient) : Slot UwaVClient := do
  if c.connectRetryState then return ← uiServerDisconnect { c with connectRetryState := false }
  if ← opened then
    Slot.close
    return c
  attemptConnectionTo dest c

def onButtonServerExitClicked : Slot Unit := do
  if ← opened then emit .serverRequestExit

/-- `on_sliderChunkSize_sliderReleased`: the slider moves to the nearest multiple of 10. -/
def onSliderChunkSizeReleased (c : UwaVClient) : Slot UwaVClient := do
  let chunkSize := (c.sliderChunkSize + 5) / 10 * 10
  if ← opened then emit (.updateChunkSize chunkSize)
  return { c with chunkSize := chunkSize, sliderChunkSize := chunkSize }

end UwavClient
