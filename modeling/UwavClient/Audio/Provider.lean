import UwavClient.Audio.Stream

/-!
# The audio provider (`u_audioprovider.h`, `u_audioprovider.cpp`)

Device lists, current devices and streams of `u_AudioProvider`. What it has in both directions is an
`Endpoint`. The current device is a pointer into the device list, so it is the number of the slot it
points at, and using it when that slot no longer exists is a fault; that a list which grows can move
away from under the pointer is not seen here but in `PlacedProvider`. PipeWire itself answers whether
a stream can be created and connected and whether a disconnect is reported back. Signals of
`u_EngineStatistics` are queued connections: they are appended to `posted` for the main thread.
-/

namespace UwavClient

inductive Direction where
  | input
  | output
  deriving DecidableEq, Repr

structure InterfaceDescriptor where
  internalId : ℤ := -1
  pwDeviceId : ℕ
  sampleRate : ℤ := 44100
  isSource : Bool
  isSink : Bool
  deviceName : String
  deviceDesc : String
  deriving DecidableEq, Repr

structure Endpoint where
  deviceList : List InterfaceDescriptor := []
  currentDevice : Option ℕ := none
  stream : Bool := false
  data : PwStreamData := { buffer := none }
  connected : Bool := false

/-- The signals of `u_EngineStatistics` that reach a slot with an effect on the client. -/
inductive AudioSignal where
  | deviceListsReady
  | inputDeviceAdded (index : ℤ) (name : String)
  | outputDeviceAdded (index : ℤ) (name : String)
  | inputDeviceRemoved (index : ℤ)
  | outputDeviceRemoved (index : ℤ)
  | streamStarted
  | streamStopped
  | streamConnecting
  | signalInputBufferWrite
  deriving DecidableEq, Repr

structure AudioProvider where
  input : Endpoint := {}
  output : Endpoint := {}
  serverRequestedInSampleRate : ℤ := 0
  pwInputAudioRate : ℤ := 0
  gateClosingTail : ℤ := 24000
  firstRun : Bool := true
  pendingSync : ℤ := 0
  posted : List AudioSignal := []

/-- Whether `pw_stream_new_simple` and `pw_stream_connect` succeed, and whether `pw_stream_disconnect`
reports `UNCONNECTED` before it returns. -/
structure StreamAnswers where
  newStream : Bool
  connect : Bool
  reportsUnconnected : Bool
  deriving DecidableEq, Repr

abbrev PipeWireAnswers := Direction → StreamAnswers

inductive PwStreamState where
  | error
  | unconnected
  | connecting
  | paused
  | streaming
  deriving DecidableEq, Repr

def Endpoint.deref (e : Endpoint) : Except Fault (Option InterfaceDescriptor) :=
  match e.currentDevice with
  | none => .ok none
  | some slot =>
    match e.deviceList[slot]? with
    | none => .error .danglingDereference
    | some d => .ok (some d)

def Endpoint.withoutStream (e : Endpoint) : Endpoint :=
  { e with stream := false, data := { e.data with buffer := none } }

def Endpoint.withBuffer (e : Endpoint) (sampleRate : ℤ) : Endpoint :=
  { e with data := { e.data with
      buffer := some (.ofSampleRate sampleRate)
      ticksBetweenUpdates := 3
      currentTicks := 0 } }

namespace AudioProvider

def endpoint (a : AudioProvider) : Direction → Endpoint
  | .input => a.input
  | .output => a.output

def update (a : AudioProvider) (f : Endpoint → Endpoint) : Direction → AudioProvider
  | .input => { a with input := f a.input }
  | .output => { a with output := f a.output }

def setConnected (a : AudioProvider) (dir : Direction) (v : Bool) : AudioProvider :=
  a.update (fun e => { e with connected := v }) dir

def post (a : AudioProvider) (s : AudioSignal) : AudioProvider := { a with posted := a.posted ++ [s] }

section Endpoints

variable (a : AudioProvider) (f : Endpoint → Endpoint) {dir dir' : Direction}

@[simp] theorem endpoint_update : (a.update f dir).endpoint dir = f (a.endpoint dir) := by
  cases dir <;> rfl

theorem endpoint_update_of_ne (h : dir' ≠ dir) : (a.update f dir).endpoint dir' = a.endpoint dir' := by
  cases dir <;> cases dir' <;> first | rfl | exact absurd rfl h

@[simp] theorem endpoint_post (s : AudioSignal) : (a.post s).endpoint dir = a.endpoint dir := by
  cases dir <;> rfl

@[simp] theorem posted_update : (a.update f dir).posted = a.posted := by
  cases dir <;> rfl

end Endpoints

/-! ## Stream events -/

def onInputStreamChanged (a : AudioProvider) : PwStreamState → AudioProvider
  | .error => a.setConnected .input false
  | .unconnected => (a.setConnected .input false).post .streamStopped
  | .connecting => a.post .streamConnecting
  | .paused => a
  | .streaming =>
    if a.output.currentDevice.isNone ∨ a.output.connected then
      (a.setConnected .input true).post .streamStarted
    else a.setConnected .input true

/-- Unlike the input stream, the output stream does not report its end or that it is connecting. -/
def onOutputStreamChanged (a : AudioProvider) : PwStreamState → AudioProvider
  | .error | .unconnected => a.setConnected .output false
  | .connecting | .paused => a
  | .streaming =>
    if a.input.currentDevice.isNone ∨ a.input.connected then
      (a.setConnected .output true).post .streamStarted
    else a.setConnected .output true

def onStreamChanged (a : AudioProvider) : Direction → PwStreamState → AudioProvider
  | .input => a.onInputStreamChanged
  | .output => a.onOutputStreamChanged

/-! ## Creating and destroying streams -/

variable (pw : PipeWireAnswers)

def disconnect (dir : Direction) (a : AudioProvider) : AudioProvider :=
  if (pw dir).reportsUnconnected then a.onStreamChanged dir .unconnected else a

/-- What `createInputStream` and `createOutputStream` share: a buffer for `bufferRate`, the format,
then the stream. When the stream object cannot be created the buffer stays. -/
def createStream (dir : Direction) (bufferRate : InterfaceDescriptor → ℤ)
    (setFormat : InterfaceDescriptor → AudioProvider → AudioProvider) (a : AudioProvider) :
    Except Fault AudioProvider := do
  let e := a.endpoint dir
  if e.stream ∨ e.currentDevice.isNone then return a
  if e.data.buffer.isSome then throw .assertion
  match ← e.deref with
  | none => return a
  | some device =>
    let a := setFormat device (a.update (·.withBuffer (bufferRate device)) dir)
    if !(pw dir).newStream then return a
    if !(pw dir).connect then return (disconnect pw dir a).update (·.withoutStream) dir
    return a.update (fun e => { e with stream := true }) dir

/-- A rate of 0 asks for the device's own rate. -/
def createInputStream (sampleRate : ℤ) : AudioProvider → Except Fault AudioProvider :=
  let rate := fun device : InterfaceDescriptor =>
    if sampleRate = 0 then device.sampleRate else sampleRate
  createStream pw .input rate fun device a => { a with pwInputAudioRate := rate device }

/-- A rate of 0 gives the buffer the default rate, `DEFAULT_SAMPLE_RATE`. -/
def createOutputStream (sampleRate : ℤ) : AudioProvider → Except Fault AudioProvider :=
  createStream pw .output (fun _ => if sampleRate = 0 then 48000 else sampleRate) fun _ a => a

def destroyStream (dir : Direction) (a : AudioProvider) : AudioProvider :=
  let a := if (a.endpoint dir).stream then (disconnect pw dir a).update (·.withoutStream) dir else a
  a.setConnected dir false

def destroyInputStream (a : AudioProvider) : AudioProvider := destroyStream pw .input a

def destroyOutputStream (a : AudioProvider) : AudioProvider := destroyStream pw .output a

def startAudio (a : AudioProvider) : Except Fault AudioProvider := do
  if a.input.connected ∨ a.output.connected then return a
  let usable (d : Option InterfaceDescriptor) : Bool := d.any (-1 < ·.internalId)
  let a ← if usable (← a.input.deref) then
      createInputStream pw a.serverRequestedInSampleRate a
    else pure a
  if usable (← a.output.deref) then createOutputStream pw 0 a else return a

def stopAudio (a : AudioProvider) : AudioProvider := destroyOutputStream pw (destroyInputStream pw a)

/-! ## Selecting devices -/

/-- What `SetActiveInput` and `SetActiveOutput` share. An index outside the list unsets the device
and drops a running stream; another device than the current one is selected, and a running stream is
swapped. -/
def setActive (dir : Direction) (hotSwap : AudioProvider → Except Fault AudioProvider)
    (index : ℤ) (a : AudioProvider) : Except Fault AudioProvider := do
  let e := a.endpoint dir
  if index < 0 ∨ (e.deviceList.length : ℤ) ≤ index then
    match ← e.deref with
    | none => return a
    | some _ =>
      let a := a.update (fun e => { e with currentDevice := none }) dir
      return if e.stream then destroyStream pw dir a else a
  else
    let current ← e.deref
    if current.map (·.internalId) = some index then return a
    let a := a.update (fun e => { e with currentDevice := some index.toNat }) dir
    if e.stream then hotSwap a else return a

/-- The new stream keeps the rate of the old one unless the server asked for another. -/
def swapInputStream (a : AudioProvider) : Except Fault AudioProvider :=
  createInputStream pw (if a.serverRequestedInSampleRate ≠ 0 then a.serverRequestedInSampleRate
    else a.pwInputAudioRate) (destroyInputStream pw a)

def swapOutputStream (a : AudioProvider) : Except Fault AudioProvider :=
  createOutputStream pw 0 (destroyOutputStream pw a)

def setActiveInput : ℤ → AudioProvider → Except Fault AudioProvider :=
  setActive pw .input (swapInputStream pw)

def setActiveOutput : ℤ → AudioProvider → Except Fault AudioProvider :=
  setActive pw .output (swapOutputStream pw)

def setActiveDevice (dir : Direction) : ℤ → AudioProvider → Except Fault AudioProvider :=
  match dir with
  | .input => setActiveInput pw
  | .output => setActiveOutput pw

def setServerRequestedInSampleRate (rate : ℤ) (a : AudioProvider) : Except Fault AudioProvider := do
  let swapped ← if a.input.stream ∧ rate ≠ a.serverRequestedInSampleRate then do
      match ← a.input.deref with
      | none => pure a
      | some device =>
        if rate ≠ device.sampleRate then createInputStream pw rate (destroyInputStream pw a)
        else pure a
    else pure a
  return { swapped with serverRequestedInSampleRate := rate }

/-! ## Queries -/

def getActive (a : AudioProvider) (dir : Direction) : Except Fault ℤ :=
  (a.endpoint dir).deref.map (·.elim (-1) (·.internalId))

def getActiveInput (a : AudioProvider) : Except Fault ℤ := a.getActive .input

def getActiveOutput (a : AudioProvider) : Except Fault ℤ := a.getActive .output

def getDeviceList (a : AudioProvider) (dir : Direction) : List String :=
  (a.endpoint dir).deviceList.map (·.deviceDesc)

/-- `inBuffer` and `outBuffer`, which assert that the buffer exists. -/
def buffer (a : AudioProvider) (dir : Direction) : Except Fault URingBuffer :=
  match (a.endpoint dir).data.buffer with
  | none => .error .assertion
  | some rb => .ok rb

/-- `SetInputGateTail(0.5)`: half a second of samples, halves rounded up. -/
def setInputGateTail (a : AudioProvider) : Except Fault AudioProvider := do
  match ← a.input.deref with
  | none => throw .nullDereference
  | some device => return { a with gateClosingTail := (device.sampleRate + 1) / 2 }

end AudioProvider

end UwavClient
