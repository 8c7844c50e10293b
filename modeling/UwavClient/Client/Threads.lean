import UwavClient.Library.Raising
import UwavClient.Library.Schedule
import UwavClient.Audio.Devices
import UwavClient.Audio.StreamEffects
import UwavClient.Client.ServerMessages

/-!
# The running program

Three kinds of steps interleave. The main thread picks an event (the oldest posted audio signal, a
signal of the socket client or a user action) and performs its slot one operation at a time. PipeWire
calls back, each callback in one step; a stream's callbacks need the stream. The rest of the world may
change every answer it gives at any time. Calls of the provider and of a ring buffer are one
operation. An `AppObserver` keeps a history beside the program and may forbid events.
-/

namespace UwavClient

open Program Interleaving

/-! ## What operations do -/

structure World where
  answer : (e : ClientOp) → e.Answer
  pipewire : PipeWireAnswers

/-- What `sioClient.opened()` answers. -/
def World.socketOpen (w : World) : Bool := w.answer .opened

/-- The socket is open, PipeWire makes the streams, there is no settings file and nothing else has
anything to say. -/
def World.online : World where
  answer
    | .opened | .connected _ => true
    | .startAudio | .setActive _ _ | .setInputGateTail | .discardSamples _ | .writeRawData _ _ => .ok ()
    | .getActive _ | .bufferRate _ | .getWriteAheadLength => .ok 0
    | .readRawData _ => .ok []
    | .getDeviceList _ => []
    | .validateConnectString _ | .load => none
    | .indexAfterRowChange | .rounded _ _ => (0 : ℤ)
    | .doubleText _ | .generateLocalUID => ""
    | .save _ _ => (false, false)
    | .connect _ | .close | .syncClose | .offAll | .listen | .emit _ | .stopAudio => ()
  pipewire _ := ⟨true, true, true⟩

namespace AudioProvider

variable {α : Type}

/-- A call of a member function of the ring buffer of one direction. -/
def callBuffer (dir : Direction) (f : URingBuffer → α × URingBuffer) (a : AudioProvider) :
    Except Fault α × AudioProvider :=
  match a.buffer dir with
  | .error fault => (.error fault, a)
  | .ok rb => (.ok (f rb).1, a.update (fun e =>
      { e with data := { e.data with buffer := some (f rb).2 } }) dir)

/-- A call that faults leaves the provider as it was. -/
def attempt (f : AudioProvider → Except Fault AudioProvider) (a : AudioProvider) :
    Except Fault Unit × AudioProvider :=
  match f a with
  | .error fault => (.error fault, a)
  | .ok b => (.ok (), b)

end AudioProvider

def ClientOp.perform (w : World) : Handler ClientOp ClientOp.Answer AudioProvider
  | .connected dir, a => ((a.endpoint dir).connected, a)
  | .startAudio, a => a.attempt (AudioProvider.startAudio w.pipewire)
  | .stopAudio, a => ((), a.stopAudio w.pipewire)
  | .setActive dir index, a => a.attempt (AudioProvider.setActiveDevice w.pipewire dir index)
  | .getActive dir, a => (a.getActive dir, a)
  | .getDeviceList dir, a => (a.getDeviceList dir, a)
  | .setInputGateTail, a => a.attempt AudioProvider.setInputGateTail
  | .bufferRate dir, a => a.callBuffer dir fun rb => (rb.sampleRate, rb)
  | .getWriteAheadLength, a => a.callBuffer .input fun rb => (rb.getWriteAheadLength, rb)
  | .readRawData n, a => a.callBuffer .input fun rb =>
      ((rb.readRawData n).1.bytes, (rb.readRawData n).2)
  | .discardSamples n, a => a.callBuffer .input fun rb => ((), rb.discardSamples n)
  | .writeRawData binData n, a => a.callBuffer .output fun rb => ((), rb.writeRawData binData n)
  | e, a => (w.answer e, a)

namespace ClientOp

variable (w : World) (a : AudioProvider)

theorem perform_bufferRate (dir : Direction) :
    perform w (.bufferRate dir) a = a.callBuffer dir fun rb => (rb.sampleRate, rb) := rfl

theorem listsKept_callBuffer {α : Type} (dir : Direction) (f : URingBuffer → α × URingBuffer) :
    a.ListsKept (a.callBuffer dir f).2 := by
  unfold AudioProvider.callBuffer
  split
  · exact .refl a
  · dsimp only
    exact AudioProvider.listsKept_update fun _ => rfl

theorem listsKept_attempt {f : AudioProvider → Except Fault AudioProvider}
    (hf : ∀ b, f a = .ok b → a.ListsKept b) : a.ListsKept (a.attempt f).2 := by
  unfold AudioProvider.attempt
  split
  · exact .refl a
  · exact hf _ ‹_›

/-- No operation changes a device list, and none signals more than the end of streams. -/
theorem listsKept_perform (e : ClientOp) : a.ListsKept (e.perform w a).2 := by
  cases e with
  | startAudio =>
    exact listsKept_attempt a fun b h => (AudioProvider.devicesKept_startAudio h).toListsKept
  | stopAudio => exact (AudioProvider.devicesKept_stopAudio w.pipewire a).toListsKept
  | setActive dir index =>
    exact listsKept_attempt a fun b h => AudioProvider.listsKept_setActiveDevice h
  | setInputGateTail =>
    exact listsKept_attempt a fun b h => AudioProvider.listsKept_setInputGateTail h
  | bufferRate dir => exact listsKept_callBuffer a dir _
  | getWriteAheadLength => exact listsKept_callBuffer a .input _
  | readRawData n => exact listsKept_callBuffer a .input _
  | discardSamples n => exact listsKept_callBuffer a .input _
  | writeRawData binData n => exact listsKept_callBuffer a .output _
  | _ => exact .refl a

end ClientOp

namespace Slot

variable {α β : Type} (w : World)

/-- A slot that runs without interruption. -/
def exec (p : Slot α) (a : AudioProvider) : Except Halt α × AudioProvider :=
  Program.run (ClientOp.perform w) p.run a

@[simp] theorem exec_pure (x : α) (a : AudioProvider) :
    (pure x : Slot α).exec w a = (.ok x, a) := rfl

theorem exec_bind (p : Slot α) (f : α → Slot β) (a : AudioProvider) :
    (p >>= f).exec w a =
      match p.exec w a with
      | (.ok x, b) => (f x).exec w b
      | (.error e, b) => (.error e, b) := by
  refine (ExceptT.runOn_bind (ClientOp.perform w) p f a).trans ?_
  unfold exec ExceptT.runOn
  rcases Program.run (ClientOp.perform w) p.run a with ⟨r, b⟩
  cases r <;> rfl

@[simp] theorem exec_ask (e : ClientOp) (a : AudioProvider) :
    (ask e).exec w a = (.ok (e.perform w a).1, (e.perform w a).2) := rfl

@[simp] theorem exec_opened (a : AudioProvider) : opened.exec w a = (.ok w.socketOpen, a) := rfl

@[simp] theorem exec_connected (dir : Direction) (a : AudioProvider) :
    (connected dir).exec w a = (.ok (a.endpoint dir).connected, a) := rfl

/-- An operation whose answer may be a fault, when it is not. -/
theorem exec_ofExcept_ask (e : ClientOp) (f : e.Answer → Except Fault α) {x : α}
    {a b : AudioProvider} (h : (f (e.perform w a).1, (e.perform w a).2) = (.ok x, b)) :
    (ask e >>= fun r => ofExcept (f r)).exec w a = (.ok x, b) := by
  obtain ⟨hx, rfl⟩ := Prod.mk.inj h
  rw [exec_bind, exec_ask]
  dsimp only
  rw [hx]
  rfl

end Slot

/-! ## PipeWire's callbacks -/

/-- What the sliders set for the callbacks. -/
structure Levels (F : Type) where
  gateRMS : F
  inputGain : F
  outputGain : F

inductive Callback (F : Type) where
  | registryAdd (id : ℕ) (type : String) (props : List (String × String))
  | registryRemove (id : ℕ)
  | coreDone (id : ℕ) (seq : ℤ)
  | streamChanged (dir : Direction) (state : PwStreamState)
  | processInput (levels : Levels F) (b : Option InputBuffer)
  | processOutput (levels : Levels F) (b : Option OutputBuffer)

variable {F : Type} (A : FloatOps F)

namespace AudioProvider

def statics (a : AudioProvider) (levels : Levels F) : StreamStatics F where
  gateRMS := levels.gateRMS
  gateClosingTail := a.gateClosingTail
  inputGain := levels.inputGain
  outputGain := levels.outputGain
  inStreamConnected := a.input.connected
  outStreamConnected := a.output.connected

/-- Level signals only reach labels. -/
def postSignal (a : AudioProvider) : StreamSignal F → AudioProvider
  | .signalInputBufferWrite => a.post .signalInputBufferWrite
  | _ => a

theorem foldl_postSignal (signals : List (StreamSignal F)) (a : AudioProvider) :
    ∃ n, signals.foldl postSignal a =
      { a with posted := a.posted ++ List.replicate n .signalInputBufferWrite } := by
  induction signals generalizing a with
  | nil => exact ⟨0, by simp⟩
  | cons s signals ih =>
    obtain ⟨n, hn⟩ := ih (a.postSignal s)
    rw [List.foldl_cons, hn]
    cases s with
    | signalInputBufferWrite => exact ⟨n + 1, by simp [postSignal, post, List.replicate_succ]⟩
    | _ => exact ⟨n, rfl⟩

def processInput (levels : Levels F) (b : Option InputBuffer) (a : AudioProvider) : AudioProvider :=
  let (signals, data) := onProcessInput A (a.statics levels) a.input.data b
  signals.foldl postSignal (a.update (fun e => { e with data }) .input)

def processOutput (levels : Levels F) (b : Option OutputBuffer) (a : AudioProvider) :
    Except Fault AudioProvider := do
  let (_, signals, data) ← onProcessOutput A (a.statics levels) a.output.data b
  return signals.foldl postSignal (a.update (fun e => { e with data }) .output)

end AudioProvider

/-- The provider after a callback, or `none` when PipeWire cannot make it. -/
def Callback.apply (a : AudioProvider) : Callback F → Option (Except Fault AudioProvider)
  | .registryAdd id type props => some (.ok (a.onRegistryAdd id type props))
  | .registryRemove id => some (.ok (a.onRegistryRemove id))
  | .coreDone id seq => some (.ok (a.onCoreDone id seq))
  | .streamChanged dir state =>
    if (a.endpoint dir).stream then some (.ok (a.onStreamChanged dir state)) else none
  | .processInput levels b => if a.input.stream then some (.ok (a.processInput A levels b)) else none
  | .processOutput levels b => if a.output.stream then some (a.processOutput A levels b) else none

/-! ## Events of the main thread -/

def AudioSignal.slot (fuel : ℕ) (c : UwaVClient) : AudioSignal → Slot UwaVClient
  | .deviceListsReady => onDeviceListsReady c
  | .inputDeviceAdded index name => onDeviceAdded .input index name c
  | .outputDeviceAdded index name => onDeviceAdded .output index name c
  | .inputDeviceRemoved index => onInputDeviceRemoved index c
  | .outputDeviceRemoved index => onOutputDeviceRemoved index c
  | .streamStarted => onAudioStreamSuccess c
  | .streamStopped => onAudioStreamEnd c
  | .streamConnecting => onAudioStreamConnecting c
  | .signalInputBufferWrite => do
    onInputBufferWrite fuel c
    return c

inductive SioSignal where
  | connectFail
  | connectRetry
  | connectSuccess
  | connectClose
  | socketOpen
  | socketClose
  | message (name : String) (messages : List Message)

def SioSignal.slot (c : UwaVClient) : SioSignal → Slot UwaVClient
  | .connectFail => onSioConnectFail c
  | .connectRetry => return onSioConnectRetry c
  | .connectSuccess => return onSioConnectSuccess c
  | .connectClose => onSioConnectClose c
  | .socketOpen => onSioSocketOpen c
  | .socketClose => do
    onSioSocketClose
    return c
  | .message name messages => onSioMessage name messages c

inductive UiEvent where
  | startClicked
  | stopClicked
  | connectClicked (dest : String)
  | serverExitClicked
  | serverSelected (dest : String)
  | deviceSelected (dir : Direction) (index : ℤ)
  | modelSelected (index : ℤ)
  | inferDeviceSelected (index : ℤ)
  | chunkSizeMoved (milliseconds : ℤ)
  | chunkSizeReleased

def UiEvent.slot (c : UwaVClient) : UiEvent → Slot UwaVClient
  | .startClicked => onButtonStartClicked c
  | .stopClicked => onButtonStopClicked c
  | .connectClicked dest => onButtonConnectClicked dest c
  | .serverExitClicked => do
    onButtonServerExitClicked
    return c
  | .serverSelected dest => attemptConnectionTo dest c
  | .deviceSelected dir index => setDeviceIndex dir index c
  | .modelSelected index => setModelIndex index c
  | .inferDeviceSelected index => setInferDeviceIndex index c
  | .chunkSizeMoved milliseconds =>
    return { c with sliderChunkSize := max 20 (min 500 milliseconds) }
  | .chunkSizeReleased => onSliderChunkSizeReleased c

/-! ## The interleaving -/

inductive AppThread where
  | main
  | pipewire
  | world
  deriving DecidableEq, Repr

structure App where
  client : UwaVClient := {}
  audio : AudioProvider := {}
  world : World
  running : Bool := true

/-- The program before its first event. -/
def App.launched (w : World) : App := { world := w }

abbrev AppProgram := Program ClientOp ClientOp.Answer (Except Halt UwaVClient)

inductive Occurrence (F : Type) where
  | posted (fuel : ℕ)
  | sio (s : SioSignal)
  | ui (e : UiEvent)
  | callback (c : Callback F)
  | change (w : World)

namespace Occurrence

def thread : Occurrence F → AppThread
  | .posted _ | .sio _ | .ui _ => .main
  | .callback _ => .pipewire
  | .change _ => .world

/-- What is left to perform and the program's state once the occurrence has begun. -/
def begin (app : App) : Occurrence F → Option (AppProgram × App)
  | .posted fuel =>
    match app.audio.posted with
    | [] => none
    | s :: rest => some (s.slot fuel app.client, { app with audio := { app.audio with posted := rest } })
  | .sio s => some (s.slot app.client, app)
  | .ui e => some (e.slot app.client, app)
  | .callback cb =>
    match cb.apply A app.audio with
    | none => none
    | some (.error _) => some (.ret (.ok app.client), { app with running := false })
    | some (.ok audio) => some (.ret (.ok app.client), { app with audio })
  | .change world => some (.ret (.ok app.client), { app with world })

end Occurrence

structure Observed (H : Type) where
  app : App
  hist : H

structure AppObserver (F H : Type) where
  may : Occurrence F → App → H → Prop
  onStart : Occurrence F → App → H → H
  onOp : ClientOp → App → H → H
  onReturn : H → H

variable {H : Type}

/-- What an operation of the main thread does. -/
def appHandler (obs : AppObserver F H) : Handler ClientOp ClientOp.Answer (Observed H) :=
  fun e s => ((e.perform s.app.world s.app.audio).1,
    ⟨{ s.app with audio := (e.perform s.app.world s.app.audio).2 }, obs.onOp e s.app s.hist⟩)

def appSystem (obs : AppObserver F H) :
    System AppThread (Observed H) ClientOp ClientOp.Answer (Except Halt UwaVClient) where
  handler _ := appHandler obs
  start i s p t := s.app.running ∧ ∃ o : Occurrence F, o.thread = i ∧ obs.may o s.app s.hist ∧
    ∃ app, o.begin A s.app = some (p, app) ∧ t = ⟨app, obs.onStart o s.app s.hist⟩
  finish
    | .main, .ok client, s => ⟨{ s.app with client }, obs.onReturn s.hist⟩
    | .main, .error _, s => ⟨{ s.app with running := false }, obs.onReturn s.hist⟩
    | _, _, s => s

abbrev AppConfig (H : Type) :=
  Config AppThread (Observed H) ClientOp ClientOp.Answer (Except Halt UwaVClient)

def appLauncher (obs : AppObserver F H) [∀ o app h, Decidable (obs.may o app h)] :
    Launcher (appSystem A obs) (Occurrence F) where
  launch i o s :=
    if s.app.running ∧ o.thread = i ∧ obs.may o s.app s.hist then
      (o.begin A s.app).map fun (p, app) => (p, ⟨app, obs.onStart o s.app s.hist⟩)
    else none
  sound {i o s p t} h := by
    obtain ⟨⟨hrun, hi, hmay⟩, heq⟩ := Option.ite_none_right_eq_some.mp h
    obtain ⟨⟨p', app⟩, hbegin, hpair⟩ := Option.map_eq_some_iff.mp heq
    obtain ⟨rfl, rfl⟩ := Prod.mk.inj hpair
    exact ⟨hrun, o, hi, hmay, app, hbegin, rfl⟩

def nextOp (c : AppConfig H) : Option ClientOp :=
  match c.thread .main with
  | some (.op e _) => some e
  | _ => none

/-! ## Schedules -/

/-- Floating point without a meter or a gate. -/
def plainFloats : FloatOps Unit := ⟨(), fun _ => true, fun _ _ => false, fun _ x => x, fun _ => ()⟩

abbrev AppMove (F : Type) := Move AppThread (Occurrence F)

def callbackMoves (cb : Callback F) : List (AppMove F) :=
  [.call .pipewire (.callback cb), .step .pipewire]

/-- An event of the main thread and the next `n` steps of its slot. -/
def mainMoves (o : Occurrence F) (n : ℕ) : List (AppMove F) :=
  .call .main o :: List.replicate n (.step .main)

/-- An audio node of this class is announced. -/
def announce (id : ℕ) (mediaClass : String) : Callback F :=
  .registryAdd id "PipeWire:Interface:Node" [("media.class", mediaClass), ("node.description", "")]

/-- Two microphones and two speakers are found and listed, and the first of each is selected. -/
def devicesListed : List (AppMove F) :=
  callbackMoves (announce 40 "Audio/Source") ++ callbackMoves (announce 41 "Audio/Source") ++
    callbackMoves (announce 42 "Audio/Sink") ++ callbackMoves (announce 43 "Audio/Sink") ++
    callbackMoves (.coreDone 0 0) ++ mainMoves (.posted 0) 13

/-- A socket opens, the start button is pressed and both streams begin to stream. -/
def streamsRunning : List (AppMove F) :=
  mainMoves (.sio .socketOpen) 11 ++ mainMoves (.ui .startClicked) 4 ++
    callbackMoves (.streamChanged .input .streaming) ++
    callbackMoves (.streamChanged .output .streaming)

end UwavClient
