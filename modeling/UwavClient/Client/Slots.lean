import UwavClient.Library.Raising
import UwavClient.Client.Threads

/-!
# What the slots keep

Many slots only move menus: drop-downs, the slider of the chunk size, the saved settings. Of the
others, none but four asks the server to start, sends samples, starts a session or changes the rows
of a device drop-down. The four are `onAudioStreamSuccess`, `onInputBufferWrite`, `onServerStarted`
and the slots of the device signals.
-/

namespace UwavClient

open Slot ExceptT

/-- An operation other than `SERVER_START`, `AUDIO_IN` and reading a device list. -/
@[simp] def ClientOp.Ordinary : ClientOp → Prop
  | .emit .serverStart | .emit (.audioIn _) | .getDeviceList _ => False
  | _ => True

/-- A slot that started from `c` started no session and left the rows of the device drop-downs. -/
structure Keeps (c c' : UwaVClient) : Prop where
  started : c'.serverStarted → c.serverStarted
  items : ∀ dir, (c'.deviceCombo dir).items = (c.deviceCombo dir).items

namespace Keeps

variable {c c' c'' : UwaVClient}

@[refl] theorem refl (c : UwaVClient) : Keeps c c := ⟨id, fun _ => rfl⟩

theorem trans (h : Keeps c c') (h' : Keeps c' c'') : Keeps c c'' :=
  ⟨h.started ∘ h'.started, fun dir => (h'.items dir).trans (h.items dir)⟩

/-- Only the session flag and the two device drop-downs matter. -/
theorem of_eq (hs : c'.serverStarted = c.serverStarted)
    (hi : c'.comboAudioSrcLocal.items = c.comboAudioSrcLocal.items)
    (ho : c'.comboAudioSinkLocal.items = c.comboAudioSinkLocal.items) : Keeps c c' :=
  ⟨fun h => hs ▸ h, fun dir => by cases dir <;> assumption⟩

end Keeps

@[simp] def Emission.OfMenus : Emission → Prop
  | .setCompute _ | .modelLoad _ | .updateChunkSize _ => True
  | _ => False

/-- An operation of a slot that only moves menus. -/
@[simp] def ClientOp.OfMenus : ClientOp → Prop
  | .emit m => m.OfMenus
  | .opened | .setActive _ _ | .getActive _ | .setInputGateTail | .validateConnectString _ => True
  | .indexAfterRowChange | .rounded _ _ | .doubleText _ | .load | .save _ _ | .generateLocalUID => True
  | .connect _ | .close | .syncClose | .offAll | .listen | .connected _ | .startAudio => False
  | .stopAudio | .getDeviceList _ | .bufferRate _ | .getWriteAheadLength | .readRawData _ => False
  | .discardSamples _ | .writeRawData _ _ => False

theorem ClientOp.OfMenus.ordinary {e : ClientOp} (h : e.OfMenus) : e.Ordinary := by
  cases e with
  | emit m => cases m <;> trivial
  | getDeviceList dir => exact h.elim
  | _ => trivial

/-- The client without its menus, of which only the rows of the device drop-downs are left. -/
def UwaVClient.withoutMenus (c : UwaVClient) : UwaVClient :=
  { c with
    comboAudioSrcLocal := { items := c.comboAudioSrcLocal.items }
    comboAudioSinkLocal := { items := c.comboAudioSinkLocal.items }
    comboServerSelect := {}
    comboInferDevice := {}
    comboModel := {}
    sliderChunkSize := 0
    primaryInputDeviceNum := 0
    primaryOutputDeviceNum := 0
    chunkSize := 0
    savedConfig := {} }

def MenusOnly (c c' : UwaVClient) : Prop := c'.withoutMenus = c.withoutMenus

namespace MenusOnly

variable {c c' c'' : UwaVClient}

@[refl] theorem refl (c : UwaVClient) : MenusOnly c c := rfl

theorem trans (h : MenusOnly c c') (h' : MenusOnly c' c'') : MenusOnly c c'' := Eq.trans h' h

/-- What does not depend on the menus is the same. -/
theorem congr {α : Type} (h : MenusOnly c c') (f : UwaVClient → α) :
    f c'.withoutMenus = f c.withoutMenus := congrArg f h

theorem keeps (h : MenusOnly c c') : Keeps c c' :=
  .of_eq (h.congr (·.serverStarted)) (h.congr (·.comboAudioSrcLocal.items))
    (h.congr (·.comboAudioSinkLocal.items))

end MenusOnly

namespace Slot

variable {α : Type} {φ : ClientOp → Prop} {Q : α → Prop}

/-- A slot of ordinary operations that keeps what `Keeps` says. -/
abbrev Routine (c : UwaVClient) (p : Slot UwaVClient) : Prop := p.Ensures ClientOp.Ordinary (Keeps c)

abbrev MovesMenus (c : UwaVClient) (p : Slot UwaVClient) : Prop :=
  p.Ensures ClientOp.OfMenus (MenusOnly c)

@[simp] theorem ensures_ask {e : ClientOp} {Q : e.Answer → Prop} :
    (ask e).Ensures φ Q ↔ φ e ∧ ∀ r, Q r := ensures_lift_perform

@[simp] theorem ensures_ofExcept {r : Except Fault α} :
    (ofExcept r).Ensures φ Q ↔ ∀ a, r = .ok a → Q a := by
  cases r with
  | ok a => simp [ofExcept]
  | error f => simp [ofExcept]

section Operations

variable {U : Unit → Prop} {B : Bool → Prop} {Z : ℤ → Prop} {T : String → Prop} {dir : Direction}

@[simp] theorem ensures_opened : opened.Ensures φ B ↔ φ .opened ∧ ∀ r, B r := ensures_ask

@[simp] theorem ensures_connect {uri : String} :
    (connect uri).Ensures φ U ↔ φ (.connect uri) ∧ ∀ r, U r := ensures_ask

@[simp] theorem ensures_close : close.Ensures φ U ↔ φ .close ∧ ∀ r, U r := ensures_ask

@[simp] theorem ensures_syncClose : syncClose.Ensures φ U ↔ φ .syncClose ∧ ∀ r, U r := ensures_ask

@[simp] theorem ensures_offAll : offAll.Ensures φ U ↔ φ .offAll ∧ ∀ r, U r := ensures_ask

@[simp] theorem ensures_listen : listen.Ensures φ U ↔ φ .listen ∧ ∀ r, U r := ensures_ask

@[simp] theorem ensures_emit {m : Emission} :
    (emit m).Ensures φ U ↔ φ (.emit m) ∧ ∀ r, U r := ensures_ask

@[simp] theorem ensures_connected :
    (connected dir).Ensures φ B ↔ φ (.connected dir) ∧ ∀ r, B r := ensures_ask

@[simp] theorem ensures_stopAudio : stopAudio.Ensures φ U ↔ φ .stopAudio ∧ ∀ r, U r := ensures_ask

@[simp] theorem ensures_getDeviceList {Q : List String → Prop} :
    (getDeviceList dir).Ensures φ Q ↔ φ (.getDeviceList dir) ∧ ∀ r, Q r := ensures_ask

@[simp] theorem ensures_validateConnectString {uri : String} {Q : Option String → Prop} :
    (validateConnectString uri).Ensures φ Q ↔ φ (.validateConnectString uri) ∧ ∀ r, Q r := ensures_ask

@[simp] theorem ensures_indexAfterRowChange :
    indexAfterRowChange.Ensures φ Z ↔ φ .indexAfterRowChange ∧ ∀ r, Z r := ensures_ask

@[simp] theorem ensures_rounded {x : Number} {n : ℤ} :
    (rounded x n).Ensures φ Z ↔ φ (.rounded x n) ∧ ∀ r, Z r := ensures_ask

@[simp] theorem ensures_doubleText {bits : UInt64} :
    (doubleText bits).Ensures φ T ↔ φ (.doubleText bits) ∧ ∀ r, T r := ensures_ask

@[simp] theorem ensures_load {Q : Option (List (String × String)) → Prop} :
    load.Ensures φ Q ↔ φ .load ∧ ∀ r, Q r := ensures_ask

@[simp] theorem ensures_save {config : ConfigData} {texts : Option SavedTexts}
    {Q : Bool × Bool → Prop} :
    (save config texts).Ensures φ Q ↔ φ (.save config texts) ∧ ∀ r, Q r := ensures_ask

@[simp] theorem ensures_generateLocalUID :
    generateLocalUID.Ensures φ T ↔ φ .generateLocalUID ∧ ∀ r, T r := ensures_ask

/-- An operation that may answer any value or fault. -/
theorem ensures_answered {e : ClientOp} {Q : α → Prop} (f : e.Answer → Except Fault α)
    (hf : ∀ a, ∃ r, f r = .ok a) :
    (ask e >>= fun r => ofExcept (f r)).Ensures φ Q ↔ φ e ∧ ∀ a, Q a := by
  rw [ensures_bind, ensures_ask]
  refine and_congr_right fun _ => ⟨fun h a => ?_, fun h r => ensures_ofExcept.mpr fun a _ => h a⟩
  obtain ⟨r, hr⟩ := hf a
  exact ensures_ofExcept.mp (h r) a hr

variable {i : ℤ}

@[simp] theorem ensures_startAudio : Slot.startAudio.Ensures φ U ↔ φ .startAudio ∧ ∀ a, U a :=
  ensures_answered (e := .startAudio) id fun a => ⟨Except.ok a, rfl⟩

@[simp] theorem ensures_setActive :
    (setActive dir i).Ensures φ U ↔ φ (.setActive dir i) ∧ ∀ a, U a :=
  ensures_answered (e := .setActive dir i) id fun a => ⟨Except.ok a, rfl⟩

@[simp] theorem ensures_getActive : (getActive dir).Ensures φ Z ↔ φ (.getActive dir) ∧ ∀ a, Z a :=
  ensures_answered (e := .getActive dir) id fun a => ⟨Except.ok a, rfl⟩

@[simp] theorem ensures_setInputGateTail :
    setInputGateTail.Ensures φ U ↔ φ .setInputGateTail ∧ ∀ a, U a :=
  ensures_answered (e := .setInputGateTail) id fun a => ⟨Except.ok a, rfl⟩

@[simp] theorem ensures_bufferRate :
    (bufferRate dir).Ensures φ Z ↔ φ (.bufferRate dir) ∧ ∀ a, Z a :=
  ensures_answered (e := .bufferRate dir) id fun a => ⟨Except.ok a, rfl⟩

@[simp] theorem ensures_getWriteAheadLength :
    getWriteAheadLength.Ensures φ Z ↔ φ .getWriteAheadLength ∧ ∀ a, Z a :=
  ensures_answered (e := .getWriteAheadLength) id fun a => ⟨Except.ok a, rfl⟩

@[simp] theorem ensures_readRawData {Q : Bytes → Prop} :
    (readRawData i).Ensures φ Q ↔ φ (.readRawData i) ∧ ∀ a, Q a :=
  ensures_answered (e := .readRawData i) id fun a => ⟨Except.ok a, rfl⟩

@[simp] theorem ensures_discardSamples :
    (Slot.discardSamples i).Ensures φ U ↔ φ (.discardSamples i) ∧ ∀ a, U a :=
  ensures_answered (e := .discardSamples i) id fun a => ⟨Except.ok a, rfl⟩

@[simp] theorem ensures_writeRawData {b : Bytes} :
    (Slot.writeRawData b i).Ensures φ U ↔ φ (.writeRawData b i) ∧ ∀ a, U a :=
  ensures_answered (e := .writeRawData b i) id fun a => ⟨Except.ok a, rfl⟩

theorem ensures_anyConnected (hφ : ∀ dir, φ (.connected dir)) (hB : ∀ r, B r) :
    anyConnected.Ensures φ B := by
  simp [anyConnected, hφ, hB]

end Operations

end Slot

namespace Slot

variable {α : Type} {c c' : UwaVClient} {p : Slot UwaVClient} {f : UwaVClient → Slot UwaVClient}

theorem Routine.after (hp : Routine c' p) (h : Keeps c c') : Routine c p :=
  hp.post fun _ => h.trans

theorem Routine.bind (hp : Routine c p) (hf : ∀ c', Routine c' (f c')) : Routine c (p >>= f) :=
  ensures_bind.mpr (hp.post fun c' h => (hf c').after h)

theorem MovesMenus.after (hp : MovesMenus c' p) (h : MenusOnly c c') : MovesMenus c p :=
  hp.post fun _ => h.trans

theorem MovesMenus.bind (hp : MovesMenus c p) (hf : ∀ c', MovesMenus c' (f c')) :
    MovesMenus c (p >>= f) :=
  ensures_bind.mpr (hp.post fun c' h => (hf c').after h)

theorem MovesMenus.routine (hp : MovesMenus c p) : Routine c p :=
  hp.mono (fun _ => ClientOp.OfMenus.ordinary) fun _ => MenusOnly.keeps

end Slot

/-! ## Streaming -/

theorem keeps_clearServerState (c : UwaVClient) : Keeps c c.clearServerState :=
  ⟨fun h => Bool.noConfusion h, fun dir => by cases dir <;> rfl⟩

theorem routine_onSamplesReceived (msg : Message) (c : UwaVClient) :
    Routine c (onSamplesReceived msg c) := by
  unfold onSamplesReceived
  simp only [ensures_ite, ensures_pure, ensures_bind, ensures_connected, ensures_ofExcept]
  refine ⟨fun _ => .refl c, fun _ => ⟨trivial, fun _ => ⟨fun _ => .refl c, fun _ _ _ found _ => ?_⟩⟩⟩
  split
  · exact ensures_pure.mpr (.refl c)
  · simp [Keeps.refl, keeps_clearServerState]

theorem routine_onAudioStreamEnd (c : UwaVClient) : Routine c (onAudioStreamEnd c) := by
  have h : Keeps c { c with numInputSamplesPerChunk := 0, numOutputSamplesPerChunk := 0 } :=
    .of_eq rfl rfl rfl
  simp [onAudioStreamEnd, h]

/-- `on_AudioStreamSuccess` may ask the server to start. -/
theorem ensures_onAudioStreamSuccess (c : UwaVClient) :
    (onAudioStreamSuccess c).Ensures (fun e => e.Ordinary ∨ e = .emit .serverStart) (Keeps c) := by
  have h : ∀ m i o s, Keeps c { c with
      chunkSize := m
      numInputSamplesPerChunk := i
      numOutputSamplesPerChunk := o
      serverStarting := s } := fun _ _ _ _ => .of_eq rfl rfl rfl
  simp [onAudioStreamSuccess, h]

/-- `numInputSamplesPerChunk` or `numOutputSamplesPerChunk` set. -/
def UwaVClient.withSamplesPerChunk (c : UwaVClient) (n : ℤ) : Direction → UwaVClient
  | .input => { c with numInputSamplesPerChunk := n }
  | .output => { c with numOutputSamplesPerChunk := n }

/-- The part of `on_AudioStreamSuccess` about one stream. -/
def fixChunkLength (dir : Direction) (c : UwaVClient) : Slot UwaVClient := do
  if ← connected dir then
    let rate ← bufferRate dir
    return c.withSamplesPerChunk (samplesPerChunk c.chunkSize rate) dir
  else return c

def askToStart (c : UwaVClient) : Slot UwaVClient := do
  if c.serverStarting ∨ c.serverStarted then return c
  if ← opened then
    emit .serverStart
    return { c with serverStarting := true }
  return c

theorem onAudioStreamSuccess_eq (c : UwaVClient) : onAudioStreamSuccess c =
    (do
      let c ← fixChunkLength .input { c with chunkSize := c.sliderChunkSize }
      let c ← fixChunkLength .output c
      askToStart c) := by
  have hbind : ∀ {b : Bool} {p q : Slot UwaVClient} {f : UwaVClient → Slot UwaVClient},
      ((if b then p else q) >>= f) = if b then p >>= f else q >>= f := by
    intro b p q f
    cases b <;> rfl
  simp only [onAudioStreamSuccess, fixChunkLength, askToStart, bind_assoc, hbind, pure_bind,
    UwaVClient.withSamplesPerChunk]

@[simp] def ClientOp.OfCapture : ClientOp → Prop
  | .connected .input | .getWriteAheadLength | .bufferRate .input | .opened => True
  | .readRawData _ | .discardSamples _ | .emit (.audioIn _) => True
  | _ => False

theorem capture_sendChunks (chunk : ℤ) (fuel : ℕ) :
    (sendChunks chunk fuel).Ensures ClientOp.OfCapture fun _ => True := by
  induction fuel with
  | zero => exact ensures_throw
  | succ fuel ih => simp [sendChunks, emitSamples, ih]

theorem capture_discardChunks (chunk : ℤ) (fuel : ℕ) :
    (discardChunks chunk fuel).Ensures (fun e => e.OfCapture ∧ ∀ samples, e ≠ .emit (.audioIn samples))
      fun _ => True := by
  induction fuel with
  | zero => exact ensures_throw
  | succ fuel ih =>
    simp only [discardChunks, ensures_bind, ensures_getWriteAheadLength, ensures_ite,
      ensures_discardSamples, ensures_pure]
    exact ⟨by simp, fun _ => ⟨fun _ => ⟨by simp, fun _ => ih⟩, fun _ => trivial⟩⟩

/-- `onInputBufferWrite` sends samples only in a started session. -/
theorem capture_onInputBufferWrite (fuel : ℕ) (c : UwaVClient) :
    (onInputBufferWrite fuel c).Ensures
      (fun e => e.OfCapture ∧ ∀ samples, e = .emit (.audioIn samples) → c.serverStarted)
      fun _ => True := by
  simp only [onInputBufferWrite, ensures_bind, ensures_connected, ensures_ite]
  refine ⟨by simp, fun _ => ⟨fun _ => ⟨fun hc => ?_, fun _ => ?_⟩, fun _ => by simp⟩⟩
  · exact (capture_sendChunks _ _).mono (fun _ he => ⟨he, fun _ _ => hc.1⟩) fun _ _ => trivial
  · exact (capture_discardChunks _ _).mono
      (fun _ he => ⟨he.1, fun samples h => absurd h (he.2 samples)⟩) fun _ _ => trivial

/-! ## Connection events and buttons -/

theorem routine_stopIfConnected (c : UwaVClient) : Routine c (stopIfConnected c) := by
  refine ensures_bind.mpr (ensures_anyConnected (fun _ => trivial) fun _ => ?_)
  simp [Keeps.refl, keeps_clearServerState]

theorem routine_uiServerDisconnect (c : UwaVClient) : Routine c (uiServerDisconnect c) := by
  have h : ∀ c' : UwaVClient, Keeps c { c' with buttonConnect := true } ↔ Keeps c c' := fun c' =>
    ⟨fun h => h.trans (.of_eq rfl rfl rfl), fun h => h.trans (.of_eq rfl rfl rfl)⟩
  have hstop : Routine c (stopIfConnected
      { c with
        buttonStart := false
        buttonStop := false
        buttonConnect := false
        groupServer := false }) :=
    (routine_stopIfConnected _).after (.of_eq rfl rfl rfl)
  simp [uiServerDisconnect, h, hstop]

theorem routine_onSioConnectFail (c : UwaVClient) : Routine c (onSioConnectFail c) :=
  (routine_uiServerDisconnect _).after (.of_eq rfl rfl rfl)

theorem keeps_onSioConnectRetry (c : UwaVClient) : Keeps c (onSioConnectRetry c) := by
  unfold onSioConnectRetry
  split <;> exact .of_eq rfl rfl rfl

theorem routine_onSioConnectClose (c : UwaVClient) : Routine c (onSioConnectClose c) := by
  have hstop : Keeps c (uiRemoteStop c.clearServerState) :=
    (keeps_clearServerState c).trans (.of_eq rfl rfl rfl)
  have hdisconnect : Routine c (uiServerDisconnect (uiRemoteStop c.clearServerState)) :=
    (routine_uiServerDisconnect _).after hstop
  refine ensures_bind.mpr (ensures_anyConnected (fun _ => trivial) fun _ => ?_)
  simp [routine_uiServerDisconnect, hdisconnect]

theorem menus_saveConfig (withUi : Bool) (c : UwaVClient) : MovesMenus c (saveConfig withUi c) := by
  have h : ∀ config, MenusOnly c { c with savedConfig := config } := fun _ => rfl
  simp [saveConfig, h]

theorem menus_getClientID (c : UwaVClient) : MovesMenus c (getClientID c) := by
  have h : ∀ config, MovesMenus c (saveConfig false { c with savedConfig := config }) :=
    fun config => (menus_saveConfig false _).after rfl
  simp [getClientID, h, MenusOnly.refl]

theorem routine_onSioSocketOpen (c : UwaVClient) : Routine c (onSioSocketOpen c) := by
  refine ensures_bind.mpr (ensures_listen.mpr ⟨trivial, fun _ => ?_⟩)
  exact (menus_getClientID c).routine.bind fun c' => by simp [Keeps.refl]

theorem routine_onButtonStartClicked (c : UwaVClient) : Routine c (onButtonStartClicked c) := by
  have h : Keeps c { c with buttonStart := false, buttonStop := true } := .of_eq rfl rfl rfl
  simp [onButtonStartClicked, validateStartStopState, h, Keeps.refl]

theorem routine_onButtonStopClicked (c : UwaVClient) : Routine c (onButtonStopClicked c) := by
  have hstop : Keeps c (uiLocalStop c) := .of_eq rfl rfl rfl
  have hclear : Keeps c (uiLocalStop c).clearServerState := hstop.trans (keeps_clearServerState _)
  simp [onButtonStopClicked, hclear]

theorem routine_attemptConnectionTo (dest : String) (c : UwaVClient) :
    Routine c (attemptConnectionTo dest c) := by
  have h : ∀ b, Keeps c { c with buttonConnect := b } := fun _ => .of_eq rfl rfl rfl
  simp only [attemptConnectionTo, ensures_ite, ensures_pure, ensures_bind,
    ensures_validateConnectString]
  refine ⟨fun _ => .refl c, fun _ => ⟨trivial, fun uri => ?_⟩⟩
  split <;> simp [h]

theorem routine_onButtonConnectClicked (dest : String) (c : UwaVClient) :
    Routine c (onButtonConnectClicked dest c) := by
  have hcancel : Routine c (uiServerDisconnect { c with connectRetryState := false }) :=
    (routine_uiServerDisconnect _).after (.of_eq rfl rfl rfl)
  have hattempt := routine_attemptConnectionTo dest c
  simp [onButtonConnectClicked, hcancel, hattempt, Keeps.refl]

theorem menus_onSliderChunkSizeReleased (c : UwaVClient) :
    MovesMenus c (onSliderChunkSizeReleased c) := by
  have h : ∀ n, MenusOnly c { c with chunkSize := n, sliderChunkSize := n } := fun _ => rfl
  simp [onSliderChunkSizeReleased, h]

/-! ## Device drop-downs and saved settings -/

section Drop

variable (dir : Direction) (c : UwaVClient)

theorem menus_setDeviceCombo {b : Combo} (h : b.items = (c.deviceCombo dir).items) :
    MenusOnly c (c.setDeviceCombo b dir) := by
  cases dir <;>
    simp [MenusOnly, UwaVClient.withoutMenus, UwaVClient.setDeviceCombo, h, UwaVClient.deviceCombo]

theorem menus_setPrimaryDeviceNum (n : ℤ) : MenusOnly c (c.setPrimaryDeviceNum n dir) := by
  cases dir <;> rfl

theorem menus_setSavedDevice (name : String) : MenusOnly c (c.setSavedDevice name dir) := by
  cases dir <;> rfl

theorem menus_onDeviceIndexChanged {onSelected : Slot Unit}
    (hsel : onSelected.Ensures ClientOp.OfMenus fun _ => True) (index : ℤ) :
    MovesMenus c (onDeviceIndexChanged dir onSelected index c) := by
  have hnum := menus_setPrimaryDeviceNum dir c
  have hboth : ∀ n name, MenusOnly c ((c.setPrimaryDeviceNum n dir).setSavedDevice name dir) :=
    fun n name => (hnum n).trans (menus_setSavedDevice dir _ name)
  simp [onDeviceIndexChanged, MenusOnly.refl, hnum, hboth, hsel]

theorem menus_deviceIndexChanged (index : ℤ) : MovesMenus c (deviceIndexChanged dir index c) := by
  cases dir <;> exact menus_onDeviceIndexChanged _ c (by simp) index

theorem menus_moveDeviceIndex (index : ℤ) : MovesMenus c (moveDeviceIndex dir index c) := by
  have hcombo : MenusOnly c (c.setDeviceCombo { c.deviceCombo dir with current := index } dir) :=
    menus_setDeviceCombo dir c rfl
  have hmoved := (menus_deviceIndexChanged dir _ index).after hcombo
  simp [moveDeviceIndex, MenusOnly.refl, hmoved]

theorem menus_setDeviceIndex (index : ℤ) : MovesMenus c (setDeviceIndex dir index c) :=
  menus_moveDeviceIndex dir c _

theorem menus_setDeviceText (text : String) : MovesMenus c (setDeviceText dir text c) := by
  unfold setDeviceText
  split
  · exact menus_setDeviceIndex dir c _
  · exact ensures_pure.mpr (.refl c)

/-- The client with other rows in a device drop-down. -/
def UwaVClient.withDeviceItems (c : UwaVClient) (items : List String) (dir : Direction) : UwaVClient :=
  c.setDeviceCombo { c.deviceCombo dir with items } dir

theorem Keeps.withDeviceItems {c c' : UwaVClient} (h : Keeps c c') (items : List String) :
    Keeps (c.withDeviceItems items dir) (c'.withDeviceItems items dir) := by
  cases dir
  · exact ⟨h.started, fun d => by cases d; exacts [rfl, h.items .output]⟩
  · exact ⟨h.started, fun d => by cases d; exacts [h.items .input, rfl]⟩

/-- The rows become the ones given. -/
theorem menus_setDeviceItems (items : List String) :
    MovesMenus (c.withDeviceItems items dir) (setDeviceItems dir items c) := by
  have h := menus_moveDeviceIndex dir (c.withDeviceItems items dir)
  simp only [UwaVClient.withDeviceItems] at h
  simp [setDeviceItems, UwaVClient.withDeviceItems, h]

theorem menus_addDeviceItems (items : List String) :
    MovesMenus (c.withDeviceItems ((c.deviceCombo dir).items ++ items) dir)
      (addDeviceItems dir items c) := by
  unfold addDeviceItems
  split
  · rename_i h
    refine ensures_pure.mpr ?_
    rw [h, List.append_nil]
    cases dir <;> rfl
  · exact menus_setDeviceItems dir c _

theorem menus_onDeviceAdded (index : ℤ) (name : String) :
    MovesMenus (c.withDeviceItems (Combo.insertItem (c.deviceCombo dir).items index name) dir)
      (onDeviceAdded dir index name c) :=
  (menus_setDeviceItems dir c _).bind fun c' => by
    simp [menus_setDeviceIndex, MenusOnly.refl]

theorem routine_onCurrentDeviceRemoved {clearText : UwaVClient → Slot UwaVClient}
    (hclear : ∀ c, Routine c (clearText c)) : Routine c (onCurrentDeviceRemoved dir clearText c) := by
  refine (menus_setDeviceIndex dir c _).routine.bind fun c₁ => (hclear c₁).bind fun c₂ => ?_
  simp [Keeps.refl, keeps_clearServerState]

theorem routine_onDeviceRemoved {clearText : UwaVClient → Slot UwaVClient}
    (hclear : ∀ c, Routine c (clearText c)) (index : ℤ) :
    Routine (c.withDeviceItems (Combo.removeItem (c.deviceCombo dir).items index) dir)
      (onDeviceRemoved dir clearText index c) := by
  have hrows : ∀ c₁, Keeps c c₁ →
      Routine (c.withDeviceItems (Combo.removeItem (c.deviceCombo dir).items index) dir)
        (setDeviceItems dir (Combo.removeItem (c₁.deviceCombo dir).items index) c₁) := by
    intro c₁ h
    rw [h.items dir]
    exact (menus_setDeviceItems dir c₁ _).routine.after (h.withDeviceItems dir _)
  unfold onDeviceRemoved
  simp only [ensures_ite, ensures_bind, ensures_pure]
  exact ⟨fun _ => (routine_onCurrentDeviceRemoved dir c hclear).post hrows, fun _ => hrows c (.refl c)⟩

theorem routine_onInputDeviceRemoved (index : ℤ) :
    Routine (c.withDeviceItems (Combo.removeItem c.comboAudioSrcLocal.items index) .input)
      (onInputDeviceRemoved index c) :=
  routine_onDeviceRemoved .input c (fun c => ensures_pure.mpr (.refl c)) index

theorem routine_onOutputDeviceRemoved (index : ℤ) :
    Routine (c.withDeviceItems (Combo.removeItem c.comboAudioSinkLocal.items index) .output)
      (onOutputDeviceRemoved index c) :=
  routine_onDeviceRemoved .output c (fun c => (menus_setDeviceText .output c "").routine) index

theorem menus_selectSavedDevice (value : String) : MovesMenus c (selectSavedDevice dir value c) := by
  simp only [selectSavedDevice]
  rcases (c.deviceCombo dir).findText value with _ | index
  · dsimp only
    rcases if value = "server" then (c.deviceCombo dir).findText (placeholder dir) else none
      with _ | index
    · exact ensures_pure.mpr (.refl c)
    · exact menus_setDeviceIndex dir c index
  · exact menus_setDeviceIndex dir c index

theorem menus_loadSetting (kv : String × String) : MovesMenus c (loadSetting kv c) := by
  have hsaved : ∀ d, MovesMenus c (selectSavedDevice d kv.2 (c.setSavedDevice kv.2 d)) := fun d =>
    (menus_selectSavedDevice d _ _).after (menus_setSavedDevice d c _)
  have hconfig : ∀ config servers infer model, MenusOnly c { c with
      savedConfig := config
      comboServerSelect := servers
      comboInferDevice := infer
      comboModel := model } := fun _ _ _ _ => rfl
  simp [loadSetting, hsaved, hconfig]

theorem menus_loadConfig : MovesMenus c (loadConfig c) := by
  have hsave : ∀ config, MovesMenus c (saveConfig true { c with savedConfig := config }) :=
    fun config => (menus_saveConfig true _).after rfl
  simp only [loadConfig, ensures_bind, ensures_load]
  refine ⟨trivial, fun settings => ?_⟩
  split
  · exact ensures_foldlM (fun c' kv h => (menus_loadSetting c' kv).after h) (.refl c)
  · simp [hsave]

end Drop

/-- Filling the drop-downs reads the device lists and starts no session. -/
theorem ensures_onDeviceListsReady (c : UwaVClient) :
    (onDeviceListsReady c).Ensures (fun e => e.Ordinary ∨ ∃ dir, e = .getDeviceList dir)
      fun c' => c'.serverStarted → c.serverStarted := by
  have hadd : ∀ dir items c₁, (c₁.serverStarted → c.serverStarted) →
      (addDeviceItems dir items c₁).Ensures (fun e => e.Ordinary ∨ ∃ dir, e = .getDeviceList dir)
        fun c₂ => c₂.serverStarted → c.serverStarted := by
    intro dir items c₁ h
    refine (menus_addDeviceItems dir c₁ items).routine.mono (fun _ => .inl) fun c₂ h₂ hs => h ?_
    cases dir <;> exact h₂.started hs
  have hload : ∀ c₁, (c₁.serverStarted → c.serverStarted) →
      (loadConfig c₁).Ensures (fun e => e.Ordinary ∨ ∃ dir, e = .getDeviceList dir)
        fun c₂ => c₂.serverStarted → c.serverStarted := fun c₁ h =>
    (menus_loadConfig c₁).routine.mono (fun _ => .inl) fun _ h₂ => h ∘ h₂.started
  have hfill : ∀ dir c₁, (c₁.serverStarted → c.serverStarted) →
      (fillDeviceItems dir c₁).Ensures (fun e => e.Ordinary ∨ ∃ dir, e = .getDeviceList dir)
        fun c₂ => c₂.serverStarted → c.serverStarted := by
    intro dir c₁ h
    simp only [fillDeviceItems, ensures_bind, ensures_getDeviceList]
    exact ⟨.inr ⟨dir, rfl⟩, fun items => (hadd _ _ _ h).post fun _ h₂ => hadd _ _ _ h₂⟩
  simp only [onDeviceListsReady, ensures_bind]
  exact (hfill _ _ id).post fun _ h₁ => (hfill _ _ h₁).post hload

/-! ## Server messages -/

theorem menus_getFlag (m : Message) : (getFlag m).Ensures ClientOp.OfMenus fun _ => True :=
  ensures_ofExcept.mpr fun _ _ => trivial

theorem menus_sioToString (m : Message) :
    (sioToString m).Ensures ClientOp.OfMenus fun _ => True := by
  cases m <;> simp [sioToString]

section Messages

variable (c : UwaVClient)

theorem ensures_withObject {φ : ClientOp → Prop} {Q : UwaVClient → Prop} {messages : List Message}
    {body : List (String × Message) → Slot UwaVClient} (hc : Q c)
    (hbody : ∀ fields, (body fields).Ensures φ Q) : (withObject messages c body).Ensures φ Q := by
  simp only [withObject, getFlag, ensures_bind, ensures_ite, ensures_ofExcept]
  exact fun m _ flag _ => ⟨fun _ => ensures_pure.mpr hc, fun _ fields _ => hbody fields⟩

theorem menus_forFields {body : String → Message → UwaVClient → Slot UwaVClient}
    (hbody : ∀ key m c, MovesMenus c (body key m c)) (fields : List (String × Message)) :
    MovesMenus c (forFields fields body c) :=
  ensures_foldlM (fun c' kv h => (hbody kv.1 kv.2 c').after h) (.refl c)

theorem menus_setModelIndex (index : ℤ) : MovesMenus c (setModelIndex index c) := by
  have h : ∀ b, MenusOnly c { c with comboModel := b } := fun _ => rfl
  simp [setModelIndex, onComboModelCurrentIndexChanged, MenusOnly.refl, h]

theorem menus_setInferDeviceIndex (index : ℤ) : MovesMenus c (setInferDeviceIndex index c) := by
  have h : ∀ b, MenusOnly c { c with comboInferDevice := b } := fun _ => rfl
  simp [setInferDeviceIndex, onComboInferDeviceCurrentIndexChanged, MenusOnly.refl, h]

theorem menus_selectModels (m : Message) : MovesMenus c (selectModels m c) := by
  refine ensures_foldlM (fun c' i h => ?_) (.refl c)
  refine ensures_bind.mpr ((menus_sioToString m).post fun text _ => ?_)
  simp [(menus_setModelIndex c' i).after h, h]

theorem menus_onListModels (messages : List Message) : MovesMenus c (onListModels messages c) := by
  refine ensures_withObject c (.refl c) fun fields => ?_
  have h : ∀ b, MenusOnly c { c with comboModel := b } := fun _ => rfl
  have hselect : ∀ b i, MovesMenus c (setModelIndex i { c with comboModel := b }) := fun b i =>
    (menus_setModelIndex _ i).after (h b)
  have htext : ∀ b text, MovesMenus c (selectModel text { c with comboModel := b }) := by
    intro b text
    unfold selectModel
    split
    · exact hselect b _
    · exact ensures_pure.mpr (h b)
  simp only [ensures_bind, ensures_ofExcept]
  intro models _
  refine (ensures_mapM menus_sioToString).post fun items _ => ?_
  simp [h, hselect, htext]

theorem menus_onListDevices (messages : List Message) : MovesMenus c (onListDevices messages c) :=
  ensures_withObject c (.refl c) fun fields => by
    simp only [ensures_bind, ensures_ofExcept, ensures_pure]
    exact fun _ _ => (ensures_mapM menus_getFlag).post fun _ _ _ _ =>
      (ensures_mapM menus_getFlag).post fun _ _ => .refl c

theorem menus_onListCompute (messages : List Message) : MovesMenus c (onListCompute messages c) := by
  have h : ∀ b, MenusOnly c { c with comboInferDevice := b } := fun _ => rfl
  refine ensures_withObject c (.refl c) fun fields => ?_
  simp only [ensures_bind, ensures_ite, ensures_pure, ensures_ofExcept, ensures_indexAfterRowChange]
  refine ⟨fun _ => .refl c, fun _ _ _ => (ensures_mapM menus_getFlag).post fun _ _ => ?_⟩
  exact ⟨trivial, fun _ => h _⟩

theorem menus_setParam (key : String) (m : Message) : MovesMenus c (setParam key m c) := by
  have h : ∀ n, MenusOnly c { c with sliderChunkSize := n } := fun _ => rfl
  simp [setParam, MenusOnly.refl, h, menus_selectModels]

theorem menus_startedField (key : String) (m : Message) : MovesMenus c (startedField key m c) := by
  simp [startedField, MenusOnly.refl, menus_sioToString]

theorem menus_onMessage (messages : List Message) : MovesMenus c (onMessage messages c) :=
  ensures_withObject c (.refl c) fun fields => by simp [MenusOnly.refl]

theorem menus_onPong (messages : List Message) : MovesMenus c (onPong messages c) :=
  ensures_withObject c (.refl c) fun fields =>
    menus_forFields c (fun key m c => by simp [pongField, MenusOnly.refl]) fields

theorem menus_onSetStatus (messages : List Message) : MovesMenus c (onSetStatus messages c) :=
  ensures_withObject c (.refl c) fun fields => menus_forFields c
    (fun key m c => by simp [statusField, MenusOnly.refl, menus_sioToString]) fields

theorem routine_onSetParams (messages : List Message) : Routine c (onSetParams messages c) := by
  refine ensures_withObject c (.refl c) fun fields => ?_
  refine (menus_forFields c (fun key m c => menus_setParam c key m) fields).routine.bind fun c' => ?_
  exact ensures_pure.mpr (.of_eq rfl rfl rfl)

/-- The message that starts a session keeps the rest. -/
theorem routine_onServerStarted (messages : List Message) :
    Routine { c with serverStarted := true } (onServerStarted messages c) := by
  simp only [onServerStarted, withObject, getFlag, ensures_bind, ensures_ite, ensures_ofExcept]
  refine fun m _ flag _ => ⟨fun _ => ?_, fun _ fields _ => ?_⟩
  · exact ensures_pure.mpr ⟨fun _ => rfl, fun dir => by cases dir <;> rfl⟩
  · refine (menus_forFields c (fun key m c => menus_startedField c key m) _).routine.post fun c' h =>
      (menus_saveConfig true _).routine.after ⟨fun _ => rfl, fun dir => ?_⟩
    exact (by cases dir <;> rfl : _ = (c'.deviceCombo dir).items).trans
      ((h.items dir).trans (by cases dir <;> rfl))

theorem routine_onServerStopped : Routine c (onServerStopped c) := by
  have h : Keeps c (uiRemoteStop c.clearServerState) :=
    (keeps_clearServerState c).trans (.of_eq rfl rfl rfl)
  simp [onServerStopped, h]

theorem routine_onServerExiting : Routine c (onServerExiting c) :=
  (routine_stopIfConnected c).bind fun _ => (routine_uiServerDisconnect _).after (.of_eq rfl rfl rfl)

theorem routine_onAudioOut (messages : List Message) : Routine c (onAudioOut messages c) := by
  simp [onAudioOut, getFlag, routine_onSamplesReceived, Keeps.refl]

/-- No message but `SERVER_STARTED` starts a session. -/
theorem routine_onSioMessage {name : String} (h : name ≠ "SERVER_STARTED") (messages : List Message) :
    Routine c (onSioMessage name messages c) := by
  simp [onSioMessage, h, routine_onAudioOut, (menus_onSetStatus c messages).routine,
    routine_onSetParams, routine_onServerStopped, routine_onServerExiting,
    (menus_onListModels c messages).routine, (menus_onListDevices c messages).routine,
    (menus_onListCompute c messages).routine, (menus_onMessage c messages).routine,
    (menus_onPong c messages).routine, Keeps.refl]

end Messages

/-! ## Events of the main thread -/

theorem routine_ui (e : UiEvent) (c : UwaVClient) : Routine c (e.slot c) := by
  cases e with
  | startClicked => exact routine_onButtonStartClicked c
  | stopClicked => exact routine_onButtonStopClicked c
  | connectClicked dest => exact routine_onButtonConnectClicked dest c
  | serverExitClicked => simp [UiEvent.slot, onButtonServerExitClicked, Keeps.refl]
  | serverSelected dest => exact routine_attemptConnectionTo dest c
  | deviceSelected dir index => exact (menus_setDeviceIndex dir c index).routine
  | modelSelected index => exact (menus_setModelIndex c index).routine
  | inferDeviceSelected index => exact (menus_setInferDeviceIndex c index).routine
  | chunkSizeMoved milliseconds => exact ensures_pure.mpr (.of_eq rfl rfl rfl)
  | chunkSizeReleased => exact (menus_onSliderChunkSizeReleased c).routine

/-- Whether the event brings a `SERVER_STARTED` message that is not dropped. -/
def SioSignal.startsSession : SioSignal → Bool
  | .message name messages =>
    name = "SERVER_STARTED" ∧ (Message.first messages).toOption.any Message.isObject
  | _ => false

/-- A `SERVER_STARTED` message without an object is dropped. -/
theorem routine_onServerStarted_dropped {messages : List Message}
    (h : (Message.first messages).toOption.any Message.isObject = false) (c : UwaVClient) :
    Routine c (onServerStarted messages c) := by
  simp only [onServerStarted, withObject, getFlag, ensures_bind, ensures_ite, ensures_ofExcept]
  refine fun m hm flag hflag => ⟨fun _ => ensures_pure.mpr (.refl c), fun hobject => ?_⟩
  rw [hm] at h
  cases m with
  | object fields => cases h
  | nullptr => cases hflag
  | _ =>
    cases hflag
    simp at hobject

theorem routine_sio {s : SioSignal} (h : s.startsSession = false) (c : UwaVClient) :
    Routine c (s.slot c) := by
  cases s with
  | connectFail => exact routine_onSioConnectFail c
  | connectRetry => exact ensures_pure.mpr (keeps_onSioConnectRetry c)
  | connectSuccess => exact ensures_pure.mpr (.of_eq rfl rfl rfl)
  | connectClose => exact routine_onSioConnectClose c
  | socketOpen => exact routine_onSioSocketOpen c
  | socketClose => simp [SioSignal.slot, onSioSocketClose, Keeps.refl]
  | message name messages =>
    by_cases hname : name = "SERVER_STARTED"
    · subst hname
      exact routine_onServerStarted_dropped (by simpa [SioSignal.startsSession] using h) c
    · exact routine_onSioMessage c hname messages

/-- Not even the start of a session changes the rows of a device drop-down. -/
theorem ensures_sio (s : SioSignal) (c : UwaVClient) :
    (s.slot c).Ensures ClientOp.Ordinary fun c' =>
      ∀ dir, (c'.deviceCombo dir).items = (c.deviceCombo dir).items := by
  cases hs : s.startsSession with
  | false => exact (routine_sio hs c).post fun _ h => h.items
  | true =>
    cases s with
    | message name messages =>
      obtain ⟨hname, -⟩ := of_decide_eq_true hs
      subst hname
      exact (routine_onServerStarted c messages).post fun _ h dir =>
        (h.items dir).trans (by cases dir <;> rfl)
    | _ => cases hs

/-- `SERVER_START` is sent only by the slot of `streamStarted`, samples only in a started session. -/
def AudioSignal.MaySend (s : AudioSignal) (c : UwaVClient) (e : ClientOp) : Prop :=
  (e = .emit .serverStart → s = .streamStarted) ∧
    ∀ samples, e = .emit (.audioIn samples) → c.serverStarted

theorem maySend_of_ordinary {e : ClientOp} (h : e.Ordinary) (s : AudioSignal) (c : UwaVClient) :
    s.MaySend c e := by
  constructor
  · rintro rfl
    exact h.elim
  · rintro samples rfl
    exact h.elim

theorem ensures_signal_of_routine {s : AudioSignal} {c c₁ : UwaVClient} {p : Slot UwaVClient}
    (hp : Routine c₁ p) (h₁ : c₁.serverStarted → c.serverStarted) :
    p.Ensures (s.MaySend c) fun c' => c'.serverStarted → c.serverStarted :=
  hp.mono (fun _ he => maySend_of_ordinary he s c) fun _ h => h₁ ∘ h.started

/-- The slot of an audio signal starts no session. -/
theorem ensures_signal (s : AudioSignal) (fuel : ℕ) (c : UwaVClient) :
    (s.slot fuel c).Ensures (s.MaySend c) fun c' => c'.serverStarted → c.serverStarted := by
  cases s with
  | deviceListsReady =>
    refine (ensures_onDeviceListsReady c).mono (fun e he => ?_) fun _ => id
    rcases he with he | ⟨dir, rfl⟩
    · exact maySend_of_ordinary he _ c
    · exact ⟨nofun, nofun⟩
  | inputDeviceAdded i name =>
    exact ensures_signal_of_routine (menus_onDeviceAdded .input c i name).routine id
  | outputDeviceAdded i name =>
    exact ensures_signal_of_routine (menus_onDeviceAdded .output c i name).routine id
  | inputDeviceRemoved i => exact ensures_signal_of_routine (routine_onInputDeviceRemoved c i) id
  | outputDeviceRemoved i => exact ensures_signal_of_routine (routine_onOutputDeviceRemoved c i) id
  | streamStarted =>
    refine (ensures_onAudioStreamSuccess c).mono (fun e he => ⟨fun _ => rfl, fun samples h => ?_⟩)
      fun _ h => h.started
    rcases he with he | he
    · exact (maySend_of_ordinary he .streamStarted c).2 samples h
    · rw [he] at h
      cases h
  | streamStopped => exact ensures_signal_of_routine (routine_onAudioStreamEnd c) id
  | streamConnecting => exact ensures_signal_of_routine (ensures_pure.mpr (.refl c)) id
  | signalInputBufferWrite =>
    refine ensures_bind.mpr ((capture_onInputBufferWrite fuel c).mono (fun e he => ⟨?_, he.2⟩)
      fun _ _ => ensures_pure.mpr id)
    rintro rfl
    exact he.1.elim

/-- The rows of a device drop-down once the slot of this signal has run, when the device list reads
`devices`. -/
def AudioSignal.replay (dir : Direction) (devices rows : List String) : AudioSignal → List String
  | .deviceListsReady => rows ++ devices ++ [placeholder dir]
  | .inputDeviceAdded index name => if dir = .input then Combo.insertItem rows index name else rows
  | .outputDeviceAdded index name => if dir = .output then Combo.insertItem rows index name else rows
  | .inputDeviceRemoved index => if dir = .input then Combo.removeItem rows index else rows
  | .outputDeviceRemoved index => if dir = .output then Combo.removeItem rows index else rows
  | _ => rows

end UwavClient
