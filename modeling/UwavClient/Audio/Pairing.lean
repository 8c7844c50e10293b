import UwavClient.Audio.StreamEffects
import UwavClient.Library.Machine

/-!
# Streams and their buffers

A stream is created along with its buffer and destroyed along with it. The one exit that keeps the
pair apart is the failure of `pw_stream_new_simple`, which leaves the buffer behind.
-/

namespace UwavClient

/-- There is a stream exactly if there is a buffer, and one is connected only if there is. -/
structure Endpoint.Paired (e : Endpoint) : Prop where
  stream_eq : e.stream = e.data.buffer.isSome
  buffer_of_connected : e.connected → e.data.buffer.isSome

/-- Without a stream there is no buffer and no connection. -/
theorem Endpoint.Paired.of_no_stream {e : Endpoint} (h : e.Paired) (hs : e.stream = false) :
    e.data.buffer = none ∧ e.connected = false := by
  have hb : e.data.buffer.isSome = false := h.stream_eq.symm.trans hs
  refine ⟨Option.isNone_iff_eq_none.mp (Option.isSome_eq_false_iff.mp hb), ?_⟩
  rw [Bool.eq_false_iff]
  intro hconn
  exact Bool.false_ne_true (hb.symm.trans (h.buffer_of_connected hconn))

theorem Endpoint.currentDevice_of_deref_none {e : Endpoint} (h : e.deref = .ok none) :
    e.currentDevice = none := by
  unfold Endpoint.deref at h
  split at h
  · assumption
  · split at h <;> cases h

namespace AudioProvider

variable {a b c : AudioProvider} {dir : Direction} {pw : PipeWireAnswers}

/-- Both streams have their buffers, and the current devices are in their lists. -/
structure Sound (a : AudioProvider) : Prop where
  paired : ∀ dir, (a.endpoint dir).Paired
  points : ∀ dir, ∃ d, (a.endpoint dir).deref = .ok d

theorem paired_of_one (h : ∀ dir, (a.endpoint dir).Paired) (hdir : (b.endpoint dir).Paired)
    (hothers : ∀ dir', dir' ≠ dir → b.endpoint dir' = a.endpoint dir') :
    ∀ dir', (b.endpoint dir').Paired := by
  intro dir'
  by_cases hd : dir' = dir
  · subst hd
    exact hdir
  · rw [hothers dir' hd]
    exact h dir'

theorem paired_update {f : Endpoint → Endpoint} (h : ∀ dir, (a.endpoint dir).Paired)
    (hf : (f (a.endpoint dir)).Paired) : ∀ dir', ((a.update f dir).endpoint dir').Paired := by
  apply paired_of_one h
  · rwa [endpoint_update]
  · intro dir' hd
    exact endpoint_update_of_ne a f hd

/-- A flag may be taken down at any time. -/
theorem paired_setConnected_false (h : ∀ dir, (a.endpoint dir).Paired) :
    ∀ dir', ((a.setConnected dir false).endpoint dir').Paired :=
  paired_update h ⟨(h dir).stream_eq, nofun⟩

/-- A disconnect may take down the flag of its stream, and does nothing else to an endpoint. -/
theorem endpoint_disconnect (pw : PipeWireAnswers) (dir : Direction) (a : AudioProvider)
    (dir' : Direction) :
    (disconnect pw dir a).endpoint dir' = a.endpoint dir' ∨
      dir' = dir ∧ (disconnect pw dir a).endpoint dir' = { a.endpoint dir with connected := false } := by
  unfold disconnect
  split
  · cases dir <;> cases dir' <;> first
      | exact Or.inl rfl
      | exact Or.inr ⟨rfl, rfl⟩
  · exact Or.inl rfl

theorem paired_disconnect (h : ∀ dir, (a.endpoint dir).Paired) :
    ∀ dir', ((disconnect pw dir a).endpoint dir').Paired := by
  intro dir'
  obtain heq | ⟨rfl, heq⟩ := endpoint_disconnect pw dir a dir'
  · exact heq ▸ h dir'
  · exact heq ▸ ⟨(h dir').stream_eq, nofun⟩

theorem Sound.of_endpoint (h : a.Sound) (heq : ∀ dir, b.endpoint dir = a.endpoint dir) : b.Sound :=
  ⟨fun dir => heq dir ▸ h.paired dir, fun dir => heq dir ▸ h.points dir⟩

theorem Sound.of_devicesKept (h : a.Sound) (hb : ∀ dir, (b.endpoint dir).Paired)
    (hkept : DevicesKept a b) : b.Sound :=
  ⟨hb, fun dir => hkept.deref ▸ h.points dir⟩

/-- The destruction of a stream: no stream, no buffer, not connected. -/
theorem paired_destroyStream (h : ∀ dir, (a.endpoint dir).Paired) :
    ∀ dir', ((destroyStream pw dir a).endpoint dir').Paired := by
  unfold destroyStream
  split
  · -- the flag goes down together with the stream
    have htwice : (((disconnect pw dir a).update (·.withoutStream) dir).setConnected dir false) =
        (disconnect pw dir a).update (fun e => { e.withoutStream with connected := false }) dir := by
      cases dir <;> rfl
    rw [htwice]
    exact paired_update (paired_disconnect h) ⟨rfl, nofun⟩
  · exact paired_setConnected_false h

theorem Sound.destroyStream (h : a.Sound) : (destroyStream pw dir a).Sound :=
  h.of_devicesKept (paired_destroyStream h.paired) devicesKept_destroyStream

section Create

variable {bufferRate : InterfaceDescriptor → ℤ}
  {setFormat : InterfaceDescriptor → AudioProvider → AudioProvider}

/-- The new stream completes the pair that its buffer began. -/
theorem paired_stream {rate : ℤ} (h : ∀ dir, (a.endpoint dir).Paired)
    (hc : ∀ dir', c.endpoint dir' = (a.update (·.withBuffer rate) dir).endpoint dir') :
    ∀ dir', ((c.update (fun e => { e with stream := true }) dir).endpoint dir').Paired := by
  apply paired_of_one h
  · rw [endpoint_update, hc, endpoint_update]
    exact ⟨rfl, fun _ => rfl⟩
  · intro dir' hd
    rw [endpoint_update_of_ne _ _ hd, hc, endpoint_update_of_ne _ _ hd]

/-- A stream that cannot be connected takes its buffer with it. -/
theorem paired_withoutStream {rate : ℤ} (h : ∀ dir, (a.endpoint dir).Paired)
    (hconn : (a.endpoint dir).connected = false)
    (hc : ∀ dir', c.endpoint dir' = (a.update (·.withBuffer rate) dir).endpoint dir') :
    ∀ dir', (((disconnect pw dir c).update (·.withoutStream) dir).endpoint dir').Paired := by
  apply paired_of_one h
  · rw [endpoint_update]
    refine ⟨rfl, fun hup => ?_⟩
    obtain heq | ⟨-, heq⟩ := endpoint_disconnect pw dir c dir
    · rw [heq, hc, endpoint_update] at hup
      exact Bool.noConfusion (hconn.symm.trans hup)
    · rw [heq] at hup
      exact Bool.noConfusion hup
  · intro dir' hd
    rw [endpoint_update_of_ne _ _ hd]
    obtain heq | ⟨rfl, -⟩ := endpoint_disconnect pw dir c dir'
    · rw [heq, hc, endpoint_update_of_ne _ _ hd]
    · exact absurd rfl hd

/-- When the stream object can be created, the creation of a stream keeps the pair together. -/
theorem Sound.createStream (hnew : (pw dir).newStream)
    (hfmt : ∀ device a, DevicesKept a (setFormat device a))
    (hend : ∀ device a dir, (setFormat device a).endpoint dir = a.endpoint dir) (h : a.Sound) :
    ∃ b, createStream pw dir bufferRate setFormat a = .ok b ∧ b.Sound := by
  obtain ⟨found, hd⟩ := h.points dir
  by_cases hskip : (a.endpoint dir).stream ∨ (a.endpoint dir).currentDevice.isNone
  · exact ⟨a, by rw [AudioProvider.createStream, if_pos hskip]; rfl, h⟩
  obtain ⟨hs, hcur⟩ := not_or.mp hskip
  have hs' : (a.endpoint dir).stream = false := Bool.eq_false_iff.mpr hs
  obtain ⟨hb, hconn⟩ := (h.paired dir).of_no_stream hs'
  cases found with
  | none =>
    rw [Endpoint.currentDevice_of_deref_none hd] at hcur
    exact absurd rfl hcur
  | some device =>
    have heq := createStream_of_device pw bufferRate setFormat hs' hb hd
    refine ⟨_, heq, h.of_devicesKept ?_ (devicesKept_createStream hfmt heq)⟩
    have hbuffered : ∀ dir', (setFormat device
        (a.update (·.withBuffer (bufferRate device)) dir)).endpoint dir' =
        (a.update (·.withBuffer (bufferRate device)) dir).endpoint dir' := hend device _
    -- the buffer is there, the stream is not: what follows restores the pair
    simp only [hnew, Bool.not_true, Bool.false_eq_true, if_false]
    split
    · exact paired_withoutStream h.paired hconn hbuffered
    · exact paired_stream h.paired hbuffered

end Create

theorem Sound.createInputStream (hnew : (pw .input).newStream) (rate : ℤ) (h : a.Sound) :
    ∃ b, createInputStream pw rate a = .ok b ∧ b.Sound := by
  unfold AudioProvider.createInputStream
  dsimp only
  exact h.createStream hnew (fun _ _ => devicesKept_setRate _) fun _ _ dir => by cases dir <;> rfl

theorem Sound.createOutputStream (hnew : (pw .output).newStream) (rate : ℤ) (h : a.Sound) :
    ∃ b, createOutputStream pw rate a = .ok b ∧ b.Sound :=
  h.createStream hnew (fun _ a => .refl a) fun _ _ _ => rfl

theorem Sound.swapStream (hnew : (pw dir).newStream) (h : a.Sound) :
    ∃ b, swapStream pw dir a = .ok b ∧ b.Sound := by
  cases dir with
  | input => exact h.destroyStream.createInputStream hnew _
  | output => exact h.destroyStream.createOutputStream hnew _

theorem ok_bind_of {ε α β : Type} {x : Except ε α} {f : α → Except ε β} {P : α → Prop} {Q : β → Prop}
    (hx : ∃ v, x = .ok v ∧ P v) (hf : ∀ v, P v → ∃ y, f v = .ok y ∧ Q y) :
    ∃ y, (x >>= f) = .ok y ∧ Q y := by
  obtain ⟨v, rfl, hv⟩ := hx
  exact hf v hv

theorem Sound.startAudio (hnew : ∀ dir, (pw dir).newStream) (h : a.Sound) :
    ∃ b, startAudio pw a = .ok b ∧ b.Sound := by
  have hderef {v : AudioProvider} (hv : v.Sound) (dir : Direction) :
      ∃ d, (v.endpoint dir).deref = .ok d ∧ True :=
    (hv.points dir).imp fun _ hd => ⟨hd, trivial⟩
  have hout (v : AudioProvider) (hv : v.Sound) (usable : Option InterfaceDescriptor → Bool) :
      ∃ b, (do if usable (← v.output.deref) then AudioProvider.createOutputStream pw 0 v else return v) =
        .ok b ∧ b.Sound := by
    refine ok_bind_of (hderef hv .output) fun d _ => ?_
    split
    · exact hv.createOutputStream (hnew .output) 0
    · exact ⟨v, rfl, hv⟩
  unfold AudioProvider.startAudio
  split
  · exact ⟨a, rfl, h⟩
  · refine ok_bind_of (hderef h .input) fun d _ => ?_
    split
    · exact ok_bind_of (h.createInputStream (hnew .input) _) fun v hv => hout v hv _
    · exact hout a h _

theorem Sound.stopAudio (h : a.Sound) : (stopAudio pw a).Sound := by
  have hinput : (AudioProvider.destroyStream pw .input a).Sound := h.destroyStream
  have houtput : (AudioProvider.destroyStream pw .output
      (AudioProvider.destroyStream pw .input a)).Sound := hinput.destroyStream
  exact houtput

theorem Sound.setActiveDevice (hnew : (pw dir).newStream) (index : ℤ) (h : a.Sound) :
    ∃ b, setActiveDevice pw dir index a = .ok b ∧ b.Sound := by
  obtain ⟨found, hd⟩ := h.points dir
  have hselect {slot : Option ℕ}
      (hslot : ∃ d, ({ a.endpoint dir with currentDevice := slot } : Endpoint).deref = .ok d) :
      (a.update (fun e => { e with currentDevice := slot }) dir).Sound := by
    refine ⟨paired_update h.paired ⟨(h.paired dir).stream_eq, (h.paired dir).buffer_of_connected⟩,
      fun dir' => ?_⟩
    by_cases hdir : dir' = dir
    · subst hdir
      rw [endpoint_update]
      exact hslot
    · rw [endpoint_update_of_ne a _ hdir]
      exact h.points dir'
  rw [setActiveDevice_of_deref hd]
  dsimp only
  split_ifs with hout hnone hs hsame hs
  · exact ⟨a, rfl, h⟩
  · exact ⟨_, rfl, (hselect ⟨none, rfl⟩).destroyStream⟩
  · exact ⟨_, rfl, hselect ⟨none, rfl⟩⟩
  · exact ⟨a, rfl, h⟩
  all_goals
    have hlt : index.toNat < (a.endpoint dir).deviceList.length := by omega
    have hslot : (a.update (fun e => { e with currentDevice := some index.toNat }) dir).Sound :=
      hselect ⟨some (a.endpoint dir).deviceList[index.toNat], by
        simp only [Endpoint.deref, List.getElem?_eq_getElem hlt]⟩
  · exact hslot.swapStream hnew
  · exact ⟨_, rfl, hslot⟩

theorem Sound.setServerRequestedInSampleRate (hnew : (pw .input).newStream) (rate : ℤ) (h : a.Sound) :
    ∃ b, setServerRequestedInSampleRate pw rate a = .ok b ∧ b.Sound := by
  have hset {b : AudioProvider} (hb : b.Sound) :
      ({ b with serverRequestedInSampleRate := rate } : AudioProvider).Sound :=
    hb.of_endpoint fun dir => by cases dir <;> rfl
  have hderef : ∃ d, a.input.deref = .ok d ∧ True :=
    (h.points .input).imp fun _ hd => ⟨hd, trivial⟩
  have hdestroyed : (destroyInputStream pw a).Sound := h.destroyStream
  unfold AudioProvider.setServerRequestedInSampleRate
  split
  · refine ok_bind_of hderef fun found _ => ?_
    cases found with
    | none => exact ⟨_, rfl, hset h⟩
    | some device =>
      dsimp only
      split
      · exact ok_bind_of (hdestroyed.createInputStream hnew rate) fun v hv => ⟨_, rfl, hset hv⟩
      · exact ⟨_, rfl, hset h⟩
  · exact ⟨_, rfl, hset h⟩

theorem Sound.setConnected {v : Bool} (hv : v → (a.endpoint dir).stream) (h : a.Sound) :
    (a.setConnected dir v).Sound := by
  refine h.of_devicesKept (paired_update h.paired ⟨(h.paired dir).stream_eq, fun hc => ?_⟩)
    (devicesKept_setConnected v)
  exact (h.paired dir).stream_eq ▸ hv hc

theorem Sound.post (h : a.Sound) (s : AudioSignal) : (a.post s).Sound :=
  h.of_endpoint fun _ => endpoint_post a s

/-- An event of a stream that exists. -/
theorem Sound.onStreamChanged (hs : (a.endpoint dir).stream) (state : PwStreamState) (h : a.Sound) :
    (a.onStreamChanged dir state).Sound := by
  have hdown : (a.setConnected dir false).Sound := h.setConnected nofun
  have hup : (a.setConnected dir true).Sound := h.setConnected fun _ => hs
  cases dir with
  | input =>
    cases state with
    | error => exact hdown
    | unconnected => exact hdown.post .streamStopped
    | connecting => exact h.post .streamConnecting
    | paused => exact h
    | streaming =>
      dsimp only [AudioProvider.onStreamChanged, AudioProvider.onInputStreamChanged]
      split
      · exact hup.post .streamStarted
      · exact hup
  | output =>
    cases state with
    | error | unconnected => exact hdown
    | connecting | paused => exact h
    | streaming =>
      dsimp only [AudioProvider.onStreamChanged, AudioProvider.onOutputStreamChanged]
      split
      · exact hup.post .streamStarted
      · exact hup

/-! ## Runs of calls and stream events -/

inductive AudioCall where
  | startAudio
  | stopAudio
  | setActive (dir : Direction) (index : ℤ)
  | serverRequestedInSampleRate (rate : ℤ)
  | streamChanged (dir : Direction) (state : PwStreamState)
  deriving DecidableEq, Repr

/-- A call, with what PipeWire answers during it. -/
def callStep : AudioCall × PipeWireAnswers → AudioProvider → Except Fault AudioProvider
  | (.startAudio, pw), a => a.startAudio pw
  | (.stopAudio, pw), a => .ok (a.stopAudio pw)
  | (.setActive dir index, pw), a => a.setActiveDevice pw dir index
  | (.serverRequestedInSampleRate rate, pw), a => a.setServerRequestedInSampleRate pw rate
  | (.streamChanged dir state, _), a => .ok (a.onStreamChanged dir state)

def Delivered : AudioCall × PipeWireAnswers → AudioProvider → Prop
  | (.streamChanged dir _, _), a => (a.endpoint dir).stream
  | _, _ => True

def ofDevices (inputs outputs : List InterfaceDescriptor) : AudioProvider :=
  { input := { deviceList := inputs }, output := { deviceList := outputs } }

theorem sound_ofDevices (inputs outputs : List InterfaceDescriptor) :
    (ofDevices inputs outputs).Sound :=
  ⟨fun dir => by cases dir <;> exact ⟨rfl, nofun⟩, fun dir => by cases dir <;> exact ⟨none, rfl⟩⟩

theorem Sound.callStep {c : AudioCall × PipeWireAnswers} (hd : Delivered c a)
    (hnew : ∀ dir, (c.2 dir).newStream) (h : a.Sound) :
    ∃ b, callStep c a = .ok b ∧ b.Sound := by
  obtain ⟨call, pw⟩ := c
  cases call with
  | startAudio => exact h.startAudio hnew
  | stopAudio => exact ⟨_, rfl, h.stopAudio⟩
  | setActive dir index => exact h.setActiveDevice (hnew dir) index
  | serverRequestedInSampleRate rate => exact h.setServerRequestedInSampleRate (hnew .input) rate
  | streamChanged dir state => exact ⟨_, rfl, h.onStreamChanged hd state⟩

/-- As long as every stream object can be created, streams and buffers go together in every state that
calls and stream events reach, and no assertion fails. -/
theorem streams_live_with_buffers (inputs outputs : List InterfaceDescriptor)
    (run : Reached callStep (fun c a => Delivered c a ∧ ∀ dir, (c.2 dir).newStream)
      (ofDevices inputs outputs) a) :
    (∀ dir, (a.endpoint dir).Paired) ∧
      (∀ dir, (a.endpoint dir).connected → ∃ rb, a.buffer dir = .ok rb) ∧
      ∀ c, Delivered c a → (∀ dir, (c.2 dir).newStream) → ∃ b, callStep c a = .ok b := by
  have hsound : a.Sound := run.invariant (sound_ofDevices inputs outputs) fun hs ok next => by
    obtain ⟨b, hb, hsound⟩ := hs.callStep ok.1 ok.2
    exact Except.ok.inj (hb.symm.trans next) ▸ hsound
  refine ⟨hsound.paired, fun dir hc => ?_, fun c hd hnew => ?_⟩
  · obtain ⟨rb, hrb⟩ := Option.isSome_iff_exists.mp ((hsound.paired dir).buffer_of_connected hc)
    exact ⟨rb, by rw [buffer, hrb]⟩
  · obtain ⟨b, hb, -⟩ := hsound.callStep hd hnew
    exact ⟨b, hb⟩

def microphone : InterfaceDescriptor :=
  { internalId := 0, pwDeviceId := 1, isSource := true, isSink := false, deviceName := "mic",
    deviceDesc := "Microphone" }

/-- Whether stream objects can be created; everything else works. -/
def streamsCreated (v : Bool) : PipeWireAnswers := fun _ =>
  { newStream := v, connect := true, reportsUnconnected := true }

/-- A run that starts a stream. -/
theorem streams_live_with_buffers_started :
    ∃ a, Reached callStep Delivered (ofDevices [microphone] []) a ∧
      (a.endpoint .input).stream ∧ ∀ dir, (a.endpoint dir).Paired := by
  let works := streamsCreated true
  obtain ⟨b, hselect, a, hstart, hstream⟩ : ∃ b,
      callStep (.setActive .input 0, works) (ofDevices [microphone] []) = .ok b ∧
      ∃ a, callStep (.startAudio, works) b = .ok a ∧ (a.endpoint .input).stream :=
    ⟨_, rfl, _, rfl, rfl⟩
  refine ⟨a, .step (c := (.startAudio, works)) (.step (c := (.setActive .input 0, works)) .init
    trivial hselect) trivial hstart, hstream, ?_⟩
  exact (streams_live_with_buffers [microphone] [] (.step (c := (.startAudio, works))
    (.step (c := (.setActive .input 0, works)) .init ⟨trivial, fun _ => rfl⟩ hselect)
    ⟨trivial, fun _ => rfl⟩ hstart)).1

/-- After a failure of `pw_stream_new_simple` the buffer stays, and the next start fails its
assertion. -/
theorem stream_without_buffer_kept :
    ∃ a, Reached callStep Delivered (ofDevices [microphone] []) a ∧
      (a.endpoint .input).stream = false ∧ (a.endpoint .input).data.buffer.isSome ∧
      callStep (.startAudio, streamsCreated true) a = .error .assertion := by
  refine ⟨_, .step (c := (.startAudio, streamsCreated false))
    (.step (c := (.setActive .input 0, streamsCreated true)) .init trivial rfl) trivial rfl, rfl, rfl, ?_⟩
  rfl

end AudioProvider

end UwavClient
