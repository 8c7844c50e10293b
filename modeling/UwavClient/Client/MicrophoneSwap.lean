import UwavClient.Client.Session

/-!
# Changing the microphone (`on_AudioStreamEnd`, `onSamplesReceived`)

Another microphone means another input stream. The end of the old one is reported, and its slot zeroes
the chunk length of the output as well, which is computed again only when the new stream starts. The
audio that the server sends meanwhile has the length of a chunk, and the client takes that for a
mismatch and stops the conversion.
-/

namespace UwavClient

open Interleaving Slot ExceptT

variable {F : Type}

/-! ## The history and the condition -/

/-- What `onSamplesReceived` reads of the messages of an `AUDIO_OUT` event. -/
def receivedChunk (messages : List Message) : Except Fault (ℤ × Option Bytes) := do
  audioOutFields (← (← Message.first messages).getMap)

def SioSignal.carriesSamples : SioSignal → Bool
  | .message name messages => name = "AUDIO_OUT" &&
    (receivedChunk messages).toOption.any fun found => 0 < found.1 && found.2.isSome
  | _ => false

/-- Whether the chunk length of the output has been lost, whether the slot of `streamStarted` is
running, and whether the slot of a message that carries samples is. -/
structure Swap where
  lost : Bool := false
  starting : Bool := false
  receiving : Bool := false
  deriving DecidableEq, Repr

/-- The chunk slider and the rate of the output buffer do not give chunks of `n` samples. -/
def offLength (n : ℤ) (app : App) : Bool :=
  app.audio.output.data.buffer.any fun rb =>
    samplesPerChunk app.client.sliderChunkSize rb.sampleRate ≠ n

/-- The length is lost when the end of a stream is handled and found when the start of one is, if the
slider and the rate still give it. -/
def swapObserver (n : ℤ) (may : Occurrence F → App → Swap → Prop) : AppObserver F Swap where
  may := may
  onStart
    | .posted _, app, h => {
        lost := h.lost || app.audio.posted.head? = some .streamStopped
        starting := app.audio.posted.head? = some .streamStarted }
    | .sio s, _, h => { lost := h.lost, receiving := s.carriesSamples }
    | .ui _, _, h => { lost := h.lost }
    | _, _, h => h
  onOp
    | .bufferRate .output, app, h => if h.starting then { h with lost := offLength n app } else h
    | _, _, h => h
  onReturn h := h

def AudioSignal.ofStreams : AudioSignal → Bool
  | .streamStarted | .streamStopped | .streamConnecting | .signalInputBufferWrite => true
  | _ => false

/-- The only user action is to select another input device, and the only messages are `AUDIO_OUT` with
a sample count of `n`. -/
def SwapsMicrophone (n : ℤ) : Occurrence F → App → Swap → Prop
  | .posted _, app, _ => ∀ s ∈ app.audio.posted.head?, s.ofStreams
  | .ui e, _, _ => ∃ index, e = .deviceSelected .input index
  | .sio s, _, _ => ∃ messages, s = .message "AUDIO_OUT" messages ∧
      ∀ found, receivedChunk messages = .ok found → found.1 = n
  | _, _, _ => True

/-- No samples are taken up for a connected output while the chunk length is lost. -/
def NoneWhileLost : ClientOp → Observed Swap → Prop
  | .connected .output, s => s.hist.receiving → s.hist.lost → s.app.audio.output.connected = false
  | _, _ => True

/-! ## The slots -/

/-- The conversion runs, with its chunk length unless it has been lost. -/
structure Swapping (n : ℤ) (c : UwaVClient) (h : Swap) : Prop where
  started : c.serverStarted
  length : h.lost = false → c.numOutputSamplesPerChunk = n

def NotStopping (e : ClientOp) (_ : Observed Swap) : Prop := e ≠ .emit .serverStop

/-- An operation that neither stops the conversion nor reads the rate of the output. -/
def ClientOp.Harmless (e : ClientOp) : Prop := e ≠ .emit .serverStop ∧ e ≠ .bufferRate .output

theorem ClientOp.OfMenus.harmless {e : ClientOp} (h : e.OfMenus) : e.Harmless := by
  constructor <;> (rintro rfl; exact h)

theorem ClientOp.OfCapture.harmless {e : ClientOp} (h : e.OfCapture) : e.Harmless := by
  constructor <;> (rintro rfl; exact h)

section Slots

variable (n : ℤ) (may : Occurrence F → App → Swap → Prop) {α : Type} {c : UwaVClient} {h : Swap}
  {s : Observed Swap}

abbrev SwapSafe (p : Slot α) (Q : α → Observed Swap → Prop) (s : Observed Swap) : Prop :=
  SafeRaising (appHandler (swapObserver n may)) (fun _ => True) (mainContract NotStopping)
    NoneWhileLost p Q s

theorem onOp_of_harmless {e : ClientOp} (he : e.Harmless) (app : App) :
    (swapObserver n may).onOp e app h = h := by
  simp only [swapObserver]
  split
  · exact absurd rfl he.2
  · rfl

theorem swap_of_ensures {p : Slot α} {Q : α → Prop} (hp : p.Ensures ClientOp.Harmless Q)
    (hs : RunsOn c h s) : SwapSafe n may p (fun a t => Q a ∧ RunsOn c h t) s :=
  runsOn_of_ensures hp (fun _ t he => ⟨he.1, onOp_of_harmless n may he t.app⟩) hs

theorem swap_ofExcept_bind {β : Type} {r : Except Fault β} {f : β → Slot α}
    {Q : α → Observed Swap → Prop} (hf : ∀ b, r = .ok b → SwapSafe n may (f b) Q s) :
    SwapSafe n may (Slot.ofExcept r >>= f) Q s := by
  cases r with
  | ok b => exact hf b rfl
  | error fault => exact fun _ _ _ _ hr => by cases hr

/-- The chunk lengths of one stream are fixed from the slider and nothing else moves. -/
theorem ensures_fixChunkLength_input (c : UwaVClient) :
    (fixChunkLength .input c).Ensures ClientOp.Harmless fun c' =>
      c'.serverStarted = c.serverStarted ∧ c'.chunkSize = c.chunkSize ∧
        c'.numOutputSamplesPerChunk = c.numOutputSamplesPerChunk := by
  simp [fixChunkLength, UwaVClient.withSamplesPerChunk, ClientOp.Harmless]

/-- The rate that the slot of `streamStarted` reads gives the length unless it stays lost. -/
theorem swap_bufferRate (hstart : h.starting) (hs : RunsOn c h s) :
    SwapSafe n may (bufferRate .output)
      (fun rate t => t.hist.lost = false → samplesPerChunk c.sliderChunkSize rate = n) s := by
  have hrate : SwapSafe n may (ask (.bufferRate .output)) (fun r t => ∀ rate, r = .ok rate →
      t.hist.lost = false → samplesPerChunk c.sliderChunkSize rate = n) s := by
    refine safeRaising_lift stable_runsOn (fun r => stable_hist fun h : Swap => ∀ rate,
      r = .ok rate → h.lost = false → samplesPerChunk c.sliderChunkSize rate = n) trivial hs
      fun t _ ht => ?_
    refine ⟨nofun, fun _ => ⟨trivial, trivial, fun rate hr hlost => ?_⟩⟩
    obtain ⟨rfl, rfl⟩ := ht
    simp only [appHandler, swapObserver, hstart, if_true, offLength] at hlost
    simp only [appHandler, ClientOp.perform_bufferRate, AudioProvider.callBuffer,
      AudioProvider.buffer, AudioProvider.endpoint] at hr
    cases hb : t.app.audio.output.data.buffer with
    | none => simp [hb] at hr
    | some rb =>
      simp only [hb] at hr
      obtain rfl := Except.ok.inj hr
      simpa [hb] using hlost
  refine safeRaising_bind trivial hrate fun r t _ ht => ?_
  cases r with
  | ok rate =>
    exact safeRaising_pure (stable_hist fun h : Swap => h.lost = false → _) trivial (ht rate rfl)
  | error fault => exact fun _ _ _ _ hr => by cases hr

/-- The end of the slot does nothing in a session that runs. -/
theorem askToStart_of_started {c : UwaVClient} (h : c.serverStarted) : askToStart c = pure c := by
  simp [askToStart, h]

theorem swap_fixChunkLength_output {c' : UwaVClient} (hstart : h.starting) (hs : RunsOn c h s)
    (hslider : c'.chunkSize = c.sliderChunkSize) (hc : Swapping n c' h) :
    SwapSafe n may (fixChunkLength .output c') (fun a t => Swapping n a t.hist) s := by
  have hconnected : (connected .output).Ensures ClientOp.Harmless fun _ => True := by
    simp [ClientOp.Harmless]
  refine safeRaising_bind trivial (swap_of_ensures n may hconnected hs) fun b t _ ht => ?_
  cases b with
  | false => exact safeRaising_pure (stable_hist (Swapping n c')) trivial (ht.2.2.symm ▸ hc)
  | true =>
    refine safeRaising_bind trivial (swap_bufferRate n may hstart ht.2) fun rate u _ hu => ?_
    refine safeRaising_pure (stable_hist (Swapping n _)) trivial ⟨hc.started, fun hlost => ?_⟩
    rw [← hu hlost, hslider]
    rfl

/-- `on_AudioStreamSuccess` finds the chunk length again. -/
theorem swap_onAudioStreamSuccess (hstart : h.starting) (hs : RunsOn c h s)
    (hc : Swapping n c h) :
    SwapSafe n may (onAudioStreamSuccess c) (fun a t => Swapping n a t.hist) s := by
  rw [onAudioStreamSuccess_eq]
  refine safeRaising_bind trivial
    (swap_of_ensures n may (ensures_fixChunkLength_input _) hs) fun c₁ t _ ht => ?_
  obtain ⟨⟨hstarted, hslider, hlength⟩, hruns⟩ := ht
  have hc₁ : Swapping n c₁ h := ⟨hstarted ▸ hc.started, fun hlost => hlength ▸ hc.length hlost⟩
  refine safeRaising_bind trivial
    (swap_fixChunkLength_output n may hstart hruns hslider hc₁) fun c₂ u _ hu => ?_
  rw [askToStart_of_started hu.started]
  exact safeRaising_pure (stable_hist (Swapping n c₂)) trivial hu

/-- `on_AudioStreamEnd` loses it. -/
theorem swap_onAudioStreamEnd (hlost : h.lost) (hs : RunsOn c h s) (hc : Swapping n c h) :
    SwapSafe n may (onAudioStreamEnd c) (fun a t => Swapping n a t.hist) s := by
  have hend : (onAudioStreamEnd c).Ensures ClientOp.Harmless fun c' =>
      c'.serverStarted = c.serverStarted := by
    simp [onAudioStreamEnd, ClientOp.Harmless]
  refine safeRaising_mono (swap_of_ensures n may hend hs) fun c' t _ ht =>
    ⟨ht.1 ▸ hc.started, fun h' => ?_⟩
  rw [ht.2.2, hlost] at h'
  cases h'

/-- A slot that keeps the session and its chunk length. -/
theorem swap_of_kept {p : Slot UwaVClient} (hp : p.Ensures ClientOp.Harmless fun c' =>
      c'.serverStarted = c.serverStarted ∧ c'.numOutputSamplesPerChunk = c.numOutputSamplesPerChunk)
    (hs : RunsOn c h s) (hc : Swapping n c h) :
    SwapSafe n may p (fun a t => Swapping n a t.hist) s :=
  safeRaising_mono (swap_of_ensures n may hp hs) fun c' t _ ht => by
    rw [ht.2.2]
    exact ⟨ht.1.1 ▸ hc.started, fun hlost => ht.1.2 ▸ hc.length hlost⟩

theorem swap_signal {sig : AudioSignal} (hsig : sig.ofStreams) (fuel : ℕ) (hs : RunsOn c h s)
    (hc : Swapping n c h) (hlost : sig = .streamStopped → h.lost)
    (hstart : sig = .streamStarted → h.starting) :
    SwapSafe n may (sig.slot fuel c) (fun a t => Swapping n a t.hist) s := by
  cases sig with
  | streamStarted => exact swap_onAudioStreamSuccess n may (hstart rfl) hs hc
  | streamStopped => exact swap_onAudioStreamEnd n may (hlost rfl) hs hc
  | streamConnecting => exact swap_of_kept n may (ensures_pure.mpr ⟨rfl, rfl⟩) hs hc
  | signalInputBufferWrite =>
    refine swap_of_kept n may (ensures_bind.mpr ?_) hs hc
    exact (capture_onInputBufferWrite fuel c).mono (fun _ he => he.1.harmless) fun _ _ =>
      ensures_pure.mpr ⟨rfl, rfl⟩
  | _ => cases hsig

/-- What `onSamplesReceived` learns of the output under the condition. -/
theorem swap_connected_output (hs : RunsOn c h s) :
    SwapSafe n may (connected .output)
      (fun b t => RunsOn c h t ∧ (b = true → h.receiving → h.lost = false)) s := by
  refine safeRaising_lift stable_runsOn (fun b => stable_runsOn.and (stable_const _)) trivial hs
    fun t _ ht => ⟨nofun, fun hallow => ⟨trivial, trivial, ht, fun hb hreceiving => ?_⟩⟩
  obtain ⟨rfl, rfl⟩ := ht
  refine Bool.eq_false_of_not_eq_true fun hlost => ?_
  exact Bool.noConfusion ((hallow hreceiving hlost).symm.trans hb)

/-- Samples for a connected output are written, since their number is the length of a chunk. -/
theorem swap_onSamplesReceived {m : Message} (hs : RunsOn c h s) (hc : Swapping n c h)
    (hfound : ∀ found, (m.getMap >>= audioOutFields) = .ok found →
      found.1 = n ∧ (0 < found.1 → found.2.isSome → h.receiving)) :
    SwapSafe n may (onSamplesReceived m c) (fun a t => Swapping n a t.hist) s := by
  have hpure : ∀ t, RunsOn c h t →
      SwapSafe n may (pure c) (fun a u => Swapping n a u.hist) t := fun t ht =>
    safeRaising_pure (stable_hist (Swapping n c)) trivial (ht.2.symm ▸ hc)
  simp only [onSamplesReceived, hc.started, Bool.not_true, Bool.false_eq_true, if_false]
  refine safeRaising_bind trivial (swap_connected_output n may hs) fun b t _ ht => ?_
  obtain ⟨hruns, hlost⟩ := ht
  cases b with
  | false => exact hpure t hruns
  | true =>
    refine swap_ofExcept_bind n may fun fields hfields => swap_ofExcept_bind n may fun found hread => ?_
    obtain ⟨hcount, hreceiving⟩ := hfound found (by rw [hfields]; exact hread)
    obtain ⟨count, _ | data⟩ := found
    · exact hpure t hruns
    · dsimp only
      split_ifs with hpos hne
      · exact hpure t hruns
      · have hlength := hc.length (hlost rfl (hreceiving (not_le.mp hpos) rfl))
        exact absurd (hcount.trans hlength.symm) hne
      · refine swap_of_kept n may ?_ hruns hc
        simp [ClientOp.Harmless]

/-- The samples of a chunk reach a connected output while its length is not lost, and fit. -/
theorem swap_onAudioOut {messages : List Message} (hs : RunsOn c h s) (hc : Swapping n c h)
    (hcount : ∀ found, receivedChunk messages = .ok found → found.1 = n)
    (hreceiving : h.receiving = (SioSignal.message "AUDIO_OUT" messages).carriesSamples) :
    SwapSafe n may (onAudioOut messages c) (fun a t => Swapping n a t.hist) s := by
  refine swap_ofExcept_bind n may fun m hm => swap_ofExcept_bind n may fun flag _ => ?_
  split_ifs
  · refine swap_onSamplesReceived n may hs hc fun found hfound => ?_
    have hchunk : receivedChunk messages = .ok found := by
      simp only [receivedChunk, hm]
      exact hfound
    refine ⟨hcount found hchunk, fun hpos hsome => ?_⟩
    rw [hreceiving]
    simp [SioSignal.carriesSamples, hchunk, Except.toOption, hpos, hsome]
  · exact safeRaising_pure (stable_hist (Swapping n c)) trivial (hs.2.symm ▸ hc)

theorem swap_deviceSelected (index : ℤ) (hs : RunsOn c h s) (hc : Swapping n c h) :
    SwapSafe n may (setDeviceIndex .input index c) (fun a t => Swapping n a t.hist) s := by
  refine swap_of_kept n may ((menus_setDeviceIndex .input c index).mono
    (fun _ => ClientOp.OfMenus.harmless) fun c' hm => ?_) hs hc
  exact ⟨hm.congr (·.serverStarted), hm.congr (·.numOutputSamplesPerChunk)⟩

theorem slotSafe_of_swap {p : Slot UwaVClient}
    (hp : SwapSafe n may p (fun a t => Swapping n a t.hist) s) :
    SlotSafe (swapObserver n may) NoneWhileLost (fun _ _ => True) (Swapping n) NotStopping p s :=
  safe_mono hp fun _ _ _ hr => ⟨trivial, hr⟩

end Slots

/-- Every slot keeps the running conversion and its chunk length under the condition. -/
def swapOutline (A : FloatOps F) (n : ℤ) :
    AppOutline A (swapObserver n (SwapsMicrophone n)) NoneWhileLost where
  inv _ _ := True
  idle := Swapping n
  claim := NotStopping
  others {o _ _} ho := by
    cases o with
    | callback cb => rfl
    | change w => rfl
    | _ => exact absurd rfl ho
  callback _ _ _ := trivial
  posted {fuel sig rest app h} _ hidle hmay hposted := by
    have hsig : sig.ofStreams := hmay sig (by rw [hposted]; rfl)
    have hc : Swapping n app.client
        ((swapObserver n (SwapsMicrophone n)).onStart (.posted fuel : Occurrence F) app h) :=
      ⟨hidle.started, fun hlost => hidle.length (Bool.or_eq_false_iff.mp hlost).1⟩
    refine ⟨trivial, slotSafe_of_swap n _ (swap_signal n _ hsig fuel ⟨rfl, rfl⟩ hc ?_ ?_)⟩
    · rintro rfl
      simp [swapObserver, hposted]
    · rintro rfl
      simp [swapObserver, hposted]
  sio {sig app h} _ hidle hmay := by
    obtain ⟨messages, rfl, hcount⟩ := hmay
    exact ⟨trivial, slotSafe_of_swap n _
      (swap_onAudioOut n _ ⟨rfl, rfl⟩ ⟨hidle.started, hidle.length⟩ hcount rfl)⟩
  ui {e app h} _ hidle hmay := by
    obtain ⟨index, rfl⟩ := hmay
    exact ⟨trivial, slotSafe_of_swap n _
      (swap_deviceSelected n _ index ⟨rfl, rfl⟩ ⟨hidle.started, hidle.length⟩)⟩

/-- In every run from a started conversion in which microphones are changed and chunks of `n` samples
arrive, none of them while the chunk length is lost, the conversion is not stopped. -/
theorem swap_keeps_conversion (A : FloatOps F) {n : ℤ} {app : App} {h : Swap}
    (hstarted : app.client.serverStarted)
    (hlength : h.lost = false → app.client.numOutputSamplesPerChunk = n) {c : AppConfig Swap}
    (run : Reaches (appSystem A (swapObserver n (SwapsMicrophone n))) (fun _ => NoneWhileLost)
      (.initial ⟨app, h⟩) c) :
    nextOp c ≠ some (.emit .serverStop) ∧
      (c.thread .main = none → c.shared.app.running → c.shared.app.client.serverStarted) := by
  have hidle : Swapping n app.client h := ⟨hstarted, hlength⟩
  constructor
  · exact fun next => (swapOutline A n).claim_of_reaches trivial hidle run next rfl
  · exact fun hmain hrun => ((swapOutline A n).idle_of_reaches trivial hidle run hmain hrun).started

section Schedules

variable (n : ℤ) (o : Occurrence F) (app : App) (h : Swap)

theorem swapsMicrophone_message (name : String) (messages : List Message) :
    (name = "AUDIO_OUT" ∧ ∀ found ∈ (receivedChunk messages).toOption, found.1 = n) ↔
      SwapsMicrophone n (.sio (.message name messages) : Occurrence F) app h := by
  have hread : ∀ found, found ∈ (receivedChunk messages).toOption ↔
      receivedChunk messages = .ok found := by
    intro found
    cases receivedChunk messages <;> simp [Except.toOption]
  constructor
  · rintro ⟨rfl, hcount⟩
    exact ⟨messages, rfl, fun found hfound => hcount found ((hread found).mpr hfound)⟩
  · rintro ⟨messages', heq, hcount⟩
    obtain ⟨rfl, rfl⟩ := SioSignal.message.inj heq
    exact ⟨rfl, fun found hfound => hcount found ((hread found).mp hfound)⟩

instance : Decidable (SwapsMicrophone n o app h) :=
  match o with
  | .posted _ => inferInstanceAs (Decidable (∀ s ∈ app.audio.posted.head?, s.ofStreams))
  | .ui (.deviceSelected .input index) => isTrue ⟨index, rfl⟩
  | .ui (.deviceSelected .output _) | .ui .startClicked | .ui .stopClicked
  | .ui (.connectClicked _) | .ui .serverExitClicked | .ui (.serverSelected _)
  | .ui (.modelSelected _) | .ui (.inferDeviceSelected _) | .ui (.chunkSizeMoved _)
  | .ui .chunkSizeReleased => isFalse (by rintro ⟨index, h⟩; cases h)
  | .sio (.message name messages) =>
    decidable_of_iff _ (swapsMicrophone_message n app h name messages)
  | .sio .connectFail | .sio .connectRetry | .sio .connectSuccess | .sio .connectClose
  | .sio .socketOpen | .sio .socketClose => isFalse (by rintro ⟨messages, h, -⟩; cases h)
  | .callback _ | .change _ => isTrue trivial

instance : Decidable ((swapObserver n (SwapsMicrophone n) : AppObserver F Swap).may o app h) :=
  inferInstanceAs (Decidable (SwapsMicrophone n o app h))

instance : Decidable ((swapObserver n fun _ _ _ => True : AppObserver F Swap).may o app h) :=
  isTrue trivial

theorem noneWhileLost_iff (e : ClientOp) (s : Observed Swap) :
    (e = .connected .output → s.hist.receiving → s.hist.lost →
      s.app.audio.output.connected = false) ↔ NoneWhileLost e s := by
  unfold NoneWhileLost
  split <;> simp_all

instance (e : ClientOp) (s : Observed Swap) : Decidable (NoneWhileLost e s) :=
  decidable_of_iff _ (noneWhileLost_iff e s)

end Schedules

/-- A message with a chunk of 40 ms. -/
def chunkMessage : Message :=
  .object [("sample_count", .integer 1920), ("samples", .binary (List.replicate 7680 0))]

/-- A conversion runs with both streams and chunks of `n` samples. -/
def Converting (n : ℤ) (app : App) : Prop :=
  app.client.serverStarted ∧ app.client.numOutputSamplesPerChunk = n ∧
    app.audio.input.connected ∧ app.audio.output.connected

instance (n : ℤ) : DecidablePred (Converting n) := fun _ => inferInstanceAs (Decidable (_ ∧ _))

/-- The second microphone is selected, and the end of the first one's stream is handled. -/
def microphoneSwapped : List (AppMove Unit) :=
  mainMoves (.ui (.deviceSelected .input 1)) 3 ++ mainMoves (.posted 0) 2

def chunkArrives : List (AppMove Unit) := mainMoves (.sio (.message "AUDIO_OUT" [chunkMessage])) 1

def atStop (c : AppConfig Swap) : Bool := nextOp c = some (.emit .serverStop)

def startsConverting (c : AppConfig Swap) : Bool :=
  [.main, .pipewire, .world].all (fun i => (c.thread i).isNone) &&
    decide (Converting 1920 c.shared.app) && !c.shared.hist.lost

theorem converting_of_starts {c : AppConfig Swap} (h : startsConverting c) :
    c.Quiet ∧ Converting 1920 c.shared.app ∧ c.shared.hist.lost = false := by
  simp only [startsConverting, List.all_cons, List.all_nil, Bool.and_true, Bool.and_eq_true,
    Option.isNone_iff_eq_none, decide_eq_true_iff, Bool.not_eq_true'] at h
  obtain ⟨⟨⟨hmain, hpipewire, hworld⟩, hconverting⟩, hlost⟩ := h
  refine ⟨fun i => ?_, hconverting, hlost⟩
  cases i <;> assumption

/-- The new stream starts before the chunk arrives, and its samples are written. -/
theorem swap_keeps_conversion_restarted : ∃ c₀ c : AppConfig Swap,
    Reaches (appSystem plainFloats (swapObserver 1920 (SwapsMicrophone 1920)))
      (fun _ => NoneWhileLost) (.initial c₀.shared) c ∧
    Converting 1920 c₀.shared.app ∧ c.shared.hist.receiving ∧
      nextOp c ≠ some (.emit .serverStop) := by
  have hrun : ∃ c₀ c : AppConfig Swap,
      Reaches (appSystem plainFloats (swapObserver 1920 fun _ _ _ => True)) (fun _ _ _ => True)
        (.initial ⟨.launched .online, {}⟩) c₀ ∧ startsConverting c₀ ∧
      Reaches (appSystem plainFloats (swapObserver 1920 (SwapsMicrophone 1920)))
        (fun _ => NoneWhileLost) (.initial c₀.shared) c ∧ c.shared.hist.receiving :=
    reaches_of_schedules (L := appLauncher plainFloats (swapObserver 1920 fun _ _ _ => True))
      (M := appLauncher plainFloats (swapObserver 1920 (SwapsMicrophone 1920))) conversionStarted
      (microphoneSwapped ++ callbackMoves (.streamChanged .input .streaming) ++
        mainMoves (.posted 0) 5 ++ chunkArrives) (by decide +kernel)
  obtain ⟨c₀, c, -, hstart, run, hreceiving⟩ := hrun
  obtain ⟨-, hconverting, hlost⟩ := converting_of_starts hstart
  exact ⟨c₀, c, run, hconverting, hreceiving, (swap_keeps_conversion plainFloats hconverting.1
    (fun _ => hconverting.2.1) run).1⟩

/-- The chunk arrives before the new stream starts, and the server is asked to stop. -/
theorem swap_stops_conversion : ∃ c₀ c : AppConfig Swap,
    Reaches (appSystem plainFloats (swapObserver 1920 fun _ _ _ => True)) (fun _ _ _ => True)
      (.initial ⟨.launched .online, {}⟩) c₀ ∧ c₀.Quiet ∧ Converting 1920 c₀.shared.app ∧
    Reaches (appSystem plainFloats (swapObserver 1920 (SwapsMicrophone 1920))) (fun _ _ _ => True)
      (.initial c₀.shared) c ∧
    c.shared.app.audio.input.stream ∧ nextOp c = some (.emit .serverStop) := by
  have hrun : ∃ c₀ c : AppConfig Swap,
      Reaches (appSystem plainFloats (swapObserver 1920 fun _ _ _ => True)) (fun _ _ _ => True)
        (.initial ⟨.launched .online, {}⟩) c₀ ∧ startsConverting c₀ ∧
      Reaches (appSystem plainFloats (swapObserver 1920 (SwapsMicrophone 1920))) (fun _ _ _ => True)
        (.initial c₀.shared) c ∧ (c.shared.app.audio.input.stream && atStop c) :=
    reaches_of_schedules (L := appLauncher plainFloats (swapObserver 1920 fun _ _ _ => True))
      (M := appLauncher plainFloats (swapObserver 1920 (SwapsMicrophone 1920))) conversionStarted
      (microphoneSwapped ++ chunkArrives) (by decide +kernel)
  obtain ⟨c₀, c, run₀, hstart, run, hstop⟩ := hrun
  obtain ⟨hquiet, hconverting, -⟩ := converting_of_starts hstart
  obtain ⟨hstream, hnext⟩ := Bool.and_eq_true _ _ ▸ hstop
  exact ⟨c₀, c, run₀, hquiet, hconverting, run, hstream, of_decide_eq_true hnext⟩

end UwavClient
