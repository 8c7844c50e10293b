import UwavClient.Library.Machine
import UwavClient.Library.Reservoir
import UwavClient.Audio.Playback
import UwavClient.Client.Threads

/-!
# Capture: device blocks in, whole chunks out

Each round the input callback writes one block into the input buffer and `onInputBufferWrite` sends
all whole chunks. The levels of the buffer are those of a reservoir, so whether a block is ever
dropped depends on the greatest common divisor of the block and the chunk.
-/

namespace UwavClient

open Slot

/-- The chunk length of `on_AudioStreamSuccess`, while its product fits an `int`. -/
theorem samplesPerChunk_eq (chunkSize sampleRate : ℕ) (h : chunkSize * sampleRate < 2 ^ 31) :
    samplesPerChunk chunkSize sampleRate = (chunkSize * sampleRate / 1000 : ℕ) := by
  have htrunc : Binary64.mulTrunc thousandth (chunkSize * sampleRate) =
      chunkSize * sampleRate / 1000 :=
    Binary64.mulTrunc_eq_div (δ := 96) (by decide) (by decide) (by decide) h (by decide)
  unfold samplesPerChunk Binary64.mulTruncInt
  rw [← Nat.cast_mul, Int.natAbs_natCast, htrunc]
  rcases Nat.eq_zero_or_pos (chunkSize * sampleRate) with hzero | hpos
  · simp [hzero]
  · rw [Int.sign_eq_one_of_pos (by exact_mod_cast hpos), Int.one_mul]

/-- The input stream is connected and its buffer represents the queue. -/
structure Capturing {slots : ℕ} (prefill : ℕ) (q : PacedQueue Sample slots) (a : AudioProvider) :
    Prop where
  connected : a.input.connected
  buffer : ∃ rb, a.input.data.buffer = some rb ∧ Represents prefill rb q

namespace Capturing

variable {slots prefill : ℕ} {q : PacedQueue Sample slots} {a : AudioProvider}

theorem withBuffer (h : Capturing prefill q a) {rb : URingBuffer} {q' : PacedQueue Sample slots}
    (hrep : Represents prefill rb q') :
    Capturing prefill q' (a.update (fun e => { e with data := { e.data with buffer := some rb } })
      .input) :=
  ⟨h.connected, rb, rfl, hrep⟩

/-- A member call on the input buffer. -/
theorem callBuffer (h : Capturing prefill q a) {α : Type} (f : URingBuffer → α × URingBuffer)
    {x : α} {q' : PacedQueue Sample slots}
    (hf : ∀ rb, Represents prefill rb q → (f rb).1 = x ∧ Represents prefill (f rb).2 q') :
    ∃ b, a.callBuffer .input f = (.ok x, b) ∧ Capturing prefill q' b := by
  obtain ⟨rb, hrb, hrep⟩ := h.buffer
  obtain ⟨hx, hrep'⟩ := hf rb hrep
  refine ⟨_, ?_, h.withBuffer hrep'⟩
  simp only [AudioProvider.callBuffer, AudioProvider.buffer, AudioProvider.endpoint, hrb, hx]

variable {w : World}

theorem exec_getWriteAheadLength (h : Capturing prefill q a) :
    ∃ b, Slot.getWriteAheadLength.exec w a = (.ok (q.items.length : ℤ), b) ∧
      Capturing prefill q b := by
  obtain ⟨b, hb, hcap⟩ := h.callBuffer (fun rb => (rb.getWriteAheadLength, rb))
    fun rb hrep => ⟨hrep.window, hrep⟩
  exact ⟨b, exec_ofExcept_ask w .getWriteAheadLength id hb, hcap⟩

theorem exec_bufferRate (h : Capturing prefill q a) :
    ∃ rate b, (bufferRate .input).exec w a = (.ok rate, b) ∧ Capturing prefill q b := by
  obtain ⟨rb, hrb, hrep⟩ := h.buffer
  refine ⟨rb.sampleRate, _, exec_ofExcept_ask w (.bufferRate .input) id ?_, h.withBuffer hrep⟩
  simp only [ClientOp.perform_bufferRate, AudioProvider.callBuffer, AudioProvider.buffer,
    AudioProvider.endpoint, hrb, id]

theorem exec_readRawData (h : Capturing prefill q a) (hs : 0 < slots) {n : ℕ}
    (hn : n ≤ q.items.length) :
    ∃ b, (Slot.readRawData n).exec w a = (.ok (encode (q.items.take n)), b) ∧
      Capturing prefill (q.dropRaw n) b := by
  obtain ⟨b, hb, hcap⟩ := h.callBuffer
    (fun rb => ((rb.readRawData n).1.bytes, (rb.readRawData n).2)) fun rb hrep => by
      obtain ⟨hv, hr⟩ := hrep.readRawData hs n
      rw [PacedQueue.readRaw, if_pos hn] at hv hr
      exact ⟨congrArg ReadBlock.bytes hv, hr⟩
  exact ⟨b, exec_ofExcept_ask w (.readRawData n) id hb, hcap⟩

theorem exec_emitSamples (h : Capturing prefill q a) (hs : 0 < slots) (hopen : w.socketOpen)
    {n : ℕ} (hn : n ≤ q.items.length) :
    ∃ b, (emitSamples n).exec w a = (.ok (), b) ∧ Capturing prefill (q.dropRaw n) b := by
  obtain ⟨b, hb, hcap⟩ := h.exec_readRawData (w := w) hs hn
  refine ⟨b, ?_, hcap⟩
  rw [emitSamples, exec_bind, exec_opened, hopen]
  dsimp only
  rw [if_pos rfl, exec_bind, hb]
  rfl

/-- With fuel for every whole chunk the loop ends, and what remains is less than a chunk. -/
theorem exec_sendChunks (h : Capturing prefill q a) (hs : 0 < slots) (hopen : w.socketOpen)
    {n fuel : ℕ} (hfuel : q.items.length < n * fuel) :
    ∃ b, ∃ q' : PacedQueue Sample slots, (sendChunks n fuel).exec w a = (.ok (), b) ∧
      Capturing prefill q' b ∧ q'.items.length = q.items.length % n := by
  induction fuel generalizing a q with
  | zero => omega
  | succ fuel ih =>
    obtain ⟨a₁, h₁, hcap₁⟩ := h.exec_getWriteAheadLength (w := w)
    rw [sendChunks, exec_bind, h₁]
    dsimp only
    by_cases hle : n ≤ q.items.length
    · obtain ⟨rate, a₂, h₂, hcap₂⟩ := hcap₁.exec_bufferRate (w := w)
      obtain ⟨a₃, h₃, hcap₃⟩ := hcap₂.exec_emitSamples hs hopen hle
      have hlen : (q.dropRaw n).items.length = q.items.length - n := by simp
      obtain ⟨b, q', hb, hcap, hq'⟩ := ih hcap₃ (by rw [hlen]; rw [Nat.mul_succ] at hfuel; omega)
      refine ⟨b, q', ?_, hcap, ?_⟩
      · rw [if_pos (by exact_mod_cast hle), exec_bind, h₂]
        dsimp only
        rw [exec_bind, h₃]
        exact hb
      · rw [hq', hlen, ← Nat.mod_eq_sub_mod hle]
    · refine ⟨a₁, q, ?_, hcap₁, (Nat.mod_eq_of_lt (by omega)).symm⟩
      rw [if_neg (by exact_mod_cast hle)]
      rfl

/-- The slot of `signalInputBufferWrite` in a started session leaves less than a chunk behind. -/
theorem exec_onInputBufferWrite (h : Capturing prefill q a) (hs : 0 < slots) (hopen : w.socketOpen)
    {c : UwaVClient} {n fuel : ℕ} (hstarted : c.serverStarted) (hn : 0 < n)
    (hchunk : c.numInputSamplesPerChunk = n) (hfuel : q.items.length < n * fuel) :
    ∃ b, ∃ q' : PacedQueue Sample slots, (onInputBufferWrite fuel c).exec w a = (.ok (), b) ∧
      Capturing prefill q' b ∧ q'.items.length = q.items.length % n := by
  have hconn : (a.endpoint .input).connected = true := h.connected
  rw [onInputBufferWrite, exec_bind, exec_connected, hconn]
  dsimp only
  rw [if_pos rfl, hchunk, if_pos ⟨hstarted, by omega⟩]
  exact h.exec_sendChunks hs hopen hfuel

end Capturing

theorem blockSamples_encode (xs : List Sample) : blockSamples (encode xs) xs.length = xs := by
  rw [blockSamples, sourceBytes, Circular.slice]
  simp [← length_encode]

section Rounds

variable {F : Type} (A : FloatOps F) (levels : Levels F)

/-- With the gate off a captured block is written to the buffer. -/
theorem onProcessInput_ungated {st : StreamStatics F} {data : PwStreamData} {rb : URingBuffer}
    (hgate : A.isZero st.gateRMS) (hconn : st.inStreamConnected) (hrb : data.buffer = some rb)
    (block : List Sample) :
    (onProcessInput A st data (some ⟨some block⟩)).2.buffer =
      some (rb.writeAudioData (encode (block.map (A.amplify st.inputGain))) block.length) := by
  unfold onProcessInput gateInput storeInput
  rw [hrb]
  dsimp only
  rw [if_pos hconn, if_pos hgate, tick_buffer, List.length_map]

theorem Capturing.processInput {slots prefill : ℕ} {q : PacedQueue Sample slots} {a : AudioProvider}
    (h : Capturing prefill q a) (hs : 0 < slots) (hgate : A.isZero levels.gateRMS)
    (block : List Sample) :
    Capturing prefill (q.write prefill (block.map (A.amplify levels.inputGain)))
      (a.processInput A levels (some ⟨some block⟩)) := by
  obtain ⟨hconn, rb, hrb, hrep⟩ := h
  have hwritten := hrep.writeAudioData hs
    (length_encode (block.map (A.amplify levels.inputGain))).ge
  rw [blockSamples_encode, List.length_map] at hwritten
  have hinput : (a.processInput A levels (some ⟨some block⟩)).input = { a.input with
      data := (onProcessInput A (a.statics levels) a.input.data (some ⟨some block⟩)).2 } := by
    obtain ⟨n, hn⟩ := AudioProvider.foldl_postSignal
      (onProcessInput A (a.statics levels) a.input.data (some ⟨some block⟩)).1 _
    exact congrArg AudioProvider.input hn
  refine ⟨by rw [hinput]; exact hconn, _, ?_, hwritten⟩
  rw [hinput]
  exact onProcessInput_ungated A hgate hconn hrb block

/-- One block captured and the signal it posts handled: whether the block was stored, whether the
slot returned, and the level it left behind. -/
structure CaptureRound where
  accepted : Bool
  returned : Bool
  level : ℕ
  deriving DecidableEq, Repr

def captureMachine (fuel : ℕ) (w : World) (c : UwaVClient) :
    Machine AudioProvider (List Sample) CaptureRound where
  step a block :=
    let b := a.processInput A levels (some ⟨some block⟩)
    let (r, d) := (onInputBufferWrite fuel c).exec w { b with posted := a.posted }
    (⟨bufferedSamples b.input.data = bufferedSamples a.input.data + block.length, r.isOk,
      bufferedSamples d.input.data⟩, d)

def AudioProvider.capturing (sampleRate : ℕ) : AudioProvider :=
  { input := { stream := true, data := .ofSampleRate sampleRate, connected := true } }

theorem Capturing.bufferedSamples_eq {slots prefill : ℕ} {q : PacedQueue Sample slots}
    {a : AudioProvider} (h : Capturing prefill q a) :
    bufferedSamples a.input.data = q.items.length := by
  obtain ⟨-, rb, hrb, hrep⟩ := h
  rw [bufferedSamples, hrb, Option.elim_some, URingBuffer.getWriteAheadLength, hrep.window,
    Int.toNat_natCast]

def CaptureRound.ofLevel (capacity chunk block level : ℕ) : CaptureRound :=
  ⟨level + block ≤ capacity, true, Reservoir.fill capacity chunk block level⟩

variable {fuel : ℕ} {w : World} {c : UwaVClient} {slots prefill chunk block : ℕ}

/-- What the rounds below share: the gate is off, the socket open, the session started, and the loop
has fuel for a block no longer than a chunk. -/
structure CaptureSetup (levels : Levels F) (w : World) (c : UwaVClient) (fuel chunk block : ℕ) :
    Prop where
  gate : A.isZero levels.gateRMS
  socketOpen : w.socketOpen
  serverStarted : c.serverStarted
  chunkLength : c.numInputSamplesPerChunk = chunk
  block_pos : 0 < block
  block_le : block ≤ chunk
  fuel : 2 ≤ fuel

variable {A levels}

theorem Capturing.round {q : PacedQueue Sample slots} {a : AudioProvider}
    (h : Capturing prefill q a) (hs : 0 < slots) (setup : CaptureSetup A levels w c fuel chunk block)
    (hlevel : q.items.length < chunk) {samples : List Sample} (hlen : samples.length = block) :
    ((captureMachine A levels fuel w c).step a samples).1 =
        .ofLevel slots chunk block q.items.length ∧
      ∃ q' : PacedQueue Sample slots,
        Capturing prefill q' ((captureMachine A levels fuel w c).step a samples).2 ∧
        q'.items.length = Reservoir.fill slots chunk block q.items.length := by
  have hblock := setup.block_pos
  have hle := setup.block_le
  set q₁ := q.write prefill (samples.map (A.amplify levels.inputGain)) with hq₁
  set a₁ := a.processInput A levels (some ⟨some samples⟩) with ha₁
  have h₁ : Capturing prefill q₁ a₁ := h.processInput A levels hs setup.gate samples
  have hq₁len : q₁.items.length =
      if q.items.length + block ≤ slots then q.items.length + block else q.items.length := by
    rw [hq₁, q.length_write, List.length_map, hlen]
  have hfuel : q₁.items.length < chunk * fuel := by
    have : chunk * 2 ≤ chunk * fuel := Nat.mul_le_mul_left _ setup.fuel
    split at hq₁len <;> omega
  obtain ⟨b, q', hb, hcap, hq'⟩ :=
    Capturing.exec_onInputBufferWrite (a := { a₁ with posted := a.posted })
      ⟨h₁.connected, h₁.buffer⟩ hs setup.socketOpen setup.serverStarted
      (by omega : 0 < chunk) setup.chunkLength hfuel
  have hstep : (captureMachine A levels fuel w c).step a samples =
      (⟨bufferedSamples a₁.input.data = bufferedSamples a.input.data + samples.length, true,
        bufferedSamples b.input.data⟩, b) := by
    simp only [captureMachine, ← ha₁, hb]
    rfl
  have hfill : q'.items.length = Reservoir.fill slots chunk block q.items.length := by
    rw [hq', hq₁len, Reservoir.fill]
  refine ⟨?_, q', by rw [hstep]; exact hcap, hfill⟩
  rw [hstep, CaptureRound.ofLevel, hcap.bufferedSamples_eq, h₁.bufferedSamples_eq,
    h.bufferedSamples_eq, hfill, hq₁len, hlen]
  by_cases hfit : q.items.length + block ≤ slots
  · simp [hfit]
  · simp [hfit]
    omega

/-- From an empty buffer the rounds are those of the reservoir, whatever the samples are. -/
theorem Capturing.rounds {q : PacedQueue Sample slots} {a : AudioProvider}
    (h : Capturing prefill q a) (hs : 0 < slots) (setup : CaptureSetup A levels w c fuel chunk block)
    (hempty : q.items = []) {blocks : List (List Sample)} (hblocks : ∀ b ∈ blocks, b.length = block) :
    (captureMachine A levels fuel w c).observe a blocks = (List.range blocks.length).map fun k =>
        .ofLevel slots chunk block (Reservoir.level slots chunk block k) := by
  have hchunk : 0 < chunk := setup.block_pos.trans_le setup.block_le
  suffices hrun : (captureMachine A levels fuel w c).observe a blocks =
      (List.range blocks.length).map (fun k =>
        .ofLevel slots chunk block (Reservoir.level slots chunk block k)) ∧
      ∃ q' : PacedQueue Sample slots,
        Capturing prefill q' ((captureMachine A levels fuel w c).after a blocks) ∧
        q'.items.length = Reservoir.level slots chunk block blocks.length from hrun.1
  induction blocks using List.reverseRecOn with
  | nil => exact ⟨rfl, q, h, by simp [hempty]⟩
  | append_singleton blocks samples ih =>
    obtain ⟨hobs, q₁, hcap, hlevel⟩ := ih fun b hb => hblocks b (by simp [hb])
    obtain ⟨hround, q₂, hcap₂, hlevel₂⟩ := hcap.round hs setup
      (hlevel ▸ Reservoir.level_lt hchunk) (hblocks samples (by simp))
    rw [Machine.observe_append, Machine.after_append, hobs, List.length_append, List.length_singleton,
      List.range_succ, List.map_append, Machine.observe_cons, hround, hlevel]
    exact ⟨rfl, q₂, hcap₂, by rw [hlevel₂, hlevel, Reservoir.level_succ]⟩

/-- No block is dropped, every slot returns, and no state is left in which every later block would
be dropped before a chunk has gathered. -/
def NeverWedges (capacity chunk block : ℕ) (rounds : List CaptureRound) : Prop :=
  ∀ r ∈ rounds, r.accepted ∧ r.returned ∧ ¬ (r.level < chunk ∧ capacity < r.level + block)

theorem neverWedges_map_iff {ks : List ℕ} :
    NeverWedges slots chunk block (ks.map fun k =>
        .ofLevel slots chunk block (Reservoir.level slots chunk block k)) ↔
      ∀ k ∈ ks, Reservoir.level slots chunk block k + block ≤ slots ∧
        ¬ (Reservoir.level slots chunk block (k + 1) < chunk ∧
          slots < Reservoir.level slots chunk block (k + 1) + block) := by
  simp only [NeverWedges, List.forall_mem_map, CaptureRound.ofLevel, decide_eq_true_eq, true_and,
    ← Reservoir.level_succ]

def silentBlocks (k block : ℕ) : List (List Sample) := List.replicate k (List.replicate block .zero)

theorem length_of_mem_silentBlocks {k : ℕ} {b : List Sample} (h : b ∈ silentBlocks k block) :
    b.length = block := by
  rw [List.eq_of_mem_replicate h, List.length_replicate]

theorem Capturing.ofSampleRate (sampleRate : ℕ) (hrate : 2 ≤ sampleRate) :
    Capturing (URingBuffer.prefillFor sampleRate)
      (.empty : PacedQueue Sample (URingBuffer.slotsFor sampleRate)) (.capturing sampleRate) :=
  ⟨rfl, _, rfl, URingBuffer.represents_ofSampleRate (by omega)⟩

/-- Exactly when the fullest level below a chunk leaves room for a block, no rounds of captured
blocks ever wedge the pipeline. -/
theorem capture_never_wedges_iff {sampleRate : ℕ} (hrate : 1000 ≤ sampleRate) {milliseconds : ℕ}
    (setup : CaptureSetup A levels w c fuel (milliseconds * sampleRate / 1000) block) :
    let capacity := URingBuffer.slotsFor sampleRate
    let chunk := milliseconds * sampleRate / 1000
    (∀ blocks : List (List Sample), (∀ b ∈ blocks, b.length = block) →
      NeverWedges capacity chunk block
        ((captureMachine A levels fuel w c).observe (.capturing sampleRate) blocks)) ↔
      chunk + block ≤ capacity + chunk.gcd block := by
  intro capacity chunk
  have hchunk : 0 < chunk := setup.block_pos.trans_le setup.block_le
  have hstart := Capturing.ofSampleRate sampleRate (by omega)
  have hslots : 0 < URingBuffer.slotsFor sampleRate := URingBuffer.slotsFor_pos (by omega)
  rw [← Reservoir.never_refuses_iff hchunk]
  constructor
  · intro hall k
    have hlen : ∀ b ∈ silentBlocks (k + 1) block, b.length = block :=
      fun _ => length_of_mem_silentBlocks
    have hk := hall _ hlen
    rw [hstart.rounds hslots setup rfl hlen, neverWedges_map_iff, silentBlocks,
      List.length_replicate] at hk
    exact (hk k (List.mem_range.mpr (Nat.lt_succ_self k))).1
  · intro hfits blocks hlen
    rw [hstart.rounds hslots setup rfl hlen, neverWedges_map_iff]
    exact fun k _ => ⟨hfits k, fun hw => absurd (hfits (k + 1)) (Nat.not_le.mpr hw.2)⟩

end Rounds

/-- A session that streams at 48 kHz in chunks of this length. -/
def sessionAt (milliseconds : ℕ) : UwaVClient :=
  { serverStarted := true, numInputSamplesPerChunk := samplesPerChunk milliseconds 48000 }

theorem captureSetup_sessionAt (milliseconds block : ℕ) (hms : milliseconds ≤ 500) (hpos : 0 < block)
    (hle : block ≤ milliseconds * 48000 / 1000) :
    CaptureSetup plainFloats ⟨(), (), ()⟩ .online (sessionAt milliseconds) 2
      (milliseconds * 48000 / 1000) block where
  gate := rfl
  socketOpen := rfl
  serverStarted := rfl
  chunkLength := samplesPerChunk_eq milliseconds 48000 (by omega)
  block_pos := hpos
  block_le := hle
  fuel := le_refl 2

theorem slotsFor_48000 : URingBuffer.slotsFor (48000 : ℕ) = 24240 := by decide

theorem capture_never_wedges_at_forty_milliseconds :
    NeverWedges 24240 1920 1024 ((captureMachine plainFloats ⟨(), (), ()⟩ 2 .online
      (sessionAt 40)).observe (.capturing 48000) (silentBlocks 100 1024)) := by
  have hrate : 1000 ≤ 48000 := by decide
  have h := (capture_never_wedges_iff hrate
    (captureSetup_sessionAt 40 1024 (by decide) (by decide) (by decide))).mpr
      (by rw [slotsFor_48000]; decide)
  rw [slotsFor_48000] at h
  exact h _ fun _ => length_of_mem_silentBlocks

/-- With chunks of 500 ms and blocks of 1024 samples the level reaches 23552 and stays there: every
later block is dropped. -/
theorem capture_wedges_at_five_hundred_milliseconds :
    ¬ NeverWedges 24240 24000 1024 ((captureMachine plainFloats ⟨(), (), ()⟩ 2 .online
      (sessionAt 500)).observe (.capturing 48000) (silentBlocks 24 1024)) := by
  have hstart := Capturing.ofSampleRate 48000 (by decide)
  rw [hstart.rounds (URingBuffer.slotsFor_pos (by decide))
    (captureSetup_sessionAt 500 1024 (by decide) (by decide) (by decide)) rfl
    fun _ => length_of_mem_silentBlocks, slotsFor_48000, neverWedges_map_iff,
    silentBlocks, List.length_replicate]
  intro h
  exact absurd (h 23 (List.mem_range.mpr (by decide))).1 (by decide)

end UwavClient
