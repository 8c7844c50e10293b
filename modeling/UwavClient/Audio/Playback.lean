import UwavClient.Audio.Stream

/-!
# Playback: chunks from the server in, callback buffers out

The main thread writes the chunks it receives into the output ring buffer, and every callback takes
what it may from it. Each call is taken as atomic here.
-/

namespace UwavClient

open PacedQueue

variable {F : Type} (A : FloatOps F)

inductive PlaybackEvent (F : Type) where
  | chunk (binData : Bytes) (n : ℤ)
  | callback (st : StreamStatics F) (b : OutputBuffer)

namespace PlaybackEvent

/-- A chunk of whole samples, at most half a second, or a callback of the connected stream. -/
def Valid (sampleRate : ℤ) : PlaybackEvent F → Prop
  | .chunk binData n => 0 ≤ n ∧ n ≤ sampleRate / 2 ∧ binData.length = 4 * n
  | .callback st b => b.hasData ∧ st.outStreamConnected

end PlaybackEvent

/-- What one event took into the buffer, what it played out of it, and the samples buffered then. -/
structure PlaybackStep where
  accepted : Bytes
  played : Bytes
  level : ℕ

def bufferedSamples (data : PwStreamData) : ℕ :=
  (data.buffer.elim 0 URingBuffer.getWriteAheadLength).toNat

/-- A chunk is accepted when it makes the buffer longer by its length. -/
def playback : Machine PwStreamData (PlaybackEvent F) PlaybackStep where
  step data
    | .chunk binData n =>
      let data' := { data with buffer := data.buffer.map (·.writeRawData binData n) }
      let accepted := (bufferedSamples data' : ℤ) = bufferedSamples data + n
      (⟨if accepted then binData else [], [], bufferedSamples data'⟩, data')
    | .callback st b =>
      match onProcessOutput A st data (some b) with
      | .ok (chunk, _, data') => (⟨[], chunk.elim [] (·.fill.run), bufferedSamples data'⟩, data')
      | .error _ => (⟨[], [], bufferedSamples data⟩, data)

def PwStreamData.ofSampleRate (sampleRate : ℤ) : PwStreamData :=
  { buffer := some (.ofSampleRate sampleRate) }

/-- Whether samples are playing: since the buffer was last empty, has it reached the prefill? -/
def playing (prefill : ℕ) (steps : List PlaybackStep) : Bool :=
  steps.foldl (fun on s => resume prefill on s.level) false

theorem playing_append (prefill : ℕ) (steps : List PlaybackStep) (s : PlaybackStep) :
    playing prefill (steps ++ [s]) = resume prefill (playing prefill steps) s.level := by
  simp [playing]

section Fill

variable {slots prefill : ℕ} {rb : URingBuffer} {q : PacedQueue Sample slots}

/-- Both reading branches read as much as there is and pad the rest. -/
theorem fillOutput_eq (rb : URingBuffer) {n level : ℕ} (hw : rb.writeAheadWindow = level)
    (hpos : 0 < level) :
    fillOutput rb n = (⟨(rb.readAudioData (min n level : ℕ)).1, (n - min n level : ℕ)⟩,
      (rb.readAudioData (min n level : ℕ)).2) := by
  have hne : ¬ (level : ℤ) ≤ 0 := by omega
  unfold fillOutput URingBuffer.getWriteAheadLength
  rw [hw, if_neg hne]
  by_cases hn : n ≤ level
  · rw [if_pos (by omega), Nat.min_eq_left hn, Nat.sub_self]
    rfl
  · rw [if_neg (by omega), Nat.min_eq_right (by omega), Nat.cast_sub (by omega)]

/-- What a callback plays when it takes `played` out of the buffer and pads to `n` samples. -/
structure FillsWith (fill : OutputFill) (n : ℕ) (played : List Sample) : Prop where
  run : fill.run = encode played
  bytes : fill.bytes = encode (played ++ List.replicate (n - played.length) .zero)
  length_le : played.length ≤ n

theorem fillsWith_silence (n : ℕ) (m k : ℕ) (hk : m + k = n) :
    FillsWith ⟨.silence m, k⟩ n [] where
  run := rfl
  bytes := by
    rw [List.nil_append, encode_replicate_zero, List.length_nil, Nat.sub_zero, ← hk, Nat.mul_add,
      List.replicate_add]
    rfl
  length_le := Nat.zero_le _

/-- A callback plays what the queue gives and fills the rest with zeros. -/
theorem fillOutput_spec (h : Represents prefill rb q) (hs : 0 < slots)
    (hq : Settled prefill q) (n : ℕ) :
    FillsWith (fillOutput rb n).1 n (q.play n).1 ∧
      Represents prefill (fillOutput rb n).2 (q.play n).2 := by
  by_cases hpos : 0 < q.items.length
  · rw [fillOutput_eq rb h.window hpos]
    obtain ⟨hv, hr⟩ := h.readAudioData hs (min n q.items.length)
    dsimp only
    rw [hv]
    unfold PacedQueue.readPaced at hr ⊢
    unfold PacedQueue.play
    by_cases hf : q.primed
    · rw [if_pos ⟨Nat.min_le_right _ _, hf⟩] at hr ⊢
      rw [if_pos hf]
      refine ⟨⟨rfl, ?_, ?_⟩, hr⟩
      · rw [List.length_take, Nat.min_eq_left (Nat.min_le_right _ _), encode_append,
          encode_replicate_zero]
        rfl
      · rw [List.length_take]
        omega
    · rw [if_neg (fun hc => hf hc.2)] at hr ⊢
      rw [if_neg hf]
      exact ⟨fillsWith_silence n _ _ (by omega), hr⟩
  · have hempty : q.primed = false := Bool.eq_false_iff.mpr fun hf => hpos (hq.nonempty hf)
    have hw := h.window
    unfold fillOutput URingBuffer.getWriteAheadLength PacedQueue.play
    rw [if_pos (by omega), if_neg (by rw [hempty]; exact Bool.false_ne_true)]
    exact ⟨fillsWith_silence n n 0 (Nat.add_zero n), h⟩

end Fill

def acceptedBytes (steps : List PlaybackStep) : Bytes := steps.flatMap (·.accepted)

def playedBytes (steps : List PlaybackStep) : Bytes := steps.flatMap (·.played)

@[simp] theorem acceptedBytes_append (steps : List PlaybackStep) (s : PlaybackStep) :
    acceptedBytes (steps ++ [s]) = acceptedBytes steps ++ s.accepted := by
  simp [acceptedBytes]

@[simp] theorem playedBytes_append (steps : List PlaybackStep) (s : PlaybackStep) :
    playedBytes (steps ++ [s]) = playedBytes steps ++ s.played := by
  simp [playedBytes]

/-- After the observed steps the buffer represents a queue that is primed exactly while playing, and
what was accepted is what was played followed by the queue. -/
def PlaybackInvariant (sampleRate : ℤ) (data : PwStreamData) (steps : List PlaybackStep) : Prop :=
  ∃ rb, ∃ q : PacedQueue Sample (URingBuffer.slotsFor sampleRate), data.buffer = some rb ∧
    Represents (URingBuffer.prefillFor sampleRate) rb q ∧
    Settled (URingBuffer.prefillFor sampleRate) q ∧
    q.primed = playing (URingBuffer.prefillFor sampleRate) steps ∧
    acceptedBytes steps = playedBytes steps ++ encode q.items

variable {sampleRate : ℤ} {data : PwStreamData} {steps : List PlaybackStep}

theorem playbackInvariant_init (h : 200 ≤ sampleRate) :
    PlaybackInvariant sampleRate (.ofSampleRate sampleRate) [] :=
  ⟨_, .empty, rfl, URingBuffer.represents_ofSampleRate (by omega),
    settled_empty (URingBuffer.prefillFor_pos h), rfl, rfl⟩

theorem onProcessOutput_connected (st : StreamStatics F) {b : OutputBuffer} {rb : URingBuffer}
    (hdata : data.buffer = some rb) (hb : b.hasData) (hst : st.outStreamConnected) :
    ∃ signals data', onProcessOutput A st data (some b) =
        .ok (some ⟨(fillOutput rb b.numSamples).1,
          (decode (fillOutput rb b.numSamples).1.bytes).map (A.amplify st.outputGain), 0, 4,
          4 * b.numSamples⟩, signals, data') ∧
      data'.buffer = some (fillOutput rb b.numSamples).2 := by
  simp only [onProcessOutput, hb, hst, and_self, if_true, hdata]
  exact ⟨_, _, rfl, tick_buffer _ _⟩

theorem bufferedSamples_eq {slots prefill : ℕ} {rb : URingBuffer} {q : PacedQueue Sample slots}
    (h : Represents prefill rb q) (hdata : data.buffer = some rb) :
    bufferedSamples data = q.items.length := by
  rw [bufferedSamples, hdata]
  exact (congrArg Int.toNat h.window).trans (Int.toNat_natCast _)

/-- One chunk keeps the invariant: it is buffered whole or not at all. -/
theorem playbackInvariant_chunk (h : 200 ≤ sampleRate) (hinv : PlaybackInvariant sampleRate data steps)
    {binData : Bytes} {n : ℕ} (hlen : binData.length = 4 * n) :
    PlaybackInvariant sampleRate ((playback A).step data (.chunk binData n)).2
      (steps ++ [((playback A).step data (.chunk binData n)).1]) := by
  obtain ⟨rb, q, hdata, hrep, hset, hon, hacc⟩ := hinv
  have hprefill := URingBuffer.prefillFor_pos h
  have hrep' := hrep.writeRawData (n := n) (URingBuffer.slotsFor_pos (by omega)) hlen.ge
  obtain ⟨data', hdata'⟩ : ∃ data' : PwStreamData,
    data' = { data with buffer := data.buffer.map (·.writeRawData binData n) } := ⟨_, rfl⟩
  have hbuf : data'.buffer = some (rb.writeRawData binData n) := by rw [hdata', hdata]; rfl
  have hlevel := bufferedSamples_eq hrep' hbuf
  have hstep : (playback A).step data (.chunk binData n) =
      (⟨if (bufferedSamples data' : ℤ) = bufferedSamples data + n then binData else [], [],
        bufferedSamples data'⟩, data') := by rw [hdata']; rfl
  rw [hstep]
  refine ⟨_, _, hbuf, hrep', hset.write hprefill _, ?_, ?_⟩
  · rw [playing_append, ← hon, hset.primed_write hprefill]
    exact congrArg _ hlevel.symm
  · have hblock : encode (blockSamples binData n) = binData := by
      rw [encode_blockSamples hlen.ge, sourceBytes, Circular.slice]
      simp [hlen.symm]
    rw [acceptedBytes_append, playedBytes_append, List.append_nil, hlevel,
      bufferedSamples_eq hrep hdata]
    by_cases hfit : q.items.length + (blockSamples binData n).length ≤
      URingBuffer.slotsFor sampleRate
    · have hi := (q.write_of_le (URingBuffer.prefillFor sampleRate) _ hfit).1
      rw [hi, List.length_append, length_blockSamples hlen.ge, if_pos (by omega), encode_append,
        hblock, hacc, List.append_assoc]
    · have hn := length_blockSamples hlen.ge
      have hq := q.bounded
      rw [q.write_of_lt _ _ (by omega), if_neg (by omega), List.append_nil, hacc]

/-- One callback keeps the invariant: what it plays comes off the queue. -/
theorem playbackInvariant_callback (h : 200 ≤ sampleRate)
    (hinv : PlaybackInvariant sampleRate data steps) (st : StreamStatics F) {b : OutputBuffer}
    (hb : b.hasData) (hst : st.outStreamConnected) :
    PlaybackInvariant sampleRate ((playback A).step data (.callback st b)).2
      (steps ++ [((playback A).step data (.callback st b)).1]) := by
  obtain ⟨rb, q, hdata, hrep, hset, hon, hacc⟩ := hinv
  have hprefill := URingBuffer.prefillFor_pos h
  obtain ⟨hfill, hrep'⟩ := fillOutput_spec hrep (URingBuffer.slotsFor_pos (by omega)) hset
    b.numSamples
  obtain ⟨signals, data', hout, hbuf⟩ := onProcessOutput_connected A st hdata hb hst
  have hlevel := bufferedSamples_eq hrep' hbuf
  have hstep : (playback A).step data (.callback st b) =
      (⟨[], (fillOutput rb b.numSamples).1.run, bufferedSamples data'⟩, data') := by
    simp only [playback, hout]
    rfl
  rw [hstep]
  refine ⟨_, _, hbuf, hrep', hset.play hprefill _, ?_, ?_⟩
  · rw [playing_append, ← hon, hset.primed_play hprefill]
    exact congrArg _ hlevel.symm
  · rw [acceptedBytes_append, playedBytes_append, List.append_nil, hfill.run, hacc,
      ← q.play_append b.numSamples, encode_append, List.append_assoc]

theorem playbackInvariant_run (h : 200 ≤ sampleRate) {evs : List (PlaybackEvent F)}
    (hevs : ∀ e ∈ evs, e.Valid sampleRate) :
    PlaybackInvariant sampleRate ((playback A).after (.ofSampleRate sampleRate) evs)
      ((playback A).observe (.ofSampleRate sampleRate) evs) := by
  refine Machine.invariant_history (fun data steps e hinv he => ?_) (playbackInvariant_init h)
    (Machine.validRun_of_forall hevs _)
  cases e with
  | chunk binData n =>
    obtain ⟨hn, -, hlen⟩ := he
    lift n to ℕ using hn
    exact playbackInvariant_chunk A h hinv (by exact_mod_cast hlen)
  | callback st b => exact playbackInvariant_callback A h hinv st he.1 he.2

/-- What a callback does in a state that the run `steps` led to. -/
structure CallbackPlays (sampleRate : ℤ) (steps : List PlaybackStep) (data : PwStreamData)
    (st : StreamStatics F) (b : OutputBuffer) : Prop where
  /-- The block is full: samples of the buffer, then zeros, all amplified afterwards. -/
  fills : ∃ chunk signals data' played, onProcessOutput A st data (some b) =
      .ok (some chunk, signals, data') ∧
    chunk.fill.run = encode played ∧
    chunk.fill.bytes = encode (played ++ List.replicate (b.numSamples - played.length) .zero) ∧
    chunk.samples = (decode chunk.fill.bytes).map (A.amplify st.outputGain) ∧
    chunk.samples.length = b.numSamples ∧ chunk.size = 4 * b.numSamples ∧
    -- Silence until the prefill has gathered again, then all there is.
    played.length = if playing (URingBuffer.prefillFor sampleRate) steps then
      min b.numSamples (bufferedSamples data) else 0
  nonempty : playing (URingBuffer.prefillFor sampleRate) steps → 0 < bufferedSamples data

theorem callbackPlays_of_invariant (h : 200 ≤ sampleRate)
    (hinv : PlaybackInvariant sampleRate data steps) (st : StreamStatics F) {b : OutputBuffer}
    (hb : b.hasData) (hst : st.outStreamConnected) :
    CallbackPlays A sampleRate steps data st b := by
  obtain ⟨rb, q, hdata, hrep, hset, hon, -⟩ := hinv
  obtain ⟨hfill, -⟩ := fillOutput_spec hrep (URingBuffer.slotsFor_pos (by omega)) hset b.numSamples
  obtain ⟨signals, data', hout, -⟩ := onProcessOutput_connected A st hdata hb hst
  have hlevel := bufferedSamples_eq hrep hdata
  refine ⟨⟨_, signals, data', _, hout, hfill.run, hfill.bytes, rfl, ?_, rfl, ?_⟩, fun hp => ?_⟩
  · have := hfill.length_le
    rw [List.length_map, hfill.bytes, decode_encode, List.length_append, List.length_replicate]
    omega
  · rw [q.length_play, hon, hlevel]
  · rw [hlevel]
    exact hset.nonempty (hon.trans hp)

/-- A queue below the prefill has room for half a second. -/
theorem chunk_accepted_of_waiting (h : 200 ≤ sampleRate) {rb : URingBuffer}
    {q : PacedQueue Sample (URingBuffer.slotsFor sampleRate)} (hdata : data.buffer = some rb)
    (hrep : Represents (URingBuffer.prefillFor sampleRate) rb q)
    (hlow : q.items.length < URingBuffer.prefillFor sampleRate) {binData : Bytes} {n : ℕ}
    (hn : (n : ℤ) ≤ sampleRate / 2) (hlen : binData.length = 4 * n) :
    ((playback A).step data (.chunk binData n)).1.accepted = binData := by
  have hslots := URingBuffer.slotsFor_eq (show 0 ≤ sampleRate by omega)
  rw [URingBuffer.bufferSize_ofSampleRate (by omega)] at hslots
  have hrep' := hrep.writeRawData (n := n) (URingBuffer.slotsFor_pos (by omega)) hlen.ge
  have hblock := length_blockSamples hlen.ge
  have hi := (q.write_of_le (URingBuffer.prefillFor sampleRate) (blockSamples binData n)
    (by omega)).1
  have hbuf : ({ data with buffer := data.buffer.map (·.writeRawData binData n) } :
      PwStreamData).buffer = some (rb.writeRawData binData n) := by rw [hdata]; rfl
  have hlevel := bufferedSamples_eq hrep' hbuf
  rw [hi, List.length_append, hblock] at hlevel
  simp only [playback]
  rw [hlevel, bufferedSamples_eq hrep hdata, if_pos (by omega)]

/-- Playback end to end: whatever chunks and callbacks have come, callbacks fill their blocks, the
samples played are a prefix of the chunks accepted, and reads are silenced for prefill only while
less than the prefill is buffered, when every chunk still fits. -/
theorem playback_faithful (hrate : 200 ≤ sampleRate) {evs : List (PlaybackEvent F)}
    (hevs : ∀ e ∈ evs, e.Valid sampleRate) :
    let data := (playback A).after (.ofSampleRate sampleRate) evs
    let steps := (playback A).observe (.ofSampleRate sampleRate) evs
    (∀ st b, (PlaybackEvent.callback st b).Valid sampleRate →
      CallbackPlays A sampleRate steps data st b) ∧
    playedBytes steps <+: acceptedBytes steps ∧
    ∃ rb, data.buffer = some rb ∧ (rb.prefillComplete = false →
      rb.writeAheadWindow < rb.prefillNumSamples ∧
      ∀ binData n, (PlaybackEvent.chunk binData n : PlaybackEvent F).Valid sampleRate →
        ((playback A).step data (.chunk binData n)).1.accepted = binData) := by
  have hinv := playbackInvariant_run A hrate hevs
  refine ⟨fun st b hv => callbackPlays_of_invariant A hrate hinv st hv.1 hv.2, ?_, ?_⟩
  · obtain ⟨-, q, -, -, -, -, hacc⟩ := hinv
    exact ⟨encode q.items, hacc.symm⟩
  · obtain ⟨rb, q, hdata, hrep, hset, -, -⟩ := hinv
    refine ⟨rb, hdata, fun hf => ?_⟩
    have hlow := hset.waiting (hrep.flag.symm.trans hf)
    refine ⟨by rw [hrep.window, hrep.prefillNumSamples]; exact_mod_cast hlow, fun binData n hv => ?_⟩
    obtain ⟨hn, hhalf, hlen⟩ := hv
    lift n to ℕ using hn
    exact chunk_accepted_of_waiting A hrate hdata hrep hlow hhalf (by exact_mod_cast hlen)

theorem playback_faithful_at_two_hundred :
    let floats : FloatOps Unit := ⟨(), fun _ => true, fun _ _ => false, fun _ x => x, fun _ => ()⟩
    let st : StreamStatics Unit := ⟨(), 24000, (), (), true, true⟩
    let evs := [.callback st ⟨true, 8, 0⟩, .chunk [1, 2, 3, 4] 1, .callback st ⟨true, 8, 0⟩]
    let steps := (playback floats).observe (.ofSampleRate 200) evs
    playedBytes steps = [1, 2, 3, 4] ∧ playedBytes steps <+: acceptedBytes steps := by
  intro floats st evs
  refine ⟨by decide, (playback_faithful floats (by decide) ?_).2.1⟩
  simp [evs, st, PlaybackEvent.Valid]

end UwavClient
