import UwavClient.Ring.Queue

/-!
# The stream callbacks (`u_audioprovider.cpp`: `onProcessInput`, `onProcessOutput`)

PipeWire calls these with a buffer to drain or to fill. Floating-point arithmetic (gain, level meter
and gate comparison) is a parameter; the samples themselves stay four bytes. A member access through
a null or dangling pointer, a failed `assert` and an unchecked access out of range are faults.
-/

namespace UwavClient

inductive Fault where
  | nullDereference
  | danglingDereference
  | assertion
  | outOfRange
  deriving DecidableEq, Repr

structure FloatOps (F : Type) where
  zero : F
  isZero : F → Bool
  lt : F → F → Bool
  amplify : F → Sample → Sample
  rms : List Sample → F

structure StreamStatics (F : Type) where
  gateRMS : F
  gateClosingTail : ℤ
  inputGain : F
  outputGain : F
  inStreamConnected : Bool
  outStreamConnected : Bool

inductive StreamSignal (F : Type) where
  | currentInputRMSChangedTo (value : F)
  | currentOutputRMSChangedTo (value : F)
  | signalInputBufferWrite

structure PwStreamData where
  buffer : Option URingBuffer
  ticksBetweenUpdates : ℤ := 3
  currentTicks : ℤ := 0
  isGating : Bool := false
  tailCounter : ℤ := 0

variable {F : Type} (A : FloatOps F) (st : StreamStatics F)

/-- `data->currentTicks--; if (data->currentTicks <= 0) { ... }`: every few callbacks the level is
signalled. -/
def tick (data : PwStreamData) (signal : StreamSignal F) : List (StreamSignal F) × PwStreamData :=
  if data.currentTicks - 1 ≤ 0 then ([signal], { data with currentTicks := data.ticksBetweenUpdates })
  else ([], { data with currentTicks := data.currentTicks - 1 })

structure InputBuffer where
  samples : Option (List Sample)

/-- `data->buffer->writeAudioData(samples, numSamples); data->eStats->signalInputBufferWrite();` -/
def storeInput (rb : URingBuffer) (samples : List Sample) (data : PwStreamData) :
    List (StreamSignal F) × PwStreamData :=
  ([.signalInputBufferWrite],
    { data with buffer := some (rb.writeAudioData (encode samples) samples.length) })

/-- The gate: what becomes of an amplified block, and the level that is reported for it. -/
def gateInput (rb : URingBuffer) (samples : List Sample) (data : PwStreamData) :
    F × List (StreamSignal F) × PwStreamData :=
  let rms := A.rms samples
  if A.isZero st.gateRMS then (rms, storeInput rb samples data)
  else if A.lt rms st.gateRMS then
    if st.gateClosingTail < data.tailCounter then (A.zero, [], { data with isGating := true })
    else (rms, storeInput rb samples
      { data with tailCounter := data.tailCounter + samples.length })
  else (rms, storeInput rb samples
    (if data.isGating then { data with isGating := false, tailCounter := 0 } else data))

/-- `onProcessInput`; the argument `none` is a failed `pw_stream_dequeue_buffer`. -/
def onProcessInput (data : PwStreamData) (pwBuffer : Option InputBuffer) :
    List (StreamSignal F) × PwStreamData :=
  match pwBuffer, data.buffer with
  | some ⟨some samples⟩, some rb =>
    if st.inStreamConnected then
      let (rms, signals, data) := gateInput A st rb (samples.map (A.amplify st.inputGain)) data
      let (updates, data) := tick data (.currentInputRMSChangedTo rms)
      (signals ++ updates, data)
    else ([], data)
  | _, _ => ([], data)

/-- The buffer PipeWire wants filled: whether its data pointer is set, `datas[0].maxsize` in bytes,
and the number of samples requested, 0 for no preference. -/
structure OutputBuffer where
  hasData : Bool
  maxsize : ℕ
  requested : ℕ

def OutputBuffer.numSamples (b : OutputBuffer) : ℕ :=
  if b.requested ≠ 0 then min b.requested (b.maxsize / 4) else b.maxsize / 4

/-- The samples of an output block before the gain: one read from the ring buffer, then zeros. -/
structure OutputFill where
  read : ReadBlock
  padding : ℤ

namespace OutputFill

def bytes (f : OutputFill) : Bytes := f.read.bytes ++ List.replicate (4 * f.padding.toNat) 0

def run (f : OutputFill) : Bytes :=
  match f.read with
  | .silence _ => []
  | .samples bytes => bytes

end OutputFill

/-- The fill of `onProcessOutput`: silence, a whole read, or a partial read padded with zeros. -/
def fillOutput (rb : URingBuffer) (numSamples : ℤ) : OutputFill × URingBuffer :=
  let writeAhead := rb.getWriteAheadLength
  if writeAhead ≤ 0 then (⟨.silence numSamples, 0⟩, rb)
  else if numSamples ≤ writeAhead then
    (⟨(rb.readAudioData numSamples).1, 0⟩, (rb.readAudioData numSamples).2)
  else (⟨(rb.readAudioData writeAhead).1, numSamples - writeAhead⟩, (rb.readAudioData writeAhead).2)

/-- The chunk handed back to PipeWire. `fill` is its contents before the gain. -/
structure OutputChunk where
  fill : OutputFill
  samples : List Sample
  offset : ℤ
  stride : ℤ
  size : ℤ

/-- `onProcessOutput`; without a chunk the buffer is queued again as it came. -/
def onProcessOutput (data : PwStreamData) (pwBuffer : Option OutputBuffer) :
    Except Fault (Option OutputChunk × List (StreamSignal F) × PwStreamData) :=
  match pwBuffer with
  | none => .ok (none, [], data)
  | some b =>
    if b.hasData ∧ st.outStreamConnected then
      match data.buffer with
      | none => .error .nullDereference
      | some rb =>
        let (fill, rb) := fillOutput rb b.numSamples
        let samples := (decode fill.bytes).map (A.amplify st.outputGain)
        let (signals, data) := tick { data with buffer := some rb }
          (.currentOutputRMSChangedTo (A.rms samples))
        .ok (some ⟨fill, samples, 0, 4, 4 * b.numSamples⟩, signals, data)
    else .ok (none, [], data)

@[simp] theorem tick_buffer (data : PwStreamData) (signal : StreamSignal F) :
    (tick data signal).2.buffer = data.buffer := by
  unfold tick
  split <;> rfl

end UwavClient
