import UwavClient.Client.State

/-!
# Streaming (`onInputBufferWrite`, `EmitSamples`, `onSamplesReceived`, `on_AudioStreamSuccess`)

Samples captured are sent in whole chunks once the server has started, samples received go to the
output buffer, and the start of the streams fixes the chunk lengths and asks the server to start. The
loops of `onInputBufferWrite` end by themselves or use up the fuel they are given.
-/

namespace UwavClient

open Slot

def thousandth : Binary64.Constant := ⟨4611686018427388, 62, by decide⟩

/-- `(chunkSize * sampleRate) * 0.001`, stored in an `int`. -/
def samplesPerChunk (chunkSize sampleRate : ℤ) : ℤ :=
  Binary64.mulTruncInt thousandth (chunkSize * sampleRate)

/-- The four assignments of every path that ends a server session. -/
def UwaVClient.clearServerState (c : UwaVClient) : UwaVClient :=
  { c with
    serverStarting := false
    serverStarted := false
    numInputSamplesPerChunk := 0
    numOutputSamplesPerChunk := 0 }

/-- `EmitSamples`; a payload is a time stamp and the samples. -/
def emitSamples (numSamples : ℤ) : Slot Unit := do
  if ← opened then
    let dat ← readRawData numSamples
    emit (.audioIn dat)

/-- `while (getWriteAheadLength() >= numInputSamplesPerChunk) EmitSamples(...)`. -/
def sendChunks (chunk : ℤ) : ℕ → Slot Unit
  | 0 => throw .unfinished
  | fuel + 1 => do
    if chunk ≤ (← getWriteAheadLength) then
      let _ ← bufferRate .input
      emitSamples chunk
      sendChunks chunk fuel

/-- `while (getWriteAheadLength() > numInputSamplesPerChunk) discardSamples(...)`. -/
def discardChunks (chunk : ℤ) : ℕ → Slot Unit
  | 0 => throw .unfinished
  | fuel + 1 => do
    if chunk < (← getWriteAheadLength) then
      Slot.discardSamples chunk
      discardChunks chunk fuel

def onInputBufferWrite (fuel : ℕ) (c : UwaVClient) : Slot Unit := do
  if ← connected .input then
    if c.serverStarted ∧ c.numInputSamplesPerChunk ≠ 0 then
      sendChunks c.numInputSamplesPerChunk fuel
    else discardChunks c.numInputSamplesPerChunk fuel

/-- One field of an `AUDIO_OUT` message: the sample count, narrowed to an `int`, and the samples are
kept. The others that are looked at only reach labels. -/
def audioOutField (found : ℤ × Option Bytes) (key : String) (m : Message) :
    Except Fault (ℤ × Option Bytes) := do
  if key = "sample_count" then
    if (← m.getFlag) = .integer then return ((← m.getInt).bmod (2 ^ 32), found.2) else return found
  else if key = "samples" then
    if (← m.getFlag) = .binary then return (found.1, some (← m.getBinary)) else return found
  else if key = "timestamp" ∨ key = "input_level_db" ∨ key = "output_level_db" ∨
      key = "inference_time_ms" then
    let _ ← m.getFlag
    return found
  else return found

def audioOutFields (fields : List (String × Message)) : Except Fault (ℤ × Option Bytes) :=
  fields.foldlM (fun found kv => audioOutField found kv.1 kv.2) (0, none)

def onSamplesReceived (msg : Message) (c : UwaVClient) : Slot UwaVClient := do
  if !c.serverStarted then return c
  if !(← connected .output) then return c
  match ← ofExcept (audioOutFields (← ofExcept msg.getMap)) with
  | (_, none) => return c
  | (reportedSampleNum, some data) =>
    if reportedSampleNum ≤ 0 then return c
    if reportedSampleNum ≠ c.numOutputSamplesPerChunk then
      emit .serverStop
      stopAudio
      return c.clearServerState
    Slot.writeRawData data reportedSampleNum
    return c

def onAudioStreamSuccess (c : UwaVClient) : Slot UwaVClient := do
  let c := { c with chunkSize := c.sliderChunkSize }
  let c ← if ← connected .input then do
      let rate ← bufferRate .input
      pure { c with numInputSamplesPerChunk := samplesPerChunk c.chunkSize rate }
    else pure c
  let c ← if ← connected .output then do
      let rate ← bufferRate .output
      pure { c with numOutputSamplesPerChunk := samplesPerChunk c.chunkSize rate }
    else pure c
  if c.serverStarting ∨ c.serverStarted then return c
  if ← opened then
    emit .serverStart
    return { c with serverStarting := true }
  return c

/-- Asks the socket only for the text of a label. -/
def onAudioStreamEnd (c : UwaVClient) : Slot UwaVClient := do
  let _ ← opened
  return { c with numInputSamplesPerChunk := 0, numOutputSamplesPerChunk := 0 }

/-- Sets the text of a label. -/
def onAudioStreamConnecting (c : UwaVClient) : Slot UwaVClient := return c

end UwavClient
