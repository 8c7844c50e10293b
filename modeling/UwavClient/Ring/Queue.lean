import UwavClient.Ring.Refinement

/-!
# Runs of calls to the ring buffer

Any mix of calls to the six member functions, each with a count that its block can hold, answers as
the paced queue does and leaves the object representing the queue's state.
-/

namespace UwavClient

inductive RingCall where
  | writeAudioData (samples : Bytes) (count : ℤ)
  | writeRawData (binData : Bytes) (count : ℤ)
  | readAudioData (count : ℤ)
  | readRawData (count : ℤ)
  | discardSamples (count : ℤ)
  | getWriteAheadLength

inductive RingResult where
  | done
  | block (bytes : Bytes)
  | length (n : ℤ)
  deriving DecidableEq, Repr

namespace RingCall

/-- The count is not negative and the source block holds that many samples. -/
def Valid : RingCall → Prop
  | .writeAudioData src count | .writeRawData src count => 0 ≤ count ∧ 4 * count ≤ src.length
  | .readAudioData count | .readRawData count | .discardSamples count => 0 ≤ count
  | .getWriteAheadLength => True

instance : DecidablePred Valid := fun c => by
  cases c <;> unfold Valid <;> infer_instance

end RingCall

def ringMachine : Machine URingBuffer RingCall RingResult where
  step rb
    | .writeAudioData samples count => (.done, rb.writeAudioData samples count)
    | .writeRawData binData count => (.done, rb.writeRawData binData count)
    | .readAudioData count => (.block (rb.readAudioData count).1.bytes, (rb.readAudioData count).2)
    | .readRawData count => (.block (rb.readRawData count).1.bytes, (rb.readRawData count).2)
    | .discardSamples count => (.done, rb.discardSamples count)
    | .getWriteAheadLength => (.length rb.getWriteAheadLength, rb)

/-- What the component is for: a bounded queue of samples that answers zeros for what it withholds. -/
def queueMachine (slots prefill : ℕ) : Machine (PacedQueue Sample slots) RingCall RingResult where
  step q
    | .writeAudioData src count | .writeRawData src count =>
      (.done, q.write prefill (blockSamples src count.toNat))
    | .readAudioData count =>
      let (xs, q') := q.readPaced count.toNat
      (.block (encode (xs.getD (List.replicate count.toNat .zero))), q')
    | .readRawData count =>
      let (xs, q') := q.readRaw count.toNat
      (.block (encode (xs.getD (List.replicate count.toNat .zero))), q')
    | .discardSamples count => (.done, q.discard count.toNat)
    | .getWriteAheadLength => (.length q.items.length, q)

theorem ReadBlock.bytes_ofQueue (n : ℕ) (xs : Option (List Sample)) :
    (ReadBlock.ofQueue n xs).bytes = encode (xs.getD (List.replicate n .zero)) := by
  cases xs with
  | none => exact (encode_replicate_zero n).symm
  | some xs => rfl

theorem ringMachine_refines_queueMachine {slots : ℕ} (hs : 0 < slots) (prefill : ℕ) :
    Machine.Refines ringMachine (queueMachine slots prefill) (Represents prefill)
      RingCall.Valid := by
  intro rb q c h hc
  cases c with
  | writeAudioData src count =>
    lift count to ℕ using hc.1
    exact ⟨rfl, h.writeAudioData hs (by exact_mod_cast hc.2)⟩
  | writeRawData src count =>
    lift count to ℕ using hc.1
    exact ⟨rfl, h.writeRawData hs (by exact_mod_cast hc.2)⟩
  | readAudioData count =>
    lift count to ℕ using hc
    obtain ⟨hv, hr⟩ := h.readAudioData hs count
    exact ⟨congrArg RingResult.block ((congrArg _ hv).trans (ReadBlock.bytes_ofQueue _ _)), hr⟩
  | readRawData count =>
    lift count to ℕ using hc
    obtain ⟨hv, hr⟩ := h.readRawData hs count
    exact ⟨congrArg RingResult.block ((congrArg _ hv).trans (ReadBlock.bytes_ofQueue _ _)), hr⟩
  | discardSamples count =>
    lift count to ℕ using hc
    exact ⟨rfl, h.discardSamples count⟩
  | getWriteAheadLength => exact ⟨congrArg RingResult.length h.window, h⟩

namespace URingBuffer

def slotsFor (sampleRate : ℤ) : ℕ := (ofSampleRate sampleRate).bufferSize.toNat

def prefillFor (sampleRate : ℤ) : ℕ := (ofSampleRate sampleRate).prefillNumSamples.toNat

variable {sampleRate : ℤ}

theorem prefillFor_eq (h : 0 ≤ sampleRate) :
    (prefillFor sampleRate : ℤ) = (ofSampleRate sampleRate).prefillNumSamples :=
  Int.toNat_of_nonneg (Int.mul_nonneg (Int.sign_nonneg_iff.mpr h) (Int.natCast_nonneg _))

/-- From 200 Hz on at least one sample must gather before playback. -/
theorem prefillFor_pos (h : 200 ≤ sampleRate) : 0 < prefillFor sampleRate := by
  lift sampleRate to ℕ using by omega
  have hp := prefillFor_eq (Int.natCast_nonneg sampleRate)
  have hsign : (sampleRate : ℤ).sign = 1 := Int.sign_eq_one_of_pos (by omega)
  have hpos : 0 < Binary64.mulTrunc outputPrefill sampleRate := by
    apply Binary64.mulTrunc_pos
    calc 2 ^ outputPrefill.exp ≤ 200 * outputPrefill.mant := by decide
      _ ≤ sampleRate * outputPrefill.mant := Nat.mul_le_mul_right _ (by omega)
  have heq : (ofSampleRate sampleRate).prefillNumSamples =
      Binary64.mulTruncInt outputPrefill sampleRate := rfl
  rw [Binary64.mulTruncInt, hsign, Int.natAbs_natCast] at heq
  omega

theorem bufferSize_ofSampleRate (h : 0 ≤ sampleRate) :
    (ofSampleRate sampleRate).bufferSize = sampleRate / 2 + prefillFor sampleRate := by
  rw [prefillFor_eq h, ← Int.tdiv_eq_ediv_of_nonneg h]
  rfl

theorem slotsFor_eq (h : 0 ≤ sampleRate) :
    (slotsFor sampleRate : ℤ) = (ofSampleRate sampleRate).bufferSize := by
  rw [slotsFor, Int.toNat_of_nonneg]
  rw [bufferSize_ofSampleRate h]
  omega

theorem slotsFor_pos (h : 2 ≤ sampleRate) : 0 < slotsFor sampleRate := by
  have := slotsFor_eq (show 0 ≤ sampleRate by omega)
  have := bufferSize_ofSampleRate (show 0 ≤ sampleRate by omega)
  omega

/-- The constructor's zeroed buffer represents the empty queue, not yet primed. -/
theorem represents_ofSampleRate (h : 2 ≤ sampleRate) :
    Represents (prefillFor sampleRate) (ofSampleRate sampleRate)
      (.empty : PacedQueue Sample (slotsFor sampleRate)) where
  bufferSize := (slotsFor_eq (by omega)).symm
  prefillNumSamples := (prefillFor_eq (by omega)).symm
  readPos_nonneg := le_refl _
  readPos_le := Int.natCast_nonneg _
  writePos := by simp [ofSampleRate]
  window := rfl
  flag := rfl
  stored := .nil (by simp [ofSampleRate, slotsFor]) _

end URingBuffer

/-- The ring buffer refines a bounded queue of samples with prefill: after any calls it has given the
queue's answers and represents the queue's state. -/
theorem ring_refines_queue {sampleRate : ℤ} (hrate : 2 ≤ sampleRate) {calls : List RingCall}
    (hcalls : ∀ c ∈ calls, c.Valid) :
    let ring := URingBuffer.ofSampleRate sampleRate
    let prefill := URingBuffer.prefillFor sampleRate
    let queue := queueMachine (URingBuffer.slotsFor sampleRate) prefill
    ringMachine.observe ring calls = queue.observe .empty calls ∧
      Represents prefill (ringMachine.after ring calls) (queue.after .empty calls) := by
  have href := ringMachine_refines_queueMachine (URingBuffer.slotsFor_pos hrate)
    (URingBuffer.prefillFor sampleRate)
  have hinit := URingBuffer.represents_ofSampleRate hrate
  exact ⟨href.observe hinit hcalls, href.after hinit hcalls⟩

theorem ring_refines_queue_at_eight :
    let calls : List RingCall := [.writeRawData [1, 1, 1, 1, 2, 2, 2, 2, 3, 3, 3, 3] 3,
      .readAudioData 2, .writeAudioData [4, 4, 4, 4, 5, 5, 5, 5, 6, 6, 6, 6] 3, .readRawData 4,
      .getWriteAheadLength]
    ringMachine.observe (URingBuffer.ofSampleRate 8) calls = [.done,
      .block [1, 1, 1, 1, 2, 2, 2, 2], .done,
      .block [3, 3, 3, 3, 4, 4, 4, 4, 5, 5, 5, 5, 6, 6, 6, 6], .length 0] :=
  (ring_refines_queue (by decide) (by decide)).1.trans (by decide)

end UwavClient
