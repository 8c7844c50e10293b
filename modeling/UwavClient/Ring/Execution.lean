import UwavClient.Ring.Sample

/-!
# Uninterrupted execution of the ring buffer's programs

What each fragment of a member function does when nothing intervenes, as one state update. The member
functions themselves are then chains of these equations.
-/

namespace UwavClient

open Program

variable (rb : URingBuffer)

namespace Ring

section Accesses

variable (x : IntField) (v pos off n : ℤ) (b : Bool) (src : Bytes)

@[simp] theorem run_load : (load x).run ringHandler rb = (rb.get x, rb) := rfl

@[simp] theorem run_store : (store x v).run ringHandler rb = ((), rb.set x v) := rfl

@[simp] theorem run_add : (add x v).run ringHandler rb = ((), rb.set x (rb.get x + v)) := rfl

@[simp] theorem run_loadPrefillComplete :
    loadPrefillComplete.run ringHandler rb = (rb.prefillComplete, rb) := rfl

@[simp] theorem run_storePrefillComplete :
    (storePrefillComplete b).run ringHandler rb = ((), { rb with prefillComplete := b }) := rfl

@[simp] theorem run_copyIn : (copyIn pos src off n).run ringHandler rb = ((), { rb with
    buffer := Circular.splice rb.buffer (4 * pos.toNat) (sourceBytes src off n) }) := rfl

@[simp] theorem run_copyOut : (copyOut pos n).run ringHandler rb =
    (Circular.slice rb.buffer (4 * pos.toNat) (4 * n.toNat), rb) := rfl

@[simp] theorem run_qWarning (text : String) : (qWarning text).run ringHandler rb =
    ((), { rb with warnings := rb.warnings ++ [text] }) := rfl

variable {β : Type}

@[simp] theorem run_load_bind (f : ℤ → RingProgram β) :
    (load x >>= f).run ringHandler rb = (f (rb.get x)).run ringHandler rb := rfl

@[simp] theorem run_loadPrefillComplete_bind (f : Bool → RingProgram β) :
    (loadPrefillComplete >>= f).run ringHandler rb =
      (f rb.prefillComplete).run ringHandler rb := rfl

end Accesses

variable (l : RingLayout) (src : Bytes) (count : ℤ)

theorem run_countSinceWarn (x : IntField) :
    (countSinceWarn l x count).run ringHandler rb =
      ((), if rb.get x < l.sampleRate then rb.set x (rb.get x + count) else rb) := by
  simp only [countSinceWarn, run_load_bind, run_ite]
  split <;> rfl

theorem run_warnLimited (x : IntField) (text : String) :
    (warnLimited l x text).run ringHandler rb =
      ((), if l.sampleRate ≤ rb.get x then
        { rb with warnings := rb.warnings ++ [text] }.set x 0 else rb) := by
  simp only [warnLimited, run_load_bind, run_ite]
  split <;> rfl

theorem run_completePrefill :
    (completePrefill l).run ringHandler rb = ((), { rb with
      prefillComplete := rb.prefillComplete || decide (l.prefillNumSamples ≤ rb.writeAheadWindow) }) := by
  simp only [completePrefill, run_loadPrefillComplete_bind, run_load_bind, run_ite, URingBuffer.get]
  cases hf : rb.prefillComplete with
  | true => cases rb; simp_all
  | false => by_cases hw : l.prefillNumSamples ≤ rb.writeAheadWindow <;> simp [hw, ← hf]

theorem run_restartPrefill :
    restartPrefill.run ringHandler rb = ((), { rb with
      prefillComplete := rb.prefillComplete && decide (0 < rb.writeAheadWindow) }) := by
  simp only [restartPrefill, run_load_bind, URingBuffer.get, ← not_lt]
  by_cases hw : 0 < rb.writeAheadWindow <;> simp [hw]

theorem run_wrapPos (x : IntField) :
    (wrapPos l x).run ringHandler rb =
      ((), if rb.get x = l.bufferSize then rb.set x 0 else rb) := by
  simp only [wrapPos, run_load_bind, run_ite]
  split <;> rfl

theorem run_readWithheld :
    (readWithheld count).run ringHandler rb =
      (decide (rb.writeAheadWindow < count) || !rb.prefillComplete, rb) := by
  simp only [readWithheld, run_load_bind, URingBuffer.get]
  by_cases h : rb.writeAheadWindow < count <;> simp [run_bind, h]

theorem run_silencedRead :
    (silencedRead l).run ringHandler rb =
      ((), if l.sampleRate ≤ rb.readsSinceLastWarn ∧ rb.prefillComplete then
        { rb with readsSinceLastWarn := 0 } else rb) := by
  simp only [silencedRead, run_load_bind, URingBuffer.get]
  by_cases h : l.sampleRate ≤ rb.readsSinceLastWarn <;> by_cases hf : rb.prefillComplete <;>
    simp [URingBuffer.set, h, hf]

theorem run_writeStraight :
    (writeStraight l src count).run ringHandler rb = ((), { rb with
      buffer := Circular.splice rb.buffer (4 * rb.writePos.toNat) (sourceBytes src 0 count)
      writePos := if rb.writePos + count = l.bufferSize then 0 else rb.writePos + count
      writeAheadWindow := rb.writeAheadWindow + count
      prefillComplete := rb.prefillComplete ||
        decide (l.prefillNumSamples ≤ rb.writeAheadWindow + count) }) := by
  change (wrapPos l .writePos >>= fun _ => completePrefill l).run ringHandler { rb with
    buffer := Circular.splice rb.buffer (4 * rb.writePos.toNat) (sourceBytes src 0 count)
    writePos := rb.writePos + count
    writeAheadWindow := rb.writeAheadWindow + count } = _
  rw [run_bind, run_wrapPos, run_completePrefill]
  by_cases h : rb.writePos + count = l.bufferSize <;> simp [URingBuffer.get, URingBuffer.set, h]

theorem run_writeWrapped {writeToEnd : ℤ} (hw : writeToEnd = l.bufferSize - rb.writePos) :
    (writeWrapped l src count).run ringHandler rb = ((), { rb with
      buffer := Circular.splice
        (Circular.splice rb.buffer (4 * rb.writePos.toNat) (sourceBytes src 0 writeToEnd)) 0
        (sourceBytes src writeToEnd (count - writeToEnd))
      writePos := count - writeToEnd
      writeAheadWindow := rb.writeAheadWindow + count
      prefillComplete := rb.prefillComplete ||
        decide (l.prefillNumSamples ≤ rb.writeAheadWindow + count) }) := by
  subst hw
  change (completePrefill l).run ringHandler { rb with
    buffer := Circular.splice (Circular.splice rb.buffer (4 * rb.writePos.toNat)
      (sourceBytes src 0 (l.bufferSize - rb.writePos))) 0
      (sourceBytes src (l.bufferSize - rb.writePos) (count - (l.bufferSize - rb.writePos)))
    writePos := count - (l.bufferSize - rb.writePos)
    writeAheadWindow := rb.writeAheadWindow + count } = _
  rw [run_completePrefill]

theorem run_takeStraight :
    (takeStraight count).run ringHandler rb =
      (Circular.slice rb.buffer (4 * rb.readPos.toNat) (4 * count.toNat), { rb with
        readPos := rb.readPos + count
        writeAheadWindow := rb.writeAheadWindow + -count }) :=
  rfl

theorem run_takeWrapped {readToEnd : ℤ} (hr : readToEnd = l.bufferSize - rb.readPos) :
    (takeWrapped l count).run ringHandler rb =
      (Circular.slice rb.buffer (4 * rb.readPos.toNat) (4 * readToEnd.toNat) ++
        Circular.slice rb.buffer 0 (4 * (count - readToEnd).toNat), { rb with
        readPos := count - readToEnd
        writeAheadWindow := rb.writeAheadWindow + -count }) := by
  subst hr
  rfl

/-- An accepted or dropped block, after the counter: the form both write functions come to, though
they test the position and the window in different orders. -/
def runWrite (text : String) : Unit × URingBuffer :=
  if rb.writeAheadWindow + count ≤ l.bufferSize then
    if rb.writePos + count ≤ l.bufferSize then (writeStraight l src count).run ringHandler rb
    else (writeWrapped l src count).run ringHandler rb
  else (warnLimited l .writesSinceLastWarn text).run ringHandler rb

variable {rb} {rb' : URingBuffer}

theorem run_writeAudioData
    (hc : (countSinceWarn l .writesSinceLastWarn count).run ringHandler rb = ((), rb')) :
    (writeAudioData l src count).run ringHandler rb = runWrite rb' l src count pipewireOverflow := by
  rw [writeAudioData, run_bind, hc]
  by_cases hw : rb'.writePos + count ≤ l.bufferSize <;>
    by_cases hn : rb'.writeAheadWindow + count ≤ l.bufferSize <;>
    simp [URingBuffer.get, runWrite, hw, hn]

theorem run_writeRawData
    (hc : (countSinceWarn l .writesSinceLastWarn count).run ringHandler rb = ((), rb')) :
    (writeRawData l src count).run ringHandler rb =
      runWrite rb' l src count "Unable to write raw data to buffer! (Overflow)" := by
  rw [writeRawData, run_bind, hc]
  by_cases hn : rb'.writeAheadWindow + count ≤ l.bufferSize
  · by_cases hw : rb'.writePos + count ≤ l.bufferSize <;>
      simp [URingBuffer.get, runWrite, hn, hw, not_lt.mpr hn]
  · simp [URingBuffer.get, runWrite, hn, not_le.mp hn]

theorem run_readAudioData
    (hc : (countSinceWarn l .readsSinceLastWarn count).run ringHandler rb = ((), rb')) :
    (readAudioData l count).run ringHandler rb =
      if count ≤ rb'.writeAheadWindow ∧ rb'.prefillComplete then
        if rb'.readPos + count ≤ l.bufferSize then
          let taken := (takeStraight count).run ringHandler rb'
          let wrapped := ((wrapPos l .readPos).run ringHandler taken.2).2
          (.samples taken.1, (restartPrefill.run ringHandler wrapped).2)
        else
          let taken := (takeWrapped l count).run ringHandler rb'
          (.samples taken.1, (restartPrefill.run ringHandler taken.2).2)
      else (.silence count, ((silencedRead l).run ringHandler rb').2) := by
  rw [readAudioData, run_bind, hc, run_bind, run_readWithheld]
  by_cases hn : count ≤ rb'.writeAheadWindow ∧ rb'.prefillComplete
  · by_cases hr : rb'.readPos + count ≤ l.bufferSize <;>
      simp [URingBuffer.get, run_bind, hn, hr, not_lt.mpr hn.1]
  · have hs : decide (rb'.writeAheadWindow < count) || !rb'.prefillComplete := by
      rcases not_and_or.mp hn with hc | hf
      · simp [not_le.mp hc]
      · simp [hf]
    simp [run_bind, hn, hs]

theorem run_readRawData
    (hc : (countSinceWarn l .readsSinceLastWarn count).run ringHandler rb = ((), rb')) :
    (readRawData l count).run ringHandler rb =
      if count ≤ rb'.writeAheadWindow then
        let taken := if rb'.readPos + count ≤ l.bufferSize then (takeStraight count).run ringHandler rb'
          else (takeWrapped l count).run ringHandler rb'
        (.samples taken.1, taken.2)
      else (.silence count, ((warnLimited l .readsSinceLastWarn
        "Unable to provide raw data from buffer! (Underflow)").run ringHandler rb').2) := by
  rw [readRawData, run_bind, hc]
  by_cases hn : count ≤ rb'.writeAheadWindow
  · by_cases hr : rb'.readPos + count ≤ l.bufferSize <;>
      simp [URingBuffer.get, run_bind, hn, hr, not_lt.mpr hn]
  · simp [URingBuffer.get, run_bind, hn, not_le.mp hn]

theorem run_discardSamples :
    (discardSamples l count).run ringHandler rb = ((),
      if count ≤ rb.writeAheadWindow then
        { rb with
          readPos := if rb.readPos + count = l.bufferSize then 0
            else if rb.readPos + count ≤ l.bufferSize then rb.readPos + count
            else count - (l.bufferSize - rb.readPos)
          writeAheadWindow := rb.writeAheadWindow + -count
          prefillComplete := rb.prefillComplete && decide (0 < rb.writeAheadWindow + -count) }
      else { rb with readPos := 0, writePos := 0, writeAheadWindow := 0, prefillComplete := false }) := by
  rw [discardSamples]
  by_cases hn : count ≤ rb.writeAheadWindow
  · by_cases he : rb.readPos + count = l.bufferSize
    · simp [URingBuffer.get, URingBuffer.set, run_bind, run_wrapPos, run_restartPrefill, hn, he,
        not_lt.mpr hn]
    · by_cases hr : rb.readPos + count ≤ l.bufferSize <;>
        simp [URingBuffer.get, URingBuffer.set, run_bind, run_wrapPos, run_restartPrefill, hn, hr, he,
          not_lt.mpr hn]
  · simp [URingBuffer.get, URingBuffer.set, run_bind, hn, not_le.mp hn]

end Ring

end UwavClient
