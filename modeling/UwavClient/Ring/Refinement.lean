import UwavClient.Library.Machine
import UwavClient.Library.PacedQueue
import UwavClient.Ring.Execution

/-!
# The ring buffer is a bounded paced queue

`Represents` relates the object to a `PacedQueue` of samples: the queue is stored from `readPos` on,
`writePos` is the slot after it, the window is its length and the flag its priming. `readPos` may
stand at `bufferSize` instead of at 0, since `readRawData` does not wrap it. Every member function
preserves the relation and answers as the queue does, so runs of calls are observably runs of the
queue.
-/

namespace UwavClient

open Program

structure Represents {slots : ℕ} (prefill : ℕ) (rb : URingBuffer) (q : PacedQueue Sample slots) :
    Prop where
  bufferSize : rb.bufferSize = slots
  prefillNumSamples : rb.prefillNumSamples = prefill
  readPos_nonneg : 0 ≤ rb.readPos
  readPos_le : rb.readPos ≤ slots
  writePos : rb.writePos = ((rb.readPos.toNat + q.items.length) % slots : ℕ)
  window : rb.writeAheadWindow = q.items.length
  flag : rb.prefillComplete = q.primed
  stored : StoredSamples rb.buffer slots rb.readPos.toNat q.items

/-- The block a read returns for what the queue answers. -/
def ReadBlock.ofQueue (count : ℤ) : Option (List Sample) → ReadBlock
  | none => .silence count
  | some xs => .samples (encode xs)

namespace Represents

variable {slots prefill n : ℕ} {rb : URingBuffer} {q : PacedQueue Sample slots}

/-- The two warning counters and the log are not part of the queue. -/
theorem congr (h : Represents prefill rb q) {rb' : URingBuffer}
    (hl : rb'.toRingLayout = rb.toRingLayout) (hr : rb'.readPos = rb.readPos)
    (hw : rb'.writePos = rb.writePos) (hn : rb'.writeAheadWindow = rb.writeAheadWindow)
    (hf : rb'.prefillComplete = rb.prefillComplete) (hb : rb'.buffer = rb.buffer) :
    Represents prefill rb' q where
  bufferSize := by rw [hl]; exact h.bufferSize
  prefillNumSamples := by rw [hl]; exact h.prefillNumSamples
  readPos_nonneg := by rw [hr]; exact h.readPos_nonneg
  readPos_le := by rw [hr]; exact h.readPos_le
  writePos := by rw [hw, hr]; exact h.writePos
  window := by rw [hn]; exact h.window
  flag := by rw [hf]; exact h.flag
  stored := by rw [hb, hr]; exact h.stored

theorem countSinceWarn (h : Represents prefill rb q) (l : RingLayout) (x : IntField) (count : ℤ)
    (hx : x = .readsSinceLastWarn ∨ x = .writesSinceLastWarn) :
    Represents prefill ((Ring.countSinceWarn l x count).run ringHandler rb).2 q := by
  rw [Ring.run_countSinceWarn]
  dsimp only
  split
  · rcases hx with rfl | rfl <;> exact h.congr rfl rfl rfl rfl rfl rfl
  · exact h

theorem warnLimited (h : Represents prefill rb q) (l : RingLayout) (x : IntField) (text : String)
    (hx : x = .readsSinceLastWarn ∨ x = .writesSinceLastWarn) :
    Represents prefill ((Ring.warnLimited l x text).run ringHandler rb).2 q := by
  rw [Ring.run_warnLimited]
  dsimp only
  split
  · rcases hx with rfl | rfl <;> exact h.congr rfl rfl rfl rfl rfl rfl
  · exact h

theorem silencedRead (h : Represents prefill rb q) (l : RingLayout) :
    Represents prefill ((Ring.silencedRead l).run ringHandler rb).2 q := by
  rw [Ring.run_silencedRead]
  dsimp only
  split
  · exact h.congr rfl rfl rfl rfl rfl rfl
  · exact h

theorem exists_writePos (h : Represents prefill rb q) (hs : 0 < slots) :
    ∃ w : ℕ, rb.writePos = w ∧ w < slots ∧
      w % slots = (rb.readPos.toNat + q.items.length) % slots :=
  ⟨_, h.writePos, Nat.mod_lt _ hs, Nat.mod_mod _ _⟩

theorem flag_write (h : Represents prefill rb q) :
    (rb.prefillComplete || decide ((prefill : ℤ) ≤ rb.writeAheadWindow + n)) =
      (q.primed || decide (prefill ≤ q.items.length + n)) := by
  rw [h.flag, h.window]
  norm_cast

section Writes

variable {l : RingLayout} {src : Bytes}

theorem writeStraight (h : Represents prefill rb q) (hs : 0 < slots) (hl : l.bufferSize = slots)
    (hp : l.prefillNumSamples = prefill) (hsrc : 4 * n ≤ src.length)
    (hroom : q.items.length + n ≤ slots) (hend : rb.writePos + n ≤ slots) :
    Represents prefill ((Ring.writeStraight l src n).run ringHandler rb).2
      (q.write prefill (blockSamples src n)) := by
  have hlen := length_blockSamples hsrc
  obtain ⟨hi, hf⟩ := q.write_of_le prefill (blockSamples src n) (by omega)
  obtain ⟨w, hw, hlt, hpos⟩ := h.exists_writePos hs
  rw [hw] at hend
  rw [Ring.run_writeStraight, hl, hp]
  refine ⟨h.bufferSize, h.prefillNumSamples, h.readPos_nonneg, h.readPos_le, ?_, ?_, ?_, ?_⟩
  · rw [hi, List.length_append, hlen, ← Nat.add_assoc, Nat.add_mod, ← hpos, ← Nat.add_mod, hw]
    split
    · rw [show w + n = slots by omega, Nat.mod_self, Nat.cast_zero]
    · rw [Nat.mod_eq_of_lt (by omega), Nat.cast_add]
  · rw [hi, List.length_append, hlen, h.window, Nat.cast_add]
  · rw [hf, hlen, h.flag_write]
  · rw [hi, hw, Int.toNat_natCast, ← encode_blockSamples hsrc]
    exact h.stored.splice _ hpos (by omega) (by omega)

theorem writeWrapped (h : Represents prefill rb q) (hs : 0 < slots) (hl : l.bufferSize = slots)
    (hp : l.prefillNumSamples = prefill) (hsrc : 4 * n ≤ src.length)
    (hroom : q.items.length + n ≤ slots) (hend : slots < rb.writePos + n) :
    Represents prefill ((Ring.writeWrapped l src n).run ringHandler rb).2
      (q.write prefill (blockSamples src n)) := by
  have hlen := length_blockSamples hsrc
  obtain ⟨hi, hf⟩ := q.write_of_le prefill (blockSamples src n) (by omega)
  obtain ⟨w, hw, hlt, hpos⟩ := h.exists_writePos hs
  rw [hw] at hend
  obtain ⟨k, hk⟩ := Nat.exists_eq_add_of_le hlt.le
  rw [Ring.run_writeWrapped rb l src n (show (k : ℤ) = l.bufferSize - rb.writePos by omega), hp]
  refine ⟨h.bufferSize, h.prefillNumSamples, h.readPos_nonneg, h.readPos_le, ?_, ?_, ?_, ?_⟩
  · rw [hi, List.length_append, hlen, ← Nat.add_assoc, Nat.add_mod, ← hpos, ← Nat.add_mod,
      show w + n = slots + (n - k) by omega, Nat.add_mod_left, Nat.mod_eq_of_lt (by omega)]
    dsimp only
    omega
  · rw [hi, List.length_append, hlen, h.window, Nat.cast_add]
  · rw [hf, hlen, h.flag_write]
  · rw [hi, hw, Int.toNat_natCast, ← encode_take_blockSamples hsrc (by omega),
      ← encode_drop_blockSamples hsrc]
    have hfirst := h.stored.splice ((blockSamples src n).take k) hpos
      (by rw [List.length_take]; omega) (by rw [List.length_take]; omega)
    have hstart : 0 % slots = (rb.readPos.toNat +
        (q.items ++ (blockSamples src n).take k).length) % slots := by
      rw [List.length_append, List.length_take, hlen, Nat.min_eq_left (by omega), ← Nat.add_assoc,
        Nat.add_mod, ← hpos, ← Nat.add_mod, ← hk, Nat.mod_self, Nat.zero_mod]
    have hboth := hfirst.splice ((blockSamples src n).drop k) hstart
      (by rw [List.length_drop]; omega)
      (by rw [List.length_append, List.length_take, List.length_drop]; omega)
    rwa [List.append_assoc, List.take_append_drop] at hboth

theorem runWrite (h : Represents prefill rb q) (hs : 0 < slots) (hl : l.bufferSize = slots)
    (hp : l.prefillNumSamples = prefill) (hsrc : 4 * n ≤ src.length) (text : String) :
    Represents prefill (Ring.runWrite rb l src n text).2
      (q.write prefill (blockSamples src n)) := by
  have hw := h.window
  unfold Ring.runWrite
  split_ifs with hroom hend
  · exact h.writeStraight hs hl hp hsrc (by omega) (by omega)
  · exact h.writeWrapped hs hl hp hsrc (by omega) (by omega)
  · rw [q.write_of_lt prefill _ (by rw [length_blockSamples hsrc]; omega)]
    exact h.warnLimited l _ text (.inr rfl)

theorem writeAudioData (h : Represents prefill rb q) (hs : 0 < slots) (hsrc : 4 * n ≤ src.length) :
    Represents prefill (rb.writeAudioData src n) (q.write prefill (blockSamples src n)) := by
  have hc := h.countSinceWarn rb.toRingLayout .writesSinceLastWarn n (.inr rfl)
  rw [URingBuffer.writeAudioData, URingBuffer.call, Ring.run_writeAudioData _ _ _ rfl]
  exact hc.runWrite hs h.bufferSize h.prefillNumSamples hsrc _

theorem writeRawData (h : Represents prefill rb q) (hs : 0 < slots) (hsrc : 4 * n ≤ src.length) :
    Represents prefill (rb.writeRawData src n) (q.write prefill (blockSamples src n)) := by
  have hc := h.countSinceWarn rb.toRingLayout .writesSinceLastWarn n (.inr rfl)
  rw [URingBuffer.writeRawData, URingBuffer.call, Ring.run_writeRawData _ _ _ rfl]
  exact hc.runWrite hs h.bufferSize h.prefillNumSamples hsrc _

end Writes

section Reads

variable {l : RingLayout}

theorem writePos_drop (h : Represents prefill rb q) (hn : n ≤ q.items.length) {r : ℕ}
    (hr : r % slots = (rb.readPos.toNat + n) % slots) :
    rb.writePos = ((r + (q.items.drop n).length) % slots : ℕ) := by
  rw [h.writePos, List.length_drop, Nat.add_mod r, hr, ← Nat.add_mod]
  congr 2
  omega

/-- Removing `n` samples: `readPos` may become any position congruent to the next slot. -/
theorem remove (h : Represents prefill rb q) (hn : n ≤ q.items.length) {r : ℕ} (hle : r ≤ slots)
    (hr : r % slots = (rb.readPos.toNat + n) % slots) {p : PacedQueue Sample slots}
    (hp : p.items = q.items.drop n) :
    Represents prefill { rb with
      readPos := r
      writeAheadWindow := rb.writeAheadWindow + -n
      prefillComplete := p.primed } p where
  bufferSize := h.bufferSize
  prefillNumSamples := h.prefillNumSamples
  readPos_nonneg := Int.natCast_nonneg r
  readPos_le := Int.ofNat_le.mpr hle
  writePos := by
    rw [hp]
    exact h.writePos_drop hn hr
  window := by
    have := h.window
    rw [hp, List.length_drop]
    dsimp only
    omega
  flag := rfl
  stored := by
    rw [hp]
    exact (h.stored.drop n).congr hr.symm

theorem run_takeStraight (h : Represents prefill rb q) (hn : n ≤ q.items.length)
    (hend : rb.readPos + n ≤ slots) :
    ((Ring.takeStraight n).run ringHandler rb).1 = encode (q.items.take n) ∧
      Represents prefill ((Ring.takeStraight n).run ringHandler rb).2 (q.dropRaw n) := by
  have h0 := h.readPos_nonneg
  rw [Ring.run_takeStraight]
  refine ⟨h.stored.slice_eq rfl (by omega) hn, ?_⟩
  have := h.remove hn (r := rb.readPos.toNat + n) (by omega) rfl (p := q.dropRaw n) rfl
  refine this.congr rfl ?_ rfl rfl h.flag rfl
  dsimp only
  omega

theorem run_takeWrapped (h : Represents prefill rb q) (hs : 0 < slots) (hl : l.bufferSize = slots)
    (hn : n ≤ q.items.length) (hend : slots < rb.readPos + n) :
    ((Ring.takeWrapped l n).run ringHandler rb).1 = encode (q.items.take n) ∧
      Represents prefill ((Ring.takeWrapped l n).run ringHandler rb).2 (q.dropRaw n) := by
  have h0 := h.readPos_nonneg
  have hle := h.readPos_le
  have hfit := h.stored.length_le
  obtain ⟨k, hk⟩ := Nat.exists_eq_add_of_le (show rb.readPos.toNat ≤ slots by omega)
  rw [Ring.run_takeWrapped rb l n (show (k : ℤ) = l.bufferSize - rb.readPos by omega)]
  constructor
  · dsimp only
    rw [Int.toNat_natCast, show ((n : ℤ) - k).toNat = n - k by omega]
    exact h.stored.slice_wrap_eq rfl hk (by omega) hn
  · have := h.remove hn (r := n - k) (by omega) ?_ (p := q.dropRaw n) rfl
    · refine this.congr rfl ?_ rfl rfl h.flag rfl
      dsimp only
      omega
    · rw [show rb.readPos.toNat + n = slots + (n - k) by omega, Nat.add_mod_left]

theorem restartPrefill (h : Represents prefill rb (q.dropRaw n)) :
    Represents prefill (Ring.restartPrefill.run ringHandler rb).2 (q.dropPaced n) := by
  rw [Ring.run_restartPrefill]
  refine { h with flag := ?_ }
  have hw := h.window
  rw [PacedQueue.dropRaw_items, List.length_drop] at hw
  have he : 0 < rb.writeAheadWindow ↔ n < q.items.length := by omega
  rw [h.flag, PacedQueue.dropRaw_primed, PacedQueue.dropPaced_primed]
  exact congrArg (q.primed && ·) (decide_eq_decide.mpr he)

theorem wrapReadPos (h : Represents prefill rb q) (hl : l.bufferSize = slots) :
    Represents prefill ((Ring.wrapPos l .readPos).run ringHandler rb).2 q := by
  rw [Ring.run_wrapPos]
  by_cases hr : rb.get .readPos = l.bufferSize
  · rw [if_pos hr]
    rw [URingBuffer.get, hl] at hr
    have hmod : rb.readPos.toNat % slots = 0 % slots := by
      rw [show rb.readPos.toNat = slots by omega, Nat.mod_self, Nat.zero_mod]
    refine { h with
      readPos_nonneg := le_refl _
      readPos_le := Int.natCast_nonneg _
      writePos := ?_
      stored := h.stored.congr hmod }
    dsimp only [URingBuffer.set]
    rw [h.writePos, Nat.add_mod, hmod, ← Nat.add_mod]
    rfl
  · rw [if_neg hr]
    exact h

theorem readAudioData (h : Represents prefill rb q) (hs : 0 < slots) (n : ℕ) :
    (rb.readAudioData n).1 = .ofQueue n (q.readPaced n).1 ∧
      Represents prefill (rb.readAudioData n).2 (q.readPaced n).2 := by
  have hl := h.bufferSize
  obtain ⟨rb', hc⟩ : ∃ rb', (Ring.countSinceWarn rb.toRingLayout .readsSinceLastWarn n).run
    ringHandler rb = ((), rb') := ⟨_, rfl⟩
  replace h := h.countSinceWarn rb.toRingLayout .readsSinceLastWarn n (.inl rfl)
  rw [hc] at h
  change Represents prefill rb' q at h
  have hw := h.window
  rw [URingBuffer.readAudioData, URingBuffer.call, Ring.run_readAudioData _ _ hc]
  by_cases hn : n ≤ q.items.length ∧ q.primed
  · rw [if_pos ⟨by omega, by rw [h.flag]; exact hn.2⟩, PacedQueue.readPaced, if_pos hn, hl]
    split_ifs with hend
    · obtain ⟨hv, ht⟩ := h.run_takeStraight hn.1 hend
      exact ⟨congrArg ReadBlock.samples hv, (ht.wrapReadPos hl).restartPrefill⟩
    · obtain ⟨hv, ht⟩ := h.run_takeWrapped hs hl hn.1 (by omega)
      exact ⟨congrArg ReadBlock.samples hv, ht.restartPrefill⟩
  · rw [if_neg (by rw [hw, h.flag]; exact_mod_cast hn), PacedQueue.readPaced, if_neg hn]
    exact ⟨rfl, h.silencedRead _⟩

theorem readRawData (h : Represents prefill rb q) (hs : 0 < slots) (n : ℕ) :
    (rb.readRawData n).1 = .ofQueue n (q.readRaw n).1 ∧
      Represents prefill (rb.readRawData n).2 (q.readRaw n).2 := by
  have hl := h.bufferSize
  obtain ⟨rb', hc⟩ : ∃ rb', (Ring.countSinceWarn rb.toRingLayout .readsSinceLastWarn n).run
    ringHandler rb = ((), rb') := ⟨_, rfl⟩
  replace h := h.countSinceWarn rb.toRingLayout .readsSinceLastWarn n (.inl rfl)
  rw [hc] at h
  change Represents prefill rb' q at h
  have hw := h.window
  rw [URingBuffer.readRawData, URingBuffer.call, Ring.run_readRawData _ _ hc]
  by_cases hn : n ≤ q.items.length
  · rw [if_pos (by omega), PacedQueue.readRaw, if_pos hn, hl]
    split_ifs with hend
    · obtain ⟨hv, ht⟩ := h.run_takeStraight hn hend
      exact ⟨congrArg ReadBlock.samples hv, ht⟩
    · obtain ⟨hv, ht⟩ := h.run_takeWrapped hs hl hn (by omega)
      exact ⟨congrArg ReadBlock.samples hv, ht⟩
  · rw [if_neg (by omega), PacedQueue.readRaw, if_neg hn]
    exact ⟨rfl, h.warnLimited _ _ _ (.inl rfl)⟩

theorem discardSamples (h : Represents prefill rb q) (n : ℕ) :
    Represents prefill (rb.discardSamples n) (q.discard n) := by
  have hw := h.window
  have h0 := h.readPos_nonneg
  have hle := h.readPos_le
  have hfit := h.stored.length_le
  rw [URingBuffer.discardSamples, URingBuffer.call, Ring.run_discardSamples, h.bufferSize]
  by_cases hn : n ≤ q.items.length
  · rw [if_pos (by omega), PacedQueue.discard, if_pos hn]
    have hflag : (rb.prefillComplete && decide (0 < rb.writeAheadWindow + -n)) =
        (q.dropPaced n).primed := by
      rw [h.flag, PacedQueue.dropPaced_primed]
      exact congrArg (q.primed && ·) (decide_eq_decide.mpr (by omega))
    rw [hflag]
    split_ifs with he hend
    · exact h.remove hn (r := 0) (Nat.zero_le _) (by
        rw [show rb.readPos.toNat + n = slots by omega, Nat.mod_self, Nat.zero_mod]) rfl
    · rw [show rb.readPos + n = (rb.readPos.toNat + n : ℕ) by omega]
      exact h.remove hn (by omega) rfl rfl
    · rw [show n - (slots - rb.readPos) = ((n - (slots - rb.readPos.toNat) : ℕ) : ℤ) by omega]
      exact h.remove hn (by omega) (by
        rw [show rb.readPos.toNat + n = slots + (n - (slots - rb.readPos.toNat)) by omega,
          Nat.add_mod_left]) rfl
  · rw [if_neg (by omega), PacedQueue.discard, if_neg hn]
    exact {
      bufferSize := h.bufferSize
      prefillNumSamples := h.prefillNumSamples
      readPos_nonneg := le_refl _
      readPos_le := Int.natCast_nonneg _
      writePos := by simp
      window := rfl
      flag := rfl
      stored := .nil h.stored.size _ }

end Reads

end Represents

end UwavClient
