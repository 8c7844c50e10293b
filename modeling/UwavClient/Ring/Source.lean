import UwavClient.Ring.Refinement
import UwavClient.Ring.Threads

/-!
# What a write reads of the caller's block

`writeRawData` trusts its count: it copies that many samples whatever the length of the block. Where
it has room for them, it reads inside the block exactly when the block holds them all.
-/

namespace UwavClient

open Program

/-- `n` samples of the source from `off` on, all of whose bytes exist. -/
def CopyWithin (src : Bytes) (off n : ℤ) : Prop :=
  ∀ i, 4 * off ≤ i → i < 4 * (off + n) → 0 ≤ i ∧ i < src.length

theorem copyWithin_iff {src : Bytes} {off n : ℤ} (hoff : 0 ≤ off) (hn : 0 < n) :
    CopyWithin src off n ↔ 4 * (off + n) ≤ src.length := by
  constructor
  · intro h
    have := (h (4 * (off + n) - 1) (by omega) (by omega)).2
    omega
  · exact fun h i hlo hhi => ⟨by omega, by omega⟩

/-- The access reads no byte outside the block it copies from. -/
def RingOp.ReadsWithin : RingOp → Prop
  | .copyIn _ src off n => CopyWithin src off n
  | _ => True

theorem RingOp.readsWithin_of_neutral {e : RingOp} (he : e.Neutral) : e.ReadsWithin := by
  cases e with
  | copyIn pos src off n => exact he.elim
  | _ => trivial

namespace Ring

/-- Every access of a call on this object reads inside its source block. -/
abbrev ReadsWithin {α : Type} (p : RingProgram α) (rb : URingBuffer) : Prop :=
  Along ringHandler (fun e _ => e.ReadsWithin) p rb

variable {α : Type} {l : RingLayout} {src : Bytes} {rb : URingBuffer} {count : ℤ}

theorem readsWithin_of_neutral {p : RingProgram α} (hp : p.All RingOp.Neutral) :
    ReadsWithin p rb :=
  hp.along (fun _ _ => RingOp.readsWithin_of_neutral) rb

theorem readsWithin_wrapPos (x : IntField) : ReadsWithin (wrapPos l x) rb := by
  refine along_bind.mpr ⟨(along_perform _).mpr trivial, ?_⟩
  split
  · exact (along_perform _).mpr trivial
  · trivial

theorem readsWithin_writeStraight :
    ReadsWithin (writeStraight l src count) rb ↔ CopyWithin src 0 count := by
  have htail : ∀ rb', ReadsWithin (wrapPos l .writePos >>= fun _ => completePrefill l) rb' :=
    fun rb' => along_bind.mpr
      ⟨readsWithin_wrapPos .writePos, readsWithin_of_neutral (all_completePrefill l)⟩
  exact ⟨fun h => h.2.1, fun h => ⟨trivial, h, trivial, trivial, htail _⟩⟩

theorem readsWithin_writeWrapped : ReadsWithin (writeWrapped l src count) rb ↔
    CopyWithin src 0 (l.bufferSize - rb.writePos) ∧
      CopyWithin src (l.bufferSize - rb.writePos) (count - (l.bufferSize - rb.writePos)) := by
  refine ⟨fun h => ⟨h.2.2.1, h.2.2.2.1⟩, fun h => ?_⟩
  exact ⟨trivial, trivial, h.1, h.2, trivial, trivial, readsWithin_of_neutral (all_completePrefill l)⟩

/-- The branches of `writeRawData`, after the counter. -/
theorem readsWithin_writeRawData {rb' : URingBuffer}
    (hc : (countSinceWarn l .writesSinceLastWarn count).run ringHandler rb = ((), rb')) :
    ReadsWithin (writeRawData l src count) rb ↔ (rb'.writeAheadWindow + count ≤ l.bufferSize →
      if rb'.writePos + count ≤ l.bufferSize then CopyWithin src 0 count
      else CopyWithin src 0 (l.bufferSize - rb'.writePos) ∧
        CopyWithin src (l.bufferSize - rb'.writePos) (count - (l.bufferSize - rb'.writePos))) := by
  have hcount : ReadsWithin (countSinceWarn l .writesSinceLastWarn count) rb :=
    readsWithin_of_neutral (all_countSinceWarn l _ count (.inr rfl))
  rw [writeRawData, ReadsWithin, along_bind, hc]
  refine (and_iff_right hcount).trans ((and_iff_right trivial).trans ?_)
  change ReadsWithin (if l.bufferSize < rb'.writeAheadWindow + count then _ else _) rb' ↔ _
  by_cases hroom : rb'.writeAheadWindow + count ≤ l.bufferSize
  · rw [if_neg (not_lt.mpr hroom), forall_prop_of_true hroom]
    refine (and_iff_right trivial).trans ?_
    change ReadsWithin (if rb'.writePos + count ≤ l.bufferSize then _ else _) rb' ↔ _
    split
    · exact readsWithin_writeStraight
    · exact readsWithin_writeWrapped
  · rw [if_pos (not_le.mp hroom), forall_prop_of_false hroom, iff_true]
    exact readsWithin_of_neutral (all_warnLimited l _ _ (.inr rfl))

end Ring

namespace Represents

variable {slots prefill n : ℕ} {rb : URingBuffer} {q : PacedQueue Sample slots} {src : Bytes}

/-- In both branches the copies of an accepted block end with its last sample. -/
theorem readsWithin_writeRawData_iff (h : Represents prefill rb q) (hn : 0 < n) :
    Ring.ReadsWithin (Ring.writeRawData rb.toRingLayout src n) rb ↔
      (q.items.length + n ≤ slots → 4 * n ≤ src.length) := by
  obtain ⟨rb', hc⟩ : ∃ rb', (Ring.countSinceWarn rb.toRingLayout .writesSinceLastWarn n).run
    ringHandler rb = ((), rb') := ⟨_, rfl⟩
  have h' := h.countSinceWarn rb.toRingLayout .writesSinceLastWarn n (.inr rfl)
  rw [hc] at h'
  change Represents prefill rb' q at h'
  rw [Ring.readsWithin_writeRawData hc, h'.window, h.bufferSize]
  refine imp_congr_ctx (by norm_cast) fun hroom => ?_
  have hs : 0 < slots := by omega
  obtain ⟨w, hw, hlt, -⟩ := h'.exists_writePos hs
  rw [hw]
  split
  · rw [copyWithin_iff le_rfl (by omega)]
    omega
  · rw [copyWithin_iff le_rfl (by omega), copyWithin_iff (by omega) (by omega)]
    omega

end Represents

end UwavClient
