import UwavClient.Ring.Threads

/-!
# The traffic through a shared ring buffer

The history of a run records the blocks the producer got accepted and the samples the consumer took.
A block is accepted when the producer adds its length to `writeAheadWindow`. The samples accepted but
not yet released by the consumer (`released` counts those that are) lie in the buffer from slot
`released % slots` on; each party sees the other only shift that queue's own end.
-/

namespace UwavClient

open Program Interleaving

/-- The history: the block of the producer's current call, the samples accepted so far, the samples
taken so far, those the current `discardSamples` skips, and the length the consumer has just
loaded. -/
structure Traffic where
  pending : List Sample
  accepted : List Sample
  taken : List Sample
  skipped : List Sample
  seen : Option ℤ

def Traffic.empty : Traffic := ⟨[], [], [], [], none⟩

def RingCall.block : RingCall → List Sample
  | .writeAudioData src count | .writeRawData src count => blockSamples src count.toNat
  | _ => []

/-- The samples that a read of `count` would copy. -/
def URingBuffer.ahead (rb : URingBuffer) (count : ℤ) : List Sample :=
  decode ((if rb.readPos + count ≤ rb.bufferSize then Ring.takeStraight count
    else Ring.takeWrapped rb.toRingLayout count).run ringHandler rb).1

/-- The producer writes; the consumer reads, and discards no more than a length it has just
loaded. -/
def trafficRecorder : Recorder Traffic where
  may
    | .producer, .writeAudioData _ _, _ | .producer, .writeRawData _ _, _ => True
    | .consumer, .readAudioData _, _ | .consumer, .readRawData _, _ => True
    | .consumer, .getWriteAheadLength, _ => True
    | .consumer, .discardSamples count, h => ∃ v, h.seen = some v ∧ count ≤ v
    | _, _, _ => False
  onStart
    | .producer, c, _, h => { h with pending := c.block }
    | .consumer, .discardSamples count, rb, h => { h with seen := none, skipped := rb.ahead count }
    | .consumer, _, _, h => { h with seen := none }
  onAccess
    | .producer, .add .writeAheadWindow _, _, h => { h with accepted := h.accepted ++ h.pending }
    | _, _, _, h => h
  onReturn
    | .consumer, .block (.samples bytes), h => { h with taken := h.taken ++ decode bytes }
    | .consumer, .length n, h => { h with seen := some n }
    | .consumer, .done, h => { h with taken := h.taken ++ h.skipped }
    | _, _, h => h

def trafficSystem : System Party (Recorded Traffic) RingOp RingOp.Answer CallResult :=
  ringSystem trafficRecorder

/-- The samples accepted that the consumer has released to the producer again. -/
def Recorded.released (s : Recorded Traffic) : ℕ :=
  s.hist.accepted.length - s.ring.writeAheadWindow.toNat

theorem Recorded.released_le (s : Recorded Traffic) : s.released ≤ s.hist.accepted.length :=
  Nat.sub_le _ _

structure TrafficInv (l : RingLayout) (slots : ℕ) (s : Recorded Traffic) : Prop where
  layout : s.ring.toRingLayout = l
  window_nonneg : 0 ≤ s.ring.writeAheadWindow
  window_le : s.ring.writeAheadWindow ≤ s.hist.accepted.length
  stored : StoredSamples s.ring.buffer slots s.released (s.hist.accepted.drop s.released)
  taken_prefix : s.hist.taken <+: s.hist.accepted
  taken_le : s.hist.taken.length ≤ s.released

/-- A slot that holds a sample accepted and not yet released. -/
def Occupied (slots : ℕ) (s : Recorded Traffic) (slot : ℤ) : Prop :=
  ∃ i, s.released ≤ i ∧ i < s.hist.accepted.length ∧ slot = (i % slots : ℕ)

/-- What the producer may see the consumer do. -/
structure ConsumerMoves (s t : Recorded Traffic) : Prop where
  writePos : t.ring.writePos = s.ring.writePos
  buffer : t.ring.buffer = s.ring.buffer
  window : t.ring.writeAheadWindow ≤ s.ring.writeAheadWindow
  pending : t.hist.pending = s.hist.pending
  accepted : t.hist.accepted = s.hist.accepted

/-- What the consumer may see the producer do. -/
structure ProducerMoves (s t : Recorded Traffic) : Prop where
  readPos : t.ring.readPos = s.ring.readPos
  taken : t.hist.taken = s.hist.taken
  skipped : t.hist.skipped = s.hist.skipped
  seen : t.hist.seen = s.hist.seen
  accepted : ∃ xs, t.hist.accepted = s.hist.accepted ++ xs ∧
    t.ring.writeAheadWindow = s.ring.writeAheadWindow + xs.length

theorem ConsumerMoves.refl (s : Recorded Traffic) : ConsumerMoves s s :=
  ⟨rfl, rfl, le_refl _, rfl, rfl⟩

theorem ConsumerMoves.trans {s t u : Recorded Traffic} (h : ConsumerMoves s t)
    (h' : ConsumerMoves t u) : ConsumerMoves s u :=
  ⟨h'.writePos.trans h.writePos, h'.buffer.trans h.buffer, h'.window.trans h.window,
    h'.pending.trans h.pending, h'.accepted.trans h.accepted⟩

/-- A step of the producer that accepts nothing. -/
theorem ProducerMoves.of_private {s t : Recorded Traffic} (hr : t.ring.readPos = s.ring.readPos)
    (hw : t.ring.writeAheadWindow = s.ring.writeAheadWindow) (hh : t.hist = s.hist) :
    ProducerMoves s t :=
  ⟨hr, by rw [hh], by rw [hh], by rw [hh], [], by rw [hh, List.append_nil], by simpa⟩

theorem ProducerMoves.refl (s : Recorded Traffic) : ProducerMoves s s := .of_private rfl rfl rfl

theorem ProducerMoves.trans {s t u : Recorded Traffic} (h : ProducerMoves s t)
    (h' : ProducerMoves t u) : ProducerMoves s u := by
  obtain ⟨xs, hx, hw⟩ := h.accepted
  obtain ⟨ys, hy, hv⟩ := h'.accepted
  refine ⟨h'.readPos.trans h.readPos, h'.taken.trans h.taken, h'.skipped.trans h.skipped,
    h'.seen.trans h.seen, xs ++ ys, by rw [hy, hx, List.append_assoc], ?_⟩
  rw [hv, hw, List.length_append]
  omega

/-- The producer copies into free slots only, and the consumer copies out of occupied ones. -/
def trafficContract (slots : ℕ) : Party → Contract (Recorded Traffic) RingOp
  | .producer =>
    { rely := ConsumerMoves
      guar := ProducerMoves
      claim := fun e s => match e with
        | .copyIn pos _ _ n => ∀ slot, pos ≤ slot → slot < pos + n → ¬ Occupied slots s slot
        | _ => True
      rely_refl := .refl
      rely_trans := .trans }
  | .consumer =>
    { rely := ProducerMoves
      guar := ConsumerMoves
      claim := fun e s => match e with
        | .copyOut pos n => ∀ slot, pos ≤ slot → slot < pos + n → Occupied slots s slot
        | _ => True
      rely_refl := .refl
      rely_trans := .trans }

section Invariant

variable {l : RingLayout} {slots : ℕ} {s t : Recorded Traffic}

theorem TrafficInv.released_add (h : TrafficInv l slots s) :
    s.released + s.ring.writeAheadWindow = s.hist.accepted.length := by
  have h0 := h.window_nonneg
  have h1 := h.window_le
  unfold Recorded.released
  omega

theorem TrafficInv.window_le_slots (h : TrafficInv l slots s) :
    s.ring.writeAheadWindow ≤ slots := by
  have hr := h.released_add
  have := h.stored.length_le
  rw [List.length_drop] at this
  omega

theorem ProducerMoves.released (h : ProducerMoves s t) (hs : TrafficInv l slots s)
    (ht : TrafficInv l slots t) : t.released = s.released := by
  obtain ⟨xs, hx, hw⟩ := h.accepted
  have h1 := hs.released_add
  have h2 := ht.released_add
  rw [hx, List.length_append] at h2
  omega

theorem trafficInv_init {sampleRate : ℤ} (hrate : 2 ≤ sampleRate) :
    TrafficInv (URingBuffer.ofSampleRate sampleRate).toRingLayout (URingBuffer.slotsFor sampleRate)
      ⟨.ofSampleRate sampleRate, .empty⟩ where
  layout := rfl
  window_nonneg := le_refl _
  window_le := le_refl _
  stored := (URingBuffer.represents_ofSampleRate hrate).stored
  taken_prefix := List.prefix_rfl
  taken_le := le_refl _

/-- The invariant reads of the object only what is in the queue and where. -/
theorem TrafficInv.of_sameQueue {rb : URingBuffer} (hs : TrafficInv l slots s)
    (hq : s.ring.SameQueue rb) : TrafficInv l slots ⟨rb, s.hist⟩ := by
  have hr : Recorded.released ⟨rb, s.hist⟩ = s.released := by
    rw [Recorded.released, Recorded.released, hq.window]
  refine ⟨hq.layout.trans hs.layout, ?_, ?_, ?_, hs.taken_prefix, ?_⟩
  · rw [hq.window]
    exact hs.window_nonneg
  · rw [hq.window]
    exact hs.window_le
  · rw [hr, hq.buffer]
    exact hs.stored
  · rw [hr]
    exact hs.taken_le

/-- A neutral access leaves the record alone. -/
theorem handler_of_neutral (i : Party) {e : RingOp} (he : e.Neutral) (s : Recorded Traffic) :
    (trafficSystem.handler i e s).2 = ⟨(ringHandler e s.ring).2, s.hist⟩ := by
  have hhist : trafficRecorder.onAccess i e s.ring s.hist = s.hist := by
    cases i with
    | consumer => rfl
    | producer =>
      cases e with
      | add x v => rcases he with rfl | rfl <;> rfl
      | _ => rfl
  exact congrArg (Recorded.mk _) hhist

/-- A neutral access is within both parties' contracts. -/
theorem neutral_step (i : Party) {e : RingOp} (he : e.Neutral) (hs : TrafficInv l slots s) :
    (trafficContract slots i).claim e s ∧
      (trafficContract slots i).guar s (trafficSystem.handler i e s).2 ∧
      TrafficInv l slots (trafficSystem.handler i e s).2 ∧
      (trafficContract slots i).rely s (trafficSystem.handler i e s).2 := by
  have hq := sameQueue_of_neutral he s.ring
  have hp : ProducerMoves s ⟨(ringHandler e s.ring).2, s.hist⟩ :=
    .of_private hq.readPos hq.window rfl
  have hc : ConsumerMoves s ⟨(ringHandler e s.ring).2, s.hist⟩ :=
    ⟨hq.writePos, hq.buffer, hq.window.le, rfl, rfl⟩
  have hi := hs.of_sameQueue hq
  rw [handler_of_neutral i he]
  cases i with
  | producer =>
    refine ⟨?_, hp, hi, hc⟩
    cases e with
    | copyIn pos src off n => exact he.elim
    | _ => trivial
  | consumer =>
    refine ⟨?_, hc, hi, hp⟩
    cases e with
    | copyOut pos n => exact he.elim
    | _ => trivial

abbrev CallSafe {α : Type} (l : RingLayout) (slots : ℕ) (i : Party) (p : RingProgram α)
    (Q : α → Recorded Traffic → Prop) (s : Recorded Traffic) : Prop :=
  Safe (trafficSystem.handler i) (TrafficInv l slots) (trafficContract slots i) (fun _ _ => True) p Q s

/-- A fragment without queue accesses keeps every stable assertion. -/
theorem safe_neutral {α : Type} {i : Party} {p : RingProgram α} (hp : p.All RingOp.Neutral)
    {P : Recorded Traffic → Prop} (hP : Stable (TrafficInv l slots) (trafficContract slots i) P)
    (hi : TrafficInv l slots s) (hs : P s) : CallSafe l slots i p (fun _ => P) s :=
  safe_of_all (fun _ _ he hit => ⟨(neutral_step i he hit).1, fun _ => (neutral_step i he hit).2⟩)
    hP hp hi hs

/-- A load answers the field's value at that moment. -/
theorem safe_load {i : Party} (x : IntField) {P : Recorded Traffic → Prop}
    (hP : Stable (TrafficInv l slots) (trafficContract slots i) P)
    {Q : ℤ → Recorded Traffic → Prop}
    (hQ : ∀ v, Stable (TrafficInv l slots) (trafficContract slots i) (Q v))
    (hi : TrafficInv l slots s) (hs : P s)
    (hload : ∀ t, TrafficInv l slots t → P t → Q (t.ring.get x) t) :
    CallSafe l slots i (Ring.load x) Q s := by
  refine safe_perform hP hQ hi hs fun t hit ht => ?_
  obtain ⟨hc, hg, hin, hr⟩ := neutral_step i (e := .load x) trivial hit
  exact ⟨hc, fun _ => ⟨hg, hin, hQ _ _ _ hit hin hr (hload t hit ht)⟩⟩

end Invariant

end UwavClient
