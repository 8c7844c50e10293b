import UwavClient.Ring.Traffic

/-!
# The producer's calls under interference

The producer alone moves `writePos` and fills slots behind the queue; the block becomes part of the
queue only when its length is added to the window, after all its copies.
-/

namespace UwavClient

open Program Interleaving

variable {l : RingLayout} {slots : ℕ} {s : Recorded Traffic} {block : List Sample} {src : Bytes}
  {a w k m n : ℕ}

/-- Between two accepted blocks `writePos` is the slot after the last accepted sample. -/
def Resting (slots : ℕ) (s : Recorded Traffic) : Prop :=
  s.ring.writePos = (s.hist.accepted.length % slots : ℕ)

/-- The call's block before it is known to fit, `a` samples having been accepted so far. -/
structure Offering (slots : ℕ) (block : List Sample) (a : ℕ) (s : Recorded Traffic) : Prop where
  pending : s.hist.pending = block
  accepted : s.hist.accepted.length = a
  writePos : s.ring.writePos = (a % slots : ℕ)

/-- The block has room behind the `a` samples accepted so far, its first `k` samples have been
copied, and `writePos` is `w`. -/
structure Writing (slots : ℕ) (block : List Sample) (a k w : ℕ) (s : Recorded Traffic) : Prop where
  pending : s.hist.pending = block
  accepted : s.hist.accepted.length = a
  writePos : s.ring.writePos = w
  room : s.ring.writeAheadWindow + block.length ≤ slots
  stored : StoredSamples s.ring.buffer slots s.released
    (s.hist.accepted.drop s.released ++ block.take k)

/-- The block has been accepted, and `writePos` is `w`. -/
def Wrote (a w : ℕ) (s : Recorded Traffic) : Prop :=
  s.hist.accepted.length = a ∧ s.ring.writePos = w

theorem stable_resting : Stable (TrafficInv l slots) (trafficContract slots .producer)
    (Resting slots) := by
  intro s t _ _ h hs
  rw [Resting, h.writePos, h.accepted]
  exact hs

theorem stable_window_le (v : ℤ) : Stable (TrafficInv l slots) (trafficContract slots .producer)
    fun s => s.ring.writeAheadWindow ≤ v :=
  fun _ _ _ _ h hs => h.window.trans hs

theorem stable_wrote : Stable (TrafficInv l slots) (trafficContract slots .producer) (Wrote a w) := by
  intro s t _ _ h hs
  rw [Wrote, h.accepted, h.writePos]
  exact hs

theorem stable_writing : Stable (TrafficInv l slots) (trafficContract slots .producer)
    (Writing slots block a k w) := by
  intro s t hs ht h hw
  have hrs := hs.released_add
  have hrt := ht.released_add
  have hle := t.released_le
  have hwin := h.window
  rw [h.accepted] at hrt hle
  refine ⟨h.pending.trans hw.pending, by rw [h.accepted]; exact hw.accepted,
    h.writePos.trans hw.writePos, by have := hw.room; omega, ?_⟩
  obtain ⟨d, hd⟩ := Nat.exists_eq_add_of_le (show s.released ≤ t.released by omega)
  have hdrop := hw.stored.drop d
  rw [List.drop_append_of_le_length (by rw [List.length_drop]; omega), List.drop_drop, ← hd] at hdrop
  rw [h.buffer, h.accepted]
  exact hdrop

theorem stable_offering : Stable (TrafficInv l slots) (trafficContract slots .producer)
    (Offering slots block a) := by
  intro s t _ _ h hs
  exact ⟨h.pending.trans hs.pending, by rw [h.accepted]; exact hs.accepted,
    h.writePos.trans hs.writePos⟩

theorem Offering.resting (h : Offering slots block a s) : Resting slots s := by
  rw [Resting, h.accepted]
  exact h.writePos

theorem Offering.writing (h : Offering slots block a s) (hi : TrafficInv l slots s)
    (hroom : s.ring.writeAheadWindow + block.length ≤ slots) :
    Writing slots block a 0 (a % slots) s :=
  ⟨h.pending, h.accepted, h.writePos, hroom, by simpa using hi.stored⟩

/-- A slot behind the queue is free as long as the block has room. -/
theorem not_occupied_of_room (hi : TrafficInv l slots s)
    (hroom : s.ring.writeAheadWindow + n ≤ slots) {pos : ℕ}
    (hpos : pos % slots = (s.hist.accepted.length + k) % slots) (hn : k + m ≤ n)
    (hend : pos + m ≤ slots) {slot : ℤ} (hlo : (pos : ℤ) ≤ slot) (hhi : slot < pos + m) :
    ¬ Occupied slots s slot := by
  rintro ⟨i, hri, hia, rfl⟩
  have hra := hi.released_add
  obtain ⟨j, hj⟩ := Nat.exists_eq_add_of_le (show pos ≤ i % slots by omega)
  have hcell := Circular.cell_eq hpos (show pos + j < slots by omega)
  obtain ⟨d, rfl⟩ := Nat.exists_eq_add_of_le hri
  obtain ⟨e, he⟩ := Nat.exists_eq_add_of_le
    (show s.released ≤ s.hist.accepted.length + k + j by omega)
  have hne := Circular.cell_ne (t := s.released) (C := slots) (i := d) (j := e) (by omega) (by omega)
  rw [← he, hcell] at hne
  exact hne hj

theorem safe_copyIn {pos : ℕ} {off : ℤ} (hi : TrafficInv l slots s)
    (hs : Writing slots block a k w s) (hpos : pos % slots = (a + k) % slots)
    (hsrc : sourceBytes src off m = encode ((block.drop k).take m)) (hm : k + m ≤ block.length)
    (hend : pos + m ≤ slots) :
    CallSafe l slots .producer (Ring.copyIn pos src off m)
      (fun _ => Writing slots block a (k + m) w) s := by
  refine safe_perform stable_writing (fun _ => stable_writing) hi hs fun t hit ht => ?_
  have hroom := ht.room
  have hra := hit.released_add
  have hle := t.released_le
  have hlen : ((block.drop k).take m).length = m := by
    rw [List.length_take, List.length_drop]
    omega
  have hstored : StoredSamples (Circular.splice t.ring.buffer (4 * pos) (sourceBytes src off m))
      slots t.released (t.hist.accepted.drop t.released ++ block.take (k + m)) := by
    rw [hsrc, List.take_add, ← List.append_assoc]
    apply ht.stored.splice
    · rw [hpos, ← ht.accepted, List.length_append, List.length_drop, List.length_take,
        Nat.min_eq_left (by omega), ← Nat.add_assoc, Nat.add_sub_cancel' (by omega)]
    · omega
    · rw [List.length_append, List.length_drop, List.length_take]
      omega
  refine ⟨fun slot hlo hhi => not_occupied_of_room hit hroom (by rwa [ht.accepted]) hm hend hlo hhi,
    fun _ => ⟨.of_private rfl rfl rfl, ?_, ?_⟩⟩
  · exact ⟨hit.layout, hit.window_nonneg, hit.window_le, hstored.of_append, hit.taken_prefix,
      hit.taken_le⟩
  · exact ⟨ht.pending, ht.accepted, ht.writePos, ht.room, hstored⟩

theorem safe_add_writePos (hi : TrafficInv l slots s) (hs : Writing slots block a k w s) (n : ℕ) :
    CallSafe l slots .producer (Ring.add .writePos n)
      (fun _ => Writing slots block a k (w + n)) s := by
  refine safe_perform stable_writing (fun _ => stable_writing) hi hs fun t hit ht => ?_
  refine ⟨trivial, fun _ => ⟨.of_private rfl rfl rfl, ?_, ?_⟩⟩
  · exact ⟨hit.layout, hit.window_nonneg, hit.window_le, hit.stored, hit.taken_prefix, hit.taken_le⟩
  · refine ⟨ht.pending, ht.accepted, ?_, ht.room, ht.stored⟩
    exact (congrArg (· + (n : ℤ)) ht.writePos).trans (Nat.cast_add w n).symm

theorem safe_store_writePos (hi : TrafficInv l slots s) (hs : Writing slots block a k w s) (v : ℕ) :
    CallSafe l slots .producer (Ring.store .writePos v)
      (fun _ => Writing slots block a k v) s := by
  refine safe_perform stable_writing (fun _ => stable_writing) hi hs fun t hit ht => ?_
  refine ⟨trivial, fun _ => ⟨.of_private rfl rfl rfl, ?_, ?_⟩⟩
  · exact ⟨hit.layout, hit.window_nonneg, hit.window_le, hit.stored, hit.taken_prefix, hit.taken_le⟩
  · exact ⟨ht.pending, ht.accepted, rfl, ht.room, ht.stored⟩

/-- Adding the length to the window is what accepts the block. -/
theorem safe_accept (hi : TrafficInv l slots s) (hs : Writing slots block a n w s)
    (hn : block.length = n) :
    CallSafe l slots .producer (Ring.add .writeAheadWindow n) (fun _ => Wrote (a + n) w) s := by
  refine safe_perform stable_writing (fun _ => stable_wrote) hi hs fun t hit ht => ?_
  have hra := hit.released_add
  have h0 := hit.window_nonneg
  obtain ⟨u, hu⟩ : ∃ u, (trafficSystem.handler .producer (.add .writeAheadWindow n) t).2 = u :=
    ⟨_, rfl⟩
  have hwin : u.ring.writeAheadWindow = t.ring.writeAheadWindow + n := by rw [← hu]; rfl
  have hacc : u.hist.accepted = t.hist.accepted ++ block := by rw [← hu, ← ht.pending]; rfl
  have hlen : u.hist.accepted.length = a + n := by
    rw [hacc, List.length_append, ht.accepted, hn]
  have hrel : u.released = t.released := by
    rw [Recorded.released, hlen, hwin, ← ht.accepted]
    unfold Recorded.released
    omega
  have hwp : u.ring.writePos = t.ring.writePos := by rw [← hu]; rfl
  have hbuf : u.ring.buffer = t.ring.buffer := by rw [← hu]; rfl
  have htaken : u.hist.taken = t.hist.taken := by rw [← hu]; rfl
  refine ⟨trivial, fun _ => ?_⟩
  rw [hu]
  refine ⟨⟨?_, ?_, ?_, ?_, block, hacc, by rw [hwin, hn]⟩,
    ⟨?_, by omega, ?_, ?_, ?_, ?_⟩, hlen, hwp.trans ht.writePos⟩
  any_goals rw [← hu]; rfl
  · rw [← hu]
    exact hit.layout
  · rw [hwin, hlen, ← ht.accepted]
    omega
  · rw [hbuf, hrel, hacc, List.drop_append_of_le_length (by omega)]
    rw [← List.take_of_length_le hn.le]
    exact ht.stored
  · rw [hacc, htaken]
    exact hit.taken_prefix.trans (List.prefix_append _ _)
  · rw [hrel, htaken]
    exact hit.taken_le

theorem safe_wrapWritePos (hi : TrafficInv l slots s) (hs : Wrote a w s)
    (hl : l.bufferSize = slots) (hw : w % slots = a % slots) (hle : w ≤ slots) :
    CallSafe l slots .producer (Ring.wrapPos l .writePos) (fun _ => Resting slots) s := by
  have hvalue : ∀ v, Stable (TrafficInv l slots) (trafficContract slots .producer)
      fun t => Wrote a w t ∧ v = (w : ℤ) := fun v => stable_wrote.and (stable_const _)
  refine safe_bind hi (safe_load .writePos stable_wrote hvalue hi hs fun t _ ht => ⟨ht, ht.2⟩) ?_
  rintro v t hit ⟨ht, rfl⟩
  split
  · refine safe_perform stable_wrote (fun _ => stable_resting) hit ht fun u hiu hu => ?_
    refine ⟨trivial, fun _ => ⟨.of_private rfl rfl rfl, ?_, ?_⟩⟩
    · exact ⟨hiu.layout, hiu.window_nonneg, hiu.window_le, hiu.stored, hiu.taken_prefix, hiu.taken_le⟩
    · change (0 : ℤ) = (u.hist.accepted.length % slots : ℕ)
      rw [hu.1, ← hw, show w = slots by omega, Nat.mod_self]
      rfl
  · refine safe_ret (fun _ => stable_resting) hit ?_
    rw [Resting, ht.2, ht.1, ← hw, Nat.mod_eq_of_lt (by omega)]

theorem safe_writeStraight (hi : TrafficInv l slots s) (hl : l.bufferSize = slots)
    (hs : Writing slots (blockSamples src n) a 0 w s) (hsrc : 4 * n ≤ src.length)
    (hw : w % slots = a % slots) (hend : w + n ≤ slots) :
    CallSafe l slots .producer (Ring.writeStraight l src n) (fun _ => Resting slots) s := by
  have hlen := length_blockSamples hsrc
  have hvalue : ∀ v, Stable (TrafficInv l slots) (trafficContract slots .producer)
      fun t => Writing slots (blockSamples src n) a 0 w t ∧ v = (w : ℤ) :=
    fun v => stable_writing.and (stable_const _)
  refine safe_bind hi (safe_load .writePos stable_writing hvalue hi hs
    fun t _ ht => ⟨ht, ht.writePos⟩) ?_
  rintro v s₁ hi₁ ⟨hs₁, rfl⟩
  refine safe_bind hi₁ (safe_copyIn (m := n) hi₁ hs₁ (by rwa [Nat.add_zero]) ?_ (by omega) hend) ?_
  · rw [List.drop_zero, List.take_of_length_le hlen.le, encode_blockSamples hsrc]
  intro _ s₂ hi₂ hs₂
  refine safe_bind hi₂ (safe_add_writePos hi₂ hs₂ n) fun _ s₃ hi₃ hs₃ => ?_
  rw [Nat.zero_add] at hs₃
  refine safe_bind hi₃ (safe_accept hi₃ hs₃ hlen) fun _ s₄ hi₄ hs₄ => ?_
  have hnext : (w + n) % slots = (a + n) % slots := by rw [Nat.add_mod, hw, ← Nat.add_mod]
  exact safe_bind hi₄ (safe_wrapWritePos hi₄ hs₄ hl hnext hend) fun _ s₅ hi₅ hs₅ =>
    safe_neutral (Ring.all_completePrefill l) stable_resting hi₅ hs₅

theorem safe_writeWrapped (hi : TrafficInv l slots s) (hl : l.bufferSize = slots)
    (hs : Writing slots (blockSamples src n) a 0 w s) (hsrc : 4 * n ≤ src.length)
    (hw : w % slots = a % slots) (hlt : w < slots) (hend : slots < w + n) :
    CallSafe l slots .producer (Ring.writeWrapped l src n) (fun _ => Resting slots) s := by
  have hlen := length_blockSamples hsrc
  have hroom := hs.room
  have h0 := hi.window_nonneg
  have hvalue : ∀ v, Stable (TrafficInv l slots) (trafficContract slots .producer)
      fun t => Writing slots (blockSamples src n) a 0 w t ∧ v = (w : ℤ) :=
    fun v => stable_writing.and (stable_const _)
  have hload : ∀ {t}, TrafficInv l slots t → Writing slots (blockSamples src n) a 0 w t →
      CallSafe l slots .producer (Ring.load .writePos)
        (fun v t => Writing slots (blockSamples src n) a 0 w t ∧ v = (w : ℤ)) t := fun hit ht =>
    safe_load .writePos stable_writing hvalue hit ht fun t _ ht => ⟨ht, ht.writePos⟩
  obtain ⟨k, hk⟩ := Nat.exists_eq_add_of_le hlt.le
  obtain ⟨j, hj⟩ := Nat.exists_eq_add_of_le (show k ≤ n by omega)
  refine safe_bind hi (hload hi hs) ?_
  rintro v₁ s₁ hi₁ ⟨hs₁, rfl⟩
  refine safe_bind hi₁ (hload hi₁ hs₁) ?_
  rintro v₂ s₂ hi₂ ⟨hs₂, rfl⟩
  rw [hl, show (slots : ℤ) - w = k by omega, show (n : ℤ) - k = j by omega]
  refine safe_bind hi₂ (safe_copyIn (m := k) hi₂ hs₂ (by rwa [Nat.add_zero]) ?_ (by omega)
    hk.ge) ?_
  · rw [List.drop_zero, encode_take_blockSamples hsrc (by omega)]
  intro _ s₃ hi₃ hs₃
  have hwrap : 0 % slots = (a + (0 + k)) % slots := by
    rw [Nat.zero_add, Nat.add_mod, ← hw, ← Nat.add_mod, ← hk, Nat.mod_self, Nat.zero_mod]
  have hfit : 0 + j ≤ slots := by omega
  refine safe_bind hi₃ (safe_copyIn (m := j) hi₃ hs₃ hwrap ?_ (by omega) hfit) ?_
  · rw [Nat.zero_add, List.take_of_length_le (by rw [List.length_drop]; omega),
      encode_drop_blockSamples hsrc, show (n : ℤ) - k = j by omega]
  intro _ s₄ hi₄ hs₄
  refine safe_bind hi₄ (safe_store_writePos hi₄ hs₄ j) fun _ s₅ hi₅ hs₅ => ?_
  rw [Nat.zero_add, ← hj] at hs₅
  refine safe_bind hi₅ (safe_accept hi₅ hs₅ hlen) fun _ s₆ hi₆ hs₆ => ?_
  refine safe_neutral (Ring.all_completePrefill l) stable_resting hi₆ ?_
  rw [Resting, hs₆.1, hs₆.2, Nat.add_mod, ← hw, ← Nat.add_mod, show w + n = slots + j by omega,
    Nat.add_mod_left, Nat.mod_eq_of_lt (by omega)]

/-- The overflow check: a length that fits now keeps fitting. -/
theorem safe_loadWindow (hi : TrafficInv l slots s) (hs : Offering slots block a s) :
    CallSafe l slots .producer (Ring.load .writeAheadWindow)
      (fun v t => Offering slots block a t ∧ t.ring.writeAheadWindow ≤ v) s :=
  safe_load .writeAheadWindow stable_offering (fun v => stable_offering.and (stable_window_le v))
    hi hs fun _ _ ht => ⟨ht, le_refl _⟩

theorem safe_dropBlock (hi : TrafficInv l slots s) (hs : Offering slots block a s) (text : String) :
    CallSafe l slots .producer (Ring.warnLimited l .writesSinceLastWarn text)
      (fun _ => Resting slots) s :=
  safe_neutral (Ring.all_warnLimited l _ _ (.inr rfl)) stable_resting hi hs.resting

section Calls

variable (hl : l.bufferSize = slots) (h0 : 0 < slots) (hsrc : 4 * n ≤ src.length)
include hl h0 hsrc

theorem safe_writeAudioData (hi : TrafficInv l slots s)
    (hs : Offering slots (blockSamples src n) a s) :
    CallSafe l slots .producer (Ring.writeAudioData l src n) (fun _ => Resting slots) s := by
  have hlt := Nat.mod_lt a h0
  have hlen := length_blockSamples hsrc
  refine safe_bind hi (safe_neutral (Ring.all_countSinceWarn l _ _ (.inr rfl)) stable_offering hi hs)
    fun _ s₁ hi₁ hs₁ => ?_
  have hvalue : ∀ v, Stable (TrafficInv l slots) (trafficContract slots .producer)
      fun t => Offering slots (blockSamples src n) a t ∧ v = ((a % slots : ℕ) : ℤ) :=
    fun v => stable_offering.and (stable_const _)
  refine safe_bind hi₁ (safe_load .writePos stable_offering hvalue hi₁ hs₁
    fun t _ ht => ⟨ht, ht.writePos⟩) ?_
  rintro v s₂ hi₂ ⟨hs₂, rfl⟩
  split
  all_goals
    refine safe_bind hi₂ (safe_loadWindow hi₂ hs₂) ?_
    rintro v s₃ hi₃ ⟨hs₃, hv⟩
    split
  · exact safe_writeStraight hi₃ hl (hs₃.writing hi₃ (by omega)) hsrc (Nat.mod_mod _ _) (by omega)
  · exact safe_dropBlock hi₃ hs₃ _
  · exact safe_writeWrapped hi₃ hl (hs₃.writing hi₃ (by omega)) hsrc (Nat.mod_mod _ _) hlt (by omega)
  · exact safe_dropBlock hi₃ hs₃ _

theorem safe_writeRawData (hi : TrafficInv l slots s)
    (hs : Offering slots (blockSamples src n) a s) :
    CallSafe l slots .producer (Ring.writeRawData l src n) (fun _ => Resting slots) s := by
  have hlt := Nat.mod_lt a h0
  have hlen := length_blockSamples hsrc
  refine safe_bind hi (safe_neutral (Ring.all_countSinceWarn l _ _ (.inr rfl)) stable_offering hi hs)
    fun _ s₁ hi₁ hs₁ => ?_
  refine safe_bind hi₁ (safe_loadWindow hi₁ hs₁) ?_
  rintro v s₂ hi₂ ⟨hs₂, hv⟩
  split
  · exact safe_dropBlock hi₂ hs₂ _
  have hw₂ := hs₂.writing hi₂ (by omega)
  have hvalue : ∀ v, Stable (TrafficInv l slots) (trafficContract slots .producer)
      fun t => Writing slots (blockSamples src n) a 0 (a % slots) t ∧ v = ((a % slots : ℕ) : ℤ) :=
    fun v => stable_writing.and (stable_const _)
  refine safe_bind hi₂ (safe_load .writePos stable_writing hvalue hi₂ hw₂
    fun t _ ht => ⟨ht, ht.writePos⟩) ?_
  rintro v s₃ hi₃ ⟨hs₃, rfl⟩
  split
  · exact safe_writeStraight hi₃ hl hs₃ hsrc (Nat.mod_mod _ _) (by omega)
  · exact safe_writeWrapped hi₃ hl hs₃ hsrc (Nat.mod_mod _ _) hlt (by omega)

end Calls

end UwavClient
