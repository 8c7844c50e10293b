import UwavClient.Ring.Traffic

/-!
# The consumer's calls under interference

The consumer alone moves `readPos` and releases slots at the front of the queue. Samples seen in the
window stay where they are until the consumer takes their number off the window, after all its
copies and its position update.
-/

namespace UwavClient

open Program Interleaving

variable {l : RingLayout} {slots : ℕ} {s : Recorded Traffic} {R T r n k m : ℕ}

/-- `R` samples are released and `T` of them recorded as taken; `readPos` is `r`, and at least `n`
samples are ahead of it. -/
structure Reading (R T r n : ℕ) (s : Recorded Traffic) : Prop where
  readPos : s.ring.readPos = r
  released : s.released = R
  taken : s.hist.taken = s.hist.accepted.take T
  le : T ≤ R
  ahead : n ≤ s.ring.writeAheadWindow

/-- The bytes are those of the `n` samples accepted after the first `T`. -/
def Copied (T n : ℕ) (bytes : Bytes) (h : Traffic) : Prop :=
  bytes = encode ((h.accepted.drop T).take n) ∧ T + n ≤ h.accepted.length

/-- Between two calls: everything released is taken, and `readPos` is the slot of the next sample,
or `bufferSize` for slot 0. -/
def Waiting (slots : ℕ) (s : Recorded Traffic) : Prop :=
  ∃ R r, Reading R R r 0 s ∧ r ≤ slots ∧ r % slots = R % slots

theorem stable_reading : Stable (TrafficInv l slots) (trafficContract slots .consumer)
    (Reading R T r n) := by
  intro s t hs ht h hr
  have hle := s.released_le
  have hrel := h.released hs ht
  obtain ⟨xs, hx, hw⟩ := h.accepted
  have hRT := hr.le
  have hR := hr.released
  have hn := hr.ahead
  refine ⟨h.readPos.trans hr.readPos, hrel.trans hR, ?_, hRT, by omega⟩
  rw [h.taken, hr.taken, hx, List.take_append_of_le_length (by omega)]

theorem stable_copied {bytes : Bytes} :
    Stable (TrafficInv l slots) (trafficContract slots .consumer)
      fun s => Copied T n bytes s.hist := by
  intro s t _ _ h hc
  obtain ⟨xs, hx, -⟩ := h.accepted
  have hlen := hc.2
  refine ⟨?_, by rw [hx, List.length_append]; omega⟩
  rw [hc.1, hx, List.drop_append_of_le_length (by omega),
    List.take_append_of_le_length (by rw [List.length_drop]; omega)]

theorem stable_waiting : Stable (TrafficInv l slots) (trafficContract slots .consumer)
    (Waiting slots) := by
  rintro s t hs ht h ⟨R, r, hr, hle, hmod⟩
  exact ⟨R, r, stable_reading s t hs ht h hr, hle, hmod⟩

/-- A read may rely on what the window showed. -/
theorem safe_loadWindow_read (hi : TrafficInv l slots s) (hs : Reading R T r 0 s) :
    CallSafe l slots .consumer (Ring.load .writeAheadWindow)
      (fun v t => Reading R T r 0 t ∧ v ≤ t.ring.writeAheadWindow) s := by
  refine safe_load .writeAheadWindow stable_reading (fun v => stable_reading.and ?_) hi hs
    fun _ _ ht => ⟨ht, le_refl _⟩
  intro s t _ _ h hs
  obtain ⟨xs, -, hw⟩ := h.accepted
  omega

theorem Reading.seen (h : Reading R T r 0 s) {v : ℤ} (hv : v ≤ s.ring.writeAheadWindow)
    (hn : (n : ℤ) ≤ v) : Reading R T r n s :=
  { h with ahead := by omega }

theorem safe_loadReadPos (hi : TrafficInv l slots s) (hs : Reading R T r n s) :
    CallSafe l slots .consumer (Ring.load .readPos) (fun v t => Reading R T r n t ∧ v = r) s :=
  safe_load .readPos stable_reading (fun _ => stable_reading.and (stable_const _)) hi hs
    fun _ _ ht => ⟨ht, ht.readPos⟩

theorem safe_copyOut {pos : ℕ} (hi : TrafficInv l slots s) (hs : Reading R T r n s)
    (hpos : pos % slots = (R + k) % slots) (hend : pos + m ≤ slots) (hn : k + m ≤ n) :
    CallSafe l slots .consumer (Ring.copyOut pos m)
      (fun bytes t => Reading R T r n t ∧ Copied (R + k) m bytes t.hist) s := by
  refine safe_perform stable_reading (fun _ => stable_reading.and stable_copied) hi hs
    fun t hit ht => ?_
  have hra := hit.released_add
  have hahead := ht.ahead
  rw [ht.released] at hra
  have hlen : R + k + m ≤ t.hist.accepted.length := by omega
  refine ⟨fun slot hlo hhi => ?_, fun _ => ⟨.refl t, hit, ht, ?_, hlen⟩⟩
  · obtain ⟨j, rfl⟩ := Int.le.dest hlo
    refine ⟨R + k + j, by rw [ht.released]; omega, by omega, ?_⟩
    rw [Circular.cell_eq hpos (by omega), Nat.cast_add]
  · have hstored := hit.stored
    rw [ht.released] at hstored
    have hslice := (hstored.drop k).slice_eq hpos hend
      (by rw [List.length_drop, List.length_drop]; omega)
    rwa [List.drop_drop] at hslice

theorem safe_setReadPos {e : RingOp} {v : ℕ} (hi : TrafficInv l slots s) (hs : Reading R T r n s)
    (he : e = .add .readPos v ∧ m = r + v ∨ e = .store .readPos v ∧ m = v) :
    CallSafe l slots .consumer (Ring.access e) (fun _ => Reading R T m n) s := by
  refine safe_perform stable_reading (fun _ => stable_reading) hi hs fun t hit ht => ?_
  rcases he with ⟨rfl, rfl⟩ | ⟨rfl, rfl⟩
  all_goals
    refine ⟨trivial, fun _ => ⟨⟨rfl, rfl, le_refl _, rfl, rfl⟩, ?_, ?_⟩⟩
    · exact ⟨hit.layout, hit.window_nonneg, hit.window_le, hit.stored, hit.taken_prefix, hit.taken_le⟩
    refine ⟨?_, ht.released, ht.taken, ht.le, ht.ahead⟩
  · exact (congrArg (· + (v : ℤ)) ht.readPos).trans (Nat.cast_add r v).symm
  · rfl

/-- Taking the count off the window is what releases the slots. -/
theorem safe_release (hi : TrafficInv l slots s) (hs : Reading R T r n s) :
    CallSafe l slots .consumer (Ring.add .writeAheadWindow (-n))
      (fun _ => Reading (R + n) T r 0) s := by
  refine safe_perform stable_reading (fun _ => stable_reading) hi hs fun t hit ht => ?_
  have hra := hit.released_add
  have hahead := ht.ahead
  have hle := ht.le
  obtain ⟨u, hu⟩ : ∃ u, (trafficSystem.handler .consumer (.add .writeAheadWindow (-n)) t).2 = u :=
    ⟨_, rfl⟩
  have hwin : u.ring.writeAheadWindow = t.ring.writeAheadWindow - n := by
    rw [← hu]
    exact (Int.sub_eq_add_neg).symm
  have hacc : u.hist = t.hist := by rw [← hu]; rfl
  have hrel : u.released = t.released + n := by
    rw [Recorded.released, Recorded.released, hacc, hwin]
    omega
  refine ⟨trivial, fun _ => ?_⟩
  rw [hu]
  refine ⟨⟨?_, ?_, by omega, by rw [hacc], by rw [hacc]⟩, ⟨?_, by omega, by rw [hacc]; omega, ?_,
    by rw [hacc]; exact hit.taken_prefix, by have := hit.taken_le; rw [hrel, hacc]; omega⟩,
    ⟨?_, by rw [hrel, ht.released], by rw [hacc]; exact ht.taken, by omega, by omega⟩⟩
  · rw [← hu]
    rfl
  · rw [← hu]
    rfl
  · rw [← hu]
    exact hit.layout
  · have hdrop := hit.stored.drop n
    rw [List.drop_drop] at hdrop
    rw [hrel, hacc, show u.ring.buffer = t.ring.buffer by rw [← hu]; rfl]
    exact hdrop
  · rw [← hu]
    exact ht.readPos

theorem safe_wrapReadPos (hi : TrafficInv l slots s) (hs : Reading R T r 0 s)
    (hl : l.bufferSize = slots) (hle : r ≤ slots) :
    CallSafe l slots .consumer (Ring.wrapPos l .readPos)
      (fun _ t => ∃ r', Reading R T r' 0 t ∧ r' ≤ slots ∧ r' % slots = r % slots) s := by
  have hpost : Stable (TrafficInv l slots) (trafficContract slots .consumer)
      fun t => ∃ r', Reading R T r' 0 t ∧ r' ≤ slots ∧ r' % slots = r % slots := by
    rintro s t hs ht h ⟨r', hr, hrest⟩
    exact ⟨r', stable_reading s t hs ht h hr, hrest⟩
  refine safe_bind hi (safe_loadReadPos hi hs) ?_
  rintro v s₁ hi₁ ⟨hs₁, rfl⟩
  split
  · refine safe_bind hi₁ (safe_setReadPos (m := 0) (v := 0) hi₁ hs₁ (.inr ⟨rfl, rfl⟩)) ?_
    intro _ s₂ hi₂ hs₂
    refine safe_ret (fun _ => hpost) hi₂ ⟨0, hs₂, Nat.zero_le _, ?_⟩
    rw [show r = slots by omega, Nat.mod_self, Nat.zero_mod]
  · exact safe_ret (fun _ => hpost) hi₁ ⟨r, hs₁, hle, rfl⟩

/-- What the samples of a finished read are, wherever `readPos` was left. -/
def Took (slots T n : ℕ) (bytes : Bytes) (s : Recorded Traffic) : Prop :=
  (∃ r, Reading (T + n) T r 0 s ∧ r ≤ slots ∧ r % slots = (T + n) % slots) ∧ Copied T n bytes s.hist

theorem stable_took {bytes : Bytes} :
    Stable (TrafficInv l slots) (trafficContract slots .consumer) (Took slots T n bytes) := by
  rintro s t hs ht h ⟨⟨r, hr, hrest⟩, hc⟩
  exact ⟨⟨r, stable_reading s t hs ht h hr, hrest⟩, stable_copied s t hs ht h hc⟩

/-- Facts about the samples taken and accepted are carried through the consumer's own steps. -/
theorem safe_carry {α : Type} {p : RingProgram α} {Q : α → Recorded Traffic → Prop}
    {P : Traffic → Prop}
    (hP : Stable (TrafficInv l slots) (trafficContract slots .consumer) fun t => P t.hist)
    (hi : TrafficInv l slots s) (hp : CallSafe l slots .consumer p Q s) (hs : P s.hist) :
    CallSafe l slots .consumer p (fun a t => Q a t ∧ P t.hist) s :=
  safe_frame hP (fun _ _ ht => ht) hi hp hs

theorem safe_takeStraight (hi : TrafficInv l slots s) (hs : Reading R R r n s)
    (hmod : r % slots = R % slots) (hend : r + n ≤ slots) :
    CallSafe l slots .consumer (Ring.takeStraight n)
      (fun bytes t => Reading (R + n) R (r + n) 0 t ∧ Copied R n bytes t.hist) s := by
  refine safe_bind hi (safe_loadReadPos hi hs) ?_
  rintro v s₁ hi₁ ⟨hs₁, rfl⟩
  refine safe_bind hi₁ (safe_copyOut (k := 0) (m := n) hi₁ hs₁ (by rwa [Nat.add_zero]) hend
    (by omega)) ?_
  rintro bytes s₂ hi₂ ⟨hs₂, hc₂⟩
  refine safe_bind hi₂ (safe_carry stable_copied hi₂
    (safe_setReadPos hi₂ hs₂ (.inl ⟨rfl, rfl⟩)) hc₂) ?_
  rintro _ s₃ hi₃ ⟨hs₃, hc₃⟩
  refine safe_bind hi₃ (safe_carry stable_copied hi₃ (safe_release hi₃ hs₃) hc₃) ?_
  intro _ s₄ hi₄ hs₄
  exact safe_ret (fun _ => stable_reading.and stable_copied) hi₄ hs₄

theorem Copied.append {bytes bytes' : Bytes} {t : Traffic} (h : Copied T k bytes t)
    (h' : Copied (T + k) m bytes' t) : Copied T (k + m) (bytes ++ bytes') t := by
  refine ⟨?_, by have := h'.2; omega⟩
  rw [h.1, h'.1, ← encode_append, List.take_add, List.drop_drop]

theorem safe_takeWrapped (hi : TrafficInv l slots s) (hl : l.bufferSize = slots)
    (hs : Reading R R r n s) (hmod : r % slots = R % slots) (hle : r ≤ slots)
    (hend : slots < r + n) :
    CallSafe l slots .consumer (Ring.takeWrapped l n) (Took slots R n) s := by
  obtain ⟨k, hk⟩ := Nat.exists_eq_add_of_le hle
  obtain ⟨j, rfl⟩ := Nat.exists_eq_add_of_le (show k ≤ n by omega)
  have hahead := hs.ahead
  have hfit := hi.window_le_slots
  refine safe_bind hi (safe_loadReadPos hi hs) ?_
  rintro v₁ s₁ hi₁ ⟨hs₁, rfl⟩
  refine safe_bind hi₁ (safe_loadReadPos hi₁ hs₁) ?_
  rintro v₂ s₂ hi₂ ⟨hs₂, rfl⟩
  rw [hl, show (slots : ℤ) - r = k by omega, show ((k + j : ℕ) : ℤ) - k = j by omega]
  refine safe_bind hi₂ (safe_copyOut (k := 0) (m := k) hi₂ hs₂ (by rwa [Nat.add_zero]) hk.ge
    (by omega)) ?_
  rintro first s₃ hi₃ ⟨hs₃, hc₃⟩
  have hwrap : 0 % slots = (R + k) % slots := by
    rw [Nat.add_mod, ← hmod, ← Nat.add_mod, ← hk, Nat.mod_self, Nat.zero_mod]
  have hroom : 0 + j ≤ slots := by omega
  refine safe_bind hi₃ (safe_carry stable_copied hi₃
    (safe_copyOut (k := k) (m := j) hi₃ hs₃ hwrap hroom le_rfl) hc₃) ?_
  rintro second s₄ hi₄ ⟨⟨hs₄, hd₄⟩, hc₄⟩
  refine safe_bind hi₄ (safe_carry stable_copied hi₄
    (safe_setReadPos (m := j) hi₄ hs₄ (.inr ⟨rfl, rfl⟩)) (hc₄.append hd₄)) ?_
  rintro _ s₅ hi₅ ⟨hs₅, hc₅⟩
  refine safe_bind hi₅ (safe_carry stable_copied hi₅ (safe_release hi₅ hs₅) hc₅) ?_
  rintro _ s₆ hi₆ ⟨hs₆, hc₆⟩
  refine safe_ret (fun _ => stable_took) hi₆ ⟨⟨j, hs₆, by omega, ?_⟩, hc₆⟩
  rw [Nat.add_mod, ← hmod, ← Nat.add_mod, show r + (k + j) = slots + j by omega, Nat.add_mod_left]

/-- What holds when a read returns its block. -/
def Answered (slots : ℕ) : ReadBlock → Recorded Traffic → Prop
  | .silence _, s => Waiting slots s
  | .samples bytes, s => ∃ T n, Took slots T n bytes s

theorem stable_answered (b : ReadBlock) :
    Stable (TrafficInv l slots) (trafficContract slots .consumer) (Answered slots b) := by
  cases b with
  | silence count => exact stable_waiting
  | samples bytes =>
    rintro s t hs ht h ⟨T, n, hT⟩
    exact ⟨T, n, stable_took s t hs ht h hT⟩

theorem safe_readWithheld (hi : TrafficInv l slots s) (hs : Reading R T r 0 s) (n : ℕ) :
    CallSafe l slots .consumer (Ring.readWithheld n)
      (fun withheld => Reading R T r (if withheld then 0 else n)) s := by
  have hpost : ∀ withheld : Bool, Stable (TrafficInv l slots) (trafficContract slots .consumer)
      (Reading R T r (if withheld then 0 else n)) := fun _ => stable_reading
  refine safe_bind hi (safe_loadWindow_read hi hs) ?_
  rintro v s₁ hi₁ ⟨hs₁, hv⟩
  split
  · exact safe_ret hpost hi₁ hs₁
  · have hn₁ : Reading R T r n s₁ := hs₁.seen hv (by omega)
    refine safe_bind hi₁ (safe_neutral Ring.all_loadPrefillComplete stable_reading hi₁ hn₁) ?_
    intro done s₂ hi₂ hs₂
    refine safe_ret hpost hi₂ ?_
    cases done with
    | true => exact hs₂
    | false => exact { hs₂ with ahead := hi₂.window_nonneg }

section Calls

variable (hl : l.bufferSize = slots)
include hl

theorem safe_readAudioData (hi : TrafficInv l slots s) (hs : Waiting slots s) (n : ℕ) :
    CallSafe l slots .consumer (Ring.readAudioData l n) (Answered slots) s := by
  obtain ⟨R, r, hr, hle, hmod⟩ := hs
  refine safe_bind hi (safe_neutral (Ring.all_countSinceWarn l _ _ (.inl rfl)) stable_reading hi hr)
    fun _ s₁ hi₁ hs₁ => ?_
  refine safe_bind hi₁ (safe_readWithheld hi₁ hs₁ n) ?_
  rintro withheld s₂ hi₂ hs₂
  cases withheld with
  | true =>
    refine safe_bind hi₂ (safe_neutral (Ring.all_silencedRead l) stable_reading hi₂ hs₂) ?_
    intro _ s₃ hi₃ hs₃
    exact safe_ret stable_answered hi₃ ⟨R, r, hs₃, hle, hmod⟩
  | false =>
    refine safe_bind hi₂ (safe_loadReadPos hi₂ hs₂) ?_
    rintro v s₃ hi₃ ⟨hs₃, rfl⟩
    split
    · refine safe_bind hi₃ (safe_takeStraight hi₃ hs₃ hmod (by omega)) ?_
      rintro bytes s₄ hi₄ ⟨hs₄, hc₄⟩
      refine safe_bind hi₄ (safe_carry stable_copied hi₄
        (safe_wrapReadPos hi₄ hs₄ hl (by omega)) hc₄) ?_
      rintro _ s₅ hi₅ ⟨⟨r', hs₅, hle', hmod'⟩, hc₅⟩
      have htook : Took slots R n bytes s₅ :=
        ⟨⟨r', hs₅, hle', by rw [hmod', Nat.add_mod, hmod, ← Nat.add_mod]⟩, hc₅⟩
      refine safe_bind hi₅ (safe_neutral Ring.all_restartPrefill stable_took hi₅ htook) ?_
      intro _ s₆ hi₆ hs₆
      exact safe_ret stable_answered hi₆ ⟨R, n, hs₆⟩
    · refine safe_bind hi₃ (safe_takeWrapped hi₃ hl hs₃ hmod hle (by omega)) ?_
      intro bytes s₄ hi₄ hs₄
      refine safe_bind hi₄ (safe_neutral Ring.all_restartPrefill stable_took hi₄ hs₄) ?_
      intro _ s₅ hi₅ hs₅
      exact safe_ret stable_answered hi₅ ⟨R, n, hs₅⟩

theorem safe_readRawData (hi : TrafficInv l slots s) (hs : Waiting slots s) (n : ℕ) :
    CallSafe l slots .consumer (Ring.readRawData l n) (Answered slots) s := by
  obtain ⟨R, r, hr, hle, hmod⟩ := hs
  refine safe_bind hi (safe_neutral (Ring.all_countSinceWarn l _ _ (.inl rfl)) stable_reading hi hr)
    fun _ s₁ hi₁ hs₁ => ?_
  refine safe_bind hi₁ (safe_loadWindow_read hi₁ hs₁) ?_
  rintro v s₂ hi₂ ⟨hs₂, hv⟩
  split
  · refine safe_bind hi₂ (safe_neutral (Ring.all_warnLimited l _ _ (.inl rfl)) stable_reading hi₂
      hs₂) ?_
    intro _ s₃ hi₃ hs₃
    exact safe_ret stable_answered hi₃ ⟨R, r, hs₃, hle, hmod⟩
  · have hn₂ : Reading R R r n s₂ := hs₂.seen hv (by omega)
    refine safe_bind hi₂ (safe_loadReadPos hi₂ hn₂) ?_
    rintro v s₃ hi₃ ⟨hs₃, rfl⟩
    split
    · refine safe_bind hi₃ (safe_takeStraight hi₃ hs₃ hmod (by omega)) ?_
      rintro bytes s₄ hi₄ ⟨hs₄, hc₄⟩
      refine safe_ret stable_answered hi₄ ⟨R, n, ⟨r + n, hs₄, by omega, ?_⟩, hc₄⟩
      rw [Nat.add_mod, hmod, ← Nat.add_mod]
    · refine safe_bind hi₃ (safe_takeWrapped hi₃ hl hs₃ hmod hle (by omega)) ?_
      intro bytes s₄ hi₄ hs₄
      exact safe_ret stable_answered hi₄ ⟨R, n, hs₄⟩

/-- A discard moves on by `n` samples without copying them. -/
theorem safe_discardSamples (hi : TrafficInv l slots s) (hs : Reading R R r n s) (hle : r ≤ slots)
    (hmod : r % slots = R % slots) :
    CallSafe l slots .consumer (Ring.discardSamples l n)
      (fun _ t => ∃ r', Reading (R + n) R r' 0 t ∧ r' ≤ slots ∧ r' % slots = (R + n) % slots) s := by
  have hahead := hs.ahead
  have hfit := hi.window_le_slots
  have hpost : Stable (TrafficInv l slots) (trafficContract slots .consumer)
      fun t => ∃ r', Reading (R + n) R r' 0 t ∧ r' ≤ slots ∧ r' % slots = (R + n) % slots := by
    rintro s t hs ht h ⟨r', hr, hrest⟩
    exact ⟨r', stable_reading s t hs ht h hr, hrest⟩
  have hshown : ∀ v, Stable (TrafficInv l slots) (trafficContract slots .consumer)
      fun t => Reading R R r n t ∧ (n : ℤ) ≤ v := fun v => stable_reading.and (stable_const _)
  refine safe_bind hi (safe_load .writeAheadWindow stable_reading hshown hi hs
    fun t _ ht => ⟨ht, ht.ahead⟩) ?_
  rintro v s₁ hi₁ ⟨hs₁, hv⟩
  rw [if_neg (by omega)]
  refine safe_bind hi₁ (safe_loadReadPos hi₁ hs₁) ?_
  rintro v s₂ hi₂ ⟨hs₂, rfl⟩
  split
  · refine safe_bind hi₂ (safe_setReadPos hi₂ hs₂ (.inl ⟨rfl, rfl⟩)) fun _ s₃ hi₃ hs₃ => ?_
    refine safe_bind hi₃ (safe_release hi₃ hs₃) fun _ s₄ hi₄ hs₄ => ?_
    refine safe_bind hi₄ (safe_wrapReadPos hi₄ hs₄ hl (by omega)) ?_
    rintro _ s₅ hi₅ ⟨r', hs₅, hle', hmod'⟩
    refine safe_neutral Ring.all_restartPrefill hpost hi₅ ⟨r', hs₅, hle', ?_⟩
    rw [hmod', Nat.add_mod, hmod, ← Nat.add_mod]
  · obtain ⟨k, hk⟩ := Nat.exists_eq_add_of_le hle
    obtain ⟨j, hj⟩ := Nat.exists_eq_add_of_le (show k ≤ n by omega)
    refine safe_bind hi₂ (safe_loadReadPos hi₂ hs₂) ?_
    rintro v s₃ hi₃ ⟨hs₃, rfl⟩
    dsimp only
    rw [hl, show (n : ℤ) - (slots - r) = j by omega]
    refine safe_bind hi₃ (safe_setReadPos hi₃ hs₃ (.inr ⟨rfl, rfl⟩)) fun _ s₄ hi₄ hs₄ => ?_
    refine safe_bind hi₄ (safe_release hi₄ hs₄) fun _ s₅ hi₅ hs₅ => ?_
    refine safe_neutral Ring.all_restartPrefill hpost hi₅ ⟨j, hs₅, by omega, ?_⟩
    rw [Nat.add_mod, ← hmod, ← Nat.add_mod, show r + n = slots + j by omega, Nat.add_mod_left]

end Calls

end UwavClient
