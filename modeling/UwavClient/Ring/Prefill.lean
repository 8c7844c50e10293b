import UwavClient.Ring.Threads

/-!
# Prefill under concurrency

The consumer clears `prefillComplete` after it has seen the window at zero, and the producer sets it
after it has seen it cleared. When the producer's whole check falls between the consumer's last load
and its store, the flag ends up cleared over a full buffer. The history is the chunk for which the
producer still owes that check.
-/

namespace UwavClient

open Program Interleaving

/-- `owed = some n`: the current `writeRawData` has `n` samples still to add to the window (0 once
they are added) and has not yet found `prefillComplete` set or set it. -/
def prefillRecorder : Recorder (Option ℤ) where
  may
    | .producer, .writeRawData _ _, _ | .consumer, .readAudioData _, _ => True
    | _, _, _ => False
  onStart
    | .producer, .writeRawData _ n, _, _ => some n
    | _, _, _, owed => owed
  onAccess
    | .producer, .load .writeAheadWindow, rb, some n =>
      if rb.bufferSize < rb.writeAheadWindow + n then none else some n
    | .producer, .add .writeAheadWindow _, _, _ => some 0
    | .producer, .loadPrefillComplete, rb, owed => if rb.prefillComplete then none else owed
    | .producer, .storePrefillComplete _, _, _ => none
    | _, _, _, owed => owed
  onReturn
    | .producer, _, _ => none
    | .consumer, _, owed => owed

instance (i : Party) (c : RingCall) (owed : Option ℤ) : Decidable (prefillRecorder.may i c owed) :=
  match i, c with
  | .producer, .writeRawData _ _ | .consumer, .readAudioData _ => isTrue trivial
  | .producer, .writeAudioData _ _ | .producer, .readAudioData _ | .producer, .readRawData _
  | .producer, .discardSamples _ | .producer, .getWriteAheadLength | .consumer, .writeAudioData _ _
  | .consumer, .writeRawData _ _ | .consumer, .readRawData _ | .consumer, .discardSamples _
  | .consumer, .getWriteAheadLength => isFalse id

def prefillSystem : System Party (Recorded (Option ℤ)) RingOp RingOp.Answer CallResult :=
  ringSystem prefillRecorder

def prefillStart (sampleRate : ℤ) : RingConfig (Option ℤ) :=
  .initial ⟨.ofSampleRate sampleRate, none⟩

/-- The producer has a chunk in hand that fits, and its look at `prefillComplete` is still to come. -/
def ChecksLater (s : Recorded (Option ℤ)) : Prop :=
  ∃ n, s.hist = some n ∧ s.ring.writeAheadWindow + n ≤ s.ring.bufferSize

/-- The consumer clears `prefillComplete` only while the buffer is below the prefill or the producer
will still look at the flag. -/
def NoLostUpdate : Party → RingOp → Recorded (Option ℤ) → Prop
  | .consumer, .storePrefillComplete false, s =>
    s.ring.writeAheadWindow < s.ring.prefillNumSamples ∨ ChecksLater s
  | _, _, _ => True

structure PrefillInv (l : RingLayout) (s : Recorded (Option ℤ)) : Prop where
  layout : s.ring.toRingLayout = l
  window_nonneg : 0 ≤ s.ring.writeAheadWindow
  window_le : s.ring.writeAheadWindow ≤ l.bufferSize
  paced : s.ring.prefillComplete = false →
    s.ring.writeAheadWindow < s.ring.prefillNumSamples ∨ ChecksLater s

/-- The consumer only takes from the window; the producer only adds to it and only sets the flag. -/
def prefillContract : Party → Contract (Recorded (Option ℤ)) RingOp
  | .producer =>
    { rely := fun s t => t.hist = s.hist ∧ t.ring.writeAheadWindow ≤ s.ring.writeAheadWindow
      guar := fun s t => s.ring.writeAheadWindow ≤ t.ring.writeAheadWindow ∧
        (s.ring.prefillComplete → t.ring.prefillComplete)
      claim := fun _ _ => True
      rely_refl := fun _ => ⟨rfl, le_refl _⟩
      rely_trans := fun h h' => ⟨h'.1.trans h.1, h'.2.trans h.2⟩ }
  | .consumer =>
    { rely := fun s t => s.ring.writeAheadWindow ≤ t.ring.writeAheadWindow ∧
        (s.ring.prefillComplete → t.ring.prefillComplete)
      guar := fun s t => t.hist = s.hist ∧ t.ring.writeAheadWindow ≤ s.ring.writeAheadWindow
      claim := fun _ _ => True
      rely_refl := fun _ => ⟨le_refl _, id⟩
      rely_trans := fun h h' => ⟨h.1.trans h'.1, h'.2 ∘ h.2⟩ }

/-- Accesses that concern neither the window nor the flag. -/
def RingOp.Unpaced : RingOp → Prop
  | .load x | .store x _ | .add x _ => x ≠ .writeAheadWindow
  | .loadPrefillComplete | .storePrefillComplete _ => False
  | .copyIn _ _ _ _ | .copyOut _ _ | .qWarning _ => True

section

variable {l : RingLayout} {s : Recorded (Option ℤ)} {α : Type}

abbrev PrefillSafe (l : RingLayout) (i : Party) (p : RingProgram α)
    (Q : α → Recorded (Option ℤ) → Prop) (s : Recorded (Option ℤ)) : Prop :=
  Safe (prefillSystem.handler i) (PrefillInv l) (prefillContract i) (NoLostUpdate i) p Q s

theorem unpaced_ring {e : RingOp} (he : e.Unpaced) (rb : URingBuffer) :
    (ringHandler e rb).2.toRingLayout = rb.toRingLayout ∧
      (ringHandler e rb).2.writeAheadWindow = rb.writeAheadWindow ∧
      (ringHandler e rb).2.prefillComplete = rb.prefillComplete := by
  cases e with
  | load x => exact ⟨rfl, rfl, rfl⟩
  | store x v => cases x <;> first | exact absurd rfl he | exact ⟨rfl, rfl, rfl⟩
  | add x v => cases x <;> first | exact absurd rfl he | exact ⟨rfl, rfl, rfl⟩
  | loadPrefillComplete => exact he.elim
  | storePrefillComplete b => exact he.elim
  | _ => exact ⟨rfl, rfl, rfl⟩

theorem unpaced_hist (i : Party) {e : RingOp} (he : e.Unpaced) (rb : URingBuffer)
    (owed : Option ℤ) : prefillRecorder.onAccess i e rb owed = owed := by
  cases i with
  | consumer => rfl
  | producer =>
    cases e with
    | load x => cases x <;> first | exact absurd rfl he | rfl
    | add x v => cases x <;> first | exact absurd rfl he | rfl
    | loadPrefillComplete => exact he.elim
    | storePrefillComplete b => exact he.elim
    | _ => rfl

theorem prefillInv_congr {t : Recorded (Option ℤ)} (hs : PrefillInv l s)
    (hl : t.ring.toRingLayout = s.ring.toRingLayout)
    (hw : t.ring.writeAheadWindow = s.ring.writeAheadWindow)
    (hf : t.ring.prefillComplete = s.ring.prefillComplete) (hh : t.hist = s.hist) :
    PrefillInv l t := by
  refine ⟨hl.trans hs.layout, by rw [hw]; exact hs.window_nonneg, by rw [hw]; exact hs.window_le, ?_⟩
  intro hfalse
  rw [ChecksLater, hw, hh, hl]
  exact hs.paced (hf ▸ hfalse)

theorem safe_unpaced {i : Party} {p : RingProgram α} (hp : p.All RingOp.Unpaced)
    {P : Recorded (Option ℤ) → Prop} (hP : Stable (PrefillInv l) (prefillContract i) P)
    (hi : PrefillInv l s) (hs : P s) : PrefillSafe l i p (fun _ => P) s := by
  refine safe_of_all (fun e t he hit => ?_) hP hp hi hs
  obtain ⟨hl, hw, hf⟩ := unpaced_ring he t.ring
  have hh := unpaced_hist i he t.ring t.hist
  have hinv : PrefillInv l (prefillSystem.handler i e t).2 := prefillInv_congr hit hl hw hf hh
  cases i with
  | producer => exact ⟨trivial, fun _ => ⟨⟨hw.ge, fun h => hf.trans h⟩, hinv, hh, hw.le⟩⟩
  | consumer => exact ⟨trivial, fun _ => ⟨⟨hh, hw.le⟩, hinv, hw.ge, fun h => hf.trans h⟩⟩

section Producer

variable {n : ℤ}

theorem stable_owed (owed : Option ℤ) :
    Stable (PrefillInv l) (prefillContract .producer) fun s => s.hist = owed :=
  fun _ _ _ _ h hs => h.1.trans hs

theorem stable_below (v : ℤ) :
    Stable (PrefillInv l) (prefillContract .producer) fun s => s.ring.writeAheadWindow ≤ v :=
  fun _ _ _ _ h hs => h.2.trans hs

/-- The overflow check. A chunk that does not fit owes nothing any more. -/
theorem safe_overflowCheck (hi : PrefillInv l s) (hs : s.hist = some n) :
    PrefillSafe l .producer (Ring.load .writeAheadWindow) (fun v t =>
      if l.bufferSize < v + n then t.hist = none
      else t.hist = some n ∧ t.ring.writeAheadWindow ≤ v) s := by
  refine safe_perform (stable_owed _) (fun v => ?_) hi hs fun t hit ht => ?_
  · split
    · exact stable_owed _
    · exact (stable_owed _).and (stable_below v)
  have hsize : t.ring.bufferSize = l.bufferSize := by rw [hit.layout]
  have hstep : (prefillSystem.handler .producer (.load .writeAheadWindow) t).2 =
      ⟨t.ring, if t.ring.bufferSize < t.ring.writeAheadWindow + n then none else some n⟩ := by
    obtain ⟨rb, owed⟩ := t
    cases ht
    rfl
  rw [hstep, hsize]
  refine ⟨trivial, fun _ => ?_⟩
  change _ ∧ _ ∧ (if l.bufferSize < t.ring.writeAheadWindow + n then _ else _)
  split
  · refine ⟨⟨le_refl _, id⟩, ⟨hit.layout, hit.window_nonneg, hit.window_le, fun hf => .inl ?_⟩, rfl⟩
    rcases hit.paced hf with hlow | ⟨m, hm, hfit⟩
    · exact hlow
    · rw [ht] at hm
      cases hm
      omega
  · refine ⟨⟨le_refl _, id⟩, ?_, rfl, le_refl _⟩
    exact prefillInv_congr hit rfl rfl rfl ht.symm

theorem safe_publish (hi : PrefillInv l s) (h0 : 0 ≤ n)
    (hs : s.hist = some n ∧ s.ring.writeAheadWindow ≤ l.bufferSize - n) :
    PrefillSafe l .producer (Ring.add .writeAheadWindow n) (fun _ t => t.hist = some 0) s := by
  refine safe_perform ((stable_owed _).and (stable_below _)) (fun _ => stable_owed _) hi hs
    fun t hit ht => ⟨trivial, fun _ => ?_⟩
  have hroom := ht.2
  have hnonneg := hit.window_nonneg
  have hsize : t.ring.bufferSize = l.bufferSize := by rw [hit.layout]
  obtain ⟨u, hu⟩ : ∃ u, (prefillSystem.handler .producer (.add .writeAheadWindow n) t).2 = u :=
    ⟨_, rfl⟩
  have hwin : u.ring.writeAheadWindow = t.ring.writeAheadWindow + n := by rw [← hu]; rfl
  have hlay : u.ring.toRingLayout = t.ring.toRingLayout := by rw [← hu]; rfl
  have howed : u.hist = some 0 := by rw [← hu]; rfl
  rw [hu]
  refine ⟨⟨by omega, fun h => by rw [← hu]; exact h⟩, ⟨hlay.trans hit.layout, by omega, by omega,
    fun _ => .inr ⟨0, howed, ?_⟩⟩, howed⟩
  rw [hlay, hsize]
  omega

/-- At the return of a write the producer owes nothing, or the buffer is below the prefill. -/
def Checked (s : Recorded (Option ℤ)) : Prop :=
  s.hist = none ∨ s.ring.writeAheadWindow < s.ring.prefillNumSamples

theorem stable_checked : Stable (PrefillInv l) (prefillContract .producer) Checked := by
  intro s t hs ht h hc
  rcases hc with hc | hc
  · exact .inl (h.1.trans hc)
  · refine .inr (h.2.trans_lt ?_)
    rwa [ht.layout, ← hs.layout]

theorem safe_completePrefill (hi : PrefillInv l s) (hs : s.hist = some 0) :
    PrefillSafe l .producer (Ring.completePrefill l) (fun _ => Checked) s := by
  have hflag : PrefillSafe l .producer Ring.loadPrefillComplete
      (fun complete t => t.hist = if complete then none else some 0) s := by
    refine safe_perform (stable_owed _) (fun _ => stable_owed _) hi hs fun t hit ht =>
      ⟨trivial, fun _ => ⟨⟨le_refl _, id⟩, ?_, ?_⟩⟩
    · refine ⟨hit.layout, hit.window_nonneg, hit.window_le, fun hf => ?_⟩
      have howed : (prefillSystem.handler .producer .loadPrefillComplete t).2.hist = t.hist :=
        if_neg (Bool.eq_false_iff.mp hf)
      rw [ChecksLater, howed]
      exact hit.paced hf
    · change (if t.ring.prefillComplete then none else t.hist) = _
      rw [ht]
      rfl
  refine safe_bind hi hflag fun complete s₁ hi₁ hs₁ => ?_
  cases complete with
  | true => exact safe_ret (fun _ => stable_checked) hi₁ (.inl hs₁)
  | false =>
    refine safe_bind hi₁ (safe_overflowCheck hi₁ hs₁) fun v s₂ hi₂ hs₂ => ?_
    split
    · refine safe_perform (stable_const True) (fun _ => stable_checked) hi₂ trivial fun t hit _ =>
        ⟨trivial, fun _ => ⟨⟨le_refl _, fun _ => rfl⟩, ?_, .inl rfl⟩⟩
      exact ⟨hit.layout, hit.window_nonneg, hit.window_le, fun hf => by cases hf⟩
    · refine safe_ret (fun _ => stable_checked) hi₂ ?_
      split at hs₂
      · exact .inl hs₂
      · refine .inr ?_
        rw [hi₂.layout]
        omega

theorem all_unpaced_countSinceWarn (x : IntField) (count : ℤ)
    (hx : x = .readsSinceLastWarn ∨ x = .writesSinceLastWarn) :
    (Ring.countSinceWarn l x count).All RingOp.Unpaced := by
  refine all_bind ((all_perform _).mpr ?_) fun v => ?_
  · rcases hx with rfl | rfl <;> exact IntField.noConfusion
  · split
    · refine (all_perform _).mpr ?_
      rcases hx with rfl | rfl <;> exact IntField.noConfusion
    · trivial

theorem all_unpaced_warnLimited (x : IntField) (text : String)
    (hx : x = .readsSinceLastWarn ∨ x = .writesSinceLastWarn) :
    (Ring.warnLimited l x text).All RingOp.Unpaced := by
  refine all_bind ((all_perform _).mpr ?_) fun v => ?_
  · rcases hx with rfl | rfl <;> exact IntField.noConfusion
  · split
    · refine ⟨trivial, fun _ => (all_perform _).mpr ?_⟩
      rcases hx with rfl | rfl <;> exact IntField.noConfusion
    · trivial

theorem all_unpaced_load {x : IntField} (hx : x ≠ .writeAheadWindow) :
    (Ring.load x).All RingOp.Unpaced := (all_perform _).mpr hx

theorem all_unpaced_wrapPos {x : IntField} (hx : x ≠ .writeAheadWindow) :
    (Ring.wrapPos l x).All RingOp.Unpaced := by
  refine all_bind (all_unpaced_load hx) fun v => ?_
  split
  · exact (all_perform _).mpr hx
  · trivial

/-- Both write branches publish the chunk and then look at the flag; the rest does not matter. -/
theorem safe_writeBranches {src : Bytes} (hi : PrefillInv l s) (h0 : 0 ≤ n)
    (hs : s.hist = some n ∧ s.ring.writeAheadWindow ≤ l.bufferSize - n) :
    PrefillSafe l .producer (Ring.writeStraight l src n) (fun _ => Checked) s ∧
      PrefillSafe l .producer (Ring.writeWrapped l src n) (fun _ => Checked) s := by
  have hP : Stable (PrefillInv l) (prefillContract .producer)
      fun s => s.hist = some n ∧ s.ring.writeAheadWindow ≤ l.bufferSize - n :=
    (stable_owed _).and (stable_below _)
  have hskip : ∀ {β : Type} {p : RingProgram β} {t}, p.All RingOp.Unpaced → PrefillInv l t →
      t.hist = some n ∧ t.ring.writeAheadWindow ≤ l.bufferSize - n →
      PrefillSafe l .producer p
        (fun _ t => t.hist = some n ∧ t.ring.writeAheadWindow ≤ l.bufferSize - n) t :=
    fun hp hit ht => safe_unpaced hp hP hit ht
  have hload := all_unpaced_load (show IntField.writePos ≠ .writeAheadWindow by decide)
  constructor
  · refine safe_bind hi (hskip hload hi hs) fun _ s₁ hi₁ hs₁ => ?_
    refine safe_bind hi₁ (hskip ((all_perform _).mpr trivial) hi₁ hs₁) fun _ s₂ hi₂ hs₂ => ?_
    refine safe_bind hi₂ (hskip ((all_perform _).mpr IntField.noConfusion) hi₂ hs₂)
      fun _ s₃ hi₃ hs₃ => ?_
    refine safe_bind hi₃ (safe_publish hi₃ h0 hs₃) fun _ s₄ hi₄ hs₄ => ?_
    refine safe_bind hi₄ (safe_unpaced (all_unpaced_wrapPos (by decide)) (stable_owed _) hi₄ hs₄)
      fun _ s₅ hi₅ hs₅ => safe_completePrefill hi₅ hs₅
  · refine safe_bind hi (hskip hload hi hs) fun _ s₁ hi₁ hs₁ => ?_
    refine safe_bind hi₁ (hskip hload hi₁ hs₁) fun _ s₂ hi₂ hs₂ => ?_
    refine safe_bind hi₂ (hskip ((all_perform _).mpr trivial) hi₂ hs₂) fun _ s₃ hi₃ hs₃ => ?_
    refine safe_bind hi₃ (hskip ((all_perform _).mpr trivial) hi₃ hs₃) fun _ s₄ hi₄ hs₄ => ?_
    refine safe_bind hi₄ (hskip ((all_perform _).mpr IntField.noConfusion) hi₄ hs₄)
      fun _ s₅ hi₅ hs₅ => ?_
    exact safe_bind hi₅ (safe_publish hi₅ h0 hs₅) fun _ s₆ hi₆ hs₆ => safe_completePrefill hi₆ hs₆

theorem safe_writeRawData_prefill {src : Bytes} (hi : PrefillInv l s) (h0 : 0 ≤ n)
    (hs : s.hist = some n) :
    PrefillSafe l .producer (Ring.writeRawData l src n) (fun _ => Checked) s := by
  refine safe_bind hi (safe_unpaced (all_unpaced_countSinceWarn _ _ (.inr rfl)) (stable_owed _) hi hs)
    fun _ s₁ hi₁ hs₁ => ?_
  refine safe_bind hi₁ (safe_overflowCheck hi₁ hs₁) fun v s₂ hi₂ hs₂ => ?_
  split at hs₂
  · rw [if_pos ‹_›]
    exact safe_unpaced (all_unpaced_warnLimited _ _ (.inr rfl)) stable_checked hi₂ (.inl hs₂)
  · rw [if_neg ‹_›]
    have hfits : s₂.hist = some n ∧ s₂.ring.writeAheadWindow ≤ l.bufferSize - n :=
      ⟨hs₂.1, by omega⟩
    refine safe_bind hi₂ (safe_unpaced (all_unpaced_load (by decide))
      ((stable_owed _).and (stable_below _)) hi₂ hfits) fun w s₃ hi₃ hs₃ => ?_
    split
    · exact (safe_writeBranches hi₃ h0 hs₃).1
    · exact (safe_writeBranches hi₃ h0 hs₃).2

end Producer

section Consumer

variable {n : ℤ}

/-- A read that goes ahead has seen enough samples and the flag set. -/
def Playable (n : ℤ) (s : Recorded (Option ℤ)) : Prop :=
  n ≤ s.ring.writeAheadWindow ∧ s.ring.prefillComplete

theorem stable_playable : Stable (PrefillInv l) (prefillContract .consumer) (Playable n) :=
  fun _ _ _ _ h hs => ⟨hs.1.trans h.1, h.2 hs.2⟩

theorem stable_atLeast (v : ℤ) : Stable (PrefillInv l) (prefillContract .consumer)
    fun t => v ≤ t.ring.writeAheadWindow := fun _ _ _ _ h hv => hv.trans h.1

theorem safe_seeWindow (hi : PrefillInv l s) :
    PrefillSafe l .consumer (Ring.load .writeAheadWindow)
      (fun v t => v ≤ t.ring.writeAheadWindow) s :=
  safe_perform (stable_const True) stable_atLeast hi trivial fun _ hit _ =>
    ⟨trivial, fun _ => ⟨⟨rfl, le_refl _⟩, hit, le_refl _⟩⟩

theorem safe_seeFlag (hi : PrefillInv l s) (hs : n ≤ s.ring.writeAheadWindow) :
    PrefillSafe l .consumer Ring.loadPrefillComplete
      (fun complete t => complete = true → Playable n t) s := by
  have hpost : ∀ complete : Bool, Stable (PrefillInv l) (prefillContract .consumer)
      fun t => complete = true → Playable n t :=
    fun _ s t hs ht h hp hc => stable_playable s t hs ht h (hp hc)
  exact safe_perform (stable_atLeast n) hpost hi hs fun _ hit ht =>
    ⟨trivial, fun _ => ⟨⟨rfl, le_refl _⟩, hit, fun hc => ⟨ht, hc⟩⟩⟩

theorem safe_readWithheld_prefill (hi : PrefillInv l s) :
    PrefillSafe l .consumer (Ring.readWithheld n)
      (fun withheld t => withheld = false → Playable n t) s := by
  have hpost : ∀ withheld : Bool, Stable (PrefillInv l) (prefillContract .consumer)
      fun t => withheld = false → Playable n t :=
    fun _ s t hs ht h hp hw => stable_playable s t hs ht h (hp hw)
  refine safe_bind hi (safe_seeWindow hi) fun v s₁ hi₁ hs₁ => ?_
  split
  · exact safe_ret hpost hi₁ fun hw => by cases hw
  · refine safe_bind hi₁ (safe_seeFlag (n := n) hi₁ (by omega)) fun complete s₂ hi₂ hs₂ => ?_
    exact safe_ret hpost hi₂ fun hw => hs₂ (by simpa using hw)

theorem safe_take_prefill (hi : PrefillInv l s) (hs : Playable n s) (h0 : 0 ≤ n) :
    PrefillSafe l .consumer (Ring.add .writeAheadWindow (-n)) (fun _ _ => True) s := by
  refine safe_perform stable_playable (fun _ => stable_const _) hi hs fun t hit ht =>
    ⟨trivial, fun _ => ?_⟩
  have hn := ht.1
  have hnonneg := hit.window_nonneg
  have hle := hit.window_le
  obtain ⟨u, hu⟩ : ∃ u, (prefillSystem.handler .consumer (.add .writeAheadWindow (-n)) t).2 = u :=
    ⟨_, rfl⟩
  have hwin : u.ring.writeAheadWindow = t.ring.writeAheadWindow - n := by
    rw [← hu]
    exact Int.sub_eq_add_neg.symm
  have hflag : u.ring.prefillComplete = true := by rw [← hu]; exact ht.2
  have hlay : u.ring.toRingLayout = l := by rw [← hu]; exact hit.layout
  rw [hu]
  refine ⟨⟨by rw [← hu]; rfl, by omega⟩, ⟨hlay, by omega, by omega, fun hf => ?_⟩, trivial⟩
  rw [hflag] at hf
  cases hf

theorem safe_restartPrefill_prefill (hi : PrefillInv l s) :
    PrefillSafe l .consumer Ring.restartPrefill (fun _ _ => True) s := by
  refine safe_bind hi (safe_seeWindow hi) fun v s₁ hi₁ _ => ?_
  split
  · -- The store that may lose the producer's update: the run's condition is what saves the invariant.
    refine safe_perform (stable_const True) (fun _ => stable_const _) hi₁ trivial fun t hit _ =>
      ⟨trivial, fun hallow => ⟨⟨rfl, le_refl _⟩, ?_, trivial⟩⟩
    exact ⟨hit.layout, hit.window_nonneg, hit.window_le, fun _ => hallow⟩
  · exact safe_ret (fun _ => stable_const _) hi₁ trivial

theorem safe_silencedRead_prefill (hi : PrefillInv l s) :
    PrefillSafe l .consumer (Ring.silencedRead l) (fun _ _ => True) s := by
  refine safe_bind hi (safe_unpaced (all_unpaced_load (by decide)) (stable_const True) hi trivial)
    fun v s₁ hi₁ _ => ?_
  split
  · refine safe_bind hi₁ (safe_seeFlag (n := 0) hi₁ hi₁.window_nonneg) fun complete s₂ hi₂ _ => ?_
    split
    · have hstore : (Ring.store .readsSinceLastWarn 0).All RingOp.Unpaced :=
        (all_perform _).mpr (show IntField.readsSinceLastWarn ≠ .writeAheadWindow by decide)
      exact safe_unpaced hstore (stable_const True) hi₂ trivial
    · exact safe_ret (fun _ => stable_const _) hi₂ trivial
  · exact safe_ret (fun _ => stable_const _) hi₁ trivial

theorem safe_takeBranches (hi : PrefillInv l s) (h0 : 0 ≤ n) (hs : Playable n s) :
    PrefillSafe l .consumer (Ring.takeStraight n) (fun _ _ => True) s ∧
      PrefillSafe l .consumer (Ring.takeWrapped l n) (fun _ _ => True) s := by
  have hplay : ∀ {β : Type} {p : RingProgram β} {t}, p.All RingOp.Unpaced → PrefillInv l t →
      Playable n t → PrefillSafe l .consumer p (fun _ => Playable n) t :=
    fun hp hit ht => safe_unpaced hp stable_playable hit ht
  have hload := all_unpaced_load (show IntField.readPos ≠ .writeAheadWindow by decide)
  constructor
  · refine safe_bind hi (hplay hload hi hs) fun _ s₁ hi₁ hs₁ => ?_
    refine safe_bind hi₁ (hplay ((all_perform _).mpr trivial) hi₁ hs₁) fun _ s₂ hi₂ hs₂ => ?_
    refine safe_bind hi₂ (hplay ((all_perform _).mpr IntField.noConfusion) hi₂ hs₂)
      fun _ s₃ hi₃ hs₃ => ?_
    refine safe_bind hi₃ (safe_take_prefill hi₃ hs₃ h0) fun _ s₄ hi₄ _ => ?_
    exact safe_ret (fun _ => stable_const _) hi₄ trivial
  · refine safe_bind hi (hplay hload hi hs) fun _ s₁ hi₁ hs₁ => ?_
    refine safe_bind hi₁ (hplay hload hi₁ hs₁) fun _ s₂ hi₂ hs₂ => ?_
    refine safe_bind hi₂ (hplay ((all_perform _).mpr trivial) hi₂ hs₂) fun _ s₃ hi₃ hs₃ => ?_
    refine safe_bind hi₃ (hplay ((all_perform _).mpr trivial) hi₃ hs₃) fun _ s₄ hi₄ hs₄ => ?_
    refine safe_bind hi₄ (hplay ((all_perform _).mpr IntField.noConfusion) hi₄ hs₄)
      fun _ s₅ hi₅ hs₅ => ?_
    refine safe_bind hi₅ (safe_take_prefill hi₅ hs₅ h0) fun _ s₆ hi₆ _ => ?_
    exact safe_ret (fun _ => stable_const _) hi₆ trivial

theorem safe_readAudioData_prefill (hi : PrefillInv l s) (h0 : 0 ≤ n) :
    PrefillSafe l .consumer (Ring.readAudioData l n) (fun _ _ => True) s := by
  refine safe_bind hi (P := fun _ _ => True) (safe_unpaced (all_unpaced_countSinceWarn _ _ (.inl rfl))
    (stable_const True) hi trivial) fun _ s₁ hi₁ _ => ?_
  refine safe_bind hi₁ (safe_readWithheld_prefill hi₁) fun withheld s₂ hi₂ hs₂ => ?_
  cases withheld with
  | true =>
    refine safe_bind hi₂ (safe_silencedRead_prefill hi₂) fun _ s₃ hi₃ _ => ?_
    exact safe_ret (fun _ => stable_const _) hi₃ trivial
  | false =>
    refine safe_bind hi₂ (safe_unpaced (all_unpaced_load (by decide)) stable_playable hi₂ (hs₂ rfl))
      fun r s₃ hi₃ hs₃ => ?_
    split
    · refine safe_bind hi₃ (safe_takeBranches hi₃ h0 hs₃).1 fun bytes s₄ hi₄ _ => ?_
      refine safe_bind hi₄ (safe_unpaced (all_unpaced_wrapPos (by decide)) (stable_const True) hi₄
        trivial) fun _ s₅ hi₅ _ => ?_
      refine safe_bind hi₅ (safe_restartPrefill_prefill hi₅) fun _ s₆ hi₆ _ => ?_
      exact safe_ret (fun _ => stable_const _) hi₆ trivial
    · refine safe_bind hi₃ (safe_takeBranches hi₃ h0 hs₃).2 fun bytes s₄ hi₄ _ => ?_
      refine safe_bind hi₄ (safe_restartPrefill_prefill hi₄) fun _ s₅ hi₅ _ => ?_
      exact safe_ret (fun _ => stable_const _) hi₅ trivial

end Consumer

end

end UwavClient
