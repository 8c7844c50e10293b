import UwavClient.Ring.Prefill

/-!
# When the prefill flag can be trusted

In a run in which the consumer never clears the flag behind the producer's back, a buffer at rest
whose reads are silenced is below its prefill, and the next chunk fits and restarts playback. Without
that condition one store of the consumer can undo the producer's check for good.
-/

namespace UwavClient

open Program Interleaving

variable {l : RingLayout} {s : Recorded (Option ℤ)}

def prefillIdle : Party → Recorded (Option ℤ) → Prop
  | .producer, s => s.hist = none
  | .consumer, _ => True

/-- What the return of a call must establish. -/
def PrefillReturns (l : RingLayout) (i : Party) (a : CallResult) (s : Recorded (Option ℤ)) : Prop :=
  (prefillContract i).guar s (prefillSystem.finish i a s) ∧
    PrefillInv l (prefillSystem.finish i a s) ∧ prefillIdle i (prefillSystem.finish i a s)

theorem prefillReturns_of_checked (hi : PrefillInv l s) (hs : Checked s) :
    PrefillReturns l .producer .done s := by
  refine ⟨⟨le_refl _, id⟩, ⟨hi.layout, hi.window_nonneg, hi.window_le, fun hf => .inl ?_⟩, rfl⟩
  rcases hs with hnone | hlow
  · rcases hi.paced hf with hlow | ⟨n, hn, -⟩
    · exact hlow
    · rw [hnone] at hn
      cases hn
  · exact hlow

theorem prefill_call {c : RingCall} (hc : c.Valid) (i : Party) {owed : Option ℤ}
    (hmay : prefillRecorder.may i c owed) (hi : PrefillInv l s)
    (hs : s.hist = prefillRecorder.onStart i c s.ring owed) :
    PrefillSafe l i (c.program l) (PrefillReturns l i) s := by
  cases i with
  | producer =>
    cases c with
    | writeRawData src n =>
      refine safe_bind hi (safe_writeRawData_prefill hi hc.1 hs) fun _ t hit ht u hu hiu => ?_
      exact prefillReturns_of_checked hiu (stable_checked t u hit hiu hu ht)
    | _ => exact hmay.elim
  | consumer =>
    cases c with
    | readAudioData n =>
      refine safe_bind hi (safe_readAudioData_prefill hi hc) fun b t hit _ u hu hiu => ?_
      exact ⟨⟨rfl, le_refl _⟩, prefillInv_congr hiu rfl rfl rfl rfl, trivial⟩
    | _ => exact hmay.elim

def prefillSpec (l : RingLayout) : Spec prefillSystem NoLostUpdate where
  inv := PrefillInv l
  contract := prefillContract
  idle := prefillIdle
  compatible := by
    intro i j s t hij hg
    cases i <;> cases j <;> first | exact absurd rfl hij | exact hg
  stable i := by
    cases i with
    | producer => exact stable_owed none
    | consumer => exact stable_const True
  call := by
    rintro i s p t hi hs ⟨c, hc, hmay, rfl, rfl⟩
    rw [hi.layout]
    suffices hstart : (prefillContract i).guar s ⟨s.ring, prefillRecorder.onStart i c s.ring s.hist⟩ ∧
        PrefillInv l ⟨s.ring, prefillRecorder.onStart i c s.ring s.hist⟩ from
      ⟨hstart.1, hstart.2, prefill_call hc i hmay hstart.2 rfl⟩
    cases i with
    | consumer =>
      have hsame : prefillRecorder.onStart .consumer c s.ring s.hist = s.hist := by cases c <;> rfl
      exact ⟨⟨hsame, le_refl _⟩, prefillInv_congr hi rfl rfl rfl hsame⟩
    | producer =>
      refine ⟨⟨le_refl _, id⟩, hi.layout, hi.window_nonneg, hi.window_le, fun hf => .inl ?_⟩
      rcases hi.paced hf with hlow | ⟨n, hn, -⟩
      · exact hlow
      · rw [show s.hist = none from hs] at hn
        cases hn

section Statement

variable {sampleRate : ℤ}

theorem sampleRate_nonneg (h : 1 ≤ (URingBuffer.ofSampleRate sampleRate).prefillNumSamples) :
    0 ≤ sampleRate := by
  by_contra hneg
  have hsign : sampleRate.sign = -1 := Int.sign_eq_neg_one_of_neg (by omega)
  have heq : (URingBuffer.ofSampleRate sampleRate).prefillNumSamples =
      sampleRate.sign * (Binary64.mulTrunc outputPrefill sampleRate.natAbs : ℤ) := rfl
  rw [heq, hsign] at h
  omega

theorem prefillInv_init (h : 1 ≤ (URingBuffer.ofSampleRate sampleRate).prefillNumSamples) :
    PrefillInv (URingBuffer.ofSampleRate sampleRate).toRingLayout
      (prefillStart sampleRate).shared where
  layout := rfl
  window_nonneg := le_refl _
  window_le := by
    have hrate := sampleRate_nonneg h
    have hsize := URingBuffer.bufferSize_ofSampleRate hrate
    have hzero : (prefillStart sampleRate).shared.ring.writeAheadWindow = 0 := rfl
    rw [hzero, hsize]
    omega
  paced _ := .inl h

/-- A chunk that fits is added to the window, and reaching the prefill restarts playback. -/
theorem writeRawData_of_fits (rb : URingBuffer) (src : Bytes) {n : ℤ}
    (hfit : rb.writeAheadWindow + n ≤ rb.bufferSize) :
    (rb.writeRawData src n).writeAheadWindow = rb.writeAheadWindow + n ∧
      (rb.prefillNumSamples ≤ rb.writeAheadWindow + n →
        (rb.writeRawData src n).prefillComplete = true) := by
  obtain ⟨rb', hc⟩ : ∃ rb', (Ring.countSinceWarn rb.toRingLayout .writesSinceLastWarn n).run
    ringHandler rb = ((), rb') := ⟨_, rfl⟩
  have hw : rb'.writeAheadWindow = rb.writeAheadWindow := by
    rw [Ring.run_countSinceWarn] at hc
    obtain ⟨-, rfl⟩ := Prod.mk.inj hc
    split <;> rfl
  rw [URingBuffer.writeRawData, URingBuffer.call, Ring.run_writeRawData _ _ _ hc, Ring.runWrite, hw,
    if_pos hfit]
  split
  · rw [Ring.run_writeStraight]
    exact ⟨by rw [← hw], fun hp => by simp [hw, hp]⟩
  · rw [Ring.run_writeWrapped rb' _ src n rfl]
    exact ⟨by rw [← hw], fun hp => by simp [hw, hp]⟩

/-- In a run without a lost update, a buffer at rest whose reads are silenced is below its prefill,
and any chunk of up to half a second is accepted and restarts playback when it reaches the prefill. -/
theorem prefill_not_stuck
    (hprefill : 1 ≤ (URingBuffer.ofSampleRate sampleRate).prefillNumSamples)
    {c : RingConfig (Option ℤ)}
    (run : Reaches prefillSystem NoLostUpdate (prefillStart sampleRate) c) (quiet : c.Quiet)
    (hsilent : c.shared.ring.prefillComplete = false) :
    c.shared.ring.writeAheadWindow < c.shared.ring.prefillNumSamples ∧
      ∀ src n, (RingCall.writeRawData src n).Valid → n ≤ sampleRate / 2 →
        (c.shared.ring.writeRawData src n).writeAheadWindow = c.shared.ring.writeAheadWindow + n ∧
        (c.shared.ring.prefillNumSamples ≤ c.shared.ring.writeAheadWindow + n →
          (c.shared.ring.writeRawData src n).prefillComplete = true) := by
  have hrate := sampleRate_nonneg hprefill
  have hinv := prefillInv_init hprefill
  have hidle : ∀ i, (prefillSpec (URingBuffer.ofSampleRate sampleRate).toRingLayout).Holds i
      ((prefillStart sampleRate).thread i) (prefillStart sampleRate).shared := by
    intro i
    cases i with
    | producer => exact rfl
    | consumer => exact trivial
  obtain ⟨hc, hthreads⟩ := Spec.sound _ hinv hidle run
  have howed := hthreads .producer
  rw [quiet .producer] at howed
  have hlow : c.shared.ring.writeAheadWindow < c.shared.ring.prefillNumSamples := by
    rcases hc.paced hsilent with hlow | ⟨n, hn, -⟩
    · exact hlow
    · rw [show c.shared.hist = none from howed] at hn
      cases hn
  refine ⟨hlow, fun src n _ hn => writeRawData_of_fits _ src ?_⟩
  have hlayout := hc.layout
  have hsize := URingBuffer.bufferSize_ofSampleRate hrate
  have hnum := URingBuffer.prefillFor_eq hrate
  rw [hlayout] at hlow ⊢
  omega

end Statement

instance : Decidable (ChecksLater s) :=
  match h : s.hist with
  | none => isFalse fun ⟨n, hn, _⟩ => by rw [h] at hn; cases hn
  | some n => decidable_of_iff (s.ring.writeAheadWindow + n ≤ s.ring.bufferSize)
      ⟨fun hfit => ⟨n, h, hfit⟩, fun ⟨m, hm, hfit⟩ => by rw [h] at hm; cases hm; exact hfit⟩

instance (i : Party) (e : RingOp) (s : Recorded (Option ℤ)) : Decidable (NoLostUpdate i e s) := by
  unfold NoLostUpdate
  split <;> infer_instance

/-- A write and a read that drains the buffer, one after the other. -/
def drainSchedule : List (Move Party RingCall) :=
  .call .producer (.writeRawData [1, 2, 3, 4] 1) :: List.replicate 12 (.step .producer) ++
    .call .consumer (.readAudioData 1) :: List.replicate 12 (.step .consumer)

theorem prefill_not_stuck_after_drain : ∃ c,
    Reaches prefillSystem NoLostUpdate (prefillStart 200) c ∧ c.Quiet ∧
      c.shared.ring.prefillComplete = false ∧
      c.shared.ring.writeAheadWindow < c.shared.ring.prefillNumSamples := by
  have hrun : ∃ c : RingConfig (Option ℤ), Reaches prefillSystem NoLostUpdate (prefillStart 200) c ∧
      (c.isQuiet && !c.shared.ring.prefillComplete) :=
    reaches_of_schedule (L := ringLauncher prefillRecorder) drainSchedule (by decide)
  obtain ⟨c, run, hgood⟩ := hrun
  obtain ⟨hquiet, hflag⟩ := Bool.and_eq_true _ _ ▸ hgood
  have hsilent : c.shared.ring.prefillComplete = false := by simpa using hflag
  have quiet := quiet_of_isQuiet hquiet
  exact ⟨c, run, quiet, hsilent, (prefill_not_stuck (by decide) run quiet hsilent).1⟩

/-- The consumer drains the buffer and loads the empty window; the producer writes another chunk and
finds the flag still set; then the consumer clears it. -/
def lostUpdateSchedule : List (Move Party RingCall) :=
  .call .producer (.writeRawData [1, 2, 3, 4] 1) :: List.replicate 12 (.step .producer) ++
    .call .consumer (.readAudioData 1) :: List.replicate 10 (.step .consumer) ++
    .call .producer (.writeRawData [5, 6, 7, 8] 1) :: List.replicate 10 (.step .producer) ++
    List.replicate 2 (.step .consumer)

theorem prefill_stuck_after_lost_update : ∃ c,
    Reaches prefillSystem (fun _ _ _ => True) (prefillStart 200) c ∧ c.Quiet ∧
      1 ≤ c.shared.ring.prefillNumSamples ∧ c.shared.ring.prefillComplete = false ∧
      ¬ c.shared.ring.writeAheadWindow < c.shared.ring.prefillNumSamples := by
  have hrun : ∃ c : RingConfig (Option ℤ),
      Reaches prefillSystem (fun _ _ _ => True) (prefillStart 200) c ∧
      (c.isQuiet && decide (1 ≤ c.shared.ring.prefillNumSamples ∧
        c.shared.ring.prefillComplete = false ∧
        ¬ c.shared.ring.writeAheadWindow < c.shared.ring.prefillNumSamples)) :=
    reaches_of_schedule (L := ringLauncher prefillRecorder) lostUpdateSchedule (by decide)
  obtain ⟨c, run, hgood⟩ := hrun
  obtain ⟨hquiet, hstuck⟩ := Bool.and_eq_true _ _ ▸ hgood
  exact ⟨c, run, quiet_of_isQuiet hquiet, of_decide_eq_true hstuck⟩

end UwavClient
