import UwavClient.Library.Machine
import UwavClient.Audio.Stream

/-!
# The input gate (`onProcessInput`, `SetInputGateTail`)

Input below the gate is let through for a tail of so many samples and withheld after that. The counter
of the tail starts again only when the gate was closed, so pauses too short to close the gate add up.
-/

namespace UwavClient

/-! ## When a gate should close -/

structure GateBlock where
  quiet : Bool
  size : ℕ
  deriving DecidableEq, Repr

/-- The samples of the quiet blocks that end here; the latest block comes first. -/
def quietRun : List GateBlock → ℕ
  | [] => 0
  | b :: before => if b.quiet then b.size + quietRun before else 0

section Tail

variable (tail : ℤ)

def closedGate : List GateBlock → Bool
  | [] => false
  | b :: before => b.quiet && decide (tail < quietRun before)

/-- The samples of the earlier quiet runs since the gate was last closed. -/
def shortPauses : List GateBlock → ℕ
  | [] => 0
  | b :: before =>
    if b.quiet then shortPauses before
    else if closedGate tail before then 0
    else shortPauses before + quietRun before

structure GateState where
  isGating : Bool := false
  tailCounter : ℤ := 0
  deriving DecidableEq, Repr

def GateState.next (s : GateState) (b : GateBlock) : GateState :=
  if b.quiet then
    if tail < s.tailCounter then { s with isGating := true }
    else { s with tailCounter := s.tailCounter + b.size }
  else if s.isGating then { isGating := false, tailCounter := 0 } else s

def gateState : List GateBlock → GateState
  | [] => {}
  | b :: before => (gateState before).next tail b

/-- Pauses do not add up: the tail is over for a quiet block only when its own run is long enough. -/
def PausesApart (before : List GateBlock) : Prop :=
  (shortPauses tail before + quietRun before : ℤ) ≤ tail ∨ tail < quietRun before

instance (before : List GateBlock) : Decidable (PausesApart tail before) :=
  inferInstanceAs (Decidable (_ ∨ _))

structure InStep (before : List GateBlock) : Prop where
  gating : (gateState tail before).isGating = closedGate tail before
  closed : closedGate tail before → tail < (gateState tail before).tailCounter
  opened : closedGate tail before = false →
    (gateState tail before).tailCounter = shortPauses tail before + quietRun before

variable {tail} {before : List GateBlock} {b : GateBlock}

theorem quietRun_of_closed (h : closedGate tail before) : tail < quietRun before := by
  cases before with
  | nil => cases h
  | cons b before =>
    obtain ⟨hquiet, hrun⟩ := Bool.and_eq_true_iff.mp h
    have hlt := of_decide_eq_true hrun
    rw [quietRun, if_pos hquiet]
    omega

/-- For a gate in step, the counter decides what the run decides exactly if pauses do not add up. -/
theorem InStep.counter_iff (h : InStep tail before) :
    (tail < (gateState tail before).tailCounter ↔ tail < quietRun before) ↔
      PausesApart tail before := by
  unfold PausesApart
  cases hc : closedGate tail before with
  | true =>
    have hcounter := h.closed hc
    have hrun := quietRun_of_closed hc
    exact ⟨fun _ => Or.inr hrun, fun _ => ⟨fun _ => hrun, fun _ => hcounter⟩⟩
  | false =>
    have hcounter := h.opened hc
    omega

/-- A quiet block after the tail closes the gate. -/
theorem InStep.cons_over (h : InStep tail before) (hquiet : b.quiet) (hapart : PausesApart tail before)
    (hover : tail < (gateState tail before).tailCounter) : InStep tail (b :: before) := by
  have hnext : gateState tail (b :: before) = { gateState tail before with isGating := true } := by
    rw [gateState, GateState.next, if_pos hquiet, if_pos hover]
  have hclosed : closedGate tail (b :: before) = true :=
    Bool.and_eq_true_iff.mpr ⟨hquiet, decide_eq_true ((h.counter_iff.mpr hapart).mp hover)⟩
  constructor
  · rw [hnext, hclosed]
  · intro _
    rw [hnext]
    exact hover
  · intro hopen
    rw [hclosed] at hopen
    cases hopen

/-- A quiet block within the tail is counted. -/
theorem InStep.cons_within (h : InStep tail before) (hquiet : b.quiet) (hapart : PausesApart tail before)
    (hwithin : ¬tail < (gateState tail before).tailCounter) : InStep tail (b :: before) := by
  have hnext : gateState tail (b :: before) = { gateState tail before with
      tailCounter := (gateState tail before).tailCounter + b.size } := by
    rw [gateState, GateState.next, if_pos hquiet, if_neg hwithin]
  have hopen : closedGate tail before = false :=
    Bool.eq_false_iff.mpr fun hc => hwithin (h.closed hc)
  have hclosed : closedGate tail (b :: before) = false :=
    Bool.and_eq_false_iff.mpr (Or.inr (decide_eq_false fun hrun =>
      hwithin ((h.counter_iff.mpr hapart).mpr hrun)))
  constructor
  · rw [hnext, hclosed]
    exact h.gating.trans hopen
  · intro hc
    rw [hclosed] at hc
    cases hc
  · intro _
    rw [hnext, shortPauses, quietRun, if_pos hquiet, if_pos hquiet]
    have := h.opened hopen
    push_cast
    omega

/-- A loud block opens the gate, and only then is the counter set back. -/
theorem InStep.cons_loud (h : InStep tail before) (hloud : ¬b.quiet) : InStep tail (b :: before) := by
  have hnext : gateState tail (b :: before) =
      if closedGate tail before then {} else gateState tail before := by
    rw [gateState, GateState.next, if_neg hloud, h.gating]
  have hpauses : shortPauses tail (b :: before) =
      if closedGate tail before then 0 else shortPauses tail before + quietRun before := by
    rw [shortPauses, if_neg hloud]
  have hrun : quietRun (b :: before) = 0 := if_neg hloud
  have hclosed : closedGate tail (b :: before) = false :=
    Bool.and_eq_false_iff.mpr (Or.inl (Bool.eq_false_iff.mpr hloud))
  constructor
  · rw [hnext, hclosed]
    cases hc : closedGate tail before with
    | true => rfl
    | false => exact h.gating.trans hc
  · intro hc
    rw [hclosed] at hc
    cases hc
  · intro _
    rw [hnext, hpauses, hrun]
    cases hc : closedGate tail before with
    | true => rfl
    | false => simp [h.opened hc]

/-- A gate stays in step with a loud block, and with a quiet one if pauses do not add up. -/
theorem InStep.cons (h : InStep tail before) (hb : b.quiet → PausesApart tail before) :
    InStep tail (b :: before) := by
  by_cases hquiet : b.quiet
  · by_cases hover : tail < (gateState tail before).tailCounter
    · exact h.cons_over hquiet (hb hquiet) hover
    · exact h.cons_within hquiet (hb hquiet) hover
  · exact h.cons_loud hquiet

theorem InStep.of_forall (h : ∀ b past, b :: past <:+ before → b.quiet → InStep tail past →
    PausesApart tail past) : InStep tail before := by
  induction before with
  | nil => exact ⟨rfl, fun hc => (by cases hc), fun _ => rfl⟩
  | cons b before ih =>
    have hstep : InStep tail before :=
      ih fun c past hsuffix => h c past (hsuffix.trans (List.suffix_cons b before))
    exact hstep.cons fun hquiet => h b before (List.suffix_refl _) hquiet hstep

/-- Over a whole history the gate decides by the run exactly if pauses do not add up at any quiet
block. -/
theorem gate_decides_iff : (∀ b past, b :: past <:+ before → b.quiet →
    (tail < (gateState tail past).tailCounter ↔ tail < quietRun past)) ↔
    ∀ b past, b :: past <:+ before → b.quiet → PausesApart tail past := by
  constructor
  · intro h b past hsuffix hquiet
    have hstep : InStep tail past := .of_forall fun c past' hs hq hin =>
      hin.counter_iff.mp (h c past' (hs.trans ((List.suffix_cons b past).trans hsuffix)) hq)
    exact hstep.counter_iff.mp (h b past hsuffix hquiet)
  · intro h b past hsuffix hquiet
    have hstep : InStep tail past := .of_forall fun c past' hs hq _ =>
      h c past' (hs.trans ((List.suffix_cons b past).trans hsuffix)) hq
    exact hstep.counter_iff.mpr (h b past hsuffix hquiet)

/-- The counter passes the tail by one block at most. -/
theorem gateState_tailCounter_le (htail : 0 ≤ tail) {size : ℕ} (hsize : ∀ b ∈ before, b.size ≤ size) :
    (gateState tail before).tailCounter ≤ tail + size := by
  induction before with
  | nil => exact Int.add_nonneg htail (Int.natCast_nonneg size)
  | cons b before ih =>
    have hprev := ih fun c hc => hsize c (List.mem_cons_of_mem b hc)
    have hb := hsize b List.mem_cons_self
    unfold gateState GateState.next
    split
    · split
      · exact hprev
      · dsimp only
        omega
    · split
      · exact Int.add_nonneg htail (Int.natCast_nonneg size)
      · exact hprev

end Tail

/-! ## The callback -/

section Callback

variable {F : Type} (A : FloatOps F) (st : StreamStatics F)

def amplified (samples : List Sample) : List Sample := samples.map (A.amplify st.inputGain)

def gateBlock (samples : List Sample) : GateBlock where
  quiet := A.lt (A.rms (amplified A st samples)) st.gateRMS
  size := samples.length

def gateMachine : Machine PwStreamData (List Sample) (List (StreamSignal F)) where
  step data samples := onProcessInput A st data (some ⟨some samples⟩)

def captured (rb : URingBuffer) (blocks : List (List Sample)) : PwStreamData :=
  (gateMachine A st).after { buffer := some rb } blocks

def Withholds (data : PwStreamData) (samples : List Sample) : Prop :=
  (onProcessInput A st data (some ⟨some samples⟩)).2.buffer = data.buffer ∧
    .signalInputBufferWrite ∉ (onProcessInput A st data (some ⟨some samples⟩)).1

def Writes (data : PwStreamData) (samples : List Sample) : Prop :=
  ∃ rb, data.buffer = some rb ∧ (onProcessInput A st data (some ⟨some samples⟩)).2.buffer =
      some (rb.writeAudioData (encode (amplified A st samples)) samples.length) ∧
    .signalInputBufferWrite ∈ (onProcessInput A st data (some ⟨some samples⟩)).1

def PwStreamData.gate (data : PwStreamData) : GateState := ⟨data.isGating, data.tailCounter⟩

/-- The blocks so far, as the gate sees them; the latest comes first. -/
def pastBlocks (blocks : List (List Sample)) : List GateBlock :=
  (blocks.map (gateBlock A st)).reverse

variable {A st} {data : PwStreamData} {samples : List Sample} {rb : URingBuffer}

theorem not_withholds_of_writes (h : Writes A st data samples) : ¬Withholds A st data samples :=
  fun hw => hw.2 h.choose_spec.2.2

@[simp] theorem tick_gate (data : PwStreamData) (signal : StreamSignal F) :
    (tick data signal).2.gate = data.gate := by
  unfold tick
  split <;> rfl

theorem signalInputBufferWrite_notMem_tick (data : PwStreamData) (level : F) :
    .signalInputBufferWrite ∉ (tick data (.currentInputRMSChangedTo level)).1 := by
  unfold tick
  split <;> simp

section Gated

variable (hconn : st.inStreamConnected) (hrb : data.buffer = some rb)

include hconn hrb

/-- A block of a connected stream goes through the gate. -/
theorem onProcessInput_of_gateInput {rms : F} {signals : List (StreamSignal F)} {gated : PwStreamData}
    (h : gateInput A st rb (amplified A st samples) data = (rms, signals, gated)) :
    onProcessInput A st data (some ⟨some samples⟩) =
      (signals ++ (tick gated (.currentInputRMSChangedTo rms)).1,
        (tick gated (.currentInputRMSChangedTo rms)).2) := by
  unfold amplified at h
  unfold onProcessInput
  rw [hrb]
  dsimp only
  rw [if_pos hconn, h]

theorem withholds_of_gateInput {rms : F} {gated : PwStreamData}
    (h : gateInput A st rb (amplified A st samples) data = (rms, [], gated))
    (hgated : gated.buffer = data.buffer) : Withholds A st data samples := by
  unfold Withholds
  rw [onProcessInput_of_gateInput hconn hrb h, tick_buffer]
  exact ⟨hgated, signalInputBufferWrite_notMem_tick gated rms⟩

theorem writes_of_gateInput {rms : F} {gated : PwStreamData}
    (h : gateInput A st rb (amplified A st samples) data =
      (rms, storeInput rb (amplified A st samples) gated)) : Writes A st data samples := by
  refine ⟨rb, hrb, ?_⟩
  rw [onProcessInput_of_gateInput hconn hrb h, tick_buffer]
  refine ⟨?_, List.mem_append_left _ (List.mem_singleton_self _)⟩
  rw [amplified, List.length_map]

/-- What one block does: it is withheld if it is below the gate and the tail is over, else it is
written, and the gate takes a step. -/
theorem onProcessInput_gate (hgate : A.isZero st.gateRMS = false) (samples : List Sample) :
    (onProcessInput A st data (some ⟨some samples⟩)).2.gate =
      data.gate.next st.gateClosingTail (gateBlock A st samples) ∧
    if (gateBlock A st samples).quiet ∧ st.gateClosingTail < data.tailCounter then
      Withholds A st data samples
    else Writes A st data samples := by
  have hopen : ¬A.isZero st.gateRMS := by simp [hgate]
  have hsize : (gateBlock A st samples).size = (amplified A st samples).length :=
    (List.length_map _).symm
  by_cases hquiet : (gateBlock A st samples).quiet
  · by_cases hover : st.gateClosingTail < data.tailCounter
    · have h : gateInput A st rb (amplified A st samples) data =
          (A.zero, [], { data with isGating := true }) :=
        (if_neg hopen).trans ((if_pos hquiet).trans (if_pos hover))
      rw [if_pos ⟨hquiet, hover⟩, onProcessInput_of_gateInput hconn hrb h, tick_gate,
        GateState.next, if_pos hquiet]
      exact ⟨(if_pos hover).symm, withholds_of_gateInput hconn hrb h rfl⟩
    · have h : gateInput A st rb (amplified A st samples) data = (A.rms (amplified A st samples),
          storeInput rb (amplified A st samples)
            { data with tailCounter := data.tailCounter + (amplified A st samples).length }) :=
        (if_neg hopen).trans ((if_pos hquiet).trans (if_neg hover))
      rw [if_neg fun h => hover h.2, onProcessInput_of_gateInput hconn hrb h, tick_gate,
        GateState.next, if_pos hquiet, hsize]
      exact ⟨(if_neg hover).symm, writes_of_gateInput hconn hrb h⟩
  · have h : gateInput A st rb (amplified A st samples) data = (A.rms (amplified A st samples),
        storeInput rb (amplified A st samples)
          (if data.isGating then { data with isGating := false, tailCounter := 0 } else data)) :=
      (if_neg hopen).trans (if_neg hquiet)
    rw [if_neg fun h => hquiet h.1, onProcessInput_of_gateInput hconn hrb h, tick_gate,
      GateState.next, if_neg hquiet]
    refine ⟨?_, writes_of_gateInput hconn hrb h⟩
    by_cases hgating : data.isGating <;> simp [PwStreamData.gate, hgating]

end Gated

/-- What is said of every block and the blocks before it, by number or with the latest first. -/
theorem forall_pastBlocks_iff {P : GateBlock → List GateBlock → Prop} {blocks : List (List Sample)} :
    (∀ b past, b :: past <:+ pastBlocks A st blocks → P b past) ↔
      ∀ i (_ : i < blocks.length), P (gateBlock A st blocks[i]) (pastBlocks A st (blocks.take i)) := by
  constructor
  · intro h i hi
    apply h
    have hcons : gateBlock A st blocks[i] :: pastBlocks A st (blocks.take i) =
        ((blocks.take (i + 1)).map (gateBlock A st)).reverse := by
      rw [List.take_succ_eq_append_getElem hi, List.map_append, List.reverse_append]
      rfl
    rw [hcons]
    exact List.reverse_suffix.mpr ((List.take_prefix _ _).map _)
  · intro h b past hsuffix
    have hprefix : past.reverse ++ [b] <+: blocks.map (gateBlock A st) := by
      rw [← List.reverse_suffix]
      simpa [pastBlocks] using hsuffix
    obtain ⟨l, ⟨rest, rfl⟩, heq⟩ := List.prefix_map_iff.mp hprefix
    obtain ⟨before, last, rfl, hbefore, hlast⟩ := List.append_eq_map_iff.mp heq
    obtain ⟨samples, rfl, rfl⟩ := List.map_eq_singleton_iff.mp hlast
    have hpast : past = pastBlocks A st before := by
      rw [pastBlocks, hbefore, List.reverse_reverse]
    simpa [hpast] using h before.length (by simp)

section Run

variable (hconn : st.inStreamConnected) (hgate : A.isZero st.gateRMS = false) (rb : URingBuffer)

include hconn hgate

/-- The gate after a run of blocks. -/
theorem captured_gate (blocks : List (List Sample)) :
    (∃ rb', (captured A st rb blocks).buffer = some rb') ∧
      (captured A st rb blocks).gate = gateState st.gateClosingTail (pastBlocks A st blocks) := by
  induction blocks using List.reverseRecOn with
  | nil => exact ⟨⟨rb, rfl⟩, rfl⟩
  | append_singleton blocks samples ih =>
    obtain ⟨⟨rb', hrb⟩, hstate⟩ := ih
    have hlast : captured A st rb (blocks ++ [samples]) =
        (onProcessInput A st (captured A st rb blocks) (some ⟨some samples⟩)).2 :=
      Machine.after_append _ _ blocks [samples]
    have hpast : pastBlocks A st (blocks ++ [samples]) =
        gateBlock A st samples :: pastBlocks A st blocks := by simp [pastBlocks]
    obtain ⟨hnext, hdone⟩ := onProcessInput_gate hconn hrb hgate samples
    rw [hlast, hpast, hnext, hstate]
    refine ⟨?_, rfl⟩
    split at hdone
    · exact ⟨rb', hdone.1.trans hrb⟩
    · obtain ⟨rb'', -, hwritten, -⟩ := hdone
      exact ⟨_, hwritten⟩

/-- The counter of a stream is bounded by the tail and its largest block. -/
theorem captured_tailCounter_le (htail : 0 ≤ st.gateClosingTail) {blocks : List (List Sample)} {size : ℕ}
    (hsize : ∀ samples ∈ blocks, samples.length ≤ size) :
    (captured A st rb blocks).tailCounter ≤ st.gateClosingTail + size := by
  have hstate := congrArg GateState.tailCounter (captured_gate hconn hgate rb blocks).2
  refine hstate.trans_le (gateState_tailCounter_le htail fun b hb => ?_)
  obtain ⟨samples, hmem, rfl⟩ := List.mem_map.mp (List.mem_reverse.mp hb)
  exact hsize samples hmem

end Run

end Callback

/-- Two exclusive outcomes of a test say whether another test agrees with it. -/
theorem branch_iff {q c r W R : Prop} [Decidable q] [Decidable c] [Decidable r]
    (hdone : if q ∧ c then W else R) (hexcl : R → ¬W) :
    (if q ∧ r then W else R) ↔ (q → (c ↔ r)) := by
  by_cases hq : q <;> by_cases hc : c <;> by_cases hr : r <;> simp_all

/-- The block is withheld if it is below the gate and the quiet run before it is longer than the tail,
and it is written otherwise. -/
def GatedByRun {F : Type} (A : FloatOps F) (st : StreamStatics F) (rb : URingBuffer)
    (before : List (List Sample)) (samples : List Sample) : Prop :=
  if (gateBlock A st samples).quiet ∧ st.gateClosingTail < quietRun (pastBlocks A st before) then
    Withholds A st (captured A st rb before) samples
  else Writes A st (captured A st rb before) samples

/-- The gate closes after a full tail of quiet, at every block of a run from a fresh stream, exactly if
pauses that were too short to close it never add up. -/
theorem gate_closes_after_tail_iff {F : Type} {A : FloatOps F} {st : StreamStatics F}
    (hconn : st.inStreamConnected) (hgate : A.isZero st.gateRMS = false) (rb : URingBuffer)
    (blocks : List (List Sample)) :
    (∀ i (_ : i < blocks.length), GatedByRun A st rb (blocks.take i) blocks[i]) ↔
      ∀ i (_ : i < blocks.length), (gateBlock A st blocks[i]).quiet →
        PausesApart st.gateClosingTail (pastBlocks A st (blocks.take i)) := by
  rw [← forall_pastBlocks_iff (P := fun b past => b.quiet → PausesApart st.gateClosingTail past),
    ← gate_decides_iff, forall_pastBlocks_iff (P := fun b past => b.quiet →
      (st.gateClosingTail < (gateState st.gateClosingTail past).tailCounter ↔
        st.gateClosingTail < quietRun past))]
  refine forall₂_congr fun i hi => ?_
  obtain ⟨⟨rb', hrb⟩, hstate⟩ := captured_gate hconn hgate rb (blocks.take i)
  obtain ⟨-, hdone⟩ := onProcessInput_gate hconn hrb hgate blocks[i]
  have hcounter : (captured A st rb (blocks.take i)).tailCounter =
      (gateState st.gateClosingTail (pastBlocks A st (blocks.take i))).tailCounter :=
    congrArg GateState.tailCounter hstate
  rw [hcounter] at hdone
  exact branch_iff hdone not_withholds_of_writes

/-- A meter that only tells sound from silence, with a tail of three samples. -/
def soundMeter : FloatOps Bool where
  zero := false
  isZero level := !level
  lt a b := !a && b
  amplify _ x := x
  rms samples := samples.any (· ≠ .zero)

def soundGate : StreamStatics Bool := ⟨true, 3, true, true, true, true⟩

def silence (n : ℕ) : List Sample := List.replicate n .zero

/-- Two blocks of silence close the gate for the third one. -/
theorem gate_closes_after_tail_silence :
    GatedByRun soundMeter soundGate (.ofSampleRate 16) [silence 2, silence 2] (silence 2) :=
  (@gate_closes_after_tail_iff Bool soundMeter soundGate rfl rfl (.ofSampleRate 16)
    [silence 2, silence 2, silence 2]).mpr (by decide +kernel) 2 (by decide)

/-- Three pauses of two samples, the first two ended by a sound: the third one is cut at once. -/
theorem gate_closes_after_short_pauses : ¬GatedByRun soundMeter soundGate (.ofSampleRate 16)
    [silence 2, [⟨1, 0, 0, 0⟩], silence 2, [⟨1, 0, 0, 0⟩]] (silence 2) := by
  obtain ⟨⟨rb, hrb⟩, hstate⟩ := @captured_gate Bool soundMeter soundGate rfl rfl (.ofSampleRate 16)
    [silence 2, [⟨1, 0, 0, 0⟩], silence 2, [⟨1, 0, 0, 0⟩]]
  obtain ⟨-, hdone⟩ := @onProcessInput_gate Bool soundMeter soundGate _ rb rfl hrb rfl (silence 2)
  have hcounter := congrArg GateState.tailCounter hstate
  have hquiet : (gateBlock soundMeter soundGate (silence 2)).quiet := by decide
  have hover : (3 : ℤ) < (captured soundMeter soundGate (.ofSampleRate 16)
      [silence 2, [⟨1, 0, 0, 0⟩], silence 2, [⟨1, 0, 0, 0⟩]]).tailCounter :=
    lt_of_lt_of_eq (by decide) hcounter.symm
  rw [if_pos ⟨hquiet, hover⟩] at hdone
  intro h
  unfold GatedByRun at h
  rw [if_neg (by decide)] at h
  exact not_withholds_of_writes h hdone

end UwavClient
