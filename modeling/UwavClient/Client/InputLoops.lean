import Mathlib.Data.Nat.Count
import UwavClient.Client.Capture
import UwavClient.Client.Slots

/-!
# The loops of `onInputBufferWrite`

Both loops go round until the level of the buffer is low enough. The one that sends takes a chunk out
only when the socket answers that it is open, so it ends exactly when that answer comes often enough.
The one that discards takes out as much as the chunk length says, which may be nothing.
-/

namespace UwavClient

open Slot ExceptT

/-- The provider, what `sioClient.opened()` will answer, and the payloads sent so far. -/
structure SendRun where
  audio : AudioProvider
  answers : ℕ → Bool
  sent : List Bytes := []

def SendRun.handler (w : World) : Handler ClientOp ClientOp.Answer SendRun
  | .opened, s => (s.answers 0, { s with answers := fun i => s.answers (i + 1) })
  | .emit (.audioIn samples), s => ((), { s with sent := s.sent ++ [samples] })
  | e, s => ((e.perform w s.audio).1, { s with audio := (e.perform w s.audio).2 })

/-- An operation that leaves the socket alone. -/
@[simp] def ClientOp.Local : ClientOp → Prop
  | .opened | .emit _ => False
  | _ => True

/-- The queue went out in payloads of `k` samples, except for less than `k` of them. -/
structure SentChunks (k : ℕ) (q rest : List Sample) (sent : List Bytes) : Prop where
  payload : ∀ p ∈ sent, p.length = 4 * k
  order : sent.flatten ++ encode rest = encode q
  count : sent.length = q.length / k
  remaining : rest.length < k

theorem SentChunks.nil {k : ℕ} {q : List Sample} (h : q.length < k) : SentChunks k q q [] :=
  ⟨nofun, rfl, (Nat.div_eq_of_lt h).symm, h⟩

theorem SentChunks.cons {k : ℕ} {q rest : List Sample} {sent : List Bytes} (hpos : 0 < k)
    (hk : k ≤ q.length) (h : SentChunks k (q.drop k) rest sent) :
    SentChunks k q rest (encode (q.take k) :: sent) where
  payload p hp := by
    rcases List.mem_cons.mp hp with rfl | hp
    · rw [length_encode, List.length_take, Nat.min_eq_left hk]
    · exact h.payload p hp
  order := by
    rw [List.flatten_cons, List.append_assoc, h.order, ← encode_append, List.take_append_drop]
  count := by
    rw [List.length_cons, h.count, List.length_drop, Nat.div_eq_sub_div hpos hk]
  remaining := h.remaining

namespace SendRun

variable {α : Type} {w : World}

theorem runOn_local {p : Slot α} (hp : p.Ensures ClientOp.Local fun _ => True) (s : SendRun) :
    p.runOn (handler w) s = ((p.exec w s.audio).1, { s with audio := (p.exec w s.audio).2 }) := by
  refine runOn_part audio (fun a s => { s with audio := a }) (fun _ _ => rfl) (fun _ _ _ => rfl)
    (fun _ => rfl) (fun e s he => ?_) hp s
  cases e with
  | opened => exact he.elim
  | emit m => exact he.elim
  | _ => rfl

theorem runOn_opened (s : SendRun) : Slot.opened.runOn (handler w) s =
    (.ok (s.answers 0), { s with answers := fun i => s.answers (i + 1) }) := rfl

theorem runOn_connected (dir : Direction) (s : SendRun) : (connected dir).runOn (handler w) s =
    (.ok (s.audio.endpoint dir).connected, s) := rfl

variable {slots prefill k : ℕ} {q : PacedQueue Sample slots} {s : SendRun}

theorem runOn_getWriteAheadLength (h : Capturing prefill q s.audio) :
    ∃ a, Slot.getWriteAheadLength.runOn (handler w) s =
        (.ok (q.items.length : ℤ), { s with audio := a }) ∧ Capturing prefill q a := by
  obtain ⟨a, ha, hcap⟩ := h.exec_getWriteAheadLength (w := w)
  refine ⟨a, ?_, hcap⟩
  rw [runOn_local (by simp), ha]

/-- A chunk is sent if the socket is open; otherwise nothing happens. -/
theorem runOn_emitSamples (h : Capturing prefill q s.audio) (hs : 0 < slots)
    (hk : k ≤ q.items.length) :
    ∃ a, (emitSamples k).runOn (handler w) s = (.ok (), {
        audio := a
        answers := fun i => s.answers (i + 1)
        sent := if s.answers 0 then s.sent ++ [encode (q.items.take k)] else s.sent }) ∧
      Capturing prefill (if s.answers 0 then q.dropRaw k else q) a := by
  rw [emitSamples, runOn_bind, runOn_opened]
  dsimp only
  cases hopen : s.answers 0 with
  | false => exact ⟨s.audio, rfl, h⟩
  | true =>
    obtain ⟨a, ha, hcap⟩ := h.exec_readRawData (w := w) hs hk
    refine ⟨a, ?_, hcap⟩
    rw [if_pos rfl, runOn_bind, runOn_local (by simp), ha]
    rfl

/-- Below a chunk the loop ends and sends nothing. -/
theorem runOn_sendChunks_of_lt (h : Capturing prefill q s.audio) (hk : q.items.length < k)
    (fuel : ℕ) : ∃ t, (sendChunks k (fuel + 1)).runOn (handler w) s = (.ok (), t) ∧
      Capturing prefill q t.audio ∧ t.sent = s.sent := by
  obtain ⟨a, ha, hcap⟩ := runOn_getWriteAheadLength (w := w) h
  refine ⟨{ s with audio := a }, ?_, hcap, rfl⟩
  rw [sendChunks, runOn_bind, ha]
  dsimp only
  rw [if_neg (by exact_mod_cast Nat.not_le.mpr hk)]
  rfl

/-- One round of the loop. -/
theorem runOn_sendChunks_of_le (h : Capturing prefill q s.audio) (hs : 0 < slots)
    (hk : k ≤ q.items.length) :
    ∃ t : SendRun, Capturing prefill (if s.answers 0 then q.dropRaw k else q) t.audio ∧
      (∀ i, t.answers i = s.answers (i + 1)) ∧
      t.sent = (if s.answers 0 then s.sent ++ [encode (q.items.take k)] else s.sent) ∧
      ∀ fuel, (sendChunks k (fuel + 1)).runOn (handler w) s =
        (sendChunks k fuel).runOn (handler w) t := by
  obtain ⟨a₁, h₁, hcap₁⟩ := runOn_getWriteAheadLength (w := w) h
  obtain ⟨rate, a₂, h₂, hcap₂⟩ := hcap₁.exec_bufferRate (w := w)
  obtain ⟨a₃, h₃, hcap₃⟩ :=
    runOn_emitSamples (w := w) (s := { s with audio := a₂ }) hcap₂ hs hk
  refine ⟨{
    audio := a₃
    answers := fun i => s.answers (i + 1)
    sent := if s.answers 0 then s.sent ++ [encode (q.items.take k)] else s.sent },
    hcap₃, fun _ => rfl, rfl, fun fuel => ?_⟩
  rw [sendChunks, runOn_bind, h₁]
  dsimp only
  rw [if_pos (by exact_mod_cast hk), runOn_bind, runOn_local (by simp), h₂]
  dsimp only
  rw [runOn_bind, h₃]

/-- The loop ends once the socket has been open for every whole chunk. -/
theorem runOn_sendChunks_of_count {n : ℕ} (h : Capturing prefill q s.audio) (hpos : 0 < k)
    (hn : q.items.length / k ≤ Nat.count (s.answers · = true) n) :
    ∃ fuel t, (sendChunks k fuel).runOn (handler w) s = (.ok (), t) ∧
      ∃ (q' : PacedQueue Sample slots) (sent : List Bytes), Capturing prefill q' t.audio ∧
        t.sent = s.sent ++ sent ∧ SentChunks k q.items q'.items sent := by
  induction n generalizing q s with
  | zero =>
    have hlt : q.items.length < k := by
      rw [Nat.count_zero, Nat.le_zero, Nat.div_eq_zero_iff] at hn
      omega
    obtain ⟨t, ht, hcap, hsent⟩ := runOn_sendChunks_of_lt (w := w) h hlt 0
    exact ⟨1, t, ht, q, [], hcap, by rw [hsent, List.append_nil], .nil hlt⟩
  | succ n ih =>
    rcases Nat.lt_or_ge q.items.length k with hlt | hle
    · exact ih h (by rw [Nat.div_eq_of_lt hlt]; exact Nat.zero_le _)
    · have hs : 0 < slots := hpos.trans_le (hle.trans q.bounded)
      obtain ⟨s', hcap, hanswers, hsent', step⟩ := runOn_sendChunks_of_le (w := w) h hs hle
      rw [Nat.count_succ'] at hn
      simp only [← hanswers] at hn
      cases hopen : s.answers 0 with
      | false =>
        rw [hopen] at hn hcap hsent'
        obtain ⟨fuel, t, ht, hsent⟩ := ih hcap hn
        rw [hsent'] at hsent
        exact ⟨fuel + 1, t, (step fuel).trans ht, hsent⟩
      | true =>
        rw [hopen, if_pos rfl] at hn hcap hsent'
        have hrest : (q.dropRaw k).items.length / k ≤ Nat.count (s'.answers · = true) n := by
          rw [PacedQueue.dropRaw_items, List.length_drop]
          rw [Nat.div_eq_sub_div hpos hle] at hn
          omega
        obtain ⟨fuel, t, ht, q', sent, hcap', hsent, hchunks⟩ := ih hcap hrest
        refine ⟨fuel + 1, t, (step fuel).trans ht, q', encode (q.items.take k) :: sent, hcap', ?_,
          hchunks.cons hpos hle⟩
        rw [hsent, hsent', List.append_assoc, List.singleton_append]

/-- The loop does not end before that. -/
theorem count_of_runOn_sendChunks {fuel : ℕ} {t : SendRun} (h : Capturing prefill q s.audio)
    (hpos : 0 < k) (ht : (sendChunks k fuel).runOn (handler w) s = (.ok (), t)) :
    ∃ n, q.items.length / k ≤ Nat.count (s.answers · = true) n := by
  induction fuel generalizing q s with
  | zero => cases ht
  | succ fuel ih =>
    rcases Nat.lt_or_ge q.items.length k with hlt | hle
    · exact ⟨0, by rw [Nat.div_eq_of_lt hlt]; exact Nat.zero_le _⟩
    · have hs : 0 < slots := hpos.trans_le (hle.trans q.bounded)
      obtain ⟨s', hcap, hanswers, -, step⟩ := runOn_sendChunks_of_le (w := w) h hs hle
      obtain ⟨n, hn⟩ := ih hcap ((step fuel).symm.trans ht)
      refine ⟨n + 1, ?_⟩
      rw [Nat.count_succ']
      simp only [← hanswers]
      cases hopen : s.answers 0 with
      | false =>
        rw [hopen] at hn
        exact hn
      | true =>
        rw [hopen, if_pos rfl, PacedQueue.dropRaw_items, List.length_drop] at hn
        rw [if_pos rfl, Nat.div_eq_sub_div hpos hle]
        omega

end SendRun

section Send

variable {slots prefill k : ℕ} {q : PacedQueue Sample slots} {a : AudioProvider} {c : UwaVClient}

theorem runOn_onInputBufferWrite (w : World) {s : SendRun} (h : Capturing prefill q s.audio)
    (hstarted : c.serverStarted) (hchunk : c.numInputSamplesPerChunk = k) (hpos : 0 < k) (fuel : ℕ) :
    (onInputBufferWrite fuel c).runOn (SendRun.handler w) s =
      (sendChunks k fuel).runOn (SendRun.handler w) s := by
  have hconn : (s.audio.endpoint .input).connected = true := h.connected
  rw [onInputBufferWrite, runOn_bind, SendRun.runOn_connected, hconn]
  dsimp only
  rw [if_pos rfl, hchunk, if_pos ⟨hstarted, by omega⟩]

/-- In a started session `onInputBufferWrite` returns, with whole chunks sent from the front of the
queue and the rest left in it, exactly when the socket is open for every whole chunk. -/
theorem sends_whole_chunks_iff (w : World) (h : Capturing prefill q a) (hstarted : c.serverStarted)
    (hchunk : c.numInputSamplesPerChunk = k) (hpos : 0 < k) (answers : ℕ → Bool) :
    (∃ fuel t, (onInputBufferWrite fuel c).runOn (SendRun.handler w) ⟨a, answers, []⟩ = (.ok (), t) ∧
      ∃ q' : PacedQueue Sample slots, Capturing prefill q' t.audio ∧
        (∀ p ∈ t.sent, p.length = 4 * k) ∧ t.sent.flatten ++ encode q'.items = encode q.items ∧
        ((∀ i, answers i) → t.sent.length = q.items.length / k ∧ q'.items.length < k)) ↔
      ∃ n, q.items.length / k ≤ Nat.count (answers · = true) n := by
  simp only [runOn_onInputBufferWrite w (s := ⟨a, answers, []⟩) h hstarted hchunk hpos]
  constructor
  · rintro ⟨fuel, t, ht, -⟩
    exact SendRun.count_of_runOn_sendChunks (s := ⟨a, answers, []⟩) h hpos ht
  · rintro ⟨n, hn⟩
    obtain ⟨fuel, t, ht, q', sent, hcap, hsent, hchunks⟩ :=
      SendRun.runOn_sendChunks_of_count (w := w) (s := ⟨a, answers, []⟩) h hpos hn
    obtain rfl : t.sent = sent := hsent
    exact ⟨fuel, t, ht, q', hcap, hchunks.payload, hchunks.order,
      fun _ => ⟨hchunks.count, hchunks.remaining⟩⟩

def fiveSamples : List Sample := [1, 2, 3, 4, 5].map fun b => ⟨b, 0, 0, 0⟩

def fiveBuffered : PacedQueue Sample (URingBuffer.slotsFor (48000 : ℕ)) :=
  PacedQueue.empty.write (URingBuffer.prefillFor (48000 : ℕ)) fiveSamples

def chunksOfTwo : UwaVClient := { serverStarted := true, numInputSamplesPerChunk := 2 }

def AudioProvider.capturedFive : AudioProvider :=
  (AudioProvider.capturing 48000).processInput plainFloats ⟨(), (), ()⟩ (some ⟨some fiveSamples⟩)

theorem fiveBuffered_items : fiveBuffered.items = fiveSamples := by
  unfold fiveBuffered
  rw [(PacedQueue.empty.write_of_le _ fiveSamples (by rw [slotsFor_48000]; decide)).1]
  rfl

theorem capturing_fiveBuffered :
    Capturing (URingBuffer.prefillFor (48000 : ℕ)) fiveBuffered .capturedFive :=
  (Capturing.ofSampleRate 48000 (by decide)).processInput plainFloats ⟨(), (), ()⟩
    (by rw [slotsFor_48000]; decide) rfl fiveSamples

/-- Two chunks are sent and one sample is left. -/
theorem sends_whole_chunks_while_open :
    ∃ fuel t, (onInputBufferWrite fuel chunksOfTwo).runOn (SendRun.handler .online)
        ⟨.capturedFive, fun _ => true, []⟩ = (.ok (), t) ∧ t.sent.length = 2 ∧
      (∀ p ∈ t.sent, p.length = 8) := by
  obtain ⟨fuel, t, ht, q, -, hlength, -, hall⟩ :=
    (sends_whole_chunks_iff (k := 2) (c := chunksOfTwo) .online capturing_fiveBuffered rfl rfl
      Nat.two_pos fun _ => true).mpr ⟨2, by rw [fiveBuffered_items]; decide⟩
  refine ⟨fuel, t, ht, ?_, hlength⟩
  have hcount := (hall fun _ => rfl).1
  rwa [fiveBuffered_items] at hcount

/-- A closed socket and two chunks in the buffer: the loop goes round for ever. -/
theorem send_loop_endless_while_closed :
    ¬ ∃ fuel t, (onInputBufferWrite fuel chunksOfTwo).runOn (SendRun.handler .online)
        ⟨.capturedFive, fun _ => false, []⟩ = (.ok (), t) := by
  rintro ⟨fuel, t, ht⟩
  have hcap : Capturing _ fiveBuffered (SendRun.mk .capturedFive (fun _ => false) []).audio :=
    capturing_fiveBuffered
  rw [runOn_onInputBufferWrite (k := 2) .online hcap rfl rfl Nat.two_pos] at ht
  obtain ⟨n, hn⟩ := SendRun.count_of_runOn_sendChunks hcap Nat.two_pos ht
  simp [fiveBuffered_items, fiveSamples] at hn

end Send

section Discard

variable {slots prefill n : ℕ} {q : PacedQueue Sample slots} {a : AudioProvider} {c : UwaVClient}
  {w : World}

/-- At most a chunk: the loop ends. -/
theorem Capturing.exec_discardChunks_of_le (h : Capturing prefill q a) (hn : q.items.length ≤ n)
    (fuel : ℕ) :
    ∃ b, (discardChunks n (fuel + 1)).exec w a = (.ok (), b) ∧ Capturing prefill q b := by
  obtain ⟨b, hb, hcap⟩ := h.exec_getWriteAheadLength (w := w)
  refine ⟨b, ?_, hcap⟩
  rw [discardChunks, exec_bind, hb]
  dsimp only
  rw [if_neg (by exact_mod_cast Nat.not_lt.mpr hn)]
  rfl

/-- One round of the loop drops a chunk from the front. -/
theorem Capturing.exec_discardChunks_of_lt (h : Capturing prefill q a) (hn : n < q.items.length) :
    ∃ b, Capturing prefill (q.dropPaced n) b ∧
      ∀ fuel, (discardChunks n (fuel + 1)).exec w a = (discardChunks n fuel).exec w b := by
  obtain ⟨a₁, h₁, hcap₁⟩ := h.exec_getWriteAheadLength (w := w)
  have hdrop : ∀ rb, Represents prefill rb q →
      () = () ∧ Represents prefill (rb.discardSamples n) (q.dropPaced n) := by
    intro rb hrep
    have hd := hrep.discardSamples n
    rw [PacedQueue.discard, if_pos hn.le] at hd
    exact ⟨rfl, hd⟩
  obtain ⟨b, hb, hcap⟩ := hcap₁.callBuffer (fun rb => ((), rb.discardSamples n)) hdrop
  refine ⟨b, hcap, fun fuel => ?_⟩
  rw [discardChunks, exec_bind, h₁]
  dsimp only
  rw [if_pos (by exact_mod_cast hn), exec_bind,
    show (Slot.discardSamples n).exec w a₁ = (.ok (), b) from
      exec_ofExcept_ask w (.discardSamples n) id hb]

/-- The loop ends when each round drops something, and leaves the end of the queue. -/
theorem Capturing.exec_discardChunks (h : Capturing prefill q a) (hpos : 0 < n) {fuel : ℕ}
    (hfuel : q.items.length < fuel) :
    ∃ b, (discardChunks n fuel).exec w a = (.ok (), b) ∧ ∃ q' : PacedQueue Sample slots,
      Capturing prefill q' b ∧ q'.items.length ≤ n ∧ q'.items <:+ q.items := by
  induction fuel generalizing a q with
  | zero => omega
  | succ fuel ih =>
    rcases Nat.lt_or_ge n q.items.length with hlt | hle
    · obtain ⟨a₁, hcap₁, step⟩ := h.exec_discardChunks_of_lt (w := w) hlt
      obtain ⟨b, hb, q', hcap, hlen, hsuffix⟩ := ih hcap₁ (by
        rw [PacedQueue.dropPaced_items, List.length_drop]
        omega)
      exact ⟨b, (step fuel).trans hb, q', hcap, hlen, hsuffix.trans (List.drop_suffix n _)⟩
    · obtain ⟨b, hb, hcap⟩ := h.exec_discardChunks_of_le (w := w) hle fuel
      exact ⟨b, hb, q, hcap, hle, List.suffix_refl _⟩

/-- With an empty chunk the loop never ends while there is anything in the buffer. -/
theorem Capturing.exec_discardChunks_zero (h : Capturing prefill q a) (hq : q.items ≠ []) (fuel : ℕ)
    (b : AudioProvider) : (discardChunks 0 fuel).exec w a ≠ (.ok (), b) := by
  induction fuel generalizing a q with
  | zero => exact fun hb => by cases hb
  | succ fuel ih =>
    obtain ⟨a₁, hcap₁, step⟩ :=
      h.exec_discardChunks_of_lt (w := w) (List.length_pos_iff.mpr hq)
    rw [← Nat.cast_zero, step fuel]
    exact ih hcap₁ (by rwa [PacedQueue.dropPaced_items, List.drop_zero])

theorem Capturing.exec_onInputBufferWrite_waiting (h : Capturing prefill q a)
    (hwait : c.serverStarted = false ∨ c.numInputSamplesPerChunk = 0) (fuel : ℕ) :
    (onInputBufferWrite fuel c).exec w a =
      (discardChunks c.numInputSamplesPerChunk fuel).exec w a := by
  have hconn : (a.endpoint .input).connected = true := h.connected
  rw [onInputBufferWrite, exec_bind, exec_connected, hconn]
  dsimp only
  rw [if_pos rfl, if_neg]
  rintro ⟨hstarted, hchunk⟩
  rcases hwait with hw | hw
  · rw [hstarted] at hw
    cases hw
  · exact hchunk hw

/-- Until the server has confirmed its start, `onInputBufferWrite` returns with at most a chunk of
the latest samples left exactly when the chunk length is known or nothing is buffered. -/
theorem discards_to_chunk_iff (w : World) (h : Capturing prefill q a)
    (hwait : c.serverStarted = false ∨ c.numInputSamplesPerChunk = 0)
    (hn : c.numInputSamplesPerChunk = n) :
    (∃ fuel b, (onInputBufferWrite fuel c).exec w a = (.ok (), b) ∧
      ∃ q' : PacedQueue Sample slots, Capturing prefill q' b ∧ q'.items.length ≤ n ∧
        q'.items <:+ q.items) ↔
      0 < n ∨ q.items = [] := by
  simp only [h.exec_onInputBufferWrite_waiting hwait, hn]
  constructor
  · rintro ⟨fuel, b, hb, -⟩
    by_contra! hempty
    obtain rfl : n = 0 := Nat.le_zero.mp hempty.1
    exact h.exec_discardChunks_zero hempty.2 fuel b hb
  · rintro (hpos | hempty)
    · exact ⟨_, h.exec_discardChunks hpos (Nat.lt_succ_self _)⟩
    · have hle : q.items.length ≤ n := by rw [hempty]; exact Nat.zero_le n
      obtain ⟨b, hb, hcap⟩ := h.exec_discardChunks_of_le (w := w) hle 0
      exact ⟨1, b, hb, q, hcap, hle, List.suffix_refl _⟩

theorem discards_to_chunk_of_two : ∃ fuel b, (onInputBufferWrite fuel
    { numInputSamplesPerChunk := 2 }).exec .online .capturedFive = (.ok (), b) ∧
      ∃ q' : PacedQueue Sample (URingBuffer.slotsFor (48000 : ℕ)),
        Capturing (URingBuffer.prefillFor (48000 : ℕ)) q' b ∧ q'.items.length ≤ 2 ∧
          q'.items <:+ fiveSamples := by
  obtain ⟨fuel, b, hb, q', hcap, hle, hlatest⟩ :=
    (discards_to_chunk_iff (n := 2) (c := { numInputSamplesPerChunk := 2 }) .online
      capturing_fiveBuffered (.inl rfl) rfl).mpr (.inl Nat.two_pos)
  exact ⟨fuel, b, hb, q', hcap, hle, fiveBuffered_items ▸ hlatest⟩

/-- Samples captured before `streamStarted` is handled: the loop goes round for ever. -/
theorem discard_loop_endless_without_chunk : ¬ ∃ fuel b,
    (onInputBufferWrite fuel {}).exec .online .capturedFive = (.ok (), b) := by
  rintro ⟨fuel, b, hb⟩
  rw [capturing_fiveBuffered.exec_onInputBufferWrite_waiting (.inl rfl)] at hb
  refine capturing_fiveBuffered.exec_discardChunks_zero ?_ fuel b hb
  rw [fiveBuffered_items]
  exact List.cons_ne_nil _ _

end Discard

end UwavClient
