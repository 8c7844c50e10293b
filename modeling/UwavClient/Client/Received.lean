import UwavClient.Ring.Source
import UwavClient.Client.Capture
import UwavClient.Client.Slots

/-!
# Received audio (`onSamplesReceived`)

The sample count of an `AUDIO_OUT` message is compared with the chunk length, never with the length of
the samples. Only what the server sent is played exactly when the samples it sent fill the chunk that
the buffer takes.
-/

namespace UwavClient

open Program Slot ExceptT

/-- A block handed to the output buffer is read inside the data received, and only samples from there
are appended. -/
def PlaysReceived {slots : ℕ} (prefill : ℕ) (q : PacedQueue Sample slots) (e : ClientOp)
    (a : AudioProvider) : Prop :=
  ∀ data n rb, e = .writeRawData data n → a.output.data.buffer = some rb →
    Ring.ReadsWithin (Ring.writeRawData rb.toRingLayout data n) rb ∧
      ∃ (q' : PacedQueue Sample slots) (received : List Sample),
        Represents prefill (rb.writeRawData data n) q' ∧ q'.items = q.items ++ received ∧
          encode received <+: data

/-- Where the message is taken for a chunk and the buffer has room for it, its samples fill it. -/
def FillsChunk (fields : List (String × Message)) (c : UwaVClient) (a : AudioProvider) : Prop :=
  ∀ data rb, c.serverStarted → a.output.connected →
    audioOutFields fields = .ok (c.numOutputSamplesPerChunk, some data) →
    0 < c.numOutputSamplesPerChunk → a.output.data.buffer = some rb →
    rb.writeAheadWindow + c.numOutputSamplesPerChunk ≤ rb.bufferSize →
    4 * c.numOutputSamplesPerChunk ≤ data.length

section Playing

variable {slots prefill : ℕ} {q : PacedQueue Sample slots} {rb : URingBuffer} {data : Bytes} {n : ℕ}

theorem Represents.writeRawData_of_lt (h : Represents prefill rb q)
    (hroom : slots < q.items.length + n) : Represents prefill (rb.writeRawData data n) q := by
  obtain ⟨rb', hc⟩ : ∃ rb', (Ring.countSinceWarn rb.toRingLayout .writesSinceLastWarn n).run
    ringHandler rb = ((), rb') := ⟨_, rfl⟩
  have h' := h.countSinceWarn rb.toRingLayout .writesSinceLastWarn n (.inr rfl)
  rw [hc] at h'
  change Represents prefill rb' q at h'
  have hw := h'.window
  rw [URingBuffer.writeRawData, URingBuffer.call, Ring.run_writeRawData _ _ _ hc, Ring.runWrite,
    h.bufferSize, if_neg (by omega)]
  exact h'.warnLimited _ _ _ (.inr rfl)

theorem blockSamples_prefix (h : 4 * n ≤ data.length) : encode (blockSamples data n) <+: data := by
  rw [encode_blockSamples h]
  exact List.take_prefix _ _

theorem playsReceived_iff (a : AudioProvider) (hn : 0 < n)
    (hbuf : ∀ rb, a.output.data.buffer = some rb → Represents prefill rb q) :
    PlaysReceived prefill q (.writeRawData data n) a ↔
      ∀ rb, a.output.data.buffer = some rb → rb.writeAheadWindow + n ≤ rb.bufferSize →
        4 * n ≤ data.length := by
  constructor
  · intro hplays rb hrb hroom
    have h := hbuf rb hrb
    have hw := h.window
    have hsize := h.bufferSize
    exact (h.readsWithin_writeRawData_iff hn).mp (hplays data n rb rfl hrb).1 (by omega)
  · rintro hfills data' n' rb ⟨⟩ hrb
    have h := hbuf rb hrb
    have hw := h.window
    have hsize := h.bufferSize
    refine ⟨(h.readsWithin_writeRawData_iff hn).mpr fun hroom => hfills rb hrb (by omega), ?_⟩
    rcases Nat.lt_or_ge slots (q.items.length + n) with hroom | hroom
    · exact ⟨q, [], h.writeRawData_of_lt hroom, (List.append_nil _).symm, List.nil_prefix⟩
    · have hlen := hfills rb hrb (by omega)
      refine ⟨_, blockSamples data n, h.writeRawData (by omega) hlen, ?_, blockSamples_prefix hlen⟩
      exact (q.write_of_le prefill _ (by rw [length_blockSamples hlen]; omega)).1

end Playing

theorem along_writeRawData {w : World} {φ : ClientOp → AudioProvider → Prop} {data : Bytes} {n : ℤ}
    {a : AudioProvider} :
    Along (ClientOp.perform w) φ (Slot.writeRawData data n).run a ↔ φ (.writeRawData data n) a := by
  refine (ExceptT.along_bind (p := Slot.ask (.writeRawData data n))).trans ⟨fun h => h.1.1, fun h => ?_⟩
  refine ⟨⟨h, trivial⟩, fun r t _ => ?_⟩
  cases r <;> trivial

/-- The only operation that can go wrong is handing the samples over. -/
theorem along_onSamplesReceived {w : World} {φ : ClientOp → AudioProvider → Prop}
    (hφ : ∀ e b, (∀ data n, e ≠ .writeRawData data n) → φ e b) (fields : List (String × Message))
    (c : UwaVClient) (a : AudioProvider) :
    Along (ClientOp.perform w) φ (onSamplesReceived (.object fields) c).run a ↔
      ∀ data, c.serverStarted → a.output.connected →
        audioOutFields fields = .ok (c.numOutputSamplesPerChunk, some data) →
        0 < c.numOutputSamplesPerChunk → φ (.writeRawData data c.numOutputSamplesPerChunk) a := by
  unfold onSamplesReceived
  cases hstarted : c.serverStarted with
  | false => simp
  | true =>
    rw [Bool.not_true, if_neg Bool.false_ne_true, ExceptT.along_bind]
    refine (and_iff_right ?_).trans ?_
    · exact ⟨hφ _ _ (by simp), trivial⟩
    have hop : (connected .output).runOn (ClientOp.perform w) a = (.ok a.output.connected, a) := rfl
    rw [hop]
    refine Iff.trans ⟨fun h => h _ _ rfl, fun h x t ht => by cases ht; exact h⟩ ?_
    cases hconn : a.output.connected with
    | false => simp
    | true =>
      simp only [Message.getMap, Slot.ofExcept, pure_bind, Bool.not_true, Bool.false_eq_true, if_false,
        true_implies]
      rcases audioOutFields fields with fault | ⟨count, _ | data⟩
      · exact ⟨fun _ _ h => (by cases h), fun _ => trivial⟩
      · simp
      · simp only [pure_bind, Except.ok.injEq, Prod.mk.injEq, Option.some.injEq]
        split_ifs with hle hne
        · exact ⟨fun _ _ h => by omega, fun _ => trivial⟩
        · refine ⟨fun _ _ h => absurd h.1 hne, fun _ => ?_⟩
          exact ⟨hφ _ _ (by simp), hφ _ _ (by simp), trivial⟩
        · obtain rfl : count = c.numOutputSamplesPerChunk := not_not.mp hne
          refine ⟨fun h _ hd _ => hd.2 ▸ h.1, fun h => ?_⟩
          exact ExceptT.along_bind.mpr ⟨along_writeRawData.mpr (h data ⟨rfl, rfl⟩ (by omega)),
            fun _ _ _ => trivial⟩

section Claim

variable {slots prefill : ℕ} {q : PacedQueue Sample slots}

/-- For every `AUDIO_OUT` object, only received samples are read and appended exactly when those that
are handed over fill the chunk. -/
theorem only_received_played_iff (w : World) (fields : List (String × Message)) (c : UwaVClient)
    (a : AudioProvider) (hbuf : ∀ rb, a.output.data.buffer = some rb → Represents prefill rb q) :
    Along (ClientOp.perform w) (PlaysReceived prefill q) (onSamplesReceived (.object fields) c).run a ↔
      FillsChunk fields c a := by
  rw [along_onSamplesReceived fun e b he data n rb h => absurd h (he data n)]
  refine forall_congr' fun data => ?_
  constructor
  · intro hplays rb hstarted hconn hfields hpos
    have hwrite := hplays hstarted hconn hfields hpos
    obtain ⟨n, hn⟩ := Int.eq_ofNat_of_zero_le hpos.le
    rw [hn] at hwrite hpos ⊢
    have := (playsReceived_iff a (by omega) hbuf).mp hwrite rb
    exact_mod_cast this
  · intro hfills hstarted hconn hfields hpos
    have hlen := fun rb => hfills rb hstarted hconn hfields hpos
    obtain ⟨n, hn⟩ := Int.eq_ofNat_of_zero_le hpos.le
    rw [hn] at hlen hpos ⊢
    exact (playsReceived_iff a (by omega) hbuf).mpr (by exact_mod_cast hlen)

end Claim

/-- The provider once its output stream streams at this rate. -/
def AudioProvider.playing (sampleRate : ℕ) : AudioProvider :=
  { output := { stream := true, data := .ofSampleRate sampleRate, connected := true } }

/-- A started session whose output chunks are one sample long. -/
def singleOutput : UwaVClient := { serverStarted := true, numOutputSamplesPerChunk := 1 }

/-- An `AUDIO_OUT` message of one sample with this payload. -/
def audioOut (payload : Bytes) : List (String × Message) :=
  [("sample_count", .integer 1), ("samples", .binary payload)]

theorem represents_playing {rb : URingBuffer}
    (h : (AudioProvider.playing 48000).output.data.buffer = some rb) :
    Represents (URingBuffer.prefillFor (48000 : ℕ)) rb
      (.empty : PacedQueue Sample (URingBuffer.slotsFor (48000 : ℕ))) := by
  obtain rfl := Option.some.inj h
  exact URingBuffer.represents_ofSampleRate (by decide)

theorem only_received_played_of_four_bytes :
    Along (ClientOp.perform .online)
      (PlaysReceived (URingBuffer.prefillFor (48000 : ℕ))
        (.empty : PacedQueue Sample (URingBuffer.slotsFor (48000 : ℕ))))
      (onSamplesReceived (.object (audioOut [0, 0, 0, 0])) singleOutput).run (.playing 48000) := by
  refine (only_received_played_iff .online _ singleOutput _ fun _ => represents_playing).mpr ?_
  rintro data rb - - hfields - - -
  obtain rfl : [0, 0, 0, 0] = data :=
    Option.some.inj (congrArg Prod.snd (Except.ok.inj hfields))
  decide

/-- A message that announces one sample and brings none: four bytes behind its payload are read. -/
theorem unreceived_played_of_no_bytes :
    ¬ Along (ClientOp.perform .online)
      (PlaysReceived (URingBuffer.prefillFor (48000 : ℕ))
        (.empty : PacedQueue Sample (URingBuffer.slotsFor (48000 : ℕ))))
      (onSamplesReceived (.object (audioOut [])) singleOutput).run (.playing 48000) := by
  rw [along_onSamplesReceived fun e b he data n rb h => absurd h (he data n)]
  intro hplays
  have hwrite := hplays [] rfl rfl rfl Int.one_pos
  have := (playsReceived_iff (n := 1) _ Nat.one_pos fun _ => represents_playing).mp hwrite _ rfl
    (by decide)
  exact absurd this (by decide)

end UwavClient
