import UwavClient.Socket.Delivery

/-!
# A packet that waits for its buffers

While a packet waits, `put_payload` does not look at what arrives: texts are buffers too. This module
follows the packet that waits through every run of payloads, whatever they are.
-/

namespace UwavClient

open Json (DoubleCodec)

variable {w : DoubleCodec UInt64}

/-- A packet that waits has the text of its message, and perhaps buffers. -/
def AwaitsBuffers (p : Packet) : Prop :=
  p.frame = Packet.frameMessage ∧ p.hasBinaryType ∧ p.buffers ≠ []

/-- Only a packet with buffers to come is kept. -/
def KeepsAwaiting (r : Except Crash (Packet × Bool)) : Prop := ∀ p, r = .ok (p, true) → AwaitsBuffers p

theorem keepsAwaiting_of_false (p : Packet) : KeepsAwaiting (.ok (p, false)) := nofun

theorem keepsAwaiting_parseMessage (payload : Text) (pos jsonPos : ℕ) (p : Packet) :
    KeepsAwaiting (Packet.parseMessage w payload pos jsonPos p) := by
  intro q hq
  unfold Packet.parseMessage at hq
  cases hid : Packet.parsePackId payload pos jsonPos with
  | error e =>
    rw [hid] at hq
    cases hq
  | ok packId =>
    rw [hid, Json.ok_bind] at hq
    dsimp only at hq
    split at hq
    next hbinary =>
      obtain ⟨rfl, -⟩ := Prod.mk.inj (Except.ok.inj hq)
      exact ⟨hbinary.1, hbinary.2, List.cons_ne_nil _ _⟩
    next =>
      cases hdoc : parseDocument w (payload.drop jsonPos) with
      | error e =>
        rw [hdoc] at hq
        cases hq
      | ok doc =>
        rw [hdoc, Json.ok_bind] at hq
        cases hmessage : fromJson [] doc with
        | error e =>
          rw [hmessage] at hq
          cases hq
        | ok message =>
          rw [hmessage] at hq
          cases hq

theorem keepsAwaiting_parseNamespace (payload : Text) (pos : ℕ) (p : Packet) :
    KeepsAwaiting (Packet.parseNamespace w payload pos p) := by
  unfold Packet.parseNamespace
  split
  next => exact keepsAwaiting_of_false _
  next =>
    split
    · split
      next => exact keepsAwaiting_of_false _
      next =>
        dsimp only
        split
        · exact keepsAwaiting_of_false _
        · exact keepsAwaiting_parseMessage _ _ _ _
    · exact keepsAwaiting_parseMessage _ _ _ _

theorem keepsAwaiting_parse (payload : Text) (p : Packet) : KeepsAwaiting (Packet.parse w payload p) := by
  unfold Packet.parse
  split
  · nofun
  · dsimp only
    split
    · exact keepsAwaiting_parseNamespace _ _ _
    · split
      · exact keepsAwaiting_of_false _
      · split
        · intro q hq
          cases hcount : stoul ((findFirstOf ['-'] 0 payload).elim (payload.drop 2) fun i =>
              substr 2 i payload) with
          | error e =>
            rw [hcount] at hq
            cases hq
          | ok count =>
            rw [hcount, Json.ok_bind] at hq
            exact keepsAwaiting_parseNamespace _ _ _ q hq
        · exact keepsAwaiting_parseNamespace _ _ _

namespace PacketManager

theorem awaitsBuffers_putPayload {payload : Text} {before after decoded : Option Packet}
    (hbefore : ∀ p ∈ before, AwaitsBuffers p) (h : putPayload w payload before = .ok (after, decoded)) :
    ∀ p ∈ after, AwaitsBuffers p := by
  -- a packet is kept exactly if what was called last returned true
  have hkept : ∀ {r : Except Crash (Packet × Bool)}, KeepsAwaiting r →
      r.map (fun x => if x.2 then (some x.1, none) else (none, some x.1)) = .ok (after, decoded) →
      ∀ p ∈ after, AwaitsBuffers p := by
    rintro (e | ⟨q, more⟩) hr hmap p hp
    · cases hmap
    · cases more with
      | false =>
        obtain ⟨rfl, -⟩ := Prod.mk.inj (Except.ok.inj hmap)
        cases hp
      | true =>
        obtain ⟨rfl, -⟩ := Prod.mk.inj (Except.ok.inj hmap)
        obtain rfl := Option.some.inj hp
        exact hr q rfl
  cases before with
  | some q =>
    have hput : putPayload w payload (some q) = (q.parseBuffer w payload).map
        fun x => if x.2 then (some x.1, none) else (none, some x.1) := by
      rw [putPayload]
      cases q.parseBuffer w payload <;> rfl
    rw [hput] at h
    refine hkept (fun p hp => ?_) h
    obtain ⟨hframe, hbinary, -⟩ := hbefore q rfl
    unfold Packet.parseBuffer at hp
    split at hp
    · cases hp
    · dsimp only at hp
      split at hp
      · obtain ⟨rfl, -⟩ := Prod.mk.inj (Except.ok.inj hp)
        exact ⟨hframe, hbinary, List.append_ne_nil_of_right_ne_nil _ (List.cons_ne_nil _ _)⟩
      · cases hdoc : parseDocument w ((q.buffers ++ [payload]).headD []) with
        | error e =>
          rw [hdoc] at hp
          cases hp
        | ok doc =>
          rw [hdoc, Json.ok_bind] at hp
          cases hmessage : fromJson (q.buffers ++ [payload]).tail doc with
          | error e =>
            rw [hmessage] at hp
            cases hp
          | ok message =>
            rw [hmessage] at hp
            cases hp
  | none =>
    rw [putPayload] at h
    dsimp only at h
    split at h
    · refine hkept (keepsAwaiting_parse (w := w) payload .empty) ?_
      rw [← h]
      cases Packet.parse w payload .empty <;> rfl
    · split at h
      · obtain ⟨rfl, -⟩ := Prod.mk.inj (Except.ok.inj h)
        intro p hp
        cases hp
      · cases hparse : Packet.parse w payload .empty with
        | error e =>
          rw [hparse] at h
          cases h
        | ok r =>
          rw [hparse] at h
          obtain ⟨rfl, -⟩ := Prod.mk.inj (Except.ok.inj h)
          intro p hp
          cases hp

theorem awaitsBuffers_putPayloads {payloads : List Text} {before after : Option Packet}
    {packets : List Packet} (hbefore : ∀ p ∈ before, AwaitsBuffers p)
    (h : putPayloads w payloads before = .ok (after, packets)) : ∀ p ∈ after, AwaitsBuffers p := by
  induction payloads generalizing before packets with
  | nil =>
    obtain ⟨rfl, -⟩ := Prod.mk.inj (Except.ok.inj h)
    exact hbefore
  | cons payload payloads ih =>
    obtain ⟨next, decoded, rest, hput, hputs, rfl⟩ := putPayloads_cons_ok h
    exact ih (awaitsBuffers_putPayload hbefore hput) hputs

/-- In every run, a packet that waits takes the payloads that follow it as its buffers, be they texts
or not: as many as it announced, and one if it announced none. Nothing is handed on before the last. -/
theorem putPayloads_awaiting {before payloads : List Text} {p : Packet} {packets : List Packet}
    (run : putPayloads w before none = .ok (some p, packets)) :
    ∃ text taken, p.buffers = text :: taken ∧
      (payloads ≠ [] → payloads.length = p.pendingBuffers →
        putPayloads w (before ++ payloads) none = (parseDocument w text).bind fun doc =>
          (fromJson (taken ++ payloads) doc).map fun message =>
            (none, packets ++ [{ p with message, pendingBuffers := 0, buffers := [] }])) ∧
      (p.pendingBuffers = 0 → ∀ payload, putPayloads w (before ++ [payload]) none =
        .ok (none, packets ++ [p])) := by
  have hnone : ∀ q ∈ (none : Option Packet), AwaitsBuffers q := nofun
  obtain ⟨-, -, hne⟩ := awaitsBuffers_putPayloads hnone run p rfl
  obtain ⟨text, taken, hbuffers⟩ := List.exists_cons_of_ne_nil hne
  refine ⟨text, taken, hbuffers, fun hpayloads hlength => ?_, fun hzero payload => ?_⟩
  · rw [putPayloads_append run, putPayloads_pending hpayloads hlength.symm hbuffers]
    cases parseDocument w text with
    | error e => rfl
    | ok doc =>
      simp only [Except.bind]
      cases fromJson (taken ++ payloads) doc <;> rfl
  · have hput : putPayload w payload (some p) = .ok (none, some p) := by
      rw [putPayload, Packet.parseBuffer, if_pos hzero]
      rfl
    rw [putPayloads_append run, putPayloads_cons hput]
    rfl

/-- What waits after the text `451-[1]`. -/
def awaitingOne : Packet :=
  { headerPacket Packet.typeBinaryEvent 1 with nsp := ['/'], buffers := [['[', '1', ']']] }

/-- A ping that comes next is the buffer. -/
theorem putPayloads_awaiting_ping : ∃ text taken, awaitingOne.buffers = text :: taken ∧
    ([['2']] ≠ ([] : List Text) → [['2']].length = awaitingOne.pendingBuffers →
      putPayloads halfCodec ([['4', '5', '1', '-', '[', '1', ']']] ++ [['2']]) none =
        (parseDocument halfCodec text).bind fun doc =>
          (fromJson (taken ++ [['2']]) doc).map fun message =>
            (none, [] ++ [{ awaitingOne with message, pendingBuffers := 0, buffers := [] }])) ∧
      (awaitingOne.pendingBuffers = 0 → ∀ payload,
        putPayloads halfCodec ([['4', '5', '1', '-', '[', '1', ']']] ++ [payload]) none =
          .ok (none, [] ++ [awaitingOne])) :=
  putPayloads_awaiting rfl

end PacketManager

end UwavClient
