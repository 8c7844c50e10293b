import UwavClient.Socket.Framing

/-!
# Packets arrive as they were sent

A packet that announces buffers takes the payloads that follow it and is handed on with the last one.
So a sequence of packets, each sent as its text and its buffers, is decoded into the same packets in the
same order.
-/

namespace UwavClient

open Json (Value DoubleCodec)

variable {w : DoubleCodec UInt64}

/-! ## Sequences of payloads -/

namespace PacketManager

theorem putPayloads_cons {payload : Text} {before after : Option Packet} {decoded : Option Packet}
    (h : putPayload w payload before = .ok (after, decoded)) (payloads : List Text) :
    putPayloads w (payload :: payloads) before =
      (putPayloads w payloads after).map fun r => (r.1, decoded.toList ++ r.2) := by
  rw [putPayloads, h, Json.ok_bind]
  dsimp only
  cases putPayloads w payloads after <;> rfl

theorem putPayloads_cons_ok {payload : Text} {payloads : List Text} {before after : Option Packet}
    {packets : List Packet} (h : putPayloads w (payload :: payloads) before = .ok (after, packets)) :
    ∃ next decoded rest, putPayload w payload before = .ok (next, decoded) ∧
      putPayloads w payloads next = .ok (after, rest) ∧ packets = decoded.toList ++ rest := by
  cases hput : putPayload w payload before with
  | error e =>
    rw [putPayloads, hput] at h
    cases h
  | ok r =>
    rw [putPayloads_cons hput] at h
    cases hputs : putPayloads w payloads r.1 with
    | error e =>
      rw [hputs] at h
      cases h
    | ok q =>
      rw [hputs] at h
      obtain ⟨rfl, rfl⟩ := Prod.mk.inj (Except.ok.inj h)
      exact ⟨_, _, _, rfl, hputs, rfl⟩

theorem putPayloads_append {xs : List Text} {before after : Option Packet} {packets : List Packet}
    (h : putPayloads w xs before = .ok (after, packets)) (ys : List Text) :
    putPayloads w (xs ++ ys) before =
      (putPayloads w ys after).map fun r => (r.1, packets ++ r.2) := by
  induction xs generalizing before packets with
  | nil =>
    obtain ⟨rfl, rfl⟩ := Prod.mk.inj (Except.ok.inj h)
    rw [List.nil_append]
    cases putPayloads w ys before <;> rfl
  | cons x xs ih =>
    obtain ⟨next, decoded, rest, hx, hxs, rfl⟩ := putPayloads_cons_ok h
    rw [List.cons_append, putPayloads_cons hx, ih hxs]
    cases putPayloads w ys after with
    | error e => rfl
    | ok t => exact congrArg (fun l => Except.ok (t.1, l)) (List.append_assoc _ _ _).symm

theorem putPayload_of_one_lt {p : Packet} (h : 1 < p.pendingBuffers) (payload : Text) :
    putPayload w payload (some p) = .ok (some { p with
      buffers := p.buffers ++ [payload], pendingBuffers := p.pendingBuffers - 1 }, none) := by
  rw [putPayload, Packet.parseBuffer, if_neg (by omega)]
  dsimp only
  rw [if_pos (by omega)]
  rfl

theorem putPayload_of_one {p : Packet} {text : Text} {taken : List Text} (h : p.pendingBuffers = 1)
    (hbuffers : p.buffers = text :: taken) (payload : Text) :
    putPayload w payload (some p) = (parseDocument w text).bind fun doc =>
      (fromJson (taken ++ [payload]) doc).map fun message =>
        (none, some { p with message, pendingBuffers := 0, buffers := [] }) := by
  rw [putPayload, Packet.parseBuffer, if_neg (by omega), hbuffers, h]
  simp only [Nat.sub_self, ne_eq, not_true_eq_false, if_false, List.cons_append, List.headD_cons,
    List.tail_cons]
  cases parseDocument w text with
  | error e => rfl
  | ok doc =>
    rw [Json.ok_bind, Except.bind]
    cases fromJson (taken ++ [payload]) doc <;> rfl

/-- A packet that waits for as many buffers as payloads follow takes them all, and is handed on with
its message once the last one is there. -/
theorem putPayloads_pending {p : Packet} {payloads : List Text} {text : Text} {taken : List Text}
    (hne : payloads ≠ []) (hpending : p.pendingBuffers = payloads.length)
    (hbuffers : p.buffers = text :: taken) :
    putPayloads w payloads (some p) = (parseDocument w text).bind fun doc =>
      (fromJson (taken ++ payloads) doc).map fun message =>
        (none, [{ p with message, pendingBuffers := 0, buffers := [] }]) := by
  induction payloads generalizing p taken with
  | nil => exact absurd rfl hne
  | cons payload payloads ih =>
    cases payloads with
    | nil =>
      rw [putPayloads, putPayload_of_one hpending hbuffers]
      cases parseDocument w text with
      | error e => rfl
      | ok doc =>
        simp only [Except.bind]
        cases fromJson (taken ++ [payload]) doc <;> rfl
    | cons next payloads =>
      simp only [List.length_cons] at hpending
      rw [putPayloads_cons (putPayload_of_one_lt (by omega) payload),
        ih (List.cons_ne_nil _ _) (by simp only [List.length_cons]; omega)
          (show _ = text :: (taken ++ [payload]) by rw [hbuffers]; rfl),
        List.append_assoc, List.singleton_append]
      cases parseDocument w text with
      | error e => rfl
      | ok doc =>
        simp only [Except.bind]
        cases fromJson (taken ++ payload :: next :: payloads) doc <;> rfl

end PacketManager

/-! ## What can be sent -/

/-- The namespace a packet has for its receiver. -/
def rootOr (nsp : Text) : Text := if nsp = [] then ['/'] else nsp

def IsNsp (nsp : Text) : Prop := ∃ rest, rootOr nsp = '/' :: rest ∧ ',' ∉ rest

/-- What stands in a message, besides numbers, words and the null pointer. -/
def startsJson : Message → Bool
  | .string _ | .binary _ | .array _ | .object _ => true
  | _ => false

/-- The type of a packet that was constructed; only events and acknowledgements have buffers. -/
def HasType (p : Packet) : Prop :=
  p.type ∈ [Packet.typeEvent, Packet.typeAck, Packet.typeEvent + Packet.typeUndetermined,
    Packet.typeAck + Packet.typeUndetermined] ∨
  p.type ∈ [Packet.typeConnect, Packet.typeDisconnect, Packet.typeError] ∧ attachments p.message = []

/-- A packet that the format can carry. A message must start with a bracket or a quote; without one a
packet has no number. -/
inductive Sendable (w : DoubleCodec UInt64) : Packet → Prop where
  | control {p : Packet} (hframe : p.frame ∈ [Packet.frameOpen, Packet.frameClose, Packet.framePing,
      Packet.framePong, Packet.frameUpgrade, Packet.frameNoop]) : Sendable w p
  | empty {p : Packet} (hframe : p.frame = Packet.frameMessage) (htype : HasType p) (hnsp : IsNsp p.nsp)
      (hmessage : p.message = .nullptr) (hid : p.packId = -1) : Sendable w p
  | message {p : Packet} (hframe : p.frame = Packet.frameMessage) (htype : HasType p)
      (hnsp : IsNsp p.nsp) (hmessage : Writable w p.message) (hstarts : startsJson p.message)
      (hid : IsPackId p.packId) (hcount : (attachments p.message).length ≤ 2 ^ 31) : Sendable w p

/-- The packet for its receiver. Of a frame that is no message only the frame arrives. -/
def received (p : Packet) : Packet :=
  if p.frame = Packet.frameMessage then
    { frame := p.frame, type := p.wireType (attachments p.message ≠ []), nsp := rootOr p.nsp,
      packId := p.packId, message := p.message, pendingBuffers := 0, buffers := [] }
  else
    { frame := p.frame, type := Packet.typeUndetermined, nsp := ['/'], packId := -1,
      message := .nullptr, pendingBuffers := 0, buffers := [] }

/-- The type in the header depends on nothing but whether there are buffers. -/
theorem isHeader_of_hasType {p : Packet} (h : HasType p) (hcount : (attachments p.message).length < 2 ^ 32) :
    IsHeader (p.wireType (attachments p.message ≠ [])) (attachments p.message).length := by
  have hlength : (attachments p.message).length ≠ 0 ↔ attachments p.message ≠ [] :=
    not_congr List.length_eq_zero_iff
  have hevents : ∀ b : Bool, ∀ t ∈ [Packet.typeEvent, Packet.typeAck,
      Packet.typeEvent + Packet.typeUndetermined, Packet.typeAck + Packet.typeUndetermined],
      ∀ q : Packet, q.type = t → Packet.typeMin ≤ q.wireType b ∧ q.wireType b ≤ Packet.typeMax ∧
        (b ↔ q.wireType b = Packet.typeBinaryEvent ∨ q.wireType b = Packet.typeBinaryAck) := by
    intro b t ht q hq
    unfold Packet.wireType
    rw [hq]
    clear hq
    revert b t
    decide
  have hothers : ∀ t ∈ [Packet.typeConnect, Packet.typeDisconnect, Packet.typeError],
      ∀ q : Packet, q.type = t → Packet.typeMin ≤ q.wireType false ∧ q.wireType false ≤ Packet.typeMax ∧
        ¬(q.wireType false = Packet.typeBinaryEvent ∨ q.wireType false = Packet.typeBinaryAck) := by
    intro t ht q hq
    unfold Packet.wireType
    rw [hq]
    clear hq
    revert t
    decide
  rcases h with h | ⟨h, hnil⟩
  · obtain ⟨hlo, hhi, hbinary⟩ := hevents (attachments p.message ≠ []) _ h p rfl
    refine ⟨hlo, hhi, hcount, hlength.trans ?_⟩
    rw [← hbinary, decide_eq_true_eq]
  · obtain ⟨hlo, hhi, hplain⟩ := hothers _ h p rfl
    rw [hnil]
    exact ⟨hlo, hhi, by decide, iff_of_false (not_not.mpr rfl) hplain⟩

theorem startsJson_head {m : Message} {buffers : List Text} {v : Value UInt64} (h : Conveys w buffers m v)
    (hstarts : startsJson m) : ∃ c t, Json.write w v = c :: t ∧ c ∈ jsonStarts := by
  obtain ⟨haccept, -, -⟩ := h
  cases m with
  | string s =>
    obtain ⟨rfl, -⟩ := Prod.mk.inj (Except.ok.inj haccept)
    exact ⟨_, _, by rw [Json.write, Json.writeString], by decide⟩
  | binary b =>
    obtain ⟨rfl, -⟩ := Prod.mk.inj (Except.ok.inj haccept)
    exact ⟨_, _, by rw [Json.write], by decide⟩
  | array items =>
    rw [acceptMessage] at haccept
    cases hitems : acceptItems items buffers with
    | error e =>
      rw [hitems] at haccept
      cases haccept
    | ok r =>
      rw [hitems] at haccept
      obtain ⟨rfl, -⟩ := Prod.mk.inj (Except.ok.inj haccept)
      exact ⟨_, _, by rw [Json.write], by decide⟩
  | object fields =>
    rw [acceptMessage] at haccept
    cases hfields : acceptFields fields buffers with
    | error e =>
      rw [hfields] at haccept
      cases haccept
    | ok r =>
      rw [hfields] at haccept
      obtain ⟨rfl, -⟩ := Prod.mk.inj (Except.ok.inj haccept)
      exact ⟨_, _, by rw [Json.write], by decide⟩
  | _ => cases hstarts

/-! ## One packet -/

theorem nspText_of_isNsp {nsp : Text} (h : IsNsp nsp) :
    NspText (rootOr nsp) (if nsp ≠ [] ∧ nsp ≠ ['/'] then nsp ++ [','] else []) := by
  obtain ⟨rest, hroot, hrest⟩ := h
  by_cases hnil : nsp = []
  · rw [if_neg fun h => h.1 hnil, rootOr, if_pos hnil]
    exact .root
  · rw [rootOr, if_neg hnil] at hroot ⊢
    by_cases hslash : nsp = ['/']
    · rw [if_neg fun h => h.2 hslash, hslash]
      exact .root
    · rw [if_pos ⟨hnil, hslash⟩, hroot]
      exact .path hrest

theorem lastText_of_isNsp {nsp : Text} (h : IsNsp nsp) :
    LastText (rootOr nsp) (if nsp ≠ [] ∧ nsp ≠ ['/'] then nsp else []) := by
  obtain ⟨rest, hroot, hrest⟩ := h
  by_cases hnil : nsp = []
  · rw [if_neg fun h => h.1 hnil, rootOr, if_pos hnil]
    exact .root
  · rw [rootOr, if_neg hnil] at hroot ⊢
    by_cases hslash : nsp = ['/']
    · rw [if_neg fun h => h.2 hslash, hslash]
      exact .root
    · rw [if_pos ⟨hnil, hslash⟩, hroot]
      exact .path hrest

theorem acceptDocument_of_conveys {m : Message} {v : Value UInt64} (h : Conveys w [] m v) :
    Packet.hasMessage m ∧ Packet.acceptDocument w m = .ok (Json.write w v, attachments m) := by
  obtain ⟨haccept, -, -⟩ := h
  have hmessage : Packet.hasMessage m := by
    cases m with
    | nullptr => cases haccept
    | _ => rfl
  rw [Packet.acceptDocument, if_pos hmessage, haccept]
  exact ⟨hmessage, rfl⟩

theorem accept_message {p : Packet} {v : Value UInt64} (hframe : p.frame = Packet.frameMessage)
    (hconveys : Conveys w [] p.message v) : p.accept w =
      .ok (headerText (p.wireType (attachments p.message ≠ [])) (attachments p.message).length ++
        ((if p.nsp ≠ [] ∧ p.nsp ≠ ['/'] then p.nsp ++ [','] else []) ++
          (packIdText p.packId ++ Json.write w v)), attachments p.message) := by
  obtain ⟨hmessage, haccept⟩ := acceptDocument_of_conveys hconveys
  have hcount : (if attachments p.message ≠ [] then
      Nat.toDigits 10 (attachments p.message).length ++ ['-'] else []) =
        countText (attachments p.message).length := by
    rw [countText, ite_not]
    exact if_congr List.length_eq_zero_iff.symm rfl rfl
  unfold Packet.accept
  rw [if_neg (not_not.mpr hframe), haccept, Json.ok_bind]
  simp only [hmessage, true_or, if_true, hcount, hframe]
  rw [headerText, packIdText]
  simp only [List.append_assoc, List.cons_append]
  rfl

theorem accept_empty {p : Packet} (hframe : p.frame = Packet.frameMessage)
    (hmessage : p.message = .nullptr) (hid : p.packId = -1) : p.accept w =
      .ok (headerText (p.wireType false) 0 ++ (if p.nsp ≠ [] ∧ p.nsp ≠ ['/'] then p.nsp else []), []) := by
  have haccept : Packet.acceptDocument w .nullptr = .ok ([], []) := rfl
  have hnull : Packet.hasMessage .nullptr = false := rfl
  have hsign : ¬(0 : ℤ) ≤ -1 := by decide
  unfold Packet.accept
  rw [if_neg (not_not.mpr hframe), hmessage, haccept, Json.ok_bind]
  simp only [hid, hnull, hframe, ne_eq, not_true_eq_false, decide_false, Bool.false_eq_true, hsign,
    or_self, if_false, List.append_nil]
  rw [headerText, countText, if_pos rfl, List.append_nil]
  rfl

theorem accept_control {p : Packet} (hframe : p.frame ≠ Packet.frameMessage) :
    p.accept w = .ok ([Char.ofNat (p.frame + charAt ['0'] 0).toNat], []) := by
  unfold Packet.accept
  rw [if_pos hframe]
  rfl

/-- A text that `accept` wrote is parsed at once. -/
theorem putPayload_text (type : ℤ) (n : ℕ) (rest : Text) :
    PacketManager.putPayload w (headerText type n ++ rest) none =
      (Packet.parse w (headerText type n ++ rest) .empty).map fun r =>
        if r.2 then (some r.1, none) else (none, some r.1) := by
  have htext : Packet.isTextMessage (headerText type n ++ rest) := by
    rw [headerText]
    rfl
  rw [PacketManager.putPayload]
  dsimp only
  rw [if_pos htext]
  cases Packet.parse w (headerText type n ++ rest) .empty <;> rfl

/-- The document of a message that was written, once its buffers are there. -/
theorem parseDocument_of_conveys {m : Message} {v : Value UInt64} (h : Conveys w [] m v) :
    parseDocument w (Json.write w v) = .ok v := by
  rw [parseDocument, Json.read_write h.2.1]

theorem fromJson_of_conveys {m : Message} {v : Value UInt64} (h : Conveys w [] m v)
    (hcount : (attachments m).length ≤ 2 ^ 31) : fromJson (attachments m) v = .ok m :=
  h.2.2 _ (List.prefix_rfl) hcount

/-- What a packet is sent as is decoded into that packet. -/
theorem Sendable.delivered {p : Packet} (h : Sendable w p) : ∃ frames,
    PacketManager.encode w p = .ok frames ∧
      PacketManager.putPayloads w (frames.map Prod.snd) none = .ok (none, [received p]) := by
  cases h with
  | control hframe =>
    have hmessage : p.frame ≠ Packet.frameMessage := by
      intro h
      rw [h] at hframe
      revert hframe
      decide
    have hput : PacketManager.putPayload w [Char.ofNat (p.frame + charAt ['0'] 0).toNat] none =
        .ok (none, some (received p)) := by
      rw [received, if_neg hmessage]
      simp only [List.mem_cons, List.not_mem_nil, or_false] at hframe
      rcases hframe with h | h | h | h | h | h <;> rw [h] <;> rfl
    refine ⟨_, by rw [PacketManager.encode, accept_control hmessage]; rfl, ?_⟩
    rw [List.map_cons, PacketManager.putPayloads_cons hput]
    rfl
  | empty hframe htype hnsp hmessage hid =>
    have hnone : attachments p.message = [] := by
      rw [hmessage]
      rfl
    have hwire : p.wireType (attachments p.message ≠ []) = p.wireType false := by
      rw [hnone]
      rfl
    have hheader := isHeader_of_hasType htype (by rw [hnone]; exact Nat.two_pow_pos 32)
    rw [hwire, hnone, List.length_nil] at hheader
    have hparse := parseNamespace_last (w := w) (comma_not_mem_headerText hheader) (lastText_of_isNsp hnsp)
      (headerPacket (p.wireType false) 0)
    rw [← parse_headerText hheader] at hparse
    have hput := putPayload_text (w := w) (p.wireType false) 0 (if p.nsp ≠ [] ∧ p.nsp ≠ ['/'] then p.nsp else [])
    rw [hparse] at hput
    refine ⟨[(false, _)], by rw [PacketManager.encode, accept_empty hframe hmessage hid]; rfl, ?_⟩
    rw [List.map_cons, PacketManager.putPayloads_cons hput, received, if_pos hframe, hframe, hwire, hid,
      hmessage]
    rfl
  | message hframe htype hnsp hmessage hstarts hid hcount =>
    obtain ⟨v, hv⟩ := hmessage.conveys []
    obtain ⟨c, json, hjson, hc⟩ := startsJson_head hv hstarts
    have hheader := isHeader_of_hasType htype (by omega)
    have hparse := parseNamespace_text (w := w) json (comma_not_mem_headerText hheader) (nspText_of_isNsp hnsp)
      hid hc (headerPacket (p.wireType (attachments p.message ≠ [])) (attachments p.message).length)
    rw [← parse_headerText hheader, ← hjson] at hparse
    have hput := putPayload_text (w := w) (p.wireType (attachments p.message ≠ []))
      (attachments p.message).length ((if p.nsp ≠ [] ∧ p.nsp ≠ ['/'] then p.nsp ++ [','] else []) ++
        (packIdText p.packId ++ Json.write w v))
    rw [hparse] at hput
    have hdocument := parseDocument_of_conveys hv
    have hback := fromJson_of_conveys hv hcount
    have hsecond : ((attachments p.message).map fun b => (true, b)).map Prod.snd =
        attachments p.message := by
      rw [List.map_map]
      exact List.map_id _
    refine ⟨(false, _) :: (attachments p.message).map fun b => (true, b),
      by rw [PacketManager.encode, accept_message hframe hv]; rfl, ?_⟩
    rw [List.map_cons, hsecond, received, if_pos hframe, hframe]
    by_cases hnone : attachments p.message = []
    · rw [hnone, List.length_nil] at hheader hput
      rw [hnone] at hback
      rw [withText_headerPacket_zero hheader hdocument hback] at hput
      rw [hnone, List.length_nil, PacketManager.putPayloads_cons hput]
      rfl
    · rw [withText_headerPacket hheader fun h => hnone (List.length_eq_zero_iff.mp h)] at hput
      rw [PacketManager.putPayloads_cons hput,
        PacketManager.putPayloads_pending hnone rfl rfl, hdocument, Except.bind, List.nil_append, hback]
      rfl

/-! ## A stream of packets -/

theorem mapM_cons_of_ok {α β ε : Type} {f : α → Except ε β} {a : α} {b : β} (ha : f a = .ok b)
    {l : List α} {bs : List β} (hl : l.mapM f = .ok bs) : (a :: l).mapM f = .ok (b :: bs) := by
  rw [List.mapM_cons, ha, Json.ok_bind, hl]
  rfl

/-- Packets that the format can carry are sent one after the other, each as its text and its buffers; the
receiver decodes them in that order and waits for nothing afterwards. -/
theorem putPayloads_encode {packets : List Packet} (h : ∀ p ∈ packets, Sendable w p) : ∃ frames,
    packets.mapM (PacketManager.encode w) = .ok frames ∧
      PacketManager.putPayloads w (frames.flatten.map Prod.snd) none =
        .ok (none, packets.map received) := by
  induction packets with
  | nil => exact ⟨[], rfl, rfl⟩
  | cons p packets ih =>
    obtain ⟨frames, hencode, hput⟩ := (h p List.mem_cons_self).delivered
    obtain ⟨others, hothers, hputs⟩ := ih fun q hq => h q (List.mem_cons_of_mem _ hq)
    refine ⟨frames :: others, mapM_cons_of_ok hencode hothers, ?_⟩
    rw [List.flatten_cons, List.map_append, PacketManager.putPayloads_append hput, hputs]
    rfl

/-- A codec that knows one number. -/
def halfCodec : DoubleCodec UInt64 where
  write _ := ['0', '.', '5']
  read s := if s = ['0', '.', '5'] then some 0x3fe0000000000000 else none

theorem readsBack_half : Json.ReadsBack halfCodec 0x3fe0000000000000 :=
  Json.readsBack_of_fraction (show _ = [] ++ ['0'] ++ '.' :: ['5'] from rfl) (.inl rfl) (by decide)
    (by simp [Char.isDigit]) (by decide) (by decide) (by simp [Char.isDigit]) rfl

def audioOutPacket : Packet :=
  { frame := Packet.frameMessage, type := Packet.typeEvent + Packet.typeUndetermined, nsp := ['/'],
    packId := -1, message := .array [.string "AUDIO_OUT", .object
      [("gain", .double 0x3fe0000000000000), ("samples", .binary [1, 2, 3, 4])]],
    pendingBuffers := 0, buffers := [] }

def pongPacket : Packet :=
  { frame := Packet.frameMessage, type := Packet.typeAck + Packet.typeUndetermined, nsp := ['/', 'a'],
    packId := 7, message := .array [.string "PONG"], pendingBuffers := 0, buffers := [] }

theorem sendable_audioOutPacket : Sendable halfCodec audioOutPacket := by
  refine .message rfl (.inl (by decide)) ⟨[], rfl, by decide⟩ (.array ?_) rfl ⟨by decide, by decide⟩ (by decide)
  refine List.forall_mem_cons.mpr ⟨.string _, List.forall_mem_cons.mpr ⟨.object ?_ ?_ ?_, nofun⟩⟩
  · exact List.forall_mem_cons.mpr ⟨.double readsBack_half, List.forall_mem_cons.mpr ⟨.binary _, nofun⟩⟩
  · decide
  · refine List.forall_mem_cons.mpr ⟨?_, List.forall_mem_cons.mpr ⟨?_, nofun⟩⟩
    · intro h
      exact absurd h (by decide)
    · intro h
      exact absurd h (by decide)

theorem sendable_pongPacket : Sendable halfCodec pongPacket :=
  .message rfl (.inl (by decide)) ⟨['a'], rfl, by decide⟩
    (.array (List.forall_mem_cons.mpr ⟨.string _, nofun⟩)) rfl ⟨by decide, by decide⟩ (by decide)

theorem putPayloads_encode_audioOut : ∃ frames,
    [audioOutPacket, .ofFrame Packet.framePing, pongPacket].mapM (PacketManager.encode halfCodec) = .ok frames ∧
      PacketManager.putPayloads halfCodec (frames.flatten.map Prod.snd) none =
        .ok (none, [audioOutPacket, .ofFrame Packet.framePing, pongPacket].map received) :=
  putPayloads_encode (List.forall_mem_cons.mpr ⟨sendable_audioOutPacket, List.forall_mem_cons.mpr
    ⟨.control (by decide), List.forall_mem_cons.mpr ⟨sendable_pongPacket, nofun⟩⟩⟩)

end UwavClient
