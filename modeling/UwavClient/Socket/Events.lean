import UwavClient.Socket.Client
import UwavClient.Socket.Delivery
import Mathlib.Data.List.Nodup

/-!
# Events reach the program

What the callbacks do with a packet does not depend on the packet that waits for buffers. So a
connection acts on the payloads of a sequence of packets as if it were given the packets, and every
event that the server sends is posted once, in order, and acknowledged if the server asked for it.
-/

namespace UwavClient

open Json (DoubleCodec)

namespace SioClient

variable (w : DoubleCodec UInt64)

def onDecodes : List Packet → SioClient → Except Crash (SioClient × List ClientCall)
  | [], c => .ok (c, [])
  | p :: packets, c => do
    let (c, calls) ← c.onDecode w p
    let (c, more) ← onDecodes packets c
    return (c, calls ++ more)

/-- The same result, but for the packet that waits. -/
def withPartial (x : Option Packet) (r : Except Crash (SioClient × List ClientCall)) :
    Except Crash (SioClient × List ClientCall) :=
  r.map fun r => ({ r.1 with partialPacket := x }, r.2)

variable {w}

/-! ## The packet that waits plays no part -/

theorem connectSid_withPartial (p : Packet) (c : SioClient) (x : Option Packet) :
    connectSid p { c with partialPacket := x } =
      (connectSid p c).map fun c => { c with partialPacket := x } := by
  unfold connectSid
  split
  · split
    · rfl
    · rename_i entry _
      cases entryString entry <;> rfl
  · rfl

theorem onHandshake_withPartial (m : Message) (c : SioClient) (x : Option Packet) :
    onHandshake m { c with partialPacket := x } = withPartial x (onHandshake m c) := by
  unfold onHandshake
  split
  · rename_i fields
    split
    · rfl
    · rename_i entry _
      cases entryString entry with
      | error e => rfl
      | ok sid =>
        rw [Json.ok_bind, Json.ok_bind]
        cases handshakeNumber fields "pingInterval" 25000 with
        | error e => rfl
        | ok pingInterval =>
          rw [Json.ok_bind, Json.ok_bind]
          cases handshakeNumber fields "pingTimeout" 60000 <;> rfl
  · rfl

theorem onPing_withPartial (c : SioClient) (x : Option Packet) :
    onPing w { c with partialPacket := x } = withPartial x (onPing w c) := by
  unfold onPing
  cases PacketManager.encode w (.ofFrame Packet.framePong) with
  | error e => rfl
  | ok frames =>
    rw [Json.ok_bind, Json.ok_bind]
    dsimp only
    split <;> rfl

theorem toSocket_withPartial (p : Packet) (c : SioClient) (x : Option Packet) :
    toSocket w p { c with partialPacket := x } = withPartial x (c.toSocket w p) := by
  have hfind : findSocket p.nsp { c with partialPacket := x } = c.findSocket p.nsp := rfl
  unfold toSocket
  rw [hfind]
  cases c.findSocket p.nsp with
  | none => rfl
  | some s =>
    dsimp only
    cases s.onMessagePacket p with
    | error e => rfl
    | ok r =>
      have hsend : (fun binary payload => sendImpl binary payload { c with partialPacket := x }) =
          fun binary payload => c.sendImpl binary payload := rfl
      rw [Json.ok_bind, Json.ok_bind, hsend]
      cases runCalls w (fun binary payload => c.sendImpl binary payload) r.2 with
      | error e => rfl
      | ok calls =>
        rw [Json.ok_bind, Json.ok_bind]
        split <;> rfl

theorem onDecode_withPartial (p : Packet) (c : SioClient) (x : Option Packet) :
    onDecode w p { c with partialPacket := x } = withPartial x (c.onDecode w p) := by
  unfold onDecode
  split
  · cases p.getType with
    | error e => rfl
    | ok type =>
      rw [Json.ok_bind, Json.ok_bind]
      split
      · rw [connectSid_withPartial]
        cases c.connectSid p with
        | error e => rfl
        | ok c => exact toSocket_withPartial p c x
      · exact toSocket_withPartial p c x
  · split
    · exact onHandshake_withPartial p.message c x
    · split
      · rfl
      · split
        · exact onPing_withPartial c x
        · rfl

theorem onDecodes_withPartial (packets : List Packet) (c : SioClient) (x : Option Packet) :
    onDecodes w packets { c with partialPacket := x } = withPartial x (onDecodes w packets c) := by
  induction packets generalizing c with
  | nil => rfl
  | cons p packets ih =>
    rw [onDecodes, onDecodes, onDecode_withPartial]
    cases c.onDecode w p with
    | error e => rfl
    | ok r =>
      have hnext := ih r.1
      simp only [withPartial, Except.map, Json.ok_bind] at hnext ⊢
      rw [hnext]
      cases onDecodes w packets r.1 <;> rfl

theorem withPartial_withPartial (x y : Option Packet) (r : Except Crash (SioClient × List ClientCall)) :
    withPartial x (withPartial y r) = withPartial x r := by
  cases r <;> rfl

/-- A connection acts on payloads as on the packets that they are decoded into. -/
theorem onMessages_of_putPayloads {payloads : List Text} {c : SioClient} {after : Option Packet}
    {packets : List Packet}
    (h : PacketManager.putPayloads w payloads c.partialPacket = .ok (after, packets)) :
    onMessages w payloads c = withPartial after (onDecodes w packets c) := by
  induction payloads generalizing c packets with
  | nil =>
    obtain ⟨rfl, rfl⟩ := Prod.mk.inj (Except.ok.inj h)
    rfl
  | cons payload payloads ih =>
    obtain ⟨next, decoded, rest, hput, hputs, rfl⟩ := PacketManager.putPayloads_cons_ok h
    rw [onMessages, onMessage, hput, Json.ok_bind]
    cases decoded with
    | none =>
      have hrest := ih (c := { c with partialPacket := next }) hputs
      rw [onDecodes_withPartial, withPartial_withPartial] at hrest
      simp only [pure, Except.pure, Json.ok_bind, hrest, Option.toList_none, List.nil_append]
      cases onDecodes w rest c <;> rfl
    | some p =>
      dsimp only
      rw [onDecode_withPartial, Option.toList_some, List.singleton_append, onDecodes]
      cases c.onDecode w p with
      | error e => rfl
      | ok d =>
        have hrest := ih (c := { d.1 with partialPacket := next }) hputs
        rw [onDecodes_withPartial, withPartial_withPartial] at hrest
        simp only [withPartial, Except.map, Json.ok_bind] at hrest ⊢
        rw [hrest]
        cases onDecodes w rest d.1 <;> rfl

end SioClient

/-! ## Events of the server -/

/-- An event as the server sends it; a number asks for an acknowledgement. -/
structure ServerEvent where
  name : String
  items : List Message
  packId : ℤ

namespace ServerEvent

def packet (e : ServerEvent) : Packet :=
  { frame := Packet.frameMessage, type := Packet.typeEvent + Packet.typeUndetermined, nsp := ['/'],
    packId := e.packId, message := .array (.string e.name :: e.items), pendingBuffers := 0,
    buffers := [] }

structure Carried (w : DoubleCodec UInt64) (e : ServerEvent) : Prop where
  writable : ∀ m ∈ e.items, Writable w m
  packId : IsPackId e.packId
  count : (itemAttachments e.items).length ≤ 2 ^ 31

/-- What the client does: it posts the event, and answers it if the server asked. -/
def reaction (c : SioClient) (e : ServerEvent) : List ClientCall :=
  .socket (.message e.name e.items) ::
    if 0 ≤ e.packId then
      c.sendImpl false ('4' :: '3' :: (packIdText e.packId ++ ['[', '"', 'P', 'O', 'N', 'G', '"', ']']))
    else []

variable {w : DoubleCodec UInt64} {e : ServerEvent}

theorem Carried.sendable (h : e.Carried w) : Sendable w e.packet := by
  refine .message rfl (.inl ?_) ⟨[], rfl, List.not_mem_nil⟩ (.array ?_) rfl h.packId ?_
  · change Packet.typeEvent + Packet.typeUndetermined ∈ _
    decide
  · exact List.forall_mem_cons.mpr ⟨.string _, h.writable⟩
  · exact h.count

theorem pushAll_of_writable {items : List Message} (h : ∀ m ∈ items, Writable w m) :
    pushAll items = items := by
  refine List.filter_eq_self.mpr fun m hm => ?_
  cases h m hm <;> rfl

end ServerEvent

/-- A socket that is connected and has the listener of events. -/
structure SioSocket.Listens (s : SioSocket) : Prop where
  hasClient : s.hasClient
  connected : s.connected
  listener : s.eventListener
  queue : s.packetQueue = []

section Events

variable {w : DoubleCodec UInt64} {e : ServerEvent} {s : SioSocket} {c : SioClient}

theorem sendPacket_of_listens (h : s.Listens) (p : Packet) : s.sendPacket p = (s, [.send p]) := by
  obtain ⟨hclient, hconnected, -, hqueue⟩ := h
  unfold SioSocket.sendPacket
  rw [if_neg (by rw [hclient]; exact Bool.false_ne_true), if_pos hconnected, hqueue]
  congr 1
  rw [← hqueue]

def answer (packId : ℤ) : Packet :=
  { frame := Packet.frameMessage, type := Packet.typeAck + Packet.typeUndetermined, nsp := ['/'], packId,
    message := .array [.string "PONG"], pendingBuffers := 0, buffers := [] }

theorem encode_answer (packId : ℤ) : PacketManager.encode w (answer packId) =
    .ok [(false, '4' :: '3' :: (packIdText packId ++ ['[', '"', 'P', 'O', 'N', 'G', '"', ']']))] := by
  have hwritable : Writable w (answer packId).message :=
    .array (List.forall_mem_cons.mpr ⟨.string "PONG", nofun⟩)
  obtain ⟨v, hv⟩ := hwritable.conveys []
  have haccept : acceptMessage (answer packId).message [] =
      .ok (.array [.string "PONG".toList], []) := rfl
  obtain ⟨rfl, -⟩ := Prod.mk.inj (Except.ok.inj (haccept.symm.trans hv.1))
  have hjson : Json.write w (.array [.string "PONG".toList]) =
      ['[', '"', 'P', 'O', 'N', 'G', '"', ']'] := by
    rw [show "PONG".toList = ['P', 'O', 'N', 'G'] by decide]
    rfl
  have hattachments : attachments (answer packId).message = [] := rfl
  have htype : (answer packId).wireType (([] : List Text) ≠ []) = 3 := by
    rw [decide_eq_false (not_not.mpr rfl)]
    rfl
  have hheader : headerText 3 0 = ['4', '3'] := by decide
  have hnsp : (if (answer packId).nsp ≠ [] ∧ (answer packId).nsp ≠ ['/'] then (answer packId).nsp ++ [',']
      else []) = [] := by
    rfl
  have haccept := accept_message (p := answer packId) rfl hv
  rw [hattachments, hjson, hnsp, List.length_nil, htype, hheader] at haccept
  rw [PacketManager.encode, haccept]
  rfl

theorem ack_of_listens (hs : s.Listens) (hnsp : s.nsp = ['/']) {packId : ℤ} (h : 0 ≤ packId) :
    s.ack packId [.string "PONG"] = .ok (s, [.send (answer packId)]) := by
  rw [SioSocket.ack, Packet.ofMessage, if_neg fun hneg => absurd hneg.2 (by omega), Json.ok_bind,
    sendPacket_of_listens hs, hnsp]
  rfl

theorem onEventPacket_of_listens (hs : s.Listens) (hnsp : s.nsp = ['/']) (h : e.Carried w) {p : Packet}
    (hmessage : p.message = .array (.string e.name :: e.items)) (hid : p.packId = e.packId) :
    s.onEventPacket p = .ok (s, .message e.name e.items ::
      if 0 ≤ e.packId then [.send (answer e.packId)] else []) := by
  unfold SioSocket.onEventPacket
  rw [hmessage]
  dsimp only
  rw [ServerEvent.pushAll_of_writable h.writable, hid, SioSocket.onSocketioEvent]
  by_cases hneeds : 0 ≤ e.packId
  · simp only [hneeds, hs.listener, decide_true, Bool.not_true, Bool.false_eq_true, if_false, and_self,
      if_true]
    rw [ack_of_listens hs hnsp hneeds]
    rfl
  · simp only [hneeds, hs.listener, decide_false, Bool.not_false, if_true, if_false]
    rfl

theorem type_received_event (e : ServerEvent) : (received e.packet).type = Packet.typeEvent ∨
    (received e.packet).type = Packet.typeBinaryEvent := by
  have htype : (received e.packet).type = e.packet.wireType (attachments e.packet.message ≠ []) := rfl
  have hwire : ∀ b : Bool, e.packet.wireType b = if b then Packet.typeBinaryEvent else Packet.typeEvent :=
    fun _ => rfl
  rw [htype, hwire]
  cases decide (attachments e.packet.message ≠ [])
  · exact .inl rfl
  · exact .inr rfl

theorem getType_event (e : ServerEvent) : (received e.packet).getType = .ok Packet.typeEvent ∨
    (received e.packet).getType = .ok Packet.typeBinaryEvent := by
  unfold Packet.getType
  rcases type_received_event e with h | h <;> rw [h]
  · exact .inl rfl
  · exact .inr rfl

theorem onMessagePacket_of_event (hclient : s.hasClient) {p : Packet} (hnsp : p.nsp = s.nsp)
    (htype : p.getType = .ok Packet.typeEvent ∨ p.getType = .ok Packet.typeBinaryEvent) :
    s.onMessagePacket p = s.onEventPacket p := by
  have hguard : ¬(!s.hasClient ∨ p.nsp ≠ s.nsp) := by
    rw [hclient]
    simpa using hnsp
  unfold SioSocket.onMessagePacket
  rw [if_neg hguard]
  rcases htype with h | h <;> rw [h] <;> rfl

theorem onMessagePacket_event (hs : s.Listens) (hnsp : s.nsp = ['/']) (h : e.Carried w) :
    s.onMessagePacket (received e.packet) = .ok (s, .message e.name e.items ::
      if 0 ≤ e.packId then [.send (answer e.packId)] else []) :=
  (onMessagePacket_of_event hs.hasClient hnsp.symm (getType_event e)).trans
    (onEventPacket_of_listens hs hnsp h rfl rfl)

/-- The sockets are a map by their namespaces. -/
def SioClient.Sorted (c : SioClient) : Prop := c.sockets.Pairwise fun s t => keyLt s.nsp t.nsp

theorem SioClient.Sorted.nodup (hc : c.Sorted) : (c.sockets.map SioSocket.nsp).Nodup := by
  refine List.pairwise_map.mpr (hc.imp fun {a b} hab heq => ?_)
  have hback := keyLt_asymm hab
  rw [heq] at hab hback
  rw [hab] at hback
  cases hback

theorem updateSocket_self (hc : c.Sorted) (hs : s ∈ c.sockets) : c.updateSocket s = c := by
  have hsame : ∀ t ∈ c.sockets, (if t.nsp = s.nsp then s else t) = t := by
    intro t ht
    split
    next hnsp => exact List.inj_on_of_nodup_map hc.nodup hs ht hnsp.symm
    next => rfl
  have hsockets : c.sockets.map (fun t => if t.nsp = s.nsp then s else t) = c.sockets :=
    (List.map_congr_left hsame).trans (List.map_id _)
  unfold SioClient.updateSocket
  rw [hsockets]

theorem runCalls_event (e : ServerEvent) :
    SioClient.runCalls w (fun binary payload => c.sendImpl binary payload) (.message e.name e.items ::
      if 0 ≤ e.packId then [.send (answer e.packId)] else []) = .ok (e.reaction c) := by
  unfold ServerEvent.reaction
  split
  · rw [SioClient.runCalls, SioClient.runCalls, encode_answer, Json.ok_bind]
    · exact congrArg (fun l => Except.ok (_ :: l)) ((List.append_nil _).trans (List.append_nil _))
    · nofun
  · rfl

theorem onDecode_event (hc : c.Sorted) (hfind : c.findSocket ['/'] = some s) (hs : s.Listens)
    (h : e.Carried w) : c.onDecode w (received e.packet) = .ok (c, e.reaction c) := by
  have hmem : s ∈ c.sockets := List.mem_of_find?_eq_some hfind
  have hnsp : s.nsp = ['/'] := by simpa using List.find?_some hfind
  have hsocket : c.toSocket w (received e.packet) = .ok (c, e.reaction c) := by
    have hfind' : c.findSocket (received e.packet).nsp = some s := hfind
    unfold SioClient.toSocket
    rw [hfind']
    dsimp only
    rw [onMessagePacket_event hs hnsp h, Json.ok_bind]
    dsimp only
    rw [runCalls_event, Json.ok_bind, if_pos hs.hasClient, updateSocket_self hc hmem]
    rfl
  unfold SioClient.onDecode
  rw [if_pos (show (received e.packet).frame = Packet.frameMessage from rfl)]
  rcases getType_event e with htype | htype
  all_goals
    rw [htype, Json.ok_bind, if_neg (by decide)]
    exact hsocket

theorem onDecodes_events (hc : c.Sorted) (hfind : c.findSocket ['/'] = some s) (hs : s.Listens)
    {events : List ServerEvent} (h : ∀ e ∈ events, e.Carried w) :
    c.onDecodes w ((events.map ServerEvent.packet).map received) =
      .ok (c, events.flatMap (ServerEvent.reaction c)) := by
  induction events with
  | nil => rfl
  | cons e events ih =>
    rw [List.map_cons, List.map_cons, SioClient.onDecodes,
      onDecode_event hc hfind hs (h e List.mem_cons_self), Json.ok_bind]
    dsimp only
    rw [ih fun d hd => h d (List.mem_cons_of_mem _ hd)]
    rfl

/-- When the server sends events that the format can carry to a socket that listens, the program is given
them in that order, each one once and unchanged, and every event that asks for an answer gets one. -/
theorem events_delivered (hc : c.Sorted) (hwaiting : c.partialPacket = none)
    (hfind : c.findSocket ['/'] = some s) (hs : s.Listens) {events : List ServerEvent}
    (h : ∀ e ∈ events, e.Carried w) : ∃ frames,
    (events.map ServerEvent.packet).mapM (PacketManager.encode w) = .ok frames ∧
      c.onMessages w (frames.flatten.map Prod.snd) =
        .ok (c, events.flatMap (ServerEvent.reaction c)) := by
  have hsendable : ∀ p ∈ events.map ServerEvent.packet, Sendable w p := by
    intro p hp
    obtain ⟨e, he, rfl⟩ := List.mem_map.mp hp
    exact (h e he).sendable
  obtain ⟨frames, hencode, hput⟩ := putPayloads_encode hsendable
  rw [← hwaiting] at hput
  refine ⟨frames, hencode, ?_⟩
  rw [SioClient.onMessages_of_putPayloads hput, onDecodes_events hc hfind hs h, hwaiting]
  have hself : { c with partialPacket := none } = c := by rw [← hwaiting]
  exact congrArg (fun d => Except.ok (d, events.flatMap (ServerEvent.reaction c))) hself

/-- The socket of the default namespace, once the server has acknowledged it. -/
def listeningSocket : SioSocket where
  nsp := ['/']
  hasClient := true
  connected := true
  auth := .nullptr
  acks := []
  eventListener := true
  errorListener := false
  connectionTimer := none
  packetQueue := []

def listeningClient : SioClient :=
  { conState := .opened, con := true, networkThread := true, sockets := [listeningSocket] }

def samplesEvent : ServerEvent :=
  ⟨"AUDIO_OUT", [.object [("sample_count", .integer 2), ("samples", .binary [1, 2, 3, 4])]], -1⟩

def statusEvent : ServerEvent := ⟨"SET_STATUS", [.object [("gpu_load", .integer 12)]], 7⟩

theorem carried_samplesEvent (w : DoubleCodec UInt64) : samplesEvent.Carried w := by
  refine ⟨List.forall_mem_cons.mpr ⟨.object ?_ ?_ ?_, nofun⟩, ⟨by decide, by decide⟩, by decide⟩
  · exact List.forall_mem_cons.mpr ⟨.integer (by decide) (by decide),
      List.forall_mem_cons.mpr ⟨.binary _, nofun⟩⟩
  · decide
  · refine List.forall_mem_cons.mpr ⟨?_, List.forall_mem_cons.mpr ⟨?_, nofun⟩⟩
    · intro h
      exact absurd h (by decide)
    · intro h
      exact absurd h (by decide)

theorem carried_statusEvent (w : DoubleCodec UInt64) : statusEvent.Carried w :=
  ⟨List.forall_mem_cons.mpr ⟨.object
      (List.forall_mem_cons.mpr ⟨.integer (by decide) (by decide), nofun⟩) (List.pairwise_singleton _ _)
      (List.forall_mem_cons.mpr ⟨fun h => absurd h (by decide), nofun⟩), nofun⟩,
    ⟨by decide, by decide⟩, by decide⟩

theorem listens_listeningSocket : listeningSocket.Listens := ⟨rfl, rfl, rfl, rfl⟩

theorem events_delivered_two : ∃ frames,
    ([samplesEvent, statusEvent].map ServerEvent.packet).mapM (PacketManager.encode halfCodec) = .ok frames ∧
      listeningClient.onMessages halfCodec (frames.flatten.map Prod.snd) =
        .ok (listeningClient, [samplesEvent, statusEvent].flatMap (ServerEvent.reaction listeningClient)) :=
  events_delivered (c := listeningClient) (List.pairwise_singleton _ _) rfl rfl listens_listeningSocket
    (List.forall_mem_cons.mpr ⟨carried_samplesEvent halfCodec,
      List.forall_mem_cons.mpr ⟨carried_statusEvent halfCodec, nofun⟩⟩)

end Events

end UwavClient
