import Mathlib.Algebra.BigOperators.Group.List.Defs
import UwavClient.Client.InputLoops
import UwavClient.Client.Broadcast
import UwavClient.Socket.Service

/-!
# From the microphone to the server

PipeWire's thread stores captured blocks in the input buffer, the main thread takes whole chunks out of
it and emits them, and the network thread sends what waits for it, while it answers pings and takes
events of the server. Whatever order they step in, what the server gets are the samples captured, in
whole chunks and in their order.
-/

namespace UwavClient

open Json (DoubleCodec)

/-! ## What is sent, and what is received meanwhile -/

abbrev TimedChunk := UInt64 × Bytes

def audioInEvent (chunk : TimedChunk) : ServerEvent :=
  ⟨"AUDIO_IN", [.object [("samples", .binary chunk.2), ("timestamp", .double chunk.1)]], -1⟩

/-- What the server may send without an answer of the socket: pings, and events without a number. -/
inductive Unasked (codec : DoubleCodec UInt64) : Packet → Prop where
  | ping : Unasked codec (.ofFrame Packet.framePing)
  | event {e : ServerEvent} (carried : e.Carried codec) (unnumbered : e.packId < 0) :
    Unasked codec e.packet

/-- The chunks with the times that a clock gives, one after the other. -/
def timed (clock : ℕ → UInt64) (sent : List Bytes) : List TimedChunk :=
  ((List.range sent.length).map clock).zip sent

def pong : Bool × Text := (false, ['3'])

def transmitted (calls : List ClientCall) : List (Bool × Text) :=
  calls.filterMap fun
    | .transmit binary payload => some (binary, payload)
    | _ => none

/-- What the connection carries besides answers to pings. -/
def messagesOf (wire : List (Bool × Text)) : List (Bool × Text) := wire.filter (· ≠ pong)

/-! ## The three threads -/

/-- What the threads share, and what has happened so far: `stored` are the blocks for which the buffer
had room, `chunks` what was taken out again, and `wire` what was given to the connection. -/
structure Uplink where
  audio : AudioProvider
  client : UwaVClient
  service : SioService
  incoming : List Text
  stored : List Bytes := []
  chunks : List TimedChunk := []
  wire : List (Bool × Text) := []

inductive UplinkStep (F : Type) where
  | capture (levels : Levels F) (block : List Sample)
  | slot (clock : ℕ → UInt64)
  | handle
  | arrive

namespace Uplink

variable {F : Type} (A : FloatOps F) (codec : DoubleCodec UInt64) (validUri : Text → Bool) (w : World)

/-- A callback; the gate may withhold the block. -/
def capture (levels : Levels F) (block : List Sample) (s : Uplink) : Uplink :=
  let audio := s.audio.processInput A levels (some ⟨some block⟩)
  { s with
    audio
    stored := s.stored ++
      if bufferedSamples audio.input.data = bufferedSamples s.audio.input.data + block.length then
        [encode (block.map (A.amplify levels.inputGain))]
      else [] }

def emitAll (chunks : List TimedChunk) (service : SioService) : Except Crash SioService :=
  chunks.foldlM (fun service chunk =>
    (service.step codec validUri (.emit (audioInEvent chunk).name (audioInEvent chunk).items)).map
      Prod.fst) service

def slot (clock : ℕ → UInt64) (s : Uplink) : Option Uplink :=
  match (onInputBufferWrite (bufferedSamples s.audio.input.data + 1) s.client).runOn (SendRun.handler w)
      ⟨s.audio, fun _ => s.service.client.opened, []⟩ with
  | (.error _, _) => none
  | (.ok (), r) =>
    match emitAll codec validUri (timed clock r.sent) s.service with
    | .error _ => none
    | .ok service =>
      some { s with audio := r.audio, service, chunks := s.chunks ++ timed clock r.sent }

def network (e : ServiceEvent) (s : Uplink) : Option Uplink :=
  match s.service.step codec validUri e with
  | .error _ => none
  | .ok (service, calls) => some { s with service, wire := s.wire ++ transmitted calls }

def handle (s : Uplink) : Option Uplink :=
  if SioService.Enabled .handler s.service then s.network codec validUri .handler else some s

def arrive (s : Uplink) : Option Uplink :=
  match s.incoming with
  | [] => some s
  | payload :: incoming =>
    if SioService.Enabled (.message payload) s.service then
      ({ s with incoming } : Uplink).network codec validUri (.message payload)
    else some s

/-- `none` when the program is gone. -/
def step (s : Uplink) : UplinkStep F → Option Uplink
  | .capture levels block => some (s.capture A levels block)
  | .slot clock => s.slot codec validUri w clock
  | .handle => s.handle codec validUri
  | .arrive => s.arrive codec validUri

def run (schedule : List (UplinkStep F)) (s : Uplink) : Option Uplink :=
  schedule.foldlM (step A codec validUri w) s

end Uplink

/-! ## The input buffer -/

section Capture

variable {F : Type} (A : FloatOps F) {slots prefill : ℕ} {q : PacedQueue Sample slots} {a : AudioProvider}

/-- The gate withholds the block or it is written. -/
theorem gateInput_buffer (st : StreamStatics F) (rb : URingBuffer) (samples : List Sample)
    (data : PwStreamData) : (gateInput A st rb samples data).2.2.buffer = data.buffer ∨
      (gateInput A st rb samples data).2.2.buffer =
        some (rb.writeAudioData (encode samples) samples.length) := by
  unfold gateInput
  dsimp only
  split
  · exact .inr rfl
  · split
    · split
      · exact .inl rfl
      · exact .inr rfl
    · exact .inr rfl

theorem Capturing.capture (h : Capturing prefill q a) (hs : 0 < slots) (levels : Levels F)
    (block : List Sample) : ∃ q' : PacedQueue Sample slots,
      Capturing prefill q' (a.processInput A levels (some ⟨some block⟩)) ∧
        (q' = q ∨ q' = q.write prefill (block.map (A.amplify levels.inputGain))) := by
  obtain ⟨hconn, rb, hrb, hrep⟩ := h
  have hinput : (a.processInput A levels (some ⟨some block⟩)).input = { a.input with
      data := (onProcessInput A (a.statics levels) a.input.data (some ⟨some block⟩)).2 } := by
    obtain ⟨n, hn⟩ := AudioProvider.foldl_postSignal
      (onProcessInput A (a.statics levels) a.input.data (some ⟨some block⟩)).1 _
    exact congrArg AudioProvider.input hn
  have hbuffer : (onProcessInput A (a.statics levels) a.input.data (some ⟨some block⟩)).2.buffer =
      (gateInput A (a.statics levels) rb (block.map (A.amplify levels.inputGain)) a.input.data).2.2.buffer := by
    have hconn' : (a.statics levels).inStreamConnected = true := hconn
    unfold onProcessInput
    rw [hrb]
    dsimp only
    rw [if_pos hconn', tick_buffer]
    rfl
  have hconn' : (a.processInput A levels (some ⟨some block⟩)).input.connected := by
    rw [hinput]
    exact hconn
  rcases gateInput_buffer A (a.statics levels) rb (block.map (A.amplify levels.inputGain)) a.input.data
    with hkept | hwritten
  · refine ⟨q, ⟨hconn', rb, ?_, hrep⟩, .inl rfl⟩
    rw [hinput]
    exact hbuffer.trans (hkept.trans hrb)
  · refine ⟨_, ⟨hconn', _, ?_, hrep.writeAudioData hs
      (length_encode (block.map (A.amplify levels.inputGain))).ge⟩, .inr ?_⟩
    · rw [hinput]
      exact hbuffer.trans hwritten
    · rw [blockSamples_encode]

/-- A block is stored exactly when the level rises by its length. -/
theorem stored_of_capture {q' : PacedQueue Sample slots} {block : List Sample}
    (hq : q' = q ∨ q' = q.write prefill block) : encode q'.items = encode q.items ++
      (if q'.items.length = q.items.length + block.length then [encode block] else []).flatten := by
  rcases hq with rfl | rfl
  · cases block with
    | nil => simp [encode]
    | cons x block => simp
  · by_cases hfits : q.items.length + block.length ≤ slots
    · rw [(q.write_of_le _ block hfits).1, List.length_append, if_pos rfl, encode_append]
      simp
    · rw [q.write_of_lt _ block (by omega)]
      cases block with
      | nil => simp [encode]
      | cons x block => simp

end Capture

/-- With fuel for every whole chunk and an open socket the loop sends them all. -/
theorem SendRun.runOn_sendChunks_open {w : World} {slots prefill k fuel : ℕ}
    {q : PacedQueue Sample slots} {s : SendRun} (h : Capturing prefill q s.audio) (hpos : 0 < k)
    (hopen : ∀ i, s.answers i) (hfuel : q.items.length < fuel) :
    ∃ t, (sendChunks k fuel).runOn (handler w) s = (.ok (), t) ∧
      ∃ (q' : PacedQueue Sample slots) (sent : List Bytes), Capturing prefill q' t.audio ∧
        t.sent = s.sent ++ sent ∧ SentChunks k q.items q'.items sent := by
  induction fuel generalizing q s with
  | zero => exact absurd hfuel (Nat.not_lt_zero _)
  | succ fuel ih =>
    rcases Nat.lt_or_ge q.items.length k with hlt | hle
    · obtain ⟨t, ht, hcap, hsent⟩ := runOn_sendChunks_of_lt (w := w) h hlt fuel
      exact ⟨t, ht, q, [], hcap, by rw [hsent, List.append_nil], .nil hlt⟩
    · have hs : 0 < slots := hpos.trans_le (hle.trans q.bounded)
      obtain ⟨s', hcap, hanswers, hsent', step⟩ := runOn_sendChunks_of_le (w := w) h hs hle
      rw [hopen 0, if_pos rfl] at hcap hsent'
      have hrest : (q.dropRaw k).items.length < fuel := by
        rw [PacedQueue.dropRaw_items, List.length_drop]
        omega
      obtain ⟨t, ht, q', sent, hcap', hsent, hchunks⟩ :=
        ih hcap (fun i => (hanswers i).trans (hopen (i + 1))) hrest
      refine ⟨t, (step fuel).trans ht, q', encode (q.items.take k) :: sent, hcap', ?_,
        hchunks.cons hpos hle⟩
      rw [hsent, hsent', List.append_assoc, List.singleton_append]

/-! ## The socket -/

section Socket

variable {codec : DoubleCodec UInt64} (validUri : Text → Bool) {c : SioClient} {e : ServerEvent}
  {frames : List (Bool × Text)} {service : SioService}

def sendHandler (f : Bool × Text) : Handler := .sendImpl f.1 f.2

theorem runCalls_send {p : Packet} (h : PacketManager.encode codec p = .ok frames) :
    SioClient.runCalls codec SioClient.dispatchSend [.send p] =
      .ok (frames.map fun f => .dispatch (sendHandler f)) := by
  rw [SioClient.runCalls, h, Json.ok_bind, SioClient.runCalls, Json.ok_bind]
  refine congrArg Except.ok ((List.append_nil _).trans ?_)
  exact (List.map_eq_flatMap).symm

theorem emit_of_receives (h : c.Receives) (hid : e.packId = -1)
    (hframes : PacketManager.encode codec e.packet = .ok frames) :
    SioService.emit codec e.name e.items c =
      .ok (c, frames.map fun f => .dispatch (sendHandler f)) := by
  obtain ⟨s, hfind, hs⟩ := h.socket
  have hmem : s ∈ c.sockets := List.mem_of_find?_eq_some hfind
  have hnsp : s.nsp = ['/'] := by simpa using List.find?_some hfind
  have hsocket : c.socket [] = (c, []) := by
    unfold SioClient.socket
    dsimp only
    rw [if_pos rfl, hfind]
  have hpacket : s.emit e.name e.items none = (s, [.send e.packet]) := by
    unfold SioSocket.emit
    rw [if_neg (by rw [hs.hasClient]; exact Bool.false_ne_true)]
    refine (sendPacket_of_listens hs _).trans ?_
    rw [ServerEvent.packet, hid, ← hnsp]
    rfl
  rw [SioService.emit, SioService.withSocket, hsocket]
  dsimp only
  rw [hfind]
  dsimp only
  rw [hpacket, List.nil_append, runCalls_send hframes, Json.ok_bind, updateSocket_self h.sorted hmem]
  rfl

theorem step_emit (h : service.client.Receives) (hid : e.packId = -1)
    (hframes : PacketManager.encode codec e.packet = .ok frames) :
    service.step codec validUri (.emit e.name e.items) =
      .ok ({ service with posted := service.posted ++ frames.map sendHandler },
        frames.map fun f => .dispatch (sendHandler f)) := by
  have hcall : SioService.call codec validUri (.emit e.name e.items) service.posted
      (service.begin (.emit e.name e.items)).client =
        .ok (service.client, frames.map fun f => .dispatch (sendHandler f)) :=
    emit_of_receives h hid hframes
  have hdispatched : (frames.map fun f => ClientCall.dispatch (sendHandler f)).filterMap
      ClientCall.dispatched = frames.map sendHandler := by
    rw [List.filterMap_map]
    exact congrFun List.filterMap_eq_map frames
  have hbegins : (frames.map fun f => ClientCall.dispatch (sendHandler f)).any ClientCall.begins = false := by
    rw [List.any_map, List.any_eq_false]
    exact fun _ _ => Bool.false_ne_true
  rw [SioService.step, hcall]
  change Except.ok (SioService.accept _ _ _, _) = _
  rw [SioService.accept, hdispatched, hbegins, Bool.or_false]
  rfl

/-- A handler that sends while the connection is open. -/
theorem step_sendHandler (hopened : service.client.conState = .opened) {f : Bool × Text}
    {posted : List Handler} (hposted : service.posted = sendHandler f :: posted) :
    service.step codec validUri .handler = .ok ({ service with posted }, [.transmit f.1 f.2]) := by
  have hcall : SioService.call codec validUri .handler service.posted (service.begin .handler).client =
      .ok (service.client, [.transmit f.1 f.2]) := by
    rw [hposted]
    have hsend : service.client.sendImpl f.1 f.2 = [.transmit f.1 f.2] := if_pos hopened
    exact congrArg (fun calls => Except.ok (service.client, calls)) hsend
  have hrest : service.posted.tail ++ [] = posted := by rw [hposted, List.tail_cons, List.append_nil]
  rw [SioService.step, hcall]
  change Except.ok (({ service with
    posted := service.posted.tail ++ [], attempt := service.attempt || false } : SioService), _) = _
  rw [hrest, Bool.or_false]

theorem step_message {payload : Text} {c : SioClient} {calls : List ClientCall}
    (h : service.client.onMessage codec payload = .ok (c, calls))
    (hnone : calls.filterMap ClientCall.dispatched = []) : ∃ service' : SioService,
    service.step codec validUri (.message payload) = .ok (service', calls) ∧ service'.client = c ∧
      service'.posted = service.posted := by
  have hcall : SioService.call codec validUri (.message payload) service.posted
      (service.begin (.message payload)).client = .ok (c, calls) := h
  refine ⟨_, by rw [SioService.step, hcall]; rfl, rfl, ?_⟩
  change service.posted ++ calls.filterMap ClientCall.dispatched = service.posted
  rw [hnone, List.append_nil]

/-- What is decoded is taken without an answer of the socket. -/
theorem onDecode_unasked (h : c.Receives) {p : Packet} (hp : Unasked codec p) :
    ∃ c' calls, c.onDecode codec (received p) = .ok (c', calls) ∧ c'.Receives ∧
      c'.conState = c.conState ∧ c'.partialPacket = c.partialPacket ∧
      messagesOf (transmitted calls) = [] ∧ calls.filterMap ClientCall.dispatched = [] := by
  cases hp with
  | ping =>
    refine ⟨c.updatePingTimeoutTimer, [.transmit false ['3']], ?_, ⟨h.sorted, h.con, h.socket⟩, rfl, rfl,
      rfl, rfl⟩
    have hdecode : c.onDecode codec (received (.ofFrame Packet.framePing)) = c.onPing codec := rfl
    have hpong : PacketManager.encode codec (.ofFrame Packet.framePong) = .ok [(false, ['3'])] := by
      rw [PacketManager.encode, accept_control (by decide)]
      rfl
    rw [hdecode, SioClient.onPing, hpong, Json.ok_bind, h.con]
    rfl
  | @event e carried unnumbered =>
    obtain ⟨s, hfind, hs⟩ := h.socket
    have hreaction : e.reaction c = [.socket (.message e.name e.items)] := by
      rw [ServerEvent.reaction, if_neg (by omega)]
    refine ⟨c, _, onDecode_event h.sorted hfind hs carried, h, rfl, rfl, ?_, ?_⟩ <;> rw [hreaction] <;> rfl

theorem Unasked.sendable {p : Packet} (h : Unasked codec p) : Sendable codec p := by
  cases h with
  | ping => exact .control (by decide)
  | event carried => exact carried.sendable

end Socket

/-! ## A chunk on the wire -/

section Chunk

variable {codec : DoubleCodec UInt64} (validUri : Text → Bool) {chunk : TimedChunk}

theorem carried_audioInEvent (h : Json.ReadsBack codec chunk.1) : (audioInEvent chunk).Carried codec := by
  have hsorted : keyLt "samples".toList "timestamp".toList := by decide
  have hsamples : "samples" ≠ String.ofList binPlaceHolder := by decide
  have htimestamp : "timestamp" ≠ String.ofList binPlaceHolder := by decide
  have hid : IsPackId (-1) := ⟨le_refl _, by decide⟩
  have hcount : 1 ≤ 2 ^ 31 := by decide
  refine ⟨List.forall_mem_singleton.mpr (.object ?_ ?_ ?_), hid, hcount⟩
  · exact List.forall_mem_cons.mpr ⟨.binary _, List.forall_mem_singleton.mpr (.double h)⟩
  · exact List.pairwise_pair.mpr hsorted
  · exact List.forall_mem_cons.mpr ⟨fun h => absurd h hsamples,
      List.forall_mem_singleton.mpr fun h => absurd h htimestamp⟩

/-- No frame of a message is mistaken for the answer to a ping. -/
theorem ne_pong_of_encode {p : Packet} (hframe : p.frame = Packet.frameMessage)
    (hwritable : Writable codec p.message) {frames : List (Bool × Text)}
    (h : PacketManager.encode codec p = .ok frames) : messagesOf frames = frames := by
  obtain ⟨v, hv⟩ := hwritable.conveys []
  rw [PacketManager.encode, accept_message hframe hv, Json.ok_bind] at h
  obtain rfl := Except.ok.inj h
  refine List.filter_eq_self.mpr fun f hf => decide_eq_true ?_
  rcases List.mem_cons.mp hf with rfl | hf
  · rw [headerText]
    exact fun h => absurd (List.head_eq_of_cons_eq (congrArg Prod.snd h)) (by decide)
  · obtain ⟨b, -, rfl⟩ := List.mem_map.mp hf
    exact fun h => Bool.false_ne_true (congrArg Prod.fst h).symm

theorem messagesOf_append (xs ys : List (Bool × Text)) :
    messagesOf (xs ++ ys) = messagesOf xs ++ messagesOf ys := List.filter_append ..

def chunkPackets (chunks : List TimedChunk) : List Packet :=
  chunks.map fun chunk => (audioInEvent chunk).packet

theorem sendable_chunkPackets {chunks : List TimedChunk}
    (h : ∀ chunk ∈ chunks, Json.ReadsBack codec chunk.1) : ∀ p ∈ chunkPackets chunks, Sendable codec p := by
  intro p hp
  obtain ⟨chunk, hchunk, rfl⟩ := List.mem_map.mp hp
  exact (carried_audioInEvent (h chunk hchunk)).sendable

theorem mapM_append_of_ok {α β ε : Type} {f : α → Except ε β} {xs ys : List α} {as bs : List β}
    (hxs : xs.mapM f = .ok as) (hys : ys.mapM f = .ok bs) : (xs ++ ys).mapM f = .ok (as ++ bs) := by
  rw [List.mapM_append, hxs, Json.ok_bind, hys]
  rfl

/-- Every payload of every chunk waits behind what waits already. -/
theorem emitAll_eq {chunks : List TimedChunk} (h : ∀ chunk ∈ chunks, Json.ReadsBack codec chunk.1)
    (service : SioService) (hservice : service.client.Receives) : ∃ frames,
    (chunkPackets chunks).mapM (PacketManager.encode codec) = .ok frames ∧
      messagesOf frames.flatten = frames.flatten ∧
      Uplink.emitAll codec validUri chunks service =
        .ok { service with posted := service.posted ++ frames.flatten.map sendHandler } := by
  induction chunks generalizing service with
  | nil => exact ⟨[], rfl, rfl, by rw [List.flatten_nil, List.map_nil, List.append_nil]; rfl⟩
  | cons chunk chunks ih =>
    obtain ⟨hchunk, hchunks⟩ := List.forall_mem_cons.mp h
    have hcarried := carried_audioInEvent hchunk
    obtain ⟨frames, hframes, -⟩ := hcarried.sendable.delivered
    have hmessages : messagesOf frames = frames := ne_pong_of_encode rfl
      (.array (List.forall_mem_cons.mpr ⟨.string _, hcarried.writable⟩)) hframes
    have hemit := step_emit validUri hservice rfl hframes
    obtain ⟨others, hothers, hkept, hall⟩ := ih hchunks
      { service with posted := service.posted ++ frames.map sendHandler } hservice
    refine ⟨frames :: others, mapM_cons_of_ok hframes hothers, ?_, ?_⟩
    · rw [List.flatten_cons, messagesOf_append, hmessages, hkept]
    · rw [Uplink.emitAll, List.foldlM_cons, hemit]
      refine hall.trans ?_
      rw [List.flatten_cons, List.map_append, List.append_assoc]

end Chunk

namespace Uplink

variable {codec : DoubleCodec UInt64} (validUri : Text → Bool) {n : ℕ} {s : Uplink}

structure Invariant (codec : DoubleCodec UInt64) (n : ℕ) (s : Uplink) : Prop where
  started : s.client.serverStarted
  chunk : s.client.numInputSamplesPerChunk = n
  /-- What was taken out of the buffer and what is in it are the blocks stored. -/
  input : ∃ (slots prefill : ℕ) (q : PacedQueue Sample slots), 0 < slots ∧
    Capturing prefill q s.audio ∧ (s.chunks.map Prod.snd).flatten ++ encode q.items = s.stored.flatten
  whole : ∀ chunk ∈ s.chunks, chunk.2.length = 4 * n ∧ Json.ReadsBack codec chunk.1
  receives : s.service.client.Receives
  opened : s.service.client.conState = .opened
  incoming : ∃ coming : List Packet, (∀ p ∈ coming, Unasked codec p) ∧
    PacketManager.putPayloads codec s.incoming s.service.client.partialPacket =
      .ok (none, coming.map received)
  /-- What was given to the connection and what waits for it are the payloads of the chunks. -/
  sent : ∃ frames waiting, (chunkPackets s.chunks).mapM (PacketManager.encode codec) = .ok frames ∧
    s.service.posted = waiting.map sendHandler ∧ messagesOf frames.flatten = frames.flatten ∧
    messagesOf s.wire ++ waiting = frames.flatten

theorem Invariant.handle (h : s.Invariant codec n) :
    ∃ t, s.handle codec validUri = some t ∧ t.Invariant codec n := by
  obtain ⟨frames, waiting, hframes, hposted, hmessages, hwire⟩ := h.sent
  unfold Uplink.handle
  split
  · rename_i henabled
    cases waiting with
    | nil => exact absurd hposted henabled.2
    | cons f waiting =>
      have hmem : f ∈ frames.flatten := hwire ▸ List.mem_append_right _ List.mem_cons_self
      have hf : messagesOf [f] = [f] :=
        List.filter_eq_self.mpr (List.forall_mem_singleton.mpr (List.filter_eq_self.mp hmessages f hmem))
      rw [network, step_sendHandler validUri h.opened hposted]
      refine ⟨_, rfl, h.started, h.chunk, h.input, h.whole, h.receives, h.opened, h.incoming, frames, waiting,
        hframes, rfl, hmessages, ?_⟩
      change messagesOf (s.wire ++ [f]) ++ waiting = _
      rw [messagesOf_append, hf, List.append_assoc, List.singleton_append, hwire]
  · exact ⟨s, rfl, h⟩

/-- One payload of those that are still to come. -/
theorem onMessage_unasked {payload : Text} {incoming : List Text} {c : SioClient} (h : c.Receives)
    {coming : List Packet} (hcoming : ∀ p ∈ coming, Unasked codec p)
    (hput : PacketManager.putPayloads codec (payload :: incoming) c.partialPacket =
      .ok (none, coming.map received)) : ∃ c' calls, ∃ rest : List Packet, c.onMessage codec payload = .ok (c', calls) ∧
      c'.Receives ∧ c'.conState = c.conState ∧ messagesOf (transmitted calls) = [] ∧
      calls.filterMap ClientCall.dispatched = [] ∧ (∀ p ∈ rest, Unasked codec p) ∧
      PacketManager.putPayloads codec incoming c'.partialPacket = .ok (none, rest.map received) := by
  obtain ⟨next, decoded, rest, hone, hmore, heq⟩ := PacketManager.putPayloads_cons_ok hput
  have hreceives : ({ c with partialPacket := next } : SioClient).Receives := ⟨h.sorted, h.con, h.socket⟩
  rw [SioClient.onMessage, hone, Json.ok_bind]
  cases decoded with
  | none => exact ⟨_, [], coming, rfl, hreceives, rfl, rfl, rfl, hcoming, hmore.trans (by rw [heq]; rfl)⟩
  | some p =>
    -- The packet is the first of those still to come.
    cases coming with
    | nil => cases heq
    | cons q coming =>
      obtain ⟨rfl, rfl⟩ := List.cons.inj heq
      obtain ⟨hq, hcoming⟩ := List.forall_mem_cons.mp hcoming
      obtain ⟨c', calls, hdecode, hc', hstate, hwaiting, hnothing, hnone⟩ := onDecode_unasked hreceives hq
      refine ⟨c', calls, coming, hdecode, hc', hstate, hnothing, hnone, hcoming, ?_⟩
      rw [hwaiting]
      exact hmore

theorem Invariant.arrive (h : s.Invariant codec n) :
    ∃ t, s.arrive codec validUri = some t ∧ t.Invariant codec n := by
  obtain ⟨coming, hcoming, hput⟩ := h.incoming
  obtain ⟨frames, waiting, hframes, hposted, hmessages, hwire⟩ := h.sent
  unfold Uplink.arrive
  cases hincoming : s.incoming with
  | nil => exact ⟨s, rfl, h⟩
  | cons payload incoming =>
    dsimp only
    split
    · rw [hincoming] at hput
      obtain ⟨c, calls, rest, hmessage, hreceives, hstate, hnothing, hnone, hrest, hmore⟩ :=
        onMessage_unasked h.receives hcoming hput
      obtain ⟨service, hstep, rfl, hkept⟩ := step_message validUri hmessage hnone
      rw [network, hstep]
      refine ⟨_, rfl, h.started, h.chunk, h.input, h.whole, hreceives, hstate.trans h.opened,
        ⟨rest, hrest, hmore⟩, frames, waiting, hframes, hkept.trans hposted, hmessages, ?_⟩
      change messagesOf (s.wire ++ transmitted calls) ++ waiting = _
      rw [messagesOf_append, hnothing, List.append_nil, hwire]
    · exact ⟨s, rfl, h⟩

theorem Invariant.capture {F : Type} (A : FloatOps F) (h : s.Invariant codec n) (levels : Levels F)
    (block : List Sample) : (s.capture A levels block).Invariant codec n := by
  obtain ⟨slots, prefill, q, hs, hcap, hstored⟩ := h.input
  obtain ⟨q', hcap', hq⟩ := hcap.capture A hs levels block
  refine ⟨h.started, h.chunk, ⟨slots, prefill, q', hs, hcap', ?_⟩, h.whole, h.receives, h.opened, h.incoming,
    h.sent⟩
  have hadded := stored_of_capture hq
  rw [List.length_map] at hadded
  dsimp only [Uplink.capture]
  rw [hcap'.bufferedSamples_eq, hcap.bufferedSamples_eq, hadded, ← List.append_assoc, hstored,
    List.flatten_append]

theorem Invariant.slot (h : s.Invariant codec n) (w : World) (hn : 0 < n) {clock : ℕ → UInt64}
    (hclock : ∀ k, Json.ReadsBack codec (clock k)) :
    ∃ t, s.slot codec validUri w clock = some t ∧ t.Invariant codec n := by
  obtain ⟨slots, prefill, q, hs, hcap, hstored⟩ := h.input
  have hopen : ∀ i : ℕ, (fun _ : ℕ => s.service.client.opened) i = true := fun _ => decide_eq_true h.opened
  obtain ⟨r, hr, q', sent, hcap', hsent, hchunks⟩ := SendRun.runOn_sendChunks_open (w := w)
    (s := ⟨s.audio, fun _ => s.service.client.opened, []⟩) hcap hn hopen (Nat.lt_succ_self _)
  obtain rfl : r.sent = sent := hsent
  have hslot : (onInputBufferWrite (bufferedSamples s.audio.input.data + 1) s.client).runOn
      (SendRun.handler w) ⟨s.audio, fun _ => s.service.client.opened, []⟩ = (.ok (), r) := by
    rw [runOn_onInputBufferWrite w hcap h.started h.chunk hn, hcap.bufferedSamples_eq]
    exact hr
  have hsamples : (timed clock r.sent).map Prod.snd = r.sent :=
    List.map_snd_zip (by rw [List.length_map, List.length_range])
  have hwhole : ∀ chunk ∈ timed clock r.sent, chunk.2.length = 4 * n ∧ Json.ReadsBack codec chunk.1 := by
    intro chunk hchunk
    obtain ⟨htime, hdata⟩ := List.of_mem_zip hchunk
    obtain ⟨k, -, hk⟩ := List.mem_map.mp htime
    exact ⟨hchunks.payload _ hdata, hk ▸ hclock k⟩
  obtain ⟨more, hmore, hkept, hemit⟩ := emitAll_eq validUri
    (fun chunk hchunk => (hwhole chunk hchunk).2) s.service h.receives
  obtain ⟨frames, waiting, hframes, hposted, hmessages, hwire⟩ := h.sent
  rw [Uplink.slot, hslot]
  dsimp only
  rw [hemit]
  refine ⟨_, rfl, h.started, h.chunk, ⟨slots, prefill, q', hs, hcap', ?_⟩,
    List.forall_mem_append.mpr ⟨h.whole, hwhole⟩, h.receives, h.opened, h.incoming,
    frames ++ more, waiting ++ more.flatten, ?_, ?_, ?_, ?_⟩
  · dsimp only
    rw [List.map_append, hsamples, List.flatten_append, List.append_assoc, hchunks.order, hstored]
  · rw [chunkPackets, List.map_append]
    exact mapM_append_of_ok hframes hmore
  · dsimp only
    rw [hposted, List.map_append]
  · rw [List.flatten_append, messagesOf_append, hmessages, hkept]
  · dsimp only
    rw [List.flatten_append, ← hwire, List.append_assoc]

/-! ## Runs -/

/-- A session at the start of its capture; the server sends pings and events without a number. -/
structure Starts (codec : DoubleCodec UInt64) (rate n : ℕ) (s : Uplink) : Prop where
  started : s.client.serverStarted
  chunk : s.client.numInputSamplesPerChunk = n
  connected : s.audio.input.connected
  buffer : s.audio.input.data.buffer = some (.ofSampleRate rate)
  receives : s.service.client.Receives
  opened : s.service.client.conState = .opened
  partialPacket : s.service.client.partialPacket = none
  posted : s.service.posted = []
  incoming : ∃ (coming : List Packet) (frames : List (List (Bool × Text))),
    (∀ p ∈ coming, Unasked codec p) ∧ coming.mapM (PacketManager.encode codec) = .ok frames ∧
      s.incoming = frames.flatten.map Prod.snd
  stored : s.stored = []
  chunks : s.chunks = []
  wire : s.wire = []

theorem Starts.invariant {rate : ℕ} (h : s.Starts codec rate n) (hrate : 2 ≤ rate) :
    s.Invariant codec n := by
  obtain ⟨coming, frames, hcoming, hencode, hincoming⟩ := h.incoming
  obtain ⟨frames', hencode', hput⟩ := putPayloads_encode fun p hp => (hcoming p hp).sendable
  obtain rfl : frames = frames' := Except.ok.inj (hencode.symm.trans hencode')
  have hcapturing : Capturing (URingBuffer.prefillFor rate)
      (.empty : PacedQueue Sample (URingBuffer.slotsFor rate)) s.audio :=
    ⟨h.connected, _, h.buffer, URingBuffer.represents_ofSampleRate (by omega)⟩
  refine ⟨h.started, h.chunk, ⟨_, _, _, URingBuffer.slotsFor_pos (by omega), hcapturing, ?_⟩, ?_, h.receives,
    h.opened, ⟨coming, hcoming, ?_⟩, [], [], ?_, h.posted, rfl, ?_⟩
  · rw [h.chunks, h.stored]
    rfl
  · rw [h.chunks]
    exact List.forall_mem_nil _
  · rw [hincoming, h.partialPacket, hput]
  · rw [h.chunks]
    rfl
  · rw [h.wire]
    rfl

section Run

variable {F : Type} (A : FloatOps F) (w : World)

/-- The clock that a slot reads gives numbers that the wire carries. -/
def ReadsClock (codec : DoubleCodec UInt64) : UplinkStep F → Prop
  | .slot clock => ∀ k, Json.ReadsBack codec (clock k)
  | _ => True

theorem Invariant.step (h : s.Invariant codec n) (hn : 0 < n) {e : UplinkStep F} (he : ReadsClock codec e) :
    ∃ t, s.step A codec validUri w e = some t ∧ t.Invariant codec n := by
  cases e with
  | capture levels block => exact ⟨_, rfl, h.capture A levels block⟩
  | slot clock => exact h.slot validUri w hn he
  | handle => exact h.handle validUri
  | arrive => exact h.arrive validUri

def offered : UplinkStep F → Option Bytes
  | .capture levels block => some (encode (block.map (A.amplify levels.inputGain)))
  | _ => none

theorem network_stored {e : ServiceEvent} {t : Uplink} (h : s.network codec validUri e = some t) :
    t.stored = s.stored := by
  unfold network at h
  split at h
  · cases h
  · obtain rfl := Option.some.inj h
    rfl

/-- What is stored was offered. -/
theorem step_stored {e : UplinkStep F} {t : Uplink} (h : s.step A codec validUri w e = some t) :
    ∃ more, t.stored = s.stored ++ more ∧ more.Sublist (offered A e).toList := by
  have kept {t : Uplink} (h : t.stored = s.stored) :
      ∃ more, t.stored = s.stored ++ more ∧ more.Sublist (offered A e).toList :=
    ⟨[], h.trans (List.append_nil _).symm, List.nil_sublist _⟩
  cases e with
  | capture levels block =>
    obtain rfl := Option.some.inj h
    refine ⟨_, rfl, ?_⟩
    split
    · exact List.Sublist.refl _
    · exact List.nil_sublist _
  | slot clock =>
    unfold Uplink.step Uplink.slot at h
    dsimp only at h
    split at h
    · cases h
    · split at h
      · cases h
      · obtain rfl := Option.some.inj h
        exact kept rfl
  | handle =>
    unfold Uplink.step Uplink.handle at h
    dsimp only at h
    split at h
    · exact kept (network_stored validUri h)
    · exact kept (congrArg stored (Option.some.inj h).symm)
  | arrive =>
    unfold Uplink.step Uplink.arrive at h
    dsimp only at h
    split at h
    · exact kept (congrArg stored (Option.some.inj h).symm)
    · split at h
      · have hstored := network_stored validUri h
        exact kept hstored
      · exact kept (congrArg stored (Option.some.inj h).symm)

theorem Invariant.run (h : s.Invariant codec n) (hn : 0 < n) {schedule : List (UplinkStep F)}
    (hclock : ∀ e ∈ schedule, ReadsClock codec e) : ∃ t, s.run A codec validUri w schedule = some t ∧
      t.Invariant codec n ∧ ∃ more, t.stored = s.stored ++ more ∧
        more.Sublist (schedule.filterMap (offered A)) := by
  induction schedule generalizing s with
  | nil => exact ⟨s, rfl, h, [], (List.append_nil _).symm, List.nil_sublist _⟩
  | cons e schedule ih =>
    obtain ⟨he, hschedule⟩ := List.forall_mem_cons.mp hclock
    obtain ⟨t, ht, hinv⟩ := h.step validUri A w hn he
    obtain ⟨more, hmore, hoffered⟩ := step_stored validUri A w ht
    obtain ⟨r, hr, hinv', others, hothers, hrest⟩ := ih hinv hschedule
    refine ⟨r, ?_, hinv', more ++ others, by rw [hothers, hmore, List.append_assoc], ?_⟩
    · rw [Uplink.run, List.foldlM_cons, ht]
      exact hr
    · have hsplit : (e :: schedule).filterMap (offered A) =
          (offered A e).toList ++ schedule.filterMap (offered A) := by
        rw [List.filterMap_cons]
        cases offered A e <;> rfl
      rw [hsplit]
      exact hoffered.append hrest

end Run

/-- Before the last payloads have come, packets of the same sequence have. -/
theorem putPayloads_of_append {xs ys : List Text} {before after : Option Packet} {packets : List Packet}
    (h : PacketManager.putPayloads codec (xs ++ ys) before = .ok (after, packets)) :
    ∃ between decoded, PacketManager.putPayloads codec xs before = .ok (between, decoded) ∧
      decoded <+: packets := by
  induction xs generalizing before packets with
  | nil => exact ⟨before, [], rfl, List.nil_prefix⟩
  | cons x xs ih =>
    obtain ⟨next, decoded, rest, hx, hxs, rfl⟩ := PacketManager.putPayloads_cons_ok h
    obtain ⟨between, others, hothers, hprefix⟩ := ih hxs
    refine ⟨between, decoded.toList ++ others, ?_, (List.prefix_append_right_inj _).mpr hprefix⟩
    rw [PacketManager.putPayloads_cons hx, hothers]
    rfl

/-- Whatever order the threads step in and whatever the server sends meanwhile, the program goes on;
the blocks stored are blocks captured, the chunks are their samples in order, each chunk whole, with the
samples still in the buffer behind them; and the payloads that the connection carries, the answers to
pings apart, are decoded at any time into the first `AUDIO_IN` packets of these chunks, into all of them
once nothing waits. -/
theorem sent_of_captured {F : Type} (A : FloatOps F) (w : World) {rate : ℕ} (hrate : 2 ≤ rate)
    (hn : 0 < n) (hstarts : s.Starts codec rate n) (schedule : List (UplinkStep F))
    (hclock : ∀ e ∈ schedule, ReadsClock codec e) : ∃ t, s.run A codec validUri w schedule = some t ∧
      t.stored.Sublist (schedule.filterMap (offered A)) ∧
      (∀ chunk ∈ t.chunks, chunk.2.length = 4 * n) ∧
      (t.chunks.map Prod.snd).flatten <+: t.stored.flatten ∧
      t.stored.flatten.length = 4 * n * t.chunks.length + 4 * bufferedSamples t.audio.input.data ∧
      (∃ between decoded, PacketManager.putPayloads codec ((messagesOf t.wire).map Prod.snd) none =
        .ok (between, decoded) ∧ decoded <+: (chunkPackets t.chunks).map received) ∧
      (t.service.posted = [] → PacketManager.putPayloads codec ((messagesOf t.wire).map Prod.snd) none =
        .ok (none, (chunkPackets t.chunks).map received)) := by
  obtain ⟨t, hrun, hinv, more, hmore, hoffered⟩ :=
    (hstarts.invariant hrate).run validUri A w hn hclock
  obtain ⟨slots, prefill, q, -, hcap, hstored⟩ := hinv.input
  obtain ⟨frames, waiting, hframes, hposted, -, hwire⟩ := hinv.sent
  obtain ⟨frames', hframes', hput⟩ := putPayloads_encode
    (sendable_chunkPackets fun chunk hchunk => (hinv.whole chunk hchunk).2)
  obtain rfl : frames = frames' := Except.ok.inj (hframes.symm.trans hframes')
  have hlength : ((t.chunks.map Prod.snd).flatten).length = 4 * n * t.chunks.length := by
    have hall : ∀ k ∈ (t.chunks.map Prod.snd).map List.length, k = 4 * n := by
      intro k hk
      obtain ⟨b, hb, rfl⟩ := List.mem_map.mp hk
      obtain ⟨chunk, hchunk, rfl⟩ := List.mem_map.mp hb
      exact (hinv.whole chunk hchunk).1
    rw [List.length_flatten, List.sum_eq_card_nsmul _ _ hall, List.length_map, List.length_map, Nat.nsmul_eq_mul,
      Nat.mul_comm]
  refine ⟨t, hrun, ?_, fun chunk hchunk => (hinv.whole chunk hchunk).1, ⟨_, hstored⟩, ?_, ?_, ?_⟩
  · rw [hmore, hstarts.stored, List.nil_append]
    exact hoffered
  · rw [← hstored, List.length_append, hlength, length_encode, hcap.bufferedSamples_eq]
  · rw [← hwire, List.map_append] at hput
    exact putPayloads_of_append hput
  · intro hnone
    have hempty : waiting = [] := List.map_eq_nil_iff.mp (hposted.symm.trans hnone)
    rw [hempty, List.append_nil] at hwire
    rw [hwire]
    exact hput

def pingAndStatus : List Packet := [.ofFrame Packet.framePing, ServerEvent.packet ⟨"SET_STATUS", [.array []], -1⟩]

/-- A session at 200 samples a second in chunks of one sample, whose server sends these packets. -/
def ofPackets (codec : DoubleCodec UInt64) (coming : List Packet) : Uplink where
  audio := .capturing 200
  client := { serverStarted := true, numInputSamplesPerChunk := 1 }
  service := { client := listeningClient, running := true, link := true }
  incoming :=
    match coming.mapM (PacketManager.encode codec) with
    | .ok frames => frames.flatten.map Prod.snd
    | .error _ => []

theorem unasked_pingAndStatus : ∀ p ∈ pingAndStatus, Unasked codec p := by
  have hid : IsPackId (-1) := ⟨le_refl _, by decide⟩
  refine List.forall_mem_cons.mpr ⟨.ping, List.forall_mem_singleton.mpr (.event ⟨?_, hid, ?_⟩ (by decide))⟩
  · exact List.forall_mem_singleton.mpr (.array (List.forall_mem_nil _))
  · exact Nat.zero_le _

theorem starts_ofPackets {coming : List Packet} (h : ∀ p ∈ coming, Unasked codec p) :
    (ofPackets codec coming).Starts codec 200 1 := by
  obtain ⟨frames, hencode, -⟩ := putPayloads_encode fun p hp => (h p hp).sendable
  refine ⟨rfl, rfl, rfl, rfl, ⟨List.pairwise_singleton _ _, rfl, _, rfl, listens_listeningSocket⟩, rfl, rfl,
    rfl, ⟨coming, frames, h, hencode, ?_⟩, rfl, rfl, rfl⟩
  rw [ofPackets, hencode]

/-- Two samples are captured while a ping comes in between their chunks. -/
def captureAndPing : List (UplinkStep Unit) :=
  [.capture ⟨(), (), ()⟩ [.zero], .slot fun _ => 0x3fe0000000000000, .handle, .arrive,
    .capture ⟨(), (), ()⟩ [.zero], .slot fun _ => 0x3fe0000000000000, .handle, .handle]

theorem readsClock_captureAndPing : ∀ e ∈ captureAndPing, ReadsClock halfCodec e := by
  refine List.forall_mem_cons.mpr ⟨trivial, ?_⟩
  refine List.forall_mem_cons.mpr ⟨fun _ => readsBack_half, ?_⟩
  refine List.forall_mem_cons.mpr ⟨trivial, ?_⟩
  refine List.forall_mem_cons.mpr ⟨trivial, ?_⟩
  refine List.forall_mem_cons.mpr ⟨trivial, ?_⟩
  refine List.forall_mem_cons.mpr ⟨fun _ => readsBack_half, ?_⟩
  refine List.forall_mem_cons.mpr ⟨trivial, ?_⟩
  exact List.forall_mem_cons.mpr ⟨trivial, List.forall_mem_nil _⟩

theorem sent_of_captured_two : ∃ t, (ofPackets halfCodec pingAndStatus).run plainFloats halfCodec
      (fun _ => true) .online captureAndPing = some t ∧
    t.stored.Sublist (captureAndPing.filterMap (offered plainFloats)) ∧
    (∀ chunk ∈ t.chunks, chunk.2.length = 4 * 1) ∧
    (t.chunks.map Prod.snd).flatten <+: t.stored.flatten ∧
    t.stored.flatten.length = 4 * 1 * t.chunks.length + 4 * bufferedSamples t.audio.input.data ∧
    (∃ between decoded, PacketManager.putPayloads halfCodec ((messagesOf t.wire).map Prod.snd) none =
      .ok (between, decoded) ∧ decoded <+: (chunkPackets t.chunks).map received) ∧
    (t.service.posted = [] →
      PacketManager.putPayloads halfCodec ((messagesOf t.wire).map Prod.snd) none =
        .ok (none, (chunkPackets t.chunks).map received)) :=
  sent_of_captured (fun _ => true) plainFloats .online (by decide) Nat.one_pos
    (starts_ofPackets unasked_pingAndStatus) captureAndPing readsClock_captureAndPing

end Uplink

end UwavClient
