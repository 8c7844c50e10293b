import UwavClient.Audio.Playback
import UwavClient.Client.Threads
import UwavClient.Socket.Events

/-!
# From the server to the speakers

Three threads take a chunk from the wire to PipeWire: the network thread decodes payloads and posts
the events in them, the main thread performs the slot of one posted event after the other, and
callbacks take samples out of the output buffer. Whatever order they step in, the samples played are
those of whole chunks of the server, in its order, none of them twice.
-/

namespace UwavClient

open Json (DoubleCodec)

/-! ## What the server sends -/

/-- The server sends events, and pings at its own pace. -/
inductive ServerPacket where
  | event (e : ServerEvent)
  | ping

namespace ServerPacket

def packet : ServerPacket → Packet
  | .event e => e.packet
  | .ping => .ofFrame Packet.framePing

/-- The name and the messages that are posted for the event. -/
def posted : ServerPacket → Option (String × List Message)
  | .event e => some (e.name, e.items)
  | .ping => none

theorem posted_cons (p : ServerPacket) (packets : List ServerPacket) :
    (p :: packets).filterMap posted = p.posted.toList ++ packets.filterMap posted := by
  cases p <;> rfl

end ServerPacket

/-- A message of a server that streams chunks of `n` samples. -/
inductive StreamMessage (n : ℕ) : String × List Message → Prop where
  | audioOut {fields : List (String × Message)} {items : List Message} {data : Bytes}
    (found : audioOutFields fields = .ok (n, some data)) (length : data.length = 4 * n) :
    StreamMessage n ("AUDIO_OUT", .object fields :: items)
  | status (m : Message) (items : List Message) : StreamMessage n ("SET_STATUS", m :: items)

/-- What the wire format carries of a stream of chunks of `n` samples. -/
def ServerPacket.Streams (codec : DoubleCodec UInt64) (n : ℕ) : ServerPacket → Prop
  | .event e => e.Carried codec ∧ StreamMessage n (e.name, e.items)
  | .ping => True

def samplesOf (m : String × List Message) : Option Bytes :=
  match m.2 with
  | .object fields :: _ =>
    if m.1 = "AUDIO_OUT" then (audioOutFields fields).toOption.bind (·.2) else none
  | _ => none

/-! ## The three threads -/

/-- What the threads share, and what has been done with the messages so far: `handled` are the slots
performed, `accepted` the chunks for which the buffer had room, `played` what callbacks took. -/
structure Broadcast where
  wire : List Text
  sio : SioClient
  queue : List (String × List Message) := []
  client : UwaVClient
  audio : AudioProvider
  handled : List (String × List Message) := []
  accepted : List Bytes := []
  played : Bytes := []

inductive BroadcastStep (F : Type) where
  | arrive
  | handle
  | callback (levels : Levels F) (b : OutputBuffer)

namespace Broadcast

variable {F : Type} (A : FloatOps F) (codec : DoubleCodec UInt64) (w : World)

def postedMessages (calls : List ClientCall) : List (String × List Message) :=
  calls.filterMap fun
    | .socket (.message name messages) => some (name, messages)
    | _ => none

def arrive (s : Broadcast) : Option Broadcast :=
  match s.wire with
  | [] => some s
  | payload :: wire =>
    match s.sio.onMessage codec payload with
    | .ok (sio, calls) => some { s with wire, sio, queue := s.queue ++ postedMessages calls }
    | .error _ => none

/-- The buffer has room for as many samples as a chunk has. -/
def hasRoom (s : Broadcast) : Bool :=
  s.audio.output.data.buffer.any fun rb =>
    rb.writeAheadWindow + s.client.numOutputSamplesPerChunk ≤ rb.bufferSize

def handle (s : Broadcast) : Option Broadcast :=
  match s.queue with
  | [] => some s
  | m :: queue =>
    match (onSioMessage m.1 m.2 s.client).exec w s.audio with
    | (.ok client, audio) =>
      some { s with
        queue, client, audio
        handled := s.handled ++ [m]
        accepted := s.accepted ++ if s.hasRoom then (samplesOf m).toList else [] }
    | (.error _, _) => none

def callback (levels : Levels F) (b : OutputBuffer) (s : Broadcast) : Option Broadcast :=
  match onProcessOutput A (s.audio.statics levels) s.audio.output.data (some b),
    s.audio.processOutput A levels (some b) with
  | .ok (chunk, _, _), .ok audio =>
    some { s with audio, played := s.played ++ chunk.elim [] (·.fill.run) }
  | _, _ => none

/-- `none` when the program is gone. -/
def step (s : Broadcast) : BroadcastStep F → Option Broadcast
  | .arrive => s.arrive codec
  | .handle => s.handle w
  | .callback levels b => s.callback A levels b

def run (schedule : List (BroadcastStep F)) (s : Broadcast) : Option Broadcast :=
  schedule.foldlM (step A codec w) s

end Broadcast

/-! ## The slots -/

section Slots

open Slot

variable {codec : DoubleCodec UInt64} {w : World} {c : UwaVClient} {a : AudioProvider}

theorem exec_sioToString {m : Message} (h : Writable codec m) : ∃ text,
    (sioToString m).exec w a = (.ok text, a) := by
  cases h <;> exact ⟨_, rfl⟩

theorem exec_statusField (key : String) {m : Message} (h : Writable codec m) :
    (statusField key m c).exec w a = (.ok c, a) := by
  unfold statusField
  split
  · obtain ⟨text, htext⟩ := exec_sioToString (w := w) (a := a) h
    rw [exec_bind, htext]
    rfl
  · rfl

theorem exec_forFields_status {fields : List (String × Message)}
    (h : ∀ f ∈ fields, Writable codec f.2) :
    (forFields fields statusField c).exec w a = (.ok c, a) := by
  induction fields with
  | nil => rfl
  | cons f fields ih =>
    rw [forFields, List.foldlM_cons, exec_bind,
      exec_statusField f.1 (h f List.mem_cons_self)]
    exact ih fun g hg => h g (List.mem_cons_of_mem _ hg)

/-- A status changes nothing but labels. -/
theorem exec_onSetStatus {m : Message} (h : Writable codec m) (items : List Message) :
    (onSioMessage "SET_STATUS" (m :: items) c).exec w a = (.ok c, a) := by
  rw [onSioMessage, if_neg (by decide), if_pos rfl, onSetStatus, withObject, Message.first,
    Slot.ofExcept, pure_bind]
  cases h with
  | object hfields => exact exec_forFields_status hfields
  | _ => rfl

/-- A chunk of the right length is written to the output buffer. -/
theorem exec_onAudioOut {fields : List (String × Message)} {data : Bytes} {n : ℕ} {rb : URingBuffer}
    (hfound : audioOutFields fields = .ok (n, some data)) (hn : 0 < n) (hstarted : c.serverStarted)
    (hchunk : c.numOutputSamplesPerChunk = n) (hconnected : a.output.connected)
    (hbuffer : a.output.data.buffer = some rb) (items : List Message) :
    (onSioMessage "AUDIO_OUT" (.object fields :: items) c).exec w a =
      (.ok c, a.update (fun e =>
        { e with data := { e.data with buffer := some (rb.writeRawData data n) } }) .output) := by
  have hwrite : (Slot.writeRawData data n).exec w a =
      (.ok (), a.update (fun e =>
        { e with data := { e.data with buffer := some (rb.writeRawData data n) } }) .output) := by
    refine exec_ofExcept_ask w (.writeRawData data n) id ?_
    have hcall : a.buffer .output = .ok rb := by
      rw [AudioProvider.buffer, AudioProvider.endpoint, hbuffer]
    change a.callBuffer .output (fun rb => ((), rb.writeRawData data n)) = _
    rw [AudioProvider.callBuffer, hcall]
  rw [onSioMessage, if_pos rfl, onAudioOut, Message.first, Slot.ofExcept, pure_bind]
  change (onSamplesReceived (.object fields) c).exec w a = _
  rw [onSamplesReceived, hstarted, Bool.not_true, if_neg Bool.false_ne_true, exec_bind,
    exec_connected]
  dsimp only [AudioProvider.endpoint]
  rw [hconnected, Bool.not_true, if_neg Bool.false_ne_true, Message.getMap, Slot.ofExcept, pure_bind,
    hfound, Slot.ofExcept, pure_bind]
  dsimp only
  rw [if_neg (by omega), hchunk, if_neg (not_not.mpr rfl), exec_bind, hwrite]
  rfl

end Slots

/-! ## The network thread -/

/-- The connection is open, and its default socket listens. -/
structure SioClient.Receives (c : SioClient) : Prop where
  sorted : c.Sorted
  con : c.con
  socket : ∃ s, c.findSocket ['/'] = some s ∧ s.Listens

section Network

variable {codec : DoubleCodec UInt64} {c : SioClient} {n : ℕ}

theorem postedMessages_append (xs ys : List ClientCall) :
    Broadcast.postedMessages (xs ++ ys) =
      Broadcast.postedMessages xs ++ Broadcast.postedMessages ys :=
  List.filterMap_append

theorem postedMessages_reaction (c : SioClient) (e : ServerEvent) :
    Broadcast.postedMessages (e.reaction c) = [(e.name, e.items)] := by
  have hanswer : ∀ payload, Broadcast.postedMessages (c.sendImpl false payload) = [] := by
    intro payload
    unfold SioClient.sendImpl
    split <;> rfl
  unfold ServerEvent.reaction
  rw [← List.singleton_append, postedMessages_append]
  split
  · rw [hanswer]
    rfl
  · rfl

/-- What is decoded is posted, and the connection goes on. -/
theorem onDecode_streams (h : c.Receives) {p : ServerPacket} (hp : p.Streams codec n) :
    ∃ c' calls, c.onDecode codec (received p.packet) = .ok (c', calls) ∧ c'.Receives ∧
      c'.partialPacket = c.partialPacket ∧ Broadcast.postedMessages calls = p.posted.toList := by
  cases p with
  | event e =>
    obtain ⟨s, hfind, hs⟩ := h.socket
    exact ⟨c, _, onDecode_event h.sorted hfind hs hp.1, h, rfl, postedMessages_reaction c e⟩
  | ping =>
    refine ⟨c.updatePingTimeoutTimer, [.transmit false ['3']], ?_, ⟨h.sorted, h.con, h.socket⟩, rfl,
      rfl⟩
    have hdecode : c.onDecode codec (received (.ofFrame Packet.framePing)) = c.onPing codec := rfl
    have hpong : PacketManager.encode codec (.ofFrame Packet.framePong) = .ok [(false, ['3'])] := by
      rw [PacketManager.encode, accept_control (by decide)]
      rfl
    rw [ServerPacket.packet, hdecode, SioClient.onPing, hpong, Json.ok_bind, h.con]
    rfl

theorem ServerPacket.Streams.sendable {p : ServerPacket} (h : p.Streams codec n) :
    Sendable codec p.packet := by
  cases p with
  | event e => exact h.1.sendable
  | ping => exact .control (by decide)

end Network

/-! ## Runs -/

section Chunks

variable {F : Type} (A : FloatOps F) {rate n : ℕ} {data : PwStreamData} {steps : List PlaybackStep}
  {rb : URingBuffer}

/-- The buffer takes a chunk exactly when it has room for it. -/
theorem accepted_chunk (h : 200 ≤ rate) (hinv : PlaybackInvariant rate data steps)
    (hdata : data.buffer = some rb) {binData : Bytes} (hn : 0 < n) (hlen : binData.length = 4 * n) :
    ((playback A).step data (.chunk binData n)).1.accepted =
      if rb.writeAheadWindow + n ≤ rb.bufferSize then binData else [] := by
  obtain ⟨rb', q, hdata', hrep, -⟩ := hinv
  obtain rfl : rb' = rb := Option.some.inj (hdata'.symm.trans hdata)
  have hrep' := hrep.writeRawData (n := n) (URingBuffer.slotsFor_pos (by omega)) hlen.ge
  have hbuf : ({ data with buffer := data.buffer.map (·.writeRawData binData n) } :
      PwStreamData).buffer = some (rb'.writeRawData binData n) := by rw [hdata]; rfl
  have hlevel := bufferedSamples_eq hrep' hbuf
  have hblock := length_blockSamples hlen.ge
  have hw := hrep.window
  have hsize := hrep.bufferSize
  simp only [playback]
  rw [hlevel, bufferedSamples_eq hrep hdata]
  by_cases hroom : q.items.length + n ≤ URingBuffer.slotsFor rate
  · rw [(q.write_of_le _ (blockSamples binData n) (by omega)).1, List.length_append, hblock,
      if_pos (by omega), if_pos (by omega)]
  · rw [q.write_of_lt _ (blockSamples binData n) (by omega), if_neg (by omega), if_neg (by omega)]

end Chunks

namespace Broadcast

variable {codec : DoubleCodec UInt64} {rate n : ℕ} {sent : List ServerPacket} {s : Broadcast}

/-- A connection, a session and an output stream, at the start of what the server sends. -/
structure Starts (codec : DoubleCodec UInt64) (rate n : ℕ) (sent : List ServerPacket) (s : Broadcast) :
    Prop where
  wire : ∃ frames, (sent.map ServerPacket.packet).mapM (PacketManager.encode codec) = .ok frames ∧
    s.wire = frames.flatten.map Prod.snd
  partialPacket : s.sio.partialPacket = none
  receives : s.sio.Receives
  started : s.client.serverStarted
  chunk : s.client.numOutputSamplesPerChunk = n
  connected : s.audio.output.connected
  buffer : s.audio.output.data.buffer = some (.ofSampleRate rate)
  queue : s.queue = []
  handled : s.handled = []
  accepted : s.accepted = []
  played : s.played = []

structure Invariant (codec : DoubleCodec UInt64) (rate n : ℕ) (sent : List ServerPacket)
    (s : Broadcast) : Prop where
  /-- The payloads still to arrive are those of packets that have not been posted. -/
  coming : ∃ coming : List ServerPacket, (∀ p ∈ coming, p.Streams codec n) ∧
    PacketManager.putPayloads codec s.wire s.sio.partialPacket =
      .ok (none, (coming.map ServerPacket.packet).map received) ∧
    s.handled ++ s.queue ++ coming.filterMap ServerPacket.posted =
      sent.filterMap ServerPacket.posted
  receives : s.sio.Receives
  queue : ∀ m ∈ s.queue, StreamMessage n m ∧ ∀ x ∈ m.2, Writable codec x
  started : s.client.serverStarted
  chunk : s.client.numOutputSamplesPerChunk = n
  connected : s.audio.output.connected
  accepted : s.accepted.Sublist (s.handled.filterMap samplesOf)
  output : ∃ steps, PlaybackInvariant rate s.audio.output.data steps ∧
    acceptedBytes steps = s.accepted.flatten ∧ playedBytes steps = s.played

theorem Starts.invariant (h : s.Starts codec rate n sent) (hrate : 200 ≤ rate)
    (hsent : ∀ p ∈ sent, p.Streams codec n) : s.Invariant codec rate n sent := by
  have hsendable : ∀ p ∈ sent.map ServerPacket.packet, Sendable codec p := by
    intro p hp
    obtain ⟨q, hq, rfl⟩ := List.mem_map.mp hp
    exact (hsent q hq).sendable
  obtain ⟨frames, hencode, hwire⟩ := h.wire
  obtain ⟨frames', hencode', hput⟩ := putPayloads_encode hsendable
  obtain rfl : frames = frames' := Except.ok.inj (hencode.symm.trans hencode')
  have hdata : PlaybackInvariant rate s.audio.output.data [] := by
    obtain ⟨rb, q, hbuffer, hrest⟩ : PlaybackInvariant rate (.ofSampleRate rate) [] :=
      playbackInvariant_init (by exact_mod_cast hrate)
    exact ⟨rb, q, h.buffer.trans hbuffer, hrest⟩
  refine ⟨⟨sent, hsent, ?_, ?_⟩, h.receives, ?_, h.started, h.chunk, h.connected, ?_, [], hdata, ?_, ?_⟩
  · rw [hwire, h.partialPacket, hput]
  · rw [h.handled, h.queue]
    rfl
  · rw [h.queue]
    nofun
  · rw [h.accepted]
    exact List.nil_sublist _
  · rw [h.accepted]
    rfl
  · rw [h.played]
    rfl

theorem Invariant.arrive (h : s.Invariant codec rate n sent) :
    ∃ t, s.arrive codec = some t ∧ t.Invariant codec rate n sent := by
  obtain ⟨coming, hstreams, hput, hposted⟩ := h.coming
  unfold Broadcast.arrive
  cases hwire : s.wire with
  | nil => exact ⟨s, rfl, h⟩
  | cons payload wire =>
    rw [hwire] at hput
    obtain ⟨next, decoded, rest, hone, hmore, heq⟩ := PacketManager.putPayloads_cons_ok hput
    have hreceives : ({ s.sio with partialPacket := next } : SioClient).Receives :=
      ⟨h.receives.sorted, h.receives.con, h.receives.socket⟩
    dsimp only
    rw [SioClient.onMessage, hone, Json.ok_bind]
    cases decoded with
    | none =>
      refine ⟨_, rfl, ⟨coming, hstreams, hmore.trans (by rw [heq]; rfl), ?_⟩, hreceives, ?_, h.started,
        h.chunk, h.connected, h.accepted, h.output⟩
      · exact (congrArg (· ++ _) (congrArg (_ ++ ·) (List.append_nil _))).trans hposted
      · exact fun m hm => h.queue m (List.append_nil s.queue ▸ hm)
    | some p =>
      -- The packet is the first of those that have not been posted.
      cases coming with
      | nil => cases heq
      | cons q coming =>
        obtain ⟨rfl, rfl⟩ := List.cons.inj heq
        obtain ⟨hq, hcoming⟩ := List.forall_mem_cons.mp hstreams
        obtain ⟨sio, calls, hdecode, hsio, hwaiting, hcalls⟩ := onDecode_streams hreceives hq
        dsimp only
        rw [hdecode]
        refine ⟨_, rfl, ⟨coming, hcoming, ?_, ?_⟩, hsio, ?_, h.started, h.chunk, h.connected, h.accepted,
          h.output⟩
        · exact (congrArg _ hwaiting).trans hmore
        · rw [← hposted, hcalls, ServerPacket.posted_cons]
          simp only [List.append_assoc]
        · intro m hm
          rcases List.mem_append.mp hm with hm | hm
          · exact h.queue m hm
          · rw [hcalls] at hm
            cases q with
            | event e =>
              obtain rfl := List.mem_singleton.mp hm
              exact ⟨hq.2, hq.1.writable⟩
            | ping => cases hm

theorem Invariant.handle (w : World) (h : s.Invariant codec rate n sent) (hrate : 200 ≤ rate) (hn : 0 < n) :
    ∃ t, s.handle w = some t ∧ t.Invariant codec rate n sent := by
  obtain ⟨coming, hstreams, hput, hposted⟩ := h.coming
  obtain ⟨steps, hinv, haccepted, hplayed⟩ := h.output
  unfold Broadcast.handle
  cases hqueue : s.queue with
  | nil => exact ⟨s, rfl, h⟩
  | cons m queue =>
    obtain ⟨⟨hmessage, hwritable⟩, hmore⟩ := List.forall_mem_cons.mp (hqueue ▸ h.queue)
    have hpost : s.handled ++ [m] ++ queue ++ coming.filterMap ServerPacket.posted =
        sent.filterMap ServerPacket.posted := by
      rw [← hposted, hqueue, List.append_assoc s.handled, List.singleton_append]
    dsimp only
    cases hmessage with
    | @audioOut fields items data found length =>
      obtain ⟨rb, q, hdata, hrest⟩ := id hinv
      have hroom : s.hasRoom = decide (rb.writeAheadWindow + n ≤ rb.bufferSize) := by
        rw [hasRoom, hdata, h.chunk]
        rfl
      have hsamples : samplesOf ("AUDIO_OUT", .object fields :: items) = some data := by
        change (if "AUDIO_OUT" = "AUDIO_OUT" then (audioOutFields fields).toOption.bind (·.2) else none) = _
        rw [if_pos rfl, found]
        rfl
      have htake := accepted_chunk plainFloats hrate hinv hdata hn length
      have hnext := playbackInvariant_chunk plainFloats (by exact_mod_cast hrate) hinv length
      have hstep : ((playback plainFloats).step s.audio.output.data (.chunk data n)).2 =
          { s.audio.output.data with buffer := some (rb.writeRawData data n) } := by
        have hmap : s.audio.output.data.buffer.map (·.writeRawData data n) =
            some (rb.writeRawData data n) := by
          rw [hdata]
          rfl
        rw [← hmap]
        rfl
      rw [hstep] at hnext
      rw [exec_onAudioOut found hn h.started h.chunk h.connected hdata items]
      refine ⟨_, rfl, ⟨coming, hstreams, hput, hpost⟩, h.receives, hmore, h.started, h.chunk, h.connected,
        ?_, _, hnext, ?_, ?_⟩
      · dsimp only
        rw [List.filterMap_append, List.filterMap_cons_some hsamples]
        refine h.accepted.append ?_
        rw [hsamples]
        split
        · exact .refl _
        · exact List.nil_sublist _
      · dsimp only
        rw [acceptedBytes_append, haccepted, htake, List.flatten_append, hsamples, hroom]
        by_cases hfits : rb.writeAheadWindow + n ≤ rb.bufferSize
        · rw [if_pos hfits, decide_eq_true hfits]
          exact congrArg _ (List.append_nil _).symm
        · rw [if_neg hfits, decide_eq_false hfits]
          rfl
      · rw [playedBytes_append, hplayed]
        exact List.append_nil _
    | status m items =>
      have hsamples : samplesOf ("SET_STATUS", m :: items) = none := by
        unfold samplesOf
        split
        · exact if_neg (show ¬"SET_STATUS" = "AUDIO_OUT" by decide)
        · rfl
      rw [exec_onSetStatus (hwritable m List.mem_cons_self) items]
      refine ⟨_, rfl, ⟨coming, hstreams, hput, hpost⟩, h.receives, hmore, h.started, h.chunk, h.connected,
        ?_, steps, hinv, ?_, hplayed⟩
      · dsimp only
        rw [hsamples, List.filterMap_append, List.filterMap_cons_none hsamples]
        simpa using h.accepted
      · dsimp only
        rw [hsamples]
        simpa using haccepted

variable {F : Type} (A : FloatOps F)

/-- What a callback hands to PipeWire, and the state of the stream after it. -/
theorem callback_eq {levels : Levels F} {b : OutputBuffer} {chunk : Option OutputChunk}
    {signals : List (StreamSignal F)} {data : PwStreamData}
    (h : onProcessOutput A (s.audio.statics levels) s.audio.output.data (some b) =
      .ok (chunk, signals, data)) :
    ∃ posted, s.callback A levels b = some { s with
      audio := { s.audio with output := { s.audio.output with data }, posted }
      played := s.played ++ chunk.elim [] (·.fill.run) } := by
  obtain ⟨k, hk⟩ := AudioProvider.foldl_postSignal signals
    (s.audio.update (fun e => { e with data }) .output)
  have haudio : s.audio.processOutput A levels (some b) =
      .ok (signals.foldl AudioProvider.postSignal (s.audio.update (fun e => { e with data }) .output)) := by
    rw [AudioProvider.processOutput, h]
    rfl
  refine ⟨s.audio.posted ++ List.replicate k .signalInputBufferWrite, ?_⟩
  rw [callback, h, haudio, hk]
  rfl

theorem Invariant.callback (h : s.Invariant codec rate n sent) (hrate : 200 ≤ rate) (levels : Levels F)
    (b : OutputBuffer) : ∃ t, s.callback A levels b = some t ∧ t.Invariant codec rate n sent := by
  obtain ⟨steps, hinv, haccepted, hplayed⟩ := h.output
  cases hb : b.hasData with
  | true =>
    obtain ⟨rb, q, hdata, -⟩ := id hinv
    have hst : (s.audio.statics levels).outStreamConnected := h.connected
    obtain ⟨signals, data', hout, -⟩ := onProcessOutput_connected A _ hdata hb hst
    have hnext := playbackInvariant_callback A (by exact_mod_cast hrate) hinv _ hb hst
    simp only [playback, hout] at hnext
    obtain ⟨posted, heq⟩ := callback_eq A hout
    refine ⟨_, heq, h.coming, h.receives, h.queue, h.started, h.chunk, h.connected, h.accepted, _, hnext,
      ?_, ?_⟩
    · rw [acceptedBytes_append, haccepted]
      exact List.append_nil _
    · rw [playedBytes_append, hplayed]
  | false =>
    have hout : onProcessOutput A (s.audio.statics levels) s.audio.output.data (some b) =
        .ok (none, [], s.audio.output.data) :=
      if_neg fun hc => Bool.false_ne_true (hb.symm.trans hc.1)
    obtain ⟨posted, heq⟩ := callback_eq A hout
    exact ⟨_, heq, h.coming, h.receives, h.queue, h.started, h.chunk, h.connected, h.accepted, steps, hinv,
      haccepted, hplayed.trans (List.append_nil _).symm⟩

theorem Invariant.step (w : World) (h : s.Invariant codec rate n sent) (hrate : 200 ≤ rate) (hn : 0 < n)
    (e : BroadcastStep F) : ∃ t, s.step A codec w e = some t ∧ t.Invariant codec rate n sent := by
  cases e with
  | arrive => exact h.arrive
  | handle => exact h.handle w hrate hn
  | callback levels b => exact h.callback A hrate levels b

theorem Invariant.run (w : World) (h : s.Invariant codec rate n sent) (hrate : 200 ≤ rate) (hn : 0 < n)
    (schedule : List (BroadcastStep F)) :
    ∃ t, s.run A codec w schedule = some t ∧ t.Invariant codec rate n sent := by
  induction schedule generalizing s with
  | nil => exact ⟨s, rfl, h⟩
  | cons e schedule ih =>
    obtain ⟨t, hstep, ht⟩ := h.step A w hrate hn e
    obtain ⟨u, hrun, hu⟩ := ih ht
    refine ⟨u, ?_, hu⟩
    rw [Broadcast.run, List.foldlM_cons, hstep]
    exact hrun

/-- Whatever order the threads step in, the program stays; every message is handled once and in the
order of the server, and what has been played starts the chunks that the buffer had room for. The rest
of these is in the buffer. -/
theorem heard_of_sent (w : World) (hrate : 200 ≤ rate) (hn : 0 < n)
    (hsent : ∀ p ∈ sent, p.Streams codec n) (hs : s.Starts codec rate n sent)
    (schedule : List (BroadcastStep F)) : ∃ t, s.run A codec w schedule = some t ∧
      t.handled ++ t.queue <+: sent.filterMap ServerPacket.posted ∧
      (t.wire = [] → t.handled ++ t.queue = sent.filterMap ServerPacket.posted) ∧
      t.accepted.Sublist (t.handled.filterMap samplesOf) ∧
      t.played <+: t.accepted.flatten ∧
      t.accepted.flatten.length = t.played.length + 4 * bufferedSamples t.audio.output.data := by
  obtain ⟨t, hrun, ht⟩ := (hs.invariant hrate hsent).run A w hrate hn schedule
  obtain ⟨coming, -, hput, hposted⟩ := ht.coming
  obtain ⟨steps, ⟨rb, q, hdata, hrep, -, -, hacc⟩, haccepted, hplayed⟩ := ht.output
  rw [haccepted, hplayed] at hacc
  refine ⟨t, hrun, ⟨_, hposted⟩, fun hwire => ?_, ht.accepted, ⟨_, hacc.symm⟩, ?_⟩
  · rw [hwire] at hput
    obtain ⟨-, hcoming⟩ := Prod.mk.inj (Except.ok.inj hput)
    obtain rfl : coming = [] := by simpa using hcoming.symm
    simpa using hposted
  · rw [hacc, List.length_append, length_encode, bufferedSamples_eq hrep hdata]

def oneChunk : List ServerPacket :=
  [.ping, .event ⟨"AUDIO_OUT", [.object [("sample_count", .integer 1), ("samples", .binary [1, 2, 3, 4])]], -1⟩,
    .event statusEvent]

/-- A session at 200 samples a second whose server sends these packets. -/
def ofPackets (codec : DoubleCodec UInt64) (sent : List ServerPacket) : Broadcast where
  wire :=
    match (sent.map ServerPacket.packet).mapM (PacketManager.encode codec) with
    | .ok frames => frames.flatten.map Prod.snd
    | .error _ => []
  sio := listeningClient
  client := { serverStarted := true, numOutputSamplesPerChunk := 1 }
  audio := { output := { stream := true, data := .ofSampleRate 200, connected := true } }

theorem streams_oneChunk : ∀ p ∈ oneChunk, p.Streams codec 1 := by
  refine List.forall_mem_cons.mpr ⟨trivial, List.forall_mem_cons.mpr ⟨⟨⟨?_, ?_, ?_⟩, ?_⟩, ?_⟩⟩
  · refine List.forall_mem_cons.mpr ⟨.object ?_ ?_ ?_, nofun⟩
    · exact List.forall_mem_cons.mpr ⟨.integer (by decide) (by decide),
        List.forall_mem_cons.mpr ⟨.binary _, nofun⟩⟩
    · decide
    · refine List.forall_mem_cons.mpr ⟨?_, List.forall_mem_cons.mpr ⟨?_, nofun⟩⟩
      · intro h
        exact absurd h (by decide)
      · intro h
        exact absurd h (by decide)
  · exact ⟨by decide, by decide⟩
  · decide
  · exact .audioOut rfl rfl
  · exact List.forall_mem_cons.mpr ⟨⟨carried_statusEvent codec, .status _ _⟩, nofun⟩

theorem starts_ofPackets (h : ∀ p ∈ sent, p.Streams codec 1) :
    (ofPackets codec sent).Starts codec 200 1 sent := by
  have hsendable : ∀ p ∈ sent.map ServerPacket.packet, Sendable codec p := by
    intro p hp
    obtain ⟨q, hq, rfl⟩ := List.mem_map.mp hp
    exact (h q hq).sendable
  obtain ⟨frames, hencode, -⟩ := putPayloads_encode hsendable
  refine ⟨⟨frames, hencode, ?_⟩, rfl, ⟨List.pairwise_singleton _ _, rfl, _, rfl,
    listens_listeningSocket⟩, rfl, rfl, rfl, rfl, rfl, rfl, rfl, rfl⟩
  rw [ofPackets, hencode]

theorem heard_of_sent_one : ∃ t,
    (ofPackets halfCodec oneChunk).run plainFloats halfCodec .online
      [.arrive, .arrive, .callback ⟨(), (), ()⟩ ⟨true, 8, 0⟩, .arrive, .handle,
        .callback ⟨(), (), ()⟩ ⟨true, 8, 0⟩, .arrive] = some t ∧
      t.handled ++ t.queue <+: oneChunk.filterMap ServerPacket.posted ∧
      (t.wire = [] → t.handled ++ t.queue = oneChunk.filterMap ServerPacket.posted) ∧
      t.accepted.Sublist (t.handled.filterMap samplesOf) ∧
      t.played <+: t.accepted.flatten ∧
      t.accepted.flatten.length = t.played.length + 4 * bufferedSamples t.audio.output.data :=
  heard_of_sent plainFloats .online (by decide) Nat.one_pos streams_oneChunk
    (starts_ofPackets streams_oneChunk) _

end Broadcast

end UwavClient
