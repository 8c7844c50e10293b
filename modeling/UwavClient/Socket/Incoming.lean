import UwavClient.Socket.Calls
import UwavClient.Socket.Events

/-!
# A connection is heard alone

What one connection leaves behind, half a packet or a session identifier, is gone when the next one
opens. So the events that are posted while a connection lasts are those of the payloads that came over
it, decoded from the first one on.
-/

namespace UwavClient

open Json (DoubleCodec)

/-- No packet waits for buffers, and there is no session identifier. -/
def SioClient.Clean (c : SioClient) : Prop := c.partialPacket = none ∧ c.sid = []

/-- What has come in is kept as it is. -/
def SameParse (c d : SioClient) : Prop := d.partialPacket = c.partialPacket ∧ d.sid = c.sid

theorem SameParse.clean {c d : SioClient} (h : SameParse c d) (hc : c.Clean) : d.Clean :=
  ⟨h.1.trans hc.1, h.2.trans hc.2⟩

theorem SameParse.trans {c d d' : SioClient} (h : SameParse c d) (h' : SameParse d d') : SameParse c d' :=
  ⟨h'.1.trans h.1, h'.2.trans h.2⟩

/-- A function all of whose results have the property. -/
def Yields (Q : SioClient → Prop) (r : Except Crash (SioClient × List ClientCall)) : Prop :=
  ∀ c calls, r = .ok (c, calls) → Q c

section Functions

variable {w : DoubleCodec UInt64} {Q : SioClient → Prop} {c d : SioClient} {calls : List ClientCall}

theorem yields_ok (h : Q c) : Yields Q (.ok (c, calls)) := by
  rintro d calls ⟨⟩
  exact h

theorem yields_bind {α : Type} {r : Except Crash α}
    {f : α → Except Crash (SioClient × List ClientCall)} (h : ∀ a, r = .ok a → Yields Q (f a)) :
    Yields Q (r >>= f) := by
  cases r with
  | error e => exact fun _ _ h => by cases h
  | ok a => exact h a rfl

theorem sameParse_socket (nsp : Text) (c : SioClient) : SameParse c (c.socket nsp).1 := by
  unfold SioClient.socket
  dsimp only
  split <;> exact ⟨rfl, rfl⟩

theorem yields_beginClose (send : Bool → Text → List ClientCall) (c : SioClient) :
    Yields (SameParse c) (c.beginClose w send) := yields_bind fun _ _ => yields_ok ⟨rfl, rfl⟩

theorem yields_close (c : SioClient) : Yields (SameParse c) (c.close w) :=
  yields_bind fun r hr => yields_ok (yields_beginClose _ c r.1 r.2 hr)

theorem yields_closeOnNetwork (c : SioClient) : Yields (SameParse c) (c.closeOnNetwork w) := by
  refine yields_bind fun r hr => yields_ok ?_
  obtain ⟨hwaiting, hsid⟩ := yields_beginClose _ c r.1 r.2 hr
  exact ⟨hwaiting, hsid⟩

theorem yields_withSocket (f : SioSocket → SioSocket × List SocketCall) (c : SioClient) :
    Yields (SameParse c) (SioService.withSocket w f c) := by
  unfold SioService.withSocket
  dsimp only
  split
  · exact yields_ok (sameParse_socket [] c)
  · exact yields_bind fun _ _ => yields_ok (sameParse_socket [] c)

theorem sameParse_retry (h : c.retry = some d) : SameParse c d := by
  unfold SioClient.retry at h
  split at h
  · obtain rfl := Option.some.inj h
    exact ⟨rfl, rfl⟩
  · cases h

theorem yields_onFail (c : SioClient) : Yields (SameParse c) (c.onFail w) := by
  unfold SioClient.onFail
  split
  · exact yields_closeOnNetwork c
  · dsimp only
    split
    · rename_i hretry
      obtain ⟨hwaiting, hsid⟩ := sameParse_retry hretry
      exact yields_ok ⟨hwaiting, hsid⟩
    · exact yields_ok ⟨rfl, rfl⟩

theorem yields_onOpen (c : SioClient) : Yields (SameParse c) (c.onOpen w) := by
  unfold SioClient.onOpen
  split
  · exact yields_closeOnNetwork c
  · exact yields_bind fun _ _ => yields_ok (sameParse_socket [] _)

theorem sameParse_onClose (normal : Bool) (c : SioClient) : SameParse c (c.onClose normal).1 := by
  unfold SioClient.onClose
  dsimp only
  split
  · exact ⟨rfl, rfl⟩
  · split
    · rename_i hretry
      obtain ⟨hwaiting, hsid⟩ := sameParse_retry hretry
      exact ⟨hwaiting, hsid⟩
    · exact ⟨rfl, rfl⟩

theorem sameParse_socketTimeout (nsp : Text) (c : SioClient) :
    SameParse c (SioService.socketTimeout nsp c).1 := by
  unfold SioService.socketTimeout
  split <;> exact ⟨rfl, rfl⟩

end Functions

/-! ## Before a connection opens -/

namespace LinkState

variable {l l' : LinkState} {note : Option Notice}

/-- An attempt has begun, or a handler will begin one whatever has come in. -/
def Begun (l : LinkState) : Prop := l.attempt ∨ ∃ uri, .connectImpl uri ∈ l.pending

theorem Move.begun (h : Move l note l') (hbegun : l'.Begun) (hnote : ∀ n ∈ note.toList, n = .opened) :
    l.Begun := by
  cases h with
  | connect | reconnect => exact Notice.noConfusion (hnote _ (List.mem_singleton_self _))
  | begins next => exact .inr ⟨_, next ▸ List.mem_cons_self⟩
  | tooLate next => exact hbegun.imp_right fun ⟨uri, hmem⟩ => ⟨uri, next ▸ List.mem_cons_of_mem _ hmem⟩
  | fail | failClosing | opens | opensClosing =>
    exact hbegun.elim (fun h => absurd h Bool.false_ne_true) .inr
  | expire =>
    refine hbegun.imp_right fun ⟨uri, hmem⟩ => ⟨uri, ?_⟩
    exact (List.mem_append.mp hmem).resolve_right fun hlast => by cases List.mem_singleton.mp hlast
  | _ => exact hbegun

theorem Move.connecting (h : Move l (some .connecting) l') : l.running = false ∧ l'.running = true := by
  cases h with
  | connect uri stopped => exact ⟨stopped, rfl⟩

theorem Move.reconnecting (h : Move l (some .reconnecting) l') :
    l'.pending.length < l.pending.length := by
  cases h with
  | reconnect next => exact next ▸ Nat.lt_succ_self _

theorem Invariant.not_begun (h : l.Invariant) (hlink : l.link) : ¬l.Begun := by
  obtain ⟨hpending, hattempt, -⟩ := h.of_link hlink
  rintro (h | ⟨uri, hmem⟩)
  · exact Bool.false_ne_true (hattempt.symm.trans h)
  · rw [hpending] at hmem
    cases hmem

end LinkState

namespace SioService

open LinkState (Move)

variable {w : DoubleCodec UInt64} {validUri : Text → Bool} {e : ServiceEvent} {s t u v : SioService}
  {calls more now : List ClientCall}

theorem begin_client (e : ServiceEvent) (s : SioService) : SameParse s.client (s.begin e).client := by
  cases e with
  | connect uri auth =>
    rw [begin]
    split <;> exact ⟨rfl, rfl⟩
  | _ => exact ⟨rfl, rfl⟩

/-- Only `connect` and a handler begin to connect. -/
theorem notices_of_other (hconnect : ∀ uri auth, e ≠ .connect uri auth) (hhandler : e ≠ .handler)
    (henabled : Enabled e s) (h : step w validUri e s = .ok (t, calls)) :
    ∀ n ∈ calls.filterMap ClientCall.notice, n = .opened := by
  obtain ⟨⟨note, hmove, hnotice⟩, -⟩ := moved_of_step henabled h
  obtain ⟨c, -, rfl⟩ := step_ok h
  have hrunning : (s.begin e).running = true → s.running = true := by
    cases e with
    | connect uri auth => exact absurd rfl (hconnect uri auth)
    | loopEnds => exact fun h => absurd h Bool.false_ne_true
    | _ => exact id
  have hposted : s.posted.Sublist ((s.begin e).posted ++ calls.filterMap ClientCall.dispatched) := by
    refine List.Sublist.trans ?_ (List.sublist_append_left _ _)
    cases e with
    | connect uri auth => exact absurd rfl (hconnect uri auth)
    | handler => exact absurd rfl hhandler
    | reconnectExpired | pingExpired => exact List.sublist_append_left _ _
    | _ => exact List.Sublist.refl _
  have hpending := (hposted.filter Handler.begins).length_le
  rw [hnotice]
  intro n hn
  obtain rfl := Option.mem_toList.mp hn
  cases n with
  | connecting =>
    obtain ⟨hstopped, hstarted⟩ := hmove.connecting
    exact absurd (hstopped.symm.trans (hrunning hstarted)) Bool.false_ne_true
  | reconnecting => exact absurd hmove.reconnecting (Nat.not_lt.mpr hpending)
  | opened => rfl

theorem parse_of_handler (h : step w validUri .handler s = .ok (t, calls)) :
    SameParse s.client t.client ∧ (∀ n ∈ calls.filterMap ClientCall.notice, n = .opened) ∨
      t.client.Clean ∧ ∃ n ∈ calls.filterMap ClientCall.notice, n ≠ .opened := by
  obtain ⟨c, hcall, rfl⟩ := step_ok h
  have hrun := Except.ok.inj hcall
  have hquiet {c d : SioClient} (hparse : SameParse s.client d) (hquiet : ∀ x ∈ calls, x.Quiet c) :
      SameParse s.client d ∧ ∀ n ∈ calls.filterMap ClientCall.notice, n = .opened :=
    ⟨hparse, by rw [notices_of_quiet hquiet]; exact List.forall_mem_nil _⟩
  cases hposted : s.posted with
  | nil =>
    rw [hposted] at hrun
    obtain ⟨rfl, rfl⟩ := Prod.mk.inj hrun
    exact .inl (hquiet (c := s.client) ⟨rfl, rfl⟩ quiet_nil)
  | cons head rest =>
    rw [hposted] at hrun
    cases head with
    | connectImpl uri =>
      obtain ⟨rfl, rfl⟩ := Prod.mk.inj hrun
      obtain ⟨-, -, hnotice, -⟩ := connectImpl_calls validUri uri
      exact .inl ⟨⟨rfl, rfl⟩, by rw [hnotice]; exact List.forall_mem_nil _⟩
    | closeImpl code =>
      obtain ⟨-, hcalls⟩ := endsIn_closeImpl code s.client c calls (congrArg Except.ok hrun)
      obtain ⟨rfl, -⟩ := Prod.mk.inj hrun
      exact .inl (hquiet ⟨rfl, rfl⟩ hcalls)
    | sendImpl binary payload =>
      obtain ⟨rfl, rfl⟩ := Prod.mk.inj hrun
      exact .inl (hquiet ⟨rfl, rfl⟩ (quiet_sendImpl s.client binary payload))
    | timeoutReconnect =>
      by_cases hclosed : s.client.conState = .closed
      · have hreconnect : s.client.timeoutReconnect validUri = (_, _) := if_pos hclosed
        obtain ⟨rfl, rfl⟩ := Prod.mk.inj (hrun.symm.trans hreconnect)
        exact .inr ⟨⟨rfl, rfl⟩, _, List.mem_cons_self, fun h => Notice.noConfusion h⟩
      · have hlate : s.client.timeoutReconnect validUri = (s.client, []) := if_neg hclosed
        obtain ⟨rfl, rfl⟩ := Prod.mk.inj (hrun.symm.trans hlate)
        exact .inl (hquiet (c := s.client) ⟨rfl, rfl⟩ quiet_nil)
    | timeoutPing =>
      obtain ⟨-, hcalls⟩ := endsIn_closeImpl .policyViolation s.client c calls (congrArg Except.ok hrun)
      obtain ⟨rfl, -⟩ := Prod.mk.inj hrun
      exact .inl (hquiet ⟨rfl, rfl⟩ hcalls)

/-- Unless a message comes in, what has come in is kept, or it is forgotten to connect. -/
theorem parse_of_step (he : ∀ payload, e ≠ .message payload) (henabled : Enabled e s)
    (h : step w validUri e s = .ok (t, calls)) :
    SameParse s.client t.client ∧ (∀ n ∈ calls.filterMap ClientCall.notice, n = .opened) ∨
      t.client.Clean ∧ ∃ n ∈ calls.filterMap ClientCall.notice, n ≠ .opened := by
  have hother (hyields : Yields (SameParse (s.begin e).client)
      (call w validUri e s.posted (s.begin e).client)) : SameParse s.client t.client := by
    obtain ⟨c, hcall, rfl⟩ := step_ok h
    exact (begin_client e s).trans (hyields c calls hcall)
  by_cases hhandler : e = .handler
  · subst hhandler
    exact parse_of_handler h
  by_cases hconnect : ∃ uri auth, e = .connect uri auth
  · obtain ⟨uri, auth, rfl⟩ := hconnect
    by_cases hreturns : s.ConnectReturns
    · obtain ⟨rfl, rfl⟩ := Prod.mk.inj (Except.ok.inj
        ((step_connect_of_returns uri auth hreturns).symm.trans h))
      exact .inl ⟨⟨rfl, rfl⟩, List.forall_mem_nil _⟩
    · obtain ⟨c, hcall, rfl⟩ := step_ok h
      have hbegin : s.begin (.connect uri auth) = { s with running := true } := if_neg hreturns
      rw [hbegin] at hcall
      have hnew : s.client.connect uri auth = (_, _) := if_neg hreturns
      obtain ⟨rfl, rfl⟩ := Prod.mk.inj ((Except.ok.inj hcall).symm.trans hnew)
      exact .inr ⟨⟨rfl, rfl⟩, _, List.mem_singleton_self _, fun h => Notice.noConfusion h⟩
  refine .inl ⟨?_, notices_of_other (fun uri auth h => hconnect ⟨uri, auth, h⟩) hhandler henabled h⟩
  cases e with
  | connect uri auth => exact absurd ⟨uri, auth, rfl⟩ hconnect
  | handler => exact absurd rfl hhandler
  | message payload => exact absurd rfl (he payload)
  | close => exact hother (yields_close _)
  | emit name messages => exact hother (yields_withSocket _ _)
  | listener change => exact hother (yields_withSocket (fun t => (t.changeListener change, [])) _)
  | failed => exact hother (yields_onFail _)
  | opened => exact hother (yields_onOpen _)
  | closed normal => exact hother (yields_ok (sameParse_onClose normal _))
  | socketExpired nsp => exact hother (yields_ok (sameParse_socketTimeout nsp _))
  | joining | joined | reconnectExpired | pingExpired | loopEnds =>
    exact hother (yields_ok ⟨rfl, rfl⟩)

/-- Whenever a connection may open, nothing is left of the one before. -/
theorem Runs.clean (run : Runs w validUri (fun _ => True) s t calls) (hs : s.Fresh) :
    t.linkState.Begun → t.client.Clean := by
  have hfresh : ¬s.linkState.Begun := by
    obtain ⟨hpending, hattempt, -, -⟩ := LinkState.activity_eq_zero.mp (hs.invariant.stopped hs.running)
    rintro (h | ⟨uri, hmem⟩)
    · exact Bool.false_ne_true (hattempt.symm.trans h)
    · rw [hpending] at hmem
      cases hmem
  have hkept : t.linkState.Invariant ∧ (t.linkState.Begun → t.client.Clean) := by
    refine run.invariant (fun t _ => t.linkState.Invariant ∧ (t.linkState.Begun → t.client.Clean))
      ⟨hs.invariant, fun h => absurd h hfresh⟩ ?_
    rintro e s calls t more ⟨hinv, hclean⟩ - henabled hstep
    obtain ⟨⟨note, hmove, hnotice⟩, -⟩ := moved_of_step henabled hstep
    refine ⟨hinv.move hmove, fun hbegun => ?_⟩
    by_cases he : ∃ payload, e = .message payload
    · obtain ⟨payload, rfl⟩ := he
      exact absurd hbegun ((hinv.move hmove).not_begun
        (link_of_step (fun _ h => ServiceEvent.noConfusion h) hstep henabled.2))
    · rcases parse_of_step (fun payload h => he ⟨payload, h⟩) henabled hstep with
        ⟨hparse, hopened⟩ | ⟨hnew, -⟩
      · exact hparse.clean (hclean (hmove.begun hbegun (hnotice ▸ hopened)))
      · exact hnew
  exact hkept.2

end SioService

/-! ## While a connection lasts -/

/-- The event that a call posts. -/
def SocketCall.heard : SocketCall → Option (String × List Message)
  | .message name messages => some (name, messages)
  | _ => none

def ClientCall.heard : ClientCall → Option (String × List Message)
  | .socket call => call.heard
  | _ => none

def Packet.isEvent (p : Packet) : Bool :=
  p.getType = .ok Packet.typeEvent ∨ p.getType = .ok Packet.typeBinaryEvent

def Message.event : Message → Option (String × List Message)
  | .array (.string name :: items) => some (name, pushAll items)
  | _ => none

def eventOf (p : Packet) : Option (String × List Message) :=
  if p.isEvent then p.message.event else none

def ServiceEvent.payload : ServiceEvent → Option Text
  | .message payload => some payload
  | _ => none

def ClientCall.Deaf (x : ClientCall) : Prop := x.heard = none

theorem allows_deaf (c : SioClient) : Allows ClientCall.Deaf c where
  other x hsocket _ := by
    cases x with
    | socket call => exact absurd rfl (hsocket call)
    | _ => rfl
  send _ _ _ := rfl
  socket call h := by
    rcases h with ⟨p, rfl⟩ | ⟨nsp, rfl⟩ <;> rfl

section Messages

variable {w : DoubleCodec UInt64} {c d : SioClient} {calls : List ClientCall}

/-- A function whose calls post at most this event. -/
def Posts (posted : Option (String × List Message)) (r : Except Crash (SioClient × List ClientCall)) : Prop :=
  ∀ c calls, r = .ok (c, calls) → (calls.filterMap ClientCall.heard).Sublist posted.toList

theorem heard_of_onlySends {socketCalls : List SocketCall} (h : OnlySends socketCalls) :
    socketCalls.filterMap SocketCall.heard = [] := by
  refine List.filterMap_eq_nil_iff.mpr fun call hcall => ?_
  obtain ⟨p, rfl⟩ := h call hcall
  rfl

theorem heard_runCalls {send : Bool → Text → List ClientCall}
    (hsend : ∀ binary payload, ∀ x ∈ send binary payload, x.Deaf) {socketCalls : List SocketCall}
    (h : SioClient.runCalls w send socketCalls = .ok calls) :
    calls.filterMap ClientCall.heard = socketCalls.filterMap SocketCall.heard := by
  induction socketCalls generalizing calls with
  | nil =>
    obtain rfl := Except.ok.inj h
    rfl
  | cons call socketCalls ih =>
    obtain ⟨now, rest, rfl, hrest, hnow⟩ := runCalls_cons_ok h
    rw [List.filterMap_append, ih hrest]
    rcases hnow with rfl | ⟨p, frames, rfl, rfl⟩
    · have hone : [ClientCall.socket call].filterMap ClientCall.heard =
          [call].filterMap SocketCall.heard := rfl
      rw [hone, ← List.filterMap_append, List.singleton_append]
    · rw [List.filterMap_eq_nil_iff.mpr, List.nil_append]
      · rfl
      · intro x hx
        obtain ⟨f, -, hf⟩ := List.mem_flatMap.mp hx
        exact hsend f.1 f.2 x hf

/-- What becomes of an event: it is posted if anyone listens, and it may be answered. -/
theorem onEventPacket_ok {s s' : SioSocket} {p : Packet} {socketCalls : List SocketCall}
    (h : s.onEventPacket p = .ok (s', socketCalls)) : ∃ sends,
    (s' = s ∧ sends = [] ∨ ∃ answer, s' = (s.sendPacket answer).1 ∧ sends = (s.sendPacket answer).2) ∧
      socketCalls = (if s.eventListener then p.message.event.toList.map fun e => .message e.1 e.2
        else []) ++ sends := by
  unfold SioSocket.onEventPacket at h
  split at h
  · cases h
  · cases h
  · rename_i name items hmessage
    have hposted : (p.message.event.toList.map fun e => SocketCall.message e.1 e.2) =
        [.message name (pushAll items)] := by
      rw [hmessage]
      rfl
    rw [hposted]
    unfold SioSocket.onSocketioEvent at h
    dsimp only at h
    split at h
    · obtain ⟨rfl, rfl⟩ := Prod.mk.inj (Except.ok.inj h)
      exact ⟨[], .inl ⟨rfl, rfl⟩, (List.append_nil _).symm⟩
    · rw [SioSocket.ack] at h
      cases hack : Packet.ofMessage s.nsp
          (.array (if s.eventListener ∧ 0 ≤ p.packId then [.string "PONG"] else [])) p.packId true with
      | error e =>
        simp only [hack] at h
        cases h
      | ok answer =>
        simp only [hack] at h
        obtain ⟨rfl, rfl⟩ := Prod.mk.inj (Except.ok.inj h)
        exact ⟨_, .inr ⟨answer, rfl, rfl⟩, rfl⟩
  · rename_i hother
    obtain ⟨rfl, rfl⟩ := Prod.mk.inj (Except.ok.inj h)
    have hevent : p.message.event = none := by
      unfold Message.event
      split
      · rename_i name items hmessage
        exact absurd hmessage (hother name items)
      · rfl
    rw [hevent]
    exact ⟨[], .inl ⟨rfl, rfl⟩, by split <;> rfl⟩

theorem heard_onEventPacket {s s' : SioSocket} {p : Packet} {socketCalls : List SocketCall}
    (h : s.onEventPacket p = .ok (s', socketCalls)) :
    (socketCalls.filterMap SocketCall.heard).Sublist p.message.event.toList := by
  obtain ⟨sends, hsends, rfl⟩ := onEventPacket_ok h
  have hquiet : sends.filterMap SocketCall.heard = [] := by
    rcases hsends with ⟨-, rfl⟩ | ⟨answer, -, rfl⟩
    · rfl
    · exact heard_of_onlySends (onlySends_sendPacket answer s)
  rw [List.filterMap_append, hquiet, List.append_nil]
  split
  · cases p.message.event <;> exact List.Sublist.refl _
  · exact List.nil_sublist _

theorem heard_onAckPacket {s s' : SioSocket} {p : Packet} {socketCalls : List SocketCall}
    (h : s.onAckPacket p = .ok (s', socketCalls)) : socketCalls.filterMap SocketCall.heard = [] := by
  have hack : ∀ messages, (s.onSocketioAck p.getPackId messages).2.filterMap SocketCall.heard = [] := by
    intro messages
    unfold SioSocket.onSocketioAck
    split <;> rfl
  unfold SioSocket.onAckPacket at h
  split at h
  · cases h
  all_goals
    obtain ⟨-, rfl⟩ := Prod.mk.inj (Except.ok.inj h)
    exact hack _

/-- A socket posts at most the event of its packet. -/
theorem heard_onMessagePacket {s s' : SioSocket} {p : Packet} {socketCalls : List SocketCall}
    (h : s.onMessagePacket p = .ok (s', socketCalls)) :
    (socketCalls.filterMap SocketCall.heard).Sublist (eventOf p).toList := by
  have hnone {calls : List SocketCall} (hcalls : calls.filterMap SocketCall.heard = []) :
      (calls.filterMap SocketCall.heard).Sublist (eventOf p).toList := hcalls ▸ List.nil_sublist _
  have hconnected : s.onConnected.2.filterMap SocketCall.heard = [] := by
    unfold SioSocket.onConnected
    dsimp only
    split
    · rfl
    · change (s.packetQueue.map SocketCall.send).filterMap SocketCall.heard = []
      refine heard_of_onlySends fun call hcall => ?_
      obtain ⟨q, -, rfl⟩ := List.mem_map.mp hcall
      exact ⟨q, rfl⟩
  have hclosed : s.onClose.2.filterMap SocketCall.heard = [] := by
    unfold SioSocket.onClose
    split <;> rfl
  unfold SioSocket.onMessagePacket at h
  split at h
  · obtain ⟨-, rfl⟩ := Prod.mk.inj (Except.ok.inj h)
    exact hnone rfl
  · cases htype : p.getType with
    | error e =>
      rw [htype] at h
      cases h
    | ok type =>
      rw [htype, Json.ok_bind] at h
      split at h
      · obtain ⟨-, rfl⟩ := Prod.mk.inj (Except.ok.inj h)
        exact hnone hconnected
      · split at h
        · obtain ⟨-, rfl⟩ := Prod.mk.inj (Except.ok.inj h)
          exact hnone hclosed
        · split at h
          · rename_i hevent
            have hisEvent : p.isEvent := by simpa [Packet.isEvent, htype] using hevent
            rw [eventOf, if_pos hisEvent]
            exact heard_onEventPacket h
          · split at h
            · exact hnone (heard_onAckPacket h)
            · split at h
              · obtain ⟨-, rfl⟩ := Prod.mk.inj (Except.ok.inj h)
                refine hnone ?_
                split <;> rfl
              · obtain ⟨-, rfl⟩ := Prod.mk.inj (Except.ok.inj h)
                exact hnone rfl

theorem deaf_sendImpl (c : SioClient) (binary : Bool) (payload : Text) :
    ∀ x ∈ c.sendImpl binary payload, x.Deaf := (allows_deaf c).sendImpl binary payload

/-- What becomes of a packet: its socket handles it, and is kept or forgotten. -/
theorem toSocket_ok {p : Packet} (h : c.toSocket w p = .ok (d, calls)) :
    c.findSocket p.nsp = none ∧ d = c ∧ calls = [] ∨ ∃ s t socketCalls, c.findSocket p.nsp = some s ∧
      s.onMessagePacket p = .ok (t, socketCalls) ∧
      SioClient.runCalls w (fun binary payload => c.sendImpl binary payload) socketCalls = .ok calls ∧
      d = if t.hasClient then c.updateSocket t else c.removeSocket p.nsp := by
  unfold SioClient.toSocket at h
  split at h
  · rename_i hfind
    obtain ⟨rfl, rfl⟩ := Prod.mk.inj (Except.ok.inj h)
    exact .inl ⟨hfind, rfl, rfl⟩
  · rename_i s hfind
    cases hr : s.onMessagePacket p with
    | error e =>
      rw [hr] at h
      cases h
    | ok r =>
      rw [hr] at h
      obtain ⟨t, socketCalls⟩ := r
      change (SioClient.runCalls w (fun binary payload => c.sendImpl binary payload) socketCalls >>= _) = _ at h
      cases hcalls : SioClient.runCalls w (fun binary payload => c.sendImpl binary payload) socketCalls with
      | error e =>
        rw [hcalls] at h
        cases h
      | ok sent =>
        rw [hcalls] at h
        obtain ⟨rfl, rfl⟩ := Prod.mk.inj (Except.ok.inj h)
        exact .inr ⟨s, t, socketCalls, hfind, hr, hcalls, rfl⟩

theorem posts_toSocket (p : Packet) (c : SioClient) : Posts (eventOf p) (c.toSocket w p) := by
  intro d calls h
  rcases toSocket_ok h with ⟨-, -, rfl⟩ | ⟨s, t, socketCalls, -, hpacket, hcalls, -⟩
  · exact List.nil_sublist _
  · rw [heard_runCalls (deaf_sendImpl c) hcalls]
    exact heard_onMessagePacket hpacket

theorem sockets_connectSid {p : Packet} (h : c.connectSid p = .ok d) : d.sockets = c.sockets := by
  unfold SioClient.connectSid at h
  split at h
  · split at h
    · obtain rfl := Except.ok.inj h
      rfl
    · rename_i entry _
      cases hsid : SioClient.entryString entry with
      | error e =>
        rw [hsid] at h
        cases h
      | ok sid =>
        rw [hsid] at h
        obtain rfl := Except.ok.inj h
        rfl
  · obtain rfl := Except.ok.inj h
    rfl

/-- A function that does nothing to the sockets, nor calls one back. -/
def Apart (c : SioClient) (r : Except Crash (SioClient × List ClientCall)) : Prop :=
  ∀ d calls, r = .ok (d, calls) → d.sockets = c.sockets ∧ ∀ x ∈ calls, ∀ call, x ≠ .socket call

theorem apart_ok (h : d.sockets = c.sockets) (hcalls : ∀ x ∈ calls, ∀ call, x ≠ .socket call) :
    Apart c (.ok (d, calls)) := by
  rintro d calls ⟨⟩
  exact ⟨h, hcalls⟩

theorem apart_bind {α : Type} {r : Except Crash α} {f : α → Except Crash (SioClient × List ClientCall)}
    (h : ∀ a, r = .ok a → Apart c (f a)) : Apart c (r >>= f) := by
  cases r with
  | error e => exact fun _ _ h => by cases h
  | ok a => exact h a rfl

theorem apart_closeImpl (code : CloseCode) (c : SioClient) : Apart c (.ok (c.closeImpl code)) := by
  refine apart_ok rfl ?_
  split
  · exact List.forall_mem_singleton.mpr fun _ h => by cases h
  · exact List.forall_mem_nil _

theorem apart_onHandshake (m : Message) (c : SioClient) : Apart c (c.onHandshake m) := by
  unfold SioClient.onHandshake
  split
  · split
    · exact apart_closeImpl _ c
    · exact apart_bind fun sid _ => apart_bind fun pingInterval _ => apart_bind fun pingTimeout _ =>
        apart_ok rfl (List.forall_mem_nil _)
  · exact apart_closeImpl _ c

theorem apart_onPing (c : SioClient) : Apart c (c.onPing w) := by
  unfold SioClient.onPing
  refine apart_bind fun frames _ => ?_
  dsimp only
  split
  · exact fun _ _ h => by cases h
  · refine apart_ok rfl fun x hx call heq => ?_
    obtain ⟨f, -, rfl⟩ := List.mem_map.mp hx
    cases heq

/-- Only a message has to do with a socket. -/
theorem onDecode_ok {p : Packet} (h : c.onDecode w p = .ok (d, calls)) :
    (d.sockets = c.sockets ∧ ∀ x ∈ calls, ∀ call, x ≠ .socket call) ∨
      ∃ c' : SioClient, c'.sockets = c.sockets ∧ c'.toSocket w p = .ok (d, calls) := by
  unfold SioClient.onDecode at h
  split at h
  · cases htype : p.getType with
    | error e =>
      rw [htype] at h
      cases h
    | ok type =>
      rw [htype, Json.ok_bind] at h
      split at h
      · cases hsid : c.connectSid p with
        | error e =>
          rw [hsid] at h
          cases h
        | ok c' =>
          rw [hsid] at h
          exact .inr ⟨c', sockets_connectSid hsid, h⟩
      · exact .inr ⟨c, rfl, h⟩
  · left
    split at h
    · exact apart_onHandshake _ c d calls h
    · split at h
      · exact apart_closeImpl _ c d calls h
      · split at h
        · exact apart_onPing c d calls h
        · exact apart_ok rfl (List.forall_mem_nil _) d calls h

theorem posts_onDecode (p : Packet) (c : SioClient) : Posts (eventOf p) (c.onDecode w p) := by
  intro d calls h
  rcases onDecode_ok h with ⟨-, hapart⟩ | ⟨c', -, hsocket⟩
  · have hdeaf : ∀ x ∈ calls, x.Deaf := by
      intro x hx
      cases x with
      | socket call => exact absurd rfl (hapart _ hx call)
      | _ => rfl
    rw [List.filterMap_eq_nil_iff.mpr hdeaf]
    exact List.nil_sublist _
  · exact posts_toSocket p c' d calls hsocket

theorem partialPacket_onDecode {p : Packet} (h : c.onDecode w p = .ok (d, calls)) :
    d.partialPacket = c.partialPacket := by
  have hsame : c.onDecode w p = SioClient.withPartial c.partialPacket (c.onDecode w p) :=
    SioClient.onDecode_withPartial p c c.partialPacket
  rw [h] at hsame
  have hd := (Prod.mk.inj (Except.ok.inj hsame)).1
  exact (congrArg SioClient.partialPacket hd).trans rfl

/-- A payload that comes in is decoded on, and at most its packet's event is posted. -/
theorem onMessage_ok {payload : Text} (h : c.onMessage w payload = .ok (d, calls)) :
    ∃ decoded, PacketManager.putPayload w payload c.partialPacket = .ok (d.partialPacket, decoded) ∧
      (calls.filterMap ClientCall.heard).Sublist (decoded.toList.filterMap eventOf) := by
  cases hput : PacketManager.putPayload w payload c.partialPacket with
  | error e =>
    rw [SioClient.onMessage, hput] at h
    cases h
  | ok r =>
    rw [SioClient.onMessage, hput] at h
    obtain ⟨partialPacket, _ | p⟩ := r
    · obtain ⟨rfl, rfl⟩ := Prod.mk.inj (Except.ok.inj h)
      exact ⟨none, rfl, List.Sublist.refl _⟩
    · have hdecode : ({ c with partialPacket } : SioClient).onDecode w p = .ok (d, calls) := h
      refine ⟨some p, by rw [partialPacket_onDecode hdecode], ?_⟩
      have hone : (some p).toList.filterMap eventOf = (eventOf p).toList := by
        rw [Option.toList_some, List.filterMap_cons]
        cases eventOf p <;> rfl
      rw [hone]
      exact posts_onDecode p _ d calls hdecode

end Messages

namespace SioService

variable {w : DoubleCodec UInt64} {validUri : Text → Bool} {s t u v : SioService}
  {calls more now : List ClientCall}

/-- What has come in since the decoder was empty. -/
def Decoding (w : DoubleCodec UInt64) (payloads : List Text) (t : SioService) (calls : List ClientCall) :
    Prop :=
  ∃ decoded, PacketManager.putPayloads w payloads none = .ok (t.client.partialPacket, decoded) ∧
    (calls.filterMap ClientCall.heard).Sublist (decoded.filterMap eventOf)

theorem Decoding.step {payloads : List Text} {e : ServiceEvent} (h : Decoding w payloads s calls)
    (hs : s.linkState.Invariant) (hlink : s.link) (henabled : Enabled e s)
    (hstep : step w validUri e s = .ok (t, more)) :
    Decoding w (payloads ++ e.payload.toList) t (calls ++ more) := by
  obtain ⟨decoded, hput, hheard⟩ := h
  by_cases he : ∃ payload, e = .message payload
  · obtain ⟨payload, rfl⟩ := he
    obtain ⟨c, hcall, rfl⟩ := step_ok hstep
    obtain ⟨new, hnew, hmore⟩ := onMessage_ok (c := s.client) hcall
    refine ⟨decoded ++ new.toList, ?_, ?_⟩
    · rw [PacketManager.putPayloads_append hput]
      change (PacketManager.putPayloads w [payload] s.client.partialPacket).map _ = _
      rw [PacketManager.putPayloads_cons hnew]
      change Except.ok (c.partialPacket, decoded ++ (new.toList ++ [])) = _
      rw [List.append_nil]
      rfl
    · rw [List.filterMap_append, List.filterMap_append]
      exact hheard.append hmore
  · have he : ∀ payload, e ≠ .message payload := fun payload h => he ⟨payload, h⟩
    have hnone : e.payload = none := by
      cases e with
      | message payload => exact absurd rfl (he payload)
      | _ => rfl
    have hdeaf := calls_of_step (allows_deaf s.client) he (fun _ _ _ _ => rfl) hstep
    have hquiet : more.filterMap ClientCall.heard = [] := List.filterMap_eq_nil_iff.mpr hdeaf
    -- While the connection lasts the client does not connect.
    have hparse : SameParse s.client t.client := by
      rcases parse_of_step he henabled hstep with ⟨hparse, -⟩ | ⟨-, n, hn, hne⟩
      · exact hparse
      · obtain ⟨⟨note, hmove, hnotice⟩, -⟩ := moved_of_step henabled hstep
        rw [hnotice] at hn
        obtain rfl := Option.mem_toList.mp hn
        obtain ⟨hpending, -⟩ := hs.of_link hlink
        cases n with
        | connecting =>
          have hzero := (LinkState.activity_eq_zero.mp (hs.stopped hmove.connecting.1)).2.2.1
          exact absurd (hzero.symm.trans hlink) Bool.false_ne_true
        | reconnecting =>
          have hless := hmove.reconnecting
          rw [hpending] at hless
          exact absurd hless (Nat.not_lt_zero _)
        | opened => exact absurd rfl hne
    refine ⟨decoded, ?_, ?_⟩
    · rw [hnone, Option.toList_none, List.append_nil, hparse.1]
      exact hput
    · rw [List.filterMap_append, hquiet, List.append_nil]
      exact hheard

theorem Decoding.replay {payloads : List Text} {events : List ServiceEvent}
    (hkept : ∀ e ∈ events, ∀ normal, e ≠ .closed normal) (h : Decoding w payloads s calls)
    (hs : s.linkState.Invariant) (hlink : s.link)
    (later : SioService.replay w validUri events (s, calls) = some (t, more)) :
    Decoding w (payloads ++ events.filterMap ServiceEvent.payload) t more := by
  induction events generalizing s calls payloads with
  | nil =>
    obtain ⟨rfl, rfl⟩ := Prod.mk.inj (Option.some.inj later)
    rw [List.filterMap_nil, List.append_nil]
    exact h
  | cons e events ih =>
    obtain ⟨he, hkept⟩ := List.forall_mem_cons.mp hkept
    have hsplit : (e :: events).filterMap ServiceEvent.payload =
        e.payload.toList ++ events.filterMap ServiceEvent.payload := by
      rw [List.filterMap_cons]
      cases e.payload <;> rfl
    rw [SioService.replay] at later
    split at later
    · rename_i henabled
      split at later
      · rename_i r hrecord
        cases hstep : SioService.step w validUri e s with
        | error e =>
          rw [record, hstep] at hrecord
          cases hrecord
        | ok q =>
          rw [record, hstep] at hrecord
          obtain rfl := Except.ok.inj hrecord
          obtain ⟨⟨note, hmove, -⟩, -⟩ := moved_of_step henabled hstep
          rw [hsplit, ← List.append_assoc]
          exact ih hkept (h.step hs hlink henabled hstep) (hs.move hmove) (link_of_step he hstep hlink) later
      · cases later
    · cases later

/-- In every run, as long as a connection lasts, the events that are posted are those of the packets that
its own payloads are decoded into, in their order and each at most once; and it opened without a session
identifier of the one before. -/
theorem events_of_connection (hs : s.Fresh) (run : Runs w validUri (fun _ => True) s t calls)
    (henabled : Enabled .opened t) (hopened : step w validUri .opened t = .ok (u, now))
    {events : List ServiceEvent} (hkept : ∀ e ∈ events, ∀ normal, e ≠ .closed normal)
    (later : replay w validUri events (u, []) = some (v, more)) : u.client.sid = [] ∧
      ∃ decoded, PacketManager.putPayloads w (events.filterMap ServiceEvent.payload) none =
          .ok (v.client.partialPacket, decoded) ∧
        (more.filterMap ClientCall.heard).Sublist (decoded.filterMap eventOf) := by
  have hclean : u.client.Clean := by
    have ht := run.clean hs (.inl henabled.2)
    rcases parse_of_step (fun _ h => ServiceEvent.noConfusion h) henabled hopened with ⟨hparse, -⟩ | ⟨hnew, -⟩
    · exact hparse.clean ht
    · exact hnew
  have hu : u.linkState.Invariant ∧ u.link := by
    obtain ⟨⟨note, hmove, -⟩, -⟩ := moved_of_step henabled hopened
    refine ⟨(run.keeps hs.invariant).move hmove, ?_⟩
    obtain ⟨c, -, rfl⟩ := step_ok hopened
    rfl
  have hstart : Decoding w [] u [] := ⟨[], by rw [hclean.1]; rfl, List.Sublist.refl _⟩
  have hdecoding := hstart.replay hkept hu.1 hu.2 later
  rw [List.nil_append] at hdecoding
  exact ⟨hclean.2, hdecoding⟩

/-- The connection was lost when a packet waited for its buffer, and is being made again. -/
def lostConnection : SioService where
  client :=
    { conState := .opening, networkThread := true, baseUrl := ['u'], reconnMade := 1, sockets := [
        { listeningSocket with connected := false }] }
  running := true
  attempt := true

theorem runs_lostConnection : Runs halfCodec (fun _ => true) (fun _ => True) launched lostConnection
    [.dispatch (.connectImpl ['u']), .connect ['u'], .transmit false ['4', '0'], .opened,
      .socket (.socketOpened ['/']), .reconnecting, .connect ['u']] :=
  runs_of_replay [.connect ['u'] .nullptr, .handler, .opened, .message ['4', '0'], .listener .onAny,
    .message ['4', '5', '1', '-', '[', '"', 'A', '"', ']'], .closed false, .reconnectExpired, .handler]
    (fun _ _ => trivial) rfl

def secondConnection : SioService where
  client :=
    { conState := .opened, con := true, networkThread := true, baseUrl := ['u'], sockets := [
        { listeningSocket with connected := false, connectionTimer := some .connect }] }
  running := true
  link := true

theorem events_of_connection_second : secondConnection.client.sid = [] ∧
    ∃ decoded, PacketManager.putPayloads halfCodec
        ([.message ['4', '2', '[', '"', 'B', '"', ']']].filterMap ServiceEvent.payload) none =
          .ok (secondConnection.client.partialPacket, decoded) ∧
      ([.socket (.message "B" [])].filterMap ClientCall.heard).Sublist (decoded.filterMap eventOf) :=
  have hkept : ∀ e ∈ [ServiceEvent.message ['4', '2', '[', '"', 'B', '"', ']']], ∀ normal,
      e ≠ .closed normal :=
    List.forall_mem_singleton.mpr fun _ h => ServiceEvent.noConfusion h
  have hopened : step halfCodec (fun _ => true) .opened lostConnection =
      .ok (secondConnection, [.transmit false ['4', '0'], .opened]) := rfl
  events_of_connection fresh_launched runs_lostConnection ⟨rfl, rfl⟩ hopened hkept (v := secondConnection) rfl

end SioService

end UwavClient
