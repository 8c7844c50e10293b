import UwavClient.Socket.Connections

/-!
# What a step may call

Which calls a function of the client makes, as far as properties of single calls go. Sockets are called
back only when a message comes in, but for those that are closed; and only an open connection is sent
anything but the answer to a ping.
-/

namespace UwavClient

open Json (DoubleCodec)

/-- A function all of whose calls have the property, if it returns. -/
def Makes (P : ClientCall → Prop) (r : Except Crash (SioClient × List ClientCall)) : Prop :=
  ∀ c calls, r = .ok (c, calls) → ∀ x ∈ calls, P x

/-- A property that calls have but for what is sent and what sockets call. -/
structure Allows (P : ClientCall → Prop) (c : SioClient) : Prop where
  other : ∀ x, (∀ call, x ≠ .socket call) → (∀ binary payload, x ≠ .transmit binary payload) → P x
  send : c.conState = .opened → ∀ binary payload, P (.transmit binary payload)
  socket : ∀ call, (∃ p, call = .send p) ∨ (∃ nsp, call = .socketClosed nsp) → P (.socket call)

section Sockets

variable {s : SioSocket}

/-- A socket that sends calls nobody else. -/
def OnlySends (calls : List SocketCall) : Prop := ∀ call ∈ calls, ∃ p, call = .send p

theorem onlySends_sendPacket (p : Packet) (s : SioSocket) : OnlySends (s.sendPacket p).2 := by
  unfold SioSocket.sendPacket
  split
  · exact List.forall_mem_nil _
  · split
    · refine List.forall_mem_append.mpr ⟨fun call hcall => ?_, List.forall_mem_singleton.mpr ⟨p, rfl⟩⟩
      obtain ⟨q, -, rfl⟩ := List.mem_map.mp hcall
      exact ⟨q, rfl⟩
    · exact List.forall_mem_nil _

theorem onlySends_emit (name : String) (messages : List Message) (ack : Option ℕ) (s : SioSocket) :
    OnlySends (s.emit name messages ack).2 := by
  unfold SioSocket.emit
  split
  · exact List.forall_mem_nil _
  · exact onlySends_sendPacket _ _

theorem onlySends_sendConnect (s : SioSocket) : OnlySends s.sendConnect.2 := by
  unfold SioSocket.sendConnect
  split
  · exact List.forall_mem_nil _
  · exact List.forall_mem_singleton.mpr ⟨_, rfl⟩

theorem onlySends_close (s : SioSocket) : OnlySends s.close.2 := by
  unfold SioSocket.close
  split
  · exact List.forall_mem_nil _
  · exact onlySends_sendPacket _ s

theorem onlySends_socket (nsp : Text) (c : SioClient) : OnlySends (c.socket nsp).2 := by
  unfold SioClient.socket
  dsimp only
  split
  · exact List.forall_mem_nil _
  · dsimp only
    split
    · exact onlySends_sendConnect _
    · exact List.forall_mem_nil _

theorem onlySends_socketsInvoke {f : SioSocket → SioSocket × List SocketCall}
    (h : ∀ s, OnlySends (f s).2) (c : SioClient) : OnlySends (c.socketsInvoke f).2 := by
  intro call hcall
  obtain ⟨s, -, hs⟩ := List.mem_flatMap.mp hcall
  exact h s call hs

end Sockets

section Functions

variable {w : DoubleCodec UInt64} {P : ClientCall → Prop} {c : SioClient} {calls : List ClientCall}

theorem makes_ok (h : ∀ x ∈ calls, P x) : Makes P (.ok (c, calls)) := by
  rintro d calls ⟨⟩
  exact h

theorem makes_bind {α : Type} {r : Except Crash α}
    {f : α → Except Crash (SioClient × List ClientCall)} (h : ∀ a, r = .ok a → Makes P (f a)) :
    Makes P (r >>= f) := by
  cases r with
  | error e => exact fun _ _ h => by cases h
  | ok a => exact h a rfl

theorem makes_nil : ∀ x ∈ ([] : List ClientCall), P x := List.forall_mem_nil _

namespace Allows

theorem dispatch (hP : Allows P c) (h : Handler) : P (.dispatch h) :=
  hP.other _ (fun _ h => by cases h) (fun _ _ h => by cases h)

theorem one (hP : Allows P c) {x : ClientCall} (hsocket : ∀ call, x ≠ .socket call)
    (hsend : ∀ binary payload, x ≠ .transmit binary payload) : ∀ y ∈ [x], P y :=
  List.forall_mem_singleton.mpr (hP.other x hsocket hsend)

theorem sendImpl (hP : Allows P c) (binary : Bool) (payload : Text) :
    ∀ x ∈ c.sendImpl binary payload, P x := by
  unfold SioClient.sendImpl
  split
  · rename_i hopened
    exact List.forall_mem_singleton.mpr (hP.send hopened binary payload)
  · exact makes_nil

theorem runCalls (hP : Allows P c) {send : Bool → Text → List ClientCall}
    (hsend : ∀ binary payload, ∀ x ∈ send binary payload, P x) {socketCalls : List SocketCall}
    (honly : OnlySends socketCalls) (h : SioClient.runCalls w send socketCalls = .ok calls) :
    ∀ x ∈ calls, P x :=
  forall_runCalls hsend (fun call hcall => hP.socket call (.inl (honly call hcall))) h

theorem dispatchSend (hP : Allows P c) (binary : Bool) (payload : Text) :
    ∀ x ∈ SioClient.dispatchSend binary payload, P x := List.forall_mem_singleton.mpr (hP.dispatch _)

theorem connectImpl (hP : Allows P c) (validUri : Text → Bool) (uri : Text) :
    ∀ x ∈ SioClient.connectImpl validUri uri, P x := by
  unfold SioClient.connectImpl
  split <;> exact hP.one (fun _ h => by cases h) (fun _ _ h => by cases h)

theorem closeImpl (hP : Allows P c) (code : CloseCode) (d : SioClient) :
    ∀ x ∈ (d.closeImpl code).2, P x := by
  unfold SioClient.closeImpl
  dsimp only
  split
  · exact hP.one (fun _ h => by cases h) (fun _ _ h => by cases h)
  · exact makes_nil

theorem connect (hP : Allows P c) (uri : Text) (auth : Message) (d : SioClient) :
    ∀ x ∈ (d.connect uri auth).2, P x := by
  unfold SioClient.connect
  dsimp only
  split
  · exact makes_nil
  · exact List.forall_mem_singleton.mpr (hP.dispatch _)

theorem beginClose (hP : Allows P c) {send : Bool → Text → List ClientCall}
    (hsend : ∀ binary payload, ∀ x ∈ send binary payload, P x) (d : SioClient) :
    Makes P (d.beginClose w send) :=
  makes_bind fun _ hcalls =>
    makes_ok (hP.runCalls hsend (onlySends_socketsInvoke onlySends_close _) hcalls)

theorem close (hP : Allows P c) (d : SioClient) : Makes P (d.close w) := by
  refine makes_bind fun r hr => makes_ok (List.forall_mem_append.mpr ⟨?_, ?_⟩)
  · exact hP.beginClose hP.dispatchSend d r.1 r.2 hr
  · exact List.forall_mem_singleton.mpr (hP.dispatch _)

theorem closeOnNetwork (hP : Allows P c) (d : SioClient) : Makes P (d.closeOnNetwork w) := by
  refine makes_bind fun r hr => makes_ok (List.forall_mem_append.mpr ⟨?_, ?_⟩)
  · exact hP.beginClose (fun _ _ => makes_nil) d r.1 r.2 hr
  · exact hP.closeImpl .normal r.1

theorem withSocket (hP : Allows P c) {f : SioSocket → SioSocket × List SocketCall}
    (hf : ∀ s, OnlySends (f s).2) (d : SioClient) : Makes P (SioService.withSocket w f d) := by
  unfold SioService.withSocket
  dsimp only
  split
  · exact makes_ok makes_nil
  · exact makes_bind fun calls hcalls => makes_ok (hP.runCalls hP.dispatchSend
      (List.forall_mem_append.mpr ⟨onlySends_socket [] d, hf _⟩) hcalls)

theorem onFail (hP : Allows P c) (d : SioClient) : Makes P (d.onFail w) := by
  unfold SioClient.onFail
  split
  · exact hP.closeOnNetwork d
  · dsimp only
    split
    · exact makes_ok makes_nil
    · exact makes_ok (hP.one (fun _ h => by cases h) (fun _ _ h => by cases h))

theorem onOpen (hP : Allows P c) (hsend : c.conState ≠ .closing → ∀ binary payload,
    P (.transmit binary payload)) : Makes P (c.onOpen w) := by
  unfold SioClient.onOpen
  split
  · exact hP.closeOnNetwork c
  · rename_i hstill
    have hP' : ∀ d, Allows P d := fun d => { hP with send := fun _ => hsend hstill }
    refine makes_bind fun calls hcalls => makes_ok (List.forall_mem_append.mpr ⟨?_, ?_⟩)
    · exact hP.runCalls (hP' _).sendImpl (List.forall_mem_append.mpr
        ⟨onlySends_socketsInvoke onlySends_sendConnect _, onlySends_socket _ _⟩) hcalls
    · exact hP.one (fun _ h => by cases h) (fun _ _ h => by cases h)

theorem onClose (hP : Allows P c) (normal : Bool) (d : SioClient) : ∀ x ∈ (d.onClose normal).2, P x := by
  unfold SioClient.onClose
  dsimp only
  split
  · exact hP.one (fun _ h => by cases h) (fun _ _ h => by cases h)
  · split
    · exact makes_nil
    · exact hP.one (fun _ h => by cases h) (fun _ _ h => by cases h)

theorem runHandler (hP : Allows P c) (validUri : Text → Bool) (h : Handler) :
    ∀ x ∈ (SioService.runHandler validUri h c).2, P x := by
  cases h with
  | connectImpl uri => exact hP.connectImpl validUri uri
  | closeImpl code => exact hP.closeImpl code c
  | sendImpl binary payload => exact hP.sendImpl binary payload
  | timeoutReconnect =>
    change ∀ x ∈ (c.timeoutReconnect validUri).2, P x
    unfold SioClient.timeoutReconnect
    split
    · exact List.forall_mem_cons.mpr ⟨hP.other _ (fun _ h => by cases h) (fun _ _ h => by cases h),
        hP.connectImpl validUri _⟩
    · exact makes_nil
  | timeoutPing => exact hP.closeImpl .policyViolation c

theorem socketTimeout (hP : Allows P c) (nsp : Text) (d : SioClient) :
    ∀ x ∈ (SioService.socketTimeout nsp d).2, P x := by
  unfold SioService.socketTimeout
  split
  · exact makes_nil
  · rename_i t _
    intro x hx
    obtain ⟨call, hcall, rfl⟩ := List.mem_map.mp hx
    refine hP.socket call (.inr ?_)
    unfold SioSocket.onClose at hcall
    split at hcall
    · cases hcall
    · exact ⟨t.nsp, List.mem_singleton.mp hcall⟩

end Allows

/-- What comes in may be answered, and sockets are called back. -/
theorem makes_onMessage (hP : Allows P c) (hpong : P (.transmit false ['3']))
    (hsocket : ∀ call, P (.socket call)) (payload : Text) : Makes P (c.onMessage w payload) := by
  have hmessage : ∀ d : SioClient, d.conState = c.conState → ∀ p, Makes P (d.toSocket w p) := by
    intro d hstate p
    have hd : Allows P d := { hP with send := fun hopened => hP.send (hstate ▸ hopened) }
    unfold SioClient.toSocket
    split
    · exact makes_ok makes_nil
    · exact makes_bind fun r _ => makes_bind fun calls hcalls =>
        makes_ok (forall_runCalls hd.sendImpl (fun call _ => hsocket call) hcalls)
  have hhandshake : ∀ (d : SioClient) (m : Message), Makes P (d.onHandshake m) := by
    intro d m
    unfold SioClient.onHandshake
    split
    · split
      · exact makes_ok (hP.closeImpl _ d)
      · exact makes_bind fun sid _ => makes_bind fun pingInterval _ =>
          makes_bind fun pingTimeout _ => makes_ok makes_nil
    · exact makes_ok (hP.closeImpl _ d)
  have hping : ∀ d : SioClient, Makes P (d.onPing w) := by
    intro d
    have hencode : PacketManager.encode w (.ofFrame Packet.framePong) = .ok [(false, ['3'])] := rfl
    unfold SioClient.onPing
    rw [hencode, Json.ok_bind]
    dsimp only
    split
    · exact fun _ _ h => by cases h
    · exact makes_ok (List.forall_mem_singleton.mpr hpong)
  have hdecode : ∀ d : SioClient, d.conState = c.conState → ∀ p, Makes P (d.onDecode w p) := by
    intro d hstate p
    unfold SioClient.onDecode
    split
    · refine makes_bind fun type _ => ?_
      split
      · exact makes_bind fun d' hsid =>
          hmessage d' ((sameLink_connectSid hsid).conState.trans hstate) p
      · exact hmessage d hstate p
    · split
      · exact hhandshake d _
      · split
        · exact makes_ok (hP.closeImpl _ d)
        · split
          · exact hping d
          · exact makes_ok makes_nil
  unfold SioClient.onMessage
  refine makes_bind fun r _ => ?_
  obtain ⟨partialPacket, _ | p⟩ := r
  · exact makes_ok makes_nil
  · exact hdecode { c with partialPacket } rfl p

end Functions

namespace SioService

variable {w : DoubleCodec UInt64} {validUri : Text → Bool} {P : ClientCall → Prop} {e : ServiceEvent}
  {s t : SioService} {calls : List ClientCall}

theorem begin_conState (e : ServiceEvent) (s : SioService) :
    (s.begin e).client.conState = s.client.conState := by
  cases e with
  | connect uri auth =>
    rw [begin]
    split <;> rfl
  | _ => rfl

/-- What a step calls, unless a message comes in. -/
theorem calls_of_step (hP : Allows P s.client) (he : ∀ payload, e ≠ .message payload)
    (hopened : e = .opened → s.client.conState ≠ .closing → ∀ binary payload, P (.transmit binary payload))
    (h : step w validUri e s = .ok (t, calls)) : ∀ x ∈ calls, P x := by
  obtain ⟨c, hcall, -⟩ := step_ok h
  have hstate := begin_conState e s
  have hP' : Allows P (s.begin e).client := { hP with send := fun hopen => hP.send (hstate ▸ hopen) }
  suffices Makes P (call w validUri e s.posted (s.begin e).client) from this c calls hcall
  cases e with
  | connect uri auth => exact makes_ok (hP'.connect uri auth _)
  | close => exact hP'.close _
  | emit name messages => exact hP'.withSocket (onlySends_emit name messages none) _
  | listener change =>
    have hnone : ∀ t : SioSocket, OnlySends (t.changeListener change, []).2 := fun _ => List.forall_mem_nil _
    exact hP'.withSocket hnone _
  | handler =>
    refine makes_ok ?_
    cases s.posted with
    | nil => exact makes_nil
    | cons head rest => exact hP'.runHandler validUri head
  | failed => exact hP'.onFail _
  | opened => exact hP'.onOpen fun hstill => hopened rfl (hstate ▸ hstill)
  | closed normal => exact makes_ok (hP'.onClose normal _)
  | message payload => exact absurd rfl (he payload)
  | socketExpired nsp => exact makes_ok (hP'.socketTimeout nsp _)
  | joining | joined | reconnectExpired | pingExpired | loopEnds => exact makes_ok makes_nil

end SioService

end UwavClient
