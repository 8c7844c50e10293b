import UwavClient.Socket.Incoming

/-!
# A namespace is announced once

A socket that the server has connected stays connected as long as the connection lasts, whatever the
program and the server do, unless it is closed, which is reported. So the listener by which the program
greets the server is called at most once for a connection; and a listener of events stays with its
socket, since `off_all` does not take it away.
-/

namespace UwavClient

open Json (DoubleCodec)

/-- The socket of a namespace is connected. With `listening`, it has the listener of events. -/
def SioClient.Standing (nsp : Text) (listening : Bool) (c : SioClient) : Prop :=
  ∃ t, c.findSocket nsp = some t ∧ t.hasClient ∧ t.connected ∧ (listening → t.eventListener)

/-- What leaves a connected socket connected. -/
structure SioSocket.Stays (s t : SioSocket) : Prop where
  nsp : t.nsp = s.nsp
  hasClient : t.hasClient = s.hasClient
  connected : s.connected → t.connected
  listener : s.eventListener → t.eventListener

section Sockets

variable {w : DoubleCodec UInt64} {c d : SioClient} {s t : SioSocket} {nsp : Text} {listening : Bool}

theorem nsp_of_findSocket (h : c.findSocket nsp = some s) : s.nsp = nsp := by
  simpa using List.find?_some h

theorem findSocket_map {f : SioSocket → SioSocket} (hf : ∀ s, (f s).nsp = s.nsp) (c : SioClient)
    (nsp : Text) : ({ c with sockets := c.sockets.map f } : SioClient).findSocket nsp =
      (c.findSocket nsp).map f := by
  have hsame : ((fun t : SioSocket => decide (t.nsp = nsp)) ∘ f) = fun t => decide (t.nsp = nsp) :=
    funext fun t => by rw [Function.comp, hf]
  rw [SioClient.findSocket, List.find?_map, hsame]
  rfl

theorem findSocket_updateSocket (s : SioSocket) (c : SioClient) (nsp : Text) :
    (c.updateSocket s).findSocket nsp =
      (c.findSocket nsp).map fun t => if t.nsp = s.nsp then s else t := by
  refine findSocket_map (fun t => ?_) c nsp
  split
  · rename_i h
    exact h.symm
  · rfl

theorem findSocket_removeSocket (h : s.nsp ≠ nsp) (c : SioClient) :
    (c.removeSocket s.nsp).findSocket nsp = c.findSocket nsp := by
  unfold SioClient.removeSocket SioClient.findSocket
  induction c.sockets with
  | nil => rfl
  | cons t sockets ih =>
    by_cases hs : t.nsp = s.nsp
    · have hne : t.nsp ≠ nsp := fun ht => h (hs.symm.trans ht)
      rw [List.filter_cons_of_neg (by simpa using hs), ih, List.find?_cons_of_neg (by simpa using hne)]
    · rw [List.filter_cons_of_pos (by simpa using hs), List.find?_cons, List.find?_cons, ih]

theorem find?_insertSocket (h : s.nsp ≠ nsp) (sockets : List SioSocket) :
    (SioClient.insertSocket s sockets).find? (·.nsp = nsp) = sockets.find? (·.nsp = nsp) := by
  have hs : ¬(decide (s.nsp = nsp) = true) := by simpa using h
  induction sockets with
  | nil => exact List.find?_cons_of_neg hs
  | cons t sockets ih =>
    rw [SioClient.insertSocket]
    split
    · exact List.find?_cons_of_neg hs
    · rw [List.find?_cons, List.find?_cons, ih]

theorem SioSocket.Stays.standing (h : s.Stays t) (hs : s.hasClient ∧ s.connected ∧
    (listening → s.eventListener)) : t.hasClient ∧ t.connected ∧ (listening → t.eventListener) :=
  ⟨h.hasClient.trans hs.1, h.connected hs.2.1, fun hl => h.listener (hs.2.2 hl)⟩

theorem standing_map (hc : c.Standing nsp listening) {f : SioSocket → SioSocket} (hf : ∀ s : SioSocket, s.Stays (f s))
    (hd : d.sockets = c.sockets.map f) : d.Standing nsp listening := by
  obtain ⟨t, hfind, ht⟩ := hc
  refine ⟨f t, ?_, (hf t).standing ht⟩
  have hmap := findSocket_map (fun s => (hf s).nsp) c nsp
  rw [hfind] at hmap
  rw [SioClient.findSocket, hd]
  exact hmap

theorem standing_updateSocket (hc : c.Standing nsp listening) (hfind : c.findSocket s.nsp = some s)
    (hs : s.Stays t) : (c.updateSocket t).Standing nsp listening := by
  obtain ⟨x, hx, hstanding⟩ := hc
  have hupdate := findSocket_updateSocket t c nsp
  rw [hx, Option.map_some] at hupdate
  by_cases hnsp : x.nsp = t.nsp
  · rw [if_pos hnsp] at hupdate
    obtain rfl : x = s := by
      have hsame : nsp = s.nsp := (nsp_of_findSocket hx).symm.trans (hnsp.trans hs.nsp)
      rw [hsame, hfind] at hx
      exact (Option.some.inj hx).symm
    exact ⟨t, hupdate, hs.standing hstanding⟩
  · rw [if_neg hnsp] at hupdate
    exact ⟨x, hupdate, hstanding⟩

theorem standing_updateSocket_ne (hc : c.Standing nsp listening) (h : t.nsp ≠ nsp) :
    (c.updateSocket t).Standing nsp listening := by
  obtain ⟨x, hx, hstanding⟩ := hc
  have hupdate := findSocket_updateSocket t c nsp
  rw [hx, Option.map_some, if_neg fun heq => h (heq.symm.trans (nsp_of_findSocket hx))] at hupdate
  exact ⟨x, hupdate, hstanding⟩

theorem standing_socket (hc : c.Standing nsp listening) (name : Text) :
    (c.socket name).1.Standing nsp listening := by
  obtain ⟨t, hfind, ht⟩ := hc
  unfold SioClient.socket
  dsimp only
  split
  · exact ⟨t, hfind, ht⟩
  · rename_i hnone
    refine ⟨t, ?_, ht⟩
    have hne : (if name = [] then ['/'] else if name.head? ≠ some '/' then '/' :: name else name) ≠ nsp := by
      intro h
      rw [h, hfind] at hnone
      cases hnone
    have hothers (s : SioSocket) (hs : s.nsp ≠ nsp) :
        (SioClient.insertSocket s c.sockets).find? (·.nsp = nsp) = some t :=
      (find?_insertSocket hs c.sockets).trans hfind
    refine hothers _ ?_
    split <;> exact hne

/-! ## Sockets -/

theorem SioSocket.Stays.refl (s : SioSocket) : s.Stays s := ⟨rfl, rfl, id, id⟩

theorem stays_sendPacket (p : Packet) (s : SioSocket) : s.Stays (s.sendPacket p).1 := by
  unfold SioSocket.sendPacket
  split
  · exact .refl s
  · split <;> exact ⟨rfl, rfl, id, id⟩

theorem stays_emit (name : String) (messages : List Message) (s : SioSocket) :
    s.Stays (s.emit name messages none).1 := by
  unfold SioSocket.emit
  split
  · exact .refl s
  · exact stays_sendPacket _ s

theorem stays_changeListener (change : ListenerChange) (s : SioSocket) :
    s.Stays (s.changeListener change) := by
  cases change with
  | onAny => exact ⟨rfl, rfl, id, fun _ => rfl⟩
  | onError | offAll | offError => exact ⟨rfl, rfl, id, id⟩

theorem stays_close (s : SioSocket) : s.Stays s.close.1 := by
  unfold SioSocket.close
  split
  · exact .refl s
  · obtain ⟨hnsp, hclient, hconnected, hlistener⟩ :=
      stays_sendPacket (.ofType Packet.typeDisconnect s.nsp .nullptr) s
    exact ⟨hnsp, hclient, hconnected, hlistener⟩

/-- What a socket does with a packet: it announces itself when it was not connected, it is closed and
says so, or it stays. -/
structure Handles (s t : SioSocket) (calls : List SocketCall) : Prop where
  nsp : t.nsp = s.nsp
  announced : ∀ nsp, .socketOpened nsp ∈ calls →
    nsp = s.nsp ∧ s.connected = false ∧ t.hasClient ∧ t.connected
  stays : s.Stays t ∨ .socketClosed s.nsp ∈ calls

theorem handles_of_stays {calls : List SocketCall} (h : s.Stays t)
    (hcalls : ∀ nsp, .socketOpened nsp ∉ calls) : Handles s t calls :=
  ⟨h.nsp, fun nsp hmem => absurd hmem (hcalls nsp), .inl h⟩

theorem not_announced_of_onlySends {calls : List SocketCall} (h : OnlySends calls) (nsp : Text) :
    .socketOpened nsp ∉ calls := by
  intro hmem
  obtain ⟨p, hp⟩ := h _ hmem
  cases hp

theorem handles_onEventPacket {p : Packet} {calls : List SocketCall}
    (h : s.onEventPacket p = .ok (t, calls)) : Handles s t calls := by
  obtain ⟨sends, hsends, rfl⟩ := onEventPacket_ok h
  have hposted : ∀ nsp, SocketCall.socketOpened nsp ∉
      if s.eventListener then p.message.event.toList.map fun e => SocketCall.message e.1 e.2 else [] := by
    intro nsp hmem
    split at hmem
    · obtain ⟨e, -, he⟩ := List.mem_map.mp hmem
      cases he
    · cases hmem
  rcases hsends with ⟨rfl, rfl⟩ | ⟨answer, rfl, rfl⟩
  · rw [List.append_nil]
    exact handles_of_stays (.refl t) hposted
  · refine handles_of_stays (stays_sendPacket answer s) fun nsp hmem => ?_
    exact (List.mem_append.mp hmem).elim (hposted nsp)
      (not_announced_of_onlySends (onlySends_sendPacket answer s) nsp)

theorem handles_onAckPacket {p : Packet} {calls : List SocketCall}
    (h : s.onAckPacket p = .ok (t, calls)) : Handles s t calls := by
  have hack : ∀ messages, Handles s (s.onSocketioAck p.getPackId messages).1
      (s.onSocketioAck p.getPackId messages).2 := by
    intro messages
    unfold SioSocket.onSocketioAck
    split
    · exact handles_of_stays ⟨rfl, rfl, id, id⟩ fun nsp hmem => by cases List.mem_singleton.mp hmem
    · exact handles_of_stays (.refl s) fun _ => List.not_mem_nil
  unfold SioSocket.onAckPacket at h
  split at h
  · cases h
  all_goals
    obtain ⟨rfl, rfl⟩ := Prod.mk.inj (Except.ok.inj h)
    exact hack _

theorem handles_onConnected (s : SioSocket) (hclient : s.hasClient) :
    Handles s s.onConnected.1 s.onConnected.2 := by
  unfold SioSocket.onConnected
  dsimp only
  split
  · exact handles_of_stays ⟨rfl, rfl, id, id⟩ fun _ => List.not_mem_nil
  · rename_i hnot
    refine ⟨rfl, fun nsp hmem => ?_, .inl ⟨rfl, rfl, fun _ => rfl, id⟩⟩
    rcases List.mem_cons.mp hmem with hnsp | hmem
    · exact ⟨SocketCall.socketOpened.inj hnsp, Bool.eq_false_iff.mpr hnot, hclient, rfl⟩
    · obtain ⟨q, -, hq⟩ := List.mem_map.mp hmem
      cases hq

theorem handles_onClose (s : SioSocket) (hclient : s.hasClient) :
    Handles s s.onClose.1 s.onClose.2 := by
  unfold SioSocket.onClose
  rw [if_neg (by rw [hclient]; exact Bool.false_ne_true)]
  exact ⟨rfl, fun nsp hmem => (by cases List.mem_singleton.mp hmem), .inr (List.mem_singleton_self _)⟩

theorem handles_onMessagePacket {p : Packet} {calls : List SocketCall}
    (h : s.onMessagePacket p = .ok (t, calls)) : Handles s t calls := by
  have hnothing : Handles s s [] := handles_of_stays (.refl s) fun _ => List.not_mem_nil
  unfold SioSocket.onMessagePacket at h
  split at h
  · obtain ⟨rfl, rfl⟩ := Prod.mk.inj (Except.ok.inj h)
    exact hnothing
  · rename_i hguard
    have hclient : s.hasClient = true := by
      cases hs : s.hasClient with
      | true => rfl
      | false => exact absurd (.inl (by rw [hs]; rfl)) hguard
    cases htype : p.getType with
    | error e =>
      rw [htype] at h
      cases h
    | ok type =>
      rw [htype, Json.ok_bind] at h
      split at h
      · obtain ⟨rfl, rfl⟩ := Prod.mk.inj (Except.ok.inj h)
        exact handles_onConnected s hclient
      · split at h
        · obtain ⟨rfl, rfl⟩ := Prod.mk.inj (Except.ok.inj h)
          exact handles_onClose s hclient
        · split at h
          · exact handles_onEventPacket h
          · split at h
            · exact handles_onAckPacket h
            · split at h
              · obtain ⟨rfl, rfl⟩ := Prod.mk.inj (Except.ok.inj h)
                refine handles_of_stays (.refl s) fun nsp hmem => ?_
                split at hmem
                · cases List.mem_singleton.mp hmem
                · cases hmem
              · obtain ⟨rfl, rfl⟩ := Prod.mk.inj (Except.ok.inj h)
                exact hnothing

end Sockets

/-! ## The client -/

section Functions

variable {w : DoubleCodec UInt64} {c d : SioClient} {nsp : Text} {listening : Bool}
  {calls : List ClientCall}

theorem SioClient.Standing.of_sockets (hc : c.Standing nsp listening) (h : d.sockets = c.sockets) :
    d.Standing nsp listening := by
  obtain ⟨t, hfind, ht⟩ := hc
  exact ⟨t, (congrArg (List.find? _) h).trans hfind, ht⟩

theorem mem_runCalls {send : Bool → Text → List ClientCall} {call : SocketCall}
    (hcall : ∀ p, call ≠ .send p) {socketCalls : List SocketCall} (hmem : call ∈ socketCalls)
    (h : SioClient.runCalls w send socketCalls = .ok calls) : .socket call ∈ calls := by
  induction socketCalls generalizing calls with
  | nil => cases hmem
  | cons first socketCalls ih =>
    obtain ⟨now, rest, rfl, hrest, hnow⟩ := runCalls_cons_ok h
    rcases List.mem_cons.mp hmem with rfl | hmem
    · rcases hnow with rfl | ⟨p, frames, hp, -⟩
      · exact List.mem_append_left _ (List.mem_singleton_self _)
      · exact absurd hp (hcall p)
    · exact List.mem_append_right _ (ih hmem hrest)

theorem of_mem_runCalls {call : SocketCall} {socketCalls : List SocketCall}
    (h : SioClient.runCalls w (fun binary payload => c.sendImpl binary payload) socketCalls = .ok calls)
    (hmem : .socket call ∈ calls) : call ∈ socketCalls := by
  refine forall_runCalls (P := fun x => ∀ call, x = .socket call → call ∈ socketCalls) ?_ ?_ h _ hmem call rfl
  · intro binary payload x hx call heq
    subst heq
    unfold SioClient.sendImpl at hx
    split at hx
    · cases List.mem_singleton.mp hx
    · cases hx
  · exact fun call hcall other heq => ClientCall.socket.inj heq ▸ hcall

theorem standing_close (hc : c.Standing nsp listening) : Yields (SioClient.Standing nsp listening) (c.close w) :=
  yields_bind fun r hr => yields_ok <| by
    refine (?_ : Yields (SioClient.Standing nsp listening) (c.beginClose w SioClient.dispatchSend)) r.1 r.2 hr
    exact yields_bind fun _ _ => yields_ok (standing_map hc stays_close rfl)

theorem standing_withSocket (hc : c.Standing nsp listening) {f : SioSocket → SioSocket × List SocketCall}
    (hf : ∀ s : SioSocket, s.Stays (f s).1) : Yields (SioClient.Standing nsp listening) (SioService.withSocket w f c) := by
  have hsocket := standing_socket hc []
  unfold SioService.withSocket
  dsimp only
  split
  · exact yields_ok hsocket
  · rename_i t hfind
    refine yields_bind fun _ _ => yields_ok (standing_updateSocket hsocket ?_ (hf t))
    rw [nsp_of_findSocket hfind]
    exact hfind

theorem sockets_runHandler (validUri : Text → Bool) (h : Handler) (c : SioClient) :
    (SioService.runHandler validUri h c).1.sockets = c.sockets := by
  cases h with
  | timeoutReconnect =>
    change (c.timeoutReconnect validUri).1.sockets = c.sockets
    unfold SioClient.timeoutReconnect
    split <;> rfl
  | _ => rfl

theorem sockets_connect (uri : Text) (auth : Message) (c : SioClient) :
    (c.connect uri auth).1.sockets = c.sockets := by
  unfold SioClient.connect
  dsimp only
  split <;> rfl

theorem standing_socketTimeout (hc : c.Standing nsp listening) {name : Text}
    (hopen : .socket (.socketClosed nsp) ∉ (SioService.socketTimeout name c).2) :
    (SioService.socketTimeout name c).1.Standing nsp listening := by
  unfold SioService.socketTimeout at hopen ⊢
  split
  · exact hc
  · rename_i t hfind
    rw [hfind] at hopen
    obtain ⟨x, hx, hstanding⟩ := hc
    have hname := nsp_of_findSocket hfind
    by_cases hnsp : t.nsp = nsp
    · -- The socket of the namespace would be closed, and say so.
      obtain rfl : x = t := by
        rw [← hnsp, hname, hfind] at hx
        exact (Option.some.inj hx).symm
      refine absurd (List.mem_map_of_mem ?_) hopen
      rw [SioSocket.onClose, if_neg (by rw [hstanding.1]; exact Bool.false_ne_true), hnsp]
      exact List.mem_singleton_self _
    · rw [← hname]
      exact ⟨x, (findSocket_removeSocket hnsp c).trans hx, hstanding⟩

/-- A packet that comes in leaves a connected socket connected, unless it is closed. -/
theorem standing_toSocket (hc : c.Standing nsp listening) {p : Packet} (h : c.toSocket w p = .ok (d, calls))
    (hopen : .socket (.socketClosed nsp) ∉ calls) :
    d.Standing nsp listening ∧ .socket (.socketOpened nsp) ∉ calls := by
  rcases toSocket_ok h with ⟨-, rfl, rfl⟩ | ⟨s, t, socketCalls, hfind, hpacket, hcalls, rfl⟩
  · exact ⟨hc, List.not_mem_nil⟩
  obtain ⟨hnsp, hannounced, hstays⟩ := handles_onMessagePacket hpacket
  have hname := nsp_of_findSocket hfind
  have hfind' : c.findSocket s.nsp = some s := hname ▸ hfind
  have hself : s.nsp = nsp → s.hasClient ∧ s.connected := by
    intro hs
    obtain ⟨x, hx, hclient, hconnected, -⟩ := hc
    rw [← hs, hfind'] at hx
    obtain rfl := Option.some.inj hx
    exact ⟨hclient, hconnected⟩
  refine ⟨?_, fun hmem => ?_⟩
  · by_cases hs : s.nsp = nsp
    · have hstays := hstays.resolve_right fun hclosed =>
        hopen (mem_runCalls (fun _ h => by cases h) (hs ▸ hclosed) hcalls)
      rw [if_pos (hstays.hasClient.trans (hself hs).1)]
      exact standing_updateSocket hc hfind' hstays
    · split
      · exact standing_updateSocket_ne hc (hnsp ▸ hs)
      · obtain ⟨x, hx, hstanding⟩ := hc
        rw [← hname]
        exact ⟨x, (findSocket_removeSocket hs c).trans hx, hstanding⟩
  · obtain ⟨hs, hdown, -⟩ := hannounced nsp (of_mem_runCalls hcalls hmem)
    exact Bool.false_ne_true (hdown.symm.trans (hself hs.symm).2)

/-- A socket that is announced is connected. -/
theorem announced_toSocket {p : Packet} (h : c.toSocket w p = .ok (d, calls))
    (hnow : .socket (.socketOpened nsp) ∈ calls) : d.Standing nsp false := by
  rcases toSocket_ok h with ⟨-, -, rfl⟩ | ⟨s, t, socketCalls, hfind, hpacket, hcalls, rfl⟩
  · cases hnow
  obtain ⟨hnsp, hannounced, -⟩ := handles_onMessagePacket hpacket
  obtain ⟨rfl, -, hclient, hconnected⟩ := hannounced nsp (of_mem_runCalls hcalls hnow)
  have hupdate := findSocket_updateSocket t c s.nsp
  rw [nsp_of_findSocket hfind, hfind, Option.map_some, if_pos hnsp.symm, ← nsp_of_findSocket hfind] at hupdate
  rw [if_pos hclient]
  exact ⟨t, hupdate, hclient, hconnected, fun h => absurd h Bool.false_ne_true⟩

def ClientCall.NotAnnounced (nsp : Text) (x : ClientCall) : Prop := x ≠ .socket (.socketOpened nsp)

theorem allows_notAnnounced (nsp : Text) (c : SioClient) : Allows (ClientCall.NotAnnounced nsp) c where
  other _ hsocket _ := hsocket _
  send _ _ _ h := by cases h
  socket call h heq := by
    obtain rfl := ClientCall.socket.inj heq
    rcases h with ⟨p, h⟩ | ⟨name, h⟩ <;> cases h

/-- A payload that comes in has to do with a socket only as a packet for it. -/
theorem onMessage_sockets {payload : Text} (h : c.onMessage w payload = .ok (d, calls)) :
    (d.sockets = c.sockets ∧ ∀ x ∈ calls, ∀ call, x ≠ .socket call) ∨
      ∃ (c' : SioClient) (p : Packet), c'.sockets = c.sockets ∧ c'.toSocket w p = .ok (d, calls) := by
  unfold SioClient.onMessage at h
  cases hput : PacketManager.putPayload w payload c.partialPacket with
  | error e =>
    rw [hput] at h
    cases h
  | ok r =>
    rw [hput] at h
    obtain ⟨partialPacket, _ | p⟩ := r
    · obtain ⟨rfl, rfl⟩ := Prod.mk.inj (Except.ok.inj h)
      exact .inl ⟨rfl, List.forall_mem_nil _⟩
    · have hdecode : ({ c with partialPacket } : SioClient).onDecode w p = .ok (d, calls) := h
      rcases onDecode_ok hdecode with hapart | ⟨c', hsockets, hsocket⟩
      · exact .inl hapart
      · exact .inr ⟨c', p, hsockets, hsocket⟩

theorem standing_onMessage (hc : c.Standing nsp listening) {payload : Text}
    (h : c.onMessage w payload = .ok (d, calls)) (hopen : .socket (.socketClosed nsp) ∉ calls) :
    d.Standing nsp listening ∧ .socket (.socketOpened nsp) ∉ calls := by
  rcases onMessage_sockets h with ⟨hsockets, hapart⟩ | ⟨c', p, hsockets, hsocket⟩
  · exact ⟨hc.of_sockets hsockets, fun hmem => hapart _ hmem _ rfl⟩
  · exact standing_toSocket (hc.of_sockets hsockets) hsocket hopen

theorem announced_onMessage {payload : Text} (h : c.onMessage w payload = .ok (d, calls))
    (hnow : .socket (.socketOpened nsp) ∈ calls) : d.Standing nsp false := by
  rcases onMessage_sockets h with ⟨-, hapart⟩ | ⟨c', p, -, hsocket⟩
  · exact absurd rfl (hapart _ hnow _)
  · exact announced_toSocket hsocket hnow

end Functions

namespace SioService

variable {w : DoubleCodec UInt64} {validUri : Text → Bool} {e : ServiceEvent} {s t u v : SioService}
  {calls more now : List ClientCall} {nsp : Text} {listening : Bool}

/-- As long as the connection lasts and the socket is not closed, it stays connected and is not announced
again. -/
theorem standing_of_step (hs : s.linkState.Invariant) (hlink : s.link) (henabled : Enabled e s)
    (he : ∀ normal, e ≠ .closed normal) (hc : s.client.Standing nsp listening)
    (h : step w validUri e s = .ok (t, calls)) (hopen : .socket (.socketClosed nsp) ∉ calls) :
    t.client.Standing nsp listening ∧ .socket (.socketOpened nsp) ∉ calls := by
  obtain ⟨-, hattempt, -⟩ := hs.of_link hlink
  have hnone : (∀ payload, e ≠ .message payload) → .socket (.socketOpened nsp) ∉ calls :=
    fun hmessage hmem => calls_of_step (allows_notAnnounced nsp s.client) hmessage
      (fun _ _ _ _ h => by cases h) h _ hmem rfl
  have hbegin : (s.begin e).client.Standing nsp listening := by
    refine hc.of_sockets ?_
    cases e with
    | connect uri auth =>
      rw [begin]
      split <;> rfl
    | _ => rfl
  obtain ⟨c, hcall, rfl⟩ := step_ok h
  have hother (hyields : Yields (SioClient.Standing nsp listening)
      (call w validUri e s.posted (s.begin e).client)) : c.Standing nsp listening := hyields c calls hcall
  cases e with
  | message payload => exact standing_onMessage hbegin hcall hopen
  | closed normal => exact absurd rfl (he normal)
  | failed | opened => exact absurd (hattempt.symm.trans henabled.2) Bool.false_ne_true
  | socketExpired name =>
    refine ⟨?_, hnone fun _ h => by cases h⟩
    obtain ⟨rfl, rfl⟩ := Prod.mk.inj (Except.ok.inj hcall)
    exact standing_socketTimeout hbegin hopen
  | connect uri auth =>
    exact ⟨hother (yields_ok (hbegin.of_sockets (sockets_connect uri auth _))), hnone fun _ h => by cases h⟩
  | close => exact ⟨hother (standing_close hbegin), hnone fun _ h => by cases h⟩
  | emit name messages =>
    exact ⟨hother (standing_withSocket hbegin (stays_emit name messages)), hnone fun _ h => by cases h⟩
  | listener change =>
    have hstays : ∀ t : SioSocket, t.Stays (t.changeListener change, ([] : List SocketCall)).1 :=
      stays_changeListener change
    exact ⟨hother (standing_withSocket hbegin hstays), hnone fun _ h => by cases h⟩
  | handler =>
    refine ⟨hother (yields_ok ?_), hnone fun _ h => by cases h⟩
    cases s.posted with
    | nil => exact hbegin
    | cons head rest => exact hbegin.of_sockets (sockets_runHandler validUri head _)
  | joining | joined | reconnectExpired | pingExpired | loopEnds =>
    exact ⟨hother (yields_ok (hbegin.of_sockets rfl)), hnone fun _ h => by cases h⟩

theorem Runs.standing (later : Runs w validUri (fun e => ∀ normal, e ≠ .closed normal) u v more)
    (hu : u.linkState.Invariant) (hlink : u.link) (hc : u.client.Standing nsp listening)
    (hopen : .socket (.socketClosed nsp) ∉ more) :
    v.client.Standing nsp listening ∧ .socket (.socketOpened nsp) ∉ more := by
  have hkept : v.linkState.Invariant ∧ v.link ∧ (.socket (.socketClosed nsp) ∉ more →
      v.client.Standing nsp listening ∧ .socket (.socketOpened nsp) ∉ more) := by
    refine later.invariant (fun v more => v.linkState.Invariant ∧ v.link ∧
      (.socket (.socketClosed nsp) ∉ more → v.client.Standing nsp listening ∧
        .socket (.socketOpened nsp) ∉ more)) ⟨hu, hlink, fun _ => ⟨hc, List.not_mem_nil⟩⟩ ?_
    rintro e s calls t next ⟨hinv, hlink, hstanding⟩ he henabled hstep
    obtain ⟨⟨note, hmove, -⟩, -⟩ := moved_of_step henabled hstep
    refine ⟨hinv.move hmove, link_of_step he hstep hlink, fun hnone => ?_⟩
    rw [List.mem_append, not_or] at hnone ⊢
    obtain ⟨hs, hbefore⟩ := hstanding hnone.1
    obtain ⟨ht, hnow⟩ := standing_of_step hinv hlink henabled he hs hstep hnone.2
    exact ⟨ht, hbefore, hnow⟩
  exact hkept.2.2 hopen

/-- In every run, a namespace that has been announced is not announced again as long as the connection
lasts and its socket is not closed. -/
theorem announced_once (hs : s.Fresh) (run : Runs w validUri (fun _ => True) s t calls)
    (henabled : Enabled e t) (hstep : step w validUri e t = .ok (u, now))
    (hnow : .socket (.socketOpened nsp) ∈ now)
    (later : Runs w validUri (fun e => ∀ normal, e ≠ .closed normal) u v more)
    (hopen : .socket (.socketClosed nsp) ∉ more) :
    .socket (.socketOpened nsp) ∉ more ∧ ∃ x, v.client.findSocket nsp = some x ∧ x.connected := by
  have hmessage : ∃ payload, e = .message payload := by
    by_contra hother
    have hmessage : ∀ payload, e ≠ .message payload := fun payload h => hother ⟨payload, h⟩
    exact calls_of_step (allows_notAnnounced nsp t.client) hmessage (fun _ _ _ _ h => by cases h) hstep _
      hnow rfl
  obtain ⟨payload, rfl⟩ := hmessage
  obtain ⟨⟨note, hmove, -⟩, -⟩ := moved_of_step henabled hstep
  have hu := (run.keeps hs.invariant).move hmove
  have hlink : u.link := link_of_step (fun _ h => by cases h) hstep henabled.2
  have hstanding : u.client.Standing nsp false := by
    obtain ⟨c, hcall, rfl⟩ := step_ok hstep
    exact announced_onMessage hcall hnow
  obtain ⟨⟨x, hx, -, hconnected, -⟩, hnone⟩ := later.standing hu hlink hstanding hopen
  exact ⟨hnone, x, hx, hconnected⟩

def restored : SioService :=
  { secondConnection with client := { secondConnection.client with sockets := [listeningSocket] } }

theorem runs_secondConnection : Runs halfCodec (fun _ => true) (fun _ => True) launched secondConnection
    [.dispatch (.connectImpl ['u']), .connect ['u'], .transmit false ['4', '0'], .opened,
      .socket (.socketOpened ['/']), .reconnecting, .connect ['u'], .transmit false ['4', '0'], .opened] :=
  runs_of_replay [.connect ['u'] .nullptr, .handler, .opened, .message ['4', '0'], .listener .onAny,
    .message ['4', '5', '1', '-', '[', '"', 'A', '"', ']'], .closed false, .reconnectExpired, .handler,
    .opened] (fun _ _ => trivial) rfl

theorem announced_once_restored : .socket (.socketOpened ['/']) ∉ ([] : List ClientCall) ∧
    ∃ x, restored.client.findSocket ['/'] = some x ∧ x.connected :=
  have hstep : step halfCodec (fun _ => true) (.message ['4', '0']) secondConnection =
      .ok (restored, [.socket (.socketOpened ['/'])]) := rfl
  have later : Runs halfCodec (fun _ => true) (fun e => ∀ normal, e ≠ .closed normal) restored restored [] :=
    runs_of_replay [.message ['4', '0']] (List.forall_mem_singleton.mpr fun _ h => by cases h) rfl
  have henabled : Enabled (.message ['4', '0']) secondConnection := ⟨rfl, rfl⟩
  announced_once fresh_launched runs_secondConnection henabled hstep (List.mem_singleton_self _) later
    List.not_mem_nil

end SioService

section Listening

variable {w : DoubleCodec UInt64} {c d : SioClient} {calls : List ClientCall} {p : Packet}
  {event : String × List Message}

/-- A socket with a listener posts every event that comes for it. -/
theorem posted_of_listening (hc : c.Standing p.nsp true)
    (htype : p.getType = .ok Packet.typeEvent ∨ p.getType = .ok Packet.typeBinaryEvent)
    (hevent : eventOf p = some event) (h : c.toSocket w p = .ok (d, calls)) :
    .socket (.message event.1 event.2) ∈ calls := by
  obtain ⟨x, hx, hclient, -, hlistener⟩ := hc
  rcases toSocket_ok h with ⟨hnone, -, -⟩ | ⟨s, t, socketCalls, hfind, hpacket, hcalls, -⟩
  · rw [hx] at hnone
    cases hnone
  obtain rfl : x = s := Option.some.inj (hx.symm.trans hfind)
  rw [onMessagePacket_of_event hclient (nsp_of_findSocket hfind).symm htype] at hpacket
  obtain ⟨sends, -, rfl⟩ := onEventPacket_ok hpacket
  refine mem_runCalls (fun _ h => by cases h) (List.mem_append_left _ ?_) hcalls
  have hisEvent : p.isEvent := decide_eq_true htype
  rw [eventOf, if_pos hisEvent] at hevent
  rw [if_pos (hlistener rfl), hevent]
  exact List.mem_singleton_self _

/-- The payload with which an event is complete. -/
structure Completes (w : DoubleCodec UInt64) (payload : Text) (c : SioClient) (p : Packet) : Prop where
  decoded : ∃ waiting, PacketManager.putPayload w payload c.partialPacket = .ok (waiting, some p)
  frame : p.frame = Packet.frameMessage
  type : p.getType = .ok Packet.typeEvent ∨ p.getType = .ok Packet.typeBinaryEvent

theorem posted_onMessage {payload : Text} (hp : Completes w payload c p) (hc : c.Standing p.nsp true)
    (hevent : eventOf p = some event) (h : c.onMessage w payload = .ok (d, calls)) :
    .socket (.message event.1 event.2) ∈ calls := by
  obtain ⟨⟨waiting, hput⟩, hframe, htype⟩ := hp
  have hdecode : ({ c with partialPacket := waiting } : SioClient).onDecode w p = .ok (d, calls) := by
    rw [SioClient.onMessage, hput] at h
    exact h
  have hsocket : ({ c with partialPacket := waiting } : SioClient).toSocket w p = .ok (d, calls) := by
    rw [SioClient.onDecode, if_pos hframe] at hdecode
    rcases htype with htype | htype <;> rw [htype] at hdecode <;> exact hdecode
  have hwaiting : ({ c with partialPacket := waiting } : SioClient).Standing p.nsp true := hc.of_sockets rfl
  exact posted_of_listening hwaiting htype hevent hsocket

end Listening

namespace SioService

variable {w : DoubleCodec UInt64} {validUri : Text → Bool} {s u v r : SioService}
  {calls more next : List ClientCall}

/-- In every run, as long as the connection lasts and the socket is not closed, a socket that has been
given the listener posts every event that comes for it, however often `off_all` is called. -/
theorem off_all_keeps_events (hs : s.Fresh) (run : Runs w validUri (fun _ => True) s u calls)
    (hlink : u.link) {p : Packet} {x : SioSocket} (hx : u.client.findSocket p.nsp = some x)
    (hclient : x.hasClient) (hconnected : x.connected) (hlistener : x.eventListener)
    (later : Runs w validUri (fun e => ∀ normal, e ≠ .closed normal) u v more)
    (hopen : .socket (.socketClosed p.nsp) ∉ more) {payload : Text} (hp : Completes w payload v.client p)
    {event : String × List Message} (hevent : eventOf p = some event)
    (hnext : step w validUri (.message payload) v = .ok (r, next)) :
    .socket (.message event.1 event.2) ∈ next := by
  have hu : u.client.Standing p.nsp true := ⟨x, hx, hclient, hconnected, fun _ => hlistener⟩
  obtain ⟨hv, -⟩ := later.standing (run.keeps hs.invariant) hlink hu hopen
  obtain ⟨c, hcall, -⟩ := step_ok hnext
  exact posted_onMessage hp hv hevent hcall

theorem runs_restored : Runs halfCodec (fun _ => true) (fun _ => True) launched restored
    [.dispatch (.connectImpl ['u']), .connect ['u'], .transmit false ['4', '0'], .opened,
      .socket (.socketOpened ['/']), .reconnecting, .connect ['u'], .transmit false ['4', '0'], .opened,
      .socket (.socketOpened ['/'])] :=
  runs_of_replay [.connect ['u'] .nullptr, .handler, .opened, .message ['4', '0'], .listener .onAny,
    .message ['4', '5', '1', '-', '[', '"', 'A', '"', ']'], .closed false, .reconnectExpired, .handler,
    .opened, .message ['4', '0']] (fun _ _ => trivial) rfl

def plainEvent : Packet :=
  { Packet.ofFrame Packet.frameMessage with
    type := Packet.typeEvent, nsp := ['/'], message := .array [.string "B"] }

theorem off_all_keeps_events_restored : ∃ r next,
    step halfCodec (fun _ => true) (.message ['4', '2', '[', '"', 'B', '"', ']']) restored = .ok (r, next) ∧
      .socket (.message "B" []) ∈ next :=
  have later : Runs halfCodec (fun _ => true) (fun e => ∀ normal, e ≠ .closed normal) restored restored [] :=
    runs_of_replay [.listener .offAll] (List.forall_mem_singleton.mpr fun _ h => by cases h) rfl
  have hcompletes : Completes halfCodec ['4', '2', '[', '"', 'B', '"', ']'] restored.client plainEvent :=
    ⟨⟨none, rfl⟩, rfl, .inl rfl⟩
  have hevent : eventOf plainEvent = some ("B", []) := rfl
  have hnext : step halfCodec (fun _ => true) (.message ['4', '2', '[', '"', 'B', '"', ']']) restored =
      .ok (restored, [.socket (.message "B" [])]) := rfl
  ⟨_, _, hnext, off_all_keeps_events fresh_launched runs_restored rfl (x := listeningSocket) rfl rfl rfl rfl
    later List.not_mem_nil hcompletes hevent hnext⟩

end SioService

end UwavClient
