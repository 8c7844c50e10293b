import UwavClient.Socket.Sending

/-!
# When packets wait in a connected socket

A thread may find the socket not connected, and queue its packet only after the network thread has
emptied the queue: then the packet waits until something else is sent. Once the queue of a connected
socket is empty and no thread is about to do so, nothing waits any more.
-/

namespace UwavClient

open Program Interleaving

namespace Sending

variable {ι : Type} [DecidableEq ι] {network i : ι} {s : Sending ι}

/-- No disconnecting and no closing. -/
def Steady (_ : ι) (e : SocketOp) (_ : Sending ι) : Prop :=
  match e with
  | .clearClient | .setConnected false | .clear | .unfinished => False
  | _ => True

/-- The program pushes a packet only at once after it has found the socket not connected; `may` says
that it just has. -/
def Tame {α : Type} : Bool → SocketProgram α → Prop
  | _, .ret _ => True
  | _, .op .connected k => Tame false (k true) ∧ Tame true (k false)
  | may, .op (.push _) k => may = true ∧ Tame false (k ())
  | _, .op _ k => ∀ r, Tame false (k r)

variable {α : Type} {q : SocketProgram α} {may : Bool}

def Pushes (q : SocketProgram α) : Prop :=
  match q with
  | .op (.push _) _ => True
  | _ => False

theorem Tame.settle (h : Tame may q) (hnot : ¬Pushes q) : Tame false q := by
  cases q with
  | ret a => trivial
  | op e k =>
    cases e with
    | push p => exact absurd trivial hnot
    | _ => exact h

theorem Tame.next {e : SocketOp} {k : e.Answer → SocketProgram α} (h : Tame may (.op e k))
    (r : e.Answer) : ∃ may, Tame may (k r) := by
  cases e with
  | connected =>
    cases r with
    | true => exact ⟨false, h.1⟩
    | false => exact ⟨true, h.2⟩
  | push p => exact ⟨false, h.2⟩
  | _ => exact ⟨false, h r⟩

theorem Tame.mono (h : Tame false q) : Tame may q := by
  cases q with
  | ret a => trivial
  | op e k =>
    cases e with
    | push p => exact absurd h.1 Bool.false_ne_true
    | _ => exact h

theorem Tame.bind {β : Type} {f : α → SocketProgram β} (h : Tame may q) (hf : ∀ a, Tame false (f a)) :
    Tame may (q >>= f) := by
  induction q generalizing may with
  | ret a => exact (hf a).mono
  | op e k ih =>
    cases e with
    | connected => exact ⟨ih true h.1, ih false h.2⟩
    | push p => exact ⟨h.1, ih () h.2⟩
    | _ => exact fun r => ih r (h r)

theorem tame_flush (fuel : ℕ) : Tame false (Socket.flush fuel) := by
  induction fuel with
  | zero => exact fun _ => trivial
  | succ fuel ih =>
    intro r
    cases r with
    | none => trivial
    | some p => exact fun _ => ih

theorem tame_sendPacket (fuel : ℕ) (p : Packet) : Tame false (Socket.sendPacket fuel p) := by
  intro r
  cases r with
  | false => trivial
  | true => exact ⟨(tame_flush fuel).bind fun _ _ => trivial, rfl, trivial⟩

theorem tame_network (call : NetworkCall) (fuel : ℕ) : Tame false (call.program fuel) := by
  cases call with
  | connect =>
    intro r
    cases r with
    | false => trivial
    | true => exact fun _ => ⟨trivial, fun _ _ => tame_flush fuel⟩
  | close =>
    intro r
    cases r with
    | false => trivial
    | true => exact fun _ _ _ _ => trivial
  | disconnect =>
    intro r
    cases r with
    | false => trivial
    | true => exact ⟨fun _ _ => trivial, trivial⟩

/-- In every run a thread pushes only what it has just found the socket not connected for. -/
theorem tame_of_reaches {allow : ι → SocketOp → Sending ι → Prop} {s : Sending ι} {c : Threads ι}
    (run : Reaches (system network) allow (.initial s) c) :
    ∀ i q, c.thread i = some q → ∃ may, Tame may q := by
  have hresume : ∀ {c : Threads ι} {i : ι} {t : Sending ι} {q : Option (SocketProgram Unit)},
      (∀ i q, c.thread i = some q → ∃ may, Tame may q) → (∀ p, q = some p → ∃ may, Tame may p) →
      ∀ j p, (c.resume i t q).thread j = some p → ∃ may, Tame may p := by
    intro c i t q hc hq j p hj
    have hupdate : Function.update c.thread i q j = some p := hj
    rw [Function.update_apply] at hupdate
    split at hupdate
    · exact hq p hupdate
    · exact hc j p hupdate
  induction run with
  | refl => exact fun _ _ h => nomatch h
  | @start c i p t _ _ call ih =>
    refine hresume ih fun q hq => ⟨false, ?_⟩
    obtain rfl := Option.some.inj hq
    obtain ⟨fuel, ⟨packet, rfl, -⟩ | ⟨call, -, rfl, -⟩⟩ := call
    · exact tame_sendPacket fuel packet
    · exact tame_network call fuel
  | op _ next _ ih =>
    refine hresume ih fun q hq => ?_
    obtain rfl := Option.some.inj hq
    obtain ⟨may, h⟩ := ih _ _ next
    exact h.next _
  | finish _ _ ih => exact hresume ih fun q hq => nomatch hq

/-- The socket has its client and is connected, nothing is queued, and no thread is about to queue
anything. -/
structure Settled (c : Threads ι) : Prop where
  client : c.shared.socket.hasClient
  connected : c.shared.socket.connected
  queue : c.shared.socket.packetQueue = []
  pushes : ∀ i q, c.thread i = some q → ¬Pushes q

/-- What the threads keep of a settled socket. -/
structure Draining (dropped : List Packet) (s : Sending ι) : Prop where
  client : s.socket.hasClient
  connected : s.socket.connected
  queue : s.socket.packetQueue = []
  dropped : s.dropped = dropped

theorem Draining.handler {dropped : List Packet} (h : Draining dropped s) {e : SocketOp}
    (hsteady : Steady i e s) (hnot : ∀ p, e ≠ .push p) : Draining dropped (handler i e s).2 := by
  cases e with
  | push p => exact absurd rfl (hnot p)
  | clearClient | clear | unfinished => exact hsteady.elim
  | setConnected b =>
    cases b with
    | false => exact hsteady.elim
    | true => exact ⟨h.client, rfl, h.queue, h.dropped⟩
  | front =>
    rw [Sending.handler, h.queue]
    exact h
  | send p =>
    rw [Sending.handler]
    split <;> exact ⟨h.client, h.connected, h.queue, h.dropped⟩
  | _ => exact ⟨h.client, h.connected, h.queue, h.dropped⟩

/-- In a steady run the only promise that matters is that no thread pushes. -/
def settledContract : Contract (Sending ι) SocketOp where
  rely _ _ := True
  guar _ _ := True
  claim e _ := ∀ p, e ≠ .push p
  rely_refl _ := trivial
  rely_trans _ _ := trivial

theorem safe_of_tame {dropped : List Packet} {Q : α → Sending ι → Prop}
    (hQ : ∀ a t, Draining dropped t → Q a t) (hq : Tame false q) (s : Sending ι) :
    Safe (handler i) (Draining dropped) settledContract (Steady i) q Q s := by
  induction q generalizing s with
  | ret a => exact fun t _ hit => hQ a t hit
  | op e k ih =>
    intro t _ hit
    have hnot : ∀ p, e ≠ .push p := by
      rintro p rfl
      exact Bool.false_ne_true hq.1
    refine ⟨hnot, fun hsteady => ⟨trivial, hit.handler hsteady hnot, ih _ ?_ _⟩⟩
    cases e with
    | push p => exact absurd rfl (hnot p)
    | connected =>
      have hanswer : (handler i .connected t).1 = true := hit.connected
      rw [hanswer]
      exact hq.1
    | _ => exact hq _

/-- What the return of a call must establish. -/
theorem Draining.finish {dropped : List Packet} (h : Draining dropped s) :
    True ∧ Draining dropped ((system network).finish i () s) ∧ True :=
  ⟨trivial, ⟨h.client, h.connected, h.queue, h.dropped⟩, trivial⟩

variable (network) in
def settledSpec (dropped : List Packet) : Spec (system network) (Steady (ι := ι)) where
  inv := Draining dropped
  contract _ := settledContract
  idle _ _ := True
  compatible _ _ := trivial
  stable _ := stable_const True
  call := by
    rintro i s p t hi - ⟨fuel, ⟨packet, rfl, rfl⟩ | ⟨call, -, rfl, rfl⟩⟩
    · exact ⟨trivial, ⟨hi.client, hi.connected, hi.queue, hi.dropped⟩,
        safe_of_tame (fun _ _ hu => hu.finish) (tame_sendPacket fuel packet) _⟩
    · exact ⟨trivial, hi, safe_of_tame (fun _ _ hu => hu.finish) (tame_network call fuel) _⟩

theorem Settled.steady {s : Sending ι} {c d : Threads ι} {allow : ι → SocketOp → Sending ι → Prop}
    (run : Reaches (system network) allow (.initial s) c) (hc : Settled c)
    (later : Reaches (system network) Steady c d) :
    Settled d ∧ d.shared.dropped = c.shared.dropped := by
  have hinit : (settledSpec network c.shared.dropped).inv c.shared :=
    ⟨hc.client, hc.connected, hc.queue, rfl⟩
  have hidle : ∀ i, (settledSpec network c.shared.dropped).Holds i (c.thread i) c.shared := by
    intro i
    cases hthread : c.thread i with
    | none => trivial
    | some q =>
      obtain ⟨may, hmay⟩ := tame_of_reaches run i q hthread
      exact safe_of_tame (fun _ _ hu => hu.finish) (hmay.settle (hc.pushes i q hthread)) _
  obtain ⟨hd, -⟩ := Spec.sound _ hinit hidle later
  refine ⟨⟨hd.client, hd.connected, hd.queue, fun i q hthread hp => ?_⟩, hd.dropped⟩
  cases q with
  | ret a => exact hp
  | op e k =>
    cases e with
    | push p => exact Spec.claim_of_next _ hinit hidle later hthread p rfl
    | _ => exact hp

omit [DecidableEq ι] in
theorem finishes_of_steady {e : SocketOp} (h : Steady i e s) : Finishes i e s := by
  cases e with
  | unfinished => exact h
  | _ => trivial

/-- Once a connected socket has an empty queue and no thread is about to queue a packet, nothing waits
as long as the socket is neither disconnected nor closed: when all threads have returned, every packet
emitted so far has been sent exactly once, but for those dropped before. -/
theorem settled_sends [Fintype ι] (s : SioSocket) {c d : Threads ι}
    (run : Reaches (system network) Finishes (.initial (start s)) c) (hc : Settled c)
    (later : Reaches (system network) Steady c d) :
    d.shared.socket.packetQueue = [] ∧ d.shared.dropped = c.shared.dropped ∧
      (d.Quiet → (d.shared.emitted : Multiset Packet) = d.shared.sent + d.shared.dropped) := by
  obtain ⟨hd, hdropped⟩ := hc.steady run later
  refine ⟨hd.queue, hdropped, fun hquiet => ?_⟩
  obtain ⟨hemitted, hclient, hnone⟩ :=
    packets_accounted s (run.extend (fun _ _ _ => finishes_of_steady) later)
  obtain ⟨hrefused, hfaulted⟩ := hclient hd.client
  have hhands : ∑ i, (d.shared.hand i : Multiset Packet) = 0 :=
    Finset.sum_eq_zero fun i _ => by rw [hnone i (hquiet i), Multiset.coe_nil]
  rw [hemitted, hd.queue, hrefused, hfaulted, hhands, Multiset.coe_nil]
  simp only [add_zero]

/-! ## Two threads -/

instance (i : ι) (e : SocketOp) (s : Sending ι) : Decidable (Finishes i e s) := by
  unfold Finishes
  split <;> infer_instance

instance (i : ι) (e : SocketOp) (s : Sending ι) : Decidable (Steady i e s) := by
  unfold Steady
  split <;> infer_instance

/-- The network thread is `true`, and the main thread is the other one. -/
def twoThreads : Launcher (system true) (Packet ⊕ NetworkCall) where
  launch
    | i, .inl packet, s => some (Socket.sendPacket 2 packet,
        hands i [packet] { s with emitted := s.emitted ++ [packet] })
    | true, .inr call, s => some (call.program 2, s)
    | false, .inr _, _ => none
  sound {i k s p t} h := by
    cases k with
    | inl packet =>
      obtain ⟨rfl, rfl⟩ := Prod.mk.inj (Option.some.inj h)
      exact ⟨2, .inl ⟨packet, rfl, rfl⟩⟩
    | inr call =>
      cases i with
      | false => cases h
      | true =>
        obtain ⟨rfl, rfl⟩ := Prod.mk.inj (Option.some.inj h)
        exact ⟨2, .inr ⟨call, rfl, rfl, rfl⟩⟩

def isQuiet (c : Threads Bool) : Bool := (c.thread true).isNone && (c.thread false).isNone

theorem quiet_of_isQuiet {c : Threads Bool} (h : isQuiet c) : c.Quiet := by
  obtain ⟨hnetwork, hmain⟩ := Bool.and_eq_true _ _ ▸ h
  intro i
  cases i with
  | true => exact Option.isNone_iff_eq_none.mp hnetwork
  | false => exact Option.isNone_iff_eq_none.mp hmain

def openedSocket : SioSocket where
  nsp := ['/']
  hasClient := true
  connected := false
  auth := .nullptr
  acks := []
  eventListener := true
  errorListener := false
  connectionTimer := some .connect
  packetQueue := []

def numbered (id : ℤ) : Packet := { Packet.ofFrame Packet.frameMessage with packId := id }

/-- The main thread finds the socket not connected; the network thread connects it and finds nothing
queued; then the main thread queues its packet. -/
def lateSchedule : List (Move Bool (Packet ⊕ NetworkCall)) :=
  .call false (.inl (numbered 1)) :: List.replicate 2 (.step false) ++
    .call true (.inr .connect) :: List.replicate 7 (.step true) ++ List.replicate 2 (.step false)

theorem packets_accounted_late : ∃ c : Threads Bool,
    Reaches (system true) Finishes (.initial (start openedSocket)) c ∧ c.Quiet ∧
      c.shared.socket.connected ∧ c.shared.socket.packetQueue.length = 1 ∧
      (c.shared.emitted : Multiset Packet) = c.shared.sent + c.shared.socket.packetQueue +
        c.shared.dropped + c.shared.refused + c.shared.faulted +
        ∑ i, (c.shared.hand i : Multiset Packet) := by
  have hrun : ∃ c : Threads Bool, Reaches (system true) Finishes (.initial (start openedSocket)) c ∧
      (isQuiet c && decide (c.shared.socket.connected ∧ c.shared.socket.packetQueue.length = 1)) :=
    reaches_of_schedule (L := twoThreads) lateSchedule (by decide)
  obtain ⟨c, run, hgood⟩ := hrun
  obtain ⟨hquiet, hwaiting⟩ := Bool.and_eq_true _ _ ▸ hgood
  obtain ⟨hconnected, hlength⟩ := of_decide_eq_true hwaiting
  exact ⟨c, run, quiet_of_isQuiet hquiet, hconnected, hlength, (packets_accounted openedSocket run).1⟩

/-- The network thread has the first packet in hand while the main thread sends the second one. -/
def overtakingSchedule : List (Move Bool (Packet ⊕ NetworkCall)) :=
  .call false (.inl (numbered 1)) :: List.replicate 4 (.step false) ++
    .call true (.inr .connect) :: List.replicate 6 (.step true) ++
    .call false (.inl (numbered 2)) :: List.replicate 5 (.step false) ++ List.replicate 3 (.step true)

def nextSchedule : List (Move Bool (Packet ⊕ NetworkCall)) :=
  .call false (.inl (numbered 3)) :: List.replicate 5 (.step false)

theorem settled_sends_overtaking : ∃ c d : Threads Bool,
    Reaches (system true) Finishes (.initial (start openedSocket)) c ∧ Settled c ∧
      Reaches (system true) Steady c d ∧ d.Quiet ∧
      d.shared.emitted.map (·.packId) = [1, 2, 3] ∧ d.shared.sent.map (·.packId) = [2, 1, 3] ∧
      (d.shared.emitted : Multiset Packet) = d.shared.sent + d.shared.dropped := by
  have hrun : ∃ c : Threads Bool, Reaches (system true) Finishes (.initial (start openedSocket)) c ∧
      (isQuiet c && decide (c.shared.socket.hasClient ∧ c.shared.socket.connected ∧
          c.shared.socket.packetQueue.length = 0) &&
        (Config.follow twoThreads Steady c nextSchedule).any fun d => isQuiet d &&
          decide (d.shared.emitted.map (·.packId) = [1, 2, 3] ∧
            d.shared.sent.map (·.packId) = [2, 1, 3])) :=
    reaches_of_schedule (L := twoThreads) overtakingSchedule (by decide)
  obtain ⟨c, run, hgood⟩ := hrun
  obtain ⟨hfirst, hsecond⟩ := Bool.and_eq_true _ _ ▸ hgood
  obtain ⟨hquiet, hconnected⟩ := Bool.and_eq_true _ _ ▸ hfirst
  obtain ⟨hclient, hconnected, hlength⟩ := of_decide_eq_true hconnected
  have hc : Settled c := ⟨hclient, hconnected, List.length_eq_zero_iff.mp hlength, fun i q hthread =>
    nomatch (quiet_of_isQuiet hquiet i).symm.trans hthread⟩
  obtain ⟨d, later, hd⟩ := reaches_of_schedule nextSchedule hsecond
  obtain ⟨hdone, hpackets⟩ := Bool.and_eq_true _ _ ▸ hd
  obtain ⟨hemitted, hsent⟩ := of_decide_eq_true hpackets
  have hdone := quiet_of_isQuiet hdone
  exact ⟨c, d, run, hc, later, hdone, hemitted, hsent,
    (settled_sends openedSocket run hc later).2.2 hdone⟩

end Sending

end UwavClient
