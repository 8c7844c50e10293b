import Mathlib.Algebra.BigOperators.Group.Finset.Basic
import Mathlib.Tactic.Abel
import UwavClient.Library.Schedule
import UwavClient.Socket.Socket

/-!
# Sending from several threads

Any thread may call `Emit`, while the network thread connects, disconnects or closes the socket.
Here one step is one access to the members that the threads share; `m_packet_mutex` makes one of
what is done to the queue while it is held.
-/

namespace UwavClient

open Program Interleaving

/-! ## The functions, one access at a time -/

/-- An access of a thread. `front` takes the first packet off the queue, `clear` all of them, and
`send` is `m_client->send`. -/
inductive SocketOp where
  | client
  | clearClient
  | connected
  | setConnected (b : Bool)
  | cancelTimer
  | socketOpened
  | front
  | push (p : Packet)
  | clear
  | send (p : Packet)
  | unfinished

def SocketOp.Answer : SocketOp → Type
  | .client | .connected => Bool
  | .front => Option Packet
  | _ => Unit

abbrev SocketProgram := Program SocketOp SocketOp.Answer

namespace Socket

def access (e : SocketOp) : SocketProgram e.Answer := perform e

def client : SocketProgram Bool := access .client
def clearClient : SocketProgram Unit := access .clearClient
def connected : SocketProgram Bool := access .connected
def setConnected (b : Bool) : SocketProgram Unit := access (.setConnected b)
def cancelTimer : SocketProgram Unit := access .cancelTimer
def socketOpened : SocketProgram Unit := access .socketOpened
def front : SocketProgram (Option Packet) := access .front
def push (p : Packet) : SocketProgram Unit := access (.push p)
def clear : SocketProgram Unit := access .clear
def send (p : Packet) : SocketProgram Unit := access (.send p)
def unfinished : SocketProgram Unit := access .unfinished

/-- The loop of `send_packet` and of `on_connected`. Other threads may keep it busy, so it takes
fuel. -/
def flush : ℕ → SocketProgram Unit
  | 0 => unfinished
  | fuel + 1 => do
    match ← front with
    | none => pure ()
    | some p =>
      send p
      flush fuel

def sendPacket (fuel : ℕ) (p : Packet) : SocketProgram Unit := do
  if ← client then
    if ← connected then
      flush fuel
      send p
    else push p

def onConnected (fuel : ℕ) : SocketProgram Unit := do
  cancelTimer
  if !(← connected) then
    setConnected true
    socketOpened
    flush fuel

def onDisconnect : SocketProgram Unit := do
  if ← client then
    if ← connected then
      setConnected false
      clear

def onClose : SocketProgram Unit := do
  if ← client then
    clearClient
    cancelTimer
    setConnected false
    clear

end Socket

/-- What only the network thread does: a CONNECT packet arrived, a DISCONNECT packet arrived or a
timer expired, the connection is gone. -/
inductive NetworkCall where
  | connect
  | close
  | disconnect
  deriving DecidableEq, Repr

def NetworkCall.program (fuel : ℕ) : NetworkCall → SocketProgram Unit
  | .connect => do if ← Socket.client then Socket.onConnected fuel
  | .close => Socket.onClose
  | .disconnect => Socket.onDisconnect

/-- The socket, and where the packets given to `send_packet` are: sent, dropped with the queue,
refused because there is no client, or lost with the program that called a client that was gone.
Every thread has some in hand. -/
structure Sending (ι : Type) where
  socket : SioSocket
  emitted : List Packet := []
  sent : List Packet := []
  dropped : List Packet := []
  refused : List Packet := []
  faulted : List Packet := []
  hand : ι → List Packet := fun _ => []

namespace Sending

variable {ι : Type} [DecidableEq ι]

def hands (i : ι) (ps : List Packet) (s : Sending ι) : Sending ι :=
  { s with hand := Function.update s.hand i ps }

def handler (i : ι) : (e : SocketOp) → Sending ι → e.Answer × Sending ι
  | .client, s => (s.socket.hasClient, s)
  | .clearClient, s => ((), { s with socket := { s.socket with hasClient := false } })
  | .connected, s => (s.socket.connected, s)
  | .setConnected b, s => ((), { s with socket := { s.socket with connected := b } })
  | .cancelTimer, s => ((), { s with socket := { s.socket with connectionTimer := none } })
  | .socketOpened, s => ((), s)
  | .front, s =>
    match s.socket.packetQueue with
    | [] => (none, s)
    | p :: queue =>
      (some p, hands i (p :: s.hand i) { s with socket := { s.socket with packetQueue := queue } })
  | .push p, s => ((), hands i (s.hand i).tail
      { s with socket := { s.socket with packetQueue := s.socket.packetQueue ++ [p] } })
  | .clear, s => ((), { s with
      socket := { s.socket with packetQueue := [] }
      dropped := s.dropped ++ s.socket.packetQueue })
  | .send p, s => ((), hands i (s.hand i).tail
      (if s.socket.hasClient then { s with sent := s.sent ++ [p] }
      else { s with faulted := s.faulted ++ [p] }))
  | .unfinished, s => ((), s)

/-- Every thread may send any packet; the network thread may also be told of the connection. -/
def system (network : ι) : System ι (Sending ι) SocketOp SocketOp.Answer Unit where
  handler := handler
  start i s p t := ∃ fuel,
    (∃ packet, p = Socket.sendPacket fuel packet ∧
      t = hands i [packet] { s with emitted := s.emitted ++ [packet] }) ∨
    ∃ call : NetworkCall, i = network ∧ p = call.program fuel ∧ t = s
  finish i _ s := hands i [] { s with refused := s.refused ++ s.hand i }

/-! ## Without interference -/

def packetsOf (calls : List SocketCall) : List Packet :=
  calls.filterMap fun
    | .send p => some p
    | _ => none

theorem packetsOf_sends (ps : List Packet) : packetsOf (ps.map .send) = ps := by
  induction ps with
  | nil => rfl
  | cons p ps ih => exact congrArg (p :: ·) ih

def flushed (s : Sending ι) : Sending ι :=
  { s with
    socket := { s.socket with packetQueue := [] }
    sent := s.sent ++ s.socket.packetQueue }

theorem handler_front_nil {s : Sending ι} (i : ι) (hqueue : s.socket.packetQueue = []) :
    handler i .front s = (none, s) := by
  rw [handler, hqueue]
  rfl

theorem handler_front_cons {s : Sending ι} (i : ι) {p : Packet} {queue : List Packet}
    (hqueue : s.socket.packetQueue = p :: queue) : handler i .front s =
      (some p, hands i (p :: s.hand i) { s with socket := { s.socket with packetQueue := queue } }) := by
  rw [handler, hqueue]
  rfl

theorem handler_send {s : Sending ι} (i : ι) (p : Packet) (hclient : s.socket.hasClient) :
    handler i (.send p) s = ((), hands i (s.hand i).tail { s with sent := s.sent ++ [p] }) :=
  congrArg (fun t => ((), hands i (s.hand i).tail t)) (if_pos hclient)

/-- A packet taken off the queue and sent. -/
theorem handler_send_front {s : Sending ι} (i : ι) (hclient : s.socket.hasClient) {p : Packet}
    {queue : List Packet} (hqueue : s.socket.packetQueue = p :: queue) :
    (handler i .front s).1 = some p ∧ (handler i (.send p) (handler i .front s).2).2 = { s with
      socket := { s.socket with packetQueue := queue }
      sent := s.sent ++ [p] } := by
  have hhand : Function.update (Function.update s.hand i (p :: s.hand i)) i
      (Function.update s.hand i (p :: s.hand i) i).tail = s.hand := by
    rw [Function.update_idem, Function.update_self, List.tail_cons, Function.update_eq_self]
  rw [handler_front_cons i hqueue]
  refine ⟨rfl, ?_⟩
  rw [handler_send]
  · dsimp only [hands]
    rw [hhand]
  · exact hclient

theorem run_flush {fuel : ℕ} {s : Sending ι} (i : ι) (hclient : s.socket.hasClient)
    (hfuel : s.socket.packetQueue.length < fuel) :
    (Socket.flush fuel).run (handler i) s = ((), s.flushed) := by
  induction fuel generalizing s with
  | zero => exact absurd hfuel (Nat.not_lt_zero _)
  | succ fuel ih =>
    rw [Socket.flush, run_bind]
    change (match (handler i .front s).1 with
      | none => pure ()
      | some p => Socket.send p >>= fun _ => Socket.flush fuel : SocketProgram Unit).run (handler i)
        (handler i .front s).2 = _
    cases hqueue : s.socket.packetQueue with
    | nil =>
      have hsame : s.flushed = s := by
        obtain ⟨socket, emitted, sent, dropped, refused, faulted, hand⟩ := s
        obtain ⟨nsp, hasClient, isConnected, auth, acks, events, errors, timer, queue⟩ := socket
        obtain rfl : queue = [] := hqueue
        rw [flushed, List.append_nil]
      rw [handler_front_nil i hqueue, hsame]
      rfl
    | cons p queue =>
      obtain ⟨hfront, hsend⟩ := handler_send_front i hclient hqueue
      rw [hfront]
      change (Socket.send p >>= fun _ => Socket.flush fuel).run (handler i) (handler i .front s).2 = _
      rw [run_bind]
      change (Socket.flush fuel).run (handler i) (handler i (.send p) (handler i .front s).2).2 = _
      rw [hqueue, List.length_cons] at hfuel
      rw [hsend, ih]
      · unfold flushed
        rw [hqueue, List.append_assoc]
        rfl
      · exact hclient
      · exact Nat.lt_of_succ_lt_succ hfuel

theorem run_client {α : Type} (i : ι) (s : Sending ι) (f : Bool → SocketProgram α) :
    (Socket.client >>= f).run (handler i) s = (f s.socket.hasClient).run (handler i) s := rfl

theorem run_connected {α : Type} (i : ι) (s : Sending ι) (f : Bool → SocketProgram α) :
    (Socket.connected >>= f).run (handler i) s = (f s.socket.connected).run (handler i) s := rfl

/-- A thread that is not interrupted does what `SioSocket.sendPacket` does. -/
theorem run_sendPacket {fuel : ℕ} {s : Sending ι} (i : ι) (p : Packet)
    (hfuel : s.socket.packetQueue.length < fuel) :
    ((Socket.sendPacket fuel p).run (handler i) s).2.socket = (s.socket.sendPacket p).1 ∧
      ((Socket.sendPacket fuel p).run (handler i) s).2.sent =
        s.sent ++ packetsOf (s.socket.sendPacket p).2 := by
  obtain ⟨⟨nsp, hasClient, isConnected, auth, acks, events, errors, timer, queue⟩, emitted, sent,
    dropped, refused, faulted, hand⟩ := s
  rw [Socket.sendPacket, run_client]
  cases hasClient with
  | false => exact ⟨rfl, (List.append_nil _).symm⟩
  | true =>
    rw [if_pos rfl, run_connected]
    cases isConnected with
    | false => exact ⟨rfl, (List.append_nil _).symm⟩
    | true =>
      rw [if_pos rfl, run_bind, run_flush i rfl hfuel]
      refine ⟨rfl, ?_⟩
      change (sent ++ queue) ++ [p] = sent ++ packetsOf (queue.map .send ++ [.send p])
      rw [packetsOf, List.filterMap_append]
      change _ = sent ++ (packetsOf (queue.map .send) ++ [p])
      rw [packetsOf_sends, List.append_assoc]

/-- What the calls of the network thread do when they are not interrupted. -/
def NetworkCall.apply (s : SioSocket) : NetworkCall → SioSocket × List SocketCall
  | .connect => if s.hasClient then s.onConnected else (s, [])
  | .close => s.onClose
  | .disconnect => (s.onDisconnect, [])

theorem run_network {fuel : ℕ} {s : Sending ι} (i : ι) (call : NetworkCall)
    (hfuel : s.socket.packetQueue.length < fuel) :
    ((call.program fuel).run (handler i) s).2.socket = (NetworkCall.apply s.socket call).1 ∧
      ((call.program fuel).run (handler i) s).2.sent =
        s.sent ++ packetsOf (NetworkCall.apply s.socket call).2 := by
  obtain ⟨⟨nsp, hasClient, isConnected, auth, acks, events, errors, timer, queue⟩, emitted, sent,
    dropped, refused, faulted, hand⟩ := s
  have hnothing : ∀ ps : List Packet, ps = ps ++ packetsOf [] := fun ps => (List.append_nil ps).symm
  cases hasClient with
  | false => cases call <;> exact ⟨rfl, hnothing sent⟩
  | true =>
    cases call with
    | close => exact ⟨rfl, hnothing sent⟩
    | disconnect => cases isConnected <;> exact ⟨rfl, hnothing sent⟩
    | connect =>
      cases isConnected with
      | true => exact ⟨rfl, hnothing sent⟩
      | false =>
        have hrun : (NetworkCall.connect.program fuel).run (handler i)
            ⟨⟨nsp, true, false, auth, acks, events, errors, timer, queue⟩, emitted, sent, dropped,
              refused, faulted, hand⟩ = (Socket.flush fuel).run (handler i)
            ⟨⟨nsp, true, true, auth, acks, events, errors, none, queue⟩, emitted, sent, dropped,
              refused, faulted, hand⟩ := rfl
        rw [hrun, run_flush]
        · exact ⟨rfl, congrArg (sent ++ ·) (packetsOf_sends queue).symm⟩
        · rfl
        · exact hfuel

/-! ## No packet is lost from sight -/

variable {network i : ι} {s t : Sending ι}

/-- What an operation does to the packets of the thread: it gives away the first one, or takes one
more. -/
def InHand (i : ι) (e : SocketOp) (s : Sending ι) : Prop :=
  ∀ p, e = .push p ∨ e = .send p → ∃ ps, s.hand i = p :: ps

theorem handler_others (i : ι) (e : SocketOp) (s : Sending ι) :
    (∀ j, j ≠ i → (handler i e s).2.hand j = s.hand j) ∧
      ((handler i e s).2.socket.hasClient → s.socket.hasClient) := by
  cases e with
  | front =>
    rw [handler]
    split
    · exact ⟨fun _ _ => rfl, id⟩
    · exact ⟨fun j hj => Function.update_of_ne hj .., id⟩
  | push p => exact ⟨fun j hj => Function.update_of_ne hj .., id⟩
  | send p =>
    rw [handler]
    split
    · exact ⟨fun j hj => Function.update_of_ne hj .., id⟩
    · exact ⟨fun j hj => Function.update_of_ne hj .., id⟩
  | clearClient => exact ⟨fun _ _ => rfl, fun h => absurd h Bool.false_ne_true⟩
  | _ => exact ⟨fun _ _ => rfl, id⟩

variable [Fintype ι]

/-- What all threads together have in hand. -/
def held (s : Sending ι) : Multiset Packet := ∑ i, (s.hand i : Multiset Packet)

def accounted (s : Sending ι) : Multiset Packet :=
  s.sent + s.socket.packetQueue + s.dropped + s.refused + s.faulted + s.held

/-- The others go on holding what they held. -/
theorem exists_held_hands (i : ι) (s : Sending ι) : ∃ others : Multiset Packet,
    s.held = s.hand i + others ∧ ∀ ps, (hands i ps s).held = ps + others := by
  have hsum : ∀ ps, (hands i ps s).held = ps + ∑ j ∈ Finset.univ \ {i}, (s.hand j : Multiset Packet) := by
    intro ps
    rw [held, ← Finset.add_sum_erase Finset.univ _ (Finset.mem_univ i), ← Finset.sdiff_singleton_eq_erase]
    refine congrArg₂ (· + ·) (congrArg _ (Function.update_self ..)) (Finset.sum_congr rfl fun j hj => ?_)
    have hne : j ≠ i := fun h => (Finset.mem_sdiff.mp hj).2 (Finset.mem_singleton.mpr h)
    exact congrArg _ (Function.update_of_ne hne ..)
  refine ⟨_, ?_, hsum⟩
  have hself := hsum (s.hand i)
  rwa [hands, Function.update_eq_self] at hself

/-- Every packet is somewhere, once; none is refused or lost while there is a client. -/
structure Accounted (s : Sending ι) : Prop where
  emitted : (s.emitted : Multiset Packet) = s.accounted
  client : s.socket.hasClient → s.refused = [] ∧ s.faulted = []

theorem Accounted.handler {e : SocketOp} (h : Accounted s) (hold : InHand i e s) :
    Accounted (handler i e s).2 := by
  obtain ⟨others, hheld, hhands⟩ := exists_held_hands i s
  have hemitted := h.emitted
  rw [accounted, hheld] at hemitted
  cases e with
  | front =>
    rw [Sending.handler]
    split
    · exact h
    · rename_i p queue hqueue
      refine ⟨hemitted.trans ?_, h.client⟩
      rw [hqueue, accounted]
      change _ = (s.sent : Multiset Packet) + queue + s.dropped + s.refused + s.faulted +
        (hands i (p :: s.hand i) s).held
      rw [hhands, ← Multiset.cons_coe, ← Multiset.cons_coe, ← Multiset.singleton_add,
        ← Multiset.singleton_add p (s.hand i : Multiset Packet)]
      abel
  | push p =>
    obtain ⟨ps, hps⟩ := hold p (.inl rfl)
    refine ⟨hemitted.trans ?_, h.client⟩
    rw [accounted]
    change _ = (s.sent : Multiset Packet) + (s.socket.packetQueue ++ [p] : List Packet) + s.dropped +
      s.refused + s.faulted + (hands i (s.hand i).tail s).held
    rw [hhands, hps, List.tail_cons, ← Multiset.cons_coe, ← Multiset.singleton_add, ← Multiset.coe_add]
    change _ = _ + (_ + {p}) + _ + _ + _ + _
    abel
  | send p =>
    obtain ⟨ps, hps⟩ := hold p (.inr rfl)
    rw [Sending.handler]
    split
    · refine ⟨hemitted.trans ?_, h.client⟩
      rw [accounted]
      change _ = ((s.sent ++ [p] : List Packet) : Multiset Packet) + s.socket.packetQueue + s.dropped +
        s.refused + s.faulted + (hands i (s.hand i).tail s).held
      rw [hhands, hps, List.tail_cons, ← Multiset.cons_coe, ← Multiset.singleton_add, ← Multiset.coe_add]
      change _ = _ + {p} + _ + _ + _ + _ + _
      abel
    · rename_i hnone
      refine ⟨hemitted.trans ?_, fun hclient => absurd hclient hnone⟩
      rw [accounted]
      change _ = (s.sent : Multiset Packet) + s.socket.packetQueue + s.dropped +
        s.refused + (s.faulted ++ [p] : List Packet) + (hands i (s.hand i).tail s).held
      rw [hhands, hps, List.tail_cons, ← Multiset.cons_coe, ← Multiset.singleton_add, ← Multiset.coe_add]
      change _ = _ + _ + _ + _ + (_ + {p}) + _
      abel
  | clear =>
    refine ⟨h.emitted.trans ?_, h.client⟩
    change s.accounted = (s.sent : Multiset Packet) + ([] : List Packet) +
      (s.dropped ++ s.socket.packetQueue : List Packet) + s.refused + s.faulted + s.held
    rw [accounted, Multiset.coe_nil, ← Multiset.coe_add]
    abel
  | clearClient => exact ⟨h.emitted, fun hclient => absurd hclient Bool.false_ne_true⟩
  | _ => exact ⟨h.emitted, h.client⟩

theorem Accounted.emit (h : Accounted s) (hnone : s.hand i = []) (p : Packet) :
    Accounted (hands i [p] { s with emitted := s.emitted ++ [p] }) := by
  obtain ⟨others, hheld, hhands⟩ := exists_held_hands i s
  have hemitted := h.emitted
  rw [accounted, hheld, hnone, Multiset.coe_nil, zero_add] at hemitted
  refine ⟨?_, h.client⟩
  change ((s.emitted ++ [p] : List Packet) : Multiset Packet) = (s.sent : Multiset Packet) +
    s.socket.packetQueue + s.dropped + s.refused + s.faulted + (hands i [p] s).held
  rw [hhands, ← Multiset.coe_add, hemitted]
  abel

theorem Accounted.finish (h : Accounted s) (hnone : s.hand i = [] ∨ s.socket.hasClient = false) :
    Accounted ((system network).finish i () s) := by
  obtain ⟨others, hheld, hhands⟩ := exists_held_hands i s
  refine ⟨h.emitted.trans ?_, fun hclient => ?_⟩
  · change _ = (s.sent : Multiset Packet) + s.socket.packetQueue + s.dropped +
      (s.refused ++ s.hand i : List Packet) + s.faulted + (hands i [] s).held
    rw [accounted, hheld, hhands, ← Multiset.coe_add, Multiset.coe_nil]
    abel
  · have hclient' : s.socket.hasClient = true := hclient
    obtain ⟨hrefused, hfaulted⟩ := h.client hclient'
    have hempty := hnone.resolve_right fun hgone => Bool.false_ne_true (hgone.symm.trans hclient')
    refine ⟨?_, hfaulted⟩
    change s.refused ++ s.hand i = []
    rw [hrefused, hempty]
    rfl

/-! ## The calls under interference -/

/-- A thread changes only what it has in hand itself, and a client never comes back. -/
def contract (i : ι) : Contract (Sending ι) SocketOp where
  rely s t := t.hand i = s.hand i ∧ (t.socket.hasClient → s.socket.hasClient)
  guar s t := (∀ j, j ≠ i → t.hand j = s.hand j) ∧ (t.socket.hasClient → s.socket.hasClient)
  claim _ _ := True
  rely_refl _ := ⟨rfl, id⟩
  rely_trans h h' := ⟨h'.1.trans h.1, h.2 ∘ h'.2⟩

def Finishes (_ : ι) (e : SocketOp) (_ : Sending ι) : Prop :=
  match e with
  | .unfinished => False
  | _ => True

abbrev CallSafe (i : ι) {α : Type} (p : SocketProgram α) (Q : α → Sending ι → Prop) (s : Sending ι) :
    Prop :=
  Safe (handler i) Accounted (contract i) (Finishes i) p Q s

variable {ps : List Packet} {p : Packet}

omit [DecidableEq ι] in
theorem stable_hand (i : ι) (ps : List Packet) :
    Stable Accounted (contract i) fun s => s.hand i = ps :=
  fun _ _ _ _ h hs => h.1.trans hs

omit [DecidableEq ι] in
theorem stable_gone (i : ι) : Stable Accounted (contract i) fun s => s.socket.hasClient = false :=
  fun _ _ _ _ h hs => Bool.eq_false_iff.mpr fun hc => Bool.false_ne_true (hs.symm.trans (h.2 hc))

/-- An operation of which the effect on the packets in hand is known. -/
theorem safe_access {e : SocketOp} (hi : Accounted s) (hs : s.hand i = ps)
    (hold : ∀ p, e = .push p ∨ e = .send p → ∃ qs, ps = p :: qs) {Q : e.Answer → Sending ι → Prop}
    (hQ : ∀ r, Stable Accounted (contract i) (Q r))
    (step : ∀ t, t.hand i = ps → Q (handler i e t).1 (handler i e t).2) :
    CallSafe i (Socket.access e) Q s := by
  refine safe_perform (stable_hand i ps) hQ hi hs fun t hit ht => ⟨trivial, fun _ => ?_⟩
  refine ⟨handler_others i e t, hit.handler fun p hp => ?_, step t ht⟩
  rw [ht]
  exact hold p hp

/-- An operation that neither takes a packet nor gives one away. -/
def SocketOp.Still : SocketOp → Prop
  | .front | .push _ | .send _ => False
  | _ => True

theorem safe_still {α : Type} {q : SocketProgram α} (hq : q.All SocketOp.Still) (hi : Accounted s)
    (hs : s.hand i = ps) : CallSafe i q (fun _ t => t.hand i = ps) s := by
  refine safe_mono (safe_of_ensures (stable_hand i ps) (fun e t he hit ht => ?_) hq hi hs)
    fun _ _ _ h => h.2
  refine ⟨trivial, fun _ => ⟨handler_others i e t, hit.handler fun p hp => ?_, ?_⟩⟩
  · rcases hp with rfl | rfl <;> exact he.elim
  · cases e with
    | front | push | send => exact he.elim
    | _ => exact ht

theorem safe_send (hi : Accounted s) (hs : s.hand i = p :: ps) :
    CallSafe i (Socket.send p) (fun _ t => t.hand i = ps) s := by
  refine safe_access hi hs ?_ (fun _ => stable_hand i ps) fun t ht => ?_
  · rintro q (hq | hq)
    · cases hq
    · obtain rfl := SocketOp.send.inj hq
      exact ⟨ps, rfl⟩
  · have hself : ((handler i (.send p) t).2).hand i = (t.hand i).tail := by
      rw [handler]
      split <;> exact Function.update_self ..
    rw [hself, ht, List.tail_cons]

theorem safe_push (hi : Accounted s) (hs : s.hand i = p :: ps) :
    CallSafe i (Socket.push p) (fun _ t => t.hand i = ps) s := by
  refine safe_access hi hs ?_ (fun _ => stable_hand i ps) fun t ht => ?_
  · rintro q (hq | hq)
    · obtain rfl := SocketOp.push.inj hq
      exact ⟨ps, rfl⟩
    · cases hq
  · have hself : ((handler i (.push p) t).2).hand i = (t.hand i).tail := Function.update_self ..
    rw [hself, ht, List.tail_cons]

theorem safe_front (hi : Accounted s) (hs : s.hand i = ps) :
    CallSafe i Socket.front (fun r t => t.hand i = r.toList ++ ps) s := by
  refine safe_access hi hs ?_ (fun r => stable_hand i _) fun t ht => ?_
  · rintro q (hq | hq) <;> cases hq
  · rw [handler]
    split
    · exact ht
    · rename_i q queue hqueue
      have hself := Function.update_self i (q :: t.hand i) t.hand
      exact hself.trans (congrArg (q :: ·) ht)

theorem safe_client (hi : Accounted s) (hs : s.hand i = ps) :
    CallSafe i Socket.client (fun r t => t.hand i = ps ∧ (r = false → t.socket.hasClient = false)) s := by
  refine safe_access hi hs ?_ (fun r => (stable_hand i ps).and ?_) fun t ht => ⟨ht, id⟩
  · rintro q (hq | hq) <;> cases hq
  · intro s t hs ht hrely hgone hr
    exact stable_gone i s t hs ht hrely (hgone hr)

theorem safe_flush (fuel : ℕ) (hi : Accounted s) (hs : s.hand i = ps) :
    CallSafe i (Socket.flush fuel) (fun _ t => t.hand i = ps) s := by
  induction fuel generalizing s with
  | zero => exact safe_still ((all_perform _).mpr trivial) hi hs
  | succ fuel ih =>
    refine safe_bind hi (safe_front hi hs) fun r t hit ht => ?_
    cases r with
    | none => exact safe_ret (fun _ => stable_hand i ps) hit ht
    | some q => exact safe_bind hit (safe_send hit ht) fun _ u hiu hu => ih hiu hu

/-- The packet is sent or queued, unless the client is gone. -/
theorem safe_sendPacket (fuel : ℕ) (hi : Accounted s) (hs : s.hand i = [p]) :
    CallSafe i (Socket.sendPacket fuel p) (fun _ t => t.hand i = [] ∨ t.socket.hasClient = false) s := by
  have hstable : ∀ _ : Unit, Stable Accounted (contract i) fun t =>
      t.hand i = [] ∨ t.socket.hasClient = false :=
    fun _ => (stable_hand i []).or (stable_gone i)
  refine safe_bind hi (safe_client hi hs) fun r t hit ⟨ht, hgone⟩ => ?_
  cases r with
  | false => exact safe_ret hstable hit (.inr (hgone rfl))
  | true =>
    refine safe_bind hit (safe_still ((all_perform _).mpr trivial) hit ht) fun r u hiu hu => ?_
    cases r with
    | false => exact safe_mono (safe_push hiu hu) fun _ _ _ h => .inl h
    | true =>
      refine safe_bind hiu (safe_flush fuel hiu hu) fun _ v hiv hv => ?_
      exact safe_mono (safe_send hiv hv) fun _ _ _ h => .inl h

theorem safe_onConnected (fuel : ℕ) (hi : Accounted s) (hs : s.hand i = []) :
    CallSafe i (Socket.onConnected fuel) (fun _ t => t.hand i = []) s := by
  refine safe_bind hi (safe_still ((all_perform _).mpr trivial) hi hs) fun _ s hi hs => ?_
  refine safe_bind hi (safe_still ((all_perform _).mpr trivial) hi hs) fun r t hit ht => ?_
  cases r with
  | true => exact safe_ret (fun _ => stable_hand i []) hit ht
  | false =>
    refine safe_bind hit (safe_still ((all_perform _).mpr trivial) hit ht) fun _ u hiu hu => ?_
    refine safe_bind hiu (safe_still ((all_perform _).mpr trivial) hiu hu) fun _ v hiv hv => ?_
    exact safe_flush fuel hiv hv

theorem all_onDisconnect : Socket.onDisconnect.All SocketOp.Still := by
  refine all_bind ((all_perform _).mpr trivial) fun r => ?_
  split
  · refine all_bind ((all_perform _).mpr trivial) fun r => ?_
    split
    · exact all_bind ((all_perform _).mpr trivial) fun _ => (all_perform _).mpr trivial
    · trivial
  · trivial

theorem all_onClose : Socket.onClose.All SocketOp.Still := by
  refine all_bind ((all_perform _).mpr trivial) fun r => ?_
  split
  · refine all_bind ((all_perform _).mpr trivial) fun _ => ?_
    refine all_bind ((all_perform _).mpr trivial) fun _ => ?_
    exact all_bind ((all_perform _).mpr trivial) fun _ => (all_perform _).mpr trivial
  · trivial

theorem safe_network (call : NetworkCall) (fuel : ℕ) (hi : Accounted s) (hs : s.hand i = []) :
    CallSafe i (call.program fuel) (fun _ t => t.hand i = []) s := by
  cases call with
  | connect =>
    refine safe_bind hi (safe_client hi hs) fun r t hit ⟨ht, _⟩ => ?_
    cases r with
    | false => exact safe_ret (fun _ => stable_hand i []) hit ht
    | true => exact safe_onConnected fuel hit ht
  | close => exact safe_still all_onClose hi hs
  | disconnect => exact safe_still all_onDisconnect hi hs

/-- What the return of a call must establish. -/
theorem finish_returns (hi : Accounted s) (hnone : s.hand i = [] ∨ s.socket.hasClient = false) :
    (contract i).guar s ((system network).finish i () s) ∧ Accounted ((system network).finish i () s) ∧
      ((system network).finish i () s).hand i = [] :=
  ⟨⟨fun _ hj => Function.update_of_ne hj .., id⟩, hi.finish hnone, Function.update_self ..⟩

variable (network) in
def spec : Spec (system network) (Finishes (ι := ι)) where
  inv := Accounted
  contract := contract
  idle i s := s.hand i = []
  compatible hij hguar := ⟨hguar.1 _ (Ne.symm hij), hguar.2⟩
  stable i := stable_hand i []
  call := by
    rintro i s p t hi hs ⟨fuel, ⟨packet, rfl, rfl⟩ | ⟨call, rfl, rfl, rfl⟩⟩
    · refine ⟨⟨fun _ hj => Function.update_of_ne hj .., id⟩, hi.emit hs packet, ?_⟩
      refine safe_mono (safe_sendPacket fuel (hi.emit hs packet) (Function.update_self ..))
        fun _ u hiu hu => ?_
      exact finish_returns hiu hu
    · refine ⟨⟨fun _ _ => rfl, id⟩, hi, ?_⟩
      exact safe_mono (safe_network call fuel hi hs) fun _ u hiu hu => finish_returns hiu (.inl hu)

def start (s : SioSocket) : Sending ι := { socket := { s with packetQueue := [] } }

omit [DecidableEq ι] in
theorem accounted_start (s : SioSocket) : Accounted (start s : Sending ι) where
  emitted := by simp [accounted, held, start]
  client _ := ⟨rfl, rfl⟩

abbrev Threads (ι : Type) := Config ι (Sending ι) SocketOp SocketOp.Answer Unit

/-- In every interleaving each packet is exactly once among those sent, queued, dropped with the queue,
refused, lost and still in hand; while the socket has its client none is refused or lost, and a thread
that has returned has nothing in hand. -/
theorem packets_accounted (s : SioSocket) {c : Threads ι}
    (run : Reaches (system network) Finishes (.initial (start s)) c) :
    (c.shared.emitted : Multiset Packet) = c.shared.sent + c.shared.socket.packetQueue +
        c.shared.dropped + c.shared.refused + c.shared.faulted +
        ∑ i, (c.shared.hand i : Multiset Packet) ∧
      (c.shared.socket.hasClient → c.shared.refused = [] ∧ c.shared.faulted = []) ∧
      ∀ i, c.thread i = none → c.shared.hand i = [] := by
  have hinit : (spec network).inv (Config.initial (start s) : Threads ι).shared := accounted_start s
  have hidle : ∀ i, (spec network).Holds i ((Config.initial (start s) : Threads ι).thread i) (start s) :=
    fun _ => rfl
  obtain ⟨hinv, hthreads⟩ := (spec network).sound hinit hidle run
  refine ⟨hinv.emitted, hinv.client, fun i hidle => ?_⟩
  have hi := hthreads i
  rw [hidle] at hi
  exact hi

end Sending

end UwavClient
