import UwavClient.Socket.Links

/-!
# What the functions of the client do to the connection

Most of them leave it alone: they touch the sockets, and what they call begins no attempt. Every step
of the service is a move of the state of the connection.
-/

namespace UwavClient

open Json (DoubleCodec)

def ClientCall.notice : ClientCall → Option Notice
  | .dispatch (.connectImpl _) => some .connecting
  | .reconnecting => some .reconnecting
  | .opened => some .opened
  | _ => none

/-- A call that begins no attempt and says nothing about one, and that uses a connection only if the
client has it. -/
def ClientCall.Quiet (c : SioClient) : ClientCall → Prop
  | .connect _ | .reconnecting | .opened => False
  | .dispatch h => h.begins = false
  | .transmit _ _ => c.con ∨ c.conState = .opened
  | .close _ => c.con
  | _ => True

/-- A call that uses a connection. -/
def ClientCall.OnLink : ClientCall → Prop
  | .transmit _ _ | .close _ => True
  | _ => False

def SioService.linkState (s : SioService) : LinkState where
  conState := s.client.conState
  con := s.client.con
  thread := s.client.networkThread
  retrying := s.client.reconnTimer.isSome
  made := s.client.reconnMade
  attempts := s.client.reconnAttempts
  abort := s.client.abortRetries
  pending := s.posted.filter Handler.begins
  running := s.running
  attempt := s.attempt
  link := s.link

/-- Two clients that differ in nothing that the state of the connection has. -/
structure SameLink (c c' : SioClient) : Prop where
  conState : c'.conState = c.conState
  con : c'.con = c.con
  thread : c'.networkThread = c.networkThread
  retrying : c'.reconnTimer.isSome = c.reconnTimer.isSome
  made : c'.reconnMade = c.reconnMade
  attempts : c'.reconnAttempts = c.reconnAttempts
  abort : c'.abortRetries = c.abortRetries

namespace SameLink

variable {c c' c'' : SioClient}

@[refl] theorem refl (c : SioClient) : SameLink c c := ⟨rfl, rfl, rfl, rfl, rfl, rfl, rfl⟩

theorem trans (h : SameLink c c') (h' : SameLink c' c'') : SameLink c c'' :=
  ⟨h'.conState.trans h.conState, h'.con.trans h.con, h'.thread.trans h.thread,
    h'.retrying.trans h.retrying, h'.made.trans h.made, h'.attempts.trans h.attempts,
    h'.abort.trans h.abort⟩

end SameLink

/-- A function that ends in `c'`, as far as the connection goes, if it returns. -/
def EndsIn (c' : SioClient) (r : Except Crash (SioClient × List ClientCall)) : Prop :=
  ∀ d calls, r = .ok (d, calls) → SameLink c' d ∧ ∀ x ∈ calls, x.Quiet c'

/-- A function that at most cancels the reconnect timer. -/
def Mild (c : SioClient) (r : Except Crash (SioClient × List ClientCall)) : Prop :=
  EndsIn c r ∨ EndsIn { c with reconnTimer := none } r

section Calls

variable {w : DoubleCodec UInt64} {c : SioClient} {calls : List ClientCall} {s : SioService}

theorem notices_of_quiet (h : ∀ x ∈ calls, x.Quiet c) : calls.filterMap ClientCall.notice = [] := by
  refine List.filterMap_eq_nil_iff.mpr fun x hx => ?_
  have hquiet := h x hx
  cases x with
  | dispatch handler => cases handler <;> first | rfl | cases hquiet
  | reconnecting => exact hquiet.elim
  | opened => exact hquiet.elim
  | _ => rfl

theorem linkState_accept {c' : SioClient} (hc : SameLink c c') (calls : List ClientCall) :
    (s.accept calls c').linkState = { ({ s with client := c } : SioService).linkState with
      pending := s.linkState.pending ++ (calls.filterMap ClientCall.dispatched).filter Handler.begins
      attempt := s.attempt || calls.any ClientCall.begins } := by
  unfold SioService.linkState SioService.accept
  dsimp only
  rw [List.filter_append, hc.conState, hc.con, hc.thread, hc.retrying, hc.made, hc.attempts, hc.abort]

theorem dispatched_of_quiet (h : ∀ x ∈ calls, x.Quiet c) :
    (calls.filterMap ClientCall.dispatched).filter Handler.begins = [] := by
  refine List.filter_eq_nil_iff.mpr fun x hx => ?_
  obtain ⟨y, hy, hyx⟩ := List.mem_filterMap.mp hx
  have hquiet := h y hy
  cases y with
  | dispatch h =>
    obtain rfl := Option.some.inj hyx
    exact Bool.eq_false_iff.mp hquiet
  | _ => cases hyx

theorem begins_of_quiet (h : ∀ x ∈ calls, x.Quiet c) : calls.any ClientCall.begins = false := by
  refine List.any_eq_false.mpr fun x hx => ?_
  have hquiet := h x hx
  cases x <;> first | exact Bool.false_ne_true | exact hquiet.elim

/-- Quiet calls leave what they find. -/
theorem linkState_accept_of_quiet (h : ∀ x ∈ calls, x.Quiet c) {c' : SioClient} (hc : SameLink c c') :
    (s.accept calls c').linkState = { s with client := c }.linkState := by
  rw [linkState_accept hc, dispatched_of_quiet h, begins_of_quiet h, List.append_nil, Bool.or_false]
  rfl

/-- The first call of a socket is passed on, or its packet is encoded and sent. -/
theorem runCalls_cons_ok {send : Bool → Text → List ClientCall} {call : SocketCall}
    {socketCalls : List SocketCall} (h : SioClient.runCalls w send (call :: socketCalls) = .ok calls) :
    ∃ now rest, calls = now ++ rest ∧ SioClient.runCalls w send socketCalls = .ok rest ∧
      (now = [.socket call] ∨
        ∃ (p : Packet) (frames : List (Bool × Text)), call = .send p ∧
          now = frames.flatMap fun f => send f.1 f.2) := by
  cases hrest : SioClient.runCalls w send socketCalls with
  | error e =>
    cases call with
    | send p =>
      rw [SioClient.runCalls, hrest] at h
      cases hp : PacketManager.encode w p <;> rw [hp] at h <;> cases h
    | _ =>
      rw [SioClient.runCalls, hrest] at h
      · cases h
      · nofun
  | ok rest =>
    cases call with
    | send p =>
      rw [SioClient.runCalls, hrest] at h
      cases hp : PacketManager.encode w p with
      | error e =>
        rw [hp] at h
        cases h
      | ok frames =>
        rw [hp] at h
        exact ⟨_, rest, (Except.ok.inj h).symm, rfl, .inr ⟨p, frames, rfl, rfl⟩⟩
    | _ =>
      rw [SioClient.runCalls, hrest] at h
      · exact ⟨_, rest, (Except.ok.inj h).symm, rfl, .inl rfl⟩
      · nofun

theorem forall_runCalls {P : ClientCall → Prop} {send : Bool → Text → List ClientCall}
    (hsend : ∀ binary payload, ∀ x ∈ send binary payload, P x) {socketCalls : List SocketCall}
    (hsocket : ∀ call ∈ socketCalls, P (.socket call))
    (h : SioClient.runCalls w send socketCalls = .ok calls) : ∀ x ∈ calls, P x := by
  induction socketCalls generalizing calls with
  | nil =>
    obtain rfl := Except.ok.inj h
    exact List.forall_mem_nil _
  | cons call socketCalls ih =>
    obtain ⟨hcall, hcalls⟩ := List.forall_mem_cons.mp hsocket
    obtain ⟨now, rest, rfl, hrest, hnow⟩ := runCalls_cons_ok h
    refine List.forall_mem_append.mpr ⟨?_, ih hcalls hrest⟩
    rcases hnow with rfl | ⟨p, frames, rfl, rfl⟩
    · exact List.forall_mem_singleton.mpr hcall
    · intro x hx
      obtain ⟨f, -, hf⟩ := List.mem_flatMap.mp hx
      exact hsend f.1 f.2 x hf

theorem quiet_runCalls {send : Bool → Text → List ClientCall}
    (hsend : ∀ binary payload, ∀ x ∈ send binary payload, x.Quiet c) {socketCalls : List SocketCall}
    (h : SioClient.runCalls w send socketCalls = .ok calls) : ∀ x ∈ calls, x.Quiet c :=
  forall_runCalls hsend (fun _ _ => trivial) h

theorem quiet_sendImpl (c : SioClient) (binary : Bool) (payload : Text) :
    ∀ x ∈ c.sendImpl binary payload, x.Quiet c := by
  unfold SioClient.sendImpl
  split
  · exact List.forall_mem_singleton.mpr (.inr ‹_›)
  · nofun

theorem quiet_dispatchSend (binary : Bool) (payload : Text) :
    ∀ x ∈ SioClient.dispatchSend binary payload, x.Quiet c :=
  List.forall_mem_singleton.mpr rfl

theorem ClientCall.Quiet.congr {c' : SioClient} {x : ClientCall} (hx : x.Quiet c')
    (hcon : c'.con = c.con) (hstate : c'.conState = c.conState) : x.Quiet c := by
  cases x with
  | transmit binary payload => simpa only [ClientCall.Quiet, hcon, hstate] using hx
  | close code => simpa only [ClientCall.Quiet, hcon] using hx
  | _ => exact hx

end Calls

/-! ## Functions of the client -/

section Functions

variable {w : DoubleCodec UInt64} {c c' : SioClient} {calls : List ClientCall}

theorem endsIn_error (e : Crash) : EndsIn c (.error e) := fun _ _ h => by cases h

theorem endsIn_ok (hc : SameLink c c') (h : ∀ x ∈ calls, x.Quiet c) : EndsIn c (.ok (c', calls)) := by
  rintro d calls ⟨⟩
  exact ⟨hc, h⟩

theorem endsIn_bind {α : Type} {x : Except Crash α} {f : α → Except Crash (SioClient × List ClientCall)}
    (h : ∀ a, x = .ok a → EndsIn c (f a)) : EndsIn c (x >>= f) := by
  cases x with
  | error e => exact endsIn_error e
  | ok a => exact h a rfl

theorem EndsIn.of_same {r : Except Crash (SioClient × List ClientCall)} (h : EndsIn c' r)
    (hc : SameLink c c') : EndsIn c r :=
  fun d calls hd => ⟨hc.trans (h d calls hd).1, fun x hx => ((h d calls hd).2 x hx).congr hc.con hc.conState⟩

theorem quiet_nil : ∀ x ∈ ([] : List ClientCall), x.Quiet c := List.forall_mem_nil _

theorem endsIn_closeImpl (code : CloseCode) (c : SioClient) :
    EndsIn { c with reconnTimer := none } (.ok (c.closeImpl code)) := by
  refine endsIn_ok ⟨rfl, rfl, rfl, rfl, rfl, rfl, rfl⟩ ?_
  split
  · exact List.forall_mem_singleton.mpr ‹_›
  · exact quiet_nil

theorem endsIn_toSocket (p : Packet) (c : SioClient) : EndsIn c (c.toSocket w p) := by
  unfold SioClient.toSocket
  split
  · exact endsIn_ok (.refl c) quiet_nil
  · refine endsIn_bind fun r _ => endsIn_bind fun calls hcalls => ?_
    refine endsIn_ok ?_ (quiet_runCalls (quiet_sendImpl c) hcalls)
    split <;> exact ⟨rfl, rfl, rfl, rfl, rfl, rfl, rfl⟩

theorem sameLink_connectSid {p : Packet} (h : c.connectSid p = .ok c') : SameLink c c' := by
  unfold SioClient.connectSid at h
  split at h
  · split at h
    · obtain rfl := Except.ok.inj h
      rfl
    · rename_i entry _
      cases hsid : SioClient.entryString entry with
      | error e =>
        rw [hsid] at h
        cases h
      | ok sid =>
        rw [hsid] at h
        obtain rfl := Except.ok.inj h
        exact ⟨rfl, rfl, rfl, rfl, rfl, rfl, rfl⟩
  · obtain rfl := Except.ok.inj h
    rfl

theorem mild_onHandshake (m : Message) (c : SioClient) : Mild c (c.onHandshake m) := by
  unfold SioClient.onHandshake
  split
  · split
    · exact .inr (endsIn_closeImpl _ c)
    · left
      refine endsIn_bind fun sid _ => endsIn_bind fun pingInterval _ => endsIn_bind fun pingTimeout _ => ?_
      exact endsIn_ok ⟨rfl, rfl, rfl, rfl, rfl, rfl, rfl⟩ quiet_nil
  · exact .inr (endsIn_closeImpl _ c)

theorem endsIn_onPing (c : SioClient) : EndsIn c (c.onPing w) := by
  unfold SioClient.onPing
  refine endsIn_bind fun frames _ => ?_
  dsimp only
  split
  · exact endsIn_error _
  · rename_i hcon
    refine endsIn_ok ⟨rfl, rfl, rfl, rfl, rfl, rfl, rfl⟩ fun x hx => ?_
    obtain ⟨f, -, rfl⟩ := List.mem_map.mp hx
    exact .inl (by simpa using hcon)

theorem mild_onDecode (p : Packet) (c : SioClient) : Mild c (c.onDecode w p) := by
  unfold SioClient.onDecode
  split
  · refine .inl (endsIn_bind fun type _ => ?_)
    split
    · exact endsIn_bind fun d hsid => (endsIn_toSocket p d).of_same (sameLink_connectSid hsid)
    · exact endsIn_toSocket p c
  · split
    · exact mild_onHandshake _ c
    · split
      · exact .inr (endsIn_closeImpl _ c)
      · split
        · exact .inl (endsIn_onPing c)
        · exact .inl (endsIn_ok (.refl c) quiet_nil)

theorem mild_onMessage (payload : Text) (c : SioClient) : Mild c (c.onMessage w payload) := by
  unfold SioClient.onMessage
  cases PacketManager.putPayload w payload c.partialPacket with
  | error e => exact .inl (endsIn_error e)
  | ok r =>
    obtain ⟨partialPacket, _ | p⟩ := r
    · exact .inl (endsIn_ok ⟨rfl, rfl, rfl, rfl, rfl, rfl, rfl⟩ quiet_nil)
    · exact (mild_onDecode p { c with partialPacket }).imp
        (fun h => h.of_same ⟨rfl, rfl, rfl, rfl, rfl, rfl, rfl⟩)
        fun h => h.of_same ⟨rfl, rfl, rfl, rfl, rfl, rfl, rfl⟩

theorem endsIn_beginClose (c : SioClient) {send : Bool → Text → List ClientCall}
    (hsend : ∀ binary payload, ∀ x ∈ send binary payload,
      x.Quiet { c with conState := .closing, abortRetries := true }) :
    EndsIn { c with conState := .closing, abortRetries := true } (c.beginClose w send) := by
  unfold SioClient.beginClose
  refine endsIn_bind fun calls hcalls => ?_
  exact endsIn_ok ⟨rfl, rfl, rfl, rfl, rfl, rfl, rfl⟩ (quiet_runCalls hsend hcalls)

theorem endsIn_close (c : SioClient) :
    EndsIn { c with conState := .closing, abortRetries := true } (c.close w) := by
  unfold SioClient.close
  refine endsIn_bind fun r hr => ?_
  obtain ⟨hsame, hquiet⟩ := endsIn_beginClose c quiet_dispatchSend r.1 r.2 hr
  refine endsIn_ok hsame (List.forall_mem_append.mpr ⟨hquiet, ?_⟩)
  exact List.forall_mem_singleton.mpr rfl

theorem endsIn_closeOnNetwork (c : SioClient) :
    EndsIn { c with conState := .closing, abortRetries := true, reconnTimer := none }
      (c.closeOnNetwork w) := by
  unfold SioClient.closeOnNetwork
  refine endsIn_bind fun r hr => ?_
  obtain ⟨hsame, hquiet⟩ := endsIn_beginClose c (fun _ _ => quiet_nil) r.1 r.2 hr
  obtain ⟨hclose, hcalls⟩ := endsIn_closeImpl .normal r.1 _ _ rfl
  refine endsIn_ok (.trans ?_ hclose) (List.forall_mem_append.mpr ⟨fun x hx => ?_, fun x hx => ?_⟩)
  · exact ⟨hsame.conState, hsame.con, hsame.thread, rfl, hsame.made, hsame.attempts, hsame.abort⟩
  · exact (hquiet x hx).congr rfl rfl
  · exact (hcalls x hx).congr hsame.con hsame.conState

theorem connect_of_returns {uri : Text} {auth : Message}
    (h : c.networkThread ∧ c.conState ≠ .closing ∧ c.conState ≠ .closed) :
    c.connect uri auth = ({ c with reconnTimer := none }, []) := if_pos h

theorem connect_of_begins (uri : Text) (auth : Message)
    (h : ¬(c.networkThread ∧ c.conState ≠ .closing ∧ c.conState ≠ .closed)) : ∃ d,
    c.connect uri auth = (d, [.dispatch (.connectImpl uri)]) ∧ SameLink { c with
      conState := .opening, networkThread := true, reconnTimer := none, reconnMade := 0,
      abortRetries := false } d :=
  ⟨_, if_neg h, ⟨rfl, rfl, rfl, rfl, rfl, rfl, rfl⟩⟩

theorem connectImpl_calls (validUri : Text → Bool) (uri : Text) :
    (SioClient.connectImpl validUri uri).filterMap ClientCall.dispatched = [] ∧
      (SioClient.connectImpl validUri uri).any ClientCall.begins = validUri uri ∧
      (SioClient.connectImpl validUri uri).filterMap ClientCall.notice = [] ∧
      ∀ x ∈ SioClient.connectImpl validUri uri, ¬x.OnLink := by
  unfold SioClient.connectImpl
  cases validUri uri <;> exact ⟨rfl, rfl, rfl, List.forall_mem_singleton.mpr id⟩

theorem timeoutReconnect_of_closed (validUri : Text → Bool) (h : c.conState = .closed) : ∃ d,
    c.timeoutReconnect validUri = (d, .reconnecting :: SioClient.connectImpl validUri c.baseUrl) ∧
      SameLink { c with conState := .opening, reconnMade := c.reconnMade + 1 } d :=
  ⟨_, if_pos h, ⟨rfl, rfl, rfl, rfl, rfl, rfl, rfl⟩⟩

theorem sameLink_socket (nsp : Text) (c : SioClient) : SameLink c (c.socket nsp).1 := by
  unfold SioClient.socket
  dsimp only
  split
  · rfl
  · exact ⟨rfl, rfl, rfl, rfl, rfl, rfl, rfl⟩

theorem sameLink_socketsInvoke (f : SioSocket → SioSocket × List SocketCall) (c : SioClient) :
    SameLink c (c.socketsInvoke f).1 := ⟨rfl, rfl, rfl, rfl, rfl, rfl, rfl⟩

theorem endsIn_withSocket (f : SioSocket → SioSocket × List SocketCall) (c : SioClient) :
    EndsIn c (SioService.withSocket w f c) := by
  unfold SioService.withSocket
  have hsocket := sameLink_socket [] c
  dsimp only
  split
  · exact endsIn_ok hsocket quiet_nil
  · refine endsIn_bind fun calls hcalls => ?_
    refine endsIn_ok (hsocket.trans ⟨rfl, rfl, rfl, rfl, rfl, rfl, rfl⟩) ?_
    exact quiet_runCalls quiet_dispatchSend hcalls

theorem endsIn_socketTimeout (nsp : Text) (c : SioClient) :
    EndsIn c (.ok (SioService.socketTimeout nsp c)) := by
  unfold SioService.socketTimeout
  split
  · exact endsIn_ok (.refl c) quiet_nil
  · refine endsIn_ok ⟨rfl, rfl, rfl, rfl, rfl, rfl, rfl⟩ fun x hx => ?_
    obtain ⟨call, -, rfl⟩ := List.mem_map.mp hx
    trivial

/-- `on_open`, when the client is not closing: the listener is told at the end. -/
theorem onOpen_ok (h : c.conState ≠ .closing) {d : SioClient} (hopen : c.onOpen w = .ok (d, calls)) :
    SameLink { c with conState := .opened, con := true, reconnMade := 0 } d ∧
      ∃ quiet, calls = quiet ++ [.opened] ∧
        ∀ x ∈ quiet, x.Quiet { c with conState := .opened, con := true, reconnMade := 0 } := by
  unfold SioClient.onOpen at hopen
  rw [if_neg h] at hopen
  dsimp only at hopen
  cases hcalls : SioClient.runCalls w _ _ with
  | error e =>
    rw [hcalls] at hopen
    cases hopen
  | ok quiet =>
    rw [hcalls] at hopen
    obtain ⟨rfl, rfl⟩ := Prod.mk.inj (Except.ok.inj hopen)
    refine ⟨(sameLink_socketsInvoke _ _).trans (sameLink_socket [] _), quiet, rfl, ?_⟩
    refine fun x hx => (quiet_runCalls (quiet_sendImpl _) hcalls x hx).congr ?_ ?_
    · exact (sameLink_socket [] _).con
    · exact (sameLink_socket [] _).conState

/-- A retry sets the timer, and only when it may. -/
theorem retry_eq (c : SioClient) : c.retry = none ∨ ∃ delay,
    c.retry = some { c with reconnTimer := some delay } ∧ c.reconnMade < c.reconnAttempts ∧
      c.abortRetries = false := by
  by_cases h : c.reconnMade < c.reconnAttempts ∧ !c.abortRetries
  · exact .inr ⟨_, if_pos h, h.1, by simpa using h.2⟩
  · exact .inl (if_neg h)

/-- What is left of the connection when it ends, and whether another attempt follows. -/
def EndsWith (c : SioClient) (retry : Bool) (d : SioClient) : Prop :=
  (retry → c.reconnMade < c.reconnAttempts ∧ c.abortRetries = false) ∧ ∃ timer,
    timer.isSome = (c.reconnTimer.isSome || retry) ∧
      SameLink { c with con := false, conState := .closed, reconnTimer := timer } d

theorem onFail_ok (h : c.conState ≠ .closing) : ∃ d calls retry, c.onFail w = .ok (d, calls) ∧
    (∀ c', ∀ x ∈ calls, x.Quiet c') ∧ EndsWith c retry d := by
  rw [SioClient.onFail, if_neg h]
  dsimp only
  rcases retry_eq (SioClient.onDisconnectAll { c with con := false, conState := .closed }) with
    hnone | ⟨delay, hsome, hmay⟩
  · rw [hnone]
    refine ⟨_, _, false, rfl, fun _ => List.forall_mem_singleton.mpr trivial,
      fun hretry => absurd hretry Bool.false_ne_true, c.reconnTimer,
      (Bool.or_false _).symm, ⟨rfl, rfl, rfl, rfl, rfl, rfl, rfl⟩⟩
  · rw [hsome]
    exact ⟨_, _, true, rfl, fun _ => quiet_nil, fun _ => hmay, some delay, (Bool.or_true _).symm,
      ⟨rfl, rfl, rfl, rfl, rfl, rfl, rfl⟩⟩

theorem onClose_eq (normal : Bool) (c : SioClient) : ∃ d calls retry, c.onClose normal = (d, calls) ∧
    (∀ c', ∀ x ∈ calls, x.Quiet c') ∧ EndsWith c retry d ∧ (retry → c.conState ≠ .closing) := by
  unfold SioClient.onClose
  dsimp only
  split
  · exact ⟨_, _, false, rfl, fun _ => List.forall_mem_singleton.mpr trivial,
      ⟨fun hretry => absurd hretry Bool.false_ne_true, c.reconnTimer, (Bool.or_false _).symm,
        ⟨rfl, rfl, rfl, rfl, rfl, rfl, rfl⟩⟩, fun hretry => absurd hretry Bool.false_ne_true⟩
  · rename_i hopen
    have hstill : c.conState ≠ .closing := fun hc => hopen (.inr (decide_eq_true hc))
    rcases retry_eq (SioClient.onDisconnectAll { c with
      conState := .closed, con := false, pingTimeoutTimer := none }) with hnone | ⟨delay, hsome, hmay⟩
    · rw [hnone]
      exact ⟨_, _, false, rfl, fun _ => List.forall_mem_singleton.mpr trivial,
        ⟨fun hretry => absurd hretry Bool.false_ne_true, c.reconnTimer, (Bool.or_false _).symm,
          ⟨rfl, rfl, rfl, rfl, rfl, rfl, rfl⟩⟩, fun _ => hstill⟩
    · rw [hsome]
      exact ⟨_, _, true, rfl, fun _ => quiet_nil, ⟨fun _ => hmay, some delay, (Bool.or_true _).symm,
        ⟨rfl, rfl, rfl, rfl, rfl, rfl, rfl⟩⟩, fun _ => hstill⟩

end Functions

/-! ## Steps of the service -/

namespace SioService

open LinkState (Move)

variable {w : DoubleCodec UInt64} {validUri : Text → Bool} {e : ServiceEvent} {s t : SioService}
  {calls : List ClientCall}

theorem step_ok (h : step w validUri e s = .ok (t, calls)) : ∃ c,
    call w validUri e s.posted (s.begin e).client = .ok (c, calls) ∧ t = (s.begin e).accept calls c := by
  unfold step at h
  cases hcall : call w validUri e s.posted (s.begin e).client with
  | error e =>
    rw [hcall] at h
    cases h
  | ok r =>
    rw [hcall] at h
    obtain ⟨rfl, rfl⟩ := Prod.mk.inj (Except.ok.inj h)
    exact ⟨r.1, rfl, rfl⟩

/-- The state of the connection moves; the calls say so, and use only a connection that is there. -/
def Moved (l : LinkState) (t : SioService) (calls : List ClientCall) : Prop :=
  (∃ note, Move l note t.linkState ∧ calls.filterMap ClientCall.notice = note.toList) ∧
    ∀ x ∈ calls, x.OnLink → t.client.con ∨ t.client.conState = .opened

theorem moved_of_quiet {c d : SioClient} (hquiet : ∀ x ∈ calls, x.Quiet c) (hsame : SameLink c d)
    {l : LinkState} (hmove : Move l none { s with client := c }.linkState) :
    Moved l (s.accept calls d) calls := by
  refine ⟨⟨none, ?_, notices_of_quiet hquiet⟩, fun x hx hlink => ?_⟩
  · rw [linkState_accept_of_quiet hquiet hsame]
    exact hmove
  · have hx' := hquiet x hx
    change d.con ∨ d.conState = .opened
    rw [hsame.con, hsame.conState]
    cases x with
    | transmit binary payload => exact hx'
    | close code => exact .inl hx'
    | _ => exact hlink.elim

/-- A function that leaves the connection as `c` has it. -/
theorem moved_of_endsIn {c d : SioClient} {r : Except Crash (SioClient × List ClientCall)}
    (h : EndsIn c r) (hr : r = .ok (d, calls)) {l : LinkState}
    (hmove : Move l none { s with client := c }.linkState) : Moved l (s.accept calls d) calls := by
  obtain ⟨hsame, hquiet⟩ := h d calls hr
  exact moved_of_quiet hquiet hsame hmove

theorem moved_of_mild {c d : SioClient} {r : Except Crash (SioClient × List ClientCall)}
    (h : Mild c r) (hr : r = .ok (d, calls)) {l : LinkState}
    (hl : { s with client := c }.linkState = l) : Moved l (s.accept calls d) calls := by
  rcases h with h | h
  · exact moved_of_endsIn h hr (hl ▸ .stay _)
  · exact moved_of_endsIn h hr (hl ▸ .cancel _)

theorem step_connect_of_returns (uri : Text) (auth : Message) (h : s.ConnectReturns) :
    step w validUri (.connect uri auth) s = .ok (s.accept [] { s.client with reconnTimer := none }, []) := by
  have hbegin : s.begin (.connect uri auth) = s := if_pos h
  rw [step, hbegin, call, connect_of_returns h]
  rfl

theorem moved_connect {uri : Text} {auth : Message} (henabled : Enabled (.connect uri auth) s)
    (h : step w validUri (.connect uri auth) s = .ok (t, calls)) : Moved s.linkState t calls := by
  by_cases hreturns : s.ConnectReturns
  · obtain ⟨rfl, rfl⟩ := Prod.mk.inj (Except.ok.inj
      ((step_connect_of_returns uri auth hreturns).symm.trans h))
    exact moved_of_quiet quiet_nil (.refl _) (.cancel _)
  · obtain ⟨c, hcall, rfl⟩ := step_ok h
    have hconnect := Except.ok.inj hcall
    have hbegin : s.begin (.connect uri auth) = { s with running := true } := if_neg hreturns
    obtain ⟨d, hd, hsame⟩ := connect_of_begins uri auth hreturns
    rw [hbegin, hd] at hconnect
    obtain ⟨rfl, rfl⟩ := Prod.mk.inj hconnect
    have hany : [ClientCall.dispatch (.connectImpl uri)].any ClientCall.begins = false := rfl
    refine ⟨⟨some .connecting, ?_, rfl⟩, List.forall_mem_singleton.mpr False.elim⟩
    rw [hbegin, linkState_accept hsame, hany, Bool.or_false]
    exact .connect uri (henabled.resolve_left hreturns)

theorem moved_handler (h : step w validUri .handler s = .ok (t, calls)) : Moved s.linkState t calls := by
  obtain ⟨c, hcall, rfl⟩ := step_ok h
  have hrun := Except.ok.inj hcall
  cases hposted : s.posted with
  | nil =>
    rw [hposted] at hrun
    obtain ⟨rfl, rfl⟩ := Prod.mk.inj hrun
    have hsame : (s.begin .handler).linkState = s.linkState := by
      unfold linkState
      rw [begin, hposted]
      rfl
    rw [← hsame]
    exact moved_of_quiet quiet_nil (.refl _) (.stay _)
  | cons head rest =>
    rw [hposted] at hrun
    have hbegin : s.begin .handler = { s with posted := rest } := by
      rw [begin, hposted]
      rfl
    -- A handler that begins no attempt is not among the pending ones.
    have hother : head.begins = false → (s.begin .handler).linkState = s.linkState := by
      intro hhead
      rw [hbegin]
      unfold linkState
      rw [hposted, List.filter_cons_of_neg (Bool.eq_false_iff.mp hhead)]
    have hpending : head.begins → s.linkState.pending = head :: rest.filter Handler.begins := by
      intro hhead
      unfold linkState
      rw [hposted, List.filter_cons_of_pos hhead]
    cases head with
    | connectImpl uri =>
      obtain ⟨rfl, rfl⟩ := Prod.mk.inj hrun
      obtain ⟨hdispatched, hbegins, hnotice, hlink⟩ := connectImpl_calls validUri uri
      refine ⟨⟨none, ?_, hnotice⟩, fun x hx hon => (hlink x hx hon).elim⟩
      rw [hbegin, linkState_accept (.refl _), hdispatched, hbegins, List.filter_nil, List.append_nil]
      exact .begins (hpending rfl) _
    | closeImpl code =>
      refine moved_of_endsIn (endsIn_closeImpl code _) (congrArg Except.ok hrun) ?_
      rw [← hother rfl]
      exact .cancel _
    | sendImpl binary payload =>
      obtain ⟨rfl, rfl⟩ := Prod.mk.inj hrun
      rw [← hother rfl]
      exact moved_of_quiet (quiet_sendImpl _ binary payload) (.refl _) (.stay _)
    | timeoutReconnect =>
      by_cases hclosed : s.client.conState = .closed
      · obtain ⟨d, hd, hsame⟩ := timeoutReconnect_of_closed validUri hclosed
        obtain ⟨rfl, rfl⟩ := Prod.mk.inj (hrun.symm.trans hd)
        obtain ⟨hdispatched, hbegins, hnotice, hlink⟩ := connectImpl_calls validUri s.client.baseUrl
        have hdispatched' : (ClientCall.reconnecting :: SioClient.connectImpl validUri
            s.client.baseUrl).filterMap ClientCall.dispatched = [] := hdispatched
        have hbegins' : (ClientCall.reconnecting :: SioClient.connectImpl validUri
            s.client.baseUrl).any ClientCall.begins = validUri s.client.baseUrl := hbegins
        refine ⟨⟨some .reconnecting, ?_, congrArg (Notice.reconnecting :: ·) hnotice⟩,
          List.forall_mem_cons.mpr ⟨False.elim, fun x hx hon => (hlink x hx hon).elim⟩⟩
        rw [hbegin, linkState_accept hsame, hdispatched', hbegins', List.filter_nil, List.append_nil]
        exact .reconnect (hpending rfl) hclosed _
      · have hlate : s.client.timeoutReconnect validUri = (s.client, []) := if_neg hclosed
        obtain ⟨rfl, rfl⟩ := Prod.mk.inj (hrun.symm.trans hlate)
        rw [hbegin]
        exact moved_of_quiet quiet_nil (.refl _) (.tooLate (hpending rfl))
    | timeoutPing =>
      refine moved_of_endsIn (endsIn_closeImpl .policyViolation _) (congrArg Except.ok hrun) ?_
      rw [← hother rfl]
      exact .cancel _

theorem moved_failed (hattempt : s.attempt) (h : step w validUri .failed s = .ok (t, calls)) :
    Moved s.linkState t calls := by
  obtain ⟨c, hcall, rfl⟩ := step_ok h
  by_cases hclosing : s.client.conState = .closing
  · have hclose : call w validUri .failed s.posted (s.begin .failed).client =
        s.client.closeOnNetwork w := if_pos hclosing
    rw [hclose] at hcall
    refine moved_of_endsIn (endsIn_closeOnNetwork s.client) hcall ?_
    have hstate : ({ s.begin .failed with client := { s.client with
        conState := .closing, abortRetries := true, reconnTimer := none } } : SioService).linkState =
        { s.linkState with attempt := false, abort := true, retrying := false } := by
      unfold linkState
      dsimp only
      rw [hclosing]
      rfl
    rw [hstate]
    exact .failClosing hattempt hclosing
  · obtain ⟨d, calls', retry, hfail, hquiet, hmay, timer, htimer, hsame⟩ := onFail_ok (w := w) hclosing
    obtain ⟨rfl, rfl⟩ := Prod.mk.inj (Except.ok.inj (hcall.symm.trans hfail))
    refine moved_of_quiet (hquiet _) hsame ?_
    have hmove := Move.fail (l := s.linkState) hattempt retry hmay hclosing
    rw [show s.linkState.retrying = s.client.reconnTimer.isSome from rfl, ← htimer] at hmove
    exact hmove

theorem moved_opened (hattempt : s.attempt) (h : step w validUri .opened s = .ok (t, calls)) :
    Moved s.linkState t calls := by
  obtain ⟨c, hcall, rfl⟩ := step_ok h
  by_cases hclosing : s.client.conState = .closing
  · have hclose : call w validUri .opened s.posted (s.begin .opened).client =
        s.client.closeOnNetwork w := if_pos hclosing
    rw [hclose] at hcall
    refine moved_of_endsIn (endsIn_closeOnNetwork s.client) hcall ?_
    have hstate : ({ s.begin .opened with client := { s.client with
        conState := .closing, abortRetries := true, reconnTimer := none } } : SioService).linkState =
        { s.linkState with attempt := false, link := true, abort := true, retrying := false } := by
      unfold linkState
      dsimp only
      rw [hclosing]
      rfl
    rw [hstate]
    exact .opensClosing hattempt hclosing
  · obtain ⟨hsame, quiet, rfl, hquiet⟩ := onOpen_ok hclosing hcall
    have hdispatched : ((quiet ++ [ClientCall.opened]).filterMap ClientCall.dispatched).filter
        Handler.begins = [] := by
      rw [List.filterMap_append, List.filter_append, dispatched_of_quiet hquiet]
      rfl
    have hbegins : (quiet ++ [ClientCall.opened]).any ClientCall.begins = false := by
      rw [List.any_append, begins_of_quiet hquiet]
      rfl
    refine ⟨⟨some .opened, ?_, ?_⟩, fun _ _ _ => .inl hsame.con⟩
    · rw [linkState_accept hsame, hdispatched, hbegins, List.append_nil, Bool.or_false]
      exact .opens hattempt hclosing
    · rw [List.filterMap_append, notices_of_quiet hquiet]
      rfl

theorem moved_closed {normal : Bool} (hlink : s.link)
    (h : step w validUri (.closed normal) s = .ok (t, calls)) : Moved s.linkState t calls := by
  obtain ⟨c, hcall, rfl⟩ := step_ok h
  obtain ⟨d, calls', retry, hclose, hquiet, ⟨hmay, timer, htimer, hsame⟩, hstill⟩ :=
    onClose_eq normal s.client
  obtain ⟨rfl, rfl⟩ := Prod.mk.inj ((Except.ok.inj hcall).symm.trans hclose)
  refine moved_of_quiet (hquiet _) hsame ?_
  have hmove := Move.drop (l := s.linkState) hlink retry hmay hstill
  rw [show s.linkState.retrying = s.client.reconnTimer.isSome from rfl, ← htimer] at hmove
  exact hmove

/-- Every step of the service is a move of the state of its connection. -/
theorem moved_of_step (henabled : Enabled e s) (h : step w validUri e s = .ok (t, calls)) :
    Moved s.linkState t calls := by
  cases e with
  | joining =>
    obtain ⟨c, hcall, rfl⟩ := step_ok h
    exact moved_of_endsIn (endsIn_ok (.refl _) quiet_nil) hcall (.cancel _)
  | connect uri auth => exact moved_connect henabled h
  | close =>
    obtain ⟨c, hcall, rfl⟩ := step_ok h
    exact moved_of_endsIn (endsIn_close s.client) hcall (.close _ _ id)
  | joined =>
    obtain ⟨c, hcall, rfl⟩ := step_ok h
    exact moved_of_endsIn (endsIn_ok (.refl _) quiet_nil) hcall (.join henabled)
  | emit name messages =>
    obtain ⟨c, hcall, rfl⟩ := step_ok h
    exact moved_of_endsIn (endsIn_withSocket _ s.client) hcall (.stay _)
  | listener change =>
    obtain ⟨c, hcall, rfl⟩ := step_ok h
    exact moved_of_endsIn (endsIn_withSocket (fun t => (t.changeListener change, [])) s.client) hcall
      (.stay _)
  | handler => exact moved_handler h
  | failed => exact moved_failed henabled.2 h
  | opened => exact moved_opened henabled.2 h
  | closed normal => exact moved_closed henabled.2 h
  | message payload =>
    obtain ⟨c, hcall, rfl⟩ := step_ok h
    exact moved_of_mild (mild_onMessage payload s.client) hcall rfl
  | reconnectExpired =>
    obtain ⟨c, hcall, rfl⟩ := step_ok h
    refine moved_of_endsIn (endsIn_ok (.refl _) quiet_nil) hcall ?_
    have hmove := Move.expire (l := s.linkState) henabled.2
    have hpending : (s.posted ++ [Handler.timeoutReconnect]).filter Handler.begins =
        s.linkState.pending ++ [.timeoutReconnect] := List.filter_append _ _
    rw [← hpending] at hmove
    exact hmove
  | pingExpired =>
    obtain ⟨c, hcall, rfl⟩ := step_ok h
    have hpending : (s.posted ++ [Handler.timeoutPing]).filter Handler.begins = s.linkState.pending := by
      rw [List.filter_append]
      exact List.append_nil _
    have hbegin : (s.begin .pingExpired).linkState = s.linkState := by
      unfold linkState
      dsimp only [begin]
      rw [hpending]
      rfl
    refine moved_of_endsIn (endsIn_ok (.refl _) quiet_nil) hcall ?_
    change Move s.linkState none (s.begin .pingExpired).linkState
    rw [hbegin]
    exact .stay _
  | socketExpired nsp =>
    obtain ⟨c, hcall, rfl⟩ := step_ok h
    exact moved_of_endsIn (endsIn_socketTimeout nsp s.client) hcall (.stay _)
  | loopEnds =>
    obtain ⟨c, hcall, rfl⟩ := step_ok h
    refine moved_of_endsIn (endsIn_ok (.refl _) quiet_nil) hcall (.stop ?_)
    obtain ⟨-, hposted, hattempt, hlink, htimer, -⟩ := henabled
    exact ⟨by rw [linkState, hposted]; rfl, hattempt, hlink, by rw [linkState, htimer]; rfl⟩

end SioService

end UwavClient
