import UwavClient.Socket.Delivery
import UwavClient.Socket.Refinement

/-!
# What runs of the service show

There is never more than one connection, attempts to reconnect are counted, and none follows a
`close`. Two states the client cannot leave by itself: a connection that opens while it is closing is
kept open, and after an address that websocketpp rejects `connect` does nothing.
-/

namespace UwavClient

open Json (DoubleCodec)

/-- How many attempts to reconnect came last. -/
def streak (notices : List Notice) : ℕ := (notices.reverse.takeWhile (· = .reconnecting)).length

namespace LinkState

variable {l l' : LinkState} {note : Option Notice}

theorem Move.streak {notices : List Notice} (h : Move l note l') (hmade : l.made = streak notices) :
    l'.made = UwavClient.streak (notices ++ note.toList) := by
  cases h <;> simp [UwavClient.streak] at hmade ⊢ <;> omega

theorem Move.attempts (h : Move l note l') : l'.attempts = l.attempts := by
  cases h <;> rfl

/-- A client that gave up says nothing of attempts, unless it is to connect again. -/
theorem Move.after_abort (h : Move l note l') (hl : l.Invariant) (habort : l.abort)
    (hnote : note ≠ some .connecting) : note = none ∧ l'.abort := by
  have hdone := hl.abort habort
  cases h with
  | connect => exact absurd rfl hnote
  | reconnect next closed =>
    rcases hdone with hclosing | ⟨-, -, hpending⟩
    · exact absurd (closed.symm.trans hclosing) (by decide)
    · exact absurd (next.symm.trans hpending) (List.cons_ne_nil _ _)
  | opens attempting still =>
    rcases hdone with hclosing | ⟨hclosed, -, -⟩
    · exact absurd hclosing still
    · exact absurd ((hl.closed hclosed).1.symm.trans attempting) Bool.false_ne_true
  | close | failClosing | opensClosing => exact ⟨rfl, rfl⟩
  | _ => exact ⟨rfl, habort⟩

/-- A connection that the client does not know stays as it is until it is dropped. -/
theorem Move.abandoned (h : Move l note l') (hl : l.Invariant) (hlink : l.link) (hcon : l.con = false)
    (hkept : l'.link) : l' = l := by
  obtain ⟨hpending, hattempt, hretrying⟩ := hl.of_link hlink
  have hclosing : l.conState = .closing :=
    (hl.linked hlink).resolve_left fun hc => Bool.false_ne_true (hcon.symm.trans hc)
  have habort := hl.closing hclosing
  have hrunning : l.running = true := by
    refine (Bool.eq_false_or_eq_true l.running).resolve_right fun hstopped => ?_
    have hzero := (activity_eq_zero.mp (hl.stopped hstopped)).2.2.1
    exact Bool.false_ne_true (hzero.symm.trans hlink)
  cases h with
  | stay => rfl
  | cancel => rw [← hretrying]
  | close retrying weaker =>
    have hoff : retrying = l.retrying := by
      rw [hretrying]
      exact Bool.eq_false_iff.mpr fun h => Bool.false_ne_true (hretrying.symm.trans (weaker h))
    rw [← hclosing, ← habort, hoff]
  | connect uri stopped | join stopped => exact absurd (stopped.symm.trans hrunning) Bool.false_ne_true
  | begins next | tooLate next | reconnect next =>
    exact absurd (next.symm.trans hpending) (List.cons_ne_nil _ _)
  | fail attempting | failClosing attempting | opens attempting | opensClosing attempting =>
    exact absurd (hattempt.symm.trans attempting) Bool.false_ne_true
  | drop => exact absurd hkept Bool.false_ne_true
  | expire retrying => exact absurd (hretrying.symm.trans retrying) Bool.false_ne_true
  | stop idle => exact absurd (idle.2.2.1.symm.trans hlink) Bool.false_ne_true

end LinkState

namespace SioService

variable (w : DoubleCodec UInt64) (validUri : Text → Bool)

def record (e : ServiceEvent) (r : SioService × List ClientCall) :
    Except Crash (SioService × List ClientCall) :=
  (step w validUri e r.1).map fun q => (q.1, r.2 ++ q.2)

/-- A run of allowed events, and the calls of its functions. -/
def Runs (allow : ServiceEvent → Prop) (s t : SioService) (calls : List ClientCall) : Prop :=
  Reached (record w validUri) (fun e r => allow e ∧ Enabled e r.1) (s, []) (t, calls)

/-- A client that has not been used, with any settings. -/
structure Fresh (s : SioService) : Prop where
  posted : s.posted = []
  running : s.running = false
  attempt : s.attempt = false
  link : s.link = false
  conState : s.client.conState = .closed
  con : s.client.con = false
  networkThread : s.client.networkThread = false
  reconnTimer : s.client.reconnTimer = none
  reconnMade : s.client.reconnMade = 0
  abortRetries : s.client.abortRetries = false

variable {w validUri} {s t u : SioService} {calls more : List ClientCall} {allow : ServiceEvent → Prop}

theorem Fresh.invariant (h : s.Fresh) : s.linkState.Invariant := by
  obtain ⟨hposted, hrunning, hattempt, hlink, hconState, hcon, hthread, htimer, hmade, habort⟩ := h
  have hpending : s.linkState.pending = [] := by rw [linkState, hposted]; rfl
  have hretrying : s.linkState.retrying = false := by rw [linkState, htimer]; rfl
  have hzero : s.linkState.activity = 0 :=
    LinkState.activity_eq_zero.mpr ⟨hpending, hattempt, hlink, hretrying⟩
  constructor
  · exact hzero.le.trans (Nat.zero_le 1)
  · exact fun _ => hzero
  · exact fun _ => hrunning
  · exact fun h => absurd (hcon.symm.trans h) Bool.false_ne_true
  · exact fun h => absurd (hconState.symm.trans h) (by decide)
  · exact fun h => absurd (hlink.symm.trans h) Bool.false_ne_true
  · refine fun _ => ⟨hattempt, hlink, ?_⟩
    rw [hpending]
    exact List.forall_mem_nil _
  · rw [hpending]
    exact List.forall_mem_nil _
  · exact hmade.le.trans (Nat.zero_le _)
  · rintro (h | h)
    · exact absurd (hretrying.symm.trans h) Bool.false_ne_true
    · rw [hpending] at h
      cases h
  · exact fun h => absurd (hconState.symm.trans h) (by decide)
  · exact fun h => absurd (habort.symm.trans h) Bool.false_ne_true

/-- What every step of a run keeps holds at its end. -/
theorem Runs.invariant (run : Runs w validUri allow s t calls) (inv : SioService → List ClientCall → Prop)
    (hinit : inv s []) (hstep : ∀ {e s calls t more}, inv s calls → allow e → Enabled e s →
      step w validUri e s = .ok (t, more) → inv t (calls ++ more)) : inv t calls := by
  have hnext : ∀ {e r r'}, inv r.1 r.2 → allow e ∧ Enabled e r.1 → record w validUri e r = .ok r' →
      inv r'.1 r'.2 := by
    rintro e ⟨s, calls⟩ ⟨t, calls'⟩ h ⟨hallow, henabled⟩ hrecord
    unfold record at hrecord
    cases hstep' : step w validUri e s with
    | error e =>
      rw [hstep'] at hrecord
      cases hrecord
    | ok q =>
      rw [hstep'] at hrecord
      obtain ⟨rfl, rfl⟩ := Prod.mk.inj (Except.ok.inj hrecord)
      exact hstep h hallow henabled hstep'
  have hall : ∀ {r}, Reached (record w validUri) (fun e r => allow e ∧ Enabled e r.1) (s, []) r →
      inv r.1 r.2 := by
    intro r run
    induction run with
    | init => exact hinit
    | step _ hok hrecord ih => exact hnext ih hok hrecord
  exact hall run

theorem Runs.keeps (run : Runs w validUri allow s t calls) (hs : s.linkState.Invariant) :
    t.linkState.Invariant := by
  refine run.invariant (fun t _ => t.linkState.Invariant) hs fun h _ henabled hstep => ?_
  obtain ⟨⟨note, hmove, -⟩, -⟩ := moved_of_step henabled hstep
  exact h.move hmove

/-! ## At most one connection -/

/-- In every run there is at most one of these: a handler that is to begin an attempt, an attempt, a
connection, a reconnect timer. Only a connection opened during `close` is unknown to the client, and
data is sent, and a connection closed, only where there is one. -/
theorem one_connection (hs : s.Fresh) (run : Runs w validUri (fun _ => True) s t calls) :
    t.posted.countP Handler.begins + t.attempt.toNat + t.link.toNat +
        t.client.reconnTimer.isSome.toNat ≤ 1 ∧
      (t.link → t.client.con ∨ t.client.conState = .closing) ∧
      ∀ e u more, Enabled e t → step w validUri e t = .ok (u, more) →
        ∀ x ∈ more, x.OnLink → u.link := by
  have ht := run.keeps hs.invariant
  refine ⟨?_, ht.linked, fun e u more henabled hstep x hx hlink => ?_⟩
  · have hone := ht.one
    rw [LinkState.activity, linkState, ← List.countP_eq_length_filter] at hone
    exact hone
  · obtain ⟨⟨note, hmove, -⟩, huses⟩ := moved_of_step henabled hstep
    have hu := ht.move hmove
    exact (huses x hx hlink).elim hu.con fun hopened => hu.con (hu.opened hopened)

/-- The run of these events, if they can happen. -/
def replay (w : DoubleCodec UInt64) (validUri : Text → Bool) :
    List ServiceEvent → SioService × List ClientCall → Option (SioService × List ClientCall)
  | [], r => some r
  | e :: events, r =>
    if Enabled e r.1 then
      match record w validUri e r with
      | .ok r => replay w validUri events r
      | .error _ => none
    else none

theorem reached_replay {r r' : SioService × List ClientCall} {r₀ : SioService × List ClientCall}
    (events : List ServiceEvent) (hall : ∀ e ∈ events, allow e) (h : replay w validUri events r = some r')
    (run : Reached (record w validUri) (fun e r => allow e ∧ Enabled e r.1) r₀ r) :
    Reached (record w validUri) (fun e r => allow e ∧ Enabled e r.1) r₀ r' := by
  induction events generalizing r with
  | nil =>
    obtain rfl := Option.some.inj h
    exact run
  | cons e events ih =>
    rw [replay] at h
    split at h
    · rename_i henabled
      split at h
      · rename_i hrecord
        exact ih (fun d hd => hall d (List.mem_cons_of_mem _ hd)) h
          (run.step ⟨hall e List.mem_cons_self, henabled⟩ hrecord)
      · cases h
    · cases h

theorem runs_of_replay (events : List ServiceEvent) (hall : ∀ e ∈ events, allow e)
    (h : replay w validUri events (s, []) = some (t, calls)) : Runs w validUri allow s t calls :=
  reached_replay events hall h .init

def launched : SioService := {}

theorem fresh_launched : launched.Fresh := ⟨rfl, rfl, rfl, rfl, rfl, rfl, rfl, rfl, rfl, rfl⟩

def attempting : SioService where
  client := { conState := .opening, networkThread := true, baseUrl := ['u'] }
  running := true
  attempt := true

theorem runs_attempting : Runs halfCodec (fun _ => true) (fun _ => True) launched attempting
    [.dispatch (.connectImpl ['u']), .connect ['u']] :=
  runs_of_replay [.connect ['u'] .nullptr, .handler] (fun _ _ => trivial) rfl

theorem one_connection_attempting :
    attempting.posted.countP Handler.begins + attempting.attempt.toNat + attempting.link.toNat +
        attempting.client.reconnTimer.isSome.toNat ≤ 1 ∧
      (attempting.link → attempting.client.con ∨ attempting.client.conState = .closing) ∧
      ∀ e u more, Enabled e attempting → step halfCodec (fun _ => true) e attempting = .ok (u, more) →
        ∀ x ∈ more, x.OnLink → u.link :=
  one_connection fresh_launched runs_attempting

/-! ## Reconnecting -/

/-- In every run, the attempts to reconnect since the last `connect` or the last success are counted by
`m_reconn_made`, and there are never more than allowed. -/
theorem reconnecting_bounded (hs : s.Fresh) (run : Runs w validUri (fun _ => True) s t calls) :
    streak (calls.filterMap ClientCall.notice) = t.client.reconnMade ∧
      t.client.reconnMade ≤ s.client.reconnAttempts := by
  have hcount : t.linkState.made = streak (calls.filterMap ClientCall.notice) ∧
      t.linkState.attempts = s.linkState.attempts := by
    refine run.invariant (fun t calls => t.linkState.made = streak (calls.filterMap ClientCall.notice) ∧
      t.linkState.attempts = s.linkState.attempts) ⟨hs.reconnMade, rfl⟩ ?_
    rintro e s' calls t more ⟨hmade, hattempts⟩ - henabled hstep
    obtain ⟨⟨note, hmove, hnotice⟩, -⟩ := moved_of_step henabled hstep
    rw [List.filterMap_append, hnotice]
    exact ⟨hmove.streak hmade, hmove.attempts.trans hattempts⟩
  refine ⟨hcount.1.symm, ?_⟩
  have hle := (run.keeps hs.invariant).made_le
  rw [hcount.2] at hle
  exact hle

def reattempting : SioService :=
  { attempting with client := { attempting.client with reconnMade := 1 } }

theorem runs_reattempting : Runs halfCodec (fun _ => true) (fun _ => True) launched reattempting
    [.dispatch (.connectImpl ['u']), .connect ['u'], .reconnecting, .connect ['u']] :=
  runs_of_replay [.connect ['u'] .nullptr, .handler, .failed, .reconnectExpired, .handler]
    (fun _ _ => trivial) rfl

theorem reconnecting_bounded_reattempting :
    streak ([.dispatch (.connectImpl ['u']), .connect ['u'], .reconnecting,
        .connect ['u']].filterMap ClientCall.notice) = reattempting.client.reconnMade ∧
      reattempting.client.reconnMade ≤ launched.client.reconnAttempts :=
  reconnecting_bounded fresh_launched runs_reattempting

/-! ## After `close` -/

structure Aborted (s : SioService) : Prop where
  invariant : s.linkState.Invariant
  abort : s.client.abortRetries

theorem aborted_of_close (hs : s.Fresh) (run : Runs w validUri (fun _ => True) s t calls)
    (hclose : step w validUri .close t = .ok (u, more)) : u.Aborted := by
  obtain ⟨⟨note, hmove, -⟩, -⟩ := moved_of_step (e := .close) trivial hclose
  refine ⟨(run.keeps hs.invariant).move hmove, ?_⟩
  obtain ⟨c, hcall, rfl⟩ := step_ok hclose
  exact (endsIn_close t.client c more hcall).1.abort

theorem Aborted.step {e : ServiceEvent} (hs : s.Aborted) (henabled : Enabled e s)
    (h : step w validUri e s = .ok (t, calls)) (hconnect : .connecting ∉ calls.filterMap ClientCall.notice) :
    t.Aborted ∧ calls.filterMap ClientCall.notice = [] := by
  obtain ⟨⟨note, hmove, hnotice⟩, -⟩ := moved_of_step henabled h
  rw [hnotice] at hconnect ⊢
  obtain ⟨rfl, habort⟩ := hmove.after_abort hs.invariant hs.abort fun h =>
    hconnect (h ▸ List.mem_singleton_self _)
  exact ⟨⟨hs.invariant.move hmove, habort⟩, rfl⟩

/-- What the steps of a client that was told to stop keep, as long as it does not connect again. -/
theorem Aborted.run (hu : u.Aborted) (inv : List ClientCall → Prop) (hinit : inv [])
    (hstep : ∀ {e s calls t more}, Aborted s → inv calls → Enabled e s →
      SioService.step w validUri e s = .ok (t, more) → more.filterMap ClientCall.notice = [] →
      inv (calls ++ more)) {v : SioService} (later : Runs w validUri (fun _ => True) u v more)
    (hconnect : .connecting ∉ more.filterMap ClientCall.notice) : v.Aborted ∧ inv more := by
  refine later.invariant (fun v more => .connecting ∉ more.filterMap ClientCall.notice →
    v.Aborted ∧ inv more) (fun _ => ⟨hu, hinit⟩) ?_ hconnect
  intro e v more v' next hkept _ henabled hnext hnone
  rw [List.filterMap_append, List.mem_append, not_or] at hnone
  obtain ⟨hv, hmore⟩ := hkept hnone.1
  obtain ⟨hv', hnotice⟩ := hv.step henabled hnext hnone.2
  exact ⟨hv', hstep hv hmore henabled hnext hnotice⟩

/-- Once `close` has been called in any run, no run that follows tries to reconnect or reports a
connection, unless `connect` begins again. -/
theorem no_attempt_after_close (hs : s.Fresh) (run : Runs w validUri (fun _ => True) s t calls)
    {closing : List ClientCall} (hclose : step w validUri .close t = .ok (u, closing))
    {v : SioService} (later : Runs w validUri (fun _ => True) u v more)
    (hconnect : .connecting ∉ more.filterMap ClientCall.notice) :
    more.filterMap ClientCall.notice = [] ∧
      (v.client.conState = .closing ∨
        v.client.conState = .closed ∧ v.client.reconnTimer = none ∧ v.attempt = false ∧ v.link = false) := by
  obtain ⟨⟨hv, habort⟩, hnone⟩ := (aborted_of_close hs run hclose).run
    (fun more => more.filterMap ClientCall.notice = []) rfl
    (fun _ hmore _ _ hnext => by rw [List.filterMap_append, hmore, hnext]; rfl) later hconnect
  refine ⟨hnone, (hv.abort habort).imp_right fun ⟨hclosed, hretrying, _⟩ => ?_⟩
  have htimer : v.client.reconnTimer = none := by simpa [linkState] using hretrying
  exact ⟨hclosed, htimer, (hv.closed hclosed).1, (hv.closed hclosed).2.1⟩

/-- `close` has been called during the attempt. -/
def leaving : SioService :=
  { attempting with
    client := { attempting.client with conState := .closing, abortRetries := true }
    posted := [.closeImpl .normal] }

def abandoned : SioService := { leaving with posted := [], attempt := false, link := true }

theorem runs_abandoned : Runs halfCodec (fun _ => true) (fun _ => True) leaving abandoned [] :=
  runs_of_replay [.handler, .opened] (fun _ _ => trivial) rfl

theorem no_attempt_after_close_abandoned : ([] : List ClientCall).filterMap ClientCall.notice = [] ∧
    (abandoned.client.conState = .closing ∨ abandoned.client.conState = .closed ∧
      abandoned.client.reconnTimer = none ∧ abandoned.attempt = false ∧ abandoned.link = false) :=
  no_attempt_after_close fresh_launched runs_attempting (u := leaving) rfl runs_abandoned List.not_mem_nil

/-! ## A connection nobody closes -/

theorem link_of_step {e : ServiceEvent} (he : ∀ normal, e ≠ .closed normal)
    (h : step w validUri e s = .ok (t, calls)) (hlink : s.link) : t.link := by
  obtain ⟨c, -, rfl⟩ := step_ok h
  cases e with
  | connect uri auth =>
    have hbegin : (s.begin (.connect uri auth)).link = s.link := by
      rw [begin]
      split <;> rfl
    exact hbegin.trans hlink
  | opened => rfl
  | closed normal => exact absurd rfl (he normal)
  | _ => exact hlink

theorem ping_kills (hcon : s.client.con = false) (hwaiting : s.client.partialPacket = none) :
    step w validUri (.message ['2']) s = .error .exception := by
  have hput : PacketManager.putPayload w ['2'] none =
      .ok (none, some { Packet.ofFrame Packet.framePing with nsp := ['/'] }) := rfl
  have hpong : PacketManager.encode w (.ofFrame Packet.framePong) = .ok [(false, ['3'])] := rfl
  have hping : s.client.onMessage w ['2'] = .error .exception := by
    rw [SioClient.onMessage, hwaiting, hput]
    change ({ s.client with partialPacket := none } : SioClient).onPing w = _
    rw [SioClient.onPing, hpong]
    change (if !s.client.con then _ else _) = _
    rw [hcon]
    rfl
  have hcall : call w validUri (.message ['2']) s.posted (s.begin (.message ['2'])).client =
      .error .exception := hping
  rw [step, hcall]
  rfl

/-- A connection that opened during `close`: as long as the server keeps it, the client neither uses
nor closes it, whatever is called; `connect` waits for ever; and the next ping of the server is the end
of the program. -/
theorem abandoned_connection (hs : s.Fresh) (run : Runs w validUri (fun _ => True) s t calls)
    (hlink : t.link) (hcon : t.client.con = false)
    (later : Runs w validUri (fun e => ∀ normal, e ≠ .closed normal) t u more) :
    u.link ∧ u.client.con = false ∧ u.client.conState = .closing ∧ (∀ x ∈ more, ¬x.OnLink) ∧
      (∀ uri auth, ¬Enabled (.connect uri auth) u) ∧
      (u.client.partialPacket = none → step w validUri (.message ['2']) u = .error .exception) := by
  have ht := run.keeps hs.invariant
  have hkept : u.linkState = t.linkState ∧ ∀ x ∈ more, ¬x.OnLink := by
    refine later.invariant (fun u more => u.linkState = t.linkState ∧ ∀ x ∈ more, ¬x.OnLink)
      ⟨rfl, List.forall_mem_nil _⟩ ?_
    rintro e u more u' next ⟨hsame, hunused⟩ he henabled hstep
    obtain ⟨⟨note, hmove, -⟩, huses⟩ := moved_of_step henabled hstep
    have hu' : u'.linkState = t.linkState := by
      rw [hsame] at hmove
      refine hmove.abandoned ht hlink hcon (link_of_step he hstep ?_)
      exact (congrArg LinkState.link hsame).trans hlink
    refine ⟨hu', List.forall_mem_append.mpr ⟨hunused, fun x hx huse => ?_⟩⟩
    have hclosing : t.linkState.conState = .closing :=
      (ht.linked hlink).resolve_left fun hc => Bool.false_ne_true (hcon.symm.trans hc)
    rcases huses x hx huse with hc | hc
    · have hfalse := (congrArg LinkState.con hu').symm.trans hc
      exact Bool.false_ne_true (hcon.symm.trans hfalse)
    · have hopened := (congrArg LinkState.conState hu').symm.trans hc
      exact absurd (hclosing.symm.trans hopened) (by decide)
  obtain ⟨hsame, hunused⟩ := hkept
  have hclosing : u.client.conState = .closing :=
    (congrArg LinkState.conState hsame).trans
      ((ht.linked hlink).resolve_left fun hc => Bool.false_ne_true (hcon.symm.trans hc))
  have hlink' : u.link = true := (congrArg LinkState.link hsame).trans hlink
  have hcon' : u.client.con = false := (congrArg LinkState.con hsame).trans hcon
  refine ⟨hlink', hcon', hclosing, hunused, fun uri auth henabled => ?_, ping_kills hcon'⟩
  rcases henabled with hreturns | hstopped
  · exact hreturns.2.1 hclosing
  · have hu : u.linkState.Invariant := hsame ▸ ht
    have hzero := (LinkState.activity_eq_zero.mp (hu.stopped hstopped)).2.2.1
    exact Bool.false_ne_true (hzero.symm.trans hlink')

theorem runs_to_abandoned : Runs halfCodec (fun _ => true) (fun _ => True) launched abandoned
    [.dispatch (.connectImpl ['u']), .connect ['u'], .dispatch (.closeImpl .normal)] :=
  runs_of_replay [.connect ['u'] .nullptr, .handler, .close, .handler, .opened] (fun _ _ => trivial) rfl

theorem abandoned_connection_closed_again : ∃ u more,
    Runs halfCodec (fun _ => true) (fun e => ∀ normal, e ≠ .closed normal) abandoned u more ∧
      u.link ∧ u.client.con = false ∧ u.client.conState = .closing ∧ (∀ x ∈ more, ¬x.OnLink) ∧
      (∀ uri auth, ¬Enabled (.connect uri auth) u) ∧
      (u.client.partialPacket = none →
        step halfCodec (fun _ => true) (.message ['2']) u = .error .exception) :=
  have later : Runs halfCodec (fun _ => true) (fun e => ∀ normal, e ≠ .closed normal) abandoned abandoned
      [.dispatch (.closeImpl .normal)] :=
    runs_of_replay [.close, .handler] (by simp) rfl
  ⟨_, _, later, abandoned_connection fresh_launched runs_to_abandoned rfl rfl later⟩

/-! ## An address that cannot be used -/

/-- The loop of the network thread has ended with nothing achieved. -/
structure Wedged (s : SioService) : Prop where
  thread : s.client.networkThread
  opening : s.client.conState = .opening
  stopped : s.running = false
  attempt : s.attempt = false
  link : s.link = false

theorem Wedged.step {e : ServiceEvent} (hs : s.Wedged) (he : e ≠ .close ∧ e ≠ .joined)
    (henabled : Enabled e s) (h : step w validUri e s = .ok (t, calls)) :
    t.Wedged ∧ calls.filterMap ClientCall.notice = [] := by
  have hidle : ∀ {φ : Prop}, ¬(s.running ∧ φ) :=
    fun hrunning => Bool.false_ne_true (hs.stopped.symm.trans hrunning.1)
  have hsocket {e : ServiceEvent} (f : SioSocket → SioSocket × List SocketCall)
      (h : SioService.step w validUri e s = .ok (t, calls))
      (he : SioService.step w validUri e s = (withSocket w f s.client).map fun r => (s.accept r.2 r.1, r.2)) :
      t.Wedged ∧ calls.filterMap ClientCall.notice = [] := by
    cases hcall : withSocket w f s.client with
    | error e =>
      rw [he, hcall] at h
      cases h
    | ok r =>
      rw [he, hcall] at h
      obtain ⟨rfl, rfl⟩ := Prod.mk.inj (Except.ok.inj h)
      obtain ⟨hsame, hquiet⟩ := endsIn_withSocket f s.client r.1 r.2 hcall
      refine ⟨⟨hsame.thread.trans hs.thread, hsame.conState.trans hs.opening, hs.stopped, ?_, hs.link⟩,
        notices_of_quiet hquiet⟩
      exact (congrArg (s.attempt || ·) (begins_of_quiet hquiet)).trans ((Bool.or_false _).trans hs.attempt)
  cases e with
  | connect uri auth =>
    have hreturns : s.ConnectReturns := by
      refine ⟨hs.thread, ?_, ?_⟩ <;> rw [hs.opening] <;> decide
    obtain ⟨rfl, rfl⟩ := Prod.mk.inj (Except.ok.inj
      ((step_connect_of_returns uri auth hreturns).symm.trans h))
    exact ⟨⟨hs.thread, hs.opening, hs.stopped, (Bool.or_false _).trans hs.attempt, hs.link⟩, rfl⟩
  | emit name messages => exact hsocket _ h rfl
  | listener change => exact hsocket (fun t => (t.changeListener change, [])) h rfl
  | close => exact absurd rfl he.1
  | joined => exact absurd rfl he.2
  | _ => exact (hidle henabled).elim

/-- After an address that websocketpp rejects, when the network thread has nothing left to do: no run
without `close` makes a connection, however often `connect` is called and with whatever address. -/
theorem connect_wedged (hs : s.Fresh) (run : Runs w validUri (fun _ => True) s t calls)
    (hthread : t.client.networkThread) (hopening : t.client.conState = .opening)
    (hstopped : t.running = false)
    (later : Runs w validUri (fun e => e ≠ .close ∧ e ≠ .joined) t u more) :
    u.client.conState = .opening ∧ u.attempt = false ∧ u.link = false ∧
      more.filterMap ClientCall.notice = [] := by
  have hzero := LinkState.activity_eq_zero.mp ((run.keeps hs.invariant).stopped hstopped)
  have ht : t.Wedged := ⟨hthread, hopening, hstopped, hzero.2.1, hzero.2.2.1⟩
  have hu : u.Wedged ∧ more.filterMap ClientCall.notice = [] := by
    refine later.invariant (fun u more => u.Wedged ∧ more.filterMap ClientCall.notice = [])
      ⟨ht, rfl⟩ ?_
    rintro e u more u' next ⟨hu, hmore⟩ he henabled hstep
    obtain ⟨hu', hnext⟩ := hu.step he henabled hstep
    exact ⟨hu', by rw [List.filterMap_append, hmore, hnext]; rfl⟩
  exact ⟨hu.1.opening, hu.1.attempt, hu.1.link, hu.2⟩

/-- The network thread has ended after the only address it was given. -/
def rejected : SioService where
  client := { conState := .opening, networkThread := true, baseUrl := ['u'] }

theorem runs_rejected : Runs halfCodec (fun _ => false) (fun _ => True) launched rejected
    [.dispatch (.connectImpl ['u']), .failed] :=
  runs_of_replay [.connect ['u'] .nullptr, .handler, .loopEnds] (fun _ _ => trivial) rfl

theorem connect_wedged_rejected : ∃ u more,
    Runs halfCodec (fun _ => false) (fun e => e ≠ .close ∧ e ≠ .joined) rejected u more ∧
      u.client.conState = .opening ∧ u.attempt = false ∧ u.link = false ∧
      more.filterMap ClientCall.notice = [] :=
  have later : Runs halfCodec (fun _ => false) (fun e => e ≠ .close ∧ e ≠ .joined) rejected rejected [] :=
    runs_of_replay [.connect ['v'] .nullptr] (by simp) rfl
  ⟨_, _, later, connect_wedged fresh_launched runs_rejected rfl rfl rfl later⟩

end SioService

end UwavClient
