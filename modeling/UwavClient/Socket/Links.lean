import UwavClient.Socket.Service

/-!
# The rules of connections

Of the client and its service the state of the connection is kept: what the client thinks of it, what
websocketpp knows, and the handlers that lead to an attempt. Every step of the service is one of a few
moves of that state, and from them follows that there is never more than one connection.
-/

namespace UwavClient

def Handler.begins : Handler → Bool
  | .connectImpl _ | .timeoutReconnect => true
  | _ => false

/-- The state of the connection. `retrying` says that the reconnect timer is set, `pending` are the
handlers that may begin an attempt. -/
structure LinkState where
  conState : ConState
  con : Bool
  thread : Bool
  retrying : Bool
  made : ℕ
  attempts : ℕ
  abort : Bool
  pending : List Handler
  running : Bool
  attempt : Bool
  link : Bool

/-- The beginnings and the successes of attempts. -/
inductive Notice where
  | connecting
  | reconnecting
  | opened
  deriving DecidableEq, Repr

namespace LinkState

def MayRetry (l : LinkState) (retry : Bool) : Prop := retry → l.made < l.attempts ∧ l.abort = false

inductive Move : LinkState → Option Notice → LinkState → Prop where
  | stay (l : LinkState) : Move l none l
  | cancel (l : LinkState) : Move l none { l with retrying := false }
  | connect {l : LinkState} (uri : Text) (stopped : l.running = false) :
      Move l (some .connecting) { l with
        conState := .opening, thread := true, retrying := false, made := 0, abort := false,
        pending := l.pending ++ [.connectImpl uri], running := true }
  | close (l : LinkState) (retrying : Bool) (weaker : retrying → l.retrying) : Move l none { l with
      conState := .closing, abort := true, retrying }
  | join {l : LinkState} (stopped : l.running = false) : Move l none { l with thread := false }
  | begins {l : LinkState} {uri : Text} {rest : List Handler} (next : l.pending = .connectImpl uri :: rest)
      (attempt : Bool) : Move l none { l with pending := rest, attempt }
  | tooLate {l : LinkState} {rest : List Handler} (next : l.pending = .timeoutReconnect :: rest) :
      Move l none { l with pending := rest }
  | reconnect {l : LinkState} {rest : List Handler} (next : l.pending = .timeoutReconnect :: rest)
      (closed : l.conState = .closed) (attempt : Bool) :
      Move l (some .reconnecting) { l with
        pending := rest, conState := .opening, made := l.made + 1, attempt }
  | fail {l : LinkState} (attempting : l.attempt) (retry : Bool) (may : l.MayRetry retry)
      (still : l.conState ≠ .closing) : Move l none { l with
        attempt := false, con := false, conState := .closed, retrying := l.retrying || retry }
  | failClosing {l : LinkState} (attempting : l.attempt) (closing : l.conState = .closing) :
      Move l none { l with attempt := false, abort := true, retrying := false }
  | opens {l : LinkState} (attempting : l.attempt) (still : l.conState ≠ .closing) :
      Move l (some .opened) { l with
        attempt := false, link := true, con := true, conState := .opened, made := 0 }
  | opensClosing {l : LinkState} (attempting : l.attempt) (closing : l.conState = .closing) :
      Move l none { l with attempt := false, link := true, abort := true, retrying := false }
  | drop {l : LinkState} (linked : l.link) (retry : Bool) (may : l.MayRetry retry)
      (still : retry → l.conState ≠ .closing) : Move l none { l with
        link := false, con := false, conState := .closed, retrying := l.retrying || retry }
  | expire {l : LinkState} (retrying : l.retrying) : Move l none { l with
      retrying := false, pending := l.pending ++ [.timeoutReconnect] }
  | stop {l : LinkState} (idle : l.pending = [] ∧ l.attempt = false ∧ l.link = false ∧
      l.retrying = false) : Move l none { l with running := false }

/-- How many connections there are or may come to be. -/
def activity (l : LinkState) : ℕ :=
  l.pending.length + l.attempt.toNat + l.link.toNat + l.retrying.toNat

structure Invariant (l : LinkState) : Prop where
  one : l.activity ≤ 1
  stopped : l.running = false → l.activity = 0
  thread : l.thread = false → l.running = false
  con : l.con → l.link
  opened : l.conState = .opened → l.con
  /-- A connection that the client does not know was opened while it was closing. -/
  linked : l.link → l.con ∨ l.conState = .closing
  closed : l.conState = .closed → l.attempt = false ∧ l.link = false ∧
    ∀ h ∈ l.pending, h = .timeoutReconnect
  pending : ∀ h ∈ l.pending, h.begins
  made_le : l.made ≤ l.attempts
  retries : l.retrying ∨ .timeoutReconnect ∈ l.pending → l.made < l.attempts
  closing : l.conState = .closing → l.abort
  abort : l.abort → l.conState = .closing ∨
    l.conState = .closed ∧ l.retrying = false ∧ l.pending = []

/-! ## One connection at most -/

variable {l l' : LinkState} {note : Option Notice}

theorem activity_eq_zero : l.activity = 0 ↔
    l.pending = [] ∧ l.attempt = false ∧ l.link = false ∧ l.retrying = false := by
  simp [activity, and_assoc]

theorem Invariant.of_attempt (h : l.Invariant) (hattempt : l.attempt) :
    l.pending = [] ∧ l.link = false ∧ l.retrying = false := by
  have hone := h.one
  rw [activity, hattempt, Bool.toNat_true] at hone
  have hzero : l.pending.length = 0 ∧ l.link.toNat = 0 ∧ l.retrying.toNat = 0 := by omega
  simpa using hzero

theorem Invariant.of_link (h : l.Invariant) (hlink : l.link) :
    l.pending = [] ∧ l.attempt = false ∧ l.retrying = false := by
  have hone := h.one
  rw [activity, hlink, Bool.toNat_true] at hone
  have hzero : l.pending.length = 0 ∧ l.attempt.toNat = 0 ∧ l.retrying.toNat = 0 := by omega
  simpa using hzero

theorem Invariant.of_retrying (h : l.Invariant) (hretrying : l.retrying) :
    l.pending = [] ∧ l.attempt = false ∧ l.link = false := by
  have hone := h.one
  rw [activity, hretrying, Bool.toNat_true] at hone
  have hzero : l.pending.length = 0 ∧ l.attempt.toNat = 0 ∧ l.link.toNat = 0 := by omega
  simpa using hzero

theorem Invariant.of_pending (h : l.Invariant) {x : Handler} {rest : List Handler}
    (hpending : l.pending = x :: rest) :
    rest = [] ∧ l.attempt = false ∧ l.link = false ∧ l.retrying = false := by
  have hone := h.one
  rw [activity, hpending, List.length_cons] at hone
  have hzero : rest.length = 0 ∧ l.attempt.toNat = 0 ∧ l.link.toNat = 0 ∧ l.retrying.toNat = 0 := by
    omega
  simpa using hzero

theorem Invariant.running_of_activity (h : l.Invariant) (hactive : l.activity ≠ 0) : l.running = true :=
  (Bool.eq_false_or_eq_true l.running).resolve_right fun hstopped => hactive (h.stopped hstopped)

/-- Without a reconnect timer nothing else changes. -/
theorem Invariant.cancel (h : l.Invariant) {retrying : Bool} (weaker : retrying → l.retrying) :
    Invariant { l with retrying } := by
  have hle : activity { l with retrying } ≤ l.activity := by
    have hbit : retrying.toNat ≤ l.retrying.toNat := by
      cases retrying with
      | false => exact Nat.zero_le _
      | true => exact (congrArg Bool.toNat (weaker rfl)).ge
    exact Nat.add_le_add_left hbit _
  exact { h with
    one := hle.trans h.one
    stopped := fun hstopped => Nat.le_zero.mp (hle.trans (h.stopped hstopped).le)
    retries := fun hretry => h.retries (hretry.imp_left weaker)
    abort := fun habort => (h.abort habort).imp_right fun ⟨hclosed, hnone, hpending⟩ =>
      ⟨hclosed, Bool.eq_false_iff.mpr fun hr => Bool.false_ne_true (hnone.symm.trans (weaker hr)), hpending⟩ }

theorem Invariant.close (h : l.Invariant) : Invariant { l with conState := .closing, abort := true } :=
  { h with
    opened := fun hopened => ConState.noConfusion hopened
    linked := fun _ => .inr rfl
    closed := fun hclosed => ConState.noConfusion hclosed
    closing := fun _ => rfl
    abort := fun _ => .inl rfl }

theorem Invariant.connect (h : l.Invariant) (uri : Text) (stopped : l.running = false) :
    Invariant { l with
      conState := .opening, thread := true, retrying := false, made := 0, abort := false,
      pending := l.pending ++ [.connectImpl uri], running := true } := by
  obtain ⟨hnone, hattempt, hlink, -⟩ := activity_eq_zero.mp (h.stopped stopped)
  have hlone : ∀ x ∈ l.pending ++ [Handler.connectImpl uri], x = .connectImpl uri := by simp [hnone]
  constructor
  · simp [activity, hnone, hattempt, hlink]
  · exact fun hstopped => absurd hstopped.symm Bool.false_ne_true
  · exact fun hthread => absurd hthread.symm Bool.false_ne_true
  · exact h.con
  · exact fun hopened => ConState.noConfusion hopened
  · exact fun hlinked => absurd (hlink.symm.trans hlinked) Bool.false_ne_true
  · exact fun hclosed => ConState.noConfusion hclosed
  · exact fun x hx => (hlone x hx).symm ▸ rfl
  · exact Nat.zero_le _
  · rintro (hretrying | hmem)
    · exact absurd hretrying Bool.false_ne_true
    · cases hlone _ hmem
  · exact fun hclosing => ConState.noConfusion hclosing
  · exact fun habort => absurd habort Bool.false_ne_true

/-- The only handler that may begin an attempt has run. -/
theorem Invariant.begins (h : l.Invariant) {x : Handler} {rest : List Handler} (next : l.pending = x :: rest)
    (attempt : Bool) (hclosed : l.conState = .closed → attempt = false) :
    Invariant { l with pending := rest, attempt } := by
  obtain ⟨rfl, hattempt, hlink, hretrying⟩ := h.of_pending next
  have hrunning : l.running = true :=
    h.running_of_activity fun hzero => List.cons_ne_nil _ _ (next.symm.trans (activity_eq_zero.mp hzero).1)
  have hactivity : activity { l with pending := [], attempt } = attempt.toNat := by
    simp [activity, hlink, hretrying]
  exact { h with
    one := hactivity.le.trans attempt.toNat_le
    stopped := fun hstopped => absurd (hstopped.symm.trans hrunning) Bool.false_ne_true
    closed := fun hc => ⟨hclosed hc, hlink, fun _ hx => absurd hx List.not_mem_nil⟩
    pending := fun _ hx => absurd hx List.not_mem_nil
    retries := fun hretry => h.retries (hretry.imp_right fun hmem => absurd hmem List.not_mem_nil)
    abort := fun habort => (h.abort habort).imp_right fun ⟨hc, hnone, _⟩ => ⟨hc, hnone, rfl⟩ }

/-- The client tries again: it was not told to stop, and it had an attempt left. -/
theorem Invariant.reconnect (h : l.Invariant) {rest : List Handler}
    (next : l.pending = .timeoutReconnect :: rest) (closed : l.conState = .closed) (attempt : Bool) :
    Invariant { l with pending := rest, conState := .opening, made := l.made + 1, attempt } := by
  have hlast : .timeoutReconnect ∈ l.pending := next ▸ List.mem_cons_self
  obtain ⟨rfl, -, hlink, hretrying⟩ := h.of_pending next
  have hrunning : l.running = true :=
    h.running_of_activity fun hzero => List.cons_ne_nil _ _ (next.symm.trans (activity_eq_zero.mp hzero).1)
  have hactivity : activity { l with pending := [], conState := .opening, made := l.made + 1, attempt } =
      attempt.toNat := by
    simp [activity, hlink, hretrying]
  exact { h with
    one := hactivity.le.trans attempt.toNat_le
    stopped := fun hstopped => absurd (hstopped.symm.trans hrunning) Bool.false_ne_true
    opened := fun hopened => ConState.noConfusion hopened
    linked := fun hlinked => absurd (hlink.symm.trans hlinked) Bool.false_ne_true
    closed := fun hclosed => ConState.noConfusion hclosed
    pending := fun _ hx => absurd hx List.not_mem_nil
    made_le := h.retries (.inr hlast)
    retries := fun hretry => hretry.elim (fun hr => absurd (hretrying.symm.trans hr) Bool.false_ne_true)
      fun hmem => absurd hmem List.not_mem_nil
    closing := fun hclosing => ConState.noConfusion hclosing
    abort := fun habort => (h.abort habort).elim (fun hc => absurd (closed.symm.trans hc) (by decide))
      fun ⟨_, _, hnone⟩ => absurd (next.symm.trans hnone) (List.cons_ne_nil _ _) }

/-- The attempt failed, or the connection is gone. -/
theorem Invariant.lose (h : l.Invariant) (hactive : l.attempt ∨ l.link) {retry : Bool}
    (may : l.MayRetry retry) : Invariant { l with
      attempt := false, link := false, con := false, conState := .closed,
      retrying := l.retrying || retry } := by
  have hnone : l.pending = [] ∧ l.retrying = false := by
    rcases hactive with hattempt | hlink
    · exact ⟨(h.of_attempt hattempt).1, (h.of_attempt hattempt).2.2⟩
    · exact ⟨(h.of_link hlink).1, (h.of_link hlink).2.2⟩
  obtain ⟨hpending, hretrying⟩ := hnone
  have hrunning : l.running = true := h.running_of_activity fun hzero => by
    obtain ⟨-, hattempt, hlink, -⟩ := activity_eq_zero.mp hzero
    exact hactive.elim (fun ha => Bool.false_ne_true (hattempt.symm.trans ha))
      fun hl => Bool.false_ne_true (hlink.symm.trans hl)
  have hretry : (l.retrying || retry) = retry := by rw [hretrying, Bool.false_or]
  constructor
  · simpa [activity, hpending, hretrying] using retry.toNat_le
  · exact fun hstopped => absurd (hstopped.symm.trans hrunning) Bool.false_ne_true
  · exact h.thread
  · exact fun hcon => absurd hcon Bool.false_ne_true
  · exact fun hopened => ConState.noConfusion hopened
  · exact fun hlinked => absurd hlinked Bool.false_ne_true
  · refine fun _ => ⟨rfl, rfl, fun x hx => ?_⟩
    exact absurd (hpending ▸ hx) List.not_mem_nil
  · exact h.pending
  · exact h.made_le
  · rintro (hr | hmem)
    · exact (may (hretry.symm.trans hr)).1
    · exact absurd (hpending ▸ hmem) List.not_mem_nil
  · exact fun hclosing => ConState.noConfusion hclosing
  · refine fun habort => .inr ⟨rfl, Bool.eq_false_iff.mpr fun hr => ?_, hpending⟩
    exact Bool.false_ne_true ((may (hretry.symm.trans hr)).2.symm.trans habort)

theorem Invariant.opens (h : l.Invariant) (attempting : l.attempt) (still : l.conState ≠ .closing) :
    Invariant { l with attempt := false, link := true, con := true, conState := .opened, made := 0 } := by
  obtain ⟨hpending, -, hretrying⟩ := h.of_attempt attempting
  have hrunning : l.running = true := h.running_of_activity fun hzero =>
    Bool.false_ne_true ((activity_eq_zero.mp hzero).2.1.symm.trans attempting)
  exact { h with
    one := by simp [activity, hpending, hretrying]
    stopped := fun hstopped => absurd (hstopped.symm.trans hrunning) Bool.false_ne_true
    con := fun _ => rfl
    opened := fun _ => rfl
    linked := fun _ => .inl rfl
    closed := fun hclosed => ConState.noConfusion hclosed
    made_le := Nat.zero_le _
    retries := fun hretry => Nat.zero_lt_of_lt (h.retries hretry)
    closing := fun hclosing => ConState.noConfusion hclosing
    abort := fun habort => (h.abort habort).elim (fun hc => absurd hc still) fun ⟨hclosed, _, _⟩ =>
      absurd ((h.closed hclosed).1.symm.trans attempting) Bool.false_ne_true }

/-- An attempt ends while the client is closing. -/
theorem Invariant.endsClosing (h : l.Invariant) (attempting : l.attempt) (closing : l.conState = .closing)
    (link : Bool) :
    Invariant { l with attempt := false, link, abort := true, retrying := false } := by
  obtain ⟨hpending, hlink, -⟩ := h.of_attempt attempting
  have hrunning : l.running = true := h.running_of_activity fun hzero =>
    Bool.false_ne_true ((activity_eq_zero.mp hzero).2.1.symm.trans attempting)
  have hactivity : activity { l with attempt := false, link, abort := true, retrying := false } =
      link.toNat := by
    simp [activity, hpending]
  exact { h with
    one := hactivity.le.trans link.toNat_le
    stopped := fun hstopped => absurd (hstopped.symm.trans hrunning) Bool.false_ne_true
    con := fun hcon => absurd (hlink.symm.trans (h.con hcon)) Bool.false_ne_true
    linked := fun _ => .inr closing
    closed := fun hclosed => absurd (closing.symm.trans hclosed) (by decide)
    retries := fun hretry => h.retries (.inr (hretry.resolve_left Bool.false_ne_true))
    closing := fun _ => rfl
    abort := fun _ => .inl closing }

theorem Invariant.expire (h : l.Invariant) (retrying : l.retrying) : Invariant { l with
    retrying := false, pending := l.pending ++ [.timeoutReconnect] } := by
  obtain ⟨hpending, hattempt, hlink⟩ := h.of_retrying retrying
  have hrunning : l.running = true := h.running_of_activity fun hzero =>
    Bool.false_ne_true ((activity_eq_zero.mp hzero).2.2.2.symm.trans retrying)
  have hlone : ∀ x ∈ l.pending ++ [Handler.timeoutReconnect], x = .timeoutReconnect := by simp [hpending]
  exact { h with
    one := by simp [activity, hpending, hattempt, hlink]
    stopped := fun hstopped => absurd (hstopped.symm.trans hrunning) Bool.false_ne_true
    closed := fun _ => ⟨hattempt, hlink, hlone⟩
    pending := fun x hx => (hlone x hx).symm ▸ rfl
    retries := fun _ => h.retries (.inl retrying)
    abort := fun habort => .inl ((h.abort habort).resolve_right fun ⟨_, hnone, _⟩ =>
      Bool.false_ne_true (hnone.symm.trans retrying)) }

theorem Invariant.stop (h : l.Invariant) (idle : l.activity = 0) : Invariant { l with running := false } :=
  { h with
    stopped := fun _ => idle
    thread := fun _ => rfl }

theorem Invariant.join (h : l.Invariant) (stopped : l.running = false) :
    Invariant { l with thread := false } :=
  { h with thread := fun _ => stopped }

/-- Every move keeps the rules. -/
theorem Invariant.move (h : l.Invariant) (hmove : Move l note l') : l'.Invariant := by
  cases hmove with
  | stay => exact h
  | cancel => exact h.cancel fun hr => absurd hr Bool.false_ne_true
  | connect uri stopped => exact h.connect uri stopped
  | close retrying weaker => exact (h.cancel weaker).close
  | join stopped => exact h.join stopped
  | @begins uri rest next attempt =>
    refine h.begins next attempt fun hclosed => ?_
    cases (h.closed hclosed).2.2 (.connectImpl uri) (next ▸ List.mem_cons_self)
  | tooLate next => exact h.begins next l.attempt fun _ => (h.of_pending next).2.1
  | reconnect next closed attempt => exact h.reconnect next closed attempt
  | fail attempting retry may still =>
    have hlink := (h.of_attempt attempting).2.1
    have hlost := h.lose (.inl attempting) may
    rw [hlink]
    exact hlost
  | failClosing attempting closing => exact h.endsClosing attempting closing l.link
  | opens attempting still => exact h.opens attempting still
  | opensClosing attempting closing => exact h.endsClosing attempting closing true
  | drop linked retry may still =>
    have hattempt := (h.of_link linked).2.1
    have hlost := h.lose (.inr linked) may
    rw [hattempt]
    exact hlost
  | expire retrying => exact h.expire retrying
  | stop idle => exact h.stop (activity_eq_zero.mpr idle)

end LinkState

end UwavClient
