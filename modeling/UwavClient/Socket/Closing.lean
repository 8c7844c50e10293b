import UwavClient.Socket.Calls
import UwavClient.Socket.Events

/-!
# Nothing is sent after `close`

What is to be sent waits for the network thread, which sends it only while the connection is open;
`close` says that it is not before its own packets can be sent. So the server never gets the packets by
which `close` leaves the namespaces, nor anything that still waits.
-/

namespace UwavClient

open Json (DoubleCodec)

/-- A call that sends nothing but the answer to a ping. -/
def ClientCall.Silent : ClientCall → Prop
  | .transmit binary payload => binary = false ∧ payload = ['3']
  | _ => True

theorem allows_silent {c : SioClient} (hclosed : c.conState ≠ .opened) :
    Allows ClientCall.Silent c where
  other x _ hsend := by
    cases x with
    | transmit binary payload => exact absurd rfl (hsend binary payload)
    | _ => trivial
  send hopened := absurd hopened hclosed
  socket _ _ := trivial

namespace SioService

variable {w : DoubleCodec UInt64} {validUri : Text → Bool} {e : ServiceEvent} {s t u v : SioService}
  {calls more closing : List ClientCall}

theorem Aborted.not_opened (h : s.Aborted) : s.client.conState ≠ .opened := by
  rcases h.invariant.abort h.abort with hclosing | ⟨hclosed, -, -⟩
  · exact fun hopened => ConState.noConfusion (hclosing.symm.trans hopened)
  · exact fun hopened => ConState.noConfusion (hclosed.symm.trans hopened)

theorem Aborted.closing_of_attempt (h : s.Aborted) (hattempt : s.attempt) :
    s.client.conState = .closing := by
  refine (h.invariant.abort h.abort).resolve_right fun hdone => ?_
  exact Bool.false_ne_true ((h.invariant.closed hdone.1).1.symm.trans hattempt)

/-- A client that was told to stop sends nothing. -/
theorem silent_of_aborted (hs : s.Aborted) (henabled : Enabled e s)
    (h : step w validUri e s = .ok (t, calls)) : ∀ x ∈ calls, x.Silent := by
  have hP := allows_silent hs.not_opened
  by_cases he : ∀ payload, e ≠ .message payload
  · refine calls_of_step hP he (fun hopened hstill => ?_) h
    subst hopened
    exact absurd (hs.closing_of_attempt henabled.2) hstill
  · obtain ⟨payload, he⟩ := not_forall.mp he
    obtain rfl := not_not.mp he
    obtain ⟨c, hcall, -⟩ := step_ok h
    exact makes_onMessage hP ⟨rfl, rfl⟩ (fun _ => trivial) payload c calls hcall

/-- Whatever waits when `close` is called and whatever is emitted later, nothing is sent in a run that
follows but answers to pings, unless `connect` begins again. -/
theorem nothing_sent_after_close (hs : s.Fresh) (run : Runs w validUri (fun _ => True) s t calls)
    (hclose : step w validUri .close t = .ok (u, closing))
    (later : Runs w validUri (fun _ => True) u v more)
    (hconnect : .connecting ∉ more.filterMap ClientCall.notice) : ∀ x ∈ closing ++ more, x.Silent := by
  have hP : Allows ClientCall.Silent { t.client with conState := .closing } :=
    allows_silent fun hopened => ConState.noConfusion hopened
  have hfirst : ∀ x ∈ closing, x.Silent := by
    obtain ⟨c, hcall, -⟩ := step_ok hclose
    exact hP.close t.client c closing hcall
  have hlater : ∀ x ∈ more, x.Silent :=
    ((aborted_of_close hs run hclose).run (fun more => ∀ x ∈ more, x.Silent) makes_nil
      (fun haborted hcalls henabled hstep _ =>
        List.forall_mem_append.mpr ⟨hcalls, silent_of_aborted haborted henabled hstep⟩) later hconnect).2
  exact List.forall_mem_append.mpr ⟨hfirst, hlater⟩

def session : SioService where
  client :=
    { conState := .opened, con := true, networkThread := true, baseUrl := ['u'], sockets := [
        { listeningSocket with eventListener := false }] }
  running := true
  link := true

theorem runs_session : Runs halfCodec (fun _ => true) (fun _ => True) launched session
    [.dispatch (.connectImpl ['u']), .connect ['u'], .transmit false ['4', '0'], .opened,
      .socket (.socketOpened ['/'])] :=
  runs_of_replay [.connect ['u'] .nullptr, .handler, .opened, .message ['4', '0']] (fun _ _ => trivial) rfl

/-- `close` while the session lasts; its packet waits before the handler that closes. -/
def leavingSession : SioService :=
  { session with
    client := { session.client with
      conState := .closing
      abortRetries := true
      sockets := [{ listeningSocket with eventListener := false, connectionTimer := some .close }] }
    posted := [.sendImpl false ['4', '1'], .closeImpl .normal] }

theorem nothing_sent_after_close_session : ∃ v more,
    Runs halfCodec (fun _ => true) (fun _ => True) leavingSession v more ∧ .close .normal ∈ more ∧
      ∀ x ∈ [.dispatch (.sendImpl false ['4', '1']), .dispatch (.closeImpl .normal)] ++ more, x.Silent :=
  have later : Runs halfCodec (fun _ => true) (fun _ => True) leavingSession
      { leavingSession with posted := [] } [.close .normal] :=
    runs_of_replay [.handler, .handler] (fun _ _ => trivial) rfl
  ⟨_, _, later, List.mem_singleton_self _,
    nothing_sent_after_close fresh_launched runs_session rfl later List.not_mem_nil⟩

end SioService

end UwavClient
