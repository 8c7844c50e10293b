import UwavClient.Client.Phases
import UwavClient.Client.Session

/-!
# Stopping a conversion (`buttonStop`)

Between events, a conversion that is flagged as starting or started should leave the stop button
enabled and the start button disabled. `SET_PARAMS` enables the buttons of a fresh connection whatever
is running, a stream that starts sets a flag whatever the buttons say, and the handlers that disable
both buttons clear the flags only when they find a connected stream.
-/

namespace UwavClient

open Interleaving Slot ExceptT

variable {F : Type}

namespace Phase

def InSession (p : Phase) : Prop := p.serverStarting ∨ p.serverStarted

def OffersStop (p : Phase) : Prop := p.buttonStop ∧ p.buttonStart = false

def Stoppable (p : Phase) : Prop := p.InSession → p.OffersStop

variable {p q : Phase}

theorem not_inSession (hstarting : p.serverStarting = false) (hstarted : p.serverStarted = false) :
    ¬ p.InSession := by
  rintro (h | h)
  · exact Bool.noConfusion (hstarting.symm.trans h)
  · exact Bool.noConfusion (hstarted.symm.trans h)

theorem MayEnd.stoppable (h : p.MayEnd q) (hp : p.Stoppable) : q.Stoppable := by
  rcases h with rfl | rfl
  · exact hp
  · exact fun hq => absurd hq (not_inSession rfl rfl)

end Phase

/-! ## The history and the condition -/

def SioSignal.connectionTests : SioSignal → ℕ
  | .connectFail => 1
  | .connectClose => 2
  | .message name _ => if name = "SERVER_EXITING" then 2 else 0
  | _ => 0

def UiEvent.connectionTests (c : UwaVClient) : UiEvent → ℕ
  | .connectClicked _ => if c.connectRetryState then 1 else 0
  | _ => 0

/-- The signals that end a conversion as far as the user is concerned. -/
def SioSignal.endsConversion (c : UwaVClient) : SioSignal → Bool
  | .connectFail | .connectClose => true
  | .message name messages =>
    name = "SERVER_STOPPED" ∨ name = "SERVER_EXITING" ∨ name = "SET_PARAMS" ∧ SetsParams messages c
  | _ => false

def UiEvent.endsConversion (c : UwaVClient) : UiEvent → Bool
  | .stopClicked => true
  | .connectClicked _ => c.connectRetryState
  | _ => false

/-- How many times the slot that gives a connection up may still look at the output stream before the
flags that it leaves are final, and whether a conversion has been ended since the last one began, by
`StartAudio` or by the server. -/
structure StopHistory where
  tests : ℕ := 0
  ended : Bool := true
  deriving DecidableEq, Repr

namespace StopHistory

def onSio (c : UwaVClient) (s : SioSignal) (h : StopHistory) : StopHistory where
  tests := s.connectionTests
  ended := s.endsConversion c || h.ended && !s.startsSession

def onUi (c : UwaVClient) (e : UiEvent) (h : StopHistory) : StopHistory where
  tests := e.connectionTests c
  ended := e.endsConversion c || h.ended

end StopHistory

def stoppingObserver (may : Occurrence F → App → StopHistory → Prop) : AppObserver F StopHistory where
  may := may
  onStart
    | .posted _, _, h => { h with tests := 0 }
    | .sio s, app, h => h.onSio app.client s
    | .ui e, app, h => h.onUi app.client e
    | _, _, h => h
  onOp
    | .connected .output, _, h => { h with tests := h.tests - 1 }
    | .stopAudio, _, h => { h with tests := 0 }
    | .startAudio, _, h => { h with ended := false }
    | _, _, h => h
  onReturn h := { h with tests := 0 }

/-- Parameters arrive only while no conversion is flagged. -/
def ParamsBetweenSessions : Occurrence F → App → StopHistory → Prop
  | .sio (.message name messages), app, _ =>
    name = "SET_PARAMS" → SetsParams messages app.client → ¬ app.client.phase.InSession
  | _, _, _ => True

/-- The server is not asked to start for a signal that is left over from an ended conversion, and a
slot that gives up the connection of a flagged conversion finds a connected stream. -/
def NothingLeftOver : ClientOp → Observed StopHistory → Prop
  | .emit .serverStart, s => s.hist.ended = false
  | .connected .output, s =>
    s.hist.tests = 1 → s.app.client.phase.InSession → s.app.audio.output.connected
  | _, _ => True

/-! ## The slots -/

section Slots

variable (may : Occurrence F → App → StopHistory → Prop) {α : Type} {n : ℕ} {b : Bool}
  {c c₀ : UwaVClient} {s : Observed StopHistory}

abbrev StoppingSafe (p : Slot α) (Q : α → Observed StopHistory → Prop) (s : Observed StopHistory) :
    Prop :=
  SafeRaising (appHandler (stoppingObserver may)) (fun _ => True) (mainContract fun _ _ => True)
    NothingLeftOver p Q s

/-- Only `StartAudio` begins a conversion. -/
theorem ended_onOp {e : ClientOp} (he : e ≠ .startAudio) (app : App) (h : StopHistory) :
    ((stoppingObserver may).onOp e app h).ended = h.ended := by
  simp only [stoppingObserver]
  split
  · rfl
  · rfl
  · exact absurd rfl he
  · rfl

theorem stable_ended : Stable (fun _ => True) (mainContract fun _ _ => True)
    fun t : Observed StopHistory => t.hist.ended = b :=
  stable_hist fun h : StopHistory => h.ended = b

theorem stopping_ended {p : Slot α} {Q : α → Prop} (hp : p.Ensures (· ≠ .startAudio) Q)
    (hs : s.hist.ended = b) : StoppingSafe may p (fun a t => Q a ∧ t.hist.ended = b) s := by
  refine safeRaising_of_ensures stable_ended (fun e t he _ ht => ⟨trivial, fun _ => ?_⟩) hp trivial hs
  exact ⟨trivial, trivial, (ended_onOp may he t.app t.hist).trans ht⟩

/-- Operations that are no tests. -/
theorem stopping_of_ensures {p : Slot α} {Q : α → Prop}
    (hp : p.Ensures (fun e => e ≠ .connected .output ∧ e ≠ .stopAudio ∧ e ≠ .startAudio) Q)
    (hs : RunsOn c₀ ⟨n, b⟩ s) : StoppingSafe may p (fun a t => Q a ∧ RunsOn c₀ ⟨n, b⟩ t) s := by
  refine runsOn_of_ensures hp (fun e t he => ⟨trivial, ?_⟩) hs
  simp only [stoppingObserver]
  split
  · exact absurd rfl he.1
  · exact absurd rfl he.2.1
  · exact absurd rfl he.2.2
  · rfl

theorem stopping_connectedOutput (hs : RunsOn c₀ ⟨n, b⟩ s) :
    StoppingSafe may (connected .output) (fun r t => RunsOn c₀ ⟨n - 1, b⟩ t ∧
      (n = 1 → c₀.phase.InSession → r)) s := by
  refine safeRaising_lift stable_runsOn (fun r => stable_runsOn.and (stable_const _)) trivial hs
    fun t _ ht => ⟨trivial, fun ha => ⟨trivial, trivial, ⟨ht.1, ?_⟩, ?_⟩⟩
  · exact congrArg (fun h : StopHistory => { h with tests := h.tests - 1 }) ht.2
  · rintro rfl hc
    exact ha (congrArg StopHistory.tests ht.2) (ht.1 ▸ hc)

theorem stopping_stopAudio (hs : RunsOn c₀ ⟨n, b⟩ s) :
    StoppingSafe may stopAudio (fun _ => RunsOn c₀ ⟨0, b⟩) s := by
  refine safeRaising_lift stable_runsOn (fun _ => stable_runsOn) trivial hs fun t _ ht =>
    ⟨trivial, fun _ => ⟨trivial, trivial, ht.1, ?_⟩⟩
  exact congrArg (fun h : StopHistory => { h with tests := 0 }) ht.2

/-- Whether a stream is connected; if none is, the last test has been used. -/
theorem stopping_anyConnected (hs : RunsOn c₀ ⟨n, b⟩ s) :
    StoppingSafe may anyConnected (fun r t => if r then ∃ k, RunsOn c₀ ⟨k, b⟩ t else
      RunsOn c₀ ⟨n - 1, b⟩ t ∧ (n = 1 → ¬ c₀.phase.InSession)) s := by
  have hinput : StoppingSafe may (connected .input) (fun _ => RunsOn c₀ ⟨n, b⟩) s :=
    safeRaising_mono (stopping_of_ensures may (Q := fun _ => True) (by simp) hs) fun _ _ _ h => h.2
  refine safeRaising_bind trivial hinput fun r t _ ht => ?_
  cases r with
  | true => exact safeRaising_pure (stable_exists fun _ => stable_runsOn) trivial ⟨n, ht⟩
  | false =>
    refine safeRaising_mono (stopping_connectedOutput may ht) fun r t _ h => ?_
    cases r with
    | true => exact ⟨_, h.1⟩
    | false => exact ⟨h.1, fun hn hc => Bool.noConfusion (h.2 hn hc)⟩

/-- A slot that stops connected streams and then returns `c₁`, or else `c₂`. -/
theorem stopping_ifConnected (c₁ c₂ : UwaVClient) (hs : RunsOn c₀ ⟨n, b⟩ s) :
    StoppingSafe may (do if ← anyConnected then do { stopAudio; pure c₁ } else pure c₂)
      (fun c t => c = c₁ ∧ RunsOn c₀ ⟨0, b⟩ t ∨
        c = c₂ ∧ RunsOn c₀ ⟨n - 1, b⟩ t ∧ (n = 1 → ¬ c₀.phase.InSession)) s := by
  have hstable : ∀ c, Stable (fun _ => True) (mainContract fun _ _ => True)
      fun t : Observed StopHistory => c = c₁ ∧ RunsOn c₀ ⟨0, b⟩ t ∨
        c = c₂ ∧ RunsOn c₀ ⟨n - 1, b⟩ t ∧ (n = 1 → ¬ c₀.phase.InSession) := fun c =>
    ((stable_const _).and stable_runsOn).or
      ((stable_const _).and (stable_runsOn.and (stable_const _)))
  refine safeRaising_bind trivial (stopping_anyConnected may hs) fun r t _ ht => ?_
  cases r with
  | true =>
    obtain ⟨k, hk⟩ := ht
    refine safeRaising_bind trivial (stopping_stopAudio may hk) fun _ u _ hu => ?_
    exact safeRaising_pure (hstable c₁) trivial (.inl ⟨rfl, hu⟩)
  | false => exact safeRaising_pure (hstable c₂) trivial (.inr ⟨rfl, ht⟩)

theorem not_inSession_clearServerState (c : UwaVClient) : ¬ c.clearServerState.phase.InSession :=
  Phase.not_inSession rfl rfl

/-- No conversion is flagged any more, and whether the last one has ended is as it was. -/
def GivenUp (b : Bool) (c : UwaVClient) (t : Observed StopHistory) : Prop :=
  ¬ c.phase.InSession ∧ t.hist.ended = b

theorem stable_givenUp (c : UwaVClient) :
    Stable (fun _ => True) (mainContract fun _ _ => True) (GivenUp b c) :=
  (stable_const _).and stable_ended

/-- The connection is given up in the last test: no conversion is flagged any more. -/
theorem stopping_uiServerDisconnect (hlast : c.phase.InSession → n = 1 ∧ c₀.phase.InSession)
    (hs : RunsOn c₀ ⟨n, b⟩ s) : StoppingSafe may (uiServerDisconnect c) (GivenUp b) s := by
  have hquiet : ∀ {β : Type} {p : Slot β} {t},
      p.Ensures (fun e => e ≠ .connected .output ∧ e ≠ .stopAudio ∧ e ≠ .startAudio) (fun _ => True) →
      RunsOn c₀ ⟨n, b⟩ t → StoppingSafe may p (fun _ => RunsOn c₀ ⟨n, b⟩) t := fun hp ht =>
    safeRaising_mono (stopping_of_ensures may hp ht) fun _ _ _ h => h.2
  have hfinish : ∀ t, RunsOn c₀ ⟨n, b⟩ t → StoppingSafe may (do
      let c ← stopIfConnected { c with
        buttonStart := false
        buttonStop := false
        buttonConnect := false
        groupServer := false }
      return { c with buttonConnect := true }) (GivenUp b) t := by
    intro t ht
    refine safeRaising_bind trivial (stopping_ifConnected may _ _ ht) fun c' u _ hu => ?_
    refine safeRaising_pure (stable_givenUp _) trivial ?_
    rcases hu with ⟨rfl, hu⟩ | ⟨rfl, hu, hn⟩
    · exact ⟨not_inSession_clearServerState _, congrArg StopHistory.ended hu.2⟩
    · exact ⟨fun hc => hn (hlast hc).1 (hlast hc).2, congrArg StopHistory.ended hu.2⟩
  refine safeRaising_bind trivial (hquiet (by simp) hs) fun r t _ ht => ?_
  cases r with
  | true =>
    refine safeRaising_bind trivial (hquiet (by simp) ht) fun _ u _ hu => ?_
    exact safeRaising_bind trivial (hquiet (by simp) hu) fun _ v _ hv => hfinish v hv
  | false => exact hfinish t ht

theorem stopping_onSioConnectFail (hs : RunsOn c ⟨1, b⟩ s) :
    StoppingSafe may (onSioConnectFail c) (GivenUp b) s := by
  refine stopping_uiServerDisconnect may ?_ hs
  exact fun hc => ⟨rfl, hc⟩

theorem stopping_onSioConnectClose (hs : RunsOn c ⟨2, b⟩ s) :
    StoppingSafe may (onSioConnectClose c) (GivenUp b) s := by
  refine safeRaising_bind trivial (stopping_anyConnected may hs) fun r t _ ht => ?_
  cases r with
  | true =>
    obtain ⟨k, hk⟩ := ht
    refine safeRaising_bind trivial (stopping_stopAudio may hk) fun _ u _ hu => ?_
    refine stopping_uiServerDisconnect may (fun hc => ?_) hu
    exact absurd hc (not_inSession_clearServerState c)
  | false => exact stopping_uiServerDisconnect may (fun hc => ⟨rfl, hc⟩) ht.1

theorem stopping_onServerExiting (hs : RunsOn c ⟨2, b⟩ s) :
    StoppingSafe may (onServerExiting c) (GivenUp b) s := by
  refine safeRaising_bind trivial (stopping_ifConnected may _ _ hs) fun c' t _ ht => ?_
  rcases ht with ⟨rfl, ht⟩ | ⟨rfl, ht, -⟩
  · refine stopping_uiServerDisconnect may (fun hc => ?_) ht
    exact absurd hc (not_inSession_clearServerState c)
  · refine stopping_uiServerDisconnect may ?_ ht
    exact fun hc => ⟨rfl, hc⟩

theorem stopping_onButtonConnectClicked (hretry : c.connectRetryState) (dest : String)
    (hs : RunsOn c ⟨1, b⟩ s) : StoppingSafe may (onButtonConnectClicked dest c) (GivenUp b) s := by
  simp only [onButtonConnectClicked, hretry, if_true]
  refine stopping_uiServerDisconnect may ?_ hs
  exact fun hc => ⟨rfl, hc⟩

/-- A conversion that is flagged can be stopped, and so can one that has begun and not ended. -/
structure StopOffered (c : UwaVClient) (h : StopHistory) : Prop where
  stoppable : c.phase.Stoppable
  offered : h.ended = false → c.phase.OffersStop

theorem StopOffered.congr {h h' : StopHistory} (hc : StopOffered c h) (hphase : c₀.phase = c.phase)
    (hended : h'.ended = h.ended) : StopOffered c₀ h' :=
  ⟨hphase ▸ hc.stoppable, fun h' => hphase ▸ hc.offered (hended ▸ h')⟩

theorem StopOffered.of_offersStop {h : StopHistory} (hc : c.phase.OffersStop) : StopOffered c h :=
  ⟨fun _ => hc, fun _ => hc⟩

theorem StopOffered.of_ended {h : StopHistory} (hc : ¬ c.phase.InSession) (hended : h.ended) :
    StopOffered c h := ⟨fun hin => absurd hin hc, fun h' => by rw [hended] at h'; cases h'⟩

/-- A signal that is not left over finds a client that offers to stop. -/
theorem stopping_emitServerStart {h : StopHistory} (hc : StopOffered c h)
    (hs : s.hist.ended = h.ended) :
    StoppingSafe may (emit .serverStart) (fun _ _ => c.phase.OffersStop) s :=
  safeRaising_lift stable_ended (fun _ => stable_const _) trivial hs fun _ _ ht =>
    ⟨trivial, fun ha => ⟨trivial, trivial, hc.offered (ht.symm.trans ha)⟩⟩

/-- The flag is set only for a conversion that has not ended. -/
theorem stopping_askToStart {h : StopHistory} (hc : StopOffered c h) (hs : s.hist.ended = h.ended) :
    StoppingSafe may (askToStart c) (fun c' t => StopOffered c' t.hist) s := by
  have hreturn : ∀ t, t.hist.ended = h.ended →
      StoppingSafe may (pure c) (fun c' t => StopOffered c' t.hist) t := fun t ht =>
    safeRaising_pure (stable_hist fun h => StopOffered c h) trivial (hc.congr rfl ht)
  unfold askToStart
  split
  · exact hreturn s hs
  · have hopened : StoppingSafe may opened (fun _ t => True ∧ t.hist.ended = h.ended) s :=
      stopping_ended may (by simp) hs
    refine safeRaising_bind trivial hopened fun r t _ ht => ?_
    cases r with
    | false => exact hreturn t ht.2
    | true =>
      refine safeRaising_bind trivial (stopping_emitServerStart may hc ht.2) fun _ u _ hoffers => ?_
      exact safeRaising_pure (stable_hist fun h => StopOffered { c with serverStarting := true } h)
        trivial (.of_offersStop hoffers)

theorem stopping_onAudioStreamSuccess {h : StopHistory} (hc : StopOffered c h) (hs : RunsOn c h s) :
    StoppingSafe may (onAudioStreamSuccess c) (fun c' t => StopOffered c' t.hist) s := by
  have hfix : ∀ dir {c₁ t}, c₁.phase = c.phase → t.hist.ended = h.ended →
      StoppingSafe may (fixChunkLength dir c₁)
        (fun c₂ u => c₂.phase = c.phase ∧ u.hist.ended = h.ended) t := by
    intro dir c₁ t h ht
    refine stopping_ended may ?_ ht
    cases dir <;> simpa [fixChunkLength, UwaVClient.withSamplesPerChunk, UwaVClient.phase] using h
  rw [onAudioStreamSuccess_eq]
  refine safeRaising_bind trivial (hfix .input rfl (hs.2 ▸ rfl)) fun c₁ t _ hfixed => ?_
  refine safeRaising_bind trivial (hfix .output hfixed.1 hfixed.2) fun c₂ u _ hboth => ?_
  exact stopping_askToStart may (hc.congr hboth.1 rfl) hboth.2

/-- Starting the streams goes with offering to stop. -/
theorem stopping_onButtonStartClicked {h : StopHistory} (hc : StopOffered c h) (hs : RunsOn c h s) :
    StoppingSafe may (onButtonStartClicked c) (fun c' t => StopOffered c' t.hist) s := by
  have hvalid : StoppingSafe may (validateStartStopState c) (fun _ => RunsOn c h) s :=
    safeRaising_mono (stopping_of_ensures may (Q := fun _ => True)
      (by simp [validateStartStopState]) hs) fun _ _ _ h => h.2
  refine safeRaising_bind trivial hvalid fun valid t _ ht => ?_
  cases valid with
  | false => exact safeRaising_pure (stable_hist fun h => StopOffered c h) trivial (ht.2.symm ▸ hc)
  | true =>
    have hstart : StoppingSafe may startAudio (fun _ _ => True ∧ True) t :=
      safeRaising_of_ensures (φ := fun _ => True) (stable_const True)
        (fun _ _ _ _ _ => ⟨trivial, fun _ => ⟨trivial, trivial, trivial⟩⟩) (by simp) trivial trivial
    refine safeRaising_bind trivial hstart fun _ u _ _ => ?_
    exact safeRaising_pure (stable_hist fun h => StopOffered _ h) trivial (.of_offersStop ⟨rfl, rfl⟩)

abbrev StoppingSlot (p : Slot UwaVClient) (s : Observed StopHistory) : Prop :=
  SlotSafe (stoppingObserver may) NothingLeftOver (fun _ _ => True) StopOffered (fun _ _ => True) p s

theorem stoppingSlot_of_safe {p : Slot UwaVClient} {Q : UwaVClient → Observed StopHistory → Prop}
    (hp : StoppingSafe may p Q s) (hQ : ∀ c t, Q c t → StopOffered c t.hist) : StoppingSlot may p s :=
  safe_mono hp fun _ t _ hr => ⟨trivial, fun c hc => (hQ c t (hr c hc)).congr rfl rfl⟩

/-- A slot that starts no streams. -/
theorem stoppingSlot_of_ensures {p : Slot UwaVClient} {φ : ClientOp → Prop} {Q : UwaVClient → Prop}
    (hp : p.Ensures φ Q) (hφ : ¬ φ .startAudio) (hQ : ∀ c, Q c → StopOffered c s.hist) :
    StoppingSlot may p s := by
  refine slotSafe_of_ensures (P := fun h => h.ended = s.hist.ended) hp (fun e t he _ ht => ⟨trivial,
    fun _ => ⟨trivial, ?_⟩⟩) (fun _ _ => trivial) (fun hq h => (hQ _ hq).congr rfl h) trivial rfl
  have hstart : e ≠ .startAudio := fun h => hφ (h ▸ he)
  exact (ended_onOp may hstart t.app t.hist).trans ht

theorem stoppingSlot_of_stays {p : Slot UwaVClient} (hc : StopOffered c s.hist) (hp : Stays c.phase p) :
    StoppingSlot may p s := by
  refine stoppingSlot_of_ensures may hp id fun c' h => ⟨h.stoppable hc.stoppable, fun hended => ?_⟩
  rcases h with h | h
  · exact h ▸ hc.offered hended
  · exact h ▸ hc.offered hended

end Slots

/-! ## The runs -/

section Outline

variable {app : App} {h : StopHistory}

/-- A signal that leaves the phase alone, and starts no session, leaves the client settled. -/
theorem StopOffered.onSio {c c' : UwaVClient} {s : SioSignal} (hc : StopOffered c h)
    (hphase : c'.phase = c.phase) (hs : s.startsSession = false) : StopOffered c' (h.onSio c s) := by
  refine ⟨hphase ▸ hc.stoppable, fun hended => hphase ▸ hc.offered ?_⟩
  simp only [StopHistory.onSio, hs, Bool.not_false, Bool.and_true, Bool.or_eq_false_iff] at hended
  exact hended.2

theorem StopOffered.onUi {c c' : UwaVClient} {e : UiEvent} (hc : StopOffered c h)
    (hphase : c'.phase = c.phase) : StopOffered c' (h.onUi c e) :=
  ⟨hphase ▸ hc.stoppable, fun hended => hphase ▸ hc.offered (Bool.or_eq_false_iff.mp hended).2⟩

theorem ended_onSio {c : UwaVClient} {s : SioSignal} (hs : s.endsConversion c) :
    (h.onSio c s).ended := by
  simp [StopHistory.onSio, hs]

theorem ended_onUi {c : UwaVClient} {e : UiEvent} (he : e.endsConversion c) : (h.onUi c e).ended := by
  simp [StopHistory.onUi, he]

theorem GivenUp.settled {c : UwaVClient} {t : Observed StopHistory} {b : Bool} (hc : GivenUp b c t)
    (hb : b = true) : StopOffered c t.hist := .of_ended hc.1 (hc.2.trans hb)

theorem stopping_signal (may : Occurrence F → App → StopHistory → Prop) {c : UwaVClient}
    {t : Observed StopHistory} (hc : StopOffered c t.hist) (s : AudioSignal) (fuel : ℕ)
    (ht : t.app.client = c) : StoppingSlot may (s.slot fuel c) t := by
  by_cases hs : s = .streamStarted
  · subst hs
    exact stoppingSlot_of_safe may (stopping_onAudioStreamSuccess may hc ⟨ht, rfl⟩) fun _ _ => id
  · exact stoppingSlot_of_stays may hc (stays_signal hs fuel c)

theorem stopping_message (hc : StopOffered app.client h) {name : String} {messages : List Message}
    (hmay : name = "SET_PARAMS" → SetsParams messages app.client → ¬ app.client.phase.InSession) :
    StoppingSlot (ParamsBetweenSessions : Occurrence F → App → StopHistory → Prop)
      (onSioMessage name messages app.client) ⟨app, h.onSio app.client (.message name messages)⟩ := by
  by_cases hparams : name = "SET_PARAMS"
  · subst hparams
    refine stoppingSlot_of_ensures _ (phase_onSetParams messages app.client) id fun c' h' => ?_
    rcases h' with h' | ⟨hset, h'⟩
    · exact hc.onSio h' rfl
    · exact .of_ended (h' ▸ hmay rfl hset) (ended_onSio (by simp [SioSignal.endsConversion, hset]))
  by_cases hstarted : name = "SERVER_STARTED"
  · subst hstarted
    refine stoppingSlot_of_ensures _ (phase_onServerStarted messages app.client) id fun c' h' => ?_
    split at h'
    case isTrue => exact .of_offersStop (h' ▸ ⟨rfl, rfl⟩)
    case isFalse hnone => exact hc.onSio h' (by simp [SioSignal.startsSession, hnone])
  by_cases hstopped : name = "SERVER_STOPPED"
  · subst hstopped
    refine stoppingSlot_of_ensures _ (phase_onServerStopped app.client) id fun c' h' => ?_
    exact .of_ended (h'.symm ▸ Phase.not_inSession rfl rfl) (ended_onSio rfl)
  by_cases hexiting : name = "SERVER_EXITING"
  · subst hexiting
    exact stoppingSlot_of_safe _ (stopping_onServerExiting _ ⟨rfl, rfl⟩) fun _ _ h' =>
      h'.settled rfl
  · refine stoppingSlot_of_stays _ (hc.onSio rfl ?_)
      (stays_onSioMessage messages app.client (by simp [hparams, hstarted, hstopped, hexiting]))
    simp [SioSignal.startsSession, hstarted]

theorem stopping_sio (hc : StopOffered app.client h) {s : SioSignal}
    (hmay : ParamsBetweenSessions (.sio s : Occurrence F) app h) :
    StoppingSlot (ParamsBetweenSessions : Occurrence F → App → StopHistory → Prop) (s.slot app.client)
      ⟨app, h.onSio app.client s⟩ := by
  cases s with
  | connectFail =>
    exact stoppingSlot_of_safe _ (stopping_onSioConnectFail _ ⟨rfl, rfl⟩) fun _ _ h' => h'.settled rfl
  | connectRetry =>
    have hkeep : StopOffered app.client (h.onSio app.client .connectRetry) := hc.onSio rfl rfl
    refine stoppingSlot_of_ensures (φ := fun _ => False) _ (ensures_pure.mpr ?_) id fun _ => id
    unfold onSioConnectRetry
    split
    · exact hkeep
    · exact ⟨hkeep.stoppable, hkeep.offered⟩
  | connectSuccess =>
    have hkeep : StopOffered app.client (h.onSio app.client .connectSuccess) := hc.onSio rfl rfl
    exact stoppingSlot_of_ensures (φ := fun _ => False) _
      (ensures_pure.mpr ⟨hkeep.stoppable, hkeep.offered⟩) id fun _ => id
  | connectClose =>
    exact stoppingSlot_of_safe _ (stopping_onSioConnectClose _ ⟨rfl, rfl⟩) fun _ _ h' => h'.settled rfl
  | socketOpen =>
    exact stoppingSlot_of_ensures _ (phase_onSioSocketOpen app.client) (fun hne => hne rfl)
      fun _ h' => hc.onSio h' rfl
  | socketClose =>
    refine stoppingSlot_of_stays _ (hc.onSio rfl rfl) ?_
    simp [SioSignal.slot, onSioSocketClose, Phase.MayEnd.refl]
  | message name messages => exact stopping_message hc hmay

theorem stopping_ui (may : Occurrence F → App → StopHistory → Prop) (hc : StopOffered app.client h)
    (e : UiEvent) : StoppingSlot may (e.slot app.client) ⟨app, h.onUi app.client e⟩ := by
  cases e with
  | startClicked =>
    exact stoppingSlot_of_safe _ (stopping_onButtonStartClicked _ (hc.onUi rfl) ⟨rfl, rfl⟩) fun _ _ => id
  | stopClicked =>
    refine stoppingSlot_of_ensures _ (phase_onButtonStopClicked app.client) id fun c' h' => ?_
    exact .of_ended (h'.symm ▸ Phase.not_inSession rfl rfl) (ended_onUi rfl)
  | connectClicked dest =>
    cases hretry : app.client.connectRetryState with
    | true =>
      refine stoppingSlot_of_safe _ (stopping_onButtonConnectClicked _ hretry dest (b := true) ⟨rfl, ?_⟩)
        fun _ _ h' => h'.settled rfl
      simp [StopHistory.onUi, UiEvent.connectionTests, UiEvent.endsConversion, hretry]
    | false =>
      exact stoppingSlot_of_stays _ (hc.onUi rfl) (stays_onButtonConnectClicked hretry dest)
  | serverExitClicked =>
    refine stoppingSlot_of_stays _ (hc.onUi rfl) ?_
    simp [UiEvent.slot, onButtonServerExitClicked, Phase.MayEnd.refl]
  | serverSelected dest =>
    exact stoppingSlot_of_stays _ (hc.onUi rfl) (stays_attemptConnectionTo dest _)
  | deviceSelected dir index =>
    exact stoppingSlot_of_stays _ (hc.onUi rfl) (menus_setDeviceIndex dir app.client index).stays
  | modelSelected index =>
    exact stoppingSlot_of_stays _ (hc.onUi rfl) (menus_setModelIndex _ index).stays
  | inferDeviceSelected index =>
    exact stoppingSlot_of_stays _ (hc.onUi rfl) (menus_setInferDeviceIndex _ index).stays
  | chunkSizeMoved milliseconds =>
    exact stoppingSlot_of_stays _ (hc.onUi rfl) (ensures_pure.mpr (.inl rfl))
  | chunkSizeReleased =>
    exact stoppingSlot_of_stays _ (hc.onUi rfl) (menus_onSliderChunkSizeReleased _).stays

/-- Every slot leaves the conversion stoppable under the condition. -/
def stoppingOutline (A : FloatOps F) :
    AppOutline A (stoppingObserver ParamsBetweenSessions) NothingLeftOver where
  inv _ _ := True
  idle := StopOffered
  claim _ _ := True
  others {o _ _} ho := by
    cases o with
    | callback cb => rfl
    | change w => rfl
    | _ => exact absurd rfl ho
  callback _ _ _ := trivial
  posted {fuel s rest app h} _ hidle _ _ :=
    ⟨trivial, stopping_signal _ (hidle.congr rfl rfl) s fuel rfl⟩
  sio _ hidle hmay := ⟨trivial, stopping_sio hidle hmay⟩
  ui {e app h} _ hidle _ := ⟨trivial, stopping_ui _ hidle e⟩

end Outline

/-- In every run in which parameters arrive only between conversions, no signal that is left over from
an ended conversion asks the server to start, and the connection of a flagged conversion is given up
only with a connected stream, a flagged conversion can be stopped between events. -/
theorem conversion_stoppable (A : FloatOps F) {w : World} {c : AppConfig StopHistory}
    (run : Reaches (appSystem A (stoppingObserver ParamsBetweenSessions)) (fun _ => NothingLeftOver)
      (.initial ⟨.launched w, {}⟩) c)
    (hmain : c.thread .main = none) (hrun : c.shared.app.running)
    (hsession : c.shared.app.client.serverStarting ∨ c.shared.app.client.serverStarted) :
    c.shared.app.client.buttonStop ∧ c.shared.app.client.buttonStart = false := by
  have hinit : StopOffered (App.launched w).client {} := .of_ended (Phase.not_inSession rfl rfl) rfl
  exact ((stoppingOutline A).idle_of_reaches trivial hinit run hmain hrun).stoppable hsession

section Schedules

variable (e : ClientOp) (s : Observed StopHistory) (o : Occurrence F) (app : App) (h : StopHistory)

instance (p : Phase) : Decidable p.InSession := inferInstanceAs (Decidable (_ ∨ _))

theorem nothingLeftOver_iff : (e = .emit .serverStart → s.hist.ended = false) ∧
    (e = .connected .output → s.hist.tests = 1 → s.app.client.phase.InSession →
      s.app.audio.output.connected) ↔ NothingLeftOver e s := by
  unfold NothingLeftOver
  split <;> simp_all

instance : Decidable (NothingLeftOver e s) := decidable_of_iff _ (nothingLeftOver_iff e s)

instance : Decidable (ParamsBetweenSessions o app h) :=
  match o with
  | .sio (.message name messages) => inferInstanceAs
    (Decidable (name = "SET_PARAMS" → SetsParams messages app.client → ¬ app.client.phase.InSession))
  | .sio .connectFail | .sio .connectRetry | .sio .connectSuccess | .sio .connectClose
  | .sio .socketOpen | .sio .socketClose | .posted _ | .ui _ | .callback _ | .change _ =>
    isTrue trivial

instance :
    Decidable ((stoppingObserver ParamsBetweenSessions : AppObserver F StopHistory).may o app h) :=
  inferInstanceAs (Decidable (ParamsBetweenSessions o app h))

instance : Decidable ((stoppingObserver fun _ _ _ => True : AppObserver F StopHistory).may o app h) :=
  isTrue trivial

end Schedules

/-- The main thread is between two events of a started conversion. -/
def betweenEvents (c : AppConfig StopHistory) : Bool :=
  (c.thread .main).isNone && c.shared.app.running && c.shared.app.client.serverStarted

theorem conversion_stoppable_started : ∃ c : AppConfig StopHistory,
    Reaches (appSystem plainFloats (stoppingObserver ParamsBetweenSessions))
      (fun _ => NothingLeftOver) (.initial ⟨.launched .online, {}⟩) c ∧
    c.shared.app.client.serverStarted ∧
      c.shared.app.client.buttonStop ∧ c.shared.app.client.buttonStart = false := by
  have hrun : ∃ c : AppConfig StopHistory,
      Reaches (appSystem plainFloats (stoppingObserver ParamsBetweenSessions))
        (fun _ => NothingLeftOver) (.initial ⟨.launched .online, {}⟩) c ∧ betweenEvents c :=
    reaches_of_schedule
      (L := appLauncher plainFloats (stoppingObserver ParamsBetweenSessions)) conversionStarted
      (by decide +kernel)
  obtain ⟨c, run, hc⟩ := hrun
  simp only [betweenEvents, Bool.and_eq_true, Option.isNone_iff_eq_none] at hc
  obtain ⟨⟨hmain, hrunning⟩, hstarted⟩ := hc
  exact ⟨c, run, hstarted, conversion_stoppable plainFloats run hmain hrunning (.inr hstarted)⟩

/-- Parameters arrive while the conversion runs. -/
theorem conversion_not_stoppable_after_params : ∃ c : AppConfig StopHistory,
    Reaches (appSystem plainFloats (stoppingObserver fun _ _ _ => True)) (fun _ _ _ => True)
      (.initial ⟨.launched .online, {}⟩) c ∧
    c.thread .main = none ∧ c.shared.app.running ∧ c.shared.app.client.serverStarted ∧
      c.shared.app.client.buttonStop = false := by
  have hrun : ∃ c : AppConfig StopHistory,
      Reaches (appSystem plainFloats (stoppingObserver fun _ _ _ => True)) (fun _ _ _ => True)
        (.initial ⟨.launched .online, {}⟩) c ∧
      (betweenEvents c && !c.shared.app.client.buttonStop) :=
    reaches_of_schedule (L := appLauncher plainFloats (stoppingObserver fun _ _ _ => True))
      (conversionStarted ++ mainMoves (.sio (.message "SET_PARAMS" [.object []])) 1)
      (by decide +kernel)
  obtain ⟨c, run, hc⟩ := hrun
  simp only [betweenEvents, Bool.and_eq_true, Option.isNone_iff_eq_none, Bool.not_eq_true'] at hc
  exact ⟨c, run, hc.1.1.1, hc.1.1.2, hc.1.2, hc.2⟩

end UwavClient
