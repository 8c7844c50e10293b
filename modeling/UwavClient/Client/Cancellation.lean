import UwavClient.Client.Phases

/-!
# Cancelling a connection attempt (`on_buttonConnect_clicked`)

While the socket client retries, the connect button cancels. The slot closes the client only if it
says that it is open, which it is not while it retries, so the attempt goes on behind a disconnected
window. If it succeeds, `onSioSocketOpen` asks for the parameters and `SET_PARAMS` connects the window
again.
-/

namespace UwavClient

open Interleaving Slot ExceptT

variable {F : Type}

/-! ## The history -/

/-- Whether `connect` has been called and the client neither closed nor given up, whether the
connection has been reported and not its loss, whether the attempt has been cancelled and no other
begun, and whether the slot of the connect button runs outside of cancel mode. -/
structure Attempt where
  attempting : Bool := false
  up : Bool := false
  cancelled : Bool := false
  clicking : Bool := false
  deriving DecidableEq, Repr

namespace Attempt

def onSio : SioSignal → Attempt → Attempt
  | .connectSuccess, h => { h with up := true }
  | .connectRetry, h => { h with up := false }
  | .connectFail, h | .connectClose, h => { h with up := false, attempting := false }
  | _, h => h

/-- `on_comboServerSelect_currentIndexChanged` runs `AttemptConnectionTo` at once. -/
def onUi (c : UwaVClient) : UiEvent → Attempt → Attempt
  | .connectClicked _, h =>
    if c.connectRetryState then { h with cancelled := true } else { h with clicking := true }
  | .serverSelected _, h => { h with cancelled := false }
  | _, h => h

def onStart : Occurrence F → App → Attempt → Attempt
  | .sio s, _, h => onSio s h
  | .ui e, app, h => onUi app.client e h
  | _, _, h => h

/-- The slot of the connect button runs `AttemptConnectionTo` when the client is not open. -/
def onOp : ClientOp → App → Attempt → Attempt
  | .opened, app, h => { h with cancelled := h.cancelled && !(h.clicking && !app.world.socketOpen) }
  | .connect _, _, h => { h with attempting := true }
  | .close, _, h | .syncClose, _, h => { h with attempting := false }
  | _, _, h => h

def onReturn (h : Attempt) : Attempt := { h with clicking := false }

end Attempt

def cancelObserver (may : Occurrence F → App → Attempt → Prop) : AppObserver F Attempt where
  may := may
  onStart := Attempt.onStart
  onOp := Attempt.onOp
  onReturn := Attempt.onReturn

/-- What the socket client raises: a retry or its success only during an attempt, the opening of a
socket only over a connection. -/
def SocketClient : Occurrence F → App → Attempt → Prop
  | .sio .connectRetry, _, h | .sio .connectSuccess, _, h | .sio .connectFail, _, h => h.attempting
  | .sio .socketOpen, _, h => h.up
  | _, _, _ => True

/-- A cancelled attempt does not succeed, and parameters do not arrive while it is cancelled; a socket
opens only over a connection. -/
def CancelledStaysDown : Occurrence F → App → Attempt → Prop
  | .sio .connectSuccess, _, h => h.cancelled = false
  | .sio .socketOpen, _, h => h.up
  | .sio (.message name messages), app, h =>
    name = "SET_PARAMS" → SetsParams messages app.client → h.cancelled = false
  | _, _, _ => True

/-! ## The assertion -/

/-- Neither a retry nor a cancelled attempt is up, and after a cancellation the window is
disconnected. -/
structure Phase.Down (p : Phase) (h : Attempt) : Prop where
  retry : p.connectRetryState → h.up = false
  cancelled : h.cancelled → h.up = false ∧ p.groupServer = false

/-- After a cancellation the parameters are not asked for. -/
def SilentWhenCancelled (e : ClientOp) (s : Observed Attempt) : Prop :=
  s.hist.cancelled → ∀ id, e ≠ .emit (.getParams id)

namespace Phase.Down

variable {p q : Phase} {h h' : Attempt}

/-- Neither the retry state nor the server group is raised. -/
theorem of_le (hd : p.Down h) (hr : q.connectRetryState → p.connectRetryState)
    (hg : p.groupServer = false → q.groupServer = false) : q.Down h :=
  ⟨hd.retry ∘ hr, fun hc => (hd.cancelled hc).imp_right hg⟩

theorem mayEnd (hd : p.Down h) (hq : p.MayEnd q) : q.Down h := by
  rcases hq with rfl | rfl
  · exact hd
  · exact hd.of_le id id

theorem history (hd : p.Down h) (hup : h'.up = h.up) (hc : h'.cancelled → h.cancelled) : p.Down h' :=
  ⟨fun hr => hup.trans (hd.retry hr), fun hc' => (hd.cancelled (hc hc')).imp_left hup.trans⟩

end Phase.Down

section Slots

variable (may : Occurrence F → App → Attempt → Prop) {p : Slot UwaVClient} {c : UwaVClient}
  {s : Observed Attempt}

abbrev CancelSlot (p : Slot UwaVClient) (s : Observed Attempt) : Prop :=
  SlotSafe (cancelObserver may) (fun _ _ => True) (fun _ _ => True) (fun c h => c.phase.Down h)
    SilentWhenCancelled p s

theorem onOp_up (e : ClientOp) (app : App) (h : Attempt) : (Attempt.onOp e app h).up = h.up := by
  unfold Attempt.onOp
  split <;> rfl

theorem cancelled_of_onOp {e : ClientOp} {app : App} {h : Attempt}
    (hc : (Attempt.onOp e app h).cancelled) : h.cancelled := by
  unfold Attempt.onOp at hc
  split at hc
  · exact (Bool.and_eq_true _ _ ▸ hc).1
  all_goals exact hc

/-- A slot that asks for the parameters only if nothing is cancelled. -/
theorem cancelSlot_of_ensures {φ : ClientOp → Prop} {Q : UwaVClient → Prop} (hp : p.Ensures φ Q)
    (hφ : s.hist.cancelled → ∀ id, ¬ φ (.emit (.getParams id)))
    (hQ : ∀ c, Q c → c.phase.Down s.hist) : CancelSlot may p s := by
  refine slotSafe_of_ensures (P := fun h => h.up = s.hist.up ∧ (h.cancelled → s.hist.cancelled)) hp
    (fun e t he _ ht => ⟨?_, fun _ => ⟨trivial, ?_⟩⟩) (fun _ _ => trivial)
    (fun hq ht => (hQ _ hq).history ht.1 ht.2) trivial ⟨rfl, id⟩
  · rintro hc id rfl
    exact hφ (ht.2 hc) id he
  · exact ⟨(onOp_up e t.app t.hist).trans ht.1, ht.2 ∘ cancelled_of_onOp⟩

theorem cancelSlot_of_passive {Q : UwaVClient → Prop} (hp : p.Ensures ClientOp.Passive Q)
    (hQ : ∀ c, Q c → c.phase.Down s.hist) : CancelSlot may p s :=
  cancelSlot_of_ensures may hp (fun _ _ => id) hQ

theorem cancelSlot_of_stays {q : Phase} (hp : Stays q p) (hq : q.Down s.hist) : CancelSlot may p s :=
  cancelSlot_of_passive may hp fun _ h => hq.mayEnd h

end Slots

/-! ## The runs -/

section Outline

variable {app : App} {h : Attempt}

theorem cancel_signal (may : Occurrence F → App → Attempt → Prop) {c : UwaVClient}
    (hd : c.phase.Down h) (s : AudioSignal) (fuel : ℕ) {t : Observed Attempt} (ht : t.hist = h) :
    CancelSlot may (s.slot fuel c) t := by
  subst ht
  by_cases hs : s = .streamStarted
  · subst hs
    refine cancelSlot_of_ensures may (phase_onAudioStreamSuccess c) (fun _ id hid => hid id rfl) ?_
    rintro c' (h | h)
    · exact h ▸ hd
    · exact h ▸ hd.of_le id id
  · exact cancelSlot_of_stays may (stays_signal hs fuel c) hd

theorem cancel_message (hd : app.client.phase.Down h) {name : String} {messages : List Message}
    (hmay : name = "SET_PARAMS" → SetsParams messages app.client → h.cancelled = false) :
    CancelSlot (CancelledStaysDown : Occurrence F → App → Attempt → Prop)
      (onSioMessage name messages app.client) ⟨app, h⟩ := by
  by_cases hparams : name = "SET_PARAMS"
  · subst hparams
    refine cancelSlot_of_passive _ (phase_onSetParams messages app.client) fun c' hc' => ?_
    rcases hc' with hc' | ⟨hset, hc'⟩
    · exact hc' ▸ hd
    · rw [hc']
      exact ⟨hd.retry, fun hcancelled => Bool.noConfusion ((hmay rfl hset).symm.trans hcancelled)⟩
  by_cases hstarted : name = "SERVER_STARTED"
  · subst hstarted
    refine cancelSlot_of_passive _ (phase_onServerStarted messages app.client) fun c' hc' => ?_
    split at hc'
    · exact hc' ▸ hd.of_le id id
    · exact hc' ▸ hd
  by_cases hstopped : name = "SERVER_STOPPED"
  · subst hstopped
    refine cancelSlot_of_passive _ (phase_onServerStopped app.client) fun c' hc' => ?_
    exact hc' ▸ hd.of_le id id
  by_cases hexiting : name = "SERVER_EXITING"
  · subst hexiting
    exact cancelSlot_of_stays _ (stays_onServerExiting app.client) (hd.of_le id fun _ => rfl)
  · exact cancelSlot_of_stays _
      (stays_onSioMessage messages app.client (by simp [hparams, hstarted, hstopped, hexiting])) hd

theorem cancel_sio (hd : app.client.phase.Down h) {s : SioSignal}
    (hmay : CancelledStaysDown (.sio s : Occurrence F) app h) :
    CancelSlot (CancelledStaysDown : Occurrence F → App → Attempt → Prop) (s.slot app.client)
      ⟨app, Attempt.onSio s h⟩ := by
  cases s with
  | connectFail =>
    refine cancelSlot_of_stays _ (stays_onSioConnectFail app.client) ?_
    exact ⟨nofun, fun _ => ⟨rfl, rfl⟩⟩
  | connectRetry =>
    refine cancelSlot_of_passive _ (Q := fun c => c.groupServer = app.client.groupServer)
      (ensures_pure.mpr ?_) fun c hc => ?_
    · unfold onSioConnectRetry
      split <;> rfl
    · exact ⟨fun _ => rfl, fun hcancelled => ⟨rfl, hc.trans (hd.cancelled hcancelled).2⟩⟩
  | connectSuccess =>
    refine cancelSlot_of_passive _ (Q := fun c => c.connectRetryState = false)
      (ensures_pure.mpr rfl) fun c hc => ⟨fun hr => ?_, fun hcancelled => ?_⟩
    · exact Bool.noConfusion (hc.symm.trans hr)
    · have hnot : h.cancelled = false := hmay
      exact Bool.noConfusion (hnot.symm.trans hcancelled)
  | connectClose =>
    refine cancelSlot_of_stays _ (stays_onSioConnectClose app.client) ?_
    exact ⟨fun _ => rfl, fun _ => ⟨rfl, rfl⟩⟩
  | socketOpen =>
    refine cancelSlot_of_ensures _ (phase_onSioSocketOpen app.client) (fun hcancelled => ?_)
      fun _ hc => hc ▸ hd
    have hup : h.up = true := hmay
    rw [(hd.cancelled hcancelled).1] at hup
    cases hup
  | socketClose =>
    refine cancelSlot_of_stays _ (q := app.client.phase) ?_ hd
    simp [SioSignal.slot, onSioSocketClose, Phase.MayEnd.refl]
  | message name messages => exact cancel_message hd hmay

theorem cancel_ui (may : Occurrence F → App → Attempt → Prop) (hd : app.client.phase.Down h)
    (e : UiEvent) : CancelSlot may (e.slot app.client) ⟨app, Attempt.onUi app.client e h⟩ := by
  cases e with
  | startClicked =>
    refine cancelSlot_of_ensures _ (phase_onButtonStartClicked app.client)
      (fun _ _ he => he.elim id nofun) fun c' hc' => ?_
    rcases hc' with hc' | hc'
    · exact hc' ▸ hd
    · exact hc' ▸ hd.of_le id id
  | stopClicked =>
    refine cancelSlot_of_passive _ (phase_onButtonStopClicked app.client) fun c' hc' => ?_
    exact hc' ▸ hd.of_le id id
  | connectClicked dest =>
    cases hretry : app.client.connectRetryState with
    | true =>
      refine cancelSlot_of_stays _ (stays_onButtonConnectClicked_retry hretry dest) ?_
      simp only [Attempt.onUi, hretry, if_true]
      exact ⟨fun hr => Bool.noConfusion hr, fun _ => ⟨hd.retry hretry, rfl⟩⟩
    | false =>
      refine cancelSlot_of_stays _ (stays_onButtonConnectClicked hretry dest) ?_
      simp only [Attempt.onUi, hretry, Bool.false_eq_true, if_false]
      exact hd.history rfl id
  | serverExitClicked =>
    refine cancelSlot_of_stays _ (q := app.client.phase) ?_ hd
    simp [UiEvent.slot, onButtonServerExitClicked, Phase.MayEnd.refl]
  | serverSelected dest =>
    refine cancelSlot_of_stays _ (stays_attemptConnectionTo dest _) (hd.history rfl fun hr => ?_)
    cases hr
  | deviceSelected dir index =>
    exact cancelSlot_of_stays _ (menus_setDeviceIndex dir app.client index).stays hd
  | modelSelected index => exact cancelSlot_of_stays _ (menus_setModelIndex _ index).stays hd
  | inferDeviceSelected index =>
    exact cancelSlot_of_stays _ (menus_setInferDeviceIndex _ index).stays hd
  | chunkSizeMoved milliseconds =>
    exact cancelSlot_of_stays _ (q := app.client.phase) (ensures_pure.mpr (.inl rfl)) hd
  | chunkSizeReleased => exact cancelSlot_of_stays _ (menus_onSliderChunkSizeReleased _).stays hd

/-- Every slot keeps a cancelled attempt down under the condition. -/
def cancelOutline (A : FloatOps F) :
    AppOutline A (cancelObserver CancelledStaysDown) (fun _ _ => True) where
  inv _ _ := True
  idle c h := c.phase.Down h
  claim := SilentWhenCancelled
  others {o _ _} ho := by
    cases o with
    | callback cb => rfl
    | change w => rfl
    | _ => exact absurd rfl ho
  callback _ _ _ := trivial
  posted {fuel s rest app h} _ hidle _ _ := ⟨trivial, cancel_signal _ hidle s fuel rfl⟩
  sio _ hidle hmay := ⟨trivial, cancel_sio hidle hmay⟩
  ui {e app h} _ hidle _ := ⟨trivial, cancel_ui _ hidle e⟩

end Outline

/-- In every run in which a cancelled attempt does not succeed and no parameters arrive while it is
cancelled, from the cancellation until `AttemptConnectionTo` runs again the parameters are not asked
for and the window does not connect. -/
theorem cancel_effective (A : FloatOps F) {w : World} {c : AppConfig Attempt}
    (run : Reaches (appSystem A (cancelObserver CancelledStaysDown)) (fun _ _ _ => True)
      (.initial ⟨.launched w, {}⟩) c)
    (hcancelled : c.shared.hist.cancelled) :
    (∀ id, nextOp c ≠ some (.emit (.getParams id))) ∧
      (c.thread .main = none → c.shared.app.running → c.shared.app.client.groupServer = false) := by
  have hinit : (App.launched w).client.phase.Down {} := ⟨nofun, nofun⟩
  constructor
  · exact fun id next => (cancelOutline A).claim_of_reaches trivial hinit run next hcancelled id rfl
  · intro hmain hrun
    exact ((cancelOutline A).idle_of_reaches trivial hinit run hmain hrun).cancelled hcancelled |>.2

section Schedules

variable (o : Occurrence F) (app : App) (h : Attempt)

instance : Decidable (SocketClient o app h) :=
  match o with
  | .sio .connectRetry | .sio .connectSuccess | .sio .connectFail =>
    inferInstanceAs (Decidable (h.attempting = true))
  | .sio .socketOpen => inferInstanceAs (Decidable (h.up = true))
  | .sio .connectClose | .sio .socketClose | .sio (.message _ _) | .posted _ | .ui _ | .callback _
  | .change _ => isTrue trivial

instance : Decidable (CancelledStaysDown o app h) :=
  match o with
  | .sio .connectSuccess => inferInstanceAs (Decidable (h.cancelled = false))
  | .sio .socketOpen => inferInstanceAs (Decidable (h.up = true))
  | .sio (.message name messages) => inferInstanceAs
    (Decidable (name = "SET_PARAMS" → SetsParams messages app.client → h.cancelled = false))
  | .sio .connectFail | .sio .connectRetry | .sio .connectClose | .sio .socketClose | .posted _
  | .ui _ | .callback _ | .change _ => isTrue trivial

instance : Decidable ((cancelObserver SocketClient : AppObserver F Attempt).may o app h) :=
  inferInstanceAs (Decidable (SocketClient o app h))

instance : Decidable ((cancelObserver CancelledStaysDown : AppObserver F Attempt).may o app h) :=
  inferInstanceAs (Decidable (CancelledStaysDown o app h))

end Schedules

/-- Every address is valid and no server answers. -/
def World.unanswered : World where
  answer
    | .opened => false
    | .validateConnectString uri => some uri
    | e => World.online.answer e
  pipewire := World.online.pipewire

def connectClicked : List (AppMove Unit) := mainMoves (.ui (.connectClicked "uwa.example")) 4

/-- A connection is attempted, the client retries, and the button is pressed again. -/
def attemptCancelled : List (AppMove Unit) :=
  devicesListed ++ connectClicked ++ mainMoves (.sio .connectRetry) 1 ++ connectClicked

/-- The server answers, and `onSioSocketOpen` runs until it asks for the parameters. -/
def attemptSucceeds : List (AppMove Unit) :=
  [.call .world (.change .online), .step .world] ++ mainMoves (.sio .connectSuccess) 1 ++
    mainMoves (.sio .socketOpen) 3

def isCancelled (c : AppConfig Attempt) : Bool := c.shared.hist.cancelled

def asksParams (c : AppConfig Attempt) : Bool :=
  match nextOp c with
  | some (.emit (.getParams _)) => true
  | _ => false

theorem cancel_effective_unanswered : ∃ c : AppConfig Attempt,
    Reaches (appSystem plainFloats (cancelObserver CancelledStaysDown)) (fun _ _ _ => True)
      (.initial ⟨.launched .unanswered, {}⟩) c ∧
    c.shared.hist.cancelled ∧ ∀ id, nextOp c ≠ some (.emit (.getParams id)) := by
  have hrun : ∃ c : AppConfig Attempt,
      Reaches (appSystem plainFloats (cancelObserver CancelledStaysDown)) (fun _ _ _ => True)
        (.initial ⟨.launched .unanswered, {}⟩) c ∧ isCancelled c :=
    reaches_of_schedule (L := appLauncher plainFloats (cancelObserver CancelledStaysDown))
      attemptCancelled (by decide +kernel)
  obtain ⟨c, run, hcancelled⟩ := hrun
  exact ⟨c, run, hcancelled, (cancel_effective plainFloats run hcancelled).1⟩

/-- The attempt goes on after it has been cancelled, and when it succeeds the client asks for the
parameters. -/
theorem cancelled_attempt_succeeds : ∃ (c : AppConfig Attempt) (id : String),
    Reaches (appSystem plainFloats (cancelObserver SocketClient)) (fun _ _ _ => True)
      (.initial ⟨.launched .unanswered, {}⟩) c ∧
    c.shared.hist.cancelled ∧ c.shared.hist.attempting ∧
      nextOp c = some (.emit (.getParams id)) := by
  have hrun : ∃ c : AppConfig Attempt,
      Reaches (appSystem plainFloats (cancelObserver SocketClient)) (fun _ _ _ => True)
        (.initial ⟨.launched .unanswered, {}⟩) c ∧
      (isCancelled c && c.shared.hist.attempting && asksParams c) :=
    reaches_of_schedule (L := appLauncher plainFloats (cancelObserver SocketClient))
      (attemptCancelled ++ attemptSucceeds) (by decide +kernel)
  obtain ⟨c, run, hc⟩ := hrun
  simp only [Bool.and_eq_true] at hc
  obtain ⟨⟨hcancelled, hattempting⟩, hasks⟩ := hc
  unfold asksParams at hasks
  split at hasks
  · exact ⟨c, _, run, hcancelled, hattempting, ‹_›⟩
  · cases hasks

end UwavClient
