import UwavClient.Client.Outline

/-!
# Server sessions (`serverStarted`)

The flag that lets `onInputBufferWrite` send samples is set by `SERVER_STARTED` and has to be off when
the next socket opens. The handlers of a lost connection clear it only while a stream is connected,
and those of a reconnection do not clear it at all.
-/

namespace UwavClient

open Interleaving Slot ExceptT

variable {F : Type}

def SioSignal.opensSocket : SioSignal → Bool
  | .socketOpen => true
  | _ => false

/-- The history: has a `SERVER_STARTED` message been handled since the latest `onSioSocketOpen`? -/
def sessionHistory : Occurrence F → Bool → Bool
  | .sio s, h => s.startsSession || (!s.opensSocket && h)
  | _, h => h

def sessionObserver (may : Occurrence F → App → Bool → Prop) : AppObserver F Bool where
  may := may
  onStart o _ := sessionHistory o
  onOp _ _ h := h
  onReturn h := h

/-- When a socket opens, no conversion is flagged as started. -/
def OpensUnstarted : Occurrence F → App → Bool → Prop
  | .sio s, app, _ => s.opensSocket → app.client.serverStarted = false
  | _, _, _ => True

/-- Between slots a session that is flagged as started did start since the socket opened. -/
def SessionStarted (c : UwaVClient) (h : Bool) : Prop := c.serverStarted → h

/-- Samples are sent only in a session that started. -/
def SendsInSession (e : ClientOp) (s : Observed Bool) : Prop :=
  ∀ samples, e = .emit (.audioIn samples) → s.hist

section Outline

variable (may : Occurrence F → App → Bool → Prop)

/-- A slot that sends samples only in a started session and starts none keeps the assertion. -/
theorem slotSafe_session {p : Slot UwaVClient} {c : UwaVClient}
    (hp : p.Ensures (fun e => ∀ samples, e = .emit (.audioIn samples) → c.serverStarted)
      fun c' => c'.serverStarted → c.serverStarted) {s : Observed Bool}
    (hs : SessionStarted c s.hist) :
    SlotSafe (sessionObserver may) (fun _ _ => True) (fun _ _ => True) SessionStarted SendsInSession
      p s :=
  slotSafe_of_ensures (P := SessionStarted c) hp
    (fun _ _ he _ ht => ⟨fun samples h => ht (he samples h), fun _ => ⟨trivial, ht⟩⟩)
    (fun _ _ => trivial) (fun hq ht hc => ht (hq hc)) trivial hs

theorem slotSafe_session_of_routine {p : Slot UwaVClient} {c : UwaVClient} (hp : Routine c p)
    {s : Observed Bool} (hs : SessionStarted c s.hist) :
    SlotSafe (sessionObserver may) (fun _ _ => True) (fun _ _ => True) SessionStarted SendsInSession
      p s :=
  slotSafe_session may (hp.mono (fun _ he => (maySend_of_ordinary he .streamStopped c).2)
    fun _ h => h.started) hs

end Outline

/-- Every slot keeps the assertion, as long as a socket opens only when no session is flagged. -/
def sessionOutline (A : FloatOps F) :
    AppOutline A (sessionObserver OpensUnstarted) (fun _ _ => True) where
  inv _ _ := True
  idle := SessionStarted
  claim := SendsInSession
  others {o _ _} ho := by
    cases o with
    | sio s => exact absurd rfl ho
    | _ => rfl
  callback _ _ _ := trivial
  posted {fuel s _ app h} _ hidle _ _ :=
    ⟨trivial, slotSafe_session _ ((ensures_signal s fuel app.client).mono (fun _ he => he.2) fun _ => id)
      hidle⟩
  sio {s app h} _ hidle hmay := by
    refine ⟨trivial, ?_⟩
    cases hs : s.startsSession with
    | true =>
      have hany : SessionStarted { app.client with serverStarted := true } true := fun _ => rfl
      refine slotSafe_session _ (ensures_trivial ?_ ?_ _) (s := ⟨app, _⟩) (by
        simpa only [sessionObserver, sessionHistory, hs, Bool.true_or] using hany)
      · exact fun _ _ _ => rfl
      · exact fun _ _ => rfl
    | false =>
      refine slotSafe_session_of_routine _ (routine_sio hs app.client) fun hc => ?_
      cases ho : s.opensSocket with
      | true => exact absurd (hmay ho) (by rw [hc]; decide)
      | false => simpa [sessionObserver, sessionHistory, hs, ho] using hidle hc
  ui {e app h} _ hidle _ := ⟨trivial, slotSafe_session_of_routine _ (routine_ui e app.client) hidle⟩

/-- Session isolation: in every run in which a socket opens only while no conversion is flagged,
samples are sent only if `SERVER_STARTED` was handled since the socket opened, and between slots the
flag is set only then too. -/
theorem session_isolated (A : FloatOps F) {w : World} {c : AppConfig Bool}
    (run : Reaches (appSystem A (sessionObserver OpensUnstarted)) (fun _ _ _ => True)
      (.initial ⟨.launched w, false⟩) c) :
    (∀ samples, nextOp c = some (.emit (.audioIn samples)) → c.shared.hist) ∧
      (c.thread .main = none → c.shared.app.running → c.shared.app.client.serverStarted →
        c.shared.hist) := by
  have hidle : SessionStarted (App.launched w).client false := fun h => by cases h
  constructor
  · intro samples next
    exact (sessionOutline A).claim_of_reaches trivial hidle run next samples rfl
  · exact fun hmain hrun => (sessionOutline A).idle_of_reaches trivial hidle run hmain hrun

def sendsSamples (c : AppConfig Bool) : Bool :=
  match nextOp c with
  | some (.emit (.audioIn _)) => true
  | _ => false

theorem exists_of_sendsSamples {c : AppConfig Bool} (h : sendsSamples c) :
    ∃ samples, nextOp c = some (.emit (.audioIn samples)) := by
  unfold sendsSamples at h
  split at h
  · exact ⟨_, ‹_›⟩
  · cases h

instance (o : Occurrence F) (app : App) (h : Bool) :
    Decidable ((sessionObserver OpensUnstarted : AppObserver F Bool).may o app h) :=
  match o with
  | .sio s => inferInstanceAs (Decidable (s.opensSocket → app.client.serverStarted = false))
  | .posted _ | .ui _ | .callback _ | .change _ => isTrue trivial

instance (o : Occurrence F) (app : App) (h : Bool) :
    Decidable ((sessionObserver fun _ _ _ => True : AppObserver F Bool).may o app h) :=
  isTrue trivial

/-- The server starts the conversion that the running streams ask for. -/
def conversionStarted : List (AppMove Unit) :=
  devicesListed ++ streamsRunning ++ mainMoves (.posted 0) 7 ++
    mainMoves (.sio (.message "SERVER_STARTED" [.object []])) 2

/-- A chunk of 40 ms is captured, and `onInputBufferWrite` runs until it sends. -/
def chunkCaptured : List (AppMove Unit) :=
  callbackMoves (.processInput ⟨(), (), ()⟩ (some ⟨some (List.replicate 1920 .zero)⟩)) ++
    mainMoves (.posted 2) 5

theorem session_isolated_while_connected : ∃ c samples,
    Reaches (appSystem plainFloats (sessionObserver OpensUnstarted)) (fun _ _ _ => True)
      (.initial ⟨.launched .online, false⟩) c ∧
    nextOp c = some (.emit (.audioIn samples)) ∧ c.shared.hist := by
  have hrun : ∃ c : AppConfig Bool,
      Reaches (appSystem plainFloats (sessionObserver OpensUnstarted)) (fun _ _ _ => True)
        (.initial ⟨.launched .online, false⟩) c ∧ sendsSamples c :=
    reaches_of_schedule (L := appLauncher plainFloats (sessionObserver OpensUnstarted))
      (conversionStarted ++ chunkCaptured) (by decide +kernel)
  obtain ⟨c, run, hsends⟩ := hrun
  obtain ⟨samples, next⟩ := exists_of_sendsSamples hsends
  exact ⟨c, samples, run, next, (session_isolated plainFloats run).1 samples next⟩

/-- The connection drops and comes back by itself; samples are then sent without a new
`SERVER_STARTED`. -/
theorem session_leaks_after_reconnection : ∃ c samples,
    Reaches (appSystem plainFloats (sessionObserver fun _ _ _ => True)) (fun _ _ _ => True)
      (.initial ⟨.launched .online, false⟩) c ∧
    nextOp c = some (.emit (.audioIn samples)) ∧ c.shared.hist = false := by
  have hrun : ∃ c : AppConfig Bool,
      Reaches (appSystem plainFloats (sessionObserver fun _ _ _ => True)) (fun _ _ _ => True)
        (.initial ⟨.launched .online, false⟩) c ∧ (sendsSamples c && !c.shared.hist) :=
    reaches_of_schedule (L := appLauncher plainFloats (sessionObserver fun _ _ _ => True))
      (conversionStarted ++ mainMoves (.sio .connectRetry) 1 ++ mainMoves (.sio .socketOpen) 11 ++
        chunkCaptured) (by decide +kernel)
  obtain ⟨c, run, hleak⟩ := hrun
  obtain ⟨hsends, hhist⟩ := Bool.and_eq_true _ _ ▸ hleak
  obtain ⟨samples, next⟩ := exists_of_sendsSamples hsends
  exact ⟨c, samples, run, next, by simpa using hhist⟩

end UwavClient
