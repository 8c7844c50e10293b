import UwavClient.Client.Outline

/-!
# Starting the conversion (`on_AudioStreamSuccess`)

PipeWire's thread posts `streamStarted` when a stream streams, and the main thread asks the server to
start when it comes to that signal. Whatever stops the streams in between leaves the signal where it
is, and its slot does not look at the streams before it sends.
-/

namespace UwavClient

open Interleaving Slot ExceptT

variable {F : Type}

namespace AudioProvider

variable {a b : AudioProvider}

def Connected (a : AudioProvider) : Prop := a.input.connected ∨ a.output.connected

instance : DecidablePred Connected := fun a => by unfold Connected; infer_instance

theorem connected_setConnected (a : AudioProvider) (dir : Direction) :
    (a.setConnected dir true).Connected := by
  cases dir
  · exact .inl rfl
  · exact .inr rfl

/-- What a step of PipeWire's thread may post: a start only with a connected stream. -/
def PostsConnected (a b : AudioProvider) : Prop :=
  ∃ l, b.posted = a.posted ++ l ∧ (.streamStarted ∈ l → b.Connected)

theorem postsConnected_of_eq (h : b.posted = a.posted) : PostsConnected a b :=
  ⟨[], by simp [h], fun hl => by cases hl⟩

theorem postsConnected_post {s : AudioSignal} (h : b.posted = a.posted)
    (hs : s = .streamStarted → b.Connected) : PostsConnected a (b.post s) :=
  ⟨[s], congrArg (· ++ [s]) h, fun hl => hs (List.mem_singleton.mp hl).symm⟩

theorem postsConnected_onStreamChanged (dir : Direction) (state : PwStreamState) :
    PostsConnected a (a.onStreamChanged dir state) := by
  have hset : ∀ v, (a.setConnected dir v).posted = a.posted := fun v => posted_update _ _
  cases dir <;> cases state <;>
    simp only [onStreamChanged, onInputStreamChanged, onOutputStreamChanged] <;>
    first
    | exact postsConnected_of_eq rfl
    | exact postsConnected_of_eq (hset _)
    | exact postsConnected_post rfl nofun
    | exact postsConnected_post (hset _) nofun
    | split
      · exact postsConnected_post (hset _) fun _ => connected_setConnected a _
      · exact postsConnected_of_eq (hset _)

theorem postsConnected_onRegistryAdd (id : ℕ) (type : String) (props : List (String × String)) :
    PostsConnected a (a.onRegistryAdd id type props) := by
  have hadd : ∀ dir d, PostsConnected a (a.addDevice dir d) := by
    intro dir d
    unfold addDevice
    dsimp only
    split
    · exact postsConnected_of_eq (posted_update _ _)
    · exact postsConnected_post (posted_update _ _) (by cases dir <;> exact nofun)
  unfold onRegistryAdd
  dsimp only
  split_ifs
  · exact hadd _ _
  · exact hadd _ _
  · exact postsConnected_of_eq rfl
  · exact postsConnected_of_eq rfl

theorem postsConnected_onRegistryRemove (id : ℕ) : PostsConnected a (a.onRegistryRemove id) := by
  unfold onRegistryRemove
  split
  · rename_i dir i _
    exact postsConnected_post (posted_update _ _) (by cases dir <;> exact nofun)
  · exact postsConnected_of_eq rfl

theorem postsConnected_onCoreDone (id : ℕ) (seq : ℤ) : PostsConnected a (a.onCoreDone id seq) := by
  unfold onCoreDone
  split
  · exact ⟨[.deviceListsReady], rfl, by simp⟩
  · exact postsConnected_of_eq rfl

theorem postsConnected_foldl_postSignal {signals : List (StreamSignal F)} (h : b.posted = a.posted) :
    PostsConnected a (signals.foldl postSignal b) := by
  obtain ⟨n, hn⟩ := foldl_postSignal signals b
  refine ⟨List.replicate n .signalInputBufferWrite, by rw [hn, ← h], fun hl => ?_⟩
  cases List.eq_of_mem_replicate hl

end AudioProvider

open AudioProvider

theorem postsConnected_apply {A : FloatOps F} {a b : AudioProvider} {cb : Callback F}
    (h : cb.apply A a = some (.ok b)) : PostsConnected a b := by
  cases cb with
  | registryAdd id type props =>
    cases h
    exact postsConnected_onRegistryAdd id type props
  | registryRemove id =>
    cases h
    exact postsConnected_onRegistryRemove id
  | coreDone id seq =>
    cases h
    exact postsConnected_onCoreDone id seq
  | streamChanged dir state =>
    obtain ⟨-, h⟩ := Option.ite_none_right_eq_some.mp h
    cases h
    exact postsConnected_onStreamChanged dir state
  | processInput levels buf =>
    obtain ⟨-, h⟩ := Option.ite_none_right_eq_some.mp h
    cases h
    exact postsConnected_foldl_postSignal (posted_update _ _)
  | processOutput levels buf =>
    obtain ⟨-, h⟩ := Option.ite_none_right_eq_some.mp h
    obtain ⟨⟨chunk, signals, data⟩, -, hb⟩ := bind_eq_ok (Option.some.inj h)
    cases hb
    exact postsConnected_foldl_postSignal (posted_update _ _)

/-! ## The history -/

/-- How many of the signals in flight `StopAudio` has overtaken, whether the slot of `streamStarted`
is running, and whether `StopAudio` had overtaken the signal that is being handled. -/
structure Conversion where
  stale : ℕ := 0
  starting : Bool := false
  overtaken : Bool := false
  deriving DecidableEq, Repr

namespace Conversion

def take (posted : List AudioSignal) (h : Conversion) : Conversion where
  stale := h.stale - 1
  starting := posted.head? = some .streamStarted
  overtaken := 0 < h.stale

def onStart : Occurrence F → App → Conversion → Conversion
  | .posted _, app, h => h.take app.audio.posted
  | _, _, h => h

def onOp : ClientOp → App → Conversion → Conversion
  | .stopAudio, app, h => { h with stale := app.audio.posted.length }
  | _, _, h => h

def onReturn (h : Conversion) : Conversion := { h with starting := false, overtaken := false }

end Conversion

def conversionObserver (may : Occurrence F → App → Conversion → Prop) :
    AppObserver F Conversion where
  may := may
  onStart := Conversion.onStart
  onOp := Conversion.onOp
  onReturn := Conversion.onReturn

/-- A `streamStarted` signal waits or is being handled. -/
def StartInFlight (a : AudioProvider) (h : Conversion) : Prop := .streamStarted ∈ a.posted ∨ h.starting

/-- While a start is in flight, PipeWire does not take the last connected stream away. -/
def StreamsStay (A : FloatOps F) : Occurrence F → App → Conversion → Prop
  | .callback cb, app, h => StartInFlight app.audio h →
      ∀ a, cb.apply A app.audio = some (.ok a) → a.Connected
  | _, _, _ => True

/-- While a start is in flight, the main thread neither stops the audio nor drops the last connected
stream. -/
def NoStopInFlight (e : ClientOp) (s : Observed Conversion) : Prop :=
  StartInFlight s.app.audio s.hist →
    e ≠ .stopAudio ∧ (e.perform s.app.world s.app.audio).2.Connected

/-! ## The invariant -/

structure ConversionInv (a : AudioProvider) (h : Conversion) : Prop where
  connected : StartInFlight a h → a.Connected
  stale_le : h.stale ≤ a.posted.length
  fresh : .streamStarted ∉ a.posted.take h.stale
  current : h.starting → h.overtaken = false

namespace ConversionInv

variable {a b : AudioProvider} {h : Conversion}

theorem append (hi : ConversionInv a h) {l : List AudioSignal} (hl : b.posted = a.posted ++ l)
    (hb : StartInFlight b h → b.Connected) : ConversionInv b h where
  connected := hb
  stale_le := by
    rw [hl, List.length_append]
    exact hi.stale_le.trans (Nat.le_add_right _ _)
  fresh := by
    rw [hl, List.take_append_of_le_length hi.stale_le]
    exact hi.fresh
  current := hi.current

theorem callback {A : FloatOps F} {cb : Callback F} (hi : ConversionInv a h)
    (hb : cb.apply A a = some (.ok b)) (hstay : StartInFlight a h → b.Connected) :
    ConversionInv b h := by
  obtain ⟨l, hl, hnew⟩ := postsConnected_apply hb
  refine hi.append hl fun hflight => ?_
  rcases hflight with hmem | hstart
  · rw [hl, List.mem_append] at hmem
    exact hmem.elim (fun hm => hstay (.inl hm)) hnew
  · exact hstay (.inr hstart)

/-- Taking the oldest signal. -/
theorem take {s : AudioSignal} {rest : List AudioSignal} (hi : ConversionInv a h)
    (hposted : a.posted = s :: rest) :
    ConversionInv { a with posted := rest } (h.take a.posted) := by
  obtain ⟨hconn, hle, hfresh, -⟩ := hi
  have hstart : (h.take a.posted).starting = decide (s = .streamStarted) := by
    simp [Conversion.take, hposted]
  rw [hposted] at hle hfresh
  refine ⟨fun hflight => hconn (.inl ?_), Nat.sub_le_of_le_add hle, fun hmem => hfresh ?_, fun hs => ?_⟩
  · rw [hposted]
    rcases hflight with hmem | hs
    · exact List.mem_cons_of_mem s hmem
    · rw [hstart, decide_eq_true_iff] at hs
      exact hs ▸ List.mem_cons_self
  · change AudioSignal.streamStarted ∈ rest.take (h.stale - 1) at hmem
    cases hn : h.stale with
    | zero => simp [hn] at hmem
    | succ n =>
      rw [hn, Nat.add_sub_cancel] at hmem
      exact List.mem_cons_of_mem s hmem
  · -- A stale first signal is not a start.
    rw [hstart, decide_eq_true_iff] at hs
    refine decide_eq_false fun hpos => hfresh ?_
    obtain ⟨n, hn⟩ := Nat.exists_eq_add_of_lt hpos
    rw [hn, Nat.zero_add, List.take_succ_cons, hs]
    exact List.mem_cons_self

/-- An operation of the main thread under the condition. -/
theorem op {s : Observed Conversion} {e : ClientOp} (hi : ConversionInv s.app.audio s.hist)
    (hallow : NoStopInFlight e s) :
    ConversionInv (e.perform s.app.world s.app.audio).2 (Conversion.onOp e s.app s.hist) := by
  obtain ⟨n, hn⟩ := (ClientOp.listsKept_perform s.app.world s.app.audio e).posted
  have hnew : ∀ h : Conversion, h.starting = s.hist.starting →
      StartInFlight (e.perform s.app.world s.app.audio).2 h → StartInFlight s.app.audio s.hist := by
    rintro h heq (hmem | hs)
    · rw [hn, List.mem_append] at hmem
      exact hmem.elim .inl fun hm => by cases List.eq_of_mem_replicate hm
    · exact .inr (heq ▸ hs)
  by_cases hstop : e = .stopAudio
  · have hnone : ¬ StartInFlight s.app.audio s.hist := fun hf => (hallow hf).1 hstop
    subst hstop
    refine ⟨fun hf => absurd (hnew _ rfl hf) hnone, ?_, fun hmem => hnone ?_, hi.current⟩
    · rw [hn, List.length_append]
      exact Nat.le_add_right _ _
    · have hmem' := List.mem_of_mem_take hmem
      exact hnew s.hist rfl (.inl hmem')
  · have hhist : Conversion.onOp e s.app s.hist = s.hist := by
      unfold Conversion.onOp
      split
      · exact absurd rfl hstop
      · rfl
    rw [hhist]
    exact hi.append hn fun hf => (hallow (hnew _ rfl hf)).2

theorem returned (hi : ConversionInv a h) : ConversionInv a h.onReturn :=
  ⟨fun hf => hi.connected (hf.imp_right fun hs => by cases hs), hi.stale_le, hi.fresh,
    fun hs => by cases hs⟩

end ConversionInv

/-! ## The runs -/

/-- The server is asked to start only with a connected stream and for a signal that `StopAudio` has
not overtaken. -/
def StartsConnected (e : ClientOp) (s : Observed Conversion) : Prop :=
  e = .emit .serverStart → s.app.audio.Connected ∧ s.hist.overtaken = false

theorem onOp_starting (e : ClientOp) (app : App) (h : Conversion) :
    (Conversion.onOp e app h).starting = h.starting := by
  unfold Conversion.onOp
  split <;> rfl

section Outline

variable (may : Occurrence F → App → Conversion → Prop) {p : Slot UwaVClient} {s : Observed Conversion}

theorem slotSafe_conversion {φ : ClientOp → Prop} {Q : UwaVClient → Prop} {P : Bool → Prop}
    (hp : p.Ensures φ Q) (hstart : ∀ e, φ e → e = .emit .serverStart → ∀ b, P b → b = true)
    (hi : ConversionInv s.app.audio s.hist) (hs : P s.hist.starting) :
    SlotSafe (conversionObserver may) NoStopInFlight ConversionInv (fun _ _ => True) StartsConnected
      p s := by
  refine slotSafe_of_ensures (P := fun h => P h.starting) hp (fun e t he hit ht => ⟨fun h => ?_, ?_⟩)
    (fun hit _ => hit.returned) (fun _ _ => trivial) hi hs
  · have hst := hstart e he h _ ht
    exact ⟨hit.connected (.inr hst), hit.current hst⟩
  · intro hallow
    refine ⟨hit.op hallow, ?_⟩
    change P (Conversion.onOp e t.app t.hist).starting
    rw [onOp_starting]
    exact ht

theorem slotSafe_conversion_of_ordinary {Q : UwaVClient → Prop} (hp : p.Ensures ClientOp.Ordinary Q)
    (hi : ConversionInv s.app.audio s.hist) :
    SlotSafe (conversionObserver may) NoStopInFlight ConversionInv (fun _ _ => True) StartsConnected
      p s :=
  slotSafe_conversion may (P := fun _ => True) hp (fun _ he h => by rw [h] at he; exact he.elim) hi
    trivial

end Outline

/-- Every slot and every callback keeps the invariant under the condition. -/
def conversionOutline (A : FloatOps F) :
    AppOutline A (conversionObserver (StreamsStay A)) NoStopInFlight where
  inv := ConversionInv
  idle _ _ := True
  claim := StartsConnected
  others {o _ _} ho := by
    cases o with
    | posted fuel => exact absurd rfl ho
    | _ => rfl
  callback hi hmay hb := hi.callback hb fun hf => hmay hf _ hb
  posted {fuel s rest app h} hi _ _ hposted := by
    have ht : ConversionInv { app.audio with posted := rest } (h.take app.audio.posted) :=
      hi.take hposted
    refine ⟨ht, slotSafe_conversion _ (P := fun b => s = .streamStarted → b = true)
      (ensures_signal s fuel app.client) (fun e he hstart b hb => hb (he.1 hstart)) ht fun hs => ?_⟩
    simp [conversionObserver, Conversion.onStart, Conversion.take, hposted, hs]
  sio {s app h} hi _ _ := ⟨hi, slotSafe_conversion_of_ordinary _ (ensures_sio s app.client) hi⟩
  ui {e app h} hi _ _ := ⟨hi, slotSafe_conversion_of_ordinary _ (routine_ui e app.client) hi⟩

/-- No conversion without audio: in every run in which the audio is neither stopped nor taken away
while a start is in flight, the server is asked to start only with a connected stream, and never for
a signal that `StopAudio` has overtaken. -/
theorem conversion_starts_connected (A : FloatOps F) {w : World} {c : AppConfig Conversion}
    (run : Reaches (appSystem A (conversionObserver (StreamsStay A))) (fun _ => NoStopInFlight)
      (.initial ⟨.launched w, {}⟩) c) (next : nextOp c = some (.emit .serverStart)) :
    c.shared.app.audio.Connected ∧ c.shared.hist.overtaken = false := by
  have hinit : ConversionInv (App.launched w).audio {} := by
    refine ⟨fun hf => ?_, Nat.zero_le _, by simp, fun hs => by cases hs⟩
    rcases hf with hmem | hs
    · cases hmem
    · cases hs
  exact (conversionOutline A).claim_of_reaches hinit trivial run next rfl

section Schedules

variable {A : FloatOps F} (e : ClientOp) (s : Observed Conversion)

instance (a : AudioProvider) (h : Conversion) : Decidable (StartInFlight a h) :=
  inferInstanceAs (Decidable (_ ∨ _))

instance : Decidable (NoStopInFlight e s) := inferInstanceAs (Decidable (_ → _ ∧ _))

instance (o : Occurrence F) (app : App) (h : Conversion) :
    Decidable ((conversionObserver (StreamsStay A)).may o app h) :=
  match o with
  | .callback cb =>
    have : Decidable (∀ a, cb.apply A app.audio = some (.ok a) → a.Connected) :=
      match hcb : cb.apply A app.audio with
      | some (.ok b) => decidable_of_iff b.Connected (by simp)
      | some (.error _) => isTrue (by simp)
      | none => isTrue (by simp)
    inferInstanceAs (Decidable (StartInFlight app.audio h → _))
  | .posted _ | .sio _ | .ui _ | .change _ => isTrue trivial

instance (o : Occurrence F) (app : App) (h : Conversion) :
    Decidable ((conversionObserver fun _ _ _ => True : AppObserver F Conversion).may o app h) :=
  isTrue trivial

def startsServer (c : AppConfig Conversion) : Bool := nextOp c = some (.emit .serverStart)

end Schedules

theorem conversion_starts_with_both_streams : ∃ c,
    Reaches (appSystem plainFloats (conversionObserver (StreamsStay plainFloats)))
      (fun _ => NoStopInFlight) (.initial ⟨.launched .online, {}⟩) c ∧
    nextOp c = some (.emit .serverStart) ∧ c.shared.app.audio.Connected := by
  have hrun : ∃ c : AppConfig Conversion,
      Reaches (appSystem plainFloats (conversionObserver (StreamsStay plainFloats)))
        (fun _ => NoStopInFlight) (.initial ⟨.launched .online, {}⟩) c ∧ startsServer c :=
    reaches_of_schedule
      (L := appLauncher plainFloats (conversionObserver (StreamsStay plainFloats)))
      (devicesListed ++ streamsRunning ++ mainMoves (.posted 0) 5) (by decide +kernel)
  obtain ⟨c, run, hnext⟩ := hrun
  have next := of_decide_eq_true hnext
  exact ⟨c, run, next, (conversion_starts_connected plainFloats run next).1⟩

/-- The stop button is pressed while `streamStarted` waits: both streams are gone when the server is
asked to start, for a signal that `StopAudio` has overtaken. -/
theorem conversion_starts_after_stop : ∃ c,
    Reaches (appSystem plainFloats (conversionObserver fun _ _ _ => True)) (fun _ _ _ => True)
      (.initial ⟨.launched .online, {}⟩) c ∧
    nextOp c = some (.emit .serverStart) ∧ ¬ c.shared.app.audio.Connected ∧
      c.shared.hist.overtaken := by
  have hrun : ∃ c : AppConfig Conversion,
      Reaches (appSystem plainFloats (conversionObserver fun _ _ _ => True)) (fun _ _ _ => True)
        (.initial ⟨.launched .online, {}⟩) c ∧
      (startsServer c && !decide c.shared.app.audio.Connected && c.shared.hist.overtaken) :=
    reaches_of_schedule (L := appLauncher plainFloats (conversionObserver fun _ _ _ => True))
      (devicesListed ++ streamsRunning ++ mainMoves (.ui .stopClicked) 4 ++ mainMoves (.posted 0) 3)
      (by decide +kernel)
  obtain ⟨c, run, hstop⟩ := hrun
  simp only [Bool.and_eq_true, Bool.not_eq_true', decide_eq_false_iff_not] at hstop
  exact ⟨c, run, of_decide_eq_true hstop.1.1, hstop.1.2, hstop.2⟩

end UwavClient
