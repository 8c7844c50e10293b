import UwavClient.Client.Slots

/-!
# Proof outlines of the running program

A fact about every run of the program needs an invariant of the provider and the history, an
assertion on the client that holds between slots, and what is claimed of each operation. The threads
other than the main one leave the client and the history alone, so it is enough to verify each slot
and each callback.
-/

namespace UwavClient

open Interleaving Slot ExceptT

variable {F H : Type}

/-- The other threads change neither the client nor the history and do not revive the program. -/
def OthersOnly (s t : Observed H) : Prop :=
  t.app.client = s.app.client ∧ t.hist = s.hist ∧ (t.app.running → s.app.running)

theorem OthersOnly.refl (s : Observed H) : OthersOnly s s := ⟨rfl, rfl, id⟩

theorem OthersOnly.trans {s t u : Observed H} (h : OthersOnly s t) (h' : OthersOnly t u) :
    OthersOnly s u :=
  ⟨h'.1.trans h.1, h'.2.1.trans h.2.1, h.2.2 ∘ h'.2.2⟩

def mainContract (claim : ClientOp → Observed H → Prop) : Contract (Observed H) ClientOp where
  rely := OthersOnly
  guar _ _ := True
  claim := claim
  rely_refl := .refl
  rely_trans := .trans

/-- The other threads do not touch the history. -/
theorem stable_hist {inv : Observed H → Prop} {claim : ClientOp → Observed H → Prop} (P : H → Prop) :
    Stable inv (mainContract claim) fun s => P s.hist := by
  intro s t _ _ hr hs
  rwa [hr.2.1]

/-- A slot runs on `c` with the history `h`. -/
def RunsOn (c : UwaVClient) (h : H) (s : Observed H) : Prop := s.app.client = c ∧ s.hist = h

theorem stable_runsOn {inv : Observed H → Prop} {claim : ClientOp → Observed H → Prop}
    {c : UwaVClient} {h : H} : Stable inv (mainContract claim) (RunsOn c h) :=
  fun _ _ _ _ hr hs => ⟨hr.1.trans hs.1, hr.2.1.trans hs.2⟩

/-- Operations that leave the history alone. -/
theorem runsOn_of_ensures {obs : AppObserver F H} {allow claim : ClientOp → Observed H → Prop}
    {α : Type} {p : Slot α} {φ : ClientOp → Prop} {Q : α → Prop} {c : UwaVClient} {h : H}
    {s : Observed H} (hp : p.Ensures φ Q)
    (hop : ∀ e t, φ e → claim e t ∧ obs.onOp e t.app t.hist = t.hist) (hs : RunsOn c h s) :
    SafeRaising (appHandler obs) (fun _ => True) (mainContract claim) allow p
      (fun a t => Q a ∧ RunsOn c h t) s := by
  refine safeRaising_of_ensures stable_runsOn (fun e t he _ ht => ?_) hp trivial hs
  obtain ⟨hclaim, hhist⟩ := hop e t he
  exact ⟨hclaim, fun _ => ⟨trivial, trivial, ht.1, hhist.trans ht.2⟩⟩

def othersContract : Contract (Observed H) ClientOp where
  rely _ _ := True
  guar := OthersOnly
  claim _ _ := True
  rely_refl _ := trivial
  rely_trans _ _ := trivial

/-- What has to be shown of a slot: the verification condition of its program, from which the
invariant and the assertion between slots follow at its return. -/
def SlotSafe (obs : AppObserver F H) (allow : ClientOp → Observed H → Prop)
    (inv : AudioProvider → H → Prop) (idle : UwaVClient → H → Prop)
    (claim : ClientOp → Observed H → Prop) (p : Slot UwaVClient) (s : Observed H) : Prop :=
  Safe (appHandler obs) (fun s => inv s.app.audio s.hist) (mainContract claim) allow p.run
    (fun r t => inv t.app.audio (obs.onReturn t.hist) ∧
      ∀ c, r = .ok c → idle c (obs.onReturn t.hist)) s

structure AppOutline (A : FloatOps F) (obs : AppObserver F H)
    (allow : ClientOp → Observed H → Prop) where
  inv : AudioProvider → H → Prop
  idle : UwaVClient → H → Prop
  claim : ClientOp → Observed H → Prop
  others : ∀ {o : Occurrence F} {app h}, o.thread ≠ .main → obs.onStart o app h = h
  callback : ∀ {cb app h a}, inv app.audio h → obs.may (.callback cb) app h →
    cb.apply A app.audio = some (.ok a) → inv a h
  posted : ∀ {fuel s rest app h}, inv app.audio h → idle app.client h →
    obs.may (.posted fuel) app h → app.audio.posted = s :: rest →
    let t := ⟨{ app with audio := { app.audio with posted := rest } },
      obs.onStart (.posted fuel) app h⟩
    inv t.app.audio t.hist ∧ SlotSafe obs allow inv idle claim (s.slot fuel app.client) t
  sio : ∀ {s app h}, inv app.audio h → idle app.client h → obs.may (.sio s) app h →
    let h' := obs.onStart (.sio s) app h
    inv app.audio h' ∧ SlotSafe obs allow inv idle claim (s.slot app.client) ⟨app, h'⟩
  ui : ∀ {e app h}, inv app.audio h → idle app.client h → obs.may (.ui e) app h →
    let h' := obs.onStart (.ui e) app h
    inv app.audio h' ∧ SlotSafe obs allow inv idle claim (e.slot app.client) ⟨app, h'⟩

namespace AppOutline

variable {A : FloatOps F} {obs : AppObserver F H} {allow : ClientOp → Observed H → Prop}
  (O : AppOutline A obs allow)

def contract : AppThread → Contract (Observed H) ClientOp
  | .main => mainContract O.claim
  | _ => othersContract

def idleOf : AppThread → Observed H → Prop
  | .main, s => s.app.running → O.idle s.app.client s.hist
  | _, _ => True

/-- Callbacks and changes of the world are over once they have begun. -/
theorem call_others {o : Occurrence F} {s : Observed H} {p : AppProgram} {app : App}
    (ho : o.thread ≠ .main) (hinv : O.inv s.app.audio s.hist) (hmay : obs.may o s.app s.hist)
    (hbegin : o.begin A s.app = some (p, app)) :
    OthersOnly s ⟨app, s.hist⟩ ∧ O.inv app.audio s.hist ∧ p = .ret (.ok app.client) := by
  cases o with
  | posted fuel => exact absurd rfl ho
  | sio sig => exact absurd rfl ho
  | ui e => exact absurd rfl ho
  | callback cb =>
    simp only [Occurrence.begin] at hbegin
    split at hbegin
    · cases hbegin
    · cases hbegin
      exact ⟨⟨rfl, rfl, fun h => by cases h⟩, hinv, rfl⟩
    · rename_i a ha
      cases hbegin
      exact ⟨⟨rfl, rfl, id⟩, O.callback hinv hmay ha, rfl⟩
  | change w =>
    cases hbegin
    exact ⟨⟨rfl, rfl, id⟩, hinv, rfl⟩

theorem call_main {o : Occurrence F} {s : Observed H} {p : AppProgram} {app : App}
    (ho : o.thread = .main) (hinv : O.inv s.app.audio s.hist) (hidle : O.idle s.app.client s.hist)
    (hmay : obs.may o s.app s.hist) (hbegin : o.begin A s.app = some (p, app)) :
    O.inv app.audio (obs.onStart o s.app s.hist) ∧
      SlotSafe obs allow O.inv O.idle O.claim p ⟨app, obs.onStart o s.app s.hist⟩ := by
  cases o with
  | posted fuel =>
    simp only [Occurrence.begin] at hbegin
    split at hbegin
    · cases hbegin
    · rename_i sig rest hposted
      cases hbegin
      exact O.posted hinv hidle hmay hposted
  | sio sig =>
    cases hbegin
    exact O.sio hinv hidle hmay
  | ui e =>
    cases hbegin
    exact O.ui hinv hidle hmay
  | callback cb => cases ho
  | change w => cases ho

def spec : Spec (appSystem A obs) (fun _ => allow) where
  inv s := O.inv s.app.audio s.hist
  contract := O.contract
  idle := O.idleOf
  compatible {i j s t} hij hg := by
    cases j with
    | main =>
      cases i with
      | main => exact absurd rfl hij
      | pipewire => exact hg
      | world => exact hg
    | pipewire => trivial
    | world => trivial
  stable i := by
    cases i with
    | main =>
      intro s t _ _ h hidle hrun
      rw [h.1, h.2.1]
      exact hidle (h.2.2 hrun)
    | pipewire => exact fun _ _ _ _ _ _ => trivial
    | world => exact fun _ _ _ _ _ _ => trivial
  call {i s p t} hinv hidle hstart := by
    obtain ⟨hrun, o, rfl, hmay, app, hbegin, rfl⟩ := hstart
    by_cases ho : o.thread = .main
    · obtain ⟨hi, hsafe⟩ := O.call_main ho hinv (by rw [ho] at hidle; exact hidle hrun) hmay hbegin
      rw [ho]
      refine ⟨trivial, hi, safe_mono hsafe fun r u _ hr => ?_⟩
      cases r with
      | ok c => exact ⟨trivial, hr.1, fun _ => hr.2 c rfl⟩
      | error e => exact ⟨trivial, hr.1, fun h => by cases h⟩
    · obtain ⟨hother, hi, rfl⟩ := O.call_others ho hinv hmay hbegin
      rw [O.others ho]
      generalize o.thread = i at ho
      cases i with
      | main => exact absurd rfl ho
      | pipewire => exact ⟨hother, hi, fun u _ hu => ⟨.refl u, hu, trivial⟩⟩
      | world => exact ⟨hother, hi, fun u _ hu => ⟨.refl u, hu, trivial⟩⟩

section Runs

variable {app : App} {h : H} {c : AppConfig H}

theorem holds_initial (hidle : O.idle app.client h) (i : AppThread) :
    O.spec.Holds i ((Config.initial ⟨app, h⟩ : AppConfig H).thread i) ⟨app, h⟩ := by
  cases i with
  | main => exact fun _ => hidle
  | pipewire => trivial
  | world => trivial

theorem sound (hinv : O.inv app.audio h) (hidle : O.idle app.client h)
    (run : Reaches (appSystem A obs) (fun _ => allow) (.initial ⟨app, h⟩) c) :
    O.inv c.shared.app.audio c.shared.hist ∧
      ∀ i, O.spec.Holds i (c.thread i) c.shared := by
  have hstart : O.spec.inv (Config.initial ⟨app, h⟩ : AppConfig H).shared := hinv
  exact O.spec.sound hstart (O.holds_initial hidle) run

/-- Between two slots of the running program the assertion on the client holds. -/
theorem idle_of_reaches (hinv : O.inv app.audio h) (hidle : O.idle app.client h)
    (run : Reaches (appSystem A obs) (fun _ => allow) (.initial ⟨app, h⟩) c)
    (hmain : c.thread .main = none) (hrun : c.shared.app.running) :
    O.idle c.shared.app.client c.shared.hist := by
  have hholds := (O.sound hinv hidle run).2 .main
  rw [hmain] at hholds
  exact hholds hrun

/-- What is claimed of an operation holds whenever the main thread is about to perform it. -/
theorem claim_of_reaches (hinv : O.inv app.audio h) (hidle : O.idle app.client h)
    (run : Reaches (appSystem A obs) (fun _ => allow) (.initial ⟨app, h⟩) c) {e : ClientOp}
    (next : nextOp c = some e) : O.claim e c.shared := by
  have hstart : O.spec.inv (Config.initial ⟨app, h⟩ : AppConfig H).shared := hinv
  unfold nextOp at next
  split at next
  · rename_i k hk
    cases next
    exact O.spec.claim_of_next hstart (O.holds_initial hidle) run hk
  · cases next

end Runs

end AppOutline

/-- A slot whose operations keep an assertion on the history is safe. -/
theorem slotSafe_of_ensures {obs : AppObserver F H} {allow : ClientOp → Observed H → Prop}
    {inv : AudioProvider → H → Prop} {idle : UwaVClient → H → Prop}
    {claim : ClientOp → Observed H → Prop} {p : Slot UwaVClient} {φ : ClientOp → Prop}
    {Q : UwaVClient → Prop} {P : H → Prop} (hp : p.Ensures φ Q)
    (hop : ∀ e s, φ e → inv s.app.audio s.hist → P s.hist → claim e s ∧
      (allow e s → inv (appHandler obs e s).2.app.audio (obs.onOp e s.app s.hist) ∧
        P (obs.onOp e s.app s.hist)))
    (hreturn : ∀ {a h}, inv a h → P h → inv a (obs.onReturn h))
    (hidle : ∀ {c h}, Q c → P h → idle c (obs.onReturn h)) {s : Observed H}
    (hinv : inv s.app.audio s.hist) (hs : P s.hist) : SlotSafe obs allow inv idle claim p s := by
  refine safe_mono (safe_of_ensures (stable_hist P) (fun e t he hit ht => ?_) hp hinv hs)
    fun r t hit ht => ⟨hreturn hit ht.2, fun c hc => hidle (ht.1 c hc) ht.2⟩
  exact ⟨(hop e t he hit ht).1, fun ha => ⟨trivial, (hop e t he hit ht).2 ha⟩⟩

end UwavClient
