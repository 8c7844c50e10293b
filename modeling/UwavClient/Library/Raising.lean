import UwavClient.Library.RelyGuarantee

/-!
# Programs that may raise an exception

The conditions under which every operation of such a program satisfies one predicate and every value
it returns another, computed from the program's syntax; what it raises is not restricted. A program
that yields a value returns it whatever the answers, and raises nothing.
-/

namespace Program

variable {E : Type} {R : E → Type}

instance : LawfulMonad (Program E R) := by
  refine LawfulMonad.mk' _ (fun p => ?_) (fun _ _ => rfl) fun p f g => ?_
  · induction p with
    | ret a => rfl
    | op e k ih => exact congrArg (op e) (funext ih)
  · induction p with
    | ret a => rfl
    | op e k ih => exact congrArg (op e) (funext ih)

end Program

namespace ExceptT

open Program

variable {E ε α β : Type} {R : E → Type}

/-- Every operation satisfies `φ` and every value returned satisfies `Q`, whatever the answers. -/
def Ensures (φ : E → Prop) (Q : α → Prop) (p : ExceptT ε (Program E R) α) : Prop :=
  Program.Ensures φ (fun r => ∀ a, r = .ok a → Q a) p.run

variable {φ ψ : E → Prop} {P Q : α → Prop} {p q : ExceptT ε (Program E R) α}

@[simp] theorem ensures_pure {a : α} :
    (pure a : ExceptT ε (Program E R) α).Ensures φ Q ↔ Q a :=
  ⟨fun h => h a rfl, fun h _ hb => Except.ok.inj hb ▸ h⟩

@[simp] theorem ensures_throw {e : ε} :
    (throw e : ExceptT ε (Program E R) α).Ensures φ Q :=
  fun _ h => by cases h

@[simp] theorem ensures_lift_perform {e : E} {Q : R e → Prop} :
    (ExceptT.lift (perform e) : ExceptT ε (Program E R) (R e)).Ensures φ Q ↔ φ e ∧ ∀ r, Q r :=
  and_congr_right fun _ => forall_congr' fun r => ensures_pure (a := r)

@[simp] theorem ensures_bind {Q : β → Prop} {f : α → ExceptT ε (Program E R) β} :
    (p >>= f).Ensures φ Q ↔ p.Ensures φ fun a => (f a).Ensures φ Q := by
  unfold Ensures
  change (p.run >>= ExceptT.bindCont f).Ensures φ _ ↔ _
  induction p.run with
  | ret r =>
    cases r with
    | ok a =>
      constructor
      · intro h b hb
        cases hb
        exact h
      · exact fun h => h a rfl
    | error e =>
      constructor
      · intro _ b hb
        cases hb
      · intro _ b hb
        cases hb
  | op e k ih => exact and_congr_right fun _ => forall_congr' ih

@[simp] theorem ensures_map {Q : β → Prop} {f : α → β} :
    (f <$> p).Ensures φ Q ↔ p.Ensures φ fun a => Q (f a) := by
  rw [← bind_pure_comp, ensures_bind]
  simp only [ensures_pure]

@[simp] theorem ensures_ite {c : Prop} [Decidable c] :
    (if c then p else q).Ensures φ Q ↔ (c → p.Ensures φ Q) ∧ (¬c → q.Ensures φ Q) := by
  split <;> simp_all

theorem Ensures.mono (h : p.Ensures φ P) (hφ : ∀ e, φ e → ψ e) (hQ : ∀ a, P a → Q a) :
    p.Ensures ψ Q :=
  Program.Ensures.mono h hφ fun _ hr a ha => hQ a (hr a ha)

theorem Ensures.post (h : p.Ensures φ P) (hQ : ∀ a, P a → Q a) : p.Ensures φ Q :=
  h.mono (fun _ => id) hQ

theorem Ensures.and (hP : p.Ensures φ P) (hQ : p.Ensures ψ Q) :
    p.Ensures φ fun a => P a ∧ Q a :=
  Program.Ensures.mono (Program.Ensures.and hP hQ) (fun _ => id) fun _ hr a ha =>
    ⟨hr.1 a ha, hr.2 a ha⟩

theorem ensures_trivial (hφ : ∀ e, φ e) (hQ : ∀ a, Q a) (p : ExceptT ε (Program E R) α) :
    p.Ensures φ Q := by
  unfold Ensures
  induction p.run with
  | ret r => exact fun a _ => hQ a
  | op e k ih => exact ⟨hφ e, ih⟩

/-- The invariant rule for a loop over a list. -/
theorem ensures_foldlM {I : β → Prop} {f : β → α → ExceptT ε (Program E R) β}
    (hf : ∀ b a, I b → (f b a).Ensures φ I) {l : List α} {b : β} (hb : I b) :
    (l.foldlM f b).Ensures φ I := by
  induction l generalizing b with
  | nil => exact ensures_pure.mpr hb
  | cons a l ih => exact ensures_bind.mpr ((hf b a hb).post fun _ => ih)

/-- A loop over a list that returns has gone through every element. -/
theorem ensures_foldlM_forall {I : β → Prop} {C : α → Prop} {f : β → α → ExceptT ε (Program E R) β}
    (hf : ∀ b a, I b → (f b a).Ensures φ fun b' => I b' ∧ C a) {l : List α} {b : β} (hb : I b) :
    (l.foldlM f b).Ensures φ fun _ => ∀ a ∈ l, C a := by
  induction l generalizing b with
  | nil => exact ensures_pure.mpr nofun
  | cons a l ih =>
    refine ensures_bind.mpr ((hf b a hb).post fun b' h => (ih h.1).post fun _ hl => ?_)
    exact List.forall_mem_cons.mpr ⟨h.2, hl⟩

theorem ensures_mapM {f : α → ExceptT ε (Program E R) β} (hf : ∀ a, (f a).Ensures φ fun _ => True)
    {l : List α} : (l.mapM f).Ensures φ fun _ => True := by
  induction l with
  | nil => simp
  | cons a l ih =>
    rw [List.mapM_cons, ensures_bind]
    refine (hf a).post fun _ _ => ensures_bind.mpr (ih.post fun _ _ => ?_)
    exact ensures_pure.mpr trivial

/-- The program returns this value, whatever the answers. -/
def Yields (p : ExceptT ε (Program E R) α) (a : α) : Prop :=
  Program.Ensures (fun _ => True) (· = .ok a) p.run

theorem yields_pure (a : α) : (pure a : ExceptT ε (Program E R) α).Yields a := rfl

theorem yields_lift {e : E} {f : R e → ExceptT ε (Program E R) α} {a : α}
    (hf : ∀ r, (f r).Yields a) : (ExceptT.lift (perform e) >>= f).Yields a :=
  ⟨trivial, hf⟩

theorem Yields.bind {f : α → ExceptT ε (Program E R) β} {a : α} {b : β} (hp : p.Yields a)
    (hf : (f a).Yields b) : (p >>= f).Yields b :=
  Program.ensures_bind (f := ExceptT.bindCont f) hp fun r hr => by
    subst hr
    exact hf

/-- A loop whose rounds yield what a pure function computes. -/
theorem yields_foldlM {f : β → α → ExceptT ε (Program E R) β} {g : β → α → β}
    (hf : ∀ b a, (f b a).Yields (g b a)) (l : List α) (b : β) :
    (l.foldlM f b).Yields (l.foldl g b) := by
  induction l generalizing b with
  | nil => exact yields_pure b
  | cons a l ih =>
    rw [List.foldlM_cons]
    exact (hf b a).bind (ih (g b a))

section Run

variable {σ τ : Type} {h : Handler E R σ} {g : Handler E R τ}

/-- The uninterrupted run. -/
def runOn (h : Handler E R σ) (p : ExceptT ε (Program E R) α) (s : σ) : Except ε α × σ :=
  Program.run h p.run s

theorem runOn_bind (h : Handler E R σ) (p : ExceptT ε (Program E R) α)
    (f : α → ExceptT ε (Program E R) β) (s : σ) :
    (p >>= f).runOn h s =
      match p.runOn h s with
      | (.ok x, t) => (f x).runOn h t
      | (.error e, t) => (.error e, t) := by
  refine (Program.run_bind h p.run (ExceptT.bindCont f) s).trans ?_
  unfold runOn
  rcases Program.run h p.run s with ⟨r, t⟩
  cases r <;> rfl

theorem along_bind {χ : E → σ → Prop} {p : ExceptT ε (Program E R) α}
    {f : α → ExceptT ε (Program E R) β} {s : σ} :
    Along h χ (p >>= f).run s ↔
      Along h χ p.run s ∧ ∀ x t, p.runOn h s = (.ok x, t) → Along h χ (f x).run t := by
  refine (Program.along_bind (p := p.run) (f := ExceptT.bindCont f)).trans
    (and_congr_right fun _ => ?_)
  unfold runOn
  rcases Program.run h p.run s with ⟨r, t⟩
  cases r with
  | ok x =>
    constructor
    · intro hf y u hy
      cases hy
      exact hf
    · exact fun hf => hf x t rfl
  | error e => exact ⟨fun _ _ _ hy => (by cases hy), fun _ => trivial⟩

/-- A program whose operations act on one part of the state runs there and leaves the rest alone. -/
theorem runOn_part (view : τ → σ) (put : σ → τ → τ) (hview : ∀ s t, view (put s t) = s)
    (hput : ∀ s s' t, put s' (put s t) = put s' t) (hid : ∀ t, put (view t) t = t)
    (hg : ∀ e t, φ e → g e t = ((h e (view t)).1, put (h e (view t)).2 t)) (hp : p.Ensures φ Q)
    (t : τ) : p.runOn g t = ((p.runOn h (view t)).1, put (p.runOn h (view t)).2 t) := by
  unfold Ensures at hp
  unfold runOn
  generalize p.run = m at hp
  induction m generalizing t with
  | ret r => exact congrArg (r, ·) (hid t).symm
  | op e k ih =>
    rw [run_op, run_op, hg e t hp.1, ih _ _ (hp.2 _), hview, hput]

theorem Yields.runOn {a : α} (hp : p.Yields a) (h : Handler E R σ) (s : σ) :
    ∃ t, p.runOn h s = (.ok a, t) := by
  unfold Yields at hp
  unfold ExceptT.runOn
  generalize p.run = m at hp
  induction m generalizing s with
  | ret r => exact ⟨s, congrArg (·, s) hp⟩
  | op e k ih => exact ih _ _ (hp.2 _)

/-- The uninterrupted run returns a value. -/
def Completes (h : Handler E R σ) (p : ExceptT ε (Program E R) α) (s : σ) : Prop :=
  ∃ a t, p.runOn h s = (.ok a, t)

section Completes

variable {h : Handler E R σ} {s : σ} {f : α → ExceptT ε (Program E R) β}

@[simp] theorem completes_pure {a : α} : (pure a : ExceptT ε (Program E R) α).Completes h s :=
  ⟨a, s, rfl⟩

@[simp] theorem not_completes_throw {e : ε} :
    ¬ (throw e : ExceptT ε (Program E R) α).Completes h s :=
  fun ⟨_, _, ha⟩ => by cases ha

theorem completes_bind : (p >>= f).Completes h s ↔
    ∃ a t, p.runOn h s = (.ok a, t) ∧ (f a).Completes h t := by
  unfold Completes
  rw [runOn_bind]
  rcases p.runOn h s with ⟨_ | a, t⟩
  · exact ⟨fun ⟨_, _, ha⟩ => (by cases ha), fun ⟨_, _, ha, _⟩ => (by cases ha)⟩
  · constructor
    · exact fun hf => ⟨a, t, rfl, hf⟩
    · rintro ⟨b, u, ⟨⟩, hf⟩
      exact hf

@[simp] theorem completes_map {f : α → β} : (f <$> p).Completes h s ↔ p.Completes h s := by
  rw [← bind_pure_comp, completes_bind]
  exact ⟨fun ⟨a, t, ha, _⟩ => ⟨a, t, ha⟩, fun ⟨a, t, ha⟩ => ⟨a, t, ha, completes_pure⟩⟩

/-- A program of operations that leave the state alone leaves it alone. -/
theorem runOn_frame (hφ : ∀ e t, φ e → (h e t).2 = t) (hp : p.Ensures φ P) {a : α} {t : σ}
    (ha : p.runOn h s = (.ok a, t)) : t = s ∧ P a := by
  unfold Ensures at hp
  unfold runOn at ha
  generalize p.run = m at hp ha
  induction m with
  | ret r =>
    cases ha
    exact ⟨rfl, hp a rfl⟩
  | op e k ih =>
    rw [run_op, hφ e s hp.1] at ha
    exact ih _ (hp.2 _) ha

/-- A sequence whose second half completes or not whatever the first returns. -/
theorem completes_bind_of_frame (hφ : ∀ e t, φ e → (h e t).2 = t) (hp : p.Ensures φ P) {C : Prop}
    (hf : ∀ a, P a → ((f a).Completes h s ↔ C)) :
    (p >>= f).Completes h s ↔ p.Completes h s ∧ C := by
  rw [completes_bind]
  constructor
  · rintro ⟨a, t, ha, hc⟩
    obtain ⟨rfl, hP⟩ := runOn_frame hφ hp ha
    exact ⟨⟨a, t, ha⟩, (hf a hP).mp hc⟩
  · rintro ⟨⟨a, t, ha⟩, hc⟩
    obtain ⟨rfl, hP⟩ := runOn_frame hφ hp ha
    exact ⟨a, t, ha, (hf a hP).mpr hc⟩

/-- A loop over a list whose rounds leave the state alone, and keep `I`, completes when every round
does. -/
theorem completes_foldlM {I : β → Prop} {f : β → α → ExceptT ε (Program E R) β}
    (hφ : ∀ e t, φ e → (h e t).2 = t) (hf : ∀ b a, I b → (f b a).Ensures φ I) {C : α → Prop}
    (hC : ∀ b a, I b → ((f b a).Completes h s ↔ C a)) {l : List α} {b : β} (hb : I b) :
    (l.foldlM f b).Completes h s ↔ ∀ a ∈ l, C a := by
  induction l generalizing b with
  | nil => simp
  | cons a l ih =>
    rw [List.foldlM_cons, completes_bind_of_frame hφ (hf b a hb) fun b' hb' => ih hb', hC b a hb,
      List.forall_mem_cons]

theorem completes_mapM (hφ : ∀ e t, φ e → (h e t).2 = t)
    (hf : ∀ a, (f a).Ensures φ fun _ => True) {C : α → Prop} (hC : ∀ a, (f a).Completes h s ↔ C a)
    {l : List α} : (l.mapM f).Completes h s ↔ ∀ a ∈ l, C a := by
  induction l with
  | nil => simp
  | cons a l ih =>
    rw [List.mapM_cons, completes_bind_of_frame hφ (hf a), hC, List.forall_mem_cons]
    intro b _
    rw [completes_bind_of_frame hφ (ensures_mapM hf) fun _ _ => iff_true_intro completes_pure, ih,
      and_true]

end Completes

end Run

end ExceptT

namespace Interleaving

open ExceptT

variable {E σ ε α β : Type} {R : E → Type} {h : Handler E R σ} {inv : σ → Prop} {C : Contract σ E}
  {allow : E → σ → Prop} {s : σ}

/-- The verification condition of a program that may raise; nothing is asked for when it does. -/
def SafeRaising (h : Handler E R σ) (inv : σ → Prop) (C : Contract σ E) (allow : E → σ → Prop)
    (p : ExceptT ε (Program E R) α) (Q : α → σ → Prop) : σ → Prop :=
  Safe h inv C allow p.run fun r t => ∀ a, r = .ok a → Q a t

theorem safeRaising_pure {a : α} {Q : α → σ → Prop} (hQ : Stable inv C (Q a)) (hi : inv s)
    (ha : Q a s) : SafeRaising (ε := ε) h inv C allow (pure a) Q s :=
  fun t ht hit _ hb => Except.ok.inj hb ▸ hQ s t hi hit ht ha

theorem safeRaising_mono {p : ExceptT ε (Program E R) α} {P Q : α → σ → Prop}
    (hp : SafeRaising h inv C allow p P s) (hPQ : ∀ a t, inv t → P a t → Q a t) :
    SafeRaising h inv C allow p Q s :=
  safe_mono hp fun _ t hit hr a ha => hPQ a t hit (hr a ha)

theorem safeRaising_bind {p : ExceptT ε (Program E R) α} {f : α → ExceptT ε (Program E R) β}
    {P : α → σ → Prop} {Q : β → σ → Prop} (hi : inv s) (hp : SafeRaising h inv C allow p P s)
    (hf : ∀ a t, inv t → P a t → SafeRaising h inv C allow (f a) Q t) :
    SafeRaising h inv C allow (p >>= f) Q s := by
  refine safe_bind hi hp fun r t hit hr => ?_
  cases r with
  | ok a => exact hf a t hit (hr a rfl)
  | error e => exact fun _ _ _ _ hb => by cases hb

/-- One operation between two stable assertions. -/
theorem safeRaising_lift {P : σ → Prop} (hP : Stable inv C P) {e : E} {Q : R e → σ → Prop}
    (hQ : ∀ r, Stable inv C (Q r)) (hi : inv s) (hs : P s)
    (step : ∀ t, inv t → P t → C.claim e t ∧ (allow e t → C.guar t (h e t).2 ∧ inv (h e t).2 ∧
      Q (h e t).1 (h e t).2)) :
    SafeRaising (ε := ε) h inv C allow (ExceptT.lift (Program.perform e)) Q s := by
  refine safe_bind hi (safe_perform hP hQ hi hs step) fun r t hit hr => ?_
  exact fun u hu hiu a ha => by cases ha; exact hQ r t u hit hiu hu hr

theorem safeRaising_of_ensures {φ : E → Prop} {P : σ → Prop} (hP : Stable inv C P)
    (hφ : ∀ e t, φ e → inv t → P t → C.claim e t ∧
      (allow e t → C.guar t (h e t).2 ∧ inv (h e t).2 ∧ P (h e t).2))
    {Q : α → Prop} {p : ExceptT ε (Program E R) α} (hp : p.Ensures φ Q) (hi : inv s) (hs : P s) :
    SafeRaising h inv C allow p (fun a t => Q a ∧ P t) s :=
  safe_mono (safe_of_ensures hP hφ hp hi hs) fun _ _ _ hr a ha => ⟨hr.1 a ha, hr.2⟩

end Interleaving
