import UwavClient.Library.RelyGuarantee

/-!
# Schedules

A launcher says how a command starts a call of a thread, when it can. With it a list of moves is a
schedule that can be executed, and what it leads to is reachable.
-/

namespace Interleaving

variable {ι σ E K α : Type} {R : E → Type}

structure Launcher (S : System ι σ E R α) (K : Type) where
  launch : ι → K → σ → Option (Program E R α × σ)
  sound : ∀ {i k s p t}, launch i k s = some (p, t) → S.start i s p t

/-- One step of a schedule: a thread starts a call, or performs its next operation or returns. -/
inductive Move (ι K : Type) where
  | call (i : ι) (k : K)
  | step (i : ι)

variable [DecidableEq ι] {S : System ι σ E R α} (L : Launcher S K) (allow : ι → E → σ → Prop)
  [∀ i e s, Decidable (allow i e s)]

def Config.move (c : Config ι σ E R α) : Move ι K → Option (Config ι σ E R α)
  | .call i k =>
    match c.thread i with
    | some _ => none
    | none => (L.launch i k c.shared).map fun (p, s) => c.resume i s (some p)
  | .step i =>
    match c.thread i with
    | none => none
    | some (.ret a) => some (c.resume i (S.finish i a c.shared) none)
    | some (.op e k) =>
      if allow i e c.shared then
        let (r, s) := S.handler i e c.shared
        some (c.resume i s (some (k r)))
      else none

def Config.follow (c : Config ι σ E R α) (schedule : List (Move ι K)) :
    Option (Config ι σ E R α) :=
  schedule.foldlM (Config.move L allow) c

variable {L allow} {c₀ c c' : Config ι σ E R α}

theorem reaches_move (run : Reaches S allow c₀ c) {m : Move ι K}
    (h : Config.move L allow c m = some c') : Reaches S allow c₀ c' := by
  cases m with
  | call i k =>
    cases ht : c.thread i with
    | some p => simp [Config.move, ht] at h
    | none =>
      simp only [Config.move, ht, Option.map_eq_some_iff] at h
      obtain ⟨⟨p, s⟩, hl, rfl⟩ := h
      exact run.start ht (L.sound hl)
  | step i =>
    cases ht : c.thread i with
    | none => simp [Config.move, ht] at h
    | some p =>
      cases p with
      | ret a =>
        simp only [Config.move, ht, Option.some.injEq] at h
        exact h ▸ run.finish ht
      | op e k =>
        simp only [Config.move, ht, Option.ite_none_right_eq_some, Option.some.injEq] at h
        obtain ⟨hallow, rfl⟩ := h
        exact run.op ht hallow

theorem reaches_follow (run : Reaches S allow c₀ c) {schedule : List (Move ι K)}
    (h : Config.follow L allow c schedule = some c') : Reaches S allow c₀ c' := by
  induction schedule generalizing c with
  | nil =>
    cases h
    exact run
  | cons m ms ih =>
    obtain ⟨d, hd, hrest⟩ := Option.bind_eq_some_iff.mp h
    exact ih (reaches_move run hd) hrest

/-- Following a schedule shows that what it leads to is reachable. -/
theorem reaches_of_schedule (schedule : List (Move ι K)) {good : Config ι σ E R α → Bool}
    (h : (Config.follow L allow c₀ schedule).any good) :
    ∃ c, Reaches S allow c₀ c ∧ good c := by
  cases hf : Config.follow L allow c₀ schedule with
  | none => simp [hf] at h
  | some c => exact ⟨c, reaches_follow .refl hf, by simpa [hf] using h⟩

/-- A schedule that leads to a state, and another that starts over from it. -/
theorem reaches_of_schedules {T : System ι σ E R α} {M : Launcher T K} {allow' : ι → E → σ → Prop}
    [∀ i e s, Decidable (allow' i e s)] (first second : List (Move ι K))
    {good good' : Config ι σ E R α → Bool}
    (h : (Config.follow L allow c₀ first).any fun c =>
      good c && (Config.follow M allow' (.initial c.shared) second).any good') :
    ∃ c c', Reaches S allow c₀ c ∧ good c ∧ Reaches T allow' (.initial c.shared) c' ∧ good' c' := by
  obtain ⟨c, run, hc⟩ := reaches_of_schedule first h
  obtain ⟨hgood, hsecond⟩ := Bool.and_eq_true _ _ ▸ hc
  obtain ⟨c', run', hgood'⟩ := reaches_of_schedule second hsecond
  exact ⟨c, c', run, hgood, run', hgood'⟩

end Interleaving
