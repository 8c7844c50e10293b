import UwavClient.Library.Program

/-!
# Interleaved programs and rely-guarantee proofs

Threads share one state. A thread is idle or inside a call, and one step of the system is one
operation of one thread, the start of a call, or its return. `Safe` is the verification condition of
a call under interference: before each of its operations the other threads may have changed the state
as its rely relation allows. `Spec.sound` turns one verification condition per call into a fact about
every reachable configuration.
-/

namespace Interleaving

variable {ι σ E : Type} {R : E → Type} {α β : Type}

/-- What the operations of each thread do, which calls an idle thread may start, and what the start
and the return of a call record in the shared state. -/
structure System (ι σ E : Type) (R : E → Type) (α : Type) where
  handler : ι → Handler E R σ
  start : ι → σ → Program E R α → σ → Prop
  finish : ι → α → σ → σ

structure Config (ι σ E : Type) (R : E → Type) (α : Type) where
  shared : σ
  thread : ι → Option (Program E R α)

namespace Config

def initial (s : σ) : Config ι σ E R α := ⟨s, fun _ => none⟩

def Quiet (c : Config ι σ E R α) : Prop := ∀ i, c.thread i = none

def resume [DecidableEq ι] (c : Config ι σ E R α) (i : ι) (s : σ) (t : Option (Program E R α)) :
    Config ι σ E R α :=
  ⟨s, Function.update c.thread i t⟩

end Config

/-- The configurations of the runs whose operations all satisfy `allow` in the state they act on. -/
inductive Reaches [DecidableEq ι] (S : System ι σ E R α) (allow : ι → E → σ → Prop)
    (c₀ : Config ι σ E R α) : Config ι σ E R α → Prop
  | refl : Reaches S allow c₀ c₀
  | start {c : Config ι σ E R α} {i : ι} {p : Program E R α} {s : σ} (run : Reaches S allow c₀ c)
      (idle : c.thread i = none) (call : S.start i c.shared p s) :
      Reaches S allow c₀ (c.resume i s (some p))
  | op {c : Config ι σ E R α} {i : ι} {e : E} {k : R e → Program E R α} (run : Reaches S allow c₀ c)
      (next : c.thread i = some (.op e k)) (ok : allow i e c.shared) :
      Reaches S allow c₀
        (c.resume i (S.handler i e c.shared).2 (some (k (S.handler i e c.shared).1)))
  | finish {c : Config ι σ E R α} {i : ι} {a : α} (run : Reaches S allow c₀ c)
      (done : c.thread i = some (.ret a)) :
      Reaches S allow c₀ (c.resume i (S.finish i a c.shared) none)

/-- A run that goes on under a stronger condition. -/
theorem Reaches.extend [DecidableEq ι] {S : System ι σ E R α} {allow allow' : ι → E → σ → Prop}
    {c₀ c d : Config ι σ E R α} (run : Reaches S allow c₀ c)
    (hallow : ∀ i e s, allow' i e s → allow i e s) (later : Reaches S allow' c d) :
    Reaches S allow c₀ d := by
  induction later with
  | refl => exact run
  | start _ idle call ih => exact ih.start idle call
  | op _ next ok ih => exact ih.op next (hallow _ _ _ ok)
  | finish _ done ih => exact ih.finish done

/-- What one thread may assume of the others, what it promises them, and what it claims of each
operation it is about to perform. -/
structure Contract (σ E : Type) where
  rely : σ → σ → Prop
  guar : σ → σ → Prop
  claim : E → σ → Prop
  rely_refl : ∀ s, rely s s
  rely_trans : ∀ {s t u}, rely s t → rely t u → rely s u

/-- The verification condition of a program that runs under interference. -/
def Safe (h : Handler E R σ) (inv : σ → Prop) (C : Contract σ E) (allow : E → σ → Prop) :
    Program E R α → (α → σ → Prop) → σ → Prop
  | .ret a, Q, s => ∀ t, C.rely s t → inv t → Q a t
  | .op e k, Q, s => ∀ t, C.rely s t → inv t → C.claim e t ∧
      (allow e t → C.guar t (h e t).2 ∧ inv (h e t).2 ∧
        Safe h inv C allow (k (h e t).1) Q (h e t).2)

/-- An assertion that the other threads cannot invalidate. -/
def Stable (inv : σ → Prop) (C : Contract σ E) (P : σ → Prop) : Prop :=
  ∀ s t, inv s → inv t → C.rely s t → P s → P t

section Rules

variable {h : Handler E R σ} {inv : σ → Prop} {C : Contract σ E} {allow : E → σ → Prop}

theorem Stable.and {P Q : σ → Prop} (hP : Stable inv C P) (hQ : Stable inv C Q) :
    Stable inv C fun s => P s ∧ Q s :=
  fun s t hs ht hr hpq => ⟨hP s t hs ht hr hpq.1, hQ s t hs ht hr hpq.2⟩

theorem Stable.or {P Q : σ → Prop} (hP : Stable inv C P) (hQ : Stable inv C Q) :
    Stable inv C fun s => P s ∨ Q s :=
  fun s t hs ht hr hpq => hpq.imp (hP s t hs ht hr) (hQ s t hs ht hr)

theorem stable_exists {β : Type} {P : β → σ → Prop} (hP : ∀ b, Stable inv C (P b)) :
    Stable inv C fun s => ∃ b, P b s :=
  fun s t hs ht hr ⟨b, hb⟩ => ⟨b, hP b s t hs ht hr hb⟩

theorem stable_const (φ : Prop) : Stable inv C fun _ => φ := fun _ _ _ _ _ h => h

/-- A condition that holds after any interference holds without interference too. -/
theorem safe_rely {p : Program E R α} {Q : α → σ → Prop} {s t : σ} (hst : C.rely s t)
    (hp : Safe h inv C allow p Q s) : Safe h inv C allow p Q t := by
  cases p with
  | ret a => exact fun u hu hi => hp u (C.rely_trans hst hu) hi
  | op e k => exact fun u hu hi => hp u (C.rely_trans hst hu) hi

theorem safe_ret {Q : α → σ → Prop} (hQ : ∀ a, Stable inv C (Q a)) {s : σ} (hi : inv s) {a : α}
    (ha : Q a s) : Safe h inv C allow (.ret a) Q s :=
  fun t ht hit => hQ a s t hi hit ht ha

/-- Sequencing: the second program starts where the first one ends. -/
theorem safe_bind {p : Program E R α} {f : α → Program E R β} {P : α → σ → Prop}
    {Q : β → σ → Prop} {s : σ} (hi : inv s) (hp : Safe h inv C allow p P s)
    (hf : ∀ a t, inv t → P a t → Safe h inv C allow (f a) Q t) :
    Safe h inv C allow (p >>= f) Q s := by
  induction p generalizing s with
  | ret a => exact hf a s hi (hp s (C.rely_refl s) hi)
  | op e k ih =>
    intro t ht hit
    obtain ⟨hc, hn⟩ := hp t ht hit
    exact ⟨hc, fun ha => ⟨(hn ha).1, (hn ha).2.1, ih _ (hn ha).2.1 (hn ha).2.2⟩⟩

/-- One operation between two stable assertions. -/
theorem safe_perform {P : σ → Prop} (hP : Stable inv C P) {e : E} {Q : R e → σ → Prop}
    (hQ : ∀ r, Stable inv C (Q r)) {s : σ} (hi : inv s) (hs : P s)
    (step : ∀ t, inv t → P t → C.claim e t ∧ (allow e t → C.guar t (h e t).2 ∧ inv (h e t).2 ∧
      Q (h e t).1 (h e t).2)) :
    Safe h inv C allow (Program.perform e) Q s := by
  intro t ht hit
  obtain ⟨hc, hn⟩ := step t hit (hP s t hi hit ht hs)
  exact ⟨hc, fun ha => ⟨(hn ha).1, (hn ha).2.1, safe_ret hQ (hn ha).2.1 (hn ha).2.2⟩⟩

/-- An assertion that neither the thread nor its environment touches can be carried along. -/
theorem safe_frame {P : σ → Prop} (hP : Stable inv C P) (hG : ∀ e t, P t → P (h e t).2)
    {p : Program E R α} {Q : α → σ → Prop} {s : σ} (hi : inv s) (hp : Safe h inv C allow p Q s)
    (hs : P s) : Safe h inv C allow p (fun a t => Q a t ∧ P t) s := by
  induction p generalizing s with
  | ret a => exact fun t ht hit => ⟨hp t ht hit, hP s t hi hit ht hs⟩
  | op e k ih =>
    intro t ht hit
    obtain ⟨hc, hn⟩ := hp t ht hit
    refine ⟨hc, fun ha => ?_⟩
    obtain ⟨hg, hin, hsafe⟩ := hn ha
    exact ⟨hg, hin, ih _ hin hsafe (hG e t (hP s t hi hit ht hs))⟩

/-- Operations that each keep a stable assertion keep it together. -/
theorem safe_of_ensures {φ : E → Prop} {P : σ → Prop} (hP : Stable inv C P)
    (hφ : ∀ e t, φ e → inv t → P t → C.claim e t ∧
      (allow e t → C.guar t (h e t).2 ∧ inv (h e t).2 ∧ P (h e t).2))
    {Q : α → Prop} {p : Program E R α} (hp : p.Ensures φ Q) {s : σ} (hi : inv s) (hs : P s) :
    Safe h inv C allow p (fun a t => Q a ∧ P t) s := by
  induction p generalizing s with
  | ret a => exact fun t ht hit => ⟨hp, hP s t hi hit ht hs⟩
  | op e k ih =>
    intro t ht hit
    obtain ⟨hc, hn⟩ := hφ e t hp.1 hit (hP s t hi hit ht hs)
    refine ⟨hc, fun ha => ?_⟩
    obtain ⟨hg, hin, hp'⟩ := hn ha
    exact ⟨hg, hin, ih _ (hp.2 _) hin hp'⟩

theorem safe_mono {p : Program E R α} {Q Q' : α → σ → Prop} {s : σ}
    (hp : Safe h inv C allow p Q s) (hQ : ∀ a t, inv t → Q a t → Q' a t) :
    Safe h inv C allow p Q' s := by
  induction p generalizing s with
  | ret a => exact fun t ht hit => hQ a t hit (hp t ht hit)
  | op e k ih =>
    intro t ht hit
    obtain ⟨hc, hn⟩ := hp t ht hit
    exact ⟨hc, fun ha => ⟨(hn ha).1, (hn ha).2.1, ih _ (hn ha).2.2⟩⟩

/-- A program of operations that act like interference of the other threads keeps every stable
assertion. -/
theorem safe_of_all {φ : E → Prop} (hφ : ∀ e t, φ e → inv t → C.claim e t ∧
      (allow e t → C.guar t (h e t).2 ∧ inv (h e t).2 ∧ C.rely t (h e t).2))
    {P : σ → Prop} (hP : Stable inv C P) {p : Program E R α} (hp : p.All φ) {s : σ} (hi : inv s)
    (hs : P s) : Safe h inv C allow p (fun _ => P) s := by
  refine safe_mono (safe_of_ensures hP (fun e t he hit ht => ?_) hp hi hs) fun _ _ _ hq => hq.2
  obtain ⟨hc, hn⟩ := hφ e t he hit
  refine ⟨hc, fun ha => ?_⟩
  obtain ⟨hg, hin, hr⟩ := hn ha
  exact ⟨hg, hin, hP _ _ hit hin hr ht⟩

end Rules

/-- A proof outline of a system: an invariant, a contract for every thread, and the assertion that
holds while the thread is idle. -/
structure Spec (S : System ι σ E R α) (allow : ι → E → σ → Prop) where
  inv : σ → Prop
  contract : ι → Contract σ E
  idle : ι → σ → Prop
  compatible : ∀ {i j s t}, i ≠ j → (contract i).guar s t → (contract j).rely s t
  stable : ∀ i, Stable inv (contract i) (idle i)
  call : ∀ {i s p t}, inv s → idle i s → S.start i s p t →
    (contract i).guar s t ∧ inv t ∧
      Safe (S.handler i) inv (contract i) (allow i) p (fun a u =>
        (contract i).guar u (S.finish i a u) ∧ inv (S.finish i a u) ∧ idle i (S.finish i a u)) t

namespace Spec

variable {S : System ι σ E R α} {allow : ι → E → σ → Prop} (P : Spec S allow)

/-- The assertion of one thread in a configuration. -/
def Holds (i : ι) (t : Option (Program E R α)) (s : σ) : Prop :=
  match t with
  | none => P.idle i s
  | some p => Safe (S.handler i) P.inv (P.contract i) (allow i) p (fun a u =>
      (P.contract i).guar u (S.finish i a u) ∧ P.inv (S.finish i a u) ∧
        P.idle i (S.finish i a u)) s

theorem holds_rely {i : ι} {t : Option (Program E R α)} {s s' : σ} (hi : P.inv s) (hi' : P.inv s')
    (hs : (P.contract i).rely s s') (h : P.Holds i t s) : P.Holds i t s' := by
  cases t with
  | none => exact P.stable i s s' hi hi' hs h
  | some p => exact safe_rely hs h

variable [DecidableEq ι]

theorem holds_resume {c : Config ι σ E R α} {i : ι} {s : σ} {t : Option (Program E R α)}
    (hi : P.inv c.shared) (hi' : P.inv s) (hc : ∀ j, P.Holds j (c.thread j) c.shared)
    (hg : (P.contract i).guar c.shared s) (ht : P.Holds i t s) (j : ι) :
    P.Holds j ((c.resume i s t).thread j) s := by
  by_cases hj : j = i
  · subst hj
    simpa [Config.resume] using ht
  · simpa [Config.resume, hj] using P.holds_rely hi hi' (P.compatible (Ne.symm hj) hg) (hc j)

/-- In every reachable configuration the invariant holds and so does every thread's assertion. -/
theorem sound {c₀ c : Config ι σ E R α} (hinv : P.inv c₀.shared)
    (hidle : ∀ i, P.Holds i (c₀.thread i) c₀.shared) (run : Reaches S allow c₀ c) :
    P.inv c.shared ∧ ∀ i, P.Holds i (c.thread i) c.shared := by
  induction run with
  | refl => exact ⟨hinv, hidle⟩
  | @start c i p s run idle call ih =>
    obtain ⟨hi, hc⟩ := ih
    have hidle := hc i
    rw [idle] at hidle
    obtain ⟨hg, ht, hs⟩ := P.call hi hidle call
    exact ⟨ht, P.holds_resume hi ht hc hg (t := some p) hs⟩
  | @op c i e k run next ok ih =>
    obtain ⟨hi, hc⟩ := ih
    have hp := hc i
    rw [next] at hp
    obtain ⟨hg, ht, hs⟩ := (hp _ ((P.contract i).rely_refl _) hi).2 ok
    exact ⟨ht, P.holds_resume hi ht hc hg (t := some _) hs⟩
  | @finish c i a run done ih =>
    obtain ⟨hi, hc⟩ := ih
    have hp := hc i
    rw [done] at hp
    obtain ⟨hg, ht, hs⟩ := hp _ ((P.contract i).rely_refl _) hi
    exact ⟨ht, P.holds_resume hi ht hc hg (t := none) hs⟩

theorem claim_of_next {c₀ c : Config ι σ E R α} (hinv : P.inv c₀.shared)
    (hidle : ∀ i, P.Holds i (c₀.thread i) c₀.shared) (run : Reaches S allow c₀ c)
    {i : ι} {e : E} {k : R e → Program E R α} (next : c.thread i = some (.op e k)) :
    (P.contract i).claim e c.shared := by
  obtain ⟨hi, hc⟩ := P.sound hinv hidle run
  have hp := hc i
  rw [next] at hp
  exact (hp _ ((P.contract i).rely_refl _) hi).1

end Spec

end Interleaving
