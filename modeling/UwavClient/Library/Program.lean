import Mathlib.Logic.Relation
import Mathlib.Logic.Function.Basic

/-!
# Programs over an effect signature

A program is a tree of operations `e : E`, each answered by a value of `R e`. A handler says what an
operation does to a state. `Program.run` executes a whole program without interruption; the same tree
is what the interleaving semantics executes one operation at a time.
-/

inductive Program (E : Type) (R : E → Type) (α : Type) where
  | ret (a : α)
  | op (e : E) (k : R e → Program E R α)

/-- What each operation answers and how it changes the state. -/
abbrev Handler (E : Type) (R : E → Type) (σ : Type) := (e : E) → σ → R e × σ

namespace Program

variable {E : Type} {R : E → Type} {α β σ : Type}

def bind : Program E R α → (α → Program E R β) → Program E R β
  | .ret a, f => f a
  | .op e k, f => .op e fun r => (k r).bind f

instance : Monad (Program E R) where
  pure := .ret
  bind := bind

/-- The program that performs one operation and returns its answer. -/
def perform (e : E) : Program E R (R e) := .op e .ret

@[simp] theorem pure_eq (a : α) : (pure a : Program E R α) = .ret a := rfl

/-- The uninterrupted execution: the value returned and the state reached. -/
def run (h : Handler E R σ) : Program E R α → σ → α × σ
  | .ret a, s => (a, s)
  | .op e k, s => run h (k (h e s).1) (h e s).2

@[simp] theorem run_ret (h : Handler E R σ) (a : α) (s : σ) : run h (.ret a) s = (a, s) := rfl

@[simp] theorem run_op (h : Handler E R σ) (e : E) (k : R e → Program E R α) (s : σ) :
    run h (.op e k) s = run h (k (h e s).1) (h e s).2 := rfl

theorem run_bind (h : Handler E R σ) (p : Program E R α) (f : α → Program E R β) (s : σ) :
    run h (p >>= f) s = run h (f (run h p s).1) (run h p s).2 := by
  induction p generalizing s with
  | ret a => rfl
  | op e k ih => exact ih (h e s).1 (h e s).2

theorem run_ite (h : Handler E R σ) (c : Prop) [Decidable c] (p q : Program E R α) (s : σ) :
    run h (if c then p else q) s = if c then run h p s else run h q s := by
  split <;> rfl

/-- The execution in which every operation meets a fate, which says what it answers and what it does;
the program dies before the operation for which no fate is left. -/
def runUnder {Φ : Type} (h : Φ → Handler E R σ) : Program E R α → List Φ → σ → Option α × σ
  | .ret a, _, s => (some a, s)
  | .op _ _, [], s => (none, s)
  | .op e k, φ :: φs, s => runUnder h (k (h φ e s).1) φs (h φ e s).2

/-- Every operation that the uninterrupted execution performs satisfies `φ` in the state it is
performed in. -/
def Along (h : Handler E R σ) (φ : E → σ → Prop) : Program E R α → σ → Prop
  | .ret _, _ => True
  | .op e k, s => φ e s ∧ Along h φ (k (h e s).1) (h e s).2

section Along

variable {h : Handler E R σ} {φ : E → σ → Prop} {s : σ}

@[simp] theorem along_ret (a : α) : Along h φ (.ret a) s := trivial

@[simp] theorem along_perform (e : E) : Along h φ (perform e) s ↔ φ e s :=
  ⟨And.left, fun he => ⟨he, trivial⟩⟩

theorem along_bind {p : Program E R α} {f : α → Program E R β} : Along h φ (p >>= f) s ↔
    Along h φ p s ∧ Along h φ (f (run h p s).1) (run h p s).2 := by
  induction p generalizing s with
  | ret a => exact ⟨fun hf => ⟨trivial, hf⟩, And.right⟩
  | op e k ih => exact (and_congr_right fun _ => ih _).trans and_assoc.symm

end Along

/-- Every operation that any run of the program may perform satisfies `φ`, and every value it may
return satisfies `Q`, whatever the answers. -/
def Ensures (φ : E → Prop) (Q : α → Prop) : Program E R α → Prop
  | .ret a => Q a
  | .op e k => φ e ∧ ∀ r, Ensures φ Q (k r)

abbrev All (φ : E → Prop) (p : Program E R α) : Prop := p.Ensures φ fun _ => True

section Ensures

variable {φ ψ : E → Prop} {P Q : α → Prop} {p : Program E R α}

theorem ensures_bind {S : β → Prop} {f : α → Program E R β} (hp : p.Ensures φ Q)
    (hf : ∀ a, Q a → (f a).Ensures φ S) : (p >>= f).Ensures φ S := by
  induction p with
  | ret a => exact hf a hp
  | op e k ih => exact ⟨hp.1, fun r => ih r (hp.2 r)⟩

theorem Ensures.mono (hp : p.Ensures φ P) (hφ : ∀ e, φ e → ψ e) (hQ : ∀ a, P a → Q a) :
    p.Ensures ψ Q := by
  induction p with
  | ret a => exact hQ a hp
  | op e k ih => exact ⟨hφ e hp.1, fun r => ih r (hp.2 r)⟩

theorem Ensures.and (hP : p.Ensures φ P) (hQ : p.Ensures ψ Q) :
    p.Ensures φ fun a => P a ∧ Q a := by
  induction p with
  | ret a => exact ⟨hP, hQ⟩
  | op e k ih => exact ⟨hP.1, fun r => ih r (hP.2 r) (hQ.2 r)⟩

@[simp] theorem all_perform (e : E) : All φ (perform e : Program E R (R e)) ↔ φ e :=
  ⟨And.left, fun h => ⟨h, fun _ => trivial⟩⟩

theorem all_bind {f : α → Program E R β} (hp : All φ p) (hf : ∀ a, All φ (f a)) :
    All φ (p >>= f) :=
  ensures_bind hp fun a _ => hf a

/-- What holds of every operation that may be performed holds of those that are. -/
theorem Ensures.along {h : Handler E R σ} {χ : E → σ → Prop} (hp : p.Ensures φ Q)
    (hφ : ∀ e s, φ e → χ e s) (s : σ) : Along h χ p s := by
  induction p generalizing s with
  | ret a => trivial
  | op e k ih => exact ⟨hφ e s hp.1, ih _ (hp.2 _) _⟩

end Ensures

end Program
