import Mathlib.Data.List.Induction

/-!
# Machines, their runs, and refinement between them

A machine answers each command with an observation and a next state. A simulation relation that one
command preserves, with equal observations, makes whole runs of two machines observably equal; a
property of the state and of what was observed that one command preserves holds after every run.
`Reached` is the counterpart for steps that may fail.
-/

/-- The states of the runs of a fallible step function whose steps are all allowed. -/
inductive Reached {S C ε : Type*} (step : C → S → Except ε S) (allow : C → S → Prop) (s₀ : S) : S → Prop
  | init : Reached step allow s₀ s₀
  | step {s t : S} {c : C} (run : Reached step allow s₀ s) (ok : allow c s)
      (next : step c s = .ok t) : Reached step allow s₀ t

namespace Reached

variable {S C ε : Type*} {step : C → S → Except ε S} {allow : C → S → Prop} {s₀ s : S}

/-- An invariant of allowed steps holds in every state reached. -/
theorem invariant {inv : S → Prop} (hinit : inv s₀)
    (hstep : ∀ {c s t}, inv s → allow c s → step c s = .ok t → inv t)
    (run : Reached step allow s₀ s) : inv s := by
  induction run with
  | init => exact hinit
  | step _ ok next ih => exact hstep ih ok next

end Reached

/-- A deterministic machine with commands `C` and observations `O`. -/
structure Machine (S C O : Type*) where
  step : S → C → O × S

namespace Machine

variable {S T C O : Type*} (m : Machine S C O) (n : Machine T C O)

def after (s : S) (cs : List C) : S := cs.foldl (fun s c => (m.step s c).2) s

def observe : S → List C → List O
  | _, [] => []
  | s, c :: cs => (m.step s c).1 :: observe (m.step s c).2 cs

@[simp] theorem after_cons (s : S) (c : C) (cs : List C) :
    m.after s (c :: cs) = m.after (m.step s c).2 cs := rfl

theorem after_append (s : S) (cs ds : List C) :
    m.after s (cs ++ ds) = m.after (m.after s cs) ds := List.foldl_append

@[simp] theorem observe_cons (s : S) (c : C) (cs : List C) :
    m.observe s (c :: cs) = (m.step s c).1 :: m.observe (m.step s c).2 cs := rfl

theorem observe_append (s : S) (cs ds : List C) :
    m.observe s (cs ++ ds) = m.observe s cs ++ m.observe (m.after s cs) ds := by
  induction cs generalizing s with
  | nil => rfl
  | cons c cs ih => simp [ih]

variable {m n}

/-- A run in which every command is valid in the state that it meets. -/
def ValidRun (m : Machine S C O) (valid : S → C → Prop) : S → List C → Prop
  | _, [] => True
  | s, c :: cs => valid s c ∧ ValidRun m valid (m.step s c).2 cs

theorem validRun_of_forall {valid : C → Prop} {cs : List C} (h : ∀ c ∈ cs, valid c) (s : S) :
    m.ValidRun (fun _ => valid) s cs := by
  induction cs generalizing s with
  | nil => trivial
  | cons c cs ih =>
    exact ⟨h c List.mem_cons_self, ih (fun d hd => h d (List.mem_cons_of_mem c hd)) _⟩

theorem validRun_append_singleton {valid : S → C → Prop} {s : S} {cs : List C} {c : C} :
    m.ValidRun valid s (cs ++ [c]) ↔ m.ValidRun valid s cs ∧ valid (m.after s cs) c := by
  induction cs generalizing s with
  | nil => simp [ValidRun, after]
  | cons d cs ih => simp only [List.cons_append, ValidRun, ih, after_cons, and_assoc]

/-- An invariant of the state and of all that was observed, preserved by one more command. -/
theorem invariant_history {valid : S → C → Prop} {inv : S → List O → Prop}
    (hstep : ∀ s os c, inv s os → valid s c → inv (m.step s c).2 (os ++ [(m.step s c).1])) {s : S}
    (hs : inv s []) {cs : List C} (hcs : m.ValidRun valid s cs) :
    inv (m.after s cs) (m.observe s cs) := by
  induction cs using List.reverseRecOn with
  | nil => exact hs
  | append_singleton cs c ih =>
    obtain ⟨hbefore, hc⟩ := validRun_append_singleton.mp hcs
    rw [after_append, observe_append]
    exact hstep _ _ c (ih hbefore) hc

/-- Related states answer a valid command alike and stay related. -/
def Refines (m : Machine S C O) (n : Machine T C O) (rel : S → T → Prop) (valid : C → Prop) : Prop :=
  ∀ s t c, rel s t → valid c →
    (m.step s c).1 = (n.step t c).1 ∧ rel (m.step s c).2 (n.step t c).2

namespace Refines

variable {rel : S → T → Prop} {valid : C → Prop} {s : S} {t : T} {cs : List C}

theorem after (h : Refines m n rel valid) (hst : rel s t) (hcs : ∀ c ∈ cs, valid c) :
    rel (m.after s cs) (n.after t cs) := by
  induction cs generalizing s t with
  | nil => exact hst
  | cons c cs ih =>
    exact ih (h s t c hst (hcs c List.mem_cons_self)).2
      fun d hd => hcs d (List.mem_cons_of_mem c hd)

theorem observe (h : Refines m n rel valid) (hst : rel s t) (hcs : ∀ c ∈ cs, valid c) :
    m.observe s cs = n.observe t cs := by
  induction cs generalizing s t with
  | nil => rfl
  | cons c cs ih =>
    obtain ⟨ho, hr⟩ := h s t c hst (hcs c List.mem_cons_self)
    rw [observe_cons, observe_cons, ho, ih hr fun d hd => hcs d (List.mem_cons_of_mem c hd)]

end Refines

end Machine
