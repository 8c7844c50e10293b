import Mathlib.Data.List.DropRight

/-!
# Text as lines

`lines` is what reading a text line by line delivers: every line ends at a separator, and a last line
without one counts if it is not empty. Text made of whole lines reads back line by line, whatever
follows it. Trimming takes the characters of one kind off both ends.
-/

namespace List

variable {α : Type*} {sep : α} {a b l : List α}

section Terminated

/-- Every line of the text is ended by a separator. -/
def Terminated (sep : α) (a : List α) : Prop := a = [] ∨ ∃ b, a = b ++ [sep]

theorem terminated_append (ha : Terminated sep a) (hb : Terminated sep b) :
    Terminated sep (a ++ b) := by
  rcases hb with rfl | ⟨b, rfl⟩
  · rwa [append_nil]
  · exact Or.inr ⟨a ++ b, (append_assoc a b [sep]).symm⟩

theorem terminated_line (l : List α) : Terminated sep (l ++ [sep]) := Or.inr ⟨l, rfl⟩

theorem Terminated.suffix (ha : Terminated sep a) (hb : b <:+ a) : Terminated sep b := by
  rcases eq_nil_or_concat' b with rfl | ⟨b, c, rfl⟩
  · exact Or.inl rfl
  · have hne : a ≠ [] := fun e => by simp [e] at hb
    have hc : c = a.getLast hne := by
      rw [← hb.getLast (concat_ne_nil c b), getLast_concat]
    rcases ha with rfl | ⟨a, rfl⟩
    · exact absurd rfl hne
    · exact Or.inr ⟨b, by rw [hc, getLast_concat]⟩

end Terminated

section Lines

variable [DecidableEq α]

def lines (sep : α) : List α → List (List α)
  | [] => []
  | c :: cs =>
    if c = sep then [] :: lines sep cs
    else match lines sep cs with
      | [] => [[c]]
      | l :: ls => (c :: l) :: ls

theorem lines_cons_sep (b : List α) : lines sep (sep :: b) = [] :: lines sep b := by
  rw [lines, if_pos rfl]

/-- A line read back from the front of a text. -/
theorem lines_line (hl : sep ∉ l) (b : List α) :
    lines sep (l ++ sep :: b) = l :: lines sep b := by
  induction l with
  | nil => exact lines_cons_sep b
  | cons c l ih =>
    obtain ⟨hc, hl⟩ := not_or.mp fun h => hl (mem_cons.mpr h)
    rw [cons_append, lines, if_neg (Ne.symm hc), ih hl]

theorem lines_append_sep (a b : List α) :
    lines sep (a ++ sep :: b) = lines sep (a ++ [sep]) ++ lines sep b := by
  induction a with
  | nil => simp only [nil_append, lines_cons_sep]; rfl
  | cons c a ih =>
    simp only [cons_append, lines]
    split
    · rw [ih, cons_append]
    · rw [ih]
      cases h : lines sep (a ++ [sep]) with
      | nil =>
        -- the separator alone makes a line
        cases a <;> simp only [nil_append, cons_append, lines] at h <;> grind
      | cons l ls => rfl

/-- Whole lines are read before anything that follows them. -/
theorem lines_append (ha : Terminated sep a) (b : List α) :
    lines sep (a ++ b) = lines sep a ++ lines sep b := by
  rcases ha with rfl | ⟨a, rfl⟩
  · rfl
  · rw [append_assoc, singleton_append, lines_append_sep]

/-- What comes before the first separator is the first line; what follows it makes the others. -/
theorem lines_append_singleton (a : List α) : lines sep (a ++ [sep]) = a.takeWhile (· ≠ sep) ::
    if sep ∈ a then lines sep ((a.dropWhile (· ≠ sep)).tail ++ [sep]) else [] := by
  induction a with
  | nil => exact lines_cons_sep []
  | cons c a ih =>
    by_cases hc : c = sep
    · simp [hc, lines]
    · rw [cons_append, lines, if_neg hc, ih]
      simp [hc, Ne.symm hc]

theorem lines_ne_nil (h : a ≠ []) : lines sep a ≠ [] := by
  obtain ⟨c, b, rfl⟩ := exists_cons_of_ne_nil h
  rw [lines]
  split
  · exact cons_ne_nil _ _
  · split <;> exact cons_ne_nil _ _

theorem sep_notMem_of_mem_lines (h : l ∈ lines sep a) : sep ∉ l := by
  induction a generalizing l with
  | nil => cases h
  | cons c a ih =>
    rw [lines] at h
    split at h
    · rcases mem_cons.mp h with rfl | h
      · exact not_mem_nil
      · exact ih h
    · rename_i hc
      cases hls : lines sep a with
      | nil =>
        rw [hls, mem_singleton] at h
        simpa [h] using Ne.symm hc
      | cons k ks =>
        rw [hls] at h ih
        rcases mem_cons.mp h with rfl | h
        · exact fun hs => (mem_cons.mp hs).elim (fun e => hc e.symm) (ih mem_cons_self)
        · exact ih (mem_cons_of_mem k h)

/-- A line holds nothing that the text does not hold. -/
theorem mem_of_mem_lines {c : α} (h : l ∈ lines sep a) (hc : c ∈ l) : c ∈ a := by
  induction a generalizing l with
  | nil => cases h
  | cons d a ih =>
    rw [lines] at h
    split at h
    · rcases mem_cons.mp h with rfl | h
      · cases hc
      · exact mem_cons_of_mem d (ih h hc)
    · cases hls : lines sep a with
      | nil =>
        rw [hls, mem_singleton] at h
        exact mem_cons.mpr (Or.inl (mem_singleton.mp (h ▸ hc)))
      | cons k ks =>
        rw [hls] at h ih
        rcases mem_cons.mp h with rfl | h
        · exact (mem_cons.mp hc).elim (fun e => e ▸ mem_cons_self) fun hc =>
            mem_cons_of_mem d (ih mem_cons_self hc)
        · exact mem_cons_of_mem d (ih (mem_cons_of_mem k h) hc)

/-- A separator that ends the last line adds no line. -/
theorem lines_concat_sep (hne : a ≠ []) (hlast : a.getLast hne ≠ sep) :
    lines sep (a ++ [sep]) = lines sep a := by
  induction a with
  | nil => exact absurd rfl hne
  | cons c a ih =>
    by_cases ha : a = []
    · subst ha
      have hc : c ≠ sep := hlast
      simp [lines, hc]
    · have hrest := ih ha (by rwa [getLast_cons ha] at hlast)
      simp only [cons_append, lines, hrest]

def unlines (sep : α) (ls : List (List α)) : List α := ls.flatMap (· ++ [sep])

omit [DecidableEq α] in
theorem unlines_append (ls ms : List (List α)) :
    unlines sep (ls ++ ms) = unlines sep ls ++ unlines sep ms := flatMap_append

omit [DecidableEq α] in
theorem terminated_unlines (ls : List (List α)) : Terminated sep (unlines sep ls) := by
  induction ls with
  | nil => exact Or.inl rfl
  | cons l ls ih => exact terminated_append (terminated_line l) ih

/-- The lines read back are those of each part. -/
theorem lines_unlines_eq_flatMap (ls : List (List α)) :
    lines sep (unlines sep ls) = ls.flatMap fun l => lines sep (l ++ [sep]) := by
  induction ls with
  | nil => rfl
  | cons l ls ih =>
    rw [unlines, flatMap_cons, lines_append (terminated_line l), flatMap_cons]
    exact congrArg _ ih

theorem lines_unlines {ls : List (List α)} (h : ∀ l ∈ ls, sep ∉ l) :
    lines sep (unlines sep ls) = ls := by
  rw [lines_unlines_eq_flatMap]
  induction ls with
  | nil => rfl
  | cons l ls ih =>
    have hl : lines sep (l ++ [sep]) = [l] := lines_line (h l mem_cons_self) []
    rw [flatMap_cons, hl, ih fun m hm => h m (mem_cons_of_mem l hm)]
    rfl

end Lines

section Trim

variable {p : α → Bool}

def trim (p : α → Bool) (l : List α) : List α := (l.dropWhile p).rdropWhile p

theorem trim_eq_self (hl : ∀ h : l ≠ [], ¬p (l.head h)) (hr : ∀ h : l ≠ [], ¬p (l.getLast h)) :
    trim p l = l := by
  have hd : l.dropWhile p = l := by
    cases l with
    | nil => rfl
    | cons c l => exact dropWhile_cons_of_neg (hl (cons_ne_nil c l))
  rw [trim, hd, rdropWhile_eq_self_iff.mpr hr]

theorem head_trim (h : trim p l ≠ []) : ¬p ((trim p l).head h) := by
  have hne : l.dropWhile p ≠ [] := fun e => h (by rw [trim, e, rdropWhile_nil])
  have hpre : trim p l <+: l.dropWhile p := rdropWhile_prefix p _
  rw [hpre.head h, head_dropWhile_not p hne]
  exact Bool.false_ne_true

@[simp] theorem trim_trim : trim p (trim p l) = trim p l :=
  trim_eq_self head_trim (rdropWhile_last_not p _)

/-- Trimming on the right stops at a character that stays. -/
theorem rdropWhile_append_cons {c : α} (hc : ¬p c) (a b : List α) :
    (a ++ c :: b).rdropWhile p = a ++ c :: b.rdropWhile p := by
  induction b using reverseRecOn with
  | nil => rw [rdropWhile_concat_neg p a c hc, rdropWhile_nil]
  | append_singleton b d ih =>
    rw [show a ++ c :: (b ++ [d]) = (a ++ c :: b) ++ [d] by simp, rdropWhile_concat,
      rdropWhile_concat]
    split
    · exact ih
    · simp

theorem rdropWhile_append_of_pos {b : List α} (hb : ∀ c ∈ b, p c) (a : List α) :
    (a ++ b).rdropWhile p = a.rdropWhile p := by
  induction b using reverseRecOn with
  | nil => rw [append_nil]
  | append_singleton b c ih =>
    rw [← append_assoc, rdropWhile_concat_pos p _ c (hb c (mem_append_right b mem_cons_self))]
    exact ih fun d hd => hb d (mem_append_left _ hd)

/-- A list is what trimming leaves of it between two runs of what it takes off. -/
theorem exists_eq_trim (p : α → Bool) (l : List α) :
    ∃ a b, (∀ c ∈ a, p c) ∧ (∀ c ∈ b, p c) ∧ l = a ++ (trim p l ++ b) := by
  refine ⟨l.takeWhile p, (l.dropWhile p).rtakeWhile p, fun c => mem_takeWhile_imp,
    fun c => mem_rtakeWhile_imp, ?_⟩
  rw [trim, rdropWhile_append_rtakeWhile, takeWhile_append_dropWhile]

end Trim

/-! ## Positions -/

section Positions

variable [DecidableEq α] {c : α} {i : ℕ}

/-- What precedes the first occurrence of an element, and what follows it. -/
theorem idxOf?_eq_some (h : l.idxOf? c = some i) : l.take i = l.takeWhile (· ≠ c) ∧
    l.drop (i + 1) = (l.dropWhile (· ≠ c)).tail ∧ i < l.length := by
  induction l generalizing i with
  | nil => cases h
  | cons d l ih =>
    rw [idxOf?_cons] at h
    by_cases hd : d = c
    · rw [if_pos (beq_iff_eq.mpr hd)] at h
      cases h
      simp [hd]
    · rw [if_neg (by simpa using hd), Option.map_eq_some_iff] at h
      obtain ⟨j, hj, rfl⟩ := h
      obtain ⟨htake, hdrop, hlt⟩ := ih hj
      simp [hd, htake, hdrop, hlt]

/-- A list with a marked element is cut at its first occurrence. -/
theorem takeWhile_append_cons_tail (h : c ∈ l) :
    l = l.takeWhile (· ≠ c) ++ c :: (l.dropWhile (· ≠ c)).tail := by
  induction l with
  | nil => cases h
  | cons d l ih =>
    by_cases hd : d = c
    · simp [hd]
    · rw [takeWhile_cons_of_pos (by simpa using hd), dropWhile_cons_of_pos (by simpa using hd),
        cons_append, ← ih ((mem_cons.mp h).resolve_left (Ne.symm hd))]

end Positions

end List
