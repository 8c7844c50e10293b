import UwavClient.Config.Filesystem

/-!
# The grammar of a line (`ParseLine`)

`ParseLine` works with positions in a string. Here it is as the source has it, with every access
checked: none is out of range, and what it returns is what the model of the settings reads from the
line. It accepts the lines of the form `w₁ key w₂ = w₃ value w₄`, with or without a comment.
-/

namespace UwavClient

namespace Checked

/-! ## `std::string` -/

/-- `find` of a character; `none` is `npos`. -/
def find (s : Text) (c : Char) : Option ℕ := s.idxOf? c

/-- `erase` of everything from a position. -/
def erase (s : Text) (pos : ℕ) : Except Abort Text :=
  if s.length < pos then throw .outOfRange else return s.take pos

def substr (s : Text) (pos len : ℕ) : Except Abort Text :=
  if s.length < pos then throw .outOfRange else return (s.drop pos).take len

def substrFrom (s : Text) (pos : ℕ) : Except Abort Text :=
  if s.length < pos then throw .outOfRange else return s.drop pos

/-- `back`, which is undefined for an empty string. -/
def back (s : Text) : Except Abort Char :=
  match s.getLast? with
  | none => throw .outOfRange
  | some c => return c

section Access

@[simp] theorem ok_bind {α β : Type} (a : α) (f : α → Except Abort β) :
    ((Except.ok a : Except Abort α) >>= f) = f a := rfl

variable {s : Text} {c : Char} {pos : ℕ}

theorem erase_of_find (h : find s c = some pos) : erase s pos = .ok (s.takeWhile (· ≠ c)) := by
  obtain ⟨htake, -, hlt⟩ := List.idxOf?_eq_some h
  rw [erase, if_neg (by omega), htake]
  rfl

theorem substr_of_find (h : find s c = some pos) : substr s 0 pos = .ok (s.takeWhile (· ≠ c)) := by
  obtain ⟨htake, -, -⟩ := List.idxOf?_eq_some h
  rw [substr, if_neg (by omega), List.drop_zero, htake]
  rfl

theorem substrFrom_of_find (h : find s c = some pos) :
    substrFrom s (pos + 1) = .ok (s.dropWhile (· ≠ c)).tail := by
  obtain ⟨-, hdrop, hlt⟩ := List.idxOf?_eq_some h
  rw [substrFrom, if_neg (by omega), hdrop]
  rfl

theorem mem_of_find (h : find s c = some pos) : c ∈ s :=
  List.isSome_idxOf?.mp (Option.isSome_of_eq_some h)

theorem notMem_of_find (h : find s c = none) : c ∉ s := List.idxOf?_eq_none_iff.mp h

end Access

/-! ## `ParseLine` -/

def cutComment (cfgLine : Text) : Except Abort Text :=
  match find cfgLine '#' with
  | some commentPos => erase cfgLine commentPos
  | none => return cfgLine

/-- Key and value of a line without comment and surrounding whitespace; a key that is not known is
dropped with its value. -/
def splitKeyval (cfgLine : Text) : Except Abort (Text × Text) := do
  match find cfgLine '=' with
  | none => return ([], [])
  | some eqPos =>
    let first := removeTrailing (← substr cfgLine 0 eqPos)
    let second := removeLeading (← substrFrom cfgLine (eqPos + 1))
    if Key.all.all (first ≠ ·.name) then return ([], [])
    return (first, second)

/-- The pair that `ParseLine` returns and the line as it leaves it. -/
def parseLine (cfgLine : Text) : Except Abort ((Text × Text) × Text) := do
  let cfgLine ← cutComment cfgLine
  if cfgLine = [] then return (([], []), cfgLine)
  let cfgLine := removeTrailing (removeLeading cfgLine)
  return (← splitKeyval cfgLine, cfgLine)

end Checked

/-- The strings that `ParseLine` returns: empty ones if the line assigns to no known key. -/
def keyval (cfgLine : Text) : Text × Text :=
  ((parseLine cfgLine).1.map fun kv => (kv.1.name, kv.2)).getD ([], [])

namespace Checked

theorem cutComment_eq (line : Text) : cutComment line = .ok (line.takeWhile (· ≠ '#')) := by
  unfold cutComment
  cases h : find line '#' with
  | some pos => exact erase_of_find h
  | none =>
    have hall : line.takeWhile (· ≠ '#') = line :=
      List.takeWhile_eq_self_iff.mpr fun c hc => decide_eq_true fun e => notMem_of_find h (e ▸ hc)
    rw [hall]
    rfl

/-- The validation fails exactly for a name that no key has. -/
theorem all_ne_name_iff {s : Text} : Key.all.all (s ≠ ·.name) = true ↔ Key.ofName s = none := by
  rw [Key.ofName, List.find?_eq_none, List.all_eq_true]
  refine forall₂_congr fun k _ => ?_
  rw [decide_eq_true_iff, decide_eq_true_iff]
  exact ne_comm

theorem name_of_ofName {key : Key} {s : Text} (h : Key.ofName s = some key) : key.name = s := by
  have hfound := List.find?_some h
  exact of_decide_eq_true hfound

theorem splitKeyval_stripLine (line : Text) : splitKeyval (stripLine line) = .ok (keyval line) := by
  unfold splitKeyval keyval UwavClient.parseLine
  cases h : find (stripLine line) '=' with
  | none =>
    dsimp only
    rw [if_neg (notMem_of_find h)]
    rfl
  | some pos =>
    dsimp only
    rw [if_pos (mem_of_find h), substr_of_find h, substrFrom_of_find h]
    cases hkey : Key.ofName (removeTrailing ((stripLine line).takeWhile (· ≠ '='))) with
    | none =>
      simp only [ok_bind, if_pos (all_ne_name_iff.mpr hkey)]
      rfl
    | some key =>
      have hvalid : ¬Key.all.all (removeTrailing ((stripLine line).takeWhile (· ≠ '=')) ≠ ·.name) = true :=
        fun hall => by
          rw [all_ne_name_iff.mp hall] at hkey
          cases hkey
      simp only [ok_bind, if_neg hvalid]
      rw [← name_of_ofName hkey]
      rfl

/-- No access is out of range, and what is returned is what the line assigns. -/
theorem parseLine_eq (line : Text) : parseLine line = .ok (keyval line, stripLine line) := by
  unfold parseLine
  rw [cutComment_eq]
  by_cases hempty : line.takeWhile (· ≠ '#') = []
  · have hstrip : stripLine line = [] := by
      rw [stripLine_eq, hempty]
      rfl
    have hpair : splitKeyval [] = .ok (keyval line) := hstrip ▸ splitKeyval_stripLine line
    rw [hstrip, hempty, ← Except.ok.inj hpair]
    rfl
  · refine (if_neg hempty).trans ?_
    change (do return (← splitKeyval (stripLine line), stripLine line)) = _
    rw [splitKeyval_stripLine]
    rfl

end Checked

/-! ## The grammar -/

def Blank (w : Text) : Prop := ∀ c ∈ w, isSpace c

/-- The lines that assign a value to a key. -/
inductive Assigns : Text → Key → Text → Prop
  | mk {w₁ w₂ w₃ w₄ value comment : Text} {key : Key} (blank₁ : Blank w₁) (blank₂ : Blank w₂)
      (blank₃ : Blank w₃) (blank₄ : Blank w₄) (bare : Bare value)
      (rest : comment = [] ∨ ∃ text, comment = '#' :: text) :
      Assigns (w₁ ++ (key.name ++ (w₂ ++ '=' :: (w₃ ++ (value ++ (w₄ ++ comment)))))) key value

section Grammar

variable {line value w₁ w₂ w₃ w₄ : Text} {key : Key}

theorem Blank.ne {w : Text} (h : Blank w) {c d : Char} (hc : c ∈ w) (hd : ¬isSpace d) : c ≠ d :=
  fun e => hd (e ▸ h c hc)

/-- The comment of a line is cut off. -/
theorem stripLine_append_comment {comment : Text} (hline : '#' ∉ line)
    (hcomment : comment = [] ∨ ∃ text, comment = '#' :: text) :
    stripLine (line ++ comment) = line.trim isSpace := by
  have hall : ∀ c ∈ line, decide (c ≠ '#') := fun c hc => decide_eq_true fun e => hline (e ▸ hc)
  have hnil : comment.takeWhile (· ≠ '#') = [] := by
    rcases hcomment with rfl | ⟨text, rfl⟩ <;> rfl
  rw [stripLine_eq, List.takeWhile_append_of_pos hall, hnil, List.append_nil]

theorem trim_assignment (h₁ : Blank w₁) : (w₁ ++ (key.name ++ (w₂ ++ '=' :: w₃))).trim isSpace =
    key.name ++ (w₂ ++ '=' :: w₃.rdropWhile isSpace) := by
  have hdrop : (key.name ++ (w₂ ++ '=' :: w₃)).dropWhile isSpace = key.name ++ (w₂ ++ '=' :: w₃) := by
    cases key <;> rfl
  rw [List.trim, List.dropWhile_append_of_pos h₁, hdrop, ← List.append_assoc, ← List.append_assoc,
    List.rdropWhile_append_cons (by decide)]

theorem rdropWhile_value (h₃ : Blank w₃) (h₄ : Blank w₄) (hvalue : Bare value) :
    removeLeading ((w₃ ++ (value ++ w₄)).rdropWhile isSpace) = value := by
  rw [← List.append_assoc, List.rdropWhile_append_of_pos h₄]
  by_cases hne : value = []
  · rw [hne, List.append_nil, List.rdropWhile_eq_nil_iff.mpr h₃]
    rfl
  · have hkeep : (w₃ ++ value).rdropWhile isSpace = w₃ ++ value := by
      refine List.rdropWhile_eq_self_iff.mpr fun h => ?_
      rw [List.getLast_append_of_ne_nil h hne]
      exact hvalue.last hne
    rw [hkeep, removeLeading, List.dropWhile_append_of_pos h₃]
    obtain ⟨c, text, rfl⟩ := List.exists_cons_of_ne_nil hne
    exact List.dropWhile_cons_of_neg (hvalue.head hne)

/-- Every line of the grammar is accepted. -/
theorem Assigns.parseLine (h : Assigns line key value) : (parseLine line).1 = some (key, value) := by
  obtain ⟨h₁, h₂, h₃, h₄, hbare, hrest⟩ := h
  rename_i w₁ w₂ w₃ w₄ comment
  have hhash : '#' ∉ w₁ ++ (key.name ++ (w₂ ++ '=' :: (w₃ ++ (value ++ w₄)))) := by
    simp only [List.mem_append, List.mem_cons, not_or]
    exact ⟨fun h => h₁.ne h (by decide) rfl, fun h => (key.name_plain _ h).1 rfl,
      fun h => h₂.ne h (by decide) rfl, by decide, fun h => h₃.ne h (by decide) rfl, hbare.plain,
      fun h => h₄.ne h (by decide) rfl⟩
  have hstrip : stripLine (w₁ ++ (key.name ++ (w₂ ++ '=' :: (w₃ ++ (value ++ (w₄ ++ comment)))))) =
      key.name ++ (w₂ ++ '=' :: (w₃ ++ (value ++ w₄)).rdropWhile isSpace) := by
    rw [← trim_assignment h₁, ← stripLine_append_comment hhash hrest]
    simp only [List.append_assoc, List.cons_append]
  have hkey : ∀ c ∈ key.name ++ w₂, decide (c ≠ '=') := by
    intro c hc
    refine decide_eq_true ?_
    rcases List.mem_append.mp hc with hc | hc
    · exact (key.name_plain c hc).2.1
    · exact h₂.ne hc (by decide)
  have hfirst : removeTrailing (key.name ++ w₂) = key.name := by
    rw [removeTrailing, List.rdropWhile_append_of_pos h₂]
    cases key <;> rfl
  have hmem : '=' ∈ key.name ++ (w₂ ++ '=' :: (w₃ ++ (value ++ w₄)).rdropWhile isSpace) := by simp
  rw [UwavClient.parseLine, hstrip]
  dsimp only
  rw [if_pos hmem, ← List.append_assoc, List.takeWhile_append_of_pos hkey,
    List.dropWhile_append_of_pos hkey]
  simp [hfirst, rdropWhile_value h₃ h₄ hbare]

/-- What follows whitespace at the end of a bare text is bare. -/
theorem Bare.removeLeading {s b : Text} (h : Bare s) (hb : b <:+ s) : Bare (removeLeading b) := by
  have hsuffix : UwavClient.removeLeading b <:+ s := (List.dropWhile_suffix _).trans hb
  refine ⟨fun hc => h.plain (hsuffix.subset hc), fun hne hspace => ?_, fun hne => ?_⟩
  · exact Bool.false_ne_true ((List.head_dropWhile_not isSpace hne).symm.trans hspace)
  · have hs : s ≠ [] := fun e => hne (List.suffix_nil.mp (e ▸ hsuffix))
    rw [hsuffix.getLast hne]
    exact h.last hs

/-- What is cut off at a `#` is nothing or a comment. -/
theorem comment_eq_nil_or_cons (line : Text) :
    line.dropWhile (· ≠ '#') = [] ∨ ∃ text, line.dropWhile (· ≠ '#') = '#' :: text := by
  cases hd : line.dropWhile (· ≠ '#') with
  | nil => exact Or.inl rfl
  | cons c text =>
    have hhead := List.head_dropWhile_not (· ≠ '#') (by rw [hd]; exact List.cons_ne_nil c text)
    simp only [hd, List.head_cons] at hhead
    exact Or.inr ⟨text, by simpa using hhead⟩

/-- A stripped line with an `=` is its key, whitespace, the `=`, whitespace and its value. -/
theorem eq_key_append_value {s : Text} (hmem : '=' ∈ s) :
    s = removeTrailing (s.takeWhile (· ≠ '=')) ++ ((s.takeWhile (· ≠ '=')).rtakeWhile isSpace ++
      '=' :: ((s.dropWhile (· ≠ '=')).tail.takeWhile isSpace ++
        removeLeading (s.dropWhile (· ≠ '=')).tail)) := by
  have hkey : removeTrailing (s.takeWhile (· ≠ '=')) ++ (s.takeWhile (· ≠ '=')).rtakeWhile isSpace =
      s.takeWhile (· ≠ '=') := List.rdropWhile_append_rtakeWhile
  have hvalue : (s.dropWhile (· ≠ '=')).tail.takeWhile isSpace ++
      removeLeading (s.dropWhile (· ≠ '=')).tail = (s.dropWhile (· ≠ '=')).tail :=
    List.takeWhile_append_dropWhile
  rw [← List.append_assoc, hkey, hvalue]
  exact List.takeWhile_append_cons_tail hmem

/-- Every line that is accepted is one of the grammar. -/
theorem assigns_of_parseLine (h : (parseLine line).1 = some (key, value)) :
    Assigns line key value := by
  obtain ⟨s, hs⟩ : ∃ s, s = stripLine line := ⟨_, rfl⟩
  have hbare : Bare s := hs ▸ bare_stripLine line
  unfold parseLine at h
  dsimp only at h
  rw [← hs] at h
  split at h
  · rename_i hmem
    obtain ⟨k, hname, hkv⟩ := Option.map_eq_some_iff.mp h
    obtain ⟨rfl, rfl⟩ := Prod.mk.inj hkv
    obtain ⟨a, b, ha, hb, htrim⟩ := List.exists_eq_trim isSpace (line.takeWhile (· ≠ '#'))
    have hsuffix : (s.dropWhile (· ≠ '=')).tail <:+ s :=
      (List.tail_suffix _).trans (List.dropWhile_suffix _)
    have hsplit := eq_key_append_value hmem
    rw [← Checked.name_of_ofName hname] at hsplit
    have hline : line = a ++ (k.name ++ ((s.takeWhile (· ≠ '=')).rtakeWhile isSpace ++ '=' ::
        ((s.dropWhile (· ≠ '=')).tail.takeWhile isSpace ++
          (removeLeading (s.dropWhile (· ≠ '=')).tail ++ (b ++ line.dropWhile (· ≠ '#')))))) := by
      calc line = line.takeWhile (· ≠ '#') ++ line.dropWhile (· ≠ '#') :=
          List.takeWhile_append_dropWhile.symm
        _ = a ++ (s ++ b) ++ line.dropWhile (· ≠ '#') := by rw [hs, stripLine_eq, ← htrim]
        _ = _ := by
          conv_lhs => rw [hsplit]
          simp only [List.append_assoc, List.cons_append]
    rw [hline]
    exact .mk ha (fun _ => List.mem_rtakeWhile_imp) (fun _ => List.mem_takeWhile_imp) hb
      (hbare.removeLeading hsuffix) (comment_eq_nil_or_cons line)
  · cases h

theorem assigns_iff : Assigns line key value ↔ (parseLine line).1 = some (key, value) :=
  ⟨Assigns.parseLine, assigns_of_parseLine⟩

theorem keyval_eq_iff : keyval line = (key.name, value) ↔ Assigns line key value := by
  rw [assigns_iff, keyval]
  cases h : (parseLine line).1 with
  | none =>
    have hne : key.name ≠ [] := by cases key <;> decide
    simp [hne.symm]
  | some kv =>
    have hname : kv.1.name = key.name ↔ kv.1 = key := by
      refine ⟨fun e => ?_, congrArg Key.name⟩
      exact Option.some.inj ((Key.ofName_name kv.1).symm.trans (e ▸ Key.ofName_name key))
    simp [Prod.ext_iff, hname]

theorem keyval_eq_nil_iff : keyval line = ([], []) ↔ ¬∃ key value, Assigns line key value := by
  simp only [assigns_iff, keyval]
  cases h : (parseLine line).1 with
  | none => simp
  | some kv =>
    have hne : kv.1.name ≠ [] := by cases kv.1 <;> decide
    simp only [Option.map_some, Option.getD_some, Prod.mk.injEq, hne, false_and, false_iff, not_not]
    exact ⟨kv.1, kv.2, rfl⟩

end Grammar

/-- `ParseLine` accepts exactly its grammar: it returns a key and a value for the lines that assign
the value to the key, which are unique, and the empty pair for every other line. -/
theorem parseLine_accepts_grammar (line : Text) :
    ∃ returned left, Checked.parseLine line = .ok (returned, left) ∧
      (∀ key value, returned = (key.name, value) ↔ Assigns line key value) ∧
      {kv : Key × Text | Assigns line kv.1 kv.2}.Subsingleton ∧
      (returned = ([], []) ↔ ¬∃ key value, Assigns line key value) := by
  refine ⟨keyval line, stripLine line, Checked.parseLine_eq line, fun key value => keyval_eq_iff,
    fun kv hkv kv' hkv' => ?_, keyval_eq_nil_iff⟩
  exact Option.some.inj ((assigns_iff.mp hkv).symm.trans (assigns_iff.mp hkv'))

end UwavClient
