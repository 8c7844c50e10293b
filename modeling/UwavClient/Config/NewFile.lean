import UwavClient.Config.Sessions

/-!
# The new file line by line

`Save` goes through the old file once, with the configuration changing on the way, and then appends.
The result is one line for each line of the old file and one for each key without a line, all of them
given by the configuration that `Save` started with.

The lines that assign nothing are meant to pass through. They do, except for their comments and the
whitespace around them, since `ParseLine` edits the line that is then written.
-/

namespace UwavClient

open List (unlines lines_unlines lines_unlines_eq_flatMap)

def shownText (ui : Option SavedTexts) : Key → Option Text
  | .inferDevice => ui.bind fun texts =>
    if texts.inferDevice ≠ "" then some texts.inferDevice.toList else none
  | .modelName => ui.bind fun texts =>
    if texts.modelName ≠ "" then some texts.modelName.toList else none
  | _ => none

section NewFile

variable (ui : Option SavedTexts) (skipHistory : Bool) (config : ConfigData)

/-- The value in use of a key once a line for it has been rewritten. -/
def takenText (key : Key) : Text := (shownText ui key).getD (config.text key)

theorem takeFromUi_text_eq (k key : Key) : (config.takeFromUi ui k).text key =
    if key = k then takenText ui config key else config.text key := by
  cases ui with
  | none => cases k <;> cases key <;> rfl
  | some texts =>
    cases k with
    | inferDevice =>
      by_cases h : texts.inferDevice = ""
      · cases key <;> simp [ConfigData.takeFromUi, takenText, shownText, h]
      · cases key <;> simp [ConfigData.takeFromUi, takenText, shownText, h, ConfigData.text]
    | modelName =>
      by_cases h : texts.modelName = ""
      · cases key <;> simp [ConfigData.takeFromUi, takenText, shownText, h]
      · cases key <;> simp [ConfigData.takeFromUi, takenText, shownText, h, ConfigData.text]
    | _ => cases key <;> rfl

def assignedKeys (file : List Text) : List Key := (assignments file).map (·.1)

/-- The line of the new file in the place of a line of the old one. -/
def rewrittenLine (line : Text) : Text :=
  match (parseLine line).1 with
  | some (.previousServers, _) =>
    (savedHistory ui skipHistory).elim (stripLine line) (assignment .previousServers)
  | some (key, value) =>
    if value ≠ takenText ui config key then assignment key (takenText ui config key)
    else stripLine line
  | none => stripLine line

def missingLine (key : Key) : Text :=
  assignment key (if key = .previousServers then (savedHistory ui skipHistory).getD "none".toList
    else config.text key)

def missingKeys (file : List Text) : List Key :=
  Rewriting.appended.filter (· ∉ assignedKeys file)

def newLines (old : List Text) : List Text :=
  old.map (rewrittenLine ui skipHistory config) ++
    (missingKeys old).map (missingLine ui skipHistory config)

/-- How far Save has got when it has gone through these lines. -/
structure Written (done : List Text) (w : Rewriting) : Prop where
  out : w.out = unlines '\n' (done.map (rewrittenLine ui skipHistory config))
  seen : ∀ key, key ∈ w.seen ↔ key ∈ assignedKeys done
  taken : ∀ key ∈ w.seen, w.config.text key = takenText ui config key
  kept : ∀ key ∉ w.seen, w.config.text key = config.text key

variable {ui skipHistory config} {done : List Text} {w : Rewriting}

theorem mem_assignedKeys {file : List Text} {key : Key} :
    key ∈ assignedKeys file ↔ ∃ value, (key, value) ∈ assignments file := by
  simp [assignedKeys]

theorem assignedKeys_concat (file : List Text) (line : Text) :
    assignedKeys (file ++ [line]) = assignedKeys file ++ ((parseLine line).1.toList).map (·.1) := by
  rw [assignedKeys, assignments, List.filterMap_append, List.map_append]
  cases h : (parseLine line).1 <;> simp [h, assignedKeys, assignments]

theorem Written.takenText (h : Written ui skipHistory config done w) (key : Key) :
    takenText ui w.config key = takenText ui config key := by
  by_cases hkey : key ∈ w.seen
  · rw [UwavClient.takenText, h.taken key hkey]
    unfold UwavClient.takenText
    cases shownText ui key <;> rfl
  · rw [UwavClient.takenText, h.kept key hkey, UwavClient.takenText]

/-- What Save does with one line of the old file. -/
theorem rewriteLine_eq (w : Rewriting) (line : Text) : w.rewriteLine ui skipHistory line =
    { config := (parseLine line).1.elim w.config fun kv => w.config.takeFromUi ui kv.1
      out := w.out ++ (rewrittenLine ui skipHistory w.config line ++ ['\n'])
      seen := (parseLine line).1.toList.map (·.1) ++ w.seen } := by
  have hparse : parseLine line = ((parseLine line).1, stripLine line) :=
    Prod.ext rfl (parseLine_snd line)
  unfold Rewriting.rewriteLine rewrittenLine
  rw [hparse]
  cases (parseLine line).1 with
  | none => rfl
  | some kv =>
    obtain ⟨key, value⟩ := kv
    have htext := takeFromUi_text_eq ui w.config key key
    rw [if_pos rfl] at htext
    cases key with
    | previousServers => rfl
    | _ =>
      simp only [htext]
      rfl

/-- One more line of the old file. -/
theorem Written.concat (h : Written ui skipHistory config done w) (line : Text) :
    Written ui skipHistory config (done ++ [line]) (w.rewriteLine ui skipHistory line) := by
  have hline : rewrittenLine ui skipHistory w.config line =
      rewrittenLine ui skipHistory config line := by
    simp only [rewrittenLine, h.takenText]
  rw [rewriteLine_eq]
  have hout : w.out ++ (rewrittenLine ui skipHistory w.config line ++ ['\n']) =
      unlines '\n' ((done ++ [line]).map (rewrittenLine ui skipHistory config)) := by
    rw [hline, h.out, List.map_append, List.unlines_append]
    simp [unlines]
  have hseen (key : Key) : key ∈ (parseLine line).1.toList.map (·.1) ++ w.seen ↔
      key ∈ assignedKeys (done ++ [line]) := by
    rw [assignedKeys_concat, List.mem_append, List.mem_append, h.seen, or_comm]
  cases hparse : (parseLine line).1 with
  | none =>
    rw [hparse] at hseen
    exact ⟨hout, hseen, h.taken, h.kept⟩
  | some kv =>
    rw [hparse] at hseen
    refine ⟨hout, hseen, fun key hkey => ?_, fun key hkey => ?_⟩
    · refine (takeFromUi_text_eq ui w.config kv.1 key).trans ?_
      split
      · exact h.takenText key
      · rename_i hne
        exact h.taken key ((List.mem_cons.mp hkey).resolve_left hne)
    · obtain ⟨hne, hkey⟩ := not_or.mp fun h => hkey (List.mem_cons.mpr h)
      exact (takeFromUi_text_eq ui w.config kv.1 key).trans ((if_neg hne).trans (h.kept key hkey))

theorem written_foldl (old : List Text) : Written ui skipHistory config old
    (old.foldl (Rewriting.rewriteLine ui skipHistory) { config }) := by
  induction old using List.reverseRecOn with
  | nil => exact ⟨rfl, fun _ => Iff.rfl, fun _ h => (by cases h), fun _ _ => rfl⟩
  | append_singleton old line ih =>
    rw [List.foldl_append]
    exact ih.concat line

theorem foldl_appendMissing (keys : List Key) (w : Rewriting) :
    keys.foldl (Rewriting.appendMissing ui skipHistory) w =
      { w with out := w.out ++
        unlines '\n' ((keys.filter (· ∉ w.seen)).map (missingLine ui skipHistory w.config)) } := by
  induction keys generalizing w with
  | nil => simp [unlines]
  | cons key keys ih =>
    rw [List.foldl_cons, ih]
    by_cases h : key ∈ w.seen
    · simp [Rewriting.appendMissing, h]
    · simp [Rewriting.appendMissing, Rewriting.writeLine, missingLine, unlines, h]

/-- The file that Save writes. -/
theorem rewrite_out (old : List Text) : (rewrite ui skipHistory config old).out =
    unlines '\n' (newLines ui skipHistory config old) := by
  have h : Written ui skipHistory config old _ := written_foldl old
  rw [rewrite, foldl_appendMissing, newLines, List.unlines_append, ← h.out, missingKeys]
  simp only [h.seen]
  refine congrArg (_ ++ unlines '\n' ·) (List.map_congr_left fun key hkey => ?_)
  have hmissing : key ∉ assignedKeys old := by simpa using (List.mem_filter.mp hkey).2
  rw [missingLine, missingLine, h.kept key fun hs => hmissing ((h.seen key).mp hs)]

/-- The configuration once the file is written. -/
theorem rewrite_text (old : List Text) (key : Key) : (rewrite ui skipHistory config old).config.text key =
    if key ∈ assignedKeys old then takenText ui config key else config.text key := by
  have h : Written ui skipHistory config old _ := written_foldl old
  rw [rewrite, foldl_appendMissing]
  split
  · rename_i hkey
    exact h.taken key ((h.seen key).mpr hkey)
  · rename_i hkey
    exact h.kept key fun hs => hkey ((h.seen key).mp hs)

end NewFile

/-! ## Foreign lines -/

/-- The lines of a file that assign nothing. -/
def foreignLines (file : List Text) : List Text := file.filter fun line => (parseLine line).1.isNone

section Foreign

variable {ui : Option SavedTexts} {skipHistory : Bool} {config : ConfigData} {old : List Text}

theorem rewrittenLine_of_foreign {line : Text} (h : (parseLine line).1 = none) :
    rewrittenLine ui skipHistory config line = stripLine line := by
  rw [rewrittenLine, h]

/-- Foreign lines that need no editing are still there, whatever else is written. -/
theorem foreignLines_sublist (hold : ∀ line ∈ old, '\n' ∉ line)
    (hbare : ∀ line ∈ foreignLines old, Bare line) :
    (foreignLines old).Sublist ((rewrite ui skipHistory config old).out.lines '\n') := by
  rw [rewrite_out, lines_unlines_eq_flatMap, newLines, List.flatMap_append]
  apply List.Sublist.trans _ (List.sublist_append_left _ _)
  induction old with
  | nil => exact List.Sublist.refl _
  | cons line old ih =>
    have hsub : foreignLines old ⊆ foreignLines (line :: old) :=
      List.filter_subset _ (List.subset_cons_self line old)
    have hrest := ih (fun l hl => hold l (List.mem_cons_of_mem line hl)) fun l hl => hbare l (hsub hl)
    rw [foreignLines, List.filter_cons, List.map_cons, List.flatMap_cons]
    split
    · rename_i hforeign
      have hmem : line ∈ foreignLines (line :: old) :=
        List.mem_filter.mpr ⟨List.mem_cons_self, hforeign⟩
      have hline : (stripLine line ++ ['\n']).lines '\n' = [line] := by
        rw [stripLine_eq_self_iff.mpr (hbare line hmem)]
        exact List.lines_line (hold line List.mem_cons_self) []
      rw [rewrittenLine_of_foreign (Option.isNone_iff_eq_none.mp hforeign), hline]
      exact hrest.cons_cons line
    · exact hrest.trans (List.sublist_append_right _ _)

/-- No value that Save may write runs over several lines. -/
structure OneLine (ui : Option SavedTexts) (skipHistory : Bool) (config : ConfigData) : Prop where
  text : ∀ key, '\n' ∉ config.text key
  taken : ∀ key, '\n' ∉ takenText ui config key
  history : ∀ history ∈ savedHistory ui skipHistory, '\n' ∉ history

theorem newline_notMem_assignment {key : Key} {value : Text} (h : '\n' ∉ value) :
    '\n' ∉ assignment key value := by
  rw [assignment, List.mem_append, List.mem_cons]
  rintro (hname | heq | hvalue)
  · exact (key.name_plain _ hname).2.2.1 rfl
  · cases heq
  · exact h hvalue

theorem OneLine.rewrittenLine (h : OneLine ui skipHistory config) {line : Text} (hl : '\n' ∉ line) :
    '\n' ∉ rewrittenLine ui skipHistory config line := by
  have hstrip : '\n' ∉ stripLine line := newline_notMem_stripLine hl
  unfold UwavClient.rewrittenLine
  split
  · cases hhist : savedHistory ui skipHistory with
    | none => exact hstrip
    | some history => exact newline_notMem_assignment (h.history history hhist)
  · split
    · exact newline_notMem_assignment (h.taken _)
    · exact hstrip
  · exact hstrip

theorem OneLine.missingLine (h : OneLine ui skipHistory config) (key : Key) :
    '\n' ∉ missingLine ui skipHistory config key := by
  refine newline_notMem_assignment ?_
  split
  · cases hhist : savedHistory ui skipHistory with
    | none => decide
    | some history => exact h.history history hhist
  · exact h.text key

/-- With values of one line each the new file has the new lines. -/
theorem OneLine.lines_rewrite (h : OneLine ui skipHistory config) (hold : ∀ line ∈ old, '\n' ∉ line) :
    (rewrite ui skipHistory config old).out.lines '\n' = newLines ui skipHistory config old := by
  rw [rewrite_out]
  refine lines_unlines fun line hline => ?_
  rcases List.mem_append.mp hline with hl | hl
  · obtain ⟨l, hmem, rfl⟩ := List.mem_map.mp hl
    exact h.rewrittenLine (hold l hmem)
  · obtain ⟨key, -, rfl⟩ := List.mem_map.mp hl
    exact h.missingLine key

/-- A line is rewritten to one that assigns to the same key, or to none. -/
theorem rewrittenLine_key (line : Text) :
    (parseLine (rewrittenLine ui skipHistory config line)).1.map (·.1) =
      (parseLine line).1.map (·.1) := by
  have hstrip : (parseLine (stripLine line)).1 = (parseLine line).1 := by rw [parseLine_stripLine]
  unfold rewrittenLine
  split
  · rename_i hparse
    cases savedHistory ui skipHistory with
    | none => rw [Option.elim_none, hstrip]
    | some history => rw [Option.elim_some, parseLine_assignment, hparse]; rfl
  · rename_i key value _ hparse
    split
    · rw [parseLine_assignment, hparse]; rfl
    · rw [hstrip]
  · rw [hstrip]

theorem isNone_missingLine (key : Key) :
    (parseLine (missingLine ui skipHistory config key)).1.isNone = false := by
  rw [missingLine, parseLine_assignment]
  rfl

/-- The foreign lines of the new lines are those of the old file, edited. -/
theorem foreignLines_newLines (old : List Text) :
    foreignLines (newLines ui skipHistory config old) = (foreignLines old).map stripLine := by
  have hkey (line : Text) : (parseLine (rewrittenLine ui skipHistory config line)).1.isNone =
      (parseLine line).1.isNone := by
    rw [← Option.isNone_map (f := Prod.fst), rewrittenLine_key, Option.isNone_map]
  have hmissing : foreignLines ((missingKeys old).map (missingLine ui skipHistory config)) = [] := by
    rw [foreignLines, List.filter_map]
    simp [Function.comp_def, isNone_missingLine]
  have hold : foreignLines (old.map (rewrittenLine ui skipHistory config)) =
      (foreignLines old).map stripLine := by
    rw [foreignLines, List.filter_map, foreignLines]
    simp only [Function.comp_def, hkey]
    refine List.map_congr_left fun line hline => rewrittenLine_of_foreign ?_
    exact Option.isNone_iff_eq_none.mp (List.mem_filter.mp hline).2
  rw [newLines, foreignLines, List.filter_append]
  exact (congrArg₂ (· ++ ·) hold hmissing).trans (List.append_nil _)

/-- With values of one line each, foreign lines that are all still there needed no editing. -/
theorem bare_of_foreignLines_sublist (h : OneLine ui skipHistory config)
    (hold : ∀ line ∈ old, '\n' ∉ line)
    (hsub : (foreignLines old).Sublist ((rewrite ui skipHistory config old).out.lines '\n')) :
    ∀ line ∈ foreignLines old, Bare line := by
  rw [h.lines_rewrite hold] at hsub
  have hforeign : (foreignLines old).Sublist ((foreignLines old).map stripLine) := by
    have hfilter : foreignLines (foreignLines old) = foreignLines old := by simp [foreignLines]
    rw [← @foreignLines_newLines ui skipHistory config old, ← hfilter]
    exact hsub.filter _
  have heq : (foreignLines old).map stripLine = (foreignLines old).map id := by
    rw [List.map_id]
    exact (hforeign.eq_of_length (List.length_map stripLine).symm).symm
  exact fun line hline => stripLine_eq_self_iff.mp (List.map_inj_left.mp heq line hline)

end Foreign

namespace LocalConfig

def linesAfterSave (newid : String) (ui : Option SavedTexts) (skipHistory : Bool)
    (config : ConfigData) (s : Process) : List Text :=
  savedLines ((save ui skipHistory config).run.run (filesystem newid 0 0 .works) s).2

theorem linesAfterSave_eq (newid : String) (ui : Option SavedTexts) (skipHistory : Bool)
    (config : ConfigData) (s : Process) : linesAfterSave newid ui skipHistory config s =
      (rewrite ui skipHistory config (savedLines s)).out.lines '\n' := by
  rw [linesAfterSave, run_save]
  rfl

/-- The foreign lines of a settings file survive Save, whatever the UI and the configuration, if none of
them has a comment or whitespace around it; and only then, unless a value runs over several lines. -/
theorem foreign_lines_reappear_iff (newid : String) {s : Process} {file : Text}
    (h : s.get .conf = some file) (ui : Option SavedTexts) (skipHistory : Bool) (config : ConfigData) :
    ((∀ line ∈ foreignLines (file.lines '\n'), Bare line) →
      (foreignLines (file.lines '\n')).Sublist (linesAfterSave newid ui skipHistory config s)) ∧
    (OneLine ui skipHistory config →
      ((foreignLines (file.lines '\n')).Sublist (linesAfterSave newid ui skipHistory config s) ↔
        ∀ line ∈ foreignLines (file.lines '\n'), Bare line)) := by
  have hlines : savedLines s = file.lines '\n' := by rw [savedLines, h, Option.getD_some]
  have hold : ∀ line ∈ file.lines '\n', '\n' ∉ line := fun _ => List.sep_notMem_of_mem_lines
  rw [linesAfterSave_eq, hlines]
  have hkept : (∀ line ∈ foreignLines (file.lines '\n'), Bare line) →
      (foreignLines (file.lines '\n')).Sublist
        ((rewrite ui skipHistory config (file.lines '\n')).out.lines '\n') := foreignLines_sublist hold
  exact ⟨hkept, fun hone => ⟨bare_of_foreignLines_sublist hone hold, hkept⟩⟩

def withSettings (file : String) : Process := { folder := some { conf := some file.toList } }

/-- A setting of another program and an empty line. -/
theorem foreign_lines_reappear_plain : (foreignLines ("theme = dark\n\nuid=1\n".toList.lines '\n')).Sublist
    (linesAfterSave "7" none true { clientID := "2" } (withSettings "theme = dark\n\nuid=1\n")) :=
  (@foreign_lines_reappear_iff "7" (withSettings "theme = dark\n\nuid=1\n") _ rfl none true
    { clientID := "2" }).1 (by decide +kernel)

/-- A comment line is emptied. -/
theorem foreign_lines_lose_comment : ¬(foreignLines (savedLines (withSettings "# mine\nuid=1\n"))).Sublist
    (linesAfterSave "7" none true { clientID := "1" } (withSettings "# mine\nuid=1\n")) := by
  decide +kernel

end LocalConfig

end UwavClient
