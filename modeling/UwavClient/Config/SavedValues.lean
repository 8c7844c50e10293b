import UwavClient.Config.NewFile

/-!
# The values that Save writes

Each key has one line rewritten, or one appended. The two agree for the keys that the UI has no say
in. For the infer device and the model name only the rewritten line takes over what the UI shows, so
a file that lacks the line gets the value of the configuration instead.
-/

namespace UwavClient

structure Plain (value : Text) : Prop extends Bare value where
  oneLine : '\n' ∉ value

theorem Plain.clean {value : Text} (h : Plain value) : clean value = value :=
  clean_eq_self h.plain h.head h.last

theorem Plain.parseLine {value : Text} (h : Plain value) (key : Key) :
    (parseLine (assignment key value)).1 = some (key, value) := by
  rw [parseLine_assignment_clean, h.clean]

theorem Plain.stripLine {value : Text} (h : Plain value) (key : Key) :
    stripLine (assignment key value) = assignment key value := by
  have htake : value.takeWhile (· ≠ '#') = value :=
    List.takeWhile_eq_self_iff.mpr fun c hc => decide_eq_true fun e => h.plain (e ▸ hc)
  have hright : removeTrailing value = value := List.rdropWhile_eq_self_iff.mpr h.last
  rw [stripLine_assignment, htake, hright]

/-- The value that a key should have in the file that Save writes with a UI. -/
def intendedText (texts : SavedTexts) (config : ConfigData) : Key → Text
  | .inferDevice => if texts.inferDevice ≠ "" then texts.inferDevice.toList else config.inferDevice.toList
  | .modelName => if texts.modelName ≠ "" then texts.modelName.toList else config.modelName.toList
  | .previousServers => serverHistoryString texts
  | .uid => config.clientID.toList
  | .inputDevice => config.inputDevice.toList
  | .outputDevice => config.outputDevice.toList

structure PlainValues (texts : SavedTexts) (config : ConfigData) : Prop where
  text : ∀ key, Plain (config.text key)
  inferDevice : Plain texts.inferDevice.toList
  modelName : Plain texts.modelName.toList
  history : Plain (serverHistoryString texts)

section Values

variable {texts : SavedTexts} {config : ConfigData} {old : List Text} {key : Key} {line value : Text}

theorem takenText_some (hkey : key ≠ .previousServers) :
    takenText (some texts) config key = intendedText texts config key := by
  cases key <;> first
    | exact absurd rfl hkey
    | rfl
    | (simp only [takenText, shownText, intendedText, Option.bind_some]
       split <;> rfl)

/-- What holds of the values of the configuration and of those the UI shows holds of those in use. -/
theorem takenText_of_forall {P : Text → Prop} (text : ∀ key, P (config.text key))
    (inferDevice : P texts.inferDevice.toList) (modelName : P texts.modelName.toList) (key : Key) :
    P (takenText (some texts) config key) := by
  cases key with
  | inferDevice =>
    by_cases h : texts.inferDevice = ""
    · simpa [takenText, shownText, h] using text .inferDevice
    · simpa [takenText, shownText, h] using inferDevice
  | modelName =>
    by_cases h : texts.modelName = ""
    · simpa [takenText, shownText, h] using text .modelName
    · simpa [takenText, shownText, h] using modelName
  | previousServers => exact text .previousServers
  | uid => exact text .uid
  | inputDevice => exact text .inputDevice
  | outputDevice => exact text .outputDevice

theorem PlainValues.taken (h : PlainValues texts config) (key : Key) :
    Plain (takenText (some texts) config key) :=
  takenText_of_forall h.text h.inferDevice h.modelName key

theorem PlainValues.intended (h : PlainValues texts config) (key : Key) :
    Plain (intendedText texts config key) := by
  by_cases hkey : key = .previousServers
  · rw [hkey]
    exact h.history
  · rw [← takenText_some hkey]
    exact h.taken key

theorem PlainValues.oneLine (h : PlainValues texts config) : OneLine (some texts) false config where
  text key := (h.text key).oneLine
  taken key := (h.taken key).oneLine
  history _ hhist := Option.some.inj hhist ▸ h.history.oneLine

/-- The value of the line that is appended for a missing key. -/
def missingText (texts : SavedTexts) (config : ConfigData) (key : Key) : Text :=
  if key = .previousServers then serverHistoryString texts else config.text key

theorem missingLine_some (key : Key) :
    missingLine (some texts) false config key = assignment key (missingText texts config key) := rfl

theorem PlainValues.missing (h : PlainValues texts config) (key : Key) :
    Plain (missingText texts config key) := by
  rw [missingText]
  split
  · exact h.history
  · exact h.text key

/-- A line of the old file that assigns to a key is given the intended value. -/
theorem parseLine_rewrittenLine (h : PlainValues texts config) (line : Text) :
    (parseLine (rewrittenLine (some texts) false config line)).1 =
      (parseLine line).1.map fun kv => (kv.1, intendedText texts config kv.1) := by
  unfold rewrittenLine
  split
  · rename_i value hparse
    rw [hparse]
    exact h.history.parseLine .previousServers
  · rename_i key value hne hparse
    have htaken : takenText (some texts) config key = intendedText texts config key :=
      takenText_some hne
    rw [htaken, hparse, Option.map_some]
    split
    · exact (h.intended key).parseLine key
    · rename_i hsame
      rw [parseLine_stripLine, hparse, ← not_not.mp hsame]
  · rename_i hparse
    rw [parseLine_stripLine, hparse]
    rfl

theorem parseLine_missingLine (h : PlainValues texts config) (key : Key) :
    (parseLine (missingLine (some texts) false config key)).1 =
      some (key, missingText texts config key) := by
  rw [missingLine_some]
  exact (h.missing key).parseLine key

theorem mem_missingKeys : key ∈ missingKeys old ↔ key ∉ assignedKeys old := by
  have hall : key ∈ Rewriting.appended := by cases key <;> decide
  simp [missingKeys, hall]

/-- What the new lines assign: the intended values of the keys that the old file has lines for, and
for the others what is appended. -/
theorem mem_assignments_newLines (h : PlainValues texts config) :
    (key, value) ∈ assignments (newLines (some texts) false config old) ↔
      value = if key ∈ assignedKeys old then intendedText texts config key
        else missingText texts config key := by
  rw [assignments, newLines, List.filterMap_append, List.mem_append]
  have hold : (key, value) ∈ (old.map (rewrittenLine (some texts) false config)).filterMap
      (fun line => (parseLine line).1) ↔
      key ∈ assignedKeys old ∧ value = intendedText texts config key := by
    rw [List.filterMap_map]
    simp only [List.mem_filterMap, Function.comp_apply, parseLine_rewrittenLine h,
      Option.map_eq_some_iff, Prod.mk.injEq, assignedKeys, assignments, List.mem_map]
    constructor
    · rintro ⟨line, hline, kv, hparse, rfl, rfl⟩
      exact ⟨⟨kv, ⟨line, hline, hparse⟩, rfl⟩, rfl⟩
    · rintro ⟨⟨kv, ⟨line, hline, hparse⟩, rfl⟩, rfl⟩
      exact ⟨line, hline, kv, hparse, rfl, rfl⟩
  have hmissing : (key, value) ∈ ((missingKeys old).map (missingLine (some texts) false config)).filterMap
      (fun line => (parseLine line).1) ↔
      key ∉ assignedKeys old ∧ value = missingText texts config key := by
    rw [List.filterMap_map]
    simp only [List.mem_filterMap, Function.comp_apply, parseLine_missingLine h, Option.some.injEq,
      Prod.mk.injEq]
    constructor
    · rintro ⟨k, hk, rfl, rfl⟩
      exact ⟨mem_missingKeys.mp hk, rfl⟩
    · rintro ⟨hk, rfl⟩
      exact ⟨key, mem_missingKeys.mpr hk, rfl, rfl⟩
  rw [hold, hmissing]
  split <;> simp_all

/-- The values that are appended are the intended ones. -/
def AppendsIntended (old : List Text) (texts : SavedTexts) (config : ConfigData) : Prop :=
  ∀ key ∉ assignedKeys old, missingText texts config key = intendedText texts config key

theorem assignments_newLines_iff (h : PlainValues texts config) :
    (∀ key value, (key, value) ∈ assignments (newLines (some texts) false config old) ↔
      value = intendedText texts config key) ↔ AppendsIntended old texts config := by
  simp only [mem_assignments_newLines h]
  constructor
  · intro hall key hkey
    exact (hall key (missingText texts config key)).mp (if_neg hkey).symm
  · intro hmissing key value
    by_cases hkey : key ∈ assignedKeys old
    · rw [if_pos hkey]
    · rw [if_neg hkey, hmissing key hkey]

/-- A line that Save would write as it is. -/
structure Settled (texts : SavedTexts) (config : ConfigData) (line : Text) : Prop where
  stripped : stripLine line = line
  intended : ∀ key value, (parseLine line).1 = some (key, value) →
    value = intendedText texts config key
  history : ∀ value, (parseLine line).1 = some (.previousServers, value) →
    line = assignment .previousServers (serverHistoryString texts)

theorem settled_assignment {text : Text} (h : Plain text) (key : Key)
    (htext : text = intendedText texts config key) : Settled texts config (assignment key text) where
  stripped := h.stripLine key
  intended k v hparse := by
    rw [h.parseLine, Option.some.injEq, Prod.mk.injEq] at hparse
    rw [← hparse.2, htext, hparse.1]
  history v hparse := by
    rw [h.parseLine, Option.some.injEq, Prod.mk.injEq] at hparse
    rw [htext, hparse.1]
    rfl

theorem settled_rewrittenLine (h : PlainValues texts config) (line : Text) :
    Settled texts config (rewrittenLine (some texts) false config line) := by
  unfold rewrittenLine
  split
  · exact settled_assignment h.history .previousServers rfl
  · rename_i key value hne hparse
    rw [takenText_some hne]
    split
    · exact settled_assignment (h.intended key) key rfl
    · rename_i hsame
      refine ⟨stripLine_stripLine line, fun k v hkv => ?_, fun v hkv => ?_⟩ <;>
        rw [parseLine_stripLine, hparse, Option.some.injEq, Prod.mk.injEq] at hkv
      · rw [← hkv.2, ← hkv.1]
        exact not_not.mp hsame
      · exact absurd hkv.1 hne
  · rename_i hparse
    refine ⟨stripLine_stripLine line, fun k v hkv => ?_, fun v hkv => ?_⟩ <;>
      rw [parseLine_stripLine, hparse] at hkv <;> cases hkv

/-- A settled line is rewritten to itself, with any configuration of the same intended values. -/
theorem Settled.rewrittenLine {config' : ConfigData} (hline : Settled texts config line)
    (hsame : ∀ key, intendedText texts config' key = intendedText texts config key) :
    rewrittenLine (some texts) false config' line = line := by
  unfold UwavClient.rewrittenLine
  split
  · rename_i value hparse
    exact (hline.history value hparse).symm
  · rename_i key value hne hparse
    rw [takenText_some hne, hsame, hline.intended key value hparse]
    exact (if_neg (not_not.mpr rfl)).trans hline.stripped
  · exact hline.stripped

/-- The configuration after Save has the values that were intended before. -/
theorem intendedText_rewrite (h : AppendsIntended old texts config) (key : Key) :
    intendedText texts (rewrite (some texts) false config old).config key =
      intendedText texts config key := by
  have htext (k : Key) (hk : k ≠ .previousServers) :
      (rewrite (some texts) false config old).config.text k = intendedText texts config k := by
    rw [rewrite_text]
    split
    · exact takenText_some hk
    · rename_i hmissing
      rw [← h k hmissing, missingText, if_neg hk]
  by_cases hkey : key = .previousServers
  · rw [hkey]
    rfl
  · rw [← takenText_some hkey, takenText, htext key hkey, ← takenText_some hkey, takenText]
    cases shownText (some texts) key <;> rfl

/-- Saving the new lines once more gives them back. -/
theorem newLines_newLines (h : PlainValues texts config) (happends : AppendsIntended old texts config) :
    newLines (some texts) false (rewrite (some texts) false config old).config
      (newLines (some texts) false config old) = newLines (some texts) false config old := by
  have hsettled : ∀ line ∈ newLines (some texts) false config old, Settled texts config line := by
    intro line hline
    rcases List.mem_append.mp hline with hl | hl
    · obtain ⟨l, -, rfl⟩ := List.mem_map.mp hl
      exact settled_rewrittenLine h l
    · obtain ⟨key, hkey, rfl⟩ := List.mem_map.mp hl
      exact settled_assignment (h.missing key) key (happends key (mem_missingKeys.mp hkey))
  have hnone : missingKeys (newLines (some texts) false config old) = [] := by
    refine List.eq_nil_iff_forall_not_mem.mpr fun key hkey => mem_missingKeys.mp hkey ?_
    exact mem_assignedKeys.mpr ⟨_, ((assignments_newLines_iff h).mpr happends key _).mpr rfl⟩
  have hmap : (newLines (some texts) false config old).map (rewrittenLine (some texts) false
      (rewrite (some texts) false config old).config) = newLines (some texts) false config old := by
    refine (List.map_congr_left fun line hline => ?_).trans (List.map_id _)
    exact (hsettled line hline).rewrittenLine (intendedText_rewrite happends)
  rw [newLines, hnone, List.map_nil, List.append_nil, hmap]

end Values

/-- A key with a line in the old file, or whose drop-down shows nothing or the value in use. -/
def TakenOver (old : List Text) (key : Key) (shown inUse : String) : Prop :=
  key ∈ assignedKeys old ∨ shown = "" ∨ shown = inUse

instance (old : List Text) (key : Key) (shown inUse : String) :
    Decidable (TakenOver old key shown inUse) := inferInstanceAs (Decidable (_ ∨ _))

theorem takenOver_iff {old : List Text} {key : Key} {shown inUse : String} :
    (key ∉ assignedKeys old → inUse.toList = if shown ≠ "" then shown.toList else inUse.toList) ↔
      TakenOver old key shown inUse := by
  unfold TakenOver
  by_cases hshown : shown = ""
  · simp [hshown]
  · simp only [ne_eq, hshown, not_false_eq_true, if_true, false_or, String.toList_inj]
    rw [eq_comm (a := inUse), ← Classical.or_iff_not_imp_left]

theorem appendsIntended_iff {old : List Text} {texts : SavedTexts} {config : ConfigData} :
    AppendsIntended old texts config ↔
      TakenOver old .inferDevice texts.inferDevice config.inferDevice ∧
        TakenOver old .modelName texts.modelName config.modelName := by
  rw [← takenOver_iff, ← takenOver_iff]
  constructor
  · exact fun h => ⟨h .inferDevice, h .modelName⟩
  · intro h key
    cases key with
    | inferDevice => exact h.1
    | modelName => exact h.2
    | _ => exact fun _ => rfl

namespace LocalConfig

/-- Save leaves a file in which every assignment to a key gives it the intended value and each key has
one, and saving once more leaves the same file. -/
def SavesAsIntended (newid : String) (texts : SavedTexts) (config : ConfigData) (s : Process) :
    Prop :=
  ∃ file config' config'' t u,
    (save (some texts) false config).run.run (filesystem newid 0 0 .works) s = (.ok config', t) ∧
    t.get .conf = some file ∧
    (∀ key value, (key, value) ∈ entries file ↔ value = intendedText texts config key) ∧
    (save (some texts) false config').run.run (filesystem newid 0 0 .works) t = (.ok config'', u) ∧
    u.get .conf = some file

/-- Save writes what it should exactly if what the UI shows for the infer device and the model is
already in use wherever the old file has no line for it. -/
theorem saves_as_intended_iff {texts : SavedTexts} {config : ConfigData}
    (h : PlainValues texts config) (newid : String) (s : Process) :
    SavesAsIntended newid texts config s ↔
      TakenOver (savedLines s) .inferDevice texts.inferDevice config.inferDevice ∧
        TakenOver (savedLines s) .modelName texts.modelName config.modelName := by
  obtain ⟨old, hold⟩ : ∃ old, old = savedLines s := ⟨_, rfl⟩
  obtain ⟨new, hnew⟩ : ∃ new, new = rewrite (some texts) false config old := ⟨_, rfl⟩
  have hline : ∀ line ∈ old, '\n' ∉ line := fun _ hl => List.sep_notMem_of_mem_lines (hold ▸ hl)
  have hlines : new.out.lines '\n' = newLines (some texts) false config old :=
    hnew ▸ h.oneLine.lines_rewrite hline
  have hfirst := @run_save newid (some texts) false config s
  rw [← hold, ← hnew] at hfirst
  rw [← hold, ← appendsIntended_iff, ← assignments_newLines_iff h, ← hlines]
  constructor
  · rintro ⟨file, config', config'', t, u, hrun, hfile, hvalues, -⟩
    obtain ⟨-, rfl⟩ := Prod.mk.inj (hfirst.symm.trans hrun)
    obtain rfl : new.out = file := Option.some.inj hfile
    exact hvalues
  · intro hvalues
    refine ⟨new.out, _, _, _, _, hfirst, rfl, hvalues, run_save, congrArg some ?_⟩
    have happends : AppendsIntended old texts config := by
      rwa [hlines, assignments_newLines_iff h] at hvalues
    have hagain : savedLines { s with
        folder := some { conf := some new.out }, reader := [], writer := new.out } =
        newLines (some texts) false config old := hlines
    rw [hagain, rewrite_out, hnew, newLines_newLines h happends, rewrite_out]

/-- The UI of a client that is connected. -/
def connectedTexts : SavedTexts :=
  { inferDevice := "cuda", modelName := "alto", currentServer := "host:8000", servers := [] }

/-- The configuration of a client that has not saved since. -/
def earlierConfig : ConfigData := { clientID := "42", inputDevice := "Mic", modelName := "bass" }

theorem plainValues_connected : PlainValues connectedTexts earlierConfig where
  text key := by cases key <;> exact ⟨⟨by decide, by decide, by decide⟩, by decide⟩
  inferDevice := ⟨⟨by decide, by decide, by decide⟩, by decide⟩
  modelName := ⟨⟨by decide, by decide, by decide⟩, by decide⟩
  history := ⟨⟨by decide, by decide, by decide⟩, by decide⟩

theorem saves_as_intended_with_lines : SavesAsIntended "7" connectedTexts earlierConfig
    (withSettings "inferDevice = cpu\nmodelName=bass # old\n") :=
  (saves_as_intended_iff plainValues_connected "7" _).mpr (by decide +kernel)

/-- Without a settings file the model that was in use is saved, not the one the UI shows. -/
theorem saves_other_model_without_file : PlainValues connectedTexts earlierConfig ∧
    ¬SavesAsIntended "7" connectedTexts earlierConfig { folder := none } := by
  refine ⟨plainValues_connected, ?_⟩
  rintro ⟨file, config', config'', t, u, hrun, hfile, hvalues, -⟩
  obtain ⟨-, rfl⟩ := Prod.mk.inj (run_save.symm.trans hrun)
  obtain rfl := Option.some.inj hfile
  have hmodel := (hvalues .modelName "alto".toList).mpr rfl
  revert hmodel
  decide +kernel

end LocalConfig

end UwavClient
