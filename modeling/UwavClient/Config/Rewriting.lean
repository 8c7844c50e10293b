import UwavClient.Config.LocalConfig

/-!
# What the file that Save writes assigns

Every line that `Save` writes for a key parses to that key again, so the new file assigns a value to
each of them. The value read back is the one written, as far as its first comment sign and without
the whitespace around it.
-/

namespace UwavClient

def entries (file : Text) : List (Key × Text) := assignments (file.lines '\n')

/-- What is read back of a value. -/
def clean (value : Text) : Text := removeLeading (removeTrailing (value.takeWhile (· ≠ '#')))

/-- The value that the last assignment to a key gives it. -/
def lastValue (file : List (Key × Text)) (key : Key) : Option Text :=
  (file.reverse.find? (·.1 = key)).map (·.2)

def Complete (file : Text) : Prop := ∀ key, (lastValue (entries file) key).isSome

instance (file : Text) : Decidable (Complete file) :=
  decidable_of_iff (∀ key ∈ Key.all, (lastValue (entries file) key).isSome)
    ⟨fun h key => h key (by cases key <;> decide), fun h key _ => h key⟩

theorem lastValue_isSome {file : List (Key × Text)} {key : Key} :
    (lastValue file key).isSome ↔ ∃ value, (key, value) ∈ file := by
  simp [lastValue, List.find?_isSome]

section Entries

variable {file out : Text} {key : Key} {value : Text}

theorem entries_append (h : out.Terminated '\n') (file : Text) :
    entries (out ++ file) = entries out ++ entries file := by
  rw [entries, List.lines_append h, assignments, List.filterMap_append]
  rfl

theorem assignments_cons (line : Text) (file : List Text) :
    assignments (line :: file) = (parseLine line).1.toList ++ assignments file := by
  rw [assignments, List.filterMap_cons]
  cases (parseLine line).1 <;> rfl

theorem entries_line {line : Text} (h : '\n' ∉ line) :
    entries (line ++ ['\n']) = (parseLine line).1.toList := by
  rw [entries, List.lines_line h, assignments_cons]
  exact List.append_nil _

theorem parseLine_assignment_clean : (parseLine (assignment key value)).1 = some (key, clean value) :=
  parseLine_assignment key value

/-- What the lines of a value after its first one assign. -/
def spilled (value : Text) : List (Key × Text) :=
  if '\n' ∈ value then entries ((value.dropWhile (· ≠ '\n')).tail ++ ['\n']) else []

/-- The first line of an assignment makes it; the value may run on over more lines. -/
theorem entries_assignment (key : Key) (value : Text) : entries (assignment key value ++ ['\n']) =
    (key, clean (value.takeWhile (· ≠ '\n'))) :: spilled value := by
  have hname : ∀ c ∈ key.name, decide (c ≠ '\n') := fun c hc =>
    decide_eq_true (key.name_plain c hc).2.2.1
  have htake : (assignment key value).takeWhile (· ≠ '\n') =
      assignment key (value.takeWhile (· ≠ '\n')) := by
    rw [assignment, List.takeWhile_append_of_pos hname]
    rfl
  have hdrop : (assignment key value).dropWhile (· ≠ '\n') = value.dropWhile (· ≠ '\n') := by
    rw [assignment, List.dropWhile_append_of_pos hname]
    rfl
  have hmem : '\n' ∈ assignment key value ↔ '\n' ∈ value := by
    rw [assignment, List.mem_append, List.mem_cons]
    refine ⟨fun h => ?_, fun h => Or.inr (Or.inr h)⟩
    rcases h with h | h | h
    · exact absurd rfl (key.name_plain _ h).2.2.1
    · cases h
    · exact h
  rw [entries, List.lines_append_singleton, htake, hdrop, if_congr hmem rfl rfl,
    assignments_cons, parseLine_assignment_clean, spilled]
  split <;> rfl

theorem spilled_of_oneLine (h : '\n' ∉ value) : spilled value = [] := if_neg h

theorem entries_assignment_of_oneLine (h : '\n' ∉ value) :
    entries (assignment key value ++ ['\n']) = [(key, clean value)] := by
  have htake : value.takeWhile (· ≠ '\n') = value :=
    List.takeWhile_eq_self_iff.mpr fun c hc => decide_eq_true fun e => h (e ▸ hc)
  rw [entries_assignment, htake, spilled_of_oneLine h]

theorem mem_entries_assignment (key : Key) (value : Text) :
    ∃ value', (key, value') ∈ entries (assignment key value ++ ['\n']) :=
  ⟨_, entries_assignment key value ▸ List.mem_cons_self⟩

end Entries

section Clean

variable {line value : Text} {key : Key}

theorem clean_eq_self (hplain : '#' ∉ value) (hhead : ∀ h : value ≠ [], ¬isSpace (value.head h))
    (hlast : ∀ h : value ≠ [], ¬isSpace (value.getLast h)) : clean value = value := by
  have htake : value.takeWhile (· ≠ '#') = value :=
    List.takeWhile_eq_self_iff.mpr fun c hc => decide_eq_true fun e => hplain (e ▸ hc)
  have hright : removeTrailing value = value := List.rdropWhile_eq_self_iff.mpr hlast
  rw [clean, htake, hright]
  cases value with
  | nil => rfl
  | cons c value => exact List.dropWhile_cons_of_neg (hhead (List.cons_ne_nil c value))

/-- What is read back holds no comment sign. -/
theorem hash_notMem_clean (value : Text) : '#' ∉ clean value := by
  intro h
  have hmem : '#' ∈ value.takeWhile (· ≠ '#') :=
    (List.rdropWhile_prefix _ _).subset ((List.dropWhile_suffix _).subset h)
  have hne := List.mem_takeWhile_imp (p := (· ≠ '#')) hmem
  simp at hne

theorem value_of_parseLine (h : (parseLine line).1 = some (key, value)) :
    value = removeLeading ((stripLine line).dropWhile (· ≠ '=')).tail := by
  dsimp only [parseLine] at h
  split at h
  · obtain ⟨k, -, hk⟩ := Option.map_eq_some_iff.mp h
    exact (Prod.mk.inj hk).2.symm
  · cases h

theorem value_suffix_stripLine (h : (parseLine line).1 = some (key, value)) :
    value <:+ stripLine line :=
  value_of_parseLine h ▸
    (List.dropWhile_suffix _).trans ((List.tail_suffix _).trans (List.dropWhile_suffix _))

theorem newline_notMem_of_parseLine (hl : '\n' ∉ line) (h : (parseLine line).1 = some (key, value)) :
    '\n' ∉ value :=
  fun hn => newline_notMem_stripLine hl ((value_suffix_stripLine h).subset hn)

/-- A value that `ParseLine` returns reads back as it is. -/
theorem clean_of_parseLine (h : (parseLine line).1 = some (key, value)) : clean value = value := by
  have hvalue := value_of_parseLine h
  have hsuffix := value_suffix_stripLine h
  refine clean_eq_self (fun hc => ?_) (fun hne => ?_) fun hne => ?_
  · have hhash := List.mem_takeWhile_imp (p := (· ≠ '#')) (mem_of_mem_stripLine (hsuffix.subset hc))
    simp at hhash
  · subst hvalue
    have hhead := List.head_dropWhile_not isSpace hne
    exact fun h => Bool.false_ne_true (hhead.symm.trans h)
  · have hne' : stripLine line ≠ [] := fun e => hne (List.suffix_nil.mp (e ▸ hsuffix))
    rw [hsuffix.getLast hne]
    exact List.rdropWhile_last_not _ _ hne'

end Clean

section Invariant

variable {ui : Option SavedTexts} {skipHistory : Bool} {config : ConfigData} {old : List Text}
  {I : Rewriting → Prop}

/-- What holds at first, and is kept by each line of the old file and each line appended, holds of
the new file. -/
theorem rewrite_invariant (init : I { config })
    (line : ∀ w, ∀ l ∈ old, I w → I (w.rewriteLine ui skipHistory l))
    (append : ∀ w key, I w → I (w.appendMissing ui skipHistory key)) :
    I (rewrite ui skipHistory config old) := by
  have hlines : I (old.foldl (Rewriting.rewriteLine ui skipHistory) { config }) :=
    List.foldlRecOn old _ init fun w hw l hl => line w l hl hw
  exact List.foldlRecOn _ _ hlines fun w hw key _ => append w key hw

/-- The configuration changes only in what is taken from the UI. -/
theorem rewrite_config {P : ConfigData → Prop} (init : P config)
    (take : ∀ c key, P c → P (c.takeFromUi ui key)) : P (rewrite ui skipHistory config old).config := by
  refine rewrite_invariant (I := fun w => P w.config) init (fun w l _ hw => ?_) fun w key hw => ?_
  · unfold Rewriting.rewriteLine
    split
    split
    · exact hw
    · exact take _ _ hw
    · exact hw
  · dsimp only [Rewriting.appendMissing]
    split <;> exact hw

end Invariant

namespace Rewriting

variable {ui : Option SavedTexts} {skipHistory : Bool} {w : Rewriting} {line : Text} {key : Key}

/-- The file so far is made of whole lines, and each key marked has one. -/
structure Sound (w : Rewriting) : Prop where
  terminated : w.out.Terminated '\n'
  marked : ∀ key ∈ w.seen, ∃ value, (key, value) ∈ entries w.out

theorem entries_writeLine (h : w.out.Terminated '\n') (line : Text) :
    entries (w.writeLine line).out = entries w.out ++ entries (line ++ ['\n']) :=
  entries_append h _

theorem terminated_writeLine (h : w.out.Terminated '\n') (line : Text) :
    (w.writeLine line).out.Terminated '\n' :=
  List.terminated_append h (List.terminated_line line)

theorem Sound.writeLine (h : w.Sound) (line : Text) : (w.writeLine line).Sound := by
  refine ⟨terminated_writeLine h.terminated line, fun key hkey => ?_⟩
  obtain ⟨value, hv⟩ := h.marked key hkey
  exact ⟨value, entries_writeLine h.terminated line ▸ List.mem_append_left _ hv⟩

/-- A key is marked along with a line for it. -/
theorem Sound.mark_writeLine (h : w.Sound)
    (hline : ∃ value, (key, value) ∈ entries (line ++ ['\n'])) :
    ((w.mark key).writeLine line).Sound := by
  refine ⟨terminated_writeLine (w := w.mark key) h.terminated line, fun k hk => ?_⟩
  rw [entries_writeLine (w := w.mark key) h.terminated]
  rcases List.mem_cons.mp hk with rfl | hk
  · obtain ⟨value, hv⟩ := hline
    exact ⟨value, List.mem_append_right _ hv⟩
  · obtain ⟨value, hv⟩ := h.marked k hk
    exact ⟨value, List.mem_append_left _ hv⟩

/-- A line of the old file that stays assigns what it did. -/
theorem entries_stripLine (hl : '\n' ∉ line) :
    entries ((parseLine line).2 ++ ['\n']) = (parseLine line).1.toList := by
  rw [parseLine_snd, entries_line (newline_notMem_stripLine hl), parseLine_stripLine]

theorem Sound.rewriteLine (h : w.Sound) (hl : '\n' ∉ line) :
    (w.rewriteLine ui skipHistory line).Sound := by
  have hstrip := entries_stripLine hl
  unfold Rewriting.rewriteLine
  split
  rename_i keyval nextLine hparse
  rw [hparse] at hstrip
  split
  · rename_i value
    refine h.mark_writeLine ?_
    cases savedHistory ui skipHistory with
    | none => exact ⟨value, hstrip ▸ List.mem_singleton_self _⟩
    | some history => exact mem_entries_assignment .previousServers history
  · rename_i key value hne
    refine Sound.mark_writeLine (w := { w with config := _ }) ⟨h.terminated, h.marked⟩ ?_
    split
    · exact mem_entries_assignment key _
    · exact ⟨value, hstrip ▸ List.mem_singleton_self _⟩
  · exact h.writeLine nextLine

theorem Sound.appendMissing (h : w.Sound) (key : Key) :
    (w.appendMissing ui skipHistory key).Sound := by
  dsimp only [Rewriting.appendMissing]
  by_cases hk : key ∈ w.seen
  · rwa [if_pos hk]
  · rw [if_neg hk]
    exact h.writeLine _

/-- A key that is appended if it is missing has a line then. -/
theorem Sound.mem_appendMissing (h : w.Sound) (key : Key) :
    ∃ value, (key, value) ∈ entries (w.appendMissing ui skipHistory key).out := by
  dsimp only [Rewriting.appendMissing]
  by_cases hk : key ∈ w.seen
  · rw [if_pos hk]
    exact h.marked key hk
  · rw [if_neg hk, entries_writeLine h.terminated]
    obtain ⟨value, hv⟩ := mem_entries_assignment key
      (if key = .previousServers then (savedHistory ui skipHistory).getD "none".toList
        else w.config.text key)
    exact ⟨value, List.mem_append_right _ hv⟩

theorem Sound.entries_subset (h : w.Sound) (key : Key) :
    entries w.out ⊆ entries (w.appendMissing ui skipHistory key).out := by
  dsimp only [Rewriting.appendMissing]
  by_cases hk : key ∈ w.seen
  · rw [if_pos hk]
    exact List.Subset.refl _
  · rw [if_neg hk, entries_writeLine h.terminated]
    exact List.subset_append_left _ _

theorem Sound.mem_foldl_appendMissing {keys : List Key} (h : w.Sound) :
    ∀ key, (key ∈ keys ∨ ∃ value, (key, value) ∈ entries w.out) →
      ∃ value, (key, value) ∈ entries (keys.foldl (Rewriting.appendMissing ui skipHistory) w).out := by
  induction keys generalizing w with
  | nil => exact fun key hkey => hkey.resolve_left List.not_mem_nil
  | cons k keys ih =>
    intro key hkey
    refine ih (h.appendMissing k) key ?_
    rcases hkey with hkey | ⟨value, hv⟩
    · rcases List.mem_cons.mp hkey with rfl | hkey
      · exact Or.inr (h.mem_appendMissing key)
      · exact Or.inl hkey
    · exact Or.inr ⟨value, h.entries_subset k hv⟩

end Rewriting

section Carries

variable {ui : Option SavedTexts} {skipHistory : Bool} {config : ConfigData} {old : List Text}
  {K : Key → Prop} {value : Key → Text} {w : Rewriting}

/-- Whatever the lines of this assignment assign to the keys `K` is the value they should have. -/
def Fits (K : Key → Prop) (value : Key → Text) (key : Key) (text : Text) : Prop :=
  ∀ k v, (k, v) ∈ entries (assignment key text ++ ['\n']) → K k → v = value k

/-- What Save may write besides the lines of the old file. -/
structure Fitting (K : Key → Prop) (value : Key → Text) (ui : Option SavedTexts) (skipHistory : Bool)
    (config : ConfigData) : Prop where
  inUse : ∀ key, Fits K value key (config.text key)
  shown : ∀ texts ∈ ui, Fits K value .inferDevice texts.inferDevice.toList ∧
    Fits K value .modelName texts.modelName.toList
  past : ∀ history ∈ savedHistory ui skipHistory, Fits K value .previousServers history
  kept : ∀ key, K key → value key = clean (config.text key)
  /-- The UI has no say in these keys. -/
  own : ∀ key, K key → key ≠ .previousServers ∧ (ui = none ∨ key ≠ .inferDevice ∧ key ≠ .modelName)

theorem takeFromUi_text (ui : Option SavedTexts) (config : ConfigData) (k key : Key) :
    (config.takeFromUi ui k).text key = config.text key ∨ ∃ texts ∈ ui,
      (key = .inferDevice ∧ (config.takeFromUi ui k).text key = texts.inferDevice.toList) ∨
      (key = .modelName ∧ (config.takeFromUi ui k).text key = texts.modelName.toList) := by
  cases ui with
  | none => cases k <;> exact Or.inl rfl
  | some texts =>
    cases k with
    | inferDevice =>
      by_cases h : texts.inferDevice = ""
      · exact Or.inl (by simp only [ConfigData.takeFromUi, h, ne_eq, not_true_eq_false, if_false])
      · have htake : config.takeFromUi (some texts) .inferDevice =
            { config with inferDevice := texts.inferDevice } := if_pos h
        rw [htake]
        cases key with
        | inferDevice => exact Or.inr ⟨texts, rfl, Or.inl ⟨rfl, rfl⟩⟩
        | _ => exact Or.inl rfl
    | modelName =>
      by_cases h : texts.modelName = ""
      · exact Or.inl (by simp only [ConfigData.takeFromUi, h, ne_eq, not_true_eq_false, if_false])
      · have htake : config.takeFromUi (some texts) .modelName =
            { config with modelName := texts.modelName } := if_pos h
        rw [htake]
        cases key with
        | modelName => exact Or.inr ⟨texts, rfl, Or.inr ⟨rfl, rfl⟩⟩
        | _ => exact Or.inl rfl
    | _ => exact Or.inl rfl

theorem Fitting.takeFromUi (h : Fitting K value ui skipHistory config) (k : Key) :
    Fitting K value ui skipHistory (config.takeFromUi ui k) := by
  refine ⟨fun key => ?_, h.shown, h.past, fun key hK => ?_, h.own⟩
  · obtain htext | ⟨texts, hui, ⟨rfl, htext⟩ | ⟨rfl, htext⟩⟩ := takeFromUi_text ui config k key
    · exact htext ▸ h.inUse key
    · exact htext ▸ (h.shown texts hui).1
    · exact htext ▸ (h.shown texts hui).2
  · obtain htext | ⟨texts, hui, hkey⟩ := takeFromUi_text ui config k key
    · exact htext ▸ h.kept key hK
    · obtain hnone | hne := (h.own key hK).2
      · exact absurd (hnone ▸ hui) (Option.not_mem_none texts)
      · exact absurd hkey fun e => e.elim (fun e => hne.1 e.1) fun e => hne.2 e.1

/-- The file so far assigns the values they should have to the keys `K`. -/
structure Carries (K : Key → Prop) (value : Key → Text) (ui : Option SavedTexts) (skipHistory : Bool)
    (w : Rewriting) : Prop where
  terminated : w.out.Terminated '\n'
  fitting : Fitting K value ui skipHistory w.config
  carries : ∀ key v, (key, v) ∈ entries w.out → K key → v = value key

theorem Carries.writeLine {line : Text} (h : Carries K value ui skipHistory w)
    (hline : ∀ key v, (key, v) ∈ entries (line ++ ['\n']) → K key → v = value key) :
    Carries K value ui skipHistory (w.writeLine line) := by
  refine ⟨Rewriting.terminated_writeLine h.terminated line, h.fitting, fun key v hv hK => ?_⟩
  rw [Rewriting.entries_writeLine h.terminated] at hv
  exact (List.mem_append.mp hv).elim (fun hv => h.carries key v hv hK) fun hv => hline key v hv hK

theorem Carries.mark (h : Carries K value ui skipHistory w) (key : Key) :
    Carries K value ui skipHistory (w.mark key) := ⟨h.terminated, h.fitting, h.carries⟩

theorem Carries.rewriteLine {line : Text} (h : Carries K value ui skipHistory w) (hl : '\n' ∉ line) :
    Carries K value ui skipHistory (w.rewriteLine ui skipHistory line) := by
  have hstrip := Rewriting.entries_stripLine hl
  unfold Rewriting.rewriteLine
  split
  rename_i keyval nextLine hparse
  rw [hparse] at hstrip
  split
  · rename_i v
    refine (h.mark .previousServers).writeLine fun key v' hv hK => ?_
    cases hhist : savedHistory ui skipHistory with
    | none =>
      rw [hhist, Option.elim_none, hstrip, Option.toList_some, List.mem_singleton] at hv
      exact absurd (Prod.mk.inj hv).1 (h.fitting.own key hK).1
    | some history =>
      rw [hhist, Option.elim_some] at hv
      exact h.fitting.past history hhist key v' hv hK
  · rename_i k v _
    have htaken : Carries K value ui skipHistory { w with config := w.config.takeFromUi ui k } :=
      ⟨h.terminated, h.fitting.takeFromUi k, h.carries⟩
    refine (htaken.mark k).writeLine fun key v' hv hK => ?_
    split at hv
    · exact htaken.fitting.inUse k key v' hv hK
    · rename_i hsame
      -- the line stays because it has the value in use
      rw [hstrip, Option.toList_some, List.mem_singleton] at hv
      obtain ⟨rfl, rfl⟩ := Prod.mk.inj hv
      rw [htaken.fitting.kept key hK, ← not_not.mp hsame]
      exact (clean_of_parseLine (congrArg Prod.fst hparse)).symm
  · refine h.writeLine fun key v hv hK => ?_
    rw [hstrip] at hv
    cases hv

theorem Carries.appendMissing (h : Carries K value ui skipHistory w) (key : Key) :
    Carries K value ui skipHistory (w.appendMissing ui skipHistory key) := by
  dsimp only [Rewriting.appendMissing]
  by_cases hk : key ∈ w.seen
  · rwa [if_pos hk]
  · rw [if_neg hk]
    refine h.writeLine fun k v hv hK => ?_
    by_cases hkey : key = .previousServers
    · subst hkey
      cases hhist : savedHistory ui skipHistory with
      | none =>
        rw [hhist] at hv
        exact h.fitting.inUse .previousServers k v hv hK
      | some history =>
        rw [hhist] at hv
        exact h.fitting.past history hhist k v hv hK
    · rw [if_neg hkey] at hv
      exact h.fitting.inUse key k v hv hK

/-- The new file assigns to the keys `K` the values they should have, if all that is written fits. -/
theorem carries_rewrite (h : Fitting K value ui skipHistory config) (file : Text) :
    Carries K value ui skipHistory (rewrite ui skipHistory config (file.lines '\n')) :=
  rewrite_invariant ⟨Or.inl rfl, h, fun _ _ hv => by cases hv⟩
    (fun _ _ hl hw => hw.rewriteLine (List.sep_notMem_of_mem_lines hl))
    fun _ key hw => hw.appendMissing key

end Carries

/-- Save writes a value for every key, whatever the configuration and the old file. -/
theorem complete_rewrite (ui : Option SavedTexts) (skipHistory : Bool) (config : ConfigData)
    (file : Text) : Complete (rewrite ui skipHistory config (file.lines '\n')).out := by
  have hinit : ({ config } : Rewriting).Sound := ⟨Or.inl rfl, by simp⟩
  have hlines : ((file.lines '\n').foldl (Rewriting.rewriteLine ui skipHistory) { config }).Sound :=
    List.foldlRecOn _ _ hinit fun w hw l hl =>
      Rewriting.Sound.rewriteLine hw (List.sep_notMem_of_mem_lines hl)
  intro key
  refine lastValue_isSome.mpr (hlines.mem_foldl_appendMissing key (Or.inl ?_))
  cases key <;> decide

end UwavClient
