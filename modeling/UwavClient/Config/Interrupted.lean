import UwavClient.Config.Sessions

/-!
# A Save that is cut short

`Save` is interrupted by the failure of calls or by the death of the process, and the program is
started again. Between the renaming of `client.conf` and the end of `Save` the settings are complete
only in the copy, which `Load` does not read and the next `Save` deletes.
-/

namespace UwavClient

def SameSettings (s t : Text) : Prop :=
  (∀ key, lastValue (entries s) key = lastValue (entries t) key) ∧ configOf s = configOf t

instance (s t : Text) : Decidable (SameSettings s t) :=
  decidable_of_iff ((∀ key ∈ Key.all, lastValue (entries s) key = lastValue (entries t) key) ∧
      configOf s = configOf t)
    (and_congr_left' ⟨fun h key => h key (by cases key <;> decide), fun h key _ => h key⟩)

namespace LocalConfig

/-- What an interrupted `Save` leaves of the directory. -/
def leftBy (i : Interruption) (ui : Option SavedTexts) (skipHistory : Bool) (config : ConfigData)
    (file : Text) : Option Folder :=
  ((save ui skipHistory config).run.runUnder (filesystem "" i.linesRead i.flushed) i.fates
    { folder := some { conf := some file } }).2.folder

/-- The next start of the program, in which nothing goes wrong. -/
def nextStart (newid : String) (ui : Option SavedTexts) (folder : Option Folder) :
    Except Abort ConfigData × Process :=
  (load ui {}).run.run (filesystem newid 0 0 .works) { folder }

/-- The start ends with all of the old or all of the new settings, in use and in `client.conf`, and
with the client id found there. -/
def Survives (old new : Text) (start : Except Abort ConfigData × Process) : Prop :=
  (∃ conf, start.2.get .conf = some conf ∧ Complete conf ∧
    (SameSettings conf old ∨ SameSettings conf new) ∧ start.1 = .ok (configOf conf)) ∧
  start.2.generated = false

/-- What has reached the new file when `Save` stops, from the fates of reading the old file, writing
the new one, removing the copy and closing the stream. -/
def reached (new : List Text → Text) (old : List Text) (linesRead flushed : ℕ) : List Fate → Text
  | read :: write :: ending =>
    let text := new (if read = .works then old else old.take linesRead)
    if write = .works ∧ [.works, .works] <+: ending then text else text.take flushed
  | _ => []

/-- The interruptions that lose nothing: `Save` stops before its renaming of `client.conf` has taken
effect, or it has opened the new file and what has reached it makes the old or the new settings. -/
def Harmless (old new : Text) (withUi : Bool) (newText : List Text → Text) (i : Interruption) : Prop :=
  match i.fates with
  | .works :: .works :: .works :: renamed =>
    match renamed with
    | openOld :: .works :: writing =>
      let lines := if openOld = .works then old.lines '\n' else []
      let text := reached newText lines i.linesRead i.flushed writing
      Loadable withUi text ∧ (SameSettings text old ∨ SameSettings text new)
    | _ => False
  | _ => Loadable withUi old

/-! ## What the next start makes of the directory -/

section NextStart

variable {newid : String} {ui : Option SavedTexts} {old new text : Text} {copy : Option Text}

theorem nextStart_conf : nextStart newid ui (some { conf := some text, old := copy }) =
    (if Loadable ui.isSome text then .ok (configOf text) else .error .outOfRange,
      { folder := some { conf := some text, old := copy } }) := run_load newid ui rfl

theorem survives_conf_iff (hold : Complete old) (hnew : Complete new) :
    Survives old new (nextStart newid ui (some { conf := some text, old := copy })) ↔
      Loadable ui.isSome text ∧ (SameSettings text old ∨ SameSettings text new) := by
  rw [nextStart_conf]
  constructor
  · rintro ⟨⟨conf, hconf, -, hsame, hstart⟩, -⟩
    obtain rfl : text = conf := Option.some.inj hconf
    refine ⟨?_, hsame⟩
    by_contra h
    rw [if_neg h] at hstart
    cases hstart
  · rintro ⟨hload, hsame⟩
    have hcomplete : Complete text := fun key => by
      rcases hsame with h | h
      · exact h.1 key ▸ hold key
      · exact h.1 key ▸ hnew key
    exact ⟨⟨text, rfl, hcomplete, hsame, if_pos hload⟩, rfl⟩

/-- Without `client.conf` a new client id is made up. -/
theorem not_survives_of_noConf :
    ¬Survives old new (nextStart newid ui (some { conf := none, old := copy })) := by
  have hgen : (nextStart newid ui (some { conf := none, old := copy })).2.generated = true := by
    cases copy <;> rfl
  exact fun h => Bool.noConfusion (hgen.symm.trans h.2)

end NextStart

/-! ## What an interrupted Save leaves -/

section LeftBy

variable (ui : Option SavedTexts) (skipHistory : Bool) (config : ConfigData) (old : Text)
  (linesRead flushed : ℕ)

/-- A Save that stops before its renaming has taken effect changes nothing. -/
theorem leftBy_unrenamed {fates : List Fate} (h : ¬[.works, .works, .works] <+: fates) :
    leftBy ⟨fates, linesRead, flushed⟩ ui skipHistory config old = some { conf := some old } := by
  rcases fates with _ | ⟨_ | _, _ | ⟨_ | _, _ | ⟨_ | _, fates⟩⟩⟩
  all_goals first
    | rfl
    | exact absurd ⟨fates, rfl⟩ h

/-- One that stops between its renaming and the opening of the new file leaves the copy alone. -/
theorem leftBy_unopened {renamed : List Fate} (h : ∀ o w, renamed ≠ o :: .works :: w) :
    leftBy ⟨.works :: .works :: .works :: renamed, linesRead, flushed⟩ ui skipHistory config old =
      some { conf := none, old := some old } := by
  rcases renamed with _ | ⟨_ | _, _ | ⟨_ | _, renamed⟩⟩
  all_goals first
    | rfl
    | exact absurd rfl (h _ _)

/-- The opened file gets what the stream is given, or what has been flushed of it. -/
theorem finishSettings_conf (new : Rewriting) (copy : Option Text) (write : Fate) (ending : List Fate) :
    ∃ copy', ((finishSettings new).run.runUnder (filesystem "" linesRead flushed) (write :: ending)
        { folder := some { conf := some [], old := copy } }).2.folder =
      some { conf := some (if write = .works ∧ [.works, .works] <+: ending then new.out
        else new.out.take flushed), old := copy' } := by
  rcases write with _ | _
  · rcases ending with _ | ⟨_ | _, _ | ⟨_ | _, ending⟩⟩
    · exact ⟨copy, rfl⟩
    · exact ⟨none, rfl⟩
    · exact ⟨none, by rw [if_pos ⟨rfl, ending, rfl⟩]; rfl⟩
    · exact ⟨none, by rw [if_neg (by simp)]; rfl⟩
    all_goals exact ⟨copy, by rw [if_neg (by simp)]; rfl⟩
  · rcases ending with _ | ⟨_ | _, _ | ⟨_ | _, ending⟩⟩
    all_goals first
      | exact ⟨copy, rfl⟩
      | exact ⟨none, rfl⟩

/-- One that has opened the new file leaves in it what has reached it. -/
theorem leftBy_opened (openOld : Fate) (writing : List Fate) :
    ∃ copy, leftBy ⟨.works :: .works :: .works :: openOld :: .works :: writing, linesRead, flushed⟩
        ui skipHistory config old =
      some { conf := some (reached (fun lines => (rewrite ui skipHistory config lines).out)
        (if openOld = .works then old.lines '\n' else []) linesRead flushed writing), old := copy } := by
  rcases writing with _ | ⟨read, _ | ⟨write, ending⟩⟩
  · cases openOld <;> exact ⟨some old, rfl⟩
  · cases openOld <;> cases read <;> exact ⟨some old, rfl⟩
  · rw [reached]
    cases openOld <;> cases read <;>
      exact finishSettings_conf linesRead flushed (rewrite ui skipHistory config _) (some old) write ending

end LeftBy

section Harmless

variable {old new : Text} {withUi : Bool} {newText : List Text → Text} {linesRead flushed : ℕ}

theorem harmless_unrenamed {fates : List Fate} (h : ¬[.works, .works, .works] <+: fates) :
    Harmless old new withUi newText ⟨fates, linesRead, flushed⟩ ↔ Loadable withUi old := by
  rcases fates with _ | ⟨_ | _, _ | ⟨_ | _, _ | ⟨_ | _, fates⟩⟩⟩
  all_goals first
    | exact Iff.rfl
    | exact absurd ⟨fates, rfl⟩ h

theorem not_harmless_unopened {renamed : List Fate} (h : ∀ o w, renamed ≠ o :: .works :: w) :
    ¬Harmless old new withUi newText ⟨.works :: .works :: .works :: renamed, linesRead, flushed⟩ := by
  rcases renamed with _ | ⟨_ | _, _ | ⟨_ | _, renamed⟩⟩
  all_goals first
    | exact not_false
    | exact absurd rfl (h _ _)

end Harmless

/-- Settings survive an interrupted Save exactly if it stops before its renaming has taken effect, or
once the old or the new settings have reached the new file. -/
theorem settings_survive_iff {old : Text} (hold : Complete old) (config : ConfigData)
    (ui ui' : Option SavedTexts) (skipHistory : Bool) (newid : String) (i : Interruption) :
    Survives old (rewrite ui skipHistory config (old.lines '\n')).out
        (nextStart newid ui' (leftBy i ui skipHistory config old)) ↔
      Harmless old (rewrite ui skipHistory config (old.lines '\n')).out ui'.isSome
        (fun lines => (rewrite ui skipHistory config lines).out) i := by
  obtain ⟨fates, linesRead, flushed⟩ := i
  have hnew := complete_rewrite ui skipHistory config old
  by_cases hrename : [.works, .works, .works] <+: fates
  · obtain ⟨renamed, rfl⟩ := hrename
    by_cases hopen : ∃ openOld writing, renamed = openOld :: .works :: writing
    · obtain ⟨openOld, writing, rfl⟩ := hopen
      obtain ⟨copy, hleft⟩ := leftBy_opened ui skipHistory config old linesRead flushed openOld writing
      exact hleft ▸ survives_conf_iff hold hnew
    · have hleft := leftBy_unopened ui skipHistory config old linesRead flushed
        fun o w h => hopen ⟨o, w, h⟩
      exact iff_of_false (hleft ▸ not_survives_of_noConf)
        (not_harmless_unopened fun o w h => hopen ⟨o, w, h⟩)
  · rw [leftBy_unrenamed _ _ _ _ _ _ hrename, survives_conf_iff hold hnew, harmless_unrenamed hrename]
    exact and_iff_left (Or.inl ⟨fun _ => rfl, rfl⟩)

/-- The settings of a client that has been used, and a change to them. -/
def usedFile : Text :=
  "uid=42\ninputDevice=Mic\noutputDevice=none\npreviousServers=a;\ninferDevice=\nmodelName=m\n".toList

def usedConfig : ConfigData :=
  { clientID := "42", inputDevice := "Mic 2", outputDevice := "none", modelName := "m" }

/-- A Save that dies when all but its last newline has been flushed loses nothing. -/
theorem settings_survive_flushed :
    Survives usedFile (rewrite none false usedConfig (usedFile.lines '\n')).out
      (nextStart "7" none
        (leftBy ⟨List.replicate 7 .works, 0, 86⟩ none false usedConfig usedFile)) :=
  (settings_survive_iff (by decide +kernel) usedConfig none none false "7" _).mpr
    ⟨by decide +kernel, Or.inr (by decide +kernel)⟩

/-- The new file cannot be opened: the next start makes up an id and deletes the old settings. -/
theorem settings_lost_unopened :
    Complete usedFile ∧
      ¬Survives usedFile (rewrite none false usedConfig (usedFile.lines '\n')).out
        (nextStart "7" none
          (leftBy ⟨[.works, .works, .works, .works, .fails], 0, 0⟩ none false usedConfig usedFile)) ∧
      (nextStart "7" none (leftBy ⟨[.works, .works, .works, .works, .fails], 0, 0⟩ none false usedConfig
        usedFile)).1 = .ok { clientID := "7", inputDevice := "none", outputDevice := "none" } ∧
      (nextStart "7" none (leftBy ⟨[.works, .works, .works, .works, .fails], 0, 0⟩ none false usedConfig
        usedFile)).2.get .old = none :=
  ⟨by decide +kernel, not_survives_of_noConf, by decide +kernel, by decide +kernel⟩

end LocalConfig

end UwavClient
