import UwavClient.Config.Rewriting

/-!
# Runs in which nothing goes wrong

When no call of the filesystem fails, `Save` leaves `client.conf` rewritten and no copy of it, and
`Load` takes from the file what its lines assign.
-/

namespace UwavClient

def configOf (file : Text) : ConfigData := (entries file).foldl ConfigData.assign {}

/-- Loading the file does not look for the last character of an empty history. -/
def Loadable (withUi : Bool) (file : Text) : Prop := ¬(withUi ∧ (.previousServers, []) ∈ entries file)

instance (withUi : Bool) (file : Text) : Decidable (Loadable withUi file) :=
  inferInstanceAs (Decidable ¬_)

namespace LocalConfig

variable (newid : String) (ui : Option SavedTexts) {skipHistory : Bool} {config : ConfigData}
  {text : Text} {s : Process}

/-- Settings are read one by one until one cannot be. -/
theorem foldlM_loadSetting (withUi : Bool) (config : ConfigData) (file : List (Key × Text)) :
    file.foldlM (loadSetting withUi) config =
      if withUi ∧ (.previousServers, []) ∈ file then .error .outOfRange
      else .ok (file.foldl ConfigData.assign config) := by
  induction file generalizing config with
  | nil => simp; rfl
  | cons keyval file ih =>
    rw [List.foldlM_cons, List.foldl_cons, loadSetting]
    by_cases h : withUi ∧ keyval = (.previousServers, [])
    · rw [if_pos h, if_pos ⟨h.1, h.2 ▸ List.mem_cons_self⟩]
      rfl
    · rw [if_neg h]
      refine (ih _).trans (if_congr (and_congr_right fun hui => ?_) rfl rfl)
      have hne : (.previousServers, []) ≠ keyval := fun e => h ⟨hui, e.symm⟩
      simp [List.mem_cons, hne]

theorem run_load (h : s.get .conf = some text) :
    (load ui {}).run.run (filesystem newid 0 0 .works) s =
      (if Loadable ui.isSome text then .ok (configOf text) else .error .outOfRange,
        { s with reader := [] }) := by
  have hrun : (load ui {}).run.run (filesystem newid 0 0 .works) s =
      ((Files.ofExcept ((entries text).foldlM (loadSetting ui.isSome) {})).run.run
        (filesystem newid 0 0 .works) { s with reader := [] }) := by
    rcases s with ⟨_ | ⟨_ | conf, old⟩, reader, writer, generated⟩
    · cases h
    · cases h
    · obtain rfl : conf = text := Option.some.inj h
      rfl
  rw [hrun, foldlM_loadSetting]
  by_cases h : ui.isSome ∧ (.previousServers, []) ∈ entries text
  · have hload : ¬Loadable ui.isSome text := not_not_intro h
    rw [if_pos h, if_neg hload]
    rfl
  · have hload : Loadable ui.isSome text := h
    rw [if_neg h, if_pos hload]
    rfl

/-- The lines that Save finds in the settings file. -/
def savedLines (s : Process) : List Text := ((s.get .conf).getD []).lines '\n'

variable {newid ui} in
theorem run_save : (save ui skipHistory config).run.run (filesystem newid 0 0 .works) s =
    (.ok (rewrite ui skipHistory config (savedLines s)).config,
      { s with
        folder := some { conf := some (rewrite ui skipHistory config (savedLines s)).out }
        reader := []
        writer := (rewrite ui skipHistory config (savedLines s)).out }) := by
  have hfinish (new : Rewriting) (copy : Option Text) (generated : Bool) :
      (finishSettings new).run.run (filesystem newid 0 0 .works)
        { folder := some { conf := some [], old := copy }, generated } =
        (.ok new.config, { folder := some { conf := some new.out }, writer := new.out, generated }) :=
    rfl
  rcases s with ⟨_ | ⟨_ | conf, _ | old⟩, reader, writer, generated⟩
  · exact hfinish (rewrite ui skipHistory config []) none generated
  · exact hfinish (rewrite ui skipHistory config []) none generated
  · exact hfinish (rewrite ui skipHistory config []) none generated
  · exact hfinish (rewrite ui skipHistory config (conf.lines '\n')) (some conf) generated
  · exact hfinish (rewrite ui skipHistory config (conf.lines '\n')) (some conf) generated

/-- Without a settings file Load makes up an id and saves. -/
theorem run_load_none (config : ConfigData) (h : s.get .conf = none) :
    (load ui config).run.run (filesystem newid 0 0 .works) s =
      (save ui ui.isNone { config with
        clientID := newid
        inputDevice := "none"
        outputDevice := "none" }).run.run (filesystem newid 0 0 .works)
        { s with reader := [], generated := true } := by
  rcases s with ⟨_ | ⟨_ | conf, old⟩, reader, writer, generated⟩
  · rfl
  · rfl
  · cases h

end LocalConfig

end UwavClient
