import UwavClient.Config.RoundTrip
import UwavClient.Library.Machine

/-!
# The client id over the sessions

A session begins with `Load` and goes on with changes to the configuration, saving, and asking for the
client id. The id shares a file with strings chosen by others. It stays what it was as long as no such
string has a line of its own that assigns an id.
-/

namespace UwavClient

namespace LocalConfig

/-- The directory, and the configuration of the session, if one is running. -/
structure Session where
  folder : Option Folder
  config : Option ConfigData := none

/-- What a session does. `GenerateLocalUID` writes a hash in decimal. -/
inductive Command where
  | start (ui : Option SavedTexts) (hash : ℕ)
  | setSavedInputDevice (name : String)
  | setSavedOutputDevice (name : String)
  | setSavedInferDevice (name : String)
  | setSavedModelName (name : String)
  | save (ui : Option SavedTexts) (skipHistory : Bool)
  | getClientID (hash : ℕ)

/-- A function of `LocalConfig` runs with no failure of the filesystem; a session that it aborts is
over. -/
def Session.call (s : Session) (newid : String) (f : ConfigData → Files ConfigData) : Session :=
  match s.config with
  | none => s
  | some config =>
    let done := (f config).run.run (filesystem newid 0 0 .works) { folder := s.folder }
    { folder := done.2.folder, config := done.1.toOption }

def Session.change (s : Session) (f : ConfigData → ConfigData) : Session :=
  { s with config := s.config.map f }

/-- The state of the sessions over one directory, with the ids that `GetClientID` returns. -/
def sessions : Machine Session Command (Option String) where
  step
    | s, .start ui hash => (none, { s with config := some {} }.call (toString hash) (load ui))
    | s, .setSavedInputDevice name => (none, s.change fun c => { c with inputDevice := name })
    | s, .setSavedOutputDevice name => (none, s.change fun c => { c with outputDevice := name })
    | s, .setSavedInferDevice name => (none, s.change fun c => { c with inferDevice := name })
    | s, .setSavedModelName name => (none, s.change fun c => { c with modelName := name })
    | s, .save ui skipHistory => (none, s.call "" (save ui skipHistory))
    | s, .getClientID hash =>
      let s := s.call (toString hash) getClientID
      (s.config.map (·.clientID), s)

/-- No line of the value but the first assigns a client id. -/
def Tame (value : Text) : Prop := ∀ id, (Key.uid, id) ∉ spilled value

def TameUi (ui : Option SavedTexts) (skipHistory : Bool) : Prop :=
  (∀ texts ∈ ui, Tame texts.inferDevice.toList ∧ Tame texts.modelName.toList) ∧
    ∀ history ∈ savedHistory ui skipHistory, Tame history

/-- What a command adds to the settings is tame. `Load` saves only if there is no settings file. -/
def Command.Tame (s : Session) : Command → Prop
  | .start ui _ => s.folder.bind Folder.conf = none → TameUi ui ui.isNone
  | .setSavedInputDevice name | .setSavedOutputDevice name | .setSavedInferDevice name
  | .setSavedModelName name => LocalConfig.Tame name.toList
  | .save ui skipHistory => TameUi ui skipHistory
  | .getClientID _ => True

theorem tame_of_oneLine {value : Text} (h : '\n' ∉ value) : Tame value := fun id hid => by
  rw [spilled_of_oneLine h] at hid
  cases hid

theorem tameUi_none {skipHistory : Bool} : TameUi none skipHistory := by
  refine ⟨fun _ h => (by cases h), fun _ h => ?_⟩
  cases skipHistory <;> cases h

/-- A configuration whose id comes back as it is written, and whose other values are tame. -/
structure Steady (config : ConfigData) : Prop where
  oneLine : '\n' ∉ config.clientID.toList
  clean : clean config.clientID.toList = config.clientID.toList
  tame : ∀ key ≠ Key.uid, Tame (config.text key)

section Save

variable {ui : Option SavedTexts} {skipHistory : Bool} {config : ConfigData}

theorem fitting_uid (hc : Steady config) (hui : TameUi ui skipHistory) :
    Fitting (· = .uid) (fun _ => config.clientID.toList) ui skipHistory config := by
  have fits {key : Key} {value : Text} (hkey : key ≠ .uid) (hv : Tame value) :
      Fits (· = .uid) (fun _ => config.clientID.toList) key value := by
    rintro k v hmem rfl
    rw [entries_assignment, List.mem_cons] at hmem
    rcases hmem with h | h
    · exact absurd (Prod.mk.inj h).1.symm hkey
    · exact absurd h (hv v)
  refine ⟨fun key => ?_, fun texts h => ?_, fun history h => ?_, ?_, ?_⟩
  · by_cases hkey : key = .uid
    · subst hkey
      intro k v hmem _
      have hline : '\n' ∉ config.text .uid := hc.oneLine
      rw [entries_assignment_of_oneLine hline, List.mem_singleton] at hmem
      exact (Prod.mk.inj hmem).2.trans hc.clean
    · exact fits hkey (hc.tame key hkey)
  · exact ⟨fits nofun (hui.1 texts h).1, fits nofun (hui.1 texts h).2⟩
  · exact fits nofun (hui.2 history h)
  · rintro key rfl
    exact hc.clean.symm
  · rintro key rfl
    exact ⟨nofun, Or.inr ⟨nofun, nofun⟩⟩

/-- Taking a text from the UI leaves the id alone and the values tame. -/
theorem Steady.takeFromUi (hc : Steady config) (hui : TameUi ui skipHistory) (k : Key) :
    Steady (config.takeFromUi ui k) ∧ (config.takeFromUi ui k).clientID = config.clientID := by
  have hid : (config.takeFromUi ui k).clientID = config.clientID := by
    obtain h | ⟨texts, -, ⟨h, -⟩ | ⟨h, -⟩⟩ := takeFromUi_text ui config k .uid
    · exact String.toList_inj.mp h
    · cases h
    · cases h
  refine ⟨⟨hid ▸ hc.oneLine, hid ▸ hc.clean, fun key hkey => ?_⟩, hid⟩
  obtain h | ⟨texts, hmem, ⟨-, h⟩ | ⟨-, h⟩⟩ := takeFromUi_text ui config k key
  · exact h ▸ hc.tame key hkey
  · exact h ▸ (hui.1 texts hmem).1
  · exact h ▸ (hui.1 texts hmem).2

def StoredId (folder : Option Folder) (id : String) : Prop :=
  ∃ file, folder.bind Folder.conf = some file ∧ (configOf file).clientID = id

theorem StoredId.unique {folder : Option Folder} {id id' : String} (h : StoredId folder id)
    (h' : StoredId folder id') : id = id' := by
  obtain ⟨file, hfile, rfl⟩ := h
  obtain ⟨file', hfile', rfl⟩ := h'
  obtain rfl := Option.some.inj (hfile.symm.trans hfile')
  rfl

/-- Save keeps the configuration steady and stores its id. -/
theorem run_save_steady (hc : Steady config) (hui : TameUi ui skipHistory) (newid : String)
    (s : Process) : ∃ config' t,
      (save ui skipHistory config).run.run (filesystem newid 0 0 .works) s = (.ok config', t) ∧
      Steady config' ∧ config'.clientID = config.clientID ∧ StoredId t.folder config.clientID := by
  have hkept : Steady (rewrite ui skipHistory config (savedLines s)).config ∧
      (rewrite ui skipHistory config (savedLines s)).config.clientID = config.clientID := by
    refine rewrite_config (P := fun c => Steady c ∧ c.clientID = config.clientID) ⟨hc, rfl⟩
      fun c k h => ?_
    obtain ⟨hsteady, hid⟩ := h.1.takeFromUi hui k
    exact ⟨hsteady, hid.trans h.2⟩
  refine ⟨_, _, run_save, hkept.1, hkept.2, _, rfl, ?_⟩
  have hcarries := (carries_rewrite (fitting_uid hc hui) ((s.get .conf).getD [])).carries
  have hcomplete := complete_rewrite ui skipHistory config ((s.get .conf).getD [])
  have hload : (configOf (rewrite ui skipHistory config (savedLines s)).out).text .uid =
      config.clientID.toList :=
    ConfigData.text_foldl_assign nofun (Or.inl rfl) (lastValue_isSome.mp (hcomplete .uid))
      fun v hv => hcarries .uid v hv rfl
  exact String.toList_inj.mp hload

/-- What Load takes from a file is steady. -/
theorem steady_configOf (file : Text) : Steady (configOf file) := by
  have hvalue (key : Key) (hkey : key ≠ .previousServers) :
      '\n' ∉ (configOf file).text key ∧ clean ((configOf file).text key) = (configOf file).text key := by
    obtain h | h := ConfigData.text_foldl_assign_mem {} (entries file) hkey
    · have hempty : (configOf file).text key = [] := h.trans (by
        cases key <;> first | rfl | exact absurd rfl hkey)
      rw [hempty]
      exact ⟨List.not_mem_nil, rfl⟩
    · obtain ⟨line, hline, hparse⟩ := List.mem_filterMap.mp h
      exact ⟨newline_notMem_of_parseLine (List.sep_notMem_of_mem_lines hline) hparse,
        clean_of_parseLine hparse⟩
  refine ⟨(hvalue .uid nofun).1, (hvalue .uid nofun).2, fun key _ => ?_⟩
  by_cases hkey : key = .previousServers
  · rw [hkey]
    exact tame_of_oneLine (by decide : '\n' ∉ "none".toList)
  · exact tame_of_oneLine (hvalue key hkey).1

end Save

/-! ## The ids that are made up -/

theorem plain_of_isDigit {c : Char} (h : c.isDigit) : c ≠ '#' ∧ c ≠ '\n' ∧ ¬isSpace c := by
  refine ⟨?_, ?_, fun hs => ?_⟩
  · rintro rfl
    cases h
  · rintro rfl
    cases h
  · simp only [isSpace, Bool.or_eq_true, decide_eq_true_eq] at hs
    rcases hs with ((((rfl | rfl) | rfl) | rfl) | rfl) | rfl <;> cases h

theorem toList_toString (hash : ℕ) : (toString hash).toList = Nat.toDigits 10 hash := by
  simp [Nat.toString_eq_repr, Nat.repr]

theorem plain_toString (hash : ℕ) :
    ∀ c ∈ (toString hash).toList, c ≠ '#' ∧ c ≠ '\n' ∧ ¬isSpace c := fun c hc =>
  plain_of_isDigit (Nat.isDigit_of_mem_toDigits (by decide) (by decide) (toList_toString hash ▸ hc))

theorem toString_ne_empty (hash : ℕ) : toString hash ≠ "" := fun h =>
  Nat.toDigits_ne_nil ((toList_toString hash).symm.trans (congrArg String.toList h))

/-- A made-up id keeps the configuration steady. -/
theorem Steady.withId {config : ConfigData} (hc : Steady config) (hash : ℕ) :
    Steady { config with clientID := toString hash } where
  oneLine h := (plain_toString hash _ h).2.1 rfl
  clean := clean_eq_self (fun h => (plain_toString hash _ h).1 rfl)
    (fun h => (plain_toString hash _ (List.head_mem h)).2.2)
    fun h => (plain_toString hash _ (List.getLast_mem h)).2.2
  tame key hkey := by
    cases key
    case uid => exact absurd rfl hkey
    all_goals exact hc.tame _ hkey

/-! ## The sessions -/

/-- A running session has a steady configuration, whose id the file holds. -/
def Session.Settled (s : Session) : Prop :=
  ∀ config, s.config = some config → Steady config ∧ StoredId s.folder config.clientID

/-- Every id returned so far is the one in the file. -/
structure Agreed (s : Session) (ids : List (Option String)) : Prop where
  settled : s.Settled
  stored : ∀ id, some id ∈ ids → id ≠ "" ∧ StoredId s.folder id

section Steps

variable {s : Session} {ids : List (Option String)} {config : ConfigData} {id : String}

/-- A command that returns no id and keeps the stored one. -/
theorem Agreed.silent {t : Session} (h : Agreed s ids) (ht : t.Settled)
    (hkeep : ∀ id, StoredId s.folder id → StoredId t.folder id) : Agreed t (ids ++ [none]) := by
  refine ⟨ht, fun id hid => ?_⟩
  rcases List.mem_append.mp hid with hid | hid
  · exact ⟨(h.stored id hid).1, hkeep id (h.stored id hid).2⟩
  · cases List.mem_singleton.mp hid

/-- A command that returns the stored id, where every earlier one is that id too. -/
theorem Agreed.returned {t : Session} (h : Agreed s ids) (ht : t.config = some config)
    (hsteady : Steady config) (hne : config.clientID ≠ "")
    (hstored : StoredId t.folder config.clientID)
    (hkeep : ∀ id, id ≠ "" → StoredId s.folder id → StoredId t.folder id) :
    Agreed t (ids ++ [t.config.map (·.clientID)]) := by
  refine ⟨fun c hc => ?_, fun id hmem => ?_⟩
  · obtain rfl := Option.some.inj (ht.symm.trans hc)
    exact ⟨hsteady, hstored⟩
  · rcases List.mem_append.mp hmem with hmem | hmem
    · obtain ⟨hid, hold⟩ := h.stored id hmem
      exact ⟨hid, hkeep id hid hold⟩
    · rw [ht] at hmem
      obtain rfl : id = config.clientID := Option.some.inj (List.mem_singleton.mp hmem)
      exact ⟨hne, hstored⟩

theorem Agreed.change (h : Agreed s ids) {f : ConfigData → ConfigData}
    (hf : ∀ config, Steady config → Steady (f config) ∧ (f config).clientID = config.clientID) :
    Agreed (s.change f) (ids ++ [none]) := by
  refine h.silent (fun config hconfig => ?_) fun _ hid => hid
  obtain ⟨config, hs, rfl⟩ := Option.map_eq_some_iff.mp hconfig
  obtain ⟨hsteady, hstored⟩ := h.settled config hs
  exact ⟨(hf config hsteady).1, (hf config hsteady).2 ▸ hstored⟩

theorem call_of_config (hconfig : s.config = some config) (newid : String)
    (f : ConfigData → Files ConfigData) {r : Except Abort ConfigData} {t : Process}
    (hrun : (f config).run.run (filesystem newid 0 0 .works) { folder := s.folder } = (r, t)) :
    s.call newid f = { folder := t.folder, config := r.toOption } := by
  rw [Session.call, hconfig]
  simp only [hrun]

theorem call_of_none (hconfig : s.config = none) (newid : String) (f : ConfigData → Files ConfigData) :
    s.call newid f = s := by
  rw [Session.call, hconfig]

/-- Saving leaves a settled session and the stored id. -/
theorem Agreed.save {ui : Option SavedTexts} {skipHistory : Bool} (h : Agreed s ids)
    (hui : TameUi ui skipHistory) (newid : String) :
    Agreed (s.call newid (LocalConfig.save ui skipHistory)) (ids ++ [none]) := by
  cases hconfig : s.config with
  | none =>
    rw [call_of_none hconfig]
    exact h.silent h.settled fun _ hid => hid
  | some config =>
    obtain ⟨hsteady, hstored⟩ := h.settled config hconfig
    obtain ⟨config', t, hrun, hsteady', hid, hstored'⟩ :=
      run_save_steady hsteady hui newid { folder := s.folder }
    rw [call_of_config hconfig newid _ hrun]
    refine h.silent (fun c hc => ?_) fun id hmem => hmem.unique hstored ▸ hstored'
    obtain rfl := Option.some.inj hc
    exact ⟨hsteady', hid ▸ hstored'⟩

/-- A session starts from what the file holds, or from a new id in a new file. -/
theorem Agreed.start {ui : Option SavedTexts} (h : Agreed s ids)
    (hui : s.folder.bind Folder.conf = none → TameUi ui ui.isNone) (hash : ℕ) : Agreed ({ s with config := some {} }.call (toString hash) (load ui)) (ids ++ [none]) := by
  cases hconf : s.folder.bind Folder.conf with
  | some file =>
    have hrun := run_load (toString hash) ui (s := { folder := s.folder }) hconf
    rw [call_of_config (s := { s with config := some {} }) rfl _ _ hrun]
    refine h.silent (fun config hconfig => ?_) fun _ hid => hid
    split at hconfig
    · obtain rfl := Option.some.inj hconfig
      exact ⟨steady_configOf file, file, hconf, rfl⟩
    · cases hconfig
  | none =>
    have hsteady : Steady { inputDevice := "none", outputDevice := "none" } :=
      ⟨by decide, by decide, fun key _ => tame_of_oneLine (by cases key <;> decide)⟩
    have hload := run_load_none (toString hash) ui {} (s := { folder := s.folder }) hconf
    obtain ⟨config', t, hrun, hsteady', hid, hstored⟩ := run_save_steady (hsteady.withId hash)
      (hui hconf) (toString hash) { folder := s.folder, generated := true }
    rw [call_of_config (s := { s with config := some {} }) rfl _ _ (hload.trans hrun)]
    refine h.silent (fun config hconfig => ?_) fun id hmem => ?_
    · obtain rfl := Option.some.inj hconfig
      exact ⟨hsteady', hid ▸ hstored⟩
    · obtain ⟨file, hfile, -⟩ := hmem
      rw [hconf] at hfile
      cases hfile

/-- An id is returned that the file holds, and it is the one returned before. -/
theorem Agreed.getClientID (h : Agreed s ids) (hash : ℕ) :
    Agreed (s.call (toString hash) LocalConfig.getClientID)
      (ids ++ [(s.call (toString hash) LocalConfig.getClientID).config.map (·.clientID)]) := by
  cases hconfig : s.config with
  | none =>
    rw [call_of_none hconfig, hconfig]
    exact h.silent h.settled fun _ hid => hid
  | some config =>
    obtain ⟨hsteady, hstored⟩ := h.settled config hconfig
    by_cases hempty : config.clientID = ""
    · have hget : (LocalConfig.getClientID config).run.run (filesystem (toString hash) 0 0 .works)
          { folder := s.folder } =
          (LocalConfig.save none true { config with clientID := toString hash }).run.run
            (filesystem (toString hash) 0 0 .works) { folder := s.folder, generated := true } := by
        rw [LocalConfig.getClientID, if_pos hempty]
        rfl
      obtain ⟨config', t, hrun, hsteady', hid, hstored'⟩ := run_save_steady (hsteady.withId hash)
        tameUi_none (toString hash) { folder := s.folder, generated := true }
      rw [call_of_config hconfig _ _ (hget.trans hrun)]
      refine h.returned rfl hsteady' (hid ▸ toString_ne_empty hash) (hid ▸ hstored') fun id hne hold => ?_
      -- had an id been returned before, the stored one would not be empty
      exact absurd ((hold.unique hstored).trans hempty) hne
    · have hrun : (LocalConfig.getClientID config).run.run (filesystem (toString hash) 0 0 .works)
          { folder := s.folder } = (.ok config, { folder := s.folder }) := by
        rw [LocalConfig.getClientID, if_neg hempty]
        rfl
      rw [call_of_config hconfig _ _ hrun]
      exact h.returned rfl hsteady hempty hstored fun _ _ hold => hold

/-- Setting another value keeps a steady configuration steady. -/
theorem Steady.set {d : ConfigData} {value : Text} (hc : Steady config)
    (hid : d.clientID = config.clientID) (hvalue : Tame value)
    (htext : ∀ k, d.text k = config.text k ∨ d.text k = value) :
    Steady d ∧ d.clientID = config.clientID := by
  refine ⟨⟨hid ▸ hc.oneLine, hid ▸ hc.clean, fun k hk => ?_⟩, hid⟩
  rcases htext k with h | h
  · exact h ▸ hc.tame k hk
  · exact h ▸ hvalue

theorem agreed_step (h : Agreed s ids) {c : Command} (hc : c.Tame s) :
    Agreed (sessions.step s c).2 (ids ++ [(sessions.step s c).1]) := by
  cases c with
  | start ui hash => exact h.start hc hash
  | save ui skipHistory => exact h.save hc ""
  | getClientID hash => exact h.getClientID hash
  | setSavedInputDevice name =>
    exact h.change fun config hs => hs.set rfl hc fun k => by
      cases k <;> simp [ConfigData.text]
  | setSavedOutputDevice name =>
    exact h.change fun config hs => hs.set rfl hc fun k => by
      cases k <;> simp [ConfigData.text]
  | setSavedInferDevice name =>
    exact h.change fun config hs => hs.set rfl hc fun k => by
      cases k <;> simp [ConfigData.text]
  | setSavedModelName name =>
    exact h.change fun config hs => hs.set rfl hc fun k => by
      cases k <;> simp [ConfigData.text]

end Steps

/-- All the client ids returned over a history of sessions are the same, if nothing that is saved with
them has a line of its own that assigns an id. -/
theorem client_id_stable (folder : Option Folder) {cs : List Command}
    (hcs : sessions.ValidRun (fun s c => c.Tame s) { folder } cs) {id id' : String}
    (h : some id ∈ sessions.observe { folder } cs)
    (h' : some id' ∈ sessions.observe { folder } cs) : id = id' := by
  have hagreed : Agreed (sessions.after { folder } cs) (sessions.observe { folder } cs) :=
    @Machine.invariant_history _ _ _ sessions (fun s c => c.Tame s) Agreed
      (fun _ _ _ hs hc => agreed_step hs hc) _
      ⟨fun _ hc => (by cases hc), fun _ hid => (by cases hid)⟩ _ hcs
  exact (hagreed.stored id h).2.unique (hagreed.stored id' h').2

/-- A history in which the devices, the models and the servers have plain names. -/
def plainHistory : List Command :=
  [.start none 1, .getClientID 2, .setSavedInputDevice "Mic = 1", .save none false, .start none 3,
    .getClientID 4]

theorem client_id_stable_plain : ∃ id id',
    sessions.observe { folder := none } plainHistory =
      [none, some id, none, none, none, some id'] ∧ id = id' := by
  have htame : sessions.ValidRun (fun s c => c.Tame s) { folder := none } plainHistory :=
    ⟨fun _ => tameUi_none, trivial, tame_of_oneLine (by decide), tameUi_none, fun _ => tameUi_none,
      trivial, trivial⟩
  have hrun : sessions.observe { folder := none } plainHistory =
      [none, some "1", none, none, none, some "1"] := by decide +kernel
  have hmem : some "1" ∈ sessions.observe { folder := none } plainHistory := by simp [hrun]
  exact ⟨"1", "1", hrun, client_id_stable none htame hmem hmem⟩

/-- A device whose description has a line that assigns an id replaces the client id. -/
theorem client_id_replaced : sessions.observe { folder := none }
    [.start none 1, .getClientID 2, .setSavedInputDevice "Mic\nuid=3", .save none false, .start none 4,
      .getClientID 5] = [none, some "1", none, none, none, some "3"] := by
  decide +kernel

end LocalConfig

end UwavClient
