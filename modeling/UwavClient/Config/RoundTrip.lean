import UwavClient.Config.Sessions

/-!
# Saving and loading the configuration

The values that Save writes come back as far as their first comment sign, so loading what was saved
gives the same configuration exactly if no value has one.
-/

namespace UwavClient

namespace ConfigData

variable {c d : ConfigData} {key : Key} {value : Text} {file : List (Key × Text)}

theorem eq_of_text (h : ∀ key ≠ Key.previousServers, c.text key = d.text key) : c = d := by
  have hu := String.toList_inj.mp (h .uid nofun)
  have hi := String.toList_inj.mp (h .inputDevice nofun)
  have ho := String.toList_inj.mp (h .outputDevice nofun)
  have hf := String.toList_inj.mp (h .inferDevice nofun)
  have hm := String.toList_inj.mp (h .modelName nofun)
  cases c
  cases d
  simp_all

/-- Load takes a value as it stands, except that a value `none` sets nothing but the client id. -/
theorem text_assign (c : ConfigData) (k key : Key) (value : Text) (hkey : key ≠ .previousServers) :
    (c.assign (k, value)).text key =
      if k = key ∧ (key = .uid ∨ value ≠ "none".toList) then value else c.text key := by
  by_cases hnone : value = "none".toList
  · subst hnone
    cases k <;> cases key <;> first
      | exact absurd rfl hkey
      | simp [assign, text]
  · cases k <;> cases key <;> first
      | exact absurd rfl hkey
      | simp only [assign, text, hnone, if_false, reduceCtorEq, false_and, true_and, ne_eq,
          not_false_eq_true, or_true, if_true, String.toList_ofList]

/-- What is loaded is what was there, or a value that the file assigns. -/
theorem text_foldl_assign_mem (c : ConfigData) (file : List (Key × Text))
    (hkey : key ≠ .previousServers) :
    (file.foldl assign c).text key = c.text key ∨ (key, (file.foldl assign c).text key) ∈ file := by
  induction file using List.reverseRecOn with
  | nil => exact Or.inl rfl
  | append_singleton file e ih =>
    rw [List.foldl_append, List.foldl_cons, List.foldl_nil, text_assign _ e.1 key e.2 hkey]
    split
    · rename_i h
      exact Or.inr (List.mem_append_right _ (List.mem_singleton.mpr (Prod.ext h.1.symm rfl)))
    · exact ih.imp_right (List.mem_append_left _)

/-- A value that every assignment to the key gives it is loaded. -/
theorem text_foldl_assign (hkey : key ≠ .previousServers) (htaken : key = .uid ∨ value ≠ "none".toList)
    (hmem : ∃ v, (key, v) ∈ file) (hvalue : ∀ v, (key, v) ∈ file → v = value) :
    (file.foldl assign c).text key = value := by
  induction file using List.reverseRecOn with
  | nil =>
    obtain ⟨v, hv⟩ := hmem
    cases hv
  | append_singleton file e ih =>
    rw [List.foldl_append, List.foldl_cons, List.foldl_nil, text_assign _ e.1 key e.2 hkey]
    by_cases he : e.1 = key
    · have hev : e.2 = value := hvalue e.2 (List.mem_append_right _ (by rw [← he]; simp))
      rw [if_pos ⟨he, hev ▸ htaken⟩, hev]
    · rw [if_neg fun h => he h.1]
      obtain ⟨v, hv⟩ := hmem
      have hv' : (key, v) ∈ file := (List.mem_append.mp hv).resolve_right fun h =>
        he (by rw [← List.mem_singleton.mp h])
      exact ih ⟨v, hv'⟩ fun v h => hvalue v (List.mem_append_left _ h)

end ConfigData

/-- A value on one line, without whitespace around it, that does not stand for no value. -/
structure Settable (value : Text) : Prop where
  oneLine : '\n' ∉ value
  head : ∀ h : value ≠ [], ¬isSpace (value.head h)
  last : ∀ h : value ≠ [], ¬isSpace (value.getLast h)
  named : value ≠ "none".toList

namespace LocalConfig

section RoundTrip

variable {config : ConfigData}

theorem fitting_of_oneLine (hline : ∀ key ≠ Key.previousServers, '\n' ∉ config.text key) :
    Fitting (· ≠ .previousServers) (fun key => clean (config.text key)) none false config where
  inUse key k v hv hk := by
    have hnl : '\n' ∉ config.text key := by
      by_cases hkey : key = .previousServers
      · rw [hkey]
        exact (by decide : '\n' ∉ "none".toList)
      · exact hline key hkey
    rw [entries_assignment_of_oneLine hnl, List.mem_singleton] at hv
    obtain ⟨rfl, rfl⟩ := Prod.mk.inj hv
    rfl
  shown _ h := by cases h
  past _ h := by cases h
  kept _ _ := rfl
  own _ hk := ⟨hk, Or.inl rfl⟩

def loadSaved (newid : String) (config : ConfigData) (s : Process) : Except Abort ConfigData :=
  let saved := (save none false config).run.run (filesystem newid 0 0 .works) s
  ((load none {}).run.run (filesystem newid 0 0 .works) { folder := saved.2.folder }).1

/-- Loading what was saved gives the configuration back exactly if no value has a comment sign. -/
theorem load_save_iff (h : ∀ key ≠ Key.previousServers, Settable (config.text key)) (newid : String)
    (s : Process) :
    loadSaved newid config s = .ok config ↔ ∀ key ≠ Key.previousServers, '#' ∉ config.text key := by
  obtain ⟨new, hnew⟩ : ∃ new, new = (rewrite none false config (savedLines s)).out := ⟨_, rfl⟩
  have hcarries := hnew ▸ (carries_rewrite (fitting_of_oneLine fun key hkey => (h key hkey).oneLine)
    ((s.get .conf).getD [])).carries
  have hcomplete := hnew ▸ complete_rewrite none false config ((s.get .conf).getD [])
  have hload : loadSaved newid config s = .ok (configOf new) := by
    have hloadable : Loadable (none : Option SavedTexts).isSome new := fun h => Bool.noConfusion h.1
    rw [loadSaved, run_save, ← hnew, run_load newid none rfl, if_pos hloadable]
  rw [hload]
  constructor
  · intro hsame key hkey
    rw [← Except.ok.inj hsame]
    rcases ConfigData.text_foldl_assign_mem {} (entries new) hkey with hdef | hmem
    · have hempty : ({} : ConfigData).text key = [] := by
        cases key <;> first | rfl | exact absurd rfl hkey
      exact hdef ▸ hempty ▸ List.not_mem_nil
    · exact hcarries key _ hmem hkey ▸ hash_notMem_clean _
  · intro hplain
    refine congrArg Except.ok (ConfigData.eq_of_text fun key hkey => ?_)
    have hclean : clean (config.text key) = config.text key :=
      clean_eq_self (hplain key hkey) (h key hkey).head (h key hkey).last
    exact ConfigData.text_foldl_assign hkey (Or.inr (h key hkey).named)
      (lastValue_isSome.mp (hcomplete key)) fun v hv => (hcarries key v hv hkey).trans hclean

/-- A configuration with an equals sign in a device description, and one with a comment sign. -/
def equalsConfig : ConfigData := { clientID := "42", inputDevice := "Mic = left" }

def hashConfig : ConfigData := { clientID := "42", inputDevice := "Mic #2" }

theorem settable_equalsConfig (key : Key) (hkey : key ≠ .previousServers) :
    Settable (equalsConfig.text key) := by
  cases key <;> first
    | exact absurd rfl hkey
    | exact ⟨by decide, by decide, by decide, by decide⟩

theorem settable_hashConfig (key : Key) (hkey : key ≠ .previousServers) :
    Settable (hashConfig.text key) := by
  cases key <;> first
    | exact absurd rfl hkey
    | exact ⟨by decide, by decide, by decide, by decide⟩

theorem load_save_equals : loadSaved "7" equalsConfig { folder := none } = .ok equalsConfig :=
  (load_save_iff settable_equalsConfig "7" { folder := none }).mpr fun key hkey => by
    cases key <;> first | exact absurd rfl hkey | decide

/-- A device whose description has a comment sign comes back with its description cut short. -/
theorem load_save_hash : (∀ key ≠ Key.previousServers, Settable (hashConfig.text key)) ∧
    loadSaved "7" hashConfig { folder := none } = .ok { hashConfig with inputDevice := "Mic" } ∧
    loadSaved "7" hashConfig { folder := none } ≠ .ok hashConfig :=
  ⟨settable_hashConfig, by decide +kernel, by decide +kernel⟩

end RoundTrip

end LocalConfig

end UwavClient
