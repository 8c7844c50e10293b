import UwavClient.Config.Grammar
import UwavClient.Config.NewFile

/-!
# The server history when the settings are loaded

`Load` splits a history at its semicolons, with positions in the string and at most five rounds. A
value that is empty is split like any other, which takes the last character of an empty string.
-/

namespace UwavClient

open List (unlines)

/-- What `Load` fills in: the configuration, and the combo box of the servers. The other combo boxes
only have their selection changed. -/
structure Loaded where
  config : ConfigData := {}
  servers : Combo := {}
  deriving DecidableEq, Repr

/-- A combo box with these items, the first one selected. -/
def firstSelected (items : List String) : Combo := { items, current := if items = [] then -1 else 0 }

namespace Checked

/-! ## `LocalConfig::Load` -/

/-- `c_str()`: a string up to its first null character. -/
def cStr (s : Text) : String := String.ofList (s.takeWhile (· ≠ '\x00'))

/-- The loop that adds the servers of a history to the combo box, with so many rounds left. -/
def addItems : ℕ → Text → Except Abort (List String)
  | 0, _ => return []
  | rounds + 1, second =>
    match find second ';' with
    | none => return []
    | some index => do
      let item := cStr (← substr second 0 index)
      if index + 1 < second.length then
        return item :: (← addItems rounds (← substrFrom second (index + 1)))
      else return [item]

/-- The items of a history; a separator is added after the last one if there is none. -/
def historyItems (second : Text) : Except Abort (List String) := do
  let second := if (← back second) ≠ ';' then second ++ [';'] else second
  addItems U_SAVE_PREV_SERVERS second

def loadLine (l : Loaded) (nextLine : Text) : Except Abort Loaded := do
  let (keyval, _) ← parseLine nextLine
  match Key.ofName keyval.1 with
  | none => return l
  | some key =>
    let config := l.config.assign (key, keyval.2)
    if key = .previousServers ∧ keyval.2 ≠ "none".toList then
      return { config, servers := firstSelected (← historyItems keyval.2) }
    else return { l with config }

def loadFile (l : Loaded) (file : Text) : Except Abort Loaded := (file.lines '\n').foldlM loadLine l

end Checked

/-! ## The fields of a history -/

/-- The fields between the separators; one separator at the end adds no field. -/
def fields (value : Text) : List Text := value.lines ';'

section Fields

variable {value : Text}

/-- The rounds go through the fields one by one. -/
theorem addItems_eq (rounds : ℕ) {second : Text} (h : second.Terminated ';') :
    Checked.addItems rounds second =
      .ok (((fields second).take rounds).map Checked.cStr) := by
  induction rounds generalizing second with
  | zero => rfl
  | succ rounds ih =>
    rw [Checked.addItems]
    cases hfind : Checked.find second ';' with
    | none =>
      obtain rfl : second = [] := h.resolve_right fun ⟨rest, hrest⟩ =>
        Checked.notMem_of_find hfind (hrest ▸ List.mem_append_right rest List.mem_cons_self)
      rfl
    | some index =>
      obtain ⟨-, hdrop, -⟩ := List.idxOf?_eq_some hfind
      have hfirst : ';' ∉ second.takeWhile (· ≠ ';') := fun hc => by
        simpa using List.mem_takeWhile_imp hc
      have hfields : fields second =
          second.takeWhile (· ≠ ';') :: fields (second.dropWhile (· ≠ ';')).tail := by
        conv_lhs => rw [List.takeWhile_append_cons_tail (Checked.mem_of_find hfind)]
        exact List.lines_line hfirst _
      have hrest : (second.dropWhile (· ≠ ';')).tail.Terminated ';' :=
        h.suffix ((List.tail_suffix _).trans (List.dropWhile_suffix _))
      simp only [Checked.substr_of_find hfind, Checked.substrFrom_of_find hfind, Checked.ok_bind,
        ih hrest, hfields]
      by_cases hlt : index + 1 < second.length
      · rw [if_pos hlt]
        rfl
      · have hnil : (second.dropWhile (· ≠ ';')).tail = [] := by
          rw [← hdrop, List.drop_eq_nil_iff]
          exact not_lt.mp hlt
        rw [if_neg hlt, hnil]
        cases rounds <;> rfl

/-- A history that is not empty is split into its fields, as far as there are rounds. -/
theorem historyItems_eq (hne : value ≠ []) :
    Checked.historyItems value =
      .ok (((fields value).take U_SAVE_PREV_SERVERS).map Checked.cStr) := by
  have hback : Checked.back value = .ok (value.getLast hne) := by
    rw [Checked.back, List.getLast?_eq_some_getLast hne]
    rfl
  simp only [Checked.historyItems, hback, Checked.ok_bind]
  by_cases hlast : value.getLast hne = ';'
  · have hterminated : value.Terminated ';' :=
      Or.inr ⟨value.dropLast, by rw [← hlast, List.dropLast_append_getLast]⟩
    rw [if_neg (not_not.mpr hlast), addItems_eq _ hterminated]
  · have hfields : fields (value ++ [';']) = fields value := List.lines_concat_sep hne hlast
    rw [if_pos hlast, addItems_eq _ (List.terminated_line value), hfields]

theorem historyItems_nil : Checked.historyItems [] = .error .outOfRange := rfl

end Fields

/-! ## What loading a file gives -/

namespace Loaded

/-- What an assignment of the file sets. -/
def assign (l : Loaded) (kv : Key × Text) : Loaded where
  config := l.config.assign kv
  servers :=
    if kv.1 = .previousServers ∧ kv.2 ≠ "none".toList then
      firstSelected (((fields kv.2).take U_SAVE_PREV_SERVERS).map Checked.cStr)
    else l.servers

end Loaded

section Load

variable {l : Loaded} {line : Text}

/-- A line assigns what it should, unless it gives the history an empty value. -/
theorem loadLine_eq (l : Loaded) (line : Text) : Checked.loadLine l line =
    match (parseLine line).1 with
    | none => .ok l
    | some kv => if kv = (.previousServers, []) then .error .outOfRange else .ok (l.assign kv) := by
  have hempty : Key.ofName [] = none := by decide
  rw [Checked.loadLine, Checked.parseLine_eq, Checked.ok_bind, keyval]
  cases (parseLine line).1 with
  | none =>
    dsimp only [Option.map_none, Option.getD_none]
    rw [hempty]
    rfl
  | some kv =>
    obtain ⟨key, value⟩ := kv
    dsimp only [Option.map_some, Option.getD_some]
    rw [Key.ofName_name]
    dsimp only
    by_cases hhist : key = .previousServers ∧ value ≠ "none".toList
    · rw [if_pos hhist]
      obtain ⟨rfl, hvalue⟩ := hhist
      by_cases hne : value = []
      · rw [hne, historyItems_nil]
        rfl
      · rw [historyItems_eq hne, if_neg (by simp [hne]), Loaded.assign, if_pos ⟨rfl, hvalue⟩]
        rfl
    · have hne : (key, value) ≠ (.previousServers, []) := by
        rintro ⟨⟩
        exact hhist ⟨rfl, by decide⟩
      rw [if_neg hhist, if_neg hne, Loaded.assign, if_neg hhist]
      rfl

/-- Loading a file makes its assignments, unless one of them empties the history. -/
theorem loadFile_eq (l : Loaded) (file : Text) : Checked.loadFile l file =
    if (.previousServers, []) ∈ entries file then .error .outOfRange
    else .ok ((entries file).foldl Loaded.assign l) := by
  unfold Checked.loadFile entries
  induction file.lines '\n' generalizing l with
  | nil => rfl
  | cons line lines ih =>
    rw [List.foldlM_cons, loadLine_eq, assignments_cons]
    cases (parseLine line).1 with
    | none => exact ih l
    | some kv =>
      by_cases hbad : kv = (.previousServers, [])
      · subst hbad
        simp
        rfl
      · simp only [if_neg hbad, Checked.ok_bind, ih, Option.toList_some, List.singleton_append,
          List.mem_cons, Ne.symm hbad, false_or, List.foldl_cons]

/-- The history that an assignment of the file shows. -/
def shownHistory (kv : Key × Text) : Option Text :=
  if kv.1 = .previousServers ∧ kv.2 ≠ "none".toList then some kv.2 else none

/-- The last value other than `none` that the lines of a file give the history. -/
def lastHistory (file : List (Key × Text)) : Option Text := (file.filterMap shownHistory).getLast?

theorem servers_assign (l : Loaded) (kv : Key × Text) : (l.assign kv).servers =
    (shownHistory kv).elim l.servers fun value =>
      firstSelected (((fields value).take U_SAVE_PREV_SERVERS).map Checked.cStr) := by
  unfold Loaded.assign shownHistory
  dsimp only
  split <;> rfl

theorem servers_foldl_assign (l : Loaded) (file : List (Key × Text)) :
    (file.foldl Loaded.assign l).servers = (lastHistory file).elim l.servers fun value =>
      firstSelected (((fields value).take U_SAVE_PREV_SERVERS).map Checked.cStr) := by
  induction file using List.reverseRecOn with
  | nil => rfl
  | append_singleton file kv ih =>
    rw [List.foldl_append, List.foldl_cons, List.foldl_nil, servers_assign, lastHistory,
      List.filterMap_append, List.filterMap_cons, List.filterMap_nil]
    cases shownHistory kv with
    | none => rw [List.append_nil, Option.elim_none, ih, lastHistory]
    | some value => rw [List.getLast?_concat, Option.elim_some, Option.elim_some]

/-- What a file assigns holds nothing that the file does not hold. -/
theorem mem_of_mem_entries {file value : Text} {key : Key} {c : Char}
    (h : (key, value) ∈ entries file) (hc : c ∈ value) : c ∈ file := by
  obtain ⟨line, hline, hparse⟩ := List.mem_filterMap.mp h
  have hstrip : c ∈ stripLine line := (value_suffix_stripLine hparse).subset hc
  exact List.mem_of_mem_lines hline ((List.takeWhile_prefix _).subset (mem_of_mem_stripLine hstrip))

theorem mem_entries_of_lastHistory {file value : Text}
    (h : lastHistory (entries file) = some value) : ∃ key, (key, value) ∈ entries file := by
  obtain ⟨kv, hkv, hshown⟩ := List.mem_filterMap.mp (List.mem_of_getLast? h)
  obtain ⟨-, hvalue⟩ := Option.ite_none_right_eq_some.mp hshown
  exact ⟨kv.1, Option.some.inj hvalue ▸ hkv⟩

theorem cStr_of_notMem {s : Text} (h : '\x00' ∉ s) : Checked.cStr s = String.ofList s := by
  have hall : s.takeWhile (· ≠ '\x00') = s :=
    List.takeWhile_eq_self_iff.mpr fun c hc => decide_eq_true fun e => h (e ▸ hc)
  rw [Checked.cStr, hall]

end Load

/-- Load is safe, and shows the first five fields of the last history in the file, exactly if no line
gives the history an empty value. -/
theorem load_exact_iff (l : Loaded) {file : Text} (hnull : '\x00' ∉ file) :
    (∃ l', Checked.loadFile l file = .ok l' ∧ ∀ value, lastHistory (entries file) = some value →
      l'.servers.items = ((fields value).take U_SAVE_PREV_SERVERS).map String.ofList) ↔
      (.previousServers, []) ∉ entries file := by
  constructor
  · rintro ⟨l', hload, -⟩ hbad
    rw [loadFile_eq, if_pos hbad] at hload
    cases hload
  · intro hgood
    refine ⟨_, (loadFile_eq l file).trans (if_neg hgood), fun value hvalue => ?_⟩
    rw [servers_foldl_assign, hvalue]
    refine List.map_congr_left fun field hfield => cStr_of_notMem fun hc => hnull ?_
    obtain ⟨key, hmem⟩ := mem_entries_of_lastHistory hvalue
    exact mem_of_mem_entries hmem (List.mem_of_mem_lines (List.mem_of_mem_take hfield) hc)

/-- Six servers without a last separator, a comment, and a line that gives no history. -/
theorem load_exact_six : ∃ l',
    Checked.loadFile {} "previousServers=a;b;;c;d;e # x\npreviousServers = none\n".toList = .ok l' ∧
      l'.servers.items = ["a", "b", "", "c", "d"] := by
  obtain ⟨l', hload, hitems⟩ := (@load_exact_iff {}
    "previousServers=a;b;;c;d;e # x\npreviousServers = none\n".toList (by decide +kernel)).mpr
    (by decide +kernel)
  refine ⟨l', hload, (hitems "a;b;;c;d;e".toList (by decide +kernel)).trans (by decide +kernel)⟩

/-- The value is cut off by a comment, or it was never written. -/
theorem load_faults_on_empty_history :
    Checked.loadFile {} "previousServers=# none yet\n".toList = .error .outOfRange := by
  decide +kernel

end UwavClient
