import Mathlib.Data.List.Nodup
import UwavClient.Config.History
import UwavClient.Config.SavedValues

/-!
# The server history over a restart

The history is the current server and the other entries of the combo box, without repetition and at
most five. Written with a semicolon after each entry it is split into the same entries again, so a
restart shows them, and saving from what is shown writes the same line. It shares the file with values
that may run over several lines, and such a line can give the history another value.
-/

namespace UwavClient

open List (unlines lines_unlines_eq_flatMap)

/-- The distinct servers that the combo box holds, the current one first, as far as they are saved. -/
def recentServers (texts : SavedTexts) : List Text :=
  ((((texts.currentServer :: texts.servers).map trimmed).filter (· ≠ [])).eraseDups).take
    U_SAVE_PREV_SERVERS

section Recent

variable {texts : SavedTexts}

theorem eraseDups_of_nodup {l : List Text} (h : l.Nodup) : l.eraseDups = l := by
  induction l with
  | nil => rfl
  | cons a l ih =>
    obtain ⟨ha, hl⟩ := List.nodup_cons.mp h
    have hfilter : l.filter (fun b => !b == a) = l :=
      List.filter_eq_self.mpr fun b hb => by simpa using fun e : b = a => ha (e ▸ hb)
    rw [List.eraseDups_cons, hfilter, ih hl]

/-- The loop over the combo box collects what is not there yet. -/
theorem addServers_eq {servers : List Text} (hn : servers.Nodup)
    (hlen : servers.length ≤ U_SAVE_PREV_SERVERS) (items : List String) :
    addServers servers items =
      (servers ++ (items.map trimmed).filter (· ≠ [])).eraseDups.take U_SAVE_PREV_SERVERS := by
  induction items generalizing servers with
  | nil => simp [addServers, eraseDups_of_nodup hn, List.take_of_length_le hlen]
  | cons item items ih =>
    rw [addServers, List.map_cons, List.filter_cons]
    split
    · rename_i hlt
      by_cases hempty : trimmed item = []
      · simpa [hempty] using ih hn hlen
      · by_cases hold : trimmed item ∈ servers
        · simpa [hempty, hold, List.eraseDups_append, List.cons_removeAll] using ih hn hlen
        · have hadd : (servers ++ [trimmed item]).Nodup := by
            rw [← List.concat_eq_append]
            exact List.Nodup.concat hold hn
          have hroom : (servers ++ [trimmed item]).length ≤ U_SAVE_PREV_SERVERS := by
            rw [List.length_append]
            exact hlt
          simpa [hempty, hold] using ih hadd hroom
    · rename_i hfull
      rw [List.eraseDups_append, eraseDups_of_nodup hn, List.take_append_of_le_length (not_lt.mp hfull),
        List.take_of_length_le hlen]

theorem serverHistory_eq (texts : SavedTexts) : serverHistory texts = recentServers texts := by
  unfold serverHistory recentServers
  rw [List.map_cons, List.filter_cons]
  by_cases h : trimmed texts.currentServer = []
  · simpa [h] using addServers_eq List.nodup_nil (Nat.zero_le _) texts.servers
  · have hone : [trimmed texts.currentServer].Nodup := by simp
    simpa [h] using addServers_eq hone (by simp [U_SAVE_PREV_SERVERS]) texts.servers

/-- The history of a combo box that shows a history. -/
theorem serverHistory_of_shown {servers : List Text} (htrim : ∀ entry ∈ servers, entry.trim isQtSpace = entry)
    (hne : [] ∉ servers) (hn : servers.Nodup) (hlen : servers.length ≤ U_SAVE_PREV_SERVERS)
    (hcurrent : texts.currentServer = (firstSelected (servers.map String.ofList)).currentText)
    (hitems : texts.servers = servers.map String.ofList) : serverHistory texts = servers := by
  have hmap : (servers.map String.ofList).map trimmed = servers := by
    rw [List.map_map]
    refine (List.map_congr_left fun entry hentry => ?_).trans (List.map_id _)
    rw [Function.comp_apply, trimmed, String.toList_ofList, htrim entry hentry]
    rfl
  have hfilter : servers.filter (· ≠ []) = servers :=
    List.filter_eq_self.mpr fun entry hentry => decide_eq_true fun e => hne (e ▸ hentry)
  rw [serverHistory_eq, recentServers, List.map_cons, hcurrent, hitems, hmap]
  cases servers with
  | nil => rfl
  | cons entry servers =>
    have hentry : trimmed (firstSelected ((entry :: servers).map String.ofList)).currentText = entry :=
      (List.cons.inj hmap).1
    have hself : (entry :: entry :: servers).eraseDups = (entry :: servers).eraseDups := by
      simp [List.eraseDups_cons]
    have hnil : entry ≠ [] := fun e => hne (e ▸ List.mem_cons_self)
    rw [hentry, List.filter_cons, if_pos (decide_eq_true hnil), hfilter, hself,
      eraseDups_of_nodup hn, List.take_of_length_le hlen]

theorem addServers_nodup {servers : List Text} (hn : servers.Nodup) (items : List String) :
    (addServers servers items).Nodup := by
  induction items generalizing servers with
  | nil => exact hn
  | cons item items ih =>
    rw [addServers]
    split
    · refine ih ?_
      split
      · rename_i hnew
        rw [← List.concat_eq_append]
        exact List.Nodup.concat hnew.2 hn
      · exact hn
    · exact hn

theorem serverHistory_nodup (texts : SavedTexts) : (serverHistory texts).Nodup := by
  refine addServers_nodup ?_ texts.servers
  split <;> simp

theorem mem_serverHistory {entry : Text} (h : entry ∈ serverHistory texts) :
    entry ≠ [] ∧ ∃ text ∈ texts.currentServer :: texts.servers, entry = trimmed text := by
  rw [serverHistory_eq] at h
  obtain ⟨hmem, hne⟩ := List.mem_filter.mp (List.mem_eraseDups.mp (List.mem_of_mem_take h))
  obtain ⟨text, htext, rfl⟩ := List.mem_map.mp hmem
  exact ⟨of_decide_eq_true hne, text, htext, rfl⟩

theorem trim_of_mem_serverHistory {entry : Text} (h : entry ∈ serverHistory texts) :
    entry.trim isQtSpace = entry := by
  obtain ⟨-, text, -, rfl⟩ := mem_serverHistory h
  rw [trimmed, List.trim_trim]

theorem length_serverHistory (texts : SavedTexts) :
    (serverHistory texts).length ≤ U_SAVE_PREV_SERVERS := by
  rw [serverHistory_eq]
  exact List.length_take_le _ _

end Recent

/-! ## The line that is saved -/

def isControl (c : Char) : Bool := c.toNat < 0x20 || (0x7f ≤ c.toNat && c.toNat ≤ 0x9f)

/-- A server that can stand in the settings file. -/
def Clear (text : String) : Prop := ∀ c ∈ text.toList, c ≠ ';' ∧ c ≠ '#' ∧ ¬isControl c

instance (text : String) : Decidable (Clear text) :=
  List.decidableBAll (fun c => c ≠ ';' ∧ c ≠ '#' ∧ ¬isControl c) text.toList

def historyLine (texts : SavedTexts) : Text :=
  assignment .previousServers (serverHistoryString texts)

section HistoryString

variable {texts : SavedTexts} (hclear : ∀ text ∈ texts.currentServer :: texts.servers, Clear text)

theorem isQtSpace_of_isSpace {c : Char} (h : isSpace c) : isQtSpace c := by
  simp only [isSpace, Bool.or_eq_true, decide_eq_true_eq] at h
  rcases h with ((((rfl | rfl) | rfl) | rfl) | rfl) | rfl <;> decide

include hclear in
theorem clear_of_mem {entry : Text} (hentry : entry ∈ serverHistory texts) {c : Char} (hc : c ∈ entry) :
    c ≠ ';' ∧ c ≠ '#' ∧ ¬isControl c := by
  obtain ⟨-, text, htext, rfl⟩ := mem_serverHistory hentry
  refine hclear text htext c ?_
  exact (List.dropWhile_suffix _).subset ((List.rdropWhile_prefix _ _).subset hc)

theorem serverHistoryString_of_ne (hne : serverHistory texts ≠ []) :
    serverHistoryString texts = unlines ';' (serverHistory texts) := by
  unfold serverHistoryString
  split
  · rename_i h
    exact absurd h hne
  · rfl

theorem serverHistoryString_of_nil (hnil : serverHistory texts = []) :
    serverHistoryString texts = "none".toList := by
  unfold serverHistoryString
  rw [hnil]

include hclear in
/-- The history comes back as it is written. -/
theorem plain_serverHistoryString : Plain (serverHistoryString texts) := by
  by_cases hnil : serverHistory texts = []
  · rw [serverHistoryString_of_nil hnil]
    exact ⟨⟨by decide, by decide, by decide⟩, by decide⟩
  · have hchar : ∀ c ∈ unlines ';' (serverHistory texts), c ≠ '#' ∧ c ≠ '\n' := by
      intro c hc
      obtain ⟨entry, hentry, hc⟩ := List.mem_flatMap.mp hc
      rcases List.mem_append.mp hc with hc | hc
      · have h := clear_of_mem hclear hentry hc
        refine ⟨h.2.1, ?_⟩
        rintro rfl
        exact h.2.2 (by decide)
      · rw [List.mem_singleton.mp hc]
        decide
    rw [serverHistoryString_of_ne hnil]
    refine ⟨⟨fun h => (hchar _ h).1 rfl, fun hne hspace => ?_, fun hne hspace => ?_⟩,
      fun h => (hchar _ h).2 rfl⟩
    · obtain ⟨entry, servers, hservers⟩ := List.exists_cons_of_ne_nil hnil
      have hmem : entry ∈ serverHistory texts := hservers ▸ List.mem_cons_self
      have htrim := trim_of_mem_serverHistory hmem
      obtain ⟨c, rest, rfl⟩ := List.exists_cons_of_ne_nil (mem_serverHistory hmem).1
      simp only [hservers, unlines, List.flatMap_cons, List.cons_append, List.head_cons] at hspace
      have hhead := List.head_trim (p := isQtSpace) (l := c :: rest) (by simp [htrim])
      simp only [htrim, List.head_cons] at hhead
      exact hhead (isQtSpace_of_isSpace hspace)
    · have hend : (unlines ';' (serverHistory texts)).getLast hne = ';' := by
        rcases @List.terminated_unlines _ ';' (serverHistory texts) with h | ⟨init, h⟩
        · exact absurd h hne
        · simp only [h, List.getLast_concat]
      rw [hend] at hspace
      exact absurd hspace (by decide)

include hclear in
/-- Splitting the history that was saved gives the servers back. -/
theorem fields_serverHistoryString (hne : serverHistory texts ≠ []) :
    fields (serverHistoryString texts) = serverHistory texts := by
  rw [serverHistoryString_of_ne hne]
  exact List.lines_unlines fun entry hentry h => (clear_of_mem hclear hentry h).1 rfl

theorem serverHistoryString_ne_nil (texts : SavedTexts) : serverHistoryString texts ≠ [] := by
  unfold serverHistoryString
  split
  · decide
  · rename_i servers hne
    obtain ⟨entry, servers, hservers⟩ := List.exists_cons_of_ne_nil hne
    simp [hservers]

theorem serverHistoryString_ne_none (hne : serverHistory texts ≠ []) :
    serverHistoryString texts ≠ "none".toList := by
  rw [serverHistoryString_of_ne hne]
  intro h
  have hmem : ';' ∈ unlines ';' (serverHistory texts) := by
    obtain ⟨entry, servers, hservers⟩ := List.exists_cons_of_ne_nil hne
    simp [hservers, unlines]
  rw [h] at hmem
  revert hmem
  decide

include hclear in
/-- A file with the history that was saved, and besides at most lines that give none, shows it in an
empty combo box. -/
theorem servers_of_saved {file : Text}
    (hsaved : (.previousServers, serverHistoryString texts) ∈ entries file)
    (hvalues : ∀ value, (.previousServers, value) ∈ entries file →
      value = serverHistoryString texts ∨ value = "none".toList) :
    ((entries file).foldl Loaded.assign {}).servers =
      firstSelected ((serverHistory texts).map String.ofList) := by
  have hshown : ∀ value ∈ (entries file).filterMap shownHistory,
      value = serverHistoryString texts ∧ value ≠ "none".toList := by
    intro value hvalue
    obtain ⟨kv, hkv, hshows⟩ := List.mem_filterMap.mp hvalue
    obtain ⟨⟨hkey, hne⟩, hv⟩ := Option.ite_none_right_eq_some.mp hshows
    rw [← Option.some.inj hv]
    exact ⟨(hvalues kv.2 (hkey ▸ hkv)).resolve_right hne, hne⟩
  rw [servers_foldl_assign, lastHistory]
  by_cases hnil : serverHistory texts = []
  · have hnone : (entries file).filterMap shownHistory = [] :=
      List.eq_nil_iff_forall_not_mem.mpr fun value hvalue =>
        (hshown value hvalue).2 ((hshown value hvalue).1.trans (serverHistoryString_of_nil hnil))
    rw [hnone, hnil]
    rfl
  · have hmem : serverHistoryString texts ∈ (entries file).filterMap shownHistory :=
      List.mem_filterMap.mpr ⟨_, hsaved, if_pos ⟨rfl, serverHistoryString_ne_none hnil⟩⟩
    have hlast : ((entries file).filterMap shownHistory).getLast? = some (serverHistoryString texts) := by
      have hne := List.ne_nil_of_mem hmem
      rw [List.getLast?_eq_some_getLast hne, (hshown _ (List.getLast_mem hne)).1]
    rw [hlast, Option.elim_some, fields_serverHistoryString hclear hnil,
      List.take_of_length_le (length_serverHistory texts)]
    refine congrArg firstSelected (List.map_congr_left fun entry hentry => cStr_of_notMem fun h => ?_)
    exact (clear_of_mem hclear hentry h).2.2 (by decide)

/-- A file that assigns a history, other than `none` and never an empty one, shows a server. -/
theorem servers_ne_of_history {file history : Text} (hempty : (.previousServers, []) ∉ entries file)
    (hmem : (.previousServers, history) ∈ entries file) (hne : history ≠ "none".toList) :
    ((entries file).foldl Loaded.assign {}).servers.items ≠ [] := by
  have hlast : lastHistory (entries file) ≠ none := by
    rw [lastHistory, ne_eq, List.getLast?_eq_none_iff]
    exact List.ne_nil_of_mem (List.mem_filterMap.mpr ⟨_, hmem, if_pos ⟨rfl, hne⟩⟩)
  obtain ⟨value, hvalue⟩ := Option.ne_none_iff_exists'.mp hlast
  have hvalue_ne : value ≠ [] := by
    rintro rfl
    obtain ⟨⟨key, v⟩, hkv, hshown⟩ := List.mem_filterMap.mp (List.mem_of_getLast? hvalue)
    obtain ⟨⟨hkey, -⟩, hv⟩ := Option.ite_none_right_eq_some.mp hshown
    obtain rfl : key = .previousServers := hkey
    obtain rfl : v = [] := Option.some.inj hv
    exact hempty hkv
  rw [servers_foldl_assign, hvalue]
  intro hitems
  have hfields : (fields value).take U_SAVE_PREV_SERVERS = [] := List.map_eq_nil_iff.mp hitems
  rcases List.take_eq_nil_iff.mp hfields with h | h
  · cases h
  · exact List.lines_ne_nil hvalue_ne h

end HistoryString

/-! ## The history in the new file -/

/-- The value that Save writes for another key than the history: the UI has a say in it where the old
file has a line for the key. -/
def writtenText (old : List Text) (texts : SavedTexts) (config : ConfigData) (key : Key) : Text :=
  if key ∈ assignedKeys old then takenText (some texts) config key else config.text key

/-- A history that a line of one of these values assigns, other than the first line of the value. -/
def StrayHistory (old : List Text) (texts : SavedTexts) (config : ConfigData) (history : Text) : Prop :=
  ∃ key ≠ Key.previousServers, (.previousServers, history) ∈ spilled (writtenText old texts config key)

/-- This is the one line of the file that assigns the server history, perhaps more than once. -/
def HistoryLine (file line : Text) : Prop :=
  ∀ l, (l ∈ file.lines '\n' ∧ ∃ value, (parseLine l).1 = some (.previousServers, value)) ↔ l = line

section NewHistory

variable {texts : SavedTexts} {config : ConfigData} {old : List Text} {history : Text}

theorem history_assignment {key : Key} {value : Text} (hkey : key ≠ .previousServers)
    (h : (.previousServers, history) ∈ entries (assignment key value ++ ['\n'])) :
    (.previousServers, history) ∈ spilled value := by
  rw [entries_assignment] at h
  exact (List.mem_cons.mp h).resolve_left fun heq => hkey (Prod.mk.inj heq).1.symm

theorem parseLine_of_stripLine {line : Text} (hl : '\n' ∉ line)
    (h : (.previousServers, history) ∈ entries (stripLine line ++ ['\n'])) :
    (parseLine line).1 = some (.previousServers, history) := by
  rwa [entries_line (newline_notMem_stripLine hl), parseLine_stripLine, Option.mem_toList] at h

/-- The old file assigns a key in one of its lines. -/
theorem mem_assignedKeys_iff {key : Key} :
    key ∈ assignedKeys old ↔ ∃ line ∈ old, ∃ value, (parseLine line).1 = some (key, value) := by
  rw [mem_assignedKeys]
  constructor
  · rintro ⟨value, hvalue⟩
    obtain ⟨line, hline, hparse⟩ := List.mem_filterMap.mp hvalue
    exact ⟨line, hline, value, hparse⟩
  · rintro ⟨line, hline, value, hparse⟩
    exact ⟨value, List.mem_filterMap.mpr ⟨line, hline, hparse⟩⟩

/-- Each new line is the history line, or the histories that it assigns are stray. -/
theorem newLines_history (hold : ∀ line ∈ old, '\n' ∉ line) {written : Text}
    (hmem : written ∈ newLines (some texts) false config old) :
    written = historyLine texts ∨ ∀ history,
      (.previousServers, history) ∈ entries (written ++ ['\n']) → StrayHistory old texts config history := by
  rcases List.mem_append.mp hmem with hmem | hmem
  · obtain ⟨line, hline, rfl⟩ := List.mem_map.mp hmem
    unfold rewrittenLine
    split
    · exact Or.inl rfl
    · rename_i key value hne hparse
      refine Or.inr fun history hhist => ?_
      split at hhist
      · have hkey : key ∈ assignedKeys old := mem_assignedKeys_iff.mpr ⟨line, hline, value, hparse⟩
        refine ⟨key, hne, ?_⟩
        rw [writtenText, if_pos hkey]
        exact history_assignment hne hhist
      · have hsame := parseLine_of_stripLine (hold line hline) hhist
        rw [hparse] at hsame
        exact absurd (Prod.mk.inj (Option.some.inj hsame)).1 hne
    · rename_i hparse
      refine Or.inr fun history hhist => ?_
      have hsame := parseLine_of_stripLine (hold line hline) hhist
      rw [hparse] at hsame
      cases hsame
  · obtain ⟨key, hmissing, rfl⟩ := List.mem_map.mp hmem
    by_cases hkey : key = .previousServers
    · subst hkey
      exact Or.inl rfl
    · refine Or.inr fun history hhist => ⟨key, hkey, ?_⟩
      rw [missingLine, if_neg hkey] at hhist
      rw [writtenText, if_neg (mem_missingKeys.mp hmissing)]
      exact history_assignment hkey hhist

theorem historyLine_mem_newLines (old : List Text) :
    historyLine texts ∈ newLines (some texts) false config old := by
  by_cases hkey : .previousServers ∈ assignedKeys old
  · obtain ⟨line, hline, value, hparse⟩ := mem_assignedKeys_iff.mp hkey
    refine List.mem_append_left _ (List.mem_map.mpr ⟨line, hline, ?_⟩)
    rw [rewrittenLine, hparse]
    rfl
  · exact List.mem_append_right _ (List.mem_map.mpr ⟨.previousServers, mem_missingKeys.mpr hkey, rfl⟩)

/-- A value that runs over several lines is written, whatever the old line was. -/
theorem assignment_mem_newLines (hold : ∀ line ∈ old, '\n' ∉ line) {key : Key}
    (hkey : key ≠ .previousServers) (hlines : '\n' ∈ writtenText old texts config key) :
    assignment key (writtenText old texts config key) ∈ newLines (some texts) false config old := by
  unfold writtenText at hlines ⊢
  split at hlines
  next hassigned =>
    rw [if_pos hassigned]
    obtain ⟨line, hline, value, hparse⟩ := mem_assignedKeys_iff.mp hassigned
    have hne : value ≠ takenText (some texts) config key := by
      rintro rfl
      exact newline_notMem_of_parseLine (hold line hline) hparse hlines
    refine List.mem_append_left _ (List.mem_map.mpr ⟨line, hline, ?_⟩)
    rw [rewrittenLine, hparse]
    cases key <;> first
      | exact absurd rfl hkey
      | exact if_pos hne
  next hmissing =>
    rw [if_neg hmissing]
    refine List.mem_append_right _ (List.mem_map.mpr ⟨key, mem_missingKeys.mpr hmissing, ?_⟩)
    rw [missingLine, if_neg hkey]

theorem mem_lines_rewrite {l : Text} : l ∈ (rewrite (some texts) false config old).out.lines '\n' ↔
    ∃ written ∈ newLines (some texts) false config old, l ∈ (written ++ ['\n']).lines '\n' := by
  rw [rewrite_out, lines_unlines_eq_flatMap, List.mem_flatMap]

theorem lines_historyLine (hplain : Plain (serverHistoryString texts)) :
    (historyLine texts ++ ['\n']).lines '\n' = [historyLine texts] :=
  List.lines_line (newline_notMem_assignment hplain.oneLine) []

theorem historyLine_mem_lines (hplain : Plain (serverHistoryString texts)) :
    historyLine texts ∈ (rewrite (some texts) false config old).out.lines '\n' :=
  mem_lines_rewrite.mpr ⟨_, historyLine_mem_newLines old, lines_historyLine hplain ▸ List.mem_cons_self⟩

/-- A line of the new file that assigns the history is the history line or assigns a stray one. -/
theorem lines_rewrite_history (hplain : Plain (serverHistoryString texts))
    (hold : ∀ line ∈ old, '\n' ∉ line) {l : Text}
    (hl : l ∈ (rewrite (some texts) false config old).out.lines '\n')
    (hparse : (parseLine l).1 = some (.previousServers, history)) :
    l = historyLine texts ∨ StrayHistory old texts config history := by
  obtain ⟨written, hwritten, hl⟩ := mem_lines_rewrite.mp hl
  rcases newLines_history hold hwritten with rfl | hstray
  · rw [lines_historyLine hplain, List.mem_singleton] at hl
    exact Or.inl hl
  · exact Or.inr (hstray history (List.mem_filterMap.mpr ⟨l, hl, hparse⟩))

/-- The histories that the new file assigns are the one of the UI and the stray ones. -/
theorem history_mem_entries_rewrite (hplain : Plain (serverHistoryString texts))
    (hold : ∀ line ∈ old, '\n' ∉ line) :
    (.previousServers, history) ∈ entries (rewrite (some texts) false config old).out ↔
      history = serverHistoryString texts ∨ StrayHistory old texts config history := by
  have hline : (parseLine (historyLine texts)).1 = some (.previousServers, serverHistoryString texts) :=
    hplain.parseLine .previousServers
  constructor
  · intro hmem
    obtain ⟨l, hl, hparse⟩ := List.mem_filterMap.mp hmem
    rcases lines_rewrite_history hplain hold hl hparse with rfl | hstray
    · rw [hline] at hparse
      exact Or.inl (Prod.mk.inj (Option.some.inj hparse)).2.symm
    · exact Or.inr hstray
  · rintro (rfl | ⟨key, hkey, hspilled⟩)
    · exact List.mem_filterMap.mpr ⟨_, historyLine_mem_lines hplain, hline⟩
    · have hlines : '\n' ∈ writtenText old texts config key := by
        by_contra hone
        rw [spilled_of_oneLine hone] at hspilled
        cases hspilled
      have hentry : (.previousServers, history) ∈
          entries (assignment key (writtenText old texts config key) ++ ['\n']) := by
        rw [entries_assignment]
        exact List.mem_cons_of_mem _ hspilled
      obtain ⟨l, hl, hparse⟩ := List.mem_filterMap.mp hentry
      exact List.mem_filterMap.mpr
        ⟨l, mem_lines_rewrite.mpr ⟨_, assignment_mem_newLines hold hkey hlines, hl⟩, hparse⟩

/-- Without stray histories Save leaves one line for the server history. -/
theorem historyLine_rewrite (hplain : Plain (serverHistoryString texts))
    (hold : ∀ line ∈ old, '\n' ∉ line) (hstray : ∀ history, ¬StrayHistory old texts config history) :
    HistoryLine (rewrite (some texts) false config old).out (historyLine texts) := by
  intro l
  constructor
  · rintro ⟨hl, value, hparse⟩
    exact (lines_rewrite_history hplain hold hl hparse).resolve_right (hstray value)
  · rintro rfl
    exact ⟨historyLine_mem_lines hplain, _, hplain.parseLine .previousServers⟩

end NewHistory

namespace LocalConfig

/-- Save leaves a settings file with this line for the server history, and with no other one unless
another value has it. -/
def SavesHistory (newid : String) (texts : SavedTexts) (config : ConfigData) (s : Process)
    (line : Text) (t : Process) (file : Text) : Prop :=
  (∃ config', (save (some texts) false config).run.run (filesystem newid 0 0 .works) s =
    (.ok config', t)) ∧ t.get .conf = some file ∧ line ∈ file.lines '\n' ∧
    ((∀ history, ¬StrayHistory (savedLines s) texts config history) → HistoryLine file line)

/-- After Save, loading into an empty combo box shows the recent servers with the first one current,
and saving from that combo box, whatever else has changed, writes the same line. -/
def HistorySurvives (newid : String) (s : Process) (texts : SavedTexts) (config : ConfigData) : Prop :=
  ∃ t file loaded, SavesHistory newid texts config s (historyLine texts) t file ∧
    Checked.loadFile {} file = .ok loaded ∧
    loaded.servers = firstSelected ((recentServers texts).map String.ofList) ∧
    ∀ texts' config', texts'.currentServer = loaded.servers.currentText →
      texts'.servers = loaded.servers.items →
      ∃ u file', SavesHistory newid texts' config' t (historyLine texts) u file'

section Survival

variable {newid : String} {s : Process} {texts : SavedTexts} {config : ConfigData}

theorem newline_notMem_savedLines (s : Process) : ∀ line ∈ savedLines s, '\n' ∉ line :=
  fun _ => List.sep_notMem_of_mem_lines

theorem savesHistory (hplain : Plain (serverHistoryString texts)) (newid : String) (s : Process) :
    ∃ t, SavesHistory newid texts config s (historyLine texts) t
      (rewrite (some texts) false config (savedLines s)).out :=
  ⟨_, ⟨_, run_save⟩, rfl, historyLine_mem_lines hplain,
    historyLine_rewrite hplain (newline_notMem_savedLines s)⟩

theorem SavesHistory.file_eq {line : Text} {t : Process} {file : Text}
    (h : SavesHistory newid texts config s line t file) :
    file = (rewrite (some texts) false config (savedLines s)).out := by
  obtain ⟨⟨config', hrun⟩, hfile, -⟩ := h
  obtain ⟨-, rfl⟩ := Prod.mk.inj (run_save.symm.trans hrun)
  exact (Option.some.inj hfile).symm

/-- If other values give at most the history `none`, the servers survive. -/
theorem historySurvives_of_stray (hclear : ∀ text ∈ texts.currentServer :: texts.servers, Clear text)
    (hstray : ∀ history, StrayHistory (savedLines s) texts config history → history = "none".toList) :
    HistorySurvives newid s texts config := by
  have hplain : Plain (serverHistoryString texts) := plain_serverHistoryString hclear
  obtain ⟨t, hsaved⟩ := @savesHistory texts config hplain newid s
  have hvalues := fun history => @history_mem_entries_rewrite texts config _ history hplain
    (newline_notMem_savedLines s)
  have hhistory : ∀ history, (.previousServers, history) ∈
      entries (rewrite (some texts) false config (savedLines s)).out →
      history = serverHistoryString texts ∨ history = "none".toList := fun history hmem =>
    ((hvalues history).mp hmem).imp_right (hstray history)
  have hempty : (.previousServers, []) ∉
      entries (rewrite (some texts) false config (savedLines s)).out := by
    intro hbad
    rcases hhistory [] hbad with h | h
    · exact serverHistoryString_ne_nil texts h.symm
    · cases h
  have hservers := servers_of_saved hclear ((hvalues _).mpr (Or.inl rfl)) hhistory
  refine ⟨t, _, _, hsaved, (loadFile_eq {} _).trans (if_neg hempty),
    hservers.trans (by rw [serverHistory_eq]), ?_⟩
  intro texts' config' hcurrent hitems
  have hsame : serverHistory texts' = serverHistory texts := by
    rw [hservers] at hcurrent hitems
    exact serverHistory_of_shown (fun _ => trim_of_mem_serverHistory)
      (fun h => (mem_serverHistory h).1 rfl) (serverHistory_nodup texts)
      (length_serverHistory texts) hcurrent hitems
  have hstring : serverHistoryString texts' = serverHistoryString texts := by
    rw [serverHistoryString, hsame, serverHistoryString]
  have hline : historyLine texts' = historyLine texts := by rw [historyLine, hstring, historyLine]
  obtain ⟨u, hagain⟩ := @savesHistory texts' config' (hstring ▸ hplain) newid t
  exact ⟨u, _, hline ▸ hagain⟩

/-- Without servers nothing is shown, so a stray history that is shown is not the one saved. -/
theorem stray_of_historySurvives (hnil : serverHistory texts = [])
    (h : HistorySurvives newid s texts config) {history : Text}
    (hstray : StrayHistory (savedLines s) texts config history) : history = "none".toList := by
  obtain ⟨t, file, loaded, hsaved, hload, hservers, -⟩ := h
  have hplain : Plain (serverHistoryString texts) := by
    rw [serverHistoryString_of_nil hnil]
    exact ⟨⟨by decide, by decide, by decide⟩, by decide⟩
  have hmem : (.previousServers, history) ∈ entries file := by
    rw [hsaved.file_eq, history_mem_entries_rewrite hplain (newline_notMem_savedLines s)]
    exact Or.inr hstray
  rw [loadFile_eq] at hload
  split at hload
  next => cases hload
  next hempty =>
    cases hload
    rw [← serverHistory_eq, hnil] at hservers
    by_contra hne
    exact servers_ne_of_history hempty hmem hne (congrArg Combo.items hservers)

/-- The server history survives a restart, whatever the servers are, exactly if no other value that
Save writes has a line of its own that assigns another history than `none`. -/
theorem history_survives_restart_iff (newid : String) (s : Process) (texts : SavedTexts)
    (config : ConfigData) :
    (∀ current servers, (∀ text ∈ current :: servers, Clear text) → HistorySurvives newid s
      { texts with currentServer := current, servers := servers } config) ↔
      ∀ history, StrayHistory (savedLines s) texts config history → history = "none".toList := by
  constructor
  · intro h history hstray
    have hnone := h "" [] (by decide)
    exact stray_of_historySurvives rfl hnone hstray
  · intro hstray current servers hclear
    exact historySurvives_of_stray hclear hstray

end Survival

/-- Seven entries, one of them the current server, one empty and one that is called none. -/
def visitedTexts : SavedTexts where
  inferDevice := "cpu"
  modelName := ""
  currentServer := " b:1 "
  servers := ["a:1", "b:1", "", "none", "c:1 ", "d:1", "e:1"]

theorem history_survives_restart_visited : ∃ t file loaded,
    SavesHistory "7" visitedTexts earlierConfig { folder := none } (historyLine visitedTexts) t file ∧
    Checked.loadFile {} file = .ok loaded ∧
    loaded.servers = { items := ["b:1", "a:1", "none", "c:1", "d:1"], current := 0 } := by
  have hstray : ∀ history, StrayHistory (savedLines { folder := none }) visitedTexts earlierConfig
      history → history = "none".toList := by
    rintro history ⟨key, -, hspilled⟩
    have hone : '\n' ∉ writtenText (savedLines { folder := none }) visitedTexts earlierConfig key := by
      cases key <;> decide +kernel
    rw [spilled_of_oneLine hone] at hspilled
    cases hspilled
  obtain ⟨t, file, loaded, hsaved, hload, hservers, -⟩ :=
    (history_survives_restart_iff "7" { folder := none } visitedTexts earlierConfig).mpr hstray
      visitedTexts.currentServer visitedTexts.servers (by decide +kernel)
  exact ⟨t, file, loaded, hsaved, hload, hservers.trans (by decide +kernel)⟩

def oneServer : SavedTexts where
  inferDevice := ""
  modelName := ""
  currentServer := "a"
  servers := ["a"]

/-- A microphone whose description has a line that gives another history. -/
theorem history_replaced_on_restart :
    (∀ text ∈ oneServer.currentServer :: oneServer.servers, Clear text) ∧
      ¬HistorySurvives "7" (withSettings "previousServers=a;\n") oneServer
        { inputDevice := "Mic\npreviousServers=x;" } := by
  refine ⟨by decide, ?_⟩
  rintro ⟨t, file, loaded, hsaved, hload, hservers, -⟩
  have hshown : (Checked.loadFile {} (rewrite (some oneServer) false
      { inputDevice := "Mic\npreviousServers=x;" }
      (savedLines (withSettings "previousServers=a;\n"))).out).toOption.map (·.servers.items) =
      some ["x"] := by
    decide +kernel
  rw [← hsaved.file_eq, hload] at hshown
  have hitems : loaded.servers.items = ["x"] := Option.some.inj hshown
  rw [hservers] at hitems
  exact absurd hitems (by decide +kernel)

end LocalConfig

end UwavClient
