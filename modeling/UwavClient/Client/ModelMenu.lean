import Mathlib.Data.List.Nodup
import UwavClient.Client.ServerMessages
import UwavClient.Client.Threads
import UwavClient.Library.Raising

/-!
# The model menu after connecting

The server answers `GET_PARAMS` with a model name and `GET_MODELS` with the names there are. A name
that is not listed yet is dropped, and the list then chooses by the settings file; a list that comes
first is searched for the name. So the model selected depends on which answer comes first.
-/

namespace UwavClient

open Slot ExceptT

namespace Combo

variable {b : Combo} {names : List String} {text : String} {k : ℕ}

def selected (b : Combo) : Option String :=
  if b.current < 0 then none else b.items[b.current.toNat]?

theorem selected_select_natCast (b : Combo) (k : ℕ) : (b.select k).selected = b.items[k]? := by
  unfold select settle selected
  by_cases hk : k < b.items.length
  · have hin : 0 ≤ (k : ℤ) ∧ (k : ℤ) < b.count :=
      ⟨Int.natCast_nonneg k, Int.ofNat_lt.mpr hk⟩
    simp only [if_pos hin]
    rw [if_neg (Int.not_lt.mpr hin.1), Int.toNat_natCast]
  · have hout : ¬(0 ≤ (k : ℤ) ∧ (k : ℤ) < b.count) := fun h => hk (Int.ofNat_lt.mp h.2)
    simp only [if_neg hout]
    rw [List.getElem?_eq_none (Nat.le_of_not_lt hk)]
    rfl

/-- The item at this position is selected if it has this text. -/
def selectIf (text : String) (b : Combo) (i : ℤ) : Combo :=
  if b.itemText i = text then b.select i else b

/-- Every item with this text is selected in turn. -/
def selectAll (text : String) (b : Combo) : Combo :=
  ((List.range b.items.length).map (↑)).foldl (selectIf text) b

/-- The menu once the models are listed, when nothing was selected before. -/
def listed (names : List String) (saved : String) : Combo :=
  let b : Combo := { items := names, current := -1 }
  if saved ≠ "" then (b.findText saved).elim b b.select
  else if 0 < b.count then b.select 0 else b

theorem itemText_natCast (b : Combo) (i : ℕ) : b.itemText i = b.items.getD i "" := by
  rw [itemText, if_neg (Int.not_lt.mpr (Int.natCast_nonneg i)), Int.toNat_natCast]

/-- Among distinct names only one has the text. -/
theorem itemText_eq_iff (hnodup : b.items.Nodup) (hk : b.items[k]? = some text) {i : ℕ}
    (hi : i < b.items.length) : b.itemText i = text ↔ i = k := by
  obtain ⟨hlt, rfl⟩ := List.getElem?_eq_some_iff.mp hk
  rw [itemText_natCast, List.getD_eq_getElem?_getD, List.getElem?_eq_getElem hi, Option.getD_some]
  exact List.Nodup.getElem_inj_iff hnodup

theorem selectAll_of_nodup (hnodup : b.items.Nodup) (hk : b.items[k]? = some text) :
    b.selectAll text = b.select k := by
  obtain ⟨hlt, -⟩ := List.getElem?_eq_some_iff.mp hk
  have hrounds (n : ℕ) (hn : n ≤ b.items.length) :
      ((List.range n).map (↑)).foldl (selectIf text) b = if k < n then b.select k else b := by
    induction n with
    | zero => rfl
    | succ n ih =>
      rw [List.range_succ, List.map_append, List.foldl_append, ih (by omega)]
      by_cases hkn : k < n
      · rw [if_pos hkn, if_pos (Nat.lt_succ_of_lt hkn)]
        exact if_neg (mt (@itemText_eq_iff (b.select k) text k hnodup hk n hn).mp hkn.ne')
      · rw [if_neg hkn]
        by_cases heq : n = k
        · subst heq
          rw [if_pos (Nat.lt_succ_self n)]
          exact if_pos ((itemText_eq_iff hnodup hk hn).mpr rfl)
        · rw [if_neg (by omega)]
          exact if_neg (mt (itemText_eq_iff hnodup hk hn).mp heq)
  rw [selectAll, hrounds _ (Nat.le_refl _), if_pos hlt]

theorem selected_selectAll (hnodup : b.items.Nodup) (hmem : text ∈ b.items) :
    (b.selectAll text).selected = some text := by
  obtain ⟨k, hk⟩ := List.getElem?_of_mem hmem
  rw [selectAll_of_nodup hnodup hk, selected_select_natCast, hk]

theorem items_listed (names : List String) (saved : String) : (listed names saved).items = names := by
  unfold listed
  dsimp only
  split_ifs
  · cases findText { items := names, current := -1 } saved <;> rfl
  · rfl
  · rfl

/-- With no selection yet the list takes the saved name, and nothing if it is not there; without a
saved name it takes the first. -/
theorem selected_listed (names : List String) (saved : String) : (listed names saved).selected =
    if saved = "" then names.head? else if saved ∈ names then some saved else none := by
  by_cases hsaved : saved = ""
  · rw [listed, if_neg (not_not.mpr hsaved), if_pos hsaved]
    cases names with
    | nil => rfl
    | cons name names =>
      rw [if_pos (by simp [count])]
      exact selected_select_natCast _ 0
  · rw [listed, if_pos hsaved, if_neg hsaved, findText]
    cases hfind : names.findIdx? (· = saved) with
    | none =>
      have hnone := List.findIdx?_eq_none_iff.mp hfind
      rw [if_neg fun hmem => by simpa using hnone saved hmem]
      rfl
    | some k =>
      obtain ⟨hk, heq, -⟩ := List.findIdx?_eq_some_iff_getElem.mp hfind
      have htext : names[k] = saved := of_decide_eq_true heq
      rw [if_pos (htext ▸ List.getElem_mem hk)]
      exact (selected_select_natCast _ k).trans ((List.getElem?_eq_getElem hk).trans (congrArg some htext))

end Combo

/-! ## What the two handlers do to the menu -/

section Handlers

variable {c : UwaVClient} {names : List String} {m : String}

def setParamsMessage (modelName : String) : List Message :=
  [.object [("model_name", .string modelName)]]

def listModelsMessage (names : List String) : List Message :=
  [.object [("models", .array (names.map .string))]]

def onSioMessages (events : List (String × List Message)) (c : UwaVClient) : Slot UwaVClient :=
  events.foldlM (fun c event => onSioMessage event.1 event.2 c) c

theorem yields_emit (m : Emission) : (emit m).Yields () := ⟨trivial, fun _ => rfl⟩

/-- The change is sent to the server if the socket is open. -/
theorem yields_onComboModelCurrentIndexChanged (index : ℤ) (c : UwaVClient) :
    (onComboModelCurrentIndexChanged index c).Yields () := by
  refine yields_lift fun socketOpen => ?_
  split
  · exact yields_emit _
  · exact yields_pure ()

theorem yields_setModelIndex (index : ℤ) (c : UwaVClient) :
    (setModelIndex index c).Yields { c with comboModel := c.comboModel.select index } := by
  unfold setModelIndex
  dsimp only
  split
  next heq =>
    have hsame : c.comboModel.select index = c.comboModel := by
      change ({ c.comboModel with current := (c.comboModel.select index).current } : Combo) = _
      rw [heq]
    rw [hsame]
    exact yields_pure c
  next => exact (yields_onComboModelCurrentIndexChanged _ _).bind (yields_pure _)

theorem yields_selectModels (text : String) (c : UwaVClient) : (selectModels (Message.string text) c).Yields
    { c with comboModel := c.comboModel.selectAll text } := by
  have hround (c : UwaVClient) (i : ℕ) :
      (sioToString (Message.string text) >>= fun read =>
        if read = c.comboModel.itemText i then setModelIndex i c else pure c : Slot UwaVClient).Yields
        { c with comboModel := c.comboModel.selectIf text i } := by
    refine (yields_pure text).bind ?_
    unfold Combo.selectIf
    simp only [eq_comm (a := text)]
    split
    · exact yields_setModelIndex i c
    · exact yields_pure c
  have hmenu (l : List ℕ) (c : UwaVClient) :
      l.foldl (fun c (i : ℕ) => { c with comboModel := c.comboModel.selectIf text i }) c =
        { c with comboModel := (l.map (↑)).foldl (Combo.selectIf text) c.comboModel } := by
    induction l generalizing c with
    | nil => rfl
    | cons i l ih => exact ih _
  have hloop := yields_foldlM hround (List.range c.comboModel.items.length) c
  rw [hmenu] at hloop
  exact hloop

theorem setParam_modelName (m : String) (c : UwaVClient) :
    setParam "model_name" (.string m) c = selectModels (Message.string m) c := if_pos rfl

theorem withObject_object (fields : List (String × Message)) (c : UwaVClient)
    (body : List (String × Message) → Slot UwaVClient) :
    withObject [.object fields] c body = body fields := by
  simp [withObject, Message.first, getFlag, Message.getFlag, Message.getMap, Slot.ofExcept]

theorem yields_onSetParams (m : String) (c : UwaVClient) :
    (onSetParams (setParamsMessage m) c).Yields
      (uiServerConnect { c with comboModel := c.comboModel.selectAll m }) := by
  unfold onSetParams setParamsMessage forFields
  rw [withObject_object, List.foldlM_cons, setParam_modelName, bind_assoc]
  exact (yields_selectModels m c).bind (yields_pure _)

theorem mapM_sioToString (names : List String) :
    ((names.map .string).mapM sioToString : Slot (List String)) = pure names := by
  have htext : sioToString ∘ Message.string = fun name => pure name := rfl
  rw [List.mapM_map, htext, List.mapM_pure, List.map_id']

theorem yields_selectModel (text : String) (c : UwaVClient) : (selectModel text c).Yields
    { c with comboModel := (c.comboModel.findText text).elim c.comboModel c.comboModel.select } := by
  unfold selectModel
  split
  next index hfind =>
    rw [hfind]
    exact yields_setModelIndex index c
  next hfind =>
    rw [hfind]
    exact yields_pure c

theorem yields_onListModels (hempty : c.comboModel = {}) (names : List String) :
    (onListModels (listModelsMessage names) c).Yields
      { c with comboModel := .listed names c.savedConfig.modelName } := by
  have hnothing : c.comboModel.currentText = "" := by rw [hempty]; rfl
  unfold onListModels listModelsMessage Combo.listed
  rw [withObject_object]
  simp only [Message.field, List.lookup_cons_self, Option.getD_some, Message.getVector, Slot.ofExcept,
    pure_bind, mapM_sioToString, hnothing, if_true, ne_eq, not_true_eq_false, if_false]
  split
  · exact yields_selectModel _ _
  · split
    · exact yields_setModelIndex 0 _
    · exact yields_pure _

end Handlers

/-! ## The two orders -/

section Order

variable {c : UwaVClient} {names : List String} {m : String}

/-- A name that comes before the list is dropped. -/
theorem yields_params_then_models (hempty : c.comboModel = {}) (names : List String) (m : String) :
    ∃ d, (onSioMessages [("SET_PARAMS", setParamsMessage m), ("LIST_MODELS", listModelsMessage names)]
      c).Yields d ∧ d.comboModel = .listed names c.savedConfig.modelName := by
  have hnamed : (uiServerConnect { c with comboModel := c.comboModel.selectAll m }).comboModel = {} := by
    rw [hempty]
    rfl
  have hset := yields_onSetParams m c
  have hlist := yields_onListModels hnamed names
  exact ⟨_, hset.bind (hlist.bind (yields_pure _)), rfl⟩

/-- A name that comes after the list is selected. -/
theorem yields_models_then_params (hempty : c.comboModel = {}) (hnodup : names.Nodup)
    (hm : m ∈ names) :
    ∃ d, (onSioMessages [("LIST_MODELS", listModelsMessage names), ("SET_PARAMS", setParamsMessage m)]
      c).Yields d ∧ d.comboModel.selected = some m := by
  have hselected : ((Combo.listed names c.savedConfig.modelName).selectAll m).selected = some m := by
    apply Combo.selected_selectAll
    · rwa [Combo.items_listed]
    · rwa [Combo.items_listed]
  have hlist := yields_onListModels hempty names
  have hset := yields_onSetParams m { c with comboModel := .listed names c.savedConfig.modelName }
  exact ⟨_, hlist.bind (hset.bind (yields_pure _)), hselected⟩

/-- Both orders of the two answers end with the same selection. -/
def SameModel {σ : Type} (h : Handler ClientOp ClientOp.Answer σ) (s : σ) (c : UwaVClient)
    (names : List String) (m : String) : Prop :=
  ∃ d t d' t',
    (onSioMessages [("SET_PARAMS", setParamsMessage m), ("LIST_MODELS", listModelsMessage names)]
      c).runOn h s = (.ok d, t) ∧
    (onSioMessages [("LIST_MODELS", listModelsMessage names), ("SET_PARAMS", setParamsMessage m)]
      c).runOn h s = (.ok d', t') ∧
    d.comboModel.selected = d'.comboModel.selected

/-- What the two orders yield decides, whatever the answers. -/
theorem sameModel_iff_selected {σ : Type} (h : Handler ClientOp ClientOp.Answer σ) (s : σ)
    {d d' : UwaVClient}
    (hd : (onSioMessages [("SET_PARAMS", setParamsMessage m), ("LIST_MODELS", listModelsMessage names)]
      c).Yields d)
    (hd' : (onSioMessages [("LIST_MODELS", listModelsMessage names), ("SET_PARAMS", setParamsMessage m)]
      c).Yields d') :
    SameModel h s c names m ↔ d.comboModel.selected = d'.comboModel.selected := by
  obtain ⟨t, ht⟩ := hd.runOn h s
  obtain ⟨t', ht'⟩ := hd'.runOn h s
  constructor
  · rintro ⟨e, u, e', u', he, he', heq⟩
    obtain ⟨hr, -⟩ := Prod.mk.inj (ht.symm.trans he)
    obtain ⟨hr', -⟩ := Prod.mk.inj (ht'.symm.trans he')
    rwa [Except.ok.inj hr, Except.ok.inj hr']
  · exact fun heq => ⟨d, t, d', t', ht, ht', heq⟩

end Order

/-- The model selected does not depend on the order of the answers exactly if the list alone chooses
the one that the server names: it is the saved one, or the first one and none is saved. -/
theorem same_model_iff {σ : Type} (h : Handler ClientOp ClientOp.Answer σ) (s : σ) {c : UwaVClient}
    (hempty : c.comboModel = {}) {names : List String} (hnodup : names.Nodup) {m : String}
    (hm : m ∈ names) :
    SameModel h s c names m ↔
      if c.savedConfig.modelName = "" then names.head? = some m else c.savedConfig.modelName = m := by
  obtain ⟨d, hd, hmenu⟩ := yields_params_then_models hempty names m
  obtain ⟨d', hd', hlast⟩ := yields_models_then_params hempty hnodup hm
  rw [sameModel_iff_selected h s hd hd', hlast, hmenu, Combo.selected_listed]
  split
  · rfl
  · split
    next => rw [Option.some.injEq]
    next hout => exact ⟨nofun, fun heq => absurd (heq ▸ hm) hout⟩

/-- Two models, of which the server names the second. -/
def justConnected (saved : String) : UwaVClient := { savedConfig := { modelName := saved } }

theorem same_model_saved : SameModel (fun e s => (World.online.answer e, s)) () (justConnected "bass")
    ["alto", "bass"] "bass" :=
  (same_model_iff _ _ rfl (by decide) (by decide)).mpr rfl

/-- Nothing was saved yet: the list selects the first model, the server had named the second. -/
theorem same_model_fails_unsaved : ¬SameModel (fun e s => (World.online.answer e, s)) () (justConnected "")
    ["alto", "bass"] "bass" := by
  obtain ⟨d, hd, hmenu⟩ := @yields_params_then_models (justConnected "") rfl ["alto", "bass"] "bass"
  obtain ⟨d', hd', hlast⟩ := @yields_models_then_params (justConnected "") ["alto", "bass"] "bass" rfl
    (by decide) (by decide)
  rw [sameModel_iff_selected _ () hd hd', hmenu, hlast]
  decide

end UwavClient
