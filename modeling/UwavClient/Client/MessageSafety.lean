import UwavClient.Client.Slots
import UwavClient.Client.Capture

/-!
# Which server messages the client survives

Each event looks at some keys of the first message's object and uses an accessor on each, often without
a check. For every event this module says what the accessors need; a message is handled to the end
exactly when it has that.
-/

namespace UwavClient

open Slot ExceptT

/-! ## What the accessors need -/

/-- The message is not null and of one of these types. -/
def Message.HasFlag (m : Message) (allowed : List MessageFlag) : Prop :=
  ∃ flag ∈ allowed, m.getFlag = .ok flag

def anyFlag : List MessageFlag :=
  [.null, .boolean, .integer, .double, .string, .binary, .array, .object]

/-- The keys an event looks at, each with the types that the code can take there. -/
abbrev MessageKeys := String → Option (List MessageFlag)

def statusKeys : MessageKeys := fun key =>
  if key = "gpu_load" ∨ key = "gpu_mem_used_mib" ∨ key = "gpu_mem_total_mib" ∨
    key = "host_name" then some anyFlag
  else none

/-- The name of the model is read once for each item of the menu, and never if there is none. -/
def paramKeys (models : List String) : MessageKeys := fun key =>
  if key = "model_name" then if models = [] then none else some anyFlag
  else if key = "input_device" ∨ key = "output_device" then some [.string]
  else if key = "input_volume" ∨ key = "output_volume" ∨ key = "chunk_size_s" ∨
    key = "chunk_pad_s" ∨ key = "crossfade_s" ∨ key = "use_output_rms" then some [.integer, .double]
  else if key = "pitch_shift_semitones" ∨ key = "formant_shift" ∨ key = "input_gate_db" then
    some [.integer]
  else if key = "use_noise_reduction" ∨ key = "use_vocode_smoothing" ∨ key = "use_fp32" ∨
    key = "use_jit" then some [.boolean]
  else none

def startedKeys : MessageKeys := fun key =>
  if key = "input_sample_rate" ∨ key = "output_sample_rate" then some [.integer]
  else if key = "received_timestamp" then some anyFlag
  else none

def pongKeys : MessageKeys := fun key =>
  if key = "received_timestamp" then some [.integer, .double] else none

def audioOutKeys : MessageKeys := fun key =>
  if key = "sample_count" ∨ key = "samples" ∨ key = "timestamp" ∨ key = "input_level_db" ∨
    key = "output_level_db" ∨ key = "inference_time_ms" then some anyFlag
  else none

def FieldConforms (keys : MessageKeys) (key : String) (m : Message) : Prop :=
  ∀ allowed, keys key = some allowed → m.HasFlag allowed

/-- Every field that the event looks at has a type it can take. -/
def Conforms (keys : MessageKeys) (fields : List (String × Message)) : Prop :=
  ∀ kv ∈ fields, FieldConforms keys kv.1 kv.2

section Decidable

variable (keys : MessageKeys) (key : String) (m : Message)

instance (allowed : List MessageFlag) : Decidable (m.HasFlag allowed) :=
  inferInstanceAs (Decidable (∃ flag ∈ allowed, m.getFlag = .ok flag))

instance : Decidable (FieldConforms keys key m) :=
  match hkey : keys key with
  | none => isTrue fun _ h => by simp [hkey] at h
  | some allowed => decidable_of_iff (m.HasFlag allowed) (by simp [FieldConforms, hkey])

instance (fields : List (String × Message)) : Decidable (Conforms keys fields) :=
  inferInstanceAs (Decidable (∀ kv ∈ fields, FieldConforms keys kv.1 kv.2))

end Decidable

def FullArray (m : Message) : Prop := ∃ items, m = .array items ∧ ∀ x ∈ items, x.HasFlag anyFlag

/-- The gain and gate sliders look the active device up, whose pointer may dangle. -/
def ActiveKnown (a : AudioProvider) (key : String) : Prop :=
  (key = "input_volume" ∨ key = "input_gate_db" → ∃ n, a.getActive .input = .ok n) ∧
    (key = "output_volume" → ∃ n, a.getActive .output = .ok n)

/-- What an event needs of the object it brings. -/
def Digestible (name : String) (fields : List (String × Message)) (c : UwaVClient)
    (a : AudioProvider) : Prop :=
  if name = "AUDIO_OUT" then c.serverStarted → a.output.connected → Conforms audioOutKeys fields
  else if name = "SET_STATUS" then Conforms statusKeys fields
  else if name = "SET_PARAMS" then
    Conforms (paramKeys c.comboModel.items) fields ∧ ∀ kv ∈ fields, ActiveKnown a kv.1
  else if name = "SERVER_STARTED" then Conforms startedKeys fields
  else if name = "LIST_MODELS" then FullArray (Message.field fields "models")
  else if name = "LIST_DEVICES" then
    FullArray (Message.field fields "input") ∧ FullArray (Message.field fields "output")
  else if name = "LIST_COMPUTE" then fields = [] ∨ FullArray (Message.field fields "devices")
  else if name = "MESSAGE" then (Message.field fields "message").HasFlag anyFlag
  else if name = "PONG" then Conforms pongKeys fields
  else True

/-- The events that look at their first message. -/
def messageEvents : List String :=
  ["AUDIO_OUT", "SET_STATUS", "SET_PARAMS", "SERVER_STARTED", "LIST_MODELS", "LIST_DEVICES",
    "LIST_COMPUTE", "MESSAGE", "PONG"]

/-- There is a first message, not null, and the fields satisfy `D` if it is an object. -/
def Brings (messages : List Message) (D : List (String × Message) → Prop) : Prop :=
  ∃ m, messages.head? = some m ∧ m.HasFlag anyFlag ∧ ∀ fields, m = .object fields → D fields

def WellFormed (name : String) (messages : List Message) (c : UwaVClient) (a : AudioProvider) :
    Prop :=
  name ∈ messageEvents → Brings messages fun fields => Digestible name fields c a

namespace Message

variable (m : Message)

theorem hasFlag_any_iff : m.HasFlag anyFlag ↔ m ≠ .nullptr := by
  cases m <;> simp [HasFlag, anyFlag, getFlag]

theorem getFlag_ok_iff : (∃ flag, m.getFlag = .ok flag) ↔ m.HasFlag anyFlag := by
  cases m <;> simp [HasFlag, anyFlag, getFlag]

theorem getBool_ok_iff : (∃ v, m.getBool = .ok v) ↔ m.HasFlag [.boolean] := by
  cases m <;> simp [HasFlag, getBool, getFlag]

theorem getInt_ok_iff : (∃ v, m.getInt = .ok v) ↔ m.HasFlag [.integer] := by
  cases m <;> simp [HasFlag, getInt, getFlag]

theorem getDouble_ok_iff : (∃ v, m.getDouble = .ok v) ↔ m.HasFlag [.integer, .double] := by
  cases m <;> simp [HasFlag, getDouble, getFlag]

theorem getString_ok_iff : (∃ v, m.getString = .ok v) ↔ m.HasFlag [.string] := by
  cases m <;> simp [HasFlag, getString, getFlag]

end Message

/-! ## Slots that read -/

/-- An operation that leaves the provider alone. -/
@[simp] def ClientOp.Reading : ClientOp → Prop
  | .startAudio | .stopAudio | .setActive _ _ | .setInputGateTail | .bufferRate _
  | .getWriteAheadLength | .readRawData _ | .discardSamples _ | .writeRawData _ _ => False
  | _ => True

theorem ClientOp.perform_of_reading {w : World} (e : ClientOp) (a : AudioProvider) (h : e.Reading) :
    (e.perform w a).2 = a := by
  cases e <;> first | rfl | exact h.elim

namespace Slot

variable {α β : Type} {w : World} {a : AudioProvider}

/-- The slot returns, run without interruption. -/
abbrev Returns (w : World) (p : Slot α) (a : AudioProvider) : Prop :=
  p.Completes (ClientOp.perform w) a

@[simp] theorem returns_ask_bind {e : ClientOp} {f : e.Answer → Slot β} :
    (ask e >>= f).Returns w a ↔ (f (e.perform w a).1).Returns w (e.perform w a).2 := Iff.rfl

@[simp] theorem returns_ofExcept {r : Except Fault α} :
    (ofExcept r).Returns w a ↔ ∃ x, r = .ok x := by
  cases r with
  | ok x => simp [ofExcept]
  | error f => simp [ofExcept]

@[simp] theorem returns_ofExcept_bind {r : Except Fault α} {f : α → Slot β} :
    (ofExcept r >>= f).Returns w a ↔ ∃ x, r = .ok x ∧ (f x).Returns w a := by
  cases r with
  | ok x => simp [ofExcept]
  | error e => simp [ofExcept, Returns]

section Operations

variable {dir : Direction}

@[simp] theorem returns_opened_bind {f : Bool → Slot β} :
    (opened >>= f).Returns w a ↔ (f w.socketOpen).Returns w a := Iff.rfl

@[simp] theorem returns_connected_bind {f : Bool → Slot β} :
    (connected dir >>= f).Returns w a ↔ (f (a.endpoint dir).connected).Returns w a := Iff.rfl

@[simp] theorem returns_getActive :
    (getActive dir).Returns w a ↔ ∃ n, a.getActive dir = .ok n :=
  returns_ofExcept (r := a.getActive dir)

@[simp] theorem returns_rounded {x : Number} {n : ℤ} : (rounded x n).Returns w a := ⟨_, _, rfl⟩

@[simp] theorem returns_indexAfterRowChange_bind {f : ℤ → Slot β} :
    (indexAfterRowChange >>= f).Returns w a ↔ (f (w.answer .indexAfterRowChange)).Returns w a := Iff.rfl

end Operations

/-- A slot that reads, followed by one that returns or not whatever was read. -/
theorem returns_bind_of_reading {p : Slot α} {f : α → Slot β}
    (hp : p.Ensures ClientOp.Reading fun _ => True) {C : Prop} (hf : ∀ x, (f x).Returns w a ↔ C) :
    (p >>= f).Returns w a ↔ p.Returns w a ∧ C :=
  completes_bind_of_frame ClientOp.perform_of_reading hp fun x _ => hf x

end Slot

/-! ## The fields of each event -/

section Fields

variable {w : World} {a : AudioProvider} {key : String} {m : Message} {c : UwaVClient}

theorem reading_sioToString (m : Message) :
    (sioToString m).Ensures ClientOp.Reading fun _ => True := by
  cases m <;> simp [sioToString]

@[simp] theorem returns_sioToString : (sioToString m).Returns w a ↔ m.HasFlag anyFlag := by
  rw [Message.hasFlag_any_iff]
  cases m <;> simp [sioToString]
  exact ⟨_, _, rfl⟩

/-- The model is selected without a change to the items. -/
theorem reading_setModelIndex (index : ℤ) (c : UwaVClient) :
    (setModelIndex index c).Ensures ClientOp.Reading fun c' =>
      c'.comboModel.items = c.comboModel.items := by
  simp [setModelIndex, onComboModelCurrentIndexChanged, Combo.select]

theorem returns_setModelIndex (index : ℤ) (c : UwaVClient) : (setModelIndex index c).Returns w a := by
  unfold setModelIndex onComboModelCurrentIndexChanged
  dsimp only
  split_ifs
  · exact completes_pure
  · rw [bind_assoc, returns_opened_bind]
    split <;> exact ⟨_, _, rfl⟩

/-- A round of `selectModels`. -/
abbrev selectRound (m : Message) (c : UwaVClient) (i : ℕ) : Slot UwaVClient := do
  if (← sioToString m) = c.comboModel.itemText i then setModelIndex i c else return c

theorem reading_selectRound (m : Message) (c : UwaVClient) (i : ℕ) :
    (selectRound m c i).Ensures ClientOp.Reading fun c' =>
      c'.comboModel.items = c.comboModel.items := by
  refine ensures_bind.mpr ((reading_sioToString m).post fun text _ => ?_)
  simp only [ensures_ite, ensures_pure]
  exact ⟨fun _ => reading_setModelIndex i c, fun _ => trivial⟩

theorem returns_selectRound (m : Message) (c : UwaVClient) (i : ℕ) :
    (selectRound m c i).Returns w a ↔ m.HasFlag anyFlag := by
  rw [returns_bind_of_reading (C := True) (reading_sioToString m) fun text => ?_, and_true,
    returns_sioToString]
  split
  · exact iff_true_intro (returns_setModelIndex _ c)
  · exact iff_true_intro completes_pure

theorem reading_selectModels (m : Message) (c : UwaVClient) :
    (selectModels m c).Ensures ClientOp.Reading fun c' =>
      c'.comboModel.items = c.comboModel.items :=
  ensures_foldlM (fun c' i h => (reading_selectRound m c' i).post fun _ h' => h'.trans h) rfl

/-- A null pointer is met in the first round, if there is one. -/
theorem returns_selectModels (m : Message) (c : UwaVClient) :
    (selectModels m c).Returns w a ↔ (c.comboModel.items ≠ [] → m.HasFlag anyFlag) := by
  refine (completes_foldlM (I := fun _ => True) (C := fun _ => m.HasFlag anyFlag)
    ClientOp.perform_of_reading (fun c i _ => (reading_selectRound m c i).post fun _ _ => trivial)
    (fun c i _ => returns_selectRound m c i) trivial).trans ?_
  constructor
  · intro h hne
    exact h 0 (List.mem_range.mpr (List.length_pos_iff.mpr hne))
  · intro h i hi
    exact h (List.length_pos_iff.mp (Nat.zero_lt_of_lt (List.mem_range.mp hi)))

theorem reading_setParam (key : String) (m : Message) (c : UwaVClient) :
    (setParam key m c).Ensures ClientOp.Reading fun c' =>
      c'.comboModel.items = c.comboModel.items := by
  simp [setParam, reading_selectModels]

theorem returns_setParam : (setParam key m c).Returns w a ↔
    FieldConforms (paramKeys c.comboModel.items) key m ∧ ActiveKnown a key := by
  unfold setParam
  split_ifs with h₁ h₂ h₃ h₄ h₅ h₆ h₇ h₈ h₉
  · subst h₁
    rw [returns_selectModels]
    by_cases hitems : c.comboModel.items = [] <;>
      simp [FieldConforms, paramKeys, ActiveKnown, hitems]
  · rcases h₂ with rfl | rfl <;>
      simp [FieldConforms, paramKeys, ActiveKnown, ← Message.getString_ok_iff]
  · subst h₃
    simp [FieldConforms, paramKeys, ActiveKnown, ← Message.getDouble_ok_iff]
  · subst h₄
    simp [FieldConforms, paramKeys, ActiveKnown, ← Message.getDouble_ok_iff]
  · subst h₅
    simp [FieldConforms, paramKeys, ActiveKnown, ← Message.getDouble_ok_iff]
  · rcases h₆ with rfl | rfl | rfl <;>
      simp [FieldConforms, paramKeys, ActiveKnown, ← Message.getDouble_ok_iff]
  · rcases h₇ with rfl | rfl <;>
      simp [FieldConforms, paramKeys, ActiveKnown, ← Message.getInt_ok_iff]
  · subst h₈
    simp [FieldConforms, paramKeys, ActiveKnown, ← Message.getInt_ok_iff]
  · rcases h₉ with rfl | rfl | rfl | rfl <;>
      simp [FieldConforms, paramKeys, ActiveKnown, ← Message.getBool_ok_iff]
  · simp_all [FieldConforms, paramKeys, ActiveKnown]

theorem reading_startedField (key : String) (m : Message) (c : UwaVClient) :
    (startedField key m c).Ensures ClientOp.Reading fun _ => True := by
  simp [startedField, reading_sioToString]

theorem returns_startedField :
    (startedField key m c).Returns w a ↔ FieldConforms startedKeys key m := by
  unfold startedField
  split_ifs with h₁ h₂
  · rcases h₁ with rfl | rfl <;> simp [FieldConforms, startedKeys, ← Message.getInt_ok_iff]
  · subst h₂
    simp [FieldConforms, startedKeys]
  · simp_all [FieldConforms, startedKeys]

theorem returns_statusField :
    (statusField key m c).Returns w a ↔ FieldConforms statusKeys key m := by
  unfold statusField
  split_ifs with h
  · rcases h with rfl | rfl | rfl | rfl <;> simp [FieldConforms, statusKeys]
  · simp_all [FieldConforms, statusKeys]

theorem returns_pongField : (pongField key m c).Returns w a ↔ FieldConforms pongKeys key m := by
  unfold pongField
  split_ifs with h
  · subst h
    simp [FieldConforms, pongKeys, ← Message.getDouble_ok_iff]
  · simp_all [FieldConforms, pongKeys]

theorem audioOutField_ok_iff (found : ℤ × Option Bytes) :
    (∃ r, audioOutField found key m = .ok r) ↔ FieldConforms audioOutKeys key m := by
  unfold audioOutField
  split_ifs with h₁ h₂ h₃
  · subst h₁
    cases m <;> simp [FieldConforms, audioOutKeys, Message.HasFlag, anyFlag, Message.getFlag,
      Message.getInt, bind, Except.bind, pure, Except.pure]
  · subst h₂
    cases m <;> simp [FieldConforms, audioOutKeys, Message.HasFlag, anyFlag, Message.getFlag,
      Message.getBinary, bind, Except.bind, pure, Except.pure]
  · have hkey : audioOutKeys key = some anyFlag := by simp_all [audioOutKeys]
    cases m <;> simp [FieldConforms, hkey, Message.HasFlag, anyFlag, Message.getFlag,
      bind, Except.bind, pure, Except.pure]
  · simp_all [FieldConforms, audioOutKeys, pure, Except.pure]

theorem audioOutFields_ok_iff (fields : List (String × Message)) :
    (∃ r, audioOutFields fields = .ok r) ↔ Conforms audioOutKeys fields := by
  unfold audioOutFields
  generalize ((0, none) : ℤ × Option Bytes) = found
  induction fields generalizing found with
  | nil => exact iff_of_true ⟨found, rfl⟩ nofun
  | cons kv fields ih =>
    rw [List.foldlM_cons, Conforms, List.forall_mem_cons, ← audioOutField_ok_iff found]
    rcases audioOutField found kv.1 kv.2 with fault | next
    · exact iff_of_false (fun ⟨_, h⟩ => by cases h) fun ⟨⟨_, h⟩, _⟩ => by cases h
    · exact (ih next).trans (and_iff_right ⟨next, rfl⟩).symm

end Fields

/-! ## The events -/

section Events

variable {w : World} {a : AudioProvider} {messages : List Message} {c : UwaVClient}
  {fields : List (String × Message)}

theorem first_ok_iff {m : Message} : Message.first messages = .ok m ↔ messages.head? = some m := by
  cases messages <;> simp [Message.first]

theorem returns_withObject {body : List (String × Message) → Slot UwaVClient}
    {D : List (String × Message) → Prop} (hD : ∀ fields, (body fields).Returns w a ↔ D fields) :
    (withObject messages c body).Returns w a ↔ Brings messages D := by
  simp only [withObject, getFlag, returns_ofExcept_bind, first_ok_iff]
  refine exists_congr fun m => and_congr_right fun _ => ?_
  cases m <;> simp [Message.getFlag, Message.hasFlag_any_iff, Message.getMap, hD]

section Loops

variable {I : UwaVClient → Prop} {body : String → Message → UwaVClient → Slot UwaVClient}
  (hbody : ∀ key m c, I c → (body key m c).Ensures ClientOp.Reading I) (hc : I c)

include hbody hc

theorem returns_forFields {C : String → Message → Prop}
    (hC : ∀ key m c, I c → ((body key m c).Returns w a ↔ C key m)) :
    (forFields fields body c).Returns w a ↔ ∀ kv ∈ fields, C kv.1 kv.2 :=
  completes_foldlM (f := fun c (kv : String × Message) => body kv.1 kv.2 c)
    (C := fun kv => C kv.1 kv.2) ClientOp.perform_of_reading (fun c kv => hbody kv.1 kv.2 c)
    (fun c kv => hC kv.1 kv.2 c) hc

theorem reading_forFields : (forFields fields body c).Ensures ClientOp.Reading I :=
  ensures_foldlM (f := fun c (kv : String × Message) => body kv.1 kv.2 c)
    (fun c kv => hbody kv.1 kv.2 c) hc

/-- A loop over the fields followed by something that returns. -/
theorem returns_forFields_bind {C : String → Message → Prop} {f : UwaVClient → Slot UwaVClient}
    (hC : ∀ key m c, I c → ((body key m c).Returns w a ↔ C key m)) (hf : ∀ c, (f c).Returns w a) :
    (forFields fields body c >>= f).Returns w a ↔ ∀ kv ∈ fields, C kv.1 kv.2 := by
  have hread : (forFields fields body c).Ensures ClientOp.Reading fun _ => True :=
    (reading_forFields hbody hc).post fun _ _ => trivial
  rw [returns_bind_of_reading hread fun c => iff_true_intro (hf c), and_true]
  exact returns_forFields hbody hc hC

end Loops

theorem returns_onSetStatus :
    (onSetStatus messages c).Returns w a ↔ Brings messages (Conforms statusKeys) :=
  returns_withObject fun _ => returns_forFields (I := fun _ => True) (fun key m c _ => by
    simp [statusField, reading_sioToString]) trivial fun _ _ _ _ => returns_statusField

theorem returns_onSetParams : (onSetParams messages c).Returns w a ↔ Brings messages fun fields =>
    Conforms (paramKeys c.comboModel.items) fields ∧ ∀ kv ∈ fields, ActiveKnown a kv.1 :=
  returns_withObject fun fields => by
    have hread (key : String) (m : Message) (c' : UwaVClient)
        (hc' : c'.comboModel.items = c.comboModel.items) : (setParam key m c').Ensures ClientOp.Reading
          fun c'' => c''.comboModel.items = c.comboModel.items :=
      (reading_setParam key m c').post fun _ h => h.trans hc'
    have hfield (key : String) (m : Message) (c' : UwaVClient)
        (hc' : c'.comboModel.items = c.comboModel.items) : (setParam key m c').Returns w a ↔
          FieldConforms (paramKeys c.comboModel.items) key m ∧ ActiveKnown a key :=
      hc' ▸ returns_setParam
    rw [returns_forFields_bind hread rfl hfield fun _ => completes_pure]
    exact forall₂_and

theorem returns_saveConfig (withUi : Bool) (c : UwaVClient) : (saveConfig withUi c).Returns w a :=
  ⟨_, _, rfl⟩

theorem returns_onServerStarted :
    (onServerStarted messages c).Returns w a ↔ Brings messages (Conforms startedKeys) :=
  returns_withObject fun _ =>
    returns_forFields_bind (I := fun _ => True) (fun key m c _ => reading_startedField key m c) trivial
      (fun _ _ _ _ => returns_startedField) fun _ => returns_saveConfig true _

theorem returns_onPong :
    (onPong messages c).Returns w a ↔ Brings messages (Conforms pongKeys) :=
  returns_withObject fun _ => returns_forFields (I := fun _ => True)
    (fun key m c _ => by simp [pongField]) trivial fun _ _ _ _ => returns_pongField

theorem exists_fullArray {m : Message} :
    (∃ items, m.getVector = .ok items ∧ ∀ x ∈ items, x.HasFlag anyFlag) ↔ FullArray m := by
  cases m <;> simp [FullArray, Message.getVector]

theorem reading_getFlag (m : Message) : (getFlag m).Ensures ClientOp.Reading fun _ => True :=
  ensures_ofExcept.mpr fun _ _ => trivial

theorem returns_getFlag {m : Message} : (getFlag m).Returns w a ↔ m.HasFlag anyFlag :=
  returns_ofExcept.trans m.getFlag_ok_iff

/-- A loop over the items of an array followed by something that returns. -/
theorem returns_mapM_bind {α : Type} {p : Message → Slot α} {f : List α → Slot UwaVClient} {C : Prop}
    (hp : ∀ m, (p m).Ensures ClientOp.Reading fun _ => True)
    (hC : ∀ m, (p m).Returns w a ↔ m.HasFlag anyFlag) (hf : ∀ xs, (f xs).Returns w a ↔ C)
    {items : List Message} :
    (items.mapM p >>= f).Returns w a ↔ (∀ x ∈ items, x.HasFlag anyFlag) ∧ C := by
  rw [returns_bind_of_reading (ensures_mapM hp) hf]
  exact and_congr_left fun _ => completes_mapM ClientOp.perform_of_reading hp hC

theorem returns_selectModel (text : String) (c : UwaVClient) : (selectModel text c).Returns w a := by
  unfold selectModel
  split
  · exact returns_setModelIndex _ c
  · exact completes_pure

theorem returns_onListModels : (onListModels messages c).Returns w a ↔
    Brings messages fun fields => FullArray (Message.field fields "models") :=
  returns_withObject fun fields => by
    simp only [returns_ofExcept_bind, ← exists_fullArray]
    refine exists_congr fun items => and_congr_right fun _ => ?_
    refine (returns_mapM_bind (C := True) reading_sioToString (fun _ => returns_sioToString)
      fun xs => iff_true_intro ?_).trans (Iff.of_eq (and_true _))
    split_ifs
    all_goals first
      | exact completes_pure
      | exact returns_selectModel _ _
      | exact returns_setModelIndex _ _

theorem returns_onListDevices : (onListDevices messages c).Returns w a ↔ Brings messages fun fields =>
    FullArray (Message.field fields "input") ∧ FullArray (Message.field fields "output") :=
  returns_withObject fun fields => by
    simp only [returns_ofExcept_bind, ← exists_fullArray, ← exists_and_right, and_assoc]
    refine exists_congr fun inputs => and_congr_right fun _ => ?_
    refine returns_mapM_bind reading_getFlag (fun _ => returns_getFlag) fun _ => ?_
    rw [returns_ofExcept_bind]
    refine exists_congr fun outputs => and_congr_right fun _ => ?_
    exact (returns_mapM_bind (C := True) reading_getFlag (fun _ => returns_getFlag)
      fun _ => iff_true_intro completes_pure).trans (Iff.of_eq (and_true _))

theorem returns_onListCompute : (onListCompute messages c).Returns w a ↔ Brings messages fun fields =>
    fields = [] ∨ FullArray (Message.field fields "devices") :=
  returns_withObject fun fields => by
    split_ifs with hempty
    · exact iff_of_true completes_pure (.inl (List.isEmpty_iff.mp hempty))
    · have hne : fields ≠ [] := fun h => hempty (List.isEmpty_iff.mpr h)
      rw [or_iff_right hne, returns_ofExcept_bind, ← exists_fullArray]
      refine exists_congr fun devices => and_congr_right fun _ => ?_
      refine (returns_mapM_bind (C := True) reading_getFlag (fun _ => returns_getFlag)
        fun _ => iff_true_intro ?_).trans (Iff.of_eq (and_true _))
      exact returns_indexAfterRowChange_bind.mpr completes_pure

theorem returns_onMessage : (onMessage messages c).Returns w a ↔
    Brings messages fun fields => (Message.field fields "message").HasFlag anyFlag :=
  returns_withObject fun fields => by
    dsimp only
    cases Message.field fields "message" <;>
      simp [Message.getFlag, Message.getString, Message.hasFlag_any_iff, Except.toOption]

/-- The streams that are connected have buffers. -/
def AudioProvider.Buffered (a : AudioProvider) : Prop :=
  ∀ dir, (a.endpoint dir).connected → ∃ rb, (a.endpoint dir).data.buffer = some rb

theorem returns_writeRawData_bind {data : Bytes} {n : ℤ} {f : Unit → Slot UwaVClient}
    (hf : ∀ b, (f ()).Returns w b) (h : ∃ rb, a.output.data.buffer = some rb) :
    (Slot.writeRawData data n >>= f).Returns w a := by
  obtain ⟨rb, hrb⟩ := h
  rw [Slot.writeRawData, bind_assoc]
  refine returns_ask_bind.mpr (returns_ofExcept_bind.mpr ⟨(), ?_, hf _⟩)
  change (a.callBuffer .output _).1 = _
  simp only [AudioProvider.callBuffer, AudioProvider.buffer, AudioProvider.endpoint, hrb]

theorem returns_onSamplesReceived (ha : a.Buffered) :
    (onSamplesReceived (.object fields) c).Returns w a ↔
      (c.serverStarted → a.output.connected → Conforms audioOutKeys fields) := by
  unfold onSamplesReceived
  cases hstarted : c.serverStarted with
  | false => simp
  | true =>
    rw [Bool.not_true, if_neg Bool.false_ne_true, returns_connected_bind]
    change (if (!a.output.connected) = true then _ else _ : Slot UwaVClient).Returns w a ↔ _
    cases hconn : a.output.connected with
    | false => simp
    | true =>
      rw [Bool.not_true, if_neg Bool.false_ne_true, returns_ofExcept_bind, forall_prop_of_true rfl,
        forall_prop_of_true rfl, ← audioOutFields_ok_iff]
      refine Iff.trans ⟨fun ⟨_, hx, h⟩ => (by cases hx; exact h), fun h => ⟨fields, rfl, h⟩⟩ ?_
      rw [returns_ofExcept_bind]
      refine exists_congr fun found => and_iff_left ?_
      rcases found with ⟨count, _ | data⟩
      · exact completes_pure
      · dsimp only
        split_ifs
        · exact completes_pure
        · exact ⟨_, _, rfl⟩
        · exact returns_writeRawData_bind (fun _ => completes_pure) (ha .output hconn)

theorem returns_onAudioOut (ha : a.Buffered) : (onAudioOut messages c).Returns w a ↔
    Brings messages fun fields =>
      c.serverStarted → a.output.connected → Conforms audioOutKeys fields := by
  simp only [onAudioOut, getFlag, returns_ofExcept_bind, first_ok_iff]
  refine exists_congr fun m => and_congr_right fun _ => ?_
  cases m with
  | object fields =>
    simp only [Message.getFlag, Message.hasFlag_any_iff]
    simpa using returns_onSamplesReceived ha
  | _ => simp [Message.getFlag, Message.hasFlag_any_iff]

theorem returns_bind_of_forall {α β : Type} {p : Slot α} {f : α → Slot β} (hp : p.Returns w a)
    (hf : ∀ x b, (f x).Returns w b) : (p >>= f).Returns w a := by
  obtain ⟨x, b, hx⟩ := hp
  exact completes_bind.mpr ⟨x, b, hx, hf x b⟩

theorem returns_anyConnected (a : AudioProvider) : anyConnected.Returns w a := by
  rw [anyConnected, returns_connected_bind]
  split
  · exact completes_pure
  · exact ⟨_, _, rfl⟩

theorem returns_stopIfConnected (c : UwaVClient) (a : AudioProvider) :
    (stopIfConnected c).Returns w a :=
  returns_bind_of_forall (returns_anyConnected a) fun x b => by
    split
    · exact ⟨_, _, rfl⟩
    · exact completes_pure

theorem returns_uiServerDisconnect (c : UwaVClient) (a : AudioProvider) :
    (uiServerDisconnect c).Returns w a := by
  have hstop : ∀ c' b, (stopIfConnected c' >>= fun c =>
      pure { c with buttonConnect := true } : Slot UwaVClient).Returns w b := fun c' b =>
    returns_bind_of_forall (returns_stopIfConnected c' b) fun _ _ => completes_pure
  rw [uiServerDisconnect]
  refine returns_opened_bind.mpr ?_
  split
  · exact hstop _ a
  · exact hstop _ a

theorem returns_onServerExiting (c : UwaVClient) (a : AudioProvider) :
    (onServerExiting c).Returns w a :=
  returns_bind_of_forall (returns_stopIfConnected c a) fun _ b => returns_uiServerDisconnect _ b


/-- One event: what its handler needs is what is asked of the event. -/
theorem handled_iff {name : String} {p : Slot UwaVClient} {D : List (String × Message) → Prop}
    (hp : p.Returns w a ↔ Brings messages D) (hname : name ∈ messageEvents)
    (hD : ∀ fields, Digestible name fields c a = D fields) :
    p.Returns w a ↔ WellFormed name messages c a := by
  rw [hp, WellFormed, forall_prop_of_true hname, funext hD]

theorem handled_of_unread {name : String} {p : Slot UwaVClient} (hp : p.Returns w a)
    (hname : name ∉ messageEvents) : p.Returns w a ↔ WellFormed name messages c a :=
  iff_of_true hp fun h => absurd h hname

theorem returns_ite {P C : Prop} [Decidable P] {p q : Slot UwaVClient}
    (hp : P → (p.Returns w a ↔ C)) (hq : ¬P → (q.Returns w a ↔ C)) :
    (if P then p else q).Returns w a ↔ C := by
  split
  · exact hp ‹_›
  · exact hq ‹_›

/-- For every event and every list of messages, in every state in which connected streams have
buffers, the slot returns exactly when the messages have what the event needs. -/
theorem message_handled_iff (w : World) (name : String) (messages : List Message) (c : UwaVClient)
    (ha : a.Buffered) :
    (onSioMessage name messages c).Returns w a ↔ WellFormed name messages c a := by
  unfold onSioMessage
  refine returns_ite (fun h => ?_) fun h₁ => ?_
  · subst h
    exact handled_iff (returns_onAudioOut ha) (by decide) fun _ => by simp [Digestible]
  refine returns_ite (fun h => ?_) fun h₂ => ?_
  · subst h
    exact handled_iff returns_onSetStatus (by decide) fun _ => by simp [Digestible]
  refine returns_ite (fun h => ?_) fun h₃ => ?_
  · subst h
    exact handled_iff returns_onSetParams (by decide) fun _ => by simp [Digestible]
  refine returns_ite (fun h => ?_) fun h₄ => ?_
  · subst h
    exact handled_iff returns_onServerStarted (by decide) fun _ => by simp [Digestible]
  refine returns_ite (fun h => ?_) fun h₅ => ?_
  · subst h
    exact handled_of_unread ⟨_, _, rfl⟩ (by decide)
  refine returns_ite (fun h => ?_) fun h₆ => ?_
  · subst h
    exact handled_of_unread (returns_onServerExiting c a) (by decide)
  refine returns_ite (fun h => ?_) fun h₇ => ?_
  · subst h
    exact handled_iff returns_onListModels (by decide) fun _ => by simp [Digestible]
  refine returns_ite (fun h => ?_) fun h₈ => ?_
  · subst h
    exact handled_iff returns_onListDevices (by decide) fun _ => by simp [Digestible]
  refine returns_ite (fun h => ?_) fun h₉ => ?_
  · subst h
    exact handled_iff returns_onListCompute (by decide) fun _ => by simp [Digestible]
  refine returns_ite (fun h => ?_) fun h₁₀ => ?_
  · subst h
    exact handled_iff returns_onMessage (by decide) fun _ => by simp [Digestible]
  refine returns_ite (fun h => ?_) fun h₁₁ => ?_
  · subst h
    exact handled_iff returns_onPong (by decide) fun _ => by simp [Digestible]
  exact handled_of_unread completes_pure (by simp [messageEvents, *])

end Events

theorem message_handled_of_empty_message :
    (onSioMessage "MESSAGE" [.object [("message", .string "")]] {}).Returns .online {} := by
  have hbuffered : ({} : AudioProvider).Buffered := fun dir h => by cases dir <;> cases h
  refine (message_handled_iff .online "MESSAGE" _ {} hbuffered).mpr fun _ => ?_
  refine ⟨_, rfl, (Message.hasFlag_any_iff _).mpr nofun, ?_⟩
  rintro fields ⟨⟩
  exact (Message.hasFlag_any_iff _).mpr nofun

/-- Any event that brings no message at all is read past its end. -/
theorem message_unhandled_without_messages :
    ¬ (onSioMessage "SET_STATUS" [] {}).Returns .online {} := by
  rintro ⟨c, b, h⟩
  cases h

end UwavClient
