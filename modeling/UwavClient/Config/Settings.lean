import UwavClient.Client.State
import UwavClient.Library.Lines

/-!
# The lines of the settings file (`localconfig.cpp`)

All text is UTF-8 and everything that the code looks for in it is ASCII, so a `std::string` is the
list of its characters. The file assigns values to six keys, one assignment a line; `Load` reads it
with `ParseLine`, and so does `Save` to find the lines it has to replace.
-/

namespace UwavClient

abbrev Text := List Char

/-- `std::isspace` in the classic locale. -/
def isSpace (c : Char) : Bool :=
  c = ' ' || c = '\t' || c = '\n' || c = '\x0b' || c = '\x0c' || c = '\r'

/-! ## `u_sharedfunctions.h` -/

def removeLeading (s : Text) : Text := s.dropWhile isSpace

def removeTrailing (s : Text) : Text := s.rdropWhile isSpace

inductive Key where
  | uid
  | previousServers
  | inputDevice
  | outputDevice
  | inferDevice
  | modelName
  deriving DecidableEq, Repr

namespace Key

def name : Key → Text
  | uid => "uid".toList
  | previousServers => "previousServers".toList
  | inputDevice => "inputDevice".toList
  | outputDevice => "outputDevice".toList
  | inferDevice => "inferDevice".toList
  | modelName => "modelName".toList

def all : List Key := [uid, previousServers, inputDevice, outputDevice, inferDevice, modelName]

def ofName (s : Text) : Option Key := all.find? (·.name = s)

@[simp] theorem ofName_name (k : Key) : ofName k.name = some k := by
  cases k <;> decide

theorem name_plain (k : Key) : ∀ c ∈ k.name, c ≠ '#' ∧ c ≠ '=' ∧ c ≠ '\n' ∧ ¬isSpace c := by
  have hall : k.name.all fun c => c ≠ '#' && c ≠ '=' && c ≠ '\n' && !isSpace c := by
    cases k <;> decide
  simpa [and_assoc] using hall

end Key

/-- What `ParseLine` leaves of the line it is given: no comment, no surrounding whitespace. -/
def stripLine (cfgLine : Text) : Text := removeTrailing (removeLeading (cfgLine.takeWhile (· ≠ '#')))

/-- `LocalConfig::ParseLine`: the key and the value, if the line assigns to a known key, and the line
as the function leaves it. -/
def parseLine (cfgLine : Text) : Option (Key × Text) × Text :=
  let cfgLine := stripLine cfgLine
  if '=' ∈ cfgLine then
    let first := removeTrailing (cfgLine.takeWhile (· ≠ '='))
    let second := removeLeading (cfgLine.dropWhile (· ≠ '=')).tail
    ((Key.ofName first).map (·, second), cfgLine)
  else (none, cfgLine)

/-- The assignments in the lines of a file, in order. -/
def assignments (file : List Text) : List (Key × Text) := file.filterMap fun line => (parseLine line).1

namespace ConfigData

/-- What a line of the file sets, as `Load` reads it. -/
def assign (config : ConfigData) : Key × Text → ConfigData
  | (.uid, value) => { config with clientID := String.ofList value }
  | (key, value) =>
    if value = "none".toList then config
    else match key with
      | .inputDevice => { config with inputDevice := String.ofList value }
      | .outputDevice => { config with outputDevice := String.ofList value }
      | .inferDevice => { config with inferDevice := String.ofList value }
      | .modelName => { config with modelName := String.ofList value }
      | _ => config

end ConfigData

def assignment (k : Key) (value : Text) : Text := k.name ++ '=' :: value

/-! ## What `ParseLine` finds -/

theorem stripLine_eq (line : Text) : stripLine line = (line.takeWhile (· ≠ '#')).trim isSpace := rfl

theorem mem_of_mem_stripLine {line : Text} {c : Char} (hc : c ∈ stripLine line) :
    c ∈ line.takeWhile (· ≠ '#') :=
  (List.dropWhile_suffix _).subset ((List.rdropWhile_prefix _ _).subset hc)

@[simp] theorem stripLine_stripLine (line : Text) : stripLine (stripLine line) = stripLine line := by
  have hplain : (stripLine line).takeWhile (· ≠ '#') = stripLine line :=
    List.takeWhile_eq_self_iff.mpr fun c hc =>
      List.mem_takeWhile_imp (p := (· ≠ '#')) (mem_of_mem_stripLine hc)
  rw [stripLine_eq (stripLine line), hplain, stripLine_eq line, List.trim_trim]

@[simp] theorem parseLine_snd (line : Text) : (parseLine line).2 = stripLine line := by
  dsimp only [parseLine]
  split <;> rfl

theorem parseLine_stripLine (line : Text) : parseLine (stripLine line) = parseLine line := by
  unfold parseLine
  rw [stripLine_stripLine]

/-- A value without a comment sign that neither starts nor ends with whitespace. -/
structure Bare (value : Text) : Prop where
  plain : '#' ∉ value
  head : ∀ h : value ≠ [], ¬isSpace (value.head h)
  last : ∀ h : value ≠ [], ¬isSpace (value.getLast h)

theorem bare_stripLine (line : Text) : Bare (stripLine line) where
  plain h := by simpa using List.mem_takeWhile_imp (p := (· ≠ '#')) (mem_of_mem_stripLine h)
  head _ := List.head_trim _
  last h := List.rdropWhile_last_not _ _ h

theorem stripLine_eq_self_iff {line : Text} : stripLine line = line ↔ Bare line := by
  constructor
  · intro h
    exact h ▸ bare_stripLine line
  · intro h
    have htake : line.takeWhile (· ≠ '#') = line :=
      List.takeWhile_eq_self_iff.mpr fun c hc => decide_eq_true fun e => h.plain (e ▸ hc)
    rw [stripLine_eq, htake, List.trim_eq_self h.head h.last]

instance (line : Text) : Decidable (Bare line) := decidable_of_iff _ stripLine_eq_self_iff

/-- A line that was free of newlines stays so. -/
theorem newline_notMem_stripLine {line : Text} (h : '\n' ∉ line) : '\n' ∉ stripLine line :=
  fun hc => h ((List.takeWhile_prefix _).subset (mem_of_mem_stripLine hc))

theorem stripLine_assignment (k : Key) (value : Text) : stripLine (assignment k value) =
    assignment k (removeTrailing (value.takeWhile (· ≠ '#'))) := by
  have hname : ∀ c ∈ k.name, decide (c ≠ '#') := fun c hc => decide_eq_true (k.name_plain c hc).1
  have htake : (assignment k value).takeWhile (· ≠ '#') =
      assignment k (value.takeWhile (· ≠ '#')) := by
    rw [assignment, List.takeWhile_append_of_pos hname]
    rfl
  have hhead : ∀ v, removeLeading (assignment k v) = assignment k v := by
    intro v
    cases k <;> rfl
  rw [stripLine, htake, hhead, removeTrailing, assignment,
    List.rdropWhile_append_cons (by decide)]
  rfl

/-- An assignment parses to its key, and to its value as far as a comment and whitespace allow. -/
theorem parseLine_assignment (k : Key) (value : Text) : (parseLine (assignment k value)).1 =
    some (k, removeLeading (removeTrailing (value.takeWhile (· ≠ '#')))) := by
  have hname : ∀ c ∈ k.name, decide (c ≠ '=') := fun c hc => decide_eq_true (k.name_plain c hc).2.1
  have hfirst (v : Text) : removeTrailing ((assignment k v).takeWhile (· ≠ '=')) = k.name := by
    rw [assignment, List.takeWhile_append_of_pos hname]
    cases k <;> rfl
  have hsecond (v : Text) : ((assignment k v).dropWhile (· ≠ '=')).tail = v := by
    rw [assignment, List.dropWhile_append_of_pos hname]
    rfl
  have heq : '=' ∈ assignment k (removeTrailing (value.takeWhile (· ≠ '#'))) :=
    List.mem_append_right _ List.mem_cons_self
  rw [parseLine, stripLine_assignment]
  simp only [heq, if_true, hfirst, hsecond, Key.ofName_name, Option.map_some]

end UwavClient
