import UwavClient.Config.Filesystem

/-!
# Saving and loading the settings (`localconfig.cpp`)

`Save` renames `client.conf` to `client.conf.old`, writes a new `client.conf` from the lines of the
old one and the values in use, and removes the copy. `Load` reads `client.conf`, or makes up an id
and saves. The UI is a null pointer or the texts that `Save` takes from it.
-/

namespace UwavClient

/-! ## The server history -/

def isQtSpace (c : Char) : Bool :=
  let n := c.toNat
  (9 ≤ n && n ≤ 13) || n = 0x20 || n = 0x85 || n = 0xA0 || n = 0x1680 ||
    (0x2000 ≤ n && n ≤ 0x200A) || n = 0x2028 || n = 0x2029 || n = 0x202F || n = 0x205F || n = 0x3000

def trimmed (s : String) : Text := s.toList.trim isQtSpace

def U_SAVE_PREV_SERVERS : ℕ := 5

/-- The entries of the combo box are added to the history while there is room. -/
def addServers : List Text → List String → List Text
  | servers, [] => servers
  | servers, item :: items =>
    if servers.length < U_SAVE_PREV_SERVERS then
      let entry := trimmed item
      addServers (if entry ≠ [] ∧ entry ∉ servers then servers ++ [entry] else servers) items
    else servers

def serverHistory (ui : SavedTexts) : List Text :=
  let current := trimmed ui.currentServer
  addServers (if current ≠ [] then [current] else []) ui.servers

def serverHistoryString (ui : SavedTexts) : Text :=
  match serverHistory ui with
  | [] => "none".toList
  | servers => servers.flatMap (· ++ [';'])

def savedHistory (ui : Option SavedTexts) (skipHistory : Bool) : Option Text :=
  if skipHistory then none else ui.map serverHistoryString

/-! ## `LocalConfig::Save` -/

namespace ConfigData

/-- The value in use of a key; the configuration keeps no server history. -/
def text (config : ConfigData) : Key → Text
  | .uid => config.clientID.toList
  | .inputDevice => config.inputDevice.toList
  | .outputDevice => config.outputDevice.toList
  | .inferDevice => config.inferDevice.toList
  | .modelName => config.modelName.toList
  | .previousServers => "none".toList

/-- A line for the infer device or the model name is replaced from the UI, if it shows one. -/
def takeFromUi (ui : Option SavedTexts) (config : ConfigData) : Key → ConfigData
  | .inferDevice =>
    match ui with
    | some texts => if texts.inferDevice ≠ "" then { config with inferDevice := texts.inferDevice }
      else config
    | none => config
  | .modelName =>
    match ui with
    | some texts => if texts.modelName ≠ "" then { config with modelName := texts.modelName }
      else config
    | none => config
  | _ => config

end ConfigData

/-- The new file so far, and the keys it has lines for. -/
structure Rewriting where
  config : ConfigData
  out : Text := []
  seen : List Key := []
  deriving DecidableEq, Repr

namespace Rewriting

def writeLine (w : Rewriting) (line : Text) : Rewriting := { w with out := w.out ++ (line ++ ['\n']) }

def mark (w : Rewriting) (key : Key) : Rewriting := { w with seen := key :: w.seen }

def rewriteLine (ui : Option SavedTexts) (skipHistory : Bool) (w : Rewriting) (nextLine : Text) :
    Rewriting :=
  let (keyval, nextLine) := parseLine nextLine
  match keyval with
  | some (.previousServers, _) =>
    let line := (savedHistory ui skipHistory).elim nextLine (assignment .previousServers)
    (w.mark .previousServers).writeLine line
  | some (key, value) =>
    let config := w.config.takeFromUi ui key
    let line := if value ≠ config.text key then assignment key (config.text key) else nextLine
    ({ w with config }.mark key).writeLine line
  | none => w.writeLine nextLine

/-- The line for a key that the old file has no line for. -/
def appendMissing (ui : Option SavedTexts) (skipHistory : Bool) (w : Rewriting) (key : Key) :
    Rewriting :=
  let value := if key = .previousServers then (savedHistory ui skipHistory).getD "none".toList
    else w.config.text key
  if key ∈ w.seen then w else w.writeLine (assignment key value)

/-- The order in which missing lines are written. -/
def appended : List Key := [.uid, .inputDevice, .outputDevice, .inferDevice, .modelName, .previousServers]

end Rewriting

/-- The new file, from the lines of the old one. -/
def rewrite (ui : Option SavedTexts) (skipHistory : Bool) (config : ConfigData) (old : List Text) :
    Rewriting :=
  Rewriting.appended.foldl (Rewriting.appendMissing ui skipHistory)
    (old.foldl (Rewriting.rewriteLine ui skipHistory) { config })

namespace LocalConfig

open Files

/-- There is no settings file: the directory is made if need be, and a file is created and removed
to see whether that is possible. -/
def attemptCreate : Files Bool := do
  let path ← if ← directoryExists then pure true else createDirectories
  if path then
    if ← testWrite then remove .conf else return false
  else return false

/-- A stale copy is removed, and the settings file becomes the copy. -/
def shadowCopy (skipOverwrite : Bool) : Files Bool := do
  let clean ← if ← fileExists .old then remove .old else pure true
  if clean then
    if skipOverwrite then return true else rename
  else return false

/-- The new file is written and the copy removed; the stream is closed by its destructor. -/
def finishSettings (new : Rewriting) : Files ConfigData := do
  write new.out
  if ← remove .old then
    close
    return new.config
  else throw .filesystemError

def writeSettings (ui : Option SavedTexts) (skipHistory skipOverwrite : Bool) (config : ConfigData) :
    Files ConfigData := do
  let _ ← openRead .old
  if ← openWrite then
    let old ← if skipOverwrite then pure [] else getlines
    finishSettings (rewrite ui skipHistory config old)
  else return config

/-- `LocalConfig::Save`; the configuration may change with it. -/
def save (ui : Option SavedTexts) (skipHistory : Bool) (config : ConfigData) : Files ConfigData := do
  let skipOverwrite := !(← fileExists .conf)
  let ready ← if skipOverwrite then attemptCreate else pure true
  let ready ← if ready then shadowCopy skipOverwrite else pure false
  if ready then writeSettings ui skipHistory skipOverwrite config else return config

/-! ## `LocalConfig::Load` -/

/-- One assignment. With a UI the server history is split, which starts with its last character. -/
def loadSetting (withUi : Bool) (config : ConfigData) (keyval : Key × Text) : Except Abort ConfigData :=
  if withUi ∧ keyval = (.previousServers, []) then throw .outOfRange else return config.assign keyval

def load (ui : Option SavedTexts) (config : ConfigData) : Files ConfigData := do
  if ← openRead .conf then
    let file ← getlines
    Files.ofExcept ((assignments file).foldlM (loadSetting ui.isSome) config)
  else
    let clientID ← generateLocalUID
    save ui ui.isNone { config with
      clientID
      inputDevice := "none"
      outputDevice := "none" }

def getClientID (config : ConfigData) : Files ConfigData := do
  if config.clientID = "" then
    let newid ← generateLocalUID
    save none true { config with clientID := newid }
  else return config

end LocalConfig

end UwavClient
