import UwavClient.Config.Settings
import UwavClient.Library.Raising

/-!
# The filesystem under the settings

`LocalConfig` works on two files of one directory, `client.conf` and its shadow copy
`client.conf.old`. Each of its calls may fail, and the process may die between any two of them. What
is written to a stream reaches the file when the stream is closed; before that any part of it may
have got there.
-/

namespace UwavClient

inductive File where
  | conf
  | old
  deriving DecidableEq, Repr

structure Folder where
  conf : Option Text := none
  old : Option Text := none
  deriving DecidableEq, Repr

namespace Folder

def get (d : Folder) : File → Option Text
  | .conf => d.conf
  | .old => d.old

def set (d : Folder) (text : Option Text) : File → Folder
  | .conf => { d with conf := text }
  | .old => { d with old := text }

end Folder

/-- The directory, if there is one, and the streams of the process. -/
structure Process where
  folder : Option Folder
  reader : List Text := []
  writer : Text := []
  generated : Bool := false
  deriving DecidableEq, Repr

namespace Process

def get (s : Process) (f : File) : Option Text := s.folder.bind (·.get f)

def put (s : Process) (f : File) (text : Option Text) : Process :=
  { s with folder := s.folder.map (·.set text f) }

end Process

inductive FileOp where
  | fileExists (f : File)
  | directoryExists
  | createDirectories
  | testWrite
  | remove (f : File)
  | rename
  | openRead (f : File)
  | getlines
  | openWrite
  | write (text : Text)
  | close
  | generateLocalUID
  deriving DecidableEq

/-- Why a function of `LocalConfig` does not return. -/
inductive Abort where
  | filesystemError
  | outOfRange
  deriving DecidableEq, Repr

/-- `std::filesystem::exists` throws when it fails; the other calls report. -/
def FileOp.Answer : FileOp → Type
  | .fileExists _ | .directoryExists => Except Abort Bool
  | .getlines => List Text
  | .write _ | .close => Unit
  | .generateLocalUID => String
  | _ => Bool

inductive Fate where
  | works
  | fails
  deriving DecidableEq, Repr

/-- How a run goes wrong: the fates of its calls, one after the other, up to the death of the
process; how many lines a failing read delivers; and how many characters of what was written have
reached the file when the stream is not closed properly. -/
structure Interruption where
  fates : List Fate
  linesRead : ℕ
  flushed : ℕ
  deriving DecidableEq, Repr

def filesystem (newid : String) (linesRead flushed : ℕ) :
    Fate → Handler FileOp FileOp.Answer Process
  | .works, .fileExists f, s => (.ok (s.get f).isSome, s)
  | .works, .directoryExists, s => (.ok s.folder.isSome, s)
  | .works, .createDirectories, s => (true, { s with folder := some (s.folder.getD {}) })
  | .works, .testWrite, s => (s.folder.isSome, s.put .conf (some ['#']))
  | .works, .remove f, s => (true, s.put f none)
  | .works, .rename, s =>
    match s.get .conf with
    | some text => (true, (s.put .old (some text)).put .conf none)
    | none => (false, s)
  | .works, .openRead f, s =>
    ((s.get f).isSome, { s with reader := ((s.get f).getD []).lines '\n' })
  | .works, .getlines, s => (s.reader, { s with reader := [] })
  | .works, .openWrite, s => (s.folder.isSome, { s.put .conf (some []) with writer := [] })
  | .works, .write text, s =>
    let text := s.writer ++ text
    ((), { s.put .conf (some (text.take flushed)) with writer := text })
  | .works, .close, s => ((), s.put .conf (some s.writer))
  | .fails, .fileExists _, s | .fails, .directoryExists, s => (.error .filesystemError, s)
  | .fails, .createDirectories, s | .fails, .testWrite, s | .fails, .remove _, s
  | .fails, .rename, s | .fails, .openWrite, s => (false, s)
  | .fails, .openRead _, s => (false, { s with reader := [] })
  | .fails, .getlines, s => (s.reader.take linesRead, { s with reader := [] })
  -- the stream takes no more after the failure
  | .fails, .write text, s =>
    let text := (s.writer ++ text).take flushed
    ((), { s.put .conf (some text) with writer := text })
  | .fails, .close, s => ((), s)
  | _, .generateLocalUID, s => (newid, { s with generated := true })

abbrev Files := ExceptT Abort (Program FileOp FileOp.Answer)

namespace Files

variable {α : Type}

def ask (e : FileOp) : Files e.Answer := ExceptT.lift (Program.perform e)

def ofExcept : Except Abort α → Files α
  | .ok a => pure a
  | .error e => throw e

def fileExists (f : File) : Files Bool := do ofExcept (← ask (.fileExists f))
def directoryExists : Files Bool := do ofExcept (← ask .directoryExists)
def createDirectories : Files Bool := ask .createDirectories
def testWrite : Files Bool := ask .testWrite
def remove (f : File) : Files Bool := ask (.remove f)
def rename : Files Bool := ask .rename
def openRead (f : File) : Files Bool := ask (.openRead f)
def getlines : Files (List Text) := ask .getlines
def openWrite : Files Bool := ask .openWrite
def write (text : Text) : Files Unit := ask (.write text)
def close : Files Unit := ask .close
def generateLocalUID : Files String := ask .generateLocalUID

end Files

end UwavClient
