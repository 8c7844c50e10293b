import UwavClient.Library.Program
import UwavClient.Library.Circular
import UwavClient.Library.Binary64

/-!
# The ring buffer (`u_ringbuffer.h`, `u_ringbuffer.cpp`)

Each member function is a program over the accesses the C++ makes to the object: loads, stores and
read-modify-writes of its `std::atomic` fields, the `memcpy`s between its array and a caller's block,
and the warnings it logs. `URingBuffer.call` runs such a program without interruption; the
interleaving model executes the same programs one access at a time. An `int` is an integer; positions
and sizes stay far below `2 ^ 31`. `sizeof(float)` is 4.
-/

namespace UwavClient

abbrev Bytes := List UInt8

/-- `U_OUTPUT_PREFILL`, the double nearest to 0.005. -/
def outputPrefill : Binary64.Constant := ⟨5764607523034235, 60, by decide⟩

/-- The plain members, which only the constructor sets. -/
structure RingLayout where
  sampleRate : ℤ
  prefillNumSamples : ℤ
  bufferSize : ℤ
  deriving DecidableEq, Repr

structure URingBuffer extends RingLayout where
  readPos : ℤ
  writePos : ℤ
  writeAheadWindow : ℤ
  readsSinceLastWarn : ℤ
  writesSinceLastWarn : ℤ
  prefillComplete : Bool
  buffer : Bytes
  warnings : List String
  deriving DecidableEq, Repr

/-- The `std::atomic<int>` members. -/
inductive IntField where
  | readPos
  | writePos
  | writeAheadWindow
  | readsSinceLastWarn
  | writesSinceLastWarn
  deriving DecidableEq, Repr

namespace URingBuffer

def get (rb : URingBuffer) : IntField → ℤ
  | .readPos => rb.readPos
  | .writePos => rb.writePos
  | .writeAheadWindow => rb.writeAheadWindow
  | .readsSinceLastWarn => rb.readsSinceLastWarn
  | .writesSinceLastWarn => rb.writesSinceLastWarn

def set (rb : URingBuffer) : IntField → ℤ → URingBuffer
  | .readPos, v => { rb with readPos := v }
  | .writePos, v => { rb with writePos := v }
  | .writeAheadWindow, v => { rb with writeAheadWindow := v }
  | .readsSinceLastWarn, v => { rb with readsSinceLastWarn := v }
  | .writesSinceLastWarn, v => { rb with writesSinceLastWarn := v }

end URingBuffer

/-- One access to the object. `copyIn pos src off n` is
`memcpy(&buffer[pos * sizeof(float)], src + off * sizeof(float), n * sizeof(float))` and `copyOut`
the copy in the other direction. -/
inductive RingOp where
  | load (x : IntField)
  | store (x : IntField) (v : ℤ)
  | add (x : IntField) (v : ℤ)
  | loadPrefillComplete
  | storePrefillComplete (b : Bool)
  | copyIn (pos : ℤ) (src : Bytes) (off n : ℤ)
  | copyOut (pos n : ℤ)
  | qWarning (text : String)

def RingOp.Answer : RingOp → Type
  | .load _ => ℤ
  | .loadPrefillComplete => Bool
  | .copyOut _ _ => Bytes
  | _ => Unit

/-- The bytes `src + off * sizeof(float)` onwards that a copy of `n` samples reads. -/
def sourceBytes (src : Bytes) (off n : ℤ) : Bytes :=
  Circular.slice src (4 * off.toNat) (4 * n.toNat)

def ringHandler : Handler RingOp RingOp.Answer URingBuffer
  | .load x, rb => (rb.get x, rb)
  | .store x v, rb => ((), rb.set x v)
  | .add x v, rb => ((), rb.set x (rb.get x + v))
  | .loadPrefillComplete, rb => (rb.prefillComplete, rb)
  | .storePrefillComplete b, rb => ((), { rb with prefillComplete := b })
  | .copyIn pos src off n, rb => ((), { rb with
      buffer := Circular.splice rb.buffer (4 * pos.toNat) (sourceBytes src off n) })
  | .copyOut pos n, rb => (Circular.slice rb.buffer (4 * pos.toNat) (4 * n.toNat), rb)
  | .qWarning text, rb => ((), { rb with warnings := rb.warnings ++ [text] })

abbrev RingProgram := Program RingOp RingOp.Answer

/-- The destination block of a read: zeros, or samples copied out of the buffer. -/
inductive ReadBlock where
  | silence (count : ℤ)
  | samples (bytes : Bytes)
  deriving DecidableEq, Repr

def ReadBlock.bytes : ReadBlock → Bytes
  | .silence count => List.replicate (4 * count.toNat) 0
  | .samples bytes => bytes

namespace Ring

open Program

def access (e : RingOp) : RingProgram e.Answer := perform e

def load (x : IntField) : RingProgram ℤ := access (.load x)
def store (x : IntField) (v : ℤ) : RingProgram Unit := access (.store x v)
def add (x : IntField) (v : ℤ) : RingProgram Unit := access (.add x v)
def loadPrefillComplete : RingProgram Bool := access .loadPrefillComplete
def storePrefillComplete (b : Bool) : RingProgram Unit := access (.storePrefillComplete b)
def copyIn (pos : ℤ) (src : Bytes) (off n : ℤ) : RingProgram Unit := access (.copyIn pos src off n)
def copyOut (pos n : ℤ) : RingProgram Bytes := access (.copyOut pos n)
def qWarning (text : String) : RingProgram Unit := access (.qWarning text)

/-- `if (x < sampleRate) x += count;` on one of the warning counters. -/
def countSinceWarn (l : RingLayout) (x : IntField) (count : ℤ) : RingProgram Unit := do
  if (← load x) < l.sampleRate then add x count

/-- `if (x >= sampleRate) { qWarning(text); x = 0; }` on one of the warning counters. -/
def warnLimited (l : RingLayout) (x : IntField) (text : String) : RingProgram Unit := do
  if l.sampleRate ≤ (← load x) then
    qWarning text
    store x 0

/-- `if (!prefillComplete && writeAheadWindow >= prefillNumSamples) prefillComplete = true;` -/
def completePrefill (l : RingLayout) : RingProgram Unit := do
  if !(← loadPrefillComplete) then
    if l.prefillNumSamples ≤ (← load .writeAheadWindow) then storePrefillComplete true

/-- `if (writeAheadWindow <= 0) prefillComplete = false;` -/
def restartPrefill : RingProgram Unit := do
  if (← load .writeAheadWindow) ≤ 0 then storePrefillComplete false

/-- `if (x == bufferSize) x = 0;` on one of the positions. -/
def wrapPos (l : RingLayout) (x : IntField) : RingProgram Unit := do
  if (← load x) = l.bufferSize then store x 0

/-- The accepted straight branch of both write functions. -/
def writeStraight (l : RingLayout) (src : Bytes) (count : ℤ) : RingProgram Unit := do
  copyIn (← load .writePos) src 0 count
  add .writePos count
  add .writeAheadWindow count
  wrapPos l .writePos
  completePrefill l

/-- The accepted wraparound branch of both write functions. -/
def writeWrapped (l : RingLayout) (src : Bytes) (count : ℤ) : RingProgram Unit := do
  let writeToEnd := l.bufferSize - (← load .writePos)
  copyIn (← load .writePos) src 0 writeToEnd
  copyIn 0 src writeToEnd (count - writeToEnd)
  store .writePos (count - writeToEnd)
  add .writeAheadWindow count
  completePrefill l

/-- The copy and the updates that both read functions make in their straight branch. -/
def takeStraight (count : ℤ) : RingProgram Bytes := do
  let samples ← copyOut (← load .readPos) count
  add .readPos count
  add .writeAheadWindow (-count)
  return samples

/-- The copies and the updates that both read functions make in their wraparound branch. -/
def takeWrapped (l : RingLayout) (count : ℤ) : RingProgram Bytes := do
  let readToEnd := l.bufferSize - (← load .readPos)
  let first ← copyOut (← load .readPos) readToEnd
  let second ← copyOut 0 (count - readToEnd)
  store .readPos (count - readToEnd)
  add .writeAheadWindow (-count)
  return first ++ second

def pipewireOverflow : String := "Unable to process pipewire data into buffer! (Overflow)"

def writeAudioData (l : RingLayout) (samples : Bytes) (count : ℤ) : RingProgram Unit := do
  countSinceWarn l .writesSinceLastWarn count
  if (← load .writePos) + count ≤ l.bufferSize then
    if (← load .writeAheadWindow) + count ≤ l.bufferSize then writeStraight l samples count
    else warnLimited l .writesSinceLastWarn pipewireOverflow
  else if (← load .writeAheadWindow) + count ≤ l.bufferSize then writeWrapped l samples count
  else warnLimited l .writesSinceLastWarn pipewireOverflow

/-- `count > writeAheadWindow || !prefillComplete`, evaluated left to right. -/
def readWithheld (count : ℤ) : RingProgram Bool := do
  if (← load .writeAheadWindow) < count then return true
  return !(← loadPrefillComplete)

/-- `if (readsSinceLastWarn >= sampleRate && prefillComplete) readsSinceLastWarn = 0;`, the underflow
branch of `readAudioData` with its warning suppressed. -/
def silencedRead (l : RingLayout) : RingProgram Unit := do
  if l.sampleRate ≤ (← load .readsSinceLastWarn) then
    if ← loadPrefillComplete then store .readsSinceLastWarn 0

def readAudioData (l : RingLayout) (count : ℤ) : RingProgram ReadBlock := do
  countSinceWarn l .readsSinceLastWarn count
  if ← readWithheld count then
    silencedRead l
    return .silence count
  else if (← load .readPos) + count ≤ l.bufferSize then
    let samples ← takeStraight count
    wrapPos l .readPos
    restartPrefill
    return .samples samples
  else
    let samples ← takeWrapped l count
    restartPrefill
    return .samples samples

/-- Unlike `readAudioData`, the straight branch leaves `readPos` at `bufferSize` when it ends there,
and neither branch touches `prefillComplete`. -/
def readRawData (l : RingLayout) (count : ℤ) : RingProgram ReadBlock := do
  countSinceWarn l .readsSinceLastWarn count
  if (← load .writeAheadWindow) < count then
    warnLimited l .readsSinceLastWarn "Unable to provide raw data from buffer! (Underflow)"
    return .silence count
  else if (← load .readPos) + count ≤ l.bufferSize then
    return .samples (← takeStraight count)
  else
    return .samples (← takeWrapped l count)

def writeRawData (l : RingLayout) (binData : Bytes) (count : ℤ) : RingProgram Unit := do
  countSinceWarn l .writesSinceLastWarn count
  if l.bufferSize < (← load .writeAheadWindow) + count then
    warnLimited l .writesSinceLastWarn "Unable to write raw data to buffer! (Overflow)"
  else if (← load .writePos) + count ≤ l.bufferSize then writeStraight l binData count
  else writeWrapped l binData count

def discardSamples (l : RingLayout) (count : ℤ) : RingProgram Unit := do
  if (← load .writeAheadWindow) < count then
    store .readPos 0
    store .writePos 0
    store .writeAheadWindow 0
    storePrefillComplete false
  else if (← load .readPos) + count ≤ l.bufferSize then
    add .readPos count
    add .writeAheadWindow (-count)
    wrapPos l .readPos
    restartPrefill
  else
    let readToEnd := l.bufferSize - (← load .readPos)
    store .readPos (count - readToEnd)
    add .writeAheadWindow (-count)
    restartPrefill

def getWriteAheadLength : RingProgram ℤ := load .writeAheadWindow

end Ring

namespace URingBuffer

def ofSampleRate (sampleRate : ℤ) : URingBuffer :=
  let prefillNumSamples := Binary64.mulTruncInt outputPrefill sampleRate
  let bufferSize := sampleRate.tdiv 2 + prefillNumSamples
  { sampleRate, prefillNumSamples, bufferSize
    readPos := 0
    writePos := 0
    writeAheadWindow := 0
    readsSinceLastWarn := sampleRate
    writesSinceLastWarn := sampleRate
    prefillComplete := false
    buffer := List.replicate (4 * bufferSize.toNat) 0
    warnings := [] }

variable {α : Type}

/-- A member function called on its own: the value returned and the object afterwards. -/
def call (rb : URingBuffer) (p : RingLayout → RingProgram α) : α × URingBuffer :=
  (p rb.toRingLayout).run ringHandler rb

def writeAudioData (rb : URingBuffer) (samples : Bytes) (count : ℤ) : URingBuffer :=
  (rb.call (Ring.writeAudioData · samples count)).2

def writeRawData (rb : URingBuffer) (binData : Bytes) (count : ℤ) : URingBuffer :=
  (rb.call (Ring.writeRawData · binData count)).2

def readAudioData (rb : URingBuffer) (count : ℤ) : ReadBlock × URingBuffer :=
  rb.call (Ring.readAudioData · count)

def readRawData (rb : URingBuffer) (count : ℤ) : ReadBlock × URingBuffer :=
  rb.call (Ring.readRawData · count)

def discardSamples (rb : URingBuffer) (count : ℤ) : URingBuffer :=
  (rb.call (Ring.discardSamples · count)).2

def getWriteAheadLength (rb : URingBuffer) : ℤ := rb.writeAheadWindow

end URingBuffer

end UwavClient
