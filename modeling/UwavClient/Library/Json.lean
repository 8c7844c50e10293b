import Mathlib.Data.List.TakeWhile
import Mathlib.Algebra.Group.Int.Defs
import Mathlib.Algebra.Group.Nat.Defs
import Mathlib.Data.Int.Notation
import Mathlib.Order.Basic

/-!
# JSON text: a writer and a recursive-descent reader

A text is a list of code units, and ends at its first NUL. Code units from 32 on are copied, so that
nothing depends on their encoding except what an escape `\u` stands for, which is UTF-8. Integers are
kept apart from other numbers, whose type `D` and decimal texts are parameters. A reader of this kind
goes on after a bad digit in an escape; it is lost when it then meets a second error or the end.
-/

namespace Json

inductive Value (D : Type) where
  | null
  | bool (b : Bool)
  | int (n : ℤ)
  | double (d : D)
  | string (s : List Char)
  | array (items : List (Value D))
  | object (members : List (List Char × Value D))

/-- How a number that is no integer is written, and what the reader makes of a literal; nothing if it
is out of range. -/
structure DoubleCodec (D : Type) where
  write : D → List Char
  read : List Char → Option D

variable {D : Type} (w : DoubleCodec D)

/-! ## The writer -/

/-- The letter that follows the backslash. -/
def escapeLetter (c : Char) : Option Char :=
  if c = '"' ∨ c = '\\' then some c
  else if c = '\x08' then some 'b'
  else if c = '\x0c' then some 'f'
  else if c = '\n' then some 'n'
  else if c = '\r' then some 'r'
  else if c = '\t' then some 't'
  else none

def hexDigit (n : ℕ) : Char := Char.ofNat (if n < 10 then '0'.toNat + n else 'A'.toNat + (n - 10))

def writeChar (c : Char) : List Char :=
  match escapeLetter c with
  | some e => ['\\', e]
  | none =>
    if c.toNat < 32 then ['\\', 'u', '0', '0', hexDigit (c.toNat / 16), hexDigit (c.toNat % 16)]
    else [c]

def writeString (s : List Char) : List Char := '"' :: (s.flatMap writeChar ++ ['"'])

def writeInt (n : ℤ) : List Char :=
  if n < 0 then '-' :: Nat.toDigits 10 n.natAbs else Nat.toDigits 10 n.natAbs

mutual

def write : Value D → List Char
  | .null => ['n', 'u', 'l', 'l']
  | .bool true => ['t', 'r', 'u', 'e']
  | .bool false => ['f', 'a', 'l', 's', 'e']
  | .int n => writeInt n
  | .double d => w.write d
  | .string s => writeString s
  | .array items => '[' :: (writeItems items ++ [']'])
  | .object members => '{' :: (writeMembers members ++ ['}'])

def writeItems : List (Value D) → List Char
  | [] => []
  | [v] => write v
  | v :: u :: vs => write v ++ ',' :: writeItems (u :: vs)

def writeMembers : List (List Char × Value D) → List Char
  | [] => []
  | [(k, v)] => writeString k ++ ':' :: write v
  | (k, v) :: m :: ms => writeString k ++ ':' :: (write v ++ ',' :: writeMembers (m :: ms))

end

/-! ## The reader

Every function returns what it read and the rest of the text. -/

/-- Why there is no value: the text has an error, or the reader has broken on it, by an assertion
against a second error or by running past the end. -/
inductive Failure where
  | syntaxError
  | broken
  deriving DecidableEq, Repr

def isWhitespace (c : Char) : Bool := c = ' ' || c = '\n' || c = '\r' || c = '\t'

def skipWhitespace (s : List Char) : List Char := s.dropWhile isWhitespace

/-- The text after a word it must start with. -/
def skipWord (word s : List Char) : Except Failure (List Char) :=
  if word <+: s then .ok (s.drop word.length) else .error .syntaxError

/-- The character that an escape letter stands for. -/
def unescape (c : Char) : Option Char :=
  if c = '"' ∨ c = '\\' ∨ c = '/' then some c
  else if c = 'b' then some '\x08'
  else if c = 'f' then some '\x0c'
  else if c = 'n' then some '\n'
  else if c = 'r' then some '\r'
  else if c = 't' then some '\t'
  else none

def hexValue (c : Char) : Option ℕ :=
  if '0' ≤ c ∧ c ≤ '9' then some (c.toNat - '0'.toNat)
  else if 'A' ≤ c ∧ c ≤ 'F' then some (c.toNat - 'A'.toNat + 10)
  else if 'a' ≤ c ∧ c ≤ 'f' then some (c.toNat - 'a'.toNat + 10)
  else none

/-- Why an escape stands for nothing: it is none, it has a character that is no hexadecimal digit,
after which reading goes on, or the reader breaks on it. -/
inductive BadEscape where
  | unknown
  | digit (rest : List Char)
  | broken

/-- Hexadecimal digits, in the order they stand; `n` is the value of those before. -/
def readHex (n : ℕ) : ℕ → List Char → Except BadEscape (ℕ × List Char)
  | 0, s => .ok (n, s)
  | _ + 1, [] => .error .broken
  | count + 1, c :: s =>
    match hexValue c with
    | some v => readHex (n * 16 + v) count s
    | none => .error (.digit s)

/-- The code units of a code point. -/
def utf8 (n : ℕ) : List Char :=
  if n ≤ 0x7F then [Char.ofNat n]
  else if n ≤ 0x7FF then [Char.ofNat (0xC0 + n / 64), Char.ofNat (0x80 + n % 64)]
  else if n ≤ 0xFFFF then
    [Char.ofNat (0xE0 + n / 4096), Char.ofNat (0x80 + n / 64 % 64), Char.ofNat (0x80 + n % 64)]
  else
    [Char.ofNat (0xF0 + n / 262144), Char.ofNat (0x80 + n / 4096 % 64),
      Char.ofNat (0x80 + n / 64 % 64), Char.ofNat (0x80 + n % 64)]

/-- The low surrogate that a high one needs. A bad digit in it is a second error at once. -/
def readLowSurrogate (s : List Char) : Except BadEscape (ℕ × List Char) :=
  if ['\\', 'u'] <+: s then
    match readHex 0 4 (s.drop 2) with
    | .ok (n, s) => if 0xDC00 ≤ n ∧ n ≤ 0xDFFF then .ok (n - 0xDC00, s) else .error .unknown
    | .error _ => .error .broken
  else .error .unknown

/-- What follows a backslash. -/
def readEscape : List Char → Except BadEscape (List Char × List Char)
  | [] => .error .unknown
  | c :: s =>
    if c = 'u' then do
      let (n, s) ← readHex 0 4 s
      if 0xD800 ≤ n ∧ n ≤ 0xDBFF then
        let (low, s) ← readLowSurrogate s
        return (utf8 ((n - 0xD800) * 1024 + low + 0x10000), s)
      else return (utf8 n, s)
    else match unescape c with
      | some c => .ok ([c], s)
      | none => .error .unknown

/-- The rest of a string whose opening quote has been read; `failed` says that it had a bad digit.
Every round takes a character. -/
def readString : ℕ → Bool → List Char → Except Failure (List Char × List Char)
  | 0, _, _ => .error .syntaxError
  | fuel + 1, failed, s =>
    let failure : Failure := if failed then .broken else .syntaxError
    match s with
    | [] => .error failure
    | c :: s =>
      if c = '"' then if failed then .error .syntaxError else .ok ([], s)
      else if c = '\\' then
        match readEscape s with
        | .ok (cs, s) => do
          let (t, s) ← readString fuel failed s
          return (cs ++ t, s)
        | .error .unknown => .error failure
        | .error (.digit s) => if failed then .error .broken else readString fuel true s
        | .error .broken => .error .broken
      else if c.toNat < 32 then .error failure
      else do
        let (t, s) ← readString fuel failed s
        return (c :: t, s)

/-- The digits of an integer; after a leading zero there is none. -/
def readDigits (s : List Char) : List Char :=
  if s.head? = some '0' then ['0'] else s.takeWhile Char.isDigit

/-- A decimal point must be followed by a digit. -/
def readFraction : List Char → Except Failure (List Char)
  | [] => .ok []
  | c :: s =>
    if c = '.' then
      if s.takeWhile Char.isDigit = [] then .error .syntaxError
      else .ok ('.' :: s.takeWhile Char.isDigit)
    else .ok []

def readExponent : List Char → Except Failure (List Char)
  | [] => .ok []
  | c :: s =>
    if c = 'e' ∨ c = 'E' then
      let sign := (s.take 1).filter fun c => c = '+' || c = '-'
      let digits := (s.drop sign.length).takeWhile Char.isDigit
      if digits = [] then .error .syntaxError else .ok (c :: (sign ++ digits))
    else .ok []

/-- An integer of 64 bits stays one; larger ones are read as the others. -/
def readNumber (s : List Char) : Except Failure (Value D × List Char) := do
  let sign := (s.take 1).filter (· = '-')
  let digits := readDigits (s.drop sign.length)
  if digits = [] then throw .syntaxError
  let fraction ← readFraction (s.drop (sign ++ digits).length)
  let exponent ← readExponent (s.drop (sign ++ digits ++ fraction).length)
  let n := Nat.ofDigitChars 10 digits 0
  let bound := if sign = [] then 2 ^ 64 - 1 else 2 ^ 63
  let text := sign ++ digits ++ fraction ++ exponent
  if fraction = [] ∧ exponent = [] ∧ n ≤ bound then
    return (.int (if sign = [] then n else -n), s.drop text.length)
  match w.read text with
  | some d => return (.double d, s.drop text.length)
  | none => throw .syntaxError

mutual

def readValue : ℕ → List Char → Except Failure (Value D × List Char)
  | 0, _ => .error .syntaxError
  | fuel + 1, s =>
    match s with
    | 'n' :: s => return (.null, ← skipWord ['u', 'l', 'l'] s)
    | 't' :: s => return (.bool true, ← skipWord ['r', 'u', 'e'] s)
    | 'f' :: s => return (.bool false, ← skipWord ['a', 'l', 's', 'e'] s)
    | '"' :: s => do
      let (t, s) ← readString (s.length + 1) false s
      return (.string t, s)
    | '[' :: s => do
      let s := skipWhitespace s
      if s.head? = some ']' then return (.array [], s.tail)
      let (vs, s) ← readItems fuel s
      return (.array vs, s)
    | '{' :: s => do
      let s := skipWhitespace s
      if s.head? = some '}' then return (.object [], s.tail)
      let (ms, s) ← readMembers fuel s
      return (.object ms, s)
    | s => readNumber w s

/-- An item and those that follow it, up to the closing bracket. -/
def readItems : ℕ → List Char → Except Failure (List (Value D) × List Char)
  | 0, _ => .error .syntaxError
  | fuel + 1, s => do
    let (v, s) ← readValue fuel s
    match skipWhitespace s with
    | ',' :: s => do
      let (vs, s) ← readItems fuel (skipWhitespace s)
      return (v :: vs, s)
    | ']' :: s => return ([v], s)
    | _ => throw .syntaxError

def readMembers : ℕ → List Char → Except Failure (List (List Char × Value D) × List Char)
  | 0, _ => .error .syntaxError
  | fuel + 1, s => do
    let s ← skipWord ['"'] s
    let (k, s) ← readString (s.length + 1) false s
    let s ← skipWord [':'] (skipWhitespace s)
    let (v, s) ← readValue fuel (skipWhitespace s)
    match skipWhitespace s with
    | ',' :: s => do
      let (ms, s) ← readMembers fuel (skipWhitespace s)
      return ((k, v) :: ms, s)
    | '}' :: s => return ([(k, v)], s)
    | _ => throw .syntaxError

end

/-- The value of a text with nothing but whitespace around it. -/
def read (s : List Char) : Except Failure (Value D) := do
  let s := skipWhitespace (s.takeWhile (· ≠ '\x00'))
  let (v, s) ← readValue w (2 * s.length + 1) s
  if skipWhitespace s = [] then return v else throw .syntaxError

end Json
