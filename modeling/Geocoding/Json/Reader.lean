/-!
# JSON readers

A reader takes what it expects from the front of a JSON text (`Reader`). It fails at the first fault
in the text: text that is no JSON, text that ends too early, or a value that is not the expected
one. A scalar value is read to its end before it is found not to be the expected one, an array or
object is not.
-/

namespace Geocoding.Json

/-- Why a text cannot be read. -/
inductive Fault where
  /-- The text is not JSON. -/
  | malformed
  /-- The text ends too early. -/
  | cutShort
  /-- A value is not the expected one. -/
  | mismatched
deriving DecidableEq, Repr

/-- The text ahead of a reader. -/
structure Cursor where
  rest : List Char
  /-- More than the length of the whole text, and so more than any repetition needs. -/
  bound : Nat
  /-- Arrays and objects can be nested fewer than so many levels deep. -/
  levels : Nat
deriving DecidableEq, Repr

/-- How deep arrays and objects cannot be nested any more. -/
def maxLevels : Nat := 128

/-- Takes a value from the front of a text. -/
abbrev Reader := StateT Cursor (Except Fault)

namespace Reader

variable {α : Type}

/-! ## Characters -/

/-- The characters that may stand between values. -/
def isBlank (c : Char) : Bool :=
  c == ' ' || c == '\n' || c == '\t' || c == '\r'

/-- More than the length of the whole text. -/
def bound : Reader Nat :=
  return (← get).bound

/-- Go on by one character. -/
def advance : Reader Unit :=
  modify fun cur => { cur with rest := cur.rest.tail }

/-- The next character. -/
def take : Reader Char := do
  match (← get).rest with
  | c :: _ => advance; return c
  | [] => throw .cutShort

/-- Go on by one character if it has a property. -/
def accept (p : Char → Bool) : Reader (Option Char) := do
  match (← get).rest.head? with
  | some c => if p c then advance; return some c else return none
  | none => return none

/-- The character behind the blanks ahead, which are passed. -/
def front : Reader (Option Char) := do
  modify fun cur => { cur with rest := cur.rest.dropWhile isBlank }
  return (← get).rest.head?

/-- The first character of the value ahead. -/
def valueStart : Reader Char := do
  match ← front with
  | some c => return c
  | none => throw .cutShort

/-- Take the characters that must come next. -/
def expect (cs : List Char) : Reader Unit :=
  cs.forM fun c => do if (← take) ≠ c then throw .malformed

/-- Take the colon between a name and its value. -/
def colon : Reader Unit := do
  match ← front with
  | some ':' => advance
  | some _ => throw .malformed
  | none => throw .cutShort

/-! ## Texts -/

/-- The value of a hexadecimal digit. -/
def hexDigit? (c : Char) : Option Nat :=
  if '0' ≤ c ∧ c ≤ '9' then some (c.toNat - '0'.toNat)
  else if 'a' ≤ c ∧ c ≤ 'f' then some (c.toNat - 'a'.toNat + 10)
  else if 'A' ≤ c ∧ c ≤ 'F' then some (c.toNat - 'A'.toNat + 10)
  else none

/-- Four hexadecimal digits. The text is cut short if there are fewer than four bytes ahead. -/
def fourHexDigits : Reader Nat := do
  let next := (← get).rest.take 4
  if (String.ofList next).utf8ByteSize < 4 then throw .cutShort
  match next.mapM hexDigit? with
  | some [a, b, c, d] =>
    modify fun cur => { cur with rest := cur.rest.drop 4 }
    return ((a * 16 + b) * 16 + c) * 16 + d
  | _ => throw .malformed

/-- The character of an escape, behind its backslash, that is no code unit. -/
def simpleEscape? : Char → Option Char
  | '"' => some '"'
  | '\\' => some '\\'
  | '/' => some '/'
  | 'b' => some '\x08'
  | 'f' => some '\x0c'
  | 'n' => some '\n'
  | 'r' => some '\r'
  | 't' => some '\t'
  | _ => none

/-- The character of one code unit, or of a leading and a trailing surrogate. -/
def codeUnits : Reader Char := do
  let unit ← fourHexDigits
  if 0xDC00 ≤ unit && unit ≤ 0xDFFF then throw .malformed
  if unit < 0xD800 || 0xDBFF < unit then return Char.ofNat unit
  expect ['\\', 'u']
  let trailing ← fourHexDigits
  if trailing < 0xDC00 || 0xDFFF < trailing then throw .malformed
  return Char.ofNat (0x10000 + (unit - 0xD800) * 0x400 + (trailing - 0xDC00))

/-- The character of an escape, behind its backslash. -/
def escape : Reader Char := do
  let c ← take
  if c = 'u' then codeUnits
  else match simpleEscape? c with
    | some c => return c
    | none => throw .malformed

/-- Pass an escape, behind its backslash. Any code unit will do. -/
def skipEscape : Reader Char := do
  let c ← take
  if c = 'u' then return Char.ofNat (← fourHexDigits)
  else match simpleEscape? c with
    | some c => return c
    | none => throw .malformed

/-- The characters up to the closing quote, fewer than the given number. -/
def textChars (escape : Reader Char) : Nat → Reader (List Char)
  | 0 => throw .cutShort
  | n + 1 => do
    let c ← take
    if c = '"' then return []
    if c.toNat < 0x20 then throw .malformed
    let c ← if c = '\\' then escape else pure c
    return c :: (← textChars escape n)

/-- A text, from its opening to its closing quote. -/
def quoted (escape : Reader Char) : Reader String := do
  advance
  return String.ofList (← textChars escape (← bound))

end Reader

end Geocoding.Json
