import Geocoding.Json.Number

/-!
# JSON values

Readers for values of a kind: scalars, arrays, objects, and values of any kind, which are skipped or
kept.
-/

namespace Geocoding.Json

/-- A value that is neither an array nor an object. -/
inductive Scalar where
  | null
  | boolean (b : Bool)
  | number (n : Number)
  | text (s : String)
deriving DecidableEq

namespace Reader

variable {α κ σ : Type}

/-! ## Scalars -/

/-- A value that is no array and no object. -/
def scalar : Reader Scalar := do
  let c ← valueStart
  if c = '[' || c = '{' then throw .mismatched
  else if c = 'n' then expect ['n', 'u', 'l', 'l']; return .null
  else if c = 't' then expect ['t', 'r', 'u', 'e']; return .boolean true
  else if c = 'f' then expect ['f', 'a', 'l', 's', 'e']; return .boolean false
  else if c = '"' then return .text (← quoted escape)
  else if c = '-' || Text.isAsciiDigit c then
    match (← numeral .cutShort).value? with
    | some n => return .number n
    | none => throw .malformed
  else throw .malformed

/-- The value ahead is not the expected one. -/
def mismatch : Reader α := do
  discard scalar
  throw .mismatched

/-- A whole number below a bound. -/
def natural (bound : Nat) : Reader Nat := do
  match ← scalar with
  | .number (.natural n) => if n < bound then return n else throw .mismatched
  | _ => throw .mismatched

/-- A number as a double. -/
def float : Reader Float := do
  match ← scalar with
  | .number n => return n.toFloat
  | _ => throw .mismatched

/-- A text. -/
def text : Reader String := do
  match ← scalar with
  | .text s => return s
  | _ => throw .mismatched

/-- A value, or null for none. -/
def optional (value : Reader α) : Reader (Option α) := do
  if (← valueStart) = 'n' then
    discard scalar
    return none
  else return some (← value)

/-! ## Arrays and objects -/

/-- Read one level deeper, unless that is too deep. -/
def nested (content : Reader α) : Reader α := do
  let levels := (← get).levels
  if levels ≤ 1 then throw .malformed
  modify fun cur => { cur with levels := levels - 1 }
  let x ← content
  modify fun cur => { cur with levels }
  return x

/-- Whether another item is ahead, behind a comma unless it is the first; otherwise the closing
bracket is taken. -/
def another (close : Char) (isFirst : Bool) : Reader Bool := do
  match ← front with
  | none => throw .cutShort
  | some c =>
    if c = close then advance; return false
    if isFirst then return true
    if c ≠ ',' then throw .malformed
    advance
    if (← valueStart) = close then throw .malformed
    return true

/-- The items up to the closing bracket, fewer than the given number. -/
def itemsFrom (item : Reader α) : Nat → Bool → Reader (List α)
  | 0, _ => throw .cutShort
  | n + 1, isFirst => do
    if ← another ']' isFirst then
      let x ← item
      return x :: (← itemsFrom item n false)
    else return []

/-- An array from its opening to its closing bracket. -/
def items (item : Reader α) : Reader (List α) := do
  advance
  itemsFrom item (← bound) true

/-- The members up to the closing brace, fewer than the given number: each takes a state further by
its name. -/
def membersFrom (name : Reader κ) (member : κ → σ → Reader σ) : Nat → Bool → σ → Reader σ
  | 0, _, _ => throw .cutShort
  | n + 1, isFirst, s => do
    if ← another '\x7d' isFirst then
      if (← valueStart) ≠ '"' then throw .malformed
      let s ← member (← name) s
      membersFrom name member n false s
    else return s

/-- An object from its opening to its closing brace. -/
def members (name : Reader κ) (member : κ → σ → Reader σ) (s : σ) : Reader σ := do
  advance
  membersFrom name member (← bound) true s

/-- An array. -/
def list (item : Reader α) : Reader (List α) := do
  if (← valueStart) = '[' then nested (items item) else mismatch

/-- One of several names, as a text or as the only name in an object, with null for its value. -/
def choice (ofName? : String → Option α) : Reader α := do
  let named (name : String) : Reader α :=
    match ofName? name with
    | some x => return x
    | none => throw .mismatched
  match ← valueStart with
  | '"' => named (← text)
  | '\x7b' =>
    let x ← nested do
      advance
      if (← valueStart) ≠ '"' then throw .malformed
      let x ← named (← text)
      colon
      if (← scalar) ≠ .null then throw .mismatched
      return x
    match ← front with
    | some '\x7d' => advance; return x
    | some _ => throw .malformed
    | none => throw .cutShort
  | _ => throw .malformed

/-! ## Values of any kind -/

/-- Pass a value that does not matter. It may be nested less deeply than the given number, its
numbers may be out of range, and its texts may be no characters. -/
def skipWithin : Nat → Reader Unit
  | 0 => throw .cutShort
  | n + 1 => do
    let c ← valueStart
    if c = '[' then discard (items (skipWithin n))
    else if c = '\x7b' then
      members (quoted skipEscape) (fun _ _ => do colon; skipWithin n) ()
    else if c = '"' then discard (quoted skipEscape)
    else if c = '-' || Text.isAsciiDigit c then discard (numeral .malformed)
    else discard scalar

/-- Pass a value that does not matter. -/
def skip : Reader Unit := do
  skipWithin (← bound)

/-- A value that may matter, nested less deeply than the given number: its text if it is one. -/
def contentWithin : Nat → Reader (Option String)
  | 0 => throw .cutShort
  | n + 1 => do
    let c ← valueStart
    if c = '[' then
      discard (nested (items (contentWithin n)))
      return none
    else if c = '\x7b' then
      nested (members text (fun _ _ => do colon; discard (contentWithin n)) ())
      return none
    else
      match ← scalar with
      | .text s => return some s
      | _ => return none

/-- A value that may matter: its text if it is one. -/
def content : Reader (Option String) := do
  contentWithin (← bound)

/-! ## Whole texts -/

/-- The value that makes up a whole text. -/
def readAll (value : Reader α) (s : String) : Except Fault α := do
  let cs := s.toList
  let (x, cur) ← value.run ⟨cs, cs.length + 1, maxLevels⟩
  if (cur.rest.dropWhile isBlank).isEmpty then return x else throw .malformed

end Reader

end Geocoding.Json
