import Geocoding.Text.CharClass

/-!
# Reading numbers

The numbers that users write: decimals with an optional sign, point and exponent, also infinities
and the value that is no number (`readFloat?`), and whole numbers up to a limit (`readNat?`).
-/

namespace Geocoding.Decimal

/-- The number that digits stand for. -/
def ofDigits (ds : List Char) : Nat :=
  ds.foldl (fun n d => 10 * n + (d.toNat - '0'.toNat)) 0

/-- A sign, or nothing, in front of the rest. -/
def readSign : List Char → Bool × List Char
  | '-' :: rest => (true, rest)
  | '+' :: rest => (false, rest)
  | rest => (false, rest)

/-- The exponent that makes up the whole text; no text is no exponent. -/
def readExponent? : List Char → Option Int
  | [] => some 0
  | c :: rest =>
    if c = 'e' ∨ c = 'E' then
      let (isNegative, ds) := readSign rest
      if ds.isEmpty || !ds.all Text.isAsciiDigit then none
      else some (if isNegative then -(ofDigits ds : Int) else ofDigits ds)
    else none

/-- The double closest to `m * 10 ^ e`. -/
def toFloat (m : Nat) (e : Int) : Float :=
  Float.ofScientific m (e < 0) e.natAbs

/-- A decimal without a sign: digits, of which at least one, around an optional point, and an
optional exponent. -/
def readMagnitude? (cs : List Char) : Option Float :=
  let whole := cs.takeWhile Text.isAsciiDigit
  let rest := cs.dropWhile Text.isAsciiDigit
  let (places, rest) := match rest with
    | '.' :: rest => (rest.takeWhile Text.isAsciiDigit, rest.dropWhile Text.isAsciiDigit)
    | rest => ([], rest)
  if whole.isEmpty && places.isEmpty then none
  else (readExponent? rest).map fun e => toFloat (ofDigits (whole ++ places)) (e - places.length)

/-- The values that are written as words, in any mixture of cases. -/
def readWord? (cs : List Char) : Option Float :=
  let word := String.ofList (cs.map Char.toLower)
  if word = "inf" ∨ word = "infinity" then some (1 / 0)
  else if word = "nan" then some (0 / 0)
  else none

/-- The double closest to a written decimal. -/
def readFloat? (s : String) : Option Float :=
  let (isNegative, cs) := readSign s.toList
  ((readMagnitude? cs).orElse fun _ => readWord? cs).map fun x => if isNegative then -x else x

/-- A whole number below a bound, written in digits after an optional plus sign. -/
def readNat? (bound : Nat) (s : String) : Option Nat :=
  let ds := match s.toList with
    | '+' :: rest => rest
    | cs => cs
  if ds.isEmpty || !ds.all Text.isAsciiDigit then none
  else if ofDigits ds < bound then some (ofDigits ds) else none

end Geocoding.Decimal
