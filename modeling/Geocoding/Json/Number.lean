import Geocoding.Decimal.Read
import Geocoding.Json.Reader

/-!
# JSON numbers

Whole numbers that fit into 64 bits are exact. All other numbers are doubles: the first digits that
make a number below `2 ^ 64` count, and the double of this number is multiplied or divided by a
power of ten.
-/

namespace Geocoding.Json

/-- A number as written. -/
structure Numeral where
  isNegative : Bool
  /-- The digits before the point. -/
  whole : List Char
  /-- The digits behind the point, if there is one. -/
  places : List Char
  exponent : Option Int
deriving DecidableEq, Repr

/-- The value of a number. -/
inductive Number where
  | natural (n : Nat)
  /-- The negative of a positive number. -/
  | negative (n : Nat)
  | decimal (x : Float)
deriving DecidableEq

/-- The number as a double. -/
def Number.toFloat : Number → Float
  | natural n => .ofNat n
  | negative n => -.ofNat n
  | decimal x => x

namespace Numeral

/-- Append digits to a number as long as it stays below `2 ^ 64`, and count the digits that are
left. -/
def absorb (n : Nat) : List Char → Nat × Nat
  | [] => (n, 0)
  | d :: ds =>
    let next := 10 * n + (d.toNat - '0'.toNat)
    if next < UInt64.size then absorb next ds else (n, ds.length + 1)

/-- A double divided by `10 ^ n`, in steps of at most `10 ^ 308`. -/
def scaleDown (x : Float) (n : Nat) : Float :=
  if n ≤ 308 then x / Decimal.toFloat 1 n
  else if x == 0 then x
  else scaleDown (x / Decimal.toFloat 1 308) (n - 308)
termination_by n

/-- A double multiplied by `10 ^ e`; none if it gets out of range. -/
def scale? (x : Float) (e : Int) : Option Float :=
  if e < 0 then some (scaleDown x e.natAbs)
  else if e ≤ 308 then
    let scaled := x * Decimal.toFloat 1 e
    if scaled.isInf then none else some scaled
  else if x == 0 then some x
  else none

/-- The value of a number as written; none if it is out of range. -/
def value? (n : Numeral) : Option Number :=
  let (significand, left) := absorb 0 n.whole
  if left = 0 ∧ n.places = [] ∧ n.exponent = none ∧
      (n.isNegative → 0 < significand ∧ significand ≤ UInt64.size / 2) then
    some (if n.isNegative then .negative significand else .natural significand)
  else
    let (significand, unused) := absorb significand n.places
    let exponent := n.exponent.getD 0 + left - (n.places.length - unused : Nat)
    (scale? (.ofNat significand) exponent).map fun x => .decimal (if n.isNegative then -x else x)

end Numeral

namespace Reader

/-- One or more digits. The given fault is that of a text that ends instead. -/
def digits (atEnd : Fault) : Reader (List Char) := do
  let rest := (← get).rest
  if rest.isEmpty then throw atEnd
  let ds := rest.takeWhile Text.isAsciiDigit
  if ds.isEmpty then throw .malformed
  modify fun cur => { cur with rest := cur.rest.dropWhile Text.isAsciiDigit }
  return ds

/-- The exponent of a number, if there is one. -/
def exponent (atEnd : Fault) : Reader (Option Int) := do
  match ← accept fun c => c == 'e' || c == 'E' with
  | none => return none
  | some _ =>
    let sign ← accept fun c => c == '+' || c == '-'
    let e := Decimal.ofDigits (← digits atEnd)
    return some (if sign = some '-' then -e else e)

/-- A number as written. Only zero begins with a zero. -/
def numeral (atEnd : Fault) : Reader Numeral := do
  let sign ← accept (· == '-')
  let whole ← digits atEnd
  if whole.head? = some '0' && 1 < whole.length then throw .malformed
  let point ← accept (· == '.')
  let places ← if point.isSome then digits atEnd else pure []
  return { isNegative := sign.isSome, whole, places, exponent := ← exponent atEnd }

end Reader

end Geocoding.Json
