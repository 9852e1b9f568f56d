import Geocoding.Double

/-!
# Shortest decimals

The decimal with the fewest digits that rounds to a given double (`shortest`), and among several of
them the one closest to its value, where `Tie` settles which of two is taken that are equally close.
The numbers that round to a double form an interval; for one digit, two digits and so on, the two
decimals around the value are tried.
-/

namespace Geocoding

/-- The number `digits * 10 ^ exponent`. -/
structure Decimal where
  digits : Nat
  exponent : Int
deriving DecidableEq, Repr

namespace Decimal

/-- A power of ten. -/
def tenTo (k : Int) : Rat :=
  if 0 ≤ k then Nat.pow 10 k.toNat else 1 / Nat.pow 10 (-k).toNat

/-- A power of two. -/
def twoTo (k : Int) : Rat :=
  if 0 ≤ k then Nat.pow 2 k.toNat else 1 / Nat.pow 2 (-k).toNat

/-- The value of a decimal. -/
def value (d : Decimal) : Rat :=
  d.digits * tenTo d.exponent

/-- The numbers that round to one double. -/
structure RoundingInterval where
  low : Rat
  high : Rat
  /-- The ends belong to the interval. -/
  isClosed : Bool

/-- Whether a number rounds to the double of the interval. -/
def RoundingInterval.contains (i : RoundingInterval) (x : Rat) : Bool :=
  if i.isClosed then i.low ≤ x && x ≤ i.high else i.low < x && x < i.high

/-- The interval around `m * 2 ^ e`, where `m` has 53 bits, or fewer at the least exponent. It
reaches half way to the neighbours, and the lower neighbour of a power of two is closer than the
upper one. -/
def RoundingInterval.around (m : Nat) (e : Int) : RoundingInterval where
  low := (if m = Nat.pow 2 52 ∧ -1074 < e then 4 * m - 1 else 4 * m - 2 : Nat) * twoTo (e - 2)
  high := (4 * m + 2 : Nat) * twoTo (e - 2)
  isClosed := m % 2 = 0

/-- How many decimal digits a number has. -/
def digitCount (n : Nat) : Nat :=
  (Nat.toDigits 10 n).length

/-- The exponent of the greatest power of ten that is not above a positive number. -/
def magnitude (v : Rat) : Int :=
  if 1 ≤ v then digitCount v.floor.toNat - 1
  else -digitCount ((1 / v).ceil.toNat - 1)

/-- Which of two neighbouring decimals is taken if a number is half way between them. -/
inductive Tie where
  /-- The greater one. -/
  | up
  /-- The one whose last digit is even. -/
  | even
deriving DecidableEq, Repr

/-- Whether the lower of two decimals is taken, given its digits. -/
def Tie.isDown : Tie → Nat → Bool
  | up, _ => false
  | even, digits => digits % 2 = 0

/-- The closer of the two multiples of `10 ^ k` around `v` that are in the interval. -/
def onGrid? (tie : Tie) (i : RoundingInterval) (v : Rat) (k : Int) : Option Decimal :=
  let below : Decimal := ⟨(v / tenTo k).floor.toNat, k⟩
  let above : Decimal := ⟨below.digits + 1, k⟩
  match i.contains below.value, i.contains above.value with
  | true, true =>
    let toBelow := v - below.value
    let toAbove := above.value - v
    some (if toBelow < toAbove || toBelow = toAbove && tie.isDown below.digits then below else above)
  | true, false => some below
  | false, true => some above
  | false, false => none

/-- The decimal without zeros at its end, given how many zeros there can be. -/
def stripZeros : Nat → Decimal → Decimal
  | 0, d => d
  | n + 1, d => if d.digits % 10 = 0 then stripZeros n ⟨d.digits / 10, d.exponent + 1⟩ else d

/-- The shortest decimal that rounds to `m * 2 ^ e`, for positive `m`. Seventeen digits always
suffice. -/
def shortest (tie : Tie) (m : Nat) (e : Int) : Decimal :=
  let v := m * twoTo e
  let i := RoundingInterval.around m e
  let found := (List.range 17).findSome? fun n : Nat => onGrid? tie i v (magnitude v - n)
  stripZeros 17 (found.getD ⟨m, 0⟩)

end Decimal

end Geocoding
