/-!
# Arithmetic on doubles

A finite double is a whole number times a power of two (`Binary`). Sums with a product (`mulAdd`)
and nearest whole numbers (`nearestNat`, `nearestInt?`) are computed from these exact values and
rounded once. Hypotenuses (`hypot`) are computed in double precision and corrected for most of the
rounding errors.
-/

namespace Geocoding.Double

open Float.Model (UnpackedFloat Format)

/-- The number `mantissa * 2 ^ exponent`. -/
structure Binary where
  mantissa : Int
  exponent : Int
deriving DecidableEq, Repr

namespace Binary

/-- The numbers with a common exponent, as their mantissas and that exponent. -/
def aligned (a b : Binary) : Int × Int × Int :=
  let e := min a.exponent b.exponent
  (a.mantissa * Nat.pow 2 (a.exponent - e).toNat, b.mantissa * Nat.pow 2 (b.exponent - e).toNat, e)

/-- The exact sum. -/
def add (a b : Binary) : Binary :=
  let (m, n, e) := a.aligned b
  ⟨m + n, e⟩

/-- The exact product. -/
def mul (a b : Binary) : Binary :=
  ⟨a.mantissa * b.mantissa, a.exponent + b.exponent⟩

/-- The whole number closest to the magnitude; a half goes up. -/
def nearestMagnitude (a : Binary) : Nat :=
  let m := a.mantissa.natAbs
  if 0 ≤ a.exponent then m * Nat.pow 2 a.exponent.toNat
  else
    let unit := Nat.pow 2 (-a.exponent).toNat
    (2 * m + unit) / (2 * unit)

end Binary

/-- The bits of a double, taken apart. -/
def unpack (x : Float) : UnpackedFloat :=
  UnpackedFloat.unpack Format.binary64 x.toBits.toBitVec

/-- The double of a rounded number. -/
def pack (x : UnpackedFloat) : Float :=
  Float.ofBits (UInt64.ofBitVec (UnpackedFloat.pack Format.binary64 x))

/-- The exact value of a finite double. -/
def binary? (x : Float) : Option Binary :=
  match unpack x with
  | .zero _ => some ⟨0, 0⟩
  | .finite .positive m e _ => some ⟨m, e⟩
  | .finite .negative m e _ => some ⟨-m, e⟩
  | .infinity _ => none
  | .notANumber => none

/-- Whether the sign bit is set. -/
def isNegative (x : Float) : Bool :=
  match unpack x with
  | .zero s => s == .negative
  | .finite s .. => s == .negative
  | .infinity s => s == .negative
  | .notANumber => false

/-- The double closest to a number, the one with an even mantissa if two are equally close. -/
def round (a : Binary) : Float :=
  pack (UnpackedFloat.normalize Format.binary64 a.mantissa a.exponent .positive)

/-! ## Hypotenuses -/

/-- The hypotenuse over legs with `b ≤ a`, neither of them negative, whose squares are in range: the
root of the sum of the squares, less an estimate of the rounding errors in it. -/
def correctedRoot (a b : Float) : Float :=
  let root := (a * a + b * b).sqrt
  let excess :=
    if root ≤ 2 * b then
      let d := root - b
      a * (2 * d - a) + (d - 2 * (a - b)) * d
    else
      let d := root - a
      2 * d * (a - 2 * b) + ((4 * d - b) * b + d * d)
  root - excess / (2 * root)

/-- A power of two. -/
def twoTo (n : Int) : Float :=
  Float.scaleB 1 n

/-- The hypotenuse over legs with `b ≤ a`, neither of them negative. A leg that is too small to
matter is added. Legs whose squares might be out of range are scaled. -/
def hypotOfLegs (a b : Float) : Float :=
  let scale := twoTo (-600)
  let least := twoTo (-54)
  if twoTo 511 < a then
    if b ≤ a * least then a + b else correctedRoot (a * scale) (b * scale) / scale
  else if b < twoTo (-459) then
    if b / least ≤ a then a + b else correctedRoot (a / scale) (b / scale) * scale
  else if b ≤ a * least then a + b
  else correctedRoot a b

/-- The length of the hypotenuse. -/
def hypot (x y : Float) : Float :=
  if x.isInf || y.isInf then 1 / 0
  else if x.isNaN || y.isNaN then 0 / 0
  else if x.abs < y.abs then hypotOfLegs y.abs x.abs
  else hypotOfLegs x.abs y.abs

/-! ## Roundings of exact values -/

/-- The double closest to the exact value of `x * y + z`. -/
def mulAdd (x y z : Float) : Float :=
  match binary? x, binary? y, binary? z with
  | some a, some b, some c => round ((a.mul b).add c)
  | _, _, _ => x * y + z

/-- The whole number closest to a double, a half going up; zero for what is no positive number. -/
def nearestNat (x : Float) : Nat :=
  match binary? x with
  | some a => if 0 < a.mantissa then a.nearestMagnitude else 0
  | none => 0

/-- The whole number closest to a double, a half going away from zero. -/
def nearestInt? (x : Float) : Option Int :=
  (binary? x).map fun a => if a.mantissa < 0 then -a.nearestMagnitude else a.nearestMagnitude

/-- The place of a double in the total order in which negative zero precedes zero and infinities and
the value that is no number stand at the ends. -/
def orderKey (x : Float) : Int :=
  let bits := x.toBits.toNat
  let half := UInt64.size / 2
  if bits < half then bits else -(bits - half : Nat) - 1

end Geocoding.Double
