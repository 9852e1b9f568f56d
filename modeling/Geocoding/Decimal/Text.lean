import Geocoding.Decimal.Shortest

/-!
# Numbers as text

Doubles are written with the fewest digits that read back (`Layout.render`), in a layout that says
where an exponent is used, or with a fixed number of decimal places (`fixed`).
-/

namespace Geocoding.Decimal

/-- How the digits of a number are laid out. -/
structure Layout where
  /-- Whether a number is written without an exponent, by the place of its decimal point counted
  from its first digit. -/
  isPositional : Int → Bool
  /-- Whole numbers are followed by a point and a zero. -/
  marksWhole : Bool
  /-- Which of two equally close decimals is written. -/
  tie : Tie

/-- Never an exponent, and no point without need; of two equally close decimals the greater one. -/
def Layout.plain : Layout := ⟨fun _ => true, false, .up⟩

/-- An exponent from seventeen places before the point on and with five or more zeros after it; of
two equally close decimals the even one. -/
def Layout.json : Layout := ⟨fun point => -5 < point && point ≤ 16, true, .even⟩

/-- So many zeros. -/
def zeros (n : Int) : List Char :=
  List.replicate n.toNat '0'

/-- The digits of a decimal in a layout. An exponent always has its sign. -/
def Layout.digits (layout : Layout) (d : Decimal) : String :=
  let ds := Nat.toDigits 10 d.digits
  let point := ds.length + d.exponent
  String.ofList <|
    if layout.isPositional point then
      if 0 ≤ d.exponent then
        ds ++ zeros d.exponent ++ (if layout.marksWhole then ['.', '0'] else [])
      else if 0 < point then ds.take point.toNat ++ '.' :: ds.drop point.toNat
      else '0' :: '.' :: zeros (-point) ++ ds
    else
      ds.take 1 ++ (if ds.length = 1 then [] else '.' :: ds.drop 1) ++
        'e' :: (if 0 < point then ['+'] else []) ++ (toString (point - 1)).toList

/-- The text of a double, which is sure to read back as the same double. -/
def Layout.render (layout : Layout) (x : Float) : String :=
  let sign := if Double.isNegative x then "-" else ""
  match Double.unpack x with
  | .notANumber => "NaN"
  | .infinity _ => sign ++ "inf"
  | .zero _ => sign ++ (if layout.marksWhole then "0.0" else "0")
  | .finite _ m e _ => sign ++ layout.digits (shortest layout.tie m e)

/-- A quotient rounded to a whole number, a half going to the even neighbour. -/
def roundHalfEven (num den : Nat) : Nat :=
  let q := num / den
  let twice := 2 * (num % den)
  if twice < den then q else if den < twice then q + 1 else q + q % 2

/-- The text of a double with a fixed number of decimal places, at least one. -/
def fixed (places : Nat) (x : Float) : String :=
  let sign := if Double.isNegative x then "-" else ""
  match Double.binary? x with
  | none => Layout.plain.render x
  | some a =>
    let scaled := a.mantissa.natAbs * Nat.pow 10 places * Nat.pow 2 a.exponent.toNat
    let ds := Nat.toDigits 10 (roundHalfEven scaled (Nat.pow 2 (-a.exponent).toNat))
    let ds := List.replicate (places + 1 - ds.length) '0' ++ ds
    let whole := ds.length - places
    sign ++ String.ofList (ds.take whole ++ '.' :: ds.drop whole)

end Geocoding.Decimal
