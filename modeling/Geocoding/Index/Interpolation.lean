import Geocoding.Index.Query

/-!
# House numbers along a line

The house numbers of an address range are spread evenly along its line. `interpolatedNumber` is the
house number at a fraction of the length; it is stated for any type of numbers that fractions can be
computed in.
-/

namespace Geocoding

/-- Numbers that fractions of a length are computed in. -/
class Fractional (α : Type) extends Mul α, Div α, LT α where
  ofNat : Nat → α
  /-- The nearest whole number, a half going up; zero for what is not above zero. -/
  nearest : α → Nat
  decidableLt : DecidableLT α

instance : Fractional Float where
  ofNat := Float.ofNat
  nearest := Double.nearestNat
  decidableLt := inferInstance

section

variable {α : Type} [Fractional α]

instance Fractional.instDecidableLT : DecidableLT α := Fractional.decidableLt

/-- A fraction kept between zero and one. -/
def clampFraction (x : α) : α :=
  if x < Fractional.ofNat 0 then Fractional.ofNat 0
  else if Fractional.ofNat 1 < x then Fractional.ofNat 1
  else x

/-- The house number at a fraction of the way from `first` to `last`, a whole number of steps from
the first and not beyond the last. -/
def interpolatedNumber (first last step : Nat) (fraction : α) : Nat :=
  let step := max step 1
  let offset := Fractional.ofNat (last - first) * clampFraction fraction
  min (first + Fractional.nearest (offset / (Fractional.ofNat step : α)) * step) last

end

/-- The house number at the closest position on an address range. -/
def RangeHit.houseNumber (hit : RangeHit) : Nat :=
  interpolatedNumber hit.first hit.last hit.step hit.fraction

end Geocoding
