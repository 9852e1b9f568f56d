/-!
# Sets of characters

A property of characters is written down as the code points at which membership changes
(`CharSet.changes`), which is how the tables of this folder are given.
-/

namespace Geocoding.Text

/-- A set of characters: it holds the code points from the first change to before the second, from
the third to before the fourth, and so on. The changes ascend. -/
structure CharSet where
  changes : List Nat

/-- Whether the code point `n` is held, when the code points before the next change are held exactly
if `inside`. -/
def CharSet.holds (n : Nat) : Bool → List Nat → Bool
  | inside, [] => inside
  | inside, change :: rest => if n < change then inside else holds n (!inside) rest

/-- Membership of a character. -/
def CharSet.contains (s : CharSet) (c : Char) : Bool :=
  CharSet.holds c.toNat false s.changes

end Geocoding.Text
