import Geocoding.Geometry.Point
import Geocoding.TermSet

/-!
# Constraints of a query

What holds for every interpretation of one query: the search area, the places that must not be
found, and the countries that may be.
-/

namespace Geocoding

/-- A point to search around, with a radius in degrees. -/
structure NearPoint where
  point : Point Float
  radius : Float
deriving DecidableEq

/-- The radius around coordinates that are given in the query, in degrees. -/
def NearPoint.defaultRadius : Float := 0.1

/-- A preferred box. The large box is the small one grown by its own extent on every side. -/
structure Viewbox where
  small : BoundingBox Float
  large : BoundingBox Float
  /-- Results must lie inside the small box. -/
  bounded : Bool
deriving DecidableEq

/-- The preference for a box. -/
def Viewbox.around (box : BoundingBox Float) (bounded : Bool) : Viewbox :=
  ⟨box, box.expand 1, bounded⟩

/-- The constraints that all interpretations of a query share. -/
structure Constraints where
  near : Option NearPoint := none
  viewbox : Option Viewbox := none
  /-- Ids of places that must not be found. -/
  excluded : List Nat := []
  /-- Codes of the countries to search in; none means all. -/
  countries : List String := []
  /-- The ids of all full words of the query. -/
  fullNameTerms : TermSet := ∅
deriving DecidableEq

namespace Constraints

/-- The box that results must lie in, if there is one. -/
def boundingBox? (c : Constraints) : Option (BoundingBox Float) :=
  (c.viewbox.filter (·.bounded)).map (·.small)

/-- The search area is limited by a point or by a box. -/
def isBounded (c : Constraints) : Bool :=
  c.near.isSome || c.viewbox.any (·.bounded)

/-- Whether places of the country may be found. -/
def allows (c : Constraints) (country : String) : Bool :=
  c.countries.isEmpty || c.countries.contains country

end Constraints

end Geocoding
