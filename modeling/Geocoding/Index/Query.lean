import Geocoding.Candidate
import Geocoding.Constraints
import Geocoding.Geometry.Polygon
import Geocoding.PlaceType

/-!
# Queries to a place index

What a place index is asked and what it answers. Address ranks go from 0 to 30, where 4 are
countries, 16 cities, 26 and 27 streets, and 30 houses.
-/

namespace Geocoding

/-- The address ranks from `min` to `max`, both included. -/
structure RankRange where
  min : Nat
  max : Nat
deriving DecidableEq, Repr

namespace RankRange

/-- All address ranks. -/
def full : RankRange := ⟨0, 30⟩

/-- Whether a rank is in the range. -/
def contains (range : RankRange) (rank : Nat) : Bool :=
  range.min ≤ rank && rank ≤ range.max

/-- Whether all address ranks are in the range. -/
def isFull (range : RankRange) : Bool :=
  range = full

/-- Both ends of the range. -/
def display (range : RankRange) : String :=
  toString range.min ++ "..=" ++ toString range.max

end RankRange

/-- Places by the words of their names and addresses. -/
structure NamedPlaceQuery where
  name : TermSet
  address : TermSet
  /-- The name is rare, so that the address need not be indexed. -/
  isRare : Bool := false
  countries : List String := []
  /-- Places whose address rank or search rank is in the range. -/
  ranks : Option RankRange := none
  /-- Places that have the house number come first. -/
  houseNumber : Option String := none
  near : Option NearPoint := none
  /-- Without an address, places with the postcode or close to it; otherwise the closest come
  first. -/
  postcode : Option String := none
  box : Option (BoundingBox Float) := none
  excluded : List Nat := []
  /-- Words to count in the name and address of each place. -/
  fullNameTerms : TermSet := ∅
  limit : Nat
deriving DecidableEq

/-- A place found by name. -/
structure NamedPlaceHit where
  id : Nat
  addressRank : Nat
  /-- How many of the full words are in the name and address. -/
  exactMatches : Nat
deriving DecidableEq, Repr

/-- Places of a type in a limited area. -/
structure AreaQuery where
  placeType : PlaceType
  near : Option NearPoint := none
  box : Option (BoundingBox Float) := none
  countries : List String := []
  excluded : List Nat := []
  limit : Nat
deriving DecidableEq

/-- Postcode areas by their code. -/
structure PostcodeQuery where
  postcode : String
  /-- Words that the address of the area must have. -/
  address : TermSet
  countries : List String := []
  box : Option (BoundingBox Float) := none
  excluded : List Nat := []
  limit : Nat
deriving DecidableEq

/-- Addresses by their house number. -/
structure HouseNumberQuery where
  houseNumber : String
  /-- Parents of the addresses. -/
  streets : List Nat
  /-- Places that may have the house number themselves. -/
  places : List Nat
  excluded : List Nat := []
deriving DecidableEq

/-- Address ranges that have a house number. -/
structure RangeQuery where
  houseNumber : Nat
  streets : List Nat
  excluded : List Nat := []
deriving DecidableEq

/-- Which house numbers an address range has. -/
inductive Parity where
  | odd
  | even
  | all
deriving DecidableEq, Repr

namespace Parity

/-- Whether a number is of the parity. -/
def admits : Parity → Nat → Bool
  | odd, n => n % 2 = 1
  | even, n => n % 2 = 0
  | all, _ => true

/-- The distance between neighbouring house numbers. -/
def step : Parity → Nat
  | odd | even => 2
  | all => 1

/-- The name of a parity. -/
def name : Parity → String
  | odd => "odd"
  | even => "even"
  | all => "all"

/-- The parity of a name. -/
def ofName? (name : String) : Option Parity :=
  [odd, even, all].find? (·.name = name)

end Parity

/-- The house number is of the parity and within the range. -/
def RangeQuery.accepts (query : RangeQuery) (parity : Parity) (first last : Nat) : Bool :=
  parity.admits query.houseNumber && first ≤ query.houseNumber && query.houseNumber ≤ last

/-- A place close to a point. -/
structure FeatureHit where
  id : Nat
  addressRank : Nat
  country : Option String
  distance : Float
deriving DecidableEq

/-- The closest position on the line of an address range. -/
structure RangeHit where
  id : Nat
  parent : Nat
  /-- The house number where the line begins. -/
  first : Nat
  /-- The house number where the line ends. -/
  last : Nat
  /-- The distance between neighbouring house numbers. -/
  step : Nat
  /-- How far along the line the position is, as a fraction of its length. -/
  fraction : Float
  distance : Float
deriving DecidableEq

/-- An area whose box covers a point; whether the area contains it is for the caller to find out. -/
structure AreaHit where
  id : Nat
  addressRank : Nat
  searchRank : Nat
  area : Polygon Float
deriving DecidableEq

/-- A place that is recorded as a point. -/
structure PlaceNode where
  id : Nat
  searchRank : Nat
  addressRank : Nat
  location : Point Float
deriving DecidableEq

/-- Places recorded as points, around a point and by search rank. -/
structure PlaceNodeQuery where
  point : Point Float
  radius : Float
  /-- The least search rank. -/
  minRank : Nat
  /-- The greatest search rank. -/
  maxRank : Nat
  country : Option String := none
deriving DecidableEq

end Geocoding
