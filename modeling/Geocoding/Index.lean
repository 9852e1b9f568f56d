import Geocoding.Index.Query

/-!
# Place indices

Searches go through two interfaces: `PlaceIndex` finds places for interpretations of a query, and
`ReverseIndex` finds places for points. An index may have effects of its own in a monad `m`, and it
may fail.
-/

namespace Geocoding

/-- Why an index gives no answer. -/
inductive IndexError where
  | query (reason : String)
  | unknownPlace (id : Nat)
  | other (reason : String)
deriving DecidableEq, Repr

/-- The text of an index error. -/
def IndexError.message : IndexError → String
  | query reason => "Index query failed: " ++ reason
  | unknownPlace id => "Unknown place id " ++ toString id
  | other reason => reason

/-- An answer that may take effect in `m` or fail. -/
abbrev IndexM (m : Type → Type) := ExceptT IndexError m

/-- Places for interpretations of a query. -/
structure PlaceIndex (m : Type → Type) where
  /-- The place that is the country, the largest one if there are several. -/
  countryPlace : String → Option (BoundingBox Float) → IndexM m (Option Nat)
  /-- Places of a type in the search area, nearest first. -/
  areaPlaces : AreaQuery → IndexM m (List Nat)
  /-- Postcode areas of a code. -/
  postcodes : PostcodeQuery → IndexM m (List Nat)
  /-- Places by name and address, best first. -/
  namedPlaces : NamedPlaceQuery → IndexM m (List NamedPlaceHit)
  /-- Addresses with exactly the house number. -/
  houseNumbers : HouseNumberQuery → IndexM m (List Nat)
  /-- Interpolation lines that have the house number. -/
  interpolations : RangeQuery → IndexM m (List Nat)
  /-- Parcel address ranges that have the house number. -/
  parcels : RangeQuery → IndexM m (List Nat)
  /-- Those of the places that are of a type, given the excluded places and a limit. -/
  ofType : List Nat → PlaceType → List Nat → Nat → IndexM m (List Nat)
  /-- Places of a type close to any of the places, nearest first, given the excluded places and a
  limit. -/
  nearby : List Nat → PlaceType → Option NearPoint → List Nat → Nat → IndexM m (List Nat)
  /-- Those of the places whose own postcode is another one. -/
  otherPostcode : List Nat → String → IndexM m (List Nat)
  /-- Those of the places of a source whose address rank or search rank is in a range or whose
  address rank is one of some others. -/
  withRanks : Source → List Nat → RankRange → List Nat → IndexM m (List Nat)

/-- Places for points. -/
structure ReverseIndex (m : Type → Type) where
  /-- The closest street or place of address rank from 26 to a greatest one within a radius, no
  boundaries. -/
  nearestFeature : Point Float → Nat → Float → IndexM m (Option FeatureHit)
  /-- The closest place of address rank above 28 within a radius that belongs to a parent. -/
  nearestChild : Nat → Point Float → Float → IndexM m (Option FeatureHit)
  /-- The closest parcel address range within a radius that belongs to a street. -/
  nearestParcel : Nat → Point Float → Float → IndexM m (Option RangeHit)
  /-- The closest interpolation line within a radius. -/
  nearestInterpolation : Point Float → Float → IndexM m (Option RangeHit)
  /-- Named areas whose box covers a point, from a least to a greatest address rank, highest rank
  first and no more than a limit. -/
  areasAround : Point Float → Nat → Nat → Nat → IndexM m (List AreaHit)
  /-- Places recorded as points, around a point. -/
  placeNodes : PlaceNodeQuery → IndexM m (List PlaceNode)
  /-- The code of the country that a point is in. -/
  countryAt : Point Float → IndexM m (Option String)
  /-- The place that is the country and closest to a point. -/
  countryPlaceNear : String → Point Float → IndexM m (Option Nat)

end Geocoding
