import Geocoding.Atlas
import Geocoding.Best
import Geocoding.Index

/-!
# Forward searches in an atlas

The answers of an atlas to the queries of a forward search, and the atlas as a `PlaceIndex`, which
never fails. Every query goes through all places.
-/

namespace Geocoding

/-- Whether something in a country is in one of some countries. No countries mean no restriction. -/
def inCountries (codes : List String) (country : Option String) : Bool :=
  codes.isEmpty || country.any codes.contains

/-- Whether a point is in a box, if there is one. -/
def inBox (box : Option (BoundingBox Float)) (point : Point Float) : Bool :=
  box.all (·.contains point)

namespace AtlasPlace

/-- All terms are among those of the name. -/
def hasName (p : AtlasPlace) (terms : TermSet) : Bool :=
  terms.ids.all (· ∈ p.nameTerms)

/-- All terms are among those of the name and the address. -/
def hasAddress (p : AtlasPlace) (terms : TermSet) : Bool :=
  terms.ids.all fun t => t ∈ p.addressTerms || t ∈ p.nameTerms

/-- How many terms are among those of the name and the address. -/
def countTerms (p : AtlasPlace) (terms : TermSet) : Nat :=
  terms.ids.countP fun t => t ∈ p.nameTerms || t ∈ p.addressTerms

/-- The house number is the given one, up to its normal form. -/
def hasHouseNumber (p : AtlasPlace) (number : String) : Bool :=
  p.record.houseNumber.any (normalize · = normalize number)

/-- The postcode of the place is the given one. -/
def hasPostcode (p : AtlasPlace) (postcode : String) : Bool :=
  p.record.postcode.any (canonicalPostcode · = canonicalPostcode postcode)

/-- The place has a postcode, and it is not the given one. -/
def hasOtherPostcode (p : AtlasPlace) (postcode : String) : Bool :=
  p.record.postcode.any (canonicalPostcode · ≠ canonicalPostcode postcode)

/-- The address rank or the search rank is in a range. -/
def hasRank (p : AtlasPlace) (ranks : RankRange) : Bool :=
  ranks.contains p.record.addressRank || ranks.contains p.record.searchRank

/-- The distance between the locations of two places. -/
def distance (p q : AtlasPlace) : Float :=
  p.record.location.distance q.record.location

/-- The place lies in a preferred box and close enough to a point, as far as these are given. -/
def isAround (p : AtlasPlace) (near : Option NearPoint) (box : Option (BoundingBox Float)) : Bool :=
  near.all (fun n => p.record.location.distance n.point ≤ n.radius) && inBox box p.record.location

end AtlasPlace

/-- The least of some distances. -/
def leastDistance? (distances : List Float) : Option Float :=
  best? (fun x y => Double.orderKey x < Double.orderKey y) distances

/-- The ids of places, nearest first and by id among equally near ones, no more than a limit. -/
def nearestIds (limit : Nat) (found : List (AtlasPlace × Float)) : List Nat :=
  let sorted := found.mergeSort fun (p, d) (q, e) =>
    ((compare (Double.orderKey d) (Double.orderKey e)).then (compare p.id q.id)).isLE
  (sorted.take limit).map (·.1.id)

namespace Atlas

variable (a : Atlas)

/-- Distance within which a place belongs to a postcode, in degrees. -/
def postcodeRadius : Float := 0.1

/-- Distance within which places of a type are close to a place, in degrees. -/
def nearbyRadius : Float := 0.05

/-- The address rank of the areas of postcodes. -/
def postcodeRank : Nat := 5

/-- The largest country of a code, the last one if there are several. -/
def countryPlace (code : String) (box : Option (BoundingBox Float)) : Option Nat :=
  let found := a.places.filter fun p =>
    p.record.addressRank = 4 && p.record.country = some code && inBox box p.record.location
  (best? (fun p q => Double.orderKey q.record.areaSize ≤ Double.orderKey p.record.areaSize)
    found).map (·.id)

/-- Places of a type in an area, from the middle outwards. -/
def areaPlaces (query : AreaQuery) : List Nat :=
  let centre := (query.near.map (·.point)).or (query.box.map (·.centre))
  let found := a.places.filter fun p =>
    p.record.placeType = query.placeType && !query.excluded.contains p.id &&
      inCountries query.countries p.record.country && p.isAround query.near query.box
  nearestIds query.limit (found.map fun p =>
    (p, (centre.map fun point => p.record.location.distance point).getD 0))

/-- The areas of a postcode, in the order of the gazetteer. -/
def postcodesOf (query : PostcodeQuery) : List Nat :=
  let found := a.postcodes.filter fun p =>
    p.code = canonicalPostcode query.postcode && !query.excluded.contains p.id &&
      inCountries query.countries p.record.country &&
      query.address.ids.all (· ∈ p.addressTerms) && inBox query.box p.record.location
  (found.take query.limit).map (·.id)

/-! ## Named places -/

/-- The distance from the closest area of a postcode. -/
def postcodeDistance? (postcode : String) (p : AtlasPlace) : Option Float :=
  let areas := a.postcodes.filter (·.code = canonicalPostcode postcode)
  leastDistance? (areas.map fun area => p.record.location.distance area.record.location)

/-- The place is the parent of one with the house number. -/
def hasHouseNumberChild (p : AtlasPlace) (number : String) : Bool :=
  a.places.any fun child => child.record.parent = some p.id && child.hasHouseNumber number

/-- A place with what its order among places of a name depends on. -/
structure NamedPlace where
  hit : NamedPlaceHit
  hasHouseNumber : Bool
  distance : Float
  importance : Float

/-- The order of places of a name: those with more of the full words come first, then those with the
house number, then closer ones, then more important ones. -/
def NamedPlace.order (x y : NamedPlace) : Ordering :=
  (compare y.hit.exactMatches x.hit.exactMatches).then <|
  (compare y.hasHouseNumber x.hasHouseNumber).then <|
  (compare (Double.orderKey x.distance) (Double.orderKey y.distance)).then <|
  (compare (Double.orderKey y.importance) (Double.orderKey x.importance)).then <|
  compare x.hit.id y.hit.id

/-- The place has the postcode or is close to it, unless there is an address or no postcode. -/
def matchesPostcode (query : NamedPlaceQuery) (p : AtlasPlace) : Bool :=
  !query.address.isEmpty || query.postcode.all fun postcode =>
    p.hasPostcode postcode || (a.postcodeDistance? postcode p).any (· ≤ postcodeRadius)

/-- The place is what a query for named places asks for. -/
def isNamed (query : NamedPlaceQuery) (p : AtlasPlace) : Bool :=
  !query.excluded.contains p.id && p.hasName query.name && p.hasAddress query.address &&
    inCountries query.countries p.record.country && query.ranks.all p.hasRank &&
    inBox query.box p.record.location &&
    query.near.all (fun n => p.record.distance n.point ≤ n.radius) && a.matchesPostcode query p

/-- A place with what its order depends on. -/
def named (query : NamedPlaceQuery) (p : AtlasPlace) : NamedPlace where
  hit := ⟨p.id, p.record.addressRank, p.countTerms query.fullNameTerms⟩
  hasHouseNumber := query.houseNumber.any (a.hasHouseNumberChild p)
  distance := ((query.near.map fun n => p.record.distance n.point).or
    (query.postcode.bind (a.postcodeDistance? · p))).getD 0
  importance := p.record.importance

/-- Places by name and address, best first. -/
def namedPlaces (query : NamedPlaceQuery) : List NamedPlaceHit :=
  let found := (a.places.filter (a.isNamed query)).map (a.named query)
  ((found.mergeSort fun x y => (x.order y).isLE).take query.limit).map (·.hit)

/-! ## Places that belong to others -/

/-- Addresses of the house number that belong to a street, and places that have the house number. -/
def houseNumbers (query : HouseNumberQuery) : List Nat :=
  let found := a.places.filter fun p =>
    !query.excluded.contains p.id &&
      (p.record.parent.any query.streets.contains || query.places.contains p.id) &&
      p.hasHouseNumber query.houseNumber
  found.map (·.id)

/-- The address ranges of streets that have a house number. -/
def rangesWith (ranges : List AddressRange) (query : RangeQuery) : List Nat :=
  let found := ranges.filter fun r =>
    query.streets.contains r.parent && !query.excluded.contains r.id &&
      query.accepts r.parity r.first r.last
  found.map (·.id)

/-- Those of some places that are of a type. -/
def ofType (ids : List Nat) (placeType : PlaceType) (excluded : List Nat) (limit : Nat) :
    List Nat :=
  let found := ((ids.filter (!excluded.contains ·)).filterMap a.place?).filter
    (·.record.placeType = placeType)
  (found.take limit).map (·.id)

/-- The distance of a place from the closest of its ancestors and the places close to it among
some. -/
def closest? (parents : List AtlasPlace) (radius : Float) (p : AtlasPlace) : Option Float :=
  let near := parents.filter fun q => p.ancestors.contains q.id || p.distance q ≤ radius
  leastDistance? (near.map p.distance)

/-- Places of a type that belong to one of some places or are close to it. The closest ones come
first, either to a point or else to the place. -/
def nearby (ids : List Nat) (placeType : PlaceType) (near : Option NearPoint) (excluded : List Nat)
    (limit : Nat) : List Nat :=
  let parents := ids.filterMap a.place?
  let radius := (near.map (·.radius)).getD nearbyRadius
  let typed := a.places.filter fun p =>
    p.record.placeType = placeType && !excluded.contains p.id
  nearestIds limit <| typed.filterMap fun p =>
    (closest? parents radius p).map fun d =>
      (p, (near.map fun n => p.record.location.distance n.point).getD d)

/-- Those of some places that have another postcode. -/
def otherPostcode (ids : List Nat) (postcode : String) : List Nat :=
  ((ids.filterMap a.place?).filter (·.hasOtherPostcode postcode)).map (·.id)

/-- Those of the places of a source that have a rank. Address ranges have none. -/
def withRanks (source : Source) (ids : List Nat) (ranks : RankRange) (allowed : List Nat) :
    List Nat :=
  match source with
  | .primary =>
    ((ids.filterMap a.place?).filter fun p =>
      p.hasRank ranks || allowed.contains p.record.addressRank).map (·.id)
  | .postcode =>
    ids.filter fun id =>
      (a.postcode? id).isSome && (ranks.contains postcodeRank || allowed.contains postcodeRank)
  | .interpolation | .parcel => []

/-- The atlas as an index of places. -/
def placeIndex {m : Type → Type} [Monad m] : PlaceIndex m where
  countryPlace code box := return a.countryPlace code box
  areaPlaces query := return a.areaPlaces query
  postcodes query := return a.postcodesOf query
  namedPlaces query := return a.namedPlaces query
  houseNumbers query := return a.houseNumbers query
  interpolations query := return rangesWith a.interpolations query
  parcels query := return rangesWith a.parcels query
  ofType ids placeType excluded limit := return a.ofType ids placeType excluded limit
  nearby ids placeType near excluded limit := return a.nearby ids placeType near excluded limit
  otherPostcode ids postcode := return a.otherPostcode ids postcode
  withRanks source ids ranks allowed := return a.withRanks source ids ranks allowed

end Atlas

end Geocoding
