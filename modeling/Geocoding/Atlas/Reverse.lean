import Geocoding.Atlas
import Geocoding.Best
import Geocoding.Index

/-!
# Reverse searches in an atlas

The answers of an atlas to the queries of a reverse lookup, and the atlas as a `ReverseIndex`, which
never fails. Every query goes through all places.
-/

namespace Geocoding

namespace Atlas

variable (a : Atlas)

/-- Places at most a radius away from a point, with their distances. -/
def within (point : Point Float) (radius : Float) (places : List AtlasPlace) :
    List (AtlasPlace × Float) :=
  (places.map fun p => (p, p.record.distance point)).filter (·.2 ≤ radius)

/-- The closest place within a radius, by id among equally close ones. -/
def closestFeature (point : Point Float) (radius : Float) (places : List AtlasPlace) :
    Option FeatureHit :=
  let closer (x y : AtlasPlace × Float) : Bool :=
    ((compare (Double.orderKey x.2) (Double.orderKey y.2)).then (compare x.1.id y.1.id)).isLT
  (best? closer (within point radius places)).map fun (p, distance) =>
    ⟨p.id, p.record.addressRank, p.record.country, distance⟩

/-- The position on an address range that is closest to a point. -/
def hitOn? (point : Point Float) (r : AddressRange) : Option RangeHit :=
  (r.line.locate? point).map fun position => {
    id := r.id
    parent := r.parent
    first := r.first
    last := r.last
    step := r.parity.step
    fraction := position.fraction
    distance := position.distance }

/-- The closest position on address ranges within a radius. -/
def closestRange (point : Point Float) (radius : Float) (ranges : List AddressRange) :
    Option RangeHit :=
  best? (fun x y => Double.orderKey x.distance < Double.orderKey y.distance)
    ((ranges.filterMap (hitOn? point)).filter (·.distance ≤ radius))

/-- The place is a street, or a place with a name or a house number, and no boundary. -/
def isFeature (maxRank : Nat) (p : AtlasPlace) : Bool :=
  (26 ≤ p.record.addressRank && p.record.addressRank ≤ maxRank) && !p.record.isBoundary &&
    (!p.record.names.isEmpty || p.record.houseNumber.isSome || p.record.addressRank ≤ 27)

/-- The closest street or place up to an address rank. -/
def nearestFeature (point : Point Float) (maxRank : Nat) (radius : Float) : Option FeatureHit :=
  closestFeature point radius (a.places.filter (isFeature maxRank))

/-- The closest place that belongs to a parent. -/
def nearestChild (parent : Nat) (point : Point Float) (radius : Float) : Option FeatureHit :=
  closestFeature point radius <| a.places.filter fun p =>
    p.record.parent = some parent && 28 < p.record.addressRank

/-- The closest parcel address range that belongs to a street. -/
def nearestParcel (parent : Nat) (point : Point Float) (radius : Float) : Option RangeHit :=
  closestRange point radius (a.parcels.filter (·.parent = parent))

/-- The closest interpolation line. -/
def nearestInterpolation (point : Point Float) (radius : Float) : Option RangeHit :=
  closestRange point radius a.interpolations

/-- A named place whose area has a box that covers a point. -/
def areaHit? (point : Point Float) (p : AtlasPlace) : Option AreaHit := do
  let area ← p.record.area
  let box ← area.bbox?
  if !p.record.names.isEmpty && box.contains point then
    some ⟨p.id, p.record.addressRank, p.record.searchRank, area⟩
  else none

/-- The areas around a point, highest address rank first and by id among equals. -/
def areasAround (point : Point Float) (minRank maxRank limit : Nat) : List AreaHit :=
  let found := (a.places.filter fun p =>
    minRank ≤ p.record.addressRank && p.record.addressRank ≤ maxRank).filterMap (areaHit? point)
  (found.mergeSort fun x y =>
    ((compare y.addressRank x.addressRank).then (compare x.id y.id)).isLE).take limit

/-- The place is recorded as a point. -/
def isNode (p : AtlasPlace) : Bool :=
  p.record.placeType.key = "place" && p.record.area.isNone

/-- The places recorded as points around a point. -/
def placeNodes (query : PlaceNodeQuery) : List PlaceNode :=
  let found := a.places.filter fun p =>
    isNode p && (query.minRank ≤ p.record.searchRank && p.record.searchRank ≤ query.maxRank) &&
      query.country.all (fun code => p.record.country = some code) &&
      p.record.location.distance query.point ≤ query.radius
  found.map fun p => ⟨p.id, p.record.searchRank, p.record.addressRank, p.record.location⟩

/-- The code of the first country whose area contains a point. -/
def countryAt (point : Point Float) : Option String :=
  (a.places.find? fun p =>
    p.record.addressRank = 4 && p.record.area.any (·.contains point)).bind (·.record.country)

/-- The country of a code that is closest to a point. -/
def countryPlaceNear (code : String) (point : Point Float) : Option Nat :=
  let closer (p q : AtlasPlace) : Bool :=
    Double.orderKey (p.record.location.distance point) <
      Double.orderKey (q.record.location.distance point)
  (best? closer (a.places.filter fun p =>
    p.record.addressRank = 4 && p.record.country = some code)).map (·.id)

/-- The atlas as an index of places around points. -/
def reverseIndex {m : Type → Type} [Monad m] : ReverseIndex m where
  nearestFeature point maxRank radius := return a.nearestFeature point maxRank radius
  nearestChild parent point radius := return a.nearestChild parent point radius
  nearestParcel parent point radius := return a.nearestParcel parent point radius
  nearestInterpolation point radius := return a.nearestInterpolation point radius
  areasAround point minRank maxRank limit := return a.areasAround point minRank maxRank limit
  placeNodes query := return a.placeNodes query
  countryAt point := return a.countryAt point
  countryPlaceNear code point := return a.countryPlaceNear code point

end Atlas

end Geocoding
