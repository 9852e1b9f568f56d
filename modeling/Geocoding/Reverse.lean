import Geocoding.Best
import Geocoding.Index
import Geocoding.Index.Interpolation

/-!
# Reverse lookup

`Locator.locate` finds the place that a point belongs to. It is a cascade: the street or place close
to the point, then the area around it, then the country. A step is taken only if the ones before
found nothing and the level of detail asked for allows it.
-/

namespace Geocoding

/-- The level of detail of a reverse lookup. -/
structure ReverseConfig where
  /-- Map zoom; between street and building if there is none. -/
  zoom : Option Nat := none
  /-- Whether computed house numbers are allowed. -/
  interpolation : Bool := true
deriving DecidableEq, Repr

/-- The greatest address rank that a map zoom shows. -/
def maxRankOfZoom : Option Nat → Nat
  | none => 28
  | some zoom =>
    if zoom ≤ 2 then 2
    else if zoom ≤ 4 then 4
    else if zoom ≤ 5 then 8
    else if zoom ≤ 7 then 10
    else if zoom ≤ 9 then 12
    else if zoom ≤ 11 then 17
    else if zoom ≤ 13 then 18
    else if zoom ≤ 15 then 22
    else if zoom ≤ 16 then 26
    else if zoom ≤ 17 then 27
    else if zoom ≤ 19 then 30
    else 28

/-- How far a place of a search rank reaches around its point, in degrees. -/
def placeReach (searchRank : Nat) : Float :=
  Double.mulAdd 14 (Float.exp (-0.2 * Float.ofNat searchRank)) (-0.03)

/-- What a reverse lookup depends on besides the point. -/
structure Locator (m : Type → Type) where
  index : ReverseIndex m
  /-- Codes of the countries whose parcels have house numbers. -/
  parcelCountries : List String := []

namespace Locator

/-- Radius for the closest street or place, in degrees. -/
def featureRadius : Float := 0.006

/-- Radius for places that belong to a street, in degrees. -/
def childRadius : Float := 0.001

/-- Radius for places when only the country is known, in degrees. -/
def countryRadius : Float := 1.8

/-- How many areas around the point are looked at. -/
def areaLimit : Nat := 50

/-- The greatest address rank of areas when nothing was found on street level. -/
def largeAreaRank : Nat := 25

/-- What was found on street level. -/
structure Found where
  candidate : Candidate
  addressRank : Nat
  distance : Float

/-- A street or place. -/
def Found.ofFeature (hit : FeatureHit) : Found :=
  ⟨.primary hit.id (some hit.addressRank), hit.addressRank, hit.distance⟩

/-- A place that belongs to a street; it is at house level. -/
def Found.ofChild (hit : FeatureHit) : Found :=
  ⟨.primary hit.id (some hit.addressRank), 30, hit.distance⟩

/-- An address on a range, with its computed house number. -/
def Found.ofRange (source : Source) (hit : RangeHit) : Found where
  candidate :=
    { source, id := hit.id, houseNumber := some hit.houseNumber, addressRank := some 30 }
  addressRank := 30
  distance := hit.distance

/-- A place node with its distance, if it reaches the point. -/
def reaching? (point : Point Float) (node : PlaceNode) : Option (PlaceNode × Float) :=
  let distance := point.distance node.location
  if distance ≤ placeReach node.searchRank then some (node, distance) else none

/-- Closer nodes come first, and nodes of higher search rank among equally close ones. -/
def closer (x y : PlaceNode × Float) : Bool :=
  x.2 < y.2 || !(y.2 < x.2) && y.1.searchRank < x.1.searchRank

/-- Nodes of higher search rank come first, and closer ones among those of equal rank. -/
def moreDetailed (x y : PlaceNode × Float) : Bool :=
  y.1.searchRank < x.1.searchRank || x.1.searchRank = y.1.searchRank && x.2 < y.2

/-- The candidate for a place node. -/
def ofNode (node : PlaceNode × Float) : Candidate :=
  .primary node.1.id (some node.1.addressRank)

variable {m : Type → Type} [Monad m] (l : Locator m)

/-- A place that belongs to the street takes its place if that much detail is asked for. -/
def refineByChild (point : Point Float) (maxRank : Nat) (hit : FeatureHit) : IndexM m Found := do
  if hit.addressRank ≤ 27 && 27 < maxRank then
    match ← l.index.nearestChild hit.id point childRadius with
    | some child => return .ofChild child
    | none => return .ofFeature hit
  else return .ofFeature hit

/-- A street or place close to the point; the street gives way to a place or to a parcel address
that belongs to it. -/
def refine (point : Point Float) (maxRank : Nat) (hit : FeatureHit) : IndexM m Found := do
  let found ← l.refineByChild point maxRank hit
  if hit.country.any l.parcelCountries.contains && found.addressRank ≤ 27 && 28 ≤ maxRank then
    match ← l.index.nearestParcel hit.id point childRadius with
    | some parcel => return .ofRange .parcel parcel
    | none => return found
  else return found

/-- The radius for interpolation lines: close to a street, no farther than a house, and as for
streets if nothing was found. -/
def lineRadius : Option Found → Float
  | some found => if found.addressRank < 28 then childRadius else found.distance
  | none => featureRadius

/-- The street, place or address close to the point. A line that gives a house number takes
precedence over the street, of which it may be another piece. -/
def streetLevel (point : Point Float) (maxRank : Nat) (interpolation : Bool) :
    IndexM m (Option Candidate) := do
  let found ← match ← l.index.nearestFeature point maxRank featureRadius with
    | some hit => some <$> l.refine point maxRank hit
    | none => pure none
  let found ← if interpolation && 30 ≤ maxRank then do
      match ← l.index.nearestInterpolation point (lineRadius found) with
      | some line => pure (some (.ofRange .interpolation line))
      | none => pure found
    else pure found
  return found.map (·.candidate)

/-- The areas in the order in which they are tried, highest address rank first. -/
def byDetail (areas : List AreaHit) : List AreaHit :=
  areas.mergeSort fun a b => b.addressRank ≤ a.addressRank

/-- The place node to prefer to an area that contains the point, if there is one. -/
def nodeInArea (point : Point Float) (maxRank : Nat) (area : AreaHit) :
    IndexM m (Option Candidate) := do
  if area.addressRank ≠ maxRank && area.searchRank < maxRank then
    let nodes ← l.index.placeNodes {
      point, radius := placeReach area.searchRank, minRank := area.searchRank + 1, maxRank }
    let inside := nodes.filter fun n => 0 < n.addressRank && area.area.contains n.location
    return (best? closer (inside.filterMap (reaching? point))).map ofNode
  else return none

/-- The most detailed area that contains the point, or a place node inside it that is more detailed
still. -/
def containingArea (point : Point Float) (maxRank : Nat) : IndexM m (Option Candidate) := do
  let maxRank := min (max maxRank 5) 25
  let areas ← l.index.areasAround point 5 maxRank areaLimit
  match (byDetail areas).find? (·.area.contains point) with
  | none => return none
  | some area =>
    match ← l.nodeInArea point maxRank area with
    | some node => return some node
    | none => return some (.primary area.id (some area.addressRank))

/-- The place node of a country that is the most detailed around the point. -/
def nodeInCountry (point : Point Float) (maxRank : Nat) (code : String) :
    IndexM m (Option Candidate) := do
  if 4 < maxRank then
    let nodes ← l.index.placeNodes {
      point, radius := countryRadius, minRank := 5, maxRank := min maxRank 25
      country := some code }
    return (best? moreDetailed (nodes.filterMap (reaching? point))).map ofNode
  else return none

/-- A place node of the country that the point is in, or the country itself. -/
def inCountry (point : Point Float) (maxRank : Nat) : IndexM m (Option Candidate) := do
  match ← l.index.countryAt point with
  | none => return none
  | some code =>
    match ← l.nodeInCountry point maxRank code with
    | some node => return some node
    | none => return (← l.index.countryPlaceNear code point).map (.primary · (some 4))

/-- The area that contains the point, or else a place of the country. -/
def largeArea (point : Point Float) (maxRank : Nat) : IndexM m (Option Candidate) := do
  let area ← if 4 < maxRank then l.containingArea point maxRank else pure none
  match area with
  | some found => return some found
  | none => l.inCountry point maxRank

/-- The place that the point belongs to. -/
def locate (point : Point Float) (config : ReverseConfig) : IndexM m (Option Candidate) := do
  let maxRank := maxRankOfZoom config.zoom
  if 26 ≤ maxRank then
    match ← l.streetLevel point maxRank config.interpolation with
    | some found => return some found
    | none => l.largeArea point largeAreaRank
  else l.largeArea point maxRank

end Locator

end Geocoding
