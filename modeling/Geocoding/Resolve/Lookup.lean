import Geocoding.Index
import Geocoding.Interpretation
import Geocoding.Text.CharClass

/-!
# Looking up an interpretation

`lookup` asks the index for the places that one interpretation means. What is asked depends on what
was read: a country alone, a type of places in an area, a postcode, or a name with its address, and
then a house number or a type of places on top of that.
-/

namespace Geocoding

/-- What all lookups of a query have in common. -/
structure Scope where
  /-- The address ranks to be found. -/
  ranks : RankRange := .full
  /-- Address ranks that may be found in addition. -/
  allowed : List Nat := []
  /-- The largest number of places per lookup. -/
  limit : Nat := 20
  /-- Codes of the countries whose parcels have house numbers. -/
  parcelCountries : List String := []
deriving DecidableEq, Repr

namespace Lookup

/-- The limit for named places that are narrowed down by a house number or a type afterwards. -/
def narrowedLimit : Nat := 40

/-- The ranks of places that can have house numbers. -/
def houseParentRanks : RankRange := ⟨16, 30⟩

/-- The country that was read, or else those of the constraints. -/
def countries (c : Constraints) (s : Interpretation) : List String :=
  match s.country with
  | some code => [code]
  | none => c.countries

/-- The interpretation is about a country whose parcels have house numbers, or may be. -/
def parcelsEnabled (c : Constraints) (scope : Scope) (s : Interpretation) : Bool :=
  !scope.parcelCountries.isEmpty &&
    match s.country with
    | some code => scope.parcelCountries.contains code
    | none => c.countries.isEmpty || c.countries.any scope.parcelCountries.contains

/-- The digits a house number begins with, as a number below `2 ^ 32`. -/
def leadingNumber? (text : String) : Option Nat :=
  let digits := text.toList.takeWhile Text.isAsciiDigit
  let number := digits.foldl (fun n d => 10 * n + (d.toNat - '0'.toNat)) 0
  if !digits.isEmpty && number < UInt32.size then some number else none

/-- The query for places by the name of the interpretation. -/
def namedPlaceQuery (c : Constraints) (scope : Scope) (s : Interpretation) : NamedPlaceQuery where
  name := s.name
  address := s.address
  isRare := s.hasRareName
  countries := countries c s
  ranks :=
    if s.houseNumber.isSome then some houseParentRanks
    else if (s.placeType.isNone || s.mode = .named) && 0 < scope.ranks.min then some scope.ranks
    else none
  houseNumber := s.houseNumber.filter fun _ => s.hasRareName || s.hasAddress || s.postcode.isSome
  near := c.near
  postcode := s.postcode
  box := c.boundingBox?
  excluded := c.excluded
  fullNameTerms := c.fullNameTerms
  limit := if s.houseNumber.isSome || s.placeType.isSome then narrowedLimit else scope.limit

/-- A place found by name. -/
def ofNamedPlace (hit : NamedPlaceHit) : Candidate :=
  { Candidate.primary hit.id (some hit.addressRank) with exactMatches := hit.exactMatches }

/-- A place without the house number searched for, one rank down if it is a street and two if it is
an area. Houses and points of interest are no parents of addresses. -/
def withoutNumber? (parent : Candidate) : Option Candidate :=
  match parent.addressRank with
  | some rank =>
    if rank < 28 then some { parent with rank := parent.rank + (if 26 ≤ rank then 1 else 2) }
    else none
  | none => none

/-- The ids of primary candidates by their address rank. -/
def idsByRank (p : Nat → Bool) (set : CandidateSet) : List Nat :=
  (set.entries.filter fun c => c.source = .primary && c.addressRank.any p).map (·.id)

section

variable {m : Type → Type} [Monad m] (index : PlaceIndex m) (c : Constraints) (scope : Scope)
  (s : Interpretation)

/-- The country itself, if countries are to be found. -/
def country (code : String) : IndexM m CandidateSet := do
  if scope.ranks.contains 4 then
    match ← index.countryPlace code c.boundingBox? with
    | some id => return .ofList [.primary id (some 4)]
    | none => return ∅
  else return ∅

/-- Places of a type in the search area, which must be limited. -/
def areaPlaces : IndexM m CandidateSet :=
  match s.placeType with
  | some placeType =>
    if c.isBounded then do
      let ids ← index.areaPlaces {
        placeType, near := c.near, box := c.boundingBox?, countries := countries c s
        excluded := c.excluded, limit := scope.limit }
      return .ofList (ids.map (Candidate.primary · none))
    else return ∅
  | none => return ∅

/-- Postcode areas. -/
def postcodes : IndexM m CandidateSet :=
  match s.postcode with
  | some postcode => do
    let ids ← index.postcodes {
      postcode, address := s.address, countries := countries c s, box := c.boundingBox?
      excluded := c.excluded, limit := scope.limit }
    return .ofList (ids.map fun id => { source := .postcode, id })
  | none => return ∅

/-- Places by name and address. -/
def namedPlaces : IndexM m CandidateSet := do
  let hits ← index.namedPlaces (namedPlaceQuery c scope s)
  return .ofList (hits.map ofNamedPlace)

/-- Address ranges of the streets that have the number: interpolation lines if nothing was found so
far, and parcels if there is still nothing and the country has any. -/
def ranges (number : Nat) (streets : List Nat) (found : CandidateSet) : IndexM m CandidateSet := do
  let query : RangeQuery := { houseNumber := number, streets, excluded := c.excluded }
  let found ← if found.isEmpty then do
      let ids ← index.interpolations query
      pure <| found.extend <| ids.map fun id =>
        { source := .interpolation, id, houseNumber := some number }
    else pure found
  if found.isEmpty && parcelsEnabled c scope s then do
    let ids ← index.parcels query
    return found.extend (ids.map fun id => { source := .parcel, id, houseNumber := some number })
  else return found

/-- Addresses with the house number among the named places, followed by the named places that can be
its parents. -/
def addresses (houseNumber : String) (parents : CandidateSet) : IndexM m CandidateSet := do
  let streets := idsByRank (· ≤ 27) parents
  let places := idsByRank (30 ≤ ·) parents
  let found ← if streets.isEmpty && places.isEmpty then pure ∅ else do
    let ids ← index.houseNumbers { houseNumber, streets, places, excluded := c.excluded }
    pure (CandidateSet.ofList (ids.map (Candidate.primary · (some 30))))
  let found ← match leadingNumber? houseNumber with
    | some number =>
      if streets.isEmpty then pure found else ranges index c scope s number streets found
    | none => pure found
  return (parents.entries.filterMap withoutNumber?).foldl CandidateSet.replace found

/-- Places of a type among the named places or close to them, depending on the mode. -/
def typedPlaces (placeType : PlaceType) (parents : CandidateSet) : IndexM m CandidateSet := do
  let ids := parents.idsIn .primary
  if ids.isEmpty then return ∅
  let typed ← if s.mode = .ofType || s.mode = .named then
      index.ofType ids placeType c.excluded scope.limit
    else pure []
  let near ← if s.mode = .ofType || s.mode = .near || s.mode = .inside then
      index.nearby ids placeType c.near c.excluded scope.limit
    else pure []
  return (CandidateSet.ofList (typed.map (Candidate.primary · none))).extend
    (near.map (Candidate.primary · none))

/-- Places by name and address, narrowed down by house number and type. -/
def narrowedPlaces : IndexM m CandidateSet := do
  let found ← namedPlaces index c scope s
  let found ← match s.houseNumber with
    | some houseNumber =>
      if found.isEmpty then pure found else addresses index c scope s houseNumber found
    | none => pure found
  match s.placeType with
  | some placeType =>
    if found.isEmpty then pure found else typedPlaces index c scope s placeType found
  | none => pure found

/-- What the interpretation is about, before postcodes are compared. -/
def places : IndexM m CandidateSet :=
  if s.name.isEmpty && s.mode = .plain && s.placeType.isNone && c.near.isNone &&
      s.country.isSome then
    match s.country with
    | some code => country index c scope code
    | none => return ∅
  else if s.name.isEmpty && s.address.isEmpty then areaPlaces index c scope s
  else if s.mode = .postcode then postcodes index c scope s
  else narrowedPlaces index c scope s

/-- Places of the primary source go one rank down if they have another postcode than the given
one. -/
def comparePostcodes (postcode : String) (found : CandidateSet) : IndexM m CandidateSet := do
  let ids := found.idsIn .primary
  if ids.isEmpty then return found
  let others ← index.otherPostcode ids postcode
  return others.foldl (fun found id => found.demote (.primary, id)) found

end

end Lookup

/-- The places that an interpretation means. -/
def lookup {m : Type → Type} [Monad m] (index : PlaceIndex m) (c : Constraints) (scope : Scope)
    (s : Interpretation) : IndexM m CandidateSet := do
  let found ← Lookup.places index c scope s
  match s.postcode with
  | some postcode => Lookup.comparePostcodes index postcode found
  | none => return found

end Geocoding
