import Geocoding.Config
import Geocoding.Constraints
import Geocoding.Interpretation
import Geocoding.Position
import Geocoding.Token

/-!
# Extending an interpretation by a token

`Token.fits` tells whether a token can be added to an interpretation at a position at all, and
`Token.extend` lists the interpretations that result: at most two, since a postcode can be searched
for or narrow a search, a house number can be the name of a building, and a partial word can belong
to the name or to the address. Every extension costs at least one.
-/

namespace Geocoding

namespace Token

/-- Whether the token can be added to the interpretation. -/
def fits (c : Constraints) (s : Interpretation) (pos : Position) : Token → Bool
  | country _ code => s.country.isNone && pos.mayBe .country && c.allows code
  | postcode .. => s.postcode.isNone && pos.mayBe .postalcode
  | houseNumber .. => s.houseNumber.isNone && s.mode != .postcode && pos.mayBe .street
  | special _ _ mode =>
    s.mode == .plain && pos.isUntyped &&
      (mode != .plain || !(s.hasAnyAddress || s.houseNumber.isSome || s.country.isSome))
  | word _ => pos.role != .country

/-- What a country costs that is not at the end of the query, where countries are expected. -/
def countryNotLastCost : Nat := 5

/-- A country is read. -/
def extendCountry (code : String) (s : Interpretation) (pos : Position) : List Interpretation :=
  if pos.isLast then [(s.charge 1).readCountry code]
  else [((s.charge (1 + countryNotLastCost)).closeName).readCountry code]

/-- A postcode is searched for, at the start of the query or in its own field, or narrows a search
that has a name or stands in its own field. Short postcodes are less plausible there. -/
def extendPostcode (id : Option Nat) (code : String) (s : Interpretation) (pos : Position) :
    List Interpretation :=
  let searched :=
    if s.mode = .plain && (pos.isFirst || pos.role = .postalcode) then
      [(s.charge 1).searchPostcode id code]
    else []
  let narrowing :=
    if s.mode ≠ .postcode && (pos.role = .postalcode || s.hasName) then
      [((s.charge (1 + (4 - code.length))).closeName).readPostcode code]
    else []
  searched ++ narrowing

/-- What a house number costs: more if it does not look like one, if places of a type are searched
for, if the vocabulary does not know it, and in the middle of an address, where no house number
belongs. -/
def houseNumberCost (id : Option Nat) (text : String) (s : Interpretation) : Nat :=
  1 + (if isMostlyNumeric text then 0 else 1) + (if s.mode = .plain then 0 else 1) +
    (if id.isNone then 1 else 0) + (if s.hasAnyAddress || s.postcode.isSome then 1 else 0)

/-- A house number is read as such, or as the name of a building if it can still be one. -/
def extendHouseNumber (id : Option Nat) (text : String) (s : Interpretation) (pos : Position) :
    List Interpretation :=
  let cost := houseNumberCost id text s
  ((s.charge cost).closeName).readHouseNumber text ::
    match id with
    | some id =>
      if (!s.hasName || s.namePhrase = some pos.phrase) && !s.hasAddress then
        [(s.charge cost).readHouseName id]
      else []
    | none => []

/-- The mode of a phrase that does not settle it: the named place if the phrase comes first, after a
name or in a limited area, and places near by otherwise. -/
def inferredMode (c : Constraints) (s : Interpretation) (pos : Position) : SearchMode :=
  if pos.isFirst || s.hasName || c.isBounded then .named else .near

/-- A phrase stands for a type of places. It costs more if its mode is inferred and away from the
start of the query. -/
def extendSpecial (c : Constraints) (placeType : PlaceType) (mode : SearchMode) (s : Interpretation)
    (pos : Position) : List Interpretation :=
  let (mode, cost) := if mode = .plain then (inferredMode c s pos, 3) else (mode, 0)
  let place := if pos.isFirst then 2 else if pos.isLast then 4 else 6
  let crowded := if s.houseNumber.isSome then 1 else 0
  [((s.charge (cost + place + crowded)).closeName).withPlaceType mode placeType]

/-- A full word is a whole name, in a structured query in the first phrase only; once there is a
name, terms of several words belong to the address. -/
def extendFullWord (w : WordToken) (t : FrequencyThresholds) (s : Interpretation) (pos : Position) :
    List Interpretation :=
  if s.hasName || !(pos.isInFirstPhrase || pos.isUntyped) then
    if 1 < w.wordCount && (pos.isUntyped || !pos.isInFirstPhrase) then
      [((s.charge 1).closeName).readAddressWord w.id true]
    else []
  else if !s.hasAnyName then [(s.charge 1).readFullName w.id (t.isRare w.occurrences)]
  else []

/-- A partial word belongs to the address once there is a name. -/
def addressReading (w : WordToken) (t : FrequencyThresholds) (s : Interpretation) (pos : Position) :
    List Interpretation :=
  let common := t.isCommon w.occurrences
  if (pos.isUntyped || !pos.isInFirstPhrase) && s.hasName then
    [(s.charge (1 + w.isNumeric.toNat + common.toNat)).readAddressWord w.id !common]
  else []

/-- A partial word belongs to the name, as long as neither postcode nor address are read and the
name comes from the same phrase. -/
def nameReading (w : WordToken) (t : FrequencyThresholds) (s : Interpretation) (pos : Position) :
    List Interpretation :=
  let common := t.isCommon w.occurrences
  if s.postcode.isNone && !s.hasAnyAddress &&
      (!s.hasAnyName || s.namePhrase = some pos.phrase) then
    let charged := s.charge (1 + (!s.hasAnyName).toNat + w.isNumeric.toNat)
    let settled := if common then charged
      else charged.settleRareName (!s.hasName && t.isRare w.occurrences)
    [settled.readNameWord w.id (!common) pos.phrase]
  else []

/-- The interpretations that result from adding the token, which should fit. -/
def extend (c : Constraints) (t : FrequencyThresholds) (s : Interpretation) (pos : Position) :
    Token → List Interpretation
  | country _ code => extendCountry code s pos
  | postcode id code _ => extendPostcode id code s pos
  | houseNumber id text => extendHouseNumber id text s pos
  | special _ placeType mode => extendSpecial c placeType mode s pos
  | word w =>
    if w.isFull then extendFullWord w t s pos
    else addressReading w t s pos ++ nameReading w t s pos

end Token

end Geocoding
