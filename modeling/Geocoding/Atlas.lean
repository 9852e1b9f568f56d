import Geocoding.Vocabulary

/-!
# Atlases

An atlas is a gazetteer made ready for searches (`Atlas.ofGazetteer`). Its places stand in the order
of their ids, and each of them knows its ancestors, the ids of the terms of its names, and those of
its address, which are the names of its ancestors.
-/

namespace Geocoding

/-- Why a gazetteer makes no atlas. -/
inductive AtlasError where
  | duplicatePlace (id : Nat)
  | unknownParent (id parent : Nat)
  | cyclicParents (id : Nat)
deriving DecidableEq, Repr

/-- The text of an atlas error. -/
def AtlasError.message : AtlasError → String
  | duplicatePlace id => "Place " ++ toString id ++ " appears more than once in the fixture"
  | unknownParent id parent =>
    "Place " ++ toString id ++ " refers to unknown parent " ++ toString parent
  | cyclicParents id => "Parent chain of place " ++ toString id ++ " is cyclic"

/-- A place with what is known of its surroundings. -/
structure AtlasPlace where
  record : PlaceRecord
  nameTerms : TermSet
  /-- The names of the ancestors. -/
  addressTerms : TermSet
  /-- The parent, its parent and so on. -/
  ancestors : List Nat
deriving DecidableEq

/-- The area of a postcode with what is known of its surroundings. -/
structure AtlasPostcode where
  record : PostcodeRecord
  /-- The spelling that counts. -/
  code : String
  /-- The names of the ancestors. -/
  addressTerms : TermSet
deriving DecidableEq

/-- A gazetteer made ready for searches. -/
structure Atlas where
  /-- The places in the order of their ids. -/
  places : List AtlasPlace
  postcodes : List AtlasPostcode
  interpolations : List AddressRange
  parcels : List AddressRange
deriving DecidableEq

/-- The id of a place. -/
def AtlasPlace.id (p : AtlasPlace) : Nat :=
  p.record.id

/-- The id of the area of a postcode. -/
def AtlasPostcode.id (p : AtlasPostcode) : Nat :=
  p.record.id

namespace Atlas

/-- How many ancestors a place can have. -/
def maxAncestors : Nat := 32

/-- Places in the order of their ids. -/
def byId (places : List PlaceRecord) : List PlaceRecord :=
  places.mergeSort fun p q => p.id ≤ q.id

/-- The first id that two neighbours share. -/
def duplicate? : List PlaceRecord → Option Nat
  | p :: q :: rest => if p.id = q.id then some q.id else duplicate? (q :: rest)
  | _ => none

/-- The place of an id. -/
def record? (places : List PlaceRecord) (id : Nat) : Option PlaceRecord :=
  places.find? (·.id = id)

/-- The ancestors of `id`, up to a number of them, where `parent` is the next one. -/
def ancestors (places : List PlaceRecord) (id : Nat) :
    Nat → Option Nat → Except AtlasError (List Nat)
  | _, none => .ok []
  | 0, some _ => .error (.cyclicParents id)
  | n + 1, some parent =>
    match record? places parent with
    | none => .error (.unknownParent id parent)
    | some p => return parent :: (← ancestors places id n p.parent)

/-- The ids of the terms of the names and of the house number of a place. -/
def nameTerms (v : Vocabulary) (p : PlaceRecord) : TermSet :=
  .ofList (p.names.flatMap v.nameTerms ++
    (p.houseNumber.bind fun number => v.id? .houseNumber (normalize number)).toList)

/-- The ids of the terms of the names of some places. -/
def addressTerms (v : Vocabulary) (places : List PlaceRecord) (ids : List Nat) : TermSet :=
  (ids.filterMap (record? places)).foldl (fun terms p => terms ∪ nameTerms v p) ∅

/-- A place among its ancestors. -/
def place (v : Vocabulary) (places : List PlaceRecord) (p : PlaceRecord) :
    Except AtlasError AtlasPlace := do
  let ancestors ← ancestors places p.id maxAncestors p.parent
  return {
    record := p
    nameTerms := nameTerms v p
    addressTerms := addressTerms v places ancestors
    ancestors }

/-- The area of a postcode among its ancestors. -/
def postcode (v : Vocabulary) (places : List PlaceRecord) (p : PostcodeRecord) :
    Except AtlasError AtlasPostcode := do
  let ancestors ← ancestors places p.id maxAncestors p.parent
  return {
    record := p
    code := canonicalPostcode p.postcode
    addressTerms := addressTerms v places ancestors }

/-- Whether the parent of an address range is known. -/
def checkRange (places : List PlaceRecord) (r : AddressRange) : Except AtlasError Unit :=
  if (record? places r.parent).isSome then .ok () else .error (.unknownParent r.id r.parent)

/-- The atlas of a gazetteer, whose terms have the ids of a vocabulary. -/
def build (v : Vocabulary) (g : Gazetteer) : Except AtlasError Atlas := do
  let records := byId g.places
  match duplicate? records with
  | some id => throw (.duplicatePlace id)
  | none =>
    let places ← records.mapM (place v records)
    let postcodes ← g.postcodes.mapM (postcode v records)
    (g.interpolations ++ g.parcels).forM (checkRange records)
    return { places, postcodes, interpolations := g.interpolations, parcels := g.parcels }

/-- The atlas of a gazetteer with its own vocabulary. -/
def ofGazetteer (g : Gazetteer) : Except AtlasError Atlas :=
  build (.ofGazetteer g) g

/-- The place of an id. -/
def place? (a : Atlas) (id : Nat) : Option AtlasPlace :=
  a.places.find? (·.id = id)

/-- The area of the first postcode of an id. -/
def postcode? (a : Atlas) (id : Nat) : Option AtlasPostcode :=
  a.postcodes.find? (·.id = id)

end Atlas

end Geocoding
