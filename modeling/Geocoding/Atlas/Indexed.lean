import Geocoding.Atlas
import Geocoding.Vocabulary.Registry

/-!
# Atlases with a table of positions

`IndexedAtlas` has the places of an `Atlas` beside a table of the positions of their ids, so that a
place is found without going through all places. The table is made first, and so are the terms of
the names of all places, which stand at the positions of these. The ancestors of a place, the terms
of its address and the parents of address ranges are found by way of the table.
-/

namespace Geocoding

/-- An atlas and where the place of each id stands. -/
structure IndexedAtlas extends Atlas where
  positions : Std.HashMap Nat Nat

namespace IndexedAtlas

/-- Enter the positions of places into a table, the first of which stands at `pos`. No id may be
there before. -/
def enterPositions (positions : Std.HashMap Nat Nat) (pos : Nat) :
    List PlaceRecord → Except AtlasError (Std.HashMap Nat Nat)
  | [] => .ok positions
  | p :: rest =>
    if positions.contains p.id then .error (.duplicatePlace p.id)
    else enterPositions (positions.insert p.id pos) (pos + 1) rest

/-- The ids of the terms of the names and of the house number of a place. -/
def nameTerms (r : Registry) (p : PlaceRecord) : TermSet :=
  let terms := TermSet.ofList (p.names.flatMap r.nameTerms)
  match p.houseNumber.bind fun number => r.houseNumberId? (normalize number) with
  | some id => terms.insert id
  | none => terms

section

variable (positions : Std.HashMap Nat Nat) (records : List PlaceRecord) (terms : List TermSet)

/-- Walk up from `next`, on behalf of `id`, with the ancestors behind those on the way so far. -/
def ancestors (id : Nat) (chain : List Nat) (next : Option Nat) : Except AtlasError (List Nat) :=
  match next with
  | none => .ok chain
  | some parent =>
    if Atlas.maxAncestors ≤ chain.length then .error (.cyclicParents id)
    else
      match positions[parent]? with
      | none => .error (.unknownParent id parent)
      | some pos => ancestors id (chain ++ [parent]) (records[pos]?.bind (·.parent))
termination_by Atlas.maxAncestors - chain.length

/-- The terms of the names of some places. -/
def addressTerms (ids : List Nat) : TermSet :=
  (ids.filterMap (positions[·]?)).foldl (fun all pos => all ∪ terms.getD pos ∅) ∅

/-- A place among its ancestors. -/
def place (p : PlaceRecord) (nameTerms : TermSet) : Except AtlasError AtlasPlace := do
  let ancestors ← ancestors positions records p.id [] p.parent
  return {
    record := p
    nameTerms
    addressTerms := addressTerms positions terms ancestors
    ancestors }

/-- The area of a postcode among its ancestors. -/
def postcode (p : PostcodeRecord) : Except AtlasError AtlasPostcode := do
  let ancestors ← ancestors positions records p.id [] p.parent
  return {
    record := p
    code := canonicalPostcode p.postcode
    addressTerms := addressTerms positions terms ancestors }

/-- Whether the parent of an address range is known. -/
def checkRange (r : AddressRange) : Except AtlasError Unit :=
  if positions.contains r.parent then .ok () else .error (.unknownParent r.id r.parent)

end

/-- The atlas of a gazetteer, whose terms have the ids of a registry. -/
def build (r : Registry) (g : Gazetteer) : Except AtlasError IndexedAtlas := do
  let records := Atlas.byId g.places
  let positions ← enterPositions ∅ 0 records
  let terms := records.map (nameTerms r)
  let places ← (records.zip terms).mapM fun p => place positions records terms p.1 p.2
  let postcodes ← g.postcodes.mapM (postcode positions records terms)
  (g.interpolations ++ g.parcels).forM (checkRange positions)
  return { places, postcodes, interpolations := g.interpolations, parcels := g.parcels, positions }

/-- The atlas of a gazetteer with its own registry. -/
def ofGazetteer (g : Gazetteer) : Except AtlasError IndexedAtlas :=
  build (.ofGazetteer g) g

/-- The place of an id. -/
def place? (a : IndexedAtlas) (id : Nat) : Option AtlasPlace :=
  a.positions[id]?.bind (a.places[·]?)

end IndexedAtlas

end Geocoding
