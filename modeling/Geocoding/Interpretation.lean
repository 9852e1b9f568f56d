import Geocoding.PlaceType
import Geocoding.TermSet

/-!
# Interpretations of a query

An interpretation says which words of the query are the name of a place and which its address, and
what country, postcode, house number and type of place were read (`Interpretation`). It has a cost:
the less plausible the reading, the higher.

Words that very many places carry are kept apart from the words to search for.
-/

namespace Geocoding

/-- One reading of the query, together with its cost. -/
structure Interpretation where
  cost : Nat := 0
  country : Option String := none
  /-- Words of the name that are searched for. -/
  name : TermSet := ∅
  /-- Words of the name that are too common to be searched for. -/
  commonName : TermSet := ∅
  /-- Words of the address that are searched for. -/
  address : TermSet := ∅
  /-- Words of the address that are too common to be searched for. -/
  commonAddress : TermSet := ∅
  /-- The name is rare enough to be searched for without an address. -/
  hasRareName : Bool := false
  /-- The name is a house number, which is no name without an address. -/
  needsAddress : Bool := false
  mode : SearchMode := .plain
  placeType : Option PlaceType := none
  houseNumber : Option String := none
  postcode : Option String := none
  /-- The phrase that the words of the name are from, as long as the name can grow. -/
  namePhrase : Option Nat := none
deriving DecidableEq

namespace Interpretation

/-- The greatest cost there is. -/
def maxCost : Nat := UInt32.size - 1

/-- The interpretation of nothing. -/
def root : Interpretation := {}

/-- The search for a type of places, at no cost. -/
def withPlaceType (s : Interpretation) (mode : SearchMode) (placeType : PlaceType) :
    Interpretation :=
  { s with mode, placeType := some placeType }

/-- There is a word to search for in the name. -/
def hasName (s : Interpretation) : Bool :=
  !s.name.isEmpty

/-- There is a word in the name, be it common or not. -/
def hasAnyName (s : Interpretation) : Bool :=
  !s.name.isEmpty || !s.commonName.isEmpty

/-- There is a word to search for in the address. -/
def hasAddress (s : Interpretation) : Bool :=
  !s.address.isEmpty

/-- There is a word in the address, be it common or not. -/
def hasAnyAddress (s : Interpretation) : Bool :=
  !s.address.isEmpty || !s.commonAddress.isEmpty

/-- The place among interpretations of equal cost: plain searches come before special ones, and
short house numbers before long ones. -/
def tieBreak (s : Interpretation) : Nat :=
  s.mode.weight + (s.houseNumber.map String.utf8ByteSize).getD 0

/-- Whether an interpretation may stand before another: it costs less, or as much and the tie-break
does not speak against it. -/
def notAfter (s t : Interpretation) : Bool :=
  s.cost < t.cost || s.cost == t.cost && s.tieBreak ≤ t.tieBreak

/-- Best interpretations first, in the given order among equals. -/
def sorted (states : List Interpretation) : List Interpretation :=
  states.mergeSort notAfter

/-- There is something to search for: a name, or else a type or a country without a house number;
and a house number that serves as a name has an address. -/
def isValid (s : Interpretation) : Bool :=
  (s.hasName || s.houseNumber.isNone && (s.placeType.isSome || s.country.isSome)) &&
    !(s.needsAddress && s.address.isEmpty)

/-! ## Steps

An interpretation grows by charging a cost and writing some of its fields. -/

/-- The interpretation at a higher cost. -/
def charge (s : Interpretation) (cost : Nat) : Interpretation :=
  { s with cost := min (s.cost + cost) maxCost }

/-- The name is complete. -/
def closeName (s : Interpretation) : Interpretation :=
  { s with namePhrase := none }

/-- The country is read. -/
def readCountry (s : Interpretation) (code : String) : Interpretation :=
  { s with country := some code }

/-- The postcode is read as a part of the address. -/
def readPostcode (s : Interpretation) (code : String) : Interpretation :=
  { s with postcode := some code }

/-- The postcode is what is searched for, and words read as a name so far are its address. Zero
stands for the id of a postcode that the vocabulary does not know. -/
def searchPostcode (s : Interpretation) (id : Option Nat) (code : String) : Interpretation :=
  { s with
    address := s.address ∪ s.name
    name := .singleton (id.getD 0)
    mode := .postcode
    postcode := some code }

/-- The house number is read. -/
def readHouseNumber (s : Interpretation) (text : String) : Interpretation :=
  { s with houseNumber := some text }

/-- The house number is read as the name of a building, and words read as a name so far are its
address. -/
def readHouseName (s : Interpretation) (id : Nat) : Interpretation :=
  { s with
    address := s.name
    name := .singleton id
    hasRareName := false
    needsAddress := true }

/-- A full word is read as the whole name. -/
def readFullName (s : Interpretation) (id : Nat) (rare : Bool) : Interpretation :=
  { s with name := .singleton id, hasRareName := rare }

/-- A word of the address is read. -/
def readAddressWord (s : Interpretation) (id : Nat) (searchable : Bool) : Interpretation :=
  if searchable then { s with address := s.address.insert id }
  else { s with commonAddress := s.commonAddress.insert id }

/-- A word of the name is read. -/
def readNameWord (s : Interpretation) (id : Nat) (searchable : Bool) (phrase : Nat) :
    Interpretation :=
  let s := { s with namePhrase := some phrase }
  if searchable then { s with name := s.name.insert id }
  else { s with commonName := s.commonName.insert id }

/-- Whether the name is rare is settled. -/
def settleRareName (s : Interpretation) (rare : Bool) : Interpretation :=
  { s with hasRareName := rare }

/-! ## Display -/

/-- A field with its label, or nothing. -/
def field (label : String) : Option String → String
  | some value => " " ++ label ++ "=" ++ value
  | none => ""

/-- The words to search for and the common words, if there is any word. -/
def wordField (label : String) (words common : TermSet) : String :=
  if words.isEmpty && common.isEmpty then ""
  else field label (some ("\x7b" ++ words.listed ++ "|" ++ common.listed ++ "\x7d"))

/-- The cost and what was read. -/
def display (s : Interpretation) : String :=
  "[" ++ toString s.cost ++ "]" ++ field "cc" s.country ++ wordField "name" s.name s.commonName ++
    wordField "addr" s.address s.commonAddress ++
    field "op" (if s.mode = .plain then none else some s.mode.name) ++
    field "type" (s.placeType.map (·.display)) ++ field "hnr" s.houseNumber ++
    field "pc" s.postcode ++ (if s.hasRareName then " rare" else "")

end Interpretation

end Geocoding
