import Geocoding.Vocabulary
import Std.Data.HashMap

/-!
# Registries

`Registry` has what a `Vocabulary` lists in a table for each kind of meanings, beside a counter for
the next id. A country, a postcode, a house number or a phrase that is new takes an id from the
counter (`Registry.allocate`). A word is counted instead (`Registry.countWord`): it is entered under
the next id if it is not there, and the counter moves on if the word turns out to have that id.
-/

namespace Geocoding

/-- A whole name or a word of a name with its id, and how often it was counted. -/
structure WordCount where
  id : Nat
  count : Nat

/-- A postcode with its id. -/
structure RegisteredPostcode where
  id : Nat
  code : String
  country : Option String

/-- A phrase for a type of places with its id. -/
structure RegisteredPhrase where
  id : Nat
  placeType : PlaceType
  mode : SearchMode

/-- The meanings of terms in tables, with the id for the next one. -/
structure Registry where
  fullWords : Std.HashMap String WordCount := ∅
  partialWords : Std.HashMap String WordCount := ∅
  /-- The countries with their ids. -/
  countries : Std.HashMap String (Nat × String) := ∅
  postcodes : Std.HashMap String RegisteredPostcode := ∅
  houseNumbers : Std.HashMap String Nat := ∅
  phrases : Std.HashMap String (List RegisteredPhrase) := ∅
  nextId : Nat := 1

namespace Registry

/-! ## Registering terms -/

/-- An id that no other term has, and the registry without it. -/
def allocate (r : Registry) : Nat × Registry :=
  (r.nextId, { r with nextId := r.nextId + 1 })

/-- The table of whole names or the one of their words. -/
def words (r : Registry) (isFull : Bool) : Std.HashMap String WordCount :=
  if isFull then r.fullWords else r.partialWords

/-- The registry with another table of words. -/
def withWords (r : Registry) (isFull : Bool) (words : Std.HashMap String WordCount) : Registry :=
  if isFull then { r with fullWords := words } else { r with partialWords := words }

/-- Count a word. It is new exactly if it has the next id now. -/
def countWord (r : Registry) (isFull : Bool) (term : String) : Registry :=
  let next := r.nextId
  let word := (r.words isFull).getD term ⟨next, 0⟩
  let words := (r.words isFull).insert term { word with count := word.count + 1 }
  let r := r.withWords isFull words
  if word.id = next then { r with nextId := r.nextId + 1 } else r

/-- Register a term for the country of a code, unless it stands for one. -/
def addCountry (r : Registry) (term code : String) : Registry :=
  if r.countries.contains term then r
  else
    let (id, r) := r.allocate
    { r with countries := r.countries.insert term (id, Text.lower code) }

/-- Register a house number, unless it is there. -/
def addHouseNumber (r : Registry) (term : String) : Registry :=
  if term.isEmpty || r.houseNumbers.contains term then r
  else
    let (id, r) := r.allocate
    { r with houseNumbers := r.houseNumbers.insert term id }

/-- Register a postcode, unless its term stands for one. -/
def addPostcode (r : Registry) (p : PostcodeRecord) : Registry :=
  let term := normalize p.postcode
  if r.postcodes.contains term then r
  else
    let (id, r) := r.allocate
    { r with postcodes :=
        r.postcodes.insert term ⟨id, canonicalPostcode p.postcode, p.country⟩ }

/-- Register a phrase behind those with the same label. -/
def addPhrase (r : Registry) (p : PlacePhrase) : Registry :=
  let term := normalize p.label
  let (id, r) := r.allocate
  { r with phrases :=
      r.phrases.insert term (r.phrases.getD term [] ++ [⟨id, p.placeType, p.mode⟩]) }

/-! ## The registry of a gazetteer -/

/-- Register a name of a place, which is a country if there is a code. -/
def addName (country : Option String) (r : Registry) (name : String) : Registry :=
  let term := normalize name
  if term.isEmpty then r
  else
    let r := r.countWord true term
    let r := (distinctBy id (Text.splitAt ' ' term)).foldl (·.countWord false ·) r
    match country with
    | some code => (r.addCountry term code).addCountry (normalize code) code
    | none => r

/-- Register the names of a place and its house number. Places of address rank 4 are countries. -/
def addPlace (r : Registry) (p : PlaceRecord) : Registry :=
  let r := p.names.foldl (addName (if p.addressRank = 4 then p.country else none)) r
  match p.houseNumber with
  | some number => r.addHouseNumber (normalize number)
  | none => r

/-- The registry of a gazetteer. -/
def ofGazetteer (g : Gazetteer) : Registry :=
  let r := g.places.foldl addPlace {}
  let r := g.postcodes.foldl addPostcode r
  g.phrases.foldl addPhrase r

/-! ## Registrations in order -/

/-- A registration. -/
inductive Registration where
  | word (isFull : Bool) (term : String)
  | country (term code : String)
  | houseNumber (term : String)
  | postcode (p : PostcodeRecord)
  | phrase (p : PlacePhrase)

/-- The kind of meanings and the term that a registration is for. That of an empty house number is
for nothing. -/
def Registration.key? : Registration → Option (MeaningKind × String)
  | word true term => some (.fullWord, term)
  | word false term => some (.partialWord, term)
  | country term _ => some (.country, term)
  | houseNumber term => if term.isEmpty then none else some (.houseNumber, term)
  | postcode p => some (.postcode, normalize p.postcode)
  | phrase p => some (.phrase, normalize p.label)

/-- Carry out a registration. -/
def register (r : Registry) : Registration → Registry
  | .word isFull term => r.countWord isFull term
  | .country term code => r.addCountry term code
  | .houseNumber term => r.addHouseNumber term
  | .postcode p => r.addPostcode p
  | .phrase p => r.addPhrase p

/-- The registry after some registrations, none of them before. -/
def run (registrations : List Registration) : Registry :=
  registrations.foldl register {}

/-- The registrations of a name. -/
def nameRegistrations (country : Option String) (name : String) : List Registration :=
  let term := normalize name
  if term.isEmpty then []
  else
    .word true term :: (distinctBy id (Text.splitAt ' ' term)).map (.word false ·) ++
      match country with
      | some code => [.country term code, .country (normalize code) code]
      | none => []

/-- The registrations of a place. -/
def placeRegistrations (p : PlaceRecord) : List Registration :=
  p.names.flatMap (nameRegistrations (if p.addressRank = 4 then p.country else none)) ++
    (p.houseNumber.map fun number => .houseNumber (normalize number)).toList

/-- The registrations of a gazetteer. -/
def registrations (g : Gazetteer) : List Registration :=
  g.places.flatMap placeRegistrations ++ g.postcodes.map .postcode ++ g.phrases.map .phrase

/-! ## Looking up -/

/-- The id of a whole name. -/
def fullWordId? (r : Registry) (term : String) : Option Nat :=
  r.fullWords[term]?.map (·.id)

/-- The id of a word. -/
def partialWordId? (r : Registry) (term : String) : Option Nat :=
  r.partialWords[term]?.map (·.id)

/-- The id of a house number. -/
def houseNumberId? (r : Registry) (term : String) : Option Nat :=
  r.houseNumbers[term]?

/-- The ids of a term in one of its meanings. -/
def ids (r : Registry) : MeaningKind → String → List Nat
  | .fullWord, term => (r.fullWordId? term).toList
  | .partialWord, term => (r.partialWordId? term).toList
  | .country, term => r.countries[term]?.toList.map (·.1)
  | .postcode, term => r.postcodes[term]?.toList.map (·.id)
  | .houseNumber, term => (r.houseNumberId? term).toList
  | .phrase, term => (r.phrases.getD term []).map (·.id)

/-- How many names have a word. -/
def count (r : Registry) (isFull : Bool) (term : String) : Nat :=
  ((r.words isFull)[term]?.map (·.count)).getD 0

/-- The ids of a name: that of the whole name and those of its words. -/
def nameTerms (r : Registry) (name : String) : List Nat :=
  let term := normalize name
  (r.fullWordId? term).toList ++ (Text.splitAt ' ' term).filterMap r.partialWordId?

/-- The tokens of a phrase for a type of places. -/
def phraseTokens (r : Registry) (term : String) : List Token :=
  (r.phrases.getD term []).map fun p => .special p.id p.placeType p.mode

/-- The tokens of a term. A term of several words is none of the words. -/
def tokens (r : Registry) (term : String) : List Token :=
  (r.fullWords[term]?.toList.map fun w => .word ⟨w.id, term, true, w.count⟩) ++
    (if term.toList.contains ' ' then []
      else r.partialWords[term]?.toList.map fun w => .word ⟨w.id, term, false, w.count⟩) ++
    (r.countries[term]?.toList.map fun (id, code) => .ofCountry id code) ++
    (r.postcodes[term]?.toList.map fun p => .ofPostcode (some p.id) p.code p.country) ++
    (r.houseNumbers[term]?.toList.map fun id => .ofHouseNumber (some id) term) ++
    r.phraseTokens term

end Registry

end Geocoding
