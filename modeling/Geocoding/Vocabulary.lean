import Geocoding.Gazetteer
import Geocoding.Lexicon
import Geocoding.Term

/-!
# Vocabularies

The vocabulary of a gazetteer lists what the terms of a query can stand for
(`Vocabulary.ofGazetteer`). Each meaning of a term is an entry, and its place in the list, counted
from one, is its id. Terms are entered where they first occur.
-/

namespace Geocoding

/-- What a term can stand for. -/
inductive Meaning where
  /-- A whole name or a word of a name, and how many names have it. -/
  | word (isFull : Bool) (occurrences : Nat)
  | country (code : String)
  | postcode (code : String) (country : Option String)
  | houseNumber
  | phrase (placeType : PlaceType) (mode : SearchMode)
deriving DecidableEq, Repr

/-- The kinds of meanings, in the order in which the tokens of a term are listed. -/
inductive MeaningKind where
  | fullWord
  | partialWord
  | country
  | postcode
  | houseNumber
  | phrase
deriving DecidableEq, Repr

/-- All kinds of meanings in order. -/
def MeaningKind.all : List MeaningKind :=
  [fullWord, partialWord, country, postcode, houseNumber, phrase]

/-- The kind of a meaning. -/
def Meaning.kind : Meaning → MeaningKind
  | word true _ => .fullWord
  | word false _ => .partialWord
  | country _ => .country
  | postcode .. => .postcode
  | houseNumber => .houseNumber
  | phrase .. => .phrase

/-- A term with one of its meanings. -/
structure Entry where
  term : String
  meaning : Meaning
deriving DecidableEq, Repr

namespace Entry

/-- Whether two entries are of the same kind and for the same term. -/
def isAlike (e f : Entry) : Bool :=
  e.meaning.kind = f.meaning.kind && e.term = f.term

/-- The entry after its term has occurred once more: words are counted. -/
def again (e : Entry) : Entry :=
  match e.meaning with
  | .word isFull n => { e with meaning := .word isFull (n + 1) }
  | _ => e

/-- The token of an entry with an id. -/
def token (e : Entry) (id : Nat) : Token :=
  match e.meaning with
  | .word isFull n => .word ⟨id, e.term, isFull, n⟩
  | .country code => .ofCountry id code
  | .postcode code country => .ofPostcode (some id) code country
  | .houseNumber => .ofHouseNumber (some id) e.term
  | .phrase placeType mode => .special id placeType mode

end Entry

/-- Enter a term behind the entries that are there, unless one of them is alike. Phrases are never
alike. -/
def enter (e : Entry) : List Entry → List Entry
  | [] => [e]
  | f :: rest =>
    if f.isAlike e && e.meaning.kind ≠ .phrase then f.again :: rest else f :: enter e rest

/-- The meanings of terms. -/
structure Vocabulary where
  entries : List Entry
deriving DecidableEq, Repr

namespace Vocabulary

/-! ## The terms of a gazetteer -/

/-- What a name is entered for: the whole name, each of its words once, and the country if it is
one. -/
def nameEntries (country : Option String) (name : String) : List Entry :=
  let term := normalize name
  if term.isEmpty then []
  else
    ⟨term, .word true 1⟩ :: (distinctBy id (termWords name)).map (⟨·, .word false 1⟩) ++
      match country with
      | some code =>
        [⟨term, .country (Text.lower code)⟩, ⟨normalize code, .country (Text.lower code)⟩]
      | none => []

/-- What a place is entered for: its names and its house number. Places of address rank 4 are
countries. -/
def placeEntries (p : PlaceRecord) : List Entry :=
  p.names.flatMap (nameEntries (p.country.filter fun _ => p.addressRank = 4)) ++
    match p.houseNumber.map normalize with
    | some number => if number.isEmpty then [] else [⟨number, .houseNumber⟩]
    | none => []

/-- What a postcode is entered for. -/
def postcodeEntry (p : PostcodeRecord) : Entry :=
  ⟨normalize p.postcode, .postcode (canonicalPostcode p.postcode) p.country⟩

/-- What a phrase is entered for. -/
def phraseEntry (p : PlacePhrase) : Entry :=
  ⟨normalize p.label, .phrase p.placeType p.mode⟩

/-- All that a gazetteer enters, in order. -/
def entriesOf (g : Gazetteer) : List Entry :=
  g.places.flatMap placeEntries ++ g.postcodes.map postcodeEntry ++ g.phrases.map phraseEntry

/-- The vocabulary of a gazetteer. -/
def ofGazetteer (g : Gazetteer) : Vocabulary :=
  ⟨(entriesOf g).foldl (fun entries e => enter e entries) []⟩

/-! ## Looking up -/

/-- The entries with their ids. -/
def numbered (v : Vocabulary) : List (Entry × Nat) :=
  v.entries.zipIdx 1

/-- The entries of a kind for a term, with their ids. -/
def find (v : Vocabulary) (kind : MeaningKind) (term : String) : List (Entry × Nat) :=
  v.numbered.filter fun (e, _) => e.meaning.kind = kind && e.term = term

/-- The id of a term in one of its meanings. -/
def id? (v : Vocabulary) (kind : MeaningKind) (term : String) : Option Nat :=
  (v.find kind term).head?.map (·.2)

/-- The ids of a name: that of the whole name and those of its words. -/
def nameTerms (v : Vocabulary) (name : String) : List Nat :=
  (v.id? .fullWord (normalize name)).toList ++ (termWords name).filterMap (v.id? .partialWord)

/-- The tokens of a term in one of its meanings. -/
def tokensOf (v : Vocabulary) (term : String) (kind : MeaningKind) : List Token :=
  (v.find kind term).map fun (e, id) => e.token id

/-- The tokens of a term. -/
def tokens (v : Vocabulary) (term : String) : List Token :=
  MeaningKind.all.flatMap (v.tokensOf term)

/-- The tokens of a phrase for a type of places. -/
def phraseTokens (v : Vocabulary) (term : String) : List Token :=
  v.tokensOf term .phrase

/-- The tokens of each of some terms. -/
def table (v : Vocabulary) (terms : List String) : TokenTable :=
  .ofList (terms.flatMap fun term => (v.tokens term).map (term, ·))

/-- The vocabulary as a lexicon, which never fails. -/
def lexicon {m : Type → Type} [Monad m] (v : Vocabulary) : Lexicon m where
  normalize := Geocoding.normalize
  tokens terms := return v.table terms
  specialTokens term := return v.phraseTokens (Geocoding.normalize term)

end Vocabulary

end Geocoding
