import Geocoding.Phrase.Grouping

/-!
# Phrases

A query consists of phrases: the parts between its commas, or the fields of a structured query. A
phrase has a role (`PhraseRole`), its words, and once the vocabulary has been asked, the groupings
of these words into terms.
-/

namespace Geocoding

/-- What a phrase stands for. The phrases of a free text are untyped. -/
inductive PhraseRole where
  | untyped
  | amenity
  | street
  | city
  | county
  | state
  | postalcode
  | country
deriving DecidableEq, Repr

/-- The field name of a role; empty for untyped phrases. -/
def PhraseRole.name : PhraseRole → String
  | .untyped => ""
  | .amenity => "amenity"
  | .street => "street"
  | .city => "city"
  | .county => "county"
  | .state => "state"
  | .postalcode => "postalcode"
  | .country => "country"

/-- A part of the query with its role. -/
structure Phrase where
  role : PhraseRole
  words : List String
  /-- The groupings of the words into known terms, none before `Phrase.segmented`. -/
  groupings : List Grouping
deriving DecidableEq, Repr

namespace Phrase

/-- The phrase made of the words of a text. -/
def ofText (text : String) (role : PhraseRole) : Phrase :=
  ⟨role, Text.words text, []⟩

/-- The words with single spaces between them. -/
def text (p : Phrase) : String :=
  Text.unwords p.words

/-- The non-empty initial parts of a list, shortest first. -/
def initials {α : Type} : List α → List (List α)
  | [] => []
  | x :: xs => [x] :: (initials xs).map (x :: ·)

/-- The non-empty stretches of consecutive members, by where they start and then by length. -/
def segments {α : Type} : List α → List (List α)
  | [] => []
  | x :: xs => initials (x :: xs) ++ segments xs

/-- Every run of consecutive words: the terms the vocabulary is asked for. -/
def runs (p : Phrase) : List String :=
  (segments p.words).map Text.unwords

/-- The phrase with its groupings into known terms. -/
def segmented (p : Phrase) (known : String → Bool) : Phrase :=
  { p with groupings := Geocoding.groupings known p.words }

/-- The phrase with each grouping read back to front. -/
def inverted (p : Phrase) : Phrase :=
  { p with groupings := p.groupings.map List.reverse }

/-- The text, preceded by the name of the role if there is one. -/
def display (p : Phrase) : String :=
  if p.role = .untyped then p.text else p.role.name ++ "=" ++ p.text

end Phrase

end Geocoding
