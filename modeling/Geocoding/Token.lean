import Geocoding.PlaceType
import Geocoding.Text.Blank
import Geocoding.Text.Case
import Geocoding.Text.CharClass

/-!
# Tokens

A token is one reading of a term of the query: a word of a name or an address, a country, a
postcode, a house number, or a phrase that stands for a type of places. Ids come from the
vocabulary; postcodes and house numbers that it does not know have none.
-/

namespace Geocoding

/-- A word of a name or an address. Full words can be a whole name, partial words are parts of
one. -/
structure WordToken where
  id : Nat
  term : String
  isFull : Bool
  /-- How many places carry the word. -/
  occurrences : Nat
deriving DecidableEq, Repr

/-- How many single words the term has. -/
def WordToken.wordCount (w : WordToken) : Nat :=
  (Text.words w.term).length

/-- A term of digits and spaces only. -/
def WordToken.isNumeric (w : WordToken) : Bool :=
  !w.term.isEmpty && w.term.toList.all fun c => Text.isAsciiDigit c || c == ' '

/-- One reading of a term. -/
inductive Token where
  | word (word : WordToken)
  | country (id : Nat) (code : String)
  | postcode (id : Option Nat) (code : String) (country : Option String)
  | houseNumber (id : Option Nat) (text : String)
  /-- A phrase for a type of places; the mode is plain unless the phrase settles it. -/
  | special (id : Nat) (placeType : PlaceType) (mode : SearchMode)
deriving DecidableEq, Repr

/-- A number that looks like a house number: it has a digit, and at most two other characters. -/
def isMostlyNumeric (text : String) : Bool :=
  text.toList.any Text.isAsciiDigit && text.toList.countP (!Text.isAsciiDigit ·) ≤ 2

namespace Token

/-- A country token; country codes are kept in lower case. -/
def ofCountry (id : Nat) (code : String) : Token :=
  country id (Text.lower code)

/-- A postcode token; country codes are kept in lower case. -/
def ofPostcode (id : Option Nat) (code : String) (country : Option String) : Token :=
  postcode id code (country.map Text.lower)

/-- A house number token; blanks around the number do not count. -/
def ofHouseNumber (id : Option Nat) (text : String) : Token :=
  houseNumber id (Text.trim text)

/-- The vocabulary id, if the vocabulary knows the token. -/
def id? : Token → Option Nat
  | word w => some w.id
  | country id _ => some id
  | postcode id _ _ => id
  | houseNumber id _ => id
  | special id _ _ => some id

/-- Whether the token is a word that can be a whole name. -/
def isFullWord : Token → Bool
  | word w => w.isFull
  | _ => false

/-- The letter of the kind of token. -/
def letter : Token → Char
  | word w => if w.isFull then 'W' else 'w'
  | country .. => 'C'
  | postcode .. => 'P'
  | houseNumber .. => 'H'
  | special .. => 'S'

/-- The letter of the kind and what identifies the token. -/
def display : Token → String
  | word w =>
    (if w.isFull then "W:" else "w:") ++ w.term ++ "(" ++ toString w.id ++ ", n=" ++
      toString w.occurrences ++ ")"
  | country id code => "C:" ++ code ++ "(" ++ toString id ++ ")"
  | postcode _ code _ => "P:" ++ code
  | houseNumber _ text => "H:" ++ text
  | special _ placeType mode => "S:" ++ placeType.display ++ "[" ++ mode.name ++ "]"

end Token

end Geocoding
