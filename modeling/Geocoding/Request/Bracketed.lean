import Geocoding.PlaceType
import Geocoding.Text.Blank
import Geocoding.Text.CharClass
import Geocoding.Text.Replace

/-!
# Bracketed terms in a query

A query can name a type of places in brackets: by its key and value, as in `[amenity=pub]`
(`extractPlaceType`), or by words for it, as in `[pubs]` (`extractSpecialTerm`). All such terms are
taken out of the query, and the first one counts. What word characters are is left open (`isWord`).
-/

namespace Geocoding.Bracketed

/-- The finds from left to right without overlap, once `skip` more characters, the rest of a find,
have been passed over. `find?` reads at the start of a text and tells how many characters it has
read. -/
def findAllFrom {α : Type} (find? : List Char → Option (α × Nat)) : Nat → List Char → List α
  | _, [] => []
  | skip + 1, _ :: cs => findAllFrom find? skip cs
  | 0, c :: cs =>
    match find? (c :: cs) with
    | some (a, length) => a :: findAllFrom find? (length - 1) cs
    | none => findAllFrom find? 0 cs

/-- The finds from left to right without overlap. -/
def findAll {α : Type} (find? : List Char → Option (α × Nat)) (cs : List Char) : List α :=
  findAllFrom find? 0 cs

/-- Replace every occurrence of every one of some texts by a space, one text after the other. -/
def blankOut (texts : List (List Char)) (cs : List Char) : List Char :=
  texts.foldl (fun cs text => Text.replaceAll text [' '] cs) cs

/-! ## Keys with values -/

/-- A key and a value. -/
structure KeyValue where
  key : List Char
  value : List Char
deriving DecidableEq, Repr

/-- The term as it is written. -/
def KeyValue.text (t : KeyValue) : List Char :=
  '[' :: t.key ++ '=' :: t.value ++ [']']

/-- The place type that the term names. -/
def KeyValue.placeType (t : KeyValue) : PlaceType :=
  ⟨String.ofList t.key, String.ofList t.value⟩

/-- The key with its value that a text begins with. -/
def keyValue? (isWord : Char → Bool) : List Char → Option KeyValue
  | '[' :: rest =>
    match rest.dropWhile isWord with
    | '=' :: rest' =>
      match rest'.dropWhile isWord with
      | ']' :: _ => some ⟨rest.takeWhile isWord, rest'.takeWhile isWord⟩
      | _ => none
    | _ => none
  | _ => none

/-- All keys with values in a text. -/
def keyValues (isWord : Char → Bool) (cs : List Char) : List KeyValue :=
  findAll (fun cs => (keyValue? isWord cs).map fun t => (t, t.text.length)) cs

/-- The first key with its value in a text, and the text without any. -/
def extractKeyValue (isWord : Char → Bool) (cs : List Char) : Option KeyValue × List Char :=
  let found := keyValues isWord cs
  (found.head?, blankOut (found.map (·.text)) cs)

/-! ## Words -/

/-- The words in brackets that a text begins with. -/
def words? (isWord : Char → Bool) : List Char → Option (List Char)
  | '[' :: rest =>
    let isPart := fun c => isWord c || c == ' '
    match rest.dropWhile isPart with
    | ']' :: _ => some (rest.takeWhile isPart)
    | _ => none
  | _ => none

/-- Words in their brackets. -/
def inBrackets (words : List Char) : List Char :=
  '[' :: words ++ [']']

/-- All words in brackets in a text. -/
def bracketedWords (isWord : Char → Bool) (cs : List Char) : List (List Char) :=
  findAll (fun cs => (words? isWord cs).map fun words => (words, words.length + 2)) cs

/-- The first words in brackets that are not blank, and the text without any. -/
def extractWords (isWord : Char → Bool) (cs : List Char) : Option (List Char) × List Char :=
  let found := bracketedWords isWord cs
  (found.find? (!·.all Text.isBlank), blankOut (found.map inBrackets) cs)

/-! ## Queries -/

/-- The place type that the first key with its value names, and the query without any. -/
def extractPlaceType (query : String) : Option PlaceType × String :=
  let (found, rest) := extractKeyValue Text.isWordChar query.toList
  (found.map (·.placeType), String.ofList rest)

/-- The first words in brackets, and the query without any. -/
def extractSpecialTerm (query : String) : Option String × String :=
  let (found, rest) := extractWords Text.isWordChar query.toList
  (found.map String.ofList, String.ofList rest)

end Geocoding.Bracketed
