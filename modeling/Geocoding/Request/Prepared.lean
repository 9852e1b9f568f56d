import Geocoding.Request
import Geocoding.Request.Bracketed
import Geocoding.Request.Coordinates

/-!
# Prepared queries

The parts of a query (`PreparedQuery`): coordinates, a type of places, a phrase for a type of
places, and the remaining phrases with their roles.
-/

namespace Geocoding

/-- A query divided into its parts. -/
structure PreparedQuery where
  /-- The coordinates in the text. -/
  near : Option (Point Float) := none
  /-- The type of places that a key with its value in brackets names. -/
  placeType : Option PlaceType := none
  /-- The words in brackets, or the content of the amenity field. -/
  specialTerm : Option String := none
  /-- The remaining phrases in the order of the query. -/
  phrases : List (String × PhraseRole)
  isStructured : Bool
deriving DecidableEq

namespace PreparedQuery

/-- The parts of a free text: its coordinates go first, then its brackets, and commas divide the
rest. -/
def ofText (text : String) : Except QueryError PreparedQuery :=
  if (Text.trim text).isEmpty then .error .empty
  else
    let (near, text) := match Coordinates.extractPoint? text with
      | some (point, rest) => (some point, rest)
      | none => (none, text)
    let (placeType, text) := Bracketed.extractPlaceType text
    let (specialTerm, text) := Bracketed.extractSpecialTerm text
    .ok {
      near, placeType, specialTerm
      phrases := (Text.splitAt ',' text).map fun phrase => (Text.trim phrase, .untyped)
      isStructured := false }

/-- The parts of a structured query. The amenity is a phrase for a type of places. -/
def ofFields (q : StructuredQuery) : Except QueryError PreparedQuery :=
  if q.isEmpty then .error .empty
  else .ok {
    specialTerm := q.amenity
    phrases := (q.fields.filter (·.1 ≠ .amenity)).map fun (role, text) => (text, role)
    isStructured := true }

/-- There is nothing but coordinates. -/
def isCoordinateOnly (p : PreparedQuery) : Bool :=
  p.near.isSome && p.placeType.isNone && p.specialTerm.isNone && p.phrases.all (·.1.isEmpty)

end PreparedQuery

/-- The parts of the query of a request. -/
def SearchRequest.prepare (r : SearchRequest) : Except QueryError PreparedQuery :=
  match r.query with
  | .free text => PreparedQuery.ofText text
  | .structured fields => PreparedQuery.ofFields fields

end Geocoding
