/-!
# Kinds of places and search modes

A place is of a type such as `amenity=pub` (`PlaceType`). A query that names a type asks for places
of it in one of several ways (`SearchMode`).
-/

namespace Geocoding

/-- The kind of a place, for instance `amenity=pub`. -/
structure PlaceType where
  /-- The class of places, for instance `amenity`. -/
  key : String
  /-- The type within the class, for instance `pub`. -/
  value : String
deriving DecidableEq, Repr

/-- The class and the type, divided by an equals sign. -/
def PlaceType.display (t : PlaceType) : String :=
  t.key ++ "=" ++ t.value

/-- How the words of an interpretation are searched for. -/
inductive SearchMode where
  /-- A place by its name. -/
  | plain
  /-- Places of a type near the named place. -/
  | near
  /-- Places of a type inside the named place. -/
  | inside
  /-- The named place, which must be of the type. -/
  | named
  /-- All places of the type in the search area. -/
  | ofType
  /-- The area of a postcode. -/
  | postcode
deriving DecidableEq, Repr

namespace SearchMode

/-- The place of a mode among interpretations of equal cost: plain searches come first. -/
def weight : SearchMode → Nat
  | plain => 0
  | near => 1
  | inside => 2
  | named => 3
  | ofType => 4
  | postcode => 5

/-- The name of a mode. -/
def name : SearchMode → String
  | plain => "none"
  | near => "near"
  | inside => "in"
  | named => "name"
  | ofType => "type"
  | postcode => "postcode"

/-- The mode of a name. -/
def ofName? (name : String) : Option SearchMode :=
  [plain, near, inside, named, ofType, postcode].find? (·.name = name)

end SearchMode

end Geocoding
