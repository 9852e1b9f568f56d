import Geocoding.Geometry.Line
import Geocoding.Geometry.Polygon
import Geocoding.Index.Query

/-!
# Gazetteers

A gazetteer lists the places that can be found (`Gazetteer`): areas, streets, points of interest and
addresses, the areas of postcodes, ranges of addresses along lines, and phrases for types of places.
-/

namespace Geocoding

/-- A place: an area, a street, a point of interest or an address. -/
structure PlaceRecord where
  id : Nat
  names : List String
  placeType : PlaceType
  addressRank : Nat
  /-- The search rank, if it differs from the address rank. -/
  ownSearchRank : Option Nat
  country : Option String
  parent : Option Nat
  postcode : Option String
  houseNumber : Option String
  location : Point Float
  /-- The course of a street. -/
  line : Option Line
  /-- The extent of an area. -/
  area : Option (Polygon Float)
  importance : Float
deriving DecidableEq

namespace PlaceRecord

/-- The search rank is the address rank unless the place has its own. -/
def searchRank (p : PlaceRecord) : Nat :=
  p.ownSearchRank.getD p.addressRank

/-- The place is a boundary, for instance of an administrative area. -/
def isBoundary (p : PlaceRecord) : Bool :=
  p.placeType.key = "boundary"

/-- The distance from the line of a street, or else from the location. -/
def distance (p : PlaceRecord) (point : Point Float) : Float :=
  match p.line.bind (·.distance? point) with
  | some d => d
  | none => p.location.distance point

/-- The size of the box around the area; zero for a place without an area. -/
def areaSize (p : PlaceRecord) : Float :=
  match p.area.bind (·.bbox?) with
  | some box => box.width * box.height
  | none => 0

end PlaceRecord

/-- The area of a postcode. -/
structure PostcodeRecord where
  id : Nat
  postcode : String
  country : Option String
  parent : Option Nat
  location : Point Float
deriving DecidableEq

/-- House numbers from `first` to `last`, spread along a line. -/
structure AddressRange where
  id : Nat
  parent : Nat
  first : Nat
  last : Nat
  parity : Parity
  line : Line
deriving DecidableEq

/-- A phrase that stands for a type of places. -/
structure PlacePhrase where
  label : String
  placeType : PlaceType
  mode : SearchMode
deriving DecidableEq, Repr

/-- All places that can be found. -/
structure Gazetteer where
  places : List PlaceRecord := []
  postcodes : List PostcodeRecord := []
  interpolations : List AddressRange := []
  parcels : List AddressRange := []
  phrases : List PlacePhrase := []
deriving DecidableEq

end Geocoding
