import Geocoding.Decimal.Text
import Geocoding.Gazetteer
import Geocoding.Json.Record
import Geocoding.Json.Tree

/-!
# Gazetteers as JSON

A gazetteer is read from JSON (`Gazetteer.ofJson`) and written as JSON (`Gazetteer.toJson`). The
class and the type of a place are members of its record, and everything but ids, ranks, texts and
locations may be left out.
-/

namespace Geocoding

open Json (Field Shape Reader Tree Fault)

/-- The reader of ids. -/
def idReader : Reader Nat := Reader.natural UInt64.size

/-- The reader of ranks. -/
def rankReader : Reader Nat := Reader.natural UInt8.size

/-- The reader of house numbers of address ranges. -/
def numberReader : Reader Nat := Reader.natural UInt32.size

/-! ## Geometry -/

/-- What is known of a point. -/
structure PointDraft where
  lat : Option Float := none
  lon : Option Float := none

/-- The latitude and the longitude. -/
def pointShape : Shape PointDraft (Point Float) where
  blank := {}
  fields := [
    .of "lat" .float (·.lat) fun x d => { d with lat := some x },
    .of "lon" .float (·.lon) fun x d => { d with lon := some x }]
  finish d := return ⟨← d.lat, ← d.lon⟩

/-- The reader of points. -/
def pointsReader : Reader (List (Point Float)) :=
  .list pointShape.read

/-- The points of a line. -/
def lineShape : Shape (Option Line) Line where
  blank := none
  fields := [.of "points" pointsReader id fun x _ => some x]
  finish := id

/-- What is known of a polygon. -/
structure PolygonDraft where
  exterior : Option (Ring Float) := none
  holes : Option (List (Ring Float)) := none

/-- The outer ring and the holes of a polygon. -/
def polygonShape : Shape PolygonDraft (Polygon Float) where
  blank := {}
  fields := [
    .of "exterior" pointsReader (·.exterior) fun x d => { d with exterior := some x },
    .of "holes" (.list pointsReader) (·.holes) fun x d => { d with holes := some x }]
  finish d := return { exterior := ← d.exterior, holes := d.holes.getD [] }

/-! ## Records -/

/-- The place type among the unknown members of a record: one class and one type, both of them
texts. -/
def placeType? (others : List (String × Option String)) : Option PlaceType :=
  let texts (name : String) := (others.filter (·.1 = name)).map (·.2)
  match texts "class", texts "type" with
  | [some key], [some value] => some ⟨key, value⟩
  | _, _ => none

/-- What is known of a place. -/
structure PlaceDraft where
  id : Option Nat := none
  names : Option (List String) := none
  addressRank : Option Nat := none
  searchRank : Option (Option Nat) := none
  country : Option (Option String) := none
  parent : Option (Option Nat) := none
  postcode : Option (Option String) := none
  houseNumber : Option (Option String) := none
  location : Option (Point Float) := none
  line : Option (Option Line) := none
  area : Option (Option (Polygon Float)) := none
  importance : Option Float := none
  /-- The class, the type and unknown members. -/
  others : List (String × Option String) := []

/-- The fields of a place. -/
def placeShape : Shape PlaceDraft PlaceRecord where
  blank := {}
  fields := [
    .of "place_id" idReader (·.id) fun x d => { d with id := some x },
    .of "names" (.list .text) (·.names) fun x d => { d with names := some x },
    .of "address_rank" rankReader (·.addressRank) fun x d => { d with addressRank := some x },
    .of "search_rank" (.optional rankReader) (·.searchRank) fun x d =>
      { d with searchRank := some x },
    .of "country_code" (.optional .text) (·.country) fun x d => { d with country := some x },
    .of "parent_place_id" (.optional idReader) (·.parent) fun x d => { d with parent := some x },
    .of "postcode" (.optional .text) (·.postcode) fun x d => { d with postcode := some x },
    .of "house_number" (.optional .text) (·.houseNumber) fun x d =>
      { d with houseNumber := some x },
    .of "location" pointShape.read (·.location) fun x d => { d with location := some x },
    .of "line" (.optional lineShape.read) (·.line) fun x d => { d with line := some x },
    .of "area" (.optional polygonShape.read) (·.area) fun x d => { d with area := some x },
    .of "importance" .float (·.importance) fun x d => { d with importance := some x }]
  keep := some fun name text d => { d with others := d.others ++ [(name, text)] }
  finish d := return {
    id := ← d.id
    names := d.names.getD []
    placeType := ← placeType? d.others
    addressRank := ← d.addressRank
    ownSearchRank := d.searchRank.join
    country := d.country.join
    parent := d.parent.join
    postcode := d.postcode.join
    houseNumber := d.houseNumber.join
    location := ← d.location
    line := d.line.join
    area := d.area.join
    importance := d.importance.getD 0 }

/-- What is known of the area of a postcode. -/
structure PostcodeDraft where
  id : Option Nat := none
  postcode : Option String := none
  country : Option (Option String) := none
  parent : Option (Option Nat) := none
  location : Option (Point Float) := none

/-- The fields of the area of a postcode. -/
def postcodeShape : Shape PostcodeDraft PostcodeRecord where
  blank := {}
  fields := [
    .of "place_id" idReader (·.id) fun x d => { d with id := some x },
    .of "postcode" .text (·.postcode) fun x d => { d with postcode := some x },
    .of "country_code" (.optional .text) (·.country) fun x d => { d with country := some x },
    .of "parent_place_id" (.optional idReader) (·.parent) fun x d => { d with parent := some x },
    .of "location" pointShape.read (·.location) fun x d => { d with location := some x }]
  finish d := return {
    id := ← d.id
    postcode := ← d.postcode
    country := d.country.join
    parent := d.parent.join
    location := ← d.location }

/-- What is known of an address range. -/
structure RangeDraft where
  id : Option Nat := none
  parent : Option Nat := none
  first : Option Nat := none
  last : Option Nat := none
  parity : Option Parity := none
  line : Option Line := none

/-- The fields of an address range. Without a kind it has all house numbers. -/
def rangeShape : Shape RangeDraft AddressRange where
  blank := {}
  fields := [
    .of "place_id" idReader (·.id) fun x d => { d with id := some x },
    .of "parent_place_id" idReader (·.parent) fun x d => { d with parent := some x },
    .of "start" numberReader (·.first) fun x d => { d with first := some x },
    .of "end" numberReader (·.last) fun x d => { d with last := some x },
    .of "kind" (.choice Parity.ofName?) (·.parity) fun x d => { d with parity := some x },
    .of "line" lineShape.read (·.line) fun x d => { d with line := some x }]
  finish d := return {
    id := ← d.id
    parent := ← d.parent
    first := ← d.first
    last := ← d.last
    parity := d.parity.getD .all
    line := ← d.line }

/-- What is known of a phrase. -/
structure PhraseDraft where
  label : Option String := none
  mode : Option SearchMode := none
  /-- The class, the type and unknown members. -/
  others : List (String × Option String) := []

/-- The fields of a phrase. Without an operator it does not settle how to search. -/
def phraseShape : Shape PhraseDraft PlacePhrase where
  blank := {}
  fields := [
    .of "label" .text (·.label) fun x d => { d with label := some x },
    .of "operator" (.choice SearchMode.ofName?) (·.mode) fun x d => { d with mode := some x }]
  keep := some fun name text d => { d with others := d.others ++ [(name, text)] }
  finish d := return {
    label := ← d.label
    placeType := ← placeType? d.others
    mode := d.mode.getD .plain }

/-- What is known of a gazetteer. -/
structure GazetteerDraft where
  places : Option (List PlaceRecord) := none
  postcodes : Option (List PostcodeRecord) := none
  interpolations : Option (List AddressRange) := none
  parcels : Option (List AddressRange) := none
  phrases : Option (List PlacePhrase) := none

/-- The lists of a gazetteer, each of which may be missing. -/
def gazetteerShape : Shape GazetteerDraft Gazetteer where
  blank := {}
  fields := [
    .of "places" (.list placeShape.read) (·.places) fun x d => { d with places := some x },
    .of "postcodes" (.list postcodeShape.read) (·.postcodes) fun x d =>
      { d with postcodes := some x },
    .of "interpolations" (.list rangeShape.read) (·.interpolations) fun x d =>
      { d with interpolations := some x },
    .of "parcels" (.list rangeShape.read) (·.parcels) fun x d => { d with parcels := some x },
    .of "special_phrases" (.list phraseShape.read) (·.phrases) fun x d =>
      { d with phrases := some x }]
  finish d := some {
    places := d.places.getD []
    postcodes := d.postcodes.getD []
    interpolations := d.interpolations.getD []
    parcels := d.parcels.getD []
    phrases := d.phrases.getD [] }

/-- The gazetteer of a JSON text. -/
def Gazetteer.ofJson (text : String) : Except Fault Gazetteer :=
  Reader.readAll gazetteerShape.read text

/-! ## Writing -/

/-- A double; what is no finite number is written as null. -/
def floatTree (x : Float) : Tree :=
  if x.isFinite then .literal (Decimal.Layout.json.render x) else .literal "null"

/-- A point as an object. -/
def pointTree (p : Point Float) : Tree :=
  .object [("lat", floatTree p.lat), ("lon", floatTree p.lon)]

/-- Points as an array. -/
def pointsTree (points : List (Point Float)) : Tree :=
  .array (points.map pointTree)

/-- A line as an object. -/
def lineTree (line : Line) : Tree :=
  .object [("points", pointsTree line)]

/-- A polygon as an object. -/
def polygonTree (polygon : Polygon Float) : Tree :=
  .object [
    ("exterior", pointsTree polygon.exterior),
    ("holes", .array (polygon.holes.map pointsTree))]

/-- A place as an object. -/
def PlaceRecord.tree (p : PlaceRecord) : Tree :=
  .object [
    ("place_id", .natural p.id),
    ("names", .array (p.names.map .text)),
    ("class", .text p.placeType.key),
    ("type", .text p.placeType.value),
    ("address_rank", .natural p.addressRank),
    ("search_rank", .optional .natural p.ownSearchRank),
    ("country_code", .optional .text p.country),
    ("parent_place_id", .optional .natural p.parent),
    ("postcode", .optional .text p.postcode),
    ("house_number", .optional .text p.houseNumber),
    ("location", pointTree p.location),
    ("line", .optional lineTree p.line),
    ("area", .optional polygonTree p.area),
    ("importance", floatTree p.importance)]

/-- The area of a postcode as an object. -/
def PostcodeRecord.tree (p : PostcodeRecord) : Tree :=
  .object [
    ("place_id", .natural p.id),
    ("postcode", .text p.postcode),
    ("country_code", .optional .text p.country),
    ("parent_place_id", .optional .natural p.parent),
    ("location", pointTree p.location)]

/-- An address range as an object. -/
def AddressRange.tree (r : AddressRange) : Tree :=
  .object [
    ("place_id", .natural r.id),
    ("parent_place_id", .natural r.parent),
    ("start", .natural r.first),
    ("end", .natural r.last),
    ("kind", .text r.parity.name),
    ("line", lineTree r.line)]

/-- A phrase as an object. -/
def PlacePhrase.tree (p : PlacePhrase) : Tree :=
  .object [
    ("label", .text p.label),
    ("class", .text p.placeType.key),
    ("type", .text p.placeType.value),
    ("operator", .text p.mode.name)]

/-- The JSON text of a gazetteer. -/
def Gazetteer.toJson (g : Gazetteer) : String :=
  (Tree.object [
    ("places", .array (g.places.map (·.tree))),
    ("postcodes", .array (g.postcodes.map (·.tree))),
    ("interpolations", .array (g.interpolations.map (·.tree))),
    ("parcels", .array (g.parcels.map (·.tree))),
    ("special_phrases", .array (g.phrases.map (·.tree)))]).render

end Geocoding
