import Geocoding.Config
import Geocoding.Decimal.Text
import Geocoding.Request.Structured

/-!
# Search requests

A request is a query, free text or structured, with restrictions on what may be found
(`SearchRequest`).
-/

namespace Geocoding

/-- What is wrong with a request. -/
inductive QueryError where
  | empty
  | conflicting
  | invalidViewbox (text : String)
  | invalidFeatureType (name : String)
  | invalidParameter (name value : String)
deriving DecidableEq, Repr

/-- The text of a query error. -/
def QueryError.message : QueryError → String
  | empty => "Nothing to search for"
  | conflicting => "Free-text and structured query parameters cannot be mixed"
  | invalidViewbox text => "Bad parameter \x27viewbox\x27: not a box (" ++ text ++ ")"
  | invalidFeatureType name => "Unknown feature type \x27" ++ name ++ "\x27"
  | invalidParameter name value =>
    "Bad value \x27" ++ value ++ "\x27 for parameter \x27" ++ name ++ "\x27"

/-- The kind of places to find. A settlement is anything from a state down to a village. -/
inductive FeatureType where
  | country
  | state
  | city
  | settlement
deriving DecidableEq, Repr

namespace FeatureType

/-- The ranks of the places of a kind. -/
def ranks : FeatureType → RankRange
  | country => ⟨4, 4⟩
  | state => ⟨8, 8⟩
  | city => ⟨14, 16⟩
  | settlement => ⟨8, 20⟩

/-- The name of a kind. -/
def name : FeatureType → String
  | country => "country"
  | state => "state"
  | city => "city"
  | settlement => "settlement"

/-- The kind of a name. -/
def ofName (name : String) : Except QueryError FeatureType :=
  match [country, state, city, settlement].find? (·.name = name) with
  | some kind => .ok kind
  | none => .error (.invalidFeatureType name)

end FeatureType

/-- What is searched for. -/
inductive QueryText where
  | free (text : String)
  | structured (fields : StructuredQuery)
deriving DecidableEq, Repr

/-- The text, or the content of all fields. -/
def QueryText.display : QueryText → String
  | free text => text
  | structured fields => fields.joined

/-- The restrictions of a request. -/
structure SearchOptions where
  /-- The preferred box. -/
  viewbox : Option (BoundingBox Float) := none
  /-- Results must lie in the preferred box. -/
  bounded : Bool := false
  /-- Codes of the countries to search in; none means all. -/
  countries : List String := []
  /-- Ids of places that must not be found. -/
  excluded : List Nat := []
  featureType : Option FeatureType := none
  /-- The largest number of results, if the configured one is not to apply. -/
  limit : Option Nat := none
deriving DecidableEq

namespace SearchOptions

/-- The least width and height of a preferred box, in degrees. -/
def minExtent : Float := 1e-9

/-- The code of a country in lower case; anything but two letters is no code. -/
def countryCode? (text : String) : Option String :=
  let cs := Text.trimChars text.toList
  if cs.length = 2 && cs.all Char.isAlpha then some (String.ofList (cs.map Char.toLower)) else none

/-- The options with the box that two corners span, as far as it lies on the globe. -/
def withViewbox (o : SearchOptions) (lon₁ lat₁ lon₂ lat₂ : Float) :
    Except QueryError SearchOptions :=
  let box : BoundingBox Float := {
    minLon := greater (lesser lon₁ lon₂) (-180)
    minLat := greater (lesser lat₁ lat₂) (-90)
    maxLon := lesser (greater lon₁ lon₂) 180
    maxLat := lesser (greater lat₁ lat₂) 90 }
  if box.width < minExtent || box.height < minExtent then
    let corners := [lon₁, lat₁, lon₂, lat₂].map Decimal.Layout.plain.render
    .error (.invalidViewbox (",".intercalate corners))
  else .ok { o with viewbox := some box }

/-- The options with a restriction to countries. -/
def withCountries (o : SearchOptions) (codes : List String) : SearchOptions :=
  { o with countries := codes.filterMap countryCode? }

/-- The options with more places that must not be found. -/
def excluding (o : SearchOptions) (ids : List Nat) : SearchOptions :=
  { o with excluded := o.excluded ++ ids }

/-- The options with another number of results. -/
def withLimit (o : SearchOptions) (limit : Nat) : SearchOptions :=
  { o with limit := some (clampLimit limit) }

end SearchOptions

/-- A query with the restrictions on what may be found. -/
structure SearchRequest extends SearchOptions where
  query : QueryText
deriving DecidableEq

namespace SearchRequest

/-- A request without restrictions. -/
def ofQuery (query : QueryText) : SearchRequest :=
  { query }

/-- The ranks that results must have. A kind of places takes precedence over the fields of the
query. -/
def restriction (r : SearchRequest) : RankRestriction :=
  match r.featureType, r.query with
  | some kind, _ => { ranks := kind.ranks }
  | none, .structured fields => fields.restriction
  | none, .free _ => {}

/-- The request with a field less, if its query has a field to spare. -/
def relax? (r : SearchRequest) : Option SearchRequest :=
  match r.query with
  | .free _ => none
  | .structured fields => fields.relax?.map fun fields => { r with query := .structured fields }

/-- How many fields the query of a request has. -/
def fieldCount (r : SearchRequest) : Nat :=
  match r.query with
  | .free _ => 0
  | .structured fields => fields.fields.length

theorem fieldCount_of_relax? {r r' : SearchRequest} (h : r.relax? = some r') :
    r'.fieldCount < r.fieldCount := by
  obtain ⟨options, query⟩ := r
  cases query with
  | free => simp [relax?] at h
  | structured fields =>
    obtain ⟨fields', hfields, rfl⟩ := Option.map_eq_some_iff.1 h
    exact StructuredQuery.length_fields_of_relax? hfields

/-- The request, and after it the requests with ever fewer fields. -/
def attempts (r : SearchRequest) : List SearchRequest :=
  match h : r.relax? with
  | none => [r]
  | some r' =>
    have := fieldCount_of_relax? h
    r :: r'.attempts
termination_by r.fieldCount

end SearchRequest

end Geocoding
