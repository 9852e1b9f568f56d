import Geocoding.Atlas.Forward
import Geocoding.Atlas.Reverse
import Geocoding.Lexicon
import Geocoding.Planner
import Geocoding.Request.Prepared
import Geocoding.Resolve
import Geocoding.Reverse

/-!
# Geocoders

A geocoder finds places for requests and for points (`Geocoder.search`, `Geocoder.reverse`), given a
lexicon and indices of places. A search prepares the query, lists its interpretations and looks them
up.
-/

namespace Geocoding

/-- Why a geocoder gives no answer. -/
inductive GeocoderError where
  | query (error : QueryError)
  | lexicon (error : LexiconError)
  | index (error : IndexError)
  | resolve (error : ResolveError)
  | config (error : ConfigError)
deriving DecidableEq, Repr

/-- The text of a geocoder error. -/
def GeocoderError.message : GeocoderError → String
  | query error => "Query error: " ++ error.message
  | lexicon error => "Tokenizer error: " ++ error.message
  | index error => "Index error: " ++ error.message
  | resolve error => "Resolve error: " ++ error.message
  | config error => "Configuration error: " ++ error.message

/-- An answer that may take effect in `m` or fail. -/
abbrev GeocoderM (m : Type → Type) := ExceptT GeocoderError m

/-- The constraints of a request whose query has been prepared and divided into tokens. -/
def SearchRequest.constraints (r : SearchRequest) (query : PreparedQuery) (table : TokenTable) :
    Constraints where
  near := query.near.map (⟨·, NearPoint.defaultRadius⟩)
  viewbox := r.viewbox.map (Viewbox.around · r.bounded)
  excluded := r.excluded
  countries := r.countries
  fullNameTerms := table.fullWordIds

/-- The interpretation to start from: that of nothing, or of the type of places that the query
names. -/
def PreparedQuery.root (query : PreparedQuery) : Interpretation :=
  match query.placeType with
  | some placeType => Interpretation.root.withPlaceType .ofType placeType
  | none => .root

/-- A geocoder with all it depends on. -/
structure Geocoder (m : Type → Type) where
  lexicon : Lexicon m
  places : PlaceIndex m
  points : ReverseIndex m
  config : Config := {}
  /-- Whether to stop a search before its next group of interpretations. -/
  isCancelled : m Bool

namespace Geocoder

variable {m : Type → Type} [Monad m] (g : Geocoder m)

/-- The phrases of a query in normal form, cut into known terms, with the tokens of these. -/
def tokenize (phrases : List (String × PhraseRole)) (countries : List String) :
    GeocoderM m (List Phrase × TokenTable) :=
  (g.lexicon.tokenize (phrases.map fun (text, role) => .ofText (g.lexicon.normalize text) role)
    countries).adapt .lexicon

/-- The position of a phrase for a type of places in brackets: it is all there is. -/
def specialPosition : Position := ⟨.untyped, 0, 1, 0, 1⟩

/-- The root after reading a phrase for a type of places in each possible way; the root itself if
there is none. -/
def rootsWith (c : Constraints) (root : Interpretation) (tokens : List Token) :
    List Interpretation :=
  let extended := (tokens.filter (·.fits c root specialPosition)).flatMap
    (·.extend c g.config.frequencies root specialPosition)
  if extended.isEmpty then [root] else extended

/-- The interpretations to start from. -/
def roots (c : Constraints) (query : PreparedQuery) : GeocoderM m (List Interpretation) := do
  match query.specialTerm with
  | none => return [query.root]
  | some term =>
    let tokens ← (g.lexicon.specialTokens (g.lexicon.normalize term)).adapt GeocoderError.lexicon
    return g.rootsWith c query.root tokens

/-- The ranked interpretations of a prepared query, with the constraints they share. -/
def interpret (r : SearchRequest) (query : PreparedQuery) :
    GeocoderM m (Constraints × Ranking Interpretation) := do
  let (phrases, table) ← g.tokenize query.phrases r.countries
  let c := r.constraints query table
  let roots ← g.roots c query
  let planner : Planner :=
    { limits := g.config.planner, thresholds := g.config.frequencies, constraints := c }
  return (c, planner.plan phrases table roots query.isStructured)

/-- A query divided into its parts. -/
def prepare (r : SearchRequest) : GeocoderM m PreparedQuery :=
  ExceptT.mk (pure (r.prepare.mapError .query))

/-- The ranked interpretations of a request. -/
def plan (r : SearchRequest) : GeocoderM m (Ranking Interpretation) := do
  let query ← prepare r
  return (← g.interpret r query).2

/-- The place that a point belongs to. -/
def reverse (point : Point Float) (config : ReverseConfig) : GeocoderM m (Option Candidate) :=
  let locator : Locator m := { index := g.points, parcelCountries := g.config.parcelCountries }
  (locator.locate point config).adapt .index

/-- The level of detail of a query that consists of coordinates: buildings, but no computed house
numbers. -/
def coordinateDetail : ReverseConfig :=
  { zoom := some 18, interpolation := false }

/-- The places that the interpretations of a request mean, best first. -/
def lookUp (r : SearchRequest) (c : Constraints) (ranking : Ranking Interpretation) :
    GeocoderM m (List Candidate) := do
  let limit := r.limit.getD g.config.limit
  let scope : Scope := {
    ranks := r.restriction.ranks
    allowed := r.restriction.allowed
    limit := lookupLimit limit
    parcelCountries := g.config.parcelCountries }
  let resolver := Resolver.ofIndex g.places c g.config.resolver scope g.isCancelled
  return (← (resolver.resolve ranking).adapt GeocoderError.resolve).take limit

/-- The places that a request asks for, in one attempt. -/
def searchOnce (r : SearchRequest) : GeocoderM m (List Candidate) := do
  let query ← prepare r
  match query.near.filter fun _ => query.isCoordinateOnly with
  | some point => return (← g.reverse point coordinateDetail).toList
  | none =>
    let (c, ranking) ← g.interpret r query
    if ranking.isEmpty then return [] else g.lookUp r c ranking

/-- The outcome of the first attempt that finds something, or of the last one. -/
def firstFound : List SearchRequest → GeocoderM m (List Candidate)
  | [] => return []
  | r :: rest => do
    let found ← g.searchOnce r
    if found.isEmpty then firstFound rest else return found

/-- The places that a request asks for, best first. A structured query without a result is tried
again with ever fewer fields, if the configuration allows it. -/
def search (r : SearchRequest) : GeocoderM m (List Candidate) :=
  g.firstFound (if g.config.fallback then r.attempts else [r])

end Geocoder

/-- The geocoder over a gazetteer, whose searches are never cancelled. -/
def Geocoder.ofGazetteer (g : Gazetteer) (config : Config) : Except AtlasError (Geocoder Id) := do
  let atlas ← Atlas.ofGazetteer g
  return {
    lexicon := (Vocabulary.ofGazetteer g).lexicon
    places := atlas.placeIndex
    points := atlas.reverseIndex
    config
    isCancelled := false }

end Geocoding
