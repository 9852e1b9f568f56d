import Geocoding.Decimal.Read
import Geocoding.Request

/-!
# Request parameters

A request can be given as parameters with names (`SearchRequest.ofParameters`). The parameters are
read one after another, and the first one that is wrong decides the error. Unknown parameters are
ignored.
-/

namespace Geocoding

/-- What the parameters so far say. -/
structure Parameters where
  free : Option String := none
  fields : StructuredQuery := {}
  options : SearchOptions := {}
deriving DecidableEq

namespace Parameters

/-- The preferred box of two corners, given as four numbers divided by commas. -/
def readViewbox (o : SearchOptions) (value : String) : Except QueryError SearchOptions :=
  match (Text.splitAt ',' value).mapM fun part => Decimal.readFloat? (Text.trim part) with
  | some [lon₁, lat₁, lon₂, lat₂] => o.withViewbox lon₁ lat₁ lon₂ lat₂
  | _ => .error (.invalidViewbox value)

/-- Ids divided by commas. Blank ones do not count. -/
def readIds? (value : String) : Option (List Nat) :=
  (((Text.splitAt ',' value).map Text.trim).filter (!·.isEmpty)).mapM (Decimal.readNat? UInt64.size)

/-- Read the value of a parameter that is an option. -/
def readOption (o : SearchOptions) (key value : String) : Except QueryError SearchOptions :=
  match key with
  | "viewbox" => readViewbox o value
  | "bounded" => .ok { o with bounded := Text.trim value = "1" || Text.trim value = "true" }
  | "countrycodes" => .ok (o.withCountries (Text.splitAt ',' value))
  | "exclude_place_ids" =>
    match readIds? value with
    | some ids => .ok (o.excluding ids)
    | none => .error (.invalidParameter key value)
  | "featureType" | "featuretype" =>
    if (Text.trim value).isEmpty then .ok o
    else (FeatureType.ofName (Text.trim value)).map fun kind => { o with featureType := some kind }
  | "limit" =>
    match Decimal.readNat? UInt64.size (Text.trim value) with
    | some limit => .ok (o.withLimit limit)
    | none => .error (.invalidParameter key value)
  | _ => .ok o

/-- Read one parameter: the free text, a field of the structured query, or an option. -/
def read (p : Parameters) (key value : String) : Except QueryError Parameters :=
  if key = "q" then .ok { p with free := StructuredQuery.content? value }
  else
    match p.fields.set? key value with
    | some fields => .ok { p with fields }
    | none => (readOption p.options key value).map fun options => { p with options }

/-- The query that the parameters give: free text or fields, but not both. -/
def query (p : Parameters) : Except QueryError QueryText :=
  match p.free, p.fields.isEmpty with
  | some _, false => .error .conflicting
  | some text, true => .ok (.free text)
  | none, false => .ok (.structured p.fields)
  | none, true => .error .empty

end Parameters

/-- The request that parameters give. -/
def SearchRequest.ofParameters (parameters : List (String × String)) :
    Except QueryError SearchRequest := do
  let p ← parameters.foldlM (fun p (key, value) => p.read key value) ({} : Parameters)
  let query ← p.query
  return { p.options with query }

end Geocoding
