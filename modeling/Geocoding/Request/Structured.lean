import Geocoding.Index.Query
import Geocoding.Phrase
import Geocoding.Text.Blank

/-!
# Structured queries

An address that is given field by field (`StructuredQuery`). The fields tell which address ranks are
asked for (`StructuredQuery.restriction`), and a query that finds nothing can be tried again with a
field less (`StructuredQuery.relax?`).
-/

namespace Geocoding

/-- The ranks that results must have. -/
structure RankRestriction where
  /-- The address rank or the search rank is in this range. -/
  ranks : RankRange := .full
  /-- Address ranks that are accepted in addition. -/
  allowed : List Nat := []
deriving DecidableEq, Repr

namespace PhraseRole

/-- The roles of the fields of an address, in the order in which a query has them. -/
def fields : List PhraseRole :=
  [amenity, street, city, county, state, postalcode, country]

/-- The role of the field of a name. -/
def ofField? (name : String) : Option PhraseRole :=
  fields.find? (·.name = name)

/-- The ranks that a field asks for. -/
def ranks : PhraseRole → RankRange
  | amenity | street => ⟨26, 30⟩
  | city => ⟨14, 24⟩
  | county => ⟨9, 13⟩
  | state => ⟨8, 8⟩
  | postalcode => ⟨5, 11⟩
  | country => ⟨4, 4⟩
  | untyped => .full

/-- The address ranks that are accepted because of a field, whichever field comes first. -/
def allowedRanks : PhraseRole → List Nat
  | postalcode => [5, 11]
  | _ => []

end PhraseRole

/-- An address field by field. -/
structure StructuredQuery where
  amenity : Option String := none
  street : Option String := none
  city : Option String := none
  county : Option String := none
  state : Option String := none
  postalcode : Option String := none
  country : Option String := none
deriving DecidableEq, Repr

namespace StructuredQuery

/-- The content of a field. -/
def get? (q : StructuredQuery) : PhraseRole → Option String
  | .untyped => none
  | .amenity => q.amenity
  | .street => q.street
  | .city => q.city
  | .county => q.county
  | .state => q.state
  | .postalcode => q.postalcode
  | .country => q.country

/-- The query with another content of a field. -/
def put (q : StructuredQuery) (role : PhraseRole) (content : Option String) : StructuredQuery :=
  match role with
  | .untyped => q
  | .amenity => { q with amenity := content }
  | .street => { q with street := content }
  | .city => { q with city := content }
  | .county => { q with county := content }
  | .state => { q with state := content }
  | .postalcode => { q with postalcode := content }
  | .country => { q with country := content }

/-- The content that a text gives to a field: none if the text is blank. -/
def content? (text : String) : Option String :=
  let text := Text.trim text
  if text.isEmpty then none else some text

/-- The query with a text in a field. -/
def write (q : StructuredQuery) (role : PhraseRole) (text : String) : StructuredQuery :=
  q.put role (content? text)

/-- The query with a text in the field of a name; none if there is no such field. -/
def set? (q : StructuredQuery) (name text : String) : Option StructuredQuery :=
  (PhraseRole.ofField? name).map (q.write · text)

/-- The fields that are present, in the order of a query. -/
def fields (q : StructuredQuery) : List (PhraseRole × String) :=
  PhraseRole.fields.filterMap fun role => (q.get? role).map (role, ·)

/-- Whether no field is present. -/
def isEmpty (q : StructuredQuery) : Bool :=
  q.fields.isEmpty

/-- The ranks that the first field asks for, and those that any field accepts. -/
def restriction (q : StructuredQuery) : RankRestriction where
  ranks := (q.fields.head?.map (·.1.ranks)).getD .full
  allowed := q.fields.flatMap (·.1.allowedRanks)

/-- The fields that a query can do without, in the order in which they are dropped. -/
def dispensable : List PhraseRole :=
  [.postalcode, .street, .city, .county, .state]

/-- The query with a field less, if it has a field to spare. -/
def relax? (q : StructuredQuery) : Option StructuredQuery :=
  if q.fields.length ≤ 1 then none
  else (dispensable.find? fun role => (q.get? role).isSome).map (q.put · none)

/-- The content of all fields, divided by commas. -/
def joined (q : StructuredQuery) : String :=
  ", ".intercalate (q.fields.map (·.2))

/-! ## A field less -/

theorem get?_put_none (q : StructuredQuery) (role r : PhraseRole) :
    (q.put role none).get? r = if r = role then none else q.get? r := by
  cases role <;> cases r <;> rfl

/-- Emptying a field leaves all others as they are. -/
theorem fields_put_none (q : StructuredQuery) (role : PhraseRole) :
    (q.put role none).fields = q.fields.filter (·.1 ≠ role) := by
  rw [fields, fields, List.filter_filterMap]
  congr 1
  funext r
  rw [get?_put_none]
  by_cases h : r = role <;> cases q.get? r <;> simp [h, Option.filter]

theorem mem_fields_of_get? {q : StructuredQuery} {role : PhraseRole} {text : String}
    (h : q.get? role = some text) : (role, text) ∈ q.fields := by
  refine List.mem_filterMap.2 ⟨role, ?_, by rw [h]; rfl⟩
  cases role <;> simp_all [PhraseRole.fields, get?]

theorem length_fields_put_none {q : StructuredQuery} {role : PhraseRole}
    (h : (q.get? role).isSome) : (q.put role none).fields.length < q.fields.length := by
  obtain ⟨text, ht⟩ := Option.isSome_iff_exists.1 h
  rw [fields_put_none]
  exact List.length_filter_lt_length_iff_exists.2 ⟨_, mem_fields_of_get? ht, by simp⟩

theorem length_fields_of_relax? {q q' : StructuredQuery} (h : q.relax? = some q') :
    q'.fields.length < q.fields.length := by
  rw [relax?] at h
  split at h
  · contradiction
  · obtain ⟨role, hrole, rfl⟩ := Option.map_eq_some_iff.1 h
    exact length_fields_put_none (List.find?_some hrole :)

end StructuredQuery

end Geocoding
