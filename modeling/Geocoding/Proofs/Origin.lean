import Geocoding.Proofs.Provenance

/-!
# Which query finds a place

A lookup takes places from the answers of the index and from nowhere else. `Lookup.Finds` says which
answer a place is from and what was asked for: a country, an area, a postcode, or a name. Places by
name can lead to others, by house number (`Lookup.FindsAddress`) and then by their type, so that the
ids in later queries are those of places found before.

All candidates of a lookup are found so (`Lookup.yields_lookup`). What the answers of an index have
in common is thereby a case analysis away from what all results have in common.
-/

namespace Geocoding

/-- The interpretation is a country and nothing else. -/
def Interpretation.IsCountryAlone (s : Interpretation) (c : Constraints) (code : String) : Prop :=
  s.name.isEmpty = true ∧ s.mode = .plain ∧ s.placeType = none ∧ c.near = none ∧
    s.country = some code

namespace Lookup

section

variable (index : PlaceIndex Id) (c : Constraints) (scope : Scope) (s : Interpretation)

/-- The interpretation is a country alone, countries are to be found, and the place is that
country. -/
def FindsCountry (id : Nat) : Prop :=
  ∃ code, s.IsCountryAlone c code ∧ scope.ranks.contains 4 = true ∧
    index.countryPlace code c.boundingBox? = pure (some id)

/-- The place is found by its name. -/
def FindsNamed (hit : NamedPlaceHit) : Prop :=
  ∃ hits, index.namedPlaces (namedPlaceQuery c scope s) = pure hits ∧ hit ∈ hits

/-- The streets are found by name, or else places that have houses. -/
def NamedStreets (streets : List Nat) : Prop :=
  ∀ id ∈ streets, ∃ hit, FindsNamed index c scope s hit ∧ hit.id = id ∧ hit.addressRank ≤ 27

/-- The houses and points of interest are found by name. -/
def NamedHouses (places : List Nat) : Prop :=
  ∀ id ∈ places, ∃ hit, FindsNamed index c scope s hit ∧ hit.id = id ∧ 30 ≤ hit.addressRank

/-- The place is found by its name, or by the house number from places that are. -/
inductive FindsAddress : Source → Nat → Prop
  | named {hit} (hhit : FindsNamed index c scope s hit) : FindsAddress .primary hit.id
  | house {houseNumber streets places ids id} (hnumber : s.houseNumber = some houseNumber)
      (hstreets : NamedStreets index c scope s streets)
      (hplaces : NamedHouses index c scope s places)
      (hids : index.houseNumbers { houseNumber, streets, places, excluded := c.excluded } =
        pure ids)
      (hid : id ∈ ids) : FindsAddress .primary id
  | interpolation {houseNumber streets ids id} (hstreets : NamedStreets index c scope s streets)
      (hids : index.interpolations { houseNumber, streets, excluded := c.excluded } = pure ids)
      (hid : id ∈ ids) : FindsAddress .interpolation id
  | parcel {houseNumber streets ids id} (hstreets : NamedStreets index c scope s streets)
      (hids : index.parcels { houseNumber, streets, excluded := c.excluded } = pure ids)
      (hid : id ∈ ids) : FindsAddress .parcel id

/-- The place is found. -/
inductive Finds : Source → Nat → Prop
  | country {id} (hcountry : FindsCountry index c scope s id) : Finds .primary id
  | area {placeType ids id} (htype : s.placeType = some placeType)
      (hids : index.areaPlaces {
        placeType, near := c.near, box := c.boundingBox?, countries := countries c s
        excluded := c.excluded, limit := scope.limit } = pure ids)
      (hid : id ∈ ids) : Finds .primary id
  | postcode {postcode ids id} (hpostcode : s.postcode = some postcode)
      (hids : index.postcodes {
        postcode, address := s.address, countries := countries c s, box := c.boundingBox?
        excluded := c.excluded, limit := scope.limit } = pure ids)
      (hid : id ∈ ids) : Finds .postcode id
  | address {source id} (haddress : FindsAddress index c scope s source id) : Finds source id
  | typed {placeType parents ids id} (htype : s.placeType = some placeType)
      (hmode : s.mode = .ofType ∨ s.mode = .named)
      (hparents : ∀ parent ∈ parents, FindsAddress index c scope s .primary parent)
      (hids : index.ofType parents placeType c.excluded scope.limit = pure ids)
      (hid : id ∈ ids) : Finds .primary id
  | nearby {placeType parents ids id} (htype : s.placeType = some placeType)
      (hmode : s.mode = .ofType ∨ s.mode = .near ∨ s.mode = .inside)
      (hparents : ∀ parent ∈ parents, FindsAddress index c scope s .primary parent)
      (hids : index.nearby parents placeType c.near c.excluded scope.limit = pure ids)
      (hid : id ∈ ids) : Finds .primary id

/-- The candidate is found by its name or its house number. -/
def IsAddress (x : Candidate) : Prop :=
  FindsAddress index c scope s x.source x.id

/-- The candidate is found. -/
def IsFound (x : Candidate) : Prop :=
  Finds index c scope s x.source x.id

end

variable {index : PlaceIndex Id} {c : Constraints} {scope : Scope} {s : Interpretation}

theorem rankBlind_isFound : RankBlind (IsFound index c scope s) :=
  fun _ _ h => h

theorem forall_mem_map {β : Type} {Q : Candidate → Prop} {f : β → Candidate} {xs : List β}
    (h : ∀ x ∈ xs, Q (f x)) : ∀ x ∈ xs.map f, Q x :=
  List.forall_mem_map.2 h

theorem yields_only {Q : Candidate → Prop} {found : CandidateSet} (hfound : found.Only Q) :
    Yields (pure found : IndexM Id CandidateSet) (·.Only Q) :=
  yields_pure hfound

/-! ## A single query -/

theorem yields_country {code : String} (halone : s.IsCountryAlone c code) :
    Yields (country index c scope code) (·.Only (IsFound index c scope s)) := by
  rw [country]
  split
  · next hranks =>
    refine (yields_self _).bind fun found hfound => ?_
    cases found with
    | none => exact yields_only CandidateSet.only_empty
    | some id =>
      refine yields_only (CandidateSet.only_ofList fun x hx => ?_)
      rw [List.mem_singleton.1 hx]
      exact .country ⟨code, halone, hranks, hfound⟩
  · exact yields_only CandidateSet.only_empty

theorem yields_areaPlaces :
    Yields (areaPlaces index c scope s) (·.Only (IsFound index c scope s)) := by
  rw [areaPlaces]
  split
  · next htype =>
    split
    · refine (yields_self _).bind fun ids hids => yields_only (CandidateSet.only_ofList ?_)
      exact forall_mem_map fun id hid => .area htype hids hid
    · exact yields_only CandidateSet.only_empty
  · exact yields_only CandidateSet.only_empty

theorem yields_postcodes :
    Yields (postcodes index c scope s) (·.Only (IsFound index c scope s)) := by
  rw [postcodes]
  split
  · next hpostcode =>
    refine (yields_self _).bind fun ids hids => yields_only (CandidateSet.only_ofList ?_)
    exact forall_mem_map fun id hid => .postcode hpostcode hids hid
  · exact yields_only CandidateSet.only_empty

theorem yields_namedPlaces :
    Yields (namedPlaces index c scope s) (·.Only fun x =>
      ∃ hit, FindsNamed index c scope s hit ∧ x = ofNamedPlace hit) := by
  refine (yields_self _).bind fun hits hhits => yields_only (CandidateSet.only_ofList ?_)
  exact forall_mem_map fun hit hhit => ⟨hit, ⟨hits, hhits, hhit⟩, rfl⟩

/-! ## Places that lead to others -/

section

variable {parents : CandidateSet}

/-- The parents by rank are found by name. -/
theorem exists_hit_of_mem_idsByRank {p : Nat → Bool}
    (hparents : parents.Only fun x => ∃ hit, FindsNamed index c scope s hit ∧ x = ofNamedPlace hit)
    {id : Nat} (hid : id ∈ idsByRank p parents) :
    ∃ hit, FindsNamed index c scope s hit ∧ hit.id = id ∧ p hit.addressRank = true := by
  obtain ⟨x, hx, rfl⟩ := List.mem_map.1 hid
  obtain ⟨hmem, hrank⟩ := List.mem_filter.1 hx
  obtain ⟨hit, hhit, rfl⟩ := hparents x hmem
  exact ⟨hit, hhit, rfl, by simpa [ofNamedPlace, Candidate.primary] using hrank⟩

theorem yields_ranges {number : Nat} {streets : List Nat} {found : CandidateSet}
    (hstreets : NamedStreets index c scope s streets)
    (hfound : found.Only (IsAddress index c scope s)) :
    Yields (ranges index c scope s number streets found) (·.Only (IsAddress index c scope s)) := by
  have hparcels {found : CandidateSet} (hfound : found.Only (IsAddress index c scope s)) :
      Yields (if found.isEmpty && parcelsEnabled c scope s then do
          let ids ← index.parcels { houseNumber := number, streets, excluded := c.excluded }
          return found.extend (ids.map fun id =>
            { source := .parcel, id, houseNumber := some number })
        else return found) (·.Only (IsAddress index c scope s)) := by
    split
    · refine (yields_self _).bind fun ids hids => yields_only (hfound.extend ?_)
      exact forall_mem_map fun id hid => .parcel hstreets hids hid
    · exact yields_only hfound
  rw [ranges]
  split
  · refine (yields_self _).bind fun ids hids => hparcels (hfound.extend ?_)
    exact forall_mem_map fun id hid => .interpolation hstreets hids hid
  · exact hparcels hfound

/-- A place without the house number is the place itself, whatever its rank. -/
theorem key_of_withoutNumber? {parent x : Candidate} (h : withoutNumber? parent = some x) :
    x.key = parent.key := by
  rw [withoutNumber?] at h
  split at h
  · split at h
    · obtain rfl := Option.some.inj h
      rfl
    · contradiction
  · contradiction

theorem isAddress_of_named {x : Candidate}
    (h : ∃ hit, FindsNamed index c scope s hit ∧ x = ofNamedPlace hit) :
    IsAddress index c scope s x := by
  obtain ⟨hit, hhit, rfl⟩ := h
  exact .named hhit

theorem yields_addresses {houseNumber : String} (hnumber : s.houseNumber = some houseNumber)
    (hparents : parents.Only fun x =>
      ∃ hit, FindsNamed index c scope s hit ∧ x = ofNamedPlace hit) :
    Yields (addresses index c scope s houseNumber parents)
      (·.Only (IsAddress index c scope s)) := by
  have hstreets : NamedStreets index c scope s (idsByRank (· ≤ 27) parents) := by
    intro id hid
    obtain ⟨hit, hhit, heq, hrank⟩ := exists_hit_of_mem_idsByRank hparents hid
    exact ⟨hit, hhit, heq, of_decide_eq_true hrank⟩
  have hplaces : NamedHouses index c scope s (idsByRank (30 ≤ ·) parents) := by
    intro id hid
    obtain ⟨hit, hhit, heq, hrank⟩ := exists_hit_of_mem_idsByRank hparents hid
    exact ⟨hit, hhit, heq, of_decide_eq_true hrank⟩
  have hkept {found : CandidateSet} (hfound : found.Only (IsAddress index c scope s)) :
      ((parents.entries.filterMap withoutNumber?).foldl CandidateSet.replace found).Only
        (IsAddress index c scope s) := by
    refine hfound.foldl_replace fun x hx => ?_
    obtain ⟨parent, hparent, hx⟩ := List.mem_filterMap.1 hx
    obtain ⟨hsource, hid⟩ := Prod.mk.inj (key_of_withoutNumber? hx)
    rw [IsAddress, hsource, hid]
    exact isAddress_of_named (hparents parent hparent)
  have hhouses {ids : List Nat} (hids : index.houseNumbers
        { houseNumber, streets := idsByRank (· ≤ 27) parents
          places := idsByRank (30 ≤ ·) parents, excluded := c.excluded } = pure ids) :
      (CandidateSet.ofList (ids.map (Candidate.primary · (some 30)))).Only
        (IsAddress index c scope s) :=
    CandidateSet.only_ofList (forall_mem_map fun _ hid => .house hnumber hstreets hplaces hids hid)
  have hempty : (∅ : CandidateSet).Only (IsAddress index c scope s) := CandidateSet.only_empty
  rw [addresses]
  refine yields_ite (fun _ => (yields_only hempty).bind ?_)
    fun _ => (yields_self _).bind fun ids hids => (yields_only (hhouses hids)).bind ?_
  -- what follows the addresses is the same in both cases
  all_goals
    intro found hfound
    cases leadingNumber? houseNumber with
    | none => exact (yields_only hfound).bind fun _ hfound => yields_only (hkept hfound)
    | some number =>
      refine yields_ite (fun _ => (yields_only hfound).bind fun _ hfound => ?_)
        fun _ => (yields_ranges hstreets hfound).bind fun _ hfound => ?_
      · exact yields_only (hkept hfound)
      · exact yields_only (hkept hfound)

theorem yields_typedPlaces {placeType : PlaceType} (htype : s.placeType = some placeType)
    (hparents : parents.Only (IsAddress index c scope s)) :
    Yields (typedPlaces index c scope s placeType parents)
      (·.Only (IsFound index c scope s)) := by
  let ids := parents.idsIn .primary
  have hids : ∀ parent ∈ ids, FindsAddress index c scope s .primary parent := by
    intro id hid
    obtain ⟨x, hx, rfl⟩ := List.mem_map.1 hid
    obtain ⟨hmem, hsource⟩ := List.mem_filter.1 hx
    have haddress := hparents x hmem
    rwa [IsAddress, of_decide_eq_true hsource] at haddress
  have hnear {typed : List Nat} (htyped : ∀ id ∈ typed, Finds index c scope s .primary id) :
      Yields (do
        let near ← if s.mode = .ofType || s.mode = .near || s.mode = .inside then
            index.nearby ids placeType c.near c.excluded scope.limit
          else pure []
        return (CandidateSet.ofList (typed.map (Candidate.primary · none))).extend
          (near.map (Candidate.primary · none))) (·.Only (IsFound index c scope s)) := by
    have hfound : (CandidateSet.ofList (typed.map (Candidate.primary · none))).Only
        (IsFound index c scope s) := CandidateSet.only_ofList (forall_mem_map htyped)
    split
    · next hmode =>
      simp only [Bool.or_eq_true, decide_eq_true_eq, or_assoc] at hmode
      refine (yields_self _).bind fun near hnear => yields_only (hfound.extend ?_)
      exact forall_mem_map fun id hid => .nearby htype hmode hids hnear hid
    · exact yields_only (hfound.extend (by simp))
  rw [typedPlaces]
  refine yields_ite (fun _ => yields_only CandidateSet.only_empty) fun _ => ?_
  refine yields_ite (fun hmode => ?_) fun _ => hnear (List.forall_mem_nil _)
  simp only [Bool.or_eq_true, decide_eq_true_eq] at hmode
  exact (yields_self _).bind fun typed htyped =>
    hnear fun id hid => .typed htype hmode hids htyped hid

theorem yields_narrowedPlaces :
    Yields (narrowedPlaces index c scope s) (·.Only (IsFound index c scope s)) := by
  have hall {found : CandidateSet} (hfound : found.Only (IsAddress index c scope s)) :
      Yields (pure found : IndexM Id CandidateSet) (·.Only (IsFound index c scope s)) :=
    yields_only fun x hx => .address (hfound x hx)
  have htyped {placeType : PlaceType} (htype : s.placeType = some placeType)
      {found : CandidateSet} (hfound : found.Only (IsAddress index c scope s)) :
      Yields (if found.isEmpty then pure found else typedPlaces index c scope s placeType found)
        (·.Only (IsFound index c scope s)) :=
    yields_ite (fun _ => hall hfound) fun _ => yields_typedPlaces htype hfound
  rw [narrowedPlaces]
  refine yields_namedPlaces.bind fun found hnamed => ?_
  have hfound : found.Only (IsAddress index c scope s) :=
    fun x hx => isAddress_of_named (hnamed x hx)
  cases hnumber : s.houseNumber with
  | none =>
    cases htype : s.placeType with
    | none => exact (yields_only hfound).bind fun _ hfound => hall hfound
    | some placeType => exact (yields_only hfound).bind fun _ hfound => htyped htype hfound
  | some houseNumber =>
    cases htype : s.placeType with
    | none =>
      exact yields_ite (fun _ => (yields_only hfound).bind fun _ hfound => hall hfound)
        fun _ => (yields_addresses hnumber hnamed).bind fun _ hfound => hall hfound
    | some placeType =>
      exact yields_ite (fun _ => (yields_only hfound).bind fun _ hfound => htyped htype hfound)
        fun _ => (yields_addresses hnumber hnamed).bind fun _ hfound => htyped htype hfound

end

/-! ## The lookup -/

theorem yields_places : Yields (places index c scope s) (·.Only (IsFound index c scope s)) := by
  rw [places]
  split
  · next halone =>
    simp only [Bool.and_eq_true, decide_eq_true_eq, Option.isNone_iff_eq_none] at halone
    obtain ⟨⟨⟨⟨hname, hmode⟩, htype⟩, hnear⟩, -⟩ := halone
    split
    · next hcode => exact yields_country ⟨hname, hmode, htype, hnear, hcode⟩
    · exact yields_only CandidateSet.only_empty
  · split
    · exact yields_areaPlaces
    · split
      · exact yields_postcodes
      · exact yields_narrowedPlaces

theorem yields_comparePostcodes {Q : Candidate → Prop} (hQ : RankBlind Q) {postcode : String}
    {found : CandidateSet} (hfound : found.Only Q) :
    Yields (comparePostcodes index postcode found) (·.Only Q) := by
  rw [comparePostcodes]
  split
  · exact yields_only hfound
  · refine (yields_trivial _).bind fun others _ => yields_only ?_
    have hkeys := hfound.foldl_demote hQ (others.map (Source.primary, ·))
    rwa [List.foldl_map] at hkeys

/-- Every candidate of a lookup is in an answer of the index. -/
theorem yields_lookup : Yields (lookup index c scope s) (·.Only (IsFound index c scope s)) := by
  refine yields_places.bind fun found hfound => ?_
  split
  · exact yields_comparePostcodes rankBlind_isFound hfound
  · exact yields_only hfound

end Lookup

end Geocoding
