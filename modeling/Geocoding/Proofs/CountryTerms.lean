import Geocoding.Proofs.Casing
import Geocoding.Proofs.Entries
import Geocoding.Proofs.Exclusion

/-!
# Typing a country

The token of a country has the code of some country of the gazetteer in lower case
(`Vocabulary.exists_namesCountry_of_mem_tokens`), but an atlas compares codes as they are recorded.
So a country that is typed is found exactly if the gazetteer has a country whose code is recorded in
lower case (`Atlas.countryPlace_of_mem_tokens`), and a gazetteer can have none
(`Atlas.country_lost`).
-/

namespace Geocoding

/-! ## The code of a country that is typed -/

theorem Entry.eq_of_token_eq_country {e : Entry} {i id : Nat} {code : String}
    (h : e.token i = .country id code) :
    ∃ raw, e.meaning = .country raw ∧ Text.lower raw = code := by
  obtain ⟨term, meaning⟩ := e
  cases meaning with
  | country raw => exact ⟨raw, rfl, (Token.country.inj h).2⟩
  | word => exact nomatch h
  | postcode => exact nomatch h
  | houseNumber => exact nomatch h
  | phrase => exact nomatch h

namespace Vocabulary

variable {g : Gazetteer} {term code : String} {id : Nat}

theorem mem_places_of_mem_entriesOf {e : Entry} (he : e ∈ entriesOf g)
    (hkind : e.meaning.kind = .country) : ∃ p ∈ g.places, e ∈ placeEntries p := by
  unfold entriesOf at he
  rw [List.mem_append, List.mem_append] at he
  rcases he with (he | he) | he
  · exact List.mem_flatMap.1 he
  · obtain ⟨p, -, rfl⟩ := List.mem_map.1 he
    exact nomatch hkind
  · obtain ⟨p, -, rfl⟩ := List.mem_map.1 he
    exact nomatch hkind

/-- A term that has the token of a country is a name of that country. -/
theorem exists_namesCountry_of_mem_tokens
    (h : .country id code ∈ (ofGazetteer g).tokens term) :
    ∃ p ∈ g.places, p.namesCountry term code := by
  have htoken : .country id code ∈ (ofGazetteer g).tokensOf term .country := by
    rw [← filter_letter_tokens]
    exact List.mem_filter.2 ⟨h, rfl⟩
  obtain ⟨e, i, he, heq⟩ := mem_tokensOf_iff.1 htoken
  obtain ⟨raw, hraw, hcode⟩ := Entry.eq_of_token_eq_country heq
  have hfirst : e ∈ ((entriesOf g).find? (·.IsFor .country term)).toList := by
    rw [← filter_entries_eq_toList g rfl, ← map_fst_find]
    exact List.mem_map_of_mem he
  rw [Option.mem_toList] at hfirst
  obtain ⟨hkind, rfl⟩ : e.IsFor .country term := by simpa using List.find?_some hfirst
  obtain ⟨p, hp, hentry⟩ := mem_places_of_mem_entriesOf (List.mem_of_find?_eq_some hfirst) hkind
  have hnames : p.namesCountry e.term raw := by
    rw [← mem_placeEntries_country_iff, ← hraw]
    exact hentry
  -- The code is in lower case already when it is entered, so a token does not change it.
  have hlower : Text.lower raw = raw := by
    obtain ⟨-, recorded, -, rfl, -⟩ := hnames
    exact Text.lower_lower recorded
  obtain rfl := hlower.symm.trans hcode
  exact ⟨p, hp, hnames⟩

end Vocabulary

/-! ## The place of a country that is typed -/

/-- A country alone is looked up by its code. -/
theorem Lookup.exists_places_of_isCountryAlone (a : Atlas) {c : Constraints} {scope : Scope}
    {s : Interpretation} {code : String} (h : s.IsCountryAlone c code)
    (hranks : scope.ranks.contains 4 = true) :
    ∃ found, places (a.placeIndex : PlaceIndex Id) c scope s = pure found ∧
      (found.isEmpty = true ↔ a.countryPlace code c.boundingBox? = none) := by
  rw [places_of_isCountryAlone h, country, if_pos hranks]
  cases hcode : a.countryPlace code c.boundingBox? with
  | none =>
    have hindex : (a.placeIndex : PlaceIndex Id).countryPlace code c.boundingBox? = pure none :=
      congrArg pure hcode
    rw [hindex]
    exact ⟨∅, rfl, iff_of_true rfl rfl⟩
  | some id =>
    have hindex : (a.placeIndex : PlaceIndex Id).countryPlace code c.boundingBox? =
        pure (some id) := congrArg pure hcode
    rw [hindex]
    exact ⟨.ofList [.primary id (some 4)], rfl,
      iff_of_false Bool.false_ne_true (Option.some_ne_none id)⟩

namespace Atlas

variable {g : Gazetteer} {a : Atlas} {code : String}

/-- An atlas finds no country of a code exactly if the gazetteer has none. -/
theorem countryPlace_eq_none_iff (h : a.Represents g) :
    a.countryPlace code none = none ↔
      ∀ p ∈ g.places, p.addressRank = 4 → p.country ≠ some code := by
  rw [countryPlace, Option.map_eq_none_iff, best?_eq_none_iff, List.filter_eq_nil_iff]
  simp only [← h.records.mem_iff, List.forall_mem_map]
  simp [inBox]

/-- For a token of a country, there is a country that its term names and that has its code in lower
case. A country is found exactly if there is one whose code is recorded so, and then it is one of
these. Looking up the country alone gives the same. -/
theorem countryPlace_of_mem_tokens (h : ofGazetteer g = .ok a) {term : String} {id : Nat}
    (ht : .country id code ∈ (Vocabulary.ofGazetteer g).tokens term) :
    (∃ p ∈ g.places, p.namesCountry term code) ∧
      (a.countryPlace code none = none ↔
        ∀ p ∈ g.places, p.addressRank = 4 → p.country ≠ some code) ∧
      (∀ found, a.countryPlace code none = some found →
        ∃ p ∈ g.places, p.id = found ∧ p.addressRank = 4 ∧ p.country = some code) ∧
      ∀ c scope s, s.IsCountryAlone c code → c.boundingBox? = none →
        scope.ranks.contains 4 = true →
          ∃ found, lookup (a.placeIndex : PlaceIndex Id) c scope s = pure found ∧
            (found.isEmpty = true ↔ a.countryPlace code none = none) := by
  have hrepresents := represents_of_ofGazetteer h
  refine ⟨Vocabulary.exists_namesCountry_of_mem_tokens ht, countryPlace_eq_none_iff hrepresents,
    fun found hfound => ?_, fun c scope s hs hbox hranks => ?_⟩
  · obtain ⟨p, hp, rfl, hrank, hcode, -⟩ := exists_of_countryPlace hfound
    exact ⟨p.record, hrepresents.records.mem_iff.1 (List.mem_map_of_mem hp), rfl, hrank, hcode⟩
  · obtain ⟨found, hplaces, hfound⟩ := Lookup.exists_places_of_isCountryAlone a hs hranks
    obtain ⟨compared, hcompared, hkeys⟩ := Lookup.exists_lookup_of_places hplaces
    refine ⟨compared, hcompared, ?_⟩
    have hempty : compared.isEmpty = true ↔ found.isEmpty = true := by
      unfold CandidateSet.isEmpty
      rw [List.isEmpty_iff, List.isEmpty_iff, ← List.map_eq_nil_iff, hkeys, List.map_eq_nil_iff]
    rw [hempty, hfound, hbox]

/-- A country whose code is recorded in upper case. -/
def shoutedGermany : PlaceRecord where
  id := 1
  names := ["Germany"]
  placeType := ⟨"boundary", "administrative"⟩
  addressRank := 4
  ownSearchRank := none
  country := some "DE"
  parent := none
  postcode := none
  houseNumber := none
  location := ⟨51, 10⟩
  line := none
  area := none
  importance := 1

/-- The only country there is has a token and is not found. -/
theorem country_lost :
    ∃ a id, ofGazetteer { places := [shoutedGermany] } = .ok a ∧
      .country id "de" ∈ (Vocabulary.ofGazetteer { places := [shoutedGermany] }).tokens "germany" ∧
      a.countryPlace "de" none = none ∧
      ∃ found, lookup (a.placeIndex : PlaceIndex Id) {} {} { cost := 1, country := some "de" } =
        pure found ∧ found.isEmpty = true := by
  have hatlas : ∃ a, ofGazetteer { places := [shoutedGermany] } = .ok a := by
    simp only [ofGazetteer, build, byId, List.mergeSort_singleton]
    exact ⟨_, rfl⟩
  obtain ⟨a, ha⟩ := hatlas
  have htoken : .country 3 "de" ∈
      (Vocabulary.ofGazetteer { places := [shoutedGermany] }).tokens "germany" := by
    decide +kernel
  obtain ⟨-, hnone, -, hlookup⟩ := countryPlace_of_mem_tokens ha htoken
  have hlost : a.countryPlace "de" none = none :=
    hnone.2 fun p hp _ => by
      rw [List.mem_singleton.1 hp]
      decide
  obtain ⟨found, hfound, hempty⟩ :=
    hlookup {} {} { cost := 1, country := some "de" } ⟨rfl, rfl, rfl, rfl, rfl⟩ rfl rfl
  exact ⟨a, 3, ha, htoken, hlost, found, hfound, hempty.2 hlost⟩

end Atlas

end Geocoding
