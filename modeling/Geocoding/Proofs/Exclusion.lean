import Geocoding.Proofs.Answering
import Geocoding.Proofs.Atlas
import Geocoding.Proofs.Gazetteer
import Geocoding.Proofs.Origin

/-!
# Excluded places

A request can exclude places. All queries to an atlas but one honour that (`Atlas.excludes`): a
country is asked for by its code alone. The lookup of an interpretation therefore finds an excluded
place exactly if the interpretation is a country and nothing else, and the place is that country
(`Lookup.FindsCountry`). No other excluded place is ever a result of a search.
-/

namespace Geocoding

/-- The answers of the index contain no excluded places, except that a country is asked for without
regard to them. -/
structure PlaceIndex.Excludes (index : PlaceIndex Id) : Prop where
  areaPlaces : ∀ query,
    Yields (index.areaPlaces query) fun ids => ∀ id ∈ ids, id ∉ query.excluded
  postcodes : ∀ query,
    Yields (index.postcodes query) fun ids => ∀ id ∈ ids, id ∉ query.excluded
  namedPlaces : ∀ query,
    Yields (index.namedPlaces query) fun hits => ∀ hit ∈ hits, hit.id ∉ query.excluded
  houseNumbers : ∀ query,
    Yields (index.houseNumbers query) fun ids => ∀ id ∈ ids, id ∉ query.excluded
  interpolations : ∀ query,
    Yields (index.interpolations query) fun ids => ∀ id ∈ ids, id ∉ query.excluded
  parcels : ∀ query,
    Yields (index.parcels query) fun ids => ∀ id ∈ ids, id ∉ query.excluded
  ofType : ∀ ids placeType excluded limit,
    Yields (index.ofType ids placeType excluded limit) fun found => ∀ id ∈ found, id ∉ excluded
  nearby : ∀ ids placeType near excluded limit,
    Yields (index.nearby ids placeType near excluded limit) fun found =>
      ∀ id ∈ found, id ∉ excluded

theorem Atlas.excludes (a : Atlas) : (a.placeIndex : PlaceIndex Id).Excludes where
  areaPlaces _ := yields_pure fun id hid => by
    obtain ⟨p, -, rfl, -, hexcluded, -⟩ := exists_of_mem_areaPlaces hid
    exact hexcluded
  postcodes _ := yields_pure fun id hid => by
    obtain ⟨p, -, rfl, -, hexcluded, -⟩ := exists_of_mem_postcodesOf hid
    exact hexcluded
  namedPlaces _ := yields_pure fun hit hhit => by
    obtain ⟨p, -, hid, -, hexcluded, -⟩ := exists_of_mem_namedPlaces hhit
    exact hid ▸ hexcluded
  houseNumbers _ := yields_pure fun id hid => by
    obtain ⟨p, -, rfl, hexcluded, -⟩ := mem_houseNumbers_iff.1 hid
    exact hexcluded
  interpolations _ := yields_pure fun id hid => by
    obtain ⟨range, -, rfl, -, hexcluded, -⟩ := mem_rangesWith_iff.1 hid
    exact hexcluded
  parcels _ := yields_pure fun id hid => by
    obtain ⟨range, -, rfl, -, hexcluded, -⟩ := mem_rangesWith_iff.1 hid
    exact hexcluded
  ofType _ _ _ _ := yields_pure fun _ hid => (exists_of_mem_ofType hid).2.1
  nearby _ _ _ _ _ := yields_pure fun id hid => by
    obtain ⟨p, -, rfl, -, hexcluded, -⟩ := exists_of_mem_nearby hid
    exact hexcluded

/-! ## Lookups -/

namespace Lookup

variable {index : PlaceIndex Id} {c : Constraints} {scope : Scope} {s : Interpretation}

/-- An excluded place can be found as a country and in no other way. -/
theorem findsCountry_of_finds (h : index.Excludes) {source : Source} {id : Nat}
    (hfinds : Finds index c scope s source id) (hid : id ∈ c.excluded) :
    source = .primary ∧ FindsCountry index c scope s id := by
  cases hfinds with
  | country hcountry => exact ⟨rfl, hcountry⟩
  | area _ hids hmem => exact absurd hid (h.areaPlaces _ _ hids id hmem)
  | postcode _ hids hmem => exact absurd hid (h.postcodes _ _ hids id hmem)
  | address haddress =>
    cases haddress with
    | named hhit =>
      obtain ⟨hits, hhits, hmem⟩ := hhit
      exact absurd hid (h.namedPlaces _ _ hhits _ hmem)
    | house _ _ _ hids hmem => exact absurd hid (h.houseNumbers _ _ hids id hmem)
    | interpolation _ hids hmem => exact absurd hid (h.interpolations _ _ hids id hmem)
    | parcel _ hids hmem => exact absurd hid (h.parcels _ _ hids id hmem)
  | typed _ _ _ hids hmem => exact absurd hid (h.ofType _ _ _ _ _ hids id hmem)
  | nearby _ _ _ hids hmem => exact absurd hid (h.nearby _ _ _ _ _ _ hids id hmem)

/-! ### Countries are found -/

theorem places_of_isCountryAlone {code : String} (h : s.IsCountryAlone c code) :
    places index c scope s = country index c scope code := by
  obtain ⟨hname, hmode, htype, hnear, hcountry⟩ := h
  simp [places, hname, hmode, htype, hnear, hcountry]

theorem places_of_findsCountry {id : Nat} (h : FindsCountry index c scope s id) :
    places index c scope s = pure (.ofList [.primary id (some 4)]) := by
  obtain ⟨code, halone, hranks, hcode⟩ := h
  rw [places_of_isCountryAlone halone, country, if_pos hranks, hcode, pure_bind]

theorem exists_comparePostcodes (a : Atlas) (postcode : String) (found : CandidateSet) :
    ∃ compared, comparePostcodes (a.placeIndex : PlaceIndex Id) postcode found = pure compared ∧
      compared.entries.map (·.key) = found.entries.map (·.key) := by
  refine ⟨_, comparePostcodes_placeIndex a postcode found, ?_⟩
  rw [CandidateSet.entries_foldl_demote, List.map_map]
  rfl

/-- Comparing postcodes changes ranks only, so a lookup finds what the interpretation is about. -/
theorem exists_lookup_of_places {a : Atlas} {found : CandidateSet}
    (h : places (a.placeIndex : PlaceIndex Id) c scope s = pure found) :
    ∃ compared, lookup (a.placeIndex : PlaceIndex Id) c scope s = pure compared ∧
      compared.entries.map (·.key) = found.entries.map (·.key) := by
  rw [lookup, h, pure_bind]
  cases s.postcode with
  | none => exact ⟨found, rfl, rfl⟩
  | some postcode => exact exists_comparePostcodes a postcode found

theorem exists_lookup_of_findsCountry {a : Atlas} {id : Nat}
    (h : FindsCountry a.placeIndex c scope s id) :
    ∃ found, lookup (a.placeIndex : PlaceIndex Id) c scope s = pure found ∧
      ∃ x ∈ found.entries, x.id = id := by
  obtain ⟨compared, hcompared, hkeys⟩ := exists_lookup_of_places (places_of_findsCountry h)
  have hmem : (Source.primary, id) ∈ compared.entries.map (·.key) := by
    rw [hkeys]
    exact List.mem_singleton_self _
  obtain ⟨x, hx, hkey⟩ := List.mem_map.1 hmem
  exact ⟨compared, hcompared, x, hx, congrArg Prod.snd hkey⟩

/-- The lookup of an interpretation finds an excluded place exactly if it is a country alone and the
place is that country. -/
theorem exists_excluded_iff_findsCountry {a : Atlas} {id : Nat} (hid : id ∈ c.excluded) :
    (∃ found, lookup (a.placeIndex : PlaceIndex Id) c scope s = pure found ∧
      ∃ x ∈ found.entries, x.id = id) ↔ FindsCountry a.placeIndex c scope s id := by
  constructor
  · rintro ⟨found, hfound, x, hx, rfl⟩
    exact (findsCountry_of_finds a.excludes (yields_lookup found hfound x hx) hid).2
  · exact exists_lookup_of_findsCountry

end Lookup

/-! ## Searches -/

namespace Geocoder

variable {geocoder : Geocoder Id} {r : SearchRequest}

theorem excluded_of_plans {c : Constraints} {s : Interpretation} (h : geocoder.Plans r c s) :
    c.excluded = r.excluded := by
  obtain ⟨query, phrases, table, roots, -, rfl, -⟩ := exists_plan_of_plans h
  rfl

/-- A search returns no excluded place, except for a country that some planned interpretation means
by itself; and looking up such an interpretation is the only way to find an excluded place, as the
country is found whether it is excluded or not. -/
theorem search_excludes_all_but_countries {g : Gazetteer} {config : Config}
    (hg : ofGazetteer g config = .ok geocoder) (hwords : r.HasWords) :
    (∀ found, geocoder.search r = pure found → ∀ x ∈ found, x.id ∈ r.excluded →
      x.source = .primary ∧ ∃ r' ∈ geocoder.tries r, ∃ c s, geocoder.Plans r' c s ∧
        Lookup.FindsCountry geocoder.places c (geocoder.scopeOf r') s x.id) ∧
    ∀ c scope s id, id ∈ c.excluded →
      ((∃ found, lookup geocoder.places c scope s = pure found ∧ ∃ x ∈ found.entries, x.id = id) ↔
        Lookup.FindsCountry geocoder.places c scope s id) := by
  obtain ⟨a, -, hgeocoder⟩ := exists_atlas_of_ofGazetteer hg
  have hplaces : geocoder.places = a.placeIndex := by rw [hgeocoder]
  rw [hplaces]
  refine ⟨?_, fun c scope s id hid => Lookup.exists_excluded_iff_findsCountry hid⟩
  let Q : Candidate → Prop := fun x => x.id ∈ r.excluded →
    x.source = .primary ∧ ∃ r' ∈ geocoder.tries r, ∃ c s, geocoder.Plans r' c s ∧
      Lookup.FindsCountry a.placeIndex c (geocoder.scopeOf r') s x.id
  have hQ : RankBlind Q := fun _ _ h => h
  refine yields_search hQ hwords fun r' hr' c s hplans => ?_
  rw [hplaces]
  refine Lookup.yields_lookup.mono fun found hfound x hx hexcluded => ?_
  have hc : c.excluded = r.excluded := (excluded_of_plans hplans).trans
    (SearchRequest.excluded_of_mem_attempts (mem_attempts_of_mem_tries hr'))
  obtain ⟨hsource, hcountry⟩ :=
    Lookup.findsCountry_of_finds a.excludes (hfound x hx) (hc ▸ hexcluded)
  exact ⟨hsource, r', hr', c, s, hplans, hcountry⟩

/-- A gazetteer of one country. -/
def germany : Gazetteer where
  places := [{
    id := 1, names := ["Germany"], placeType := ⟨"boundary", "administrative"⟩, addressRank := 4
    ownSearchRank := none, country := some "de", parent := none, postcode := none
    houseNumber := none, location := ⟨51, 10⟩, line := none, area := none, importance := 1 }]

/-- A request for the country that excludes it. -/
def germanyExcluded : SearchRequest :=
  { query := .structured { country := some "Germany" }, excluded := [1] }

/-- The country is found although it is excluded. -/
theorem germany_found_though_excluded :
    ∃ geocoder, ofGazetteer germany {} = .ok geocoder ∧ germanyExcluded.HasWords ∧
      ∃ found, lookup geocoder.places { excluded := germanyExcluded.excluded }
          (geocoder.scopeOf germanyExcluded) { cost := 1, country := some "de" } = pure found ∧
        ∃ x ∈ found.entries, x.id = 1 := by
  have hwords : germanyExcluded.HasWords := SearchRequest.hasWords_of_structured rfl
  obtain ⟨geocoder, hg, hcode⟩ : ∃ geocoder, ofGazetteer germany {} = .ok geocoder ∧
      geocoder.places.countryPlace "de" none = pure (some 1) := by
    have hatlas : ∃ a, Atlas.ofGazetteer germany = .ok a ∧ a.countryPlace "de" none = some 1 := by
      simp only [Atlas.ofGazetteer, Atlas.build, Atlas.byId, germany, List.mergeSort_singleton]
      exact ⟨_, rfl, rfl⟩
    obtain ⟨a, ha, hcode⟩ := hatlas
    rw [ofGazetteer, ha]
    exact ⟨_, rfl, congrArg pure hcode⟩
  refine ⟨geocoder, hg, hwords, ?_⟩
  refine ((search_excludes_all_but_countries hg hwords).2 _ _ _ _ (by decide)).2 ?_
  exact ⟨"de", ⟨rfl, rfl, rfl, rfl, rfl⟩, rfl, hcode⟩

end Geocoder

end Geocoding
