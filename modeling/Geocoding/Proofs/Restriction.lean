import Geocoding.Proofs.Atlas
import Geocoding.Proofs.Fields
import Geocoding.Proofs.Findable
import Geocoding.Proofs.Origin

/-!
# Restriction to countries and to a box

A request can be restricted to countries and to a box (`SearchRequest.Admits`). Every query that
finds places by themselves honours both: by name, by postcode, by type in an area, and countries.
What is found from there does not. The houses of a street are asked for by their parent and number,
and places of a type by their distance, and neither query says anything about countries or boxes
(`Atlas.mem_houseNumbers_iff`, `Atlas.exists_of_mem_nearby`). So a search finds places that the
request does not admit, but only such as belong to a street that it admits, or are close to a place
that was found without regard to their type (`Geocoder.search_admits_or_leads`).
-/

namespace Geocoding

/-! ## What a request admits -/

namespace SearchRequest

/-- The place is in one of the countries of the request, if there are any, and in its box, if
results must lie there. -/
structure Admits (r : SearchRequest) (country : Option String) (location : Point Float) :
    Prop where
  country : r.countries ≠ [] → ∃ code ∈ r.countries, country = some code
  location : r.bounded = true → ∀ box, r.viewbox = some box → box.contains location = true

/-- The place has the house number of the interpretation and belongs to a street, or to another
place that has houses, which the request admits. -/
def AdmitsStreetOf (r : SearchRequest) (a : Atlas) (s : Interpretation) (p : AtlasPlace) : Prop :=
  ∃ houseNumber, s.houseNumber = some houseNumber ∧ p.hasHouseNumber houseNumber = true ∧
    ∃ street ∈ a.places, p.record.parent = some street.id ∧ street.record.addressRank ≤ 27 ∧
      r.Admits street.record.country street.record.location

/-- The place is of the type of the interpretation, which asks for places close by, and it belongs
to a place or is close to one that the request admits or that is a house of an admitted street. -/
def AdmitsNeighbourOf (r : SearchRequest) (a : Atlas) (c : Constraints) (s : Interpretation)
    (p : AtlasPlace) : Prop :=
  s.placeType = some p.record.placeType ∧
    (s.mode = .ofType ∨ s.mode = .near ∨ s.mode = .inside) ∧
    ∃ q ∈ a.places, (r.Admits q.record.country q.record.location ∨ r.AdmitsStreetOf a s q) ∧
      (q.id ∈ p.ancestors ∨
        p.distance q ≤ (c.near.map (·.radius)).getD Atlas.nearbyRadius)

/-- The constraints are those of the request, and a country that was read is one of them. -/
structure Governs (r : SearchRequest) (c : Constraints) (s : Interpretation) : Prop where
  countries : c.countries = r.countries
  box : r.bounded = true → ∀ box, r.viewbox = some box → c.boundingBox? = some box
  country : ∀ code, s.country = some code → c.allows code = true

variable {r : SearchRequest} {a : Atlas} {c : Constraints} {scope : Scope} {s : Interpretation}

theorem Governs.location (h : r.Governs c s) {point : Point Float}
    (hbox : inBox c.boundingBox? point = true) (hbounded : r.bounded = true)
    (box : BoundingBox Float) (hviewbox : r.viewbox = some box) : box.contains point = true := by
  rw [h.box hbounded box hviewbox] at hbox
  simpa [inBox] using hbox

/-- What the index is told of countries and the box makes sure that the request admits the place. -/
theorem Governs.admits (h : r.Governs c s) {country : Option String} {point : Point Float}
    (hcountry : inCountries (Lookup.countries c s) country = true)
    (hbox : inBox c.boundingBox? point = true) : r.Admits country point where
  country hne := by
    rw [← h.countries] at hne ⊢
    cases hread : s.country with
    | none =>
      have hcodes : inCountries c.countries country = true := by
        simpa [Lookup.countries, hread] using hcountry
      cases country with
      | none => simp [inCountries, hne] at hcodes
      | some code => exact ⟨code, by simpa [inCountries, hne] using hcodes, rfl⟩
    | some code =>
      have hcode : country = some code := by
        cases country with
        | none => simp [inCountries, Lookup.countries, hread] at hcountry
        | some code' => simpa [inCountries, Lookup.countries, hread] using hcountry
      have hallows := h.country code hread
      exact ⟨code, by simpa [Constraints.allows, hne] using hallows, hcode⟩
  location := h.location hbox

theorem Governs.admits_country (h : r.Governs c s) {code : String} {point : Point Float}
    (hread : s.country = some code) (hbox : inBox c.boundingBox? point = true) :
    r.Admits (some code) point :=
  h.admits (by simp [inCountries, Lookup.countries, hread]) hbox

/-! ## What is found -/

theorem admits_of_findsNamed (h : r.Governs c s) {hit : NamedPlaceHit}
    (hhit : Lookup.FindsNamed a.placeIndex c scope s hit) :
    ∃ p ∈ a.places, p.id = hit.id ∧ p.record.addressRank = hit.addressRank ∧
      r.Admits p.record.country p.record.location := by
  obtain ⟨hits, hhits, hmem⟩ := hhit
  obtain rfl : a.namedPlaces (Lookup.namedPlaceQuery c scope s) = hits := Except.ok.inj hhits
  obtain ⟨p, hp, hid, hrank, -, -, -, hcountry, hbox⟩ := Atlas.exists_of_mem_namedPlaces hmem
  exact ⟨p, hp, hid, hrank, h.admits hcountry hbox⟩

theorem admits_or_street_of_findsAddress (h : r.Governs c s) {id : Nat}
    (hid : Lookup.FindsAddress a.placeIndex c scope s .primary id) :
    ∃ p ∈ a.places, p.id = id ∧
      (r.Admits p.record.country p.record.location ∨ r.AdmitsStreetOf a s p) := by
  cases hid with
  | named hhit =>
    obtain ⟨p, hp, heq, -, hadmits⟩ := admits_of_findsNamed h hhit
    exact ⟨p, hp, heq, Or.inl hadmits⟩
  | @house houseNumber streets places ids _ hnumber hstreets hplaces hids hmem =>
    obtain rfl : a.houseNumbers { houseNumber, streets, places, excluded := c.excluded } = ids :=
      Except.ok.inj hids
    obtain ⟨p, hp, rfl, -, hbelongs, hhas⟩ := Atlas.mem_houseNumbers_iff.1 hmem
    rcases hbelongs with ⟨street, hstreet, hparent⟩ | hplace
    · obtain ⟨hit, hhit, rfl, hrank⟩ := hstreets street hstreet
      obtain ⟨q, hq, hqid, hqrank, hadmits⟩ := admits_of_findsNamed h hhit
      refine ⟨p, hp, rfl, Or.inr ⟨houseNumber, hnumber, hhas, q, hq, ?_, ?_, hadmits⟩⟩
      · rw [hparent, hqid]
      · rwa [hqrank]
    · obtain ⟨hit, hhit, heq, -⟩ := hplaces p.id hplace
      obtain ⟨q, hq, hqid, -, hadmits⟩ := admits_of_findsNamed h hhit
      exact ⟨q, hq, hqid.trans heq, Or.inl hadmits⟩

theorem admits_or_leads_of_finds (hdistinct : (a.places.map (·.id)).Nodup) (h : r.Governs c s)
    {id : Nat} (hid : Lookup.Finds a.placeIndex c scope s .primary id) :
    ∃ p ∈ a.places, p.id = id ∧ (r.Admits p.record.country p.record.location ∨
      r.AdmitsStreetOf a s p ∨ r.AdmitsNeighbourOf a c s p) := by
  cases hid with
  | country hcountry =>
    obtain ⟨code, ⟨-, -, -, -, hread⟩, -, hplace⟩ := hcountry
    obtain ⟨p, hp, heq, -, hcode, hbox⟩ := Atlas.exists_of_countryPlace (Except.ok.inj hplace)
    exact ⟨p, hp, heq, Or.inl (hcode ▸ h.admits_country hread hbox)⟩
  | @area placeType ids _ htype hids hmem =>
    obtain rfl : a.areaPlaces _ = ids := Except.ok.inj hids
    obtain ⟨p, hp, heq, -, -, hcountry, haround⟩ := Atlas.exists_of_mem_areaPlaces hmem
    rw [AtlasPlace.isAround, Bool.and_eq_true] at haround
    exact ⟨p, hp, heq, Or.inl (h.admits hcountry haround.2)⟩
  | address haddress =>
    obtain ⟨p, hp, heq, hadmits⟩ := admits_or_street_of_findsAddress h haddress
    exact ⟨p, hp, heq, hadmits.imp_right Or.inl⟩
  | @typed placeType parents ids _ htype hmode hparents hids hmem =>
    obtain rfl : a.ofType parents placeType c.excluded scope.limit = ids := Except.ok.inj hids
    obtain ⟨hparent, -⟩ := Atlas.exists_of_mem_ofType hmem
    obtain ⟨p, hp, heq, hadmits⟩ := admits_or_street_of_findsAddress h (hparents id hparent)
    exact ⟨p, hp, heq, hadmits.imp_right Or.inl⟩
  | @nearby placeType parents ids _ htype hmode hparents hids hmem =>
    obtain rfl : a.nearby parents placeType c.near c.excluded scope.limit = ids :=
      Except.ok.inj hids
    obtain ⟨p, hp, heq, rfl, -, q, hq, hqid, hclose⟩ := Atlas.exists_of_mem_nearby hmem
    obtain ⟨q', hq', hq'id, hadmits⟩ := admits_or_street_of_findsAddress h (hparents q.id hqid)
    obtain rfl : q' = q := List.inj_on_of_nodup_map hdistinct hq' hq hq'id
    exact ⟨p, hp, heq, Or.inr (Or.inr ⟨htype, hmode, q', hq', hadmits, hclose⟩)⟩

theorem admits_of_finds_postcode (h : r.Governs c s) {id : Nat}
    (hid : Lookup.Finds a.placeIndex c scope s .postcode id) :
    ∃ p ∈ a.postcodes, p.id = id ∧ r.Admits p.record.country p.record.location := by
  cases hid with
  | @postcode code ids _ hcode hids hmem =>
    obtain rfl : a.postcodesOf _ = ids := Except.ok.inj hids
    obtain ⟨p, hp, heq, -, -, hcountry, hbox⟩ := Atlas.exists_of_mem_postcodesOf hmem
    exact ⟨p, hp, heq, h.admits hcountry hbox⟩
  | address haddress => exact nomatch haddress

end SearchRequest

/-! ## Searches -/

namespace Geocoder

variable {geocoder : Geocoder Id} {r r' : SearchRequest} {c : Constraints} {s : Interpretation}

theorem country_root (query : PreparedQuery) : query.root.country = none := by
  rw [PreparedQuery.root]
  split
  · rfl
  · rfl

/-- Attempts with fewer fields are made under the restrictions of the request. -/
theorem governs_of_plans (hr' : r' ∈ r.attempts) (h : geocoder.Plans r' c s) : r.Governs c s := by
  obtain ⟨query, steps, -, hreads⟩ := exists_reads_of_plans h
  obtain ⟨query', phrases, table, roots, -, hc, -⟩ := exists_plan_of_plans h
  have hoptions : r'.countries = r.countries ∧ r'.viewbox = r.viewbox ∧ r'.bounded = r.bounded := by
    rcases SearchRequest.eq_or_structured_of_mem_attempts hr' with rfl | ⟨fields, rfl⟩
    · exact ⟨rfl, rfl, rfl⟩
    · exact ⟨rfl, rfl, rfl⟩
  obtain ⟨hcountries, hviewbox, hbounded⟩ := hoptions
  refine ⟨?_, fun hb box hbox => ?_, fun code hcode => ?_⟩
  · rw [hc, ← hcountries]
    rfl
  · have hbox' : r'.viewbox = some box := hviewbox.trans hbox
    have hb' : r'.bounded = true := hbounded.trans hb
    simp [hc, Constraints.boundingBox?, SearchRequest.constraints, hbox', hb', Viewbox.around]
  · exact Interpretation.allows_of_reads hreads (country_root query) hcode

/-- A search only returns postcodes that the request admits. The places it returns are admitted, or
they are houses of an admitted street, or places of a type that belong to a place found before or
are close to it. Of the latter two neither the country nor the location is ever looked at. -/
theorem search_admits_or_leads {g : Gazetteer} {config : Config}
    (hg : ofGazetteer g config = .ok geocoder) (hwords : r.HasWords) :
    ∃ a, Atlas.ofGazetteer g = .ok a ∧ ∀ found, geocoder.search r = pure found → ∀ x ∈ found,
      (x.source = .postcode → ∃ p ∈ g.postcodes, p.id = x.id ∧ r.Admits p.country p.location) ∧
      (x.source = .primary → ∃ p ∈ a.places, p.record ∈ g.places ∧ p.id = x.id ∧
        (r.Admits p.record.country p.record.location ∨
          ∃ r' ∈ geocoder.tries r, ∃ c s, geocoder.Plans r' c s ∧
            (r.AdmitsStreetOf a s p ∨ r.AdmitsNeighbourOf a c s p))) := by
  obtain ⟨a, ha, hgeocoder⟩ := exists_atlas_of_ofGazetteer hg
  have hplaces : geocoder.places = a.placeIndex := by rw [hgeocoder]
  have hrepresents := Atlas.represents_of_ofGazetteer ha
  refine ⟨a, ha, yields_search (fun _ _ h => h) hwords fun r' hr' c s hplans => ?_⟩
  have hgoverns := governs_of_plans (mem_attempts_of_mem_tries hr') hplans
  rw [hplaces]
  refine Lookup.yields_lookup.mono fun found hfound x hx => ⟨fun hsource => ?_, fun hsource => ?_⟩
  · have hfinds := hfound x hx
    rw [Lookup.IsFound, hsource] at hfinds
    obtain ⟨p, hp, hid, hadmits⟩ := SearchRequest.admits_of_finds_postcode hgoverns hfinds
    refine ⟨p.record, ?_, hid, hadmits⟩
    rw [← Atlas.postcodes_of_build ha]
    exact List.mem_map_of_mem hp
  · have hfinds := hfound x hx
    rw [Lookup.IsFound, hsource] at hfinds
    obtain ⟨p, hp, hid, hadmits⟩ :=
      SearchRequest.admits_or_leads_of_finds hrepresents.distinct hgoverns hfinds
    have hrecord : p.record ∈ g.places := hrepresents.records.mem_iff.1 (List.mem_map_of_mem hp)
    exact ⟨p, hp, hrecord, hid, hadmits.imp_right fun hleads => ⟨r', hr', c, s, hplans, hleads⟩⟩

/-- A street in one country with a house in another one. -/
def border : Gazetteer where
  places := [
    { id := 1, names := ["A"], placeType := ⟨"highway", "residential"⟩, addressRank := 26
      ownSearchRank := none, country := some "de", parent := none, postcode := none
      houseNumber := none, location := ⟨51, 6⟩, line := none, area := none, importance := 0 },
    { id := 2, names := [], placeType := ⟨"place", "house"⟩, addressRank := 30
      ownSearchRank := none, country := some "nl", parent := some 1, postcode := none
      houseNumber := some "7", location := ⟨51, 5⟩, line := none, area := none, importance := 0 }]

/-- A request for the house, restricted to the country of the street. -/
def borderHouse : SearchRequest :=
  { query := .structured { street := some "A 7" }, countries := ["de"] }

/-- The terms of the request: the name of the street, which is a word too, and the house number. -/
def borderTable : TokenTable := .ofList [
  ("a", .word ⟨1, "a", true, 1⟩), ("a", .word ⟨2, "a", false, 1⟩),
  ("7", .houseNumber (some 3) "7")]

/-- The request, cut into the terms of `borderTable`. -/
def borderPhrases : List Phrase := [⟨.street, ["a", "7"], [["a", "7"]]⟩]

/-- The constraints of the request. -/
def borderConstraints : Constraints := { countries := ["de"], fullNameTerms := .singleton 1 }

/-- The house in the street, whose name is read as such or as a word, or a place in the street whose
name is the number. -/
def borderRanking : Ranking Interpretation := .ofList (·.cost) [
  { cost := 2, name := .singleton 1, hasRareName := true, houseNumber := some "7" },
  { cost := 3, name := .singleton 3, address := .singleton 2, needsAddress := true
    namePhrase := some 0 },
  { cost := 3, name := .singleton 2, hasRareName := true, houseNumber := some "7" }]

theorem plan_borderPhrases :
    ({ constraints := borderConstraints } : Planner).plan borderPhrases borderTable [.root] true =
      borderRanking := by
  have hspoken : borderPhrases.filter (!·.words.isEmpty) = borderPhrases := rfl
  simp only [Planner.plan, Planner.passes, Planner.pass, hspoken]
  simp only [borderPhrases, Planner.readPhrases, Planner.readGroupings, List.foldl_cons,
    List.foldl_nil, Planner.readGrouping, Planner.readParts, Planner.advance,
    Interpretation.sorted_eq_insertionSort]
  rfl

/-- What is looked up depends on the words of the gazetteer alone. -/
theorem searchOnce_borderHouse {geocoder : Geocoder Id}
    (hlexicon : geocoder.lexicon = (Vocabulary.ofGazetteer border).lexicon)
    (hconfig : geocoder.config = {}) :
    geocoder.searchOnce borderHouse =
      geocoder.lookUp borderHouse borderConstraints borderRanking := by
  have hterms : Lexicon.terms [.ofText (normalize "A 7") .street] = ["a", "a 7", "7"] :=
    (Lexicon.terms_eq _).trans (by decide +kernel)
  have htable : Lexicon.complete ((Vocabulary.ofGazetteer border).table ["a", "a 7", "7"])
      ["a", "a 7", "7"] ["de"] = borderTable := by decide +kernel
  have hphrases : [Phrase.ofText (normalize "A 7") .street].map
      (·.segmented borderTable.isKnown) = borderPhrases := by decide +kernel
  have hne : Lexicon.terms [.ofText (normalize "A 7") .street] ≠ [] := by simp [hterms]
  have htokens := Vocabulary.tokenize_eq (.ofGazetteer border) hne ["de"]
  rw [hterms, htable, hphrases] at htokens
  have htokenize : geocoder.tokenize [("A 7", .street)] ["de"] =
      pure (borderPhrases, borderTable) := by
    rw [tokenize, hlexicon]
    exact congrArg (·.adapt GeocoderError.lexicon) htokens
  have hinterpret : geocoder.interpret borderHouse
      { phrases := [("A 7", .street)], isStructured := true } =
        pure (borderConstraints, borderRanking) := by
    refine (congrArg (· >>= _) htokenize).trans ?_
    rw [pure_bind, hconfig, ← plan_borderPhrases]
    rfl
  exact searchOnce_eq rfl rfl hinterpret rfl

theorem search_borderHouse :
    (ofGazetteer border {}).map (·.search borderHouse) = .ok (pure [.primary 2 (some 30)]) := by
  have hsorted : Atlas.byId border.places = border.places :=
    List.mergeSort_of_pairwise (by decide)
  have hlookUp : (ofGazetteer border {}).map
      (·.lookUp borderHouse borderConstraints borderRanking) =
        .ok (pure [.primary 2 (some 30)]) := by
    rw [ofGazetteer, Atlas.ofGazetteer, Atlas.build, hsorted]
    set_option maxRecDepth 4000 in
    with_unfolding_all rfl
  cases hg : ofGazetteer border {} with
  | error e =>
    rw [hg] at hlookUp
    cases hlookUp
  | ok geocoder =>
    obtain ⟨a, -, hgeocoder⟩ := exists_atlas_of_ofGazetteer hg
    rw [hg] at hlookUp
    have honce : geocoder.searchOnce borderHouse = pure [.primary 2 (some 30)] :=
      (searchOnce_borderHouse (by rw [hgeocoder]) (by rw [hgeocoder])).trans
        (Except.ok.inj hlookUp)
    exact congrArg Except.ok (search_eq_of_searchOnce rfl honce (List.cons_ne_nil _ _))

/-- The house is found although the request does not admit it. -/
theorem house_found_abroad :
    ∃ geocoder, ofGazetteer border {} = .ok geocoder ∧ borderHouse.HasWords ∧
      geocoder.search borderHouse = pure [.primary 2 (some 30)] ∧
      (∀ p ∈ border.places, p.id = 2 → ¬ borderHouse.Admits p.country p.location) ∧
      ∃ a, Atlas.ofGazetteer border = .ok a ∧ ∃ p ∈ a.places, p.id = 2 ∧
        ∃ r' ∈ geocoder.tries borderHouse, ∃ c s, geocoder.Plans r' c s ∧
          (borderHouse.AdmitsStreetOf a s p ∨ borderHouse.AdmitsNeighbourOf a c s p) := by
  have hwords : borderHouse.HasWords := SearchRequest.hasWords_of_structured rfl
  have habroad : ∀ p ∈ border.places, p.id = 2 → ¬ borderHouse.Admits p.country p.location := by
    intro p hp hid hadmits
    obtain ⟨code, hcode, hcountry⟩ := hadmits.country (by decide)
    obtain rfl := List.mem_singleton.1 hcode
    simp only [border, List.mem_cons, List.not_mem_nil, or_false] at hp
    rcases hp with rfl | rfl
    · exact absurd hid (by decide)
    · exact absurd hcountry (by decide)
  have hrun := search_borderHouse
  cases hg : ofGazetteer border {} with
  | error e =>
    rw [hg] at hrun
    exact nomatch hrun
  | ok geocoder =>
    rw [hg] at hrun
    have hsearch : geocoder.search borderHouse = pure [.primary 2 (some 30)] := Except.ok.inj hrun
    obtain ⟨a, ha, hfound⟩ := search_admits_or_leads hg hwords
    obtain ⟨p, hp, hrecord, hid, hadmits⟩ :=
      (hfound _ hsearch _ (List.mem_singleton_self _)).2 rfl
    have hleads := hadmits.resolve_left (habroad p.record hrecord hid)
    exact ⟨geocoder, rfl, hwords, hsearch, habroad, a, ha, p, hp, hid, hleads⟩

end Geocoder

end Geocoding
