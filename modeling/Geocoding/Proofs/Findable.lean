import Geocoding.Proofs.Answering
import Geocoding.Proofs.Gazetteer
import Geocoding.Proofs.Naming
import Geocoding.Proofs.Provenance
import Geocoding.Proofs.Resolving

/-!
# Places are found by their names

A search for the name of a place finds first of all the places that are called so, as exact matches,
as long as they are no more than the limit. The interpretation as the whole name leads the plan
(`Geocoder.exists_interpret_eq`), its lookup finds exactly these places
(`Lookup.exists_lookup_ofFullName`), and nothing that is found later goes before an exact match
(`Resolver.exists_resolve_eq_append`).
-/

namespace Geocoding

/-! ## Configurations -/

namespace Config

variable {config : Config}

/-- The configurations that can be built: a preset, some of whose values have been changed. -/
inductive Built : Config → Prop
  | default : Built {}
  | fast : Built fast
  | thorough : Built thorough
  | limit {config : Config} (h : Built config) (limit : Nat) : Built (config.withLimit limit)
  | fallback {config : Config} (h : Built config) (fallback : Bool) :
    Built { config with fallback }
  | frequencies {config : Config} (h : Built config) (frequencies : FrequencyThresholds) :
    Built { config with frequencies }
  | parcelCountries {config : Config} (h : Built config) (countries : List String) :
    Built (config.withParcelCountries countries)
  | planner {config : Config} (h : Built config) (planner : PlannerLimits) :
    Built { config with planner }
  | resolver {config : Config} (h : Built config) (resolver : ResolverLimits) :
    Built { config with resolver }

theorem Built.limit_le (h : config.Built) : config.limit ≤ maxResultLimit := by
  induction h with
  | default => decide
  | fast => decide
  | thorough => decide
  | limit _ limit => exact Nat.min_le_right _ _
  | fallback _ _ ih => exact ih
  | frequencies _ _ ih => exact ih
  | parcelCountries _ _ ih => exact ih
  | planner _ _ ih => exact ih
  | resolver _ _ ih => exact ih

/-- A lookup returns at least as many places as are asked for. -/
theorem le_lookupLimit {limit : Nat} (h : limit ≤ maxResultLimit) : limit ≤ lookupLimit limit := by
  rw [lookupLimit, clampLimit]
  omega

theorem pos_of_check {config' : Config} (h : config.check = .ok config') :
    ∀ entry ∈ config.positiveLimits, 0 < entry.2 := by
  intro entry hentry
  rw [check] at h
  split at h
  · exact nomatch h
  · next hnone =>
    have hne := List.find?_eq_none.1 hnone entry hentry
    exact Nat.pos_of_ne_zero (by simpa using hne)

end Config

/-! ## Lookups of a whole name -/

namespace Atlas

variable {a : Atlas} {query : NamedPlaceQuery}

theorem map_id_namedPlaces (hlimit : a.places.countP (a.isNamed query) ≤ query.limit) :
    ((a.namedPlaces query).map (·.id)).Perm ((a.places.filter (a.isNamed query)).map (·.id)) := by
  have hperm := List.mergeSort_perm ((a.places.filter (a.isNamed query)).map (a.named query))
    fun x y => (x.order y).isLE
  have hall := List.take_of_length_le (i := query.limit) (l := ((a.places.filter
    (a.isNamed query)).map (a.named query)).mergeSort fun x y => (x.order y).isLE) (by
      rwa [List.length_mergeSort, List.length_map, ← List.countP_eq_length_filter])
  rw [namedPlaces, hall, List.map_map]
  have hids := hperm.map fun x => x.hit.id
  rwa [List.map_map] at hids

end Atlas

namespace Lookup

variable {a : Atlas} {scope : Scope} (words : TermSet) {id : Nat} (rare : Bool)

/-- Without restrictions, what counts for a whole name are the names of a place. -/
theorem isNamed_ofFullName (hfull : scope.ranks = .full) (p : AtlasPlace) :
    a.isNamed (namedPlaceQuery { fullNameTerms := words } scope (.ofFullName id rare)) p =
      decide (id ∈ p.nameTerms) := by
  simp [Atlas.isNamed, namedPlaceQuery, Interpretation.ofFullName, hfull, RankRange.full,
    AtlasPlace.hasName, AtlasPlace.hasAddress, TermSet.singleton, EmptyCollection.emptyCollection,
    TermSet.empty, inCountries, countries, Constraints.boundingBox?, inBox, Atlas.matchesPostcode,
    TermSet.isEmpty]

omit words in
theorem lookup_ofFullName (c : Constraints) :
    lookup (a.placeIndex : PlaceIndex Id) c scope (.ofFullName id rare) =
      pure (.ofList ((a.namedPlaces (namedPlaceQuery c scope (.ofFullName id rare))).map
        ofNamedPlace)) :=
  rfl

variable {g : Gazetteer} {name : String} (ha : a.Represents g)
  (hid : (Vocabulary.ofGazetteer g).id? .fullWord (normalize name) = some id)
  (hfull : scope.ranks = .full)

include ha hid hfull

theorem map_id_filter_isNamed :
    ((a.places.filter (a.isNamed (namedPlaceQuery { fullNameTerms := words } scope
      (.ofFullName id rare)))).map (·.id)).Perm
        ((g.places.filter (·.isCalled name)).map (·.id)) := by
  have hcalled : a.places.filter (a.isNamed (namedPlaceQuery { fullNameTerms := words } scope
      (.ofFullName id rare))) = a.places.filter (·.record.isCalled name) := by
    refine List.filter_congr fun p hp => ?_
    rw [isNamed_ofFullName words rare hfull, ha.nameTerms p hp, Bool.eq_iff_iff, decide_eq_true_iff]
    exact Atlas.mem_nameTerms_iff hid
  have hrecords := (ha.records.filter (·.isCalled name)).map (·.id)
  rw [List.filter_map, List.map_map] at hrecords
  rw [hcalled]
  exact hrecords

/-- The lookup of a whole name finds exactly the places that are called so, as exact matches. -/
theorem exists_lookup_ofFullName (hlimit : g.places.countP (·.isCalled name) ≤ scope.limit) :
    ∃ found : CandidateSet,
      lookup (a.placeIndex : PlaceIndex Id) { fullNameTerms := words } scope
        (.ofFullName id rare) = pure found ∧
      (found.entries.map (·.key)).Perm
        ((g.places.filter (·.isCalled name)).map fun q => (Source.primary, q.id)) ∧
      ∀ c ∈ found.entries, c.rank = 0 := by
  let query := namedPlaceQuery { fullNameTerms := words } scope (.ofFullName id rare)
  have hcalled := map_id_filter_isNamed words rare ha hid hfull
  have hcount : a.places.countP (a.isNamed query) ≤ query.limit := by
    have hlength := hcalled.length_eq
    rw [List.length_map, List.length_map, ← List.countP_eq_length_filter,
      ← List.countP_eq_length_filter] at hlength
    rw [hlength]
    exact hlimit
  have hids := (Atlas.map_id_namedPlaces hcount).trans hcalled
  have hkeys : (((a.namedPlaces query).map ofNamedPlace).map (·.key)).Perm
      ((g.places.filter (·.isCalled name)).map fun q => (Source.primary, q.id)) := by
    have hpairs := hids.map (Source.primary, ·)
    rw [List.map_map, List.map_map] at hpairs
    rw [List.map_map]
    exact hpairs
  have hnodup : (((a.namedPlaces query).map ofNamedPlace).map (·.key)).Nodup := by
    have hsub := (List.filter_sublist (p := (·.isCalled name)) (l := g.places)).map (·.id)
    have hpairs := (hsub.nodup ha.nodup_ids).map (Prod.mk_right_injective Source.primary)
    rw [List.map_map] at hpairs
    exact hkeys.nodup_iff.2 hpairs
  refine ⟨_, lookup_ofFullName rare _, ?_, ?_⟩
  · rwa [CandidateSet.entries_ofList hnodup]
  · rw [CandidateSet.entries_ofList hnodup]
    intro c hc
    obtain ⟨hit, -, rfl⟩ := List.mem_map.1 hc
    rfl

end Lookup

/-! ## Searches -/

namespace Geocoder

variable {geocoder : Geocoder Id} {r : SearchRequest}

/-- The interpretations of a query that is more than coordinates are looked up, if there are
any. -/
theorem searchOnce_eq {query : PreparedQuery} {c : Constraints} {ranking : Ranking Interpretation}
    (hprepare : r.prepare = .ok query) (hnear : query.near = none)
    (hinterpret : geocoder.interpret r query = pure (c, ranking))
    (hranking : ranking.isEmpty = false) :
    geocoder.searchOnce r = geocoder.lookUp r c ranking := by
  have hquery : (prepare r : GeocoderM Id PreparedQuery) = pure query := by
    rw [prepare, hprepare]
    rfl
  rw [searchOnce, hquery, pure_bind, hnear]
  simp only [Option.filter_none, hinterpret, pure_bind, hranking]
  rfl

/-- The places that are found for a request whose query cannot be relaxed. -/
theorem search_eq_of_searchOnce (hrelax : r.relax? = none) {found : List Candidate}
    (hfound : geocoder.searchOnce r = pure found) (hne : found ≠ []) :
    geocoder.search r = pure found := by
  have htries : (if geocoder.config.fallback then r.attempts else [r]) = [r] := by
    rw [SearchRequest.attempts_of_none hrelax, ite_self]
  rw [search, htries, firstFound, hfound, pure_bind, List.isEmpty_eq_false_iff.2 hne]
  rfl

/-- Exact matches of the leading interpretation are found first. -/
theorem exists_lookUp_eq {a : Atlas} (hplaces : geocoder.places = a.placeIndex)
    (hcancel : geocoder.isCancelled = pure false) (hfull : r.restriction.ranks = .full)
    (hgroup : 0 < geocoder.config.resolver.perGroup)
    (hqueries : 0 < geocoder.config.resolver.maxQueries) {c : Constraints}
    {ranking : Ranking Interpretation} {rank : Nat} {s : Interpretation}
    (hleads : ranking.Leads rank s) {found : CandidateSet}
    (hlookup : lookup (a.placeIndex : PlaceIndex Id) c (geocoder.scopeOf r) s = pure found)
    (hne : found.entries ≠ []) (hranks : ∀ x ∈ found.entries, x.rank = 0) :
    ∃ more, geocoder.lookUp r c ranking =
      pure ((found.entries ++ more).take (r.limit.getD geocoder.config.limit)) := by
  choose answer hanswer using fun s =>
    Lookup.answers_lookup a.answers c (geocoder.scopeOf r) s
  obtain rfl : answer s = found := Except.ok.inj ((hanswer s).symm.trans hlookup)
  let resolver := Resolver.ofIndex (a.placeIndex : PlaceIndex Id) c geocoder.config.resolver
    (geocoder.scopeOf r) geocoder.isCancelled
  have hscope : resolver.scope.ranks.isFull = true := decide_eq_true hfull
  obtain ⟨more, hmore⟩ := Resolver.exists_resolve_eq_append (r := resolver) hcancel hscope hgroup
    hqueries hleads hanswer hne hranks
  refine ⟨more, ?_⟩
  have hresolve : geocoder.lookUp r c ranking = (do
      return (← (resolver.resolve ranking).adapt GeocoderError.resolve).take
        (r.limit.getD geocoder.config.limit)) := by
    rw [lookUp, hplaces]
    rfl
  rw [hresolve, hmore]
  rfl

/-- A search for the name of a place finds first of all the places that are called so, each of them
once and as an exact match, if they are no more than the limit. -/
theorem search_finds_called {g : Gazetteer} {config : Config}
    (hg : ofGazetteer g config = .ok geocoder) (hbuilt : config.Built)
    (hcheck : config.check = .ok config) (hcost : 2 ≤ config.planner.maxCost) {p : PlaceRecord}
    {name : String} (hp : p ∈ g.places) (hname : name ∈ p.names) (hne : normalize name ≠ "")
    (hplain : IsPlain name) (hlimit : g.places.countP (·.isCalled name) ≤ config.limit) :
    ∃ called others, geocoder.search (.ofQuery (.free name)) = pure (called ++ others) ∧
      (called.map (·.key)).Perm
        ((g.places.filter (·.isCalled name)).map fun q => (Source.primary, q.id)) ∧
      ∀ c ∈ called, c.rank = 0 := by
  obtain ⟨a, ha, rfl⟩ := exists_atlas_of_ofGazetteer hg
  have hrepresents := Atlas.represents_of_ofGazetteer ha
  obtain ⟨id, hid⟩ := Vocabulary.exists_id?_of_mem_names hp hname hne
  have hpos := Config.pos_of_check hcheck
  simp only [Config.positiveLimits, List.forall_mem_cons] at hpos
  obtain ⟨-, hbeam, hphrase, -, hgroup, -, hqueries, -⟩ := hpos
  let geocoder : Geocoder Id := {
    lexicon := (Vocabulary.ofGazetteer g).lexicon
    places := a.placeIndex
    points := a.reverseIndex
    config
    isCancelled := false }
  let r : SearchRequest := .ofQuery (.free name)
  -- the whole name leads the plan
  obtain ⟨words, rare, ranking, hinterpret, hleads⟩ :=
    exists_interpret_eq (g := geocoder) rfl hcost hbeam hphrase hid hne
  -- its lookup finds the places that are called so
  have hcount : g.places.countP (·.isCalled name) ≤ (geocoder.scopeOf r).limit :=
    hlimit.trans (Config.le_lookupLimit hbuilt.limit_le)
  obtain ⟨called, hlookup, hkeys, hranks⟩ :=
    Lookup.exists_lookup_ofFullName words rare hrepresents hid rfl hcount
  have hself : (Source.primary, p.id) ∈ called.entries.map (·.key) := by
    have hcalled : p.isCalled name = true := PlaceRecord.isCalled_iff.2 ⟨name, hname, rfl⟩
    exact hkeys.mem_iff.2 (List.mem_map_of_mem (List.mem_filter.2 ⟨hp, hcalled⟩))
  have hentries : called.entries ≠ [] := by
    obtain ⟨c, hc, -⟩ := List.mem_map.1 hself
    exact List.ne_nil_of_mem hc
  have hlength : called.entries.length ≤ config.limit := by
    have hlength := hkeys.length_eq
    rw [List.length_map, List.length_map, ← List.countP_eq_length_filter] at hlength
    rw [hlength]
    exact hlimit
  -- they come first, and are no more than are asked for
  obtain ⟨more, hmore⟩ : ∃ more, geocoder.lookUp r { fullNameTerms := words } ranking =
      pure ((called.entries ++ more).take config.limit) :=
    exists_lookUp_eq rfl rfl rfl hgroup hqueries hleads hlookup hentries hranks
  rw [List.take_append, List.take_of_length_le hlength] at hmore
  have honce : geocoder.searchOnce r = geocoder.lookUp r { fullNameTerms := words } ranking :=
    searchOnce_eq (PreparedQuery.ofText_of_isPlain hplain hne) rfl hinterpret
      hleads.isEmpty_eq_false
  exact ⟨called.entries, _, search_eq_of_searchOnce rfl (honce.trans hmore)
    (List.append_ne_nil_of_left_ne_nil hentries _), hkeys, hranks⟩

/-- Two towns, of which one has the name of the other as its short name. -/
def towns : Gazetteer where
  places := [
    { id := 1, names := ["Neustadt"], placeType := ⟨"place", "town"⟩, addressRank := 16
      ownSearchRank := none, country := some "de", parent := none, postcode := none
      houseNumber := none, location := ⟨50.6, 7.4⟩, line := none, area := none, importance := 0.4 },
    { id := 2, names := ["Neustadt an der Weinstraße", "NEUSTADT"], placeType := ⟨"place", "town"⟩
      addressRank := 16, ownSearchRank := none, country := some "de", parent := none
      postcode := none, houseNumber := none, location := ⟨49.4, 8.1⟩, line := none, area := none
      importance := 0.5 }]

/-- Both towns are found by the name that they share. -/
theorem both_towns_found :
    ∃ geocoder called others, ofGazetteer towns {} = .ok geocoder ∧
      geocoder.search (.ofQuery (.free "Neustadt")) = pure (called ++ others) ∧
      (called.map (·.key)).Perm [(.primary, 1), (.primary, 2)] ∧ ∀ c ∈ called, c.rank = 0 := by
  have hsorted : Atlas.byId towns.places = towns.places :=
    List.mergeSort_of_pairwise (by simp [towns])
  obtain ⟨geocoder, hg⟩ : ∃ geocoder, ofGazetteer towns {} = .ok geocoder := by
    rw [ofGazetteer, Atlas.ofGazetteer, Atlas.build, hsorted]
    exact ⟨_, rfl⟩
  have hname : "Neustadt" ∈ towns.places[0].names := List.mem_singleton_self _
  have hshort : normalize "NEUSTADT" = normalize "Neustadt" :=
    (show normalize "NEUSTADT" = "neustadt" by decide +kernel).trans
      (show "neustadt" = normalize "Neustadt" by decide +kernel)
  have hboth : towns.places.filter (·.isCalled "Neustadt") = towns.places := by
    refine List.filter_eq_self.2 fun q hq => PlaceRecord.isCalled_iff.2 ?_
    rcases List.mem_pair.1 hq with rfl | rfl
    · exact ⟨"Neustadt", List.mem_singleton_self _, rfl⟩
    · exact ⟨"NEUSTADT", List.mem_cons_of_mem _ (List.mem_singleton_self _), hshort⟩
  obtain ⟨called, others, hsearch, hkeys, hranks⟩ := search_finds_called hg .default rfl
    (by decide) (List.getElem_mem _) hname (by decide +kernel) ⟨by decide, by decide, rfl⟩
    (List.countP_le_length.trans (by decide))
  rw [hboth] at hkeys
  exact ⟨geocoder, called, others, hg, hsearch, hkeys, hranks⟩

end Geocoder

end Geocoding
