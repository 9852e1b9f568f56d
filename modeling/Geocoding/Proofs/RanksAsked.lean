import Geocoding.Proofs.Outcome
import Geocoding.Proofs.Provenance

/-!
# The ranks that an attempt asks for

The fields of a structured query decide on the ranks that results must have: the ranks of the first
field that is present, and those of postcodes in addition if there is a postcode
(`StructuredQuery.restriction_eq`).

The index is asked about ranks by each attempt to answer a request. What it would answer about other
ranks than those of the request does not matter (`Geocoder.searchOnce_of_agreesOn`), and what it
answers about these is heeded: all results are places that it found to be at such a rank, or address
ranges if the ranks go up to houses (`Geocoder.returns_searchOnce`).
-/

namespace Geocoding

/-! ## The ranks of fields -/

namespace StructuredQuery

variable (q : StructuredQuery)

/-- The ranks of the first field that is present: points of interest and streets, settlements,
counties, states, postcodes, or countries. -/
def firstRanks : RankRange :=
  if q.amenity.isSome ∨ q.street.isSome then ⟨26, 30⟩
  else if q.city.isSome then ⟨14, 24⟩
  else if q.county.isSome then ⟨9, 13⟩
  else if q.state.isSome then ⟨8, 8⟩
  else if q.postalcode.isSome then ⟨5, 11⟩
  else if q.country.isSome then ⟨4, 4⟩
  else .full

/-- The ranks of postcodes, if there is one. -/
def postcodeRanks : List Nat :=
  if q.postalcode.isSome then [5, 11] else []

theorem restriction_eq :
    q.restriction = { ranks := q.firstRanks, allowed := q.postcodeRanks } := by
  obtain ⟨amenity, street, city, county, state, postalcode, country⟩ := q
  -- which fields are present is all that matters
  cases amenity <;> cases street <;> cases city <;> cases county <;> cases state <;>
    cases postalcode <;> cases country <;> rfl

end StructuredQuery

/-! ## Questions about ranks -/

section

variable {m : Type → Type} {index index' : PlaceIndex m} {restriction : RankRestriction}

/-- The indices give the same answers, except perhaps to questions about ranks other than these.
Named places are also asked for at any rank, and at those of places that can have house numbers. -/
structure PlaceIndex.AgreesOn (index : PlaceIndex m) (restriction : RankRestriction)
    (index' : PlaceIndex m) : Prop where
  withRanks : ∀ source ids, index'.withRanks source ids restriction.ranks restriction.allowed =
    index.withRanks source ids restriction.ranks restriction.allowed
  namedPlaces : ∀ query : NamedPlaceQuery, query.ranks = none ∨ query.ranks = some ⟨16, 30⟩ ∨
    query.ranks = some restriction.ranks → index'.namedPlaces query = index.namedPlaces query
  others : { index' with withRanks := index.withRanks, namedPlaces := index.namedPlaces } = index

theorem PlaceIndex.AgreesOn.exists_eq (h : index.AgreesOn restriction index') :
    ∃ withRanks namedPlaces, index' = { index with withRanks, namedPlaces } := by
  refine ⟨index'.withRanks, index'.namedPlaces, ?_⟩
  rw [← h.others]

namespace Lookup

variable {c : Constraints} {scope : Scope} {s : Interpretation}

theorem ranks_namedPlaceQuery (c : Constraints) (scope : Scope) (s : Interpretation) :
    (namedPlaceQuery c scope s).ranks = none ∨ (namedPlaceQuery c scope s).ranks = some ⟨16, 30⟩ ∨
      (namedPlaceQuery c scope s).ranks = some scope.ranks := by
  simp only [namedPlaceQuery, houseParentRanks]
  split
  · exact Or.inr (Or.inl rfl)
  · split
    · exact Or.inr (Or.inr rfl)
    · exact Or.inl rfl

variable [Monad m]

/-- Lookups see no difference between such indices: the only question about ranks is that for named
places. -/
theorem lookup_of_agreesOn (hranks : scope.ranks = restriction.ranks)
    (h : index.AgreesOn restriction index') :
    lookup index' c scope s = lookup index c scope s := by
  have hnamed : namedPlaces index' c scope s = namedPlaces index c scope s := by
    have hquery := ranks_namedPlaceQuery c scope s
    rw [hranks] at hquery
    rw [namedPlaces, namedPlaces, h.namedPlaces _ hquery]
  obtain ⟨withRanks, namedPlaces, rfl⟩ := h.exists_eq
  have hnarrowed : narrowedPlaces { index with withRanks, namedPlaces } c scope s =
      narrowedPlaces index c scope s := by
    rw [narrowedPlaces, narrowedPlaces, hnamed]
    rfl
  have hplaces : places { index with withRanks, namedPlaces } c scope s =
      places index c scope s := by
    rw [places, places, hnarrowed]
    rfl
  rw [lookup, lookup, hplaces]
  rfl

end Lookup

theorem Resolver.ofIndex_of_agreesOn [Monad m] (c : Constraints) (limits : ResolverLimits)
    (scope : Scope) (isCancelled : m Bool) (hranks : scope.ranks = restriction.ranks)
    (hallowed : scope.allowed = restriction.allowed) (h : index.AgreesOn restriction index') :
    ofIndex index' c limits scope isCancelled = ofIndex index c limits scope isCancelled := by
  have hlookup : Geocoding.lookup index' c scope = Geocoding.lookup index c scope :=
    funext fun _ => Lookup.lookup_of_agreesOn hranks h
  simp only [ofIndex, hlookup, hranks, hallowed, h.withRanks]

theorem Geocoder.lookUp_eq [Monad m] (g : Geocoder m) (r : SearchRequest) (c : Constraints)
    (ranking : Ranking Interpretation) : g.lookUp r c ranking = (do
      let resolver := Resolver.ofIndex g.places c g.config.resolver (g.scopeOf r) g.isCancelled
      return (← (resolver.resolve ranking).adapt GeocoderError.resolve).take
        (r.limit.getD g.config.limit)) := rfl

/-- What an index would answer about other ranks does not matter to an attempt. -/
theorem Geocoder.searchOnce_of_agreesOn [Monad m] (g : Geocoder m) (r : SearchRequest)
    (h : g.places.AgreesOn r.restriction index') :
    { g with places := index' }.searchOnce r = g.searchOnce r := by
  have hlookUp : { g with places := index' }.lookUp r = g.lookUp r := by
    funext c ranking
    have hresolver := Resolver.ofIndex_of_agreesOn c g.config.resolver (g.scopeOf r) g.isCancelled
      rfl rfl h
    rw [lookUp_eq, lookUp_eq, ← hresolver]
    rfl
  rw [searchOnce, searchOnce, hlookUp]
  rfl

end

/-! ## Answers about ranks -/

section

variable {σ : Type}

/-- The index was asked about the place and found it to be at one of the ranks. It is not asked
about address ranges, which are there if the ranks go up to houses. -/
def PlaceIndex.Accepts (index : PlaceIndex (StateM σ)) (restriction : RankRestriction)
    (x : Candidate) : Prop :=
  if x.source.isInterpolated then restriction.ranks.max = 30
  else ∃ ids kept w w', x.id ∈ ids ∧ x.id ∈ kept ∧
    outcome (index.withRanks x.source ids restriction.ranks restriction.allowed) w = (.ok kept, w')

namespace Resolver

section

variable {r : Resolver (StateM σ)} {Q : Candidate → Prop}

/-- If the last step lets only such candidates pass, resolving gives only such candidates. -/
theorem returns_visit (hinScope : ∀ found, Returns (r.inScope found) (·.Only Q))
    (visited queried : Nat) (kept : CandidateSet) (groups : List (Nat × List Interpretation)) :
    Returns (r.visit visited queried kept groups) (·.Only Q) := by
  induction groups generalizing visited queried kept with
  | nil => exact returns_pure CandidateSet.only_empty
  | cons group rest ih =>
    rw [visit]
    refine (returns_trivial _).bind fun cancelled _ => ?_
    cases cancelled with
    | true => exact returns_throw _
    | false =>
      -- what was found does not matter, as nothing is returned that did not pass the last step
      refine (returns_trivial _).bind fun answers _ => returns_ite (fun _ => ih _ _ _) fun _ => ?_
      refine (hinScope _).bind fun results hresults => ?_
      exact returns_ite (fun _ => ih _ _ _) fun _ => returns_pure hresults

theorem returns_resolve (hinScope : ∀ found, Returns (r.inScope found) (·.Only Q))
    (ranking : Ranking Interpretation) :
    Returns (r.resolve ranking) fun found => ∀ x ∈ found, Q x :=
  (returns_visit hinScope 0 0 ∅ ranking.buckets).bind fun _ hfound => returns_pure hfound

end

variable {index : PlaceIndex (StateM σ)} {c : Constraints} {limits : ResolverLimits}
  {scope : Scope} {isCancelled : StateM σ Bool}

/-- What is kept of a source are places that the index was asked about and found to be in scope. -/
theorem returns_acceptedIn (found : CandidateSet) {source : Source}
    (hsource : source.isInterpolated = false) :
    Returns ((ofIndex index c limits scope isCancelled).acceptedIn found source) fun accepted =>
      ∀ x ∈ found.entries, x.key ∈ accepted →
        index.Accepts { ranks := scope.ranks, allowed := scope.allowed } x := by
  refine returns_ite (fun _ => returns_pure (by simp)) fun _ => ?_
  refine ((returns_outcome _).adapt ResolveError.index).bind fun kept hkept => returns_pure ?_
  obtain ⟨w, w', hkept⟩ := hkept
  intro x hx hkey
  obtain ⟨id, hid, hkey⟩ := List.mem_map.1 hkey
  obtain ⟨rfl, rfl⟩ := Prod.mk.inj hkey
  rw [PlaceIndex.Accepts, if_neg (by simp [hsource])]
  exact ⟨found.idsIn x.source, kept, w, w', CandidateSet.mem_idsIn hx, hid, hkept⟩

theorem returns_inScope (hscope : scope.ranks ≠ .full) (found : CandidateSet) :
    Returns ((ofIndex index c limits scope isCancelled).inScope found)
      (·.Only (index.Accepts { ranks := scope.ranks, allowed := scope.allowed })) := by
  have hfull : scope.ranks.isFull = false := decide_eq_false hscope
  refine returns_ite (fun hempty => returns_pure ?_) fun _ => ?_
  · have hnil : found.entries = [] := by
      simpa [CandidateSet.isEmpty, ofIndex, hfull] using hempty
    simp [CandidateSet.Only, hnil]
  refine (returns_acceptedIn found rfl).bind fun primary hprimary => ?_
  refine (returns_acceptedIn found rfl).bind fun postcodes hpostcodes => returns_pure ?_
  intro x hx
  obtain ⟨hmem, hpass⟩ := List.mem_filter.1 hx
  rw [Bool.or_eq_true, Bool.and_eq_true, decide_eq_true_eq, List.contains_iff_mem,
    List.mem_append] at hpass
  rcases hpass with ⟨hmax, hinterpolated⟩ | haccepted | haccepted
  · rw [PlaceIndex.Accepts, if_pos hinterpolated]
    exact hmax
  · exact hprimary x hmem haccepted
  · exact hpostcodes x hmem haccepted

end Resolver

/-- The results of an attempt that asks for ranks are places that the index found to be there. -/
theorem Geocoder.returns_searchOnce (g : Geocoder (StateM σ)) {r : SearchRequest}
    (hwords : r.HasWords) (hranks : r.restriction.ranks ≠ .full) :
    Returns (g.searchOnce r) fun found => ∀ x ∈ found, g.places.Accepts r.restriction x := by
  have hprepare : Returns (prepare r : GeocoderM (StateM σ) PreparedQuery) fun query =>
      query.isCoordinateOnly = false := by
    intro w query hquery
    cases hr : r.prepare with
    | error e =>
      rw [prepare, hr] at hquery
      cases hquery
    | ok query' =>
      rw [prepare, hr] at hquery
      obtain rfl := Except.ok.inj hquery
      exact hwords query' hr
  refine hprepare.bind fun query hquery => ?_
  have hnone : (query.near.filter fun _ => query.isCoordinateOnly) = none := by
    simp [hquery]
  simp only [hnone]
  refine (returns_trivial _).bind fun planned _ => ?_
  refine returns_ite (fun _ => returns_pure (by simp)) fun _ => ?_
  rw [lookUp_eq]
  refine ((Resolver.returns_resolve (Resolver.returns_inScope hranks) _).adapt _).bind
    fun found hfound => returns_pure fun x hx => hfound x (List.mem_of_mem_take hx)

end

/-- An attempt asks for ranks. It has the same result over every index that gives the same answers
about them, and unless these are all ranks, its results are places that the index found to be at
them. -/
structure Geocoder.AsksFor {σ : Type} (g : Geocoder (StateM σ)) (r : SearchRequest)
    (restriction : RankRestriction) : Prop where
  searchOnce_of_agreesOn : ∀ index, g.places.AgreesOn restriction index →
    { g with places := index }.searchOnce r = g.searchOnce r
  accepts : r.HasWords → restriction.ranks ≠ .full →
    Returns (g.searchOnce r) fun found => ∀ x ∈ found, g.places.Accepts restriction x

theorem Geocoder.asksFor_restriction {σ : Type} (g : Geocoder (StateM σ)) (r : SearchRequest) :
    g.AsksFor r r.restriction where
  searchOnce_of_agreesOn _ h := g.searchOnce_of_agreesOn r h
  accepts := g.returns_searchOnce

end Geocoding
