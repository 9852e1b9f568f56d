import Geocoding.Geocoder
import Geocoding.Proofs.RenamedPlans

/-!
# Searches under other word ids

Two geocoders can differ in the ids of words only: whenever the lexicon and the place index of one
use an id, those of the other use another one, and no two words share one
(`Geocoder.Renames`). Nothing but tokens, interpretations and queries has word ids, so both give the
same answer to every request and for every point (`Geocoder.search_of_renames`,
`Geocoder.reverse_of_renames`).
-/

namespace Geocoding

variable (σ : Renaming) {m : Type → Type} [Monad m]

/-! ## Lexicons -/

/-- The second lexicon has other ids for the words. -/
structure Lexicon.Renames (lexicon lexicon' : Lexicon m) : Prop where
  normalize : lexicon'.normalize = lexicon.normalize
  tokens : ∀ terms, lexicon'.tokens terms = (·.rename σ) <$> lexicon.tokens terms
  specialTokens : ∀ term,
    lexicon'.specialTokens term = (List.map (Token.rename σ)) <$> lexicon.specialTokens term

namespace Lexicon

theorem complete_rename (table : TokenTable) (terms countries : List String) :
    complete (table.rename σ) terms countries = (complete table terms countries).rename σ := by
  unfold complete
  rw [TokenTable.addFallbacks_rename, TokenTable.retainCountries_rename]

theorem tokenize_of_renames [LawfulMonad m] {lexicon lexicon' : Lexicon m}
    (h : lexicon.Renames σ lexicon') (phrases : List Phrase) (countries : List String) :
    lexicon'.tokenize phrases countries =
      (fun (phrases, table) => (phrases, table.rename σ)) <$>
        lexicon.tokenize phrases countries := by
  by_cases hempty : (terms phrases).isEmpty = true
  · simp only [tokenize, hempty, if_true, map_pure]
    rfl
  · simp [tokenize, hempty, h.tokens, complete_rename, TokenTable.isKnown_rename]

end Lexicon

/-! ## Lookups -/

/-- The query with other ids for the words. -/
def NamedPlaceQuery.rename (query : NamedPlaceQuery) : NamedPlaceQuery :=
  { query with
    name := query.name.rename σ
    address := query.address.rename σ
    fullNameTerms := query.fullNameTerms.rename σ }

/-- The query with other ids for the words. -/
def PostcodeQuery.rename (query : PostcodeQuery) : PostcodeQuery :=
  { query with address := query.address.rename σ }

/-- The second index has other ids for the words. -/
structure PlaceIndex.Renames (index index' : PlaceIndex m) : Prop where
  namedPlaces : ∀ query, index'.namedPlaces (query.rename σ) = index.namedPlaces query
  postcodes : ∀ query, index'.postcodes (query.rename σ) = index.postcodes query
  /-- The other queries have no words in them. -/
  others : index' =
    { index with namedPlaces := index'.namedPlaces, postcodes := index'.postcodes }

namespace Lookup

theorem namedPlaceQuery_rename (c : Constraints) (scope : Scope) (s : Interpretation) :
    namedPlaceQuery (c.rename σ) scope (s.rename σ) = (namedPlaceQuery c scope s).rename σ := by
  unfold namedPlaceQuery
  rw [Interpretation.hasAddress_rename]
  rfl

variable {index index' : PlaceIndex m} (h : index.Renames σ index') (c : Constraints)
  (scope : Scope) (s : Interpretation)

include h

theorem country_of_renames (code : String) :
    country index' (c.rename σ) scope code = country index c scope code := by
  rw [h.others]
  rfl

theorem areaPlaces_of_renames :
    areaPlaces index' (c.rename σ) scope (s.rename σ) = areaPlaces index c scope s := by
  rw [h.others]
  rfl

theorem postcodes_of_renames :
    postcodes index' (c.rename σ) scope (s.rename σ) = postcodes index c scope s := by
  unfold postcodes
  rw [Interpretation.rename_postcode]
  cases s.postcode with
  | none => rfl
  | some postcode =>
    have hids := h.postcodes {
      postcode, address := s.address, countries := countries c s, box := c.boundingBox?
      excluded := c.excluded, limit := scope.limit }
    exact congrArg (· >>= _) hids

theorem namedPlaces_of_renames :
    namedPlaces index' (c.rename σ) scope (s.rename σ) = namedPlaces index c scope s := by
  unfold namedPlaces
  rw [namedPlaceQuery_rename, h.namedPlaces]

theorem addresses_of_renames (houseNumber : String) (parents : CandidateSet) :
    addresses index' (c.rename σ) scope (s.rename σ) houseNumber parents =
      addresses index c scope s houseNumber parents := by
  rw [h.others]
  rfl

theorem typedPlaces_of_renames (placeType : PlaceType) (parents : CandidateSet) :
    typedPlaces index' (c.rename σ) scope (s.rename σ) placeType parents =
      typedPlaces index c scope s placeType parents := by
  rw [h.others]
  rfl

theorem narrowedPlaces_of_renames :
    narrowedPlaces index' (c.rename σ) scope (s.rename σ) = narrowedPlaces index c scope s := by
  unfold narrowedPlaces
  simp only [namedPlaces_of_renames σ h, addresses_of_renames σ h, typedPlaces_of_renames σ h]
  rfl

theorem places_of_renames :
    places index' (c.rename σ) scope (s.rename σ) = places index c scope s := by
  unfold places
  simp only [country_of_renames σ h, areaPlaces_of_renames σ h, postcodes_of_renames σ h,
    narrowedPlaces_of_renames σ h, Interpretation.rename_name, Interpretation.rename_address,
    TermSet.isEmpty_rename]
  rfl

/-- Looking up an interpretation gives the same under the other ids. -/
theorem lookup_of_renames :
    lookup index' (c.rename σ) scope (s.rename σ) = lookup index c scope s := by
  have hcompare (postcode : String) (found : CandidateSet) :
      comparePostcodes index' postcode found = comparePostcodes index postcode found := by
    rw [h.others]
    rfl
  unfold lookup
  simp only [places_of_renames σ h, hcompare]
  rfl

end Lookup

/-! ## Resolving -/

namespace Resolver

variable {r r' : Resolver m} (hlookup : ∀ s, r'.lookup (s.rename σ) = r.lookup s)
  (hothers : r' = { r with lookup := r'.lookup })

include hlookup hothers

theorem visit_of_lookup_rename [LawfulMonad m] (visited queried : Nat) (kept : CandidateSet)
    (buckets : List (Nat × List Interpretation)) :
    r'.visit visited queried kept (mapItems (·.rename σ) buckets) =
      r.visit visited queried kept buckets := by
  induction buckets generalizing visited queried kept with
  | nil => rfl
  | cons bucket rest ih =>
    obtain ⟨rank, states⟩ := bucket
    have hbatch : r'.batch queried (states.map (·.rename σ)) =
        (r.batch queried states).map (·.rename σ) := by
      rw [hothers]
      exact (List.map_take ..).symm
    have hanswers : ((r.batch queried states).map (·.rename σ)).mapM
        (fun s => ResolveM.ofIndex (r'.lookup s)) =
          (r.batch queried states).mapM fun s => ResolveM.ofIndex (r.lookup s) := by
      simp only [List.mapM_map, Function.comp_def, hlookup]
    have hlimits : r'.limits = r.limits := by rw [hothers]
    have hcancelled : r'.isCancelled = r.isCancelled := by rw [hothers]
    have hscope (found : CandidateSet) : r'.inScope found = r.inScope found := by
      rw [hothers]
      rfl
    have hempty : (mapItems (·.rename σ) rest).isEmpty = rest.isEmpty := List.isEmpty_map
    show r'.visit visited queried kept ((rank, states.map (·.rename σ)) :: mapItems _ rest) = _
    simp only [visit, hbatch, hanswers, List.length_map, hlimits, hcancelled, hscope, hempty, ih]

theorem resolve_of_lookup_rename [LawfulMonad m] (ranking : Ranking Interpretation) :
    r'.resolve (ranking.map (·.rename σ)) = r.resolve ranking := by
  unfold resolve
  rw [← visit_of_lookup_rename σ hlookup hothers]
  rfl

end Resolver

/-! ## Geocoders -/

/-- The second geocoder has other ids for the words. -/
structure Geocoder.Renames (g g' : Geocoder m) : Prop where
  lexicon : g.lexicon.Renames σ g'.lexicon
  places : g.places.Renames σ g'.places
  /-- The other parts have no words in them. -/
  others : g' = { g with lexicon := g'.lexicon, places := g'.places }

namespace Geocoder

variable {g g' : Geocoder m} (h : g.Renames σ g')

theorem adapt_map [LawfulMonad m] {ε ε' α β : Type} (f : ε → ε') (k : α → β) (x : ExceptT ε m α) :
    (k <$> x).adapt f = k <$> x.adapt f := by
  have hcomm : Except.mapError f ∘ Except.map k = Except.map k ∘ Except.mapError f := by
    funext answer
    cases answer <;> rfl
  refine ExceptT.ext ?_
  show Except.mapError f <$> (k <$> x).run = (k <$> ExceptT.mk (Except.mapError f <$> x.run)).run
  rw [ExceptT.run_map, ExceptT.run_map, ← comp_map, hcomm, comp_map]
  rfl

theorem root_rename (query : PreparedQuery) : query.root.rename σ = query.root := by
  unfold PreparedQuery.root
  split <;> rfl

include h

theorem reverse_of_renames (point : Point Float) (config : ReverseConfig) :
    g'.reverse point config = g.reverse point config := by
  rw [h.others]
  rfl

theorem rootsWith_of_renames (c : Constraints) (query : PreparedQuery) (tokens : List Token) :
    g'.rootsWith (c.rename σ) query.root (tokens.map (·.rename σ)) =
      (g.rootsWith c query.root tokens).map (·.rename σ) := by
  have hroot := root_rename σ query
  have hextended := Token.flatMap_extend_rename σ c query.root specialPosition
    g.config.frequencies tokens
  rw [hroot] at hextended
  rw [h.others]
  unfold rootsWith
  simp only [hextended, List.isEmpty_map]
  split
  · rw [List.map_singleton, hroot]
  · rfl

variable [LawfulMonad m]

theorem tokenize_of_renames (phrases : List (String × PhraseRole)) (countries : List String) :
    g'.tokenize phrases countries =
      (fun (phrases, table) => (phrases, table.rename σ)) <$> g.tokenize phrases countries := by
  unfold tokenize
  rw [h.lexicon.normalize, Lexicon.tokenize_of_renames σ h.lexicon, adapt_map]

theorem roots_of_renames (c : Constraints) (query : PreparedQuery) :
    g'.roots (c.rename σ) query = List.map (·.rename σ) <$> g.roots c query := by
  unfold roots
  cases query.specialTerm with
  | none => simp [root_rename]
  | some term =>
    simp only [h.lexicon.normalize, h.lexicon.specialTokens, adapt_map, bind_map_left, map_bind,
      map_pure]
    simp only [← rootsWith_of_renames σ h]

theorem interpret_of_renames (r : SearchRequest) (query : PreparedQuery) :
    g'.interpret r query =
      (fun (c, ranking) => (c.rename σ, ranking.map (·.rename σ))) <$> g.interpret r query := by
  have hconfig : g'.config = g.config := by rw [h.others]
  have hconstraints (table : TokenTable) :
      r.constraints query (table.rename σ) = (r.constraints query table).rename σ := by
    unfold SearchRequest.constraints
    rw [TokenTable.fullWordIds_rename]
    rfl
  unfold interpret
  simp only [tokenize_of_renames σ h, bind_map_left, map_bind, map_pure, hconstraints, hconfig,
    roots_of_renames σ h, ← Planner.plan_rename]
  rfl

theorem lookUp_of_renames (r : SearchRequest) (c : Constraints)
    (ranking : Ranking Interpretation) :
    g'.lookUp r (c.rename σ) (ranking.map (·.rename σ)) = g.lookUp r c ranking := by
  have hconfig : g'.config = g.config := by rw [h.others]
  have hcancelled : g'.isCancelled = g.isCancelled := by rw [h.others]
  unfold lookUp
  simp only [hconfig, hcancelled]
  rw [Resolver.resolve_of_lookup_rename σ]
  · exact fun s => Lookup.lookup_of_renames σ h.places c _ s
  · unfold Resolver.ofIndex
    rw [h.places.others]

theorem searchOnce_of_renames (r : SearchRequest) : g'.searchOnce r = g.searchOnce r := by
  unfold searchOnce
  simp only [reverse_of_renames σ h, interpret_of_renames σ h, bind_map_left,
    lookUp_of_renames σ h, Ranking.isEmpty_map]

theorem firstFound_of_renames (attempts : List SearchRequest) :
    g'.firstFound attempts = g.firstFound attempts := by
  induction attempts with
  | nil => rfl
  | cons r rest ih => rw [firstFound, firstFound, searchOnce_of_renames σ h, ih]

/-- Other ids for the words make no difference to a search. -/
theorem search_of_renames (r : SearchRequest) : g'.search r = g.search r := by
  have hconfig : g'.config = g.config := by rw [h.others]
  unfold search
  rw [hconfig, firstFound_of_renames σ h]

end Geocoder

end Geocoding
