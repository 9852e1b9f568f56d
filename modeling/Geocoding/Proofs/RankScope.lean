import Geocoding.Proofs.Answering
import Geocoding.Proofs.Exclusion
import Geocoding.Proofs.Resolving

/-!
# Ranks of results

If a scope restricts the ranks, resolving over the atlas of a gazetteer has no result outside of it
(`Resolver.results_in_scope`). Lookups heed the ranks only now and then, so all depends on the last
step: whatever was found or carried along, the results are those candidates of the best rank that
are in the scope (`Resolver.exists_inScope`).
-/

namespace Geocoding

/-- The address rank or the search rank is in the range, or the address rank is one of the
others. -/
def Scope.Covers (scope : Scope) (addressRank searchRank : Nat) : Prop :=
  scope.ranks.contains addressRank = true ∨ scope.ranks.contains searchRank = true ∨
    addressRank ∈ scope.allowed

instance (scope : Scope) (addressRank searchRank : Nat) :
    Decidable (scope.Covers addressRank searchRank) :=
  inferInstanceAs (Decidable (_ ∨ _ ∨ _))

/-- The scope covers the ranks of the place. The areas of postcodes are at rank 5, address ranges at
house level. -/
def Gazetteer.InScope (g : Gazetteer) (scope : Scope) (x : Candidate) : Prop :=
  match x.source with
  | .primary => ∃ p ∈ g.places, p.id = x.id ∧ scope.Covers p.addressRank p.searchRank
  | .postcode => (∃ p ∈ g.postcodes, p.id = x.id) ∧ scope.Covers 5 5
  | .interpolation | .parcel => scope.ranks.max = 30

/-! ## Ranks in an atlas -/

namespace Atlas

variable {a : Atlas} {g : Gazetteer} {scope : Scope} {ids : List Nat} {id : Nat}

theorem mem_withRanks_primary_iff (h : a.Represents g) :
    id ∈ a.withRanks .primary ids scope.ranks scope.allowed ↔
      id ∈ ids ∧ ∃ p ∈ g.places, p.id = id ∧ scope.Covers p.addressRank p.searchRank := by
  have hcovers (p : AtlasPlace) : (p.hasRank scope.ranks ||
      scope.allowed.contains p.record.addressRank) = true ↔
        scope.Covers p.record.addressRank p.record.searchRank := by
    simp [AtlasPlace.hasRank, Scope.Covers, or_assoc]
  simp only [withRanks, List.mem_map, List.mem_filter, List.mem_filterMap, hcovers]
  constructor
  · rintro ⟨p, ⟨⟨id, hid, hplace⟩, hp⟩, rfl⟩
    obtain ⟨hmem, rfl⟩ := Atlas.place?_eq_some hplace
    exact ⟨hid, p.record, h.records.mem_iff.1 (List.mem_map_of_mem hmem), rfl, hp⟩
  · rintro ⟨hid, p, hp, rfl, hcovers⟩
    obtain ⟨q, hq, rfl⟩ := List.mem_map.1 (h.records.mem_iff.2 hp)
    exact ⟨q, ⟨⟨q.id, hid, h.place?_eq_some hq⟩, hcovers⟩, rfl⟩

theorem mem_withRanks_postcode_iff (h : a.postcodes.map (·.record) = g.postcodes) :
    id ∈ a.withRanks .postcode ids scope.ranks scope.allowed ↔
      id ∈ ids ∧ (∃ p ∈ g.postcodes, p.id = id) ∧ scope.Covers 5 5 := by
  have hcovers : (scope.ranks.contains postcodeRank || scope.allowed.contains postcodeRank) = true ↔
      scope.Covers 5 5 := by
    simp [Scope.Covers, postcodeRank]
  have hpostcode : (a.postcode? id).isSome = true ↔ ∃ p ∈ g.postcodes, p.id = id := by
    simp only [postcode?, List.find?_isSome, decide_eq_true_eq, ← h, List.mem_map,
      exists_exists_and_eq_and]
    rfl
  simp only [withRanks, List.mem_filter, Bool.and_eq_true, hpostcode, hcovers]

end Atlas

/-! ## The last step -/

namespace Resolver

variable {a : Atlas} {g : Gazetteer} {c : Constraints} {limits : ResolverLimits} {scope : Scope}
  {isCancelled : Id Bool}

theorem acceptedIn_ofIndex (found : CandidateSet) (source : Source) :
    (ofIndex a.placeIndex c limits scope isCancelled).acceptedIn found source =
      pure ((a.withRanks source (found.idsIn source) scope.ranks scope.allowed).map
        (source, ·)) := by
  rw [acceptedIn]
  split
  · next hids =>
    rw [List.isEmpty_iff.1 hids]
    cases source <;> rfl
  · rfl

theorem accepts_iff_inScope (ha : Atlas.ofGazetteer g = .ok a) {found : CandidateSet}
    {x : Candidate} (hx : x ∈ found.entries) :
    (decide (scope.ranks.max = 30) && x.source.isInterpolated ||
      ((a.withRanks .primary (found.idsIn .primary) scope.ranks scope.allowed).map
          (Source.primary, ·) ++
        (a.withRanks .postcode (found.idsIn .postcode) scope.ranks scope.allowed).map
          (Source.postcode, ·)).contains x.key) = true ↔ g.InScope scope x := by
  have hid := CandidateSet.mem_idsIn hx
  rw [Bool.or_eq_true, Bool.and_eq_true, decide_eq_true_eq, List.contains_iff_mem, List.mem_append,
    Gazetteer.InScope]
  simp only [List.mem_map, Candidate.key, Prod.mk.injEq]
  cases hsource : x.source with
  | primary =>
    rw [hsource] at hid
    have hrepresents := Atlas.represents_of_ofGazetteer ha
    simp [Source.isInterpolated, Atlas.mem_withRanks_primary_iff hrepresents, hid]
  | postcode =>
    rw [hsource] at hid
    have hpostcodes := Atlas.postcodes_of_build ha
    simp [Source.isInterpolated, Atlas.mem_withRanks_postcode_iff hpostcodes, hid]
  | interpolation => simp [Source.isInterpolated]
  | parcel => simp [Source.isInterpolated]

/-- The results are exactly the candidates in the scope. -/
theorem exists_inScope (ha : Atlas.ofGazetteer g = .ok a) (hscope : scope.ranks ≠ .full)
    (found : CandidateSet) :
    ∃ results, (ofIndex a.placeIndex c limits scope isCancelled).inScope found = pure results ∧
      ∀ x, x ∈ results.entries ↔ x ∈ found.entries ∧ g.InScope scope x := by
  have hfull : scope.ranks.isFull = false := decide_eq_false hscope
  rw [inScope, acceptedIn_ofIndex, acceptedIn_ofIndex]
  simp only [pure_bind]
  split
  · next hempty =>
    have hnil : found.entries = [] := by
      simpa [CandidateSet.isEmpty, ofIndex, hfull] using hempty
    exact ⟨found, rfl, by simp [hnil]⟩
  · refine ⟨_, rfl, fun x => ?_⟩
    rw [CandidateSet.filter, List.mem_filter]
    exact and_congr_right fun hx => accepts_iff_inScope ha hx

/-! ## All groups -/

section

variable {r : Resolver Id} {Q : Candidate → Prop} (hcancel : r.isCancelled = pure false)
  (hlookup : ∀ s, Answers (r.lookup s))
  (hinScope : ∀ found, ∃ results, r.inScope found = pure results ∧ results.Only Q)

include hcancel hlookup hinScope

/-- If every lookup gives an answer and the last step lets only such candidates pass, resolving
gives only such candidates too. -/
theorem exists_visit (visited queried : Nat) (kept : CandidateSet)
    (groups : List (Nat × List Interpretation)) :
    ∃ results, r.visit visited queried kept groups = pure results ∧ results.Only Q := by
  choose answer hanswer using hlookup
  induction groups generalizing visited queried kept with
  | nil => exact ⟨∅, rfl, CandidateSet.only_empty⟩
  | cons group rest ih =>
    rw [visit]
    simp only [hcancel, mapM_ofIndex fun s _ => hanswer s, liftM_pure, pure_bind]
    -- what was found does not matter, as nothing is returned that did not pass the last step
    generalize ((r.batch queried group.2).map answer).foldl _ kept = found
    split
    · next h => exact absurd h Bool.false_ne_true
    · split
      · exact ih _ _ _
      · obtain ⟨results, hresults, hpass⟩ := hinScope (best found)
        rw [hresults, pure_bind]
        split
        · exact ih _ _ _
        · exact ⟨results, rfl, hpass⟩

theorem exists_resolve (ranking : Ranking Interpretation) :
    ∃ found, r.resolve ranking = pure found ∧ ∀ x ∈ found, Q x := by
  obtain ⟨results, hresults, hpass⟩ :=
    exists_visit hcancel hlookup hinScope 0 0 ∅ ranking.buckets
  refine ⟨results.entries, ?_, hpass⟩
  rw [resolve, hresults]
  rfl

end

/-- If the scope restricts the ranks, resolving gives candidates in the scope only, whatever it
finds and carries along, unless it is cancelled. -/
theorem results_in_scope (ha : Atlas.ofGazetteer g = .ok a) (c : Constraints)
    (limits : ResolverLimits) (hscope : scope.ranks ≠ .full) (isCancelled : Id Bool)
    (ranking : Ranking Interpretation) :
    (∃ found, (ofIndex a.placeIndex c limits scope isCancelled).resolve ranking = pure found ∧
      ∀ x ∈ found, g.InScope scope x) ∨
    isCancelled = true ∧
      (ofIndex a.placeIndex c limits scope isCancelled).resolve ranking = throw .cancelled := by
  cases isCancelled with
  | false =>
    refine Or.inl (exists_resolve rfl (Lookup.answers_lookup a.answers c scope) (fun found => ?_)
      ranking)
    obtain ⟨results, hresults, hmem⟩ := exists_inScope ha hscope found
    exact ⟨results, hresults, fun x hx => ((hmem x).1 hx).2⟩
  | true =>
    obtain ⟨buckets, hascending⟩ := ranking
    cases buckets with
    | nil => exact Or.inl ⟨[], rfl, nofun⟩
    | cons bucket rest => exact Or.inr ⟨rfl, rfl⟩

/-- A street without houses. -/
def street : Gazetteer where
  places := [{
    id := 1, names := ["A"], placeType := ⟨"highway", "residential"⟩, addressRank := 26
    ownSearchRank := none, country := some "de", parent := none, postcode := none
    houseNumber := none, location := ⟨51, 6⟩, line := none, area := none, importance := 0 }]

/-- A house in the street, or else the street and a postcode. -/
def houseOrPostcode : Ranking Interpretation where
  buckets := [(1, [{ name := .ofList [1], houseNumber := some "5" }]),
    (2, [{ name := .ofList [1], postcode := some "1" }])]
  ascending := by decide

/-- The resolver over an atlas that finds places of some ranks. -/
def ofRanks (a : Atlas) (ranks : RankRange) : Resolver Id :=
  ofIndex a.placeIndex {} {} { ranks } (pure false)

/-- The street takes the place of the house, which is not found, and is carried to the postcode. It
is the result if streets are asked for, and is left out if houses are. -/
theorem street_results_in_scope : ∃ a, Atlas.ofGazetteer street = .ok a ∧
    (ofRanks a ⟨26, 27⟩).resolve houseOrPostcode = pure [⟨.primary, 1, none, 0, 0, some 26⟩] ∧
    street.InScope { ranks := ⟨26, 27⟩ } ⟨.primary, 1, none, 0, 0, some 26⟩ ∧
    (ofRanks a ⟨28, 30⟩).resolve houseOrPostcode = pure [] ∧
    ¬ street.InScope { ranks := ⟨28, 30⟩ } ⟨.primary, 1, none, 0, 0, some 26⟩ := by
  have hruns : (Atlas.ofGazetteer street).map (fun a =>
      ((ofRanks a ⟨26, 27⟩).resolve houseOrPostcode,
        (ofRanks a ⟨28, 30⟩).resolve houseOrPostcode)) =
      .ok (pure [⟨.primary, 1, none, 0, 0, some 26⟩], pure []) := by
    with_unfolding_all rfl
  cases ha : Atlas.ofGazetteer street with
  | error e =>
    rw [ha] at hruns
    cases hruns
  | ok a =>
    rw [ha] at hruns
    obtain ⟨hstreets, hhouses⟩ := Prod.mk.inj (Except.ok.inj hruns)
    refine ⟨a, rfl, hstreets, ?_, hhouses, ?_⟩
    · have hscope : ({ ranks := ⟨26, 27⟩ } : Scope).ranks ≠ .full := by decide
      rcases results_in_scope ha {} {} hscope false houseOrPostcode with
        ⟨found, hfound, hscoped⟩ | ⟨hcancelled, -⟩
      · obtain rfl := Except.ok.inj (hfound.symm.trans hstreets)
        exact hscoped _ (List.mem_singleton_self _)
      · cases hcancelled
    · rintro ⟨p, hp, -, hcovers⟩
      obtain rfl := List.mem_singleton.1 hp
      exact absurd hcovers (by decide)

end Resolver

end Geocoding
