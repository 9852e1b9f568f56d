import Geocoding.Proofs.Gazetteer
import Geocoding.Proofs.RenamedAtlas

/-!
# The order of the places

A gazetteer can list its places in any order, as long as every term by which it names countries
stands for one country code: the answers stay the same (`Geocoder.answers_of_perm`). The order
decides the ids of words, but the vocabularies are alike but for these
(`Vocabulary.exists_renames_of_perm`), and an atlas puts the places in the order of their own ids
(`Atlas.build_of_perm`).
-/

namespace Geocoding

/-- Every term that names countries stands for one country code. -/
def Gazetteer.CountryTermsAgree (g : Gazetteer) : Prop :=
  ∀ p ∈ g.places, ∀ q ∈ g.places, ∀ term code code',
    p.namesCountry term code → q.namesCountry term code' → code = code'

variable {g : Gazetteer} {places : List PlaceRecord}

/-! ## Vocabularies -/

theorem eq_of_perm_of_forall_eq {α : Type} {xs ys : List α} (hperm : xs.Perm ys)
    (heq : ∀ x ∈ ys, ∀ y ∈ ys, x = y) : xs = ys :=
  hperm.eq_of_pairwise (fun x y hx hy _ _ => heq x (hperm.mem_iff.1 hx) y hy)
    (List.pairwise_of_forall fun _ _ => trivial) (List.pairwise_of_forall fun _ _ => trivial)

attribute [ext] Entry

namespace Vocabulary

/-- However many places are entered for a term in one of its kinds, the entry is the same one. -/
theorem eq_of_isFor_of_mem_flatMap (hagree : g.CountryTermsAgree) {e f : Entry}
    {kind : MeaningKind} {term : String} (he : e ∈ g.places.flatMap placeEntries)
    (hf : f ∈ g.places.flatMap placeEntries) (hkind : e.IsFor kind term)
    (hkind' : f.IsFor kind term) : e = f := by
  obtain ⟨p, hp, he⟩ := List.mem_flatMap.1 he
  obtain ⟨q, hq, hf⟩ := List.mem_flatMap.1 hf
  have hsame : e.meaning.kind = f.meaning.kind := hkind.1.trans hkind'.1.symm
  have hterm : e.term = f.term := hkind.2.trans hkind'.2.symm
  refine Entry.ext hterm ?_
  -- The kind decides the meaning, except for countries.
  rcases meaning_of_mem_placeEntries he with he | he | he | ⟨code, he, hcode⟩ <;>
    rcases meaning_of_mem_placeEntries hf with hf | hf | hf | ⟨code', hf, hcode'⟩ <;>
    rw [he, hf] at hsame ⊢ <;>
    first
      | rw [hagree p hp q hq _ code code' hcode (hterm ▸ hcode')]
      | exact nomatch hsame

end Vocabulary

open Vocabulary in
/-- Whether the terms agree can be seen from what is entered. -/
theorem Gazetteer.countryTermsAgree_iff : g.CountryTermsAgree ↔
    ∀ e ∈ g.places.flatMap placeEntries, ∀ f ∈ g.places.flatMap placeEntries,
      e.IsFor .country f.term → f.meaning.kind = .country → e = f := by
  constructor
  · intro hagree e he f hf hkind hkind'
    exact eq_of_isFor_of_mem_flatMap hagree he hf hkind ⟨hkind', rfl⟩
  · intro h p hp q hq term code code' hcode hcode'
    have he := List.mem_flatMap_of_mem hp (mem_placeEntries_country_iff.2 hcode)
    have hf := List.mem_flatMap_of_mem hq (mem_placeEntries_country_iff.2 hcode')
    exact Meaning.country.inj (congrArg Entry.meaning (h _ he _ hf ⟨rfl, rfl⟩ rfl))

instance : Decidable g.CountryTermsAgree :=
  decidable_of_iff _ Gazetteer.countryTermsAgree_iff.symm

namespace Vocabulary

/-- The order of the places decides nothing but the ids of words. -/
theorem exists_renames_of_perm (hperm : places.Perm g.places) (hagree : g.CountryTermsAgree) :
    ∃ σ, (ofGazetteer g).Renames σ (ofGazetteer { g with places }) := by
  refine exists_renames fun kind term => ?_
  have hplaces : (places.flatMap placeEntries).filter (·.IsFor kind term) =
      (g.places.flatMap placeEntries).filter (·.IsFor kind term) := by
    refine eq_of_perm_of_forall_eq ((hperm.flatMap_right _).filter _) fun e he f hf => ?_
    obtain ⟨he, hkind⟩ := List.mem_filter.1 he
    obtain ⟨hf, hkind'⟩ := List.mem_filter.1 hf
    exact eq_of_isFor_of_mem_flatMap hagree he hf (of_decide_eq_true hkind)
      (of_decide_eq_true hkind')
  rw [filter_entries, filter_entries, entriesOf, entriesOf, List.filter_append,
    List.filter_append, List.filter_append, List.filter_append, hplaces]

end Vocabulary

/-! ## Atlases -/

namespace Atlas

theorem byId_perm (hperm : places.Perm g.places) : (byId places).Perm (byId g.places) :=
  (List.mergeSort_perm _ _).trans (hperm.trans (List.mergeSort_perm _ _).symm)

theorem map_id_byId_of_perm (hperm : places.Perm g.places) :
    (byId places).map (·.id) = (byId g.places).map (·.id) :=
  ((byId_perm hperm).map _).eq_of_pairwise (fun _ _ _ _ => Nat.le_antisymm)
    (List.pairwise_map.2 (pairwise_byId places)) (List.pairwise_map.2 (pairwise_byId g.places))

theorem duplicate?_congr {xs ys : List PlaceRecord} (h : xs.map (·.id) = ys.map (·.id)) :
    duplicate? xs = duplicate? ys := by
  induction xs generalizing ys with
  | nil =>
    obtain rfl := List.map_eq_nil_iff.1 h.symm
    rfl
  | cons x xs ih =>
    obtain ⟨y, ys, rfl, hid, htail⟩ := List.map_eq_cons_iff.1 h.symm
    cases xs with
    | nil =>
      obtain rfl := List.map_eq_nil_iff.1 htail
      rfl
    | cons x' xs =>
      obtain ⟨y', ys, rfl, hid', -⟩ := List.map_eq_cons_iff.1 htail
      rw [duplicate?, duplicate?, hid, hid', ih htail.symm]

/-- The order of the places makes no difference to an atlas, given the ids of words. -/
theorem build_of_perm (hperm : places.Perm g.places) (v : Vocabulary) :
    build v { g with places } = build v g := by
  have hduplicate : duplicate? (byId places) = duplicate? (byId g.places) :=
    duplicate?_congr (map_id_byId_of_perm hperm)
  simp only [build]
  rw [hduplicate]
  cases hnone : duplicate? (byId g.places) with
  | some id => rfl
  | none =>
    -- Without duplicates there is only one order of the ids.
    have hsame : byId places = byId g.places :=
      (byId_perm hperm).eq_of_pairwise
        (fun _ _ _ _ hlt hgt => absurd hgt (Nat.lt_asymm hlt))
        (pairwise_lt_of_duplicate? (pairwise_byId places) (hduplicate.trans hnone))
        (pairwise_lt_of_duplicate? (pairwise_byId g.places) hnone)
    rw [hsame]

end Atlas

/-! ## Geocoders -/

namespace Geocoder

/-- The order of the places makes no difference: either there is the same error, or both geocoders
answer alike. -/
theorem answers_of_perm (hperm : places.Perm g.places) (hagree : g.CountryTermsAgree)
    (config : Config) :
    (∃ error, ofGazetteer g config = .error error ∧
      ofGazetteer { g with places } config = .error error) ∨
    ∃ geocoder geocoder', ofGazetteer g config = .ok geocoder ∧
      ofGazetteer { g with places } config = .ok geocoder' ∧
      (∀ r, geocoder'.search r = geocoder.search r) ∧
      ∀ point detail, geocoder'.reverse point detail = geocoder.reverse point detail := by
  obtain ⟨σ, hσ⟩ := Vocabulary.exists_renames_of_perm hperm hagree
  have hatlas : Atlas.ofGazetteer { g with places } =
      (·.rename σ) <$> Atlas.ofGazetteer g := by
    rw [Atlas.ofGazetteer, Atlas.build_of_perm hperm, Atlas.build_of_renames σ hσ]
    rfl
  unfold ofGazetteer
  rw [hatlas]
  cases Atlas.ofGazetteer g with
  | error error => exact Or.inl ⟨error, rfl, rfl⟩
  | ok a =>
    have halike {x y : Geocoder Id} (h : x.Renames σ y) : (∀ r, y.search r = x.search r) ∧
        ∀ point detail, y.reverse point detail = x.reverse point detail :=
      ⟨search_of_renames σ h, reverse_of_renames σ h⟩
    exact Or.inr ⟨_, _, rfl, rfl, halike {
      lexicon := Vocabulary.renames_lexicon σ hσ
      places := Atlas.renames_placeIndex σ a
      others := by rw [Atlas.reverseIndex_rename] }⟩

/-- A country. -/
def spain : PlaceRecord where
  id := 1
  names := ["Spain", "España"]
  placeType := ⟨"boundary", "administrative"⟩
  addressRank := 4
  ownSearchRank := none
  country := some "ES"
  parent := none
  postcode := none
  houseNumber := none
  location := ⟨40, -4⟩
  line := none
  area := none
  importance := 1

/-- Another country. -/
def portugal : PlaceRecord :=
  { spain with id := 2, names := ["Portugal"], country := some "pt", location := ⟨39, -8⟩ }

/-- The order of two countries decides the ids of their names, but no answer. -/
theorem answers_of_two_countries :
    ∃ geocoder geocoder', ofGazetteer { places := [spain, portugal] } {} = .ok geocoder ∧
      ofGazetteer { places := [portugal, spain] } {} = .ok geocoder' ∧
      (Vocabulary.ofGazetteer { places := [spain, portugal] }).id? .fullWord "portugal" = some 8 ∧
      (Vocabulary.ofGazetteer { places := [portugal, spain] }).id? .fullWord "portugal" = some 1 ∧
      ∀ r, geocoder'.search r = geocoder.search r := by
  have hagree : Gazetteer.CountryTermsAgree { places := [spain, portugal] } := by decide +kernel
  have hbuilt : ∃ geocoder, ofGazetteer { places := [spain, portugal] } {} = .ok geocoder := by
    have hsorted : Atlas.byId [spain, portugal] = [spain, portugal] :=
      List.mergeSort_of_pairwise (by decide)
    simp only [ofGazetteer, Atlas.ofGazetteer, Atlas.build, hsorted]
    exact ⟨_, rfl⟩
  obtain ⟨error, herror, -⟩ | ⟨geocoder, geocoder', hfirst, hsecond, hsearch, -⟩ :=
    answers_of_perm (List.Perm.swap spain portugal []) hagree {}
  · obtain ⟨geocoder, hok⟩ := hbuilt
    cases herror.symm.trans hok
  · exact ⟨geocoder, geocoder', hfirst, hsecond, by decide +kernel, by decide +kernel, hsearch⟩

end Geocoder

end Geocoding
