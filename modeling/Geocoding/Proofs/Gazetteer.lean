import Geocoding.Geocoder
import Geocoding.Proofs.Atlas
import Geocoding.Proofs.Vocabulary
import Mathlib.Data.List.Forall2
import Mathlib.Data.List.Nodup
import Mathlib.Data.List.Perm.Basic

/-!
# Atlases of gazetteers

An atlas that is made of a gazetteer has exactly its places, in the order of their ids, of which no
two agree (`Atlas.represents_of_ofGazetteer`). A place has the id of a whole name among the terms of
its names exactly if it is called so (`Atlas.mem_nameTerms_iff`).
-/

namespace Geocoding

/-- One of the names of the place has the same normal form. -/
def PlaceRecord.isCalled (p : PlaceRecord) (name : String) : Bool :=
  p.names.any (normalize · = normalize name)

theorem PlaceRecord.isCalled_iff {p : PlaceRecord} {name : String} :
    p.isCalled name = true ↔ ∃ n ∈ p.names, normalize n = normalize name := by
  simp [isCalled]

/-! ## Rules for construction -/

section

variable {ε α β : Type}

theorem exists_of_bind_eq_ok {x : Except ε α} {f : α → Except ε β} {b : β}
    (h : x >>= f = .ok b) : ∃ a, x = .ok a ∧ f a = .ok b := by
  cases x with
  | error e => exact nomatch h
  | ok a => exact ⟨a, rfl, h⟩

theorem forall₂_of_mapM {f : α → Except ε β} {xs : List α} {ys : List β}
    (h : xs.mapM f = .ok ys) : List.Forall₂ (fun x y => f x = .ok y) xs ys := by
  induction xs generalizing ys with
  | nil =>
    obtain rfl : [] = ys := Except.ok.inj h
    exact .nil
  | cons x xs ih =>
    rw [List.mapM_cons] at h
    obtain ⟨y, hy, h⟩ := exists_of_bind_eq_ok h
    obtain ⟨ys, hys, h⟩ := exists_of_bind_eq_ok h
    obtain rfl := Except.ok.inj h
    exact .cons hy (ih hys)

end

namespace Atlas

/-- The atlas has the places of the gazetteer, each with the terms of its names. -/
structure Represents (a : Atlas) (g : Gazetteer) : Prop where
  records : (a.places.map (·.record)).Perm g.places
  nameTerms : ∀ p ∈ a.places, p.nameTerms = Atlas.nameTerms (.ofGazetteer g) p.record
  distinct : (a.places.map (·.id)).Nodup

theorem Represents.nodup_ids {a : Atlas} {g : Gazetteer} (h : a.Represents g) :
    (g.places.map (·.id)).Nodup := by
  have hids := h.records.map (·.id)
  rw [List.map_map] at hids
  exact hids.nodup_iff.1 h.distinct

/-! ## Places in the order of their ids -/

theorem pairwise_byId (places : List PlaceRecord) : (byId places).Pairwise (·.id ≤ ·.id) := by
  have h : (byId places).Pairwise fun p q => decide (p.id ≤ q.id) = true :=
    List.pairwise_mergeSort (fun a b c => by simpa using Nat.le_trans)
      (fun a b => by simpa using Nat.le_total _ _) places
  simpa using h

/-- Ids that do not repeat among neighbours ascend, and so do not repeat at all. -/
theorem pairwise_lt_of_duplicate? {places : List PlaceRecord}
    (hsorted : places.Pairwise (·.id ≤ ·.id)) (h : duplicate? places = none) :
    places.Pairwise (·.id < ·.id) := by
  induction places with
  | nil => exact .nil
  | cons p rest ih =>
    obtain ⟨hp, hrest⟩ := List.pairwise_cons.1 hsorted
    cases rest with
    | nil => exact List.pairwise_singleton _ _
    | cons q rest =>
      rw [duplicate?] at h
      split at h
      · exact nomatch h
      · next hne =>
        refine List.pairwise_cons.2 ⟨fun r hr => ?_, ih hrest h⟩
        have hpq : p.id < q.id := Nat.lt_of_le_of_ne (hp q List.mem_cons_self) hne
        rcases List.mem_cons.1 hr with rfl | hr
        · exact hpq
        · exact Nat.lt_of_lt_of_le hpq ((List.pairwise_cons.1 hrest).1 r hr)

/-! ## Building -/

variable {v : Vocabulary} {g : Gazetteer} {a : Atlas}

theorem nameTerms_and_record_of_place {places : List PlaceRecord} {p : PlaceRecord}
    {q : AtlasPlace} (h : place v places p = .ok q) :
    q.nameTerms = Atlas.nameTerms v q.record ∧ q.record = p := by
  obtain ⟨ancestors, -, h⟩ := exists_of_bind_eq_ok h
  obtain rfl := Except.ok.inj h
  exact ⟨rfl, rfl⟩

/-- What an atlas is built of: places with ids of their own, areas of postcodes and address
ranges. -/
theorem parts_of_build (h : build v g = .ok a) :
    duplicate? (byId g.places) = none ∧
      (byId g.places).mapM (place v (byId g.places)) = .ok a.places ∧
      g.postcodes.mapM (postcode v (byId g.places)) = .ok a.postcodes ∧
      a.interpolations = g.interpolations ∧ a.parcels = g.parcels := by
  rw [build] at h
  split at h
  · exact nomatch h
  · next hnone =>
    obtain ⟨places, hplaces, h⟩ := exists_of_bind_eq_ok h
    obtain ⟨postcodes, hpostcodes, h⟩ := exists_of_bind_eq_ok h
    obtain ⟨-, -, h⟩ := exists_of_bind_eq_ok h
    obtain rfl := Except.ok.inj h
    exact ⟨hnone, hplaces, hpostcodes, rfl, rfl⟩

/-- No two places have the same id, and the atlas has the place of each record. -/
theorem places_of_build (h : build v g = .ok a) :
    duplicate? (byId g.places) = none ∧
      (byId g.places).mapM (place v (byId g.places)) = .ok a.places := by
  obtain ⟨hnone, hplaces, -⟩ := parts_of_build h
  exact ⟨hnone, hplaces⟩

/-- The atlas has the area of each postcode. -/
theorem forall₂_postcodes_of_build (h : build v g = .ok a) :
    List.Forall₂ (fun p q => postcode v (byId g.places) p = .ok q) g.postcodes a.postcodes := by
  obtain ⟨-, -, hpostcodes, -⟩ := parts_of_build h
  exact forall₂_of_mapM hpostcodes

theorem code_and_record_of_postcode {places : List PlaceRecord} {p : PostcodeRecord}
    {q : AtlasPostcode} (h : postcode v places p = .ok q) :
    q.code = canonicalPostcode q.record.postcode ∧ q.record = p := by
  obtain ⟨ancestors, -, h⟩ := exists_of_bind_eq_ok h
  obtain rfl := Except.ok.inj h
  exact ⟨rfl, rfl⟩

/-- An atlas has the postcodes of its gazetteer, with the spellings that count. -/
theorem codes_and_records_of_build (h : build v g = .ok a) :
    (∀ q ∈ a.postcodes, q.code = canonicalPostcode q.record.postcode) ∧
      a.postcodes.map (·.record) = g.postcodes := by
  have hpairs : List.Forall₂ (fun q p =>
      q.code = canonicalPostcode q.record.postcode ∧ q.record = p) a.postcodes g.postcodes :=
    (forall₂_postcodes_of_build h).flip.imp fun q p hq => code_and_record_of_postcode hq
  obtain ⟨hcodes, hsame⟩ := (List.forall₂_and_left _ _).1 hpairs
  refine ⟨hcodes, ?_⟩
  rw [← List.forall₂_eq_eq_eq, List.forall₂_map_left_iff]
  exact hsame

/-- An atlas has the postcodes of its gazetteer. -/
theorem postcodes_of_build (h : build v g = .ok a) : a.postcodes.map (·.record) = g.postcodes :=
  (codes_and_records_of_build h).2

/-- Each place of an atlas has the terms of its names, and the places are in the order of ids. -/
theorem nameTerms_and_records_of_build (h : build v g = .ok a) :
    (∀ q ∈ a.places, q.nameTerms = Atlas.nameTerms v q.record) ∧
      a.places.map (·.record) = byId g.places := by
  have hpairs : List.Forall₂ (fun q p =>
      q.nameTerms = Atlas.nameTerms v q.record ∧ q.record = p) a.places (byId g.places) :=
    (forall₂_of_mapM (places_of_build h).2).flip.imp fun q p hq => nameTerms_and_record_of_place hq
  obtain ⟨hterms, hsame⟩ := (List.forall₂_and_left _ _).1 hpairs
  refine ⟨hterms, ?_⟩
  rw [← List.forall₂_eq_eq_eq, List.forall₂_map_left_iff]
  exact hsame

/-- An atlas has the places of its gazetteer. -/
theorem represents_of_ofGazetteer (h : ofGazetteer g = .ok a) : a.Represents g := by
  obtain ⟨hterms, hrecords⟩ := nameTerms_and_records_of_build h
  have hascending := pairwise_lt_of_duplicate? (pairwise_byId g.places) (places_of_build h).1
  rw [← hrecords, List.pairwise_map] at hascending
  exact {
    records := hrecords ▸ List.mergeSort_perm _ _
    nameTerms := hterms
    distinct := List.pairwise_map.2 (hascending.imp fun hlt => Nat.ne_of_lt hlt) }

/-! ## Places by id -/

/-- The id of a place leads to it. -/
theorem Represents.place?_eq_some (h : a.Represents g) {p : AtlasPlace} (hp : p ∈ a.places) :
    a.place? p.id = some p := by
  have hsome : (a.place? p.id).isSome = true :=
    List.find?_isSome.2 ⟨p, hp, decide_eq_true rfl⟩
  obtain ⟨q, hq⟩ := Option.isSome_iff_exists.1 hsome
  obtain ⟨hmem, hid⟩ := Atlas.place?_eq_some hq
  rw [hq, List.inj_on_of_nodup_map h.distinct hmem hp hid]

/-! ## Names -/

/-- A place has the id of a whole name exactly if it is called so. -/
theorem mem_nameTerms_iff {name : String} {id : Nat}
    (h : v.id? .fullWord (normalize name) = some id) {p : PlaceRecord} :
    id ∈ nameTerms v p ↔ p.isCalled name = true := by
  have hnumber : id ∉ (p.houseNumber.bind fun number =>
      v.id? .houseNumber (normalize number)).toList := by
    rw [Option.mem_toList, Option.bind_eq_some_iff]
    rintro ⟨number, -, hid⟩
    exact nomatch (Vocabulary.id?_injective hid h).1
  rw [nameTerms, TermSet.mem_ofList, List.mem_append, or_iff_left hnumber, List.mem_flatMap,
    PlaceRecord.isCalled_iff]
  simp only [Vocabulary.mem_nameTerms_iff h]

end Atlas

/-! ## Geocoders -/

theorem Geocoder.exists_atlas_of_ofGazetteer {g : Gazetteer} {config : Config}
    {geocoder : Geocoder Id} (h : ofGazetteer g config = .ok geocoder) :
    ∃ a, Atlas.ofGazetteer g = .ok a ∧ geocoder = {
      lexicon := (Vocabulary.ofGazetteer g).lexicon
      places := a.placeIndex
      points := a.reverseIndex
      config
      isCancelled := false } := by
  obtain ⟨a, ha, h⟩ := exists_of_bind_eq_ok h
  exact ⟨a, ha, (Except.ok.inj h).symm⟩

end Geocoding
