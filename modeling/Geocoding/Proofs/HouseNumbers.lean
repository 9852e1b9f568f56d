import Geocoding.Proofs.NumberSearch

/-!
# House numbers

An interpretation with a house number is looked up in two steps: its name leads to streets, areas
and buildings, and these lead to the house number. What is found is exactly one of three things
(`NumberSearch.FoundAs`): a place with the house number, an address range of a street that has the
number, or one of the places that were found by name, as a substitute. Nothing is missing either
(`NumberSearch.lookup_of_houseNumber`).

The comparison of postcodes comes last and can put a house as far down as its street. The kinds stay
apart all the same, as a parent is always further down than its postcode alone would put it.
-/

namespace Geocoding

/-! ## Postcodes -/

/-- The place has a postcode, and it is not the given one. -/
def Gazetteer.hasOtherPostcode (g : Gazetteer) (postcode : String) (id : Nat) : Bool :=
  g.places.any fun p =>
    p.id = id && p.postcode.any (canonicalPostcode · ≠ canonicalPostcode postcode)

namespace Atlas

variable {a : Atlas} {g : Gazetteer} {ids : List Nat} {id : Nat} {postcode : String}

theorem otherPostcode_eq_filter :
    a.otherPostcode ids postcode =
      ids.filter fun id => (a.place? id).any (·.hasOtherPostcode postcode) := by
  rw [otherPostcode]
  induction ids with
  | nil => rfl
  | cons id ids ih =>
    cases hplace : a.place? id with
    | none => simpa [hplace] using ih
    | some p =>
      have hid : p.id = id := (place?_eq_some hplace).2
      by_cases hother : p.hasOtherPostcode postcode = true
      · simpa [hplace, hother, hid] using ih
      · simpa [hplace, hother] using ih

theorem any_place?_hasOtherPostcode (h : a.Represents g) :
    (a.place? id).any (·.hasOtherPostcode postcode) = g.hasOtherPostcode postcode id := by
  rw [Bool.eq_iff_iff, Option.any_eq_true, Gazetteer.hasOtherPostcode, List.any_eq_true]
  simp only [Bool.and_eq_true, decide_eq_true_eq]
  constructor
  · rintro ⟨p, hp, hother⟩
    obtain ⟨hmem, hid⟩ := place?_eq_some hp
    exact ⟨p.record, h.records.mem_iff.1 (List.mem_map_of_mem hmem), hid, hother⟩
  · rintro ⟨record, hrecord, rfl, hother⟩
    obtain ⟨p, hp, rfl⟩ := List.mem_map.1 (h.records.mem_iff.2 hrecord)
    exact ⟨p, h.place?_eq_some hp, hother⟩

/-- No place is found twice by name. -/
theorem nodup_map_id_namedPlaces (h : a.Represents g) (query : NamedPlaceQuery) :
    ((a.namedPlaces query).map (·.id)).Nodup := by
  have hplaces :
      (((a.places.filter (a.isNamed query)).map (a.named query)).map (·.hit.id)).Nodup := by
    rw [List.map_map]
    exact (List.filter_sublist.map AtlasPlace.id).nodup h.distinct
  have hsorted := ((List.mergeSort_perm _ fun x y : NamedPlace => (x.order y).isLE).map
    (·.hit.id)).nodup_iff.2 hplaces
  rw [namedPlaces, List.map_map]
  exact ((List.take_sublist _ _).map _).nodup hsorted

end Atlas

/-! ## What is found -/

/-- What a candidate for a house number is. -/
inductive AddressKind where
  /-- A place with the house number. -/
  | house
  /-- A range of house numbers along a street. -/
  | range
  /-- A street or an area, for want of a house. -/
  | parent
deriving DecidableEq

namespace NumberSearch

section

variable (q : NumberSearch)

/-- A rank for another postcode than the one that was read. -/
def penalty (x : Candidate) : Nat :=
  (x.source = .primary &&
    q.interpretation.postcode.any (q.gazetteer.hasOtherPostcode · x.id)).toNat

/-- The candidate is of the kind and has the rank that goes with it. -/
def FoundAs (x : Candidate) : AddressKind → Prop
  | .house => x.source = .primary ∧ x.rank = q.penalty x ∧ ∃ p, q.HasNumber p ∧ p.id = x.id
  | .range => x.rank = 0 ∧ ∃ number, Lookup.leadingNumber? q.houseNumber = some number ∧
      x.houseNumber = some number ∧
      (x.source = .interpolation ∧
          (∃ r ∈ q.gazetteer.interpolations, q.Spans r number ∧ r.id = x.id) ∨
        x.source = .parcel ∧ ∃ r ∈ q.gazetteer.parcels, q.Spans r number ∧ r.id = x.id)
  | .parent => x.source = .primary ∧ ∃ hit ∈ q.hits, hit.id = x.id ∧ hit.addressRank < 28 ∧
      x.rank = (if 26 ≤ hit.addressRank then 1 else 2) + q.penalty x

/-- The candidate after the comparison of postcodes. -/
def compared (x : Candidate) : Candidate :=
  { x with rank := x.rank + q.penalty x }

end

section

variable {q : NumberSearch} {a : Atlas}

/-! ## Compared postcodes -/

/-- A place with another postcode goes one rank down, and everything else stays. -/
theorem gives_comparePostcodes (ha : a.Represents q.gazetteer) {postcode : String}
    (hpostcode : q.interpretation.postcode = some postcode) (found : CandidateSet) :
    Gives (Lookup.comparePostcodes (a.placeIndex : PlaceIndex Id) postcode found) fun compared =>
      compared.entries = found.entries.map q.compared := by
  have hcount {x : Candidate} (hx : x ∈ found.entries) :
      ((a.otherPostcode (found.idsIn .primary) postcode).map (Source.primary, ·)).count x.key =
        q.penalty x := by
    rw [Atlas.otherPostcode_eq_filter, CandidateSet.count_key_map_idsIn hx,
      Atlas.any_place?_hasOtherPostcode ha, penalty, hpostcode]
    rfl
  refine ⟨_, Lookup.comparePostcodes_placeIndex a postcode found, ?_⟩
  refine (CandidateSet.entries_foldl_demote _).trans (List.map_congr_left fun x hx => ?_)
  rw [hcount hx]
  rfl

/-! ## Lookups -/

/-- Nothing is found without a place found by name. -/
theorem IsAnswer.exists_hit {x : Candidate} (h : q.IsAnswer x) : ∃ hit, hit ∈ q.hits := by
  cases h with
  | house hp _ =>
    rcases hp.belongs with ⟨_, -, hit, hhit, -⟩ | ⟨hit, hhit, -⟩
    · exact ⟨hit, hhit⟩
    · exact ⟨hit, hhit⟩
  | range _ hx =>
    obtain ⟨_, hit, hhit, -⟩ := hx.exists_street
    exact ⟨hit, hhit⟩
  | parent hhit _ => exact ⟨_, hhit⟩

theorem gives_places (ha : Atlas.ofGazetteer q.gazetteer = .ok a)
    (hnumber : q.interpretation.houseNumber = some q.houseNumber)
    (hname : q.interpretation.hasName = true) (hmode : q.interpretation.mode ≠ .postcode)
    (htype : q.interpretation.placeType = none)
    (hhits : q.hits =
      a.namedPlaces (Lookup.namedPlaceQuery q.constraints q.scope q.interpretation)) :
    Gives (Lookup.places (a.placeIndex : PlaceIndex Id) q.constraints q.scope q.interpretation)
      fun found => ∀ x, x ∈ found.entries ↔ q.IsAnswer x := by
  have hsome : q.interpretation.name.isEmpty = false := by
    simpa [Interpretation.hasName] using hname
  have hids := Atlas.nodup_map_id_namedPlaces (Atlas.represents_of_ofGazetteer ha)
    (Lookup.namedPlaceQuery q.constraints q.scope q.interpretation)
  have hparents : q.IsParents (.ofList (q.hits.map Lookup.ofNamedPlace)) := by
    refine ⟨CandidateSet.entries_ofList ?_⟩
    rw [List.map_map, hhits]
    exact List.pairwise_map.2 ((List.pairwise_map.1 hids).imp fun hne hkey =>
      hne (congrArg Prod.snd hkey))
  have hnamed : Lookup.namedPlaces (a.placeIndex : PlaceIndex Id) q.constraints q.scope
      q.interpretation = pure (.ofList (q.hits.map Lookup.ofNamedPlace)) := by
    rw [hhits]
    rfl
  simp only [Lookup.places, hsome, Bool.false_and, Bool.false_eq_true, if_false, hmode,
    Lookup.narrowedPlaces, hnamed, hnumber, htype, pure_bind, bind_pure]
  refine gives_ite (fun hempty => gives_pure fun x => ?_) fun _ =>
    gives_addresses ha hparents
  rw [CandidateSet.isEmpty, hparents.entries, List.isEmpty_iff, List.map_eq_nil_iff] at hempty
  refine ⟨fun hx => ?_, fun hx => ?_⟩
  · rw [hparents.entries, hempty] at hx
    exact absurd hx List.not_mem_nil
  · obtain ⟨hit, hhit⟩ := hx.exists_hit
    rw [hempty] at hhit
    exact absurd hhit List.not_mem_nil

/-- A lookup finds the answers, their postcodes compared. -/
theorem gives_lookup (ha : a.Represents q.gazetteer)
    (hplaces : Gives
      (Lookup.places (a.placeIndex : PlaceIndex Id) q.constraints q.scope q.interpretation)
      fun found => ∀ x, x ∈ found.entries ↔ q.IsAnswer x) :
    Gives (lookup (a.placeIndex : PlaceIndex Id) q.constraints q.scope q.interpretation)
      fun found => ∀ x, x ∈ found.entries ↔ ∃ y, q.IsAnswer y ∧ q.compared y = x := by
  refine hplaces.bind fun found hfound => ?_
  simp only [← hfound, ← List.mem_map]
  cases hpostcode : q.interpretation.postcode with
  | none =>
    have hsame (x : Candidate) : q.compared x = x := by simp [compared, penalty, hpostcode]
    exact gives_pure fun x => by rw [List.map_id'' hsame]
  | some postcode =>
    refine (gives_comparePostcodes ha hpostcode found).mono fun compared hcompared x => ?_
    rw [hcompared]

/-! ## Kinds -/

theorem penalty_of_source_ne {x : Candidate} (h : x.source ≠ .primary) : q.penalty x = 0 := by
  simp [penalty, h]

theorem compared_of_source_ne {x : Candidate} (h : x.source ≠ .primary) : q.compared x = x := by
  rw [compared, penalty_of_source_ne h]
  rfl

theorem FoundAs.source_ne_primary {x : Candidate} (h : q.FoundAs x .range) :
    x.source ≠ .primary := by
  obtain ⟨-, number, -, -, ⟨hsource, -⟩ | ⟨hsource, -⟩⟩ := h
  · rw [hsource]
    exact nofun
  · rw [hsource]
    exact nofun

/-- A house is not penalised for anything but its postcode, and a parent always is. -/
theorem FoundAs.rank_ne_penalty {x : Candidate} (h : q.FoundAs x .parent) :
    x.rank ≠ q.penalty x := by
  obtain ⟨-, hit, -, -, -, hrank⟩ := h
  split at hrank
  · omega
  · omega

theorem FoundAs.unique {x : Candidate} {k l : AddressKind} (hk : q.FoundAs x k)
    (hl : q.FoundAs x l) : k = l := by
  cases k with
  | house =>
    cases l with
    | house => rfl
    | range => exact absurd hk.1 hl.source_ne_primary
    | parent => exact absurd hk.2.1 hl.rank_ne_penalty
  | range =>
    cases l with
    | house => exact absurd hl.1 hk.source_ne_primary
    | range => rfl
    | parent => exact absurd hl.1 hk.source_ne_primary
  | parent =>
    cases l with
    | house => exact absurd hl.2.1 hk.rank_ne_penalty
    | range => exact absurd hk.1 hl.source_ne_primary
    | parent => rfl

theorem foundAs_house {p : PlaceRecord} (hp : q.HasNumber p) :
    q.FoundAs (q.compared (house p)) .house :=
  ⟨rfl, Nat.zero_add _, p, hp, rfl⟩

theorem foundAs_parent {hit : NamedPlaceHit} (hhit : hit ∈ q.hits) (hrank : hit.addressRank < 28) :
    q.FoundAs (q.compared (substitute hit)) .parent :=
  ⟨rfl, hit, hhit, rfl, hrank, rfl⟩

theorem IsRange.foundAs {x : Candidate} (h : q.IsRange x) : q.FoundAs x .range := by
  cases h with
  | interpolation hnumber hr hspans =>
    exact ⟨rfl, _, hnumber, rfl, Or.inl ⟨rfl, _, hr, hspans, rfl⟩⟩
  | parcel hnumber _ _ hr hspans =>
    exact ⟨rfl, _, hnumber, rfl, Or.inr ⟨rfl, _, hr, hspans, rfl⟩⟩

theorem IsAnswer.exists_foundAs {x : Candidate} (h : q.IsAnswer x) :
    ∃ kind, q.FoundAs (q.compared x) kind := by
  cases h with
  | house hp _ => exact ⟨_, foundAs_house hp⟩
  | range _ hx =>
    rw [compared_of_source_ne hx.source_ne_primary]
    exact ⟨_, hx.foundAs⟩
  | parent hhit hrank => exact ⟨_, foundAs_parent hhit hrank⟩

/-- A place with the number is found, as what it is unless it is also a parent. -/
theorem HasNumber.exists_isAnswer {p : PlaceRecord} (hp : q.HasNumber p) :
    ∃ x, q.IsAnswer x ∧ x.key = (.primary, p.id) ∧
      ((∀ hit ∈ q.hits, hit.id = p.id → 28 ≤ hit.addressRank) →
        q.FoundAs (q.compared x) .house) := by
  by_cases hhit : ∃ hit ∈ q.hits, hit.id = p.id ∧ hit.addressRank < 28
  · obtain ⟨hit, hmem, hid, hrank⟩ := hhit
    refine ⟨_, .parent hmem hrank, congrArg (Source.primary, ·) hid, fun h => ?_⟩
    exact absurd (h hit hmem hid) (by omega)
  · have hplain (hit : NamedPlaceHit) (hmem : hit ∈ q.hits) (hid : hit.id = p.id) :
        28 ≤ hit.addressRank :=
      Nat.le_of_not_lt fun hrank => hhit ⟨hit, hmem, hid, hrank⟩
    exact ⟨_, .house hp hplain, rfl, fun _ => foundAs_house hp⟩

end

/-- The lookup of a house number finds houses, address ranges and parents, each candidate as one of
these only, and all of them: every house with the number, every parent and, if there are no houses,
every address range that is due. -/
theorem lookup_of_houseNumber {q : NumberSearch} {a : Atlas}
    (ha : Atlas.ofGazetteer q.gazetteer = .ok a)
    (hnumber : q.interpretation.houseNumber = some q.houseNumber)
    (hname : q.interpretation.hasName = true) (hmode : q.interpretation.mode ≠ .postcode)
    (htype : q.interpretation.placeType = none)
    (hhits : q.hits =
      a.namedPlaces (Lookup.namedPlaceQuery q.constraints q.scope q.interpretation)) :
    ∃ found, lookup (a.placeIndex : PlaceIndex Id) q.constraints q.scope q.interpretation =
        pure found ∧
      (∀ x ∈ found.entries, ∃! kind, q.FoundAs x kind) ∧
      (∀ p, q.HasNumber p → ∃ x ∈ found.entries, x.key = (.primary, p.id) ∧
        ((∀ hit ∈ q.hits, hit.id = p.id → 28 ≤ hit.addressRank) → q.FoundAs x .house)) ∧
      (∀ hit ∈ q.hits, hit.addressRank < 28 →
        ∃ x ∈ found.entries, x.id = hit.id ∧ q.FoundAs x .parent) ∧
      ∀ x, x.source ≠ .primary →
        (x ∈ found.entries ↔ (∀ p, ¬ q.HasNumber p) ∧ q.IsRange x) := by
  have hrepresents := Atlas.represents_of_ofGazetteer ha
  have hplaces := gives_places ha hnumber hname hmode htype hhits
  obtain ⟨found, hfound, hmem⟩ := gives_lookup hrepresents hplaces
  refine ⟨found, hfound, fun x hx => ?_, fun p hp => ?_, fun hit hhit hrank => ?_,
    fun x hsource => ?_⟩
  · obtain ⟨y, hy, rfl⟩ := (hmem x).1 hx
    obtain ⟨kind, hkind⟩ := hy.exists_foundAs
    exact ⟨kind, hkind, fun _ hother => hother.unique hkind⟩
  · obtain ⟨y, hy, hkey, hkind⟩ := hp.exists_isAnswer
    exact ⟨_, (hmem _).2 ⟨y, hy, rfl⟩, hkey, hkind⟩
  · exact ⟨_, (hmem _).2 ⟨_, .parent hhit hrank, rfl⟩, rfl, foundAs_parent hhit hrank⟩
  · rw [hmem]
    constructor
    · rintro ⟨y, hy, rfl⟩
      cases hy with
      | house => exact absurd rfl hsource
      | range hnone hx =>
        rw [compared_of_source_ne hx.source_ne_primary]
        exact ⟨hnone, hx⟩
      | parent => exact absurd rfl hsource
    · rintro ⟨hnone, hx⟩
      exact ⟨x, .range hnone hx, compared_of_source_ne hsource⟩

/-- A street with a house, which has another postcode, and with a range of house numbers. -/
def numberedStreet : Gazetteer where
  places := [
    { id := 1, names := ["A"], placeType := ⟨"highway", "residential"⟩, addressRank := 26
      ownSearchRank := none, country := some "de", parent := none, postcode := some "10"
      houseNumber := none, location := ⟨51, 6⟩, line := none, area := none, importance := 0 },
    { id := 2, names := [], placeType := ⟨"building", "house"⟩, addressRank := 30
      ownSearchRank := none, country := some "de", parent := some 1, postcode := some "20"
      houseNumber := some "5", location := ⟨51, 6⟩, line := none, area := none
      importance := 0 }]
  interpolations := [{ id := 3, parent := 1, first := 1, last := 9, parity := .odd, line := [] }]

/-- The house number with the name and the postcode of the street. -/
def fiveA : Interpretation where
  name := .ofList [1]
  houseNumber := some "5"
  postcode := some "10"

/-- The house number on the street, without the excluded places. -/
def onNumberedStreet (excluded : List Nat) : NumberSearch where
  gazetteer := numberedStreet
  constraints := { excluded }
  scope := {}
  interpretation := fiveA
  houseNumber := "5"
  hits := [⟨1, 26, 0⟩]

/-- The house has another postcode and the street lacks the number, so that both are one rank down;
still each is found as what it is. If the house is excluded, the range is found. -/
theorem house_or_range_found : ∃ a, Atlas.ofGazetteer numberedStreet = .ok a ∧
    (∃ found, lookup (a.placeIndex : PlaceIndex Id) {} {} fiveA = pure found ∧
      found.entries = [⟨.primary, 2, none, 0, 1, some 30⟩, ⟨.primary, 1, none, 0, 1, some 26⟩] ∧
      (onNumberedStreet []).FoundAs ⟨.primary, 2, none, 0, 1, some 30⟩ .house ∧
      (onNumberedStreet []).FoundAs ⟨.primary, 1, none, 0, 1, some 26⟩ .parent) ∧
    ∃ found, lookup (a.placeIndex : PlaceIndex Id) { excluded := [2] } {} fiveA = pure found ∧
      found.entries =
        [⟨.interpolation, 3, some 5, 0, 0, none⟩, ⟨.primary, 1, none, 0, 1, some 26⟩] ∧
      (onNumberedStreet [2]).FoundAs ⟨.interpolation, 3, some 5, 0, 0, none⟩ .range := by
  have hsorted : Atlas.byId numberedStreet.places = numberedStreet.places :=
    List.mergeSort_of_pairwise (by decide)
  have hruns : (Atlas.ofGazetteer numberedStreet).map (fun a =>
      (a.namedPlaces (Lookup.namedPlaceQuery {} {} fiveA),
        a.namedPlaces (Lookup.namedPlaceQuery { excluded := [2] } {} fiveA),
        (lookup (a.placeIndex : PlaceIndex Id) {} {} fiveA).map (·.entries),
        (lookup (a.placeIndex : PlaceIndex Id) { excluded := [2] } {} fiveA).map (·.entries))) =
      .ok ([⟨1, 26, 0⟩], [⟨1, 26, 0⟩],
        pure [⟨.primary, 2, none, 0, 1, some 30⟩, ⟨.primary, 1, none, 0, 1, some 26⟩],
        pure [⟨.interpolation, 3, some 5, 0, 0, none⟩, ⟨.primary, 1, none, 0, 1, some 26⟩]) := by
    rw [Atlas.ofGazetteer, Atlas.build, hsorted]
    set_option maxRecDepth 2000 in
    with_unfolding_all rfl
  cases ha : Atlas.ofGazetteer numberedStreet with
  | error e =>
    rw [ha] at hruns
    cases hruns
  | ok a =>
    rw [ha] at hruns
    simp only [Except.map, Except.ok.injEq, Prod.mk.injEq] at hruns
    obtain ⟨hhits, hhits', hlookup, hlookup'⟩ := hruns
    refine ⟨a, rfl, ?_, ?_⟩
    · obtain ⟨found, hfound, -, hhouses, hparents, -⟩ :=
        lookup_of_houseNumber (q := onNumberedStreet []) ha rfl (by decide) (by decide) rfl
          hhits.symm
      have hentries : found.entries = _ := Except.ok.inj ((congrArg _ hfound).symm.trans hlookup)
      refine ⟨found, hfound, hentries, ?_, ?_⟩
      · have hhouse : (onNumberedStreet []).HasNumber _ := {
          mem := List.mem_cons_of_mem _ (List.mem_singleton_self _)
          notExcluded := List.not_mem_nil
          number := ⟨"5", rfl, rfl⟩
          belongs := Or.inl ⟨1, rfl, _, List.mem_singleton_self _, rfl, by decide⟩ }
        obtain ⟨x, hx, hkey, hkind⟩ := hhouses _ hhouse
        rw [hentries] at hx
        rcases List.mem_pair.1 hx with rfl | rfl
        · refine hkind fun hit hhit hid => ?_
          obtain rfl := List.mem_singleton.1 hhit
          cases hid
        · cases hkey
      · obtain ⟨x, hx, hid, hkind⟩ := hparents _ (List.mem_singleton_self _) (by decide)
        rw [hentries] at hx
        rcases List.mem_pair.1 hx with rfl | rfl
        · cases hid
        · exact hkind
    · obtain ⟨found, hfound, -, -, -, hranges⟩ :=
        lookup_of_houseNumber (q := onNumberedStreet [2]) ha rfl (by decide) (by decide) rfl
          hhits'.symm
      have hentries : found.entries = _ := Except.ok.inj ((congrArg _ hfound).symm.trans hlookup')
      have hrange : ⟨.interpolation, 3, some 5, 0, 0, none⟩ ∈ found.entries := by
        rw [hentries]
        exact List.mem_cons_self
      exact ⟨found, hfound, hentries, ((hranges _ (by decide)).1 hrange).2.foundAs⟩

end NumberSearch

end Geocoding
