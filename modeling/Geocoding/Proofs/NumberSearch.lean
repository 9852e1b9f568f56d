import Geocoding.Proofs.Answering
import Geocoding.Proofs.Gazetteer
import Geocoding.Proofs.Origin

/-!
# Addresses of the places found by name

The places that are found by name lead to the addresses with a house number: streets to their houses
and to ranges of house numbers, buildings to themselves. `NumberSearch.IsAnswer` says what is found
(`NumberSearch.gives_addresses`).

Three writers share one set of candidates. Houses come first; ranges are only looked up if there
are none, so that the two never meet; the parents come last, and a parent that is itself a house
with the number takes the place of the house.
-/

namespace Geocoding

/-! ## Searches -/

/-- A house number that is looked for among the places found by name. -/
structure NumberSearch where
  gazetteer : Gazetteer
  constraints : Constraints
  scope : Scope
  interpretation : Interpretation
  houseNumber : String
  /-- The places found by name. -/
  hits : List NamedPlaceHit

namespace NumberSearch

variable (q : NumberSearch)

/-- The place is a street or larger and was found by name. -/
def IsStreet (id : Nat) : Prop :=
  ∃ hit ∈ q.hits, hit.id = id ∧ hit.addressRank ≤ 27

/-- The place is at house level and was found by name. -/
def IsBuilding (id : Nat) : Prop :=
  ∃ hit ∈ q.hits, hit.id = id ∧ 30 ≤ hit.addressRank

/-- The place has the house number and belongs to what was found by name. -/
structure HasNumber (p : PlaceRecord) : Prop where
  mem : p ∈ q.gazetteer.places
  notExcluded : p.id ∉ q.constraints.excluded
  number : ∃ number, p.houseNumber = some number ∧ normalize number = normalize q.houseNumber
  belongs : (∃ street, p.parent = some street ∧ q.IsStreet street) ∨ q.IsBuilding p.id

/-- The address range is on a street that was found by name and has the number. -/
structure Spans (r : AddressRange) (number : Nat) : Prop where
  onStreet : q.IsStreet r.parent
  notExcluded : r.id ∉ q.constraints.excluded
  admits : r.parity.admits number = true
  first_le : r.first ≤ number
  le_last : number ≤ r.last

/-- The place of a house that was found. -/
def house (p : PlaceRecord) : Candidate :=
  .primary p.id (some 30)

/-- The address range of a source that was found for a number. -/
def ofRange (source : Source) (number id : Nat) : Candidate :=
  { source, id, houseNumber := some number }

/-- The place found by name, without the house number. -/
def substitute (hit : NamedPlaceHit) : Candidate :=
  { Lookup.ofNamedPlace hit with rank := if 26 ≤ hit.addressRank then 1 else 2 }

/-- An address range that is found if there are no houses: a line, or else a parcel in a country
that has them. -/
inductive IsRange : Candidate → Prop
  | interpolation {r number} (hnumber : Lookup.leadingNumber? q.houseNumber = some number)
      (hr : r ∈ q.gazetteer.interpolations) (hspans : q.Spans r number) :
      IsRange (ofRange .interpolation number r.id)
  | parcel {r number} (hnumber : Lookup.leadingNumber? q.houseNumber = some number)
      (hlines : ∀ line ∈ q.gazetteer.interpolations, ¬ q.Spans line number)
      (henabled : Lookup.parcelsEnabled q.constraints q.scope q.interpretation = true)
      (hr : r ∈ q.gazetteer.parcels) (hspans : q.Spans r number) :
      IsRange (ofRange .parcel number r.id)

/-- What is found before postcodes are compared. -/
inductive IsAnswer : Candidate → Prop
  | house {p} (hp : q.HasNumber p)
      (hhit : ∀ hit ∈ q.hits, hit.id = p.id → 28 ≤ hit.addressRank) : IsAnswer (house p)
  | range {x} (hnone : ∀ p, ¬ q.HasNumber p) (hx : q.IsRange x) : IsAnswer x
  | parent {hit} (hhit : hit ∈ q.hits) (hrank : hit.addressRank < 28) : IsAnswer (substitute hit)

/-- The candidates are the places found by name. -/
structure IsParents (parents : CandidateSet) : Prop where
  entries : parents.entries = q.hits.map Lookup.ofNamedPlace

/-! ## Houses -/

section

variable {q} {a : Atlas} {parents : CandidateSet}

theorem mem_idsByRank_iff (hparents : q.IsParents parents)
    {p : Nat → Bool} {id : Nat} :
    id ∈ Lookup.idsByRank p parents ↔ ∃ hit ∈ q.hits, hit.id = id ∧ p hit.addressRank = true := by
  have hrank (hit : NamedPlaceHit) : ((Lookup.ofNamedPlace hit).source = .primary &&
      (Lookup.ofNamedPlace hit).addressRank.any p) = p hit.addressRank :=
    Bool.true_and _
  simp only [Lookup.idsByRank, hparents.entries, List.mem_map, List.mem_filter]
  constructor
  · rintro ⟨x, ⟨⟨hit, hhit, rfl⟩, hx⟩, rfl⟩
    exact ⟨hit, hhit, rfl, hrank hit ▸ hx⟩
  · rintro ⟨hit, hhit, rfl, hx⟩
    exact ⟨_, ⟨⟨hit, hhit, rfl⟩, (hrank hit).trans hx⟩, rfl⟩

theorem mem_streets_iff (hparents : q.IsParents parents) {id : Nat} :
    id ∈ Lookup.idsByRank (· ≤ 27) parents ↔ q.IsStreet id := by
  rw [mem_idsByRank_iff hparents]
  simp [IsStreet]

theorem mem_buildings_iff (hparents : q.IsParents parents) {id : Nat} :
    id ∈ Lookup.idsByRank (30 ≤ ·) parents ↔ q.IsBuilding id := by
  rw [mem_idsByRank_iff hparents]
  simp [IsBuilding]

theorem mem_houseNumbers_iff (ha : a.Represents q.gazetteer)
    (hparents : q.IsParents parents) {id : Nat} :
    id ∈ a.houseNumbers {
        houseNumber := q.houseNumber, streets := Lookup.idsByRank (· ≤ 27) parents
        places := Lookup.idsByRank (30 ≤ ·) parents, excluded := q.constraints.excluded } ↔
      ∃ p, q.HasNumber p ∧ p.id = id := by
  have hnumber (p : AtlasPlace) : p.hasHouseNumber q.houseNumber = true ↔
      ∃ number, p.record.houseNumber = some number ∧
        normalize number = normalize q.houseNumber := by
    simp [AtlasPlace.hasHouseNumber, Option.any_eq_true]
  rw [Atlas.mem_houseNumbers_iff]
  simp only [mem_streets_iff hparents, mem_buildings_iff hparents, hnumber]
  constructor
  · rintro ⟨p, hp, rfl, hexcluded, hbelongs, hnumber⟩
    refine ⟨p.record, ⟨ha.records.mem_iff.1 (List.mem_map_of_mem hp), hexcluded, hnumber, ?_⟩, rfl⟩
    exact hbelongs.imp_left fun ⟨street, hstreet, hparent⟩ => ⟨street, hparent, hstreet⟩
  · rintro ⟨record, ⟨hmem, hexcluded, hnumber, hbelongs⟩, rfl⟩
    obtain ⟨p, hp, rfl⟩ := List.mem_map.1 (ha.records.mem_iff.2 hmem)
    refine ⟨p, hp, rfl, hexcluded, ?_, hnumber⟩
    exact hbelongs.imp_left fun ⟨street, hparent, hstreet⟩ => ⟨street, hstreet, hparent⟩

/-- The set has the houses with the number. -/
def HasHouses (q : NumberSearch) (found : CandidateSet) : Prop :=
  ∀ x, x ∈ found.entries ↔ ∃ p, q.HasNumber p ∧ x = house p

theorem HasHouses.isEmpty_iff {found : CandidateSet} (h : q.HasHouses found) :
    found.isEmpty = true ↔ ∀ p, ¬ q.HasNumber p := by
  rw [CandidateSet.isEmpty_iff]
  constructor
  · exact fun hnone p hp => hnone _ ((h _).2 ⟨p, hp, rfl⟩)
  · intro hnone x hx
    obtain ⟨p, hp, -⟩ := (h x).1 hx
    exact hnone p hp

theorem hasHouses_ofList (ha : a.Represents q.gazetteer) (hparents : q.IsParents parents) :
    q.HasHouses (.ofList ((a.houseNumbers {
      houseNumber := q.houseNumber, streets := Lookup.idsByRank (· ≤ 27) parents
      places := Lookup.idsByRank (30 ≤ ·) parents, excluded := q.constraints.excluded }).map
        (Candidate.primary · (some 30)))) := by
  intro x
  rw [CandidateSet.mem_ofList_map_iff fun _ => rfl]
  constructor
  · rintro ⟨id, hid, rfl⟩
    obtain ⟨p, hp, rfl⟩ := (mem_houseNumbers_iff ha hparents).1 hid
    exact ⟨p, hp, rfl⟩
  · rintro ⟨p, hp, rfl⟩
    exact ⟨p.id, (mem_houseNumbers_iff ha hparents).2 ⟨p, hp, rfl⟩, rfl⟩

theorem not_isStreet (hparents : q.IsParents parents)
    (h : (Lookup.idsByRank (· ≤ 27) parents).isEmpty = true) {street : Nat} :
    ¬ q.IsStreet street := by
  rw [← mem_streets_iff hparents, List.isEmpty_iff.1 h]
  exact List.not_mem_nil

/-- Houses belong to streets or buildings. -/
theorem hasHouses_empty (hparents : q.IsParents parents)
    (h : ((Lookup.idsByRank (· ≤ 27) parents).isEmpty &&
      (Lookup.idsByRank (30 ≤ ·) parents).isEmpty) = true) : q.HasHouses ∅ := by
  obtain ⟨hstreets, hbuildings⟩ := Bool.and_eq_true_iff.1 h
  intro x
  refine ⟨nofun, ?_⟩
  rintro ⟨p, hp, -⟩
  rcases hp.belongs with ⟨street, -, hstreet⟩ | hbuilding
  · exact absurd hstreet (not_isStreet hparents hstreets)
  · rw [← mem_buildings_iff hparents, List.isEmpty_iff.1 hbuildings] at hbuilding
    exact absurd hbuilding List.not_mem_nil

/-! ## Address ranges -/

/-- The set has the houses with the number, or else the address ranges. -/
def HasNumbers (q : NumberSearch) (found : CandidateSet) : Prop :=
  ∀ x, x ∈ found.entries ↔
    (∃ p, q.HasNumber p ∧ x = house p) ∨ (∀ p, ¬ q.HasNumber p) ∧ q.IsRange x

/-- If no range has the number, the houses are all there is. -/
theorem HasHouses.hasNumbers {found : CandidateSet} (h : q.HasHouses found)
    (hnone : (∀ p, ¬ q.HasNumber p) → ∀ x, ¬ q.IsRange x) : q.HasNumbers found := by
  intro x
  rw [h]
  constructor
  · exact Or.inl
  · rintro (hp | ⟨hhouses, hx⟩)
    · exact hp
    · exact absurd hx (hnone hhouses x)

theorem mem_ranges_iff (ranges : List AddressRange) (hparents : q.IsParents parents)
    {source : Source} {number : Nat} {x : Candidate} :
    x ∈ (CandidateSet.ofList ((Atlas.rangesWith ranges {
        houseNumber := number, streets := Lookup.idsByRank (· ≤ 27) parents
        excluded := q.constraints.excluded }).map (ofRange source number))).entries ↔
      ∃ r ∈ ranges, q.Spans r number ∧ ofRange source number r.id = x := by
  rw [CandidateSet.mem_ofList_map_iff fun _ => rfl]
  simp only [Atlas.mem_rangesWith_iff, mem_streets_iff hparents, RangeQuery.accepts,
    Bool.and_eq_true, decide_eq_true_eq]
  constructor
  · rintro ⟨id, ⟨r, hr, rfl, hstreet, hexcluded, ⟨hadmits, hfirst⟩, hlast⟩, rfl⟩
    exact ⟨r, hr, ⟨hstreet, hexcluded, hadmits, hfirst, hlast⟩, rfl⟩
  · rintro ⟨r, hr, ⟨hstreet, hexcluded, hadmits, hfirst, hlast⟩, rfl⟩
    exact ⟨r.id, ⟨r, hr, rfl, hstreet, hexcluded, ⟨hadmits, hfirst⟩, hlast⟩, rfl⟩

/-- The set has the houses with the number, or else the lines. -/
def HasLines (q : NumberSearch) (number : Nat) (found : CandidateSet) : Prop :=
  ∀ x, x ∈ found.entries ↔ (∃ p, q.HasNumber p ∧ x = house p) ∨
    (∀ p, ¬ q.HasNumber p) ∧ ∃ r ∈ q.gazetteer.interpolations, q.Spans r number ∧
      ofRange .interpolation number r.id = x

theorem HasLines.isEmpty_iff {number : Nat} {found : CandidateSet} (h : q.HasLines number found) :
    found.isEmpty = true ↔
      (∀ p, ¬ q.HasNumber p) ∧ ∀ r ∈ q.gazetteer.interpolations, ¬ q.Spans r number := by
  rw [CandidateSet.isEmpty_iff]
  constructor
  · intro hnone
    have hhouses (p : PlaceRecord) (hp : q.HasNumber p) : False :=
      hnone _ ((h _).2 (Or.inl ⟨p, hp, rfl⟩))
    exact ⟨hhouses, fun r hr hspans => hnone _ ((h _).2 (Or.inr ⟨hhouses, r, hr, hspans, rfl⟩))⟩
  · rintro ⟨hhouses, hlines⟩ x hx
    rcases (h x).1 hx with ⟨p, hp, -⟩ | ⟨-, r, hr, hspans, -⟩
    · exact hhouses p hp
    · exact hlines r hr hspans

/-- Houses are not looked for on lines. -/
theorem HasHouses.hasLines {number : Nat} {found : CandidateSet} (h : q.HasHouses found)
    (hsome : ¬ found.isEmpty = true) : q.HasLines number found := by
  intro x
  rw [h]
  constructor
  · exact Or.inl
  · rintro (hp | ⟨hnone, -⟩)
    · exact hp
    · exact absurd (h.isEmpty_iff.2 hnone) hsome

theorem isRange_iff {number : Nat} (hnumber : Lookup.leadingNumber? q.houseNumber = some number)
    {x : Candidate} : q.IsRange x ↔
      (∃ r ∈ q.gazetteer.interpolations, q.Spans r number ∧
        ofRange .interpolation number r.id = x) ∨
      (∀ r ∈ q.gazetteer.interpolations, ¬ q.Spans r number) ∧
        Lookup.parcelsEnabled q.constraints q.scope q.interpretation = true ∧
        ∃ r ∈ q.gazetteer.parcels, q.Spans r number ∧ ofRange .parcel number r.id = x := by
  constructor
  · intro h
    cases h with
    | interpolation hnumber' hr hspans =>
      obtain rfl := Option.some.inj (hnumber'.symm.trans hnumber)
      exact Or.inl ⟨_, hr, hspans, rfl⟩
    | parcel hnumber' hlines henabled hr hspans =>
      obtain rfl := Option.some.inj (hnumber'.symm.trans hnumber)
      exact Or.inr ⟨hlines, henabled, _, hr, hspans, rfl⟩
  · rintro (⟨r, hr, hspans, rfl⟩ | ⟨hlines, henabled, r, hr, hspans, rfl⟩)
    · exact .interpolation hnumber hr hspans
    · exact .parcel hnumber hlines henabled hr hspans

theorem gives_ranges (ha : Atlas.ofGazetteer q.gazetteer = .ok a)
    (hparents : q.IsParents parents) {number : Nat}
    (hnumber : Lookup.leadingNumber? q.houseNumber = some number) {found : CandidateSet}
    (hfound : q.HasHouses found) :
    Gives (Lookup.ranges (a.placeIndex : PlaceIndex Id) q.constraints q.scope q.interpretation
      number (Lookup.idsByRank (· ≤ 27) parents) found) q.HasNumbers := by
  obtain ⟨-, -, -, hinterpolations, hparcels⟩ := Atlas.parts_of_build ha
  have hrest {found : CandidateSet} (hfound : q.HasLines number found) :
      Gives (if found.isEmpty &&
          Lookup.parcelsEnabled q.constraints q.scope q.interpretation then do
          let ids ← (a.placeIndex : PlaceIndex Id).parcels {
            houseNumber := number, streets := Lookup.idsByRank (· ≤ 27) parents
            excluded := q.constraints.excluded }
          return found.extend (ids.map fun id =>
            { source := .parcel, id, houseNumber := some number })
        else return found) q.HasNumbers := by
    refine gives_ite (fun hcond => ?_) fun hcond => gives_pure fun x => ?_
    · obtain ⟨hempty, henabled⟩ := Bool.and_eq_true_iff.1 hcond
      obtain ⟨hhouses, hlines⟩ := hfound.isEmpty_iff.1 hempty
      obtain rfl := CandidateSet.eq_empty_of_isEmpty hempty
      refine ⟨_, rfl, fun x => ?_⟩
      refine (mem_ranges_iff a.parcels hparents).trans ?_
      rw [isRange_iff hnumber, hparcels]
      constructor
      · exact fun h => Or.inr ⟨hhouses, Or.inr ⟨hlines, henabled, h⟩⟩
      · rintro (⟨p, hp, -⟩ | ⟨-, ⟨r, hr, hspans, -⟩ | ⟨-, -, h⟩⟩)
        · exact absurd hp (hhouses p)
        · exact absurd hspans (hlines r hr)
        · exact h
    · rw [hfound, isRange_iff hnumber]
      constructor
      · exact Or.imp_right fun ⟨hhouses, hline⟩ => ⟨hhouses, Or.inl hline⟩
      · rintro (hp | ⟨hhouses, hline | ⟨hlines, henabled, -⟩⟩)
        · exact Or.inl hp
        · exact Or.inr ⟨hhouses, hline⟩
        · have hempty := hfound.isEmpty_iff.2 ⟨hhouses, hlines⟩
          exact absurd (Bool.and_eq_true_iff.2 ⟨hempty, henabled⟩) hcond
  unfold Lookup.ranges
  refine gives_ite (fun hempty => ?_) fun hsome => hrest (hfound.hasLines hsome)
  have hhouses := hfound.isEmpty_iff.1 hempty
  obtain rfl := CandidateSet.eq_empty_of_isEmpty hempty
  refine Gives.bind ⟨_, rfl, rfl⟩ fun ids hids => hrest fun x => ?_
  obtain rfl := hids
  refine (mem_ranges_iff a.interpolations hparents).trans ?_
  rw [hinterpolations]
  constructor
  · exact fun h => Or.inr ⟨hhouses, h⟩
  · rintro (⟨p, hp, -⟩ | ⟨-, h⟩)
    · exact absurd hp (hhouses p)
    · exact h

/-! ## Parents -/

theorem withoutNumber?_ofNamedPlace (hit : NamedPlaceHit) :
    Lookup.withoutNumber? (Lookup.ofNamedPlace hit) =
      if hit.addressRank < 28 then some (substitute hit) else none := by
  simp [Lookup.withoutNumber?, Lookup.ofNamedPlace, Candidate.primary, substitute]

theorem mem_substitutes_iff (hparents : q.IsParents parents)
    {x : Candidate} :
    x ∈ parents.entries.filterMap Lookup.withoutNumber? ↔
      ∃ hit ∈ q.hits, hit.addressRank < 28 ∧ substitute hit = x := by
  simp only [hparents.entries, List.mem_filterMap, List.mem_map, exists_exists_and_eq_and,
    withoutNumber?_ofNamedPlace, Option.ite_none_right_eq_some, Option.some.injEq]

theorem nodup_map_key_substitutes (parents : CandidateSet) :
    ((parents.entries.filterMap Lookup.withoutNumber?).map (·.key)).Nodup := by
  refine List.pairwise_map.2 ?_
  refine (List.pairwise_map.1 parents.distinct).filterMap _ fun x y hxy x' hx' y' hy' => ?_
  rw [Lookup.key_of_withoutNumber? hx', Lookup.key_of_withoutNumber? hy']
  exact hxy

theorem IsRange.exists_street {x : Candidate} (h : q.IsRange x) : ∃ street, q.IsStreet street := by
  cases h with
  | interpolation _ _ hspans => exact ⟨_, hspans.onStreet⟩
  | parcel _ _ _ _ hspans => exact ⟨_, hspans.onStreet⟩

theorem IsRange.exists_number {x : Candidate} (h : q.IsRange x) :
    ∃ number, Lookup.leadingNumber? q.houseNumber = some number := by
  cases h with
  | interpolation hnumber => exact ⟨_, hnumber⟩
  | parcel hnumber => exact ⟨_, hnumber⟩

theorem IsRange.source_ne_primary {x : Candidate} (h : q.IsRange x) : x.source ≠ .primary := by
  cases h with
  | interpolation => exact nofun
  | parcel => exact nofun

/-- A parent takes the place of a house, but not of an address range. -/
theorem mem_foldl_replace_substitutes_iff
    (hparents : q.IsParents parents) {found : CandidateSet}
    (hfound : q.HasNumbers found) {x : Candidate} :
    x ∈ ((parents.entries.filterMap Lookup.withoutNumber?).foldl CandidateSet.replace
      found).entries ↔ q.IsAnswer x := by
  have hkeys {key : Source × Nat} :
      key ∈ (parents.entries.filterMap Lookup.withoutNumber?).map (·.key) ↔
        ∃ hit ∈ q.hits, hit.addressRank < 28 ∧ (Source.primary, hit.id) = key := by
    rw [List.mem_map]
    constructor
    · rintro ⟨x, hx, rfl⟩
      obtain ⟨hit, hhit, hrank, rfl⟩ := (mem_substitutes_iff hparents).1 hx
      exact ⟨hit, hhit, hrank, rfl⟩
    · rintro ⟨hit, hhit, hrank, rfl⟩
      exact ⟨_, (mem_substitutes_iff hparents).2 ⟨hit, hhit, hrank, rfl⟩, rfl⟩
  rw [CandidateSet.mem_foldl_replace_iff (nodup_map_key_substitutes parents),
    mem_substitutes_iff hparents, hfound, hkeys]
  constructor
  · rintro (⟨hit, hhit, hrank, rfl⟩ | ⟨⟨p, hp, rfl⟩ | ⟨hnone, hx⟩, hplain⟩)
    · exact .parent hhit hrank
    · refine .house hp fun hit hhit hid => Nat.le_of_not_lt fun hrank => hplain ?_
      exact ⟨hit, hhit, hrank, by rw [hid]; rfl⟩
    · exact .range hnone hx
  · intro h
    cases h with
    | house hp hhit =>
      refine Or.inr ⟨Or.inl ⟨_, hp, rfl⟩, ?_⟩
      rintro ⟨hit, hmem, hrank, hkey⟩
      exact absurd (hhit hit hmem (congrArg Prod.snd hkey)) (by omega)
    | range hnone hx =>
      refine Or.inr ⟨Or.inr ⟨hnone, hx⟩, ?_⟩
      rintro ⟨hit, -, -, hkey⟩
      exact hx.source_ne_primary (congrArg Prod.fst hkey).symm
    | parent hhit hrank => exact Or.inl ⟨_, hhit, hrank, rfl⟩

/-- What is found among the parents: houses or ranges, and the parents themselves. -/
theorem gives_addresses (ha : Atlas.ofGazetteer q.gazetteer = .ok a)
    (hparents : q.IsParents parents) :
    Gives (Lookup.addresses (a.placeIndex : PlaceIndex Id) q.constraints q.scope q.interpretation
      q.houseNumber parents) fun found => ∀ x, x ∈ found.entries ↔ q.IsAnswer x := by
  have hkept (found : CandidateSet) (hfound : q.HasNumbers found) :
      Gives (pure ((parents.entries.filterMap Lookup.withoutNumber?).foldl CandidateSet.replace
        found) : IndexM Id CandidateSet) fun found => ∀ x, x ∈ found.entries ↔ q.IsAnswer x :=
    gives_pure fun _ => mem_foldl_replace_substitutes_iff hparents hfound
  unfold Lookup.addresses
  refine gives_ite_bind (P := q.HasHouses)
    (fun hempty => gives_pure (hasHouses_empty hparents hempty))
    (fun _ => ⟨_, rfl, hasHouses_ofList (Atlas.represents_of_ofGazetteer ha) hparents⟩)
    fun found hfound => ?_
  cases hnumber : Lookup.leadingNumber? q.houseNumber with
  | none =>
    refine (gives_pure (hfound.hasNumbers fun _ x hx => ?_)).bind hkept
    obtain ⟨number, hsome⟩ := hx.exists_number
    rw [hnumber] at hsome
    cases hsome
  | some number =>
    refine gives_ite
      (fun hempty => (gives_pure (hfound.hasNumbers fun _ x hx => ?_)).bind hkept)
      fun _ => (gives_ranges ha hparents hnumber hfound).bind hkept
    obtain ⟨street, hstreet⟩ := hx.exists_street
    exact absurd hstreet (not_isStreet hparents hempty)

end

end NumberSearch

end Geocoding
