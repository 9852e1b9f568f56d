import Geocoding.Proofs.Atlas
import Geocoding.Proofs.ContainingArea
import Geocoding.Proofs.Interpolated

/-!
# What a reverse lookup finds

Whatever steps a reverse lookup takes, it finds records of the gazetteer (`Locator.locate_locates`):
an index that is an atlas gives nothing else (`Atlas.givesRecords`). The country is the last resort.
Where the index knows a country with a place (`ReverseIndex.KnowsCountry`), something is always
found.
-/

namespace Geocoding

/-- The gazetteer has a place of the id and the address rank. -/
def Gazetteer.HasPlace (g : Gazetteer) (id addressRank : Nat) : Prop :=
  ∃ p ∈ g.places, p.id = id ∧ p.addressRank = addressRank

/-- The candidate is a record of its source, and has the address rank of the place if it is one.
Postcodes are no candidates for points. -/
def Candidate.RefersTo (g : Gazetteer) (c : Candidate) : Prop :=
  match c.source with
  | .primary => ∃ rank, c.addressRank = some rank ∧ g.HasPlace c.id rank
  | .interpolation => ∃ r ∈ g.interpolations, r.id = c.id
  | .parcel => ∃ r ∈ g.parcels, r.id = c.id
  | .postcode => False

/-- The index answers queries for points, with nothing but records of the gazetteer. -/
structure ReverseIndex.GivesRecords (index : ReverseIndex Id) (g : Gazetteer) : Prop where
  nearestFeature : ∀ point maxRank radius, Gives (index.nearestFeature point maxRank radius)
    fun hit => ∀ x ∈ hit, g.HasPlace x.id x.addressRank
  nearestChild : ∀ parent point radius, Gives (index.nearestChild parent point radius)
    fun hit => ∀ x ∈ hit, g.HasPlace x.id x.addressRank
  nearestParcel : ∀ parent point radius, Gives (index.nearestParcel parent point radius)
    fun hit => ∀ x ∈ hit, ∃ r ∈ g.parcels, r.id = x.id
  nearestInterpolation : ∀ point radius, Gives (index.nearestInterpolation point radius)
    fun hit => ∀ x ∈ hit, ∃ r ∈ g.interpolations, r.id = x.id
  areasAround : ∀ point minRank maxRank limit, Gives (index.areasAround point minRank maxRank limit)
    fun areas => ∀ x ∈ areas, g.HasPlace x.id x.addressRank
  placeNodes : ∀ query, Gives (index.placeNodes query)
    fun nodes => ∀ x ∈ nodes, g.HasPlace x.id x.addressRank
  countryAt : ∀ point, Geocoding.Answers (index.countryAt point)
  countryPlaceNear : ∀ code point, Gives (index.countryPlaceNear code point)
    fun found => ∀ id ∈ found, g.HasPlace id 4

/-- The index knows a country that the point is in, and a place that is that country. -/
def ReverseIndex.KnowsCountry (index : ReverseIndex Id) (point : Point Float) : Prop :=
  ∃ code id, index.countryAt point = pure (some code) ∧
    index.countryPlaceNear code point = pure (some id)

namespace Locator

/-! ## Areas and countries -/

/-- What is found, if anything, is a record of the gazetteer. -/
def FindsRecord (g : Gazetteer) (found : Option Candidate) : Prop :=
  ∀ c ∈ found, c.RefersTo g

/-- Besides, something is found where a country is known. -/
structure Locates (l : Locator Id) (g : Gazetteer) (point : Point Float)
    (found : Option Candidate) : Prop where
  record : FindsRecord g found
  isSome : l.index.KnowsCountry point → found.isSome = true

variable {g : Gazetteer} {l : Locator Id} {point : Point Float} {maxRank : Nat}

theorem findsRecord_none : FindsRecord g none :=
  nofun

theorem findsRecord_some {c : Candidate} (h : c.RefersTo g) : FindsRecord g (some c) := by
  intro c' hc
  obtain rfl := Option.some.inj hc
  exact h

theorem findsRecord_primary {id rank : Nat} (h : g.HasPlace id rank) :
    FindsRecord g (some (.primary id (some rank))) :=
  findsRecord_some ⟨rank, rfl, h⟩

/-- The best of some nodes that reach the point is a record if all of them are. -/
theorem findsRecord_best? {replaces : PlaceNode × Float → PlaceNode × Float → Bool}
    {nodes : List PlaceNode} (h : ∀ x ∈ nodes, g.HasPlace x.id x.addressRank) :
    FindsRecord g ((best? replaces (nodes.filterMap (reaching? point))).map ofNode) := by
  cases hbest : best? replaces (nodes.filterMap (reaching? point)) with
  | none => exact findsRecord_none
  | some node =>
    obtain ⟨n, hn, hreaches⟩ := List.mem_filterMap.1 (mem_of_best?_eq_some hbest)
    obtain ⟨-, rfl⟩ := reaching?_eq_some_iff.1 hreaches
    exact findsRecord_primary (h n hn)

section

variable (h : l.index.GivesRecords g)

include h

theorem nodeInArea_findsRecord (area : AreaHit) :
    Gives (l.nodeInArea point maxRank area) (FindsRecord g) := by
  unfold nodeInArea
  refine gives_ite (fun _ => ?_) (fun _ => gives_pure findsRecord_none)
  refine (h.placeNodes _).bind fun nodes hnodes => gives_pure (findsRecord_best? fun x hx => ?_)
  exact hnodes x (List.mem_filter.1 hx).1

theorem containingArea_findsRecord : Gives (l.containingArea point maxRank) (FindsRecord g) := by
  unfold containingArea
  refine (h.areasAround _ _ _ _).bind fun areas hareas => ?_
  cases hfirst : (byDetail areas).find? (·.area.contains point) with
  | none => exact gives_pure findsRecord_none
  | some area =>
    have harea := hareas area (List.mem_mergeSort.1 (List.mem_of_find?_eq_some hfirst))
    refine (nodeInArea_findsRecord h area).bind fun node hnode => ?_
    cases node with
    | none => exact gives_pure (findsRecord_primary harea)
    | some node => exact gives_pure hnode

theorem nodeInCountry_findsRecord (code : String) :
    Gives (l.nodeInCountry point maxRank code) (FindsRecord g) := by
  unfold nodeInCountry
  refine gives_ite (fun _ => ?_) (fun _ => gives_pure findsRecord_none)
  exact (h.placeNodes _).bind fun nodes hnodes => gives_pure (findsRecord_best? hnodes)

/-- If the country and its place are known, at least that place is found. -/
theorem inCountry_locates : Gives (l.inCountry point maxRank) (l.Locates g point) := by
  unfold inCountry
  refine (h.countryAt point).gives.bind fun country hcountry => ?_
  cases country with
  | none =>
    refine gives_pure ⟨findsRecord_none, fun ⟨code, id, hcode, _⟩ => ?_⟩
    exact nomatch hcountry.symm.trans hcode
  | some code =>
    refine (nodeInCountry_findsRecord h code).bind fun node hnode => ?_
    cases node with
    | some node => exact gives_pure ⟨hnode, fun _ => rfl⟩
    | none =>
      obtain ⟨place, hplace, hrecord⟩ := h.countryPlaceNear code point
      rw [hplace, pure_bind]
      refine gives_pure ⟨?_, fun ⟨code', id, hcode, hid⟩ => ?_⟩
      · cases place with
        | none => exact findsRecord_none
        | some id => exact findsRecord_primary (hrecord id rfl)
      · obtain rfl : code = code' := Option.some.inj (Except.ok.inj (hcountry.symm.trans hcode))
        obtain rfl : place = some id := Except.ok.inj (hplace.symm.trans hid)
        rfl

theorem largeArea_locates : Gives (l.largeArea point maxRank) (l.Locates g point) := by
  unfold largeArea
  refine gives_ite (fun _ => ?_) (fun _ => inCountry_locates h)
  refine (containingArea_findsRecord h).bind fun area harea => ?_
  cases area with
  | some found => exact gives_pure ⟨harea, fun _ => rfl⟩
  | none => exact inCountry_locates h

/-! ## Streets and houses -/

theorem refineByChild_findsRecord {hit : FeatureHit} (hhit : g.HasPlace hit.id hit.addressRank) :
    Gives (l.refineByChild point maxRank hit) fun found => found.candidate.RefersTo g := by
  have hfeature : (Found.ofFeature hit).candidate.RefersTo g := ⟨_, rfl, hhit⟩
  unfold refineByChild
  refine gives_ite (fun _ => ?_) (fun _ => gives_pure hfeature)
  refine (h.nearestChild _ _ _).bind fun child hchild => ?_
  cases child with
  | none => exact gives_pure hfeature
  | some child => exact gives_pure ⟨_, rfl, hchild child rfl⟩

theorem refine_findsRecord {hit : FeatureHit} (hhit : g.HasPlace hit.id hit.addressRank) :
    Gives (l.refine point maxRank hit) fun found => found.candidate.RefersTo g := by
  unfold refine
  refine (refineByChild_findsRecord h hhit).bind fun found hfound => ?_
  refine gives_ite (fun _ => ?_) (fun _ => gives_pure hfound)
  refine (h.nearestParcel _ _ _).bind fun parcel hparcel => ?_
  cases parcel with
  | none => exact gives_pure hfound
  | some parcel => exact gives_pure (hparcel parcel rfl)

/-- A line takes the place of whatever was found before. -/
theorem line_findsRecord {found : Option Found} (hfound : FindsRecord g (found.map (·.candidate)))
    {allowed : Bool} {rest : Option RangeHit → IndexM Id (Option Candidate)}
    (hnone : rest none = pure (found.map (·.candidate)))
    (hsome : ∀ line, rest (some line) = pure (some (Found.ofRange .interpolation line).candidate)) :
    Gives (if allowed then l.index.nearestInterpolation point (lineRadius found) >>= rest
      else pure (found.map (·.candidate))) (FindsRecord g) := by
  refine gives_ite (fun _ => ?_) (fun _ => gives_pure hfound)
  refine (h.nearestInterpolation _ _).bind fun line hline => ?_
  cases line with
  | none =>
    rw [hnone]
    exact gives_pure hfound
  | some line =>
    rw [hsome]
    exact gives_pure (findsRecord_some (hline line rfl))

theorem streetLevel_findsRecord (interpolation : Bool) :
    Gives (l.streetLevel point maxRank interpolation) (FindsRecord g) := by
  unfold streetLevel
  refine (h.nearestFeature _ _ _).bind fun hit hhit => ?_
  cases hit with
  | none => exact line_findsRecord h findsRecord_none rfl fun _ => rfl
  | some hit =>
    obtain ⟨found, hrefine, hfound⟩ := refine_findsRecord h (hhit hit rfl)
    dsimp only
    rw [hrefine]
    have hrecord : FindsRecord g ((some found).map (·.candidate)) := findsRecord_some hfound
    exact line_findsRecord h hrecord rfl fun _ => rfl

/-- Whatever is found is a record of the gazetteer, and something is found where the country and its
place are known. -/
theorem locate_locates (point : Point Float) (config : ReverseConfig) :
    Gives (l.locate point config) (l.Locates g point) := by
  unfold locate
  refine gives_ite (fun _ => ?_) (fun _ => largeArea_locates h)
  refine (streetLevel_findsRecord h _).bind fun found hfound => ?_
  cases found with
  | some found => exact gives_pure ⟨hfound, fun _ => rfl⟩
  | none => exact largeArea_locates h

end

end Locator

/-! ## What an atlas gives -/

namespace Atlas

variable {g : Gazetteer} {a : Atlas} {point : Point Float}

theorem exists_of_closestFeature {radius : Float} {places : List AtlasPlace} {hit : FeatureHit}
    (h : closestFeature point radius places = some hit) :
    ∃ p ∈ places, p.id = hit.id ∧ p.record.addressRank = hit.addressRank := by
  obtain ⟨⟨p, d⟩, hbest, rfl⟩ := Option.map_eq_some_iff.1 h
  obtain ⟨hmem, -⟩ := List.mem_filter.1 (mem_of_best?_eq_some hbest)
  obtain ⟨q, hq, heq⟩ := List.mem_map.1 hmem
  obtain rfl : q = p := congrArg Prod.fst heq
  exact ⟨q, hq, rfl, rfl⟩

theorem exists_of_mem_areasAround {minRank maxRank limit : Nat} {hit : AreaHit}
    (h : hit ∈ a.areasAround point minRank maxRank limit) :
    ∃ p ∈ a.places, p.id = hit.id ∧ p.record.addressRank = hit.addressRank := by
  obtain ⟨p, hp, hhit⟩ := List.mem_filterMap.1 (List.mem_mergeSort.1 (List.mem_of_mem_take h))
  obtain ⟨hof, -⟩ := areaHit?_eq_some_iff.1 hhit
  exact ⟨p, (List.mem_filter.1 hp).1, hof.id.symm, hof.addressRank.symm⟩

theorem exists_of_countryPlaceNear {code : String} {id : Nat}
    (h : a.countryPlaceNear code point = some id) :
    ∃ p ∈ a.places, p.id = id ∧ p.record.addressRank = 4 := by
  obtain ⟨p, hbest, rfl⟩ := Option.map_eq_some_iff.1 h
  obtain ⟨hmem, hfits⟩ := List.mem_filter.1 (mem_of_best?_eq_some hbest)
  rw [Bool.and_eq_true, decide_eq_true_eq] at hfits
  exact ⟨p, hmem, rfl, hfits.1⟩

theorem givesRecords (h : ofGazetteer g = .ok a) :
    (a.reverseIndex : ReverseIndex Id).GivesRecords g := by
  obtain ⟨-, -, -, hinterpolations, hparcels⟩ := parts_of_build h
  have hplace {p : AtlasPlace} {id rank : Nat} (hp : p ∈ a.places) (hid : p.id = id)
      (hrank : p.record.addressRank = rank) : g.HasPlace id rank :=
    ⟨p.record, (represents_of_ofGazetteer h).records.mem_iff.1 (List.mem_map_of_mem hp), hid, hrank⟩
  have hfeature {radius : Float} {fits : AtlasPlace → Bool} {point : Point Float} :
      ∀ x ∈ closestFeature point radius (a.places.filter fits), g.HasPlace x.id x.addressRank := by
    intro x hx
    obtain ⟨p, hp, hid, hrank⟩ := exists_of_closestFeature hx
    exact hplace (List.mem_filter.1 hp).1 hid hrank
  exact {
    nearestFeature := fun _ _ _ => gives_pure hfeature
    nearestChild := fun _ _ _ => gives_pure hfeature
    nearestParcel := fun _ _ _ => gives_pure fun x hx => by
      obtain ⟨r, hr, hon⟩ := exists_of_closestRange hx
      exact ⟨r, hparcels ▸ (List.mem_filter.1 hr).1, hon.id.symm⟩
    nearestInterpolation := fun _ _ => gives_pure fun x hx => by
      obtain ⟨r, hr, hon⟩ := exists_of_closestRange hx
      exact ⟨r, hinterpolations ▸ hr, hon.id.symm⟩
    areasAround := fun _ _ _ _ => gives_pure fun x hx => by
      obtain ⟨p, hp, hid, hrank⟩ := exists_of_mem_areasAround hx
      exact hplace hp hid hrank
    placeNodes := fun _ => gives_pure fun x hx => by
      obtain ⟨p, hp, rfl⟩ := List.mem_map.1 hx
      exact hplace (List.mem_filter.1 hp).1 rfl rfl
    countryAt := fun _ => answers_pure _
    countryPlaceNear := fun _ _ => gives_pure fun x hx => by
      obtain ⟨p, hp, hid, hrank⟩ := exists_of_countryPlaceNear hx
      exact hplace hp hid hrank }

/-- Where a country contains the point, the code and the place of some country are known, if
countries with an area have codes. -/
theorem knowsCountry (h : a.Represents g)
    (hcodes : ∀ p ∈ g.places, p.addressRank = 4 → p.area.isSome = true → p.country.isSome = true)
    (hinside : ∃ p ∈ g.places, p.addressRank = 4 ∧ p.area.any (·.contains point) = true) :
    (a.reverseIndex : ReverseIndex Id).KnowsCountry point := by
  obtain ⟨p, hp, hrank, harea⟩ := hinside
  obtain ⟨p, hmem, rfl⟩ := List.mem_map.1 (h.records.mem_iff.2 hp)
  -- the first country that contains the point may be another one
  have hfound : (a.places.find? fun p =>
      p.record.addressRank = 4 && p.record.area.any (·.contains point)).isSome = true :=
    List.find?_isSome.2 ⟨p, hmem, by simp [hrank, harea]⟩
  obtain ⟨q, hq⟩ := Option.isSome_iff_exists.1 hfound
  have hmem := List.mem_of_find?_eq_some hq
  have hfits := List.find?_some hq
  simp only [Bool.and_eq_true, decide_eq_true_eq, Option.any_eq_true] at hfits
  obtain ⟨hrank, area, harea, -⟩ := hfits
  have hcode : q.record.country.isSome = true :=
    hcodes q.record (h.records.mem_iff.1 (List.mem_map_of_mem hmem)) hrank (by rw [harea]; rfl)
  obtain ⟨code, hcode⟩ := Option.isSome_iff_exists.1 hcode
  have hat : a.countryAt point = some code := by rw [countryAt, hq, Option.bind_some, hcode]
  have hnear : a.countryPlaceNear code point ≠ none := by
    rw [countryPlaceNear, ne_eq, Option.map_eq_none_iff, best?_eq_none_iff, List.filter_eq_nil_iff]
    exact fun hnone => hnone q hmem (by simp [hrank, hcode])
  obtain ⟨id, hid⟩ := Option.ne_none_iff_exists'.1 hnear
  exact ⟨code, id, congrArg pure hat, congrArg pure hid⟩

end Atlas

/-! ## Lookups by a geocoder -/

/-- A reverse lookup in a gazetteer finds a record of it or nothing, and it finds something in every
country if countries with an area have codes. -/
theorem Geocoder.reverse_finds_record {g : Gazetteer} {config : Config} {geocoder : Geocoder Id}
    (h : ofGazetteer g config = .ok geocoder) (point : Point Float) (detail : ReverseConfig) :
    ∃ found, geocoder.reverse point detail = pure found ∧
      (∀ c, found = some c → c.RefersTo g) ∧
      ((∀ p ∈ g.places, p.addressRank = 4 → p.area.isSome = true → p.country.isSome = true) →
        (∃ p ∈ g.places, p.addressRank = 4 ∧ p.area.any (·.contains point) = true) →
        found.isSome = true) := by
  obtain ⟨a, ha, rfl⟩ := exists_atlas_of_ofGazetteer h
  let l : Locator Id := { index := a.reverseIndex, parcelCountries := config.parcelCountries }
  obtain ⟨found, hfound, hrecord, hsome⟩ :=
    Locator.locate_locates (l := l) (Atlas.givesRecords ha) point detail
  refine ⟨found, ?_, fun c hc => hrecord c hc, fun hcodes hinside => ?_⟩
  · exact congrArg (fun x => x.adapt GeocoderError.index) hfound
  · exact hsome (Atlas.knowsCountry (Atlas.represents_of_ofGazetteer ha) hcodes hinside)

/-- A country. -/
def lesotho : PlaceRecord where
  id := 7
  names := ["Lesotho"]
  placeType := ⟨"boundary", "administrative"⟩
  addressRank := 4
  ownSearchRank := none
  country := some "ls"
  parent := none
  postcode := none
  houseNumber := none
  location := ⟨-29.5, 28.2⟩
  line := none
  area := some (.ofRing [⟨-30.7, 27⟩, ⟨-30.7, 29.5⟩, ⟨-28.6, 29.5⟩, ⟨-28.6, 27⟩])
  importance := 0

/-- Something is found in the mountains of the country. -/
theorem Geocoder.lesotho_found :
    ∃ geocoder c, ofGazetteer { places := [lesotho] } {} = .ok geocoder ∧
      geocoder.reverse ⟨-29, 29⟩ { zoom := some 18 } = pure (some c) ∧
      c.RefersTo { places := [lesotho] } := by
  have hsorted : Atlas.byId [lesotho] = [lesotho] := List.mergeSort_of_pairwise (by simp)
  obtain ⟨geocoder, hg⟩ : ∃ geocoder, ofGazetteer { places := [lesotho] } {} = .ok geocoder := by
    rw [ofGazetteer, Atlas.ofGazetteer, Atlas.build, hsorted]
    exact ⟨_, rfl⟩
  obtain ⟨found, hfound, hrecord, hsome⟩ := reverse_finds_record hg ⟨-29, 29⟩ { zoom := some 18 }
  have hinside : lesotho.area.any (·.contains ⟨-29, 29⟩) = true := by decide +kernel
  have hisSome := hsome (fun p hp _ _ => List.eq_of_mem_singleton hp ▸ rfl)
    ⟨lesotho, List.mem_singleton_self _, rfl, hinside⟩
  obtain ⟨c, rfl⟩ := Option.isSome_iff_exists.1 hisSome
  exact ⟨geocoder, c, hg, hfound, hrecord c rfl⟩

end Geocoding
