import Geocoding.Proofs.Answering
import Geocoding.Proofs.Fallback

/-!
# House numbers computed for points

A reverse lookup computes house numbers in two places: for the interpolation lines around a point
and for the parcels along the closest street. Switching interpolation off only takes the lines away
(`Locator.locate_computes_parcels_only`): the answer is then the address of a parcel whenever there
is one on the street (`Locator.FindsParcel`), and has no computed house number otherwise. The same
holds of searches for nothing but coordinates, which never allow interpolation.
-/

namespace Geocoding

/-- The house number is computed, or the place is one of those whose house numbers are. -/
def Candidate.isComputed (c : Candidate) : Bool :=
  c.source.isInterpolated || c.houseNumber.isSome

/-- The index answers the queries that reverse lookups make. -/
structure ReverseIndex.Answers (index : ReverseIndex Id) : Prop where
  nearestFeature : ∀ point maxRank radius,
    Geocoding.Answers (index.nearestFeature point maxRank radius)
  nearestChild : ∀ parent point radius, Geocoding.Answers (index.nearestChild parent point radius)
  nearestParcel : ∀ parent point radius,
    Geocoding.Answers (index.nearestParcel parent point radius)
  nearestInterpolation : ∀ point radius,
    Geocoding.Answers (index.nearestInterpolation point radius)
  areasAround : ∀ point minRank maxRank limit,
    Geocoding.Answers (index.areasAround point minRank maxRank limit)
  placeNodes : ∀ query, Geocoding.Answers (index.placeNodes query)
  countryAt : ∀ point, Geocoding.Answers (index.countryAt point)
  countryPlaceNear : ∀ code point, Geocoding.Answers (index.countryPlaceNear code point)

namespace Locator

variable (l : Locator Id) (point : Point Float) (maxRank : Nat)

/-! ## Areas and countries -/

/-- None of the places found has a computed house number. -/
def NotComputed (found : Option Candidate) : Prop :=
  ∀ c, found = some c → c.isComputed = false

theorem notComputed_none : NotComputed none :=
  fun _ h => nomatch h

theorem notComputed_primary (id : Nat) (addressRank : Option Nat) :
    NotComputed (some (.primary id addressRank)) := by
  intro c h
  rw [← Option.some.inj h]
  rfl

theorem notComputed_ofNode (node : Option (PlaceNode × Float)) :
    NotComputed (node.map ofNode) := by
  cases node with
  | none => exact notComputed_none
  | some node => exact notComputed_primary _ _

variable {l} (h : l.index.Answers)

include h

theorem gives_nodeInArea (area : AreaHit) :
    Gives (l.nodeInArea point maxRank area) NotComputed := by
  unfold nodeInArea
  refine gives_ite (fun _ => ?_) (fun _ => gives_pure notComputed_none)
  exact (h.placeNodes _).gives.bind fun _ _ => gives_pure (notComputed_ofNode _)

theorem gives_containingArea : Gives (l.containingArea point maxRank) NotComputed := by
  unfold containingArea
  refine (h.areasAround _ _ _ _).gives.bind fun areas _ => ?_
  cases (byDetail areas).find? (·.area.contains point) with
  | none => exact gives_pure notComputed_none
  | some area =>
    refine (gives_nodeInArea point _ h area).bind fun node hnode => ?_
    cases node with
    | none => exact gives_pure (notComputed_primary _ _)
    | some node => exact gives_pure hnode

theorem gives_nodeInCountry (code : String) :
    Gives (l.nodeInCountry point maxRank code) NotComputed := by
  unfold nodeInCountry
  refine gives_ite (fun _ => ?_) (fun _ => gives_pure notComputed_none)
  exact (h.placeNodes _).gives.bind fun _ _ => gives_pure (notComputed_ofNode _)

theorem gives_inCountry : Gives (l.inCountry point maxRank) NotComputed := by
  unfold inCountry
  refine (h.countryAt _).gives.bind fun code _ => ?_
  cases code with
  | none => exact gives_pure notComputed_none
  | some code =>
    refine (gives_nodeInCountry point maxRank h code).bind fun node hnode => ?_
    cases node with
    | some node => exact gives_pure hnode
    | none =>
      refine (h.countryPlaceNear _ _).gives.bind fun place _ => ?_
      cases place with
      | none => exact gives_pure notComputed_none
      | some id => exact gives_pure (notComputed_primary _ _)

theorem gives_largeArea : Gives (l.largeArea point maxRank) NotComputed := by
  unfold largeArea
  refine gives_ite (fun _ => ?_) (fun _ => gives_inCountry point maxRank h)
  refine (gives_containingArea point maxRank h).bind fun area harea => ?_
  cases area with
  | some found => exact gives_pure harea
  | none => exact gives_inCountry point maxRank h

/-! ## Streets and parcels -/

omit h

variable (l)

/-- The street has a parcel close to the point: its country has parcel addresses, houses are asked
for, and no place that belongs to the street is as close. -/
structure FindsParcel (street : FeatureHit) (parcel : RangeHit) : Prop where
  isStreet : street.addressRank ≤ 27
  detail : 28 ≤ maxRank
  country : street.country.any l.parcelCountries.contains = true
  childless : l.index.nearestChild street.id point childRadius = pure none
  closest : l.index.nearestParcel street.id point childRadius = pure (some parcel)

/-- The street closest to the point has a parcel close to the point. -/
def HasParcel (parcel : RangeHit) : Prop :=
  ∃ street, l.index.nearestFeature point maxRank featureRadius = pure (some street) ∧
    l.FindsParcel point maxRank street parcel

/-- The place found is the address of the parcel on the closest street if there is one, and has no
computed house number otherwise. -/
structure ComputesParcelsOnly (found : Option Candidate) : Prop where
  eq_parcel : ∀ parcel, l.HasParcel point maxRank parcel →
    found = some (Found.ofRange .parcel parcel).candidate
  notComputed : (∀ parcel, ¬ l.HasParcel point maxRank parcel) → NotComputed found

variable {l} {point maxRank} {street : FeatureHit} {parcel : RangeHit}

include h

/-- Below the level of houses nothing takes the place of the street; otherwise a place that belongs
to it does. -/
theorem gives_refineByChild : Gives (l.refineByChild point maxRank street) fun found =>
    found.candidate.isComputed = false ∧ (28 ≤ maxRank → (found.addressRank ≤ 27 ↔
      street.addressRank ≤ 27 ∧ l.index.nearestChild street.id point childRadius = pure none)) := by
  unfold refineByChild
  refine gives_ite (fun hcond => ?_) (fun hcond => gives_pure ⟨rfl, fun hdetail => ?_⟩)
  · simp only [Bool.and_eq_true, decide_eq_true_eq] at hcond
    refine (h.nearestChild _ _ _).gives.bind fun child hchild => ?_
    cases child with
    | some child =>
      refine gives_pure ⟨rfl, fun _ => ?_⟩
      have hhouse : ¬ (Found.ofChild child).addressRank ≤ 27 := by
        show ¬ 30 ≤ 27
        decide
      have hsome : (pure (some child) : IndexM Id (Option FeatureHit)) ≠ pure none := nofun
      simp [hhouse, hchild, hsome]
    | none => exact gives_pure ⟨rfl, fun _ => by simp [hchild, Found.ofFeature]⟩
  · simp only [Bool.and_eq_true, decide_eq_true_eq, not_and] at hcond
    have hplace : ¬ street.addressRank ≤ 27 := fun hle => hcond hle hdetail
    simp [hplace, Found.ofFeature]

/-- What the street gives way to: the place that belongs to it, or else the parcel. -/
theorem gives_refine : Gives (l.refine point maxRank street) fun found =>
    (∀ parcel, l.FindsParcel point maxRank street parcel → found = .ofRange .parcel parcel) ∧
      ((∀ parcel, ¬ l.FindsParcel point maxRank street parcel) →
        found.candidate.isComputed = false) := by
  unfold refine
  refine (gives_refineByChild h).bind fun found ⟨hcomputed, hrank⟩ => ?_
  refine gives_ite (fun hcond => ?_) (fun hcond => gives_pure ⟨?_, fun _ => hcomputed⟩)
  · simp only [Bool.and_eq_true, decide_eq_true_eq] at hcond
    obtain ⟨⟨hcountry, hle⟩, hdetail⟩ := hcond
    obtain ⟨hstreet, hchildless⟩ := (hrank hdetail).1 hle
    refine (h.nearestParcel _ _ _).gives.bind fun parcel hparcel => ?_
    cases parcel with
    | some parcel =>
      refine gives_pure ⟨fun other hother => ?_, fun hnone => ?_⟩
      · obtain rfl := Option.some.inj (Except.ok.inj (hparcel.symm.trans hother.closest))
        rfl
      · exact absurd ⟨hstreet, hdetail, hcountry, hchildless, hparcel⟩ (hnone parcel)
    | none =>
      refine gives_pure ⟨fun parcel hfinds => ?_, fun _ => hcomputed⟩
      exact nomatch hparcel.symm.trans hfinds.closest
  · rintro parcel ⟨hstreet, hdetail, hcountry, hchildless, -⟩
    have hle := (hrank hdetail).2 ⟨hstreet, hchildless⟩
    exact absurd (by simp [hcountry, hle, hdetail]) hcond

/-- Without interpolation only a parcel has its house number computed on street level. -/
theorem gives_streetLevel : Gives (l.streetLevel point maxRank false)
    (l.ComputesParcelsOnly point maxRank) := by
  unfold streetLevel
  simp only [Bool.false_and, Bool.false_eq_true, if_false, pure_bind]
  refine (h.nearestFeature _ _ _).gives.bind fun hit hhit => ?_
  cases hit with
  | none =>
    refine gives_pure ⟨fun parcel ⟨street, hstreet, _⟩ => ?_, fun _ => notComputed_none⟩
    exact nomatch hhit.symm.trans hstreet
  | some street =>
    simp only [bind_map_left]
    refine (gives_refine h).bind fun found ⟨hparcel, hnone⟩ => gives_pure ⟨?_, fun hno c hc => ?_⟩
    · rintro parcel ⟨other, hother, hfinds⟩
      obtain rfl : street = other := Option.some.inj (Except.ok.inj (hhit.symm.trans hother))
      rw [hparcel parcel hfinds]
      rfl
    · rw [← Option.some.inj hc]
      exact hnone fun parcel hfinds => hno parcel ⟨street, hhit, hfinds⟩

theorem gives_locate (config : ReverseConfig) (hoff : config.interpolation = false) :
    Gives (l.locate point config) (l.ComputesParcelsOnly point (maxRankOfZoom config.zoom)) := by
  unfold locate
  rw [hoff]
  refine gives_ite (fun _ => ?_) (fun hlarge => ?_)
  · refine (gives_streetLevel h).bind fun found hfound => ?_
    cases found with
    | some found => exact gives_pure hfound
    | none =>
      -- nothing on the street, so no parcel either
      have hnone parcel (hparcel : l.HasParcel point (maxRankOfZoom config.zoom) parcel) : False :=
        nomatch hfound.eq_parcel parcel hparcel
      exact (gives_largeArea _ _ h).mono fun _ hfound =>
        ⟨fun parcel hparcel => (hnone parcel hparcel).elim, fun _ => hfound⟩
  · refine (gives_largeArea _ _ h).mono fun _ hfound => ⟨?_, fun _ => hfound⟩
    rintro parcel ⟨street, -, hfinds⟩
    exact absurd (Nat.le_trans (by decide) hfinds.detail) hlarge

end Locator

/-! ## Searches for coordinates -/

namespace Geocoder

variable {g : Geocoder Id} {r : SearchRequest} {query : PreparedQuery} {point : Point Float}

/-- A query that is nothing but coordinates is a free text, which is not tried again. -/
theorem relax?_of_isCoordinateOnly (hquery : r.prepare = .ok query)
    (honly : query.isCoordinateOnly = true) : r.relax? = none := by
  cases hr : r.query with
  | free text => simp [SearchRequest.relax?, hr]
  | structured fields =>
    have hnot := SearchRequest.hasWords_of_structured hr query hquery
    exact absurd (hnot.symm.trans honly) Bool.false_ne_true

/-- A search for nothing but coordinates is a reverse lookup without interpolation. -/
theorem search_of_isCoordinateOnly (hquery : r.prepare = .ok query)
    (hnear : query.near = some point) (honly : query.isCoordinateOnly = true) :
    g.search r = Option.toList <$> g.reverse point coordinateDetail := by
  have hattempts : (if g.config.fallback then r.attempts else [r]) = [r] := by
    rw [SearchRequest.attempts_of_none (relax?_of_isCoordinateOnly hquery honly), ite_self]
  rw [search, hattempts, firstFound_singleton, searchOnce]
  have hprepare : (prepare r : GeocoderM Id PreparedQuery) = pure query := by
    rw [prepare, hquery]
    rfl
  rw [hprepare, pure_bind, hnear, honly]
  rfl

end Geocoder

namespace Locator

variable {l : Locator Id}

/-- Without interpolation a reverse lookup over an index that answers finds the address of the
parcel on the closest street whenever there is one, and no computed house number otherwise; lines
never count. A search for nothing but coordinates finds just that. -/
theorem locate_computes_parcels_only (h : l.index.Answers) (point : Point Float)
    (config : ReverseConfig) (hoff : config.interpolation = false) :
    (∃ found, l.locate point config = pure found ∧
      l.ComputesParcelsOnly point (maxRankOfZoom config.zoom) found) ∧
    ∀ (g : Geocoder Id) (r : SearchRequest) (query : PreparedQuery),
      g.points = l.index → g.config.parcelCountries = l.parcelCountries →
      r.prepare = .ok query → query.near = some point → query.isCoordinateOnly = true →
      ∃ found, g.search r = pure found.toList ∧
        l.ComputesParcelsOnly point (maxRankOfZoom (some 18)) found := by
  refine ⟨gives_locate h config hoff, fun g r query hpoints hcountries hquery hnear honly => ?_⟩
  obtain ⟨found, hfound, hparcels⟩ := gives_locate h Geocoder.coordinateDetail rfl
  refine ⟨found, ?_, hparcels⟩
  rw [Geocoder.search_of_isCoordinateOnly hquery hnear honly, Geocoder.reverse, hpoints, hcountries,
    hfound]
  rfl

/-- The middle of a parcel on a street. -/
def parcelMiddle : RangeHit where
  id := 2
  parent := 1
  first := 101
  last := 199
  step := 2
  fraction := 0.5
  distance := 0.0001

/-- An index of one street in the United States with the parcel on it. -/
def parcelStreet : ReverseIndex Id where
  nearestFeature _ _ _ :=
    return some { id := 1, addressRank := 26, country := some "us", distance := 0.0005 }
  nearestChild _ _ _ := return none
  nearestParcel _ _ _ := return some parcelMiddle
  nearestInterpolation _ _ := return none
  areasAround _ _ _ _ := return []
  placeNodes _ := return []
  countryAt _ := return none
  countryPlaceNear _ _ := return none

/-- The locator of the street. -/
def parcelLocator : Locator Id :=
  { index := parcelStreet, parcelCountries := ["us"] }

/-- A geocoder over the street, which knows no words. -/
def parcelGeocoder : Geocoder Id where
  lexicon := Vocabulary.lexicon ⟨[]⟩
  places := Atlas.placeIndex ⟨[], [], [], []⟩
  points := parcelStreet
  isCancelled := false

/-- A request for coordinates. -/
def coordinates : SearchRequest :=
  { query := .free "34.07, -118.4" }

/-- The parcel is found although interpolation is off, by a lookup and by a search. -/
theorem parcel_found_without_interpolation :
    parcelLocator.index.Answers ∧ parcelMiddle.houseNumber = 151 ∧
      parcelLocator.locate ⟨34.07, -118.4⟩ { zoom := some 18, interpolation := false } =
        pure (some (Found.ofRange .parcel parcelMiddle).candidate) ∧
      parcelGeocoder.search coordinates =
        pure [(Found.ofRange .parcel parcelMiddle).candidate] := by
  have hanswers : parcelLocator.index.Answers := {
    nearestFeature := fun _ _ _ => answers_pure _
    nearestChild := fun _ _ _ => answers_pure _
    nearestParcel := fun _ _ _ => answers_pure _
    nearestInterpolation := fun _ _ => answers_pure _
    areasAround := fun _ _ _ _ => answers_pure _
    placeNodes := fun _ => answers_pure _
    countryAt := fun _ => answers_pure _
    countryPlaceNear := fun _ _ => answers_pure _ }
  have hprepare : coordinates.prepare = .ok
      { near := some ⟨34.07, -118.4⟩, phrases := [("", .untyped)], isStructured := false } := by
    decide +kernel
  have hparcel : parcelLocator.HasParcel ⟨34.07, -118.4⟩ 30 parcelMiddle :=
    ⟨_, rfl, ⟨by decide, by decide, by decide, rfl, rfl⟩⟩
  obtain ⟨⟨found, hfound, hlookup⟩, hsearch⟩ :=
    locate_computes_parcels_only hanswers ⟨34.07, -118.4⟩
      { zoom := some 18, interpolation := false } rfl
  obtain ⟨found', hfound', hlookup'⟩ :=
    hsearch parcelGeocoder coordinates _ rfl rfl hprepare rfl rfl
  refine ⟨hanswers, by decide +kernel, ?_, ?_⟩
  · rw [hfound, hlookup.eq_parcel _ hparcel]
  · rw [hfound', hlookup'.eq_parcel _ hparcel]
    rfl

end Locator

end Geocoding
