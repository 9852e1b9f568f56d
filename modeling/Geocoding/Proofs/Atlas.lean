import Geocoding.Atlas.Forward
import Geocoding.Atlas.Reverse
import Geocoding.Proofs.Best

/-!
# What an atlas answers

For every query to an atlas, what is true of the places in the answer: they are places of the atlas,
and meet all the conditions of the query. Limits and the order of the answers are not dealt with, so
these laws say nothing about which places are missing.
-/

namespace Geocoding

theorem mem_nearestIds {limit id : Nat} {found : List (AtlasPlace × Float)}
    (h : id ∈ nearestIds limit found) : ∃ p d, (p, d) ∈ found ∧ p.id = id := by
  obtain ⟨⟨p, d⟩, hp, rfl⟩ := List.mem_map.1 h
  exact ⟨p, d, List.mem_mergeSort.1 (List.mem_of_mem_take hp), rfl⟩

/-- The position is on the address range. -/
structure RangeHit.IsOn (hit : RangeHit) (r : AddressRange) : Prop where
  id : hit.id = r.id
  parent : hit.parent = r.parent
  first : hit.first = r.first
  last : hit.last = r.last
  step : hit.step = r.parity.step

namespace Atlas

variable {a : Atlas} {id : Nat}

theorem place?_eq_some {p : AtlasPlace} (h : a.place? id = some p) : p ∈ a.places ∧ p.id = id :=
  ⟨List.mem_of_find?_eq_some h, by simpa using List.find?_some h⟩

/-! ## Places in countries and boxes -/

theorem exists_of_countryPlace {code : String} {box : Option (BoundingBox Float)}
    (h : a.countryPlace code box = some id) :
    ∃ p ∈ a.places, p.id = id ∧ p.record.addressRank = 4 ∧ p.record.country = some code ∧
      inBox box p.record.location = true := by
  obtain ⟨p, hp, rfl⟩ := Option.map_eq_some_iff.1 h
  obtain ⟨hmem, hfits⟩ := List.mem_filter.1 (mem_of_best?_eq_some hp)
  simp only [Bool.and_eq_true, decide_eq_true_eq] at hfits
  exact ⟨p, hmem, rfl, hfits.1.1, hfits.1.2, hfits.2⟩

theorem exists_of_mem_areaPlaces {query : AreaQuery} (h : id ∈ a.areaPlaces query) :
    ∃ p ∈ a.places, p.id = id ∧ p.record.placeType = query.placeType ∧ p.id ∉ query.excluded ∧
      inCountries query.countries p.record.country = true ∧
      p.isAround query.near query.box = true := by
  obtain ⟨p, d, hp, rfl⟩ := mem_nearestIds h
  obtain ⟨q, hq, heq⟩ := List.mem_map.1 hp
  obtain rfl : q = p := congrArg Prod.fst heq
  obtain ⟨hmem, hfits⟩ := List.mem_filter.1 hq
  simp only [Bool.and_eq_true, decide_eq_true_eq, Bool.not_eq_true', List.contains_eq_mem,
    decide_eq_false_iff_not] at hfits
  obtain ⟨⟨⟨htype, hexcluded⟩, hcountry⟩, haround⟩ := hfits
  exact ⟨q, hmem, rfl, htype, hexcluded, hcountry, haround⟩

theorem exists_of_mem_postcodesOf {query : PostcodeQuery} (h : id ∈ a.postcodesOf query) :
    ∃ p ∈ a.postcodes, p.id = id ∧ p.code = canonicalPostcode query.postcode ∧
      p.id ∉ query.excluded ∧ inCountries query.countries p.record.country = true ∧
      inBox query.box p.record.location = true := by
  obtain ⟨p, hp, rfl⟩ := List.mem_map.1 h
  obtain ⟨hmem, hfits⟩ := List.mem_filter.1 (List.mem_of_mem_take hp)
  simp only [Bool.and_eq_true, decide_eq_true_eq, Bool.not_eq_true', List.contains_eq_mem,
    decide_eq_false_iff_not] at hfits
  obtain ⟨⟨⟨⟨hcode, hexcluded⟩, hcountry⟩, -⟩, hbox⟩ := hfits
  exact ⟨p, hmem, rfl, hcode, hexcluded, hcountry, hbox⟩

theorem exists_of_mem_namedPlaces {query : NamedPlaceQuery} {hit : NamedPlaceHit}
    (h : hit ∈ a.namedPlaces query) :
    ∃ p ∈ a.places, p.id = hit.id ∧ p.record.addressRank = hit.addressRank ∧
      p.id ∉ query.excluded ∧ p.hasName query.name = true ∧ p.hasAddress query.address = true ∧
      inCountries query.countries p.record.country = true ∧
      inBox query.box p.record.location = true := by
  obtain ⟨x, hx, rfl⟩ := List.mem_map.1 h
  obtain ⟨p, hp, rfl⟩ := List.mem_map.1 (List.mem_mergeSort.1 (List.mem_of_mem_take hx))
  obtain ⟨hmem, hfits⟩ := List.mem_filter.1 hp
  simp only [isNamed, Bool.and_eq_true, Bool.not_eq_true', List.contains_eq_mem,
    decide_eq_false_iff_not] at hfits
  obtain ⟨⟨⟨⟨⟨⟨⟨hexcluded, hname⟩, haddress⟩, hcountry⟩, -⟩, hbox⟩, -⟩, -⟩ := hfits
  exact ⟨p, hmem, rfl, rfl, hexcluded, hname, haddress, hcountry, hbox⟩

/-! ## Places that belong to others -/

/-- Neither the country nor the location of an address matters. -/
theorem mem_houseNumbers_iff {query : HouseNumberQuery} :
    id ∈ a.houseNumbers query ↔ ∃ p ∈ a.places, p.id = id ∧ p.id ∉ query.excluded ∧
      ((∃ street ∈ query.streets, p.record.parent = some street) ∨ p.id ∈ query.places) ∧
      p.hasHouseNumber query.houseNumber = true := by
  have hparent (p : AtlasPlace) : p.record.parent.any query.streets.contains = true ↔
      ∃ street ∈ query.streets, p.record.parent = some street := by
    cases p.record.parent <;> simp [eq_comm]
  simp only [houseNumbers, List.mem_map, List.mem_filter, Bool.and_eq_true, Bool.or_eq_true,
    hparent, Bool.not_eq_true', List.contains_eq_mem, decide_eq_true_eq, decide_eq_false_iff_not]
  constructor
  · rintro ⟨p, ⟨hmem, ⟨hexcluded, hbelongs⟩, hnumber⟩, rfl⟩
    exact ⟨p, hmem, rfl, hexcluded, hbelongs, hnumber⟩
  · rintro ⟨p, hmem, rfl, hexcluded, hbelongs, hnumber⟩
    exact ⟨p, ⟨hmem, ⟨hexcluded, hbelongs⟩, hnumber⟩, rfl⟩

theorem mem_rangesWith_iff {ranges : List AddressRange} {query : RangeQuery} :
    id ∈ rangesWith ranges query ↔ ∃ r ∈ ranges, r.id = id ∧ r.parent ∈ query.streets ∧
      r.id ∉ query.excluded ∧ query.accepts r.parity r.first r.last = true := by
  simp only [rangesWith, List.mem_map, List.mem_filter, Bool.and_eq_true, Bool.not_eq_true',
    List.contains_eq_mem, decide_eq_true_eq, decide_eq_false_iff_not]
  constructor
  · rintro ⟨r, ⟨hmem, ⟨hparent, hexcluded⟩, haccepts⟩, rfl⟩
    exact ⟨r, hmem, rfl, hparent, hexcluded, haccepts⟩
  · rintro ⟨r, hmem, rfl, hparent, hexcluded, haccepts⟩
    exact ⟨r, ⟨hmem, ⟨hparent, hexcluded⟩, haccepts⟩, rfl⟩

theorem exists_of_closestRange {point : Point Float} {radius : Float}
    {ranges : List AddressRange} {hit : RangeHit}
    (h : closestRange point radius ranges = some hit) : ∃ r ∈ ranges, hit.IsOn r := by
  obtain ⟨hmem, -⟩ := List.mem_filter.1 (mem_of_best?_eq_some h)
  obtain ⟨r, hr, hhit⟩ := List.mem_filterMap.1 hmem
  obtain ⟨position, -, rfl⟩ := Option.map_eq_some_iff.1 hhit
  exact ⟨r, hr, rfl, rfl, rfl, rfl, rfl⟩

theorem exists_of_mem_ofType {ids excluded : List Nat} {placeType : PlaceType} {limit : Nat}
    (h : id ∈ a.ofType ids placeType excluded limit) :
    id ∈ ids ∧ id ∉ excluded ∧
      ∃ p ∈ a.places, p.id = id ∧ p.record.placeType = placeType := by
  obtain ⟨p, hp, rfl⟩ := List.mem_map.1 h
  obtain ⟨hfound, htype⟩ := List.mem_filter.1 (List.mem_of_mem_take hp)
  obtain ⟨id, hid, hplace⟩ := List.mem_filterMap.1 hfound
  obtain ⟨hmem, rfl⟩ := place?_eq_some hplace
  obtain ⟨hids, hexcluded⟩ := List.mem_filter.1 hid
  exact ⟨hids, by simpa using hexcluded, p, hmem, rfl, of_decide_eq_true htype⟩

theorem exists_of_closest?_eq_some {parents : List AtlasPlace} {radius d : Float} {p : AtlasPlace}
    (h : closest? parents radius p = some d) :
    ∃ q ∈ parents, q.id ∈ p.ancestors ∨ p.distance q ≤ radius := by
  obtain ⟨q, hq, -⟩ := List.mem_map.1 (mem_of_best?_eq_some h)
  obtain ⟨hmem, hclose⟩ := List.mem_filter.1 hq
  simp only [Bool.or_eq_true, List.contains_eq_mem, decide_eq_true_eq] at hclose
  exact ⟨q, hmem, hclose⟩

/-- Neither the country nor the location of a place of the type matters, but for the distance. -/
theorem exists_of_mem_nearby {ids excluded : List Nat} {placeType : PlaceType}
    {near : Option NearPoint} {limit : Nat}
    (h : id ∈ a.nearby ids placeType near excluded limit) :
    ∃ p ∈ a.places, p.id = id ∧ p.record.placeType = placeType ∧ p.id ∉ excluded ∧
      ∃ q ∈ a.places, q.id ∈ ids ∧
        (q.id ∈ p.ancestors ∨ p.distance q ≤ (near.map (·.radius)).getD nearbyRadius) := by
  obtain ⟨p, d, hp, rfl⟩ := mem_nearestIds h
  obtain ⟨q, hq, hclosest⟩ := List.mem_filterMap.1 hp
  obtain ⟨e, he, heq⟩ := Option.map_eq_some_iff.1 hclosest
  obtain rfl : q = p := congrArg Prod.fst heq
  obtain ⟨hmem, hfits⟩ := List.mem_filter.1 hq
  simp only [Bool.and_eq_true, decide_eq_true_eq, Bool.not_eq_true', List.contains_eq_mem,
    decide_eq_false_iff_not] at hfits
  obtain ⟨parent, hparent, hclose⟩ := exists_of_closest?_eq_some he
  obtain ⟨id, hid, hplace⟩ := List.mem_filterMap.1 hparent
  obtain ⟨hparentMem, rfl⟩ := place?_eq_some hplace
  exact ⟨q, hmem, rfl, hfits.1, hfits.2, parent, hparentMem, hid, hclose⟩

end Atlas

end Geocoding
