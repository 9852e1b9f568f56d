import Geocoding.Index.Interpolation
import Geocoding.Proofs.Atlas
import Mathlib.Data.Rat.Floor

/-!
# House numbers along a line: laws

The house number computed for a position on an address range is one of the range
(`interpolatedNumber_le_last`, `Parity.admits_interpolatedNumber`), however fractions are computed
and whatever the fraction is. So a number that a reverse search computes on a line is found on the
line by a forward search for it (`Atlas.isFoundAgain_of_isOn`). In exact arithmetic, numbers
only go up along the line (`monotone_interpolatedNumber`).
-/

namespace Geocoding

/-! ## Between the ends -/

section

variable {α : Type} [Fractional α] {first last step : Nat}

theorem first_le_interpolatedNumber (h : first ≤ last) (fraction : α) :
    first ≤ interpolatedNumber first last step fraction :=
  Nat.le_min.2 ⟨Nat.le_add_right _ _, h⟩

theorem interpolatedNumber_le_last (fraction : α) :
    interpolatedNumber first last step fraction ≤ last :=
  Nat.min_le_right _ _

/-- A number, or the greatest one of 32 bits if it is greater. -/
def saturated (n : Nat) : Nat :=
  min n (UInt32.size - 1)

/-- Keeping to 32 bits does not show below a bound of 32 bits. -/
theorem min_saturated (h : last < UInt32.size) (n : Nat) :
    min (saturated (first + saturated n)) last = min (first + n) last := by
  unfold saturated
  omega

/-- The house number with both the way from the first one and the sum kept to 32 bits. -/
def saturatedNumber (first last step : Nat) (fraction : α) : Nat :=
  let step := max step 1
  let offset := Fractional.ofNat (last - first) * clampFraction fraction
  let way := saturated (Fractional.nearest (offset / (Fractional.ofNat step : α)) * step)
  min (saturated (first + way)) last

theorem saturatedNumber_eq (h : last < UInt32.size) (fraction : α) :
    saturatedNumber first last step fraction = interpolatedNumber first last step fraction := by
  unfold saturatedNumber interpolatedNumber
  exact min_saturated h _

/-! ## On the line -/

variable {parity : Parity}

theorem Parity.one_le_step (parity : Parity) : 1 ≤ parity.step := by
  cases parity <;> decide

theorem Parity.admits_add_mul_step (h : parity.admits first = true) (n : Nat) :
    parity.admits (first + n * parity.step) = true := by
  cases parity with
  | odd => simpa [admits, step, Nat.add_mul_mod_self_right] using h
  | even => simpa [admits, step, Nat.add_mul_mod_self_right] using h
  | all => rfl

/-- Steps from the first house number keep the parity, and so does stopping at the last one. -/
theorem Parity.admits_interpolatedNumber (hfirst : parity.admits first = true)
    (hlast : parity.admits last = true) (fraction : α) :
    parity.admits (interpolatedNumber first last parity.step fraction) = true := by
  unfold interpolatedNumber
  rw [Nat.max_eq_left parity.one_le_step]
  rcases Nat.le_total (first + _) last with h | h
  · rw [Nat.min_eq_left h]
    exact admits_add_mul_step hfirst _
  · rw [Nat.min_eq_right h]
    exact hlast

end

/-- The ends of the range are in order, and of its parity. -/
structure AddressRange.IsSound (r : AddressRange) : Prop where
  first_le_last : r.first ≤ r.last
  admits_first : r.parity.admits r.first = true
  admits_last : r.parity.admits r.last = true

theorem AddressRange.IsSound.accepts {r : AddressRange} (h : r.IsSound) {α : Type} [Fractional α]
    {fraction : α} {query : RangeQuery}
    (hquery : query.houseNumber = interpolatedNumber r.first r.last r.parity.step fraction) :
    query.accepts r.parity r.first r.last = true := by
  have hadmits := Parity.admits_interpolatedNumber h.admits_first h.admits_last fraction
  have hfirst : r.first ≤ interpolatedNumber r.first r.last r.parity.step fraction :=
    first_le_interpolatedNumber h.first_le_last fraction
  have hlast : interpolatedNumber r.first r.last r.parity.step fraction ≤ r.last :=
    interpolatedNumber_le_last fraction
  simp [RangeQuery.accepts, hquery, hadmits, hfirst, hlast]

/-! ## Found again -/

/-- The position is on a range, and the house number computed for it is found on that range along
its street, if the range is sound. -/
def RangeHit.IsFoundAgain (hit : RangeHit) (ranges : List AddressRange) : Prop :=
  ∃ r ∈ ranges, hit.IsOn r ∧ (r.IsSound → ∀ query : RangeQuery,
    query.houseNumber = hit.houseNumber → hit.parent ∈ query.streets → hit.id ∉ query.excluded →
      hit.id ∈ Atlas.rangesWith ranges query)

namespace Atlas

variable {point : Point Float} {ranges : List AddressRange} {hit : RangeHit}

theorem isFoundAgain_of_isOn {r : AddressRange} (hr : r ∈ ranges) (hon : hit.IsOn r) :
    hit.IsFoundAgain ranges := by
  refine ⟨r, hr, hon, fun hsound query hnumber hparent hexcluded => ?_⟩
  rw [RangeHit.houseNumber, hon.first, hon.last, hon.step] at hnumber
  rw [mem_rangesWith_iff]
  exact ⟨r, hr, hon.id.symm, hon.parent ▸ hparent, hon.id ▸ hexcluded, hsound.accepts hnumber⟩

theorem isFoundAgain_of_nearestInterpolation {a : Atlas} {radius : Float}
    (h : a.nearestInterpolation point radius = some hit) : hit.IsFoundAgain a.interpolations := by
  obtain ⟨r, hr, hon⟩ := exists_of_closestRange h
  exact isFoundAgain_of_isOn hr hon

theorem isFoundAgain_of_nearestParcel {a : Atlas} {parent : Nat} {radius : Float}
    (h : a.nearestParcel parent point radius = some hit) : hit.IsFoundAgain a.parcels := by
  obtain ⟨r, hr, hon⟩ := exists_of_closestRange h
  exact isFoundAgain_of_isOn (List.mem_filter.1 hr).1 hon

end Atlas

/-! ## Exact arithmetic -/

instance : Fractional ℚ where
  ofNat n := n
  nearest x := ⌊x + 1 / 2⌋₊
  decidableLt := inferInstance

theorem clampFraction_eq (x : ℚ) : clampFraction x = max 0 (min 1 x) := by
  have hdef : clampFraction x = if x < (0 : ℕ) then ((0 : ℕ) : ℚ) else
      if ((1 : ℕ) : ℚ) < x then ((1 : ℕ) : ℚ) else x := rfl
  rw [hdef, Nat.cast_zero, Nat.cast_one]
  split_ifs with hneg hone
  · rw [min_eq_right (hneg.le.trans zero_le_one), max_eq_left hneg.le]
  · rw [min_eq_left hone.le, max_eq_right zero_le_one]
  · rw [min_eq_right (not_lt.1 hone), max_eq_right (not_lt.1 hneg)]

/-- House numbers do not go down along the line. -/
theorem monotone_interpolatedNumber (first last step : ℕ) :
    Monotone fun fraction : ℚ => interpolatedNumber first last step fraction := by
  intro x y h
  have hclamp : clampFraction x ≤ clampFraction y := by
    rw [clampFraction_eq, clampFraction_eq]
    exact max_le_max_left 0 (min_le_min_left 1 h)
  have hway : ((last - first : ℕ) : ℚ) * clampFraction x / (max step 1 : ℕ) ≤
      ((last - first : ℕ) : ℚ) * clampFraction y / (max step 1 : ℕ) := by
    gcongr
  have hnearest : ⌊((last - first : ℕ) : ℚ) * clampFraction x / (max step 1 : ℕ) + 1 / 2⌋₊ ≤
      ⌊((last - first : ℕ) : ℚ) * clampFraction y / (max step 1 : ℕ) + 1 / 2⌋₊ :=
    Nat.floor_mono (add_le_add_left hway _)
  exact min_le_min_right last (Nat.add_le_add_left (Nat.mul_le_mul_right _ hnearest) first)

/-- A house number computed for a position lies between the ends of its range, where 32 bits are
enough for it. On a range with sound ends it is of the parity of the range, and goes up along the
line in exact arithmetic. So what a reverse search computes, a forward search finds. -/
theorem houseNumber_between_and_isFoundAgain (a : Atlas) (point : Point Float) (radius : Float) :
    (∀ hit : RangeHit, hit.first ≤ hit.last →
      (hit.first ≤ hit.houseNumber ∧ hit.houseNumber ≤ hit.last) ∧
        (hit.last < UInt32.size →
          saturatedNumber hit.first hit.last hit.step hit.fraction = hit.houseNumber)) ∧
      (∀ r : AddressRange, r.IsSound →
        (∀ (fraction : ℚ) (query : RangeQuery),
          query.houseNumber = interpolatedNumber r.first r.last r.parity.step fraction →
            query.accepts r.parity r.first r.last = true) ∧
        Monotone fun fraction : ℚ => interpolatedNumber r.first r.last r.parity.step fraction) ∧
      (∀ hit ∈ a.nearestInterpolation point radius, hit.IsFoundAgain a.interpolations) ∧
      ∀ parent, ∀ hit ∈ a.nearestParcel parent point radius, hit.IsFoundAgain a.parcels := by
  refine ⟨fun hit h => ⟨⟨first_le_interpolatedNumber h _, interpolatedNumber_le_last _⟩,
    fun hlast => saturatedNumber_eq hlast _⟩, fun r hr => ⟨fun _ _ => hr.accepts,
      monotone_interpolatedNumber _ _ _⟩, fun hit => Atlas.isFoundAgain_of_nearestInterpolation,
    fun parent hit => Atlas.isFoundAgain_of_nearestParcel⟩

/-- Odd house numbers along a street. -/
def oddHouses : AddressRange where
  id := 2
  parent := 1
  first := 101
  last := 199
  parity := .odd
  line := [⟨34.0701, -118.4004⟩, ⟨34.0701, -118.3996⟩]

/-- A position on them whose fraction is not a number. -/
def nowhereOnOddHouses : RangeHit where
  id := 2
  parent := 1
  first := 101
  last := 199
  step := 2
  fraction := 0 / 0
  distance := 0

/-- The number halfway along the line is one of its house numbers, and no fraction leads to the
first one. -/
theorem oddHouses_accept_middle :
    oddHouses.IsSound ∧ interpolatedNumber 101 199 2 (1 / 2 : ℚ) = 151 ∧
      RangeQuery.accepts { houseNumber := 151, streets := [1] } .odd 101 199 = true ∧
      nowhereOnOddHouses.houseNumber = 101 ∧
      saturatedNumber 101 199 2 nowhereOnOddHouses.fraction = 101 := by
  have hsound : oddHouses.IsSound := ⟨by decide, by decide, by decide⟩
  have hnumber : interpolatedNumber 101 199 2 (1 / 2 : ℚ) = 151 := by decide +kernel
  have hnowhere : nowhereOnOddHouses.houseNumber = 101 := by decide +kernel
  have hlaws := houseNumber_between_and_isFoundAgain ⟨[], [], [oddHouses], []⟩ ⟨34.07, -118.4⟩ 0.001
  refine ⟨hsound, hnumber, (hlaws.2.1 oddHouses hsound).1 (1 / 2) _ hnumber.symm, hnowhere, ?_⟩
  exact ((hlaws.1 nowhereOnOddHouses (by decide)).2 (by decide)).trans hnowhere

end Geocoding
