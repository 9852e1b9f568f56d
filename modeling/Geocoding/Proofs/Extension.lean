import Geocoding.Interpretation.Extension
import Mathlib.Tactic.SplitIfs

/-!
# Extending an interpretation: the rules

`Token.Extends` says which interpretations result from adding a token, one constructor for each way
of reading it, with everything that must hold for that reading. It is the same as membership in
`Token.extend` (`Token.mem_extend_iff`), so that what a reading preserves is a case analysis on it.

Every reading charges a cost of at least one (`Token.exists_charge_of_extends`).
-/

namespace Geocoding

namespace Interpretation

variable (s : Interpretation)

@[simp] theorem cost_charge (k : Nat) : (s.charge k).cost = min (s.cost + k) maxCost := rfl

@[simp] theorem cost_closeName : s.closeName.cost = s.cost := rfl

@[simp] theorem cost_readCountry (code : String) : (s.readCountry code).cost = s.cost := rfl

@[simp] theorem cost_readPostcode (code : String) : (s.readPostcode code).cost = s.cost := rfl

@[simp] theorem cost_searchPostcode (id : Option Nat) (code : String) :
    (s.searchPostcode id code).cost = s.cost := rfl

@[simp] theorem cost_readHouseNumber (text : String) : (s.readHouseNumber text).cost = s.cost := rfl

@[simp] theorem cost_readHouseName (id : Nat) : (s.readHouseName id).cost = s.cost := rfl

@[simp] theorem cost_withPlaceType (mode : SearchMode) (placeType : PlaceType) :
    (s.withPlaceType mode placeType).cost = s.cost := rfl

@[simp] theorem cost_readFullName (id : Nat) (rare : Bool) :
    (s.readFullName id rare).cost = s.cost := rfl

@[simp] theorem cost_readAddressWord (id : Nat) (searchable : Bool) :
    (s.readAddressWord id searchable).cost = s.cost := by
  cases searchable <;> rfl

@[simp] theorem cost_readNameWord (id : Nat) (searchable : Bool) (phrase : Nat) :
    (s.readNameWord id searchable phrase).cost = s.cost := by
  cases searchable <;> rfl

@[simp] theorem cost_settleRareName (rare : Bool) : (s.settleRareName rare).cost = s.cost := rfl

/-! A word of the address touches nothing but the address. -/

@[simp] theorem name_readAddressWord (id : Nat) (searchable : Bool) :
    (s.readAddressWord id searchable).name = s.name := by
  cases searchable <;> rfl

@[simp] theorem mode_readAddressWord (id : Nat) (searchable : Bool) :
    (s.readAddressWord id searchable).mode = s.mode := by
  cases searchable <;> rfl

@[simp] theorem postcode_readAddressWord (id : Nat) (searchable : Bool) :
    (s.readAddressWord id searchable).postcode = s.postcode := by
  cases searchable <;> rfl

@[simp] theorem houseNumber_readAddressWord (id : Nat) (searchable : Bool) :
    (s.readAddressWord id searchable).houseNumber = s.houseNumber := by
  cases searchable <;> rfl

@[simp] theorem country_readAddressWord (id : Nat) (searchable : Bool) :
    (s.readAddressWord id searchable).country = s.country := by
  cases searchable <;> rfl

@[simp] theorem placeType_readAddressWord (id : Nat) (searchable : Bool) :
    (s.readAddressWord id searchable).placeType = s.placeType := by
  cases searchable <;> rfl

@[simp] theorem namePhrase_readAddressWord (id : Nat) (searchable : Bool) :
    (s.readAddressWord id searchable).namePhrase = s.namePhrase := by
  cases searchable <;> rfl

@[simp] theorem hasAnyName_readAddressWord (id : Nat) (searchable : Bool) :
    (s.readAddressWord id searchable).hasAnyName = s.hasAnyName := by
  cases searchable <;> rfl

@[simp] theorem hasAnyName_readNameWord (id : Nat) (searchable : Bool) (phrase : Nat) :
    (s.readNameWord id searchable phrase).hasAnyName = true := by
  cases searchable <;> simp [hasAnyName, readNameWord]

theorem mem_address_readAddressWord {s : Interpretation} {a id : Nat} {searchable : Bool}
    (h : a ∈ (s.readAddressWord id searchable).address) : a ∈ s.address ∨ id = a := by
  cases searchable with
  | true => exact (TermSet.mem_insert.1 h).elim (fun h => Or.inr h.symm) Or.inl
  | false => exact Or.inl h

end Interpretation

namespace Token

/-- What a phrase for a type of places costs at a position, before its mode is charged for. -/
def specialCost (s : Interpretation) (pos : Position) : Nat :=
  (if pos.isFirst then 2 else if pos.isLast then 4 else 6) + if s.houseNumber.isSome then 1 else 0

/-- What a partial word costs as a part of the address. -/
def addressWordCost (w : WordToken) (t : FrequencyThresholds) : Nat :=
  1 + w.isNumeric.toNat + (t.isCommon w.occurrences).toNat

/-- What a partial word costs as a part of the name. -/
def nameWordCost (w : WordToken) (s : Interpretation) : Nat :=
  1 + (!s.hasAnyName).toNat + w.isNumeric.toNat

/-- The interpretations that result from adding a token to `s`. -/
inductive Extends (c : Constraints) (t : FrequencyThresholds) (s : Interpretation)
    (pos : Position) : Token → Interpretation → Prop
  | countryLast {id code} (hlast : pos.isLast = true) :
      Extends c t s pos (country id code) ((s.charge 1).readCountry code)
  | countryInside {id code} (hlast : pos.isLast = false) :
      Extends c t s pos (country id code)
        (((s.charge (1 + countryNotLastCost)).closeName).readCountry code)
  | postcodeSearched {id code cc} (hmode : s.mode = .plain)
      (hpos : pos.isFirst = true ∨ pos.role = .postalcode) :
      Extends c t s pos (postcode id code cc) ((s.charge 1).searchPostcode id code)
  | postcodeNarrowing {id code cc} (hmode : s.mode ≠ .postcode)
      (hpos : pos.role = .postalcode ∨ s.hasName = true) :
      Extends c t s pos (postcode id code cc)
        (((s.charge (1 + (4 - code.length))).closeName).readPostcode code)
  | houseNumber {id text} :
      Extends c t s pos (houseNumber id text)
        (((s.charge (houseNumberCost id text s)).closeName).readHouseNumber text)
  | houseName {id text} (hname : s.hasName = false ∨ s.namePhrase = some pos.phrase)
      (haddress : s.hasAddress = false) :
      Extends c t s pos (.houseNumber (some id) text)
        ((s.charge (houseNumberCost (some id) text s)).readHouseName id)
  | specialInferred {id placeType} :
      Extends c t s pos (special id placeType .plain)
        (((s.charge (3 + specialCost s pos)).closeName).withPlaceType (inferredMode c s pos)
          placeType)
  | specialGiven {id placeType mode} (hmode : mode ≠ .plain) :
      Extends c t s pos (special id placeType mode)
        (((s.charge (specialCost s pos)).closeName).withPlaceType mode placeType)
  | fullAddress {w} (hfull : w.isFull = true)
      (hname : s.hasName = true ∨ pos.isInFirstPhrase = false ∧ pos.isUntyped = false)
      (hwords : 1 < w.wordCount) (hpos : pos.isUntyped = true ∨ pos.isInFirstPhrase = false) :
      Extends c t s pos (word w) (((s.charge 1).closeName).readAddressWord w.id true)
  | fullName {w} (hfull : w.isFull = true) (hname : s.hasAnyName = false)
      (hpos : pos.isInFirstPhrase = true ∨ pos.isUntyped = true) :
      Extends c t s pos (word w) ((s.charge 1).readFullName w.id (t.isRare w.occurrences))
  | partialAddress {w} (hfull : w.isFull = false)
      (hpos : pos.isUntyped = true ∨ pos.isInFirstPhrase = false) (hname : s.hasName = true) :
      Extends c t s pos (word w)
        ((s.charge (addressWordCost w t)).readAddressWord w.id (!t.isCommon w.occurrences))
  | partialCommonName {w} (hfull : w.isFull = false) (hcommon : t.isCommon w.occurrences = true)
      (hpostcode : s.postcode = none) (haddress : s.hasAnyAddress = false)
      (hname : s.hasAnyName = false ∨ s.namePhrase = some pos.phrase) :
      Extends c t s pos (word w) ((s.charge (nameWordCost w s)).readNameWord w.id false pos.phrase)
  | partialName {w} (hfull : w.isFull = false) (hcommon : t.isCommon w.occurrences = false)
      (hpostcode : s.postcode = none) (haddress : s.hasAnyAddress = false)
      (hname : s.hasAnyName = false ∨ s.namePhrase = some pos.phrase) :
      Extends c t s pos (word w)
        (((s.charge (nameWordCost w s)).settleRareName
          (!s.hasName && t.isRare w.occurrences)).readNameWord w.id true pos.phrase)

section

variable {c : Constraints} {t : FrequencyThresholds} {s s' : Interpretation} {pos : Position}

theorem hasName_eq_false_of_hasAnyName (h : s.hasAnyName = false) : s.hasName = false := by
  simp only [Interpretation.hasAnyName, Bool.or_eq_false_iff] at h
  exact h.1

theorem mem_extendCountry_iff {id : Nat} {code : String} :
    s' ∈ extendCountry code s pos ↔ Extends c t s pos (country id code) s' := by
  rw [extendCountry]
  constructor
  · intro h
    split at h
    · next hlast => rw [List.mem_singleton.1 h]; exact .countryLast hlast
    · next hlast => rw [List.mem_singleton.1 h]; exact .countryInside (by simpa using hlast)
  · rintro (hlast | hlast)
    · simp [hlast]
    · simp [hlast]

theorem mem_extendPostcode_iff {id : Option Nat} {code : String} {cc : Option String} :
    s' ∈ extendPostcode id code s pos ↔ Extends c t s pos (postcode id code cc) s' := by
  simp only [extendPostcode, List.mem_append]
  constructor
  · rintro (h | h)
    · split at h
      · next hg =>
        rw [List.mem_singleton.1 h]
        simp only [Bool.and_eq_true, Bool.or_eq_true, decide_eq_true_eq] at hg
        exact .postcodeSearched hg.1 hg.2
      · simp at h
    · split at h
      · next hg =>
        rw [List.mem_singleton.1 h]
        simp only [Bool.and_eq_true, Bool.or_eq_true, decide_eq_true_eq, ne_eq] at hg
        exact .postcodeNarrowing hg.1 hg.2
      · simp at h
  · rintro (hmode | hmode)
    · left
      simp_all
    · right
      simp_all

theorem mem_extendHouseNumber_iff {id : Option Nat} {text : String} :
    s' ∈ extendHouseNumber id text s pos ↔ Extends c t s pos (.houseNumber id text) s' := by
  unfold extendHouseNumber
  constructor
  · intro h
    rcases List.mem_cons.1 h with rfl | h
    · exact .houseNumber
    · cases id with
      | none => simp at h
      | some id =>
        simp only at h
        split at h
        · next hg =>
          rw [List.mem_singleton.1 h]
          simp only [Bool.and_eq_true, Bool.or_eq_true, Bool.not_eq_true', decide_eq_true_eq] at hg
          exact .houseName hg.1 hg.2
        · simp at h
  · intro h
    cases h with
    | houseNumber => exact List.mem_cons_self
    | houseName hname haddress =>
      refine List.mem_cons_of_mem _ ?_
      simp_all

theorem mem_extendSpecial_iff {id : Nat} {placeType : PlaceType} {mode : SearchMode} :
    s' ∈ extendSpecial c placeType mode s pos ↔
      Extends c t s pos (special id placeType mode) s' := by
  by_cases hmode : mode = .plain
  · subst hmode
    simp only [extendSpecial, if_pos, List.mem_singleton]
    constructor
    · rintro rfl
      rw [Nat.add_assoc]
      exact .specialInferred
    · intro h
      cases h with
      | specialInferred => rw [Nat.add_assoc]; rfl
      | specialGiven hmode => exact absurd rfl hmode
  · simp only [extendSpecial, if_neg hmode, List.mem_singleton, Nat.zero_add]
    constructor
    · rintro rfl
      exact .specialGiven hmode
    · intro h
      cases h with
      | specialInferred => exact absurd rfl hmode
      | specialGiven => rfl

theorem mem_extendFullWord_iff {w : WordToken} (hfull : w.isFull = true) :
    s' ∈ extendFullWord w t s pos ↔ Extends c t s pos (word w) s' := by
  rw [extendFullWord]
  constructor
  · intro h
    split at h
    · next hname =>
      split at h
      · next hwords =>
        rw [List.mem_singleton.1 h]
        simp only [Bool.and_eq_true, Bool.or_eq_true, Bool.not_eq_true', Bool.or_eq_false_iff,
          decide_eq_true_eq] at hname hwords
        exact .fullAddress hfull hname hwords.1 hwords.2
      · simp at h
    · next hname =>
      split at h
      · next hany =>
        rw [List.mem_singleton.1 h]
        refine .fullName hfull (by simpa using hany) ?_
        revert hname
        cases pos.isInFirstPhrase <;> cases pos.isUntyped <;> simp
      · simp at h
  · intro h
    cases h with
    | fullAddress _ hname hwords hpos =>
      rw [if_pos (by simpa using hname), if_pos (by simpa using ⟨hwords, hpos⟩)]
      exact List.mem_cons_self
    | fullName _ hname hpos =>
      have hname' := hasName_eq_false_of_hasAnyName hname
      have hplace : ¬ (s.hasName || !(pos.isInFirstPhrase || pos.isUntyped)) = true := by
        rcases hpos with hpos | hpos <;> simp [hname', hpos]
      rw [if_neg hplace, if_pos (by simp [hname])]
      exact List.mem_cons_self
    | partialAddress hf => simp [hfull] at hf
    | partialCommonName hf => simp [hfull] at hf
    | partialName hf => simp [hfull] at hf

theorem mem_addressReading_iff {w : WordToken} :
    s' ∈ addressReading w t s pos ↔
      ((pos.isUntyped = true ∨ pos.isInFirstPhrase = false) ∧ s.hasName = true) ∧
        s' = (s.charge (addressWordCost w t)).readAddressWord w.id (!t.isCommon w.occurrences) := by
  rw [addressReading]
  split
  · next h =>
    simp only [Bool.and_eq_true, Bool.or_eq_true, Bool.not_eq_true'] at h
    simp [h, addressWordCost]
  · next h =>
    simp only [Bool.and_eq_true, Bool.or_eq_true, Bool.not_eq_true'] at h
    simp [h]

theorem mem_nameReading_iff {w : WordToken} :
    s' ∈ nameReading w t s pos ↔
      (s.postcode = none ∧ s.hasAnyAddress = false ∧
        (s.hasAnyName = false ∨ s.namePhrase = some pos.phrase)) ∧
      s' = (if t.isCommon w.occurrences then s.charge (nameWordCost w s)
        else (s.charge (nameWordCost w s)).settleRareName
          (!s.hasName && t.isRare w.occurrences)).readNameWord w.id (!t.isCommon w.occurrences)
            pos.phrase := by
  rw [nameReading]
  split
  · next h =>
    simp only [Bool.and_eq_true, Bool.or_eq_true, Bool.not_eq_true', decide_eq_true_eq,
      Option.isNone_iff_eq_none] at h
    simp [h, nameWordCost]
  · next h =>
    simp only [Bool.and_eq_true, Bool.or_eq_true, Bool.not_eq_true', decide_eq_true_eq,
      Option.isNone_iff_eq_none, and_assoc] at h
    simp [h]

theorem mem_partialWord_iff {w : WordToken} (hfull : w.isFull = false) :
    s' ∈ addressReading w t s pos ++ nameReading w t s pos ↔ Extends c t s pos (word w) s' := by
  rw [List.mem_append, mem_addressReading_iff, mem_nameReading_iff]
  constructor
  · rintro (⟨⟨hpos, hname⟩, rfl⟩ | ⟨⟨hpostcode, haddress, hname⟩, rfl⟩)
    · exact .partialAddress hfull hpos hname
    · cases hcommon : t.isCommon w.occurrences with
      | true => exact .partialCommonName hfull hcommon hpostcode haddress hname
      | false => exact .partialName hfull hcommon hpostcode haddress hname
  · intro h
    cases h with
    | fullAddress hf => simp [hfull] at hf
    | fullName hf => simp [hfull] at hf
    | partialAddress _ hpos hname => exact Or.inl ⟨⟨hpos, hname⟩, rfl⟩
    | partialCommonName _ hcommon hpostcode haddress hname =>
      exact Or.inr ⟨⟨hpostcode, haddress, hname⟩, by simp [hcommon]⟩
    | partialName _ hcommon hpostcode haddress hname =>
      exact Or.inr ⟨⟨hpostcode, haddress, hname⟩, by simp [hcommon]⟩

/-- The rules are all there is to extending an interpretation. -/
theorem mem_extend_iff {token : Token} :
    s' ∈ token.extend c t s pos ↔ Extends c t s pos token s' := by
  cases token with
  | country id code => exact mem_extendCountry_iff
  | postcode id code cc => exact mem_extendPostcode_iff
  | houseNumber id text => exact mem_extendHouseNumber_iff
  | special id placeType mode => exact mem_extendSpecial_iff
  | word w =>
    rw [extend]
    cases hfull : w.isFull with
    | true => exact mem_extendFullWord_iff hfull
    | false => exact mem_partialWord_iff hfull

/-! ## Costs -/

theorem one_le_houseNumberCost (id : Option Nat) (text : String) (s : Interpretation) :
    1 ≤ houseNumberCost id text s := by
  unfold houseNumberCost
  omega

theorem one_le_specialCost (s : Interpretation) (pos : Position) : 1 ≤ specialCost s pos := by
  unfold specialCost
  split_ifs <;> omega

theorem one_le_addressWordCost (w : WordToken) (t : FrequencyThresholds) :
    1 ≤ addressWordCost w t := by
  unfold addressWordCost
  omega

theorem one_le_nameWordCost (w : WordToken) (s : Interpretation) : 1 ≤ nameWordCost w s := by
  unfold nameWordCost
  omega

/-- Every reading costs at least one. -/
theorem exists_charge_of_extends {token : Token} (h : Extends c t s pos token s') :
    ∃ k, 1 ≤ k ∧ s'.cost = min (s.cost + k) Interpretation.maxCost := by
  cases h with
  | countryLast => exact ⟨1, Nat.le_refl 1, rfl⟩
  | countryInside => exact ⟨1 + countryNotLastCost, Nat.le_add_right 1 _, rfl⟩
  | postcodeSearched => exact ⟨1, Nat.le_refl 1, rfl⟩
  | @postcodeNarrowing _ code => exact ⟨1 + (4 - code.length), Nat.le_add_right 1 _, rfl⟩
  | houseNumber => exact ⟨_, one_le_houseNumberCost _ _ s, rfl⟩
  | houseName => exact ⟨_, one_le_houseNumberCost _ _ s, rfl⟩
  | specialInferred => exact ⟨3 + specialCost s pos, by omega, rfl⟩
  | specialGiven => exact ⟨_, one_le_specialCost s pos, rfl⟩
  | fullAddress => exact ⟨1, Nat.le_refl 1, rfl⟩
  | fullName => exact ⟨1, Nat.le_refl 1, rfl⟩
  | partialAddress => exact ⟨_, one_le_addressWordCost _ t, Interpretation.cost_readAddressWord ..⟩
  | partialCommonName => exact ⟨_, one_le_nameWordCost _ s, Interpretation.cost_readNameWord ..⟩
  | partialName => exact ⟨_, one_le_nameWordCost _ s, Interpretation.cost_readNameWord ..⟩

/-- Below the greatest cost there is, every reading raises the cost. -/
theorem cost_lt_of_extends {token : Token} (h : Extends c t s pos token s')
    (hs : s'.cost < Interpretation.maxCost) : s.cost < s'.cost := by
  obtain ⟨k, hk, hcost⟩ := exists_charge_of_extends h
  omega

end

end Token

end Geocoding
