import Geocoding.Interpretation.Extension
import Mathlib.Data.List.Nodup
import Mathlib.Data.List.Perm.Basic
import Mathlib.Order.Basic

/-!
# Renaming word ids

The ids of words mean nothing by themselves: they depend on the order in which a vocabulary met the
words. A renaming (`Renaming`) gives every id another one. Reading a token commutes with it
(`Token.extend_rename`), as interpretations only ask whether a set of ids is empty.
-/

namespace Geocoding

/-- Other ids for the words. Zero stays, which stands for the id of an unknown postcode. -/
structure Renaming where
  toFun : Nat → Nat
  injective : Function.Injective toFun
  zero : toFun 0 = 0

instance : CoeFun Renaming fun _ => Nat → Nat := ⟨Renaming.toFun⟩

variable (σ : Renaming)

/-! ## Sets of ids -/

attribute [ext] TermSet

namespace TermSet

variable {s t : TermSet}

theorem nodup_ids (s : TermSet) : s.ids.Nodup :=
  s.ascending.imp Nat.ne_of_lt

/-- Sets are equal if they have the same members. -/
theorem ext_mem (h : ∀ id, id ∈ s ↔ id ∈ t) : s = t := by
  have hperm : s.ids.Perm t.ids := (List.perm_ext_iff_of_nodup s.nodup_ids t.nodup_ids).2 h
  exact TermSet.ext (hperm.eq_of_pairwise
    (fun a b _ _ hab hba => absurd hab (Nat.lt_asymm hba)) s.ascending t.ascending)

/-- The set of the other ids of the members. -/
def rename (s : TermSet) : TermSet :=
  .ofList (s.ids.map σ)

theorem mem_rename {id : Nat} : id ∈ s.rename σ ↔ ∃ i ∈ s, σ i = id := by
  rw [rename, mem_ofList, List.mem_map]
  rfl

@[simp] theorem apply_mem_rename {id : Nat} : σ id ∈ s.rename σ ↔ id ∈ s := by
  rw [mem_rename]
  constructor
  · rintro ⟨i, hi, heq⟩
    exact σ.injective heq ▸ hi
  · exact fun hid => ⟨id, hid, rfl⟩

theorem rename_injective : Function.Injective (rename σ) := by
  intro s t h
  refine ext_mem fun id => ?_
  rw [← apply_mem_rename σ, h, apply_mem_rename]

@[simp] theorem isEmpty_rename : (s.rename σ).isEmpty = s.isEmpty := by
  rw [Bool.eq_iff_iff, isEmpty_iff, isEmpty_iff]
  constructor
  · exact fun h id hid => h (σ id) ((apply_mem_rename σ).2 hid)
  · intro h id hid
    obtain ⟨i, hi, -⟩ := (mem_rename σ).1 hid
    exact h i hi

@[simp] theorem rename_singleton (id : Nat) : (singleton id).rename σ = singleton (σ id) :=
  rfl

@[simp] theorem rename_ofList (ids : List Nat) : (ofList ids).rename σ = ofList (ids.map σ) :=
  ext_mem fun id => by simp [mem_rename]

@[simp] theorem rename_insert (id : Nat) : (s.insert id).rename σ = (s.rename σ).insert (σ id) :=
  ext_mem fun a => by
    simp only [mem_rename, mem_insert]
    constructor
    · rintro ⟨i, rfl | hi, rfl⟩
      · exact Or.inl rfl
      · exact Or.inr ⟨i, hi, rfl⟩
    · rintro (rfl | ⟨i, hi, rfl⟩)
      · exact ⟨id, Or.inl rfl, rfl⟩
      · exact ⟨i, Or.inr hi, rfl⟩

@[simp] theorem rename_union : (s ∪ t).rename σ = s.rename σ ∪ t.rename σ :=
  ext_mem fun a => by
    simp only [mem_rename, mem_union]
    constructor
    · rintro ⟨i, hi | hi, rfl⟩
      · exact Or.inl ⟨i, hi, rfl⟩
      · exact Or.inr ⟨i, hi, rfl⟩
    · rintro (⟨i, hi, rfl⟩ | ⟨i, hi, rfl⟩)
      · exact ⟨i, Or.inl hi, rfl⟩
      · exact ⟨i, Or.inr hi, rfl⟩

/-- The other ids stand in another order, so only what does not depend on it stays the same. -/
theorem perm_ids_rename (s : TermSet) : (s.rename σ).ids.Perm (s.ids.map σ) :=
  (List.perm_ext_iff_of_nodup (nodup_ids _) (List.Nodup.map σ.injective s.nodup_ids)).2
    fun _ => (mem_rename σ).trans List.mem_map.symm

variable {p q : Nat → Bool}

theorem all_rename (h : ∀ id, p (σ id) = q id) : (s.rename σ).ids.all p = s.ids.all q := by
  rw [(perm_ids_rename σ s).all_eq, List.all_map]
  simp only [Function.comp_def, h]

theorem countP_rename (h : ∀ id, p (σ id) = q id) :
    (s.rename σ).ids.countP p = s.ids.countP q := by
  rw [(perm_ids_rename σ s).countP_eq, List.countP_map]
  simp only [Function.comp_def, h]

end TermSet

/-! ## Interpretations -/

namespace Interpretation

variable {s : Interpretation}

/-- The interpretation with other ids for its words. -/
@[simps]
def rename (s : Interpretation) : Interpretation where
  cost := s.cost
  country := s.country
  name := s.name.rename σ
  commonName := s.commonName.rename σ
  address := s.address.rename σ
  commonAddress := s.commonAddress.rename σ
  hasRareName := s.hasRareName
  needsAddress := s.needsAddress
  mode := s.mode
  placeType := s.placeType
  houseNumber := s.houseNumber
  postcode := s.postcode
  namePhrase := s.namePhrase

theorem rename_injective : Function.Injective (rename σ) := by
  intro s t h
  cases s
  cases t
  simpa only [rename, Interpretation.mk.injEq, (TermSet.rename_injective σ).eq_iff] using h

/-! What an interpretation is asked for does not depend on the ids. -/

@[simp] theorem hasName_rename : (s.rename σ).hasName = s.hasName := by
  simp [hasName]

@[simp] theorem hasAnyName_rename : (s.rename σ).hasAnyName = s.hasAnyName := by
  simp [hasAnyName]

@[simp] theorem hasAddress_rename : (s.rename σ).hasAddress = s.hasAddress := by
  simp [hasAddress]

@[simp] theorem hasAnyAddress_rename : (s.rename σ).hasAnyAddress = s.hasAnyAddress := by
  simp [hasAnyAddress]

@[simp] theorem isValid_rename : (s.rename σ).isValid = s.isValid := by
  simp [isValid]

theorem notAfter_rename (s t : Interpretation) :
    (s.rename σ).notAfter (t.rename σ) = s.notAfter t :=
  rfl

/-! Every step gives the same under the other ids. -/

@[simp] theorem charge_rename (n : Nat) : (s.rename σ).charge n = (s.charge n).rename σ :=
  rfl

@[simp] theorem closeName_rename : (s.rename σ).closeName = s.closeName.rename σ :=
  rfl

@[simp] theorem readCountry_rename (code : String) :
    (s.rename σ).readCountry code = (s.readCountry code).rename σ :=
  rfl

@[simp] theorem readPostcode_rename (code : String) :
    (s.rename σ).readPostcode code = (s.readPostcode code).rename σ :=
  rfl

@[simp] theorem searchPostcode_rename (id : Option Nat) (code : String) :
    (s.rename σ).searchPostcode (id.map σ) code = (s.searchPostcode id code).rename σ := by
  have hid : (id.map σ).getD 0 = σ (id.getD 0) := by
    cases id with
    | none => exact σ.zero.symm
    | some i => rfl
  simp [searchPostcode, rename, hid]

@[simp] theorem readHouseNumber_rename (text : String) :
    (s.rename σ).readHouseNumber text = (s.readHouseNumber text).rename σ :=
  rfl

@[simp] theorem readHouseName_rename (id : Nat) :
    (s.rename σ).readHouseName (σ id) = (s.readHouseName id).rename σ :=
  rfl

@[simp] theorem readFullName_rename (id : Nat) (rare : Bool) :
    (s.rename σ).readFullName (σ id) rare = (s.readFullName id rare).rename σ :=
  rfl

@[simp] theorem readAddressWord_rename (id : Nat) (searchable : Bool) :
    (s.rename σ).readAddressWord (σ id) searchable =
      (s.readAddressWord id searchable).rename σ := by
  unfold readAddressWord
  cases searchable <;> simp [rename]

@[simp] theorem readNameWord_rename (id : Nat) (searchable : Bool) (phrase : Nat) :
    (s.rename σ).readNameWord (σ id) searchable phrase =
      (s.readNameWord id searchable phrase).rename σ := by
  unfold readNameWord
  cases searchable <;> simp [rename]

@[simp] theorem settleRareName_rename (rare : Bool) :
    (s.rename σ).settleRareName rare = (s.settleRareName rare).rename σ :=
  rfl

@[simp] theorem withPlaceType_rename (mode : SearchMode) (placeType : PlaceType) :
    (s.rename σ).withPlaceType mode placeType = (s.withPlaceType mode placeType).rename σ :=
  rfl

end Interpretation

/-! ## Tokens -/

/-- The constraints with other ids for the words. -/
def Constraints.rename (c : Constraints) : Constraints :=
  { c with fullNameTerms := c.fullNameTerms.rename σ }

namespace Token

/-- The token with another id. -/
def rename : Token → Token
  | word w => word { w with id := σ w.id }
  | country id code => country (σ id) code
  | postcode id code owner => postcode (id.map σ) code owner
  | houseNumber id text => houseNumber (id.map σ) text
  | special id placeType mode => special (σ id) placeType mode

variable {c : Constraints} {s : Interpretation} {pos : Position} {t : Token}

theorem fits_rename : (t.rename σ).fits (c.rename σ) (s.rename σ) pos = t.fits c s pos := by
  cases t with
  | word => rfl
  | country => rfl
  | postcode => rfl
  | houseNumber => rfl
  | special id placeType mode =>
    unfold fits rename
    simp

theorem extendCountry_rename (code : String) :
    extendCountry code (s.rename σ) pos = (extendCountry code s pos).map (·.rename σ) := by
  simp [extendCountry, apply_ite (List.map _)]

theorem extendPostcode_rename (id : Option Nat) (code : String) :
    extendPostcode (id.map σ) code (s.rename σ) pos =
      (extendPostcode id code s pos).map (·.rename σ) := by
  simp [extendPostcode, apply_ite (List.map _)]

theorem extendHouseNumber_rename (id : Option Nat) (text : String) :
    extendHouseNumber (id.map σ) text (s.rename σ) pos =
      (extendHouseNumber id text s pos).map (·.rename σ) := by
  cases id with
  | none => simp [extendHouseNumber, houseNumberCost]
  | some i => simp [extendHouseNumber, houseNumberCost, apply_ite (List.map _)]

theorem extendSpecial_rename (placeType : PlaceType) (mode : SearchMode) :
    extendSpecial (c.rename σ) placeType mode (s.rename σ) pos =
      (extendSpecial c placeType mode s pos).map (·.rename σ) := by
  have hmode : inferredMode (c.rename σ) (s.rename σ) pos = inferredMode c s pos := by
    simp [inferredMode, Constraints.rename, Constraints.isBounded]
  simp [extendSpecial, hmode]

theorem extendFullWord_rename (w : WordToken) (t : FrequencyThresholds) :
    extendFullWord { w with id := σ w.id } t (s.rename σ) pos =
      (extendFullWord w t s pos).map (·.rename σ) := by
  have hcount : WordToken.wordCount { w with id := σ w.id } = w.wordCount := rfl
  simp [extendFullWord, hcount, apply_ite (List.map _)]

theorem addressReading_rename (w : WordToken) (t : FrequencyThresholds) :
    addressReading { w with id := σ w.id } t (s.rename σ) pos =
      (addressReading w t s pos).map (·.rename σ) := by
  have hnumeric : WordToken.isNumeric { w with id := σ w.id } = w.isNumeric := rfl
  simp [addressReading, hnumeric, apply_ite (List.map _)]

theorem nameReading_rename (w : WordToken) (t : FrequencyThresholds) :
    nameReading { w with id := σ w.id } t (s.rename σ) pos =
      (nameReading w t s pos).map (·.rename σ) := by
  have hnumeric : WordToken.isNumeric { w with id := σ w.id } = w.isNumeric := rfl
  by_cases hcommon : t.isCommon w.occurrences = true
  · simp [nameReading, hnumeric, hcommon, apply_ite (List.map _)]
  · simp [nameReading, hnumeric, hcommon, apply_ite (List.map _)]

/-- Reading a token gives the same under the other ids. -/
theorem extend_rename (thresholds : FrequencyThresholds) :
    (t.rename σ).extend (c.rename σ) thresholds (s.rename σ) pos =
      (t.extend c thresholds s pos).map (·.rename σ) := by
  cases t with
  | word w =>
    simp only [rename, extend, extendFullWord_rename, addressReading_rename, nameReading_rename,
      apply_ite (List.map _), List.map_append]
  | country id code => exact extendCountry_rename σ code
  | postcode id code owner => exact extendPostcode_rename σ id code
  | houseNumber id text => exact extendHouseNumber_rename σ id text
  | special id placeType mode => exact extendSpecial_rename σ placeType mode

end Token

end Geocoding
