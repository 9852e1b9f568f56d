import Geocoding.Atlas.Forward
import Geocoding.Resolve.Lookup

/-!
# Lookups give answers

Lookups fail only where the index fails: over an index that answers every query
(`PlaceIndex.Answers`), as an atlas does, every interpretation can be looked up
(`Lookup.answers_lookup`).
-/

namespace Geocoding

/-! ## Rules for computations that do not fail -/

/-- The computation gives an answer. -/
def Answers {ε α : Type} (x : ExceptT ε Id α) : Prop :=
  ∃ a, x = pure a

section

variable {ε α β : Type} {x y : ExceptT ε Id α}

theorem answers_pure (a : α) : Answers (pure a : ExceptT ε Id α) :=
  ⟨a, rfl⟩

theorem Answers.bind {f : α → ExceptT ε Id β} (hx : Answers x) (hf : ∀ a, Answers (f a)) :
    Answers (x >>= f) := by
  obtain ⟨a, rfl⟩ := hx
  exact hf a

theorem answers_ite {p : Prop} [Decidable p] (hx : Answers x) (hy : Answers y) :
    Answers (if p then x else y) := by
  split
  · exact hx
  · exact hy

end

/-! ## Rules for computations that give an answer with a property -/

/-- The computation gives an answer, and the answer has the property. -/
def Gives {ε α : Type} (x : ExceptT ε Id α) (P : α → Prop) : Prop :=
  ∃ a, x = pure a ∧ P a

section

variable {ε α β : Type} {x y : ExceptT ε Id α} {P Q : α → Prop}

theorem gives_pure {a : α} (h : P a) : Gives (pure a : ExceptT ε Id α) P :=
  ⟨a, rfl, h⟩

theorem Gives.mono (h : Gives x P) (hPQ : ∀ a, P a → Q a) : Gives x Q := by
  obtain ⟨a, ha, hP⟩ := h
  exact ⟨a, ha, hPQ a hP⟩

theorem Answers.gives (h : Answers x) : Gives x fun a => x = pure a := by
  obtain ⟨a, ha⟩ := h
  exact ⟨a, ha, ha⟩

theorem Gives.bind {f : α → ExceptT ε Id β} {R : β → Prop} (hx : Gives x P)
    (hf : ∀ a, P a → Gives (f a) R) : Gives (x >>= f) R := by
  obtain ⟨a, rfl, hP⟩ := hx
  exact hf a hP

theorem gives_ite {p : Prop} [Decidable p] (hx : p → Gives x P) (hy : ¬ p → Gives y P) :
    Gives (if p then x else y) P := by
  by_cases h : p
  · rw [if_pos h]
    exact hx h
  · rw [if_neg h]
    exact hy h

/-- A value that is computed in one of two ways is used in one way. -/
theorem gives_ite_bind {p : Prop} [Decidable p] {γ : Type} {z : ExceptT ε Id γ}
    {g : γ → ExceptT ε Id α} {f : α → ExceptT ε Id β} {R : β → Prop} (hx : p → Gives x P)
    (hz : ¬ p → Gives (z >>= g) P) (hf : ∀ a, P a → Gives (f a) R) :
    Gives (if p then x >>= f else z >>= fun c => g c >>= f) R := by
  refine gives_ite (fun h => (hx h).bind hf) fun h => ?_
  rw [← bind_assoc]
  exact (hz h).bind hf

end

/-! ## Indices -/

/-- The index answers the queries that lookups make. -/
structure PlaceIndex.Answers (index : PlaceIndex Id) : Prop where
  countryPlace : ∀ code box, Geocoding.Answers (index.countryPlace code box)
  areaPlaces : ∀ query, Geocoding.Answers (index.areaPlaces query)
  postcodes : ∀ query, Geocoding.Answers (index.postcodes query)
  namedPlaces : ∀ query, Geocoding.Answers (index.namedPlaces query)
  houseNumbers : ∀ query, Geocoding.Answers (index.houseNumbers query)
  interpolations : ∀ query, Geocoding.Answers (index.interpolations query)
  parcels : ∀ query, Geocoding.Answers (index.parcels query)
  ofType : ∀ ids placeType excluded limit,
    Geocoding.Answers (index.ofType ids placeType excluded limit)
  nearby : ∀ ids placeType near excluded limit,
    Geocoding.Answers (index.nearby ids placeType near excluded limit)
  otherPostcode : ∀ ids postcode, Geocoding.Answers (index.otherPostcode ids postcode)

theorem Atlas.answers (a : Atlas) : (a.placeIndex : PlaceIndex Id).Answers where
  countryPlace _ _ := answers_pure _
  areaPlaces _ := answers_pure _
  postcodes _ := answers_pure _
  namedPlaces _ := answers_pure _
  houseNumbers _ := answers_pure _
  interpolations _ := answers_pure _
  parcels _ := answers_pure _
  ofType _ _ _ _ := answers_pure _
  nearby _ _ _ _ _ := answers_pure _
  otherPostcode _ _ := answers_pure _

/-! ## Lookups -/

namespace Lookup

variable {index : PlaceIndex Id} (h : index.Answers) (c : Constraints) (scope : Scope)
  (s : Interpretation)

include h

theorem answers_country (code : String) : Answers (country index c scope code) := by
  refine answers_ite ((h.countryPlace _ _).bind fun found => ?_) (answers_pure _)
  cases found with
  | none => exact answers_pure _
  | some id => exact answers_pure _

theorem answers_areaPlaces : Answers (areaPlaces index c scope s) := by
  rw [areaPlaces]
  split
  · exact answers_ite ((h.areaPlaces _).bind fun _ => answers_pure _) (answers_pure _)
  · exact answers_pure _

theorem answers_postcodes : Answers (postcodes index c scope s) := by
  rw [postcodes]
  split
  · exact (h.postcodes _).bind fun _ => answers_pure _
  · exact answers_pure _

theorem answers_namedPlaces : Answers (namedPlaces index c scope s) :=
  (h.namedPlaces _).bind fun _ => answers_pure _

theorem answers_ranges (number : Nat) (streets : List Nat) (found : CandidateSet) :
    Answers (ranges index c scope s number streets found) := by
  have hparcels (found : CandidateSet) :
      Answers (if found.isEmpty && parcelsEnabled c scope s then do
          let ids ← index.parcels { houseNumber := number, streets, excluded := c.excluded }
          return found.extend (ids.map fun id =>
            { source := .parcel, id, houseNumber := some number })
        else return found) :=
    answers_ite ((h.parcels _).bind fun _ => answers_pure _) (answers_pure _)
  rw [ranges]
  split
  · exact (h.interpolations _).bind fun _ => hparcels _
  · exact hparcels found

theorem answers_addresses (houseNumber : String) (parents : CandidateSet) :
    Answers (addresses index c scope s houseNumber parents) := by
  rw [addresses]
  refine answers_ite ((answers_pure _).bind ?_)
    ((h.houseNumbers _).bind fun _ => (answers_pure _).bind ?_)
  -- what follows the addresses is the same in both cases
  all_goals
    intro found
    cases leadingNumber? houseNumber with
    | none => exact (answers_pure _).bind fun _ => answers_pure _
    | some number =>
      exact answers_ite ((answers_pure _).bind fun _ => answers_pure _)
        ((answers_ranges h c scope s _ _ _).bind fun _ => answers_pure _)

theorem answers_typedPlaces (placeType : PlaceType) (parents : CandidateSet) :
    Answers (typedPlaces index c scope s placeType parents) := by
  rw [typedPlaces]
  refine answers_ite (answers_pure _) ?_
  refine answers_ite ((h.ofType _ _ _ _).bind fun typed => ?_) ?_
  · exact answers_ite ((h.nearby _ _ _ _ _).bind fun _ => answers_pure _) (answers_pure _)
  · exact answers_ite ((h.nearby _ _ _ _ _).bind fun _ => answers_pure _) (answers_pure _)

theorem answers_narrowedPlaces : Answers (narrowedPlaces index c scope s) := by
  have haddresses (houseNumber : String) (found : CandidateSet) :=
    answers_addresses h c scope s houseNumber found
  have htyped (placeType : PlaceType) (found : CandidateSet) :
      Answers (if found.isEmpty then pure found else typedPlaces index c scope s placeType found) :=
    answers_ite (answers_pure _) (answers_typedPlaces h c scope s placeType found)
  rw [narrowedPlaces]
  refine (answers_namedPlaces h c scope s).bind fun found => ?_
  cases s.houseNumber with
  | none =>
    cases s.placeType with
    | none => exact (answers_pure _).bind fun _ => answers_pure _
    | some placeType => exact (answers_pure _).bind (htyped placeType)
  | some houseNumber =>
    cases s.placeType with
    | none =>
      exact answers_ite ((answers_pure _).bind fun _ => answers_pure _)
        ((haddresses houseNumber found).bind fun _ => answers_pure _)
    | some placeType =>
      exact answers_ite ((answers_pure _).bind (htyped placeType))
        ((haddresses houseNumber found).bind (htyped placeType))

theorem answers_places : Answers (places index c scope s) := by
  rw [places]
  split
  · split
    · exact answers_country h c scope _
    · exact answers_pure _
  · exact answers_ite (answers_areaPlaces h c scope s)
      (answers_ite (answers_postcodes h c scope s) (answers_narrowedPlaces h c scope s))

theorem answers_comparePostcodes (postcode : String) (found : CandidateSet) :
    Answers (comparePostcodes index postcode found) :=
  answers_ite (answers_pure _) ((h.otherPostcode _ _).bind fun _ => answers_pure _)

theorem answers_lookup : Answers (lookup index c scope s) := by
  refine (answers_places h c scope s).bind fun found => ?_
  cases s.postcode with
  | none => exact answers_pure _
  | some postcode => exact answers_comparePostcodes h postcode found

omit h

/-- Over an atlas, places are demoted that have another postcode. -/
theorem comparePostcodes_placeIndex (a : Atlas) (postcode : String) (found : CandidateSet) :
    comparePostcodes (a.placeIndex : PlaceIndex Id) postcode found =
      pure (((a.otherPostcode (found.idsIn .primary) postcode).map (Source.primary, ·)).foldl
        CandidateSet.demote found) := by
  rw [comparePostcodes, List.foldl_map]
  split
  · next hnone =>
    rw [List.isEmpty_iff.1 hnone]
    rfl
  · rfl

end Lookup

end Geocoding
