import Geocoding.Proofs.PlanOrder
import Geocoding.Proofs.Reading
import Mathlib.Algebra.Ring.Nat

/-!
# Every part costs

A token has at most two readings, and each of them costs at least one (`Token.length_extend_le`,
`Token.exists_charge_of_extends`). So an interpretation costs no less than the number of steps that
lead to it, as long as costs are below the greatest one there is
(`Interpretation.Reads.cost_add_length_le`), and a plan only has interpretations of fewer parts than
its cost limit (`Planner.every_part_costs`).

Nothing that is cut for its cost would lead to anything that a plan keeps
(`Interpretation.Reads.le_cost`).
-/

namespace Geocoding

namespace Token

section

variable (w : WordToken) (f : FrequencyThresholds) (s : Interpretation) (pos : Position)

theorem length_extendHouseNumber_le (id : Option Nat) (text : String) :
    (extendHouseNumber id text s pos).length ≤ 2 := by
  unfold extendHouseNumber
  cases id with
  | none => simp
  | some id =>
    simp only [List.length_cons]
    split <;> simp

theorem length_extendFullWord_le : (extendFullWord w f s pos).length ≤ 1 := by
  unfold extendFullWord
  split_ifs <;> simp

theorem length_addressReading_le : (addressReading w f s pos).length ≤ 1 := by
  unfold addressReading
  split_ifs <;> simp

theorem length_nameReading_le : (nameReading w f s pos).length ≤ 1 := by
  unfold nameReading
  split_ifs <;> simp

end

theorem length_extend_le (c : Constraints) (f : FrequencyThresholds) (s : Interpretation)
    (pos : Position) (token : Token) : (token.extend c f s pos).length ≤ 2 := by
  cases token with
  | country id code =>
    rw [extend, extendCountry]
    split <;> simp
  | postcode id code country =>
    rw [extend, extendPostcode, List.length_append]
    split_ifs <;> simp
  | houseNumber id text => exact length_extendHouseNumber_le s pos id text
  | special id placeType mode => simp [extend, extendSpecial]
  | word w =>
    rw [extend]
    split
    · have hfull := length_extendFullWord_le w f s pos
      omega
    · have haddress := length_addressReading_le w f s pos
      have hname := length_nameReading_le w f s pos
      rw [List.length_append]
      omega

theorem min_cost_le_of_extends {c : Constraints} {f : FrequencyThresholds} {s t : Interpretation}
    {pos : Position} {token : Token} (h : token.Extends c f s pos t) :
    min (s.cost + 1) Interpretation.maxCost ≤ t.cost := by
  obtain ⟨k, hk, hcost⟩ := exists_charge_of_extends h
  omega

end Token

namespace Interpretation

variable {c : Constraints} {s t : Interpretation} {steps : List Step}

theorem Reads.cost_add_length_le (h : Reads c s steps t) (ht : t.cost < maxCost) :
    s.cost + steps.length ≤ t.cost := by
  induction h with
  | done => exact Nat.le_refl _
  | step hstep _ ih =>
    -- a first step up to the greatest cost would leave the rest no lower one
    have hrest := ih ht
    have hfirst := Token.min_cost_le_of_extends hstep.extends
    rw [List.length_cons]
    omega

theorem Reads.le_cost (h : Reads c s steps t) {limit : Nat} (hlimit : limit ≤ maxCost)
    (hs : limit ≤ s.cost) : limit ≤ t.cost := by
  refine h.invariant (P := fun u => limit ≤ u.cost) hs ?_
  intro step _ u v hleads hu
  have hcost := Token.min_cost_le_of_extends hleads.extends
  omega

end Interpretation

namespace Planner

open Interpretation (Reads Step)

variable {p : Planner} {table : TokenTable} {phrases : List Phrase} {groupings : List Grouping}
  {steps : List Step}

theorem TakesParts.length_eq {pos : Position} {parts : List String}
    (h : p.TakesParts table pos parts steps) : steps.length = parts.length := by
  induction h with
  | done => rfl
  | part _ _ ih => rw [List.length_cons, List.length_cons, ih]

theorem TakesPhrases.length_eq {count index : Nat}
    (h : p.TakesPhrases table count index phrases groupings steps) :
    steps.length = (groupings.map List.length).sum := by
  induction h with
  | done => rfl
  | phrase _ hparts _ ih =>
    rw [List.length_append, List.map_cons, List.sum_cons, hparts.length_eq, ih]

/-- There is one step for every part, from whichever end a query is read. -/
theorem Takes.length_eq {structured : Bool} (h : p.Takes table phrases structured groupings steps) :
    steps.length = (groupings.map List.length).sum := by
  rcases h with h | ⟨-, h⟩
  · exact h.length_eq
  · exact h.length_eq

/-- A token has at most two readings, each of which costs at least one unless the costs end. So an
interpretation of a plan costs at least one for every part that was read for it, it takes fewer
parts than the cost limit, and what reaches the limit never leads below it. -/
theorem every_part_costs (p : Planner) (hlimit : p.limits.maxCost ≤ Interpretation.maxCost) :
    (∀ (c : Constraints) (f : FrequencyThresholds) (s : Interpretation) (pos : Position)
      (token : Token), (token.extend c f s pos).length ≤ 2 ∧
        ∀ t ∈ token.extend c f s pos, min (s.cost + 1) Interpretation.maxCost ≤ t.cost) ∧
    (∀ (table : TokenTable) (phrases : List Phrase) (roots : List Interpretation)
      (structured : Bool), table.isEmpty = false →
      ∀ s ∈ (p.plan phrases table roots structured).items,
        (∃ root ∈ roots, ∃ groupings steps,
          p.Takes table (spoken phrases) structured groupings steps ∧
            Reads p.constraints root steps s) ∧
        ∀ root groupings steps, p.Takes table (spoken phrases) structured groupings steps →
          Reads p.constraints root steps s →
            root.cost + (groupings.map List.length).sum ≤ s.cost ∧
              (groupings.map List.length).sum < p.limits.maxCost) ∧
    ∀ s steps t, Reads p.constraints s steps t → p.limits.maxCost ≤ s.cost →
      p.limits.maxCost ≤ t.cost := by
  refine ⟨fun c f s pos token => ⟨token.length_extend_le c f s pos, fun t ht => ?_⟩, ?_,
    fun s steps t h hs => h.le_cost hlimit hs⟩
  · exact Token.min_cost_le_of_extends (Token.mem_extend_iff.1 ht)
  · intro table phrases roots structured htable s hs
    refine ⟨exists_takes_of_mem_plan htable hs, ?_⟩
    intro root groupings steps htakes hreads
    obtain ⟨rank, hpair⟩ := Ranking.mem_items.1 hs
    have hcost : s.cost < p.limits.maxCost :=
      (rank_and_bounds_of_mem_passes (mem_toPairs_plan.1 hpair)).2.1
    have hsteps := hreads.cost_add_length_le (hcost.trans_le hlimit)
    rw [htakes.length_eq] at hsteps
    exact ⟨hsteps, by omega⟩

/-- A street, cut into its words. -/
def mainStreet : List Phrase := [⟨.street, ["main", "street"], [["main", "street"]]⟩]

/-- The words of the street, both read as parts of a name. -/
def mainStreetSteps : List Step := [
  ⟨.word ⟨2, "main", false, 7⟩, ⟨.street, 0, 1, 0, 2⟩, {}⟩,
  ⟨.word ⟨3, "street", false, 90⟩, ⟨.street, 0, 1, 1, 2⟩, {}⟩]

/-- The street by its name. -/
def mainStreetName : Interpretation :=
  { cost := 3, name := (TermSet.singleton 2).insert 3, namePhrase := some 0 }

theorem mainStreetName_costs :
    ({} : Planner).limits.maxCost ≤ Interpretation.maxCost ∧ streetTable.isEmpty = false ∧
    mainStreetName ∈ (({} : Planner).plan mainStreet streetTable [.root] true).items ∧
    ({} : Planner).Takes streetTable (spoken mainStreet) true [["main", "street"]]
      mainStreetSteps ∧
    Reads {} Interpretation.root mainStreetSteps mainStreetName ∧
    0 + 2 ≤ mainStreetName.cost ∧ 2 < 20 := by
  have hitems : (({} : Planner).plan mainStreet streetTable [.root] true).items =
      [mainStreetName] := by
    have hspoken : mainStreet.filter (!·.words.isEmpty) = mainStreet := rfl
    simp only [plan, passes, hspoken, pass]
    simp only [mainStreet, readPhrases, readGroupings, List.foldl_cons, List.foldl_nil,
      readGrouping, readParts, advance, Interpretation.sorted_eq_insertionSort]
    rfl
  have hmem : mainStreetName ∈ (({} : Planner).plan mainStreet streetTable [.root] true).items := by
    rw [hitems]
    exact List.mem_singleton_self _
  have htakes : ({} : Planner).Takes streetTable (spoken mainStreet) true [["main", "street"]]
      mainStreetSteps := by
    have hgrouping : ["main", "street"] ∈ [["main", "street"]] := List.mem_singleton_self _
    exact Or.inl (.phrase hgrouping (.part (by decide) (.part (by decide) .done)) .done)
  have hmain : Reads {} Interpretation.root (mainStreetSteps.take 1)
      { cost := 2, name := .singleton 2, hasRareName := true, namePhrase := some 0 } :=
    .of_leads ⟨rfl, by decide⟩
  have hstreet : Reads {}
      { cost := 2, name := .singleton 2, hasRareName := true, namePhrase := some 0 }
      (mainStreetSteps.drop 1) mainStreetName := .of_leads ⟨rfl, by decide⟩
  have hreads := hmain.append hstreet
  have hcosts := every_part_costs {} (by decide)
  obtain ⟨hparts, hlimit⟩ :=
    (hcosts.2.1 streetTable mainStreet [.root] true rfl _ hmem).2 _ _ _ htakes hreads
  exact ⟨by decide, rfl, hmem, htakes, hreads, hparts, hlimit⟩

end Planner

end Geocoding
