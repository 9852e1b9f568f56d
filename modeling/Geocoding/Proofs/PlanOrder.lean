import Geocoding.Proofs.Leading

/-!
# The form of a plan

A plan is a ranking by cost, and whatever the limits, the phrases, the tokens and the roots are, it
has no empty bucket, no interpretation twice and none that cannot be looked up
(`Planner.plan_form`).

If there is something to read, every bucket has its interpretations in order, the ones that do not
speak against themselves by their mode or a long house number first, and there are no more of them
than the limit per phrase allows, or twice as many for free text. Both are established behind every
phrase, where interpretations are sorted and cut, and the rest of planning keeps them: what is
ranked again stays in order within a rank (`Ranking.filter_items_ofList`), and the two passes over
free text are sorted once more when they are joined.
-/

namespace Geocoding

namespace Interpretation

/-- What can be looked up: a house number has a name, without a name there is a type of places or a
country to search for, and a house number that serves as a name has an address. -/
theorem isValid_iff {s : Interpretation} :
    s.isValid = true ↔
      (s.houseNumber.isSome = true → s.hasName = true) ∧
      (s.hasName = false → s.placeType.isSome = true ∨ s.country.isSome = true) ∧
      (s.needsAddress = true → s.hasAddress = true) := by
  unfold isValid hasAddress
  cases s.hasName with
  | true => cases s.needsAddress <;> simp
  | false => cases s.houseNumber <;> cases s.needsAddress <;> simp

theorem pairwise_sorted (states : List Interpretation) :
    (sorted states).Pairwise fun s t => s.notAfter t = true :=
  List.pairwise_mergeSort notAfter_trans notAfter_total states

/-- Interpretations of equal cost stand in order. -/
def SortedByCost (states : List Interpretation) : Prop :=
  ∀ cost, (states.filter (·.cost = cost)).Pairwise fun s t => s.notAfter t = true

theorem SortedByCost.of_pairwise {states : List Interpretation}
    (h : states.Pairwise fun s t => s.notAfter t = true) : SortedByCost states :=
  fun _ => h.sublist List.filter_sublist

theorem SortedByCost.sublist {kept states : List Interpretation} (h : SortedByCost states)
    (hsub : kept.Sublist states) : SortedByCost kept :=
  fun cost => (h cost).sublist (hsub.filter _)

/-- Ranking by cost does not change the order among equals. -/
theorem SortedByCost.items_ofList {states : List Interpretation} (h : SortedByCost states) :
    SortedByCost (Ranking.ofList (·.cost) states).items := by
  intro cost
  rw [Ranking.filter_items_ofList]
  exact h cost

end Interpretation

namespace Planner

open Interpretation (SortedByCost)

variable {p : Planner} {table : TokenTable}

/-! ## Behind a phrase -/

theorem pairwise_readGroupings (pos : Position) (frontier : List Interpretation)
    (groupings : List Grouping) :
    (p.readGroupings table pos frontier groupings).Pairwise fun s t => s.notAfter t = true := by
  cases groupings using List.reverseRecOn with
  | nil => exact .nil
  | append_singleton groupings grouping =>
    rw [readGroupings_concat]
    have hsorted := Interpretation.pairwise_sorted
      (p.readGroupings table pos frontier groupings ++ p.readGrouping table pos frontier grouping)
    exact (hsorted.sublist (distinctBy_sublist id _)).sublist (List.take_sublist _ _)

theorem length_readGroupings_le (pos : Position) (frontier : List Interpretation)
    (groupings : List Grouping) :
    (p.readGroupings table pos frontier groupings).length ≤ p.limits.perPhrase := by
  cases groupings using List.reverseRecOn with
  | nil => exact Nat.zero_le _
  | append_singleton groupings grouping =>
    rw [readGroupings_concat]
    exact List.length_take_le ..

theorem sortedByCost_bestBuckets {states : List Interpretation} (h : SortedByCost states) :
    SortedByCost (p.bestBuckets states) := by
  rw [bestBuckets_eq]
  exact (h.sublist List.filter_sublist).items_ofList.sublist (takeBuckets_sublist _ _ [])

theorem length_bestBuckets_le (states : List Interpretation) :
    (p.bestBuckets states).length ≤ states.length :=
  (bestBuckets_subperm states).length_le.trans (List.length_filter_le ..)

/-- The frontier behind a phrase is in order and within the limit, wherever it comes from. -/
theorem readPhrases_form {index count : Nat} {phrases : List Phrase}
    {frontier : List Interpretation}
    (h : phrases ≠ [] ∨ SortedByCost frontier ∧ frontier.length ≤ p.limits.perPhrase) :
    SortedByCost (p.readPhrases table count index phrases frontier) ∧
      (p.readPhrases table count index phrases frontier).length ≤ p.limits.perPhrase := by
  induction phrases generalizing index frontier with
  | nil => exact h.resolve_left (fun h => h rfl)
  | cons phrase rest ih =>
    refine ih (Or.inr ⟨?_, ?_⟩)
    · exact sortedByCost_bestBuckets (.of_pairwise (pairwise_readGroupings _ _ _))
    · exact (length_bestBuckets_le _).trans (length_readGroupings_le _ _ _)

/-! ## Passes -/

theorem pairwise_bucket_of_pass {phrases : List Phrase} {roots : List Interpretation}
    (hphrases : phrases ≠ []) {rank : Nat} {states : List Interpretation}
    (h : (rank, states) ∈ (p.pass table phrases roots).buckets) :
    states.Pairwise fun s t => s.notAfter t = true := by
  have hfrontier : SortedByCost (p.readPhrases table phrases.length 0 phrases roots) :=
    (readPhrases_form (Or.inl hphrases)).1
  rw [Ranking.eq_filter_of_mem_ofList h]
  exact hfrontier.sublist List.filter_sublist rank

theorem length_toPairs_pass_le {phrases : List Phrase} {roots : List Interpretation}
    (hphrases : phrases ≠ []) :
    (p.pass table phrases roots).toPairs.length ≤ p.limits.perPhrase := by
  have hfrontier : (p.readPhrases table phrases.length 0 phrases roots).length ≤
      p.limits.perPhrase := (readPhrases_form (Or.inl hphrases)).2
  rw [pass, (Ranking.toPairs_ofList_perm _ _).length_eq, List.length_map]
  exact (List.length_filter_le ..).trans hfrontier

theorem pairwise_bucket_of_passes {phrases : List Phrase} {roots : List Interpretation}
    {structured : Bool} (htable : table.isEmpty = false) (hphrases : phrases ≠ []) {rank : Nat}
    {states : List Interpretation}
    (h : (rank, states) ∈ (p.passes phrases table roots structured).buckets) :
    states.Pairwise fun s t => s.notAfter t = true := by
  have hempty : phrases.isEmpty = false := by simpa using hphrases
  cases structured with
  | true =>
    simp only [passes, htable, hempty, Bool.or_false, Bool.false_eq_true, if_false, if_true] at h
    exact pairwise_bucket_of_pass hphrases h
  | false =>
    simp only [passes, htable, hempty, Bool.or_false, Bool.false_eq_true, if_false,
      Ranking.buckets_mapBuckets, List.mem_map, Prod.mk.injEq] at h
    obtain ⟨⟨r, unsorted⟩, -, -, rfl⟩ := h
    exact Interpretation.pairwise_sorted unsorted

theorem length_toPairs_passes_le {phrases : List Phrase} {roots : List Interpretation}
    {structured : Bool} (htable : table.isEmpty = false) (hphrases : phrases ≠ []) :
    (p.passes phrases table roots structured).toPairs.length ≤
      if structured then p.limits.perPhrase else 2 * p.limits.perPhrase := by
  have hempty : phrases.isEmpty = false := by simpa using hphrases
  have hforth : (p.pass table phrases roots).toPairs.length ≤ p.limits.perPhrase :=
    length_toPairs_pass_le hphrases
  cases structured with
  | true =>
    simpa only [passes, htable, hempty, Bool.or_false, Bool.false_eq_true, if_false, if_true]
      using hforth
  | false =>
    have hback : (p.pass table (backwards phrases) roots).toPairs.length ≤ p.limits.perPhrase :=
      length_toPairs_pass_le (backwards_ne_nil hphrases)
    simp only [passes, htable, hempty, Bool.or_false, Bool.false_eq_true, if_false]
    rw [Ranking.length_toPairs_mapBuckets fun _ => (Interpretation.sorted_perm _).length_eq,
      (Ranking.toPairs_merge_perm _ _).length_eq, List.length_append]
    omega

/-! ## The plan -/

theorem rank_and_bounds_of_mem_passes {phrases : List Phrase} {roots : List Interpretation}
    {structured : Bool} {rank : Nat} {s : Interpretation}
    (h : (rank, s) ∈ (p.passes phrases table roots structured).toPairs) :
    rank = s.cost ∧ s.cost < p.limits.maxCost ∧ s.isValid = true := by
  by_cases hall : table.isEmpty = false ∧ phrases ≠ []
  · have hderived : rank = s.cost ∧ s.isValid = true ∧ s.cost < p.limits.maxCost := by
      rcases (mem_toPairs_passes hall.1 hall.2).1 h with h | ⟨-, h⟩
      · obtain ⟨hrank, hvalid, hcost, -⟩ := derives_of_mem_pass hall.2 h
        exact ⟨hrank, hvalid, hcost⟩
      · obtain ⟨hrank, hvalid, hcost, -⟩ := derives_of_mem_pass (backwards_ne_nil hall.2) h
        exact ⟨hrank, hvalid, hcost⟩
    exact ⟨hderived.1, hderived.2.2, hderived.2.1⟩
  · rw [passes_eq_rootsOnly hall] at h
    obtain ⟨hrank, -, hcost, hvalid⟩ := mem_toPairs_rootsOnly.1 h
    exact ⟨hrank, hcost, hvalid⟩

theorem nodup_items_withoutDuplicates (ranking : Ranking Interpretation) :
    (withoutDuplicates ranking).items.Nodup := by
  rw [Ranking.items_eq_map_toPairs, withoutDuplicates]
  have hperm := (Ranking.toPairs_ofPairs_perm (distinctBy (·.2) ranking.toPairs)).map (·.2)
  exact hperm.nodup_iff.2 (nodup_map_distinctBy (·.2) ranking.toPairs)

theorem length_items_withoutDuplicates_le (ranking : Ranking Interpretation) :
    (withoutDuplicates ranking).items.length ≤ ranking.toPairs.length := by
  rw [Ranking.items_eq_map_toPairs, withoutDuplicates, List.length_map,
    (Ranking.toPairs_ofPairs_perm _).length_eq]
  exact (distinctBy_sublist _ _).length_le

/-- Every bucket of a plan has interpretations, all of its cost, below the cost limit and such that
they can be looked up; and no interpretation is there twice. If there are tokens and a phrase that
is not blank, the interpretations of a bucket are in order, and there are no more of them in all
than the limit per phrase, or twice as many for free text. -/
theorem plan_form (p : Planner) (table : TokenTable) (phrases : List Phrase)
    (roots : List Interpretation) (structured : Bool) :
    (∀ rank states, (rank, states) ∈ (p.plan phrases table roots structured).buckets →
      states ≠ [] ∧ ∀ s ∈ states, s.cost = rank ∧ s.cost < p.limits.maxCost ∧
        s.isValid = true ∧ (s.houseNumber.isSome = true → s.hasName = true) ∧
        (s.hasName = false → s.placeType.isSome = true ∨ s.country.isSome = true) ∧
        (s.needsAddress = true → s.hasAddress = true)) ∧
    (p.plan phrases table roots structured).items.Nodup ∧
    (table.isEmpty = false → spoken phrases ≠ [] →
      (∀ rank states, (rank, states) ∈ (p.plan phrases table roots structured).buckets →
        states.Pairwise fun s t => s.notAfter t = true) ∧
      (p.plan phrases table roots structured).items.length ≤
        if structured then p.limits.perPhrase else 2 * p.limits.perPhrase) := by
  have hparts : ∀ {rank states}, (rank, states) ∈ (p.plan phrases table roots structured).buckets →
      states ≠ [] ∧ ∃ all, (rank, all) ∈
        (p.passes (spoken phrases) table roots structured).buckets ∧ states.Sublist all :=
    fun h => Ranking.exists_bucket_of_mem_ofPairs (distinctBy_sublist _ _) h
  refine ⟨fun rank states h => ?_, nodup_items_withoutDuplicates _, fun htable hphrases =>
    ⟨fun rank states h => ?_, ?_⟩⟩
  · obtain ⟨hne, all, hall, hsub⟩ := hparts h
    refine ⟨hne, fun s hs => ?_⟩
    have hpair := Ranking.mem_toPairs.2 ⟨all, hall, hsub.mem hs⟩
    obtain ⟨hrank, hcost, hvalid⟩ := rank_and_bounds_of_mem_passes hpair
    exact ⟨hrank.symm, hcost, hvalid, Interpretation.isValid_iff.1 hvalid⟩
  · obtain ⟨-, all, hall, hsub⟩ := hparts h
    exact (pairwise_bucket_of_passes htable hphrases hall).sublist hsub
  · exact (length_items_withoutDuplicates_le _).trans (length_toPairs_passes_le htable hphrases)

/-- Free text of one word, which is a full and a partial word of `streetTable`. -/
def wordPhrases : List Phrase := [⟨.untyped, ["bonn"], [["bonn"]]⟩]

theorem wordPlan_form :
    (({} : Planner).plan wordPhrases streetTable [.root] false).buckets.map
        (fun bucket => (bucket.1, bucket.2.map (·.hasRareName))) = [(1, [true]), (2, [true])] ∧
      (∀ rank states,
        (rank, states) ∈ (({} : Planner).plan wordPhrases streetTable [.root] false).buckets →
          states.Pairwise fun s t => s.notAfter t = true) ∧
      (({} : Planner).plan wordPhrases streetTable [.root] false).items.length ≤ 200 := by
  have hform := (plan_form {} streetTable wordPhrases [.root] false).2.2 (by decide) (by decide)
  have hbackwards : backwards wordPhrases = wordPhrases := rfl
  have hspoken : wordPhrases.filter (!·.words.isEmpty) = wordPhrases := rfl
  refine ⟨?_, hform.1, hform.2⟩
  simp only [plan, passes, hspoken, hbackwards]
  simp only [pass, wordPhrases, readPhrases, readGroupings, List.foldl_cons, List.foldl_nil,
    readGrouping, readParts, advance, Interpretation.sorted_eq_insertionSort]
  rfl

end Planner

end Geocoding
