import Geocoding.Proofs.Derivation
import Geocoding.Proofs.Distinct
import Geocoding.Proofs.Extension
import Geocoding.Proofs.Ranking
import Mathlib.Data.List.Flatten
import Mathlib.Data.List.Perm.Subperm

/-!
# Planning against all derivations

Planning keeps a part of what can be derived (`Planner.wanted_of_mem_plan`): pruning drops
interpretations, and it neither makes one up nor passes over a word.

What pruning drops beyond the cost limit is only what does not fit the limits on numbers. The
invariant is `Planner.Covers`: the interpretations at hand are among the derivations that have made
the same progress, and none below the cost limit is missing. Since a reading never lowers the cost
(`Token.cost_lt_of_extends`), an interpretation that ends below the limit was below it all along.
-/

namespace Geocoding

theorem Interpretation.sorted_perm (states : List Interpretation) :
    (Interpretation.sorted states).Perm states :=
  List.mergeSort_perm states _

theorem Interpretation.mem_sorted {states : List Interpretation} {s : Interpretation} :
    s ∈ Interpretation.sorted states ↔ s ∈ states :=
  (sorted_perm states).mem_iff

namespace Planner

variable {p : Planner} {table : TokenTable}

/-! ## Pruning -/

theorem advance_eq (pos : Position) (term : String) (states : List Interpretation) :
    p.advance pos (table.get term) states =
      (Interpretation.sorted ((states.flatMap (p.readings table pos term)).filter
        (·.cost < p.limits.maxCost))).take p.limits.beamWidth := rfl

theorem readGrouping_eq (phrase : Phrase) (index count : Nat) (frontier : List Interpretation)
    (grouping : Grouping) :
    p.readGrouping table ⟨phrase.role, index, count, 0, 0⟩ frontier grouping =
      p.readParts table (firstPart phrase index count grouping) grouping frontier := rfl

theorem takeBuckets_sublist (budget : Nat) (buckets : List (Nat × List Interpretation))
    (taken : List Interpretation) :
    (takeBuckets budget buckets taken).Sublist (taken ++ buckets.flatMap (·.2)) := by
  induction buckets generalizing taken with
  | nil => simp [takeBuckets]
  | cons bucket rest ih =>
    rw [takeBuckets, List.flatMap_cons, ← List.append_assoc]
    split
    · exact List.sublist_append_left ..
    · exact ih _

theorem takeBuckets_eq_of_length_le {budget : Nat} {buckets : List (Nat × List Interpretation)}
    {taken : List Interpretation} (h : (taken ++ buckets.flatMap (·.2)).length ≤ budget) :
    takeBuckets budget buckets taken = taken ++ buckets.flatMap (·.2) := by
  induction buckets generalizing taken with
  | nil => simp [takeBuckets]
  | cons bucket rest ih =>
    rw [List.flatMap_cons, ← List.append_assoc] at h ⊢
    have hlen : ¬ budget < (taken ++ bucket.2).length := by
      rw [List.length_append] at h
      omega
    rw [takeBuckets, if_neg hlen]
    exact ih h

/-- The interpretations below the cost limit, in buckets. -/
theorem bestBuckets_eq (states : List Interpretation) :
    p.bestBuckets states = takeBuckets p.limits.frontierBudget
      (Ranking.ofList (·.cost) (states.filter (·.cost < p.limits.maxCost))).buckets [] := rfl

theorem bestBuckets_subperm (states : List Interpretation) :
    (p.bestBuckets states).Subperm (states.filter (·.cost < p.limits.maxCost)) := by
  rw [bestBuckets_eq]
  refine (takeBuckets_sublist _ _ []).subperm.trans ?_
  exact (Ranking.items_ofList_perm Interpretation.cost _).subperm

theorem bestBuckets_perm_of_length_le {states : List Interpretation}
    (h : states.length ≤ p.limits.frontierBudget) :
    (p.bestBuckets states).Perm (states.filter (·.cost < p.limits.maxCost)) := by
  have hperm := Ranking.items_ofList_perm Interpretation.cost
    (states.filter (·.cost < p.limits.maxCost))
  have hlen := hperm.length_eq.trans_le ((List.length_filter_le ..).trans h)
  rw [bestBuckets_eq, takeBuckets_eq_of_length_le hlen]
  exact hperm

/-! ## Nothing is made up -/

theorem readsTerm_of_mem_advance {pos : Position} {term : String} {states : List Interpretation}
    {t : Interpretation} (h : t ∈ p.advance pos (table.get term) states) :
    ∃ s ∈ states, p.ReadsTerm table pos term s t := by
  rw [advance_eq] at h
  have hmem := List.mem_of_mem_filter (Interpretation.mem_sorted.1 (List.mem_of_mem_take h))
  obtain ⟨s, hs, ht⟩ := List.mem_flatMap.1 hmem
  exact ⟨s, hs, mem_readings_iff.1 ht⟩

theorem readsParts_of_mem_readParts {pos : Position} {parts : List String}
    {states : List Interpretation} {t : Interpretation}
    (h : t ∈ p.readParts table pos parts states) :
    ∃ s ∈ states, p.ReadsParts table pos parts s t := by
  induction parts generalizing pos states with
  | nil => exact ⟨t, h, .done⟩
  | cons term rest ih =>
    obtain ⟨s', hs', hrest⟩ := ih h
    obtain ⟨s, hs, hterm⟩ := readsTerm_of_mem_advance hs'
    exact ⟨s, hs, .part hterm hrest⟩

/-- One more grouping: its interpretations join those found so far. -/
theorem readGroupings_concat (pos : Position) (frontier : List Interpretation)
    (groupings : List Grouping) (grouping : Grouping) :
    p.readGroupings table pos frontier (groupings ++ [grouping]) =
      (distinctBy id (Interpretation.sorted (p.readGroupings table pos frontier groupings ++
        p.readGrouping table pos frontier grouping))).take p.limits.perPhrase := by
  simp [readGroupings]

theorem readsParts_of_mem_readGroupings {phrase : Phrase} {index count : Nat}
    {frontier : List Interpretation} {groupings : List Grouping} {t : Interpretation}
    (h : t ∈ p.readGroupings table ⟨phrase.role, index, count, 0, 0⟩ frontier groupings) :
    ∃ grouping ∈ groupings, ∃ s ∈ frontier,
      p.ReadsParts table (firstPart phrase index count grouping) grouping s t := by
  induction groupings using List.reverseRecOn with
  | nil => simp [readGroupings] at h
  | append_singleton groupings grouping ih =>
    rw [readGroupings_concat] at h
    have hmem := mem_distinctBy_id.1 (List.mem_of_mem_take h)
    rcases List.mem_append.1 (Interpretation.mem_sorted.1 hmem) with h | h
    · obtain ⟨g, hg, s, hs, hread⟩ := ih h
      exact ⟨g, List.mem_append_left _ hg, s, hs, hread⟩
    · rw [readGrouping_eq] at h
      obtain ⟨s, hs, hread⟩ := readsParts_of_mem_readParts h
      exact ⟨grouping, by simp, s, hs, hread⟩

theorem mem_of_mem_bestBuckets {states : List Interpretation} {t : Interpretation}
    (h : t ∈ p.bestBuckets states) : t ∈ states ∧ t.cost < p.limits.maxCost := by
  simpa using (bestBuckets_subperm states).subset h

theorem readsPhrases_of_mem_readPhrases {index count : Nat} {phrases : List Phrase}
    {frontier : List Interpretation} {t : Interpretation}
    (h : t ∈ p.readPhrases table count index phrases frontier) :
    ∃ s ∈ frontier, p.ReadsPhrases table count index phrases s t := by
  induction phrases generalizing index frontier with
  | nil => exact ⟨t, h, .done⟩
  | cons phrase rest ih =>
    obtain ⟨s', hs', hrest⟩ := ih h
    obtain ⟨grouping, hgrouping, s, hs, hparts⟩ :=
      readsParts_of_mem_readGroupings (mem_of_mem_bestBuckets hs').1
    exact ⟨s, hs, .phrase hgrouping hparts hrest⟩

/-- Behind a phrase, every interpretation is below the cost limit. -/
theorem cost_lt_of_mem_readPhrases {index count : Nat} {phrases : List Phrase}
    {frontier : List Interpretation} {t : Interpretation}
    (h : t ∈ p.readPhrases table count index phrases frontier)
    (hfrontier : phrases ≠ [] ∨ ∀ s ∈ frontier, s.cost < p.limits.maxCost) :
    t.cost < p.limits.maxCost := by
  induction phrases generalizing index frontier with
  | nil => exact (hfrontier.resolve_left (by simp)) t h
  | cons phrase rest ih => exact ih h (Or.inr fun s hs => (mem_of_mem_bestBuckets hs).2)

/-! ## Nothing cheap is lost while the limits on numbers do not bind -/

/-- The interpretations at hand are among `all`, repetitions counted, and all of those below the
cost limit are there. -/
structure Covers (limit : Nat) (kept all : List Interpretation) : Prop where
  subperm : kept.Subperm all
  complete : ∀ s ∈ all, s.cost < limit → s ∈ kept

theorem Covers.refl (limit : Nat) (states : List Interpretation) : Covers limit states states :=
  ⟨.refl _, fun _ hs _ => hs⟩

theorem Covers.append {limit : Nat} {kept all kept' all' : List Interpretation}
    (h : Covers limit kept all) (h' : Covers limit kept' all') :
    Covers limit (kept ++ kept') (all ++ all') where
  subperm := h.subperm.append h'.subperm
  complete s hs hcost := by
    rcases List.mem_append.1 hs with hs | hs
    · exact List.mem_append_left _ (h.complete s hs hcost)
    · exact List.mem_append_right _ (h'.complete s hs hcost)

/-- Interpretations may be rearranged, and dropped if they are repeated or too expensive. -/
theorem Covers.mono {limit : Nat} {kept all kept' : List Interpretation} (h : Covers limit kept all)
    (hsub : kept'.Subperm kept) (hmem : ∀ s ∈ kept, s.cost < limit → s ∈ kept') :
    Covers limit kept' all where
  subperm := hsub.trans h.subperm
  complete s hs hcost := hmem s (h.complete s hs hcost) hcost

theorem subperm_flatMap {α β : Type} (f : α → List β) {xs ys : List α} (h : xs.Subperm ys) :
    (xs.flatMap f).Subperm (ys.flatMap f) := by
  obtain ⟨zs, hperm, hsub⟩ := h
  exact (hperm.symm.flatMap_right f).subperm.trans (hsub.flatMap f).subperm

/-- A reading that ends below the limit began below it. -/
theorem cost_lt_of_mem_readings (hlimit : p.limits.maxCost ≤ Interpretation.maxCost)
    {pos : Position} {term : String} {s t : Interpretation} (ht : t ∈ p.readings table pos term s)
    (hcost : t.cost < p.limits.maxCost) : s.cost < p.limits.maxCost := by
  obtain ⟨token, -, -, ht⟩ := mem_readings_iff.1 ht
  have hlt := Token.cost_lt_of_extends (Token.mem_extend_iff.1 ht) (hcost.trans_le hlimit)
  exact hlt.trans hcost

theorem Covers.flatMap_readings (hlimit : p.limits.maxCost ≤ Interpretation.maxCost)
    {pos : Position} {term : String} {kept all : List Interpretation}
    (h : Covers p.limits.maxCost kept all) :
    Covers p.limits.maxCost (kept.flatMap (p.readings table pos term))
      (all.flatMap (p.readings table pos term)) where
  subperm := subperm_flatMap _ h.subperm
  complete t ht hcost := by
    obtain ⟨s, hs, ht⟩ := List.mem_flatMap.1 ht
    exact List.mem_flatMap.2 ⟨s, h.complete s hs (cost_lt_of_mem_readings hlimit ht hcost), ht⟩

theorem Covers.advance (hlimit : p.limits.maxCost ≤ Interpretation.maxCost)
    {pos : Position} {term : String} {kept all : List Interpretation}
    (h : Covers p.limits.maxCost kept all)
    (hbeam : (all.flatMap (p.readings table pos term)).length ≤ p.limits.beamWidth) :
    Covers p.limits.maxCost (p.advance pos (table.get term) kept)
      (all.flatMap (p.readings table pos term)) := by
  have hread : Covers p.limits.maxCost (kept.flatMap (p.readings table pos term))
      (all.flatMap (p.readings table pos term)) := h.flatMap_readings hlimit
  have hlen : (Interpretation.sorted ((kept.flatMap (p.readings table pos term)).filter
      (·.cost < p.limits.maxCost))).length ≤ p.limits.beamWidth := by
    rw [(Interpretation.sorted_perm _).length_eq]
    exact (List.length_filter_le ..).trans (hread.subperm.length_le.trans hbeam)
  rw [advance_eq, List.take_of_length_le hlen]
  refine hread.mono ?_ fun s hs hcost => ?_
  · exact (Interpretation.sorted_perm _).subperm.trans List.filter_sublist.subperm
  · exact Interpretation.mem_sorted.2 (List.mem_filter.2 ⟨hs, by simpa using hcost⟩)

theorem Covers.readParts (hlimit : p.limits.maxCost ≤ Interpretation.maxCost)
    {pos : Position} {parts : List String} {kept all : List Interpretation}
    (h : Covers p.limits.maxCost kept all)
    (hbeam : p.breadthOfParts table pos parts all ≤ p.limits.beamWidth) :
    Covers p.limits.maxCost (p.readParts table pos parts kept)
      (p.allParts table pos parts all) := by
  induction parts generalizing pos kept all with
  | nil => exact h
  | cons term rest ih =>
    have hrest := (le_max_right _ _).trans hbeam
    exact ih (h.advance hlimit ((length_le_breadthOfParts ..).trans hrest)) hrest

theorem Covers.readGroupings (hlimit : p.limits.maxCost ≤ Interpretation.maxCost)
    {phrase : Phrase} {index count : Nat} {kept all : List Interpretation}
    (h : Covers p.limits.maxCost kept all) {groupings : List Grouping}
    (hbeam : ∀ grouping ∈ groupings,
      p.breadthOfParts table (firstPart phrase index count grouping) grouping all ≤
        p.limits.beamWidth)
    (hphrase : (groupings.flatMap fun grouping =>
      p.allParts table (firstPart phrase index count grouping) grouping all).length ≤
        p.limits.perPhrase) :
    Covers p.limits.maxCost
      (p.readGroupings table ⟨phrase.role, index, count, 0, 0⟩ kept groupings)
      (groupings.flatMap fun grouping =>
        p.allParts table (firstPart phrase index count grouping) grouping all) := by
  induction groupings using List.reverseRecOn with
  | nil => exact .refl _ _
  | append_singleton groupings grouping ih =>
    rw [List.flatMap_append, List.flatMap_singleton] at hphrase ⊢
    have hfound := ih (fun g hg => hbeam g (List.mem_append_left _ hg))
      ((List.sublist_append_left ..).length_le.trans hphrase)
    have hnew := h.readParts hlimit (hbeam grouping (by simp))
    have hboth := hfound.append hnew
    have hdistinct := distinctBy_sublist id (Interpretation.sorted
      (p.readGroupings table ⟨phrase.role, index, count, 0, 0⟩ kept groupings ++
        p.readGrouping table ⟨phrase.role, index, count, 0, 0⟩ kept grouping))
    have hsub := hdistinct.subperm.trans (Interpretation.sorted_perm _).subperm
    rw [readGroupings_concat, List.take_of_length_le
      (hsub.length_le.trans (hboth.subperm.length_le.trans hphrase))]
    exact hboth.mono hsub fun s hs _ => mem_distinctBy_id.2 (Interpretation.mem_sorted.2 hs)

theorem Covers.bestBuckets {kept all : List Interpretation} (h : Covers p.limits.maxCost kept all)
    (hbudget : all.length ≤ p.limits.frontierBudget) :
    Covers p.limits.maxCost (p.bestBuckets kept) all := by
  have hperm := bestBuckets_perm_of_length_le (p := p) (h.subperm.length_le.trans hbudget)
  refine h.mono ?_ fun s hs hcost => ?_
  · exact hperm.subperm.trans List.filter_sublist.subperm
  · exact hperm.mem_iff.2 (List.mem_filter.2 ⟨hs, by simpa using hcost⟩)

theorem Covers.readPhrases (hlimit : p.limits.maxCost ≤ Interpretation.maxCost)
    {index count breadth : Nat} (hbeam : breadth ≤ p.limits.beamWidth)
    (hphrase : breadth ≤ p.limits.perPhrase) (hbudget : breadth ≤ p.limits.frontierBudget)
    {phrases : List Phrase} {kept all : List Interpretation}
    (h : Covers p.limits.maxCost kept all)
    (hbreadth : p.breadthOfPhrases table count index phrases all ≤ breadth) :
    Covers p.limits.maxCost (p.readPhrases table count index phrases kept)
      (p.allPhrases table count index phrases all) := by
  induction phrases generalizing index kept all with
  | nil => exact h
  | cons phrase rest ih =>
    have hrest := (breadthOfPhrases_le_cons count index phrase rest all).trans hbreadth
    have hall : (p.allGroupings table count index phrase all).length ≤ breadth :=
      (length_le_breadthOfPhrases ..).trans hrest
    refine ih (Covers.bestBuckets ?_ (hall.trans hbudget)) hrest
    exact h.readGroupings hlimit
      (fun grouping hg => (breadthOfParts_le hg).trans (hbreadth.trans hbeam)) (hall.trans hphrase)

/-! ## Plans -/

theorem mem_toPairs_pass {phrases : List Phrase} {roots : List Interpretation} {rank : Nat}
    {s : Interpretation} :
    (rank, s) ∈ (p.pass table phrases roots).toPairs ↔
      rank = s.cost ∧ s ∈ p.readPhrases table phrases.length 0 phrases roots ∧
        s.isValid = true := by
  rw [pass, Ranking.mem_toPairs_ofList, List.mem_filter]

theorem mem_toPairs_rootsOnly {roots : List Interpretation} {rank : Nat} {s : Interpretation} :
    (rank, s) ∈ (p.rootsOnly roots).toPairs ↔
      rank = s.cost ∧ s ∈ roots ∧ s.cost < p.limits.maxCost ∧ s.isValid = true := by
  rw [rootsOnly, Ranking.mem_toPairs_ofList, List.mem_filter]
  simp

theorem mem_toPairs_passes {phrases : List Phrase} {roots : List Interpretation}
    {structured : Bool} (htable : table.isEmpty = false) (hphrases : phrases ≠ [])
    {pair : Nat × Interpretation} :
    pair ∈ (p.passes phrases table roots structured).toPairs ↔
      pair ∈ (p.pass table phrases roots).toPairs ∨
        structured = false ∧ pair ∈ (p.pass table (backwards phrases) roots).toPairs := by
  have hempty : phrases.isEmpty = false := by simpa using hphrases
  cases structured with
  | true => simp [passes, htable, hempty]
  | false =>
    simp only [passes, htable, hempty, Bool.or_false, Bool.false_eq_true, if_false, true_and]
    rw [Ranking.mem_toPairs_mapBuckets fun _ _ => Interpretation.mem_sorted,
      Ranking.mem_toPairs_merge]

/-- Without tokens or without phrases, the roots are all there is. -/
theorem passes_eq_rootsOnly {phrases : List Phrase} {roots : List Interpretation}
    {structured : Bool} (h : ¬ (table.isEmpty = false ∧ phrases ≠ [])) :
    p.passes phrases table roots structured = p.rootsOnly roots := by
  have hroots : (table.isEmpty || phrases.isEmpty) = true := by
    rw [not_and_or] at h
    simpa using h
  rw [passes, if_pos hroots]

/-- Interpretations are ranked by their cost. -/
theorem rank_eq_cost_of_mem_passes {phrases : List Phrase} {roots : List Interpretation}
    {structured : Bool} {rank : Nat} {s : Interpretation}
    (h : (rank, s) ∈ (p.passes phrases table roots structured).toPairs) : rank = s.cost := by
  by_cases hall : table.isEmpty = false ∧ phrases ≠ []
  · rcases (mem_toPairs_passes hall.1 hall.2).1 h with h | ⟨-, h⟩
    · exact (mem_toPairs_pass.1 h).1
    · exact (mem_toPairs_pass.1 h).1
  · rw [passes_eq_rootsOnly hall] at h
    exact (mem_toPairs_rootsOnly.1 h).1

/-- The phrases that are planned: those that are not blank. -/
def spoken (phrases : List Phrase) : List Phrase :=
  phrases.filter (!·.words.isEmpty)

theorem mem_toPairs_plan {phrases : List Phrase} {roots : List Interpretation}
    {structured : Bool} {rank : Nat} {s : Interpretation} :
    (rank, s) ∈ (p.plan phrases table roots structured).toPairs ↔
      (rank, s) ∈ (p.passes (spoken phrases) table roots structured).toPairs := by
  rw [plan, withoutDuplicates, ← spoken, (Ranking.toPairs_ofPairs_perm _).mem_iff]
  constructor
  · exact fun h => (distinctBy_sublist _ _).mem h
  · intro h
    obtain ⟨⟨rank', s'⟩, hmem, hs⟩ := exists_mem_distinctBy Prod.snd h
    obtain rfl : s' = s := hs
    have hrank := rank_eq_cost_of_mem_passes ((distinctBy_sublist _ _).mem hmem)
    rw [rank_eq_cost_of_mem_passes h, ← hrank]
    exact hmem

theorem backwards_ne_nil {phrases : List Phrase} (h : phrases ≠ []) : backwards phrases ≠ [] := by
  unfold backwards
  split
  · next hnil => exact absurd (List.reverse_eq_nil_iff.1 hnil) h
  · simp

/-- What planning is after: a valid interpretation below the cost limit that can be derived from the
phrases, in the order given or, unless the query is structured, from its end. -/
def Wanted (p : Planner) (table : TokenTable) (phrases : List Phrase)
    (roots : List Interpretation) (structured : Bool) (s : Interpretation) : Prop :=
  s.isValid = true ∧ s.cost < p.limits.maxCost ∧
    (p.Derives table phrases roots s ∨
      structured = false ∧ p.Derives table (backwards phrases) roots s)

/-- The largest number of partial derivations that have made the same progress, in either order of
reading. -/
def breadthOfPlan (p : Planner) (table : TokenTable) (phrases : List Phrase)
    (roots : List Interpretation) (structured : Bool) : Nat :=
  if structured then p.breadth table phrases roots
  else max (p.breadth table phrases roots) (p.breadth table (backwards phrases) roots)

theorem derives_of_mem_pass {phrases : List Phrase} {roots : List Interpretation} {rank : Nat}
    {s : Interpretation} (hphrases : phrases ≠ [])
    (h : (rank, s) ∈ (p.pass table phrases roots).toPairs) :
    rank = s.cost ∧ s.isValid = true ∧ s.cost < p.limits.maxCost ∧
      p.Derives table phrases roots s := by
  obtain ⟨hrank, hmem, hvalid⟩ := mem_toPairs_pass.1 h
  exact ⟨hrank, hvalid, cost_lt_of_mem_readPhrases hmem (Or.inl hphrases),
    readsPhrases_of_mem_readPhrases hmem⟩

theorem mem_pass_of_derives (hlimit : p.limits.maxCost ≤ Interpretation.maxCost)
    {phrases : List Phrase} {roots : List Interpretation} {s : Interpretation}
    (hbeam : p.breadth table phrases roots ≤ p.limits.beamWidth)
    (hphrase : p.breadth table phrases roots ≤ p.limits.perPhrase)
    (hbudget : p.breadth table phrases roots ≤ p.limits.frontierBudget)
    (hvalid : s.isValid = true) (hcost : s.cost < p.limits.maxCost)
    (h : p.Derives table phrases roots s) :
    (s.cost, s) ∈ (p.pass table phrases roots).toPairs := by
  have hcovers : Covers p.limits.maxCost (p.readPhrases table phrases.length 0 phrases roots)
      (p.allPhrases table phrases.length 0 phrases roots) :=
    (Covers.refl _ roots).readPhrases hlimit hbeam hphrase hbudget le_rfl
  exact mem_toPairs_pass.2
    ⟨rfl, hcovers.complete s (mem_allPhrases_iff_derives.2 h) hcost, hvalid⟩

theorem wanted_of_mem_plan {phrases : List Phrase} {roots : List Interpretation}
    {structured : Bool} (htable : table.isEmpty = false) (hphrases : spoken phrases ≠ [])
    {rank : Nat} {s : Interpretation}
    (h : (rank, s) ∈ (p.plan phrases table roots structured).toPairs) :
    rank = s.cost ∧ p.Wanted table (spoken phrases) roots structured s := by
  rw [mem_toPairs_plan, mem_toPairs_passes htable hphrases] at h
  rcases h with h | ⟨hfree, h⟩
  · obtain ⟨hrank, hvalid, hcost, hderives⟩ := derives_of_mem_pass hphrases h
    exact ⟨hrank, hvalid, hcost, Or.inl hderives⟩
  · obtain ⟨hrank, hvalid, hcost, hderives⟩ := derives_of_mem_pass (backwards_ne_nil hphrases) h
    exact ⟨hrank, hvalid, hcost, Or.inr ⟨hfree, hderives⟩⟩

theorem mem_plan_of_wanted {phrases : List Phrase} {roots : List Interpretation}
    {structured : Bool} (htable : table.isEmpty = false) (hphrases : spoken phrases ≠ [])
    (hlimit : p.limits.maxCost ≤ Interpretation.maxCost)
    (hbeam : p.breadthOfPlan table (spoken phrases) roots structured ≤ p.limits.beamWidth)
    (hphrase : p.breadthOfPlan table (spoken phrases) roots structured ≤ p.limits.perPhrase)
    (hbudget : p.breadthOfPlan table (spoken phrases) roots structured ≤ p.limits.frontierBudget)
    {s : Interpretation} (h : p.Wanted table (spoken phrases) roots structured s) :
    (s.cost, s) ∈ (p.plan phrases table roots structured).toPairs := by
  obtain ⟨hvalid, hcost, hderives⟩ := h
  rw [mem_toPairs_plan, mem_toPairs_passes htable hphrases]
  have hforth : p.breadth table (spoken phrases) roots ≤
      p.breadthOfPlan table (spoken phrases) roots structured := by
    cases structured with
    | true => exact le_rfl
    | false => exact le_max_left _ _
  rcases hderives with hderives | ⟨rfl, hderives⟩
  · exact Or.inl (mem_pass_of_derives hlimit (hforth.trans hbeam) (hforth.trans hphrase)
      (hforth.trans hbudget) hvalid hcost hderives)
  · have hback : p.breadth table (backwards (spoken phrases)) roots ≤
        p.breadthOfPlan table (spoken phrases) roots false := le_max_right _ _
    exact Or.inr ⟨rfl, mem_pass_of_derives hlimit (hback.trans hbeam) (hback.trans hphrase)
      (hback.trans hbudget) hvalid hcost hderives⟩

/-- A plan consists of wanted interpretations, whatever the limits, and of all of them as soon as
the limits on numbers are no smaller than the number of partial derivations that have made the same
progress. -/
theorem plan_subset_wanted_and_eq_of_breadth_le (p : Planner) (table : TokenTable)
    (phrases : List Phrase) (roots : List Interpretation) (structured : Bool)
    (htable : table.isEmpty = false) (hphrases : spoken phrases ≠ []) :
    (∀ rank s, (rank, s) ∈ (p.plan phrases table roots structured).toPairs →
      rank = s.cost ∧ p.Wanted table (spoken phrases) roots structured s) ∧
    (p.limits.maxCost ≤ Interpretation.maxCost →
      p.breadthOfPlan table (spoken phrases) roots structured ≤ p.limits.beamWidth →
      p.breadthOfPlan table (spoken phrases) roots structured ≤ p.limits.perPhrase →
      p.breadthOfPlan table (spoken phrases) roots structured ≤ p.limits.frontierBudget →
      ∀ s, s ∈ (p.plan phrases table roots structured).items ↔
        p.Wanted table (spoken phrases) roots structured s) := by
  refine ⟨fun rank s h => wanted_of_mem_plan htable hphrases h, ?_⟩
  intro hlimit hbeam hphrase hbudget s
  rw [Ranking.mem_items]
  constructor
  · rintro ⟨rank, h⟩
    exact (wanted_of_mem_plan htable hphrases h).2
  · exact fun h => ⟨s.cost, mem_plan_of_wanted htable hphrases hlimit hbeam hphrase hbudget h⟩

/-- The words of a street and of its city. -/
def streetTable : TokenTable := .ofList [
  ("main street", .word ⟨1, "main street", true, 3⟩), ("main", .word ⟨2, "main", false, 7⟩),
  ("street", .word ⟨3, "street", false, 90⟩), ("bonn", .word ⟨4, "bonn", true, 1⟩),
  ("bonn", .word ⟨5, "bonn", false, 1⟩)]

/-- A street and its city, cut into the words of `streetTable`. -/
def streetPhrases : List Phrase := [
  ⟨.untyped, ["main", "street"], [["main street"], ["main", "street"]]⟩,
  ⟨.untyped, ["bonn"], [["bonn"]]⟩]

/-- The street by its full name, in the city by its partial one. -/
def streetInCity : Interpretation :=
  { cost := 2, name := .singleton 1, address := .singleton 5, hasRareName := true }

theorem derives_streetInCity :
    ({} : Planner).Derives streetTable streetPhrases [.root] streetInCity := by
  have hstreet : ({} : Planner).ReadsTerm streetTable ⟨.untyped, 0, 2, 0, 1⟩ "main street" .root
      { cost := 1, name := .singleton 1, hasRareName := true } :=
    ⟨.word ⟨1, "main street", true, 3⟩, by decide, rfl, by decide⟩
  have hcity : ({} : Planner).ReadsTerm streetTable ⟨.untyped, 1, 2, 0, 1⟩ "bonn"
      { cost := 1, name := .singleton 1, hasRareName := true } streetInCity :=
    ⟨.word ⟨5, "bonn", false, 1⟩, by decide, rfl, by decide⟩
  have hwhole : ["main street"] ∈ [["main street"], ["main", "street"]] := by decide
  have hbonn : ["bonn"] ∈ [["bonn"]] := by decide
  refine ⟨.root, List.mem_singleton_self _, ?_⟩
  exact .phrase hwhole (.part hstreet .done) (.phrase hbonn (.part hcity .done) .done)

theorem streetInCity_mem_plan :
    streetTable.isEmpty = false ∧ spoken streetPhrases ≠ [] ∧
      ({} : Planner).breadthOfPlan streetTable (spoken streetPhrases) [.root] false ≤ 50 ∧
      streetInCity ∈ (({} : Planner).plan streetPhrases streetTable [.root] false).items := by
  have hbreadth :
      ({} : Planner).breadthOfPlan streetTable (spoken streetPhrases) [.root] false ≤ 50 := by
    decide
  refine ⟨by decide, by decide, hbreadth, ?_⟩
  exact ((plan_subset_wanted_and_eq_of_breadth_le {} streetTable streetPhrases [.root] false
    (by decide) (by decide)).2 (by decide) hbreadth (hbreadth.trans (by decide)) hbreadth _).2
    ⟨by decide, by decide, Or.inl derives_streetInCity⟩

end Planner

end Geocoding
