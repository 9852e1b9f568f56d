import Geocoding.Proofs.Planning
import Geocoding.Proofs.StableOrder

/-!
# The leading interpretation

An interpretation that is as cheap as a reading can be, and that results from the first token of the
first grouping of a phrase, leads the plan of this phrase whatever the limits
(`Planner.leads_plan`): it is the first one through every sorting, cutting, merging and dropping of
duplicates.
-/

namespace Geocoding

namespace Interpretation

/-- No reading of a term is cheaper, and the tie-break prefers none. -/
structure IsLightest (s : Interpretation) : Prop where
  cost_eq : s.cost = 1
  tieBreak_eq : s.tieBreak = 0

variable {s : Interpretation}

theorem notAfter_of_one_le_cost (hs : s.IsLightest) {t : Interpretation} (ht : 1 ≤ t.cost) :
    s.notAfter t = true := by
  simp only [notAfter, hs.cost_eq, hs.tieBreak_eq, Nat.zero_le, decide_true, Bool.and_true,
    Bool.or_eq_true, decide_eq_true_eq, beq_iff_eq]
  omega

theorem notAfter_trans (a b c : Interpretation) (hab : a.notAfter b = true)
    (hbc : b.notAfter c = true) : a.notAfter c = true := by
  simp only [notAfter, Bool.or_eq_true, Bool.and_eq_true, decide_eq_true_eq, beq_iff_eq] at *
  omega

theorem notAfter_total (a b : Interpretation) : (a.notAfter b || b.notAfter a) = true := by
  simp only [notAfter, Bool.or_eq_true, Bool.and_eq_true, decide_eq_true_eq, beq_iff_eq]
  omega

/-- In this form sorting unfolds to a value. -/
theorem sorted_eq_insertionSort :
    sorted = List.insertionSort fun s t => s.notAfter t = true :=
  funext fun states => mergeSort_eq_insertionSort notAfter_trans notAfter_total states

/-- Sorting is stable, so that the first of the best stays first. -/
theorem head?_sorted (hs : s.IsLightest) {states : List Interpretation}
    (hhead : states.head? = some s) (hcosts : ∀ t ∈ states, 1 ≤ t.cost) :
    (sorted states).head? = some s := by
  obtain ⟨rest, rfl⟩ := List.head?_eq_some_iff.1 hhead
  obtain ⟨before, after, hsorted, hrest, hbefore⟩ :=
    List.mergeSort_cons notAfter_trans notAfter_total s rest
  have hnil : before = [] := by
    refine List.eq_nil_iff_forall_not_mem.2 fun t ht => ?_
    have hmem : t ∈ rest := List.mem_mergeSort.1 (hrest ▸ List.mem_append_left _ ht)
    have hle := notAfter_of_one_le_cost hs (hcosts t (List.mem_cons_of_mem _ hmem))
    simpa [hle] using hbefore t ht
  rw [sorted, hsorted, hnil]
  rfl

end Interpretation

namespace Planner

variable {p : Planner} {table : TokenTable} {s : Interpretation}

/-! ## Costs -/

theorem one_le_cost_of_readsTerm {pos : Position} {term : String} {t : Interpretation}
    (h : p.ReadsTerm table pos term s t) : 1 ≤ t.cost := by
  obtain ⟨token, -, -, hmem⟩ := h
  obtain ⟨k, hk, hcost⟩ := Token.exists_charge_of_extends (Token.mem_extend_iff.1 hmem)
  have hmax : 1 ≤ Interpretation.maxCost := by decide
  omega

theorem one_le_cost_of_readsParts {pos : Position} {parts : List String} {t : Interpretation}
    (h : p.ReadsParts table pos parts s t) (hs : 1 ≤ s.cost ∨ parts ≠ []) : 1 ≤ t.cost := by
  induction h with
  | done => exact hs.resolve_right (fun h => h rfl)
  | part hterm _ ih => exact ih (Or.inl (one_le_cost_of_readsTerm hterm))

theorem one_le_cost_of_mem_readGroupings {phrase : Phrase} {index count : Nat}
    {frontier : List Interpretation} {groupings : List Grouping}
    (hparts : ∀ grouping ∈ groupings, grouping ≠ []) {t : Interpretation}
    (h : t ∈ p.readGroupings table ⟨phrase.role, index, count, 0, 0⟩ frontier groupings) :
    1 ≤ t.cost := by
  obtain ⟨grouping, hgrouping, s, -, hread⟩ := readsParts_of_mem_readGroupings h
  exact one_le_cost_of_readsParts hread (Or.inr (hparts grouping hgrouping))

theorem one_le_cost_of_mem_readPhrases {phrase : Phrase}
    (hparts : ∀ grouping ∈ phrase.groupings, grouping ≠ []) {frontier : List Interpretation}
    {t : Interpretation} (h : t ∈ p.readPhrases table 1 0 [phrase] frontier) : 1 ≤ t.cost :=
  one_le_cost_of_mem_readGroupings hparts (mem_of_mem_bestBuckets h).1

/-! ## The first interpretation stays first -/

theorem head?_take {n : Nat} (hn : 0 < n) {states : List Interpretation}
    (h : states.head? = some s) : (states.take n).head? = some s := by
  obtain ⟨rest, rfl⟩ := List.head?_eq_some_iff.1 h
  obtain ⟨k, rfl⟩ := Nat.exists_eq_succ_of_ne_zero (Nat.ne_of_gt hn)
  rfl

theorem head?_distinctBy_id {states : List Interpretation} (h : states.head? = some s) :
    (distinctBy id states).head? = some s := by
  obtain ⟨rest, rfl⟩ := List.head?_eq_some_iff.1 h
  rw [distinctBy_cons]
  rfl

theorem head?_filter {keep : Interpretation → Bool} (hs : keep s = true)
    {states : List Interpretation} (h : states.head? = some s) :
    (states.filter keep).head? = some s := by
  obtain ⟨rest, rfl⟩ := List.head?_eq_some_iff.1 h
  rw [List.filter_cons_of_pos hs]
  rfl

theorem takeBuckets_eq_append (budget : Nat) (buckets : List (Nat × List Interpretation))
    (taken : List Interpretation) : ∃ more, takeBuckets budget buckets taken = taken ++ more := by
  induction buckets generalizing taken with
  | nil => exact ⟨[], by rw [takeBuckets, List.append_nil]⟩
  | cons bucket rest ih =>
    rw [takeBuckets]
    split
    · exact ⟨bucket.2, rfl⟩
    · obtain ⟨more, hmore⟩ := ih (taken ++ bucket.2)
      exact ⟨bucket.2 ++ more, by rw [hmore, List.append_assoc]⟩

section

variable (hs : s.IsLightest) (hcost : 1 < p.limits.maxCost)

include hs hcost

theorem head?_bestBuckets {states : List Interpretation} (hhead : states.head? = some s)
    (hcosts : ∀ t ∈ states, 1 ≤ t.cost) : (p.bestBuckets states).head? = some s := by
  have hkept : (states.filter (·.cost < p.limits.maxCost)).head? = some s :=
    head?_filter (by simpa [hs.cost_eq] using hcost) hhead
  obtain ⟨more, rest, hbuckets⟩ := Ranking.leads_ofList (·.cost) hkept fun t ht => by
    rw [hs.cost_eq]
    exact hcosts t (List.mem_of_mem_filter ht)
  rw [bestBuckets_eq, hbuckets, takeBuckets]
  split
  · rfl
  · obtain ⟨more', hmore⟩ := takeBuckets_eq_append p.limits.frontierBudget rest ([] ++ s :: more)
    rw [hmore]
    rfl

theorem head?_advance (hbeam : 0 < p.limits.beamWidth) {pos : Position} {term : String}
    {root : Interpretation} {token : Token} {rest : List Token}
    (htokens : table.get term = token :: rest)
    (hfits : token.fits p.constraints root pos = true)
    (hextend : (token.extend p.constraints p.thresholds root pos).head? = some s) :
    (p.advance pos (table.get term) [root]).head? = some s := by
  have hreadings : ([root].flatMap (p.readings table pos term)).head? = some s := by
    obtain ⟨more, hmore⟩ := List.head?_eq_some_iff.1 hextend
    rw [List.flatMap_singleton, readings, htokens, List.filter_cons_of_pos hfits,
      List.flatMap_cons, hmore]
    rfl
  rw [advance_eq]
  refine head?_take hbeam (Interpretation.head?_sorted hs ?_ ?_)
  · exact head?_filter (by simpa [hs.cost_eq] using hcost) hreadings
  · intro t ht
    obtain ⟨root, -, hmem⟩ := List.mem_flatMap.1 (List.mem_of_mem_filter ht)
    exact one_le_cost_of_readsTerm (mem_readings_iff.1 hmem)

end

theorem head?_readGroupings (hs : s.IsLightest) (hphrase : 0 < p.limits.perPhrase)
    {phrase : Phrase} {index count : Nat} {frontier : List Interpretation} {first : Grouping}
    {groupings : List Grouping} (hparts : ∀ grouping ∈ first :: groupings, grouping ≠ [])
    (hfirst : (p.readGrouping table ⟨phrase.role, index, count, 0, 0⟩ frontier first).head? =
      some s) :
    (p.readGroupings table ⟨phrase.role, index, count, 0, 0⟩ frontier
      (first :: groupings)).head? = some s := by
  have hstep (before : List Grouping) {grouping : Grouping}
      (hbefore : ∀ g ∈ before ++ [grouping], g ≠ [])
      (hhead : (p.readGroupings table ⟨phrase.role, index, count, 0, 0⟩ frontier before ++
        p.readGrouping table ⟨phrase.role, index, count, 0, 0⟩ frontier grouping).head? =
          some s) :
      (p.readGroupings table ⟨phrase.role, index, count, 0, 0⟩ frontier
        (before ++ [grouping])).head? = some s := by
    rw [readGroupings_concat]
    refine head?_take hphrase (head?_distinctBy_id (Interpretation.head?_sorted hs hhead ?_))
    intro t ht
    rcases List.mem_append.1 ht with ht | ht
    · exact one_le_cost_of_mem_readGroupings
        (fun g hg => hbefore g (List.mem_append_left _ hg)) ht
    · rw [readGrouping_eq] at ht
      obtain ⟨root, -, hread⟩ := readsParts_of_mem_readParts ht
      exact one_le_cost_of_readsParts hread (Or.inr (hbefore grouping (by simp)))
  induction groupings using List.reverseRecOn with
  | nil => exact hstep [] hparts (by simpa [readGroupings] using hfirst)
  | append_singleton groupings grouping ih =>
    have hhead := ih fun g hg => hparts g (List.mem_append_left _ hg)
    exact hstep (first :: groupings) hparts (by rw [List.head?_append, hhead]; rfl)

/-! ## Plans of one phrase -/

theorem one_le_rank_of_mem_pass {phrase : Phrase}
    (hparts : ∀ grouping ∈ phrase.groupings, grouping ≠ []) {roots : List Interpretation}
    {bucket : Nat × List Interpretation} (h : bucket ∈ (p.pass table [phrase] roots).buckets) :
    1 ≤ bucket.1 := by
  obtain ⟨t, ht, hrank⟩ := Ranking.exists_rank_of_mem_ofList h
  rw [hrank]
  exact one_le_cost_of_mem_readPhrases hparts (List.mem_filter.1 ht).1

theorem isEmpty_eq_false_of_get {term : String} {token : Token} {rest : List Token}
    (h : table.get term = token :: rest) : table.isEmpty = false := by
  rw [TokenTable.isEmpty, List.isEmpty_eq_false_iff]
  intro hnil
  simp [TokenTable.get, hnil] at h

section

variable (hs : s.IsLightest) (hvalid : s.isValid = true) (hcost : 1 < p.limits.maxCost)
  (hbeam : 0 < p.limits.beamWidth) (hphrase : 0 < p.limits.perPhrase) {phrase : Phrase}
  {root : Interpretation} {term : String} {groupings : List Grouping} {token : Token}
  {rest : List Token} (hgroupings : phrase.groupings = [term] :: groupings)
  (hparts : ∀ grouping ∈ phrase.groupings, grouping ≠ [])
  (htokens : table.get term = token :: rest)
  (hfits : token.fits p.constraints root ⟨phrase.role, 0, 1, 0, 1⟩ = true)
  (hextend : (token.extend p.constraints p.thresholds root
    ⟨phrase.role, 0, 1, 0, 1⟩).head? = some s)

include hs hvalid hcost hbeam hphrase hgroupings hparts htokens hfits hextend

theorem leads_pass : (p.pass table [phrase] [root]).Leads 1 s := by
  have hread : (p.readGroupings table ⟨phrase.role, 0, 1, 0, 0⟩ [root]
      phrase.groupings).head? = some s := by
    rw [hgroupings] at hparts ⊢
    exact head?_readGroupings hs hphrase hparts
      (head?_advance hs hcost hbeam htokens hfits hextend)
  have hhead : (p.readPhrases table 1 0 [phrase] [root]).head? = some s :=
    head?_bestBuckets hs hcost hread fun t ht => one_le_cost_of_mem_readGroupings hparts ht
  rw [← hs.cost_eq]
  refine Ranking.leads_ofList (·.cost) (head?_filter hvalid hhead) fun t ht => ?_
  rw [hs.cost_eq]
  exact one_le_cost_of_mem_readPhrases hparts (List.mem_filter.1 ht).1

/-- The first reading of the only phrase leads its plan. -/
theorem leads_plan (hwords : phrase.words ≠ []) :
    (p.plan [phrase] table [root] false).Leads 1 s := by
  have hpass : (p.pass table [phrase] [root]).Leads 1 s :=
    leads_pass hs hvalid hcost hbeam hphrase hgroupings hparts htokens hfits hextend
  have hinverted : ∀ grouping ∈ phrase.inverted.groupings, grouping ≠ [] := by
    intro grouping hgrouping
    obtain ⟨g, hg, rfl⟩ := List.mem_map.1 hgrouping
    simpa using hparts g hg
  have hmerge := hpass.merge (b := p.pass table [phrase.inverted] [root])
    fun bucket hbucket => one_le_rank_of_mem_pass hinverted hbucket
  -- all items of the first bucket cost as much as the leading one
  have hsorted := hmerge.mapBuckets (f := Interpretation.sorted) fun items hitems hhead => by
    refine Interpretation.head?_sorted hs hhead fun t ht => ?_
    have hpair := Ranking.mem_toPairs.2 ⟨items, hitems, ht⟩
    rcases Ranking.mem_toPairs_merge.1 hpair with hpair | hpair
    · exact (mem_toPairs_pass.1 hpair).1.le
    · exact (mem_toPairs_pass.1 hpair).1.le
  have hpasses : p.passes [phrase] table [root] false =
      ((p.pass table [phrase] [root]).merge (p.pass table [phrase.inverted] [root])).mapBuckets
        Interpretation.sorted := by
    simp [passes, isEmpty_eq_false_of_get htokens, backwards, invertLast]
  have hspoken : [phrase].filter (!·.words.isEmpty) = [phrase] := by simpa using hwords
  obtain ⟨pairs, hpairs, hranks⟩ := hsorted.toPairs
  rw [plan, hspoken, hpasses, withoutDuplicates, hpairs, distinctBy_cons]
  exact Ranking.leads_ofPairs fun pair hpair =>
    hranks pair ((distinctBy_go_sublist _ _ _).mem hpair)

end

end Planner

end Geocoding
