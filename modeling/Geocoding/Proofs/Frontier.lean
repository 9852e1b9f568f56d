import Geocoding.Planner
import Geocoding.Proofs.BucketSort
import Mathlib.Order.Bounds.Basic

/-!
# The frontier between two phrases

Behind a phrase the planner keeps whole buckets of equal cost, cheapest first, until it has more
than its budget (`Planner.takeBuckets`). What it keeps are all interpretations up to a cutoff
(`Planner.isFrontier_bestBuckets`): the least cost up to which there are more than the budget
allows, if there is one (`IsCutoff`). So a bucket is kept or dropped as a whole, nothing that is
dropped is as cheap as something that is kept, and the cheapest bucket is kept even if it exceeds
the budget by itself.

The cutoff is found by induction on the buckets: a bucket that is taken counts for every cost that
is not less than its own, and no later bucket counts for less (`Planner.upTo_cons`).
-/

namespace Geocoding

/-- The least cost up to which there is more than the budget allows, where `upTo` counts what there
is up to a cost; `none` if there never is. -/
def IsCutoff (budget : Nat) (upTo : Nat → Nat) : Option Nat → Prop
  | some cost => IsLeast {cost | budget < upTo cost} cost
  | none => ∀ cost, upTo cost ≤ budget

/-- Only what exceeds the budget matters. -/
theorem IsCutoff.congr {budget : Nat} {upTo upTo' : Nat → Nat} {last : Option Nat}
    (h : IsCutoff budget upTo last) (hiff : ∀ cost, budget < upTo cost ↔ budget < upTo' cost) :
    IsCutoff budget upTo' last := by
  cases last with
  | none => exact fun cost => Nat.le_of_not_lt fun hlt => Nat.not_lt.2 (h cost) ((hiff cost).2 hlt)
  | some cost => exact ⟨(hiff cost).1 h.1, fun c hc => h.2 ((hiff c).2 hc)⟩

namespace Ranking

variable {α : Type}

/-- The items of the buckets whose ranks have a property. -/
def itemsWhere (q : Nat → Bool) (buckets : List (Nat × List α)) : List α :=
  (buckets.filter fun bucket => q bucket.1).flatMap (·.2)

theorem itemsWhere_cons (q : Nat → Bool) (rank : Nat) (items : List α)
    (rest : List (Nat × List α)) :
    itemsWhere q ((rank, items) :: rest) = (if q rank then items else []) ++ itemsWhere q rest := by
  rw [itemsWhere, List.filter_cons]
  split
  · rw [List.flatMap_cons, itemsWhere]
  · rw [List.nil_append, itemsWhere]

theorem itemsWhere_eq_nil {q : Nat → Bool} {buckets : List (Nat × List α)}
    (h : ∀ rank ∈ buckets.map (·.1), q rank = false) : itemsWhere q buckets = [] := by
  have hnone : buckets.filter (fun bucket => q bucket.1) = [] := by
    refine List.filter_eq_nil_iff.2 fun bucket hbucket => ?_
    simp [h bucket.1 (List.mem_map_of_mem hbucket)]
  rw [itemsWhere, hnone, List.flatMap_nil]

theorem itemsWhere_eq_filter {q : Nat → Bool} {rankOf : α → Nat} {buckets : List (Nat × List α)}
    (h : ∀ bucket ∈ buckets, ∀ x ∈ bucket.2, rankOf x = bucket.1) :
    itemsWhere q buckets = (buckets.flatMap (·.2)).filter fun x => q (rankOf x) := by
  induction buckets with
  | nil => rfl
  | cons bucket rest ih =>
    obtain ⟨rank, items⟩ := bucket
    obtain ⟨hitems, hrest⟩ := List.forall_mem_cons.1 h
    rw [itemsWhere_cons, ih hrest, List.flatMap_cons, List.filter_append]
    congr 1
    split
    · next hq => exact (List.filter_eq_self.2 fun x hx => by rw [hitems x hx, hq]).symm
    · next hq => exact (List.filter_eq_nil_iff.2 fun x hx => by rwa [hitems x hx]).symm

/-- The buckets of a list whose ranks have a property hold the members of such ranks. -/
theorem itemsWhere_ofList (q : Nat → Bool) (rankOf : α → Nat) (xs : List α) :
    itemsWhere q (ofList rankOf xs).buckets =
      (xs.filter fun x => q (rankOf x)).mergeSort fun x y => rankOf x ≤ rankOf y := by
  have hranks : ∀ bucket ∈ (ofList rankOf xs).buckets, ∀ x ∈ bucket.2, rankOf x = bucket.1 := by
    intro bucket hbucket x hx
    exact (mem_toPairs_ofList.1 (mem_toPairs.2 ⟨bucket.2, hbucket, hx⟩)).1.symm
  rw [itemsWhere_eq_filter hranks, ← filter_mergeSort_comm, ← items_ofList, items]

end Ranking

namespace Planner

open Ranking (itemsWhere itemsWhere_cons itemsWhere_eq_nil)

variable {p : Planner}

/-- How many interpretations there are up to a cost, if some are taken already and the others are in
buckets. -/
def upTo (taken : List Interpretation) (buckets : List (Nat × List Interpretation)) (cost : Nat) :
    Nat :=
  taken.length + (itemsWhere (· ≤ cost) buckets).length

section

variable {taken items : List Interpretation} {rank cost : Nat}
  {buckets rest : List (Nat × List Interpretation)}

theorem upTo_eq_length (h : ∀ r ∈ buckets.map (·.1), cost < r) :
    upTo taken buckets cost = taken.length := by
  rw [upTo, itemsWhere_eq_nil fun r hr => decide_eq_false (Nat.not_le.2 (h r hr)), List.length_nil,
    Nat.add_zero]

/-- A bucket counts for every cost that is not less than its own, and no later one for less. -/
theorem upTo_cons (h : ∀ r ∈ rest.map (·.1), rank < r) :
    upTo taken ((rank, items) :: rest) cost =
      if rank ≤ cost then upTo (taken ++ items) rest cost else taken.length := by
  split
  · next hle => simp [upTo, itemsWhere_cons, hle, Nat.add_assoc]
  · next hlt =>
    refine upTo_eq_length (List.forall_mem_cons.2 ⟨Nat.not_le.1 hlt, fun r hr => ?_⟩)
    exact (Nat.not_le.1 hlt).trans (h r hr)

variable {budget : Nat} {last : Option Nat}

/-- The cutoff is at the bucket that exceeds the budget. -/
theorem isCutoff_cons_of_lt (h : ∀ r ∈ rest.map (·.1), rank < r) (htaken : taken.length ≤ budget)
    (hover : budget < (taken ++ items).length) :
    IsCutoff budget (upTo taken ((rank, items) :: rest)) (some rank) := by
  have hreached : budget < upTo taken ((rank, items) :: rest) rank := by
    rw [upTo_cons h, if_pos (Nat.le_refl rank)]
    exact Nat.lt_of_lt_of_le hover (Nat.le_add_right _ _)
  refine ⟨hreached, fun cost hcost => ?_⟩
  have hmore : budget < upTo taken ((rank, items) :: rest) cost := hcost
  by_contra hlt
  rw [upTo_cons h, if_neg hlt] at hmore
  exact Nat.not_lt.2 htaken hmore

/-- A bucket within the budget does not change the cutoff, which is not before it. -/
theorem isCutoff_cons (hlast : IsCutoff budget (upTo (taken ++ items) rest) last)
    (h : ∀ r ∈ rest.map (·.1), rank < r) (hwithin : (taken ++ items).length ≤ budget) :
    IsCutoff budget (upTo taken ((rank, items) :: rest)) last ∧ last.all (rank ≤ ·) = true := by
  have hbefore {cost : Nat} (hlt : cost < rank) : upTo (taken ++ items) rest cost ≤ budget := by
    rwa [upTo_eq_length fun r hr => hlt.trans (h r hr)]
  constructor
  · refine hlast.congr fun cost => ?_
    rw [upTo_cons h]
    split
    · exact Iff.rfl
    · next hlt =>
      have htaken : taken.length ≤ budget := by
        rw [List.length_append] at hwithin
        omega
      exact iff_of_false (Nat.not_lt.2 (hbefore (Nat.not_le.1 hlt))) (Nat.not_lt.2 htaken)
  · cases last with
    | none => rfl
    | some cost =>
      have hmore : budget < upTo (taken ++ items) rest cost := hlast.1
      exact decide_eq_true (Nat.le_of_not_lt fun hlt => Nat.not_lt.2 (hbefore hlt) hmore)

/-- Buckets are taken up to the cutoff. -/
theorem exists_takeBuckets_eq (h : (buckets.map (·.1)).Pairwise (· < ·))
    (htaken : taken.length ≤ budget) :
    ∃ last, IsCutoff budget (upTo taken buckets) last ∧
      takeBuckets budget buckets taken =
        taken ++ itemsWhere (fun cost => last.all (cost ≤ ·)) buckets := by
  induction buckets generalizing taken with
  | nil => exact ⟨none, fun _ => htaken, (List.append_nil taken).symm⟩
  | cons bucket rest ih =>
    obtain ⟨rank, items⟩ := bucket
    obtain ⟨hrank, hrest⟩ := List.pairwise_cons.1 h
    rw [takeBuckets]
    split
    · next hover =>
      refine ⟨some rank, isCutoff_cons_of_lt hrank htaken hover, ?_⟩
      have hnone : itemsWhere (· ≤ rank) rest = [] :=
        itemsWhere_eq_nil fun r hr => decide_eq_false (Nat.not_le.2 (hrank r hr))
      simp [itemsWhere_cons, hnone]
    · next hwithin =>
      obtain ⟨last, hlast, heq⟩ := ih hrest (Nat.not_lt.1 hwithin)
      obtain ⟨hcutoff, hfits⟩ := isCutoff_cons hlast hrank (Nat.not_lt.1 hwithin)
      exact ⟨last, hcutoff, by rw [heq, itemsWhere_cons, if_pos hfits, List.append_assoc]⟩

end

/-- A bucket that reaches the budget is not the last one, and the one that exceeds it is taken as a
whole. -/
example (s : Interpretation) :
    takeBuckets 2 [(0, [s, s]), (1, [s, s]), (2, [s])] [] = [s, s, s, s] := rfl

/-! ## What is kept -/

/-- How many of some interpretations are below the cost limit and cost at most `cost`. -/
def countUpTo (p : Planner) (states : List Interpretation) (cost : Nat) : Nat :=
  states.countP fun s => s.cost < p.limits.maxCost && s.cost ≤ cost

/-- The interpretations below the cost limit and up to a cutoff, cheapest first and otherwise in
their order. -/
def keptUpTo (p : Planner) (last : Option Nat) (states : List Interpretation) :
    List Interpretation :=
  (states.filter fun s => s.cost < p.limits.maxCost && last.all (s.cost ≤ ·)).mergeSort
    fun s t => s.cost ≤ t.cost

/-- What some interpretations are cut back to. -/
structure IsFrontier (p : Planner) (states kept : List Interpretation) : Prop where
  /-- All interpretations up to the cutoff are kept. -/
  exists_cutoff : ∃ last, IsCutoff p.limits.frontierBudget (p.countUpTo states) last ∧
    kept = p.keptUpTo last states
  /-- The interpretations of a cost are all kept, in their order, or all dropped. -/
  whole : ∀ cost, kept.filter (·.cost = cost) = states.filter (·.cost = cost) ∨
    kept.filter (·.cost = cost) = []
  /-- What is kept is cheaper than what is dropped, the interpretations beyond the limit apart. -/
  cost_lt : ∀ s ∈ kept, ∀ t ∈ states, t ∉ kept → t.cost < p.limits.maxCost → s.cost < t.cost
  /-- The cheapest interpretations are kept. -/
  cheapest : ∀ s ∈ states, s.cost < p.limits.maxCost → (∀ t ∈ states, s.cost ≤ t.cost) → s ∈ kept

theorem exists_bestBuckets_eq (states : List Interpretation) :
    ∃ last, IsCutoff p.limits.frontierBudget (p.countUpTo states) last ∧
      p.bestBuckets states = p.keptUpTo last states := by
  have hitems (q : Nat → Bool) : itemsWhere q
      (Ranking.ofList (·.cost) (states.filter (·.cost < p.limits.maxCost))).buckets =
      (states.filter fun s => s.cost < p.limits.maxCost && q s.cost).mergeSort
        fun s t => s.cost ≤ t.cost := by
    rw [Ranking.itemsWhere_ofList, List.filter_filter]
    simp only [Bool.and_comm]
  have hnone : ([] : List Interpretation).length ≤ p.limits.frontierBudget := Nat.zero_le _
  obtain ⟨last, hlast, heq⟩ := exists_takeBuckets_eq
    (Ranking.ofList (·.cost) (states.filter (·.cost < p.limits.maxCost))).ascending hnone
  refine ⟨last, hlast.congr fun cost => ?_, ?_⟩
  · rw [upTo, hitems, List.length_mergeSort, ← List.countP_eq_length_filter, List.length_nil,
      Nat.zero_add, countUpTo]
  · rw [bestBuckets, heq, hitems]
    rfl

theorem mem_keptUpTo {last : Option Nat} {states : List Interpretation} {s : Interpretation} :
    s ∈ p.keptUpTo last states ↔
      s ∈ states ∧ s.cost < p.limits.maxCost ∧ ∀ cost ∈ last, s.cost ≤ cost := by
  simp [keptUpTo, Option.all_eq_true]

theorem filter_keptUpTo (last : Option Nat) (states : List Interpretation) (cost : Nat) :
    (p.keptUpTo last states).filter (·.cost = cost) =
      if cost < p.limits.maxCost ∧ last.all (cost ≤ ·) = true then states.filter (·.cost = cost)
      else [] := by
  rw [keptUpTo, filter_mergeSort_le, List.filter_filter]
  split
  · next h =>
    refine List.filter_congr fun s _ => ?_
    by_cases hcost : s.cost = cost
    · simp [hcost, h]
    · simp [hcost]
  · next h =>
    refine List.filter_eq_nil_iff.2 fun s _ => ?_
    simp only [Bool.and_eq_true, decide_eq_true_eq]
    rintro ⟨rfl, hkept⟩
    exact h hkept

/-- Somewhere within the cutoff there is an interpretation. -/
theorem exists_cost_le_of_isCutoff {states : List Interpretation} {cost : Nat}
    (h : IsCutoff p.limits.frontierBudget (p.countUpTo states) (some cost)) :
    ∃ s ∈ states, s.cost ≤ cost := by
  have hpos : 0 < p.countUpTo states cost := Nat.zero_lt_of_lt h.1
  obtain ⟨s, hs, hcost⟩ := List.countP_pos_iff.1 hpos
  simp only [Bool.and_eq_true, decide_eq_true_eq] at hcost
  exact ⟨s, hs, hcost.2⟩

/-- The planner goes on with all interpretations up to the cutoff. -/
theorem isFrontier_bestBuckets (p : Planner) (states : List Interpretation) :
    p.IsFrontier states (p.bestBuckets states) := by
  obtain ⟨last, hlast, heq⟩ := p.exists_bestBuckets_eq states
  refine ⟨⟨last, hlast, heq⟩, fun cost => ?_, fun s hs t ht hnot hcost => ?_,
    fun s hs hcost hle => ?_⟩
  · rw [heq, filter_keptUpTo]
    split
    · exact Or.inl rfl
    · exact Or.inr rfl
  · rw [heq, mem_keptUpTo] at hs hnot
    simp only [ht, hcost, true_and, not_forall, Nat.not_le] at hnot
    obtain ⟨c, hc, hlt⟩ := hnot
    exact Nat.lt_of_le_of_lt (hs.2.2 c hc) hlt
  · rw [heq, mem_keptUpTo]
    refine ⟨hs, hcost, fun c hc => ?_⟩
    obtain rfl : last = some c := hc
    obtain ⟨t, ht, htc⟩ := exists_cost_le_of_isCutoff hlast
    exact (hle t ht).trans htc

end Planner

end Geocoding
