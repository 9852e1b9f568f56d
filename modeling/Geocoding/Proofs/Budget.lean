import Geocoding.Proofs.Recording
import Mathlib.Data.List.Forall2
import Mathlib.Order.Nat

/-!
# The budget of resolving

Resolving visits an initial segment of the groups of a ranking, no more than the limits allow, and
looks up a first part of each of them (`Resolver.WithinBudget`). What is on record before a group
obeys the limits and leaves something for that group (`Resolver.OnBudget`), so places are carried
only to groups in which interpretations are looked up (`Resolver.lookups_within_budget`).
-/

namespace Geocoding

namespace Resolver

/-- The batch that was looked up in a group: some of its first interpretations, no more than the
limit for a group. -/
structure LookedUp (limits : ResolverLimits) (batch : List Interpretation)
    (bucket : Nat × List Interpretation) : Prop where
  ne_nil : batch ≠ []
  length_le : batch.length ≤ limits.perGroup
  prefix_bucket : batch <+: bucket.2

/-- The batches that were looked up while a ranking was resolved: a batch for each of its first
groups, no more groups and no more interpretations than the limits. -/
structure WithinBudget (limits : ResolverLimits) (buckets : List (Nat × List Interpretation))
    (batches : List (List Interpretation)) : Prop where
  groups : batches.length ≤ limits.maxGroups
  queries : batches.flatten.length ≤ limits.maxQueries
  lookedUp : ∃ visited, visited <+: buckets ∧ List.Forall₂ (LookedUp limits) batches visited

/-- The batches that were looked up before a stage: a batch for each group before it, with something
of each limit left, and no places that are carried to nowhere. -/
structure OnBudget (limits : ResolverLimits) (buckets : List (Nat × List Interpretation))
    (stage : Stage) (batches : List (List Interpretation)) : Prop where
  visited : batches.length = stage.visited
  queried : batches.flatten.length = stage.queried
  lookedUp : ∃ before, buckets = before ++ stage.groups ∧
    List.Forall₂ (LookedUp limits) batches before
  visited_lt : stage.visited < limits.maxGroups
  queried_lt : stage.queried < limits.maxQueries
  kept_eq_empty : stage.groups = [] → stage.kept = ∅

section

variable {limits : ResolverLimits} {buckets rest : List (Nat × List Interpretation)}
  {bucket : Nat × List Interpretation} {stage : Stage} {batches : List (List Interpretation)}
  {batch : List Interpretation}

theorem OnBudget.withinBudget (h : OnBudget limits buckets stage batches) :
    WithinBudget limits buckets batches := by
  obtain ⟨before, hbuckets, hlookedUp⟩ := h.lookedUp
  exact {
    groups := h.visited.trans_le h.visited_lt.le
    queries := h.queried.trans_le h.queried_lt.le
    lookedUp := ⟨before, hbuckets ▸ List.prefix_append _ _, hlookedUp⟩ }

theorem OnBudget.mem_of_mem_groups (h : OnBudget limits buckets stage batches)
    (hbucket : bucket ∈ stage.groups) : bucket ∈ buckets := by
  obtain ⟨before, hbuckets, -⟩ := h.lookedUp
  exact hbuckets ▸ List.mem_append_right before hbucket

theorem forall₂_lookedUp_concat {before : List (Nat × List Interpretation)}
    (hbefore : List.Forall₂ (LookedUp limits) batches before)
    (hbatch : LookedUp limits batch bucket) :
    List.Forall₂ (LookedUp limits) (batches ++ [batch]) (before ++ [bucket]) :=
  List.rel_append hbefore (.cons hbatch .nil)

/-- One more batch is within the budget too, if it keeps to what is left. -/
theorem OnBudget.withinBudget_concat (h : OnBudget limits buckets stage batches)
    (hgroups : stage.groups = bucket :: rest) (hbatch : LookedUp limits batch bucket)
    (hleft : batch.length ≤ limits.maxQueries - stage.queried) :
    WithinBudget limits buckets (batches ++ [batch]) := by
  obtain ⟨before, hbuckets, hlookedUp⟩ := h.lookedUp
  have hvisited := h.visited
  have hvisited_lt := h.visited_lt
  have hqueried := h.queried
  have hqueried_lt := h.queried_lt
  refine ⟨?_, ?_, before ++ [bucket], ?_, forall₂_lookedUp_concat hlookedUp hbatch⟩
  · rw [List.length_append, List.length_singleton]
    omega
  · rw [List.flatten_append, List.flatten_singleton, List.length_append]
    omega
  · rw [hbuckets, hgroups, List.append_cons before bucket rest]
    exact List.prefix_append _ _

end

/-! ## A batch -/

variable {σ : Type} {r : Resolver (StateM σ)} {buckets rest : List (Nat × List Interpretation)}
  {bucket : Nat × List Interpretation} {stage next : Stage} {R R' : Recorded σ}

theorem lookedUp_batch {queried rank : Nat} {states batch : List Interpretation}
    (hperGroup : 0 < r.limits.perGroup) (hqueried : queried < r.limits.maxQueries)
    (hstates : states ≠ []) (hbatch : batch <+: r.batch queried states)
    (hne : r.batch queried states ≠ [] → batch ≠ []) :
    LookedUp r.limits batch (rank, states) ∧ batch.length ≤ r.limits.maxQueries - queried := by
  have hlength := hbatch.length_le.trans (List.length_take_le _ _)
  refine ⟨⟨hne ?_, hlength.trans (Nat.min_le_left _ _), hbatch.trans (List.take_prefix _ _)⟩,
    hlength.trans (Nat.min_le_right _ _)⟩
  rw [Resolver.batch, Ne, List.take_eq_nil_iff]
  rintro (hnone | hnone)
  · omega
  · exact hstates hnone

/-- If a turn is not cancelled, its group is looked up, and within the budget. -/
theorem OnBudget.exists_batch (h : OnBudget r.limits buckets stage R.batches)
    (hgroups : stage.groups = bucket :: rest) (hbuckets : ∀ bucket ∈ buckets, bucket.2 ≠ [])
    (hperGroup : 0 < r.limits.perGroup) :
    Ends (r.recorded.turn stage) R fun _ R' =>
      ((r.isCancelled R.world).1 = true ∧ R'.batches = R.batches) ∨
        ∃ batch, R'.batches = R.batches ++ [batch] ∧ LookedUp r.limits batch bucket ∧
          WithinBudget r.limits buckets R'.batches := by
  have hstates : bucket.2 ≠ [] := hbuckets bucket (h.mem_of_mem_groups (by simp [hgroups]))
  refine (exists_batch_of_turn hgroups R).mono fun _ R' hturn => ?_
  rcases hturn with ⟨hcancelled, -, hR'⟩ | ⟨batch, hprefix, hne, hR', -⟩
  · exact Or.inl ⟨hcancelled, hR'⟩
  · obtain ⟨hbatch, hleft⟩ := lookedUp_batch hperGroup h.queried_lt hstates hprefix hne
    exact Or.inr ⟨batch, hR', hbatch, hR' ▸ h.withinBudget_concat hgroups hbatch hleft⟩

/-- Whatever comes of a turn, it ends within the budget. -/
theorem OnBudget.withinBudget_of_turn (h : OnBudget r.limits buckets stage R.batches)
    (hbuckets : ∀ bucket ∈ buckets, bucket.2 ≠ []) (hperGroup : 0 < r.limits.perGroup) :
    WithinBudget r.limits buckets (outcome (r.recorded.turn stage) R).2.batches := by
  cases hgroups : stage.groups with
  | nil =>
    rw [turn, hgroups]
    exact h.withinBudget
  | cons bucket rest =>
    rcases h.exists_batch hgroups hbuckets hperGroup with ⟨-, hR'⟩ | ⟨-, -, -, hwithin⟩
    · exact hR' ▸ h.withinBudget
    · exact hwithin

/-- The group that places were carried to is looked up next, and stays on record. -/
theorem OnBudget.exists_batch_of_kept (h : OnBudget r.limits buckets stage R.batches)
    (hbuckets : ∀ bucket ∈ buckets, bucket.2 ≠ []) (hperGroup : 0 < r.limits.perGroup)
    (hkept : stage.kept ≠ ∅) (hflag : (r.isCancelled R.world).1 = false) :
    ∃ bucket batch, stage.groups.head? = some bucket ∧ LookedUp r.limits batch bucket ∧
      R.batches ++ [batch] <+: (outcome (r.recorded.visitFrom stage) R).2.batches := by
  obtain ⟨bucket, rest, hgroups⟩ :=
    List.exists_cons_of_ne_nil fun hnil => hkept (h.kept_eq_empty hnil)
  rcases h.exists_batch hgroups hbuckets hperGroup with ⟨hcancelled, -⟩ | ⟨batch, hR', hbatch, -⟩
  · exact absurd hcancelled (by simp [hflag])
  · exact ⟨bucket, batch, by rw [hgroups, List.head?_cons], hbatch,
      hR' ▸ prefix_of_turn_visitFrom stage R⟩

/-! ## The run -/

theorem onBudget_start {ranking : Ranking Interpretation} (hmaxGroups : 0 < r.limits.maxGroups)
    (hmaxQueries : 0 < r.limits.maxQueries) :
    OnBudget r.limits ranking.buckets (.start ranking) [] where
  visited := rfl
  queried := rfl
  lookedUp := ⟨[], rfl, .nil⟩
  visited_lt := hmaxGroups
  queried_lt := hmaxQueries
  kept_eq_empty _ := rfl

/-- A turn that goes on leaves something of each limit for the next group. -/
theorem OnBudget.goesOn (h : OnBudget r.limits buckets stage R.batches)
    (hbuckets : ∀ bucket ∈ buckets, bucket.2 ≠ []) (hperGroup : 0 < r.limits.perGroup)
    (hgoesOn : r.recorded.GoesOn (stage, R) (next, R')) :
    OnBudget r.limits buckets next R'.batches := by
  have hprecedes := precedes_of_goesOn hgoesOn
  obtain ⟨rank, states, hgroups, hqueried⟩ := hprecedes.groups
  obtain ⟨before, hbefore, hlookedUp⟩ := h.lookedUp
  have hturn := exists_batch_of_turn (r := r) hgroups R
  rw [Ends, hgoesOn] at hturn
  obtain ⟨-, hout, -⟩ | ⟨batch, hprefix, hne, hR', hall⟩ := hturn
  · cases hout
  · -- a turn that goes on has looked up the whole batch
    obtain rfl := hall ⟨_, rfl⟩
    have hstates : states ≠ [] :=
      hbuckets (rank, states) (h.mem_of_mem_groups (by simp [hgroups]))
    have hbatch : LookedUp r.limits _ (rank, states) :=
      (lookedUp_batch hperGroup h.queried_lt hstates hprefix hne).1
    refine ⟨?_, ?_, ⟨before ++ [(rank, states)], ?_, ?_⟩, hprecedes.visited_lt,
      hprecedes.queried_lt, fun hnil => absurd hnil hprecedes.groups_ne_nil⟩
    · rw [hR', List.length_append, List.length_singleton, h.visited, hprecedes.visited]
    · rw [hR', List.flatten_append, List.flatten_singleton, List.length_append, h.queried, hqueried]
      rfl
    · rw [hbefore, hgroups, List.append_cons]
    · exact hR' ▸ forall₂_lookedUp_concat hlookedUp hbatch

theorem onBudget_of_goesOn {ranking : Ranking Interpretation} {w : σ}
    (hbuckets : ∀ bucket ∈ ranking.buckets, bucket.2 ≠ []) (hperGroup : 0 < r.limits.perGroup)
    (hmaxGroups : 0 < r.limits.maxGroups) (hmaxQueries : 0 < r.limits.maxQueries)
    {there : Stage × Recorded σ}
    (h : Relation.ReflTransGen r.recorded.GoesOn (.start ranking, { world := w }) there) :
    OnBudget r.limits ranking.buckets there.1 there.2.batches := by
  induction h with
  | refl => exact onBudget_start hmaxGroups hmaxQueries
  | tail _ hgoesOn ih => exact ih.goesOn hbuckets hperGroup hgoesOn

/-- Resolving the ranking comes to the stage, with this on record. -/
def ComesTo (r : Resolver (StateM σ)) (ranking : Ranking Interpretation) (w : σ) (stage : Stage)
    (R : Recorded σ) : Prop :=
  Relation.ReflTransGen r.recorded.GoesOn (.start ranking, { world := w }) (stage, R)

/-- Resolving looks up no more than the limits allow: a first part, which is not empty, of each of
the first groups. Whenever places were carried to a group, that group is looked up next, unless
resolving is cancelled before it. If resolving ends with results, these are those of its last turn,
and nothing was carried on from there. -/
theorem lookups_within_budget (r : Resolver (StateM σ)) (ranking : Ranking Interpretation) (w : σ)
    (hbuckets : ∀ bucket ∈ ranking.buckets, bucket.2 ≠ []) (hperGroup : 0 < r.limits.perGroup)
    (hmaxGroups : 0 < r.limits.maxGroups) (hmaxQueries : 0 < r.limits.maxQueries) :
    ∃ out R, outcome (r.recorded.resolve ranking) { world := w } = (out, R) ∧
      outcome (r.resolve ranking) w = (out, R.world) ∧
      WithinBudget r.limits ranking.buckets R.batches ∧
      (∀ stage R₁, r.ComesTo ranking w stage R₁ → stage.kept ≠ ∅ →
        (r.isCancelled R₁.world).1 = false →
        ∃ bucket batch, stage.groups.head? = some bucket ∧ LookedUp r.limits batch bucket ∧
          R₁.batches ++ [batch] <+: R.batches) ∧
      ∀ found, out = .ok found → ∃ last R₁ results, r.ComesTo ranking w last R₁ ∧
        outcome (r.recorded.turn last) R₁ = (.ok (.inl results), R) ∧
        results.entries = found ∧ (last.groups = [] → last.kept = ∅) := by
  have honBudget {stage : Stage} {R₁ : Recorded σ} (h : r.ComesTo ranking w stage R₁) :
      OnBudget r.limits ranking.buckets stage R₁.batches :=
    onBudget_of_goesOn hbuckets hperGroup hmaxGroups hmaxQueries h
  rcases hrun : outcome (r.recorded.visitFrom (.start ranking)) { world := w } with ⟨visited, R⟩
  have hresolve : outcome (r.recorded.resolve ranking) { world := w } =
      (visited.map (·.entries), R) := by
    rw [outcome_resolve, hrun]
  have hrecords := records_resolve (r := r) ranking { world := w }
  rw [hresolve] at hrecords
  obtain ⟨last, R₁, hlastComesTo, hlast⟩ :=
    exists_last_turn (r := r.recorded) (.start ranking) { world := w }
  rw [hrun] at hlast
  refine ⟨_, R, hresolve, hrecords.symm, ?_, fun stage R₁ hcomesTo hkept hflag => ?_,
    fun found hfound => ?_⟩
  · have hwithin := (honBudget hlastComesTo).withinBudget_of_turn hbuckets hperGroup
    rcases hlast with ⟨results, R', hturn, hvisit⟩ | ⟨e, R', hturn, hvisit⟩
    all_goals
      obtain rfl := congrArg Prod.snd hvisit
      rwa [hturn] at hwithin
  · have hbatch := (honBudget hcomesTo).exists_batch_of_kept hbuckets hperGroup hkept hflag
    rwa [← outcome_visitFrom_of_goesOn hcomesTo, hrun] at hbatch
  · rcases hlast with ⟨results, R', hturn, hvisit⟩ | ⟨e, R', hturn, hvisit⟩
    · obtain ⟨rfl, rfl⟩ := Prod.mk.inj hvisit
      exact ⟨last, R₁, results, hlastComesTo, hturn, Except.ok.inj hfound,
        (honBudget hlastComesTo).kept_eq_empty⟩
    · obtain ⟨rfl, rfl⟩ := Prod.mk.inj hvisit
      cases hfound

/-- Every lookup finds another place, and none is an exact match. No more than one interpretation of
a group is looked up, and no more than two in total. -/
def numbering : Resolver (StateM Nat) where
  limits := { perGroup := 1, maxGroups := 3, maxQueries := 2 }
  lookup _ := do
    let id ← get
    set (id + 1)
    return .ofList [{ source := .primary, id, rank := 2 }]
  withRanks _ ids := return ids
  isCancelled := return false

/-- A ranking of three groups. -/
def threeGroups : Ranking Interpretation where
  buckets := [(0, [.root]), (3, [.root, .root]), (4, [.root])]
  ascending := by decide

/-- The place of the first group is carried to the second one, which is looked up and the last one
that the limits allow. -/
theorem numbering_lookups_within_budget : ∃ out R stage R₁,
    outcome (numbering.recorded.resolve threeGroups) { world := 0 } = (out, R) ∧
      WithinBudget numbering.limits threeGroups.buckets R.batches ∧
      numbering.ComesTo threeGroups 0 stage R₁ ∧ stage.kept ≠ ∅ ∧ R₁.batches = [[.root]] ∧
      (∃ bucket batch, stage.groups.head? = some bucket ∧ LookedUp numbering.limits batch bucket ∧
        R₁.batches ++ [batch] <+: R.batches) ∧
      out = .ok [⟨.primary, 0, none, 0, 1, none⟩] ∧ R.batches = [[.root], [.root]] := by
  obtain ⟨out, R, hresolve, -, hwithin, hcarried, -⟩ :=
    lookups_within_budget numbering threeGroups 0 (by decide) (by decide) (by decide) (by decide)
  have hcomesTo : numbering.ComesTo threeGroups 0
      ⟨1, 1, .ofList [{ source := .primary, id := 0, rank := 1 }], threeGroups.buckets.tail⟩
      ⟨[[.root]], 1⟩ := .single (by rfl)
  have hkept : CandidateSet.ofList [{ source := .primary, id := 0, rank := 1 }] ≠ ∅ := by
    intro h
    exact absurd (congrArg (·.entries.length) h) (by decide)
  have houtcome : outcome (numbering.recorded.resolve threeGroups) { world := 0 } =
      (.ok [⟨.primary, 0, none, 0, 1, none⟩], ⟨[[.root], [.root]], 2⟩) := by rfl
  obtain ⟨rfl, rfl⟩ := Prod.mk.inj (hresolve.symm.trans houtcome)
  exact ⟨_, _, _, _, hresolve, hwithin, hcomesTo, hkept, rfl, hcarried _ _ hcomesTo hkept rfl, rfl,
    rfl⟩

end Resolver

end Geocoding
