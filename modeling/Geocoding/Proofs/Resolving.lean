import Geocoding.Proofs.Candidate
import Geocoding.Proofs.Ranking
import Geocoding.Resolve
import Mathlib.Order.Bounds.Image
import Mathlib.Order.Nat

/-!
# What resolving finds

The meaning of `Resolver.resolve` without its loop. From the group at each position a batch of
interpretations is looked up (`Resolver.batchAt`). The answers give every place ranks, which are
lowered by one for every group that passes (`Resolver.ranksAt`). Resolving stops at the first group
that is the last one to be visited or that has an exact match (`Resolver.Stops`), and finds the
places of the least rank there.

The invariant of the loop is that the places carried to a group hold the ranks from before it
(`Resolver.ranksBefore`): taking the least rank per place commutes with lowering all ranks.
-/

namespace Geocoding

namespace Resolver

/-! ## Batches -/

section

variable (limits : ResolverLimits) (buckets : List (Nat × List Interpretation))

/-- The interpretations of the group at a position. -/
def groupAt (i : Nat) : List Interpretation :=
  (buckets[i]?.map (·.2)).getD []

/-- How many interpretations are looked up in the groups before a position. -/
def queriedBefore : Nat → Nat
  | 0 => 0
  | i + 1 =>
    queriedBefore i + min (groupAt buckets i).length
      (min limits.perGroup (limits.maxQueries - queriedBefore i))

/-- The interpretations that are looked up in the group at a position, as far as it is visited. -/
def batchAt (i : Nat) : List Interpretation :=
  (groupAt buckets i).take
    (min limits.perGroup (limits.maxQueries - queriedBefore limits buckets i))

/-- No group is visited after the one at the position: so many have been visited, there are no more,
or so many interpretations have been looked up. -/
def IsLast (i : Nat) : Prop :=
  i + 1 = limits.maxGroups ∨ i + 1 = buckets.length ∨
    limits.maxQueries ≤ queriedBefore limits buckets (i + 1)

variable (answer : Interpretation → CandidateSet)

/-- The ranks that the answers up to the group at a position give a place, lowered by one for every
group since. -/
def ranksAt (i : Nat) (key : Source × Nat) : Set Nat :=
  {n | ∃ j ≤ i, ∃ s ∈ batchAt limits buckets j, ∃ c ∈ (answer s).entries,
    c.key = key ∧ n = c.rank - (i - j)}

/-- The same for the answers before the group. -/
def ranksBefore (i : Nat) (key : Source × Nat) : Set Nat :=
  {n | ∃ j < i, ∃ s ∈ batchAt limits buckets j, ∃ c ∈ (answer s).entries,
    c.key = key ∧ n = c.rank - (i - j)}

/-- Resolving stops at the group at the position, if it comes that far: it is the last one, or there
is an exact match. -/
def Stops (i : Nat) : Prop :=
  IsLast limits buckets i ∨ ∃ key, 0 ∈ ranksAt limits buckets answer i key

variable {limits buckets answer}

theorem length_batchAt (i : Nat) :
    queriedBefore limits buckets i + (batchAt limits buckets i).length =
      queriedBefore limits buckets (i + 1) := by
  rw [queriedBefore, batchAt, List.length_take, Nat.min_comm]

theorem mem_items_of_mem_batchAt {ranking : Ranking Interpretation} {i : Nat} {s : Interpretation}
    (h : s ∈ batchAt limits ranking.buckets i) : s ∈ ranking.items := by
  have hgroup : s ∈ groupAt ranking.buckets i := List.mem_of_mem_take h
  rw [groupAt] at hgroup
  cases hbucket : ranking.buckets[i]? with
  | none => simp [hbucket] at hgroup
  | some bucket =>
    rw [hbucket] at hgroup
    exact List.mem_flatMap.2 ⟨bucket, List.mem_of_getElem? hbucket, hgroup⟩

/-! ## Ranks -/

theorem mem_ranksAt_iff {i n : Nat} {key : Source × Nat} :
    n ∈ ranksAt limits buckets answer i key ↔ n ∈ ranksBefore limits buckets answer i key ∨
      ∃ found ∈ (batchAt limits buckets i).map answer,
        n ∈ CandidateSet.ranksOf found.entries key := by
  constructor
  · rintro ⟨j, hj, s, hs, c, hc, hkey, rfl⟩
    rcases Nat.lt_or_eq_of_le hj with hj | rfl
    · exact Or.inl ⟨j, hj, s, hs, c, hc, hkey, rfl⟩
    · exact Or.inr ⟨answer s, List.mem_map_of_mem hs, c, hc, hkey, by simp⟩
  · rintro (⟨j, hj, s, hs, c, hc, hkey, rfl⟩ | ⟨found, hfound, c, hc, hkey, rfl⟩)
    · exact ⟨j, hj.le, s, hs, c, hc, hkey, rfl⟩
    · obtain ⟨s, hs, rfl⟩ := List.mem_map.1 hfound
      exact ⟨i, le_rfl, s, hs, c, hc, hkey, by simp⟩

theorem ranksBefore_zero (key : Source × Nat) : ranksBefore limits buckets answer 0 key = ∅ := by
  simp [ranksBefore]

theorem ranksBefore_succ (i : Nat) (key : Source × Nat) :
    ranksBefore limits buckets answer (i + 1) key =
      (· - 1) '' ranksAt limits buckets answer i key := by
  have hlower (rank : Nat) {j : Nat} (hj : j ≤ i) : rank - (i + 1 - j) = rank - (i - j) - 1 := by
    omega
  ext n
  constructor
  · rintro ⟨j, hj, s, hs, c, hc, hkey, rfl⟩
    have hj : j ≤ i := Nat.le_of_lt_succ hj
    exact ⟨c.rank - (i - j), ⟨j, hj, s, hs, c, hc, hkey, rfl⟩, (hlower c.rank hj).symm⟩
  · rintro ⟨-, ⟨j, hj, s, hs, c, hc, hkey, rfl⟩, rfl⟩
    exact ⟨j, Nat.lt_succ_of_le hj, s, hs, c, hc, hkey, (hlower c.rank hj).symm⟩

end

/-! ## Candidates of a group -/

theorem entries_best (found : CandidateSet) : (best found).entries = leastRanked found.entries := by
  rw [best, splitByRank_fst, CandidateSet.entries_ofList]
  exact (List.filter_sublist.map _).nodup found.distinct

theorem entries_carried (found : CandidateSet) :
    (carried found).entries.Perm (found.entries.map fun c => { c with rank := c.rank - 1 }) := by
  have hperm := (splitByRank_perm found.entries).map fun c : Candidate =>
    { c with rank := c.rank - 1 }
  have hkeys : (found.entries.map fun c => { c with rank := c.rank - 1 }).map (·.key) =
      found.entries.map (·.key) := by
    simp [Function.comp_def, Candidate.key]
  rw [carried, CandidateSet.entries_ofList]
  · exact hperm
  · rw [(hperm.map (·.key)).nodup_iff, hkeys]
    exact found.distinct

/-- Places that are carried to the next group hold their ranks lowered by one. -/
theorem holds_carried {found : CandidateSet} {ranks : Source × Nat → Set Nat}
    (h : found.Holds ranks) : (carried found).Holds fun key => (· - 1) '' ranks key := by
  have hmono : Monotone (· - 1 : Nat → Nat) := fun a b hab => Nat.sub_le_sub_right hab 1
  constructor
  · intro x hx
    obtain ⟨c, hc, rfl⟩ := List.mem_map.1 ((entries_carried found).mem_iff.1 hx)
    exact hmono.map_isLeast (h.least c hc)
  · rintro key - ⟨n, hn, rfl⟩
    obtain ⟨c, hc, rfl⟩ := List.mem_map.1 (h.found key n hn)
    refine List.mem_map.2 ⟨{ c with rank := c.rank - 1 }, ?_, rfl⟩
    exact (entries_carried found).mem_iff.2 (List.mem_map_of_mem hc)

theorem hasExact_iff {found : CandidateSet} {ranks : Source × Nat → Set Nat}
    (h : found.Holds ranks) : hasExact found = true ↔ ∃ key, 0 ∈ ranks key := by
  rw [hasExact, List.any_eq_true]
  simp only [decide_eq_true_eq]
  constructor
  · rintro ⟨c, hc, hzero⟩
    exact ⟨c.key, hzero ▸ (h.least c hc).1⟩
  · rintro ⟨key, hkey⟩
    obtain ⟨c, hc, rfl⟩ := List.mem_map.1 (h.found key 0 hkey)
    exact ⟨c, hc, Nat.le_zero.1 ((h.least c hc).2 hkey)⟩

theorem best_eq_nil_iff {found : CandidateSet} :
    (best found).entries = [] ↔ found.entries = [] := by
  rw [entries_best]
  constructor
  · intro h
    by_contra hne
    exact leastRanked_ne_nil hne h
  · intro h
    rw [h]
    rfl

theorem isEmpty_best_of_hasExact {found : CandidateSet} (h : hasExact found = true) :
    (best found).isEmpty = false := by
  rw [hasExact, List.any_eq_true] at h
  obtain ⟨c, hc, -⟩ := h
  rw [CandidateSet.isEmpty, List.isEmpty_eq_false_iff, Ne, best_eq_nil_iff]
  exact List.ne_nil_of_mem hc

/-- The places of the least rank of all. -/
theorem exists_mem_best_iff {found : CandidateSet} {ranks : Source × Nat → Set Nat}
    (h : found.Holds ranks) {key : Source × Nat} {n : Nat} :
    (∃ c ∈ (best found).entries, c.key = key ∧ c.rank = n) ↔
      IsLeast (ranks key) n ∧ ∀ key', ∀ n' ∈ ranks key', n ≤ n' := by
  rw [← h.exists_iff, entries_best]
  constructor
  · rintro ⟨c, hc, rfl, rfl⟩
    obtain ⟨hmem, hle⟩ := mem_leastRanked.1 hc
    refine ⟨⟨c, hmem, rfl, rfl⟩, fun key' n' hn' => ?_⟩
    obtain ⟨d, hd, rfl⟩ := List.mem_map.1 (h.found key' n' hn')
    exact (hle d hd).trans ((h.least d hd).2 hn')
  · rintro ⟨⟨c, hc, rfl, rfl⟩, hle⟩
    exact ⟨c, mem_leastRanked.2 ⟨hc, fun d hd => hle d.key d.rank (h.least d hd).1⟩, rfl, rfl⟩

theorem rank_eq_of_mem_best {found : CandidateSet} {c d : Candidate}
    (hc : c ∈ (best found).entries) (hd : d ∈ (best found).entries) : c.rank = d.rank := by
  rw [entries_best] at hc hd
  obtain ⟨hc, hcle⟩ := mem_leastRanked.1 hc
  obtain ⟨hd, hdle⟩ := mem_leastRanked.1 hd
  exact Nat.le_antisymm (hcle d hd) (hdle c hc)

theorem rank_eq_zero_of_mem_best {found : CandidateSet} (h : hasExact found = true)
    {c : Candidate} (hc : c ∈ (best found).entries) : c.rank = 0 := by
  rw [hasExact, List.any_eq_true] at h
  obtain ⟨d, hd, hzero⟩ := h
  rw [entries_best] at hc
  have hle := (mem_leastRanked.1 hc).2 d hd
  rw [decide_eq_true_iff.1 hzero] at hle
  exact Nat.le_zero.1 hle

/-! ## The loop -/

section

variable {m : Type → Type} [Monad m] {r : Resolver m} {answer : Interpretation → CandidateSet}

theorem inScope_of_isFull (h : r.scope.ranks.isFull = true) (found : CandidateSet) :
    r.inScope found = pure found := by
  simp [inScope, h]

variable [LawfulMonad m]

theorem mapM_ofIndex {batch : List Interpretation}
    (h : ∀ s ∈ batch, r.lookup s = pure (answer s)) :
    (batch.mapM fun s => ResolveM.ofIndex (r.lookup s)) = pure (batch.map answer) := by
  induction batch with
  | nil => rfl
  | cons s batch ih =>
    have hs : ResolveM.ofIndex (r.lookup s) = pure (answer s) := by
      rw [h s List.mem_cons_self]
      show ExceptT.mk (Except.mapError _ <$> pure (Except.ok (answer s))) = _
      rw [map_pure]
      rfl
    rw [List.mapM_cons, hs, ih fun s hs => h s (List.mem_cons_of_mem _ hs)]
    simp

/-- One group, with all ranks in the scope: resolving goes on unless the group is the last one or
there is an exact match. -/
theorem visit_cons (hcancel : r.isCancelled = pure false) (hfull : r.scope.ranks.isFull = true)
    {visited queried rank : Nat} {kept : CandidateSet} {states : List Interpretation}
    {rest : List (Nat × List Interpretation)}
    (hanswers : ∀ s ∈ r.batch queried states, r.lookup s = pure (answer s)) :
    r.visit visited queried kept ((rank, states) :: rest) =
      (let found := ((r.batch queried states).map answer).foldl
        (fun found answer => found.extend answer.entries) kept
      if (visited + 1 < r.limits.maxGroups ∧
          queried + (r.batch queried states).length < r.limits.maxQueries ∧ rest ≠ []) ∧
          hasExact found = false then
        r.visit (visited + 1) (queried + (r.batch queried states).length) (carried found) rest
      else pure (best found)) := by
  rw [visit]
  simp only [hcancel, mapM_ofIndex hanswers, liftM_pure, pure_bind, inScope_of_isFull hfull]
  generalize ((r.batch queried states).map answer).foldl _ kept = found
  cases hexact : hasExact found with
  | false =>
    by_cases hgo : visited + 1 < r.limits.maxGroups ∧
        queried + (r.batch queried states).length < r.limits.maxQueries ∧ rest ≠ []
    · simp [hgo]
    · simp [hgo, and_assoc]
  | true => simp [isEmpty_best_of_hasExact hexact]

/-- No group before the position stops resolving. -/
def Reaches (limits : ResolverLimits) (buckets : List (Nat × List Interpretation))
    (answer : Interpretation → CandidateSet) (i : Nat) : Prop :=
  ∀ j < i, ¬ Stops limits buckets answer j

theorem lt_maxGroups_of_reaches {limits : ResolverLimits}
    {buckets : List (Nat × List Interpretation)} (hgroups : 0 < limits.maxGroups) {i : Nat}
    (h : Reaches limits buckets answer i) : i < limits.maxGroups := by
  by_contra hle
  exact h (limits.maxGroups - 1) (by omega) (Or.inl (Or.inl (by omega)))

/-- Another group is visited unless this is the last one. -/
theorem goesOn_iff_not_isLast {limits : ResolverLimits}
    {buckets : List (Nat × List Interpretation)} {i : Nat} (hvisited : i < limits.maxGroups)
    (hlen : i < buckets.length) :
    (i + 1 < limits.maxGroups ∧ queriedBefore limits buckets (i + 1) < limits.maxQueries ∧
      buckets.drop (i + 1) ≠ []) ↔ ¬ IsLast limits buckets i := by
  have hnil : buckets.drop (i + 1) ≠ [] ↔ i + 1 ≠ buckets.length := by
    rw [Ne, List.drop_eq_nil_iff]
    omega
  rw [hnil, IsLast]
  omega

/-- From any group that is reached, resolving comes to the first one that stops it. -/
theorem visit_eq_best {buckets : List (Nat × List Interpretation)}
    (hcancel : r.isCancelled = pure false) (hfull : r.scope.ranks.isFull = true)
    (hgroups : 0 < r.limits.maxGroups)
    (hanswers : ∀ i, Reaches r.limits buckets answer i →
      ∀ s ∈ batchAt r.limits buckets i, r.lookup s = pure (answer s))
    {rest : List (Nat × List Interpretation)} {i : Nat} {kept : CandidateSet} (hrest : rest ≠ [])
    (hdrop : buckets.drop i = rest) (hreaches : Reaches r.limits buckets answer i)
    (hkept : kept.Holds (ranksBefore r.limits buckets answer i)) :
    ∃ g found, IsLeast {g | Stops r.limits buckets answer g} g ∧
      found.Holds (ranksAt r.limits buckets answer g) ∧
      r.visit i (queriedBefore r.limits buckets i) kept rest = pure (best found) := by
  induction rest generalizing i kept with
  | nil => exact absurd rfl hrest
  | cons bucket rest ih =>
    obtain ⟨rank, states⟩ := bucket
    have hlen : i < buckets.length := by
      by_contra hle
      rw [List.drop_eq_nil_of_le (Nat.le_of_not_lt hle)] at hdrop
      exact List.cons_ne_nil _ _ hdrop.symm
    have hsplit := List.drop_eq_getElem_cons hlen
    rw [hdrop, List.cons.injEq] at hsplit
    obtain ⟨hbucket, hdrop'⟩ := hsplit
    have hbatch : r.batch (queriedBefore r.limits buckets i) states =
        batchAt r.limits buckets i := by
      simp [batch, batchAt, groupAt, List.getElem?_eq_getElem hlen, ← hbucket]
    -- the places found at this group hold its ranks
    let found := ((batchAt r.limits buckets i).map answer).foldl
      (fun found answer => found.extend answer.entries) kept
    have hfound : found.Holds (ranksAt r.limits buckets answer i) :=
      (hkept.extends ((batchAt r.limits buckets i).map answer)).congr fun key n =>
        mem_ranksAt_iff.symm
    have hgoesOn := goesOn_iff_not_isLast (lt_maxGroups_of_reaches hgroups hreaches) hlen
    rw [← hdrop'] at hgoesOn
    have hexact : hasExact found = false ↔
        ¬ ∃ key, 0 ∈ ranksAt r.limits buckets answer i key := by
      rw [← hasExact_iff hfound, Bool.not_eq_true]
    rw [visit_cons hcancel hfull (hbatch ▸ hanswers i hreaches), hbatch,
      length_batchAt]
    by_cases hstops : Stops r.limits buckets answer i
    · refine ⟨i, found, ⟨hstops, fun j hj => ?_⟩, hfound, ?_⟩
      · exact Nat.le_of_not_lt fun hlt => hreaches j hlt hj
      · rw [if_neg]
        rintro ⟨hgo, hno⟩
        rcases hstops with hlast | hzero
        · exact hgoesOn.1 hgo hlast
        · exact hexact.1 hno hzero
    · obtain ⟨hlast, hzero⟩ := not_or.1 hstops
      have hgo := hgoesOn.2 hlast
      have hreaches' : Reaches r.limits buckets answer (i + 1) := by
        intro j hj
        rcases Nat.lt_succ_iff_lt_or_eq.1 hj with hj | rfl
        · exact hreaches j hj
        · exact hstops
      have hcarried : (carried found).Holds (ranksBefore r.limits buckets answer (i + 1)) :=
        (holds_carried hfound).congr fun key n => by rw [ranksBefore_succ]
      rw [if_pos ⟨hgo, hexact.2 hzero⟩]
      exact ih hgo.2.2 hdrop'.symm hreaches' hcarried

theorem ranksAt_eq_empty_iff {limits : ResolverLimits}
    {buckets : List (Nat × List Interpretation)} {g : Nat} :
    (∀ key, ranksAt limits buckets answer g key = ∅) ↔
      ∀ i ≤ g, ∀ s ∈ batchAt limits buckets i, (answer s).entries = [] := by
  constructor
  · intro h i hi s hs
    refine List.eq_nil_iff_forall_not_mem.2 fun c hc => ?_
    have hmem : c.rank - (g - i) ∈ ranksAt limits buckets answer g c.key :=
      ⟨i, hi, s, hs, c, hc, rfl, rfl⟩
    rw [h] at hmem
    exact hmem
  · intro h key
    refine Set.eq_empty_iff_forall_notMem.2 ?_
    rintro - ⟨i, hi, s, hs, c, hc, -, -⟩
    simp [h i hi s hs] at hc

/-- Resolving finds the places of the least rank at the first group that stops it, and it ends
before the last group only for exact matches. All lookups that it comes to must succeed; none is
made behind the group that stops it. -/
theorem resolve_eq_least_ranks (index : PlaceIndex m) (c : Constraints) (limits : ResolverLimits)
    (scope : Scope) (ranking : Ranking Interpretation) (answer : Interpretation → CandidateSet)
    (hfull : scope.ranks = .full) (hgroups : 0 < limits.maxGroups)
    (hanswers : ∀ i, Reaches limits ranking.buckets answer i →
      ∀ s ∈ batchAt limits ranking.buckets i,
        Geocoding.lookup index c scope s = pure (answer s)) :
    ∃ found, (ofIndex index c limits scope (pure false)).resolve ranking = pure found ∧
      (ranking.buckets = [] → found = []) ∧
      (ranking.buckets ≠ [] → ∃ g, IsLeast {g | Stops limits ranking.buckets answer g} g ∧
        (found.map (·.key)).Nodup ∧
        (∀ key n, (∃ c ∈ found, c.key = key ∧ c.rank = n) ↔
          IsLeast (ranksAt limits ranking.buckets answer g key) n ∧
            ∀ key', ∀ n' ∈ ranksAt limits ranking.buckets answer g key', n ≤ n') ∧
        (found = [] ↔
          ∀ i ≤ g, ∀ s ∈ batchAt limits ranking.buckets i, (answer s).entries = []) ∧
        (∀ c ∈ found, ∀ d ∈ found, c.rank = d.rank) ∧
        (IsLast limits ranking.buckets g ∨ found ≠ [] ∧ ∀ c ∈ found, c.rank = 0)) := by
  let r := ofIndex index c limits scope (pure false)
  by_cases hnil : ranking.buckets = []
  · refine ⟨[], ?_, fun _ => rfl, fun h => absurd hnil h⟩
    rw [resolve, hnil, visit, pure_bind]
    rfl
  · have hscope : r.scope.ranks.isFull = true := by simp [r, ofIndex, RankRange.isFull, hfull]
    have hnone : (∅ : CandidateSet).Holds (ranksBefore limits ranking.buckets answer 0) :=
      CandidateSet.holds_empty.congr fun key n => by rw [ranksBefore_zero]
    obtain ⟨g, found, hg, hfound, hvisit⟩ := visit_eq_best (r := r) rfl hscope hgroups hanswers
      hnil rfl (fun j hj => absurd hj (Nat.not_lt_zero j)) hnone
    refine ⟨(best found).entries, ?_, fun h => absurd h hnil, fun _ => ⟨g, hg, ?_⟩⟩
    · change r.visit 0 0 ∅ ranking.buckets = pure (best found) at hvisit
      rw [resolve, hvisit, pure_bind]
    · refine ⟨(best found).distinct, fun key n => exists_mem_best_iff hfound, ?_, ?_, ?_⟩
      · rw [best_eq_nil_iff, hfound.entries_eq_nil_iff, ranksAt_eq_empty_iff]
        exact Iff.rfl
      · exact fun c hc d hd => rank_eq_of_mem_best hc hd
      · rcases hg.1 with hlast | hzero
        · exact Or.inl hlast
        · have hexact := (hasExact_iff hfound).2 hzero
          refine Or.inr ⟨?_, fun c hc => rank_eq_zero_of_mem_best hexact hc⟩
          have hempty := isEmpty_best_of_hasExact hexact
          rwa [CandidateSet.isEmpty, List.isEmpty_eq_false_iff] at hempty

/-- If the leading interpretation has nothing but exact matches, these come first. -/
theorem exists_resolve_eq_append (hcancel : r.isCancelled = pure false)
    (hfull : r.scope.ranks.isFull = true) (hgroup : 0 < r.limits.perGroup)
    (hqueries : 0 < r.limits.maxQueries) {ranking : Ranking Interpretation} {rank : Nat}
    {s : Interpretation} (hleads : ranking.Leads rank s)
    (hanswers : ∀ s, r.lookup s = pure (answer s)) (hne : (answer s).entries ≠ [])
    (hranks : ∀ c ∈ (answer s).entries, c.rank = 0) :
    ∃ more, r.resolve ranking = pure ((answer s).entries ++ more) := by
  obtain ⟨states, rest, hbuckets⟩ := hleads
  obtain ⟨batch, hbatch⟩ : ∃ batch, r.batch 0 (s :: states) = s :: batch := by
    obtain ⟨n, hn⟩ := Nat.exists_eq_succ_of_ne_zero
      (Nat.ne_of_gt (Nat.lt_min.2 ⟨hgroup, hqueries⟩))
    exact ⟨states.take n, by rw [Resolver.batch, Nat.sub_zero, hn, List.take_succ_cons]⟩
  -- the answers to the rest of the batch stay behind the exact matches
  have hfound (answers : List CandidateSet) : ∃ more,
      (answers.foldl (fun found answer => found.extend answer.entries)
        ((∅ : CandidateSet).extend (answer s).entries)).entries =
          (answer s).entries ++ more := by
    induction answers using List.reverseRecOn with
    | nil =>
      have hfirst := CandidateSet.entries_ofList (answer s).distinct
      exact ⟨[], by rwa [List.append_nil]⟩
    | append_singleton answers last ih =>
      obtain ⟨more, hmore⟩ := ih
      rw [List.foldl_append]
      exact CandidateSet.exists_entries_extend_eq_append hranks hmore last.entries
  obtain ⟨more, hmore⟩ := hfound (batch.map answer)
  obtain ⟨c, hc⟩ := List.exists_mem_of_ne_nil _ hne
  have hexact : hasExact _ = true :=
    List.any_eq_true.2 ⟨c, hmore ▸ List.mem_append_left _ hc, decide_eq_true (hranks c hc)⟩
  obtain ⟨more', hbest⟩ := exists_leastRanked_eq_append hranks hne more
  rw [← hmore, ← entries_best] at hbest
  refine ⟨more', ?_⟩
  rw [resolve, hbuckets, visit_cons hcancel hfull fun s _ => hanswers s, hbatch]
  simp only [List.map_cons, List.foldl_cons, hexact, Bool.true_eq_false, and_false, if_false,
    pure_bind, hbest]

end

/-- Two cities, of which the first has another postcode than any that is asked for. -/
def twoCities : PlaceIndex Id where
  countryPlace _ _ := return none
  areaPlaces _ := return []
  postcodes _ := return []
  namedPlaces query := return if query.name = .singleton 1 then [⟨1, 16, 0⟩] else [⟨2, 16, 0⟩]
  houseNumbers _ := return []
  interpolations _ := return []
  parcels _ := return []
  ofType _ _ _ _ := return []
  nearby _ _ _ _ _ := return []
  otherPostcode ids _ := return ids
  withRanks _ ids _ _ := return ids

/-- The first city, with a postcode. -/
def cityWithPostcode : Interpretation :=
  { cost := 1, name := .singleton 1, postcode := some "53111" }

/-- The second city, at a higher cost. -/
def cityAlone : Interpretation :=
  { cost := 2, name := .singleton 2 }

/-- What the readings of the cities mean. -/
def cityAnswer (s : Interpretation) : CandidateSet :=
  if s.postcode.isSome then .ofList [{ Candidate.primary 1 (some 16) with rank := 1 }]
  else .ofList [.primary 2 (some 16)]

/-- The city of the other postcode is no worse than the one that the less plausible reading
means. -/
theorem resolve_cities :
    ∃ found g, (ofIndex twoCities {} {} {} (pure false)).resolve
        (.ofList (·.cost) [cityWithPostcode, cityAlone]) = pure found ∧
      IsLeast {g | Stops {} [(1, [cityWithPostcode]), (2, [cityAlone])] cityAnswer g} g ∧
      (∃ c ∈ found, c.key = (.primary, 1) ∧ c.rank = 0) ∧
      (∃ c ∈ found, c.key = (.primary, 2) ∧ c.rank = 0) := by
  have hlookup : ∀ s ∈ [cityWithPostcode, cityAlone],
      Geocoding.lookup twoCities {} {} s = pure (cityAnswer s) := by
    intro s hs
    rcases List.mem_cons.1 hs with rfl | hs
    · rfl
    · rw [List.mem_singleton.1 hs]
      rfl
  obtain ⟨found, hresolve, -, hfound⟩ := resolve_eq_least_ranks twoCities {} {} {}
    (.ofList (·.cost) [cityWithPostcode, cityAlone]) cityAnswer rfl (by decide)
    fun i _ s hs => hlookup s (mem_items_of_mem_batchAt hs)
  obtain ⟨g, hg, -⟩ := hfound (by decide)
  have hrun : (ofIndex twoCities {} {} {} (pure false)).resolve
      (.ofList (·.cost) [cityWithPostcode, cityAlone]) =
      pure [{ Candidate.primary 1 (some 16) with rank := 0 }, .primary 2 (some 16)] := rfl
  obtain rfl : [{ Candidate.primary 1 (some 16) with rank := 0 }, .primary 2 (some 16)] = found :=
    Except.ok.inj (hrun.symm.trans hresolve)
  exact ⟨_, g, hresolve, hg, by decide, by decide⟩

end Resolver

end Geocoding
