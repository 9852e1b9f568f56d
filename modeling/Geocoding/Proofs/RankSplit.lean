import Geocoding.Candidate.Split
import Geocoding.Proofs.Candidate

/-!
# Head and tail by rank

Splitting candidates by rank loses none of them, and keeps candidates of equal rank in their order,
although the head is moved behind the tail each time a better candidate comes
(`isHeadAndTail_splitByRank`). What carries this is that head and tail never share a rank
(`RanksApart`): the candidates of a rank are either all in the head or all in the tail, so wherever
the head is moved to, it passes none of its own rank.

`RankSplit` compares with the best rank so far where `splitByRank` looks into the head. Both agree
as long as no rank is greater than the one it starts with (`RankSplit.Tracks`).
-/

namespace Geocoding

/-! ## Ranks of head and tail -/

/-- The head has a single rank, which is less than those of the tail. -/
structure RanksApart (parts : List Candidate × List Candidate) : Prop where
  /-- Without a head nothing is behind it. -/
  tail_eq_nil : parts.1 = [] → parts.2 = []
  rank_eq : ∀ b ∈ parts.1, ∀ d ∈ parts.1, d.rank = b.rank
  rank_lt : ∀ b ∈ parts.1, ∀ d ∈ parts.2, b.rank < d.rank

theorem RanksApart.splitStep {parts : List Candidate × List Candidate} (h : RanksApart parts)
    (c : Candidate) : RanksApart (splitStep parts c) := by
  obtain ⟨head, tail⟩ := parts
  cases head with
  | nil =>
    obtain rfl : tail = [] := h.tail_eq_nil rfl
    exact ⟨by simp [Geocoding.splitStep], by simp [Geocoding.splitStep],
      by simp [Geocoding.splitStep]⟩
  | cons best head =>
    have heq : ∀ d ∈ best :: head, d.rank = best.rank := h.rank_eq best List.mem_cons_self
    have hlt : ∀ d ∈ tail, best.rank < d.rank := h.rank_lt best List.mem_cons_self
    rw [Geocoding.splitStep]
    split
    · next hbetter =>
      refine ⟨by simp, by simp, fun b hb d hd => ?_⟩
      obtain rfl : b = c := List.mem_singleton.1 hb
      rcases List.mem_append.1 hd with hd | hd
      · exact hbetter.trans (hlt d hd)
      · rwa [heq d hd]
    · split
      · next hsame =>
        have heq' : ∀ d ∈ best :: head ++ [c], d.rank = best.rank := by
          intro d hd
          rcases List.mem_append.1 hd with hd | hd
          · exact heq d hd
          · rw [List.mem_singleton.1 hd, hsame]
        refine ⟨by simp, fun b hb d hd => (heq' d hd).trans (heq' b hb).symm, fun b hb d hd => ?_⟩
        rw [heq' b hb]
        exact hlt d hd
      · next hworse =>
        refine ⟨by simp, h.rank_eq, fun b hb d hd => ?_⟩
        rw [heq b hb]
        rcases List.mem_append.1 hd with hd | hd
        · exact hlt d hd
        · rw [List.mem_singleton.1 hd]
          omega

theorem ranksApart_splitByRank (cs : List Candidate) : RanksApart (splitByRank cs) := by
  induction cs using List.reverseRecOn with
  | nil => exact ⟨fun _ => rfl, by simp [splitByRank], by simp [splitByRank]⟩
  | append_singleton cs c ih =>
    rw [splitByRank_concat]
    exact ih.splitStep c

/-! ## The order within a rank -/

theorem filter_rank_eq_nil {cs : List Candidate} {r : Nat} (h : ∀ c ∈ cs, c.rank ≠ r) :
    cs.filter (·.rank = r) = [] :=
  List.filter_eq_nil_iff.2 fun c hc => by simpa using h c hc

/-- Candidates may pass others of different ranks. -/
theorem filter_append_comm {cs ds : List Candidate} (h : ∀ c ∈ cs, ∀ d ∈ ds, c.rank ≠ d.rank)
    (r : Nat) : (cs ++ ds).filter (·.rank = r) = (ds ++ cs).filter (·.rank = r) := by
  rw [List.filter_append, List.filter_append]
  by_cases hc : ∃ c ∈ cs, c.rank = r
  · obtain ⟨c, hc, rfl⟩ := hc
    rw [filter_rank_eq_nil fun d hd => (h c hc d hd).symm, List.append_nil, List.nil_append]
  · have hnone : cs.filter (·.rank = r) = [] :=
      filter_rank_eq_nil fun c hcs heq => hc ⟨c, hcs, heq⟩
    rw [hnone, List.append_nil, List.nil_append]

/-- Candidates of equal rank stay in their order. -/
theorem RanksApart.filter_splitStep {parts : List Candidate × List Candidate}
    (h : RanksApart parts) (c : Candidate) (r : Nat) :
    ((Geocoding.splitStep parts c).1 ++ (Geocoding.splitStep parts c).2).filter (·.rank = r) =
      (parts.1 ++ parts.2 ++ [c]).filter (·.rank = r) := by
  obtain ⟨head, tail⟩ := parts
  cases head with
  | nil =>
    obtain rfl : tail = [] := h.tail_eq_nil rfl
    rfl
  | cons best head =>
    have heq : ∀ d ∈ best :: head, d.rank = best.rank := h.rank_eq best List.mem_cons_self
    have hlt : ∀ d ∈ tail, best.rank < d.rank := h.rank_lt best List.mem_cons_self
    rw [Geocoding.splitStep]
    split
    · next hbetter =>
      have hc : ∀ b ∈ [c], ∀ d ∈ tail ++ best :: head, b.rank ≠ d.rank := by
        intro b hb d hd
        obtain rfl : b = c := List.mem_singleton.1 hb
        rcases List.mem_append.1 hd with hd | hd
        · exact (hbetter.trans (hlt d hd)).ne
        · exact heq d hd ▸ hbetter.ne
      have hhead : ∀ b ∈ best :: head, ∀ d ∈ tail, b.rank ≠ d.rank :=
        fun b hb d hd => (h.rank_lt b hb d hd).ne
      calc ([c] ++ (tail ++ best :: head)).filter (·.rank = r)
          = (tail ++ best :: head ++ [c]).filter (·.rank = r) := filter_append_comm hc r
        _ = (best :: head ++ tail ++ [c]).filter (·.rank = r) := by
          rw [List.filter_append, ← filter_append_comm hhead, ← List.filter_append]
    · split
      · next hsame =>
        have hc : ∀ b ∈ [c], ∀ d ∈ tail, b.rank ≠ d.rank := by
          intro b hb d hd
          obtain rfl : b = c := List.mem_singleton.1 hb
          exact hsame ▸ (hlt d hd).ne
        calc (best :: head ++ [c] ++ tail).filter (·.rank = r)
            = (best :: head).filter (·.rank = r) ++ ([c] ++ tail).filter (·.rank = r) := by
              rw [List.append_assoc, List.filter_append]
          _ = (best :: head ++ tail ++ [c]).filter (·.rank = r) := by
              rw [filter_append_comm hc, ← List.filter_append, List.append_assoc]
      · rw [List.append_assoc]

theorem filter_splitByRank (cs : List Candidate) (r : Nat) :
    ((splitByRank cs).1 ++ (splitByRank cs).2).filter (·.rank = r) = cs.filter (·.rank = r) := by
  induction cs using List.reverseRecOn with
  | nil => rfl
  | append_singleton cs c ih =>
    rw [splitByRank_concat, (ranksApart_splitByRank cs).filter_splitStep, List.filter_append, ih,
      List.filter_append]

/-! ## Beside the best rank -/

namespace RankSplit

/-- The same head and tail, with the rank of the head or, without a head, the greatest rank. -/
structure Tracks (split : RankSplit) (parts : List Candidate × List Candidate) : Prop where
  parts_eq : (split.head, split.tail) = parts
  best_eq : split.head = [] → split.best = Candidate.maxRank
  rank_eq : ∀ b ∈ split.head, b.rank = split.best

theorem Tracks.add {split : RankSplit} {parts : List Candidate × List Candidate}
    (h : split.Tracks parts) (hapart : RanksApart parts) {c : Candidate}
    (hc : c.rank ≤ Candidate.maxRank) : (split.add c).Tracks (splitStep parts c) := by
  obtain ⟨best, head, tail⟩ := split
  obtain ⟨rfl, hbest, hrank⟩ := h
  cases head with
  | nil =>
    obtain rfl : tail = [] := hapart.tail_eq_nil rfl
    obtain rfl : best = Candidate.maxRank := hbest rfl
    rcases hc.lt_or_eq with hlt | heq
    · simp only [RankSplit.add, Nat.compare_eq_lt.2 hlt]
      exact ⟨rfl, by simp, by simp⟩
    · simp only [RankSplit.add, Nat.compare_eq_eq.2 heq]
      exact ⟨rfl, by simp, by simpa using heq⟩
  | cons b head =>
    obtain rfl : b.rank = best := hrank b List.mem_cons_self
    rw [splitStep]
    rcases Nat.lt_trichotomy c.rank b.rank with hlt | heq | hgt
    · simp only [RankSplit.add, Nat.compare_eq_lt.2 hlt, if_pos hlt]
      exact ⟨rfl, by simp, by simp⟩
    · simp only [RankSplit.add, Nat.compare_eq_eq.2 heq, if_neg heq.not_lt, if_pos heq]
      refine ⟨rfl, by simp, fun d hd => ?_⟩
      rcases List.mem_append.1 hd with hd | hd
      · exact hrank d hd
      · rw [List.mem_singleton.1 hd, heq]
    · simp only [RankSplit.add, Nat.compare_eq_gt.2 hgt, if_neg hgt.not_gt, if_neg hgt.ne']
      exact ⟨rfl, by simp, hrank⟩

theorem tracks_ofList {cs : List Candidate} (h : ∀ c ∈ cs, c.rank ≤ Candidate.maxRank) :
    (ofList cs).Tracks (splitByRank cs) := by
  induction cs using List.reverseRecOn with
  | nil => exact ⟨rfl, fun _ => rfl, by simp [ofList]⟩
  | append_singleton cs c ih =>
    obtain ⟨hcs, hc⟩ := List.forall_mem_append.1 h
    rw [splitByRank_concat, ofList, List.foldl_concat]
    exact (ih hcs).add (ranksApart_splitByRank cs) (hc c (List.mem_singleton_self c))

end RankSplit

/-! ## Head and tail -/

/-- Some candidates, separated into the best ones and all others. -/
structure IsHeadAndTail (cs head tail : List Candidate) : Prop where
  perm : (head ++ tail).Perm cs
  /-- The candidates of the least rank, in their order. -/
  head_eq : head = leastRanked cs
  head_eq_nil_iff : head = [] ↔ cs = []
  rank_lt : ∀ b ∈ head, ∀ c ∈ tail, b.rank < c.rank
  /-- All candidates of a rank in the tail are there, in their order. -/
  tail_filter : ∀ c ∈ tail, tail.filter (·.rank = c.rank) = cs.filter (·.rank = c.rank)

/-- Splitting by rank gives head and tail, also beside the best rank so far if no candidate has a
rank greater than the greatest there is. -/
theorem isHeadAndTail_splitByRank (cs : List Candidate) :
    IsHeadAndTail cs (splitByRank cs).1 (splitByRank cs).2 ∧
    ((∀ c ∈ cs, c.rank ≤ Candidate.maxRank) →
      IsHeadAndTail cs (RankSplit.ofList cs).head (RankSplit.ofList cs).tail) := by
  have hsplit : IsHeadAndTail cs (splitByRank cs).1 (splitByRank cs).2 := by
    have hapart : RanksApart (splitByRank cs) := ranksApart_splitByRank cs
    refine ⟨splitByRank_perm cs, splitByRank_fst cs, ?_, hapart.rank_lt, fun c hc => ?_⟩
    · rw [splitByRank_fst]
      refine ⟨fun hnil => ?_, ?_⟩
      · by_contra hne
        exact leastRanked_ne_nil hne hnil
      · rintro rfl
        rfl
    · have hhead : (splitByRank cs).1.filter (·.rank = c.rank) = [] :=
        filter_rank_eq_nil fun b hb => (hapart.rank_lt b hb c hc).ne
      rw [← filter_splitByRank cs, List.filter_append, hhead, List.nil_append]
  refine ⟨hsplit, fun h => ?_⟩
  have hparts := (RankSplit.tracks_ofList h).parts_eq
  rwa [← hparts] at hsplit

/-- A place with a rank. -/
def rankedPlace (id rank : Nat) : Candidate :=
  { source := .primary, id, rank }

/-- Candidates of the greatest rank there is are the head, and none of them is behind it. -/
theorem isHeadAndTail_of_greatest_ranks :
    (∀ c ∈ [rankedPlace 1 Candidate.maxRank, rankedPlace 2 Candidate.maxRank],
      c.rank ≤ Candidate.maxRank) ∧
    IsHeadAndTail [rankedPlace 1 Candidate.maxRank, rankedPlace 2 Candidate.maxRank]
      [rankedPlace 1 Candidate.maxRank, rankedPlace 2 Candidate.maxRank] [] := by
  have hranks : ∀ c ∈ [rankedPlace 1 Candidate.maxRank, rankedPlace 2 Candidate.maxRank],
      c.rank ≤ Candidate.maxRank := by decide
  exact ⟨hranks, (isHeadAndTail_splitByRank _).2 hranks⟩

/-- The head that is overtaken goes to the end of the tail. -/
example : splitByRank [rankedPlace 1 2, rankedPlace 2 2, rankedPlace 3 5, rankedPlace 4 1] =
    ([rankedPlace 4 1], [rankedPlace 3 5, rankedPlace 1 2, rankedPlace 2 2]) := by decide

end Geocoding
