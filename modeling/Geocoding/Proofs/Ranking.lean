import Geocoding.Proofs.Distinct
import Geocoding.Ranking
import Mathlib.Data.List.Basic
import Mathlib.Data.List.Perm.Basic

/-!
# Rankings: laws

A ranking holds its items with their ranks (`Ranking.toPairs`). Every operation is described by what
it does to these pairs, up to their order. The items of one rank keep the order in which they came
(`Ranking.filter_toPairs_ofPairs`), so a bucket is a part of the list it was made from. An item that
comes first among those of the best rank leads the ranking (`Ranking.Leads`), and it keeps doing so
as long as no better one joins.
-/

namespace Geocoding

namespace Ranking

variable {α : Type}

/-! ## Items with their ranks -/

/-- The items of some buckets with their ranks. -/
def pairsOf (buckets : List (Nat × List α)) : List (Nat × α) :=
  buckets.flatMap fun (rank, items) => items.map (rank, ·)

theorem toPairs_eq (ranking : Ranking α) : ranking.toPairs = pairsOf ranking.buckets := rfl

theorem items_eq_map_toPairs (ranking : Ranking α) : ranking.items = ranking.toPairs.map (·.2) := by
  simp only [items, toPairs, List.map_flatMap, List.map_map, Function.comp_def, List.map_id']

theorem mem_items {ranking : Ranking α} {x : α} :
    x ∈ ranking.items ↔ ∃ rank, (rank, x) ∈ ranking.toPairs := by
  simp [items_eq_map_toPairs]

theorem mem_toPairs {ranking : Ranking α} {rank : Nat} {x : α} :
    (rank, x) ∈ ranking.toPairs ↔ ∃ items, (rank, items) ∈ ranking.buckets ∧ x ∈ items := by
  simp only [toPairs, List.mem_flatMap, List.mem_map, Prod.mk.injEq, Prod.exists]
  constructor
  · rintro ⟨r, items, hb, y, hy, rfl, rfl⟩
    exact ⟨items, hb, hy⟩
  · rintro ⟨items, hb, hx⟩
    exact ⟨rank, items, hb, x, hx, rfl, rfl⟩

theorem nodup_ranks (ranking : Ranking α) : (ranking.buckets.map (·.1)).Nodup :=
  ranking.ascending.imp Nat.ne_of_lt

/-- The bucket of a rank has the items of that rank. -/
theorem mem_get_iff {ranking : Ranking α} {rank : Nat} {x : α} :
    x ∈ ranking.get rank ↔ (rank, x) ∈ ranking.toPairs := by
  rw [mem_toPairs, get]
  constructor
  · intro hx
    cases hitems : ranking.buckets.lookup rank with
    | none => simp [hitems] at hx
    | some items =>
      rw [hitems] at hx
      exact ⟨items, (lookup_eq_some_iff_mem ranking.nodup_ranks).1 hitems, hx⟩
  · rintro ⟨items, hitems, hx⟩
    rw [(lookup_eq_some_iff_mem ranking.nodup_ranks).2 hitems]
    exact hx

theorem pairsOf_appendAt_perm (rank : Nat) (items : List α) (buckets : List (Nat × List α)) :
    (pairsOf (appendAt rank items buckets)).Perm (pairsOf buckets ++ items.map (rank, ·)) := by
  induction buckets with
  | nil => simp [pairsOf, appendAt]
  | cons bucket rest ih =>
    obtain ⟨r, xs⟩ := bucket
    rw [appendAt]
    split
    · have hswap : (items.map (rank, ·) ++ pairsOf ((r, xs) :: rest)).Perm
          (pairsOf ((r, xs) :: rest) ++ items.map (rank, ·)) := List.perm_append_comm
      simpa [pairsOf] using hswap
    · split
      · next h =>
        subst h
        have hswap : (items.map (rank, ·) ++ pairsOf rest).Perm
            (pairsOf rest ++ items.map (rank, ·)) := List.perm_append_comm
        simpa [pairsOf] using hswap.append_left (xs.map (rank, ·))
      · simpa [pairsOf] using ih.append_left (xs.map (r, ·))

theorem toPairs_append_perm (ranking : Ranking α) (rank : Nat) (items : List α) :
    (ranking.append rank items).toPairs.Perm (ranking.toPairs ++ items.map (rank, ·)) :=
  pairsOf_appendAt_perm rank items ranking.buckets

theorem toPairs_foldl_push_perm (pairs : List (Nat × α)) (ranking : Ranking α) :
    (pairs.foldl (fun ranking (rank, item) => ranking.push rank item) ranking).toPairs.Perm
      (ranking.toPairs ++ pairs) := by
  induction pairs generalizing ranking with
  | nil => simp
  | cons pair pairs ih =>
    obtain ⟨rank, x⟩ := pair
    refine (ih _).trans ?_
    simpa [push] using (toPairs_append_perm ranking rank [x]).append_right pairs

theorem toPairs_ofPairs_perm (pairs : List (Nat × α)) : (ofPairs pairs).toPairs.Perm pairs :=
  toPairs_foldl_push_perm pairs ∅

theorem toPairs_ofList_perm (rankOf : α → Nat) (xs : List α) :
    (ofList rankOf xs).toPairs.Perm (xs.map fun x => (rankOf x, x)) :=
  toPairs_ofPairs_perm _

theorem items_ofList_perm (rankOf : α → Nat) (xs : List α) : (ofList rankOf xs).items.Perm xs := by
  rw [items_eq_map_toPairs]
  simpa [Function.comp_def] using (toPairs_ofList_perm rankOf xs).map (·.2)

theorem mem_toPairs_ofList {rankOf : α → Nat} {xs : List α} {rank : Nat} {x : α} :
    (rank, x) ∈ (ofList rankOf xs).toPairs ↔ rank = rankOf x ∧ x ∈ xs := by
  rw [(toPairs_ofList_perm rankOf xs).mem_iff]
  simp only [List.mem_map, Prod.mk.injEq]
  constructor
  · rintro ⟨y, hy, rfl, rfl⟩
    exact ⟨rfl, hy⟩
  · rintro ⟨rfl, hx⟩
    exact ⟨x, hx, rfl, rfl⟩

theorem toPairs_foldl_append_perm (buckets : List (Nat × List α)) (ranking : Ranking α) :
    (buckets.foldl (fun ranking (rank, items) => ranking.append rank items) ranking).toPairs.Perm
      (ranking.toPairs ++ pairsOf buckets) := by
  induction buckets generalizing ranking with
  | nil => simp [pairsOf]
  | cons bucket rest ih =>
    refine (ih _).trans ?_
    have happend := toPairs_append_perm ranking bucket.1 bucket.2
    simpa [pairsOf] using happend.append_right (pairsOf rest)

theorem toPairs_merge_perm (a b : Ranking α) : (a.merge b).toPairs.Perm (a.toPairs ++ b.toPairs) :=
  toPairs_foldl_append_perm b.buckets a

theorem mem_toPairs_merge {a b : Ranking α} {pair : Nat × α} :
    pair ∈ (a.merge b).toPairs ↔ pair ∈ a.toPairs ∨ pair ∈ b.toPairs := by
  rw [(toPairs_merge_perm a b).mem_iff, List.mem_append]

theorem mem_toPairs_mapBuckets {f : List α → List α} (hf : ∀ xs x, x ∈ f xs ↔ x ∈ xs)
    {ranking : Ranking α} {pair : Nat × α} :
    pair ∈ (ranking.mapBuckets f).toPairs ↔ pair ∈ ranking.toPairs := by
  obtain ⟨rank, x⟩ := pair
  simp only [mem_toPairs, mapBuckets, List.mem_map, Prod.mk.injEq, Prod.exists]
  constructor
  · rintro ⟨items, ⟨r, xs, hb, rfl, rfl⟩, hx⟩
    exact ⟨xs, hb, (hf xs x).1 hx⟩
  · rintro ⟨xs, hb, hx⟩
    exact ⟨f xs, ⟨rank, xs, hb, rfl, rfl⟩, (hf xs x).2 hx⟩

theorem length_toPairs_mapBuckets {f : List α → List α} (hf : ∀ xs, (f xs).length = xs.length)
    (ranking : Ranking α) : (ranking.mapBuckets f).toPairs.length = ranking.toPairs.length := by
  simp [toPairs, mapBuckets, List.length_flatMap, Function.comp_def, hf]

/-! ## The items of one rank -/

theorem filter_map_rank (rank r : Nat) (xs : List α) :
    (xs.map (rank, ·)).filter (·.1 = r) = if rank = r then xs.map (rank, ·) else [] := by
  split
  · next h =>
    refine List.filter_eq_self.2 fun pair hpair => ?_
    obtain ⟨x, -, rfl⟩ := List.mem_map.1 hpair
    simpa using h
  · next h =>
    refine List.filter_eq_nil_iff.2 fun pair hpair => ?_
    obtain ⟨x, -, rfl⟩ := List.mem_map.1 hpair
    simpa using h

/-- Buckets of higher ranks have no item of the rank. -/
theorem filter_pairsOf_eq_nil {r : Nat} {buckets : List (Nat × List α)}
    (h : ∀ rank ∈ buckets.map (·.1), r < rank) : (pairsOf buckets).filter (·.1 = r) = [] := by
  refine List.filter_eq_nil_iff.2 fun pair hpair => ?_
  obtain ⟨bucket, hbucket, hpair⟩ := List.mem_flatMap.1 hpair
  obtain ⟨x, -, rfl⟩ := List.mem_map.1 hpair
  have hlt : r < bucket.1 := h bucket.1 (List.mem_map_of_mem hbucket)
  simpa using (Nat.ne_of_lt hlt).symm

theorem filter_pairsOf_cons (rank r : Nat) (xs : List α) (rest : List (Nat × List α)) :
    (pairsOf ((rank, xs) :: rest)).filter (·.1 = r) =
      (if rank = r then xs.map (rank, ·) else []) ++ (pairsOf rest).filter (·.1 = r) := by
  rw [pairsOf, List.flatMap_cons, List.filter_append, filter_map_rank, pairsOf]

/-- Items join behind those of the same rank, and no others are touched. -/
theorem filter_pairsOf_appendAt {rank r : Nat} {items : List α} {buckets : List (Nat × List α)}
    (h : (buckets.map (·.1)).Pairwise (· < ·)) :
    (pairsOf (appendAt rank items buckets)).filter (·.1 = r) =
      (pairsOf buckets).filter (·.1 = r) ++ if rank = r then items.map (rank, ·) else [] := by
  induction buckets with
  | nil => rw [appendAt, filter_pairsOf_cons, pairsOf]; simp
  | cons bucket rest ih =>
    obtain ⟨r₀, xs⟩ := bucket
    obtain ⟨hr₀, hrest⟩ := List.pairwise_cons.1 h
    rw [appendAt]
    split
    · next hlt =>
      rw [filter_pairsOf_cons rank]
      by_cases hr : rank = r
      · have hnone : (pairsOf ((r₀, xs) :: rest)).filter (·.1 = r) = [] := by
          refine filter_pairsOf_eq_nil fun a ha => ?_
          rcases List.mem_cons.1 ha with rfl | ha
          · exact hr ▸ hlt
          · exact hr ▸ Nat.lt_trans hlt (hr₀ a ha)
        simp [hnone]
      · simp [hr]
    · split
      · next heq =>
        subst heq
        have hnone : (pairsOf rest).filter (·.1 = rank) = [] := filter_pairsOf_eq_nil hr₀
        rw [filter_pairsOf_cons, filter_pairsOf_cons]
        by_cases hr : rank = r
        · subst hr
          simp [hnone]
        · simp [hr]
      · rw [filter_pairsOf_cons, filter_pairsOf_cons, ih hrest, List.append_assoc]

theorem filter_toPairs_foldl_push (pairs : List (Nat × α)) (ranking : Ranking α) (r : Nat) :
    (pairs.foldl (fun ranking (rank, item) => ranking.push rank item) ranking).toPairs.filter
        (·.1 = r) = ranking.toPairs.filter (·.1 = r) ++ pairs.filter (·.1 = r) := by
  induction pairs generalizing ranking with
  | nil => simp
  | cons pair pairs ih =>
    obtain ⟨rank, x⟩ := pair
    have hpush : (ranking.push rank x).toPairs.filter (·.1 = r) =
        ranking.toPairs.filter (·.1 = r) ++ if rank = r then [(rank, x)] else [] :=
      filter_pairsOf_appendAt ranking.ascending
    rw [List.foldl_cons, ih, hpush, List.append_assoc]
    by_cases hr : rank = r
    · simp [hr]
    · simp [hr]

/-- The items of a rank stand in the order in which they came. -/
theorem filter_toPairs_ofPairs (pairs : List (Nat × α)) (r : Nat) :
    (ofPairs pairs).toPairs.filter (·.1 = r) = pairs.filter (·.1 = r) :=
  filter_toPairs_foldl_push pairs ∅ r

theorem filter_pairsOf_of_mem {r : Nat} {xs : List α} {buckets : List (Nat × List α)}
    (h : (buckets.map (·.1)).Pairwise (· < ·)) (hmem : (r, xs) ∈ buckets) :
    (pairsOf buckets).filter (·.1 = r) = xs.map (r, ·) := by
  induction buckets with
  | nil => exact absurd hmem List.not_mem_nil
  | cons bucket rest ih =>
    obtain ⟨r₀, ys⟩ := bucket
    obtain ⟨hr₀, hrest⟩ := List.pairwise_cons.1 h
    rw [filter_pairsOf_cons]
    rcases List.mem_cons.1 hmem with heq | hmem
    · obtain ⟨rfl, rfl⟩ := Prod.mk.inj heq
      have hnone : (pairsOf rest).filter (·.1 = r) = [] := filter_pairsOf_eq_nil hr₀
      simp [hnone]
    · have hlater : r₀ < r := hr₀ r (List.mem_map_of_mem hmem)
      rw [if_neg (Nat.ne_of_lt hlater), List.nil_append, ih hrest hmem]

/-- A bucket has all the items of its rank. -/
theorem filter_toPairs_of_mem {ranking : Ranking α} {r : Nat} {xs : List α}
    (h : (r, xs) ∈ ranking.buckets) : ranking.toPairs.filter (·.1 = r) = xs.map (r, ·) :=
  filter_pairsOf_of_mem ranking.ascending h

theorem map_eq_filter_of_mem_ofPairs {pairs : List (Nat × α)} {r : Nat} {xs : List α}
    (h : (r, xs) ∈ (ofPairs pairs).buckets) : xs.map (r, ·) = pairs.filter (·.1 = r) := by
  rw [← filter_toPairs_of_mem h, filter_toPairs_ofPairs]

theorem filter_items_ofList (rankOf : α → Nat) (xs : List α) (r : Nat) :
    (ofList rankOf xs).items.filter (rankOf · = r) = xs.filter (rankOf · = r) := by
  have hranks : ∀ pair ∈ (ofList rankOf xs).toPairs,
      decide (rankOf pair.2 = r) = decide (pair.1 = r) := by
    rintro ⟨rank, x⟩ hpair
    rw [(mem_toPairs_ofList.1 hpair).1]
  calc (ofList rankOf xs).items.filter (rankOf · = r)
      = ((ofList rankOf xs).toPairs.filter fun pair => rankOf pair.2 = r).map (·.2) := by
        rw [items_eq_map_toPairs, List.filter_map]
        rfl
    _ = ((ofList rankOf xs).toPairs.filter (·.1 = r)).map (·.2) := by
        rw [List.filter_congr hranks]
    _ = ((xs.map fun x => (rankOf x, x)).filter (·.1 = r)).map (·.2) := by
        rw [ofList, filter_toPairs_ofPairs]
    _ = xs.filter (rankOf · = r) := by
        simp [List.filter_map, Function.comp_def]

/-- A bucket of a list is what the list has of its rank. -/
theorem eq_filter_of_mem_ofList {rankOf : α → Nat} {xs ys : List α} {r : Nat}
    (h : (r, ys) ∈ (ofList rankOf xs).buckets) : ys = xs.filter (rankOf · = r) := by
  have hmap := congrArg (List.map Prod.snd) (map_eq_filter_of_mem_ofPairs h)
  simpa [List.filter_map, Function.comp_def] using hmap

/-! ## The leading item -/

theorem buckets_append (ranking : Ranking α) (rank : Nat) (items : List α) :
    (ranking.append rank items).buckets = appendAt rank items ranking.buckets := rfl

theorem buckets_mapBuckets (f : List α → List α) (ranking : Ranking α) :
    (ranking.mapBuckets f).buckets =
      ranking.buckets.map fun (rank, items) => (rank, f items) := rfl

/-- The item is the first one of the best rank. -/
def Leads (ranking : Ranking α) (rank : Nat) (x : α) : Prop :=
  ∃ more rest, ranking.buckets = (rank, x :: more) :: rest

theorem Leads.isEmpty_eq_false {ranking : Ranking α} {rank : Nat} {x : α}
    (h : ranking.Leads rank x) : ranking.isEmpty = false := by
  obtain ⟨more, rest, hbuckets⟩ := h
  rw [isEmpty, hbuckets]
  rfl

theorem Leads.append {ranking : Ranking α} {rank r : Nat} {x : α} (h : ranking.Leads rank x)
    (hr : rank ≤ r) (items : List α) : (ranking.append r items).Leads rank x := by
  obtain ⟨more, rest, hbuckets⟩ := h
  rw [Leads, buckets_append, hbuckets, appendAt, if_neg (Nat.not_lt.2 hr)]
  by_cases heq : r = rank
  · rw [if_pos heq]
    exact ⟨more ++ items, rest, rfl⟩
  · rw [if_neg heq]
    exact ⟨more, _, rfl⟩

theorem Leads.foldl_push {ranking : Ranking α} {rank : Nat} {x : α} (h : ranking.Leads rank x)
    {pairs : List (Nat × α)} (hpairs : ∀ pair ∈ pairs, rank ≤ pair.1) :
    (pairs.foldl (fun ranking (rank, item) => ranking.push rank item) ranking).Leads rank x := by
  induction pairs generalizing ranking with
  | nil => exact h
  | cons pair pairs ih =>
    obtain ⟨hpair, hpairs⟩ := List.forall_mem_cons.1 hpairs
    exact ih (h.append hpair [pair.2]) hpairs

theorem leads_ofPairs {rank : Nat} {x : α} {pairs : List (Nat × α)}
    (hpairs : ∀ pair ∈ pairs, rank ≤ pair.1) : (ofPairs ((rank, x) :: pairs)).Leads rank x := by
  have hfirst : ((∅ : Ranking α).push rank x).Leads rank x := ⟨[], [], rfl⟩
  exact hfirst.foldl_push hpairs

theorem leads_ofList (rankOf : α → Nat) {x : α} {xs : List α} (hx : xs.head? = some x)
    (hle : ∀ y ∈ xs, rankOf x ≤ rankOf y) : (ofList rankOf xs).Leads (rankOf x) x := by
  obtain ⟨xs, rfl⟩ := List.head?_eq_some_iff.1 hx
  refine leads_ofPairs fun pair hpair => ?_
  obtain ⟨y, hy, rfl⟩ := List.mem_map.1 hpair
  exact hle y (List.mem_cons_of_mem _ hy)

theorem Leads.merge {a b : Ranking α} {rank : Nat} {x : α} (h : a.Leads rank x)
    (hb : ∀ bucket ∈ b.buckets, rank ≤ bucket.1) : (a.merge b).Leads rank x := by
  rw [Ranking.merge]
  generalize b.buckets = buckets at hb
  induction buckets generalizing a with
  | nil => exact h
  | cons bucket rest ih =>
    obtain ⟨hbucket, hrest⟩ := List.forall_mem_cons.1 hb
    exact ih (h.append hbucket bucket.2) hrest

theorem Leads.mapBuckets {ranking : Ranking α} {rank : Nat} {x : α} (h : ranking.Leads rank x)
    {f : List α → List α} (hf : ∀ items, (rank, items) ∈ ranking.buckets →
      items.head? = some x → (f items).head? = some x) :
    (ranking.mapBuckets f).Leads rank x := by
  obtain ⟨more, rest, hbuckets⟩ := h
  have hhead := hf (x :: more) (hbuckets ▸ List.mem_cons_self) rfl
  obtain ⟨more', hmore⟩ := List.head?_eq_some_iff.1 hhead
  refine ⟨more', rest.map fun (rank, items) => (rank, f items), ?_⟩
  simp only [buckets_mapBuckets, hbuckets, List.map_cons, hmore]

theorem Leads.toPairs {ranking : Ranking α} {rank : Nat} {x : α} (h : ranking.Leads rank x) :
    ∃ rest, ranking.toPairs = (rank, x) :: rest ∧ ∀ pair ∈ rest, rank ≤ pair.1 := by
  obtain ⟨more, rest, hbuckets⟩ := h
  have hascending := ranking.ascending
  rw [hbuckets, List.map_cons, List.pairwise_cons] at hascending
  refine ⟨more.map (rank, ·) ++ pairsOf rest, ?_, ?_⟩
  · rw [toPairs_eq, hbuckets]
    rfl
  · intro pair hpair
    rcases List.mem_append.1 hpair with hpair | hpair
    · obtain ⟨y, -, rfl⟩ := List.mem_map.1 hpair
      exact Nat.le_refl rank
    · obtain ⟨bucket, hbucket, hpair⟩ := List.mem_flatMap.1 hpair
      obtain ⟨y, -, rfl⟩ := List.mem_map.1 hpair
      exact Nat.le_of_lt (hascending.1 _ (List.mem_map_of_mem hbucket))

theorem exists_rank_of_mem_foldl_push {pairs : List (Nat × α)} {ranking : Ranking α}
    {bucket : Nat × List α}
    (h : bucket ∈ (pairs.foldl (fun ranking (rank, item) => ranking.push rank item)
      ranking).buckets) :
    bucket.1 ∈ ranking.buckets.map (·.1) ∨ ∃ pair ∈ pairs, bucket.1 = pair.1 := by
  induction pairs generalizing ranking with
  | nil => exact Or.inl (List.mem_map_of_mem h)
  | cons pair pairs ih =>
    rcases ih h with hrank | ⟨p, hp, hrank⟩
    · rcases mem_map_fst_appendAt.1 hrank with hrank | hrank
      · exact Or.inr ⟨pair, List.mem_cons_self, hrank⟩
      · exact Or.inl hrank
    · exact Or.inr ⟨p, List.mem_cons_of_mem _ hp, hrank⟩

/-- Every bucket of a list has the rank of some member. -/
theorem exists_rank_of_mem_ofList {rankOf : α → Nat} {xs : List α} {bucket : Nat × List α}
    (h : bucket ∈ (ofList rankOf xs).buckets) : ∃ x ∈ xs, bucket.1 = rankOf x := by
  rcases exists_rank_of_mem_foldl_push h with hrank | ⟨pair, hpair, hrank⟩
  · exact nomatch hrank
  · obtain ⟨x, hx, rfl⟩ := List.mem_map.1 hpair
    exact ⟨x, hx, hrank⟩

theorem ne_nil_of_mem_ofPairs {pairs : List (Nat × α)} {r : Nat} {xs : List α}
    (h : (r, xs) ∈ (ofPairs pairs).buckets) : xs ≠ [] := by
  obtain ⟨pair, hpair, hrank⟩ := (exists_rank_of_mem_foldl_push h).resolve_left nofun
  have hmem : pair ∈ pairs.filter (·.1 = r) := List.mem_filter.2 ⟨hpair, by simpa using hrank.symm⟩
  rintro rfl
  rw [← map_eq_filter_of_mem_ofPairs h] at hmem
  exact absurd hmem List.not_mem_nil

/-- A part of a ranking, ranked again: no bucket is empty, and each is a part of an old one. -/
theorem exists_bucket_of_mem_ofPairs {ranking : Ranking α} {pairs : List (Nat × α)}
    (hsub : pairs.Sublist ranking.toPairs) {r : Nat} {xs : List α}
    (h : (r, xs) ∈ (ofPairs pairs).buckets) :
    xs ≠ [] ∧ ∃ ys, (r, ys) ∈ ranking.buckets ∧ xs.Sublist ys := by
  have hxs := map_eq_filter_of_mem_ofPairs h
  obtain ⟨⟨rank, x⟩, hpair, hrank⟩ := (exists_rank_of_mem_foldl_push h).resolve_left nofun
  obtain rfl : r = rank := hrank
  obtain ⟨ys, hys, -⟩ := mem_toPairs.1 (hsub.mem hpair)
  refine ⟨ne_nil_of_mem_ofPairs h, ys, hys, ?_⟩
  have hpart := (hsub.filter (fun pair => pair.1 = r)).map Prod.snd
  rw [← hxs, filter_toPairs_of_mem hys] at hpart
  simpa [Function.comp_def] using hpart

end Ranking

end Geocoding
