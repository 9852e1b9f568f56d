import Geocoding.Proofs.Ranking
import Geocoding.Proofs.StableOrder
import Mathlib.Data.List.Nodup
import Mathlib.Data.Prod.Basic

/-!
# Rankings as stable bucket sorts

A ranking of a list is its stable sort, cut into buckets (`Ranking.IsBucketSort`), and ranking two
lists one behind the other merges their rankings. Rankings are told apart by their buckets
(`Ranking.ext_bucket?`), and merging joins the buckets of each rank (`Ranking.bucket?_merge`), so it
is associative because joining lists is; the ranking without buckets is neutral. Adding items is
merging with a ranking of one bucket, which carries these laws over to rankings of lists.

Taking a ranking apart into its items with their ranks, and ranking these again, drops empty buckets
and does nothing else (`Ranking.ofPairs_toPairs`).
-/

namespace Geocoding

namespace Ranking

variable {α : Type}

/-! ## Buckets by rank -/

/-- The bucket of a rank, if there is one. -/
def bucket? (ranking : Ranking α) (rank : Nat) : Option (List α) :=
  ranking.buckets.lookup rank

theorem bucket?_eq_some_iff {ranking : Ranking α} {rank : Nat} {items : List α} :
    ranking.bucket? rank = some items ↔ (rank, items) ∈ ranking.buckets :=
  lookup_eq_some_iff_mem ranking.nodup_ranks

theorem bucket?_empty (rank : Nat) : (∅ : Ranking α).bucket? rank = none := rfl

/-- Rankings with the same buckets are the same. -/
theorem ext_buckets {a b : Ranking α} (h : ∀ bucket, bucket ∈ a.buckets ↔ bucket ∈ b.buckets) :
    a = b := by
  have hperm : a.buckets.Perm b.buckets :=
    (List.perm_ext_iff_of_nodup (List.Nodup.of_map _ a.nodup_ranks)
      (List.Nodup.of_map _ b.nodup_ranks)).2 h
  obtain ⟨buckets, ha⟩ := a
  obtain ⟨buckets', hb⟩ := b
  have hbuckets : buckets = buckets' := by
    refine List.Perm.eq_of_pairwise ?_ (List.pairwise_map.1 ha) (List.pairwise_map.1 hb) hperm
    exact fun x y _ _ hxy hyx => absurd hyx (Nat.lt_asymm hxy)
  subst hbuckets
  rfl

theorem ext_bucket? {a b : Ranking α} (h : ∀ rank, a.bucket? rank = b.bucket? rank) : a = b :=
  ext_buckets fun (rank, items) => by
    rw [← bucket?_eq_some_iff, ← bucket?_eq_some_iff, h]

theorem lookup_cons_eq_ite (r rank : Nat) (items : List α) (rest : List (Nat × List α)) :
    ((rank, items) :: rest).lookup r = if r = rank then some items else rest.lookup r := by
  split
  · next h => rw [h, List.lookup_cons_self]
  · next h => rw [List.lookup_cons, beq_false_of_ne h]

theorem lookup_eq_none_of_forall_lt {r : Nat} {buckets : List (Nat × List α)}
    (h : ∀ rank ∈ buckets.map (·.1), r < rank) : buckets.lookup r = none := by
  refine List.lookup_eq_none_iff.2 fun bucket hbucket => ?_
  have hlt : r < bucket.1 := h bucket.1 (List.mem_map_of_mem hbucket)
  simpa using Nat.ne_of_lt hlt

/-- Items join the bucket of their rank, and no other is touched. -/
theorem lookup_appendAt {rank r : Nat} {items : List α} {buckets : List (Nat × List α)}
    (h : (buckets.map (·.1)).Pairwise (· < ·)) :
    (appendAt rank items buckets).lookup r =
      (buckets.lookup r).merge (· ++ ·) (if r = rank then some items else none) := by
  induction buckets with
  | nil => rw [appendAt, lookup_cons_eq_ite, List.lookup_nil, Option.merge_none_left]
  | cons bucket rest ih =>
    obtain ⟨r₀, xs⟩ := bucket
    obtain ⟨hr₀, hrest⟩ := List.pairwise_cons.1 h
    rw [appendAt]
    split
    · next hlt =>
      rw [lookup_cons_eq_ite r rank]
      by_cases hr : r = rank
      · have hnone : ((r₀, xs) :: rest).lookup r = none := by
          refine lookup_eq_none_of_forall_lt fun a ha => ?_
          rcases List.mem_cons.1 ha with rfl | ha
          · exact hr ▸ hlt
          · exact hr ▸ Nat.lt_trans hlt (hr₀ a ha)
        rw [hnone, Option.merge_none_left]
      · rw [if_neg hr, if_neg hr, Option.merge_none_right]
    · split
      · next heq =>
        subst heq
        rw [lookup_cons_eq_ite, lookup_cons_eq_ite]
        by_cases hr : r = rank
        · simp [hr]
        · simp [hr]
      · next hne =>
        rw [lookup_cons_eq_ite, lookup_cons_eq_ite, ih hrest]
        by_cases hr : r = r₀
        · simp [hr, Ne.symm hne]
        · simp [hr]

theorem bucket?_append (ranking : Ranking α) (rank : Nat) (items : List α) (r : Nat) :
    (ranking.append rank items).bucket? r =
      (ranking.bucket? r).merge (· ++ ·) (if r = rank then some items else none) :=
  lookup_appendAt ranking.ascending

theorem bucket?_foldl_append {buckets : List (Nat × List α)}
    (h : (buckets.map (·.1)).Pairwise (· < ·)) (a : Ranking α) (r : Nat) :
    (buckets.foldl (fun ranking bucket => ranking.append bucket.1 bucket.2) a).bucket? r =
      (a.bucket? r).merge (· ++ ·) (buckets.lookup r) := by
  induction buckets generalizing a with
  | nil => rw [List.lookup_nil, Option.merge_none_right]; rfl
  | cons bucket rest ih =>
    obtain ⟨hlater, hrest⟩ := List.pairwise_cons.1 h
    rw [List.foldl_cons, ih hrest, bucket?_append, lookup_cons_eq_ite]
    by_cases hr : r = bucket.1
    · have hnone : rest.lookup r = none :=
        lookup_eq_none_of_forall_lt fun rank hrank => hr ▸ hlater rank hrank
      rw [hnone, Option.merge_none_right, if_pos hr]
    · rw [if_neg hr, if_neg hr, Option.merge_none_right]

/-- Merging joins the buckets of each rank. -/
theorem bucket?_merge (a b : Ranking α) (r : Nat) :
    (a.merge b).bucket? r = (a.bucket? r).merge (· ++ ·) (b.bucket? r) :=
  bucket?_foldl_append b.ascending a r

/-! ## Merging -/

theorem merge_assoc (a b c : Ranking α) : (a.merge b).merge c = a.merge (b.merge c) := by
  refine ext_bucket? fun r => ?_
  simp only [bucket?_merge]
  exact Std.Associative.assoc ..

theorem merge_empty (a : Ranking α) : a.merge ∅ = a := rfl

theorem empty_merge (a : Ranking α) : (∅ : Ranking α).merge a = a :=
  ext_bucket? fun r => by rw [bucket?_merge, bucket?_empty, Option.merge_none_left]

/-- Items that are pushed one after another are merged as a ranking of their own. -/
theorem foldl_push_eq_merge (pairs : List (Nat × α)) (ranking : Ranking α) :
    pairs.foldl (fun ranking (rank, item) => ranking.push rank item) ranking =
      ranking.merge (ofPairs pairs) := by
  induction pairs generalizing ranking with
  | nil => rfl
  | cons pair pairs ih =>
    calc pairs.foldl (fun ranking (rank, item) => ranking.push rank item)
          (ranking.push pair.1 pair.2)
        = (ranking.merge ((∅ : Ranking α).push pair.1 pair.2)).merge (ofPairs pairs) := ih _
      _ = ranking.merge (((∅ : Ranking α).push pair.1 pair.2).merge (ofPairs pairs)) :=
        merge_assoc ..
      _ = ranking.merge (ofPairs (pair :: pairs)) := by rw [← ih]; rfl

theorem ofPairs_append (pairs more : List (Nat × α)) :
    ofPairs (pairs ++ more) = (ofPairs pairs).merge (ofPairs more) := by
  rw [← foldl_push_eq_merge, ofPairs, List.foldl_append]
  rfl

theorem ofList_append (rankOf : α → Nat) (xs ys : List α) :
    ofList rankOf (xs ++ ys) = (ofList rankOf xs).merge (ofList rankOf ys) := by
  rw [ofList, List.map_append, ofPairs_append]
  rfl

/-! ## The ranking of a list -/

theorem pairwise_pairsOf {buckets : List (Nat × List α)}
    (h : (buckets.map (·.1)).Pairwise (· < ·)) :
    (pairsOf buckets).Pairwise fun p q => p.1 ≤ q.1 := by
  induction buckets with
  | nil => exact .nil
  | cons bucket rest ih =>
    obtain ⟨hlt, hrest⟩ := List.pairwise_cons.1 h
    rw [pairsOf, List.flatMap_cons, List.pairwise_append]
    refine ⟨?_, ih hrest, fun p hp q hq => ?_⟩
    · exact List.pairwise_map.2 (List.pairwise_of_forall fun _ _ => Nat.le_refl _)
    · obtain ⟨x, -, rfl⟩ := List.mem_map.1 hp
      obtain ⟨later, hlater, hq⟩ := List.mem_flatMap.1 hq
      obtain ⟨y, -, rfl⟩ := List.mem_map.1 hq
      exact Nat.le_of_lt (hlt _ (List.mem_map_of_mem hlater))

theorem pairwise_items_ofList (rankOf : α → Nat) (xs : List α) :
    (ofList rankOf xs).items.Pairwise fun x y => rankOf x ≤ rankOf y := by
  rw [items_eq_map_toPairs, List.pairwise_map]
  refine (pairwise_pairsOf (ofList rankOf xs).ascending).imp_of_mem fun {p q} hp hq h => ?_
  rw [← (mem_toPairs_ofList.1 hp).1, ← (mem_toPairs_ofList.1 hq).1]
  exact h

theorem items_ofList (rankOf : α → Nat) (xs : List α) :
    (ofList rankOf xs).items = xs.mergeSort fun x y => rankOf x ≤ rankOf y :=
  eq_mergeSort_le (pairwise_items_ofList rankOf xs) (filter_items_ofList rankOf xs)

theorem mem_ranks_ofList {rankOf : α → Nat} {xs : List α} {r : Nat} :
    r ∈ (ofList rankOf xs).ranks ↔ ∃ x ∈ xs, rankOf x = r := by
  constructor
  · intro hr
    obtain ⟨bucket, hbucket, rfl⟩ := List.mem_map.1 hr
    obtain ⟨x, hx, hrank⟩ := exists_rank_of_mem_ofList hbucket
    exact ⟨x, hx, hrank.symm⟩
  · rintro ⟨x, hx, rfl⟩
    obtain ⟨items, hbucket, -⟩ := mem_toPairs.1 (mem_toPairs_ofList.2 ⟨rfl, hx⟩)
    exact List.mem_map_of_mem hbucket

theorem get_ofList (rankOf : α → Nat) (xs : List α) (r : Nat) :
    (ofList rankOf xs).get r = xs.filter (rankOf · = r) := by
  cases hbucket : (ofList rankOf xs).bucket? r with
  | some items =>
    have hget : (ofList rankOf xs).get r = items := congrArg (·.getD []) hbucket
    rw [hget, eq_filter_of_mem_ofList (bucket?_eq_some_iff.1 hbucket)]
  | none =>
    have hget : (ofList rankOf xs).get r = [] := congrArg (·.getD []) hbucket
    rw [hget, eq_comm, List.filter_eq_nil_iff]
    intro x hx hrank
    have hmem : x ∈ (ofList rankOf xs).get r :=
      mem_get_iff.2 (mem_toPairs_ofList.2 ⟨(of_decide_eq_true hrank).symm, hx⟩)
    rw [hget] at hmem
    exact absurd hmem List.not_mem_nil

/-! ## Taking apart and ranking again -/

/-- A bucket with items is what there is of its rank. -/
theorem mem_buckets_iff_of_ne_nil {ranking : Ranking α} {r : Nat} {xs : List α} (hne : xs ≠ []) :
    (r, xs) ∈ ranking.buckets ↔ xs.map (r, ·) = ranking.toPairs.filter (·.1 = r) := by
  constructor
  · exact fun h => (filter_toPairs_of_mem h).symm
  · intro h
    obtain ⟨x, hx⟩ := List.exists_mem_of_ne_nil xs hne
    have hpair : (r, x) ∈ ranking.toPairs :=
      List.mem_of_mem_filter (h ▸ List.mem_map_of_mem hx)
    obtain ⟨items, hbucket, -⟩ := mem_toPairs.1 hpair
    rw [filter_toPairs_of_mem hbucket] at h
    rwa [List.map_injective_iff.2 (Prod.mk_right_injective r) h]

/-- Ranking the items of a ranking again drops its empty buckets. -/
theorem ofPairs_toPairs (ranking : Ranking α) : ofPairs ranking.toPairs = ranking.dropEmpty := by
  refine ext_buckets fun (r, xs) => ?_
  by_cases hne : xs = []
  · have hnone : (r, xs) ∉ (ofPairs ranking.toPairs).buckets := fun h => ne_nil_of_mem_ofPairs h hne
    simpa [dropEmpty, hne] using hnone
  · rw [mem_buckets_iff_of_ne_nil hne, filter_toPairs_ofPairs, ← mem_buckets_iff_of_ne_nil hne]
    simp [dropEmpty, hne]

theorem dropEmpty_eq_self_iff {ranking : Ranking α} :
    ranking.dropEmpty = ranking ↔ ∀ bucket ∈ ranking.buckets, bucket.2 ≠ [] := by
  have hbuckets : ranking.dropEmpty = ranking ↔
      ranking.buckets.filter (!·.2.isEmpty) = ranking.buckets := by
    obtain ⟨buckets, h⟩ := ranking
    rw [dropEmpty, mk.injEq]
  rw [hbuckets, List.filter_eq_self]
  simp

/-! ## Stable bucket sorts -/

/-- The ranking is the stable sort of a list, cut into buckets. -/
structure IsBucketSort (ranking : Ranking α) (rankOf : α → Nat) (xs : List α) : Prop where
  items : ranking.items = xs.mergeSort fun x y => rankOf x ≤ rankOf y
  ascending : ranking.ranks.Pairwise (· < ·)
  mem_ranks : ∀ r, r ∈ ranking.ranks ↔ ∃ x ∈ xs, rankOf x = r
  /-- Each bucket has the members of its rank, in the order of the list. -/
  get : ∀ r, ranking.get r = xs.filter (rankOf · = r)

theorem isBucketSort_ofList (rankOf : α → Nat) (xs : List α) :
    (ofList rankOf xs).IsBucketSort rankOf xs where
  items := items_ofList rankOf xs
  ascending := (ofList rankOf xs).ascending
  mem_ranks _ := mem_ranks_ofList
  get := get_ofList rankOf xs

/-- The ranking of a list is its stable bucket sort, and that of two lists one behind the other is
the one ranking merged with the other. Merging is associative, with the empty ranking as neutral
element. Exactly the rankings without empty buckets are what they are taken apart into, ranked
again. -/
theorem ofList_bucketSorts_and_merges :
    (∀ (rankOf : α → Nat) (xs ys : List α),
      (ofList rankOf xs).IsBucketSort rankOf xs ∧
      ofList rankOf (xs ++ ys) = (ofList rankOf xs).merge (ofList rankOf ys)) ∧
    (∀ a b c : Ranking α, (a.merge b).merge c = a.merge (b.merge c)) ∧
    (∀ a : Ranking α, a.merge ∅ = a ∧ (∅ : Ranking α).merge a = a) ∧
    ∀ a : Ranking α, ofPairs a.toPairs = a ↔ ∀ bucket ∈ a.buckets, bucket.2 ≠ [] := by
  refine ⟨fun rankOf xs ys => ⟨isBucketSort_ofList rankOf xs, ofList_append rankOf xs ys⟩,
    merge_assoc, fun a => ⟨merge_empty a, empty_merge a⟩, fun a => ?_⟩
  rw [ofPairs_toPairs, dropEmpty_eq_self_iff]

end Ranking

end Geocoding
