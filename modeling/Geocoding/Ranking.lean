/-!
# Rankings

Items in buckets by rank (`Ranking`): ranks ascend, and within a bucket the items keep the order in
which they came. A bucket can be empty, which happens if its items are dropped one by one
(`mapBuckets`).
-/

namespace Geocoding

/-- Append items to the bucket of a rank, which is made if there is none. -/
def appendAt {α : Type} (rank : Nat) (items : List α) : List (Nat × List α) → List (Nat × List α)
  | [] => [(rank, items)]
  | (r, xs) :: rest =>
    if rank < r then (rank, items) :: (r, xs) :: rest
    else if rank = r then (r, xs ++ items) :: rest
    else (r, xs) :: appendAt rank items rest

theorem mem_map_fst_appendAt {α : Type} {a rank : Nat} {items : List α}
    {buckets : List (Nat × List α)} :
    a ∈ (appendAt rank items buckets).map (·.1) ↔ a = rank ∨ a ∈ buckets.map (·.1) := by
  induction buckets with
  | nil => simp [appendAt]
  | cons bucket rest ih =>
    obtain ⟨r, xs⟩ := bucket
    rw [appendAt]
    split
    · simp
    · split
      · next h => subst h; simp
      · simp only [List.map_cons, List.mem_cons, ih]
        exact or_left_comm

theorem pairwise_appendAt {α : Type} {rank : Nat} {items : List α} {buckets : List (Nat × List α)}
    (h : (buckets.map (·.1)).Pairwise (· < ·)) :
    ((appendAt rank items buckets).map (·.1)).Pairwise (· < ·) := by
  induction buckets with
  | nil => simp [appendAt]
  | cons bucket rest ih =>
    obtain ⟨r, xs⟩ := bucket
    obtain ⟨hr, hrest⟩ := List.pairwise_cons.1 h
    rw [appendAt]
    split
    · next hlt =>
      refine List.pairwise_cons.2 ⟨fun a ha => ?_, h⟩
      rcases List.mem_cons.1 ha with rfl | ha
      · exact hlt
      · exact Nat.lt_trans hlt (hr a ha)
    · split
      · exact h
      · refine List.pairwise_cons.2 ⟨fun a ha => ?_, ih hrest⟩
        rcases mem_map_fst_appendAt.1 ha with rfl | ha
        · show r < a
          omega
        · exact hr a ha

/-- Items in buckets by rank. -/
structure Ranking (α : Type) where
  /-- The buckets with their ranks. -/
  buckets : List (Nat × List α)
  ascending : (buckets.map (·.1)).Pairwise (· < ·)
deriving DecidableEq

namespace Ranking

variable {α : Type}

/-- The ranking without buckets. -/
def empty : Ranking α := ⟨[], .nil⟩

instance : EmptyCollection (Ranking α) := ⟨empty⟩
instance : Inhabited (Ranking α) := ⟨empty⟩

/-- The ranking with items appended to the bucket of a rank. -/
def append (ranking : Ranking α) (rank : Nat) (items : List α) : Ranking α :=
  ⟨appendAt rank items ranking.buckets, pairwise_appendAt ranking.ascending⟩

/-- The ranking with one more item. -/
def push (ranking : Ranking α) (rank : Nat) (item : α) : Ranking α :=
  ranking.append rank [item]

/-- The ranking of items that come with their ranks. -/
def ofPairs (pairs : List (Nat × α)) : Ranking α :=
  pairs.foldl (fun ranking (rank, item) => ranking.push rank item) ∅

/-- The ranking of items by a function. -/
def ofList (rankOf : α → Nat) (items : List α) : Ranking α :=
  ofPairs (items.map fun item => (rankOf item, item))

/-- The items of both, those of the second behind those of the first in each bucket. -/
def merge (a b : Ranking α) : Ranking α :=
  b.buckets.foldl (fun ranking (rank, items) => ranking.append rank items) a

/-- The ranks in ascending order. -/
def ranks (ranking : Ranking α) : List Nat :=
  ranking.buckets.map (·.1)

/-- The items of a rank. -/
def get (ranking : Ranking α) (rank : Nat) : List α :=
  (ranking.buckets.lookup rank).getD []

/-- All items, best rank first. -/
def items (ranking : Ranking α) : List α :=
  ranking.buckets.flatMap (·.2)

/-- All items with their ranks, best rank first. -/
def toPairs (ranking : Ranking α) : List (Nat × α) :=
  ranking.buckets.flatMap fun (rank, items) => items.map (rank, ·)

/-- How many items there are. -/
def size (ranking : Ranking α) : Nat :=
  (ranking.buckets.flatMap (·.2)).length

/-- How many buckets there are. -/
def bucketCount (ranking : Ranking α) : Nat :=
  ranking.buckets.length

/-- Whether there is no item. -/
def isEmpty (ranking : Ranking α) : Bool :=
  ranking.buckets.all (·.2.isEmpty)

/-- Change the content of every bucket. -/
def mapBuckets (f : List α → List α) (ranking : Ranking α) : Ranking α where
  buckets := ranking.buckets.map fun (rank, items) => (rank, f items)
  ascending := by simpa [Function.comp_def] using ranking.ascending

/-- The buckets that are not empty. -/
def dropEmpty (ranking : Ranking α) : Ranking α where
  buckets := ranking.buckets.filter (!·.2.isEmpty)
  ascending := ranking.ascending.sublist (List.filter_sublist.map _)

/-- The items with a property; buckets left empty go. -/
def filter (p : α → Bool) (ranking : Ranking α) : Ranking α :=
  (ranking.mapBuckets (·.filter p)).dropEmpty

end Ranking

end Geocoding
