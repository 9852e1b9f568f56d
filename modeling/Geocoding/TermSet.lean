/-!
# Sets of word ids

The words of an interpretation are sets of vocabulary ids, kept as strictly ascending lists, so that
equal sets are equal values (`TermSet`).
-/

namespace Geocoding

/-- Insert a number into a strictly ascending list, unless it is there already. -/
def insertAscending (id : Nat) : List Nat → List Nat
  | [] => [id]
  | x :: xs =>
    if id < x then id :: x :: xs
    else if id = x then x :: xs
    else x :: insertAscending id xs

theorem mem_insertAscending {a id : Nat} {xs : List Nat} :
    a ∈ insertAscending id xs ↔ a = id ∨ a ∈ xs := by
  induction xs with
  | nil => simp [insertAscending]
  | cons x xs ih =>
    rw [insertAscending]
    split
    · simp
    · split
      · next h => subst h; simp
      · simp only [List.mem_cons, ih]
        exact or_left_comm

theorem pairwise_insertAscending {id : Nat} {xs : List Nat} (h : xs.Pairwise (· < ·)) :
    (insertAscending id xs).Pairwise (· < ·) := by
  induction xs with
  | nil => simp [insertAscending]
  | cons x xs ih =>
    obtain ⟨hx, hxs⟩ := List.pairwise_cons.1 h
    rw [insertAscending]
    split
    · next hlt =>
      refine List.pairwise_cons.2 ⟨fun a ha => ?_, h⟩
      rcases List.mem_cons.1 ha with rfl | ha
      · exact hlt
      · exact Nat.lt_trans hlt (hx a ha)
    · split
      · exact h
      · refine List.pairwise_cons.2 ⟨fun a ha => ?_, ih hxs⟩
        rcases mem_insertAscending.1 ha with rfl | ha
        · omega
        · exact hx a ha

/-- A finite set of word ids. -/
structure TermSet where
  /-- The members in ascending order. -/
  ids : List Nat
  ascending : ids.Pairwise (· < ·)
deriving DecidableEq

namespace TermSet

theorem ascending_nil : ([] : List Nat).Pairwise (· < ·) := .nil

/-- The empty set. -/
def empty : TermSet := ⟨[], ascending_nil⟩

instance : EmptyCollection TermSet := ⟨empty⟩
instance : Inhabited TermSet := ⟨empty⟩

/-- The set with one more member. -/
def insert (id : Nat) (s : TermSet) : TermSet :=
  ⟨insertAscending id s.ids, pairwise_insertAscending s.ascending⟩

/-- The set of the members of a list. -/
def ofList (ids : List Nat) : TermSet :=
  ids.foldl (fun s id => s.insert id) ∅

/-- The set with one member. -/
def singleton (id : Nat) : TermSet :=
  ⟨[id], .cons (by simp) .nil⟩

/-- The members of either set. -/
def union (s t : TermSet) : TermSet :=
  t.ids.foldl (fun s id => s.insert id) s

instance : Union TermSet := ⟨union⟩

instance : Membership Nat TermSet := ⟨fun s id => id ∈ s.ids⟩

instance (id : Nat) (s : TermSet) : Decidable (id ∈ s) :=
  inferInstanceAs (Decidable (id ∈ s.ids))

/-- Whether the set has no members. -/
def isEmpty (s : TermSet) : Bool :=
  s.ids.isEmpty

/-- The members in ascending order, divided by commas. -/
def listed (s : TermSet) : String :=
  ",".intercalate (s.ids.map toString)

theorem mem_def {id : Nat} {s : TermSet} : id ∈ s ↔ id ∈ s.ids := Iff.rfl

theorem isEmpty_iff {s : TermSet} : s.isEmpty = true ↔ ∀ id, id ∉ s := by
  rw [isEmpty, List.isEmpty_iff, List.eq_nil_iff_forall_not_mem]
  rfl

@[simp] theorem not_mem_empty {id : Nat} : ¬ id ∈ (∅ : TermSet) :=
  List.not_mem_nil

@[simp] theorem mem_insert {a id : Nat} {s : TermSet} : a ∈ s.insert id ↔ a = id ∨ a ∈ s :=
  mem_insertAscending

@[simp] theorem isEmpty_insert (id : Nat) (s : TermSet) : (s.insert id).isEmpty = false := by
  have hid : id ∈ s.insert id := mem_insert.2 (Or.inl rfl)
  rw [Bool.eq_false_iff]
  intro hempty
  exact isEmpty_iff.1 hempty id hid

@[simp] theorem mem_singleton {a id : Nat} : a ∈ singleton id ↔ a = id :=
  List.mem_singleton

theorem mem_foldl_insert {a : Nat} {ids : List Nat} {s : TermSet} :
    a ∈ ids.foldl (fun s id => s.insert id) s ↔ a ∈ s ∨ a ∈ ids := by
  induction ids generalizing s with
  | nil => simp
  | cons id ids ih =>
    rw [List.foldl_cons, ih, mem_insert, List.mem_cons]
    constructor
    · rintro ((h | h) | h)
      · exact Or.inr (Or.inl h)
      · exact Or.inl h
      · exact Or.inr (Or.inr h)
    · rintro (h | h | h)
      · exact Or.inl (Or.inr h)
      · exact Or.inl (Or.inl h)
      · exact Or.inr h

@[simp] theorem mem_union {a : Nat} {s t : TermSet} : a ∈ s ∪ t ↔ a ∈ s ∨ a ∈ t :=
  mem_foldl_insert

@[simp] theorem mem_ofList {a : Nat} {ids : List Nat} : a ∈ ofList ids ↔ a ∈ ids := by
  rw [ofList, mem_foldl_insert]
  simp

end TermSet

end Geocoding
