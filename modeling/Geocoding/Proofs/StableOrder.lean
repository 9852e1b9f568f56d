import Mathlib.Data.List.Sort

/-!
# Lists in the order of a key

Sorting by a key keeps the members of each key in the order in which they came
(`filter_mergeSort_le`), and no other list that ascends by the key does so: such a list is known
from its members of each key (`eq_of_pairwise_le_of_filter_eq`). So whatever ascends and keeps the
order among equals is the sorted list (`eq_mergeSort_le`).

Merging is defined by a recursion that does not unfold to a value. Sorted lists can still be
computed, as they come about by insertion, too (`mergeSort_eq_insertionSort`).
-/

namespace Geocoding

section

variable {α : Type} {le : α → α → Bool}

/-- What a member does not precede stays before it. -/
theorem orderedInsert_append {x : α} {before behind : List α}
    (hbefore : ∀ y ∈ before, le x y = false) (hbehind : ∀ y ∈ behind, le x y = true) :
    (before ++ behind).orderedInsert (le · · = true) x = before ++ x :: behind := by
  induction before with
  | nil =>
    cases behind with
    | nil => rfl
    | cons y rest =>
      exact List.orderedInsert_cons_of_le (le · · = true) rest (hbehind y List.mem_cons_self)
  | cons y rest ih =>
    obtain ⟨hy, hrest⟩ := List.forall_mem_cons.1 hbefore
    rw [List.cons_append, List.orderedInsert_cons, if_neg (by simp [hy]), ih hrest]
    rfl

/-- Sorting inserts one member after another, from the last one on, so that equals keep their
order. -/
theorem mergeSort_eq_insertionSort
    (htrans : ∀ x y z, le x y = true → le y z = true → le x z = true)
    (htotal : ∀ x y, (le x y || le y x) = true) (xs : List α) :
    xs.mergeSort le = xs.insertionSort (le · · = true) := by
  induction xs with
  | nil => simp
  | cons x xs ih =>
    obtain ⟨before, behind, hsorted, hrest, hbefore⟩ := List.mergeSort_cons htrans htotal x xs
    have hpairwise := List.pairwise_mergeSort htrans htotal (x :: xs)
    rw [hsorted, List.pairwise_append, List.pairwise_cons] at hpairwise
    rw [List.insertionSort_cons, ← ih, hrest, hsorted,
      orderedInsert_append (fun y hy => by simpa using hbefore y hy) hpairwise.2.1.1]

end

variable {α : Type} {key : α → Nat}

theorem decide_key_le_trans (key : α → Nat) (x y z : α) (hxy : decide (key x ≤ key y) = true)
    (hyz : decide (key y ≤ key z) = true) : decide (key x ≤ key z) = true := by
  simp only [decide_eq_true_eq] at hxy hyz ⊢
  omega

theorem decide_key_le_total (key : α → Nat) (x y : α) :
    (decide (key x ≤ key y) || decide (key y ≤ key x)) = true := by
  simp only [Bool.or_eq_true, decide_eq_true_eq]
  omega

theorem pairwise_mergeSort_le (key : α → Nat) (xs : List α) :
    (xs.mergeSort fun x y => key x ≤ key y).Pairwise fun x y => key x ≤ key y :=
  (List.pairwise_mergeSort (decide_key_le_trans key) (decide_key_le_total key) xs).imp
    fun h => of_decide_eq_true h

/-- Sorting keeps the order among equals. -/
theorem filter_mergeSort_le (key : α → Nat) (xs : List α) (k : Nat) :
    (xs.mergeSort fun x y => key x ≤ key y).filter (key · = k) = xs.filter (key · = k) := by
  have hequal : (xs.filter (key · = k)).Pairwise fun x y => decide (key x ≤ key y) = true := by
    refine List.pairwise_of_forall_mem_list fun x hx y hy => ?_
    have hxk := of_decide_eq_true (List.mem_filter.1 hx).2
    have hyk := of_decide_eq_true (List.mem_filter.1 hy).2
    exact decide_eq_true (Nat.le_of_eq (hxk.trans hyk.symm))
  have hsub : (xs.filter (key · = k)).Sublist (xs.mergeSort fun x y => key x ≤ key y) :=
    List.sublist_mergeSort (decide_key_le_trans key) (decide_key_le_total key) hequal
      List.filter_sublist
  have hpart := hsub.filter (key · = k)
  rw [List.filter_filter] at hpart
  simp only [Bool.and_self] at hpart
  exact (hpart.eq_of_length ((List.mergeSort_perm xs _).filter _).length_eq.symm).symm

theorem mem_iff_of_filter_eq {xs ys : List α}
    (h : ∀ k, xs.filter (key · = k) = ys.filter (key · = k)) {x : α} : x ∈ xs ↔ x ∈ ys := by
  have hx : x ∈ xs.filter (key · = key x) ↔ x ∈ ys.filter (key · = key x) := by rw [h]
  simpa using hx

/-- A list that ascends by a key is known from its members of each key. -/
theorem eq_of_pairwise_le_of_filter_eq {xs ys : List α}
    (hxs : xs.Pairwise fun x y => key x ≤ key y) (hys : ys.Pairwise fun x y => key x ≤ key y)
    (h : ∀ k, xs.filter (key · = k) = ys.filter (key · = k)) : xs = ys := by
  induction xs generalizing ys with
  | nil =>
    exact (List.eq_nil_iff_forall_not_mem.2 fun y hy => nomatch (mem_iff_of_filter_eq h).2 hy).symm
  | cons x xs ih =>
    have hx : x ∈ ys := (mem_iff_of_filter_eq h).1 List.mem_cons_self
    obtain ⟨y, ys, rfl⟩ := List.exists_cons_of_ne_nil (List.ne_nil_of_mem hx)
    have hy : y ∈ x :: xs := (mem_iff_of_filter_eq h).2 List.mem_cons_self
    obtain ⟨hxle, hxrest⟩ := List.pairwise_cons.1 hxs
    obtain ⟨hyle, hyrest⟩ := List.pairwise_cons.1 hys
    -- each of the first members is in the other list, so both have the least key
    have hkey : key x = key y := by
      have hxy : ∀ z ∈ x :: xs, key x ≤ key z := List.forall_mem_cons.2 ⟨Nat.le_refl _, hxle⟩
      have hyx : ∀ z ∈ y :: ys, key y ≤ key z := List.forall_mem_cons.2 ⟨Nat.le_refl _, hyle⟩
      exact Nat.le_antisymm (hxy y hy) (hyx x hx)
    obtain rfl : x = y := by
      have hfirst := h (key x)
      rw [List.filter_cons_of_pos (by simp), List.filter_cons_of_pos (by simp [hkey])] at hfirst
      exact (List.cons.inj hfirst).1
    refine congrArg (x :: ·) (ih hxrest hyrest fun k => ?_)
    have hk := h k
    rw [List.filter_cons, List.filter_cons] at hk
    split at hk
    · exact (List.cons.inj hk).2
    · exact hk

/-- What ascends and keeps the order among equals is the sorted list. -/
theorem eq_mergeSort_le {xs ys : List α} (hys : ys.Pairwise fun x y => key x ≤ key y)
    (h : ∀ k, ys.filter (key · = k) = xs.filter (key · = k)) :
    ys = xs.mergeSort fun x y => key x ≤ key y :=
  eq_of_pairwise_le_of_filter_eq hys (pairwise_mergeSort_le key xs) fun k => by
    rw [h, filter_mergeSort_le]

theorem filter_mergeSort_comm (key : α → Nat) (p : α → Bool) (xs : List α) :
    (xs.mergeSort fun x y => key x ≤ key y).filter p =
      (xs.filter p).mergeSort fun x y => key x ≤ key y := by
  refine eq_mergeSort_le ((pairwise_mergeSort_le key xs).sublist List.filter_sublist) fun k => ?_
  rw [List.filter_comm, filter_mergeSort_le, List.filter_comm]

end Geocoding
