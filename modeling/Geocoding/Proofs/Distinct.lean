import Geocoding.Distinct
import Mathlib.Data.List.Basic

/-!
# Distinct members: laws

`distinctBy` keeps members in their order (`distinctBy_sublist`), keeps one member per key
(`nodup_map_distinctBy`) and loses no key (`exists_mem_distinctBy`). Under the identity as the key
it is the list without repetitions, with the same members (`mem_distinctBy_id`).

In a list of pairs with distinct keys, looking up a key finds the one pair that has it
(`lookup_eq_some_iff_mem`).
-/

namespace Geocoding

section

variable {α β : Type} [BEq β] (key : α → β)

theorem distinctBy_go_sublist (seen : List β) (xs : List α) :
    (distinctBy.go key seen xs).Sublist xs := by
  induction xs generalizing seen with
  | nil => exact .slnil
  | cons x xs ih =>
    rw [distinctBy.go]
    split
    · exact (ih seen).cons x
    · exact (ih _).cons_cons x

theorem distinctBy_sublist (xs : List α) : (distinctBy key xs).Sublist xs :=
  distinctBy_go_sublist key [] xs

/-- The first member always stays. -/
theorem distinctBy_cons (x : α) (xs : List α) :
    distinctBy key (x :: xs) = x :: distinctBy.go key [key x] xs := by
  simp [distinctBy, distinctBy.go]

variable [LawfulBEq β]

variable {key} in
theorem not_mem_seen_of_mem_go {seen : List β} {xs : List α} {x : α}
    (h : x ∈ distinctBy.go key seen xs) : key x ∉ seen := by
  induction xs generalizing seen with
  | nil => simp [distinctBy.go] at h
  | cons y ys ih =>
    rw [distinctBy.go] at h
    split at h
    · exact ih h
    · next hy =>
      rcases List.mem_cons.1 h with rfl | h
      · simpa using hy
      · exact fun hx => ih h (List.mem_cons_of_mem _ hx)

theorem nodup_map_distinctBy_go (seen : List β) (xs : List α) :
    ((distinctBy.go key seen xs).map key).Nodup := by
  induction xs generalizing seen with
  | nil => exact .nil
  | cons x xs ih =>
    rw [distinctBy.go]
    split
    · exact ih seen
    · refine List.nodup_cons.2 ⟨fun hx => ?_, ih _⟩
      obtain ⟨y, hy, hyx⟩ := List.mem_map.1 hx
      exact not_mem_seen_of_mem_go hy (by simp [hyx])

theorem nodup_map_distinctBy (xs : List α) : ((distinctBy key xs).map key).Nodup :=
  nodup_map_distinctBy_go key [] xs

theorem exists_mem_distinctBy_go {seen : List β} {xs : List α} {x : α} (hx : x ∈ xs)
    (hseen : key x ∉ seen) : ∃ y ∈ distinctBy.go key seen xs, key y = key x := by
  induction xs generalizing seen with
  | nil => simp at hx
  | cons z zs ih =>
    rw [distinctBy.go]
    by_cases hz : seen.contains (key z)
    · rw [if_pos hz]
      rcases List.mem_cons.1 hx with rfl | hx
      · exact absurd (by simpa using hz) hseen
      · exact ih hx hseen
    · rw [if_neg hz]
      by_cases hzx : key z = key x
      · exact ⟨z, List.mem_cons_self, hzx⟩
      · have hx' : x ∈ zs := by
          rcases List.mem_cons.1 hx with rfl | hx
          · exact absurd rfl hzx
          · exact hx
        have hseen' : key x ∉ key z :: seen := by simp [hseen, Ne.symm hzx]
        obtain ⟨y, hy, hyx⟩ := ih hx' hseen'
        exact ⟨y, List.mem_cons_of_mem _ hy, hyx⟩

theorem exists_mem_distinctBy {xs : List α} {x : α} (hx : x ∈ xs) :
    ∃ y ∈ distinctBy key xs, key y = key x :=
  exists_mem_distinctBy_go key hx (by simp)

end

section

variable {α : Type} [BEq α] [LawfulBEq α] {xs : List α}

theorem mem_distinctBy_id {x : α} : x ∈ distinctBy id xs ↔ x ∈ xs := by
  constructor
  · exact fun h => (distinctBy_sublist id xs).mem h
  · intro h
    obtain ⟨y, hy, hyx⟩ := exists_mem_distinctBy id h
    obtain rfl : y = x := hyx
    exact hy

end

theorem lookup_eq_some_iff_mem {α β : Type} [BEq α] [LawfulBEq α] {entries : List (α × β)}
    (h : (entries.map (·.1)).Nodup) {key : α} {value : β} :
    entries.lookup key = some value ↔ (key, value) ∈ entries := by
  induction entries with
  | nil => simp
  | cons entry rest ih =>
    obtain ⟨k, v⟩ := entry
    obtain ⟨hk, hrest⟩ := List.nodup_cons.1 h
    by_cases hkey : key = k
    · subst hkey
      have hlater : (key, value) ∉ rest := fun hmem => hk (List.mem_map.2 ⟨_, hmem, rfl⟩)
      simp [hlater, eq_comm]
    · rw [List.lookup_cons, beq_false_of_ne hkey, ih hrest]
      simp [hkey]

end Geocoding
