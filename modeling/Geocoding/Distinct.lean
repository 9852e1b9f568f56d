import Std.Data.HashSet.Lemmas

/-!
# Distinct members

`distinctBy` drops the members of a list that repeat an earlier one, as far as a key tells.
`distinctTexts` does the same for texts, of which there can be many, with a hash set of those seen.
-/

namespace Geocoding

/-- The members of a list without those whose key occurred before. -/
def distinctBy {α β : Type} [BEq β] (key : α → β) (items : List α) : List α :=
  go [] items
where
  go (seen : List β) : List α → List α
    | [] => []
    | x :: xs => if seen.contains (key x) then go seen xs else x :: go (key x :: seen) xs

/-- The texts of a list without those that occurred before. -/
def distinctTexts (texts : List String) : List String :=
  go ∅ texts
where
  go (seen : Std.HashSet String) : List String → List String
    | [] => []
    | x :: xs => if seen.contains x then go seen xs else x :: go (seen.insert x) xs

theorem distinctTexts_go {seen : Std.HashSet String} {earlier : List String}
    (h : ∀ x, seen.contains x = earlier.contains x) (texts : List String) :
    distinctTexts.go seen texts = distinctBy.go id earlier texts := by
  induction texts generalizing seen earlier with
  | nil => rfl
  | cons x xs ih =>
    simp only [distinctTexts.go, distinctBy.go, id, h]
    split
    · exact ih h
    · rw [ih]
      intro y
      rw [Std.HashSet.contains_insert, h, List.contains_cons, Bool.beq_comm]

theorem distinctTexts_eq (texts : List String) : distinctTexts texts = distinctBy id texts :=
  distinctTexts_go (fun _ => by simp) texts

end Geocoding
