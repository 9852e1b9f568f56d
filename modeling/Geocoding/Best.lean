/-!
# The best member of a list

`best?` picks a member by a comparison that says when a later member takes the place of an earlier
one.
-/

namespace Geocoding

/-- The better of the best member so far and the next one. -/
def better {α : Type} (replaces : α → α → Bool) : Option α → α → Option α
  | none, x => some x
  | some best, x => some (if replaces x best then x else best)

/-- The best member of a list, where `replaces x y` says that `x` is preferred to an earlier `y`. -/
def best? {α : Type} (replaces : α → α → Bool) (xs : List α) : Option α :=
  xs.foldl (better replaces) none

end Geocoding
