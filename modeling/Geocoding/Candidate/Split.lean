import Geocoding.Candidate

/-!
# Splitting candidates beside their best rank

`RankSplit` separates candidates by rank as they come, like `splitByRank`, and keeps the best rank
so far beside them. Before the first candidate this is the greatest rank there is, which candidates
may have as well.
-/

namespace Geocoding

/-- The candidates that share the best rank so far, and all others. -/
structure RankSplit where
  best : Nat := Candidate.maxRank
  head : List Candidate := []
  tail : List Candidate := []
deriving DecidableEq, Repr

namespace RankSplit

/-- Add a candidate. If it is better than the head, the head goes to the end of the tail. -/
def add (split : RankSplit) (c : Candidate) : RankSplit :=
  match compare c.rank split.best with
  | .lt => { best := c.rank, head := [c], tail := split.tail ++ split.head }
  | .eq => { split with head := split.head ++ [c] }
  | .gt => { split with tail := split.tail ++ [c] }

/-- Separate candidates, one after another. -/
def ofList (candidates : List Candidate) : RankSplit :=
  candidates.foldl add {}

end RankSplit

end Geocoding
