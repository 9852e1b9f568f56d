import Geocoding.Config
import Geocoding.Ranking
import Geocoding.Resolve.Lookup

/-!
# Resolving interpretations

`resolve` looks up ranked interpretations group by group, cheapest first, until places turn up. As
long as no exact match was found, the places of a group are carried to the next one with their ranks
lowered by one, so that a slightly less plausible reading can still give the better match.
-/

namespace Geocoding

/-- Why interpretations are not resolved. -/
inductive ResolveError where
  | index (error : IndexError)
  | cancelled
deriving DecidableEq, Repr

/-- The text of a resolution error. -/
def ResolveError.message : ResolveError → String
  | index error => "Index error: " ++ error.message
  | cancelled => "Resolution cancelled"

/-- A resolution that may take effect in `m` or fail. -/
abbrev ResolveM (m : Type → Type) := ExceptT ResolveError m

/-- An answer of the index within a resolution. -/
def ResolveM.ofIndex {m : Type → Type} [Monad m] {α : Type} (answer : IndexM m α) : ResolveM m α :=
  answer.adapt ResolveError.index

/-- What resolving depends on besides the interpretations. -/
structure Resolver (m : Type → Type) where
  limits : ResolverLimits := {}
  scope : Scope := {}
  /-- The places that an interpretation means. -/
  lookup : Interpretation → IndexM m CandidateSet
  /-- Those of the places of a source whose ranks are in the scope. -/
  withRanks : Source → List Nat → IndexM m (List Nat)
  /-- Whether to stop before the next group. -/
  isCancelled : m Bool

namespace Resolver

variable {m : Type → Type}

/-- The resolver of a query over an index. -/
def ofIndex [Monad m] (index : PlaceIndex m) (c : Constraints) (limits : ResolverLimits)
    (scope : Scope) (isCancelled : m Bool) : Resolver m where
  limits
  scope
  lookup := Geocoding.lookup index c scope
  withRanks source ids := index.withRanks source ids scope.ranks scope.allowed
  isCancelled

/-- The interpretations of a group that are looked up, when `queried` have been before. -/
def batch (r : Resolver m) (queried : Nat) (states : List Interpretation) : List Interpretation :=
  states.take (min r.limits.perGroup (r.limits.maxQueries - queried))

/-- The places to carry to the next group: all that were found, their ranks lowered by one. -/
def carried (found : CandidateSet) : CandidateSet :=
  let (head, tail) := splitByRank found.entries
  .ofList ((head ++ tail).map fun c => { c with rank := c.rank - 1 })

/-- The places of the best rank. -/
def best (found : CandidateSet) : CandidateSet :=
  .ofList (splitByRank found.entries).1

/-- Whether one of the places is an exact match. -/
def hasExact (found : CandidateSet) : Bool :=
  found.entries.any (·.rank = 0)

/-- The ids of the places of a source that are in the scope. -/
def acceptedIn [Monad m] (r : Resolver m) (found : CandidateSet) (source : Source) :
    ResolveM m (List (Source × Nat)) := do
  let ids := found.idsIn source
  if ids.isEmpty then return []
  let kept ← .ofIndex (r.withRanks source ids)
  return kept.map (source, ·)

/-- The places in the scope. Address ranges are at house level, and are kept if houses are to be
found. -/
def inScope [Monad m] (r : Resolver m) (found : CandidateSet) : ResolveM m CandidateSet := do
  if found.isEmpty || r.scope.ranks.isFull then return found
  let primary ← r.acceptedIn found .primary
  let postcodes ← r.acceptedIn found .postcode
  let accepted := primary ++ postcodes
  return found.filter fun c =>
    (r.scope.ranks.max = 30 && c.source.isInterpolated) || accepted.contains c.key

/-- Look up the groups one after another. `visited` groups and `queried` interpretations came
before, and `kept` are the places carried over from the last of them. -/
def visit [Monad m] (r : Resolver m) (visited queried : Nat) (kept : CandidateSet) :
    List (Nat × List Interpretation) → ResolveM m CandidateSet
  | [] => return ∅
  | (_, states) :: rest => do
    if ← r.isCancelled then throw .cancelled
    let batch := r.batch queried states
    let goesOn := visited + 1 < r.limits.maxGroups &&
      queried + batch.length < r.limits.maxQueries && !rest.isEmpty
    let answers ← batch.mapM fun s => ResolveM.ofIndex (r.lookup s)
    let found := answers.foldl (fun found answer => found.extend answer.entries) kept
    if goesOn && !hasExact found then
      visit r (visited + 1) (queried + batch.length) (carried found) rest
    else
      let results ← r.inScope (best found)
      if results.isEmpty && goesOn then visit r (visited + 1) (queried + batch.length) ∅ rest
      else return results

/-- The places that the interpretations mean. -/
def resolve [Monad m] (r : Resolver m) (ranking : Ranking Interpretation) :
    ResolveM m (List Candidate) := do
  let found ← r.visit 0 0 ∅ ranking.buckets
  return found.entries

end Resolver

end Geocoding
