import Geocoding.Candidate
import Std.Data.HashMap.Lemmas

/-!
# Candidate sets with a table of positions

`IndexedCandidates` holds the candidates of a `CandidateSet` beside a table of the positions of
their places, so that a place is found without going through all candidates. A change to the
candidates (`CandidateUpdate`) has to keep the table in step with them.
-/

namespace Geocoding

deriving instance Hashable for Source

/-- Candidates in the order in which their places were found, and where the candidate for each place
stands. -/
structure IndexedCandidates where
  entries : List Candidate
  positions : Std.HashMap (Source × Nat) Nat

/-- A change to a set of candidates. -/
inductive CandidateUpdate where
  /-- Add a candidate; of two for a place the one of lower rank stays. -/
  | insert (c : Candidate)
  /-- Add a candidate in place of an earlier one. -/
  | replace (c : Candidate)
  /-- Add candidates one after another. -/
  | extend (candidates : List Candidate)
  /-- Begin anew with some candidates. -/
  | collect (candidates : List Candidate)
  /-- Keep only the candidates with a property. They differ in their places, so this is any choice
  of them. -/
  | filter (p : Candidate → Bool)
  /-- Change the rank of the candidate for a place, if there is one. -/
  | setRank (key : Source × Nat) (rank : Candidate → Nat)
  /-- Change the ranks of all candidates. -/
  | mapRanks (rank : Candidate → Nat)

namespace IndexedCandidates

/-- No candidates. -/
def empty : IndexedCandidates := ⟨[], ∅⟩

instance : EmptyCollection IndexedCandidates := ⟨empty⟩
instance : Inhabited IndexedCandidates := ⟨empty⟩

/-- The positions of the places of some candidates. -/
def positionsOf (entries : List Candidate) : Std.HashMap (Source × Nat) Nat :=
  .ofList ((entries.map (·.key)).zipIdx)

/-- Candidates with their positions. -/
def reindexed (entries : List Candidate) : IndexedCandidates :=
  ⟨entries, positionsOf entries⟩

/-- The candidate for a place. -/
def get? (t : IndexedCandidates) (key : Source × Nat) : Option Candidate :=
  t.positions[key]?.bind (t.entries[·]?)

/-- Whether there is a candidate for a place. -/
def contains (t : IndexedCandidates) (key : Source × Nat) : Bool :=
  t.positions.contains key

/-- Put a candidate in: `pick` decides between it and the entry for the same place, and a new place
comes last. -/
def putBy (pick : Candidate → Candidate → Candidate) (t : IndexedCandidates) (c : Candidate) :
    IndexedCandidates :=
  match t.positions[c.key]? with
  | some pos => { t with entries := t.entries.modify pos (pick · c) }
  | none => ⟨t.entries ++ [c], t.positions.insert c.key t.entries.length⟩

/-- Add a candidate. Of two candidates for a place the one of lower rank stays, at the position
where the place was first found. -/
def insert : IndexedCandidates → Candidate → IndexedCandidates :=
  putBy lowerRanked

/-- Add a candidate in place of an earlier one for the same place. -/
def replace : IndexedCandidates → Candidate → IndexedCandidates :=
  putBy fun _ later => later

/-- Add candidates one after another. -/
def extend (t : IndexedCandidates) (candidates : List Candidate) : IndexedCandidates :=
  candidates.foldl insert t

/-- The set of some candidates. -/
def ofList (candidates : List Candidate) : IndexedCandidates :=
  extend ∅ candidates

/-- The candidates with a property, at new positions. -/
def filter (p : Candidate → Bool) (t : IndexedCandidates) : IndexedCandidates :=
  reindexed (t.entries.filter p)

/-- Change the rank of the candidate for a place. -/
def setRank (key : Source × Nat) (rank : Candidate → Nat) (t : IndexedCandidates) :
    IndexedCandidates :=
  match t.positions[key]? with
  | some pos => { t with entries := t.entries.modify pos fun c => { c with rank := rank c } }
  | none => t

/-- Change the ranks of the candidates. -/
def mapRanks (rank : Candidate → Nat) (t : IndexedCandidates) : IndexedCandidates :=
  { t with entries := t.entries.map fun c => { c with rank := rank c } }

/-- Make a change. -/
def update (t : IndexedCandidates) : CandidateUpdate → IndexedCandidates
  | .insert c => t.insert c
  | .replace c => t.replace c
  | .extend candidates => t.extend candidates
  | .collect candidates => ofList candidates
  | .filter p => t.filter p
  | .setRank key rank => t.setRank key rank
  | .mapRanks rank => t.mapRanks rank

/-- The candidates after some changes, none of them before. -/
def run (updates : List CandidateUpdate) : IndexedCandidates :=
  updates.foldl update ∅

end IndexedCandidates

namespace CandidateSet

/-- Make a change. -/
def update (set : CandidateSet) : CandidateUpdate → CandidateSet
  | .insert c => set.insert c
  | .replace c => set.replace c
  | .extend candidates => set.extend candidates
  | .collect candidates => ofList candidates
  | .filter p => set.filter p
  | .setRank key rank => set.mapRanks fun c => if c.key = key then rank c else c.rank
  | .mapRanks rank => set.mapRanks rank

/-- The candidates after some changes, none of them before. -/
def run (updates : List CandidateUpdate) : CandidateSet :=
  updates.foldl update ∅

end CandidateSet

end Geocoding
