/-!
# Candidates

A candidate is a place found for an interpretation (`Candidate`). A candidate set holds one
candidate per place, in the order in which the places were found (`CandidateSet`).
-/

namespace Geocoding

/-- Where a place is recorded. -/
inductive Source where
  /-- Areas, streets, points of interest and addressed buildings. -/
  | primary
  /-- Postcode areas. -/
  | postcode
  /-- Lines between two addresses with house numbers in between. -/
  | interpolation
  /-- Address ranges of parcels. -/
  | parcel
deriving DecidableEq, Repr

namespace Source

/-- The entries are address ranges, whose house numbers are computed. -/
def isInterpolated : Source → Bool
  | interpolation | parcel => true
  | primary | postcode => false

/-- The name of a source. -/
def name : Source → String
  | primary => "primary"
  | postcode => "postcode"
  | interpolation => "interpolation"
  | parcel => "parcel"

/-- The source of a name. -/
def ofName? (name : String) : Option Source :=
  [primary, postcode, interpolation, parcel].find? (·.name = name)

end Source

/-- A place found for an interpretation of the query. -/
structure Candidate where
  source : Source
  id : Nat
  /-- The number looked up or computed, for places that are address ranges. -/
  houseNumber : Option Nat := none
  /-- How many full words of the query are in the address of the place. -/
  exactMatches : Nat := 0
  /-- How far the place is from what was searched for; 0 for exact matches. -/
  rank : Nat := 0
  /-- The address rank of the place, as far as the index told it. -/
  addressRank : Option Nat := none
deriving DecidableEq, Repr

namespace Candidate

/-- The greatest rank there is. -/
def maxRank : Nat := UInt32.size - 1

/-- What identifies the place. -/
def key (c : Candidate) : Source × Nat :=
  (c.source, c.id)

/-- A place of the primary source. -/
def primary (id : Nat) (addressRank : Option Nat) : Candidate :=
  { source := .primary, id, addressRank }

/-- The address rank as far as it is known. Address ranges are at house level. -/
def effectiveAddressRank (c : Candidate) : Option Nat :=
  if c.source.isInterpolated then some 30 else c.addressRank

/-- The source, id, house number and rank. -/
def display (c : Candidate) : String :=
  c.source.name ++ ":" ++ toString c.id ++ (c.houseNumber.map ("#" ++ toString ·)).getD "" ++
    " (rank " ++ toString c.rank ++ ")"

end Candidate

/-- Put a candidate into a list: `pick` decides between it and an entry for the same place, and a
new place comes last. -/
def putBy (pick : Candidate → Candidate → Candidate) (c : Candidate) :
    List Candidate → List Candidate
  | [] => [c]
  | e :: rest => if e.key = c.key then pick e c :: rest else e :: putBy pick c rest

theorem map_key_putBy {pick : Candidate → Candidate → Candidate}
    (hpick : ∀ e c, e.key = c.key → (pick e c).key = c.key) (c : Candidate)
    (entries : List Candidate) :
    (putBy pick c entries).map (·.key) =
      if c.key ∈ entries.map (·.key) then entries.map (·.key)
      else entries.map (·.key) ++ [c.key] := by
  induction entries with
  | nil => simp [putBy]
  | cons e rest ih =>
    rw [putBy]
    by_cases h : e.key = c.key
    · simp [h, hpick e c h]
    · have h' : ¬ c.key = e.key := fun eq => h eq.symm
      simp only [h, if_false, List.map_cons, ih, List.mem_cons, h', false_or]
      split <;> simp

theorem nodup_putBy {pick : Candidate → Candidate → Candidate}
    (hpick : ∀ e c, e.key = c.key → (pick e c).key = c.key) {c : Candidate}
    {entries : List Candidate} (h : (entries.map (·.key)).Nodup) :
    ((putBy pick c entries).map (·.key)).Nodup := by
  rw [map_key_putBy hpick]
  split
  · exact h
  · next hc =>
    refine List.nodup_append.2 ⟨h, by simp, ?_⟩
    intro a ha b hb hab
    rw [List.mem_singleton.1 hb] at hab
    exact hc (hab ▸ ha)

/-- The candidate of lower rank, the earlier one if the ranks are equal. -/
def lowerRanked (earlier later : Candidate) : Candidate :=
  if later.rank < earlier.rank then later else earlier

theorem key_lowerRanked (e c : Candidate) (h : e.key = c.key) : (lowerRanked e c).key = c.key := by
  unfold lowerRanked
  split
  · rfl
  · exact h

/-- Candidates in the order in which their places were found, one per place. -/
structure CandidateSet where
  entries : List Candidate
  distinct : (entries.map (·.key)).Nodup
deriving DecidableEq

namespace CandidateSet

/-- The set without candidates. -/
def empty : CandidateSet := ⟨[], .nil⟩

instance : EmptyCollection CandidateSet := ⟨empty⟩
instance : Inhabited CandidateSet := ⟨empty⟩

/-- Add a candidate. Of two candidates for a place the one of lower rank stays, at the position
where the place was first found. -/
def insert (set : CandidateSet) (c : Candidate) : CandidateSet :=
  ⟨putBy lowerRanked c set.entries, nodup_putBy key_lowerRanked set.distinct⟩

/-- Add a candidate in place of an earlier one for the same place. -/
def replace (set : CandidateSet) (c : Candidate) : CandidateSet :=
  ⟨putBy (fun _ later => later) c set.entries, nodup_putBy (fun _ _ _ => rfl) set.distinct⟩

/-- Add candidates one after another. -/
def extend (set : CandidateSet) (candidates : List Candidate) : CandidateSet :=
  candidates.foldl insert set

/-- The set of some candidates. -/
def ofList (candidates : List Candidate) : CandidateSet :=
  extend ∅ candidates

/-- Whether there is no candidate. -/
def isEmpty (set : CandidateSet) : Bool :=
  set.entries.isEmpty

/-- The candidate for a place. -/
def get? (set : CandidateSet) (key : Source × Nat) : Option Candidate :=
  set.entries.find? (·.key = key)

/-- Whether there is a candidate for a place. -/
def contains (set : CandidateSet) (key : Source × Nat) : Bool :=
  set.entries.any (·.key = key)

/-- Change the ranks of the candidates. -/
def mapRanks (f : Candidate → Nat) (set : CandidateSet) : CandidateSet where
  entries := set.entries.map fun c => { c with rank := f c }
  distinct := by simpa [Function.comp_def, Candidate.key] using set.distinct

/-- Raise the rank of the candidate for a place by one. -/
def demote (set : CandidateSet) (key : Source × Nat) : CandidateSet :=
  set.mapRanks fun c => if c.key = key then c.rank + 1 else c.rank

/-- The candidates with a property. -/
def filter (p : Candidate → Bool) (set : CandidateSet) : CandidateSet where
  entries := set.entries.filter p
  distinct := (List.filter_sublist.map _).nodup set.distinct

/-- The ids of the places of a source. -/
def idsIn (set : CandidateSet) (source : Source) : List Nat :=
  (set.entries.filter (·.source = source)).map (·.id)

end CandidateSet

/-! ## Head and tail -/

/-- Add a candidate to the head, which shares the best rank, or to the tail. If it is better than
the head, the head goes to the end of the tail. -/
def splitStep : List Candidate × List Candidate → Candidate → List Candidate × List Candidate
  | ([], tail), c => ([c], tail)
  | (best :: head, tail), c =>
    if c.rank < best.rank then ([c], tail ++ best :: head)
    else if c.rank = best.rank then (best :: head ++ [c], tail)
    else (best :: head, tail ++ [c])

/-- The candidates that share the best rank, and all others in the order in which they fell
behind. -/
def splitByRank (candidates : List Candidate) : List Candidate × List Candidate :=
  candidates.foldl splitStep ([], [])

end Geocoding
