import Geocoding.Planner
import Mathlib.Data.List.MinMax
import Mathlib.Order.Nat

/-!
# Derivations of interpretations

What planning searches for, without any limit: the interpretations that can be derived from a root
by choosing, for every phrase in order, one of its groupings, and for every part of that grouping in
order a token that fits and one of its readings (`Planner.Derives`).

`Planner.allPhrases` lists the ends of all derivations, each as often as there are derivations that
lead to it (`Planner.mem_allPhrases_iff`). `Planner.breadth` is the largest number of partial
derivations that have made the same progress: no more than there are partial derivations in all.
-/

namespace Geocoding

namespace Planner

variable (p : Planner) (table : TokenTable)

/-- The position of the part behind the one at a position. -/
def nextPart (pos : Position) : Position :=
  { pos with part := pos.part + 1 }

/-- The position of the first part of a grouping of a phrase. -/
def firstPart (phrase : Phrase) (index count : Nat) (grouping : Grouping) : Position :=
  ⟨phrase.role, index, count, 0, grouping.length⟩

/-! ## The relation -/

/-- A token of the term fits, and `t` is one of its readings. -/
def ReadsTerm (pos : Position) (term : String) (s t : Interpretation) : Prop :=
  ∃ token ∈ table.get term, token.fits p.constraints s pos = true ∧
    t ∈ token.extend p.constraints p.thresholds s pos

/-- Every part of a grouping is read in order, the first of them at the position. -/
inductive ReadsParts : Position → List String → Interpretation → Interpretation → Prop
  | done {pos s} : ReadsParts pos [] s s
  | part {pos term rest s s' t} (hterm : p.ReadsTerm table pos term s s')
      (hrest : ReadsParts (nextPart pos) rest s' t) : ReadsParts pos (term :: rest) s t

/-- One grouping of every phrase is read in order, where the first phrase is the one at the index
among so many. -/
inductive ReadsPhrases (count : Nat) : Nat → List Phrase → Interpretation → Interpretation → Prop
  | done {index s} : ReadsPhrases count index [] s s
  | phrase {index phrase rest grouping s s' t} (hgrouping : grouping ∈ phrase.groupings)
      (hparts : p.ReadsParts table (firstPart phrase index count grouping) grouping s s')
      (hrest : ReadsPhrases count (index + 1) rest s' t) :
      ReadsPhrases count index (phrase :: rest) s t

/-- The interpretation can be derived from one of the roots by reading the phrases. -/
def Derives (phrases : List Phrase) (roots : List Interpretation) (t : Interpretation) : Prop :=
  ∃ root ∈ roots, p.ReadsPhrases table phrases.length 0 phrases root t

/-! ## All derivations -/

/-- The readings of a term, one for each token that fits and each of its readings. -/
def readings (pos : Position) (term : String) (s : Interpretation) : List Interpretation :=
  ((table.get term).filter (·.fits p.constraints s pos)).flatMap
    (·.extend p.constraints p.thresholds s pos)

/-- The ends of all derivations that read the parts of a grouping. -/
def allParts : Position → List String → List Interpretation → List Interpretation
  | _, [], states => states
  | pos, term :: rest, states =>
    allParts (nextPart pos) rest (states.flatMap (p.readings table pos term))

/-- The ends of all derivations that read one phrase. -/
def allGroupings (count index : Nat) (phrase : Phrase) (states : List Interpretation) :
    List Interpretation :=
  phrase.groupings.flatMap fun grouping =>
    p.allParts table (firstPart phrase index count grouping) grouping states

/-- The ends of all derivations that read the phrases. -/
def allPhrases (count : Nat) : Nat → List Phrase → List Interpretation → List Interpretation
  | _, [], states => states
  | index, phrase :: rest, states =>
    allPhrases count (index + 1) rest (p.allGroupings table count index phrase states)

/-- The largest number of partial derivations behind the same part of a grouping. -/
def breadthOfParts : Position → List String → List Interpretation → Nat
  | _, [], states => states.length
  | pos, term :: rest, states =>
    max states.length
      (breadthOfParts (nextPart pos) rest (states.flatMap (p.readings table pos term)))

/-- The largest number of partial derivations that have made the same progress, within a grouping of
a phrase or behind a phrase. -/
def breadthOfPhrases (count : Nat) : Nat → List Phrase → List Interpretation → Nat
  | _, [], states => states.length
  | index, phrase :: rest, states =>
    max states.length <|
      max ((phrase.groupings.map fun grouping =>
        p.breadthOfParts table (firstPart phrase index count grouping) grouping states).foldr max 0)
      (breadthOfPhrases count (index + 1) rest (p.allGroupings table count index phrase states))

/-- The largest number of partial derivations from the roots that have made the same progress. -/
def breadth (phrases : List Phrase) (roots : List Interpretation) : Nat :=
  p.breadthOfPhrases table phrases.length 0 phrases roots

/-! ## Listing derivations -/

section

variable {p table}

theorem mem_readings_iff {pos : Position} {term : String} {s t : Interpretation} :
    t ∈ p.readings table pos term s ↔ p.ReadsTerm table pos term s t := by
  simp only [readings, ReadsTerm, List.mem_flatMap, List.mem_filter]
  constructor
  · rintro ⟨token, ⟨hmem, hfits⟩, ht⟩
    exact ⟨token, hmem, hfits, ht⟩
  · rintro ⟨token, hmem, hfits, ht⟩
    exact ⟨token, ⟨hmem, hfits⟩, ht⟩

theorem mem_allParts_iff {pos : Position} {parts : List String} {states : List Interpretation}
    {t : Interpretation} :
    t ∈ p.allParts table pos parts states ↔ ∃ s ∈ states, p.ReadsParts table pos parts s t := by
  induction parts generalizing pos states with
  | nil =>
    rw [allParts]
    constructor
    · exact fun h => ⟨t, h, .done⟩
    · rintro ⟨s, hs, ⟨⟩⟩
      exact hs
  | cons term rest ih =>
    rw [allParts, ih]
    constructor
    · rintro ⟨s', hs', hrest⟩
      obtain ⟨s, hs, hterm⟩ := List.mem_flatMap.1 hs'
      exact ⟨s, hs, .part (mem_readings_iff.1 hterm) hrest⟩
    · rintro ⟨s, hs, hread⟩
      cases hread with
      | part hterm hrest =>
        exact ⟨_, List.mem_flatMap.2 ⟨s, hs, mem_readings_iff.2 hterm⟩, hrest⟩

theorem mem_allGroupings_iff {count index : Nat} {phrase : Phrase} {states : List Interpretation}
    {t : Interpretation} :
    t ∈ p.allGroupings table count index phrase states ↔
      ∃ grouping ∈ phrase.groupings, ∃ s ∈ states,
        p.ReadsParts table (firstPart phrase index count grouping) grouping s t := by
  simp only [allGroupings, List.mem_flatMap, mem_allParts_iff]

theorem mem_allPhrases_iff {count index : Nat} {phrases : List Phrase}
    {states : List Interpretation} {t : Interpretation} :
    t ∈ p.allPhrases table count index phrases states ↔
      ∃ s ∈ states, p.ReadsPhrases table count index phrases s t := by
  induction phrases generalizing index states with
  | nil =>
    rw [allPhrases]
    constructor
    · exact fun h => ⟨t, h, .done⟩
    · rintro ⟨s, hs, ⟨⟩⟩
      exact hs
  | cons phrase rest ih =>
    rw [allPhrases, ih]
    constructor
    · rintro ⟨s', hs', hrest⟩
      obtain ⟨grouping, hgrouping, s, hs, hparts⟩ := mem_allGroupings_iff.1 hs'
      exact ⟨s, hs, .phrase hgrouping hparts hrest⟩
    · rintro ⟨s, hs, hread⟩
      cases hread with
      | phrase hgrouping hparts hrest =>
        exact ⟨_, mem_allGroupings_iff.2 ⟨_, hgrouping, s, hs, hparts⟩, hrest⟩

theorem mem_allPhrases_iff_derives {phrases : List Phrase} {roots : List Interpretation}
    {t : Interpretation} :
    t ∈ p.allPhrases table phrases.length 0 phrases roots ↔ p.Derives table phrases roots t :=
  mem_allPhrases_iff

/-! ## Breadth -/

theorem length_le_breadthOfParts (pos : Position) (parts : List String)
    (states : List Interpretation) : states.length ≤ p.breadthOfParts table pos parts states := by
  cases parts with
  | nil => exact Nat.le_refl _
  | cons term rest => exact Nat.le_max_left ..

theorem length_le_breadthOfPhrases (count index : Nat) (phrases : List Phrase)
    (states : List Interpretation) :
    states.length ≤ p.breadthOfPhrases table count index phrases states := by
  cases phrases with
  | nil => exact Nat.le_refl _
  | cons phrase rest => exact Nat.le_max_left ..

theorem breadthOfParts_le {count index : Nat} {phrase : Phrase} {rest : List Phrase}
    {grouping : Grouping} {states : List Interpretation} (h : grouping ∈ phrase.groupings) :
    p.breadthOfParts table (firstPart phrase index count grouping) grouping states ≤
      p.breadthOfPhrases table count index (phrase :: rest) states := by
  have hmem := List.mem_map_of_mem (f := fun grouping =>
    p.breadthOfParts table (firstPart phrase index count grouping) grouping states) h
  exact (List.le_max_of_le hmem le_rfl).trans ((le_max_left _ _).trans (le_max_right _ _))

theorem breadthOfPhrases_le_cons (count index : Nat) (phrase : Phrase) (rest : List Phrase)
    (states : List Interpretation) :
    p.breadthOfPhrases table count (index + 1) rest
        (p.allGroupings table count index phrase states) ≤
      p.breadthOfPhrases table count index (phrase :: rest) states :=
  (le_max_right _ _).trans (le_max_right _ _)

end

end Planner

end Geocoding
