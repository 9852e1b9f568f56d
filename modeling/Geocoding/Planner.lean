import Geocoding.Distinct
import Geocoding.Interpretation.Extension
import Geocoding.Ranking
import Geocoding.Token.Table

/-!
# Planning

`Planner.plan` lists the interpretations of a query, ranked by cost. The phrases are read in order;
each grouping of a phrase is read term by term from the interpretations at hand, the frontier, and
only the best interpretations are kept after each term, after each grouping and after each phrase.

Free text is read a second time from its end, so that a street can stand before or behind its city.
-/

namespace Geocoding

/-- What planning a query depends on besides its phrases and tokens. -/
structure Planner where
  limits : PlannerLimits := {}
  thresholds : FrequencyThresholds := {}
  constraints : Constraints := {}

namespace Planner

/-- The interpretations that result from reading one term, the best ones only. -/
def advance (p : Planner) (pos : Position) (tokens : List Token) (states : List Interpretation) :
    List Interpretation :=
  let extended := states.flatMap fun s =>
    (tokens.filter (·.fits p.constraints s pos)).flatMap (·.extend p.constraints p.thresholds s pos)
  (Interpretation.sorted (extended.filter (·.cost < p.limits.maxCost))).take p.limits.beamWidth

/-- The interpretations that result from reading the terms of a grouping, beginning with the part at
`part`. -/
def readParts (p : Planner) (table : TokenTable) (pos : Position) :
    List String → List Interpretation → List Interpretation
  | [], states => states
  | term :: rest, states =>
    readParts p table { pos with part := pos.part + 1 } rest (p.advance pos (table.get term) states)

/-- The interpretations that result from reading a grouping of a phrase. -/
def readGrouping (p : Planner) (table : TokenTable) (pos : Position)
    (frontier : List Interpretation) (grouping : Grouping) : List Interpretation :=
  p.readParts table { pos with part := 0, parts := grouping.length } grouping frontier

/-- The interpretations that result from reading some grouping of a phrase, each once and the best
ones only. -/
def readGroupings (p : Planner) (table : TokenTable) (pos : Position)
    (frontier : List Interpretation) (groupings : List Grouping) : List Interpretation :=
  groupings.foldl (fun found grouping =>
    (distinctBy id (Interpretation.sorted
      (found ++ p.readGrouping table pos frontier grouping))).take p.limits.perPhrase) []

/-- Whole buckets of equal cost, cheapest first, until more than the budget is taken. -/
def takeBuckets (budget : Nat) : List (Nat × List Interpretation) → List Interpretation →
    List Interpretation
  | [], taken => taken
  | (_, bucket) :: rest, taken =>
    if budget < (taken ++ bucket).length then taken ++ bucket
    else takeBuckets budget rest (taken ++ bucket)

/-- The interpretations to go on with: whole buckets of equal cost, cheapest first. -/
def bestBuckets (p : Planner) (states : List Interpretation) : List Interpretation :=
  let ranking := Ranking.ofList (·.cost) (states.filter (·.cost < p.limits.maxCost))
  takeBuckets p.limits.frontierBudget ranking.buckets []

/-- The frontier after reading phrases, of which the first is the one at `index`. -/
def readPhrases (p : Planner) (table : TokenTable) (count : Nat) :
    Nat → List Phrase → List Interpretation → List Interpretation
  | _, [], frontier => frontier
  | index, phrase :: rest, frontier =>
    let pos : Position := ⟨phrase.role, index, count, 0, 0⟩
    readPhrases p table count (index + 1) rest
      (p.bestBuckets (p.readGroupings table pos frontier phrase.groupings))

/-- One pass over the phrases: the valid interpretations, ranked by cost. -/
def pass (p : Planner) (table : TokenTable) (phrases : List Phrase) (roots : List Interpretation) :
    Ranking Interpretation :=
  .ofList (·.cost) ((p.readPhrases table phrases.length 0 phrases roots).filter (·.isValid))

/-- The phrases with the last one inverted. -/
def invertLast : List Phrase → List Phrase
  | [] => []
  | [phrase] => [phrase.inverted]
  | phrase :: rest => phrase :: invertLast rest

/-- The phrases in reverse order, the outer ones read back to front. -/
def backwards (phrases : List Phrase) : List Phrase :=
  match phrases.reverse with
  | [] => []
  | phrase :: rest => phrase.inverted :: invertLast rest

/-- Every interpretation once, where it occurs first. -/
def withoutDuplicates (ranking : Ranking Interpretation) : Ranking Interpretation :=
  .ofPairs (distinctBy (·.2) ranking.toPairs)

/-- The interpretations that the roots are by themselves. -/
def rootsOnly (p : Planner) (roots : List Interpretation) : Ranking Interpretation :=
  .ofList (·.cost) (roots.filter fun s => s.cost < p.limits.maxCost && s.isValid)

/-- The ranking before duplicates are dropped. Blank phrases have been dropped. -/
def passes (p : Planner) (phrases : List Phrase) (table : TokenTable) (roots : List Interpretation)
    (structured : Bool) : Ranking Interpretation :=
  if table.isEmpty || phrases.isEmpty then p.rootsOnly roots
  else if structured then p.pass table phrases roots
  else ((p.pass table phrases roots).merge (p.pass table (backwards phrases) roots)).mapBuckets
    Interpretation.sorted

/-- The interpretations of a query, ranked by cost. `roots` are the interpretations to start
from. -/
def plan (p : Planner) (phrases : List Phrase) (table : TokenTable) (roots : List Interpretation)
    (structured : Bool) : Ranking Interpretation :=
  withoutDuplicates (p.passes (phrases.filter (!·.words.isEmpty)) table roots structured)

end Planner

end Geocoding
