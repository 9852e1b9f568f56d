import Geocoding.Text.Blank

/-!
# Groupings of words

The words of a phrase are read in groups: consecutive words that the vocabulary knows as one term.
`groupings` lists the ways of cutting the words into known terms, fewest terms first, at most
`maxGroupings` of them with at most `maxParts` terms each.

The words are taken from left to right. For every word the groupings that end with it are built from
those that end with earlier words; a list that grows past twice `maxGroupings` is cut back at once,
which loses only groupings with more parts than those that stay.
-/

namespace Geocoding

/-- One way of cutting the words of a phrase into terms. -/
abbrev Grouping := List String

namespace Grouping

/-- Largest number of terms in a grouping. -/
def maxParts : Nat := 20

/-- Largest number of groupings of a phrase. -/
def maxGroupings : Nat := 100

/-- The groupings with the fewest parts, earlier ones first among those of equal size. -/
def fewest (found : List Grouping) : List Grouping :=
  (found.mergeSort (fun a b => a.length ≤ b.length)).take maxGroupings

/-- The groupings themselves while there are not too many of them, the fewest-part ones
otherwise. -/
def cutBack (found : List Grouping) : List Grouping :=
  if found.length > 2 * maxGroupings then fewest found else found

/-- The groupings whose last part ends where `block` ends: the last part is the block itself or the
block preceded by some of the earlier words. `earlier` holds those words, nearest first, each with
the groupings that end with it; `found` holds the groupings with shorter last parts. -/
def endingWith (known : String → Bool) (block : String) :
    List (String × List Grouping) → List Grouping → List Grouping
  | [], found => if known block then found ++ [[block]] else found
  | (word, shorter) :: earlier, found =>
    endingWith known (word ++ " " ++ block) earlier <|
      if known block then
        cutBack (found ++ (shorter.filter (·.length < maxParts)).map (· ++ [block]))
      else found

/-- The words read so far, nearest first, each with the groupings that end with it. -/
def table (known : String → Bool) (words : List String) : List (String × List Grouping) :=
  words.foldl (fun earlier word => (word, endingWith known word earlier []) :: earlier) []

end Grouping

/-- The ways of cutting the words into terms that are `known`, fewest terms first. -/
def groupings (known : String → Bool) (words : List String) : List Grouping :=
  match Grouping.table known words with
  | [] => []
  | (_, found) :: _ => Grouping.fewest found

end Geocoding
