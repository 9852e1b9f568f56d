import Geocoding.Text.CaseTable
import Geocoding.Text.Cased

/-!
# Lower and upper case

The full Unicode mappings of texts (`lower`, `upper`). One character can become several, and a
capital sigma becomes a final sigma at the end of a word.
-/

namespace Geocoding.Text

/-- The capital sigma, the one letter whose lower case depends on its neighbours. -/
def capitalSigma : Char := 'Σ'

/-- The lower case of a character that stands alone. -/
def lowerChar (c : Char) : List Char :=
  if c = 'İ' then ['i', '\u0307'] else [Char.ofNat (CaseRun.apply c.toNat lowerRuns)]

/-- The upper case of a character. -/
def upperChar (c : Char) : List Char :=
  match upperExpansions.lookup c.toNat with
  | some expansion => expansion.map Char.ofNat
  | none => [Char.ofNat (CaseRun.apply c.toNat upperRuns)]

/-- Whether the first character that is not case-ignorable is cased. -/
def meetsCased (cs : List Char) : Bool :=
  (cs.dropWhile caseIgnorable.contains).head?.any cased.contains

/-- A sigma ends a word if a cased character stands before it and none after it, where
case-ignorable characters in between do not count. -/
def lowerSigma (before after : List Char) : Char :=
  if meetsCased before && !meetsCased after then 'ς' else 'σ'

/-- The lower case of characters that follow those of `before`, which is given in reverse. -/
def lowerAfter (before : List Char) : List Char → List Char
  | [] => []
  | c :: rest =>
    (if c = capitalSigma then [lowerSigma before rest] else lowerChar c) ++
      lowerAfter (c :: before) rest

/-- The lower case of a list of characters. -/
def lowerChars (cs : List Char) : List Char :=
  lowerAfter [] cs

/-- The lower case of a text. -/
def lower (s : String) : String :=
  String.ofList (lowerChars s.toList)

/-- The upper case of a text. -/
def upper (s : String) : String :=
  String.ofList (s.toList.flatMap upperChar)

end Geocoding.Text
