import Geocoding.Text.CharSet

/-!
# Blanks and words

White space in the sense of Unicode (`isBlank`), texts without the blanks at their ends (`trim`) and
the words that blanks divide a text into (`words`).
-/

namespace Geocoding.Text

/-- The characters of the Unicode property `White_Space`. -/
def whiteSpace : CharSet where
  changes := [
    0x9, 0xe, 0x20, 0x21, 0x85, 0x86, 0xa0, 0xa1, 0x1680, 0x1681, 0x2000, 0x200b, 0x2028, 0x202a,
    0x202f, 0x2030, 0x205f, 0x2060, 0x3000, 0x3001]

/-- White space of any kind, no-break and ideographic spaces included. -/
def isBlank (c : Char) : Bool :=
  whiteSpace.contains c

/-- The characters between the blanks at both ends. -/
def trimChars (cs : List Char) : List Char :=
  ((cs.dropWhile isBlank).reverse.dropWhile isBlank).reverse

/-- The text between the blanks at both ends. -/
def trim (s : String) : String :=
  String.ofList (trimChars s.toList)

/-- The longest stretches of characters that are no separator, in order. -/
def stretches (isSeparator : Char → Bool) (cs : List Char) : List (List Char) :=
  (cs.splitOnP isSeparator).filter (!·.isEmpty)

/-- The words of a text: its longest stretches without a blank. -/
def words (s : String) : List String :=
  (stretches isBlank s.toList).map String.ofList

/-- Words joined by single spaces. -/
def unwords (ws : List String) : String :=
  " ".intercalate ws

/-- The pieces between the occurrences of a character. A text without it is one piece. -/
def splitAt (separator : Char) (s : String) : List String :=
  (s.toList.splitOnP (· == separator)).map String.ofList

end Geocoding.Text
