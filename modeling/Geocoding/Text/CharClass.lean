import Geocoding.Text.Alphabetic
import Geocoding.Text.Mark
import Geocoding.Text.Numeric
import Geocoding.Text.Recent

/-!
# Classes of characters

Letters and digits, of which search terms consist (`isAlphanumeric`), and the wider class of word
characters (`isWordChar`), which may stand in bracketed terms and whose ends are word boundaries.
-/

namespace Geocoding.Text

/-- A letter or a number of any script. -/
def isAlphanumeric (c : Char) : Bool :=
  alphabetic.contains c || decimalDigits.contains c || otherNumbers.contains c

/-- A character that belongs to a word: a letter, a mark, a decimal digit, a low line or a relative
of it, or a joiner, but none of the recent ones. -/
def isWordChar (c : Char) : Bool :=
  (alphabetic.contains c || marks.contains c || decimalDigits.contains c || connectors.contains c ||
    joinControls.contains c) && !recent.contains c

/-- A decimal digit of the ASCII range. -/
def isAsciiDigit (c : Char) : Bool :=
  c.isDigit

end Geocoding.Text
