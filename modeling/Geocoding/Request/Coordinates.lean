import Geocoding.Decimal.Read
import Geocoding.Geometry.Point
import Geocoding.Text.Blank
import Geocoding.Text.Pattern
import Geocoding.Text.Replace

/-!
# Coordinates in a query

A query can contain a pair of coordinates, in one of these notations, which are tried in this order:

* `N 40 26.767, W 79 58.933` and `40 26.767 N, 79 58.933 W`
* `N 40 26 46, W 79 58 56` and `40 26 46 N, 79 58 56 W`
* `N 40.446, W 79.982` and `40.446 N, 79.982 W`
* `40.446, -79.982` and `[40.446 -79.982]`

Signs for degrees, minutes and seconds may stand between the numbers. `extractPoint?` finds the
coordinates and takes them out of the query.
-/

namespace Geocoding.Coordinates

open Text (Pattern Place isAsciiDigit)

/-! ## What was written -/

/-- One of the two coordinates. -/
inductive Axis where
  | latitude
  | longitude
deriving DecidableEq, Repr

/-- A part of a coordinate. -/
inductive Part where
  /-- The hemisphere. -/
  | side
  | degrees
  | minutes
  | seconds
deriving DecidableEq, Repr

/-- The part of a coordinate to which a character belongs, if it belongs to any. -/
abbrev Label := Option (Axis × Part)

/-- The characters of a pair of coordinates. -/
abbrev Written := List (Label × Char)

namespace Written

/-- The characters of a part of a coordinate. -/
def part (w : Written) (axis : Axis) (part : Part) : List Char :=
  (w.filter fun entry => entry.1 = some (axis, part)).map (·.2)

/-- The number that is a part of a coordinate, unless the part is missing or has several points. -/
def number? (w : Written) (axis : Axis) (part : Part) : Option Float :=
  Decimal.readFloat? (String.ofList (w.part axis part))

/-- The sign of the hemisphere: positive in the north and in the east. -/
def sign (w : Written) (axis : Axis) : Float :=
  if (w.part axis .side).any fun c => c == 'N' || c == 'E' then 1 else -1

/-- Degrees on their own. -/
def signedDegrees? (w : Written) (axis : Axis) : Option Float :=
  w.number? axis .degrees

/-- Degrees in a hemisphere. -/
def degrees? (w : Written) (axis : Axis) : Option Float := do
  return w.sign axis * (← w.number? axis .degrees)

/-- Degrees and minutes in a hemisphere. -/
def degreesMinutes? (w : Written) (axis : Axis) : Option Float := do
  return w.sign axis * ((← w.number? axis .degrees) + (← w.number? axis .minutes) / 60)

/-- Degrees and minutes in a hemisphere; minutes that are missing or no number are zero. -/
def degreesAnyMinutes? (w : Written) (axis : Axis) : Option Float := do
  return w.sign axis *
    ((← w.number? axis .degrees) + (w.number? axis .minutes).getD 0 / 60)

/-- Degrees, minutes and seconds in a hemisphere. -/
def degreesMinutesSeconds? (w : Written) (axis : Axis) : Option Float := do
  return w.sign axis *
    ((← w.number? axis .degrees) + (← w.number? axis .minutes) / 60 +
      (← w.number? axis .seconds) / 3600)

end Written

/-! ## Parts of the notations -/

/-- A digit or a point. -/
def isDigitOrPoint (c : Char) : Bool :=
  isAsciiDigit c || c == '.'

/-- One or more digits. -/
def digits (label : Label) : Pattern Label :=
  Pattern.some label isAsciiDigit

/-- A digit, followed by digits and points. -/
def digitsAndPoints (label : Label) : Pattern Label :=
  [.one label isAsciiDigit, .many label isDigitOrPoint]

/-- Digits on both sides of a point. -/
def fraction (label : Label) : Pattern Label :=
  digits label ++ .one label (· == '.') :: digits label

/-- A fraction with an optional minus sign. -/
def signedFraction (label : Label) : Pattern Label :=
  Pattern.optional [.one label (· == '-')] ++ fraction label

/-- One or more of the given characters. -/
def marks (cs : List Char) : Pattern Label :=
  Pattern.some none cs.contains

/-- Any number of the given characters. -/
def anyMarks (cs : List Char) : Pattern Label :=
  [.many none cs.contains]

/-- As few of the given characters as possible. -/
def fewMarks (cs : List Char) : Pattern Label :=
  [.few none cs.contains]

/-- One blank. -/
def blank : Pattern Label :=
  [.one none (· == ' ')]

/-- North or south. -/
def latitudeSide : Pattern Label :=
  [.one (some (.latitude, .side)) fun c => c == 'N' || c == 'S']

/-- East or west. -/
def longitudeSide : Pattern Label :=
  [.one (some (.longitude, .side)) fun c => c == 'E' || c == 'W']

/-- Nothing, at the boundary of a word. -/
def boundary : Pattern Label :=
  [.check Place.isWordBoundary]

/-- Signs for degrees. -/
def degreeMarks : List Char := ['°', ' ']

/-- Signs for minutes. -/
def minuteMarks : List Char := ['′', '\x27']

/-- Signs for seconds. -/
def secondMarks : List Char := ['″', '\x22']

/-- What divides the two coordinates. -/
def dividers : List Char := [',', ' ']

/-- Degrees, minutes and seconds as whole numbers, without the signs after the seconds. -/
def wholeSeconds (axis : Axis) : Pattern Label :=
  digits (some (axis, .degrees)) ++ marks degreeMarks ++
    digits (some (axis, .minutes)) ++ marks (minuteMarks ++ [' ']) ++
    digits (some (axis, .seconds))

/-! ## The notations -/

/-- A way of writing a pair of coordinates, and what the coordinates are. -/
structure Form where
  pattern : Pattern Label
  /-- The coordinate of an axis, unless one of its numbers cannot be read. -/
  coordinate? : Written → Axis → Option Float

/-- The notation `N 40 26.767, W 79 58.933`. -/
def minutesAfterSides : Form where
  pattern :=
    boundary ++ latitudeSide ++ marks [' '] ++
    digitsAndPoints (some (.latitude, .degrees)) ++ marks degreeMarks ++
    Pattern.optional (Pattern.some (some (.latitude, .minutes)) isDigitOrPoint) ++
    anyMarks minuteMarks ++ marks dividers ++
    longitudeSide ++ marks [' '] ++
    digits (some (.longitude, .degrees)) ++ marks degreeMarks ++
    digitsAndPoints (some (.longitude, .minutes)) ++ fewMarks minuteMarks ++ boundary
  coordinate? w
    | .latitude => w.degreesAnyMinutes? .latitude
    | .longitude => w.degreesMinutes? .longitude

/-- The notation `40 26.767 N, 79 58.933 W`. -/
def minutesBeforeSides : Form where
  pattern :=
    boundary ++
    digits (some (.latitude, .degrees)) ++ marks degreeMarks ++
    Pattern.optional (digitsAndPoints (some (.latitude, .minutes))) ++
    anyMarks minuteMarks ++ marks [' '] ++ latitudeSide ++ marks dividers ++
    digits (some (.longitude, .degrees)) ++ marks degreeMarks ++
    Pattern.optional (digitsAndPoints (some (.longitude, .minutes))) ++
    marks (minuteMarks ++ [' ']) ++ longitudeSide ++ boundary
  coordinate? := Written.degreesAnyMinutes?

/-- The notation `N 40 26 46, W 79 58 56`. -/
def secondsAfterSides : Form where
  pattern :=
    boundary ++ latitudeSide ++ blank ++ wholeSeconds .latitude ++
    anyMarks secondMarks ++ marks dividers ++
    longitudeSide ++ blank ++ wholeSeconds .longitude ++ anyMarks secondMarks ++ boundary
  coordinate? := Written.degreesMinutesSeconds?

/-- The notation `40 26 46 N, 79 58 56 W`. -/
def secondsBeforeSides : Form where
  pattern :=
    boundary ++ wholeSeconds .latitude ++ marks (secondMarks ++ [' ']) ++ latitudeSide ++
    marks dividers ++
    wholeSeconds .longitude ++ marks (secondMarks ++ [' ']) ++ longitudeSide ++ boundary
  coordinate? := Written.degreesMinutesSeconds?

/-- The notation `N 40.446, W 79.982`. -/
def degreesAfterSides : Form where
  pattern :=
    boundary ++ latitudeSide ++ blank ++ fraction (some (.latitude, .degrees)) ++
    anyMarks ['°'] ++ marks dividers ++
    longitudeSide ++ blank ++ fraction (some (.longitude, .degrees)) ++ anyMarks ['°'] ++ boundary
  coordinate? := Written.degrees?

/-- The notation `40.446 N, 79.982 W`. -/
def degreesBeforeSides : Form where
  pattern :=
    boundary ++ fraction (some (.latitude, .degrees)) ++ marks degreeMarks ++ latitudeSide ++
    marks dividers ++
    fraction (some (.longitude, .degrees)) ++ marks degreeMarks ++ longitudeSide ++ boundary
  coordinate? := Written.degrees?

/-- The notations `40.446, -79.982` and `[40.446 -79.982]`. The pair ends at a bracket, or else at
an end of the text or a boundary of a word. -/
def plainPair : Form where
  pattern :=
    Pattern.either [.one none (· == '[')]
      [.check fun place => place.isStart || place.isWordBoundary] ++
    signedFraction (some (.latitude, .degrees)) ++ marks dividers ++
    signedFraction (some (.longitude, .degrees)) ++
    Pattern.either [.one none (· == ']')]
      [.check fun place => place.isEnd || place.isWordBoundary]
  coordinate? := Written.signedDegrees?

/-- The notations in the order in which they are tried. -/
def forms : List Form := [
  minutesAfterSides, minutesBeforeSides, secondsAfterSides, secondsBeforeSides, degreesAfterSides,
  degreesBeforeSides, plainPair]

/-- The point that was written in a form. -/
def Form.point? (form : Form) (w : Written) : Option (Point Float) := do
  return ⟨← form.coordinate? w .latitude, ← form.coordinate? w .longitude⟩

/-- The coordinates in a query and the query without them: every occurrence of what was read becomes
a space. Only the first notation that occurs counts, and implausible coordinates are none. -/
def extractPoint? (query : String) : Option (Point Float × String) := do
  let cs := query.toList
  let (form, w) ← forms.findSome? fun form => (form.pattern.search? cs).map (form, ·)
  let point ← form.point? w
  if point.isPlausible then
    some (point, String.ofList (Text.trimChars (Text.replaceAll (w.map (·.2)) [' '] cs)))
  else none

end Geocoding.Coordinates
