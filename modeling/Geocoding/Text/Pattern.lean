import Geocoding.Distinct
import Geocoding.Text.CharClass

/-!
# Patterns

A pattern is a list of steps that read a text character by character (`Pattern`). Where it can be
read in several ways one of them is preferred: repetitions prefer to read much, or little if they
are lazy, and alternatives prefer the one named first. `Pattern.search?` finds the leftmost place
where a pattern can be read and the preferred way of reading it from there.

The ways of reading are followed side by side, in order of preference (`Search`). Two of them that
have come to the same step in the same place go on alike, so only the preferred one is kept, and a
search takes time proportional to the length of the text.
-/

namespace Geocoding.Text

/-- A place in a text: the character before it and the characters after it. -/
structure Place where
  before : Option Char
  after : List Char
deriving DecidableEq, Repr

namespace Place

/-- The start of the text. -/
def isStart (place : Place) : Bool :=
  place.before.isNone

/-- The end of the text. -/
def isEnd (place : Place) : Bool :=
  place.after.isEmpty

/-- Word characters on one side only. -/
def isWordBoundary (place : Place) : Bool :=
  place.before.any isWordChar != place.after.head?.any isWordChar

end Place

/-- A step of a pattern. The characters that it reads are marked as parts of a field. -/
inductive Step (ι : Type) where
  /-- One character with a property. -/
  | one (field : ι) (p : Char → Bool)
  /-- Any number of characters with a property, many rather than few. -/
  | many (field : ι) (p : Char → Bool)
  /-- Any number of characters with a property, few rather than many. -/
  | few (field : ι) (p : Char → Bool)
  /-- Nothing, in places of a kind. -/
  | check (p : Place → Bool)
  /-- Go on with the next step, or else behind the next `n` steps. -/
  | orPass (n : Nat)
  /-- Go on behind the next `n` steps. -/
  | pass (n : Nat)

/-- The steps of a pattern in order. -/
abbrev Pattern (ι : Type) := List (Step ι)

namespace Pattern

variable {ι : Type}

/-- At least one character with a property, many rather than few. -/
def some (field : ι) (p : Char → Bool) : Pattern ι :=
  [.one field p, .many field p]

/-- What the pattern reads, or else nothing. -/
def optional (pattern : Pattern ι) : Pattern ι :=
  .orPass pattern.length :: pattern

/-- What the first pattern reads, or else what the second one does. -/
def either (first second : Pattern ι) : Pattern ι :=
  .orPass (first.length + 1) :: first ++ .pass second.length :: second

/-- What can come next in a place, behind the next `n` steps: the steps left from one that reads a
character on, or no steps if the pattern can end there. The preferred ones come first. -/
def next (place : Place) : Nat → Pattern ι → List (Pattern ι)
  | _, [] => [[]]
  | n + 1, _ :: rest => next place n rest
  | 0, .one field p :: rest => [.one field p :: rest]
  | 0, .many field p :: rest => (.many field p :: rest) :: next place 0 rest
  | 0, .few field p :: rest => next place 0 rest ++ [.few field p :: rest]
  | 0, .check p :: rest => if p place then next place 0 rest else []
  | 0, .orPass n :: rest => next place 0 rest ++ next place n rest
  | 0, .pass n :: rest => next place n rest

end Pattern

/-- A way of reading a pattern, up to some place. -/
structure Reading (ι : Type) where
  /-- The steps that are left. -/
  left : Pattern ι
  /-- The characters read, last one first, with their fields. -/
  taken : List (ι × Char) := []

namespace Reading

variable {ι : Type}

/-- All steps are done. -/
def isComplete (r : Reading ι) : Bool :=
  r.left.isEmpty

/-- The ways in which the reading can go on, each up to the step that reads the next character. -/
def branches (place : Place) (r : Reading ι) : List (Reading ι) :=
  (Pattern.next place 0 r.left).map fun left => { r with left }

/-- The reading after a character, if its first step can read it. -/
def read? (c : Char) (r : Reading ι) : Option (Reading ι) :=
  match r.left with
  | .one field p :: rest => if p c then some ⟨rest, (field, c) :: r.taken⟩ else none
  | .many field p :: _ => if p c then some { r with taken := (field, c) :: r.taken } else none
  | .few field p :: _ => if p c then some { r with taken := (field, c) :: r.taken } else none
  | _ => none

end Reading

/-- The state of a search in some place. -/
structure Search (ι : Type) where
  /-- The preferred one among the complete readings so far. -/
  found : Option (Reading ι) := none
  /-- The readings that are preferred to the one found, the most preferred one first. -/
  pending : List (Reading ι) := []

namespace Search

variable {ι : Type}

/-- Nothing better can be found. -/
def isOver (s : Search ι) : Bool :=
  s.found.isSome && s.pending.isEmpty

/-- Arrive in a place: the readings branch, and another one starts unless one was found. What comes
behind a complete reading is dropped. -/
def arrive (pattern : Pattern ι) (place : Place) (s : Search ι) : Search ι :=
  let readings := if s.found.isSome then s.pending else s.pending ++ [⟨pattern, []⟩]
  let branches := distinctBy (·.left.length) (readings.flatMap (·.branches place))
  { found := branches.find? (·.isComplete) <|> s.found
    pending := branches.takeWhile (!·.isComplete) }

/-- Go on to the end of the text, or until nothing better can be found. -/
def run (pattern : Pattern ι) (before : Option Char) : List Char → Search ι → Search ι
  | [], s => s.arrive pattern ⟨before, []⟩
  | c :: rest, s =>
    let s := s.arrive pattern ⟨before, c :: rest⟩
    if s.isOver then s
    else run pattern (some c) rest { s with pending := s.pending.filterMap (·.read? c) }

end Search

namespace Pattern

variable {ι : Type}

/-- The characters that the pattern reads, with their fields, from the leftmost place where it can
be read. -/
def search? (pattern : Pattern ι) (cs : List Char) : Option (List (ι × Char)) :=
  (Search.run pattern none cs {}).found.map (·.taken.reverse)

end Pattern

end Geocoding.Text
