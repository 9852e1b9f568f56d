/-!
# JSON text

Values are written over several lines (`Tree.render`), each item and member on a line of its own and
two spaces further in than the brackets around it.
-/

namespace Geocoding.Json

/-- A value to be written. -/
inductive Tree where
  /-- A value that is written as it is: null or a number. -/
  | literal (text : String)
  | text (s : String)
  | array (items : List Tree)
  | object (members : List (String × Tree))

/-- A value that may be none. -/
def Tree.optional {α : Type} (tree : α → Tree) : Option α → Tree
  | none => .literal "null"
  | some x => tree x

/-- A whole number. -/
def Tree.natural (n : Nat) : Tree :=
  .literal (toString n)

/-- A character within a text. Quotes, backslashes and control characters are escaped. -/
def escapeChar (c : Char) : List Char :=
  match c with
  | '"' => ['\\', '"']
  | '\\' => ['\\', '\\']
  | '\x08' => ['\\', 'b']
  | '\x0c' => ['\\', 'f']
  | '\n' => ['\\', 'n']
  | '\r' => ['\\', 'r']
  | '\t' => ['\\', 't']
  | c =>
    if c.toNat < 0x20 then
      ['\\', 'u', '0', '0', Nat.digitChar (c.toNat / 16), Nat.digitChar (c.toNat % 16)]
    else [c]

/-- A text in quotes. -/
def quote (s : String) : String :=
  String.ofList ('"' :: s.toList.flatMap escapeChar ++ ['"'])

/-- A line break and the blanks in front of the next line. -/
def lineBreak (depth : Nat) : String :=
  String.ofList ('\n' :: List.replicate (2 * depth) ' ')

/-- Lines between brackets. -/
def bracket (opening closing : String) (depth : Nat) (lines : List String) : String :=
  if lines.isEmpty then opening ++ closing
  else
    let indented := lines.map (lineBreak (depth + 1) ++ ·)
    opening ++ ",".intercalate indented ++ lineBreak depth ++ closing

namespace Tree

mutual

/-- The text of a value that stands so deep within brackets. -/
def renderAt (depth : Nat) : Tree → String
  | literal s => s
  | text s => quote s
  | array items => bracket "[" "]" depth (renderItems (depth + 1) items)
  | object members => bracket "\x7b" "\x7d" depth (renderMembers (depth + 1) members)

/-- The texts of items. -/
def renderItems (depth : Nat) : List Tree → List String
  | [] => []
  | item :: rest => renderAt depth item :: renderItems depth rest

/-- The texts of members, with their names. -/
def renderMembers (depth : Nat) : List (String × Tree) → List String
  | [] => []
  | (name, value) :: rest =>
    (quote name ++ ": " ++ renderAt depth value) :: renderMembers depth rest

end

/-- The text of a value. -/
def render (tree : Tree) : String :=
  tree.renderAt 0

end Tree

end Geocoding.Json
