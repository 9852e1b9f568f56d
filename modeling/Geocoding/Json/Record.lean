import Geocoding.Json.Value

/-!
# Records in JSON

A record is read field by field into a draft, which becomes the record once all fields are known
(`Shape`). Records are objects, or arrays of their fields in order; a shape that keeps unknown
members reads objects only.
-/

namespace Geocoding.Json

/-- A field of a record, and its place in the draft of type `σ`. -/
structure Field (σ : Type) where
  name : String
  /-- Whether the draft has the field. -/
  isSet : σ → Bool
  read : σ → Reader σ

/-- The field of a name, with its place in the draft and the reader of its value. -/
def Field.of {σ τ : Type} (name : String) (value : Reader τ) (get : σ → Option τ)
    (set : τ → σ → σ) : Field σ where
  name
  isSet s := (get s).isSome
  read s := return set (← value) s

/-- What a record of type `α` is made of, where `σ` is the type of its drafts. -/
structure Shape (σ α : Type) where
  /-- The draft without fields. -/
  blank : σ
  /-- The fields in order. -/
  fields : List (Field σ)
  /-- What becomes of unknown members, of which the text is known if they are texts. They are
  skipped if there is no such function. -/
  keep : Option (String → Option String → σ → σ) := none
  /-- The record of a draft; none if a field is missing. -/
  finish : σ → Option α

namespace Shape

variable {σ α : Type} (shape : Shape σ α)

/-- Read the member of a name. No field is given twice. -/
def member (name : String) (s : σ) : Reader σ := do
  match shape.fields.find? (·.name = name), shape.keep with
  | some field, _ =>
    if field.isSet s then throw .mismatched
    Reader.colon
    field.read s
  | none, some keep =>
    Reader.colon
    return keep name (← Reader.content) s
  | none, none =>
    Reader.colon
    Reader.skip
    return s

/-- Read the items of an array as the fields in order. Fields at the end may be missing. -/
def positional : List (Field σ) → Bool → σ → Reader σ
  | [], _, s => do
    match ← Reader.front with
    | some ']' => Reader.advance; return s
    | some _ => throw .malformed
    | none => throw .cutShort
  | field :: rest, isFirst, s => do
    if ← Reader.another ']' isFirst then
      positional rest false (← field.read s)
    else return s

/-- The draft of a record, or of an array that stands for one. -/
def draft : Reader σ := do
  let c ← Reader.valueStart
  if c = '\x7b' then Reader.nested (Reader.members Reader.text shape.member shape.blank)
  else if c = '[' && shape.keep.isNone then
    Reader.nested do
      Reader.advance
      positional shape.fields true shape.blank
  else Reader.mismatch

/-- A record. -/
def read : Reader α := do
  match shape.finish (← shape.draft) with
  | some x => return x
  | none => throw .mismatched

end Shape

end Geocoding.Json
