import Geocoding.Phrase

/-!
# Positions in a query

Where in the query a token stands decides how it may be read.
-/

namespace Geocoding

/-- The place of a token: its phrase among the phrases, and its part among the parts of a
grouping. -/
structure Position where
  role : PhraseRole
  phrase : Nat
  phrases : Nat
  part : Nat
  parts : Nat
deriving DecidableEq, Repr

namespace Position

/-- The phrase is untyped or of the given role. -/
def mayBe (pos : Position) (role : PhraseRole) : Bool :=
  pos.role = .untyped || pos.role = role

/-- The phrase is untyped. -/
def isUntyped (pos : Position) : Bool :=
  pos.role = .untyped

/-- The token stands in the first phrase. -/
def isInFirstPhrase (pos : Position) : Bool :=
  pos.phrase = 0

/-- The token is the first of the query. -/
def isFirst (pos : Position) : Bool :=
  pos.phrase = 0 && pos.part = 0

/-- The token is the last of the query. -/
def isLast (pos : Position) : Bool :=
  pos.part + 1 = pos.parts && pos.phrase + 1 = pos.phrases

end Position

end Geocoding
