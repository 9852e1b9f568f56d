import Geocoding.Distinct
import Geocoding.Phrase
import Geocoding.Token.Table

/-!
# Lexicons

A lexicon tells which tokens the terms of a query stand for (`Lexicon`). `Lexicon.tokenize` asks it
for all runs of words of the phrases at once, and cuts each phrase into the terms that are known.
-/

namespace Geocoding

/-- Why a lexicon gives no answer. -/
inductive LexiconError where
  | lookup (reason : String)
  | other (reason : String)
deriving DecidableEq, Repr

/-- The text of a lexicon error. -/
def LexiconError.message : LexiconError → String
  | lookup reason => "Vocabulary lookup failed: " ++ reason
  | other reason => reason

/-- An answer that may take effect in `m` or fail. -/
abbrev LexiconM (m : Type → Type) := ExceptT LexiconError m

/-- Tokens by term. -/
structure Lexicon (m : Type → Type) where
  /-- The normal form that terms have. -/
  normalize : String → String
  /-- The tokens of each of the terms. Unknown terms are left out. -/
  tokens : List String → LexiconM m TokenTable
  /-- The tokens of a phrase for a type of places. -/
  specialTokens : String → LexiconM m (List Token)

namespace Lexicon

/-- The tokens to plan with: those that the lexicon gives, tokens for terms that it does not know,
and no countries but the given ones. -/
def complete (table : TokenTable) (terms countries : List String) : TokenTable :=
  (table.addFallbacks terms).retainCountries countries

/-- Every run of words of the phrases, once. -/
def terms (phrases : List Phrase) : List String :=
  distinctTexts (phrases.flatMap (·.runs))

theorem terms_eq (phrases : List Phrase) :
    terms phrases = distinctBy id (phrases.flatMap (·.runs)) :=
  distinctTexts_eq _

/-- The phrases cut into known terms, with the tokens of these. No words need no tokens. -/
def tokenize {m : Type → Type} [Monad m] (lexicon : Lexicon m) (phrases : List Phrase)
    (countries : List String) : LexiconM m (List Phrase × TokenTable) := do
  let terms := terms phrases
  if terms.isEmpty then return (phrases, ∅)
  let table := complete (← lexicon.tokens terms) terms countries
  return (phrases.map (·.segmented table.isKnown), table)

end Lexicon

end Geocoding
