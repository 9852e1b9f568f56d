import Geocoding.TermSet
import Geocoding.Token

/-!
# Token tables

The tokens of one query, listed under the terms they were found for (`TokenTable`). Terms appear in
the order of arrival and once only.

Terms the vocabulary does not know get a second chance (`TokenTable.addFallbacks`): five digits, a
space and four digits are a postcode of the United States, and digits alone are a house number.
-/

namespace Geocoding

/-- List a token under its term, behind the tokens that are there. -/
def listUnder (term : String) (token : Token) :
    List (String × List Token) → List (String × List Token)
  | [] => [(term, [token])]
  | (t, tokens) :: rest =>
    if t = term then (t, tokens ++ [token]) :: rest else (t, tokens) :: listUnder term token rest

theorem map_fst_listUnder (term : String) (token : Token) (entries : List (String × List Token)) :
    (listUnder term token entries).map (·.1) =
      if term ∈ entries.map (·.1) then entries.map (·.1) else entries.map (·.1) ++ [term] := by
  induction entries with
  | nil => simp [listUnder]
  | cons e rest ih =>
    obtain ⟨t, tokens⟩ := e
    rw [listUnder]
    by_cases h : t = term
    · simp [h]
    · have h' : ¬ term = t := fun e => h e.symm
      simp only [h, if_false, List.map_cons, ih, List.mem_cons, h', false_or]
      split <;> simp

theorem ne_nil_of_mem_listUnder {term : String} {token : Token}
    {entries : List (String × List Token)} (h : ∀ e ∈ entries, e.2 ≠ []) :
    ∀ e ∈ listUnder term token entries, e.2 ≠ [] := by
  induction entries with
  | nil => simp [listUnder]
  | cons e rest ih =>
    obtain ⟨t, tokens⟩ := e
    obtain ⟨hfirst, hrest⟩ := List.forall_mem_cons.1 h
    rw [listUnder]
    split
    · exact List.forall_mem_cons.2 ⟨by simp, hrest⟩
    · exact List.forall_mem_cons.2 ⟨hfirst, ih hrest⟩

/-- Tokens listed under terms. No term is listed without a token. -/
structure TokenTable where
  entries : List (String × List Token)
  distinct : (entries.map (·.1)).Nodup
  tokens_ne_nil : ∀ e ∈ entries, e.2 ≠ []
deriving DecidableEq

namespace TokenTable

/-- The table without tokens. -/
def empty : TokenTable := ⟨[], .nil, nofun⟩

instance : EmptyCollection TokenTable := ⟨empty⟩
instance : Inhabited TokenTable := ⟨empty⟩

/-- The table with one more token. -/
def add (table : TokenTable) (term : String) (token : Token) : TokenTable where
  entries := listUnder term token table.entries
  distinct := by
    rw [map_fst_listUnder]
    split
    · exact table.distinct
    · next h =>
      refine List.nodup_append.2 ⟨table.distinct, by simp, ?_⟩
      intro a ha b hb hab
      rw [List.mem_singleton.1 hb] at hab
      exact h (hab ▸ ha)
  tokens_ne_nil := ne_nil_of_mem_listUnder table.tokens_ne_nil

/-- The table of a list of terms with tokens. -/
def ofList (tokens : List (String × Token)) : TokenTable :=
  tokens.foldl (fun table (term, token) => table.add term token) ∅

/-- The tokens of a term. -/
def get (table : TokenTable) (term : String) : List Token :=
  (table.entries.lookup term).getD []

/-- Whether the term is listed. -/
def contains (table : TokenTable) (term : String) : Bool :=
  (table.entries.lookup term).isSome

/-- Whether the term has a token of any kind. -/
def isKnown (table : TokenTable) (term : String) : Bool :=
  !(table.get term).isEmpty

/-- How many terms are listed. -/
def size (table : TokenTable) : Nat :=
  table.entries.length

/-- Whether no term is listed. -/
def isEmpty (table : TokenTable) : Bool :=
  table.entries.isEmpty

/-- Every token with its term. -/
def toList (table : TokenTable) : List (String × Token) :=
  table.entries.flatMap fun (term, tokens) => tokens.map (term, ·)

/-- The ids of all words that can be whole names. -/
def fullWordIds (table : TokenTable) : TermSet :=
  TermSet.ofList <| table.toList.filterMap fun (_, token) =>
    if token.isFullWord then token.id? else none

/-- Whether a token may stay when only some countries are allowed. -/
def staysIn (countries : List String) : Token → Bool
  | .country _ code => countries.contains code
  | _ => true

/-- The entries with only those tokens that may stay; terms left without a token go. -/
def restricted (countries : List String) (entries : List (String × List Token)) :
    List (String × List Token) :=
  let kept := entries.map fun (term, tokens) => (term, tokens.filter (staysIn countries))
  kept.filter (!·.2.isEmpty)

/-- Drop the tokens of countries other than the given ones. No countries mean no restriction. -/
def retainCountries (table : TokenTable) (countries : List String) : TokenTable :=
  if countries.isEmpty then table else {
    entries := restricted countries table.entries
    distinct := by
      have : ((restricted countries table.entries).map (·.1)).Sublist
          (table.entries.map (·.1)) := by
        have h := (List.filter_sublist (p := fun e => !e.2.isEmpty) (l := table.entries.map
          fun (term, tokens) => (term, tokens.filter (staysIn countries)))).map (·.1)
        simpa [restricted, Function.comp_def] using h
      exact this.nodup table.distinct
    tokens_ne_nil := fun e he => by simpa using (List.mem_filter.1 he).2 }

/-- The five digits in front, if the term is five digits, a space and four digits. -/
def zipPlusFour? (term : String) : Option String :=
  let cs := term.toList
  if cs.length = 10 ∧ (cs.take 5).all Text.isAsciiDigit ∧ cs[5]? = some ' ' ∧
      (cs.drop 6).all Text.isAsciiDigit then
    some (String.ofList (cs.take 5))
  else none

/-- The token of a term that the vocabulary does not know. -/
def fallback? (term : String) : Option Token :=
  match zipPlusFour? term with
  | some code => some (.ofPostcode none code (some "us"))
  | none =>
    if !term.isEmpty && term.toList.all Text.isAsciiDigit then some (.ofHouseNumber none term)
    else none

/-- Give an unlisted term the token it can have without the vocabulary. -/
def addFallback (table : TokenTable) (term : String) : TokenTable :=
  if table.contains term then table
  else match fallback? term with
    | some token => table.add term token
    | none => table

/-- Give each unlisted term the token it can have without the vocabulary. -/
def addFallbacks (table : TokenTable) (terms : List String) : TokenTable :=
  terms.foldl addFallback table

end TokenTable

end Geocoding
