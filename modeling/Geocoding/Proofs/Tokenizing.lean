import Geocoding.Proofs.Distinct
import Geocoding.Proofs.FewestParts
import Geocoding.Proofs.Outcome
import Geocoding.Proofs.Preparing
import Geocoding.Proofs.Text
import Geocoding.Proofs.Vocabulary

/-!
# Tokenizing

What the planner gets to see of the words of a query. Every run of words has the tokens that the
lexicon gives, or else the one it can have without the lexicon (`IsReadAs`), less the countries that
are not asked for.

A table is settled by the tokens of each term (`TokenTable.entries_perm_of_get_eq`), so every step
is described by what it does to these (`TokenTable.get_addFallbacks_eq`,
`TokenTable.get_retainCountries`). Countries are dropped last: a term that was only a country which
is not asked for has no token then, and gets no second chance. The phrases are cut into the terms of
the finished table (`Lexicon.exists_complete_of_tokenize`).
-/

namespace Geocoding

/-! ## Terms without the lexicon -/

/-- Five digits, a space and four digits. -/
def IsZipPlusFour (term code : String) : Prop :=
  ∃ digits : List Char, code.toList.length = 5 ∧ digits.length = 4 ∧
    (∀ c ∈ code.toList ++ digits, Text.isAsciiDigit c = true) ∧
    term.toList = code.toList ++ ' ' :: digits

/-- The tokens of a term to which the lexicon gives those of `answer`. -/
inductive IsReadAs (answer : List Token) (term : String) : List Token → Prop
  | known (h : answer ≠ []) : IsReadAs answer term answer
  | postcode (h : answer = []) {code : String} (hzip : IsZipPlusFour term code) :
      IsReadAs answer term [.postcode none code (some "us")]
  | houseNumber (h : answer = []) (hzip : ∀ code, ¬ IsZipPlusFour term code) (hne : term ≠ "")
      (hdigits : ∀ c ∈ term.toList, Text.isAsciiDigit c = true) :
      IsReadAs answer term [.houseNumber none term]
  | unknown (h : answer = []) (hzip : ∀ code, ¬ IsZipPlusFour term code)
      (hdigits : term = "" ∨ ∃ c ∈ term.toList, Text.isAsciiDigit c = false) :
      IsReadAs answer term []

namespace TokenTable

variable {table table' : TokenTable} {term other : String} {tokens : List Token}

theorem zipPlusFour?_eq_some_iff {code : String} :
    zipPlusFour? term = some code ↔ IsZipPlusFour term code := by
  rw [zipPlusFour?, Option.ite_none_right_eq_some]
  constructor
  · rintro ⟨⟨hlength, hcode, hspace, hdigits⟩, heq⟩
    obtain rfl := Option.some.inj heq
    obtain ⟨hlt, hspace⟩ := List.getElem?_eq_some_iff.1 hspace
    rw [List.all_eq_true] at hcode hdigits
    rw [IsZipPlusFour, String.toList_ofList]
    refine ⟨term.toList.drop 6, by simp [hlength], by simp [hlength], ?_, ?_⟩
    · intro c hc
      exact (List.mem_append.1 hc).elim (hcode c) (hdigits c)
    · rw [← hspace, ← List.drop_eq_getElem_cons hlt, List.take_append_drop]
  · rintro ⟨digits, hcode, hdigits, hall, hterm⟩
    have hfront : (code.toList ++ ' ' :: digits).take 5 = code.toList := List.take_left' hcode
    have hback : (code.toList ++ ' ' :: digits).drop 6 = digits := by
      rw [List.append_cons]
      exact List.drop_left' (by simp [hcode])
    have hspace : (code.toList ++ ' ' :: digits)[5]? = some ' ' := by
      rw [List.getElem?_append_right (by omega), hcode]
      rfl
    obtain ⟨hallcode, halldigits⟩ := List.forall_mem_append.1 hall
    refine ⟨?_, ?_⟩
    · rw [hterm, hfront, hback, List.all_eq_true, List.all_eq_true]
      exact ⟨by simp [hcode, hdigits], hallcode, hspace, halldigits⟩
    · rw [hterm, hfront, String.ofList_toList]

theorem isReadAs_fallback? (term : String) : IsReadAs [] term (fallback? term).toList := by
  rw [fallback?]
  cases hzip : zipPlusFour? term with
  | some code =>
    have hus : Text.lower "us" = "us" := by decide +kernel
    simp only [Token.ofPostcode, Option.map_some, hus]
    exact .postcode rfl (zipPlusFour?_eq_some_iff.1 hzip)
  | none =>
    have hnot (code : String) : ¬ IsZipPlusFour term code := fun h => by
      rw [← zipPlusFour?_eq_some_iff, hzip] at h
      exact nomatch h
    dsimp only
    split
    · next h =>
      simp only [Bool.and_eq_true, Bool.not_eq_true', List.all_eq_true] at h
      obtain ⟨hne, hdigits⟩ := h
      have htrim : Text.trim term = term :=
        Text.trim_of_forall_not_isBlank fun c hc => Text.not_isBlank_of_isAsciiDigit (hdigits c hc)
      rw [Token.ofHouseNumber, htrim]
      exact .houseNumber rfl hnot (by simpa using hne) hdigits
    · next h =>
      refine .unknown rfl hnot ?_
      simpa [Classical.or_iff_not_imp_left] using h

/-! ## Tables as maps -/

/-- The entries of a table are its terms with their tokens. -/
theorem mem_entries_iff :
    (term, tokens) ∈ table.entries ↔ tokens ≠ [] ∧ table.get term = tokens := by
  rw [get, ← lookup_eq_some_iff_mem table.distinct]
  constructor
  · intro h
    have hmem := (lookup_eq_some_iff_mem table.distinct).1 h
    exact ⟨table.tokens_ne_nil _ hmem, by rw [h]; rfl⟩
  · rintro ⟨hne, h⟩
    cases hlookup : table.entries.lookup term with
    | none => exact absurd (by rw [← h, hlookup]; rfl) hne
    | some tokens' =>
      rw [hlookup] at h
      exact congrArg some h

theorem mem_map_fst_entries_iff : term ∈ table.entries.map (·.1) ↔ table.get term ≠ [] := by
  constructor
  · intro h
    obtain ⟨⟨_, tokens⟩, hmem, rfl⟩ := List.mem_map.1 h
    obtain ⟨hne, hget⟩ := mem_entries_iff.1 hmem
    exact hget ▸ hne
  · exact fun h => List.mem_map.2 ⟨_, mem_entries_iff.2 ⟨h, rfl⟩, rfl⟩

/-- A table is settled by the tokens of each term. -/
theorem entries_perm_of_get_eq (h : ∀ term, table.get term = table'.get term) :
    table.entries.Perm table'.entries := by
  refine (List.perm_ext_iff_of_nodup table.distinct.of_map table'.distinct.of_map).2 ?_
  rintro ⟨term, tokens⟩
  rw [mem_entries_iff, mem_entries_iff, h]

theorem isKnown_iff : table.isKnown term = true ↔ table.get term ≠ [] := by
  simp [isKnown]

/-- A term is listed if it has a token. -/
theorem contains_eq_isKnown (table : TokenTable) (term : String) :
    table.contains term = table.isKnown term := by
  rw [Bool.eq_iff_iff, isKnown_iff, ← mem_map_fst_entries_iff, contains, Option.isSome_iff_exists]
  constructor
  · rintro ⟨tokens, h⟩
    exact List.mem_map.2 ⟨_, (lookup_eq_some_iff_mem table.distinct).1 h, rfl⟩
  · intro h
    obtain ⟨⟨_, tokens⟩, hmem, rfl⟩ := List.mem_map.1 h
    exact ⟨tokens, (lookup_eq_some_iff_mem table.distinct).2 hmem⟩

/-! ## Second chances and countries -/

theorem get_addFallback_eq (table : TokenTable) (term other : String) :
    (table.addFallback term).get other =
      if table.isKnown other then table.get other
      else if other = term then (fallback? other).toList else [] := by
  by_cases hknown : table.isKnown other = true
  · rw [if_pos hknown, get_addFallback hknown]
  · have hget : table.get other = [] := by
      simpa [isKnown_iff] using hknown
    rw [if_neg hknown, addFallback, contains_eq_isKnown]
    split
    · next hterm =>
      have hne : other ≠ term := fun heq => hknown (heq ▸ hterm)
      rw [hget, if_neg hne]
    · split
      · next token hfallback =>
        rw [get_add, hget, List.nil_append]
        split
        · next heq => rw [heq, hfallback, Option.toList_some]
        · rfl
      · next hfallback =>
        rw [hget]
        split
        · next heq => rw [heq, hfallback, Option.toList_none]
        · rfl

/-- It does not matter in which order terms get a second chance, nor whether they get more than
one. -/
theorem get_addFallbacks_eq (table : TokenTable) (terms : List String) (other : String) :
    (table.addFallbacks terms).get other =
      if table.isKnown other then table.get other
      else if other ∈ terms then (fallback? other).toList else [] := by
  induction terms generalizing table with
  | nil =>
    have hget (h : ¬ table.isKnown other = true) : table.get other = [] := by
      simpa [isKnown_iff] using h
    simp only [List.not_mem_nil, if_false]
    split
    · rfl
    · next h => exact hget h
  | cons term terms ih =>
    rw [addFallbacks, List.foldl_cons, ← addFallbacks, ih, isKnown, get_addFallback_eq]
    by_cases hknown : table.isKnown other = true
    · have hne : (table.get other).isEmpty = false := by simpa [isKnown] using hknown
      simp [hknown, hne]
    · by_cases heq : other = term
      · subst heq
        cases fallback? other <;> simp [hknown]
      · simp [hknown, heq]

theorem addFallbacks_perm (table : TokenTable) {terms terms' : List String}
    (h : ∀ term, term ∈ terms ↔ term ∈ terms') :
    (table.addFallbacks terms).entries.Perm (table.addFallbacks terms').entries :=
  entries_perm_of_get_eq fun term => by simp only [get_addFallbacks_eq, h]

/-- What is left of the tokens of a term when only some countries are asked for. -/
def asked (countries : List String) (tokens : List Token) : List Token :=
  tokens.filter fun token => countries.isEmpty || staysIn countries token

theorem get_eq_of_mem_entries_iff {xs : List Token}
    (h : ∀ tokens, (term, tokens) ∈ table.entries ↔ tokens ≠ [] ∧ tokens = xs) :
    table.get term = xs := by
  by_cases hxs : xs = []
  · by_contra hne
    have hget : table.get term ≠ [] := hxs ▸ hne
    exact hne ((h _).1 (mem_entries_iff.2 ⟨hget, rfl⟩)).2
  · exact (mem_entries_iff.1 ((h xs).2 ⟨hxs, rfl⟩)).2

theorem get_retainCountries (table : TokenTable) (countries : List String) (term : String) :
    (table.retainCountries countries).get term = asked countries (table.get term) := by
  by_cases hempty : countries.isEmpty = true
  · simp [retainCountries, asked, hempty]
  · refine get_eq_of_mem_entries_iff fun tokens => ?_
    have hasked (tokens : List Token) :
        asked countries tokens = tokens.filter (staysIn countries) := by
      simp [asked, hempty]
    rw [retainCountries, if_neg hempty, hasked]
    simp only [restricted, List.mem_filter, List.mem_map, Bool.not_eq_true',
      List.isEmpty_eq_false_iff]
    constructor
    · rintro ⟨⟨⟨_, all⟩, hall, heq⟩, hne⟩
      obtain ⟨rfl, rfl⟩ := Prod.mk.inj heq
      exact ⟨hne, by rw [(mem_entries_iff.1 hall).2]⟩
    · rintro ⟨hne, rfl⟩
      have hget : table.get term ≠ [] := fun hnil => hne (by rw [hnil]; rfl)
      exact ⟨⟨_, mem_entries_iff.2 ⟨hget, rfl⟩, rfl⟩, hne⟩

end TokenTable

/-! ## Phrases -/

/-- A phrase is made of a text, then cut into terms and turned around any number of times. -/
inductive Phrase.IsMade : Phrase → Prop
  | ofText (text : String) (role : PhraseRole) : IsMade (ofText text role)
  | segmented {p : Phrase} (h : IsMade p) (known : String → Bool) : IsMade (p.segmented known)
  | inverted {p : Phrase} (h : IsMade p) : IsMade p.inverted

/-- Without words there is nothing to group. -/
theorem Phrase.IsMade.groupings_eq_nil {p : Phrase} (h : p.IsMade) (hwords : p.words = []) :
    p.groupings = [] := by
  induction h with
  | ofText text role => rfl
  | @segmented p h known ih =>
    have hnone : p.words = [] := hwords
    rw [Phrase.segmented, hnone]
    rfl
  | inverted h ih => rw [Phrase.inverted, ih hwords, List.map_nil]

namespace Grouping

variable {known : String → Bool} {words : List String}

/-- Every grouping is made by cutting the words into known terms. -/
theorem exists_isCut_of_mem_groupings {g : Grouping} (h : g ∈ groupings known words) :
    words ≠ [] ∧ ∃ blocks, IsCut known words blocks ∧ g = terms blocks := by
  have hne : words ≠ [] := by
    rintro rfl
    exact nomatch h
  obtain ⟨front, word, rfl⟩ := (List.eq_nil_or_concat' words).resolve_left hne
  obtain ⟨earlier, rfl⟩ : ∃ earlier, front = earlier.reverse := ⟨front.reverse, by simp⟩
  obtain ⟨blocks, hblocks, rfl⟩ :=
    List.mem_map.1 ((keepsFewest_groupings known earlier word).subperm.subset h)
  exact ⟨hne, blocks, isCut_concat_iff.2 (mem_cutsEndingWith_iff.1 hblocks), rfl⟩

theorem known_of_mem_groupings {g : Grouping} (h : g ∈ groupings known words) {part : String}
    (hpart : part ∈ g) : known part = true := by
  obtain ⟨-, blocks, hcut, rfl⟩ := exists_isCut_of_mem_groupings h
  obtain ⟨block, hblock, rfl⟩ := List.mem_map.1 hpart
  exact hcut.known block hblock

/-- If the words can be cut into known terms, there is a grouping with no more parts. -/
theorem exists_mem_groupings_of_isCut (hne : words ≠ []) {blocks : List (List String)}
    (h : IsCut known words blocks) : ∃ g ∈ groupings known words, g.length ≤ blocks.length := by
  obtain ⟨front, word, rfl⟩ := (List.eq_nil_or_concat' words).resolve_left hne
  obtain ⟨earlier, rfl⟩ : ∃ earlier, front = earlier.reverse := ⟨front.reverse, by simp⟩
  have hmem : terms blocks ∈ (cutsEndingWith known [word] earlier).map terms :=
    List.mem_map_of_mem (mem_cutsEndingWith_iff.2 (isCut_concat_iff.1 h))
  have hall : 0 < countWithin blocks.length ((cutsEndingWith known [word] earlier).map terms) :=
    List.countP_pos_iff.2 ⟨_, hmem, by simp [terms]⟩
  have henough := (keepsFewest_groupings known earlier word).enough blocks.length
  have hpos : 0 < maxGroupings := by decide
  obtain ⟨g, hg, hlength⟩ :=
    List.countP_pos_iff.1 (Nat.lt_of_lt_of_le (Nat.lt_min.2 ⟨hpos, hall⟩) henough)
  exact ⟨g, hg, by simpa using hlength⟩

theorem exists_length_le_maxParts_iff :
    (∃ g ∈ groupings known words, g.length ≤ maxParts) ↔
      words ≠ [] ∧ ∃ blocks, IsCut known words blocks := by
  constructor
  · rintro ⟨g, hg, -⟩
    obtain ⟨hne, blocks, hcut, -⟩ := exists_isCut_of_mem_groupings hg
    exact ⟨hne, blocks, hcut⟩
  · rintro ⟨hne, blocks, hcut⟩
    obtain ⟨g, hg, hle⟩ := exists_mem_groupings_of_isCut hne hcut
    exact ⟨g, hg, hle.trans hcut.length_le⟩

end Grouping

namespace Lexicon

variable {σ : Type} {lexicon : Lexicon (StateM σ)} {phrases : List Phrase}

theorem nodup_terms (phrases : List Phrase) : (terms phrases).Nodup := by
  rw [terms, distinctTexts_eq]
  simpa using nodup_map_distinctBy id (phrases.flatMap (·.runs))

theorem get_complete {answer : TokenTable} {terms countries : List String} {term : String}
    (hterm : term ∈ terms) : ∃ tokens, IsReadAs (answer.get term) term tokens ∧
      (complete answer terms countries).get term = TokenTable.asked countries tokens := by
  refine ⟨_, ?_, by rw [complete, TokenTable.get_retainCountries]⟩
  rw [TokenTable.get_addFallbacks_eq, if_pos hterm]
  split
  · next hknown => exact .known (TokenTable.isKnown_iff.1 hknown)
  · next hknown =>
    have hget : answer.get term = [] := by
      simpa [TokenTable.isKnown_iff] using hknown
    rw [hget]
    exact TokenTable.isReadAs_fallback? term

theorem complete_empty (countries : List String) : complete ∅ [] countries = ∅ := by
  rw [complete, TokenTable.retainCountries]
  split
  · rfl
  · rfl

theorem outcome_tokenize_of_ok {w w' : σ} {answer : TokenTable} (hne : terms phrases ≠ [])
    (h : outcome (lexicon.tokens (terms phrases)) w = (.ok answer, w')) (countries : List String) :
    outcome (lexicon.tokenize phrases countries) w =
      (.ok (phrases.map (·.segmented (complete answer (terms phrases) countries).isKnown),
        complete answer (terms phrases) countries), w') := by
  rw [tokenize]
  simp only [List.isEmpty_eq_false_iff.2 hne, Bool.false_eq_true, if_false]
  rw [outcome_bind_of_ok h, outcome_pure]

/-- A lexicon that is asked at all is asked for every run of words once, and the planner gets its
answer completed, with the phrases cut into the terms that are known then. -/
theorem exists_complete_of_tokenize {countries : List String} (hmade : ∀ p ∈ phrases, p.IsMade)
    {w w' : σ} {returned : List Phrase} {table : TokenTable}
    (h : outcome (lexicon.tokenize phrases countries) w = (.ok (returned, table), w')) :
    ∃ answer : TokenTable,
      (terms phrases ≠ [] → outcome (lexicon.tokens (terms phrases)) w = (.ok answer, w')) ∧
      table = complete answer (terms phrases) countries ∧
      returned = phrases.map (·.segmented table.isKnown) := by
  unfold tokenize at h
  by_cases hterms : terms phrases = []
  · simp only [hterms, List.isEmpty_nil, if_true, outcome_pure] at h
    obtain ⟨hreturned, htable⟩ := Prod.mk.inj (Except.ok.inj (Prod.mk.inj h).1)
    refine ⟨∅, fun hne => absurd hterms hne, ?_, ?_⟩
    · rw [hterms, complete_empty, htable]
    · have hsegmented (p : Phrase) (hp : p ∈ phrases) : p.segmented table.isKnown = p := by
        have hwords : p.words = [] := by
          by_contra hne
          exact List.ne_nil_of_mem (text_mem_terms hp hne) hterms
        have hgroupings : groupings table.isKnown p.words = p.groupings := by
          rw [hwords, (hmade p hp).groupings_eq_nil hwords]
          rfl
        rw [Phrase.segmented, hgroupings]
      rw [← hreturned, List.map_congr_left hsegmented, List.map_id']
  · simp only [List.isEmpty_eq_false_iff.2 hterms, Bool.false_eq_true, if_false, outcome_bind] at h
    split at h
    · next answer w₁ hanswer =>
      rw [outcome_pure] at h
      obtain ⟨hpair, hworld⟩ := Prod.mk.inj h
      obtain ⟨hreturned, htable⟩ := Prod.mk.inj (Except.ok.inj hpair)
      exact ⟨answer, fun _ => hworld ▸ hanswer, htable.symm, by rw [← hreturned, htable]⟩
    · exact nomatch (Prod.mk.inj h).1

/-- What the planner gets agrees with itself and with the answer of the lexicon. -/
structure IsConsistent (answer : TokenTable) (phrases : List Phrase) (countries : List String)
    (returned : List Phrase) (table : TokenTable) : Prop where
  /-- Every run of words has the tokens it is read as, in the countries asked for. -/
  tokens : ∀ p ∈ phrases, ∀ run ∈ p.runs, ∃ tokens, IsReadAs (answer.get run) run tokens ∧
    table.get run = TokenTable.asked countries tokens
  /-- A term is listed if and only if it has a token. -/
  listed : ∀ term, table.contains term = table.isKnown term
  /-- The size is the number of terms with a token. -/
  size : ∃ known : List String, known.Nodup ∧ (∀ term, term ∈ known ↔ table.get term ≠ []) ∧
    table.size = known.length
  /-- The phrases are those that were given, in their order. -/
  phrases : returned = phrases.map (·.segmented table.isKnown)
  /-- Every part of a grouping has a token. -/
  parts : ∀ p ∈ returned, ∀ g ∈ p.groupings, ∀ part ∈ g, table.get part ≠ []
  /-- Words that can be cut into known terms, not too many, have such a grouping. -/
  groupings : ∀ p ∈ returned, (∃ g ∈ p.groupings, g.length ≤ Grouping.maxParts) ↔
    p.words ≠ [] ∧ ∃ blocks, Grouping.IsCut table.isKnown p.words blocks

theorem isConsistent_complete (answer : TokenTable) (phrases : List Phrase)
    (countries : List String) :
    IsConsistent answer phrases countries
      (phrases.map (·.segmented (complete answer (terms phrases) countries).isKnown))
      (complete answer (terms phrases) countries) where
  tokens p hp run hrun := get_complete (mem_terms.2 ⟨p, hp, hrun⟩)
  listed := TokenTable.contains_eq_isKnown _
  size := ⟨_, TokenTable.distinct _, fun _ => TokenTable.mem_map_fst_entries_iff,
    List.length_map _ |>.symm⟩
  phrases := rfl
  parts p hp g hg part hpart := by
    obtain ⟨q, -, rfl⟩ := List.mem_map.1 hp
    exact TokenTable.isKnown_iff.1 (Grouping.known_of_mem_groupings hg hpart)
  groupings p hp := by
    obtain ⟨q, -, rfl⟩ := List.mem_map.1 hp
    exact Grouping.exists_length_le_maxParts_iff

/-- When tokenizing succeeds, the lexicon has been asked for every run of words, once each, and what
the planner gets is consistent with its answer. Second chances may be given in any order and more
than once. -/
theorem tokenize_isConsistent {countries : List String} (hmade : ∀ p ∈ phrases, p.IsMade)
    {w w' : σ} {returned : List Phrase} {table : TokenTable}
    (h : outcome (lexicon.tokenize phrases countries) w = (.ok (returned, table), w')) :
    (terms phrases).Nodup ∧ (∀ term, term ∈ terms phrases ↔ ∃ p ∈ phrases, term ∈ p.runs) ∧
    ∃ answer : TokenTable,
      (terms phrases ≠ [] → outcome (lexicon.tokens (terms phrases)) w = (.ok answer, w')) ∧
      IsConsistent answer phrases countries returned table ∧
      ∀ ts ts' : List String, (∀ term, term ∈ ts ↔ term ∈ ts') →
        (answer.addFallbacks ts).entries.Perm (answer.addFallbacks ts').entries := by
  obtain ⟨answer, hanswer, rfl, rfl⟩ := exists_complete_of_tokenize hmade h
  exact ⟨nodup_terms phrases, fun _ => mem_terms, answer, hanswer,
    isConsistent_complete answer phrases countries, fun _ _ => answer.addFallbacks_perm⟩

/-- A lexicon that knows one country, and counts how often it is asked. -/
def ofCountry (name code : String) : Lexicon (StateM Nat) where
  normalize := id
  tokens terms := do
    modify (· + 1)
    return if terms.contains name then TokenTable.ofList [(name, .country 0 code)] else ∅
  specialTokens _ := return []

/-- A country that is not asked for becomes unknown. -/
theorem franceInGermany_isConsistent :
    ∃ returned table answer,
      outcome ((ofCountry "france" "fr").tokenize
        [.ofText "france" .untyped, .ofText "42" .untyped] ["de"]) 0 = (.ok (returned, table), 1) ∧
      IsConsistent answer [.ofText "france" .untyped, .ofText "42" .untyped] ["de"] returned
        table ∧
      answer.get "france" = [.country 0 "fr"] ∧ table.get "france" = [] ∧
      table.get "42" = [.houseNumber none "42"] := by
  have hterms : terms [.ofText "france" .untyped, .ofText "42" .untyped] = ["france", "42"] := by
    rw [terms, distinctTexts_eq]
    decide +kernel
  have hasked : outcome ((ofCountry "france" "fr").tokens ["france", "42"]) 0 =
      (.ok (TokenTable.ofList [("france", .country 0 "fr")]), 1) := rfl
  have hmade : ∀ p ∈ [Phrase.ofText "france" .untyped, .ofText "42" .untyped], p.IsMade := by
    simp [Phrase.IsMade.ofText]
  have hne := hterms ▸ List.cons_ne_nil "france" ["42"]
  have h := outcome_tokenize_of_ok hne (hterms ▸ hasked) ["de"]
  obtain ⟨-, -, answer, hanswer, hconsistent, -⟩ := tokenize_isConsistent hmade h
  rw [hterms, hasked] at hanswer
  obtain rfl := Except.ok.inj (Prod.mk.inj (hanswer (List.cons_ne_nil _ _))).1
  refine ⟨_, _, _, h, hconsistent, by decide +kernel, ?_⟩
  rw [hterms]
  decide +kernel

end Lexicon

end Geocoding
