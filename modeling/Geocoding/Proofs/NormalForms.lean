import Geocoding.Geocoder
import Geocoding.Proofs.Casing
import Geocoding.Proofs.Tokenizing

/-!
# Normal forms

A normal form consists of words of letters and digits with single spaces between them, and it is its
own normal form (`isNormalForm_normalize`): all that is left of a text is in lower case, whatever
stands around it, and can be divided only at the spaces. So a text may be normalized twice, and it
does not matter whether a normal form is divided at everything but letters and digits, at white
space, or at spaces.

A name is entered into the vocabulary as a whole and by its words (`Vocabulary.EntersName`), and the
vocabulary is asked for all runs of words of a phrase. So a query that consists of a name
(`QueryText.IsName`) asks for all that the name is entered for.
-/

namespace Geocoding

/-! ## Normal forms -/

theorem Text.forall_mem_unwords {P : Char → Prop} (hspace : P ' ') {ws : List String}
    (hws : ∀ w ∈ ws, ∀ c ∈ w.toList, P c) : ∀ c ∈ (unwords ws).toList, P c := by
  rw [toList_unwords]
  induction ws with
  | nil => simp
  | cons w ws ih =>
    obtain ⟨hw, hws⟩ := List.forall_mem_cons.1 hws
    cases ws with
    | nil => simpa using hw
    | cons v ws =>
      rw [List.map_cons, List.map_cons, List.intercalate_cons_cons, List.forall_mem_append,
        List.forall_mem_append]
      exact ⟨⟨hw, List.forall_mem_singleton.2 hspace⟩, ih hws⟩

/-- All characters of a normal form are in lower case, whatever stands around them. -/
theorem isLower_of_mem_normalize {text : String} :
    ∀ c ∈ (normalize text).toList, Text.IsLower c := by
  refine Text.forall_mem_unwords (by decide +kernel) fun w hw c hc => ?_
  obtain ⟨cs, hcs, rfl⟩ := List.mem_map.1 hw
  rw [String.toList_ofList] at hc
  exact Text.isLower_of_mem_lowerAfter (Text.mem_of_mem_stretches hcs hc)

/-- A normal form has the words that it was made of. -/
theorem termWords_normalize (text : String) : termWords (normalize text) = termWords text := by
  have hlower : Text.lowerChars (normalize text).toList = (normalize text).toList :=
    Text.lowerAfter_of_forall_isLower isLower_of_mem_normalize []
  rw [termWords, hlower]
  refine Text.stretches_unwords (by decide +kernel) fun w hw => ?_
  obtain ⟨hne, hall⟩ := isAlphanumeric_of_mem_termWords hw
  exact ⟨hne, fun c hc => by rw [hall c hc]; rfl⟩

/-- The normal form of a text is its own normal form. -/
theorem normalize_normalize (text : String) : normalize (normalize text) = normalize text := by
  rw [normalize, termWords_normalize, normalize]

/-- The term consists of the words, and there is nothing left to normalize. -/
structure IsNormalForm (term : String) (words : List String) : Prop where
  eq_unwords : term = Text.unwords words
  letters : ∀ word ∈ words, word ≠ "" ∧ ∀ c ∈ word.toList, Text.isAlphanumeric c = true
  normalize_eq : normalize term = term
  /-- The words are what lies between anything but letters and digits. -/
  termWords_eq : termWords term = words
  /-- They are what lies between white space. -/
  words_eq : Text.words term = words
  /-- They are what lies between spaces; without words this is one empty piece. -/
  splitAt_eq : words ≠ [] → Text.splitAt ' ' term = words

theorem isNormalForm_normalize (text : String) :
    IsNormalForm (normalize text) (termWords text) := by
  refine ⟨rfl, fun w hw => ?_, normalize_normalize text, termWords_normalize text,
    words_normalize text, splitAt_normalize⟩
  obtain ⟨hne, hall⟩ := isAlphanumeric_of_mem_termWords hw
  refine ⟨?_, hall⟩
  rintro rfl
  exact hne rfl

/-- The lower case of a dotted capital is followed by a mark, which divides the text. -/
example : normalize "İznik" = "i znik" := by decide +kernel

/-! ## Names as phrases -/

theorem Phrase.words_ofText_normalize (text : String) (role : PhraseRole) :
    (ofText (normalize text) role).words = termWords text :=
  words_normalize text

theorem Phrase.text_ofText_normalize (text : String) (role : PhraseRole) :
    (ofText (normalize text) role).text = normalize text :=
  congrArg Text.unwords (words_normalize text)

namespace Vocabulary

/-- The name, which may be that of a country, is entered for the term: as a whole or by a word. -/
def EntersName (name term : String) : Prop :=
  ∃ country isFull, ⟨term, .word isFull 1⟩ ∈ nameEntries country name

theorem entersName_iff {name term : String} : EntersName name term ↔
    normalize name ≠ "" ∧ (term = normalize name ∨ term ∈ termWords name) := by
  have hentries (country : Option String) (isFull : Bool) :
      ⟨term, .word isFull 1⟩ ∈ nameEntries country name ↔ normalize name ≠ "" ∧
        if isFull then term = normalize name else term ∈ termWords name := by
    by_cases hempty : normalize name = ""
    · simp [nameEntries, hempty]
    · cases country <;> cases isFull <;> simp [nameEntries, hempty, mem_distinctBy_id]
  constructor
  · rintro ⟨country, isFull, hentry⟩
    obtain ⟨hne, hterm⟩ := (hentries country isFull).1 hentry
    cases isFull with
    | true => exact ⟨hne, Or.inl hterm⟩
    | false => exact ⟨hne, Or.inr hterm⟩
  · rintro ⟨hne, hterm | hterm⟩
    · exact ⟨none, true, (hentries none true).2 ⟨hne, hterm⟩⟩
    · exact ⟨none, false, (hentries none false).2 ⟨hne, hterm⟩⟩

/-- All that a name is entered for is among the runs of words of the phrase that it makes. -/
theorem EntersName.mem_runs {name term : String} (h : EntersName name term) (role : PhraseRole) :
    term ∈ (Phrase.ofText (normalize name) role).runs := by
  obtain ⟨hne, rfl | hterm⟩ := entersName_iff.1 h
  · have hwords : (Phrase.ofText (normalize name) role).words ≠ [] := by
      rw [Phrase.words_ofText_normalize]
      exact termWords_ne_nil hne
    have hruns := Phrase.text_mem_runs hwords
    rwa [Phrase.text_ofText_normalize] at hruns
  · refine Phrase.mem_runs_of_mem_words ?_
    rwa [Phrase.words_ofText_normalize]

/-! ## What the vocabulary is asked for -/

/-- The vocabulary as a lexicon with a record of the terms that it is asked for. -/
def recordedLexicon (v : Vocabulary) : Lexicon (StateM (List String)) :=
  { v.lexicon with
    tokens := fun terms => do
      modify (· ++ terms)
      v.lexicon.tokens terms }

end Vocabulary

namespace Geocoder

variable {v : Vocabulary} {g : Geocoder (StateM (List String))}

/-- The terms on record after a request has been interpreted. -/
def termsAsked (g : Geocoder (StateM (List String))) (r : SearchRequest) : List String :=
  (outcome (g.plan r) []).2

/-- The phrases of a query in normal form. -/
def normalPhrases (query : PreparedQuery) : List Phrase :=
  query.phrases.map fun (text, role) => .ofText (normalize text) role

theorem exists_outcome_tokenize (hlexicon : g.lexicon = v.recordedLexicon) (query : PreparedQuery)
    (countries : List String) :
    ∃ phrases table, outcome (g.tokenize query.phrases countries) [] =
      (.ok (phrases, table), Lexicon.terms (normalPhrases query)) := by
  have hasked : outcome (g.lexicon.tokens (Lexicon.terms (normalPhrases query))) [] =
      (.ok (v.table (Lexicon.terms (normalPhrases query))),
        Lexicon.terms (normalPhrases query)) := by
    rw [hlexicon]
    rfl
  have htokenize : g.tokenize query.phrases countries =
      (g.lexicon.tokenize (normalPhrases query) countries).adapt .lexicon := by
    rw [tokenize, hlexicon]
    rfl
  rw [htokenize, outcome_adapt]
  by_cases hnone : Lexicon.terms (normalPhrases query) = []
  · refine ⟨normalPhrases query, ∅, ?_⟩
    simp only [Lexicon.tokenize, hnone, List.isEmpty_nil, if_true, outcome_pure]
    rfl
  · rw [Lexicon.outcome_tokenize_of_ok hnone hasked]
    exact ⟨_, _, rfl⟩

theorem exists_outcome_roots (hlexicon : g.lexicon = v.recordedLexicon) (c : Constraints)
    (query : PreparedQuery) (asked : List String) :
    ∃ roots, outcome (g.roots c query) asked = (.ok roots, asked) := by
  rw [roots, hlexicon]
  cases query.specialTerm with
  | none => exact ⟨_, rfl⟩
  | some term => exact ⟨_, rfl⟩

/-- A request asks for all runs of words of its phrases. -/
theorem termsAsked_eq (hlexicon : g.lexicon = v.recordedLexicon) {r : SearchRequest}
    {query : PreparedQuery} (hprepare : r.prepare = .ok query) :
    g.termsAsked r = Lexicon.terms (normalPhrases query) := by
  have hquery : outcome (prepare r : GeocoderM (StateM (List String)) PreparedQuery) [] =
      (.ok query, []) := by
    rw [prepare, hprepare]
    rfl
  obtain ⟨phrases, table, htokenize⟩ := exists_outcome_tokenize hlexicon query r.countries
  obtain ⟨roots, hroots⟩ := exists_outcome_roots hlexicon (r.constraints query table) query
    (Lexicon.terms (normalPhrases query))
  rw [termsAsked, plan, outcome_bind_of_ok hquery, interpret, outcome_bind,
    outcome_bind_of_ok htokenize, outcome_bind_of_ok hroots]
  rfl

end Geocoder

/-! ## Queries for a name -/

theorem StructuredQuery.get?_put_self (q : StructuredQuery) {role : PhraseRole}
    (h : role ≠ .untyped) (content : Option String) : (q.put role content).get? role = content := by
  cases role with
  | untyped => exact absurd rfl h
  | _ => rfl

/-- A field is a phrase of the query, other than the one for types of places. -/
theorem PreparedQuery.exists_mem_phrases_ofFields {q : StructuredQuery} {role : PhraseRole}
    {text : String} (h : (role, text) ∈ q.fields) (hrole : role ≠ .amenity) :
    ∃ query, ofFields q = .ok query ∧ (text, role) ∈ query.phrases := by
  have hfields : q.isEmpty = false := List.isEmpty_eq_false_iff.2 (List.ne_nil_of_mem h)
  rw [ofFields, hfields]
  exact ⟨_, rfl, List.mem_map.2 ⟨_, List.mem_filter.2 ⟨h, decide_eq_true hrole⟩, rfl⟩⟩

/-- The query has the name in one of its address fields, or it is the name as a free text that
nothing divides. Commas, brackets and coordinates of a free text are no part of its phrases, and the
content of the field for types of places is none. -/
inductive QueryText.IsName (name : String) : QueryText → Prop
  | field (q : StructuredQuery) {role : PhraseRole} (h : role ≠ .untyped ∧ role ≠ .amenity) :
    IsName name (.structured (q.write role name))
  | text (h : IsPlain name) : IsName name (.free name)

/-- A phrase of the request has the normal form of the text. -/
def SearchRequest.HasPhrase (r : SearchRequest) (text : String) : Prop :=
  ∃ query phrase role, r.prepare = .ok query ∧ (phrase, role) ∈ query.phrases ∧
    normalize phrase = normalize text

/-- A query for a name has it as a phrase, unless nothing is left of it in its normal form. -/
theorem QueryText.IsName.hasPhrase {name : String} {r : SearchRequest} (h : r.query.IsName name)
    (hne : normalize name ≠ "") : r.HasPhrase name := by
  obtain ⟨options, query⟩ := r
  cases h with
  | @field q role h =>
    have hfield : (role, Text.trim name) ∈ (q.write role name).fields := by
      refine StructuredQuery.mem_fields_of_get? ?_
      rw [StructuredQuery.write, StructuredQuery.get?_put_self q h.1, StructuredQuery.content?]
      simp [isEmpty_trim_of_normalize hne]
    obtain ⟨query, hquery, hphrase⟩ := PreparedQuery.exists_mem_phrases_ofFields hfield h.2
    exact ⟨query, Text.trim name, role, hquery, hphrase, normalize_trim name⟩
  | text h =>
    exact ⟨_, Text.trim name, .untyped, PreparedQuery.ofText_of_isPlain h hne,
      List.mem_singleton_self _, normalize_trim name⟩

/-- A request asks for all that its phrases are entered for. -/
theorem SearchRequest.HasPhrase.mem_termsAsked {r : SearchRequest} {name term : String}
    (h : r.HasPhrase name) (hname : Vocabulary.EntersName name term) {v : Vocabulary}
    {g : Geocoder (StateM (List String))} (hlexicon : g.lexicon = v.recordedLexicon) :
    term ∈ g.termsAsked r := by
  obtain ⟨query, phrase, role, hprepare, hphrase, hnormal⟩ := h
  rw [Geocoder.termsAsked_eq hlexicon hprepare, Lexicon.mem_terms]
  have hruns := hname.mem_runs role
  rw [← hnormal] at hruns
  exact ⟨_, List.mem_map_of_mem hphrase, hruns⟩

/-- A text in normal form consists of its words and is its own normal form, and the phrase made of
it has just these words and this text. All that a name is entered for are runs of words of its
phrase, so that every request with this phrase asks for it, in particular a query that is the name.
A phrase for a type of places may be normalized before the lexicon does so. -/
theorem normalForms_hold_and_names_are_asked :
    (∀ text, IsNormalForm (normalize text) (termWords text) ∧
      ∀ role, (Phrase.ofText (normalize text) role).words = termWords text ∧
        (Phrase.ofText (normalize text) role).text = normalize text) ∧
    (∀ name term, Vocabulary.EntersName name term →
      (∀ role, term ∈ (Phrase.ofText (normalize name) role).runs) ∧
      ∀ (v : Vocabulary) (g : Geocoder (StateM (List String))) (r : SearchRequest),
        r.HasPhrase name ∨ r.query.IsName name →
          term ∈ { g with lexicon := v.recordedLexicon }.termsAsked r) ∧
    ∀ (m : Type → Type) [Monad m] (v : Vocabulary) (term : String),
      (v.lexicon : Lexicon m).specialTokens (normalize term) =
        (v.lexicon : Lexicon m).specialTokens term := by
  refine ⟨fun text => ⟨isNormalForm_normalize text, fun role =>
    ⟨Phrase.words_ofText_normalize text role, Phrase.text_ofText_normalize text role⟩⟩,
    fun name term hname => ⟨hname.mem_runs, fun v g r h => ?_⟩, fun m _ v term => ?_⟩
  · have hphrase : r.HasPhrase name :=
      h.elim id fun hquery => hquery.hasPhrase (Vocabulary.entersName_iff.1 hname).1
    exact hphrase.mem_termsAsked hname rfl
  · simp only [Vocabulary.lexicon, normalize_normalize]

/-- A geocoder that knows nothing, with a record of the terms that it asks for. -/
def Geocoder.ignorant : Geocoder (StateM (List String)) :=
  let atlas : Atlas := ⟨[], [], [], []⟩
  { lexicon := Vocabulary.recordedLexicon ⟨[]⟩
    places := atlas.placeIndex
    points := atlas.reverseIndex
    isCancelled := pure false }

/-- The rest of a name behind a mark of its lower case is asked for. -/
theorem restOfIznik_asked :
    Vocabulary.EntersName "İznik" "znik" ∧
    (QueryText.structured (({} : StructuredQuery).write .city "İznik")).IsName "İznik" ∧
    "znik" ∈ Geocoder.ignorant.termsAsked
      (.ofQuery (.structured (({} : StructuredQuery).write .city "İznik"))) := by
  have hname : Vocabulary.EntersName "İznik" "znik" := ⟨none, false, by decide +kernel⟩
  have hquery : (QueryText.structured (({} : StructuredQuery).write .city "İznik")).IsName
      "İznik" := .field {} ⟨by decide, by decide⟩
  exact ⟨hname, hquery, (normalForms_hold_and_names_are_asked.2.1 _ _ hname).2 ⟨[]⟩
    Geocoder.ignorant (.ofQuery _) (Or.inr hquery)⟩

end Geocoding
