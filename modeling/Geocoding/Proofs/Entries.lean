import Geocoding.Proofs.Vocabulary
import Mathlib.Logic.Function.Iterate

/-!
# Entering terms one after another

Entering a term touches only the entries of its kind for the term (`filter_enter`). So what a
vocabulary has for a term in one of its meanings depends on what is entered for just that, in order
(`Vocabulary.filter_entries`). Words are counted and phrases are all kept; of countries, postcodes
and house numbers the first one stays as it is (`Vocabulary.filter_entries_eq_toList`).

A place is entered for words, for its house number, and for the countries it is named for
(`PlaceRecord.namesCountry`, `Vocabulary.meaning_of_mem_placeEntries`).
-/

namespace Geocoding

instance (e : Entry) (kind : MeaningKind) (term : String) : Decidable (e.IsFor kind term) :=
  inferInstanceAs (Decidable (_ ∧ _))

variable {kind : MeaningKind} {term : String}

theorem Entry.isFor_again_iff {e : Entry} : e.again.IsFor kind term ↔ e.IsFor kind term := by
  obtain ⟨hkind, hterm⟩ := Entry.isFor_again (⟨rfl, rfl⟩ : e.IsFor e.meaning.kind e.term)
  unfold IsFor
  rw [hkind, hterm]

theorem Entry.isFor_iff_of_isAlike {e f : Entry} (h : f.isAlike e = true) :
    f.IsFor kind term ↔ e.IsFor kind term := by
  obtain ⟨hkind, hterm⟩ := Entry.isFor_of_isAlike h ⟨rfl, rfl⟩
  unfold IsFor
  rw [hkind, hterm]

/-- Entering a term leaves alone the entries of other kinds and for other terms. -/
theorem filter_enter (e : Entry) (entries : List Entry) :
    (enter e entries).filter (·.IsFor kind term) =
      if e.IsFor kind term then enter e (entries.filter (·.IsFor kind term))
      else entries.filter (·.IsFor kind term) := by
  induction entries with
  | nil =>
    by_cases he : e.IsFor kind term
    · simp [enter, he]
    · simp [enter, he]
  | cons f rest ih =>
    by_cases hsame : (f.isAlike e && e.meaning.kind ≠ .phrase) = true
    · have hcons (xs : List Entry) : enter e (f :: xs) = f.again :: xs := by
        rw [enter, if_pos hsame]
      have hiff : f.IsFor kind term ↔ e.IsFor kind term :=
        Entry.isFor_iff_of_isAlike (Bool.and_eq_true _ _ ▸ hsame).1
      rw [hcons, List.filter_cons, List.filter_cons]
      by_cases he : e.IsFor kind term
      · simp [Entry.isFor_again_iff, hiff, he, hcons]
      · simp [Entry.isFor_again_iff, hiff, he]
    · have hcons (xs : List Entry) : enter e (f :: xs) = f :: enter e xs := by
        rw [enter, if_neg hsame]
      rw [hcons, List.filter_cons, List.filter_cons, ih]
      by_cases hf : f.IsFor kind term
      · by_cases he : e.IsFor kind term
        · simp [hf, he, hcons]
        · simp [hf, he]
      · simp [hf]

theorem filter_foldl_enter (new entries : List Entry) :
    (new.foldl (fun entries e => enter e entries) entries).filter (·.IsFor kind term) =
      (new.filter (·.IsFor kind term)).foldl (fun entries e => enter e entries)
        (entries.filter (·.IsFor kind term)) := by
  induction new generalizing entries with
  | nil => rfl
  | cons e new ih =>
    rw [List.foldl_cons, ih, filter_enter, List.filter_cons]
    by_cases he : e.IsFor kind term
    · simp [he]
    · simp [he]

/-- A kind of which a term has one meaning, the one that is entered first. -/
def MeaningKind.keepsFirst : MeaningKind → Bool
  | country | postcode | houseNumber => true
  | fullWord | partialWord | phrase => false

theorem Entry.again_eq_self {e : Entry} (h : e.meaning.kind.keepsFirst = true) : e.again = e := by
  obtain ⟨term, meaning⟩ := e
  cases meaning with
  | word isFull n =>
    cases isFull with
    | true => exact nomatch h
    | false => exact nomatch h
  | country => rfl
  | postcode => rfl
  | houseNumber => rfl
  | phrase => rfl

/-- What is registered again and again, phrases apart, has one entry that is counted each time. -/
theorem foldl_enter_eq_iterate {e : Entry} {rest : List Entry} (hkind : kind ≠ .phrase)
    (he : e.IsFor kind term) (hrest : ∀ f ∈ rest, f.IsFor kind term) :
    rest.foldl (fun entries e => enter e entries) [e] = [Entry.again^[rest.length] e] := by
  induction rest generalizing e with
  | nil => rfl
  | cons f rest ih =>
    obtain ⟨hf, hrest⟩ := List.forall_mem_cons.1 hrest
    have halike : (e.isAlike f && f.meaning.kind ≠ .phrase) = true := by
      simp [Entry.isAlike, he.1, he.2, hf.1, hf.2, hkind]
    rw [List.foldl_cons, enter, if_pos halike, ih (Entry.isFor_again he) hrest, List.length_cons,
      Function.iterate_succ_apply]

/-- Of meanings that a term has only once, the first one stays. -/
theorem foldl_enter_eq_singleton {e : Entry} {rest : List Entry} (hkind : kind.keepsFirst = true)
    (he : e.IsFor kind term) (hrest : ∀ f ∈ rest, f.IsFor kind term) :
    rest.foldl (fun entries e => enter e entries) [e] = [e] := by
  have hphrase : kind ≠ .phrase := by
    rintro rfl
    exact nomatch hkind
  have hagain : e.again = e := Entry.again_eq_self (he.1 ▸ hkind)
  rw [foldl_enter_eq_iterate hphrase he hrest, Function.iterate_fixed hagain]

/-- Under the term, the place stands for the country of the code: the term is one of its names, or
its country code if it has a name. Country codes count in lower case. -/
def PlaceRecord.namesCountry (p : PlaceRecord) (term code : String) : Prop :=
  p.addressRank = 4 ∧ ∃ raw, p.country = some raw ∧ Text.lower raw = code ∧
    ∃ name ∈ p.names, normalize name ≠ "" ∧ (term = normalize name ∨ term = normalize raw)

namespace Vocabulary

/-! ## What places are entered for -/

variable {e : Entry}

/-- A name is entered as a word, or as the country that it is a name of. -/
theorem meaning_of_mem_nameEntries {country : Option String} {name : String}
    (h : e ∈ nameEntries country name) :
    e.meaning = .word true 1 ∨ e.meaning = .word false 1 ∨
      normalize name ≠ "" ∧ ∃ raw, country = some raw ∧ e.meaning = .country (Text.lower raw) ∧
        (e.term = normalize name ∨ e.term = normalize raw) := by
  unfold nameEntries at h
  by_cases hempty : (normalize name).isEmpty = true
  · rw [if_pos hempty] at h
    exact nomatch h
  · rw [if_neg hempty, List.cons_append, List.mem_cons, List.mem_append] at h
    rcases h with rfl | hword | hcountry
    · exact Or.inl rfl
    · obtain ⟨word, -, rfl⟩ := List.mem_map.1 hword
      exact Or.inr (Or.inl rfl)
    · cases country with
      | none => exact nomatch hcountry
      | some raw =>
        have hne : normalize name ≠ "" := by simpa using hempty
        rcases List.mem_pair.1 hcountry with rfl | rfl
        · exact Or.inr (Or.inr ⟨hne, raw, rfl, rfl, Or.inl rfl⟩)
        · exact Or.inr (Or.inr ⟨hne, raw, rfl, rfl, Or.inr rfl⟩)

/-- A place is entered for words and house numbers, and for the countries that it is named for. -/
theorem meaning_of_mem_placeEntries {p : PlaceRecord} (h : e ∈ placeEntries p) :
    e.meaning = .word true 1 ∨ e.meaning = .word false 1 ∨ e.meaning = .houseNumber ∨
      ∃ code, e.meaning = .country code ∧ p.namesCountry e.term code := by
  unfold placeEntries at h
  rw [List.mem_append, List.mem_flatMap] at h
  rcases h with ⟨name, hname, h⟩ | h
  · rcases meaning_of_mem_nameEntries h with hword | hword | ⟨hne, raw, hraw, hcountry, hterm⟩
    · exact Or.inl hword
    · exact Or.inr (Or.inl hword)
    · obtain ⟨hcode, hrank⟩ := Option.filter_eq_some_iff.1 hraw
      exact Or.inr (Or.inr (Or.inr ⟨_, hcountry, of_decide_eq_true hrank, raw, hcode, rfl, name,
        hname, hne, hterm⟩))
  · split at h
    · split at h
      · exact nomatch h
      · rw [List.mem_singleton.1 h]
        exact Or.inr (Or.inr (Or.inl rfl))
    · exact nomatch h

theorem mem_placeEntries_country_iff {p : PlaceRecord} {code : String} :
    ⟨term, .country code⟩ ∈ placeEntries p ↔ p.namesCountry term code := by
  constructor
  · intro h
    rcases meaning_of_mem_placeEntries h with h | h | h | ⟨code', h, hnames⟩
    · exact nomatch h
    · exact nomatch h
    · exact nomatch h
    · obtain rfl := Meaning.country.inj h
      exact hnames
  · rintro ⟨hrank, raw, hraw, rfl, name, hname, hne, hterm⟩
    have hcountry : p.country.filter (fun _ => p.addressRank = 4) = some raw :=
      Option.filter_eq_some_iff.2 ⟨hraw, decide_eq_true hrank⟩
    refine List.mem_append_left _ (List.mem_flatMap.2 ⟨name, hname, ?_⟩)
    rw [hcountry, nameEntries, if_neg (by simpa using hne)]
    refine List.mem_append_right _ (List.mem_pair.2 ?_)
    rcases hterm with rfl | rfl
    · exact Or.inl rfl
    · exact Or.inr rfl

/-! ## What becomes of the entries -/

/-- The entries of a kind for a term are made of what is entered for just that. -/
theorem filter_entries (g : Gazetteer) :
    (ofGazetteer g).entries.filter (·.IsFor kind term) =
      ((entriesOf g).filter (·.IsFor kind term)).foldl (fun entries e => enter e entries) [] :=
  filter_foldl_enter (entriesOf g) []

/-- A term has the country, the postcode and the house number that are entered for it first. -/
theorem filter_entries_eq_toList (g : Gazetteer) (hkind : kind.keepsFirst = true) :
    (ofGazetteer g).entries.filter (·.IsFor kind term) =
      ((entriesOf g).find? (·.IsFor kind term)).toList := by
  rw [filter_entries, ← List.head?_filter]
  have hall : ∀ f ∈ (entriesOf g).filter (·.IsFor kind term), f.IsFor kind term :=
    fun f hf => of_decide_eq_true (List.mem_filter.1 hf).2
  cases hnew : (entriesOf g).filter (·.IsFor kind term) with
  | nil => rfl
  | cons e rest =>
    obtain ⟨he, hrest⟩ := List.forall_mem_cons.1 (hnew ▸ hall)
    exact foldl_enter_eq_singleton hkind he hrest

theorem map_fst_find (v : Vocabulary) (kind : MeaningKind) (term : String) :
    (v.find kind term).map (·.1) = v.entries.filter (·.IsFor kind term) := by
  have hentries : v.entries = v.numbered.map (·.1) := (List.zipIdx_map_fst 1 v.entries).symm
  rw [hentries, List.filter_map, find]
  congr 2
  funext x
  exact (Bool.decide_and _ _).symm

end Vocabulary

/-! ## Tokens of one kind -/

/-- The letter of the tokens of a kind of meanings. -/
def MeaningKind.letter : MeaningKind → Char
  | fullWord => 'W'
  | partialWord => 'w'
  | country => 'C'
  | postcode => 'P'
  | houseNumber => 'H'
  | phrase => 'S'

theorem Entry.letter_token (e : Entry) (id : Nat) :
    (e.token id).letter = e.meaning.kind.letter := by
  obtain ⟨term, meaning⟩ := e
  cases meaning with
  | word isFull n =>
    cases isFull with
    | true => rfl
    | false => rfl
  | country => rfl
  | postcode => rfl
  | houseNumber => rfl
  | phrase => rfl

namespace Vocabulary

variable {v : Vocabulary} {t : Token}

theorem mem_tokensOf_iff : t ∈ v.tokensOf term kind ↔
    ∃ e id, (e, id) ∈ v.find kind term ∧ e.token id = t := by
  simp [tokensOf]

theorem letter_of_mem_tokensOf (h : t ∈ v.tokensOf term kind) : t.letter = kind.letter := by
  obtain ⟨e, id, he, rfl⟩ := mem_tokensOf_iff.1 h
  rw [Entry.letter_token, (mem_find.1 he).2.1]

/-- The letter tells the tokens of one kind from the other tokens of a term. -/
theorem filter_letter_tokens (v : Vocabulary) (term : String) (kind : MeaningKind) :
    (v.tokens term).filter (·.letter = kind.letter) = v.tokensOf term kind := by
  have hof (k : MeaningKind) : (v.tokensOf term k).filter (·.letter = kind.letter) =
      if k.letter = kind.letter then v.tokensOf term k else [] := by
    split
    · next h =>
      exact List.filter_eq_self.2 fun t ht => decide_eq_true ((letter_of_mem_tokensOf ht).trans h)
    · next h =>
      refine List.filter_eq_nil_iff.2 fun t ht hletter => h ?_
      rw [← letter_of_mem_tokensOf ht]
      exact of_decide_eq_true hletter
  rw [tokens, List.filter_flatMap]
  simp only [hof]
  cases kind <;> simp [MeaningKind.all, MeaningKind.letter]

end Vocabulary

end Geocoding
