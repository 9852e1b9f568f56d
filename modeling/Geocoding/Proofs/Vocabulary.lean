import Geocoding.Proofs.Distinct
import Geocoding.Vocabulary
import Mathlib.Data.List.Basic

/-!
# Vocabularies and token tables: laws

What a gazetteer enters into its vocabulary stays there
(`Vocabulary.exists_entry_of_mem_entriesOf`), and an id belongs to one kind of meaning and one term
(`Vocabulary.id?_injective`). A term that is a whole name has a full word as its first token
(`Vocabulary.tokens_eq_cons`), which it keeps in the table of a query
(`Lexicon.exists_get_complete`).
-/

namespace Geocoding

/-! ## Entering terms -/

namespace Entry

/-- The entry is of the kind and for the term. -/
def IsFor (e : Entry) (kind : MeaningKind) (term : String) : Prop :=
  e.meaning.kind = kind ∧ e.term = term

variable {e : Entry} {kind : MeaningKind} {term : String}

theorem isFor_again (h : e.IsFor kind term) : e.again.IsFor kind term := by
  obtain ⟨rfl, rfl⟩ := h
  rw [again]
  split
  · next isFull n hmeaning =>
    rw [IsFor, hmeaning]
    cases isFull with
    | true => exact ⟨rfl, rfl⟩
    | false => exact ⟨rfl, rfl⟩
  · exact ⟨rfl, rfl⟩

theorem isFor_of_isAlike {f : Entry} (hf : f.isAlike e = true) (he : e.IsFor kind term) :
    f.IsFor kind term := by
  obtain ⟨rfl, rfl⟩ := he
  simpa [isAlike, IsFor] using hf

theorem token_of_fullWord (h : e.meaning.kind = .fullWord) (id : Nat) :
    ∃ n, e.token id = .word ⟨id, e.term, true, n⟩ := by
  obtain ⟨term, meaning⟩ := e
  cases meaning with
  | word isFull n =>
    cases isFull with
    | true => exact ⟨n, rfl⟩
    | false => exact nomatch h
  | country => exact nomatch h
  | postcode => exact nomatch h
  | houseNumber => exact nomatch h
  | phrase => exact nomatch h

end Entry

section

variable {e f : Entry} {entries : List Entry} {kind : MeaningKind} {term : String}

/-- What is entered is there. -/
theorem exists_isFor_enter (he : e.IsFor kind term) : ∃ f ∈ enter e entries, f.IsFor kind term := by
  induction entries with
  | nil => exact ⟨e, List.mem_singleton_self e, he⟩
  | cons f rest ih =>
    rw [enter]
    split
    · next halike =>
      rw [Bool.and_eq_true] at halike
      exact ⟨f.again, List.mem_cons_self,
        Entry.isFor_again (Entry.isFor_of_isAlike halike.1 he)⟩
    · obtain ⟨g, hg, hfor⟩ := ih
      exact ⟨g, List.mem_cons_of_mem _ hg, hfor⟩

/-- What was there stays, possibly counted once more. -/
theorem exists_isFor_enter_of_mem (hf : f ∈ entries) (hfor : f.IsFor kind term) :
    ∃ f ∈ enter e entries, f.IsFor kind term := by
  induction entries with
  | nil => exact nomatch hf
  | cons first rest ih =>
    rw [enter]
    split
    · rcases List.mem_cons.1 hf with rfl | hf
      · exact ⟨f.again, List.mem_cons_self, Entry.isFor_again hfor⟩
      · exact ⟨f, List.mem_cons_of_mem _ hf, hfor⟩
    · rcases List.mem_cons.1 hf with rfl | hf
      · exact ⟨f, List.mem_cons_self, hfor⟩
      · obtain ⟨g, hg, hgfor⟩ := ih hf
        exact ⟨g, List.mem_cons_of_mem _ hg, hgfor⟩

theorem exists_isFor_foldl_enter {new : List Entry} (hfor : f.IsFor kind term)
    (hf : f ∈ entries ∨ f ∈ new) :
    ∃ f ∈ new.foldl (fun entries e => enter e entries) entries, f.IsFor kind term := by
  induction new generalizing entries f with
  | nil =>
    rcases hf with hf | hf
    · exact ⟨f, hf, hfor⟩
    · exact nomatch hf
  | cons e new ih =>
    have hkept (h : ∃ f ∈ enter e entries, f.IsFor kind term) :
        ∃ f ∈ (e :: new).foldl (fun entries e => enter e entries) entries,
          f.IsFor kind term := by
      obtain ⟨f, hf, hfor⟩ := h
      exact ih hfor (Or.inl hf)
    rcases hf with hf | hf
    · exact hkept (exists_isFor_enter_of_mem hf hfor)
    · rcases List.mem_cons.1 hf with rfl | hf
      · exact hkept (exists_isFor_enter hfor)
      · exact ih hfor (Or.inr hf)

end

/-! ## Ids -/

namespace Vocabulary

variable {v : Vocabulary} {kind kind' : MeaningKind} {term term' : String} {id : Nat}

theorem exists_entry_of_mem_entriesOf {g : Gazetteer} {e : Entry} (he : e ∈ entriesOf g)
    (hfor : e.IsFor kind term) : ∃ f ∈ (ofGazetteer g).entries, f.IsFor kind term :=
  exists_isFor_foldl_enter hfor (Or.inr he)

theorem mem_find {e : Entry} :
    (e, id) ∈ v.find kind term ↔ (e, id) ∈ v.numbered ∧ e.IsFor kind term := by
  simp [find, Entry.IsFor]

/-- An id belongs to one entry. -/
theorem eq_of_mem_numbered {e f : Entry} (he : (e, id) ∈ v.numbered) (hf : (f, id) ∈ v.numbered) :
    e = f := by
  rw [numbered, List.mk_mem_zipIdx_iff_le_and_getElem?_sub] at he hf
  exact Option.some.inj (he.2.symm.trans hf.2)

theorem exists_numbered_of_mem {e : Entry} (he : e ∈ v.entries) : ∃ id, (e, id) ∈ v.numbered := by
  obtain ⟨i, hi⟩ := List.mem_iff_getElem?.1 he
  exact ⟨1 + i, List.mk_add_mem_zipIdx_iff_getElem?.2 hi⟩

theorem exists_mem_find_of_id? (h : v.id? kind term = some id) :
    ∃ e rest, v.find kind term = (e, id) :: rest := by
  obtain ⟨⟨e, i⟩, hhead, rfl⟩ := Option.map_eq_some_iff.1 h
  obtain ⟨rest, hrest⟩ := List.head?_eq_some_iff.1 hhead
  exact ⟨e, rest, hrest⟩

theorem exists_id?_of_mem {e : Entry} (he : e ∈ v.entries) (hfor : e.IsFor kind term) :
    ∃ id, v.id? kind term = some id := by
  obtain ⟨id, hid⟩ := exists_numbered_of_mem he
  have hmem : (e, id) ∈ v.find kind term := mem_find.2 ⟨hid, hfor⟩
  obtain ⟨first, rest, hcons⟩ := List.exists_cons_of_ne_nil (List.ne_nil_of_mem hmem)
  exact ⟨first.2, by rw [id?, hcons]; rfl⟩

/-- An id belongs to one kind of meaning and one term. -/
theorem id?_injective (h : v.id? kind term = some id) (h' : v.id? kind' term' = some id) :
    kind = kind' ∧ term = term' := by
  obtain ⟨e, rest, hfind⟩ := exists_mem_find_of_id? h
  obtain ⟨f, rest', hfind'⟩ := exists_mem_find_of_id? h'
  obtain ⟨he, rfl, rfl⟩ := mem_find.1 (hfind ▸ List.mem_cons_self)
  obtain ⟨hf, rfl, rfl⟩ := mem_find.1 (hfind' ▸ List.mem_cons_self)
  rw [eq_of_mem_numbered he hf]
  exact ⟨rfl, rfl⟩

/-- Names have the id of a whole name in common exactly if their normal forms agree. -/
theorem mem_nameTerms_iff {name : String} (h : v.id? .fullWord term = some id) :
    id ∈ v.nameTerms name ↔ normalize name = term := by
  rw [nameTerms, List.mem_append, Option.mem_toList, List.mem_filterMap]
  constructor
  · rintro (hwhole | ⟨word, -, hword⟩)
    · exact (id?_injective hwhole h).2
    · exact nomatch (id?_injective hword h).1
  · rintro rfl
    exact Or.inl h

/-- A term that is a whole name has a full word as its first token. -/
theorem tokens_eq_cons (h : v.id? .fullWord term = some id) :
    ∃ n rest, v.tokens term = .word ⟨id, term, true, n⟩ :: rest := by
  obtain ⟨e, more, hfind⟩ := exists_mem_find_of_id? h
  obtain ⟨-, hkind, rfl⟩ := mem_find.1 (hfind ▸ List.mem_cons_self)
  obtain ⟨n, htoken⟩ := e.token_of_fullWord hkind id
  refine ⟨n, more.map (fun e => e.1.token e.2) ++ [MeaningKind.partialWord, .country, .postcode,
    .houseNumber, .phrase].flatMap (v.tokensOf e.term), ?_⟩
  rw [← htoken, tokens, MeaningKind.all, List.flatMap_cons, tokensOf, hfind]
  rfl

end Vocabulary

/-! ## Token tables -/

namespace TokenTable

variable {table : TokenTable} {term other : String} {token : Token}

theorem lookup_listUnder (entries : List (String × List Token)) :
    ((listUnder term token entries).lookup other).getD [] =
      (entries.lookup other).getD [] ++ if other = term then [token] else [] := by
  induction entries with
  | nil =>
    by_cases h : other = term
    · simp [listUnder, h]
    · simp [listUnder, h, List.lookup_cons, beq_false_of_ne h]
  | cons entry rest ih =>
    obtain ⟨t, tokens⟩ := entry
    rw [listUnder]
    by_cases ht : t = term
    · subst ht
      rw [if_pos rfl, List.lookup_cons, List.lookup_cons]
      by_cases hother : other = t
      · simp [hother]
      · simp [hother, beq_false_of_ne hother]
    · rw [if_neg ht, List.lookup_cons, List.lookup_cons]
      by_cases hother : other = t
      · simp [hother, ht]
      · simpa [beq_false_of_ne hother] using ih

theorem get_add : (table.add term token).get other =
    table.get other ++ if other = term then [token] else [] :=
  lookup_listUnder table.entries

theorem get_foldl_add (pairs : List (String × Token)) :
    (pairs.foldl (fun table (term, token) => table.add term token) table).get other =
      table.get other ++ (pairs.filter (·.1 = other)).map (·.2) := by
  induction pairs generalizing table with
  | nil => simp
  | cons pair pairs ih =>
    obtain ⟨term, token⟩ := pair
    rw [List.foldl_cons, ih, get_add, List.append_assoc]
    by_cases h : other = term
    · simp [h]
    · simp [h, Ne.symm h]

/-- The tokens of a term are those that come with it. -/
theorem get_ofList (pairs : List (String × Token)) :
    (ofList pairs).get other = (pairs.filter (·.1 = other)).map (·.2) := by
  rw [ofList, get_foldl_add]
  rfl

theorem isKnown_of_get {rest : List Token} (h : table.get term = token :: rest) :
    table.isKnown term = true := by
  rw [isKnown, h]
  rfl

/-- Terms that are listed get no other tokens. -/
theorem get_addFallback (h : table.isKnown other = true) :
    (table.addFallback term).get other = table.get other := by
  rw [addFallback]
  split
  · rfl
  · next hnew =>
    split
    · have hne : other ≠ term := by
        rintro rfl
        simp only [contains, isKnown, get, Bool.not_eq_true, Option.isSome_eq_false_iff,
          Option.isNone_iff_eq_none] at hnew h
        simp [hnew] at h
      rw [get_add, if_neg hne, List.append_nil]
    · rfl

theorem get_addFallbacks (h : table.isKnown other = true) (terms : List String) :
    (table.addFallbacks terms).get other = table.get other := by
  induction terms generalizing table with
  | nil => rfl
  | cons term terms ih =>
    have hget : (table.addFallback term).get other = table.get other := get_addFallback h
    have hknown : (table.addFallback term).isKnown other = true := by
      rw [isKnown, hget]
      exact h
    exact (ih hknown).trans hget

end TokenTable

namespace Vocabulary

/-- In the table of some terms, the tokens of each of them come first. -/
theorem exists_get_table (v : Vocabulary) {terms : List String} {term : String}
    (h : term ∈ terms) : ∃ rest, (v.table terms).get term = v.tokens term ++ rest := by
  have hget : (v.table terms).get term =
      terms.flatMap fun other => if other = term then v.tokens term else [] := by
    rw [table, TokenTable.get_ofList, List.filter_flatMap, List.map_flatMap]
    congr 1
    funext other
    by_cases hother : other = term
    · simp [hother, List.filter_map, Function.comp_def]
    · simp [hother, List.filter_map, Function.comp_def]
  rw [hget]
  clear hget
  induction terms with
  | nil => exact nomatch h
  | cons other terms ih =>
    rw [List.flatMap_cons]
    by_cases hother : other = term
    · exact ⟨_, by rw [if_pos hother]⟩
    · rw [if_neg hother, List.nil_append]
      exact ih ((List.mem_cons.1 h).resolve_left (Ne.symm hother))

end Vocabulary

namespace Lexicon

/-- Completing a table keeps the first token of a term. -/
theorem exists_get_complete {v : Vocabulary} {terms : List String} {term : String} {token : Token}
    {rest : List Token} (hterm : term ∈ terms) (htokens : v.tokens term = token :: rest) :
    ∃ rest, (complete (v.table terms) terms []).get term = token :: rest := by
  obtain ⟨more, hget⟩ := v.exists_get_table hterm
  rw [htokens, List.cons_append] at hget
  refine ⟨rest ++ more, ?_⟩
  rw [complete, TokenTable.retainCountries, if_pos List.isEmpty_nil,
    TokenTable.get_addFallbacks (TokenTable.isKnown_of_get hget), hget]

end Lexicon

end Geocoding
