import Geocoding.Proofs.Numbering
import Geocoding.Proofs.Text

/-!
# Registering terms in a vocabulary

A vocabulary comes about by registering terms one after another (`Vocabulary.register`). A term that
is new in one of its meanings gets the next id, and nothing else changes an id
(`Vocabulary.ids_register`). So a term keeps the id of its first registration
(`Vocabulary.head?_ids_ofEntries`). Words are counted: a whole name as often as it is the normal
form of a name, and a word once for each name with that word (`Vocabulary.countP_entriesOf`).
-/

namespace Geocoding

namespace Vocabulary

/-! ## Registering terms -/

/-- The vocabulary after one more registration. -/
def register (v : Vocabulary) (e : Entry) : Vocabulary :=
  ⟨enter e v.entries⟩

/-- The vocabulary after some registrations in order. -/
def ofEntries (new : List Entry) : Vocabulary :=
  new.foldl register ⟨[]⟩

/-- The id for the next entry. -/
def nextId (v : Vocabulary) : Nat :=
  v.entries.length + 1

/-- The ids of a term in one of its meanings, in the order in which they were handed out. -/
def ids (v : Vocabulary) (kind : MeaningKind) (term : String) : List Nat :=
  (v.find kind term).map (·.2)

/-- The registration is for something new: for a phrase, or for a term that has no id yet in its
meaning. -/
def IsNew (v : Vocabulary) (e : Entry) : Prop :=
  e.meaning.kind = .phrase ∨ v.ids e.meaning.kind e.term = []

instance (v : Vocabulary) (e : Entry) : Decidable (v.IsNew e) :=
  inferInstanceAs (Decidable (_ ∨ _))

variable {v : Vocabulary} {e : Entry} {kind kind' : MeaningKind} {term term' : String} {id : Nat}

theorem entries_ofEntries (new : List Entry) :
    (ofEntries new).entries = new.foldl (fun entries e => enter e entries) [] :=
  (List.foldl_hom Vocabulary.entries fun _ _ => rfl).symm

theorem ofGazetteer_eq (g : Gazetteer) : ofGazetteer g = ofEntries (entriesOf g) := by
  rw [ofGazetteer, ← entries_ofEntries]

theorem ofEntries_append (first more : List Entry) :
    ofEntries (first ++ more) = more.foldl register (ofEntries first) :=
  List.foldl_append

/-! ## What ids are for -/

/-- The meanings and terms that have ids, in the order of the ids. -/
def keys (v : Vocabulary) : List (MeaningKind × String) :=
  v.entries.map keyOf

theorem keyOf_eq_iff : keyOf e = (kind, term) ↔ e.IsFor kind term :=
  Prod.ext_iff

/-- The id is the place among the keys, counted from one. -/
theorem mem_ids_iff : id ∈ v.ids kind term ↔ 1 ≤ id ∧ v.keys[id - 1]? = some (kind, term) := by
  simp only [ids, List.mem_map, Prod.exists, exists_eq_right, mem_find, numbered,
    List.mk_mem_zipIdx_iff_le_and_getElem?_sub, keys, List.getElem?_map, Option.map_eq_some_iff,
    keyOf_eq_iff]
  constructor
  · rintro ⟨e, ⟨hle, he⟩, hfor⟩
    exact ⟨hle, e, he, hfor⟩
  · rintro ⟨hle, e, he, hfor⟩
    exact ⟨e, ⟨hle, he⟩, hfor⟩

theorem ids_eq_nil_iff : v.ids kind term = [] ↔ (kind, term) ∉ v.keys := by
  rw [List.eq_nil_iff_forall_not_mem, List.mem_iff_getElem?]
  simp only [mem_ids_iff, not_and, not_exists]
  refine ⟨fun h i => ?_, fun h id _ => h (id - 1)⟩
  simpa using h (i + 1) (Nat.succ_le_succ (Nat.zero_le i))

theorem ids_eq (v : Vocabulary) (kind : MeaningKind) (term : String) :
    v.ids kind term = ((v.keys.zipIdx 1).filter (·.1 = (kind, term))).map (·.2) := by
  rw [keys, List.zipIdx_map, List.filter_map, List.map_map, ids, ← numberedOf_keyOf, numberedOf]
  rfl

theorem nextId_eq (v : Vocabulary) : v.nextId = v.keys.length + 1 := by
  rw [nextId, keys, List.length_map]

/-- Entering a term adds a key if the term is new, and leaves the keys alone otherwise. -/
theorem map_keyOf_enter (e : Entry) (entries : List Entry) :
    (enter e entries).map keyOf =
      if e.meaning.kind = .phrase ∨ keyOf e ∉ entries.map keyOf then
        entries.map keyOf ++ [keyOf e]
      else entries.map keyOf := by
  induction entries with
  | nil => simp [enter]
  | cons f rest ih =>
    by_cases hsame : (f.isAlike e && e.meaning.kind ≠ .phrase) = true
    · obtain ⟨halike, hkind⟩ := Bool.and_eq_true_iff.1 hsame
      have hfor : f.IsFor e.meaning.kind e.term := Entry.isFor_of_isAlike halike ⟨rfl, rfl⟩
      have hkey : keyOf f = keyOf e := keyOf_eq_iff.2 hfor
      have hagain : keyOf f.again = keyOf e := keyOf_eq_iff.2 (Entry.isFor_again hfor)
      have hphrase : e.meaning.kind ≠ .phrase := of_decide_eq_true hkind
      rw [enter, if_pos hsame, List.map_cons, List.map_cons, hagain, hkey,
        if_neg (by simp [hphrase])]
    · have hiff : (e.meaning.kind = .phrase ∨ keyOf e ∉ keyOf f :: rest.map keyOf) ↔
          (e.meaning.kind = .phrase ∨ keyOf e ∉ rest.map keyOf) := by
        refine or_congr_right' fun hphrase => ?_
        have hne : keyOf e ≠ keyOf f := by
          intro hkey
          obtain ⟨hkind, hterm⟩ := keyOf_eq_iff.1 hkey.symm
          exact hsame (by simp [Entry.isAlike, hkind, hterm, hphrase])
        simp [hne]
      rw [enter, if_neg hsame, List.map_cons, ih, List.map_cons]
      simp only [hiff]
      split
      · rfl
      · rfl

/-- A registration of something new takes the next id, and any other one changes no id. -/
theorem keys_register (v : Vocabulary) (e : Entry) :
    (v.register e).keys = if v.IsNew e then v.keys ++ [keyOf e] else v.keys := by
  have hnew : v.IsNew e ↔ e.meaning.kind = .phrase ∨ keyOf e ∉ v.keys := by
    rw [IsNew, ids_eq_nil_iff, keyOf]
  simp only [hnew]
  exact map_keyOf_enter e v.entries

theorem nextId_register (v : Vocabulary) (e : Entry) :
    (v.register e).nextId = if v.IsNew e then v.nextId + 1 else v.nextId := by
  rw [nextId_eq, nextId_eq, keys_register]
  split
  · rw [List.length_append, List.length_singleton]
  · rfl

/-- Something new gets the next id, and no other id changes. -/
theorem ids_register (v : Vocabulary) (e : Entry) (kind : MeaningKind) (term : String) :
    (v.register e).ids kind term =
      if v.IsNew e ∧ e.IsFor kind term then v.ids kind term ++ [v.nextId]
      else v.ids kind term := by
  rw [ids_eq, ids_eq, keys_register, nextId_eq, Nat.add_comm]
  by_cases hnew : v.IsNew e
  · rw [if_pos hnew, List.zipIdx_append, List.filter_append, List.map_append]
    by_cases hfor : e.IsFor kind term
    · simp [hnew, hfor, keyOf_eq_iff.2 hfor]
    · simp [hfor, mt keyOf_eq_iff.1 hfor]
  · simp [hnew]

/-- Later registrations leave the ids of a term as they are. -/
theorem ids_prefix_foldl (v : Vocabulary) (new : List Entry) (kind : MeaningKind) (term : String) :
    v.ids kind term <+: (new.foldl register v).ids kind term := by
  induction new generalizing v with
  | nil => exact List.prefix_refl _
  | cons e new ih =>
    refine List.IsPrefix.trans ?_ (ih (v.register e))
    rw [ids_register]
    split
    · exact List.prefix_append _ _
    · exact List.prefix_refl _

theorem ids_prefix (first more : List Entry) (kind : MeaningKind) (term : String) :
    (ofEntries first).ids kind term <+: (ofEntries (first ++ more)).ids kind term := by
  rw [ofEntries_append]
  exact ids_prefix_foldl _ more kind term

/-! ## How often terms are registered -/

theorem enter_of_phrase (he : e.meaning.kind = .phrase) (entries : List Entry) :
    enter e entries = entries ++ [e] := by
  induction entries with
  | nil => rfl
  | cons f rest ih => simp [enter, he, ih]

/-- Each phrase that is registered has an entry of its own. -/
theorem foldl_enter_phrases {new : List Entry} (hnew : ∀ e ∈ new, e.meaning.kind = .phrase)
    (entries : List Entry) :
    new.foldl (fun entries e => enter e entries) entries = entries ++ new := by
  induction new generalizing entries with
  | nil => rw [List.foldl_nil, List.append_nil]
  | cons e new ih =>
    obtain ⟨he, hnew⟩ := List.forall_mem_cons.1 hnew
    rw [List.foldl_cons, enter_of_phrase he, ih hnew, List.append_assoc, List.singleton_append]

theorem filter_entries_ofEntries (new : List Entry) :
    (ofEntries new).entries.filter (·.IsFor kind term) =
      (new.filter (·.IsFor kind term)).foldl (fun entries e => enter e entries) [] := by
  rw [entries_ofEntries, filter_foldl_enter, List.filter_nil]

theorem isFor_of_mem_filter {entries : List Entry} :
    ∀ f ∈ entries.filter (·.IsFor kind term), f.IsFor kind term :=
  fun _ hf => of_decide_eq_true (List.mem_filter.1 hf).2

theorem length_ids (v : Vocabulary) (kind : MeaningKind) (term : String) :
    (v.ids kind term).length = (v.entries.filter (·.IsFor kind term)).length := by
  rw [ids, List.length_map, ← map_fst_find, List.length_map]

theorem length_ids_of_ne_phrase (new : List Entry) (hkind : kind ≠ .phrase) :
    ((ofEntries new).ids kind term).length = if ∃ e ∈ new, e.IsFor kind term then 1 else 0 := by
  have hregistered : (∃ e ∈ new, e.IsFor kind term) ↔ new.filter (·.IsFor kind term) ≠ [] := by
    simp [List.filter_eq_nil_iff]
  rw [length_ids, filter_entries_ofEntries]
  simp only [hregistered]
  have hall : ∀ f ∈ new.filter (·.IsFor kind term), f.IsFor kind term := isFor_of_mem_filter
  cases hnew : new.filter (·.IsFor kind term) with
  | nil => simp
  | cons e rest =>
    obtain ⟨he, hrest⟩ := List.forall_mem_cons.1 (hnew ▸ hall)
    rw [List.foldl_cons, enter, foldl_enter_eq_iterate hkind he hrest, if_pos (by simp)]
    rfl

theorem length_ids_phrase (new : List Entry) :
    ((ofEntries new).ids .phrase term).length = new.countP (·.IsFor .phrase term) := by
  have hphrases : ∀ e ∈ new.filter (·.IsFor .phrase term), e.meaning.kind = .phrase :=
    fun e he => (isFor_of_mem_filter e he).1
  rw [length_ids, filter_entries_ofEntries, foldl_enter_phrases hphrases, List.nil_append,
    List.countP_eq_length_filter]

/-- A term has no id in a meaning that was never registered. -/
theorem ids_ofEntries_eq_nil_iff {new : List Entry} :
    (ofEntries new).ids kind term = [] ↔ ∀ e ∈ new, ¬ e.IsFor kind term := by
  rw [← List.length_eq_zero_iff]
  by_cases hkind : kind = .phrase
  · subst hkind
    rw [length_ids_phrase, List.countP_eq_zero]
    simp
  · rw [length_ids_of_ne_phrase new hkind]
    simp

/-- The first id of a term is the one that was the next when the term was registered first. -/
theorem head?_ids_ofEntries {before : List Entry}
    (hbefore : ∀ f ∈ before, ¬ f.IsFor e.meaning.kind e.term) (after : List Entry) :
    ((ofEntries (before ++ e :: after)).ids e.meaning.kind e.term).head? =
      some (ofEntries before).nextId := by
  have hnone := ids_ofEntries_eq_nil_iff.2 hbefore
  have hfirst : (ofEntries (before ++ [e])).ids e.meaning.kind e.term =
      [(ofEntries before).nextId] := by
    rw [ofEntries_append, List.foldl_cons, List.foldl_nil, ids_register,
      if_pos ⟨Or.inr hnone, rfl, rfl⟩, hnone, List.nil_append]
  obtain ⟨later, hlater⟩ := ids_prefix (before ++ [e]) after e.meaning.kind e.term
  rw [List.append_assoc, List.singleton_append] at hlater
  rw [← hlater, hfirst, List.singleton_append, List.head?_cons]

/-! ## What a registration changes -/

theorem find_eq_zip (v : Vocabulary) (kind : MeaningKind) (term : String) :
    v.find kind term = (v.entries.filter (·.IsFor kind term)).zip (v.ids kind term) :=
  List.zip_of_prod (map_fst_find v kind term) rfl

theorem find_register_of_not_isFor (h : ¬ e.IsFor kind term) :
    (v.register e).find kind term = v.find kind term := by
  rw [find_eq_zip, find_eq_zip, ids_register, if_neg fun hnew => h hnew.2, register, filter_enter,
    if_neg h]

/-- Something new comes last, under the next id. -/
theorem find_register_of_isNew (h : v.IsNew e) :
    (v.register e).find e.meaning.kind e.term =
      v.find e.meaning.kind e.term ++ [(e, v.nextId)] := by
  have hlast : enter e (v.entries.filter (·.IsFor e.meaning.kind e.term)) =
      v.entries.filter (·.IsFor e.meaning.kind e.term) ++ [e] := by
    rcases h with hphrase | hnone
    · exact enter_of_phrase hphrase _
    · have hnil : v.entries.filter (·.IsFor e.meaning.kind e.term) = [] := by
        rw [← List.length_eq_zero_iff, ← length_ids, hnone]
        rfl
      rw [hnil]
      rfl
  rw [find_eq_zip, find_eq_zip, ids_register, if_pos ⟨h, rfl, rfl⟩, register, filter_enter,
    if_pos ⟨rfl, rfl⟩, hlast, List.zip_append (length_ids v _ _).symm]
  rfl

/-- What is not new counts once more, under its id. -/
theorem find_register_of_not_isNew (h : ¬ v.IsNew e) {f : Entry} {rest : List (Entry × Nat)}
    (hfind : v.find e.meaning.kind e.term = (f, id) :: rest) :
    (v.register e).find e.meaning.kind e.term = (f.again, id) :: rest := by
  have hids : v.ids e.meaning.kind e.term = id :: rest.map (·.2) := by rw [ids, hfind]; rfl
  have hentries : v.entries.filter (·.IsFor e.meaning.kind e.term) = f :: rest.map (·.1) := by
    rw [← map_fst_find, hfind]
    rfl
  have hfor : f.IsFor e.meaning.kind e.term := (mem_find.1 (hfind ▸ List.mem_cons_self)).2
  have hkind : e.meaning.kind ≠ .phrase := fun hphrase => h (Or.inl hphrase)
  have halike : (f.isAlike e && e.meaning.kind ≠ .phrase) = true := by
    simp [Entry.isAlike, hfor.1, hfor.2, hkind]
  have hrest : rest = (rest.map (·.1)).zip (rest.map (·.2)) := List.zip_of_prod rfl rfl
  rw [find_eq_zip, ids_register, if_neg fun hnew => h hnew.1, register, filter_enter,
    if_pos ⟨rfl, rfl⟩, hentries, enter, if_pos halike, hids, List.zip_cons_cons, ← hrest]

/-! ## Counting names -/

/-- The entry of a word that is counted, if it is at all. -/
def countedWord (isFull : Bool) (term : String) (n : Nat) : List Entry :=
  if n = 0 then [] else [⟨term, .word isFull n⟩]

theorem iterate_again (term : String) (isFull : Bool) (m n : Nat) :
    Entry.again^[n] ⟨term, .word isFull m⟩ = ⟨term, .word isFull (m + n)⟩ := by
  induction n generalizing m with
  | zero => rfl
  | succ n ih =>
    rw [Function.iterate_succ_apply]
    exact (ih (m + 1)).trans (by rw [Nat.add_right_comm, Nat.add_assoc])

/-- Registering a word some times counts it as often. -/
theorem foldl_enter_replicate (term : String) (isFull : Bool) (n : Nat) :
    (List.replicate n (⟨term, .word isFull 1⟩ : Entry)).foldl (fun entries e => enter e entries)
      [] = countedWord isFull term n := by
  cases n with
  | zero => rfl
  | succ n =>
    have hkind : (Meaning.word isFull 1).kind ≠ .phrase := by cases isFull <;> decide
    have hall : ∀ f ∈ List.replicate n (⟨term, .word isFull 1⟩ : Entry),
        f.IsFor (Meaning.word isFull 1).kind term := by
      intro f hf
      rw [List.eq_of_mem_replicate hf]
      exact ⟨rfl, rfl⟩
    rw [List.replicate_succ, List.foldl_cons, enter, foldl_enter_eq_iterate hkind ⟨rfl, rfl⟩ hall,
      List.length_replicate, iterate_again, countedWord, if_neg (Nat.succ_ne_zero n),
      Nat.add_comm]

theorem isFor_mk_iff {meaning : Meaning} :
    (⟨term', meaning⟩ : Entry).IsFor kind term ↔ meaning.kind = kind ∧ term' = term :=
  Iff.rfl

/-- The country that a name is one of adds no words. -/
theorem countP_nameEntries_none (country : Option String) (name : String)
    (hkind : kind ≠ .country) : (nameEntries country name).countP (·.IsFor kind term) =
      (nameEntries none name).countP (·.IsFor kind term) := by
  cases country with
  | none => rfl
  | some code =>
    by_cases hempty : normalize name = ""
    · simp [nameEntries, hempty]
    · simp [nameEntries, hempty, List.countP_append, List.countP_cons, isFor_mk_iff, Meaning.kind,
        Ne.symm hkind]

/-- A name is registered as a whole if anything is left of it in its normal form. -/
theorem countP_nameEntries_fullWord (country : Option String) (name : String) :
    (nameEntries country name).countP (·.IsFor .fullWord term) =
      if (normalize name = term && term ≠ "") = true then 1 else 0 := by
  rw [countP_nameEntries_none country name (by decide), nameEntries]
  have hwords : ((distinctBy id (termWords name)).map
      (⟨·, .word false 1⟩ : String → Entry)).countP (·.IsFor .fullWord term) = 0 := by
    simp [List.countP_eq_zero, isFor_mk_iff, Meaning.kind]
  by_cases hempty : normalize name = ""
  · by_cases hterm : term = ""
    · simp [hempty, hterm]
    · simp [hempty, Ne.symm hterm]
  · by_cases hname : normalize name = term
    · simp [hwords, isFor_mk_iff, Meaning.kind, hname, hname ▸ hempty]
    · simp [hwords, hempty, isFor_mk_iff, Meaning.kind, hname]

/-- A name is registered once for each of its words. -/
theorem countP_nameEntries_partialWord (country : Option String) (name : String) :
    (nameEntries country name).countP (·.IsFor .partialWord term) =
      if decide (term ∈ Text.words (normalize name)) = true then 1 else 0 := by
  rw [countP_nameEntries_none country name (by decide), nameEntries, words_normalize]
  by_cases hempty : normalize name = ""
  · have hnone : termWords name = [] := by
      rw [← words_normalize, hempty]
      rfl
    simp [hempty, hnone]
  · have hwords : (((distinctBy id (termWords name)).map
        (⟨·, .word false 1⟩ : String → Entry)).countP (·.IsFor .partialWord term)) =
          (distinctBy id (termWords name)).count term := by
      rw [List.countP_map, List.count]
      refine List.countP_congr fun word _ => ?_
      simp [isFor_mk_iff, Meaning.kind]
    have hnodup := nodup_map_distinctBy id (termWords name)
    rw [List.map_id] at hnodup
    simp [hempty, hwords, hnodup.count, mem_distinctBy_id, isFor_mk_iff, Meaning.kind]

/-- Of a place only the names are registered as words. -/
theorem countP_placeEntries {counts : String → Bool} (hnumber : kind ≠ .houseNumber)
    (hname : ∀ country name, (nameEntries country name).countP (·.IsFor kind term) =
      if counts name = true then 1 else 0) (p : PlaceRecord) :
    (placeEntries p).countP (·.IsFor kind term) = p.names.countP counts := by
  have hnames (country : Option String) :
      (p.names.flatMap (nameEntries country)).countP (·.IsFor kind term) =
        p.names.countP counts := by
    induction p.names with
    | nil => rfl
    | cons name names ih =>
      rw [List.flatMap_cons, List.countP_append, ih, hname, List.countP_cons, Nat.add_comm]
  rw [placeEntries, List.countP_append, hnames]
  split
  · split
    · rfl
    · simp [isFor_mk_iff, Meaning.kind, Ne.symm hnumber]
  · rfl

/-- Words are registered by the names of places only. -/
theorem countP_entriesOf (g : Gazetteer) {counts : String → Bool}
    (hkind : kind = .fullWord ∨ kind = .partialWord)
    (hname : ∀ country name, (nameEntries country name).countP (·.IsFor kind term) =
      if counts name = true then 1 else 0) :
    (entriesOf g).countP (·.IsFor kind term) = (g.places.flatMap (·.names)).countP counts := by
  have hnumber : kind ≠ .houseNumber := by rcases hkind with rfl | rfl <;> decide
  have hpostcodes : (g.postcodes.map postcodeEntry).countP (·.IsFor kind term) = 0 := by
    rcases hkind with rfl | rfl <;>
      simp [List.countP_eq_zero, postcodeEntry, isFor_mk_iff, Meaning.kind]
  have hphrases : (g.phrases.map phraseEntry).countP (·.IsFor kind term) = 0 := by
    rcases hkind with rfl | rfl <;>
      simp [List.countP_eq_zero, phraseEntry, isFor_mk_iff, Meaning.kind]
  have hplaces : (g.places.flatMap placeEntries).countP (·.IsFor kind term) =
      (g.places.flatMap (·.names)).countP counts := by
    rw [List.countP_flatMap, List.countP_flatMap]
    congr 2
    funext p
    exact countP_placeEntries hnumber hname p
  rw [entriesOf, List.countP_append, List.countP_append, hpostcodes, hphrases, hplaces]
  rfl

/-- Phrases are registered by those of the gazetteer only. -/
theorem countP_entriesOf_phrase (g : Gazetteer) (term : String) :
    (entriesOf g).countP (·.IsFor .phrase term) =
      g.phrases.countP (normalize ·.label = term) := by
  have hplaces : (g.places.flatMap placeEntries).countP (·.IsFor .phrase term) = 0 := by
    refine List.countP_eq_zero.2 fun e he => ?_
    obtain ⟨p, -, he⟩ := List.mem_flatMap.1 he
    rcases meaning_of_mem_placeEntries he with h | h | h | ⟨code, h, -⟩ <;>
      simp [Entry.IsFor, h, Meaning.kind]
  have hpostcodes : (g.postcodes.map postcodeEntry).countP (·.IsFor .phrase term) = 0 := by
    simp [List.countP_eq_zero, postcodeEntry, isFor_mk_iff, Meaning.kind]
  rw [entriesOf, List.countP_append, List.countP_append, hplaces, hpostcodes, List.countP_map,
    Nat.zero_add]
  refine List.countP_congr fun p _ => ?_
  simp [phraseEntry, isFor_mk_iff, Meaning.kind]

/-- What is registered for a word is the same each time. -/
theorem eq_word_of_mem_entriesOf {g : Gazetteer} {isFull : Bool} (he : e ∈ entriesOf g)
    (hfor : e.IsFor (Meaning.word isFull 1).kind term) : e = ⟨term, .word isFull 1⟩ := by
  obtain ⟨hkind, rfl⟩ := hfor
  rw [entriesOf, List.mem_append, List.mem_append, List.mem_flatMap] at he
  rcases he with (⟨p, -, he⟩ | he) | he
  · obtain ⟨entryTerm, meaning⟩ := e
    rcases meaning_of_mem_placeEntries he with rfl | rfl | rfl | ⟨code, rfl, -⟩ <;>
      cases isFull <;>
      first
        | rfl
        | exact nomatch hkind
  · obtain ⟨p, -, rfl⟩ := List.mem_map.1 he
    cases isFull <;> exact nomatch hkind
  · obtain ⟨p, -, rfl⟩ := List.mem_map.1 he
    cases isFull <;> exact nomatch hkind

/-- A word has one entry, which counts the registrations. -/
theorem map_fst_find_word (g : Gazetteer) (isFull : Bool) (term : String) :
    ((ofGazetteer g).find (Meaning.word isFull 1).kind term).map (·.1) =
      countedWord isFull term
        ((entriesOf g).countP (·.IsFor (Meaning.word isFull 1).kind term)) := by
  have hsame : (entriesOf g).filter (·.IsFor (Meaning.word isFull 1).kind term) =
      List.replicate ((entriesOf g).countP (·.IsFor (Meaning.word isFull 1).kind term))
        ⟨term, .word isFull 1⟩ := by
    rw [List.countP_eq_length_filter]
    exact List.eq_replicate_of_mem fun e he =>
      eq_word_of_mem_entriesOf (List.mem_filter.1 he).1 (isFor_of_mem_filter e he)
  rw [map_fst_find, filter_entries, hsame, foldl_enter_replicate]

/-- Two towns. -/
def walla : Gazetteer where
  places := ["Walla Walla", "West Walla"].map fun name => {
    id := 1, names := [name], placeType := ⟨"place", "town"⟩, addressRank := 16
    ownSearchRank := none, country := some "us", parent := none, postcode := none
    houseNumber := none, location := ⟨46, -118⟩, line := none, area := none, importance := 0 }

-- A word that is twice in the first name and once in the second one is in two names.
example : (ofGazetteer walla).numbered = [(⟨"walla walla", .word true 1⟩, 1),
    (⟨"walla", .word false 2⟩, 2), (⟨"west walla", .word true 1⟩, 3),
    (⟨"west", .word false 1⟩, 4)] := by
  decide +kernel

end Vocabulary

end Geocoding
