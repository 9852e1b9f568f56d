import Geocoding.Proofs.Registration
import Geocoding.Vocabulary.Registry
import Std.Data.HashMap.Lemmas

/-!
# Ids and counts of a registry

Each registration enters into the tables of a `Registry` what it enters into a `Vocabulary`, under
the same id, and moves the counter if and only if the vocabulary grows (`Registry.Represents`). For
a word that is counted this needs that no word has the next id
(`Registry.Represents.nextId_not_mem`), as the counter moves whenever a word has it. So the registry
of a gazetteer gives the same tokens as its vocabulary (`Registry.tokens_ofGazetteer`).

What is registered follows from the gazetteer (`Registry.exists_key?_registrations_iff`): a term has
ids for what it means there (`Gazetteer.Means`), and no other ones.
-/

namespace Geocoding

/-- In the gazetteer, the term has a meaning of the kind. -/
def Gazetteer.Means (g : Gazetteer) (term : String) : MeaningKind → Prop
  | .fullWord => term ≠ "" ∧ ∃ p ∈ g.places, ∃ name ∈ p.names, normalize name = term
  | .partialWord => ∃ p ∈ g.places, ∃ name ∈ p.names, term ∈ Text.words (normalize name)
  | .country => ∃ p ∈ g.places, ∃ code, p.namesCountry term code
  | .postcode => ∃ p ∈ g.postcodes, normalize p.postcode = term
  | .houseNumber =>
    term ≠ "" ∧ ∃ p ∈ g.places, ∃ number, p.houseNumber = some number ∧ normalize number = term
  | .phrase => ∃ p ∈ g.phrases, normalize p.label = term

namespace Registry

variable {r r' : Registry} {v : Vocabulary} {e f : Entry} {kind : MeaningKind} {term : String}
  {id : Nat}

/-! ## Registries and vocabularies -/

/-- The entries that the tables have of a kind for a term, with their ids. -/
def find (r : Registry) : MeaningKind → String → List (Entry × Nat)
  | .fullWord, term => r.fullWords[term]?.toList.map fun w => (⟨term, .word true w.count⟩, w.id)
  | .partialWord, term =>
    r.partialWords[term]?.toList.map fun w => (⟨term, .word false w.count⟩, w.id)
  | .country, term => r.countries[term]?.toList.map fun c => (⟨term, .country c.2⟩, c.1)
  | .postcode, term =>
    r.postcodes[term]?.toList.map fun p => (⟨term, .postcode p.code p.country⟩, p.id)
  | .houseNumber, term => r.houseNumbers[term]?.toList.map fun id => (⟨term, .houseNumber⟩, id)
  | .phrase, term =>
    (r.phrases.getD term []).map fun p => (⟨term, .phrase p.placeType p.mode⟩, p.id)

/-- The tables have the entries of a vocabulary under the same ids. -/
structure Represents (r : Registry) (v : Vocabulary) : Prop where
  nextId_eq : r.nextId = v.nextId
  find_eq : ∀ kind term, r.find kind term = v.find kind term

theorem map_snd_find (r : Registry) (kind : MeaningKind) (term : String) :
    (r.find kind term).map (·.2) = r.ids kind term := by
  cases kind <;> simp [find, ids, fullWordId?, partialWordId?, houseNumberId?, Option.toList_map,
    Function.comp_def]

theorem represents_empty : Represents {} (.ofEntries []) where
  nextId_eq := rfl
  find_eq kind term := by cases kind <;> simp [find] <;> rfl

theorem Represents.ids_eq (h : r.Represents v) (kind : MeaningKind) (term : String) :
    r.ids kind term = v.ids kind term := by
  rw [← map_snd_find, h.find_eq, Vocabulary.ids]

theorem Represents.isNew_iff (h : r.Represents v) :
    v.IsNew e ↔ e.meaning.kind = .phrase ∨ r.find e.meaning.kind e.term = [] := by
  rw [Vocabulary.IsNew, Vocabulary.ids, List.map_eq_nil_iff, h.find_eq]

/-- Something new is entered last, and takes the next id. -/
theorem Represents.of_new (h : r.Represents v)
    (hnew : e.meaning.kind = .phrase ∨ r.find e.meaning.kind e.term = [])
    (hnext : r'.nextId = r.nextId + 1)
    (hfind : ∀ kind term, r'.find kind term =
      if e.IsFor kind term then r.find kind term ++ [(e, r.nextId)] else r.find kind term) :
    r'.Represents (v.register e) where
  nextId_eq := by
    rw [Vocabulary.nextId_register, if_pos (h.isNew_iff.2 hnew), hnext, h.nextId_eq]
  find_eq kind term := by
    rw [hfind, h.find_eq, h.nextId_eq]
    split
    · next hfor =>
      obtain ⟨rfl, rfl⟩ := hfor
      exact (Vocabulary.find_register_of_isNew (h.isNew_iff.2 hnew)).symm
    · next hfor => exact (Vocabulary.find_register_of_not_isFor hfor).symm

/-- A term without the meaning gets it, under the next id. -/
theorem Represents.of_unknown (h : r.Represents v) (hnone : r.find e.meaning.kind e.term = [])
    (hnext : r'.nextId = r.nextId + 1)
    (hfind : ∀ kind term, r'.find kind term =
      if e.IsFor kind term then [(e, r.nextId)] else r.find kind term) :
    r'.Represents (v.register e) := by
  refine h.of_new (Or.inr hnone) hnext fun kind term => ?_
  rw [hfind]
  split
  · next hfor =>
    obtain ⟨rfl, rfl⟩ := hfor
    rw [hnone, List.nil_append]
  · rfl

/-- What is there counts once more. -/
theorem Represents.of_again (h : r.Represents v) (hkind : e.meaning.kind ≠ .phrase)
    {rest : List (Entry × Nat)} (hsame : r.find e.meaning.kind e.term = (f, id) :: rest)
    (hnext : r'.nextId = r.nextId) (hfind : ∀ kind term, r'.find kind term =
      if e.IsFor kind term then (f.again, id) :: rest else r.find kind term) :
    r'.Represents (v.register e) where
  nextId_eq := by
    rw [Vocabulary.nextId_register, if_neg, hnext, h.nextId_eq]
    simp [h.isNew_iff, hkind, hsame]
  find_eq kind term := by
    have hnot : ¬ v.IsNew e := by simp [h.isNew_iff, hkind, hsame]
    rw [hfind, h.find_eq]
    split
    · next hfor =>
      obtain ⟨rfl, rfl⟩ := hfor
      rw [Vocabulary.find_register_of_not_isNew hnot ((h.find_eq _ _).symm.trans hsame)]
    · next hfor => exact (Vocabulary.find_register_of_not_isFor hfor).symm

/-- Of a kind of meanings of which a term has one, the first one stays as it is. -/
theorem Represents.of_present (h : r.Represents v) (hkeeps : e.meaning.kind.keepsFirst = true)
    (hsome : r.find e.meaning.kind e.term ≠ []) : r.Represents (v.register e) := by
  obtain ⟨⟨f, id⟩, rest, hsame⟩ := List.exists_cons_of_ne_nil hsome
  have hkind : e.meaning.kind ≠ .phrase := by
    intro hphrase
    rw [hphrase] at hkeeps
    cases hkeeps
  have hfor : f.IsFor e.meaning.kind e.term :=
    (Vocabulary.mem_find.1 ((h.find_eq _ _).symm.trans hsame ▸ List.mem_cons_self)).2
  have hagain : f.again = f := Entry.again_eq_self (hfor.1 ▸ hkeeps)
  refine h.of_again hkind hsame rfl fun kind term => ?_
  split
  · next hfor =>
    obtain ⟨rfl, rfl⟩ := hfor
    rw [hsame, hagain]
  · rfl

/-- A term is registered unless it has the meaning already. -/
theorem Represents.of_ite (h : r.Represents v) (hkeeps : e.meaning.kind.keepsFirst = true)
    {known : Prop} [Decidable known] (hknown : known ↔ r.find e.meaning.kind e.term ≠ [])
    (hnext : r'.nextId = r.nextId + 1) (hfind : ∀ kind term, r'.find kind term =
      if e.IsFor kind term then [(e, r.nextId)] else r.find kind term) :
    (if known then r else r').Represents (v.register e) := by
  split
  · next hpresent => exact h.of_present hkeeps (hknown.1 hpresent)
  · next habsent => exact h.of_unknown (not_not.1 (mt hknown.2 habsent)) hnext hfind

/-- The next id is nobody's. -/
theorem Represents.nextId_not_mem (h : r.Represents v) (kind : MeaningKind) (term : String) :
    r.nextId ∉ r.ids kind term := by
  rw [h.ids_eq, h.nextId_eq]
  intro hid
  obtain ⟨-, hkey⟩ := Vocabulary.mem_ids_iff.1 hid
  obtain ⟨hlt, -⟩ := List.getElem?_eq_some_iff.1 hkey
  rw [Vocabulary.nextId_eq] at hlt
  omega

/-! ## Each registration -/

/-- A table with one more term has it, and all that it had for other terms. -/
theorem toList_getElem?_insert {α : Type} (table : Std.HashMap String α) (a : α)
    (term term' : String) : (table.insert term a)[term']?.toList =
      if term = term' then [a] else table[term']?.toList := by
  rw [Std.HashMap.getElem?_insert]
  by_cases h : term = term'
  · simp [h]
  · simp [h]

theorem find_word (r : Registry) (isFull : Bool) (n : Nat) (term : String) :
    r.find (Meaning.word isFull n).kind term =
      (r.words isFull)[term]?.toList.map fun w => (⟨term, .word isFull w.count⟩, w.id) := by
  cases isFull <;> rfl

theorem find_withWords (r : Registry) (isFull : Bool) (w : WordCount) (term : String) (n : Nat)
    (kind : MeaningKind) (term' : String) :
    (r.withWords isFull ((r.words isFull).insert term w)).find kind term' =
      if (⟨term, .word isFull n⟩ : Entry).IsFor kind term' then
        [(⟨term, .word isFull w.count⟩, w.id)]
      else r.find kind term' := by
  cases isFull <;> cases kind <;> by_cases h : term = term' <;>
    simp [withWords, words, find, Entry.IsFor, Meaning.kind, toList_getElem?_insert, h]

/-- A new word is entered under the next id, and so takes it. -/
theorem countWord_of_eq_none {isFull : Bool} (hword : (r.words isFull)[term]? = none) :
    r.countWord isFull term =
      { r.withWords isFull ((r.words isFull).insert term ⟨r.nextId, 1⟩) with
        nextId := r.nextId + 1 } := by
  have hgetD : (r.words isFull).getD term ⟨r.nextId, 0⟩ = ⟨r.nextId, 0⟩ := by
    rw [Std.HashMap.getD_eq_getD_getElem?, hword, Option.getD_none]
  rw [countWord, hgetD, if_pos rfl]
  cases isFull <;> rfl

/-- A word that has an id keeps it, and takes no other as long as its id is not the next one. -/
theorem countWord_of_eq_some {isFull : Bool} {w : WordCount}
    (hword : (r.words isFull)[term]? = some w) (hid : w.id ≠ r.nextId) :
    r.countWord isFull term =
      r.withWords isFull ((r.words isFull).insert term { w with count := w.count + 1 }) := by
  have hgetD : (r.words isFull).getD term ⟨r.nextId, 0⟩ = w := by
    rw [Std.HashMap.getD_eq_getD_getElem?, hword, Option.getD_some]
  rw [countWord, hgetD, if_neg hid]

theorem Represents.countWord (h : r.Represents v) (isFull : Bool) (term : String) :
    (r.countWord isFull term).Represents (v.register ⟨term, .word isFull 1⟩) := by
  cases hword : (r.words isFull)[term]? with
  | none =>
    rw [countWord_of_eq_none hword]
    refine h.of_unknown ?_ rfl (find_withWords r isFull ⟨r.nextId, 1⟩ term 1)
    rw [find_word, hword]
    rfl
  | some w =>
    have hsame : r.find (Meaning.word isFull 1).kind term =
        [(⟨term, .word isFull w.count⟩, w.id)] := by
      rw [find_word, hword]
      rfl
    have hid : w.id ≠ r.nextId := by
      have hmem : w.id ∈ r.ids (Meaning.word isFull 1).kind term := by
        rw [← map_snd_find, hsame]
        exact List.mem_singleton_self _
      exact fun heq => h.nextId_not_mem _ _ (heq ▸ hmem)
    rw [countWord_of_eq_some hword hid]
    refine h.of_again ?_ hsame ?_ (find_withWords r isFull _ term 1)
    · cases isFull <;> simp [Meaning.kind]
    · cases isFull <;> rfl

theorem Represents.addCountry (h : r.Represents v) (term code : String) :
    (r.addCountry term code).Represents (v.register ⟨term, .country (Text.lower code)⟩) := by
  refine h.of_ite rfl (by simp [find, Meaning.kind]) rfl fun kind term' => ?_
  cases kind <;> by_cases hterm : term = term' <;>
    simp [allocate, find, Meaning.kind, Entry.IsFor, toList_getElem?_insert, hterm]

theorem Represents.addHouseNumber (h : r.Represents v) (hterm : term ≠ "") :
    (r.addHouseNumber term).Represents (v.register ⟨term, .houseNumber⟩) := by
  refine h.of_ite rfl (by simp [find, Meaning.kind, hterm]) rfl fun kind term' => ?_
  cases kind <;> by_cases hterm : term = term' <;>
    simp [allocate, find, Meaning.kind, Entry.IsFor, toList_getElem?_insert, hterm]

theorem Represents.addPostcode (h : r.Represents v) (p : PostcodeRecord) :
    (r.addPostcode p).Represents (v.register (Vocabulary.postcodeEntry p)) := by
  refine h.of_ite rfl (by simp [find, Vocabulary.postcodeEntry, Meaning.kind]) rfl
    fun kind term' => ?_
  cases kind <;> by_cases hterm : normalize p.postcode = term' <;>
    simp [find, Vocabulary.postcodeEntry, Meaning.kind, Entry.IsFor, toList_getElem?_insert, hterm]

theorem Represents.addPhrase (h : r.Represents v) (p : PlacePhrase) :
    (r.addPhrase p).Represents (v.register (Vocabulary.phraseEntry p)) := by
  refine h.of_new (Or.inl rfl) rfl fun kind term' => ?_
  cases kind <;> by_cases hterm : normalize p.label = term' <;>
    simp [Registry.addPhrase, allocate, find, Vocabulary.phraseEntry, Meaning.kind, Entry.IsFor,
      Std.HashMap.getD_insert, hterm]

/-! ## Registrations one after another -/

/-- The entry that a vocabulary gets by a registration. -/
def Registration.entered? : Registration → Option Entry
  | word isFull term => some ⟨term, .word isFull 1⟩
  | country term code => some ⟨term, .country (Text.lower code)⟩
  | houseNumber term => if term.isEmpty then none else some ⟨term, .houseNumber⟩
  | postcode p => some (Vocabulary.postcodeEntry p)
  | phrase p => some (Vocabulary.phraseEntry p)

theorem Registration.key?_eq_map (c : Registration) : c.key? = c.entered?.map Vocabulary.keyOf := by
  cases c with
  | word isFull term => cases isFull <;> rfl
  | houseNumber term => simp only [key?, entered?]; split <;> rfl
  | country | postcode | phrase => rfl

theorem Represents.register (h : r.Represents v) (c : Registration) :
    (r.register c).Represents (c.entered?.elim v v.register) := by
  cases c with
  | word isFull term => exact h.countWord isFull term
  | country term code => exact h.addCountry term code
  | houseNumber term =>
    by_cases hterm : term = ""
    · subst hterm
      exact h
    · have hentry : (Registration.houseNumber term).entered? = some ⟨term, .houseNumber⟩ :=
        if_neg (by simpa using hterm)
      rw [hentry]
      exact h.addHouseNumber hterm
  | postcode p => exact h.addPostcode p
  | phrase p => exact h.addPhrase p

/-- After any registrations, the tables have the same as a vocabulary with the same entries. -/
theorem Represents.foldl_register (h : r.Represents v) (calls : List Registration) :
    (calls.foldl Registry.register r).Represents
      ((calls.filterMap (·.entered?)).foldl Vocabulary.register v) := by
  induction calls generalizing r v with
  | nil => exact h
  | cons c calls ih =>
    have hc := ih (h.register c)
    rw [List.filterMap_cons, List.foldl_cons]
    cases hentry : c.entered? with
    | none => simpa [hentry] using hc
    | some e => simpa [hentry] using hc

theorem represents_run (calls : List Registration) :
    (run calls).Represents (.ofEntries (calls.filterMap (·.entered?))) :=
  represents_empty.foldl_register calls

/-! ## The registrations of a gazetteer -/

theorem addName_eq (country : Option String) (r : Registry) (name : String) :
    r.addName country name = (nameRegistrations country name).foldl register r := by
  unfold addName nameRegistrations
  by_cases hterm : (normalize name).isEmpty = true
  · simp [hterm]
  · cases country with
    | none => simp [hterm, List.foldl_map, register]
    | some code => simp [hterm, List.foldl_map, register]

theorem addPlace_eq (r : Registry) (p : PlaceRecord) :
    r.addPlace p = (placeRegistrations p).foldl register r := by
  rw [addPlace, placeRegistrations, List.foldl_append, List.foldl_flatMap]
  simp only [← addName_eq]
  cases p.houseNumber <;> rfl

/-- The registry of a gazetteer comes about by its registrations one after another. -/
theorem ofGazetteer_eq_run (g : Gazetteer) : ofGazetteer g = run (registrations g) := by
  rw [ofGazetteer, run, registrations, List.foldl_append, List.foldl_append, List.foldl_flatMap,
    List.foldl_map, List.foldl_map]
  simp only [← addPlace_eq]
  rfl

theorem filterMap_entered?_nameRegistrations (country : Option String) (name : String) :
    (nameRegistrations country name).filterMap (·.entered?) =
      Vocabulary.nameEntries country name := by
  unfold nameRegistrations Vocabulary.nameEntries
  by_cases hterm : normalize name = ""
  · simp [hterm]
  · have hsplit := splitAt_normalize (termWords_ne_nil hterm)
    cases country with
    | none => simp [hterm, hsplit, Registration.entered?, List.filterMap_map]
    | some code => simp [hterm, hsplit, Registration.entered?, List.filterMap_map]

theorem filterMap_entered?_placeRegistrations (p : PlaceRecord) :
    (placeRegistrations p).filterMap (·.entered?) = Vocabulary.placeEntries p := by
  have hcountry : (if p.addressRank = 4 then p.country else none) =
      p.country.filter fun _ => p.addressRank = 4 := by
    cases p.country <;> by_cases hrank : p.addressRank = 4 <;>
      simp [hrank, Option.filter]
  rw [placeRegistrations, Vocabulary.placeEntries, List.filterMap_append, List.filterMap_flatMap,
    hcountry]
  simp only [filterMap_entered?_nameRegistrations]
  cases p.houseNumber with
  | none => rfl
  | some number =>
    by_cases hnumber : normalize number = "" <;> simp [Registration.entered?, hnumber]

/-- The registrations of a gazetteer are for what its vocabulary lists. -/
theorem filterMap_entered?_registrations (g : Gazetteer) :
    (registrations g).filterMap (·.entered?) = Vocabulary.entriesOf g := by
  have hpostcodes : g.postcodes.filterMap ((·.entered?) ∘ Registration.postcode) =
      g.postcodes.map Vocabulary.postcodeEntry := congrFun List.filterMap_eq_map' _
  have hphrases : g.phrases.filterMap ((·.entered?) ∘ Registration.phrase) =
      g.phrases.map Vocabulary.phraseEntry := congrFun List.filterMap_eq_map' _
  rw [registrations, Vocabulary.entriesOf, List.filterMap_append, List.filterMap_append,
    List.filterMap_flatMap, List.filterMap_map, List.filterMap_map, hpostcodes, hphrases]
  simp only [filterMap_entered?_placeRegistrations]

/-- The registry of a gazetteer has the same as its vocabulary. -/
theorem represents_ofGazetteer (g : Gazetteer) :
    (ofGazetteer g).Represents (.ofGazetteer g) := by
  rw [ofGazetteer_eq_run, Vocabulary.ofGazetteer_eq, ← filterMap_entered?_registrations]
  exact represents_run (registrations g)

/-! ## What is registered -/

section

variable {α β : Type} {P : β → Prop}

theorem exists_mem_append_iff {xs ys : List β} :
    (∃ y ∈ xs ++ ys, P y) ↔ (∃ y ∈ xs, P y) ∨ ∃ y ∈ ys, P y := by
  simp [or_and_right, exists_or]

theorem exists_mem_flatMap_iff {f : α → List β} {xs : List α} :
    (∃ y ∈ xs.flatMap f, P y) ↔ ∃ x ∈ xs, ∃ y ∈ f x, P y := by
  constructor
  · rintro ⟨y, hy, hP⟩
    obtain ⟨x, hx, hy⟩ := List.mem_flatMap.1 hy
    exact ⟨x, hx, y, hy, hP⟩
  · rintro ⟨x, hx, y, hy, hP⟩
    exact ⟨y, List.mem_flatMap.2 ⟨x, hx, hy⟩, hP⟩

end

section

variable {P : Registration → Prop}

theorem exists_mem_nameRegistrations_iff {country : Option String} {name : String} :
    (∃ c ∈ nameRegistrations country name, P c) ↔
      normalize name ≠ "" ∧ (P (.word true (normalize name)) ∨
        (∃ word ∈ Text.words (normalize name), P (.word false word)) ∨
        ∃ code, country = some code ∧
          (P (.country (normalize name) code) ∨ P (.country (normalize code) code))) := by
  unfold nameRegistrations
  by_cases hterm : normalize name = ""
  · simp [hterm]
  · have hsplit := splitAt_normalize (termWords_ne_nil hterm)
    cases country with
    | none => simp [hterm, hsplit, words_normalize, mem_distinctBy_id]
    | some code =>
      simp [hterm, hsplit, words_normalize, mem_distinctBy_id, or_and_right, exists_or]

theorem exists_mem_placeRegistrations_iff {p : PlaceRecord} :
    (∃ c ∈ placeRegistrations p, P c) ↔
      (∃ name ∈ p.names, normalize name ≠ "" ∧ (P (.word true (normalize name)) ∨
        (∃ word ∈ Text.words (normalize name), P (.word false word)) ∨
        ∃ code, (p.addressRank = 4 ∧ p.country = some code) ∧
          (P (.country (normalize name) code) ∨ P (.country (normalize code) code)))) ∨
      ∃ number, p.houseNumber = some number ∧ P (.houseNumber (normalize number)) := by
  have hcountry {code : String} : (if p.addressRank = 4 then p.country else none) = some code ↔
      p.addressRank = 4 ∧ p.country = some code := by
    split <;> simp [*]
  rw [placeRegistrations, exists_mem_append_iff, exists_mem_flatMap_iff]
  simp only [exists_mem_nameRegistrations_iff, hcountry]
  simp

theorem exists_mem_registrations_iff {g : Gazetteer} :
    (∃ c ∈ registrations g, P c) ↔ (∃ p ∈ g.places, ∃ c ∈ placeRegistrations p, P c) ∨
      (∃ p ∈ g.postcodes, P (.postcode p)) ∨ ∃ p ∈ g.phrases, P (.phrase p) := by
  rw [registrations, exists_mem_append_iff, exists_mem_append_iff, exists_mem_flatMap_iff, or_assoc]
  simp

end

/-- A term is registered for all that it means, and for nothing else. -/
theorem exists_key?_registrations_iff {g : Gazetteer} :
    (∃ c ∈ registrations g, c.key? = some (kind, term)) ↔ g.Means term kind := by
  rw [exists_mem_registrations_iff]
  simp only [exists_mem_placeRegistrations_iff]
  cases kind with
  | fullWord =>
    refine Iff.trans (b := ∃ p ∈ g.places, ∃ name ∈ p.names, normalize name ≠ "" ∧
      normalize name = term) (by simp [Registration.key?]) ?_
    constructor
    · rintro ⟨p, hp, name, hname, hne, rfl⟩
      exact ⟨hne, p, hp, name, hname, rfl⟩
    · rintro ⟨hne, p, hp, name, hname, rfl⟩
      exact ⟨p, hp, name, hname, hne, rfl⟩
  | partialWord =>
    refine Iff.trans (b := ∃ p ∈ g.places, ∃ name ∈ p.names, normalize name ≠ "" ∧
      term ∈ Text.words (normalize name)) (by simp [Registration.key?]) ?_
    constructor
    · rintro ⟨p, hp, name, hname, -, hword⟩
      exact ⟨p, hp, name, hname, hword⟩
    · rintro ⟨p, hp, name, hname, hword⟩
      refine ⟨p, hp, name, hname, fun hempty => ?_, hword⟩
      rw [hempty] at hword
      cases hword
  | country =>
    refine Iff.trans (b := ∃ p ∈ g.places, ∃ name ∈ p.names, normalize name ≠ "" ∧
      ∃ code, (p.addressRank = 4 ∧ p.country = some code) ∧
        (normalize name = term ∨ normalize code = term)) (by simp [Registration.key?]) ?_
    constructor
    · rintro ⟨p, hp, name, hname, hne, code, ⟨hrank, hcode⟩, hterm⟩
      exact ⟨p, hp, _, hrank, code, hcode, rfl, name, hname, hne, hterm.imp .symm .symm⟩
    · rintro ⟨p, hp, _, hrank, code, hcode, rfl, name, hname, hne, hterm⟩
      exact ⟨p, hp, name, hname, hne, code, ⟨hrank, hcode⟩, hterm.imp .symm .symm⟩
  | postcode => simp [Registration.key?, Gazetteer.Means]
  | houseNumber =>
    refine Iff.trans (b := ∃ p ∈ g.places, ∃ number, p.houseNumber = some number ∧
      normalize number ≠ "" ∧ normalize number = term) (by simp [Registration.key?]) ?_
    constructor
    · rintro ⟨p, hp, number, hnumber, hne, rfl⟩
      exact ⟨hne, p, hp, number, hnumber, rfl⟩
    · rintro ⟨hne, p, hp, number, hnumber, rfl⟩
      exact ⟨p, hp, number, hnumber, hne, rfl⟩
  | phrase => simp [Registration.key?, Gazetteer.Means]

/-! ## Looking up -/

theorem ids_run (calls : List Registration) (kind : MeaningKind) (term : String) :
    (run calls).ids kind term =
      (Vocabulary.ofEntries (calls.filterMap (·.entered?))).ids kind term :=
  (represents_run calls).ids_eq kind term

theorem Registration.key?_eq_some_iff {c : Registration} :
    c.key? = some (kind, term) ↔ ∃ e, c.entered? = some e ∧ e.IsFor kind term := by
  rw [key?_eq_map, Option.map_eq_some_iff]
  simp only [Vocabulary.keyOf_eq_iff]

theorem ids_ofGazetteer_ne_nil_iff (g : Gazetteer) :
    (ofGazetteer g).ids kind term ≠ [] ↔ g.Means term kind := by
  rw [← exists_key?_registrations_iff, ofGazetteer_eq_run, ids_run, Ne,
    Vocabulary.ids_ofEntries_eq_nil_iff]
  simp only [List.mem_filterMap, Registration.key?_eq_some_iff, not_forall, not_not, exists_prop]
  constructor
  · rintro ⟨e, ⟨c, hc, he⟩, hfor⟩
    exact ⟨c, hc, e, he, hfor⟩
  · rintro ⟨c, hc, e, he, hfor⟩
    exact ⟨e, ⟨c, hc, he⟩, hfor⟩

/-- A term of several words is no word. -/
theorem partialWords_eq_none (g : Gazetteer) (h : term.toList.contains ' ' = true) :
    (ofGazetteer g).partialWords[term]? = none := by
  by_contra hsome
  have hids : (ofGazetteer g).ids .partialWord term ≠ [] := by
    simpa [ids, partialWordId?] using hsome
  obtain ⟨p, -, name, -, hword⟩ := (ids_ofGazetteer_ne_nil_iff g).1 hids
  rw [words_normalize] at hword
  exact space_not_mem_of_mem_termWords hword (List.contains_iff_mem.1 h)

theorem Represents.phraseTokens_eq (h : r.Represents v) (term : String) :
    r.phraseTokens term = v.phraseTokens term := by
  rw [Vocabulary.phraseTokens, Vocabulary.tokensOf, ← h.find_eq]
  simp [find, phraseTokens, Entry.token]

/-- Both give a term the same tokens. -/
theorem tokens_ofGazetteer (g : Gazetteer) (term : String) :
    (ofGazetteer g).tokens term = (Vocabulary.ofGazetteer g).tokens term := by
  have h := represents_ofGazetteer g
  have hpartial : (if term.toList.contains ' ' then [] else
      (ofGazetteer g).partialWords[term]?.toList.map fun w => .word ⟨w.id, term, false, w.count⟩) =
        (Vocabulary.ofGazetteer g).tokensOf term .partialWord := by
    rw [Vocabulary.tokensOf, ← h.find_eq]
    split
    · next hspace => simp [find, partialWords_eq_none g hspace]
    · simp [find, Entry.token]
  rw [tokens, hpartial, Vocabulary.tokens]
  simp [MeaningKind.all, Vocabulary.tokensOf, ← h.find_eq, find, phraseTokens, Entry.token,
    Function.comp_def]

theorem Represents.id?_eq (h : r.Represents v) (kind : MeaningKind) (term : String) :
    v.id? kind term = (r.ids kind term).head? := by
  rw [Vocabulary.id?, ← h.find_eq, ← map_snd_find, List.head?_map]

/-- A word of names is not empty. -/
theorem partialWordId?_empty (g : Gazetteer) : (ofGazetteer g).partialWordId? "" = none := by
  by_contra hsome
  have hids : (ofGazetteer g).ids .partialWord "" ≠ [] := by simpa [ids] using hsome
  obtain ⟨p, -, name, -, hword⟩ := (ids_ofGazetteer_ne_nil_iff g).1 hids
  rw [words_normalize] at hword
  exact (isAlphanumeric_of_mem_termWords hword).1 rfl

/-- Both give a name the same ids, and so a house number. -/
theorem nameTerms_ofGazetteer (g : Gazetteer) (name : String) :
    (ofGazetteer g).nameTerms name = (Vocabulary.ofGazetteer g).nameTerms name := by
  have h := represents_ofGazetteer g
  have hfull (term : String) :
      (Vocabulary.ofGazetteer g).id? .fullWord term = (ofGazetteer g).fullWordId? term :=
    (h.id?_eq .fullWord term).trans Option.head?_toList
  have hpartial : (Vocabulary.ofGazetteer g).id? .partialWord = (ofGazetteer g).partialWordId? :=
    funext fun term => (h.id?_eq .partialWord term).trans Option.head?_toList
  rw [nameTerms, Vocabulary.nameTerms, hfull, hpartial]
  congr 1
  by_cases hwords : termWords name = []
  · have hempty : Text.splitAt ' ' (normalize name) = [""] := by
      rw [normalize, hwords]
      decide
    rw [hempty, hwords, List.filterMap_cons, partialWordId?_empty]
  · rw [splitAt_normalize hwords]

theorem houseNumberId?_ofGazetteer (g : Gazetteer) (term : String) :
    (ofGazetteer g).houseNumberId? term = (Vocabulary.ofGazetteer g).id? .houseNumber term :=
  (((represents_ofGazetteer g).id?_eq .houseNumber term).trans Option.head?_toList).symm

/-! ## Ids without ambiguity -/

/-- The registry gives ids to all that terms mean in a gazetteer, and no id twice. -/
structure HandsOutIds (r : Registry) (g : Gazetteer) : Prop where
  /-- The ids that are handed out are those from one up to the next one. -/
  handedOut_iff : ∀ id, (∃ kind term, id ∈ r.ids kind term) ↔ 1 ≤ id ∧ id < r.nextId
  /-- No id belongs to two meanings or to two terms. -/
  disjoint : ∀ kind term kind' term', ∀ id ∈ r.ids kind term, id ∈ r.ids kind' term' →
    kind = kind' ∧ term = term'
  nodup : ∀ kind term, (r.ids kind term).Nodup
  /-- A term has an id exactly in those meanings that it has in the gazetteer. -/
  known_iff : ∀ kind term, r.ids kind term ≠ [] ↔ g.Means term kind
  /-- It has one, phrases apart. -/
  one : ∀ kind term, kind ≠ .phrase → (r.ids kind term).length ≤ 1
  /-- Each phrase of the gazetteer has its own. -/
  phrases : ∀ term, (r.ids .phrase term).length = g.phrases.countP (normalize ·.label = term)

/-- The registry has all ids as they were handed out by some registrations, one after another. -/
structure KeepsIds (r : Registry) (registrations : List Registration) : Prop where
  /-- A term that is registered for the first time takes the next id. -/
  first : ∀ before c after kind term, registrations = before ++ c :: after →
    c.key? = some (kind, term) → (∀ c' ∈ before, c'.key? ≠ some (kind, term)) →
      (r.ids kind term).head? = some (run before).nextId
  /-- Ids that were handed out are never changed. -/
  kept : ∀ before after kind term, registrations = before ++ after →
    (run before).ids kind term <+: r.ids kind term

/-- Words are counted by the names that they are in: a whole name by the names of that normal form,
and a word once by each name with the word in its normal form. -/
structure CountsNames (r : Registry) (names : List String) : Prop where
  fullWord : ∀ term, term ≠ "" → r.count true term = names.countP (normalize · = term)
  partialWord : ∀ term,
    r.count false term = names.countP fun name => term ∈ Text.words (normalize name)

theorem handsOutIds_ofGazetteer (g : Gazetteer) : (ofGazetteer g).HandsOutIds g where
  handedOut_iff id := by
    have h := represents_ofGazetteer g
    simp only [h.ids_eq, h.nextId_eq, Vocabulary.mem_ids_iff, Vocabulary.nextId_eq]
    constructor
    · rintro ⟨kind, term, hle, hkey⟩
      obtain ⟨hlt, -⟩ := List.getElem?_eq_some_iff.1 hkey
      omega
    · rintro ⟨hle, hlt⟩
      have hlt : id - 1 < (Vocabulary.ofGazetteer g).keys.length := by omega
      exact ⟨_, _, hle, List.getElem?_eq_getElem hlt⟩
  disjoint kind term kind' term' id hid hid' := by
    have h := represents_ofGazetteer g
    rw [h.ids_eq] at hid hid'
    have hkey := (Vocabulary.mem_ids_iff.1 hid).2.symm.trans (Vocabulary.mem_ids_iff.1 hid').2
    exact Prod.mk.inj (Option.some.inj hkey)
  nodup kind term := by
    rw [(represents_ofGazetteer g).ids_eq, Vocabulary.ids, ← Vocabulary.numberedOf_keyOf]
    exact nodup_positions
  known_iff _ _ := ids_ofGazetteer_ne_nil_iff g
  one kind term hkind := by
    rw [ofGazetteer_eq_run, ids_run, Vocabulary.length_ids_of_ne_phrase _ hkind]
    split
    · exact le_refl 1
    · exact Nat.zero_le 1
  phrases term := by
    rw [(represents_ofGazetteer g).ids_eq, Vocabulary.ofGazetteer_eq, Vocabulary.length_ids_phrase,
      Vocabulary.countP_entriesOf_phrase]

theorem keepsIds_run (calls : List Registration) : (run calls).KeepsIds calls where
  first before c after kind term hcalls hkey hbefore := by
    obtain ⟨e, he, rfl, rfl⟩ := Registration.key?_eq_some_iff.1 hkey
    have hnone : ∀ f ∈ before.filterMap (·.entered?), ¬ f.IsFor e.meaning.kind e.term := by
      intro f hf hfor
      obtain ⟨c', hc', hentry⟩ := List.mem_filterMap.1 hf
      exact hbefore c' hc' (Registration.key?_eq_some_iff.2 ⟨f, hentry, hfor⟩)
    rw [hcalls, ids_run, List.filterMap_append, List.filterMap_cons, he,
      (represents_run before).nextId_eq]
    exact Vocabulary.head?_ids_ofEntries hnone _
  kept before after kind term hcalls := by
    rw [hcalls, ids_run, ids_run, List.filterMap_append]
    exact Vocabulary.ids_prefix ..

/-- A table of words counts what was registered for them. -/
theorem count_ofGazetteer (g : Gazetteer) (isFull : Bool) (term : String) :
    (ofGazetteer g).count isFull term =
      (Vocabulary.entriesOf g).countP (·.IsFor (Meaning.word isFull 1).kind term) := by
  have hfind := Vocabulary.map_fst_find_word g isFull term
  rw [← (represents_ofGazetteer g).find_eq, find_word, Vocabulary.countedWord] at hfind
  rw [count]
  cases hword : ((ofGazetteer g).words isFull)[term]? with
  | none =>
    rw [hword] at hfind
    split at hfind
    · next hzero => exact hzero.symm
    · cases hfind
  | some w =>
    rw [hword] at hfind
    split at hfind
    · cases hfind
    · simpa using hfind

theorem countsNames_ofGazetteer (g : Gazetteer) :
    (ofGazetteer g).CountsNames (g.places.flatMap (·.names)) where
  fullWord term hterm := by
    refine (count_ofGazetteer g true term).trans ?_
    refine (Vocabulary.countP_entriesOf g (Or.inl rfl)
      Vocabulary.countP_nameEntries_fullWord).trans ?_
    simp [hterm]
  partialWord term :=
    (count_ofGazetteer g false term).trans
      (Vocabulary.countP_entriesOf g (Or.inr rfl) Vocabulary.countP_nameEntries_partialWord)

/-- The registry of a gazetteer gives ids without ambiguity to all that terms mean in it, one
registration after another, and counts words by the names of places. -/
theorem handsOutIds_and_keepsIds_and_countsNames (g : Gazetteer) :
    (ofGazetteer g).HandsOutIds g ∧
      (ofGazetteer g = run (registrations g) ∧ (ofGazetteer g).KeepsIds (registrations g)) ∧
      (ofGazetteer g).CountsNames (g.places.flatMap (·.names)) := by
  refine ⟨handsOutIds_ofGazetteer g, ⟨ofGazetteer_eq_run g, ?_⟩, countsNames_ofGazetteer g⟩
  rw [ofGazetteer_eq_run]
  exact keepsIds_run (registrations g)

end Registry

end Geocoding
