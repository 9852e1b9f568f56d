import Geocoding.Geocoder
import Geocoding.Proofs.Grouping
import Geocoding.Proofs.Leading
import Geocoding.Proofs.Preparing
import Geocoding.Proofs.Vocabulary

/-!
# Reading a name

A text that is the name of a place is first of all read as this name: the interpretation by its full
word leads the plan, whatever else the text and its words can stand for
(`Geocoder.exists_interpret_eq`).
-/

namespace Geocoding

/-! ## The interpretation as a whole name -/

namespace Interpretation

/-- A whole name and nothing else. -/
def ofFullName (id : Nat) (rare : Bool) : Interpretation where
  cost := 1
  name := .singleton id
  hasRareName := rare

variable (id : Nat) (rare : Bool)

theorem isLightest_ofFullName : (ofFullName id rare).IsLightest :=
  ⟨rfl, rfl⟩

theorem isValid_ofFullName : (ofFullName id rare).isValid = true :=
  rfl

end Interpretation

/-- A full word in the first phrase is read as the whole name, and in no other way. -/
theorem Token.extend_fullWord {w : WordToken} (hfull : w.isFull = true) {pos : Position}
    (hfirst : pos.isInFirstPhrase = true) (c : Constraints) (t : FrequencyThresholds) :
    (Token.word w).extend c t .root pos =
      [.ofFullName w.id (t.isRare w.occurrences)] := by
  have hname : Interpretation.root.hasName = false := rfl
  have hany : Interpretation.root.hasAnyName = false := rfl
  rw [extend, if_pos hfull, extendFullWord, hname, hfirst, hany]
  rfl

/-! ## Names in the vocabulary -/

namespace Vocabulary

theorem fullWord_mem_nameEntries (country : Option String) {name : String}
    (hne : normalize name ≠ "") : ⟨normalize name, .word true 1⟩ ∈ nameEntries country name := by
  have hempty : (normalize name).isEmpty = false := by
    rw [← Bool.not_eq_true, String.isEmpty_iff]
    exact hne
  simp [nameEntries, hempty]

/-- Every name of a place is a full word. -/
theorem exists_id?_of_mem_names {g : Gazetteer} {p : PlaceRecord} (hp : p ∈ g.places)
    {name : String} (hname : name ∈ p.names) (hne : normalize name ≠ "") :
    ∃ id, (ofGazetteer g).id? .fullWord (normalize name) = some id := by
  have hentry : ⟨normalize name, .word true 1⟩ ∈ entriesOf g := by
    have hplace : ⟨normalize name, .word true 1⟩ ∈ placeEntries p := by
      rw [placeEntries]
      exact List.mem_append_left _
        (List.mem_flatMap.2 ⟨name, hname, fullWord_mem_nameEntries _ hne⟩)
    rw [entriesOf]
    exact List.mem_append_left _
      (List.mem_append_left _ (List.mem_flatMap.2 ⟨p, hp, hplace⟩))
  obtain ⟨e, he, hfor⟩ := exists_entry_of_mem_entriesOf hentry ⟨rfl, rfl⟩
  exact exists_id?_of_mem he hfor

/-- The vocabulary answers for all terms of some phrases. -/
theorem tokenize_eq (v : Vocabulary) {phrases : List Phrase} (h : Lexicon.terms phrases ≠ [])
    (countries : List String) :
    (v.lexicon : Lexicon Id).tokenize phrases countries =
      pure (phrases.map (·.segmented (Lexicon.complete (v.table (Lexicon.terms phrases))
        (Lexicon.terms phrases) countries).isKnown),
        Lexicon.complete (v.table (Lexicon.terms phrases)) (Lexicon.terms phrases) countries) := by
  rw [Lexicon.tokenize]
  simp only [List.isEmpty_eq_false_iff.2 h]
  rfl

end Vocabulary

/-! ## Plans for a name -/

namespace Geocoder

variable {g : Geocoder Id} {v : Vocabulary} {name : String} {id : Nat}

/-- The query that a plain text is. -/
def plainQuery (text : String) : PreparedQuery :=
  { phrases := [(Text.trim text, .untyped)], isStructured := false }

/-- The words of a name are tokenized as a phrase whose first grouping is the whole name, which has
a full word as its first token. -/
theorem exists_tokenize_eq (hlexicon : g.lexicon = v.lexicon)
    (hid : v.id? .fullWord (normalize name) = some id) (hne : normalize name ≠ "") :
    ∃ groupings table n rest,
      g.tokenize (plainQuery name).phrases [] =
        pure ([⟨.untyped, termWords name, [normalize name] :: groupings⟩], table) ∧
      (∀ grouping ∈ groupings, grouping ≠ []) ∧
      table.get (normalize name) = .word ⟨id, normalize name, true, n⟩ :: rest := by
  have hwords : termWords name ≠ [] := termWords_ne_nil hne
  have hterm := Lexicon.text_mem_terms (p := ⟨.untyped, termWords name, []⟩)
    (List.mem_singleton_self _) hwords
  rw [show Phrase.text ⟨.untyped, termWords name, []⟩ = normalize name from rfl] at hterm
  obtain ⟨n, more, htokens⟩ := Vocabulary.tokens_eq_cons hid
  obtain ⟨rest, hget⟩ := Lexicon.exists_get_complete hterm htokens
  have htokenize := v.tokenize_eq (List.ne_nil_of_mem hterm) []
  generalize Lexicon.complete _ _ _ = table at hget htokenize
  obtain ⟨groupings, hgroupings⟩ :=
    exists_groupings_eq_cons hwords (TokenTable.isKnown_of_get hget)
  refine ⟨groupings, table, n, rest, ?_, fun grouping hgrouping => ?_, hget⟩
  · have hphrase : Phrase.ofText (g.lexicon.normalize (Text.trim name)) .untyped =
        ⟨.untyped, termWords name, []⟩ := by
      rw [hlexicon]
      simp [Vocabulary.lexicon, Phrase.ofText, words_normalize, termWords_trim]
    have hasked : g.tokenize (plainQuery name).phrases [] =
        (g.lexicon.tokenize [Phrase.ofText (g.lexicon.normalize (Text.trim name)) .untyped]
          []).adapt .lexicon := rfl
    rw [hasked, hphrase, hlexicon, htokenize, List.map_singleton, Phrase.segmented, hgroupings]
    rfl
  · exact ne_nil_of_mem_groupings (hgroupings ▸ List.mem_cons_of_mem _ hgrouping)

/-- The plan for a name is led by its interpretation as the whole name. -/
theorem exists_interpret_eq (hlexicon : g.lexicon = v.lexicon)
    (hcost : 1 < g.config.planner.maxCost) (hbeam : 0 < g.config.planner.beamWidth)
    (hphrase : 0 < g.config.planner.perPhrase)
    (hid : v.id? .fullWord (normalize name) = some id) (hne : normalize name ≠ "") :
    ∃ words rare ranking,
      g.interpret (.ofQuery (.free name)) (plainQuery name) =
        pure ({ fullNameTerms := words }, ranking) ∧
      ranking.Leads 1 (.ofFullName id rare) := by
  obtain ⟨groupings, table, n, rest, htokenize, hparts, hget⟩ :=
    exists_tokenize_eq hlexicon hid hne
  let planner : Planner :=
    { limits := g.config.planner, thresholds := g.config.frequencies,
      constraints := { fullNameTerms := table.fullWordIds } }
  let phrase : Phrase := ⟨.untyped, termWords name, [normalize name] :: groupings⟩
  have hinterpret : g.interpret (.ofQuery (.free name)) (plainQuery name) =
      pure (planner.constraints, planner.plan [phrase] table [.root] false) := by
    rw [interpret, show (SearchRequest.ofQuery (.free name)).countries = [] from rfl, htokenize]
    rfl
  exact ⟨table.fullWordIds, g.config.frequencies.isRare n, _, hinterpret,
    Planner.leads_plan (Interpretation.isLightest_ofFullName id _)
      (Interpretation.isValid_ofFullName id _) hcost hbeam hphrase rfl
      (List.forall_mem_cons.2 ⟨List.cons_ne_nil _ _, hparts⟩) hget rfl
      (by rw [Token.extend_fullWord rfl rfl]; rfl) (termWords_ne_nil hne)⟩

end Geocoder

end Geocoding
