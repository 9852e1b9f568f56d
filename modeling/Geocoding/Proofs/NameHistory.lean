import Geocoding.Proofs.Fields

/-!
# A name is from one phrase

An interpretation does not tell where the words of its name are from. Its `namePhrase` is lost when
the name is closed, stays when a house number or a postcode takes the place of the name, and is
never set by a full word. So the phrases are written down beside it: a history tells which words of
the name were put there while which phrase was read (`Interpretation.Traces`).

The invariant is `Interpretation.HistorySound`: no word of a name is from before the phrase that the
name is open for. A word only joins others in the phrase that the name is open for. If phrases are
read in order, these others are not from a later phrase either
(`Interpretation.record_iff_of_puts`).
-/

namespace Geocoding

/-- The token is read as the word `id` of the name to search for. -/
inductive Token.Names (f : FrequencyThresholds) (s : Interpretation) (pos : Position) :
    Token → Nat → Interpretation → Prop
  | postcode {id code country} :
      Names f s pos (.postcode id code country) (id.getD 0) ((s.charge 1).searchPostcode id code)
  | houseNumber {id text} :
      Names f s pos (.houseNumber (some id) text) id
        ((s.charge (houseNumberCost (some id) text s)).readHouseName id)
  | fullWord {w} (hfull : w.isFull = true) (hname : s.hasAnyName = false) :
      Names f s pos (.word w) w.id ((s.charge 1).readFullName w.id (f.isRare w.occurrences))
  | partialWord {w t} (hfull : w.isFull = false) (hcommon : f.isCommon w.occurrences = false)
      (ht : t ∈ nameReading w f s pos) : Names f s pos (.word w) w.id t

namespace Interpretation

variable {c : Constraints} {root s t : Interpretation} {step : Step} {steps : List Step}
  {f : FrequencyThresholds} {pos : Position} {token : Token} {a b : Nat}

theorem hasAnyName_of_mem_name (h : a ∈ s.name) : s.hasAnyName = true := by
  have hname : s.name.isEmpty = false := by
    rw [Bool.eq_false_iff]
    intro hempty
    exact TermSet.isEmpty_iff.1 hempty a h
  simp [hasAnyName, hname]

/-! ## Words that are put into the name -/

theorem mem_name_of_names (h : token.Names f s pos a t) : a ∈ t.name := by
  cases h with
  | postcode | houseNumber | fullWord => exact TermSet.mem_singleton.2 rfl
  | partialWord hfull hcommon ht =>
    obtain ⟨-, rfl⟩ := Token.mem_nameReading_iff.1 ht
    simp [hcommon, readNameWord]

theorem names_of_extends (h : token.Extends c f s pos t) (ha : a ∈ t.name) (hs : a ∉ s.name) :
    token.Names f s pos a t := by
  cases h with
  | postcodeSearched =>
    obtain rfl := TermSet.mem_singleton.1 ha
    exact .postcode
  | houseName =>
    obtain rfl := TermSet.mem_singleton.1 ha
    exact .houseNumber
  | fullName hfull hname =>
    obtain rfl := TermSet.mem_singleton.1 ha
    exact .fullWord hfull hname
  | partialAddress =>
    rw [name_readAddressWord] at ha
    exact absurd ha hs
  | partialName hfull hcommon hpostcode haddress hname =>
    rcases TermSet.mem_insert.1 ha with rfl | ha
    · refine .partialWord hfull hcommon (Token.mem_nameReading_iff.2 ⟨?_, by simp [hcommon]⟩)
      exact ⟨hpostcode, haddress, hname⟩
    · exact absurd ha hs
  | _ => exact absurd ha hs

/-- A word joins others only in the phrase that the name is open for. -/
theorem namePhrase_of_names (h : token.Names f s pos a t) (hb : b ∈ t.name) (hne : b ≠ a) :
    b ∈ s.name ∧ s.namePhrase = some pos.phrase := by
  cases h with
  | postcode | houseNumber | fullWord => exact absurd (TermSet.mem_singleton.1 hb) hne
  | partialWord hfull hcommon ht =>
    obtain ⟨⟨-, -, hname⟩, rfl⟩ := Token.mem_nameReading_iff.1 ht
    have hbs : b ∈ s.name := by
      simpa [hcommon, readNameWord, settleRareName, charge, hne] using hb
    refine ⟨hbs, hname.resolve_left ?_⟩
    simp [hasAnyName_of_mem_name hbs]

/-- A name is opened only where there is none. -/
theorem of_namePhrase_eq_some (h : token.Extends c f s pos t) {q : Nat}
    (hq : t.namePhrase = some q) :
    s.namePhrase = some q ∨ q = pos.phrase ∧ s.hasAnyName = false ∧ t.hasAnyName = true := by
  cases h with
  | countryLast | postcodeSearched | houseName | fullName => exact Or.inl hq
  | partialAddress =>
    rw [namePhrase_readAddressWord] at hq
    exact Or.inl hq
  | partialCommonName _ _ _ _ hname | partialName _ _ _ _ hname =>
    rcases hname with hname | hname
    · exact Or.inr ⟨(Option.some.inj hq).symm, hname, hasAnyName_readNameWord ..⟩
    · exact Or.inl (hname.trans hq)
  | _ => exact nomatch hq

/-- Whatever can be made from the root, be it by tokens that do not fit. -/
inductive Buildable (c : Constraints) : Interpretation → Prop
  | empty : Buildable c Interpretation.root
  | withPlaceType {s : Interpretation} (mode : SearchMode) (placeType : PlaceType)
      (h : Buildable c s) : Buildable c (s.withPlaceType mode placeType)
  | extend {s t : Interpretation} {token : Token} {f : FrequencyThresholds} {pos : Position}
      (h : Buildable c s) (ht : t ∈ token.extend c f s pos) : Buildable c t

/-- A name is open only if there is one. -/
theorem Buildable.hasAnyName (h : s.Buildable c) {q : Nat} (hq : s.namePhrase = some q) :
    s.hasAnyName = true := by
  induction h with
  | empty => exact nomatch hq
  | withPlaceType mode placeType _ ih => exact ih hq
  | extend _ ht ih =>
    have hextends := Token.mem_extend_iff.1 ht
    rcases of_namePhrase_eq_some hextends hq with hs | ⟨-, -, hany⟩
    · exact hasAnyName_of_extends hextends (ih hs)
    · exact hany

/-! ## The history of a name -/

/-- The phrases that were read when a word was put into the name, as long as it is there. -/
abbrev NameHistory := Nat → Nat → Prop

/-- The step leads from one interpretation to the other and puts the word into the name. -/
def Step.Puts (step : Step) (c : Constraints) (s t : Interpretation) (id : Nat) : Prop :=
  step.Leads c s t ∧ step.token.Names step.thresholds s step.position id t

/-- The history after a step. -/
def Step.record (step : Step) (c : Constraints) (s t : Interpretation) (history : NameHistory) :
    NameHistory := fun id phrase =>
  history id phrase ∧ id ∈ t.name ∨ step.Puts c s t id ∧ phrase = step.position.phrase

/-- The steps lead from the root to the interpretation and leave the history. -/
inductive Traces (c : Constraints) (root : Interpretation) :
    List Step → Interpretation → NameHistory → Prop
  | start : Traces c root [] root fun _ _ => False
  | step {steps s history step t} (htraces : Traces c root steps s history)
      (hstep : step.Leads c s t) :
      Traces c root (steps ++ [step]) t (step.record c s t history)

/-- No step is for a phrase before that of an earlier step. -/
def InPhraseOrder (steps : List Step) : Prop :=
  steps.Pairwise fun earlier later => earlier.position.phrase ≤ later.position.phrase

theorem InPhraseOrder.of_concat (h : InPhraseOrder (steps ++ [step])) :
    InPhraseOrder steps ∧
      ∀ earlier ∈ steps, earlier.position.phrase ≤ step.position.phrase := by
  obtain ⟨hsteps, -, hle⟩ := List.pairwise_append.1 h
  exact ⟨hsteps, fun earlier hearlier => hle earlier hearlier step (by simp)⟩

/-- The history has every word of the name and none besides, with phrases that have been read, and
none of which is before the phrase that the name is open for. -/
structure HistorySound (steps : List Step) (s : Interpretation) (history : NameHistory) :
    Prop where
  exists_phrase : ∀ id ∈ s.name, ∃ phrase, history id phrase
  mem_name : ∀ id phrase, history id phrase → id ∈ s.name
  phrase_read : ∀ id phrase, history id phrase → ∃ step ∈ steps, step.position.phrase = phrase
  current_read : ∀ q, s.namePhrase = some q → ∃ step ∈ steps, step.position.phrase = q
  current_le : ∀ q, s.namePhrase = some q → ∀ id phrase, history id phrase → q ≤ phrase

theorem historySound_root (hbuilt : root.Buildable c) (hroot : root.hasAnyName = false) :
    HistorySound [] root fun _ _ => False := by
  have hclosed : root.namePhrase = none := by
    rw [Option.eq_none_iff_forall_ne_some]
    intro q hq
    simp [hbuilt.hasAnyName hq] at hroot
  refine ⟨fun id hid => ?_, nofun, nofun, fun q hq => ?_, fun q _ => nofun⟩
  · simp [hasAnyName_of_mem_name hid] at hroot
  · exact nomatch hclosed.symm.trans hq

namespace HistorySound

variable {history : NameHistory}

theorem leads (h : HistorySound steps s history) (hstep : step.Leads c s t)
    (hlast : ∀ earlier ∈ steps, earlier.position.phrase ≤ step.position.phrase) :
    HistorySound (steps ++ [step]) t (step.record c s t history) where
  exists_phrase id hid := by
    by_cases hs : id ∈ s.name
    · obtain ⟨phrase, hphrase⟩ := h.exists_phrase id hs
      exact ⟨phrase, Or.inl ⟨hphrase, hid⟩⟩
    · have hnames := names_of_extends hstep.extends hid hs
      exact ⟨step.position.phrase, Or.inr ⟨⟨hstep, hnames⟩, rfl⟩⟩
  mem_name id phrase := by
    rintro (⟨-, hid⟩ | ⟨hputs, -⟩)
    · exact hid
    · exact mem_name_of_names hputs.2
  phrase_read id phrase := by
    rintro (⟨hphrase, -⟩ | ⟨-, rfl⟩)
    · obtain ⟨earlier, hearlier, heq⟩ := h.phrase_read id phrase hphrase
      exact ⟨earlier, List.mem_append_left _ hearlier, heq⟩
    · exact ⟨step, by simp, rfl⟩
  current_read q hq := by
    rcases of_namePhrase_eq_some hstep.extends hq with hs | ⟨rfl, -, -⟩
    · obtain ⟨earlier, hearlier, heq⟩ := h.current_read q hs
      exact ⟨earlier, List.mem_append_left _ hearlier, heq⟩
    · exact ⟨step, by simp, rfl⟩
  current_le q hq id phrase := by
    rcases of_namePhrase_eq_some hstep.extends hq with hs | ⟨rfl, hnone, -⟩
    -- open before this step, so for a phrase that was read, and none of those comes after the step's
    · rintro (⟨hphrase, -⟩ | ⟨-, rfl⟩)
      · exact h.current_le q hs id phrase hphrase
      · obtain ⟨earlier, hearlier, rfl⟩ := h.current_read q hs
        exact hlast earlier hearlier
    -- opened by this step, so there was no word that could have a phrase
    · rintro (⟨hphrase, -⟩ | ⟨-, rfl⟩)
      · have hany := hasAnyName_of_mem_name (h.mem_name id phrase hphrase)
        simp [hany] at hnone
      · exact Nat.le_refl _

end HistorySound

theorem historySound_of_traces {history : NameHistory} (h : Traces c root steps s history)
    (hbuilt : root.Buildable c) (hroot : root.hasAnyName = false) (horder : InPhraseOrder steps) :
    HistorySound steps s history := by
  induction h with
  | start => exact historySound_root hbuilt hroot
  | step _ hstep ih =>
    obtain ⟨hsteps, hlast⟩ := horder.of_concat
    exact (ih hsteps).leads hstep hlast

end Interpretation

namespace Planner

open Interpretation (InPhraseOrder)

variable {p : Planner} {table : TokenTable} {phrases : List Phrase} {groupings : List Grouping}
  {steps : List Interpretation.Step} {count index : Nat}

theorem le_phrase_of_takesPhrases
    (h : p.TakesPhrases table count index phrases groupings steps) :
    ∀ step ∈ steps, index ≤ step.position.phrase := by
  induction h with
  | done => exact fun _ hstep => absurd hstep List.not_mem_nil
  | phrase _ hparts _ ih =>
    intro step hstep
    rcases List.mem_append.1 hstep with hstep | hstep
    · exact Nat.le_of_eq (hparts.of_mem hstep).2.1.symm
    · exact Nat.le_of_succ_le (ih step hstep)

theorem inPhraseOrder_of_takesPhrases
    (h : p.TakesPhrases table count index phrases groupings steps) : InPhraseOrder steps := by
  induction h with
  | done => exact .nil
  | @phrase index phrase rest grouping groupings steps more _ hparts hrest ih =>
    have hphrase : ∀ step ∈ steps, step.position.phrase = index :=
      fun step hstep => (hparts.of_mem hstep).2.1
    refine List.pairwise_append.2 ⟨?_, ih, ?_⟩
    · refine List.pairwise_of_forall_mem_list fun earlier hearlier later hlater => ?_
      rw [hphrase earlier hearlier, hphrase later hlater]
    · intro earlier hearlier later hlater
      have hle := le_phrase_of_takesPhrases hrest later hlater
      rw [hphrase earlier hearlier]
      omega

end Planner

namespace Interpretation

/-- A pass over phrases reads them in order. And when phrases are read in order from a root without
a name, then a step that puts a word into the name finds no words there but such as were put there
for the phrase of that step, and for no other phrase. -/
theorem record_iff_of_puts (c : Constraints) :
    (∀ (p : Planner) (table : TokenTable) (count index : Nat) (phrases : List Phrase)
      (groupings : List Grouping) (steps : List Step),
      p.TakesPhrases table count index phrases groupings steps → InPhraseOrder steps) ∧
    ∀ (root s t : Interpretation) (steps : List Step) (step : Step) (history : NameHistory)
      (a : Nat), root.Buildable c → root.hasAnyName = false → Traces c root steps s history →
      step.Puts c s t a → InPhraseOrder (steps ++ [step]) →
      ∀ b ∈ t.name, b ≠ a → ∀ phrase,
        step.record c s t history b phrase ↔ phrase = step.position.phrase := by
  refine ⟨fun _ _ _ _ _ _ _ h => Planner.inPhraseOrder_of_takesPhrases h, ?_⟩
  intro root s t steps step history a hbuilt hroot htraces hputs horder b hb hne phrase
  obtain ⟨hsteps, hlast⟩ := horder.of_concat
  have hsound : HistorySound steps s history :=
    historySound_of_traces htraces hbuilt hroot hsteps
  obtain ⟨hbs, hcurrent⟩ := namePhrase_of_names hputs.2 hb hne
  -- no word is from before the phrase that the name is open for, or from one still to come
  have heq : ∀ q, history b q → q = step.position.phrase := by
    intro q hq
    obtain ⟨earlier, hearlier, rfl⟩ := hsound.phrase_read b q hq
    have hle : step.position.phrase ≤ earlier.position.phrase :=
      hsound.current_le _ hcurrent b _ hq
    have hge := hlast earlier hearlier
    omega
  constructor
  · rintro (⟨hphrase, -⟩ | ⟨-, rfl⟩)
    · exact heq phrase hphrase
    · rfl
  · rintro rfl
    obtain ⟨q, hq⟩ := hsound.exists_phrase b hbs
    rw [← heq q hq]
    exact Or.inl ⟨hq, hb⟩

/-- A country, and in the next phrase the first word of a name. -/
def germanyMain : List Step := [
  ⟨.country 7 "de", ⟨.untyped, 0, 2, 0, 1⟩, {}⟩,
  ⟨.word ⟨2, "main", false, 7⟩, ⟨.untyped, 1, 2, 0, 2⟩, {}⟩]

/-- The second word of the name. -/
def square : Step := ⟨.word ⟨3, "square", false, 90⟩, ⟨.untyped, 1, 2, 1, 2⟩, {}⟩

theorem square_record :
    ∃ s t history, Interpretation.root.Buildable {} ∧ Interpretation.root.hasAnyName = false ∧
      Traces {} Interpretation.root germanyMain s history ∧ square.Puts {} s t 3 ∧
      InPhraseOrder (germanyMain ++ [square]) ∧ 2 ∈ t.name ∧
      ∀ phrase, square.record {} s t history 2 phrase ↔ phrase = 1 := by
  have hgermany : (Step.mk (.country 7 "de") ⟨.untyped, 0, 2, 0, 1⟩ {}).Leads {}
      Interpretation.root { cost := 6, country := some "de" } := ⟨by decide, by decide⟩
  have hmain : (Step.mk (.word ⟨2, "main", false, 7⟩) ⟨.untyped, 1, 2, 0, 2⟩ {}).Leads {}
      { cost := 6, country := some "de" }
      { cost := 8, country := some "de", name := .singleton 2, hasRareName := true
        namePhrase := some 1 } := ⟨by decide, by decide⟩
  have hsquare : square.Puts {}
      { cost := 8, country := some "de", name := .singleton 2, hasRareName := true
        namePhrase := some 1 }
      { cost := 9, country := some "de", name := (TermSet.singleton 2).insert 3
        namePhrase := some 1 } 3 :=
    ⟨⟨by decide, by decide⟩, .partialWord rfl rfl (by decide)⟩
  have htraces := (Traces.start.step hgermany).step hmain
  have horder : InPhraseOrder (germanyMain ++ [square]) := by
    unfold InPhraseOrder
    decide
  have hmem : 2 ∈ (TermSet.singleton 2).insert 3 := by decide
  exact ⟨_, _, _, .empty, rfl, htraces, hsquare, horder, hmem,
    (record_iff_of_puts {}).2 _ _ _ _ _ _ _ .empty rfl htraces hsquare horder 2 hmem (by decide)⟩

end Interpretation

end Geocoding
