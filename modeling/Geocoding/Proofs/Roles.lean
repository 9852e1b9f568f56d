import Geocoding.Proofs.Fields
import Geocoding.Proofs.Leading
import Geocoding.Proofs.Terms

/-!
# Typed phrases

A phrase of a structured query has a role, and tokens are only read in the role they are meant for:
house numbers in the street, countries in the country, postcodes in the field for postcodes, and
types of places nowhere, as they need untyped text. Words are read in every phrase but the country.
`Interpretation.ReadInRoles` says so of everything that an interpretation has beyond what it was
read from. It holds of every series of steps in typed phrases
(`Interpretation.readInRoles_of_reads`), however the interpretations between them are pruned.
-/

namespace Geocoding

theorem Position.role_eq_of_mayBe {pos : Position} {role : PhraseRole}
    (htyped : pos.role ≠ .untyped) (h : pos.mayBe role = true) : pos.role = role := by
  simpa [Position.mayBe, htyped] using h

/-- In a phrase for the country, nothing fits but countries. -/
theorem Token.eq_country_of_fits {c : Constraints} {s : Interpretation} {pos : Position}
    {token : Token} (hrole : pos.role = .country) (h : token.fits c s pos = true) :
    ∃ id code, token = .country id code := by
  cases token with
  | country id code => exact ⟨id, code, rfl⟩
  | postcode | houseNumber | special | word =>
    simp [Token.fits, Position.mayBe, Position.isUntyped, hrole] at h

namespace Interpretation

variable {c : Constraints} {s s' t : Interpretation} {step : Step} {steps more : List Step}

/-- The word is in the name or in the address. -/
def HasWord (s : Interpretation) (id : Nat) : Prop :=
  s.Searches id ∨ s.SetsAside id

/-- Where a field has a text, it had it before, or one of the steps read it in a phrase of the
role. -/
def ReadAs (role : PhraseRole) (old new : Option String) (steps : List Step) : Prop :=
  ∀ text, new = some text →
    old = some text ∨ ∃ step ∈ steps, step.position.role = role ∧ step.token.HasText role text

/-- What the second interpretation has beyond the first was read by one of the steps, in a phrase of
the role for it. -/
structure ReadInRoles (s t : Interpretation) (steps : List Step) : Prop where
  placeType : t.placeType = s.placeType
  houseNumber : ReadAs .street s.houseNumber t.houseNumber steps
  country : ReadAs .country s.country t.country steps
  postcode : ReadAs .postalcode s.postcode t.postcode steps
  country_token : ∀ step ∈ steps, step.position.role = .country →
    ∃ id code, step.token = .country id code
  words : ∀ id, t.HasWord id → s.HasWord id ∨
    ∃ step ∈ steps, step.position.role ≠ .country ∧ step.token.Supplies id

/-! ## One step -/

theorem hasWord_of_leads_country (h : step.Leads c s t) {id : Nat} {code : String}
    (htoken : step.token = .country id code) {a : Nat} (ha : t.HasWord a) : s.HasWord a := by
  obtain ⟨token, pos, thresholds⟩ := step
  obtain rfl : token = .country id code := htoken
  cases h.extends with
  | countryLast | countryInside => exact ha

theorem hasWord_or_supplies_of_leads (h : step.Leads c s t) {a : Nat} (ha : t.HasWord a) :
    s.HasWord a ∨ step.token.Supplies a := by
  have haccounts := accountsFor_of_extends h.extends
  rcases ha with ha | ha
  · rcases haccounts.of_searches a ha with hs | ⟨token, htoken, hsupplies⟩
    · exact Or.inl (Or.inl hs)
    · obtain rfl := List.mem_singleton.1 htoken
      exact Or.inr hsupplies
  · rcases haccounts.of_setsAside a ha with hs | ⟨token, htoken, hid⟩
    · exact Or.inl (Or.inr hs)
    · obtain rfl := List.mem_singleton.1 htoken
      exact Or.inr (Or.inl hid)

theorem Step.Fills.readAs {role : PhraseRole} {old new : Option String}
    (h : step.Fills role old new) (htyped : step.position.role ≠ .untyped) :
    ReadAs role old new [step] := by
  intro text htext
  rcases h with heq | ⟨-, hpos, text', htoken, hnew⟩
  · exact Or.inl (heq ▸ htext)
  · obtain rfl := Option.some.inj (hnew.symm.trans htext)
    have hrole := Position.role_eq_of_mayBe htyped hpos
    exact Or.inr ⟨step, List.mem_singleton_self _, hrole, htoken⟩

theorem readInRoles_of_leads (h : step.Leads c s t) (htyped : step.position.role ≠ .untyped) :
    ReadInRoles s t [step] where
  placeType := by
    rcases h.placeType_eq_or with heq | ⟨-, -, huntyped⟩
    · exact heq
    · exact absurd (of_decide_eq_true huntyped) htyped
  houseNumber := h.fills_houseNumber.readAs htyped
  country := h.fills_country.readAs htyped
  postcode := h.fills_postcode.readAs htyped
  country_token step' hmem hrole := by
    obtain rfl := List.mem_singleton.1 hmem
    exact Token.eq_country_of_fits hrole h.1
  words id hid := by
    by_cases hrole : step.position.role = .country
    · obtain ⟨country, code, htoken⟩ := Token.eq_country_of_fits hrole h.1
      exact Or.inl (hasWord_of_leads_country h htoken hid)
    · rcases hasWord_or_supplies_of_leads h hid with hs | hsupplies
      · exact Or.inl hs
      · exact Or.inr ⟨step, List.mem_singleton_self _, hrole, hsupplies⟩

/-! ## Steps one after the other -/

theorem ReadInRoles.refl (s : Interpretation) : ReadInRoles s s [] where
  placeType := rfl
  houseNumber _ h := Or.inl h
  country _ h := Or.inl h
  postcode _ h := Or.inl h
  country_token _ h := absurd h List.not_mem_nil
  words _ h := Or.inl h

/-- What one of the later steps read was read by one of all steps. -/
theorem exists_mem_append {p q : Prop} {P : Step → Prop} (h : p ∨ ∃ step ∈ more, P step)
    (hp : p → q ∨ ∃ step ∈ steps, P step) : q ∨ ∃ step ∈ steps ++ more, P step := by
  rcases h with h | ⟨step, hmem, hstep⟩
  · rcases hp h with hq | ⟨step, hmem, hstep⟩
    · exact Or.inl hq
    · exact Or.inr ⟨step, List.mem_append_left _ hmem, hstep⟩
  · exact Or.inr ⟨step, List.mem_append_right _ hmem, hstep⟩

theorem ReadInRoles.trans (h : ReadInRoles s s' steps) (h' : ReadInRoles s' t more) :
    ReadInRoles s t (steps ++ more) where
  placeType := h'.placeType.trans h.placeType
  houseNumber text ht := exists_mem_append (h'.houseNumber text ht) (h.houseNumber text)
  country code ht := exists_mem_append (h'.country code ht) (h.country code)
  postcode code ht := exists_mem_append (h'.postcode code ht) (h.postcode code)
  country_token step hmem hrole := by
    rcases List.mem_append.1 hmem with hmem | hmem
    · exact h.country_token step hmem hrole
    · exact h'.country_token step hmem hrole
  words id ht := exists_mem_append (h'.words id ht) (h.words id)

theorem readInRoles_of_reads (h : Reads c s steps t)
    (htyped : ∀ step ∈ steps, step.position.role ≠ .untyped) : ReadInRoles s t steps := by
  induction h with
  | done => exact .refl _
  | step hstep _ ih =>
    obtain ⟨hfirst, hrest⟩ := List.forall_mem_cons.1 htyped
    exact (readInRoles_of_leads hstep hfirst).trans (ih hrest)

end Interpretation

namespace Planner

open Interpretation (Reads ReadAs ReadInRoles Step)

variable {p : Planner} {table : TokenTable} {phrases : List Phrase} {groupings : List Grouping}
  {steps : List Step} {count index : Nat} {step : Step}

/-- The token is one of a part of a grouping of some phrase of the role. -/
def Offers (table : TokenTable) (phrases : List Phrase) (role : PhraseRole) (token : Token) :
    Prop :=
  ∃ phrase ∈ phrases, phrase.role = role ∧
    ∃ grouping ∈ phrase.groupings, ∃ part ∈ grouping, token ∈ table.get part

theorem offers_of_takesPhrases (h : p.TakesPhrases table count index phrases groupings steps)
    (hstep : step ∈ steps) : Offers table phrases step.position.role step.token := by
  induction h with
  | done => exact absurd hstep List.not_mem_nil
  | @phrase index phrase rest grouping groupings steps more hgrouping hparts _ ih =>
    rcases List.mem_append.1 hstep with hstep | hstep
    · obtain ⟨hrole, -, part, hpart, htoken⟩ := hparts.of_mem hstep
      exact ⟨phrase, List.mem_cons_self, hrole.symm, grouping, hgrouping, part, hpart, htoken⟩
    · obtain ⟨phrase', hphrase', hoffers⟩ := ih hstep
      exact ⟨phrase', List.mem_cons_of_mem _ hphrase', hoffers⟩

theorem exists_offers_of_mem_plan {roots : List Interpretation} {s : Interpretation}
    (h : s ∈ (p.plan phrases table roots true).items) :
    ∃ root ∈ roots, ∃ steps,
      (∀ step ∈ steps, Offers table phrases step.position.role step.token) ∧
        Reads p.constraints root steps s := by
  by_cases htable : table.isEmpty = false
  · obtain ⟨root, hroot, groupings, steps, htakes, hreads⟩ := exists_takes_of_mem_plan htable h
    refine ⟨root, hroot, steps, fun step hstep => ?_, hreads⟩
    obtain ⟨phrase, hphrase, hoffers⟩ :=
      offers_of_takesPhrases (htakes.resolve_right (by simp)) hstep
    exact ⟨phrase, List.mem_of_mem_filter hphrase, hoffers⟩
  -- without tokens the roots are the plan, and no step leads to them
  · have hroot : s ∈ roots := mem_roots_of_mem_plan (fun hall => htable hall.1) h
    exact ⟨s, hroot, [], by simp, .done⟩

theorem exists_offers_of_readAs {role : PhraseRole} {old new : Option String}
    (h : ReadAs role old new steps) (hold : old = none)
    (hoffers : ∀ step ∈ steps, Offers table phrases step.position.role step.token) {text : String}
    (htext : new = some text) :
    ∃ token, Offers table phrases role token ∧ token.HasText role text := by
  rcases h text htext with hsome | ⟨step, hstep, rfl, htoken⟩
  · exact nomatch hold.symm.trans hsome
  · exact ⟨step.token, hoffers step hstep, htoken⟩

/-- Every interpretation of a structured query with typed phrases is read from one of the roots with
tokens of the phrases. However that is done, the type of places is that of the root, the country
comes from a phrase for the country, the postcode from one for postcodes and the house number from
one for the street, and no word comes from a phrase for the country. -/
theorem readInRoles_of_mem_plan (p : Planner) (table : TokenTable) (phrases : List Phrase)
    (roots : List Interpretation) (htyped : ∀ phrase ∈ phrases, phrase.role ≠ .untyped)
    (hroots : ∀ root ∈ roots,
      root.country = none ∧ root.postcode = none ∧ root.houseNumber = none)
    (s : Interpretation) (h : s ∈ (p.plan phrases table roots true).items) :
    (∃ root ∈ roots, ∃ steps,
      (∀ step ∈ steps, Offers table phrases step.position.role step.token) ∧
        Reads p.constraints root steps s) ∧
    ∀ root ∈ roots, ∀ steps,
      (∀ step ∈ steps, Offers table phrases step.position.role step.token) →
      Reads p.constraints root steps s →
        ReadInRoles root s steps ∧
        (∀ text, s.houseNumber = some text →
          ∃ id, Offers table phrases .street (.houseNumber id text)) ∧
        (∀ code, s.country = some code →
          ∃ id, Offers table phrases .country (.country id code)) ∧
        ∀ code, s.postcode = some code →
          ∃ id country, Offers table phrases .postalcode (.postcode id code country) := by
  refine ⟨exists_offers_of_mem_plan h, fun root hroot steps hoffers hreads => ?_⟩
  obtain ⟨hcountry, hpostcode, hhouseNumber⟩ := hroots root hroot
  have hroles : ReadInRoles root s steps := by
    refine Interpretation.readInRoles_of_reads hreads fun step hstep => ?_
    obtain ⟨phrase, hphrase, hrole, -⟩ := hoffers step hstep
    rw [← hrole]
    exact htyped phrase hphrase
  refine ⟨hroles, fun text htext => ?_, fun code hcode => ?_, fun code hcode => ?_⟩
  · obtain ⟨_, htoken, ⟨⟩⟩ :=
      exists_offers_of_readAs hroles.houseNumber hhouseNumber hoffers htext
    exact ⟨_, htoken⟩
  · obtain ⟨_, htoken, ⟨⟩⟩ := exists_offers_of_readAs hroles.country hcountry hoffers hcode
    exact ⟨_, htoken⟩
  · obtain ⟨_, htoken, ⟨⟩⟩ := exists_offers_of_readAs hroles.postcode hpostcode hoffers hcode
    exact ⟨_, _, htoken⟩

/-- A street with a house number, and a country, under names that could also be words. -/
def addressTable : TokenTable := .ofList [
  ("10", .houseNumber none "10"), ("10", .word ⟨1, "10", false, 8⟩),
  ("main", .word ⟨2, "main", false, 7⟩), ("germany", .country 3 "de"),
  ("germany", .word ⟨4, "germany", true, 2⟩)]

/-- The fields for the street and for the country, cut into the terms of `addressTable`. -/
def addressPhrases : List Phrase := [
  ⟨.street, ["main", "10"], [["main", "10"]]⟩, ⟨.country, ["germany"], [["germany"]]⟩]

/-- The street by its name, with the house number. -/
def mainTen : Interpretation :=
  { cost := 5, country := some "de", name := .singleton 2, hasRareName := true
    houseNumber := some "10" }

/-- The street by its name, which has the number as a word. -/
def mainTenName : Interpretation :=
  { cost := 5, country := some "de", name := (TermSet.singleton 1).insert 2, namePhrase := some 0 }

theorem mainTen_readInRoles :
    (∀ phrase ∈ addressPhrases, phrase.role ≠ .untyped) ∧
    (∀ root ∈ [Interpretation.root],
      root.country = none ∧ root.postcode = none ∧ root.houseNumber = none) ∧
    mainTen ∈ (({} : Planner).plan addressPhrases addressTable [.root] true).items ∧
    mainTen.placeType = Interpretation.root.placeType ∧
    (∃ id, Offers addressTable addressPhrases .street (.houseNumber id "10")) ∧
    ∃ id, Offers addressTable addressPhrases .country (.country id "de") := by
  have htyped : ∀ phrase ∈ addressPhrases, phrase.role ≠ .untyped := by decide
  have hroots : ∀ root ∈ [Interpretation.root],
      root.country = none ∧ root.postcode = none ∧ root.houseNumber = none := by decide
  have hitems : (({} : Planner).plan addressPhrases addressTable [.root] true).items =
      [mainTenName, mainTen] := by
    have hspoken : addressPhrases.filter (!·.words.isEmpty) = addressPhrases := rfl
    simp only [plan, passes, hspoken, pass]
    simp only [addressPhrases, readPhrases, readGroupings, List.foldl_cons, List.foldl_nil,
      readGrouping, readParts, advance, Interpretation.sorted_eq_insertionSort]
    rfl
  have hmem : mainTen ∈ (({} : Planner).plan addressPhrases addressTable [.root] true).items := by
    rw [hitems]
    simp
  obtain ⟨⟨root, hroot, steps, hoffers, hreads⟩, hroles⟩ :=
    readInRoles_of_mem_plan {} addressTable addressPhrases [.root] htyped hroots mainTen hmem
  obtain ⟨hread, hnumber, hcountry, -⟩ := hroles root hroot steps hoffers hreads
  obtain rfl := List.mem_singleton.1 hroot
  exact ⟨htyped, hroots, hmem, hread.placeType, hnumber "10" rfl, hcountry "de" rfl⟩

end Planner

end Geocoding
