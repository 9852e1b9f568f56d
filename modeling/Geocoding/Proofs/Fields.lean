import Geocoding.Proofs.Reading

/-!
# What is read stays

The country, the postcode, the house number, the search mode and the type of places are each written
by tokens of one kind, the postcode and the mode by those of two. A token fits only while its field
is empty (`Interpretation.Step.Fills`), except for the type of places, which is guarded by the mode
instead: whatever writes the type makes the mode a special one, so that nothing writes it again
(`Interpretation.TypeHasMode`).

So a field that is set keeps its value for good, and there is a name for good once there is a word
of it (`Interpretation.Keeps`).
-/

namespace Geocoding

/-- The token is of the kind that phrases of the role are for, and this is its text. -/
inductive Token.HasText : Token → PhraseRole → String → Prop
  | country {id code} : HasText (.country id code) .country code
  | postcode {id code country} : HasText (.postcode id code country) .postalcode code
  | houseNumber {id text} : HasText (.houseNumber id text) .street text

namespace Interpretation

variable {c : Constraints} {root s s' t : Interpretation} {step : Step} {steps first more : List Step}

/-! ## What a token writes -/

/-- A field stays as it is, or it was empty and has the text of the token, which is one for the role
and stands where it may be read as such. -/
def Step.Fills (step : Step) (role : PhraseRole) (old new : Option String) : Prop :=
  new = old ∨ old = none ∧ step.position.mayBe role = true ∧
    ∃ text, step.token.HasText role text ∧ new = some text

theorem Step.Fills.eq_some {role : PhraseRole} {old new : Option String}
    (h : step.Fills role old new) {text : String} (hold : old = some text) : new = some text := by
  rcases h with heq | ⟨hnone, -⟩
  · exact heq.trans hold
  · exact nomatch hnone.symm.trans hold

theorem Step.Leads.fills_country (h : step.Leads c s t) :
    step.Fills .country s.country t.country := by
  obtain ⟨token, pos, thresholds⟩ := step
  have hfits := h.1
  have hextends := h.extends
  cases hextends with
  | countryLast | countryInside =>
    simp only [Token.fits, Bool.and_eq_true, Option.isNone_iff_eq_none] at hfits
    obtain ⟨⟨hnone, hpos⟩, -⟩ := hfits
    exact Or.inr ⟨hnone, hpos, _, .country, rfl⟩
  | partialAddress => exact Or.inl (country_readAddressWord ..)
  | _ => exact Or.inl rfl

theorem Step.Leads.fills_postcode (h : step.Leads c s t) :
    step.Fills .postalcode s.postcode t.postcode := by
  obtain ⟨token, pos, thresholds⟩ := step
  have hfits := h.1
  have hextends := h.extends
  cases hextends with
  | postcodeSearched | postcodeNarrowing =>
    simp only [Token.fits, Bool.and_eq_true, Option.isNone_iff_eq_none] at hfits
    obtain ⟨hnone, hpos⟩ := hfits
    exact Or.inr ⟨hnone, hpos, _, .postcode, rfl⟩
  | partialAddress => exact Or.inl (postcode_readAddressWord ..)
  | _ => exact Or.inl rfl

theorem Step.Leads.fills_houseNumber (h : step.Leads c s t) :
    step.Fills .street s.houseNumber t.houseNumber := by
  obtain ⟨token, pos, thresholds⟩ := step
  have hfits := h.1
  have hextends := h.extends
  cases hextends with
  | houseNumber =>
    simp only [Token.fits, Bool.and_eq_true, Option.isNone_iff_eq_none] at hfits
    obtain ⟨⟨hnone, -⟩, hpos⟩ := hfits
    exact Or.inr ⟨hnone, hpos, _, .houseNumber, rfl⟩
  | partialAddress => exact Or.inl (houseNumber_readAddressWord ..)
  | _ => exact Or.inl rfl

theorem Step.Leads.allows (h : step.Leads c s t) {code : String}
    (htoken : step.token.HasText .country code) : c.allows code = true := by
  obtain ⟨token, pos, thresholds⟩ := step
  have hfits := h.1
  cases htoken
  simp only [Token.fits, Bool.and_eq_true] at hfits
  exact hfits.2

theorem Step.Leads.mode_eq_or (h : step.Leads c s t) : t.mode = s.mode ∨ s.mode = .plain := by
  obtain ⟨token, pos, thresholds⟩ := step
  have hfits := h.1
  have hextends := h.extends
  cases hextends with
  | postcodeSearched hmode => exact Or.inr hmode
  | specialInferred | specialGiven =>
    simp only [Token.fits, Bool.and_eq_true, beq_iff_eq] at hfits
    exact Or.inr hfits.1.1
  | partialAddress => exact Or.inl (mode_readAddressWord ..)
  | _ => exact Or.inl rfl

theorem inferredMode_ne_plain (c : Constraints) (s : Interpretation) (pos : Position) :
    Token.inferredMode c s pos ≠ .plain := by
  unfold Token.inferredMode
  split <;> exact nofun

theorem Step.Leads.placeType_eq_or (h : step.Leads c s t) :
    t.placeType = s.placeType ∨
      s.mode = .plain ∧ t.mode ≠ .plain ∧ step.position.isUntyped = true := by
  obtain ⟨token, pos, thresholds⟩ := step
  have hfits := h.1
  have hextends := h.extends
  cases hextends with
  | specialInferred =>
    simp only [Token.fits, Bool.and_eq_true, beq_iff_eq] at hfits
    exact Or.inr ⟨hfits.1.1, inferredMode_ne_plain c s pos, hfits.1.2⟩
  | specialGiven hmode =>
    simp only [Token.fits, Bool.and_eq_true, beq_iff_eq] at hfits
    exact Or.inr ⟨hfits.1.1, hmode, hfits.1.2⟩
  | partialAddress => exact Or.inl (placeType_readAddressWord ..)
  | _ => exact Or.inl rfl

theorem hasAnyName_of_extends {thresholds : FrequencyThresholds} {pos : Position} {token : Token}
    (h : token.Extends c thresholds s pos t) (hs : s.hasAnyName = true) :
    t.hasAnyName = true := by
  cases h with
  | postcodeSearched | houseName | fullName => rfl
  | partialAddress => rwa [hasAnyName_readAddressWord]
  | partialCommonName | partialName => exact hasAnyName_readNameWord ..
  | _ => exact hs

/-! ## What stays -/

/-- What is set in the first interpretation has the same value in the second. -/
structure Keeps (s t : Interpretation) : Prop where
  country : ∀ code, s.country = some code → t.country = some code
  postcode : ∀ code, s.postcode = some code → t.postcode = some code
  houseNumber : ∀ text, s.houseNumber = some text → t.houseNumber = some text
  mode : s.mode ≠ .plain → t.mode = s.mode
  placeType : ∀ placeType, s.placeType = some placeType → t.placeType = some placeType
  hasAnyName : s.hasAnyName = true → t.hasAnyName = true

theorem Keeps.refl (s : Interpretation) : Keeps s s where
  country _ h := h
  postcode _ h := h
  houseNumber _ h := h
  mode _ := rfl
  placeType _ h := h
  hasAnyName h := h

theorem Keeps.trans (h : Keeps s s') (h' : Keeps s' t) : Keeps s t where
  country code hs := h'.country code (h.country code hs)
  postcode code hs := h'.postcode code (h.postcode code hs)
  houseNumber text hs := h'.houseNumber text (h.houseNumber text hs)
  mode hs := by
    have hmode := h.mode hs
    rw [← hmode] at hs
    exact (h'.mode hs).trans hmode
  placeType placeType hs := h'.placeType placeType (h.placeType placeType hs)
  hasAnyName hs := h'.hasAnyName (h.hasAnyName hs)

/-- A type of places is only there together with a mode that says how to search for it. -/
def TypeHasMode (s : Interpretation) : Prop :=
  s.placeType ≠ none → s.mode ≠ .plain

theorem TypeHasMode.leads (h : s.TypeHasMode) (hleads : step.Leads c s t) : t.TypeHasMode := by
  intro htype
  rcases hleads.placeType_eq_or with heq | ⟨-, hmode, -⟩
  · have hs : s.mode ≠ .plain := h (heq ▸ htype)
    rw [hleads.mode_eq_or.resolve_right hs]
    exact hs
  · exact hmode

theorem keeps_of_leads (h : step.Leads c s t) (hs : s.TypeHasMode) : Keeps s t where
  country _ := h.fills_country.eq_some
  postcode _ := h.fills_postcode.eq_some
  houseNumber _ := h.fills_houseNumber.eq_some
  mode hmode := h.mode_eq_or.resolve_right hmode
  placeType placeType htype := by
    -- no token is kept away by the type itself, only by the mode that came with it
    have hmode : s.mode ≠ .plain := hs (by simp [htype])
    rcases h.placeType_eq_or with heq | ⟨hplain, -⟩
    · exact heq.trans htype
    · exact absurd hplain hmode
  hasAnyName := hasAnyName_of_extends h.extends

theorem keeps_of_reads (h : Reads c s steps t) (hs : s.TypeHasMode) :
    Keeps s t ∧ t.TypeHasMode := by
  induction h with
  | done => exact ⟨.refl _, hs⟩
  | step hstep _ ih =>
    obtain ⟨hkeeps, ht⟩ := ih (hs.leads hstep)
    exact ⟨(keeps_of_leads hstep hs).trans hkeeps, ht⟩

theorem allows_of_reads (h : Reads c s steps t) (hs : s.country = none) {code : String}
    (hcode : t.country = some code) : c.allows code = true := by
  have hallows : ∀ code, t.country = some code → c.allows code = true := by
    refine h.invariant (P := fun u => ∀ code, u.country = some code → c.allows code = true)
      (fun code hcode => nomatch hs.symm.trans hcode) ?_
    intro step _ u v hleads hu code hcode
    rcases hleads.fills_country with heq | ⟨-, -, code', htoken, hcode'⟩
    · exact hu code (heq ▸ hcode)
    · obtain rfl := Option.some.inj (hcode'.symm.trans hcode)
      exact hleads.allows htoken
  exact hallows code hcode

/-- What planning starts from: nothing, or a type of places with a mode to search for it. -/
def IsStart (s : Interpretation) : Prop :=
  s = Interpretation.root ∨
    ∃ mode placeType, mode ≠ .plain ∧ s = Interpretation.root.withPlaceType mode placeType

theorem IsStart.typeHasMode (h : s.IsStart) : s.TypeHasMode := by
  rcases h with rfl | ⟨mode, placeType, hmode, rfl⟩
  · exact fun h => absurd rfl h
  · exact fun _ => hmode

theorem IsStart.country_eq_none (h : s.IsStart) : s.country = none := by
  rcases h with rfl | ⟨mode, placeType, -, rfl⟩
  · rfl
  · rfl

/-- Whatever is read from a start, and wherever it stands, what is settled by then stays, and a
country that was read is one that the constraints allow. -/
theorem keeps_and_allows_of_reads (hroot : root.IsStart) (hfirst : Reads c root first s)
    (hmore : Reads c s more t) :
    Keeps s t ∧ ∀ code, s.country = some code → c.allows code = true := by
  have hs : s.TypeHasMode := (keeps_of_reads hfirst hroot.typeHasMode).2
  have hkeeps : Keeps s t := (keeps_of_reads hmore hs).1
  exact ⟨hkeeps, fun code hcode => allows_of_reads hfirst hroot.country_eq_none hcode⟩

/-- Pubs, in Germany. -/
def pubsInGermany : List Step := [
  ⟨.special 9 ⟨"amenity", "pub"⟩ .plain, ⟨.untyped, 0, 3, 0, 1⟩, {}⟩,
  ⟨.country 7 "de", ⟨.untyped, 1, 3, 0, 1⟩, {}⟩]

/-- A city, and a house number that the vocabulary does not know. -/
def bonnTwelve : List Step := [
  ⟨.word ⟨5, "bonn", true, 1⟩, ⟨.untyped, 2, 3, 0, 2⟩, {}⟩,
  ⟨.houseNumber none "12", ⟨.untyped, 2, 3, 1, 2⟩, {}⟩]

/-- The type and the country that `pubsInGermany` leads to. -/
def germanPubs : Interpretation :=
  { cost := 11, country := some "de", mode := .named, placeType := some ⟨"amenity", "pub"⟩ }

theorem reads_pubsInGermany :
    Reads { countries := ["de", "nl"] } Interpretation.root pubsInGermany germanPubs := by
  have hpubs : Reads { countries := ["de", "nl"] } Interpretation.root (pubsInGermany.take 1)
      { cost := 5, mode := .named, placeType := some ⟨"amenity", "pub"⟩ } :=
    .of_leads ⟨rfl, by decide⟩
  have hcountry : Reads { countries := ["de", "nl"] }
      { cost := 5, mode := .named, placeType := some ⟨"amenity", "pub"⟩ } (pubsInGermany.drop 1)
      germanPubs := .of_leads ⟨by decide, by decide⟩
  exact hpubs.append hcountry

theorem germanPubs_kept :
    Interpretation.root.IsStart ∧
    Reads { countries := ["de", "nl"] } Interpretation.root pubsInGermany germanPubs ∧
    ∃ t, Reads { countries := ["de", "nl"] } germanPubs bonnTwelve t ∧
      t.houseNumber = some "12" ∧ t.country = some "de" ∧ t.mode = .named ∧
      t.placeType = some ⟨"amenity", "pub"⟩ ∧
      ({ countries := ["de", "nl"] } : Constraints).allows "de" = true := by
  have hcity : Reads { countries := ["de", "nl"] } germanPubs (bonnTwelve.take 1)
      { germanPubs with cost := 12, name := .singleton 5, hasRareName := true } :=
    .of_leads ⟨rfl, by decide⟩
  have hnumber : Reads { countries := ["de", "nl"] }
      { germanPubs with cost := 12, name := .singleton 5, hasRareName := true }
      (bonnTwelve.drop 1)
      { germanPubs with cost := 15, name := .singleton 5, hasRareName := true,
                        houseNumber := some "12" } :=
    .of_leads ⟨rfl, by decide⟩
  have hmore := hcity.append hnumber
  obtain ⟨hkeeps, hallows⟩ :=
    keeps_and_allows_of_reads (Or.inl rfl) reads_pubsInGermany hmore
  exact ⟨Or.inl rfl, reads_pubsInGermany, _, hmore, rfl, hkeeps.country _ rfl,
    hkeeps.mode nofun, hkeeps.placeType _ rfl, hallows _ rfl⟩

end Interpretation

end Geocoding
