import Geocoding.Proofs.Reading
import Geocoding.Resolve.Lookup

/-!
# Searching for a postcode

A postcode that is searched for takes the place of the name. One that the vocabulary does not know
leaves the id zero there, which no word has; an index that was asked for a place of that name would
be asked for nothing. It never is: `Interpretation.PostcodeSound` holds of every interpretation that
is read from a root (`Interpretation.postcodeSound_of_reads`), by which zero stands only for a
postcode that is searched for, and such an interpretation is looked up among the postcodes only.

Nothing is read into the name or made of the mode once a postcode is searched for
(`Interpretation.Step.Leads.keeps_postcodeMode`). This takes four different conditions of the rules:
the mode is taken, so that no phrase for a type fits; it is the mode for postcodes, so that no house
number fits; the postcode is there, so that no other one fits and no partial word is read into the
name; and the name is there, so that no full word is read as one.
-/

namespace Geocoding

/-- What planning starts from: nothing, or a type of places to search for in a mode other than that
for postcodes. -/
def Interpretation.IsRoot (s : Interpretation) : Prop :=
  s = root ∨ ∃ mode placeType, mode ≠ .postcode ∧ s = root.withPlaceType mode placeType

/-- A token whose id is a word of the vocabulary, where ids begin with one, and that is no phrase
which settles the mode for postcodes. -/
def Token.IsOrdinary (token : Token) : Prop :=
  (∀ id, token.id? = some id → 1 ≤ id) ∧ ∀ id placeType, token ≠ .special id placeType .postcode

namespace Interpretation

variable {c : Constraints} {s s' t : Interpretation} {step : Step} {steps : List Step}
  {tokens : List Token}

/-! ## What one token can change -/

/-- A postcode that is searched for stays, and is the whole name for good. -/
theorem Step.Leads.keeps_postcodeMode (h : step.Leads c s t) (hmode : s.mode = .postcode)
    (hpostcode : s.postcode ≠ none) (hname : s.hasName = true) :
    t.mode = .postcode ∧ t.postcode = s.postcode ∧ t.name = s.name ∧
      t.houseNumber = s.houseNumber := by
  obtain ⟨token, pos, thresholds⟩ := step
  have hfits := h.1
  have hextends := h.extends
  rw [← hmode]
  cases hextends with
  | countryLast => exact ⟨rfl, rfl, rfl, rfl⟩
  | countryInside => exact ⟨rfl, rfl, rfl, rfl⟩
  | postcodeSearched => simp [Token.fits, hpostcode] at hfits
  | postcodeNarrowing => simp [Token.fits, hpostcode] at hfits
  | houseNumber => simp [Token.fits, hmode] at hfits
  | houseName => simp [Token.fits, hmode] at hfits
  | specialInferred => simp [Token.fits, hmode] at hfits
  | specialGiven => simp [Token.fits, hmode] at hfits
  | fullAddress => exact ⟨rfl, rfl, rfl, rfl⟩
  | fullName _ hnone =>
    have hnone := Token.hasName_eq_false_of_hasAnyName hnone
    exact absurd hname (by simp [hnone])
  | partialAddress =>
    simp only [name_readAddressWord, mode_readAddressWord, postcode_readAddressWord,
      houseNumber_readAddressWord]
    exact ⟨rfl, rfl, rfl, rfl⟩
  | partialCommonName _ _ hnone => exact absurd hnone hpostcode
  | partialName _ _ hnone => exact absurd hnone hpostcode

theorem Reads.keeps_postcodeMode (h : Reads c s steps t) (hmode : s.mode = .postcode)
    (hpostcode : s.postcode ≠ none) (hname : s.hasName = true) :
    t.mode = .postcode ∧ t.postcode = s.postcode ∧ t.name = s.name ∧
      t.houseNumber = s.houseNumber := by
  refine h.invariant (P := fun u => u.mode = .postcode ∧ u.postcode = s.postcode ∧
    u.name = s.name ∧ u.houseNumber = s.houseNumber) ⟨hmode, rfl, rfl, rfl⟩ ?_
  rintro step - u v hleads ⟨hm, hp, hn, hh⟩
  have hpostcode' : u.postcode ≠ none := by rwa [hp]
  have hname' : u.hasName = true := by rwa [hasName, hn]
  obtain ⟨hm', hp', hn', hh'⟩ := hleads.keeps_postcodeMode hm hpostcode' hname'
  exact ⟨hm', hp'.trans hp, hn'.trans hn, hh'.trans hh⟩

theorem inferredMode_ne_postcode (c : Constraints) (s : Interpretation) (pos : Position) :
    Token.inferredMode c s pos ≠ .postcode := by
  unfold Token.inferredMode
  split <;> exact nofun

/-- Unless a phrase settles the mode, only a postcode that is searched for makes it that for
postcodes. -/
theorem Step.Leads.of_mode_eq_postcode (h : step.Leads c s t)
    (hsettled : ∀ id placeType, step.token ≠ .special id placeType .postcode)
    (hmode : t.mode = .postcode) :
    s.mode = .postcode ∨ ∃ id code country, step.token = .postcode id code country ∧
      t.postcode = some code ∧ t.name = .singleton (id.getD 0) := by
  obtain ⟨token, pos, thresholds⟩ := step
  have hextends := h.extends
  cases hextends with
  | countryLast => exact Or.inl hmode
  | countryInside => exact Or.inl hmode
  | @postcodeSearched id code country => exact Or.inr ⟨id, code, country, rfl, rfl, rfl⟩
  | postcodeNarrowing => exact Or.inl hmode
  | houseNumber => exact Or.inl hmode
  | houseName => exact Or.inl hmode
  | specialInferred => exact absurd hmode (inferredMode_ne_postcode c s pos)
  | @specialGiven id placeType mode =>
    obtain rfl : mode = .postcode := hmode
    exact absurd rfl (hsettled id placeType)
  | fullAddress => exact Or.inl hmode
  | fullName => exact Or.inl hmode
  | partialAddress =>
    rw [mode_readAddressWord] at hmode
    exact Or.inl hmode
  | partialCommonName => exact Or.inl hmode
  | partialName => exact Or.inl hmode

/-- A new word of the name has the token's id, or is a postcode that is searched for. -/
theorem Step.Leads.of_mem_name (h : step.Leads c s t) {a : Nat} (ha : a ∈ t.name) :
    a ∈ s.name ∨ step.token.id? = some a ∨ t.mode = .postcode := by
  obtain ⟨token, pos, thresholds⟩ := step
  have hextends := h.extends
  cases hextends with
  | countryLast => exact Or.inl ha
  | countryInside => exact Or.inl ha
  | postcodeSearched => exact Or.inr (Or.inr rfl)
  | postcodeNarrowing => exact Or.inl ha
  | houseNumber => exact Or.inl ha
  | houseName =>
    obtain rfl := TermSet.mem_singleton.1 ha
    exact Or.inr (Or.inl rfl)
  | specialInferred => exact Or.inl ha
  | specialGiven => exact Or.inl ha
  | fullAddress => exact Or.inl ha
  | fullName =>
    obtain rfl := TermSet.mem_singleton.1 ha
    exact Or.inr (Or.inl rfl)
  | partialAddress =>
    rw [name_readAddressWord] at ha
    exact Or.inl ha
  | partialCommonName => exact Or.inl ha
  | partialName =>
    rcases TermSet.mem_insert.1 ha with rfl | ha
    · exact Or.inr (Or.inl rfl)
    · exact Or.inl ha

/-- A new word of the address has the token's id, or was a word of the name of a place. -/
theorem Step.Leads.of_mem_address (h : step.Leads c s t) {a : Nat} (ha : a ∈ t.address) :
    a ∈ s.address ∨ step.token.id? = some a ∨ a ∈ s.name ∧ s.mode ≠ .postcode := by
  obtain ⟨token, pos, thresholds⟩ := step
  have hfits := h.1
  have hextends := h.extends
  cases hextends with
  | countryLast => exact Or.inl ha
  | countryInside => exact Or.inl ha
  | postcodeSearched hmode =>
    rcases TermSet.mem_union.1 ha with ha | ha
    · exact Or.inl ha
    · exact Or.inr (Or.inr ⟨ha, by simp [hmode]⟩)
  | postcodeNarrowing => exact Or.inl ha
  | houseNumber => exact Or.inl ha
  | houseName =>
    have hmode : s.mode ≠ .postcode := by
      rintro hmode
      simp [Token.fits, hmode] at hfits
    exact Or.inr (Or.inr ⟨ha, hmode⟩)
  | specialInferred => exact Or.inl ha
  | specialGiven => exact Or.inl ha
  | fullAddress =>
    rcases mem_address_readAddressWord ha with ha | rfl
    · exact Or.inl ha
    · exact Or.inr (Or.inl rfl)
  | fullName => exact Or.inl ha
  | partialAddress =>
    rcases mem_address_readAddressWord ha with ha | rfl
    · exact Or.inl ha
    · exact Or.inr (Or.inl rfl)
  | partialCommonName => exact Or.inl ha
  | partialName => exact Or.inl ha

/-! ## The invariant -/

/-- A postcode that is searched for is one of the tokens and the whole name, and nothing else makes
zero a word to search for. -/
structure PostcodeSound (tokens : List Token) (s : Interpretation) : Prop where
  searched : s.mode = .postcode → ∃ id code country, Token.postcode id code country ∈ tokens ∧
    s.postcode = some code ∧ s.name = .singleton (id.getD 0)
  mode_of_zero : 0 ∈ s.name → s.mode = .postcode
  zero_not_mem_address : 0 ∉ s.address

theorem IsRoot.postcodeSound (h : s.IsRoot) : PostcodeSound [] s := by
  rcases h with rfl | ⟨mode, placeType, hmode, rfl⟩
  · exact ⟨nofun, nofun, nofun⟩
  · exact ⟨fun h => absurd h hmode, nofun, nofun⟩

namespace PostcodeSound

theorem postcode_ne_none (h : PostcodeSound tokens s) (hmode : s.mode = .postcode) :
    s.postcode ≠ none := by
  obtain ⟨id, code, country, -, hcode, -⟩ := h.searched hmode
  simp [hcode]

theorem hasName (h : PostcodeSound tokens s) (hmode : s.mode = .postcode) : s.hasName = true := by
  obtain ⟨id, code, country, -, -, hname⟩ := h.searched hmode
  rw [Interpretation.hasName, hname]
  rfl

theorem name_eq_singleton_zero (h : PostcodeSound tokens s) (hzero : 0 ∈ s.name) :
    s.mode = .postcode ∧ s.name = .singleton 0 := by
  have hmode := h.mode_of_zero hzero
  obtain ⟨id, code, country, -, -, hname⟩ := h.searched hmode
  rw [hname, TermSet.mem_singleton] at hzero
  exact ⟨hmode, by rw [hname, ← hzero]⟩

theorem leads (h : PostcodeSound tokens s) (hleads : step.Leads c s t)
    (hordinary : step.token.IsOrdinary) : PostcodeSound (tokens ++ [step.token]) t where
  searched hmode := by
    rcases hleads.of_mode_eq_postcode hordinary.2 hmode with hs | ⟨id, code, country, htoken, hnew⟩
    · obtain ⟨id, code, country, htoken, hcode, hname⟩ := h.searched hs
      obtain ⟨-, hp, hn, -⟩ := hleads.keeps_postcodeMode hs (h.postcode_ne_none hs) (h.hasName hs)
      exact ⟨id, code, country, List.mem_append_left _ htoken, hp.trans hcode, hn.trans hname⟩
    · exact ⟨id, code, country, by simp [htoken], hnew⟩
  mode_of_zero hzero := by
    rcases hleads.of_mem_name hzero with hs | hid | hmode
    · have hs := h.mode_of_zero hs
      exact (hleads.keeps_postcodeMode hs (h.postcode_ne_none hs) (h.hasName hs)).1
    · exact absurd (hordinary.1 0 hid) (by decide)
    · exact hmode
  zero_not_mem_address hzero := by
    rcases hleads.of_mem_address hzero with hs | hid | ⟨hs, hmode⟩
    · exact h.zero_not_mem_address hs
    · exact absurd (hordinary.1 0 hid) (by decide)
    · exact hmode (h.mode_of_zero hs)

end PostcodeSound

theorem postcodeSound_of_reads (h : Reads c s steps t) (hs : PostcodeSound tokens s)
    (hordinary : ∀ step ∈ steps, step.token.IsOrdinary) :
    PostcodeSound (tokens ++ steps.map (·.token)) t := by
  induction h generalizing tokens with
  | done => simpa using hs
  | step hstep _ ih =>
    obtain ⟨hfirst, hrest⟩ := List.forall_mem_cons.1 hordinary
    simpa using ih (hs.leads hstep hfirst) hrest

end Interpretation

namespace Lookup

variable {m : Type → Type} [Monad m] (index : PlaceIndex m) (c : Constraints) (scope : Scope)
  {s : Interpretation}

/-! ## What the index is asked -/

/-- A postcode that is searched for is looked up among the postcodes and nowhere else. -/
theorem places_eq_postcodes (hname : s.hasName = true) (hmode : s.mode = .postcode) :
    places index c scope s = postcodes index c scope s := by
  have hnonempty : s.name.isEmpty = false := by simpa [Interpretation.hasName] using hname
  simp [places, hnonempty, hmode]

variable {index c scope} {f : NamedPlaceQuery → IndexM m (List NamedPlaceHit)}

theorem narrowedPlaces_congr
    (hf : f (namedPlaceQuery c scope s) = index.namedPlaces (namedPlaceQuery c scope s)) :
    narrowedPlaces { index with namedPlaces := f } c scope s = narrowedPlaces index c scope s := by
  have hfound : namedPlaces { index with namedPlaces := f } c scope s =
      namedPlaces index c scope s := by
    simp only [namedPlaces, hf]
  rw [narrowedPlaces, hfound]
  rfl

theorem places_congr (hf : s.mode ≠ .postcode →
      f (namedPlaceQuery c scope s) = index.namedPlaces (namedPlaceQuery c scope s)) :
    places { index with namedPlaces := f } c scope s = places index c scope s := by
  by_cases hmode : s.mode = .postcode
  · simp only [places, hmode, if_true]
    rfl
  · simp only [places, hmode, if_false, narrowedPlaces_congr (hf hmode)]
    rfl

/-- A lookup asks for named places with the words of the interpretation, if it does so at all: what
the index says to other queries is of no account. -/
theorem lookup_congr (hf : s.mode ≠ .postcode →
      f (namedPlaceQuery c scope s) = index.namedPlaces (namedPlaceQuery c scope s)) :
    lookup { index with namedPlaces := f } c scope s = lookup index c scope s := by
  rw [lookup, places_congr hf]
  rfl

end Lookup

namespace Interpretation

open Lookup

/-- What is read from a root with ordinary tokens searches for a postcode only if one of the tokens
is that postcode, which then is the whole name and stays so. Zero is no word to search for but in
the place of such a name. Therefore no place is ever asked for by the word zero: an index may give
any other answer to that. And where postcodes are looked up, there is one. -/
theorem postcodeMode_of_reads {c : Constraints} {root s : Interpretation} {steps : List Step}
    (hroot : root.IsRoot) (hordinary : ∀ step ∈ steps, step.token.IsOrdinary)
    (hreads : Reads c root steps s) :
    (s.mode = .postcode →
      (∃ id code country, Token.postcode id code country ∈ steps.map (·.token) ∧
        s.postcode = some code ∧ s.name = .singleton (id.getD 0)) ∧
      ∀ more t, Reads c s more t → t.mode = .postcode ∧ t.postcode = s.postcode ∧
        t.name = s.name ∧ t.houseNumber = s.houseNumber) ∧
    (0 ∈ s.name → s.mode = .postcode ∧ s.name = .singleton 0) ∧
    0 ∉ s.address ∧
    ∀ (m : Type → Type) [Monad m] (index : PlaceIndex m) (scope : Scope),
      (∀ namedPlaces : NamedPlaceQuery → IndexM m (List NamedPlaceHit),
        (∀ query, 0 ∉ query.name → 0 ∉ query.address →
          namedPlaces query = index.namedPlaces query) →
        lookup { index with namedPlaces } c scope s = lookup index c scope s) ∧
      (s.mode = .postcode → ∃ postcode, s.postcode = some postcode ∧
        places index c scope s = do
          let ids ← index.postcodes {
            postcode, address := s.address, countries := countries c s, box := c.boundingBox?
            excluded := c.excluded, limit := scope.limit }
          return .ofList (ids.map fun id => { source := .postcode, id })) := by
  have hsound : PostcodeSound (steps.map (·.token)) s :=
    postcodeSound_of_reads hreads hroot.postcodeSound hordinary
  refine ⟨fun hmode => ⟨hsound.searched hmode, fun more t hmore => ?_⟩,
    hsound.name_eq_singleton_zero, hsound.zero_not_mem_address, fun m _ index scope => ⟨?_, ?_⟩⟩
  · exact hmore.keeps_postcodeMode hmode (hsound.postcode_ne_none hmode) (hsound.hasName hmode)
  · intro namedPlaces hagree
    refine lookup_congr fun hmode => hagree _ (fun hzero => ?_) hsound.zero_not_mem_address
    exact hmode (hsound.mode_of_zero hzero)
  · intro hmode
    obtain ⟨id, code, country, -, hcode, -⟩ := hsound.searched hmode
    refine ⟨code, hcode, ?_⟩
    rw [places_eq_postcodes index c scope (hsound.hasName hmode) hmode, postcodes, hcode]

/-- A postcode without an id at the start of free text, with a word of its address behind it. -/
def bonnByPostcode : List Step := [
  ⟨.postcode none "53111" none, ⟨.untyped, 0, 1, 0, 2⟩, {}⟩,
  ⟨.word ⟨5, "bonn", false, 1⟩, ⟨.untyped, 0, 1, 1, 2⟩, {}⟩]

/-- The postcode and the word of the address that `bonnByPostcode` leads to. -/
def postcodeInBonn : Interpretation :=
  { cost := 2, name := .singleton 0, address := .singleton 5, mode := .postcode
    postcode := some "53111" }

theorem bonnByPostcode_isOrdinary : ∀ step ∈ bonnByPostcode, step.token.IsOrdinary := by
  simp [bonnByPostcode, Token.IsOrdinary, Token.id?]

theorem reads_bonnByPostcode : Reads {} root bonnByPostcode postcodeInBonn := by
  have hpostcode : Reads {} root (bonnByPostcode.take 1)
      { cost := 1, name := .singleton 0, mode := .postcode, postcode := some "53111" } :=
    .of_leads ⟨rfl, by decide⟩
  have hword : Reads {} { cost := 1, name := .singleton 0, mode := .postcode
                          postcode := some "53111" } (bonnByPostcode.drop 1) postcodeInBonn :=
    .of_leads ⟨rfl, by decide⟩
  exact hpostcode.append hword

theorem postcodeInBonn_mode :
    root.IsRoot ∧ (∀ step ∈ bonnByPostcode, step.token.IsOrdinary) ∧
      Reads {} root bonnByPostcode postcodeInBonn ∧ 0 ∈ postcodeInBonn.name ∧
      postcodeInBonn.mode = .postcode ∧ 0 ∉ postcodeInBonn.address := by
  have hsearch := postcodeMode_of_reads (Or.inl rfl) bonnByPostcode_isOrdinary reads_bonnByPostcode
  have hzero : 0 ∈ postcodeInBonn.name := TermSet.mem_singleton.2 rfl
  exact ⟨Or.inl rfl, bonnByPostcode_isOrdinary, reads_bonnByPostcode, hzero,
    (hsearch.2.1 hzero).1, hsearch.2.2.1⟩

end Interpretation

end Geocoding
