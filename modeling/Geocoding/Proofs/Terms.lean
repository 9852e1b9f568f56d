import Geocoding.Proofs.Reading

/-!
# No word gets lost

An interpretation keeps its words in four sets: those of the name and those of the address, to be
searched for or set aside as too common. Reading a token rewrites whole sets, but it never drops a
word (`Interpretation.AccountsFor`): a word that is searched for can move from the name to the
address, and no other move is possible. Every new word is that of the token, zero standing for a
postcode without an id.

A house number that is read as a name replaces the address, and a full word replaces the name. Both
lose nothing since the set that is replaced is empty when they are read so.
-/

namespace Geocoding

/-- A word that reading the token can bring in to be searched for. -/
def Token.Supplies (token : Token) (id : Nat) : Prop :=
  token.id? = some id ∨ id = 0 ∧ ∃ code country, token = .postcode none code country

theorem Token.supplies_postcode (id : Option Nat) (code : String) (country : Option String) :
    (postcode id code country).Supplies (id.getD 0) := by
  cases id with
  | none => exact Or.inr ⟨rfl, code, country, rfl⟩
  | some id => exact Or.inl rfl

namespace Interpretation

/-- The word is searched for. -/
def Searches (s : Interpretation) (id : Nat) : Prop :=
  id ∈ s.name ∨ id ∈ s.address

/-- The word is read but too common to be searched for. -/
def SetsAside (s : Interpretation) (id : Nat) : Prop :=
  id ∈ s.commonName ∨ id ∈ s.commonAddress

/-- The words of the second interpretation are those of the first and words of the tokens. -/
structure AccountsFor (tokens : List Token) (s t : Interpretation) : Prop where
  searches : ∀ id, s.Searches id → t.Searches id
  address : ∀ id ∈ s.address, id ∈ t.address
  commonName : ∀ id ∈ s.commonName, id ∈ t.commonName
  commonAddress : ∀ id ∈ s.commonAddress, id ∈ t.commonAddress
  of_searches : ∀ id, t.Searches id → s.Searches id ∨ ∃ token ∈ tokens, token.Supplies id
  of_setsAside : ∀ id, t.SetsAside id → s.SetsAside id ∨ ∃ token ∈ tokens, token.id? = some id
  words : ∀ w, Token.word w ∈ tokens → t.Searches w.id ∨ t.SetsAside w.id

namespace AccountsFor

variable {s s' t : Interpretation} {tokens more : List Token} {token : Token} {id : Nat}

theorem setsAside (h : AccountsFor tokens s t) (hid : s.SetsAside id) : t.SetsAside id :=
  hid.imp (h.commonName id) (h.commonAddress id)

theorem refl (s : Interpretation) : AccountsFor [] s s where
  searches _ h := h
  address _ h := h
  commonName _ h := h
  commonAddress _ h := h
  of_searches _ h := Or.inl h
  of_setsAside _ h := Or.inl h
  words _ h := absurd h List.not_mem_nil

/-- What was there in between was there before, or is of a token as well. -/
theorem old_or_of_token_append {old between : Prop} {p : Token → Prop}
    (h : between → old ∨ ∃ token ∈ tokens, p token)
    (hmore : between ∨ ∃ token ∈ more, p token) :
    old ∨ ∃ token ∈ tokens ++ more, p token := by
  rcases hmore with hbetween | ⟨token, htoken, hp⟩
  · rcases h hbetween with hold | ⟨token, htoken, hp⟩
    · exact Or.inl hold
    · exact Or.inr ⟨token, List.mem_append_left _ htoken, hp⟩
  · exact Or.inr ⟨token, List.mem_append_right _ htoken, hp⟩

theorem trans (h : AccountsFor tokens s s') (hmore : AccountsFor more s' t) :
    AccountsFor (tokens ++ more) s t where
  searches id hid := hmore.searches id (h.searches id hid)
  address id hid := hmore.address id (h.address id hid)
  commonName id hid := hmore.commonName id (h.commonName id hid)
  commonAddress id hid := hmore.commonAddress id (h.commonAddress id hid)
  of_searches id hid := old_or_of_token_append (h.of_searches id) (hmore.of_searches id hid)
  of_setsAside id hid := old_or_of_token_append (h.of_setsAside id) (hmore.of_setsAside id hid)
  words w hw := by
    rcases List.mem_append.1 hw with hw | hw
    · exact (h.words w hw).imp (hmore.searches _) hmore.setsAside
    · exact hmore.words w hw

/-! ## What one token can do to the four sets -/

/-- All four sets stay as they are. -/
theorem of_eq (htokens : ∀ w, Token.word w ∉ tokens) (hname : t.name = s.name)
    (hcommonName : t.commonName = s.commonName) (haddress : t.address = s.address)
    (hcommonAddress : t.commonAddress = s.commonAddress) : AccountsFor tokens s t where
  searches id hid := by rwa [Searches, hname, haddress]
  address id hid := by rwa [haddress]
  commonName id hid := by rwa [hcommonName]
  commonAddress id hid := by rwa [hcommonAddress]
  of_searches id hid := by
    rw [Searches, hname, haddress] at hid
    exact Or.inl hid
  of_setsAside id hid := by
    rw [SetsAside, hcommonName, hcommonAddress] at hid
    exact Or.inl hid
  words w hw := absurd hw (htokens w)

theorem charge (s : Interpretation) (k : Nat) : AccountsFor [] s (s.charge k) :=
  of_eq (fun _ => List.not_mem_nil) rfl rfl rfl rfl

theorem closeName (s : Interpretation) : AccountsFor [] s s.closeName :=
  of_eq (fun _ => List.not_mem_nil) rfl rfl rfl rfl

theorem settleRareName (s : Interpretation) (rare : Bool) :
    AccountsFor [] s (s.settleRareName rare) :=
  of_eq (fun _ => List.not_mem_nil) rfl rfl rfl rfl

/-- One more word is searched for, and the address does not lose any. -/
theorem of_search (hsearch : ∀ a, t.Searches a ↔ a = id ∨ s.Searches a)
    (haddress : ∀ a ∈ s.address, a ∈ t.address) (hcommonName : t.commonName = s.commonName)
    (hcommonAddress : t.commonAddress = s.commonAddress) (hid : token.Supplies id)
    (hword : ∀ w, token = .word w → w.id = id) : AccountsFor [token] s t where
  searches a ha := (hsearch a).2 (Or.inr ha)
  address := haddress
  commonName a ha := by rwa [hcommonName]
  commonAddress a ha := by rwa [hcommonAddress]
  of_searches a ha := by
    rcases (hsearch a).1 ha with rfl | ha
    · exact Or.inr ⟨token, List.mem_singleton_self _, hid⟩
    · exact Or.inl ha
  of_setsAside a ha := by
    rw [SetsAside, hcommonName, hcommonAddress] at ha
    exact Or.inl ha
  words w hw := Or.inl ((hsearch w.id).2 (Or.inl (hword w (List.mem_singleton.1 hw).symm)))

/-- One more word is set aside. -/
theorem of_setAside {w : WordToken} (haside : ∀ a, t.SetsAside a ↔ a = w.id ∨ s.SetsAside a)
    (hname : t.name = s.name) (haddress : t.address = s.address)
    (hcommonName : ∀ a ∈ s.commonName, a ∈ t.commonName)
    (hcommonAddress : ∀ a ∈ s.commonAddress, a ∈ t.commonAddress) :
    AccountsFor [.word w] s t where
  searches a ha := by rwa [Searches, hname, haddress]
  address a ha := by rwa [haddress]
  commonName := hcommonName
  commonAddress := hcommonAddress
  of_searches a ha := by
    rw [Searches, hname, haddress] at ha
    exact Or.inl ha
  of_setsAside a ha := by
    rcases (haside a).1 ha with rfl | ha
    · exact Or.inr ⟨.word w, List.mem_singleton_self _, rfl⟩
    · exact Or.inl ha
  words w' hw := by
    obtain rfl := Token.word.inj (List.mem_singleton.1 hw)
    exact Or.inr ((haside w'.id).2 (Or.inl rfl))

theorem searchPostcode (s : Interpretation) (id : Option Nat) (code : String)
    (country : Option String) :
    AccountsFor [.postcode id code country] s (s.searchPostcode id code) := by
  refine .of_search (fun a => ?_) (fun a ha => ?_) rfl rfl (Token.supplies_postcode id code country)
    (fun w hw => nomatch hw)
  · simp only [Searches, Interpretation.searchPostcode, TermSet.mem_singleton, TermSet.mem_union,
      Or.comm]
  · exact TermSet.mem_union.2 (Or.inl ha)

/-- There is no old address that could be lost. -/
theorem readHouseName (s : Interpretation) (id : Nat) (text : String)
    (haddress : s.hasAddress = false) :
    AccountsFor [.houseNumber (some id) text] s (s.readHouseName id) := by
  have hnone : ∀ a, a ∉ s.address := TermSet.isEmpty_iff.1 (by simpa [hasAddress] using haddress)
  refine .of_search (fun a => ?_) (fun a ha => absurd ha (hnone a)) rfl rfl (Or.inl rfl)
    (fun w hw => nomatch hw)
  simp [Searches, Interpretation.readHouseName, hnone a]

/-- There is no old name that could be lost. -/
theorem readFullName (s : Interpretation) (w : WordToken) (rare : Bool)
    (hname : s.hasName = false) : AccountsFor [.word w] s (s.readFullName w.id rare) := by
  have hnone : ∀ a, a ∉ s.name := TermSet.isEmpty_iff.1 (by simpa [hasName] using hname)
  refine .of_search (fun a => ?_) (fun a ha => ha) rfl rfl (Or.inl rfl)
    (fun w' hw => by rw [Token.word.inj hw])
  simp [Searches, Interpretation.readFullName, hnone a]

theorem readAddressWord (s : Interpretation) (w : WordToken) (searchable : Bool) :
    AccountsFor [.word w] s (s.readAddressWord w.id searchable) := by
  cases searchable with
  | true =>
    refine .of_search (fun a => ?_) (fun a ha => ?_) rfl rfl (Or.inl rfl)
      (fun w' hw => by rw [Token.word.inj hw])
    · simp [Searches, Interpretation.readAddressWord, or_left_comm]
    · exact TermSet.mem_insert.2 (Or.inr ha)
  | false =>
    refine .of_setAside (fun a => ?_) rfl rfl (fun a ha => ha) (fun a ha => ?_)
    · simp [SetsAside, Interpretation.readAddressWord, or_left_comm]
    · exact TermSet.mem_insert.2 (Or.inr ha)

theorem readNameWord (s : Interpretation) (w : WordToken) (searchable : Bool) (phrase : Nat) :
    AccountsFor [.word w] s (s.readNameWord w.id searchable phrase) := by
  cases searchable with
  | true =>
    refine .of_search (fun a => ?_) (fun a ha => ha) rfl rfl (Or.inl rfl)
      (fun w' hw => by rw [Token.word.inj hw])
    simp [Searches, Interpretation.readNameWord, or_assoc]
  | false =>
    refine .of_setAside (fun a => ?_) rfl rfl (fun a ha => ?_) (fun a ha => ha)
    · simp [SetsAside, Interpretation.readNameWord, or_assoc]
    · exact TermSet.mem_insert.2 (Or.inr ha)

end AccountsFor

/-! ## Tokens one after the other -/

/-- No reading of a token loses a word or makes one up. -/
theorem accountsFor_of_extends {c : Constraints} {t : FrequencyThresholds} {s s' : Interpretation}
    {pos : Position} {token : Token} (h : token.Extends c t s pos s') :
    AccountsFor [token] s s' := by
  cases h with
  | countryLast => exact .of_eq (by simp) rfl rfl rfl rfl
  | countryInside => exact .of_eq (by simp) rfl rfl rfl rfl
  | postcodeSearched => exact (AccountsFor.charge s _).trans (.searchPostcode _ _ _ _)
  | postcodeNarrowing => exact .of_eq (by simp) rfl rfl rfl rfl
  | houseNumber => exact .of_eq (by simp) rfl rfl rfl rfl
  | houseName _ haddress => exact (AccountsFor.charge s _).trans (.readHouseName _ _ _ haddress)
  | specialInferred => exact .of_eq (by simp) rfl rfl rfl rfl
  | specialGiven => exact .of_eq (by simp) rfl rfl rfl rfl
  | fullAddress =>
    have hclosed := (AccountsFor.charge s 1).trans (.closeName _)
    exact hclosed.trans (.readAddressWord _ _ _)
  | fullName _ hname =>
    have hnone := Token.hasName_eq_false_of_hasAnyName hname
    exact (AccountsFor.charge s 1).trans (.readFullName _ _ _ hnone)
  | partialAddress => exact (AccountsFor.charge s _).trans (.readAddressWord _ _ _)
  | partialCommonName => exact (AccountsFor.charge s _).trans (.readNameWord _ _ _ _)
  | @partialName w =>
    have hsettled := (AccountsFor.charge s (Token.nameWordCost w s)).trans
      (.settleRareName _ (!s.hasName && t.isRare w.occurrences))
    exact hsettled.trans (.readNameWord _ _ _ _)

theorem accountsFor_of_reads {c : Constraints} {s t : Interpretation} {steps : List Step}
    (h : Reads c s steps t) : AccountsFor (steps.map (·.token)) s t := by
  induction h with
  | done => exact .refl _
  | step hstep _ ih => exact (accountsFor_of_extends hstep.extends).trans ih

/-- Whatever a token is read as, and whether it fits or not, every word stays and every new word is
that of the token. So after any series of steps the words are exactly those there were and those of
the tokens. -/
theorem accountsFor_extend_and_reads (c : Constraints) :
    (∀ (t : FrequencyThresholds) (s : Interpretation) (pos : Position) (token : Token),
      ∀ s' ∈ token.extend c t s pos, AccountsFor [token] s s') ∧
    ∀ (s : Interpretation) (steps : List Step) (s' : Interpretation), Reads c s steps s' →
      AccountsFor (steps.map (·.token)) s s' :=
  ⟨fun _ _ _ _ _ h => accountsFor_of_extends (Token.mem_extend_iff.1 h),
    fun _ _ _ h => accountsFor_of_reads h⟩

/-- A name and, in the phrase for postcodes, a postcode without an id. -/
def postcodeOfBonn : List Step := [
  ⟨.word ⟨5, "bonn", true, 1⟩, ⟨.city, 0, 2, 0, 1⟩, {}⟩,
  ⟨.postcode none "53111" none, ⟨.postalcode, 1, 2, 0, 1⟩, {}⟩]

/-- The name moves to the address when the postcode is searched for. -/
theorem postcodeOfBonn_accountsFor :
    ∃ t, Reads {} root postcodeOfBonn t ∧ t.name = .singleton 0 ∧ t.address = .singleton 5 ∧
      AccountsFor (postcodeOfBonn.map (·.token)) root t := by
  have hname : Reads {} root (postcodeOfBonn.take 1)
      { cost := 1, name := .singleton 5, hasRareName := true } :=
    .of_leads ⟨rfl, by decide⟩
  have hpostcode : Reads {} { cost := 1, name := .singleton 5, hasRareName := true }
      (postcodeOfBonn.drop 1)
      { cost := 2, name := .singleton 0, address := .singleton 5, hasRareName := true,
        mode := .postcode, postcode := some "53111" } :=
    .of_leads ⟨rfl, by decide⟩
  have hreads := hname.append hpostcode
  exact ⟨_, hreads, rfl, rfl, (accountsFor_extend_and_reads {}).2 _ _ _ hreads⟩

end Interpretation

end Geocoding
