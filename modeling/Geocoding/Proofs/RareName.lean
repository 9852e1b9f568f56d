import Geocoding.Proofs.Fields

/-!
# Rare names

A name that is marked as rare may be searched for without an address, so the mark has to be right
about the whole name: it is one word, and the word is rare (`Interpretation.hasRareName_of_reads`).

The mark is made together with the first word of a name, and it is unmade by the next word
(`Token.name_eq_singleton_of_settled`). Two readings leave it although they write names. A common
word is no part of the name that is searched for. A postcode that is searched for takes the place of
a rare name, which becomes its address; such a search is for postcodes from then on, and the mark is
about the word that stood in its place (`Interpretation.RareSound`).
-/

namespace Geocoding

/-- A word that is settled to be a rare name is the first one. -/
theorem Token.name_eq_singleton_of_settled {s : Interpretation} {w : WordToken}
    {f : FrequencyThresholds} (h : (!s.hasName && f.isRare w.occurrences) = true) :
    f.isRare w.occurrences = true ∧ s.name.insert w.id = .singleton w.id := by
  obtain ⟨hname, hrare⟩ := Bool.and_eq_true_iff.1 h
  have hempty : s.name.ids = [] := by
    simpa [Interpretation.hasName, TermSet.isEmpty] using hname
  refine ⟨hrare, ?_⟩
  simp only [TermSet.insert, TermSet.singleton, hempty, insertAscending]

namespace Interpretation

variable {c : Constraints} {start s t : Interpretation} {step : Step} {steps : List Step}

/-- The token is a word that fewer places carry than those of a rare name. -/
def Step.IsRareWord (step : Step) (w : WordToken) : Prop :=
  step.token = .word w ∧ ∃ limit, step.thresholds.rare = some limit ∧ w.occurrences < limit

theorem Step.isRareWord_of_isRare {w : WordToken} (htoken : step.token = .word w)
    (h : step.thresholds.isRare w.occurrences = true) : step.IsRareWord w := by
  obtain ⟨limit, hlimit, hlt⟩ := (Option.any_eq_true _ _).1 h
  exact ⟨htoken, limit, hlimit, of_decide_eq_true hlt⟩

@[simp] theorem hasRareName_readAddressWord (s : Interpretation) (id : Nat) (searchable : Bool) :
    (s.readAddressWord id searchable).hasRareName = s.hasRareName := by
  cases searchable <;> rfl

/-- A rare name was rare before, or a postcode has taken its place, or it is the word of the
token. -/
theorem Step.Leads.of_hasRareName (h : step.Leads c s t) (ht : t.hasRareName = true) :
    s.hasRareName = true ∧ t.name = s.name ∨
      s.hasRareName = true ∧ t.mode = .postcode ∧ (∃ id, t.name = .singleton id) ∨
      ∃ w, step.IsRareWord w ∧ t.name = .singleton w.id := by
  obtain ⟨token, pos, thresholds⟩ := step
  have hextends := h.extends
  cases hextends with
  | postcodeSearched => exact Or.inr (Or.inl ⟨ht, rfl, _, rfl⟩)
  | houseName => exact nomatch ht
  | @fullName w => exact Or.inr (Or.inr ⟨w, Step.isRareWord_of_isRare rfl ht, rfl⟩)
  | partialAddress =>
    rw [hasRareName_readAddressWord] at ht
    exact Or.inl ⟨ht, name_readAddressWord ..⟩
  | @partialName w =>
    obtain ⟨hrare, hname⟩ := Token.name_eq_singleton_of_settled ht
    exact Or.inr (Or.inr ⟨w, Step.isRareWord_of_isRare rfl hrare, hname⟩)
  | _ => exact Or.inl ⟨ht, rfl⟩

/-- A name that is marked as rare is one word. It is a rare word of the steps, unless postcodes are
searched for: then such a word has stood in its place. -/
structure RareSound (steps : List Step) (s : Interpretation) : Prop where
  singleton : s.hasRareName = true → ∃ id, s.name = .singleton id
  rareWord : s.hasRareName = true → ∃ step ∈ steps, ∃ w, step.IsRareWord w ∧
    (s.mode ≠ .postcode → s.name = .singleton w.id)

theorem RareSound.of_hasRareName_eq_false (h : s.hasRareName = false) : RareSound steps s where
  singleton hrare := absurd hrare (by simp [h])
  rareWord hrare := absurd hrare (by simp [h])

theorem RareSound.leads (h : RareSound steps s) (hleads : step.Leads c s t) :
    RareSound (steps ++ [step]) t := by
  -- the search for postcodes is never left
  have hmode : t.mode ≠ .postcode → s.mode ≠ .postcode := by
    intro ht hs
    rcases hleads.mode_eq_or with heq | hplain
    · exact ht (heq.trans hs)
    · exact nomatch hplain.symm.trans hs
  refine ⟨fun ht => ?_, fun ht => ?_⟩
  · rcases hleads.of_hasRareName ht with ⟨hs, hname⟩ | ⟨-, -, hname⟩ | ⟨w, -, hname⟩
    · rw [hname]
      exact h.singleton hs
    · exact hname
    · exact ⟨w.id, hname⟩
  · rcases hleads.of_hasRareName ht with ⟨hs, hname⟩ | ⟨hs, hpostcode, -⟩ | ⟨w, hw, hname⟩
    · obtain ⟨earlier, hearlier, w, hw, hword⟩ := h.rareWord hs
      refine ⟨earlier, List.mem_append_left _ hearlier, w, hw, fun ht => ?_⟩
      rw [hname]
      exact hword (hmode ht)
    · obtain ⟨earlier, hearlier, w, hw, -⟩ := h.rareWord hs
      exact ⟨earlier, List.mem_append_left _ hearlier, w, hw, fun ht => absurd hpostcode ht⟩
    · exact ⟨step, by simp, w, hw, fun _ => hname⟩

theorem rareSound_of_reads {first : List Step} (h : Reads c s steps t) (hs : RareSound first s) :
    RareSound (first ++ steps) t := by
  induction h generalizing first with
  | done => simpa using hs
  | step hstep _ ih => simpa using ih (hs.leads hstep)

/-- A name that is marked as rare is a single word to search for, whatever was read from a root,
which has no such mark. Unless postcodes are searched for, this word is the token of some step and
rare by the thresholds of that step; if no step has a threshold for it, no name is marked. -/
theorem hasRareName_of_reads (hstart : start.hasRareName = false)
    (hreads : Reads c start steps s) :
    (s.hasRareName = true → ∃ id, s.name = .singleton id) ∧
    (s.hasRareName = true → s.mode ≠ .postcode → ∃ step ∈ steps, ∃ w, step.token = .word w ∧
      s.name = .singleton w.id ∧ ∃ limit, step.thresholds.rare = some limit ∧
        w.occurrences < limit) ∧
    ((∀ step ∈ steps, step.thresholds.rare = none) → s.hasRareName = false) := by
  have hsound : RareSound ([] ++ steps) s :=
    rareSound_of_reads hreads (.of_hasRareName_eq_false hstart)
  rw [List.nil_append] at hsound
  refine ⟨hsound.singleton, fun hrare hmode => ?_, fun hnone => ?_⟩
  · obtain ⟨step, hstep, w, ⟨htoken, hlimit⟩, hname⟩ := hsound.rareWord hrare
    exact ⟨step, hstep, w, htoken, hname hmode, hlimit⟩
  · rw [Bool.eq_false_iff]
    intro hrare
    obtain ⟨step, hstep, w, ⟨-, limit, hlimit, -⟩, -⟩ := hsound.rareWord hrare
    exact nomatch (hnone step hstep).symm.trans hlimit

/-- A rare word and a common word of one name. -/
def uptonStreet : List Step := [
  ⟨.word ⟨2, "upton", false, 3⟩, ⟨.untyped, 0, 1, 0, 2⟩, {}⟩,
  ⟨.word ⟨3, "street", false, 90000⟩, ⟨.untyped, 0, 1, 1, 2⟩, {}⟩]

/-- The common word leaves the mark. -/
theorem uptonStreet_hasRareName :
    root.hasRareName = false ∧ ∃ s, Reads {} root uptonStreet s ∧ s.hasRareName = true ∧
      s.mode ≠ .postcode ∧ s.commonName = .singleton 3 ∧
      ∃ step ∈ uptonStreet, ∃ w, step.token = .word w ∧ s.name = .singleton w.id := by
  have hupton : Reads {} root (uptonStreet.take 1)
      { cost := 2, name := .singleton 2, hasRareName := true, namePhrase := some 0 } :=
    .of_leads ⟨rfl, by decide⟩
  have hstreet : Reads {} { cost := 2, name := .singleton 2, hasRareName := true
                            namePhrase := some 0 } (uptonStreet.drop 1)
      { cost := 3, name := .singleton 2, commonName := .singleton 3, hasRareName := true
        namePhrase := some 0 } :=
    .of_leads ⟨rfl, by decide⟩
  have hreads := hupton.append hstreet
  obtain ⟨-, hword, -⟩ := hasRareName_of_reads rfl hreads
  obtain ⟨step, hstep, w, htoken, hname, -⟩ := hword rfl nofun
  exact ⟨rfl, _, hreads, rfl, nofun, rfl, step, hstep, w, htoken, hname⟩

end Interpretation

end Geocoding
