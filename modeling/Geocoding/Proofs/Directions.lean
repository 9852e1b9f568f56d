import Geocoding.Proofs.Planning

/-!
# Reading from either end

Free text is read from its beginning and from its end, where the phrases come in reverse order and
the outer ones are inverted (`Planner.backwards_append`). Turning the phrases round twice gives them
back (`Planner.backwards_backwards`), so that a text and the same text turned round are read in the
same two ways, only the other way first. Their plans have the same interpretations at every cost,
as joining the two passes and dropping repetitions loses none of either
(`Planner.mem_toPairs_plan`).
-/

namespace Geocoding

/-- A phrase that is inverted twice is read from front to back again. -/
theorem Phrase.inverted_inverted (phrase : Phrase) : phrase.inverted.inverted = phrase := by
  simp [inverted]

namespace Planner

variable {p : Planner} {table : TokenTable} {phrases : List Phrase}

/-! ## Turning phrases round -/

theorem invertLast_concat (phrases : List Phrase) (last : Phrase) :
    invertLast (phrases ++ [last]) = phrases ++ [last.inverted] := by
  induction phrases with
  | nil => rfl
  | cons phrase rest ih =>
    have hcons : invertLast (phrase :: (rest ++ [last])) = phrase :: invertLast (rest ++ [last]) :=
      invertLast.eq_3 _ _ (by simp)
    rw [List.cons_append, hcons, ih, List.cons_append]

theorem backwards_singleton (phrase : Phrase) : backwards [phrase] = [phrase.inverted] := rfl

/-- The phrases in between are as they were, in reverse order. -/
theorem backwards_append (first last : Phrase) (middle : List Phrase) :
    backwards (first :: middle ++ [last]) =
      last.inverted :: middle.reverse ++ [first.inverted] := by
  have hreverse : (first :: middle ++ [last]).reverse = last :: (middle.reverse ++ [first]) := by
    simp
  rw [backwards, hreverse]
  simp only [invertLast_concat, List.cons_append]

/-- Phrases are none at all, a single one, or two with others in between. -/
theorem eq_nil_or_singleton_or_append (phrases : List Phrase) :
    phrases = [] ∨ (∃ phrase, phrases = [phrase]) ∨
      ∃ first middle last, phrases = first :: middle ++ [last] := by
  cases phrases with
  | nil => exact Or.inl rfl
  | cons first rest =>
    rcases List.eq_nil_or_concat rest with rfl | ⟨middle, last, rfl⟩
    · exact Or.inr (Or.inl ⟨first, rfl⟩)
    · exact Or.inr (Or.inr ⟨first, middle, last, by simp⟩)

/-- Phrases that are turned round twice are back in their order. -/
theorem backwards_backwards (phrases : List Phrase) : backwards (backwards phrases) = phrases := by
  rcases eq_nil_or_singleton_or_append phrases with
    rfl | ⟨phrase, rfl⟩ | ⟨first, middle, last, rfl⟩
  · rfl
  · rw [backwards_singleton, backwards_singleton, Phrase.inverted_inverted]
  · rw [backwards_append, backwards_append, List.reverse_reverse, Phrase.inverted_inverted,
      Phrase.inverted_inverted]

/-- What inverting keeps, turning round keeps. -/
theorem forall_mem_backwards {P : Phrase → Prop} (hinverted : ∀ phrase, P phrase → P phrase.inverted)
    (h : ∀ phrase ∈ phrases, P phrase) : ∀ phrase ∈ backwards phrases, P phrase := by
  rcases eq_nil_or_singleton_or_append phrases with
    rfl | ⟨phrase, rfl⟩ | ⟨first, middle, last, rfl⟩
  · exact h
  · simpa [backwards_singleton] using hinverted phrase (h phrase List.mem_cons_self)
  · rw [backwards_append]
    intro phrase hphrase
    simp only [List.mem_append, List.mem_cons, List.mem_reverse, List.not_mem_nil, or_false]
      at hphrase h
    rcases hphrase with (rfl | hmiddle) | rfl
    · exact hinverted last (h last (Or.inr rfl))
    · exact h phrase (Or.inl (Or.inr hmiddle))
    · exact hinverted first (h first (Or.inl (Or.inl rfl)))

/-- Turning round makes no phrase blank. -/
theorem forall_words_backwards (h : ∀ phrase ∈ phrases, phrase.words ≠ []) :
    ∀ phrase ∈ backwards phrases, phrase.words ≠ [] :=
  forall_mem_backwards (fun _ hwords => hwords) h

theorem spoken_eq_self (h : ∀ phrase ∈ phrases, phrase.words ≠ []) : spoken phrases = phrases :=
  List.filter_eq_self.2 fun phrase hphrase => by simpa using h phrase hphrase

/-! ## Plans of both directions -/

/-- The two passes are the same ones, whichever comes first. -/
theorem mem_toPairs_passes_backwards (phrases : List Phrase) (roots : List Interpretation)
    (pair : Nat × Interpretation) :
    pair ∈ (p.passes (backwards phrases) table roots false).toPairs ↔
      pair ∈ (p.passes phrases table roots false).toPairs := by
  by_cases hall : table.isEmpty = false ∧ phrases ≠ []
  · rw [mem_toPairs_passes hall.1 (backwards_ne_nil hall.2), mem_toPairs_passes hall.1 hall.2,
      backwards_backwards]
    simp only [true_and]
    exact or_comm
  · have hback : ¬ (table.isEmpty = false ∧ backwards phrases ≠ []) := by
      rintro ⟨htable, hphrases⟩
      refine hall ⟨htable, ?_⟩
      rintro rfl
      exact hphrases rfl
    rw [passes_eq_rootsOnly hall, passes_eq_rootsOnly hback]

/-- Reading from the end as well loses nothing. -/
theorem mem_toPairs_passes_of_structured {roots : List Interpretation}
    {pair : Nat × Interpretation} (h : pair ∈ (p.passes phrases table roots true).toPairs) :
    pair ∈ (p.passes phrases table roots false).toPairs := by
  by_cases hall : table.isEmpty = false ∧ phrases ≠ []
  · rw [mem_toPairs_passes hall.1 hall.2] at h ⊢
    exact Or.inl (h.resolve_right nofun)
  · rwa [passes_eq_rootsOnly hall] at h ⊢

/-- Phrases that are turned round twice are the phrases, free text has the same interpretations at
every cost when it is turned round, and it has those of the structured query with its phrases. -/
theorem plan_backwards (p : Planner) (table : TokenTable) (phrases : List Phrase)
    (roots : List Interpretation) (hwords : ∀ phrase ∈ phrases, phrase.words ≠ []) :
    backwards (backwards phrases) = phrases ∧
    (∀ cost s, s ∈ (p.plan (backwards phrases) table roots false).get cost ↔
      s ∈ (p.plan phrases table roots false).get cost) ∧
    (∀ cost s, s ∈ (p.plan phrases table roots true).get cost →
      s ∈ (p.plan phrases table roots false).get cost) := by
  have hspoken : spoken phrases = phrases := spoken_eq_self hwords
  have hback : spoken (backwards phrases) = backwards phrases :=
    spoken_eq_self (forall_words_backwards hwords)
  refine ⟨backwards_backwards phrases, fun cost s => ?_, fun cost s h => ?_⟩
  · rw [Ranking.mem_get_iff, Ranking.mem_get_iff, mem_toPairs_plan, mem_toPairs_plan, hspoken,
      hback]
    exact mem_toPairs_passes_backwards phrases roots (cost, s)
  · rw [Ranking.mem_get_iff, mem_toPairs_plan, hspoken] at h ⊢
    exact mem_toPairs_passes_of_structured h

/-- The street in its city is also found when the text gives the city first. -/
theorem streetInCity_mem_plan_backwards :
    (∀ phrase ∈ streetPhrases, phrase.words ≠ []) ∧
      backwards (backwards streetPhrases) = streetPhrases ∧
      (backwards streetPhrases).map (·.words) = [["bonn"], ["main", "street"]] ∧
      streetInCity ∈ (({} : Planner).plan (backwards streetPhrases) streetTable [.root] false).get
        2 := by
  have hwords : ∀ phrase ∈ streetPhrases, phrase.words ≠ [] := by decide
  obtain ⟨htwice, hsame, hmore⟩ := plan_backwards {} streetTable streetPhrases [.root] hwords
  have hbreadth :
      ({} : Planner).breadthOfPlan streetTable (spoken streetPhrases) [.root] true ≤ 50 := by
    decide
  have hmem : (2, streetInCity) ∈
      (({} : Planner).plan streetPhrases streetTable [.root] true).toPairs :=
    mem_plan_of_wanted (by decide) (by decide) (by decide) hbreadth (hbreadth.trans (by decide))
      hbreadth ⟨by decide, by decide, Or.inl derives_streetInCity⟩
  exact ⟨hwords, htwice, rfl, (hsame _ _).2 (hmore _ _ (Ranking.mem_get_iff.2 hmem))⟩

end Planner

end Geocoding
