import Geocoding.Proofs.Directions

/-!
# Phrases that are not recognised

The words of a phrase may not make up known terms at all. Nothing can be read across such a phrase,
from neither end, so that nothing is planned (`Planner.plan_of_unrecognised`): a query is understood
as a whole or not at all.

There is one exception. If not a single word is known, the phrases are not looked at, and what the
query starts from is taken for all of it: a type of places in brackets is then searched for as if no
words were there.
-/

namespace Geocoding

namespace Planner

variable {p : Planner} {table : TokenTable} {phrases : List Phrase} {roots : List Interpretation}
  {structured : Bool} {s t : Interpretation}

/-! ## Nothing is read across an unknown phrase -/

/-- Every phrase that is read has a grouping. -/
theorem groupings_ne_nil_of_readsPhrases {count index : Nat}
    (h : p.ReadsPhrases table count index phrases s t) :
    ∀ phrase ∈ phrases, phrase.groupings ≠ [] := by
  induction h with
  | done => exact List.forall_mem_nil _
  | phrase hgrouping _ _ ih => exact List.forall_mem_cons.2 ⟨List.ne_nil_of_mem hgrouping, ih⟩

theorem groupings_ne_nil_of_wanted (h : p.Wanted table phrases roots structured s) :
    ∀ phrase ∈ phrases, phrase.groupings ≠ [] := by
  obtain ⟨-, -, ⟨root, -, hreads⟩ | ⟨-, root, -, hreads⟩⟩ := h
  · exact groupings_ne_nil_of_readsPhrases hreads
  -- the phrases are those that are read, turned round
  · have hback := groupings_ne_nil_of_readsPhrases hreads
    rw [← backwards_backwards phrases]
    exact forall_mem_backwards (fun phrase hne => by simpa [Phrase.inverted] using hne) hback

theorem items_plan_of_groupings_eq_nil (htable : table.isEmpty = false) {phrase : Phrase}
    (hphrase : phrase ∈ phrases) (hwords : phrase.words ≠ []) (hnone : phrase.groupings = []) :
    (p.plan phrases table roots structured).items = [] := by
  have hspoken : phrase ∈ spoken phrases := List.mem_filter.2 ⟨hphrase, by simpa using hwords⟩
  refine List.eq_nil_iff_forall_not_mem.2 fun s hs => ?_
  obtain ⟨rank, hpair⟩ := Ranking.mem_items.1 hs
  have hwanted := (wanted_of_mem_plan htable (List.ne_nil_of_mem hspoken) hpair).2
  exact groupings_ne_nil_of_wanted hwanted phrase hspoken hnone

/-! ## Nothing is known -/

/-- Without any token no words matter. -/
theorem plan_eq_plan_nil (htable : table.isEmpty = true) :
    p.plan phrases table roots structured = p.plan [] table roots structured := by
  have hall (phrases : List Phrase) : ¬ (table.isEmpty = false ∧ phrases ≠ []) := by
    simp [htable]
  rw [plan, plan, passes_eq_rootsOnly (hall _), passes_eq_rootsOnly (hall _)]

theorem mem_items_plan_nil :
    s ∈ (p.plan [] table roots structured).items ↔
      s ∈ roots ∧ s.cost < p.limits.maxCost ∧ s.isValid = true := by
  have hnone : ¬ (table.isEmpty = false ∧ spoken [] ≠ []) := by
    simp [spoken]
  simp only [Ranking.mem_items, mem_toPairs_plan, passes_eq_rootsOnly hnone, mem_toPairs_rootsOnly]
  constructor
  · rintro ⟨rank, -, hroot⟩
    exact hroot
  · exact fun hroot => ⟨s.cost, rfl, hroot⟩

/-- If some words of the query make up no known terms, nothing is planned, whatever the roots, as
long as any word of the query is known. If none is, the plan is the same as without any words: it
has the roots that are interpretations by themselves. -/
theorem plan_of_unrecognised (p : Planner) (table : TokenTable) (roots : List Interpretation)
    (structured : Bool) {phrases : List Phrase}
    (hphrase : ∃ phrase ∈ phrases, phrase.words ≠ [] ∧ phrase.groupings = []) :
    (table.isEmpty = false → (p.plan phrases table roots structured).items = []) ∧
    (table.isEmpty = true →
      p.plan phrases table roots structured = p.plan [] table roots structured ∧
      ∀ s, s ∈ (p.plan phrases table roots structured).items ↔
        s ∈ roots ∧ s.cost < p.limits.maxCost ∧ s.isValid = true) := by
  obtain ⟨phrase, hmem, hwords, hnone⟩ := hphrase
  refine ⟨fun htable => items_plan_of_groupings_eq_nil htable hmem hwords hnone, fun htable => ?_⟩
  rw [plan_eq_plan_nil htable]
  exact ⟨rfl, fun s => mem_items_plan_nil⟩

/-- A place without a word in `streetTable`. -/
def atlantis : Phrase :=
  ⟨.untyped, ["atlantis"], []⟩

theorem groupings_segmented_atlantis {known : String → Bool} (h : known "atlantis" = false) :
    (atlantis.segmented known).groupings = [] := by
  simp [Phrase.segmented, atlantis, groupings, Grouping.table, Grouping.endingWith, Grouping.fewest,
    h]

/-- The search for pubs, which needs no words. -/
def allPubs : Interpretation :=
  Interpretation.root.withPlaceType .ofType ⟨"amenity", "pub"⟩

/-- Beside a street the unknown place leaves nothing to plan. By itself it is passed over, and all
pubs are searched for. -/
theorem atlantis_not_read :
    (∃ phrase ∈ streetPhrases ++ [atlantis.segmented streetTable.isKnown],
      phrase.words ≠ [] ∧ phrase.groupings = []) ∧
    (({} : Planner).plan (streetPhrases ++ [atlantis.segmented streetTable.isKnown]) streetTable
      [allPubs] false).items = [] ∧
    (∃ phrase ∈ [atlantis.segmented (∅ : TokenTable).isKnown],
      phrase.words ≠ [] ∧ phrase.groupings = []) ∧
    allPubs ∈ (({} : Planner).plan [atlantis.segmented (∅ : TokenTable).isKnown] ∅
      [allPubs] false).items := by
  have hstreet : ∃ phrase ∈ streetPhrases ++ [atlantis.segmented streetTable.isKnown],
      phrase.words ≠ [] ∧ phrase.groupings = [] :=
    ⟨_, List.mem_append_right _ List.mem_cons_self, List.cons_ne_nil _ _,
      groupings_segmented_atlantis (by decide)⟩
  have halone : ∃ phrase ∈ [atlantis.segmented (∅ : TokenTable).isKnown],
      phrase.words ≠ [] ∧ phrase.groupings = [] :=
    ⟨_, List.mem_cons_self, List.cons_ne_nil _ _, groupings_segmented_atlantis rfl⟩
  refine ⟨hstreet, ?_, halone, ?_⟩
  · exact (plan_of_unrecognised {} streetTable [allPubs] false hstreet).1 (by decide)
  · rw [((plan_of_unrecognised {} ∅ [allPubs] false halone).2 rfl).2]
    exact ⟨List.mem_cons_self, by decide, by decide⟩

end Planner

end Geocoding
