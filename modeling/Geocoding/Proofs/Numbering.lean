import Geocoding.Proofs.Entries
import Geocoding.Proofs.RenamedSearches
import Mathlib.Data.List.Count

/-!
# Numbering entries in another order

Two lists can have the same members of each key in the same order, although members of different
keys stand in different orders. Then one renaming of positions leads from every member of the first
list to the same member of the second (`exists_renaming`). Two vocabularies that are such lists of
entries give the same tokens up to their ids (`Vocabulary.renames_lexicon`).
-/

namespace Geocoding

/-! ## Positions by key -/

section

variable {α κ : Type} [DecidableEq κ] (key : α → κ) (xs ys : List α)

/-- The members of a key with their positions, which are counted from one. -/
def numberedOf (k : κ) : List (α × Nat) :=
  (xs.zipIdx 1).filter fun (x, _) => key x = k

/-- The positions of the members of a key. -/
def positions (k : κ) : List Nat :=
  (numberedOf key xs k).map (·.2)

/-- The position in the second list of what stands at a position of the first: it has as many
members of its key before it. -/
def renumber (i : Nat) : Nat :=
  match (xs.zipIdx 1).find? (·.2 = i) with
  | some (x, _) => (positions key ys (key x)).getD ((positions key xs (key x)).idxOf i) 0
  | none => i

variable {key xs ys} {i : Nat} {k : κ}

theorem mem_positions_iff :
    i ∈ positions key xs k ↔ ∃ x, (x, i) ∈ xs.zipIdx 1 ∧ key x = k := by
  simp [positions, numberedOf]

theorem nodup_positions : (positions key xs k).Nodup := by
  have hall : ((xs.zipIdx 1).map (·.2)).Nodup := by
    rw [List.zipIdx_map_snd]
    exact List.nodup_range'
  exact (List.filter_sublist.map _).nodup hall

theorem eq_of_mem_zipIdx {x y : α} (hx : (x, i) ∈ xs.zipIdx 1) (hy : (y, i) ∈ xs.zipIdx 1) :
    x = y := by
  rw [List.mk_mem_zipIdx_iff_le_and_getElem?_sub] at hx hy
  exact Option.some.inj (hx.2.symm.trans hy.2)

/-- Positions go from one to the length of the list. -/
theorem exists_mem_positions_iff :
    (∃ k, i ∈ positions key xs k) ↔ 1 ≤ i ∧ i ≤ xs.length := by
  constructor
  · rintro ⟨k, hi⟩
    obtain ⟨x, hx, -⟩ := mem_positions_iff.1 hi
    rw [List.mk_mem_zipIdx_iff_le_and_getElem?_sub] at hx
    obtain ⟨hlt, -⟩ := List.getElem?_eq_some_iff.1 hx.2
    omega
  · rintro ⟨hle, hlength⟩
    have hlt : i - 1 < xs.length := by omega
    refine ⟨key xs[i - 1], mem_positions_iff.2 ⟨xs[i - 1], ?_, rfl⟩⟩
    exact List.mk_mem_zipIdx_iff_le_and_getElem?_sub.2 ⟨hle, List.getElem?_eq_getElem hlt⟩

/-- A position belongs to one key. -/
theorem eq_of_mem_positions {k' : κ} (h : i ∈ positions key xs k) (h' : i ∈ positions key xs k') :
    k = k' := by
  obtain ⟨x, hx, rfl⟩ := mem_positions_iff.1 h
  obtain ⟨y, hy, rfl⟩ := mem_positions_iff.1 h'
  rw [eq_of_mem_zipIdx hx hy]

theorem renumber_of_mem (h : i ∈ positions key xs k) :
    renumber key xs ys i = (positions key ys k).getD ((positions key xs k).idxOf i) 0 := by
  obtain ⟨x, hx, rfl⟩ := mem_positions_iff.1 h
  unfold renumber
  split
  · next y j hfind =>
    obtain rfl : j = i := by simpa using List.find?_some hfind
    rw [eq_of_mem_zipIdx (List.mem_of_find?_eq_some hfind) hx]
  · next hnone => exact absurd (decide_eq_true rfl) (List.find?_eq_none.1 hnone _ hx)

theorem renumber_of_not_mem (h : ¬ ∃ k, i ∈ positions key xs k) : renumber key xs ys i = i := by
  unfold renumber
  split
  · next x j hfind =>
    obtain rfl : j = i := by simpa using List.find?_some hfind
    exact absurd ⟨key x, mem_positions_iff.2 ⟨x, List.mem_of_find?_eq_some hfind, rfl⟩⟩ h
  · rfl

theorem map_fst_numberedOf : (numberedOf key xs k).map (·.1) = xs.filter (key · = k) := by
  have hxs : xs = (xs.zipIdx 1).map (·.1) := (List.zipIdx_map_fst 1 xs).symm
  rw [hxs, List.filter_map, ← hxs, numberedOf]
  rfl

section

variable (hsame : ∀ k, xs.filter (key · = k) = ys.filter (key · = k))

include hsame

theorem length_positions : (positions key xs k).length = (positions key ys k).length := by
  have h := congrArg List.length (hsame k)
  rw [← map_fst_numberedOf, ← map_fst_numberedOf] at h
  simpa [positions] using h

theorem map_renumber_positions :
    (positions key xs k).map (renumber key xs ys) = positions key ys k := by
  have hlength : (positions key xs k).length = (positions key ys k).length :=
    length_positions hsame
  refine List.ext_getElem (by rw [List.length_map, hlength]) fun n hn hn' => ?_
  rw [List.getElem_map, renumber_of_mem (List.getElem_mem _), nodup_positions.idxOf_getElem]
  simp [hn']

theorem length_eq [DecidableEq α] : xs.length = ys.length := by
  have hcount (x : α) (zs : List α) : (zs.filter (key · = key x)).count x = zs.count x :=
    List.count_filter (decide_eq_true rfl)
  have hperm : xs.Perm ys :=
    List.perm_iff_count.2 fun x => by rw [← hcount x xs, hsame, hcount]
  exact hperm.length_eq

theorem renumber_injective [DecidableEq α] : Function.Injective (renumber key xs ys) := by
  have hmem {i : Nat} {k : κ} (hi : i ∈ positions key xs k) :
      renumber key xs ys i ∈ positions key ys k := by
    rw [← map_renumber_positions hsame]
    exact List.mem_map_of_mem hi
  have hrange {i : Nat} : (∃ k, i ∈ positions key ys k) ↔ ∃ k, i ∈ positions key xs k := by
    rw [exists_mem_positions_iff, exists_mem_positions_iff, length_eq hsame]
  have hknown {i : Nat} : (∃ k, renumber key xs ys i ∈ positions key xs k) ↔
      ∃ k, i ∈ positions key xs k := by
    by_cases hi : ∃ k, i ∈ positions key xs k
    · obtain ⟨k, hi⟩ := hi
      exact iff_of_true (hrange.1 ⟨k, hmem hi⟩) ⟨k, hi⟩
    · rw [renumber_of_not_mem hi]
  intro i j heq
  have hboth : (∃ k, i ∈ positions key xs k) ↔ ∃ k, j ∈ positions key xs k := by
    rw [← hknown, heq, hknown]
  by_cases hi : ∃ k, i ∈ positions key xs k
  · obtain ⟨k', hj⟩ := hboth.1 hi
    obtain ⟨k, hi⟩ := hi
    obtain rfl : k = k' := eq_of_mem_positions (hmem hi) (heq ▸ hmem hj)
    have hnodup : ((positions key xs k).map (renumber key xs ys)).Nodup := by
      rw [map_renumber_positions hsame]
      exact nodup_positions
    exact List.inj_on_of_nodup_map hnodup hi hj heq
  · have hj : ¬ ∃ k, j ∈ positions key xs k := fun hj => hi (hboth.2 hj)
    rwa [renumber_of_not_mem hi, renumber_of_not_mem hj] at heq

/-- One renaming of positions leads from the first list to the second. -/
theorem exists_renaming [DecidableEq α] :
    ∃ σ : Renaming, ∀ k,
      numberedOf key ys k = (numberedOf key xs k).map fun (x, i) => (x, σ i) := by
  have hzero : ¬ ∃ k, 0 ∈ positions key xs k := by
    rw [exists_mem_positions_iff]
    omega
  refine ⟨⟨renumber key xs ys, renumber_injective hsame, renumber_of_not_mem hzero⟩, fun k => ?_⟩
  have hsecond : numberedOf key ys k = (ys.filter (key · = k)).zip (positions key ys k) :=
    List.zip_of_prod map_fst_numberedOf rfl
  rw [hsecond]
  refine (List.zip_of_prod ?_ ?_).symm
  · rw [List.map_map, ← hsame, ← map_fst_numberedOf]
    rfl
  · rw [List.map_map, ← map_renumber_positions hsame, positions, List.map_map]
    rfl

end

end

/-! ## Vocabularies -/

variable (σ : Renaming)

namespace Vocabulary

/-- The second vocabulary has other ids for the same entries. -/
def Renames (v v' : Vocabulary) : Prop :=
  ∀ kind term, v'.find kind term = (v.find kind term).map fun (e, id) => (e, σ id)

/-- What the entries of a vocabulary are told apart by. -/
def keyOf (e : Entry) : MeaningKind × String :=
  (e.meaning.kind, e.term)

theorem numberedOf_keyOf (v : Vocabulary) (kind : MeaningKind) (term : String) :
    numberedOf keyOf v.entries (kind, term) = v.find kind term := by
  unfold numberedOf find numbered
  congr 1
  funext ⟨e, id⟩
  simp [keyOf]

/-- Vocabularies with the same entries of each kind for each term have them under other ids. -/
theorem exists_renames {v v' : Vocabulary} (h : ∀ kind term,
    v.entries.filter (·.IsFor kind term) = v'.entries.filter (·.IsFor kind term)) :
    ∃ σ, v.Renames σ v' := by
  have hkey (v : Vocabulary) (kind : MeaningKind) (term : String) :
      v.entries.filter (keyOf · = (kind, term)) = v.entries.filter (·.IsFor kind term) :=
    List.filter_congr fun e _ => decide_eq_decide.2 Prod.ext_iff
  have hsame (k : MeaningKind × String) :
      v.entries.filter (keyOf · = k) = v'.entries.filter (keyOf · = k) := by
    rw [hkey, hkey, h]
  obtain ⟨σ, hσ⟩ := exists_renaming hsame
  exact ⟨σ, fun kind term => by rw [← numberedOf_keyOf, hσ, numberedOf_keyOf]⟩

end Vocabulary

theorem Entry.rename_token (e : Entry) (id : Nat) : (e.token id).rename σ = e.token (σ id) := by
  obtain ⟨term, meaning⟩ := e
  cases meaning <;> rfl

namespace Vocabulary

variable {v v' : Vocabulary} (h : v.Renames σ v')

include h

theorem id?_of_renames (kind : MeaningKind) (term : String) :
    v'.id? kind term = (v.id? kind term).map σ := by
  unfold id?
  rw [h, List.head?_map, Option.map_map, Option.map_map]
  rfl

theorem tokensOf_of_renames (term : String) (kind : MeaningKind) :
    v'.tokensOf term kind = (v.tokensOf term kind).map (·.rename σ) := by
  unfold tokensOf
  rw [h, List.map_map, List.map_map]
  refine List.map_congr_left fun e _ => (e.1.rename_token σ e.2).symm

theorem table_of_renames (terms : List String) : v'.table terms = (v.table terms).rename σ := by
  unfold table
  rw [← TokenTable.ofList_rename]
  simp [tokens, List.map_flatMap, tokensOf_of_renames σ h, Function.comp_def]

/-- The lexicons of the vocabularies differ in the ids of words only. -/
theorem renames_lexicon {m : Type → Type} [Monad m] [LawfulMonad m] :
    (v.lexicon (m := m)).Renames σ v'.lexicon where
  normalize := rfl
  tokens terms := by
    simp [lexicon, table_of_renames σ h]
  specialTokens term := by
    simp [lexicon, phraseTokens, tokensOf_of_renames σ h]

end Vocabulary

end Geocoding
