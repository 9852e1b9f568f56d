import Geocoding.Phrase.Grouping
import Mathlib.Data.List.Basic
import Mathlib.Data.List.Induction

/-!
# Groupings: the whole phrase

If the words of a phrase are a known term together, the grouping of this one term comes first
(`exists_groupings_eq_cons`): it is the only grouping with one part, and cutting back drops only
groupings with more parts.
-/

namespace Geocoding

/-- A member that no other one may precede is the first one after sorting. -/
theorem exists_mergeSort_eq_cons {α : Type} (le : α → α → Bool)
    (htrans : ∀ a b c, le a b = true → le b c = true → le a c = true)
    (htotal : ∀ a b, (le a b || le b a) = true) {xs : List α} {x : α} (hx : x ∈ xs)
    (hfirst : ∀ y ∈ xs, le y x = true → y = x) : ∃ rest, xs.mergeSort le = x :: rest := by
  have hmem : x ∈ xs.mergeSort le := List.mem_mergeSort.2 hx
  obtain ⟨y, rest, hsorted⟩ := List.exists_cons_of_ne_nil (List.ne_nil_of_mem hmem)
  have hpairwise := List.pairwise_mergeSort htrans htotal xs
  rw [hsorted] at hmem hpairwise
  have hy : y ∈ xs := List.mem_mergeSort.1 (hsorted ▸ List.mem_cons_self)
  have hyx : y = x := by
    rcases List.mem_cons.1 hmem with rfl | hmem
    · rfl
    · exact hfirst y hy (List.rel_of_pairwise_cons hpairwise hmem)
  exact ⟨rest, hyx ▸ hsorted⟩

theorem Text.unwords_cons {words : List String} (h : words ≠ []) (word : String) :
    Text.unwords (word :: words) = word ++ " " ++ Text.unwords words :=
  String.intercalate_cons_of_ne_nil h

namespace Grouping

variable {known : String → Bool}

/-! ## Cutting back -/

theorem mem_of_mem_fewest {found : List Grouping} {g : Grouping} (h : g ∈ fewest found) :
    g ∈ found :=
  List.mem_mergeSort.1 (List.mem_of_mem_take h)

theorem mem_of_mem_cutBack {found : List Grouping} {g : Grouping} (h : g ∈ cutBack found) :
    g ∈ found := by
  rw [cutBack] at h
  split at h
  · exact mem_of_mem_fewest h
  · exact h

/-- The grouping with the fewest parts comes first. -/
theorem exists_fewest_eq_cons {found : List Grouping} {g : Grouping} (hg : g ∈ found)
    (hfewest : ∀ g' ∈ found, g'.length ≤ g.length → g' = g) :
    ∃ rest, fewest found = g :: rest := by
  obtain ⟨rest, hsorted⟩ := exists_mergeSort_eq_cons
    (fun a b : Grouping => decide (a.length ≤ b.length)) (by simp; omega) (by simp; omega) hg
    (by simpa using hfewest)
  exact ⟨rest.take 99, by rw [fewest, hsorted]; rfl⟩

/-! ## Last parts -/

/-- The block preceded by all earlier words, which are given nearest first. -/
def wholeBlock (block : String) (earlier : List String) : String :=
  earlier.foldl (fun block word => word ++ " " ++ block) block

theorem wholeBlock_unwords {words : List String} (h : words ≠ []) (earlier : List String) :
    wholeBlock (Text.unwords words) earlier = Text.unwords (earlier.reverse ++ words) := by
  induction earlier generalizing words with
  | nil => rfl
  | cons word earlier ih =>
    rw [wholeBlock, List.foldl_cons, ← Text.unwords_cons h, ← wholeBlock,
      ih (List.cons_ne_nil _ _)]
    simp

/-- Adding a last part makes a grouping of at least two parts. -/
theorem two_le_length_of_mem_cutBack {found shorter : List Grouping} {block : String}
    (hfound : ∀ g ∈ found, 2 ≤ g.length) (hshorter : ∀ g ∈ shorter, g ≠ []) {g : Grouping}
    (h : g ∈ cutBack (found ++ (shorter.filter (·.length < maxParts)).map (· ++ [block]))) :
    2 ≤ g.length := by
  rcases List.mem_append.1 (mem_of_mem_cutBack h) with hg | hg
  · exact hfound g hg
  · obtain ⟨g', hg', rfl⟩ := List.mem_map.1 hg
    have hpos := List.length_pos_iff.2 (hshorter g' (List.mem_filter.1 hg').1)
    rw [List.length_append, List.length_singleton]
    omega

/-- All groupings but that of the whole block have at least two parts. -/
theorem exists_endingWith_eq {earlier : List (String × List Grouping)} (block : String)
    {found : List Grouping} (hfound : ∀ g ∈ found, 2 ≤ g.length)
    (hearlier : ∀ e ∈ earlier, ∀ g ∈ e.2, g ≠ []) :
    ∃ found', (∀ g ∈ found', 2 ≤ g.length) ∧ endingWith known block earlier found =
      found' ++ if known (wholeBlock block (earlier.map (·.1))) then
        [[wholeBlock block (earlier.map (·.1))]] else [] := by
  induction earlier generalizing block found with
  | nil =>
    refine ⟨found, hfound, ?_⟩
    rw [endingWith]
    by_cases hknown : known block = true
    · simp [wholeBlock, hknown]
    · simp [wholeBlock, hknown]
  | cons entry earlier ih =>
    obtain ⟨word, shorter⟩ := entry
    obtain ⟨hshorter, hearlier⟩ := List.forall_mem_cons.1 hearlier
    rw [endingWith]
    refine ih _ ?_ hearlier
    split
    · exact fun g hg => two_le_length_of_mem_cutBack hfound hshorter hg
    · exact hfound

theorem table_concat (words : List String) (word : String) :
    table known (words ++ [word]) =
      (word, endingWith known word (table known words) []) :: table known words := by
  simp [table]

theorem map_fst_table (words : List String) :
    (table known words).map (·.1) = words.reverse := by
  induction words using List.reverseRecOn with
  | nil => rfl
  | append_singleton words word ih => rw [table_concat, List.map_cons, ih]; simp

theorem ne_nil_of_mem_table (words : List String) :
    ∀ e ∈ table known words, ∀ g ∈ e.2, g ≠ [] := by
  induction words using List.reverseRecOn with
  | nil => exact List.forall_mem_nil _
  | append_singleton words word ih =>
    rw [table_concat]
    refine List.forall_mem_cons.2 ⟨fun g hg => ?_, ih⟩
    obtain ⟨found, hfound, heq⟩ := exists_endingWith_eq word (List.forall_mem_nil _) ih
    rw [heq] at hg
    rcases List.mem_append.1 hg with hg | hg
    · exact List.ne_nil_of_length_pos (Nat.lt_of_lt_of_le Nat.two_pos (hfound g hg))
    · split at hg
      · rw [List.mem_singleton.1 hg]
        exact List.cons_ne_nil _ _
      · exact nomatch hg

end Grouping

/-- If the words are a known term together, the grouping of this term comes first. -/
theorem exists_groupings_eq_cons {known : String → Bool} {words : List String} (hne : words ≠ [])
    (hknown : known (Text.unwords words) = true) :
    ∃ rest, groupings known words = [Text.unwords words] :: rest := by
  obtain ⟨words, word, rfl⟩ := (List.eq_nil_or_concat' words).resolve_left hne
  have hwhole : Grouping.wholeBlock word ((Grouping.table known words).map (·.1)) =
      Text.unwords (words ++ [word]) := by
    have hword := Grouping.wholeBlock_unwords (List.cons_ne_nil word []) words.reverse
    simpa [Grouping.map_fst_table, Text.unwords] using hword
  obtain ⟨found, hfound, heq⟩ := Grouping.exists_endingWith_eq word (List.forall_mem_nil _)
    (Grouping.ne_nil_of_mem_table words)
  rw [hwhole, if_pos hknown] at heq
  rw [groupings, Grouping.table_concat]
  simp only [heq]
  refine Grouping.exists_fewest_eq_cons (by simp) fun g hg hle => ?_
  rcases List.mem_append.1 hg with hg | hg
  · have := hfound g hg
    rw [List.length_singleton] at hle
    omega
  · exact List.mem_singleton.1 hg

theorem ne_nil_of_mem_groupings {known : String → Bool} {words : List String} {g : Grouping}
    (h : g ∈ groupings known words) : g ≠ [] := by
  rw [groupings] at h
  split at h
  · exact nomatch h
  · next htable =>
    have hmem := Grouping.ne_nil_of_mem_table words _ (htable ▸ List.mem_cons_self)
    exact hmem g (Grouping.mem_of_mem_fewest h)

end Geocoding
