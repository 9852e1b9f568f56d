import Geocoding.Proofs.Grouping
import Geocoding.Proofs.StableOrder
import Geocoding.Proofs.Text
import Mathlib.Algebra.Order.BigOperators.Group.List
import Mathlib.Algebra.Order.Group.Nat
import Mathlib.Data.List.Perm.Subperm
import Mathlib.Data.List.Permutation
import Mathlib.Data.List.Sort
import Mathlib.Order.Nat

/-!
# Groupings: the ones with the fewest parts

A grouping comes from a cut: the words are cut into blocks of consecutive words, and every block is
a known term (`Grouping.IsCut`). Of all cuts with at most `maxParts` blocks, `groupings` gives those
with the fewest, at most `maxGroupings` of them (`groupings_of_fewest_cuts`).

The lists of groupings are cut back while they are built. The invariant is `KeepsFewest`: for every
number of parts, as many groupings with at most that many parts are at hand as there are, or at
least `maxGroupings`. Cutting back keeps it because it drops long groupings first, and adding a last
part keeps it because it makes every grouping longer by one: a grouping that was dropped stays
behind `maxGroupings` others that are no longer than it is.
-/

namespace Geocoding

/-! ## Ascending lists -/

/-- The first members of an ascending list include all that are within a bound, as far as they
reach. -/
theorem countP_take_of_pairwise {α : Type} {f : α → Nat} {xs : List α}
    (h : xs.Pairwise fun x y => f x ≤ f y) (k n : Nat) :
    (xs.take k).countP (f · ≤ n) = min k (xs.countP (f · ≤ n)) := by
  induction xs generalizing k with
  | nil => simp
  | cons x xs ih =>
    obtain ⟨hx, hxs⟩ := List.pairwise_cons.1 h
    cases k with
    | zero => simp
    | succ k =>
      rw [List.take_succ_cons]
      by_cases hle : f x ≤ n
      · rw [List.countP_cons_of_pos (by simpa using hle),
          List.countP_cons_of_pos (by simpa using hle), ih hxs]
        omega
      -- nothing that follows is within the bound
      · have hnone : (x :: xs).countP (f · ≤ n) = 0 := by
          rw [List.countP_eq_zero, List.forall_mem_cons]
          refine ⟨by simpa using hle, fun y hy => ?_⟩
          have hxy := hx y hy
          simp only [decide_eq_true_eq]
          omega
        have hsub : ((x :: xs).take (k + 1)).countP (f · ≤ n) ≤ (x :: xs).countP (f · ≤ n) :=
          (List.take_sublist _ _).countP_le
        rw [List.take_succ_cons] at hsub
        omega

theorem countP_le_succ (xs : List Nat) (n : Nat) :
    xs.countP (· ≤ n + 1) = xs.countP (· ≤ n) + xs.count (n + 1) := by
  induction xs with
  | nil => rfl
  | cons x xs ih =>
    rw [List.countP_cons, List.countP_cons, List.count_cons, ih]
    by_cases hx : x = n + 1
    · have hnot : ¬ n + 1 ≤ n := by omega
      simp [hx, hnot]
      omega
    · have hiff : x ≤ n + 1 ↔ x ≤ n := by omega
      simp [hx, hiff]
      omega

/-- An ascending list is known from how many of its members are within each bound. -/
theorem eq_of_countP_le_eq {xs ys : List Nat} (hxs : xs.Pairwise (· ≤ ·))
    (hys : ys.Pairwise (· ≤ ·)) (h : ∀ n, xs.countP (· ≤ n) = ys.countP (· ≤ n)) : xs = ys := by
  have hperm : xs.Perm ys := by
    rw [List.perm_iff_count]
    intro n
    cases n with
    | zero =>
      have hzero (zs : List Nat) : zs.count 0 = zs.countP (· ≤ 0) := by
        refine List.countP_congr fun z _ => ?_
        simp
      rw [hzero, hzero, h 0]
    | succ n =>
      have hn := h n
      have hsucc := h (n + 1)
      rw [countP_le_succ, countP_le_succ] at hsucc
      omega
  exact hperm.eq_of_pairwise (fun _ _ _ _ => Nat.le_antisymm) hxs hys

/-! ## Words joined by spaces -/

theorem Text.unwords_map_unwords {blocks : List (List String)} (h : ∀ block ∈ blocks, block ≠ []) :
    Text.unwords (blocks.map Text.unwords) = Text.unwords blocks.flatten := by
  induction blocks with
  | nil => rfl
  | cons block blocks ih =>
    obtain ⟨hblock, hblocks⟩ := List.forall_mem_cons.1 h
    cases blocks with
    | nil => simp [Text.unwords]
    | cons next blocks =>
      have hflat : (next :: blocks).flatten ≠ [] := by
        simp [(List.forall_mem_cons.1 hblocks).1]
      rw [List.map_cons, List.flatten_cons, Text.unwords_cons (by simp), ih hblocks, Text.unwords,
        Text.unwords, Text.unwords, String.intercalate_append_of_ne_nil hblock hflat]

namespace Grouping

variable {known : String → Bool}

/-! ## Cuts -/

/-- The words are cut into blocks, not too many, and each of them is a known term. -/
structure IsCut (known : String → Bool) (words : List String) (blocks : List (List String)) :
    Prop where
  flatten : blocks.flatten = words
  nonempty : ∀ block ∈ blocks, block ≠ []
  known : ∀ block ∈ blocks, known (Text.unwords block) = true
  length_le : blocks.length ≤ maxParts

/-- The terms that the blocks of a cut are. -/
def terms (blocks : List (List String)) : Grouping :=
  blocks.map Text.unwords

/-- Words without spaces can be told from the terms they are grouped into. -/
theorem eq_of_terms_eq {words : List String} {blocks blocks' : List (List String)}
    (hspace : ∀ word ∈ words, ' ' ∉ word.toList) (h : IsCut known words blocks)
    (h' : IsCut known words blocks') (heq : terms blocks = terms blocks') : blocks = blocks' := by
  have hsplit {cut : List (List String)} (hcut : IsCut known words cut) :
      (terms cut).map (Text.splitAt ' ') = cut := by
    rw [terms, List.map_map]
    refine (List.map_congr_left fun block hblock => ?_).trans (List.map_id cut)
    refine Text.splitAt_unwords (hcut.nonempty block hblock) fun word hword => hspace word ?_
    rw [← hcut.flatten]
    exact List.mem_flatten_of_mem hblock hword
  rw [← hsplit h, ← hsplit h', heq]

theorem isCut_nil_iff {blocks : List (List String)} : IsCut known [] blocks ↔ blocks = [] := by
  constructor
  · intro h
    cases blocks with
    | nil => rfl
    | cons block blocks =>
      have hblock := h.nonempty block List.mem_cons_self
      have hflat := h.flatten
      simp [hblock] at hflat
  · rintro rfl
    exact ⟨rfl, List.forall_mem_nil _, List.forall_mem_nil _, Nat.zero_le _⟩

/-- The last block consists of some of the earlier words, given nearest first, and of `block`. The
words before it are cut into the others. -/
def EndsWith (known : String → Bool) (block earlier : List String) (blocks : List (List String)) :
    Prop :=
  ∃ more rest front, earlier = more ++ rest ∧ blocks = front ++ [more.reverse ++ block] ∧
    IsCut known rest.reverse front ∧ front.length < maxParts ∧
    known (Text.unwords (more.reverse ++ block)) = true

theorem isCut_concat_iff {earlier : List String} {word : String} {blocks : List (List String)} :
    IsCut known (earlier.reverse ++ [word]) blocks ↔ EndsWith known [word] earlier blocks := by
  constructor
  · intro h
    obtain ⟨front, last, rfl⟩ : ∃ front last, blocks = front ++ [last] := by
      refine (List.eq_nil_or_concat' blocks).resolve_left ?_
      rintro rfl
      have hflat := h.flatten
      simp at hflat
    have hlast : last ≠ [] := h.nonempty last (by simp)
    obtain ⟨block, word', rfl⟩ := (List.eq_nil_or_concat' last).resolve_left hlast
    have hflat := h.flatten
    rw [List.flatten_append, List.flatten_singleton, ← List.append_assoc] at hflat
    obtain ⟨hwords, hword⟩ := List.append_inj' hflat rfl
    obtain rfl := List.singleton_inj.1 hword
    have hlen := h.length_le
    rw [List.length_append, List.length_singleton] at hlen
    refine ⟨block.reverse, front.flatten.reverse, front, ?_, by simp, ?_, hlen, ?_⟩
    · rw [← List.reverse_append, hwords, List.reverse_reverse]
    · refine ⟨by simp, fun b hb => ?_, fun b hb => ?_, by omega⟩
      · exact h.nonempty b (List.mem_append_left _ hb)
      · exact h.known b (List.mem_append_left _ hb)
    · simpa using h.known _ (by simp)
  · rintro ⟨more, rest, front, rfl, rfl, hfront, hlen, hknown⟩
    refine ⟨by simp [hfront.flatten], ?_, ?_, ?_⟩
    · intro block hblock
      rcases List.mem_append.1 hblock with hblock | hblock
      · exact hfront.nonempty block hblock
      · rw [List.mem_singleton.1 hblock]
        simp
    · intro block hblock
      rcases List.mem_append.1 hblock with hblock | hblock
      · exact hfront.known block hblock
      · rw [List.mem_singleton.1 hblock]
        exact hknown
    · rw [List.length_append, List.length_singleton]
      omega

/-! ## All cuts -/

/-- All cuts whose last block ends with `block`: it is the block itself, or the block preceded by
some of the earlier words. They are found as `endingWith` finds groupings, and none is dropped. -/
def cutsEndingWith (known : String → Bool) : List String → List String → List (List (List String))
  | block, [] => if known (Text.unwords block) then [[block]] else []
  | block, word :: earlier =>
    (if known (Text.unwords block) then
      ((cutsEndingWith known [word] earlier).filter (·.length < maxParts)).map (· ++ [block])
    else []) ++ cutsEndingWith known (word :: block) earlier

theorem mem_cutsEndingWith_iff {block earlier : List String} {blocks : List (List String)} :
    blocks ∈ cutsEndingWith known block earlier ↔ EndsWith known block earlier blocks := by
  induction earlier generalizing block blocks with
  | nil =>
    rw [cutsEndingWith]
    constructor
    · intro h
      split at h
      · next hknown =>
        obtain rfl := List.mem_singleton.1 h
        exact ⟨[], [], [], rfl, rfl, isCut_nil_iff.2 rfl, by decide, hknown⟩
      · exact absurd h List.not_mem_nil
    · rintro ⟨more, rest, front, hearlier, rfl, hfront, -, hknown⟩
      obtain ⟨rfl, rfl⟩ := List.nil_eq_append_iff.1 hearlier
      obtain rfl := isCut_nil_iff.1 hfront
      rw [if_pos (by simpa using hknown)]
      simp
  | cons word earlier ih =>
    -- the words before the block are cut in all ways, which is the statement for their last word
    have hshorter {front : List (List String)} :
        front ∈ cutsEndingWith known [word] earlier ↔
          IsCut known (word :: earlier).reverse front := by
      rw [ih, List.reverse_cons, isCut_concat_iff]
    rw [cutsEndingWith, List.mem_append, ih]
    constructor
    · rintro (h | ⟨more, rest, front, rfl, rfl, hfront, hlen, hknown⟩)
      · split at h
        · next hknown =>
          obtain ⟨front, hfront, rfl⟩ := List.mem_map.1 h
          obtain ⟨hmem, hlen⟩ := List.mem_filter.1 hfront
          exact ⟨[], word :: earlier, front, rfl, rfl, hshorter.1 hmem, of_decide_eq_true hlen,
            hknown⟩
        · exact absurd h List.not_mem_nil
      · exact ⟨word :: more, rest, front, rfl, by simp, hfront, hlen, by simpa using hknown⟩
    · rintro ⟨more, rest, front, hearlier, rfl, hfront, hlen, hknown⟩
      cases more with
      | nil =>
        obtain rfl : word :: earlier = rest := hearlier
        rw [if_pos (by simpa using hknown)]
        exact Or.inl (List.mem_map_of_mem (List.mem_filter.2 ⟨hshorter.2 hfront, by simpa using hlen⟩))
      | cons word' more =>
        obtain ⟨rfl, rfl⟩ := List.cons.inj hearlier
        exact Or.inr ⟨more, rest, front, rfl, by simp, hfront, hlen, by simpa using hknown⟩

theorem nodup_cutsEndingWith (known : String → Bool) (block earlier : List String) :
    (cutsEndingWith known block earlier).Nodup := by
  induction earlier generalizing block with
  | nil =>
    rw [cutsEndingWith]
    split <;> simp
  | cons word earlier ih =>
    rw [cutsEndingWith, List.nodup_append]
    refine ⟨?_, ih _, ?_⟩
    · split
      · exact ((ih [word]).filter _).map fun _ _ h => List.append_left_injective _ h
      · exact List.nodup_nil
    -- the last block of the former cuts is shorter than that of the latter
    · rintro blocks hshort _ hlong rfl
      split at hshort
      · obtain ⟨front, -, rfl⟩ := List.mem_map.1 hshort
        obtain ⟨more, rest, front', -, heq, -⟩ := mem_cutsEndingWith_iff.1 hlong
        have hlast := List.singleton_inj.1 (List.append_inj' heq rfl).2
        have hlen := congrArg List.length hlast
        simp at hlen
        omega
      · exact absurd hshort List.not_mem_nil

/-! ## Cutting back -/

/-- How many groupings have at most so many parts. -/
def countWithin (n : Nat) (found : List Grouping) : Nat :=
  found.countP (·.length ≤ n)

theorem countWithin_append (n : Nat) (found more : List Grouping) :
    countWithin n (found ++ more) = countWithin n found + countWithin n more :=
  List.countP_append

/-- A last part more makes one part more. -/
theorem countWithin_map_concat (n : Nat) (found : List Grouping) (block : String) :
    countWithin (n + 1) ((found.filter (·.length < maxParts)).map (· ++ [block])) =
      countWithin (min n (maxParts - 1)) found := by
  rw [countWithin, List.countP_map, List.countP_filter, countWithin]
  refine List.countP_congr fun g _ => ?_
  simp only [Function.comp_apply, List.length_append, List.length_singleton, Bool.and_eq_true,
    decide_eq_true_eq]
  have hpos : 0 < maxParts := by decide
  omega

theorem countWithin_zero_map_concat (found : List Grouping) (block : String) :
    countWithin 0 (found.map (· ++ [block])) = 0 := by
  rw [countWithin, List.countP_map, List.countP_eq_zero]
  intro g _
  simp

/-- The groupings at hand are among all of them, repetitions counted, and for every number of parts
no grouping with at most so many parts is missing unless `maxGroupings` of them are there. -/
structure KeepsFewest (kept all : List Grouping) : Prop where
  subperm : kept.Subperm all
  enough : ∀ n, min maxGroupings (countWithin n all) ≤ countWithin n kept

namespace KeepsFewest

variable {kept kept' all all' : List Grouping}

theorem refl (found : List Grouping) : KeepsFewest found found :=
  ⟨.refl _, fun _ => Nat.min_le_right _ _⟩

theorem trans (h : KeepsFewest kept' kept) (h' : KeepsFewest kept all) :
    KeepsFewest kept' all where
  subperm := h.subperm.trans h'.subperm
  enough n := by
    have hkept := h.enough n
    have hall := h'.enough n
    omega

theorem append (h : KeepsFewest kept all) (h' : KeepsFewest kept' all') :
    KeepsFewest (kept ++ kept') (all ++ all') where
  subperm := h.subperm.append h'.subperm
  enough n := by
    have hfirst := h.enough n
    have hsecond := h'.enough n
    rw [countWithin_append, countWithin_append]
    omega

/-- What follows from the limit on parts is the same for the groupings at hand and for all. -/
theorem concat (h : KeepsFewest kept all) (block : String) :
    KeepsFewest ((kept.filter (·.length < maxParts)).map (· ++ [block]))
      ((all.filter (·.length < maxParts)).map (· ++ [block])) where
  subperm := (h.subperm.filter _).map (List.append_left_injective _)
  enough n := by
    cases n with
    | zero =>
      rw [countWithin_zero_map_concat]
      omega
    | succ n =>
      rw [countWithin_map_concat, countWithin_map_concat]
      exact h.enough _

theorem fewest (found : List Grouping) : KeepsFewest (fewest found) found where
  subperm := (List.take_sublist _ _).subperm.trans (List.mergeSort_perm _ _).subperm
  enough n := by
    have hsorted := pairwise_mergeSort_le List.length found
    have hcount : countWithin n (found.mergeSort fun a b => a.length ≤ b.length) =
        countWithin n found := (List.mergeSort_perm _ _).countP_eq _
    rw [Grouping.fewest, ← hcount]
    exact (countP_take_of_pairwise hsorted _ _).ge

theorem cutBack (found : List Grouping) : KeepsFewest (cutBack found) found := by
  rw [Grouping.cutBack]
  split
  · exact fewest found
  · exact refl found

/-- A limit that leaves no fewer groupings with so many parts leaves every one of them. -/
theorem mem_of_countWithin_le (h : KeepsFewest kept all) {n : Nat}
    (hcount : countWithin n all ≤ countWithin n kept) {g : Grouping} (hg : g ∈ all)
    (hlen : g.length ≤ n) : g ∈ kept := by
  have hperm : (kept.filter (·.length ≤ n)).Perm (all.filter (·.length ≤ n)) := by
    refine (h.subperm.filter _).perm_of_length_le ?_
    rw [← List.countP_eq_length_filter, ← List.countP_eq_length_filter]
    exact hcount
  have hmem : g ∈ kept.filter (·.length ≤ n) :=
    hperm.mem_iff.2 (List.mem_filter.2 ⟨hg, by simpa using hlen⟩)
  exact (List.mem_filter.1 hmem).1

theorem length_eq (h : KeepsFewest kept all) (hle : kept.length ≤ maxGroupings) :
    kept.length = min maxGroupings all.length := by
  have hbound {g : Grouping} (hg : g ∈ all) : g.length ≤ (all.map List.length).sum :=
    List.le_sum_of_mem (List.mem_map_of_mem hg)
  have hall : countWithin (all.map List.length).sum all = all.length :=
    List.countP_eq_length.2 fun g hg => by simpa using hbound hg
  have henough := h.enough (all.map List.length).sum
  have hkept : countWithin (all.map List.length).sum kept ≤ kept.length := List.countP_le_length
  have hmost := h.subperm.length_le
  omega

/-- If there are not too many, none is missing. -/
theorem mem_of_length_le (h : KeepsFewest kept all) (hle : kept.length ≤ maxGroupings)
    (hall : all.length ≤ maxGroupings) {g : Grouping} (hg : g ∈ all) : g ∈ kept := by
  have hlen := h.length_eq hle
  exact (h.subperm.perm_of_length_le (by omega)).mem_iff.2 hg

/-- One that is missing has no fewer parts than any at hand: with its number of parts as the bound,
some at hand is beyond it, so that fewer than `maxGroupings` are within it and none of them is
missing. -/
theorem length_le_of_not_mem (h : KeepsFewest kept all) (hle : kept.length ≤ maxGroupings)
    {g g' : Grouping} (hg : g ∈ all) (hnot : g ∉ kept) (hg' : g' ∈ kept) :
    g'.length ≤ g.length := by
  by_contra hlt
  have hsome : countWithin g.length kept < kept.length := by
    refine Nat.lt_of_le_of_ne List.countP_le_length fun heq => hlt ?_
    simpa using List.countP_eq_length.1 heq g' hg'
  have henough := h.enough g.length
  exact hnot (h.mem_of_countWithin_le (by omega) hg le_rfl)

theorem map_length_eq (h : KeepsFewest kept all) (hle : kept.length ≤ maxGroupings)
    (hsorted : kept.Pairwise fun a b => a.length ≤ b.length) :
    kept.map List.length = ((all.map List.length).mergeSort (· ≤ ·)).take maxGroupings := by
  have hlengths : ((all.map List.length).mergeSort (· ≤ ·)).Pairwise (· ≤ ·) :=
    pairwise_mergeSort_le id _
  refine eq_of_countP_le_eq (List.pairwise_map.2 hsorted) hlengths.take fun n => ?_
  have hall : ((all.map List.length).mergeSort (· ≤ ·)).countP (· ≤ n) = countWithin n all := by
    rw [(List.mergeSort_perm _ _).countP_eq, List.countP_map]
    rfl
  have hkept : (kept.map List.length).countP (· ≤ n) = countWithin n kept := by
    rw [List.countP_map]
    rfl
  have htake : (((all.map List.length).mergeSort (· ≤ ·)).take maxGroupings).countP (· ≤ n) =
      min maxGroupings (((all.map List.length).mergeSort (· ≤ ·)).countP (· ≤ n)) :=
    countP_take_of_pairwise (f := id) hlengths maxGroupings n
  have henough := h.enough n
  have hmost : countWithin n kept ≤ countWithin n all := h.subperm.countP_le _
  have hlen : countWithin n kept ≤ kept.length := List.countP_le_length
  omega

end KeepsFewest

/-! ## The table -/

theorem map_terms_concat (cuts : List (List (List String))) (block : List String) :
    ((cuts.filter (·.length < maxParts)).map (· ++ [block])).map terms =
      ((cuts.map terms).filter (·.length < maxParts)).map (· ++ [Text.unwords block]) := by
  rw [List.filter_map, List.map_map, List.map_map]
  simp [terms, Function.comp_def]

/-- For every word the groupings at hand keep the fewest of all that end with it. -/
def TableKeeps (known : String → Bool) : List (String × List Grouping) → Prop
  | [] => True
  | (word, found) :: earlier =>
    KeepsFewest found ((cutsEndingWith known [word] (earlier.map (·.1))).map terms) ∧
      TableKeeps known earlier

theorem keepsFewest_endingWith {block : List String} (hblock : block ≠ [])
    {earlier : List (String × List Grouping)} (hearlier : TableKeeps known earlier)
    {found all : List Grouping} (h : KeepsFewest found all) :
    KeepsFewest (endingWith known (Text.unwords block) earlier found)
      (all ++ (cutsEndingWith known block (earlier.map (·.1))).map terms) := by
  induction earlier generalizing block found all with
  | nil =>
    rw [endingWith, List.map_nil, cutsEndingWith]
    split
    · exact h.append (KeepsFewest.refl _)
    · simpa using h
  | cons entry earlier ih =>
    obtain ⟨word, shorter⟩ := entry
    obtain ⟨hshorter, hearlier⟩ := hearlier
    rw [endingWith, List.map_cons, cutsEndingWith, List.map_append, ← List.append_assoc,
      ← Text.unwords_cons hblock]
    refine ih (List.cons_ne_nil _ _) hearlier ?_
    split
    · rw [map_terms_concat]
      exact (KeepsFewest.cutBack _).trans (h.append (hshorter.concat _))
    · simpa using h

theorem tableKeeps_table (known : String → Bool) (words : List String) :
    TableKeeps known (table known words) := by
  induction words using List.reverseRecOn with
  | nil => exact trivial
  | append_singleton words word ih =>
    rw [table_concat]
    refine ⟨?_, ih⟩
    have hword := keepsFewest_endingWith (List.cons_ne_nil word []) ih (KeepsFewest.refl [])
    simpa [Text.unwords] using hword

end Grouping

open Grouping

variable {known : String → Bool}

/-- The groupings keep the fewest of all that cuts make. -/
theorem keepsFewest_groupings (known : String → Bool) (earlier : List String) (word : String) :
    KeepsFewest (groupings known (earlier.reverse ++ [word]))
      ((cutsEndingWith known [word] earlier).map terms) := by
  have htable := tableKeeps_table known (earlier.reverse ++ [word])
  rw [table_concat] at htable
  have hword := htable.1
  rw [map_fst_table, List.reverse_reverse] at hword
  rw [groupings, table_concat]
  exact (KeepsFewest.fewest _).trans hword

theorem length_groupings_le (known : String → Bool) (words : List String) :
    (groupings known words).length ≤ maxGroupings := by
  rw [groupings]
  split
  · exact Nat.zero_le _
  · exact List.length_take_le _ _

theorem pairwise_groupings (known : String → Bool) (words : List String) :
    (groupings known words).Pairwise fun a b => a.length ≤ b.length := by
  rw [groupings]
  split
  · exact List.Pairwise.nil
  · exact (pairwise_mergeSort_le List.length _).take

/-- There are `maxGroupings` groupings, or as many as there are cuts. The groupings are cuts of the
words into known terms, none twice, and their numbers of parts are the least that cuts have. If there
are not too many cuts, each is there; no cut that is left out has fewer parts than a grouping. -/
theorem groupings_of_fewest_cuts {words : List String} (hne : words ≠ [])
    (hspace : ∀ word ∈ words, ' ' ∉ word.toList) :
    ∃ cuts : List (List (List String)), cuts.Nodup ∧
      (∀ blocks, blocks ∈ cuts ↔ IsCut known words blocks) ∧
      (groupings known words).length = min maxGroupings cuts.length ∧
      (groupings known words).Nodup ∧
      (∀ g ∈ groupings known words,
        Text.unwords g = Text.unwords words ∧ ∃ blocks ∈ cuts, g = terms blocks) ∧
      (groupings known words).Pairwise (fun a b => a.length ≤ b.length) ∧
      (groupings known words).map List.length =
        ((cuts.map List.length).mergeSort (· ≤ ·)).take maxGroupings ∧
      (cuts.length ≤ maxGroupings → ∀ blocks ∈ cuts, terms blocks ∈ groupings known words) ∧
      ∀ blocks ∈ cuts, terms blocks ∉ groupings known words →
        ∀ g ∈ groupings known words, g.length ≤ blocks.length := by
  obtain ⟨front, word, rfl⟩ := (List.eq_nil_or_concat' words).resolve_left hne
  obtain ⟨earlier, rfl⟩ : ∃ earlier, front = earlier.reverse := ⟨front.reverse, by simp⟩
  have hcuts (blocks : List (List String)) :
      blocks ∈ cutsEndingWith known [word] earlier ↔
        IsCut known (earlier.reverse ++ [word]) blocks := by
    rw [mem_cutsEndingWith_iff, isCut_concat_iff]
  have hkeeps := keepsFewest_groupings known earlier word
  have hsorted := pairwise_groupings known (earlier.reverse ++ [word])
  have hle := length_groupings_le known (earlier.reverse ++ [word])
  generalize groupings known (earlier.reverse ++ [word]) = kept at hkeeps hsorted hle ⊢
  have hnodup := nodup_cutsEndingWith known [word] earlier
  generalize cutsEndingWith known [word] earlier = cuts at hcuts hkeeps hnodup
  have hterms : (cuts.map terms).Nodup := by
    refine hnodup.map_on fun blocks hblocks blocks' hblocks' => ?_
    exact eq_of_terms_eq hspace ((hcuts _).1 hblocks) ((hcuts _).1 hblocks')
  refine ⟨cuts, hnodup, hcuts, ?_, ?_, ?_, hsorted, ?_, ?_, ?_⟩
  · simpa using hkeeps.length_eq hle
  · rw [List.nodup_iff_count_le_one] at hterms ⊢
    exact fun g => (hkeeps.subperm.count_le g).trans (hterms g)
  · intro g hg
    obtain ⟨blocks, hblocks, rfl⟩ := List.mem_map.1 (hkeeps.subperm.subset hg)
    have hcut := (hcuts blocks).1 hblocks
    refine ⟨?_, blocks, hblocks, rfl⟩
    rw [terms, Text.unwords_map_unwords hcut.nonempty, hcut.flatten]
  · have hmap := hkeeps.map_length_eq hle hsorted
    rw [List.map_map] at hmap
    simpa [Function.comp_def, terms] using hmap
  · intro hfew blocks hblocks
    exact hkeeps.mem_of_length_le hle (by simpa using hfew) (List.mem_map_of_mem hblocks)
  · intro blocks hblocks hnot g hg
    have hlen := hkeeps.length_le_of_not_mem hle (List.mem_map_of_mem hblocks) hnot hg
    simpa [terms] using hlen

/-- "New York City" can be cut in three ways if the city is not known by its whole name. -/
theorem newYorkCity_fewest_cuts :
    ["new", "york", "city"] ≠ [] ∧ (∀ word ∈ ["new", "york", "city"], ' ' ∉ word.toList) ∧
      ∃ cuts : List (List (List String)), cuts.Nodup ∧
        (∀ blocks, blocks ∈ cuts ↔
          IsCut ["new", "york", "new york", "city", "york city"].contains
            ["new", "york", "city"] blocks) ∧
        cuts.length = 3 ∧
        ∀ blocks ∈ cuts, terms blocks ∈
          [["new york", "city"], ["new", "york city"], ["new", "york", "city"]] := by
  have hgroupings :
      groupings ["new", "york", "new york", "city", "york city"].contains ["new", "york", "city"] =
        [["new york", "city"], ["new", "york city"], ["new", "york", "city"]] := by
    cbv
  have hne : ["new", "york", "city"] ≠ [] := List.cons_ne_nil _ _
  have hspace : ∀ word ∈ ["new", "york", "city"], ' ' ∉ word.toList := by decide
  obtain ⟨cuts, hnodup, hcuts, hlen, -, -, -, -, hall, -⟩ := groupings_of_fewest_cuts hne hspace
  rw [hgroupings] at hlen hall
  have hthree : cuts.length = 3 := by
    rw [maxGroupings] at hlen
    simp only [List.length_cons, List.length_nil] at hlen
    omega
  exact ⟨hne, hspace, cuts, hnodup, hcuts, hthree, hall (by rw [hthree]; decide)⟩

end Geocoding
