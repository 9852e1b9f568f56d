import Geocoding.Candidate
import Mathlib.Data.List.Induction
import Mathlib.Data.List.Nodup
import Mathlib.Data.List.Perm.Basic
import Mathlib.Order.Bounds.Basic

/-!
# Candidate sets: laws

What is in a candidate set after candidates are put into it, one per place. A set holds ranks
(`CandidateSet.Holds`) if it has exactly the places for which there are any, each with the least of
them: putting candidates into a set adds their ranks.

`splitByRank` separates the candidates of the least rank from the others, and loses none
(`splitByRank_fst`, `splitByRank_perm`).
-/

namespace Geocoding

/-! ## Putting a candidate into a list -/

section

variable {pick : Candidate → Candidate → Candidate} {c x : Candidate} {entries : List Candidate}

theorem putBy_of_not_mem (h : c.key ∉ entries.map (·.key)) :
    putBy pick c entries = entries ++ [c] := by
  induction entries with
  | nil => rfl
  | cons e rest ih =>
    rw [List.map_cons, List.mem_cons, not_or] at h
    rw [putBy, if_neg (Ne.symm h.1), ih h.2, List.cons_append]

/-- What is done to the entry for a place changes nothing if there is none. -/
theorem map_ite_key_of_not_mem {key : Source × Nat} {f : Candidate → Candidate}
    (h : key ∉ entries.map (·.key)) :
    (entries.map fun e => if e.key = key then f e else e) = entries := by
  refine (List.map_congr_left fun e he => if_neg fun hkey => ?_).trans (List.map_id entries)
  exact h (List.mem_map.2 ⟨e, he, hkey⟩)

theorem putBy_of_mem (hdistinct : (entries.map (·.key)).Nodup) (h : c.key ∈ entries.map (·.key)) :
    putBy pick c entries = entries.map fun e => if e.key = c.key then pick e c else e := by
  induction entries with
  | nil => exact absurd h List.not_mem_nil
  | cons e rest ih =>
    rw [List.map_cons, List.nodup_cons] at hdistinct
    rw [putBy, List.map_cons]
    by_cases he : e.key = c.key
    · rw [if_pos he, if_pos he, map_ite_key_of_not_mem (he ▸ hdistinct.1)]
    · rw [if_neg he, if_neg he, ih hdistinct.2]
      exact (List.mem_cons.1 h).resolve_left (Ne.symm he)

/-- What comes in is the new candidate, in place of a former one or behind all of them. -/
theorem mem_putBy (hdistinct : (entries.map (·.key)).Nodup) (h : x ∈ putBy pick c entries) :
    (x ∈ entries ∧ x.key ≠ c.key) ∨ (∃ e ∈ entries, e.key = c.key ∧ x = pick e c) ∨
      (c.key ∉ entries.map (·.key) ∧ x = c) := by
  by_cases hc : c.key ∈ entries.map (·.key)
  · rw [putBy_of_mem hdistinct hc] at h
    obtain ⟨e, he, rfl⟩ := List.mem_map.1 h
    by_cases hkey : e.key = c.key
    · exact Or.inr (Or.inl ⟨e, he, hkey, if_pos hkey⟩)
    · rw [if_neg hkey]
      exact Or.inl ⟨he, hkey⟩
  · rw [putBy_of_not_mem hc] at h
    rcases List.mem_append.1 h with hx | hx
    · exact Or.inl ⟨hx, fun hkey => hc (hkey ▸ List.mem_map_of_mem hx)⟩
    · exact Or.inr (Or.inr ⟨hc, List.mem_singleton.1 hx⟩)

/-- The entries for other places stay. -/
theorem mem_putBy_of_key_ne (hdistinct : (entries.map (·.key)).Nodup) (hx : x ∈ entries)
    (hne : x.key ≠ c.key) : x ∈ putBy pick c entries := by
  by_cases hc : c.key ∈ entries.map (·.key)
  · rw [putBy_of_mem hdistinct hc]
    exact List.mem_map.2 ⟨x, hx, if_neg hne⟩
  · rw [putBy_of_not_mem hc]
    exact List.mem_append_left _ hx

theorem mem_putBy_self_of_not_mem (h : c.key ∉ entries.map (·.key)) : c ∈ putBy pick c entries := by
  rw [putBy_of_not_mem h]
  exact List.mem_append_right _ List.mem_cons_self

/-- The place of the candidate has the candidate that is picked. -/
theorem pick_mem_putBy (hdistinct : (entries.map (·.key)).Nodup) {e : Candidate} (he : e ∈ entries)
    (hkey : e.key = c.key) : pick e c ∈ putBy pick c entries := by
  rw [putBy_of_mem hdistinct (List.mem_map.2 ⟨e, he, hkey⟩)]
  exact List.mem_map.2 ⟨e, he, if_pos hkey⟩

theorem putBy_lowerRanked_of_mem (hdistinct : (entries.map (·.key)).Nodup) (hc : c ∈ entries) :
    putBy lowerRanked c entries = entries := by
  rw [putBy_of_mem hdistinct (List.mem_map_of_mem hc)]
  refine (List.map_congr_left fun e he => ?_).trans (List.map_id entries)
  by_cases hkey : e.key = c.key
  · obtain rfl := List.inj_on_of_nodup_map hdistinct he hc hkey
    rw [if_pos rfl, lowerRanked, ite_self, id]
  · exact if_neg hkey

theorem rank_lowerRanked (e c : Candidate) : (lowerRanked e c).rank = min e.rank c.rank := by
  unfold lowerRanked
  split <;> omega

theorem lowerRanked_eq_or (e c : Candidate) : lowerRanked e c = e ∨ lowerRanked e c = c := by
  unfold lowerRanked
  split
  · exact Or.inr rfl
  · exact Or.inl rfl

end

namespace CandidateSet

variable {set : CandidateSet} {c x : Candidate} {cs : List Candidate}

/-! ## Members -/

theorem mem_of_mem_insert (h : x ∈ (set.insert c).entries) : x = c ∨ x ∈ set.entries := by
  rcases mem_putBy set.distinct h with ⟨hmem, -⟩ | ⟨e, he, -, rfl⟩ | ⟨-, rfl⟩
  · exact Or.inr hmem
  · rcases lowerRanked_eq_or e c with heq | heq
    · exact Or.inr (by rwa [heq])
    · exact Or.inl heq
  · exact Or.inl rfl

theorem mem_replace_iff :
    x ∈ (set.replace c).entries ↔ x = c ∨ x ∈ set.entries ∧ x.key ≠ c.key := by
  constructor
  · intro h
    rcases mem_putBy set.distinct h with hmem | ⟨-, -, -, rfl⟩ | ⟨-, rfl⟩
    · exact Or.inr hmem
    · exact Or.inl rfl
    · exact Or.inl rfl
  · rintro (rfl | ⟨hmem, hne⟩)
    · by_cases hkey : x.key ∈ set.entries.map (·.key)
      · obtain ⟨e, he, hkey⟩ := List.mem_map.1 hkey
        exact pick_mem_putBy set.distinct he hkey
      · exact mem_putBy_self_of_not_mem hkey
    · exact mem_putBy_of_key_ne set.distinct hmem hne

/-- The new candidates take the places that they are for. -/
theorem mem_foldl_replace_iff (hcs : (cs.map (·.key)).Nodup) :
    x ∈ (cs.foldl replace set).entries ↔
      x ∈ cs ∨ x ∈ set.entries ∧ x.key ∉ cs.map (·.key) := by
  induction cs generalizing set with
  | nil => simp
  | cons c cs ih =>
    rw [List.map_cons, List.nodup_cons] at hcs
    rw [List.foldl_cons, ih hcs.2, mem_replace_iff, List.map_cons, List.mem_cons, List.mem_cons,
      not_or]
    constructor
    · rintro (hx | ⟨rfl | ⟨hx, hne⟩, hnew⟩)
      · exact Or.inl (Or.inr hx)
      · exact Or.inl (Or.inl rfl)
      · exact Or.inr ⟨hx, hne, hnew⟩
    · rintro ((rfl | hx) | ⟨hx, hne, hnew⟩)
      · exact Or.inr ⟨Or.inl rfl, hcs.1⟩
      · exact Or.inl hx
      · exact Or.inr ⟨Or.inr ⟨hx, hne⟩, hnew⟩

theorem mem_of_mem_extend (h : x ∈ (set.extend cs).entries) : x ∈ cs ∨ x ∈ set.entries := by
  induction cs generalizing set with
  | nil => exact Or.inr h
  | cons c cs ih =>
    rcases ih h with hx | hx
    · exact Or.inl (List.mem_cons_of_mem _ hx)
    · rcases mem_of_mem_insert hx with rfl | hx
      · exact Or.inl List.mem_cons_self
      · exact Or.inr hx

/-- Candidates for new and different places come behind the former ones. -/
theorem entries_extend (h : ((set.entries ++ cs).map (·.key)).Nodup) :
    (set.extend cs).entries = set.entries ++ cs := by
  induction cs generalizing set with
  | nil => simp [extend]
  | cons c cs ih =>
    have hnew : c.key ∉ set.entries.map (·.key) := by
      rw [List.map_append, List.nodup_append] at h
      exact fun hc => h.2.2 _ hc _ (by simp) rfl
    have hinsert : (set.insert c).entries = set.entries ++ [c] := putBy_of_not_mem hnew
    have hextend : set.extend (c :: cs) = (set.insert c).extend cs := rfl
    rw [hextend, ih (by simpa [hinsert] using h), hinsert, List.append_assoc, List.singleton_append]

theorem entries_ofList (h : (cs.map (·.key)).Nodup) : (ofList cs).entries = cs := by
  have hnew : (((∅ : CandidateSet).entries ++ cs).map (·.key)).Nodup := h
  exact entries_extend hnew

/-- A candidate that is there already is not put in again. -/
theorem mem_insert_iff_of_eq (h : ∀ e ∈ set.entries, e.key = c.key → e = c) :
    x ∈ (set.insert c).entries ↔ x ∈ set.entries ∨ x = c := by
  by_cases hkey : c.key ∈ set.entries.map (·.key)
  · obtain ⟨e, he, hkey⟩ := List.mem_map.1 hkey
    obtain rfl := h e he hkey
    have hentries : (set.insert e).entries = set.entries := putBy_lowerRanked_of_mem set.distinct he
    rw [hentries]
    constructor
    · exact Or.inl
    · rintro (hx | rfl)
      · exact hx
      · exact he
  · have hentries : (set.insert c).entries = set.entries ++ [c] := putBy_of_not_mem hkey
    rw [hentries, List.mem_append, List.mem_singleton]

theorem ofList_concat (cs : List Candidate) (c : Candidate) :
    ofList (cs ++ [c]) = (ofList cs).insert c := by
  simp [ofList, extend]

/-- Candidates that are equal for equal places are all there. -/
theorem mem_ofList_iff (h : ∀ c ∈ cs, ∀ d ∈ cs, c.key = d.key → c = d) :
    x ∈ (ofList cs).entries ↔ x ∈ cs := by
  induction cs using List.reverseRecOn generalizing x with
  | nil => exact Iff.rfl
  | append_singleton cs c ih =>
    have hcs {x : Candidate} : x ∈ (ofList cs).entries ↔ x ∈ cs := ih fun c hc d hd =>
      h c (List.mem_append_left _ hc) d (List.mem_append_left _ hd)
    rw [ofList_concat, mem_insert_iff_of_eq, hcs, List.mem_append, List.mem_singleton]
    exact fun e he => h e (List.mem_append_left _ (hcs.1 he)) c (by simp)

/-- One candidate for each of some ids. -/
theorem mem_ofList_map_iff {f : Nat → Candidate} (hf : ∀ id, (f id).id = id) {ids : List Nat} :
    x ∈ (ofList (ids.map f)).entries ↔ ∃ id ∈ ids, f id = x := by
  rw [mem_ofList_iff, List.mem_map]
  intro c hc d hd hkey
  obtain ⟨i, -, rfl⟩ := List.mem_map.1 hc
  obtain ⟨j, -, rfl⟩ := List.mem_map.1 hd
  have hids : (f i).id = (f j).id := congrArg Prod.snd hkey
  rw [hf, hf] at hids
  rw [hids]

theorem isEmpty_iff : set.isEmpty = true ↔ ∀ x, x ∉ set.entries := by
  rw [isEmpty, List.isEmpty_iff, List.eq_nil_iff_forall_not_mem]

theorem eq_empty_of_isEmpty (h : set.isEmpty = true) : set = ∅ := by
  obtain ⟨entries, hdistinct⟩ := set
  obtain rfl : entries = [] := List.isEmpty_iff.1 h
  rfl

/-! ## The places of a source -/

theorem mem_idsIn (h : x ∈ set.entries) : x.id ∈ set.idsIn x.source :=
  List.mem_map_of_mem (List.mem_filter.2 ⟨h, decide_eq_true rfl⟩)

theorem nodup_map_idsIn {source : Source} : ((set.idsIn source).map (source, ·)).Nodup := by
  have hkeys : (set.idsIn source).map (source, ·) =
      (set.entries.filter (·.source = source)).map (·.key) := by
    rw [idsIn, List.map_map]
    refine List.map_congr_left fun x hx => ?_
    rw [← of_decide_eq_true (List.mem_filter.1 hx).2]
    rfl
  rw [hkeys]
  exact (List.filter_sublist.map _).nodup set.distinct

/-- A candidate is once among the places of its source that have a property if it has it. -/
theorem count_key_map_idsIn (hx : x ∈ set.entries) {source : Source} {p : Nat → Bool} :
    (((set.idsIn source).filter p).map (source, ·)).count x.key =
      (x.source = source && p x.id).toNat := by
  by_cases h : (x.source = source && p x.id) = true
  · rw [h]
    obtain ⟨hsource, hid⟩ := Bool.and_eq_true_iff.1 h
    obtain rfl := of_decide_eq_true hsource
    refine List.count_eq_one_of_mem ((List.filter_sublist.map _).nodup nodup_map_idsIn) ?_
    exact List.mem_map_of_mem (List.mem_filter.2 ⟨mem_idsIn hx, hid⟩)
  · rw [Bool.eq_false_iff.2 h]
    refine List.count_eq_zero.2 fun hkey => h ?_
    obtain ⟨id, hid, hkey⟩ := List.mem_map.1 hkey
    obtain ⟨rfl, rfl⟩ := Prod.mk.inj hkey
    rw [(List.mem_filter.1 hid).2, Bool.and_true]
    exact decide_eq_true rfl

/-! ## Demoted candidates -/

/-- A candidate falls one rank for each time it is demoted. -/
theorem entries_foldl_demote (keys : List (Source × Nat)) :
    (keys.foldl demote set).entries =
      set.entries.map fun x => { x with rank := x.rank + keys.count x.key } := by
  induction keys generalizing set with
  | nil => simp
  | cons key keys ih =>
    rw [List.foldl_cons, ih, demote, mapRanks, List.map_map]
    refine List.map_congr_left fun x _ => ?_
    have hrank : (if x.key = key then x.rank + 1 else x.rank) + keys.count x.key =
        x.rank + (key :: keys).count x.key := by
      rw [List.count_cons]
      by_cases hkey : x.key = key
      · rw [if_pos hkey, if_pos (by simpa using hkey.symm)]
        omega
      · rw [if_neg hkey, if_neg (by simpa using Ne.symm hkey)]
        rfl
    rw [← hrank]
    rfl

/-! ## Exact matches keep their places -/

theorem exists_entries_insert_eq_append {hits more : List Candidate}
    (hexact : ∀ e ∈ hits, e.rank = 0) (h : set.entries = hits ++ more) (c : Candidate) :
    ∃ more, (set.insert c).entries = hits ++ more := by
  have hput : ∃ more', putBy lowerRanked c (hits ++ more) = hits ++ more' := by
    clear h
    induction hits with
    | nil => exact ⟨_, rfl⟩
    | cons e hits ih =>
      obtain ⟨he, hhits⟩ := List.forall_mem_cons.1 hexact
      rw [List.cons_append, putBy]
      split
      · have hkept : lowerRanked e c = e := by simp [lowerRanked, he]
        exact ⟨more, by rw [hkept, List.cons_append]⟩
      · obtain ⟨more', hmore⟩ := ih hhits
        exact ⟨more', by rw [hmore, List.cons_append]⟩
  rw [← h] at hput
  exact hput

/-- Candidates that come later do not move exact matches. -/
theorem exists_entries_extend_eq_append {hits more : List Candidate}
    (hexact : ∀ e ∈ hits, e.rank = 0) (h : set.entries = hits ++ more) (cs : List Candidate) :
    ∃ more, (set.extend cs).entries = hits ++ more := by
  induction cs generalizing set more with
  | nil => exact ⟨more, h⟩
  | cons c cs ih =>
    obtain ⟨more', hmore⟩ := exists_entries_insert_eq_append hexact h c
    exact ih hmore

/-! ## Least ranks -/

/-- The set has exactly the places for which there are ranks, each with the least of them. -/
structure Holds (set : CandidateSet) (ranks : Source × Nat → Set Nat) : Prop where
  least : ∀ c ∈ set.entries, IsLeast (ranks c.key) c.rank
  found : ∀ key n, n ∈ ranks key → key ∈ set.entries.map (·.key)

/-- The ranks of the candidates for a place. -/
def ranksOf (cs : List Candidate) (key : Source × Nat) : Set Nat :=
  {n | ∃ c ∈ cs, c.key = key ∧ c.rank = n}

variable {ranks : Source × Nat → Set Nat}

theorem Holds.exists_iff (h : set.Holds ranks) {key : Source × Nat} {n : Nat} :
    (∃ c ∈ set.entries, c.key = key ∧ c.rank = n) ↔ IsLeast (ranks key) n := by
  constructor
  · rintro ⟨c, hc, rfl, rfl⟩
    exact h.least c hc
  · intro hn
    obtain ⟨c, hc, rfl⟩ := List.mem_map.1 (h.found key n hn.1)
    exact ⟨c, hc, rfl, (h.least c hc).unique hn⟩

theorem Holds.entries_eq_nil_iff (h : set.Holds ranks) :
    set.entries = [] ↔ ∀ key, ranks key = ∅ := by
  constructor
  · intro hnil key
    refine Set.eq_empty_iff_forall_notMem.2 fun n hn => ?_
    have hkey := h.found key n hn
    simp [hnil] at hkey
  · intro hnone
    refine List.eq_nil_iff_forall_not_mem.2 fun c hc => ?_
    have hrank := (h.least c hc).1
    simp [hnone] at hrank

theorem Holds.congr (h : set.Holds ranks) {ranks' : Source × Nat → Set Nat}
    (heq : ∀ key n, n ∈ ranks key ↔ n ∈ ranks' key) : set.Holds ranks' := by
  obtain rfl : ranks = ranks' := funext fun key => Set.ext (heq key)
  exact h

theorem holds_empty : (∅ : CandidateSet).Holds fun _ => ∅ where
  least := by simp [EmptyCollection.emptyCollection, empty]
  found := by simp

theorem mem_map_key_insert {key : Source × Nat} :
    key ∈ (set.insert c).entries.map (·.key) ↔ key = c.key ∨ key ∈ set.entries.map (·.key) := by
  have hmap : (set.insert c).entries.map (·.key) = _ := map_key_putBy key_lowerRanked c set.entries
  rw [hmap]
  split
  · next hc =>
    constructor
    · exact Or.inr
    · rintro (rfl | hkey)
      · exact hc
      · exact hkey
  · rw [List.mem_append, List.mem_singleton, or_comm]

theorem Holds.insert (h : set.Holds ranks) (c : Candidate) :
    (set.insert c).Holds fun key => ranks key ∪ ranksOf [c] key := by
  have hown : ranksOf [c] c.key = {c.rank} := by
    ext n
    simp [ranksOf, eq_comm]
  constructor
  · intro x hx
    rcases mem_putBy set.distinct hx with ⟨hmem, hne⟩ | ⟨e, he, hkey, rfl⟩ | ⟨hnew, rfl⟩
    · have hnone : ranksOf [c] x.key = ∅ := by
        ext n
        simp [ranksOf, Ne.symm hne]
      simpa [hnone] using h.least x hmem
    · rw [key_lowerRanked e c hkey, rank_lowerRanked, hown]
      exact (hkey ▸ h.least e he).union isLeast_singleton
    · have hnone : ranks x.key = ∅ := Set.eq_empty_iff_forall_notMem.2 fun n hn =>
        hnew (h.found _ n hn)
      simp only [hnone, hown, Set.empty_union]
      exact isLeast_singleton
  · intro key n hn
    rw [mem_map_key_insert]
    rcases hn with hn | ⟨d, hd, rfl, -⟩
    · exact Or.inr (h.found key n hn)
    · exact Or.inl (by rw [List.mem_singleton.1 hd])

theorem Holds.extend (h : set.Holds ranks) (cs : List Candidate) :
    (set.extend cs).Holds fun key => ranks key ∪ ranksOf cs key := by
  induction cs generalizing set ranks with
  | nil => exact h.congr fun key n => by simp [ranksOf]
  | cons c cs ih =>
    refine (ih (h.insert c)).congr fun key n => ?_
    simp [ranksOf, or_assoc]

/-- The answers to several lookups, one after another. -/
theorem Holds.extends (h : set.Holds ranks) (answers : List CandidateSet) :
    (answers.foldl (fun found answer => found.extend answer.entries) set).Holds
      fun key => ranks key ∪ {n | ∃ answer ∈ answers, n ∈ ranksOf answer.entries key} := by
  induction answers generalizing set ranks with
  | nil => exact h.congr fun key n => by simp
  | cons answer answers ih =>
    refine (ih (h.extend answer.entries)).congr fun key n => ?_
    simp [or_assoc]

end CandidateSet

/-! ## Head and tail -/

/-- The candidates of the least rank. -/
def leastRanked (cs : List Candidate) : List Candidate :=
  cs.filter fun c => cs.all (c.rank ≤ ·.rank)

theorem mem_leastRanked {cs : List Candidate} {c : Candidate} :
    c ∈ leastRanked cs ↔ c ∈ cs ∧ ∀ d ∈ cs, c.rank ≤ d.rank := by
  simp [leastRanked]

theorem leastRanked_ne_nil {cs : List Candidate} (h : cs ≠ []) : leastRanked cs ≠ [] := by
  suffices hleast : ∃ c ∈ cs, ∀ d ∈ cs, c.rank ≤ d.rank by
    obtain ⟨c, hc, hle⟩ := hleast
    exact List.ne_nil_of_mem (mem_leastRanked.2 ⟨hc, hle⟩)
  induction cs with
  | nil => exact absurd rfl h
  | cons x cs ih =>
    by_cases hcs : cs = []
    · exact ⟨x, by simp [hcs]⟩
    · obtain ⟨c, hc, hle⟩ := ih hcs
      by_cases hx : x.rank ≤ c.rank
      · refine ⟨x, List.mem_cons_self, ?_⟩
        simpa using fun d hd => hx.trans (hle d hd)
      · refine ⟨c, List.mem_cons_of_mem _ hc, ?_⟩
        simpa using ⟨Nat.le_of_not_le hx, hle⟩

/-- They all have one rank, and no other candidate has it. -/
theorem leastRanked_eq_filter {cs : List Candidate} {b : Candidate} (hb : b ∈ leastRanked cs) :
    leastRanked cs = cs.filter (·.rank = b.rank) := by
  obtain ⟨hmem, hle⟩ := mem_leastRanked.1 hb
  refine List.filter_congr fun c hc => ?_
  rw [Bool.eq_iff_iff, List.all_eq_true, decide_eq_true_iff]
  constructor
  · intro h
    exact Nat.le_antisymm (by simpa using h b hmem) (hle c hc)
  · intro h d hd
    simpa [h] using hle d hd

/-- Exact matches in front stay in front. -/
theorem exists_leastRanked_eq_append {hits : List Candidate} (hexact : ∀ e ∈ hits, e.rank = 0)
    (hne : hits ≠ []) (more : List Candidate) :
    ∃ more', leastRanked (hits ++ more) = hits ++ more' := by
  obtain ⟨b, hb⟩ := List.exists_mem_of_ne_nil hits hne
  have hzero : b.rank = 0 := hexact b hb
  have hleast : b ∈ leastRanked (hits ++ more) :=
    mem_leastRanked.2 ⟨List.mem_append_left _ hb, fun d _ => by omega⟩
  have hhits : hits.filter (·.rank = b.rank) = hits := by
    refine List.filter_eq_self.2 fun e he => ?_
    rw [hexact e he, hzero]
    rfl
  exact ⟨more.filter (·.rank = b.rank), by
    rw [leastRanked_eq_filter hleast, List.filter_append, hhits]⟩

theorem leastRanked_concat_of_lt {cs : List Candidate} {c : Candidate}
    (h : ∀ d ∈ cs, c.rank < d.rank) : leastRanked (cs ++ [c]) = [c] := by
  have hc : c ∈ leastRanked (cs ++ [c]) := by
    refine mem_leastRanked.2 ⟨by simp, ?_⟩
    simpa [or_imp, forall_and] using fun d hd => Nat.le_of_lt (h d hd)
  have hnone : cs.filter (·.rank = c.rank) = [] := by
    simpa using fun d hd => Nat.ne_of_gt (h d hd)
  simp [leastRanked_eq_filter hc, hnone]

theorem leastRanked_concat_of_le {cs : List Candidate} {b c : Candidate} (hb : b ∈ leastRanked cs)
    (h : b.rank ≤ c.rank) :
    leastRanked (cs ++ [c]) = leastRanked cs ++ if c.rank = b.rank then [c] else [] := by
  have hb' : b ∈ leastRanked (cs ++ [c]) := by
    obtain ⟨hmem, hle⟩ := mem_leastRanked.1 hb
    refine mem_leastRanked.2 ⟨by simp [hmem], ?_⟩
    simpa [or_imp, forall_and] using ⟨hle, h⟩
  rw [leastRanked_eq_filter hb', leastRanked_eq_filter hb, List.filter_append]
  split
  · next heq => simp [heq]
  · next hne => simp [hne]

/-- Separating one more candidate. -/
theorem splitByRank_concat (cs : List Candidate) (c : Candidate) :
    splitByRank (cs ++ [c]) = splitStep (splitByRank cs) c := by
  simp [splitByRank]

theorem splitStep_perm (parts : List Candidate × List Candidate) (c : Candidate) :
    ((splitStep parts c).1 ++ (splitStep parts c).2).Perm (parts.1 ++ parts.2 ++ [c]) := by
  obtain ⟨head, tail⟩ := parts
  cases head with
  | nil => exact List.perm_append_singleton c tail |>.symm
  | cons b head =>
    simp only [splitStep]
    split
    · exact List.perm_append_comm.trans (List.perm_append_comm.append_right [c])
    · split
      · rw [List.append_assoc, List.append_assoc]
        exact List.perm_append_comm.append_left (b :: head)
      · rw [List.append_assoc]

theorem splitByRank_perm (cs : List Candidate) :
    ((splitByRank cs).1 ++ (splitByRank cs).2).Perm cs := by
  induction cs using List.reverseRecOn with
  | nil => exact .nil
  | append_singleton cs c ih =>
    rw [splitByRank_concat]
    exact (splitStep_perm _ c).trans (ih.append_right [c])

/-- The head are the candidates of the least rank, in their order. -/
theorem splitByRank_fst (cs : List Candidate) : (splitByRank cs).1 = leastRanked cs := by
  induction cs using List.reverseRecOn with
  | nil => rfl
  | append_singleton cs c ih =>
    rw [splitByRank_concat]
    generalize splitByRank cs = parts at ih
    obtain ⟨head, tail⟩ := parts
    obtain rfl : head = leastRanked cs := ih
    rcases hhead : leastRanked cs with _ | ⟨b, head⟩
    · obtain rfl : cs = [] := by
        by_contra hne
        exact leastRanked_ne_nil hne hhead
      simp [splitStep, leastRanked]
    · have hb : b ∈ leastRanked cs := hhead ▸ List.mem_cons_self
      simp only [splitStep]
      by_cases hlt : c.rank < b.rank
      · rw [if_pos hlt, leastRanked_concat_of_lt]
        exact fun d hd => Nat.lt_of_lt_of_le hlt ((mem_leastRanked.1 hb).2 d hd)
      · rw [if_neg hlt, leastRanked_concat_of_le hb (Nat.le_of_not_lt hlt), hhead]
        split <;> simp

end Geocoding
