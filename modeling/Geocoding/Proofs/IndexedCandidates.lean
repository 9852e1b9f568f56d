import Geocoding.Candidate.Indexed
import Geocoding.Proofs.Candidate
import Mathlib.Data.List.Induction

/-!
# Candidate sets are maps in the order of insertion

Whatever changes are made to candidates and their table of positions, the table tells where the
candidate of each place stands, and the candidates are those of the `CandidateSet` with the same
changes (`IndexedCandidates.Represents.update`). So a place is found if and only if there is a
candidate for it, and no place has two (`IndexedCandidates.IsOrderedMap`).

Of the candidates that are collected each place keeps the first one of least rank
(`CandidateSet.isFirstLeast_of_mem_ofList`), and places stand in the order in which they first occur
(`CandidateSet.map_key_ofList`).
-/

namespace Geocoding

/-! ## The entry for a place -/

theorem getElem?_concat_eq_some_iff {α : Type} {xs : List α} {x y : α} {i : Nat} :
    (xs ++ [x])[i]? = some y ↔ xs[i]? = some y ∨ i = xs.length ∧ x = y := by
  rcases Nat.lt_trichotomy i xs.length with h | rfl | h
  · simp [List.getElem?_append_left h, Nat.ne_of_lt h]
  · simp
  · have hlen : (xs ++ [x]).length ≤ i := by simpa using Nat.succ_le_of_lt h
    simp [List.getElem?_eq_none hlen, List.getElem?_eq_none (Nat.le_of_lt h), Nat.ne_of_gt h]

section

variable {entries : List Candidate} {key : Source × Nat} {pos : Nat} {f : Candidate → Candidate}

theorem map_key_map_ite (hf : ∀ e, e.key = key → (f e).key = key) :
    (entries.map fun e => if e.key = key then f e else e).map (·.key) = entries.map (·.key) := by
  rw [List.map_map]
  refine List.map_congr_left fun e _ => ?_
  by_cases he : e.key = key
  · simp [he, hf e he]
  · simp [he]

/-- What is done at the position of a place is done to the entry for the place. -/
theorem modify_eq_map_ite (hdistinct : (entries.map (·.key)).Nodup)
    (hpos : (entries.map (·.key))[pos]? = some key) :
    entries.modify pos f = entries.map fun e => if e.key = key then f e else e := by
  induction entries generalizing pos with
  | nil => simp at hpos
  | cons e rest ih =>
    rw [List.map_cons, List.nodup_cons] at hdistinct
    cases pos with
    | zero =>
      obtain rfl : e.key = key := by simpa using hpos
      rw [List.modify_zero_cons, List.map_cons, if_pos rfl, map_ite_key_of_not_mem hdistinct.1]
    | succ pos =>
      have hkey : (rest.map (·.key))[pos]? = some key := by simpa using hpos
      have hne : e.key ≠ key := fun h => hdistinct.1 (h ▸ List.mem_of_getElem? hkey)
      rw [List.modify_succ_cons, ih hdistinct.2 hkey, List.map_cons, if_neg hne]

/-- The table of positions tells where each place stands among distinct ones. -/
theorem IndexedCandidates.getElem?_positionsOf_iff (hdistinct : (entries.map (·.key)).Nodup) :
    (positionsOf entries)[key]? = some pos ↔ (entries.map (·.key))[pos]? = some key := by
  have hpairs : (entries.map (·.key)).zipIdx.Pairwise fun a b => (a.1 == b.1) = false := by
    have hfst : ((entries.map (·.key)).zipIdx.map Prod.fst).Nodup := by
      rwa [List.zipIdx_map_fst]
    exact (List.pairwise_map.1 hfst).imp fun h => beq_false_of_ne h
  have hsome {pos : Nat} (h : (entries.map (·.key))[pos]? = some key) :
      (positionsOf entries)[key]? = some pos :=
    Std.HashMap.getElem?_ofList_of_mem (beq_self_eq_true key) hpairs
      (List.mk_mem_zipIdx_iff_getElem?.2 h)
  constructor
  · intro h
    by_cases hmem : key ∈ entries.map (·.key)
    · obtain ⟨pos', hpos⟩ := List.getElem?_of_mem hmem
      obtain rfl : pos' = pos := Option.some.inj ((hsome hpos).symm.trans h)
      exact hpos
    · have hnone : (positionsOf entries)[key]? = none := by
        refine Std.HashMap.getElem?_ofList_of_contains_eq_false ?_
        rw [List.zipIdx_map_fst]
        simpa using hmem
      exact nomatch hnone.symm.trans h
  · exact hsome

end

namespace IndexedCandidates

/-! ## Positions and entries stay in step -/

/-- The candidates are those of a set, and the table tells where the candidate for each place
stands. -/
structure Represents (t : IndexedCandidates) (set : CandidateSet) : Prop where
  entries : t.entries = set.entries
  position_iff : ∀ (key : Source × Nat) (pos : Nat),
    t.positions[key]? = some pos ↔ (t.entries.map (·.key))[pos]? = some key

variable {t : IndexedCandidates} {set : CandidateSet}

theorem represents_empty : Represents ∅ ∅ where
  entries := rfl
  position_iff key pos := by
    simp [EmptyCollection.emptyCollection, empty]

namespace Represents

theorem distinct (h : t.Represents set) : (t.entries.map (·.key)).Nodup :=
  h.entries ▸ set.distinct

/-- A table for the same places stays right. -/
theorem of_map_key_eq (h : t.Represents set) {entries : List Candidate} {set' : CandidateSet}
    (hentries : entries = set'.entries)
    (hkeys : entries.map (·.key) = t.entries.map (·.key)) :
    Represents { t with entries } set' where
  entries := hentries
  position_iff key pos := by rw [hkeys, h.position_iff]

theorem not_mem_of_getElem?_eq_none (h : t.Represents set) {key : Source × Nat}
    (hpos : t.positions[key]? = none) : key ∉ t.entries.map (·.key) := fun hmem => by
  obtain ⟨pos, hkey⟩ := List.getElem?_of_mem hmem
  exact nomatch hpos.symm.trans ((h.position_iff _ _).2 hkey)

theorem putBy (h : t.Represents set) {pick : Candidate → Candidate → Candidate} {c : Candidate}
    (hpick : ∀ e, e.key = c.key → (pick e c).key = c.key) {set' : CandidateSet}
    (hset : set'.entries = Geocoding.putBy pick c set.entries) :
    (t.putBy pick c).Represents set' := by
  rw [IndexedCandidates.putBy]
  rw [← h.entries] at hset
  cases hpos : t.positions[c.key]? with
  | some pos =>
    have hkey := (h.position_iff _ _).1 hpos
    have hmodify := modify_eq_map_ite (f := (pick · c)) h.distinct hkey
    refine h.of_map_key_eq ?_ ?_
    · rw [hset, putBy_of_mem h.distinct (List.mem_of_getElem? hkey), hmodify]
    · rw [hmodify, map_key_map_ite hpick]
  | none =>
    have hnew := h.not_mem_of_getElem?_eq_none hpos
    constructor
    · rw [hset, putBy_of_not_mem hnew]
    · intro key pos
      have hlast : (t.entries ++ [c]).map (·.key) = t.entries.map (·.key) ++ [c.key] := by simp
      rw [hlast, getElem?_concat_eq_some_iff, List.length_map, Std.HashMap.getElem?_insert]
      by_cases hkey : c.key = key
      · obtain rfl := hkey
        have hnot : ¬ (t.entries.map (·.key))[pos]? = some c.key := fun hpos =>
          hnew (List.mem_of_getElem? hpos)
        rw [or_iff_right hnot, if_pos (beq_self_eq_true _), Option.some.injEq, eq_comm]
        exact (and_iff_left rfl).symm
      · simp [hkey, h.position_iff]

theorem insert (h : t.Represents set) (c : Candidate) :
    (t.insert c).Represents (set.insert c) :=
  h.putBy (fun e => key_lowerRanked e c) rfl

theorem replace (h : t.Represents set) (c : Candidate) :
    (t.replace c).Represents (set.replace c) :=
  h.putBy (fun _ _ => rfl) rfl

theorem extend (h : t.Represents set) (cs : List Candidate) :
    (t.extend cs).Represents (set.extend cs) := by
  induction cs generalizing t set with
  | nil => exact h
  | cons c cs ih => exact ih (h.insert c)

theorem filter (h : t.Represents set) (p : Candidate → Bool) :
    (t.filter p).Represents (set.filter p) where
  entries := by rw [IndexedCandidates.filter, reindexed, h.entries, CandidateSet.filter]
  position_iff _ _ := getElem?_positionsOf_iff ((List.filter_sublist.map _).nodup h.distinct)

theorem setRank (h : t.Represents set) (key : Source × Nat) (rank : Candidate → Nat) :
    (t.setRank key rank).Represents
      (set.mapRanks fun c => if c.key = key then rank c else c.rank) := by
  have hset : (set.mapRanks fun c => if c.key = key then rank c else c.rank).entries =
      t.entries.map fun c => if c.key = key then { c with rank := rank c } else c := by
    rw [CandidateSet.mapRanks, h.entries]
    refine List.map_congr_left fun c _ => ?_
    split <;> rfl
  rw [IndexedCandidates.setRank]
  cases hpos : t.positions[key]? with
  | some pos =>
    have hmodify := modify_eq_map_ite (f := fun c => { c with rank := rank c }) h.distinct
      ((h.position_iff _ _).1 hpos)
    refine h.of_map_key_eq (hmodify.trans hset.symm) ?_
    rw [hmodify, map_key_map_ite]
    exact fun _ he => he
  | none =>
    have hnot := h.not_mem_of_getElem?_eq_none hpos
    exact ⟨by rw [hset, map_ite_key_of_not_mem hnot], h.position_iff⟩

theorem mapRanks (h : t.Represents set) (rank : Candidate → Nat) :
    (t.mapRanks rank).Represents (set.mapRanks rank) := by
  refine h.of_map_key_eq ?_ ?_
  · rw [CandidateSet.mapRanks, h.entries]
  · rw [List.map_map]
    rfl

/-- Every change keeps the candidates and their positions in step. -/
theorem update (h : t.Represents set) (u : CandidateUpdate) :
    (t.update u).Represents (set.update u) := by
  cases u with
  | insert c => exact h.insert c
  | replace c => exact h.replace c
  | extend cs => exact h.extend cs
  | collect cs => exact represents_empty.extend cs
  | filter p => exact h.filter p
  | setRank key rank => exact h.setRank key rank
  | mapRanks rank => exact h.mapRanks rank

end Represents

theorem represents_run (updates : List CandidateUpdate) :
    (run updates).Represents (CandidateSet.run updates) := by
  suffices h : ∀ {t set}, Represents t set →
      (updates.foldl IndexedCandidates.update t).Represents (updates.foldl .update set) from
    h represents_empty
  induction updates with
  | nil => exact id
  | cons u updates ih => exact fun h => ih (h.update u)

/-! ## A map in the order of insertion -/

/-- No place has two candidates, and what is asked for a place is answered with the candidate for it
wherever there is one. -/
structure IsOrderedMap (t : IndexedCandidates) : Prop where
  distinct : (t.entries.map (·.key)).Nodup
  position_iff : ∀ (key : Source × Nat) (pos : Nat),
    t.positions[key]? = some pos ↔ (t.entries.map (·.key))[pos]? = some key
  contains_iff : ∀ key, t.contains key = true ↔ ∃ c ∈ t.entries, c.key = key
  isSome_get?_iff : ∀ key, (t.get? key).isSome = true ↔ ∃ c ∈ t.entries, c.key = key
  get?_eq_some_iff : ∀ key c, t.get? key = some c ↔ c ∈ t.entries ∧ c.key = key

namespace Represents

theorem get?_eq_some_iff (h : t.Represents set) {key : Source × Nat} {c : Candidate} :
    t.get? key = some c ↔ c ∈ t.entries ∧ c.key = key := by
  rw [get?, Option.bind_eq_some_iff]
  constructor
  · rintro ⟨pos, hpos, hc⟩
    have hkey := (h.position_iff _ _).1 hpos
    rw [List.getElem?_map, hc] at hkey
    exact ⟨List.mem_of_getElem? hc, Option.some.inj hkey⟩
  · rintro ⟨hc, rfl⟩
    obtain ⟨pos, hpos⟩ := List.getElem?_of_mem hc
    exact ⟨pos, (h.position_iff _ _).2 (by rw [List.getElem?_map, hpos]; rfl), hpos⟩

theorem contains_iff (h : t.Represents set) {key : Source × Nat} :
    t.contains key = true ↔ ∃ c ∈ t.entries, c.key = key := by
  rw [contains, Std.HashMap.contains_eq_isSome_getElem?, ← List.mem_map]
  cases hpos : t.positions[key]? with
  | none => simpa using h.not_mem_of_getElem?_eq_none hpos
  | some pos => simpa using List.mem_of_getElem? ((h.position_iff _ _).1 hpos)

theorem isOrderedMap (h : t.Represents set) : t.IsOrderedMap where
  distinct := h.distinct
  position_iff := h.position_iff
  contains_iff _ := h.contains_iff
  isSome_get?_iff key := by
    simp only [Option.isSome_iff_exists, h.get?_eq_some_iff]
  get?_eq_some_iff _ _ := h.get?_eq_some_iff

end Represents

end IndexedCandidates

/-! ## Collected candidates -/

/-- A candidate of some is the first one of least rank among those for its place. -/
def Candidate.IsFirstLeast (cs : List Candidate) (c : Candidate) : Prop :=
  ∃ before after, cs = before ++ c :: after ∧
    (∀ d ∈ before, d.key = c.key → c.rank < d.rank) ∧ ∀ d ∈ after, d.key = c.key → c.rank ≤ d.rank

namespace Candidate.IsFirstLeast

variable {cs : List Candidate} {c d : Candidate}

theorem rank_le (h : c.IsFirstLeast cs) (hd : d ∈ cs) (hkey : d.key = c.key) :
    c.rank ≤ d.rank := by
  obtain ⟨before, after, rfl, hbefore, hafter⟩ := h
  rcases List.mem_append.1 hd with hd | hd
  · exact Nat.le_of_lt (hbefore d hd hkey)
  · rcases List.mem_cons.1 hd with rfl | hd
    · exact Nat.le_refl _
    · exact hafter d hd hkey

/-- It stays the first one of least rank if no better one for its place follows. -/
theorem concat (h : c.IsFirstLeast cs) (hd : d.key = c.key → c.rank ≤ d.rank) :
    c.IsFirstLeast (cs ++ [d]) := by
  obtain ⟨before, after, rfl, hbefore, hafter⟩ := h
  refine ⟨before, after ++ [d], by simp, hbefore, fun x hx hkey => ?_⟩
  rcases List.mem_append.1 hx with hx | hx
  · exact hafter x hx hkey
  · obtain rfl := List.mem_singleton.1 hx
    exact hd hkey

theorem last (h : ∀ d ∈ cs, d.key = c.key → c.rank < d.rank) : c.IsFirstLeast (cs ++ [c]) :=
  ⟨cs, [], rfl, h, nofun⟩

end Candidate.IsFirstLeast

theorem eraseDups_concat {α : Type} [BEq α] [LawfulBEq α] [DecidableEq α] (xs : List α) (x : α) :
    (xs ++ [x]).eraseDups = if x ∈ xs then xs.eraseDups else xs.eraseDups ++ [x] := by
  rw [List.eraseDups_append]
  by_cases hx : x ∈ xs
  · simp [hx, List.removeAll]
  · simp [hx, List.removeAll, List.eraseDups_cons]

namespace CandidateSet

/-- Each place stands once, in the order in which places first occur. -/
theorem map_key_ofList (cs : List Candidate) :
    (ofList cs).entries.map (·.key) = (cs.map (·.key)).eraseDups := by
  induction cs using List.reverseRecOn with
  | nil => rfl
  | append_singleton cs c ih =>
    rw [ofList_concat, insert, map_key_putBy key_lowerRanked, ih, List.map_append,
      List.map_singleton, eraseDups_concat]
    simp only [List.mem_eraseDups]

/-- Each place has its first candidate of least rank. -/
theorem isFirstLeast_of_mem_ofList {cs : List Candidate} {c : Candidate}
    (h : c ∈ (ofList cs).entries) : c.IsFirstLeast cs := by
  induction cs using List.reverseRecOn generalizing c with
  | nil => exact absurd h List.not_mem_nil
  | append_singleton cs d ih =>
    rw [ofList_concat] at h
    rcases mem_putBy (ofList cs).distinct h with ⟨hc, hne⟩ | ⟨e, he, hkey, rfl⟩ | ⟨hnew, rfl⟩
    · exact (ih hc).concat fun hkey => absurd hkey.symm hne
    · rw [lowerRanked]
      by_cases hlt : d.rank < e.rank
      · rw [if_pos hlt]
        refine .last fun x hx hxd => Nat.lt_of_lt_of_le hlt ?_
        exact (ih he).rank_le hx (hxd.trans hkey.symm)
      · rw [if_neg hlt]
        exact (ih he).concat fun _ => Nat.le_of_not_lt hlt
    · refine .last fun x hx hkey => absurd ?_ hnew
      rw [map_key_ofList, List.mem_eraseDups, ← hkey]
      exact List.mem_map_of_mem hx

end CandidateSet

namespace IndexedCandidates

/-- A candidate that replaces another one stands where that one stood, and a new one stands last. -/
theorem Represents.entries_replace {t : IndexedCandidates} {set : CandidateSet}
    (h : t.Represents set) (c : Candidate) :
    (t.replace c).entries = if c.key ∈ t.entries.map (·.key) then
        t.entries.map fun e => if e.key = c.key then c else e
      else t.entries ++ [c] := by
  have hput : (t.replace c).entries = Geocoding.putBy (fun _ later => later) c t.entries := by
    rw [(h.replace c).entries, h.entries]
    rfl
  rw [hput]
  split
  · next hmem => exact putBy_of_mem h.distinct hmem
  · next hnew => exact putBy_of_not_mem hnew

/-- Whatever changes are made, candidates are a map in the order of insertion, the one that the same
changes make of a candidate set. Collecting candidates keeps the first one of least rank for each
place, and replacing one keeps its position. -/
theorem isOrderedMap_run_and_collects (updates : List CandidateUpdate) :
    (run updates).IsOrderedMap ∧ (run updates).entries = (CandidateSet.run updates).entries ∧
      (∀ cs, (ofList cs).entries.map (·.key) = (cs.map (·.key)).eraseDups ∧
        ∀ c ∈ (ofList cs).entries, c.IsFirstLeast cs) ∧
      ∀ c, ((run updates).replace c).entries =
        if c.key ∈ (run updates).entries.map (·.key) then
          (run updates).entries.map fun e => if e.key = c.key then c else e
        else (run updates).entries ++ [c] := by
  have hrun := represents_run updates
  refine ⟨hrun.isOrderedMap, hrun.entries, fun cs => ?_, hrun.entries_replace⟩
  have hcs : (ofList cs).entries = (CandidateSet.ofList cs).entries :=
    (represents_empty.extend cs).entries
  rw [hcs]
  exact ⟨CandidateSet.map_key_ofList cs, fun c hc => CandidateSet.isFirstLeast_of_mem_ofList hc⟩

end IndexedCandidates

end Geocoding
