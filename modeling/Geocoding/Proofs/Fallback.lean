import Geocoding.Proofs.RanksAsked

/-!
# Searching with ever fewer fields

A structured query drops its spare fields one after another, as long as it keeps another one
(`SearchRequest.relaxed`): after so many steps, so many of the first spare fields are gone, and
nothing else has changed but the ranks that the remaining fields ask for (`SearchRequest.Drops`).
There are no more steps than fields that can be dropped.

A search with fallback goes through the steps up to an attempt that finds something or fails, or to
the last one (`Geocoder.search_eq_last_attempt`).
-/

namespace Geocoding

/-! ## Spare fields -/

namespace StructuredQuery

variable {q q' : StructuredQuery} {role : PhraseRole}

/-- The fields that a query has and can do without, in the order in which they are dropped. -/
def spare (q : StructuredQuery) : List PhraseRole :=
  [.postalcode, .street, .city, .county, .state].filter fun role => (q.get? role).isSome

theorem length_spare_le (q : StructuredQuery) : q.spare.length ≤ 5 :=
  List.length_filter_le _ _

theorem map_fst_fields (q : StructuredQuery) :
    q.fields.map (·.1) = PhraseRole.fields.filter fun role => (q.get? role).isSome := by
  rw [fields, List.map_filterMap, ← List.filterMap_eq_filter]
  congr 1
  funext role
  cases h : q.get? role <;> simp [h, Option.guard]

theorem length_fields_eq_succ (h : (q.get? role).isSome) :
    q.fields.length = (q.put role none).fields.length + 1 := by
  have hnodup : (q.fields.map (·.1)).Nodup := by
    rw [map_fst_fields]
    exact List.filter_sublist.nodup (by decide)
  have herase : (q.put role none).fields.map (·.1) = (q.fields.map (·.1)).erase role := by
    rw [fields_put_none, hnodup.erase_eq_filter, List.filter_map]
    refine congrArg _ (List.filter_congr fun field _ => ?_)
    by_cases h : field.1 = role <;> simp [h]
  obtain ⟨text, htext⟩ := Option.isSome_iff_exists.1 h
  have hmem : role ∈ q.fields.map (·.1) := List.mem_map.2 ⟨_, mem_fields_of_get? htext, rfl⟩
  have hlength := List.length_erase_add_one hmem
  rw [← herase, List.length_map, List.length_map] at hlength
  exact hlength.symm

theorem spare_put_none (q : StructuredQuery) (role : PhraseRole) :
    (q.put role none).spare = q.spare.filter (· ≠ role) := by
  rw [spare, spare, List.filter_filter]
  refine List.filter_congr fun r _ => ?_
  rw [get?_put_none]
  by_cases h : r = role <;> simp [h]

theorem spare_put_none_of_eq_cons {rest : List PhraseRole} (h : q.spare = role :: rest) :
    (q.put role none).spare = rest := by
  have hnodup : q.spare.Nodup := List.filter_sublist.nodup (by decide)
  rw [h] at hnodup
  rw [spare_put_none, h, List.filter_cons_of_neg (by simp), List.filter_eq_self]
  exact fun r hr => by simpa using fun heq : r = role => (List.nodup_cons.1 hnodup).1 (heq ▸ hr)

theorem isSome_get?_of_mem_spare (h : role ∈ q.spare) : (q.get? role).isSome :=
  (List.mem_filter.1 h).2

/-- What is dropped is the first spare field, if another field is left. -/
theorem relax?_eq_some_iff :
    q.relax? = some q' ↔ 1 < q.fields.length ∧ ∃ role, q.spare.head? = some role ∧
      q' = q.put role none := by
  rw [relax?, dispensable, spare, List.head?_filter]
  split
  · next h => simp [Nat.not_lt.2 h]
  · next h =>
    rw [Option.map_eq_some_iff, and_iff_right (Nat.lt_of_not_le h)]
    simp only [eq_comm]

end StructuredQuery

/-! ## Steps -/

namespace SearchRequest

variable {r r' next : SearchRequest} {q : StructuredQuery} {k : Nat}

/-- The request after some steps, each of which drops a field. -/
def relaxed (r : SearchRequest) : Nat → Option SearchRequest
  | 0 => some r
  | k + 1 => (r.relaxed k).bind relax?

/-- All steps but the first are those of the next request. -/
theorem relaxed_succ (r : SearchRequest) (k : Nat) :
    r.relaxed (k + 1) = r.relax?.bind (·.relaxed k) := by
  induction k with
  | zero => exact (Option.bind_fun_some _).symm
  | succ k ih =>
    rw [relaxed, ih, Option.bind_assoc]
    rfl

theorem relax?_eq_some_iff (hq : r.query = .structured q) :
    r.relax? = some next ↔ 1 < q.fields.length ∧ ∃ role, q.spare.head? = some role ∧
      next = { r with query := .structured (q.put role none) } := by
  rw [relax?, hq]
  simp only [Option.map_eq_some_iff, StructuredQuery.relax?_eq_some_iff]
  constructor
  · rintro ⟨q', ⟨hlength, role, hrole, rfl⟩, rfl⟩
    exact ⟨hlength, role, hrole, rfl⟩
  · rintro ⟨hlength, role, hrole, rfl⟩
    exact ⟨_, ⟨hlength, role, hrole, rfl⟩, rfl⟩

theorem isSome_relax?_iff (hq : r.query = .structured q) :
    r.relax?.isSome ↔ 1 < q.fields.length ∧ q.spare ≠ [] := by
  rw [Option.isSome_iff_exists]
  constructor
  · rintro ⟨next, hnext⟩
    obtain ⟨hlength, role, hrole, -⟩ := (relax?_eq_some_iff hq).1 hnext
    exact ⟨hlength, List.ne_nil_of_mem (List.mem_of_head? hrole)⟩
  · rintro ⟨hlength, hspare⟩
    exact ⟨_, (relax?_eq_some_iff hq).2 ⟨hlength, _, List.head?_eq_some_head hspare, rfl⟩⟩

/-- A structured query has as many steps as it has spare fields, as long as another field is
left. -/
theorem isSome_relaxed_iff (hq : r.query = .structured q) :
    (r.relaxed k).isSome ↔ k = 0 ∨ k ≤ q.spare.length ∧ k < q.fields.length := by
  induction k generalizing r q with
  | zero => simp [relaxed]
  | succ k ih =>
    rw [relaxed_succ]
    cases hnext : r.relax? with
    | none =>
      have hnot : ¬ (1 < q.fields.length ∧ 0 < q.spare.length) := by
        rw [List.length_pos_iff, ← isSome_relax?_iff hq, hnext]
        exact Bool.false_ne_true
      rw [Option.bind_none]
      exact iff_of_false Bool.false_ne_true (by omega)
    | some next =>
      obtain ⟨hlength, role, hrole, rfl⟩ := (relax?_eq_some_iff hq).1 hnext
      obtain ⟨rest, hspare⟩ := List.head?_eq_some_iff.1 hrole
      have hfields := StructuredQuery.length_fields_eq_succ
        (StructuredQuery.isSome_get?_of_mem_spare (List.mem_of_head? hrole))
      rw [Option.bind_some, ih rfl, StructuredQuery.spare_put_none_of_eq_cons hspare, hspare,
        List.length_cons]
      omega

/-- The request is another one without the first so many of its spare fields. It keeps a field. The
ranks that results must have are those of the kind of places, if there is one, and otherwise those
of the first remaining field, and of postcodes if the postcode remains. -/
structure Drops (r : SearchRequest) (k : Nat) (r' : SearchRequest) : Prop where
  options : r'.toSearchOptions = r.toSearchOptions
  free : ∀ text, r.query = .free text → k = 0 ∧ r' = r
  structured : ∀ q, r.query = .structured q → k ≤ q.spare.length ∧
    ∃ q', r'.query = .structured q' ∧
      (∀ role, q'.get? role = if role ∈ q.spare.take k then none else q.get? role) ∧
      (q.fields ≠ [] → q'.fields ≠ []) ∧
      r'.restriction = match r.featureType with
        | some kind => { ranks := kind.ranks }
        | none => { ranks := q'.firstRanks, allowed := q'.postcodeRanks }

theorem restriction_eq_of_structured (h : r.query = .structured q) :
    r.restriction = match r.featureType with
      | some kind => { ranks := kind.ranks }
      | none => { ranks := q.firstRanks, allowed := q.postcodeRanks } := by
  rw [restriction, h]
  cases r.featureType with
  | none => exact q.restriction_eq
  | some kind => rfl

theorem drops_zero (r : SearchRequest) : r.Drops 0 r where
  options := rfl
  free _ _ := ⟨rfl, rfl⟩
  structured q hq :=
    ⟨Nat.zero_le _, q, hq, fun _ => (if_neg List.not_mem_nil).symm, id,
      restriction_eq_of_structured hq⟩

/-- One more step at the start drops the first spare field. -/
theorem Drops.head (hnext : r.relax? = some next) (h : next.Drops k r') : r.Drops (k + 1) r' := by
  cases hq : r.query with
  | free text =>
    rw [relax?, hq] at hnext
    cases hnext
  | structured q =>
    obtain ⟨hlength, role, hrole, rfl⟩ := (relax?_eq_some_iff hq).1 hnext
    obtain ⟨rest, hspare⟩ := List.head?_eq_some_iff.1 hrole
    obtain ⟨hk, q', hq', hget, hkeeps, hrestriction⟩ := h.structured _ rfl
    rw [StructuredQuery.spare_put_none_of_eq_cons hspare] at hk hget
    refine ⟨h.options, fun text htext => ?_, fun q₀ hq₀ => ?_⟩
    · rw [hq] at htext
      cases htext
    obtain rfl : q = q₀ := QueryText.structured.inj (hq.symm.trans hq₀)
    refine ⟨?_, q', hq', fun r => ?_, fun _ => hkeeps ?_, hrestriction⟩
    · rw [hspare]
      exact Nat.succ_le_succ hk
    · rw [hget, StructuredQuery.get?_put_none, hspare, List.take_succ_cons]
      by_cases heq : r = role <;> simp [heq]
    · have hfields := StructuredQuery.length_fields_eq_succ
        (StructuredQuery.isSome_get?_of_mem_spare (List.mem_of_head? hrole))
      refine List.ne_nil_of_length_pos ?_
      show 0 < (q.put role none).fields.length
      omega

theorem drops_of_relaxed (h : r.relaxed k = some r') : r.Drops k r' := by
  induction k generalizing r with
  | zero =>
    obtain rfl := Option.some.inj h
    exact r.drops_zero
  | succ k ih =>
    rw [relaxed_succ, Option.bind_eq_some_iff] at h
    obtain ⟨next, hnext, h⟩ := h
    exact (ih h).head hnext

theorem Drops.le_five (h : r.Drops k r') : k ≤ 5 := by
  cases hq : r.query with
  | free text => exact (h.free text hq).1.le.trans (Nat.zero_le _)
  | structured q => exact (h.structured q hq).1.trans q.length_spare_le

end SearchRequest

/-! ## Attempts -/

namespace Geocoder

section

variable {m : Type → Type} [Monad m] [LawfulMonad m] (g : Geocoder m) (r : SearchRequest)

theorem firstFound_singleton : g.firstFound [r] = g.searchOnce r := by
  rw [firstFound]
  refine (bind_congr fun found => ?_).trans (bind_pure _)
  cases found <;> rfl

theorem search_of_not_fallback (h : g.config.fallback = false) : g.search r = g.searchOnce r := by
  rw [search, h]
  exact g.firstFound_singleton r

/-- With fallback a search that finds nothing goes on with a field less. -/
theorem search_of_fallback (h : g.config.fallback = true) : g.search r = (do
    let found ← g.searchOnce r
    match r.relax? with
    | some next => if found.isEmpty then g.search next else return found
    | none => return found) := by
  simp only [search, h, if_true]
  cases hnext : r.relax? with
  | none =>
    rw [SearchRequest.attempts_of_none hnext, firstFound_singleton]
    exact (bind_pure _).symm
  | some next => rw [SearchRequest.attempts_of_some hnext, firstFound]

end

variable {σ : Type} {g : Geocoder (StateM σ)} {r next last : SearchRequest} {w w₁ w' : σ} {n : Nat}

/-- The first so many attempts for a request find nothing, and lead to another request and world. -/
inductive Retries (g : Geocoder (StateM σ)) : SearchRequest → σ → Nat → SearchRequest → σ → Prop
  | refl (r : SearchRequest) (w : σ) : Retries g r w 0 r w
  | head {r next last : SearchRequest} {w w₁ w' : σ} {n : Nat}
      (hempty : outcome (g.searchOnce r) w = (.ok [], w₁)) (hnext : r.relax? = some next)
      (hrest : Retries g next w₁ n last w') : Retries g r w (n + 1) last w'

theorem Retries.relaxed (h : Retries g r w n last w') : r.relaxed n = some last := by
  induction h with
  | refl => rfl
  | head _ hnext _ ih => rw [SearchRequest.relaxed_succ, hnext, Option.bind_some, ih]

/-- A search with fallback ends as an attempt does that finds something or fails or is the last. -/
theorem exists_last_attempt (h : g.config.fallback = true) (r : SearchRequest) (w : σ) :
    ∃ n last w', Retries g r w n last w' ∧ outcome (g.search r) w = outcome (g.searchOnce last) w' ∧
      ((outcome (g.search r) w).1 ≠ .ok [] ∨ r.relaxed (n + 1) = none) := by
  induction r using SearchRequest.attempts.induct generalizing w with
  | case1 r hrelax =>
    have hsearch : outcome (g.search r) w = outcome (g.searchOnce r) w := by
      rw [search_of_fallback g r h, hrelax]
      exact congrArg (outcome · w) (bind_pure _)
    refine ⟨0, r, w, .refl r w, hsearch, Or.inr ?_⟩
    rw [SearchRequest.relaxed_succ, hrelax, Option.bind_none]
  | case2 r next hrelax _ ih =>
    rw [search_of_fallback g r h, hrelax]
    -- an error or a place ends the search; otherwise the next request is tried in the world left
    rcases hout : outcome (g.searchOnce r) w with ⟨e | _ | ⟨c, cs⟩, w₁⟩
    · rw [outcome_bind_of_error hout]
      exact ⟨0, r, w, .refl r w, hout.symm, Or.inl (by simp)⟩
    · rw [outcome_bind_of_ok hout]
      obtain ⟨n, last, w', hretries, hsearch, hlast⟩ := ih w₁
      refine ⟨n + 1, last, w', .head hout hrelax hretries, hsearch, hlast.imp_right fun hnone => ?_⟩
      rw [SearchRequest.relaxed_succ, hrelax, Option.bind_some, hnone]
    · rw [outcome_bind_of_ok hout]
      exact ⟨0, r, w, .refl r w, hout.symm, Or.inl (by simp [outcome_pure])⟩

/-- The requests of a search with fallback drop one spare field after another, at most five and
never all fields, and are the same otherwise. Each attempt asks for the ranks of the fields that its
own request has left. The search ends as the first attempt does that finds something or fails, and
without a result if all attempts find nothing. Without fallback there is but one. -/
theorem search_eq_last_attempt (g : Geocoder (StateM σ)) (r : SearchRequest) (w : σ) :
    (∀ k r', r.relaxed k = some r' → k ≤ 5 ∧ r.Drops k r' ∧ g.AsksFor r' r'.restriction) ∧
    (∀ k q, r.query = .structured q →
      ((r.relaxed k).isSome ↔ k = 0 ∨ k ≤ q.spare.length ∧ k < q.fields.length)) ∧
    (g.config.fallback = false → g.search r = g.searchOnce r) ∧
    (g.config.fallback = true → ∃ n last w', Retries g r w n last w' ∧ r.relaxed n = some last ∧
      outcome (g.search r) w = outcome (g.searchOnce last) w' ∧
      ((outcome (g.search r) w).1 ≠ .ok [] ∨ r.relaxed (n + 1) = none)) := by
  refine ⟨fun k r' h => ?_, fun k q hq => SearchRequest.isSome_relaxed_iff hq,
    search_of_not_fallback g r, fun h => ?_⟩
  · have hdrops := SearchRequest.drops_of_relaxed h
    exact ⟨hdrops.le_five, hdrops, g.asksFor_restriction r'⟩
  · obtain ⟨n, last, w', hretries, hsearch, hlast⟩ := exists_last_attempt h r w
    exact ⟨n, last, w', hretries, hretries.relaxed, hsearch, hlast⟩

/-- A geocoder over an index that keeps a record of the ranks it is asked about. The index finds a
country, a postcode and a street, whatever their names, and says that all places are at rank 4. Only
the cheapest interpretations of queries are looked up. -/
def recordingRanks : Geocoder (StateM (List RankRestriction)) where
  lexicon := {
    normalize := id
    tokens _ := return .ofList [("A", .word ⟨1, "A", true, 1⟩),
      ("9", .ofPostcode (some 2) "9" none), ("C", .ofCountry 3 "c")]
    specialTokens _ := return [] }
  places := { (Atlas.placeIndex ⟨[], [], [], []⟩ : PlaceIndex (StateM (List RankRestriction))) with
    countryPlace _ _ := return some 1
    postcodes _ := return [2]
    namedPlaces _ := return [⟨3, 26, 0⟩]
    withRanks _ ids ranks allowed := do
      modify (· ++ [⟨ranks, allowed⟩])
      return ids.filter fun _ => ranks.contains 4 }
  points := Atlas.reverseIndex ⟨[], [], [], []⟩
  config := { fallback := true, planner := { maxCost := 4 } }
  isCancelled := return false

/-- A request for a street with a postcode in a country. -/
def streetWithPostcode : SearchRequest :=
  { query := .structured { street := some "A", postalcode := some "9", country := some "C" } }

/-- Nothing is found at the ranks of streets and postcodes, nor at those of streets alone. The third
attempt is for the country alone and finds it. -/
theorem streetWithPostcode_last_attempt :
    recordingRanks.config.fallback = true ∧
      outcome (recordingRanks.search streetWithPostcode) [] =
        (.ok [⟨.primary, 1, none, 0, 0, some 4⟩],
          [⟨⟨26, 30⟩, [5, 11]⟩, ⟨⟨26, 30⟩, []⟩, ⟨⟨4, 4⟩, []⟩]) ∧
      ∃ last w', Retries recordingRanks streetWithPostcode [] 2 last w' ∧
        streetWithPostcode.Drops 2 last ∧ last = { query := .structured { country := some "C" } } ∧
        recordingRanks.AsksFor last ⟨⟨4, 4⟩, []⟩ ∧
        outcome (recordingRanks.search streetWithPostcode) [] =
          outcome (recordingRanks.searchOnce last) w' := by
  have hfirst : outcome (recordingRanks.searchOnce streetWithPostcode) [] =
      (.ok [], [⟨⟨26, 30⟩, [5, 11]⟩]) := by
    simp only [searchOnce, interpret, tokenize, Lexicon.tokenize, Lexicon.terms_eq]
    with_unfolding_all rfl
  have hsecond : outcome (recordingRanks.searchOnce
      { query := .structured { street := some "A", country := some "C" } }) [⟨⟨26, 30⟩, [5, 11]⟩] =
      (.ok [], [⟨⟨26, 30⟩, [5, 11]⟩, ⟨⟨26, 30⟩, []⟩]) := by
    simp only [searchOnce, interpret, tokenize, Lexicon.tokenize, Lexicon.terms_eq]
    with_unfolding_all rfl
  have hthird : outcome (recordingRanks.searchOnce
      { query := .structured { country := some "C" } })
        [⟨⟨26, 30⟩, [5, 11]⟩, ⟨⟨26, 30⟩, []⟩] =
      (.ok [⟨.primary, 1, none, 0, 0, some 4⟩],
        [⟨⟨26, 30⟩, [5, 11]⟩, ⟨⟨26, 30⟩, []⟩, ⟨⟨4, 4⟩, []⟩]) := by
    simp only [searchOnce, interpret, tokenize, Lexicon.tokenize, Lexicon.terms_eq]
    with_unfolding_all rfl
  have hrun : outcome (recordingRanks.search streetWithPostcode) [] =
      (.ok [⟨.primary, 1, none, 0, 0, some 4⟩],
        [⟨⟨26, 30⟩, [5, 11]⟩, ⟨⟨26, 30⟩, []⟩, ⟨⟨4, 4⟩, []⟩]) := by
    rw [search_of_fallback _ _ rfl]
    refine (outcome_bind_of_ok hfirst _).trans ?_
    refine (congrArg (outcome · _) (search_of_fallback recordingRanks _ rfl)).trans ?_
    refine (outcome_bind_of_ok hsecond _).trans ?_
    refine (congrArg (outcome · _) (search_of_fallback recordingRanks _ rfl)).trans ?_
    exact outcome_bind_of_ok hthird _
  obtain ⟨hdrops, hsteps, -, hfallback⟩ :=
    search_eq_last_attempt recordingRanks streetWithPostcode []
  obtain ⟨n, last, w', hretries, hrelaxed, hsearch, -⟩ := hfallback rfl
  have hn : n = 0 ∨ n ≤ 2 ∧ n < 3 := (hsteps n _ rfl).1 (Option.isSome_of_eq_some hrelaxed)
  -- neither of the two is the last attempt, as both find nothing
  have hzero : n ≠ 0 := by
    rintro rfl
    cases hretries
    rw [hrun, hfirst] at hsearch
    cases hsearch
  have hone : n ≠ 1 := by
    rintro rfl
    cases hretries with
    | head hempty hnext hrest =>
      cases hrest
      obtain rfl := (Prod.mk.inj (hfirst.symm.trans hempty)).2
      obtain rfl := Option.some.inj hnext
      rw [hrun] at hsearch
      cases hsearch.trans hsecond
  obtain rfl : n = 2 := by omega
  obtain rfl : { query := .structured { country := some "C" } } = last :=
    Option.some.inj ((show streetWithPostcode.relaxed 2 = _ from rfl).symm.trans hrelaxed)
  obtain ⟨-, hdrops, hasks⟩ := hdrops 2 _ hrelaxed
  exact ⟨rfl, hrun, _, w', hretries, hdrops, rfl, hasks, hsearch⟩

end Geocoder

end Geocoding
