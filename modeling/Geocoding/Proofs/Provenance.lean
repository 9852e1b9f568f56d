import Geocoding.Geocoder
import Geocoding.Proofs.Candidate

/-!
# Where candidates come from

Every candidate of a search is the answer to the lookup of some planned interpretation, but for its
rank (`Geocoder.yields_search`). A property that the answers to all lookups have, and that does not
depend on ranks, is therefore one of all results.

`Yields` says that a computation without effects has a property whenever it gives an answer; errors
are not its concern.
-/

namespace Geocoding

/-! ## Rules for answers -/

/-- The answer has the property, if there is one. -/
def Yields {ε α : Type} (x : ExceptT ε Id α) (P : α → Prop) : Prop :=
  ∀ a, x = pure a → P a

section

variable {ε ε' α β : Type} {x : ExceptT ε Id α} {P Q : α → Prop}

theorem Yields.mono (h : Yields x P) (hPQ : ∀ a, P a → Q a) : Yields x Q :=
  fun a ha => hPQ a (h a ha)

/-- What an answer is, is a property of it. -/
theorem yields_self (x : ExceptT ε Id α) : Yields x fun a => x = pure a :=
  fun _ h => h

theorem yields_trivial (x : ExceptT ε Id α) : Yields x fun _ => True :=
  fun _ _ => trivial

theorem yields_pure {a : α} (h : P a) : Yields (pure a : ExceptT ε Id α) P := by
  intro b hb
  obtain rfl : a = b := Except.ok.inj hb
  exact h

theorem yields_throw (e : ε) : Yields (throw e : ExceptT ε Id α) P :=
  fun _ h => nomatch h

theorem Yields.bind {f : α → ExceptT ε Id β} {R : β → Prop} (hx : Yields x P)
    (hf : ∀ a, P a → Yields (f a) R) : Yields (x >>= f) R := by
  intro b hb
  match x, hx with
  | .ok a, hx => exact hf a (hx a rfl) b hb
  | .error _, _ => exact nomatch hb

theorem yields_ite {p : Prop} [Decidable p] {y : ExceptT ε Id α} (hx : p → Yields x P)
    (hy : ¬ p → Yields y P) : Yields (if p then x else y) P := by
  split
  · next h => exact hx h
  · next h => exact hy h

theorem Yields.adapt (h : Yields x P) (f : ε → ε') : Yields (x.adapt f) P := by
  intro a ha
  match x, h with
  | .ok b, h =>
    obtain rfl : b = a := Except.ok.inj ha
    exact h b rfl
  | .error _, _ => exact nomatch ha

theorem yields_mapM {γ : Type} {f : γ → ExceptT ε Id α} {xs : List γ}
    (h : ∀ x ∈ xs, Yields (f x) P) : Yields (xs.mapM f) fun as => ∀ a ∈ as, P a := by
  induction xs with
  | nil => exact yields_pure (by simp)
  | cons x xs ih =>
    rw [List.mapM_cons]
    refine (h x List.mem_cons_self).bind fun a ha => ?_
    refine (ih fun y hy => h y (List.mem_cons_of_mem _ hy)).bind fun as has => ?_
    exact yields_pure (List.forall_mem_cons.2 ⟨ha, has⟩)

end

/-! ## Candidate sets -/

/-- All candidates have the property. -/
def CandidateSet.Only (set : CandidateSet) (Q : Candidate → Prop) : Prop :=
  ∀ x ∈ set.entries, Q x

/-- The property does not depend on the rank of a candidate. -/
def RankBlind (Q : Candidate → Prop) : Prop :=
  ∀ c rank, Q c → Q { c with rank }

namespace CandidateSet

variable {set : CandidateSet} {Q : Candidate → Prop} {cs : List Candidate}

theorem only_empty : (∅ : CandidateSet).Only Q := by
  simp [Only, EmptyCollection.emptyCollection, empty]

theorem Only.extend (h : set.Only Q) (hcs : ∀ c ∈ cs, Q c) : (set.extend cs).Only Q := by
  intro x hx
  rcases mem_of_mem_extend hx with hx | hx
  · exact hcs x hx
  · exact h x hx

theorem only_ofList (hcs : ∀ c ∈ cs, Q c) : (ofList cs).Only Q :=
  only_empty.extend hcs

theorem Only.replace (h : set.Only Q) {c : Candidate} (hc : Q c) : (set.replace c).Only Q := by
  intro x hx
  rcases mem_replace_iff.1 hx with rfl | ⟨hx, -⟩
  · exact hc
  · exact h x hx

theorem Only.foldl_replace (h : set.Only Q) (hcs : ∀ c ∈ cs, Q c) :
    (cs.foldl CandidateSet.replace set).Only Q := by
  induction cs generalizing set with
  | nil => exact h
  | cons c cs ih =>
    obtain ⟨hc, hcs⟩ := List.forall_mem_cons.1 hcs
    exact ih (h.replace hc) hcs

theorem Only.filter (h : set.Only Q) (p : Candidate → Bool) : (set.filter p).Only Q :=
  fun x hx => h x (List.mem_of_mem_filter hx)

theorem Only.foldl_demote (hQ : RankBlind Q) (h : set.Only Q) (keys : List (Source × Nat)) :
    (keys.foldl demote set).Only Q := by
  intro x hx
  rw [entries_foldl_demote] at hx
  obtain ⟨c, hc, rfl⟩ := List.mem_map.1 hx
  exact hQ c _ (h c hc)

end CandidateSet

/-! ## Resolving -/

namespace Resolver

variable {r : Resolver Id} {Q : Candidate → Prop}

theorem only_best {found : CandidateSet} (h : found.Only Q) : (best found).Only Q := by
  refine CandidateSet.only_ofList fun c hc => h c ?_
  rw [splitByRank_fst] at hc
  exact (mem_leastRanked.1 hc).1

theorem only_carried (hQ : RankBlind Q) {found : CandidateSet} (h : found.Only Q) :
    (carried found).Only Q := by
  refine CandidateSet.only_ofList fun x hx => ?_
  obtain ⟨c, hc, rfl⟩ := List.mem_map.1 hx
  exact hQ c _ (h c ((splitByRank_perm found.entries).mem_iff.1 hc))

theorem only_foldl_extend {kept : CandidateSet} {answers : List CandidateSet} (h : kept.Only Q)
    (hanswers : ∀ answer ∈ answers, answer.Only Q) :
    (answers.foldl (fun found answer => found.extend answer.entries) kept).Only Q := by
  induction answers generalizing kept with
  | nil => exact h
  | cons answer answers ih =>
    obtain ⟨hanswer, hanswers⟩ := List.forall_mem_cons.1 hanswers
    exact ih (h.extend hanswer) hanswers

theorem yields_inScope {found : CandidateSet} (h : found.Only Q) :
    Yields (r.inScope found) (·.Only Q) := by
  rw [inScope]
  split
  · exact yields_pure h
  · refine (yields_trivial _).bind fun primary _ => ?_
    exact (yields_trivial _).bind fun postcodes _ => yields_pure (h.filter _)

theorem yields_visit (hQ : RankBlind Q) {groups : List (Nat × List Interpretation)}
    (hlookup : ∀ group ∈ groups, ∀ s ∈ group.2, Yields (r.lookup s) (·.Only Q))
    {visited queried : Nat} {kept : CandidateSet} (hkept : kept.Only Q) :
    Yields (r.visit visited queried kept groups) (·.Only Q) := by
  induction groups generalizing visited queried kept with
  | nil => exact yields_pure CandidateSet.only_empty
  | cons group rest ih =>
    obtain ⟨rank, states⟩ := group
    obtain ⟨hstates, hrest⟩ := List.forall_mem_cons.1 hlookup
    have hbatch : ∀ s ∈ r.batch queried states,
        Yields (ResolveM.ofIndex (r.lookup s)) (·.Only Q) :=
      fun s hs => (hstates s (List.mem_of_mem_take hs)).adapt _
    rw [visit]
    refine (yields_trivial _).bind fun cancelled _ => ?_
    cases cancelled with
    | true => exact yields_throw _
    | false =>
      refine (yields_mapM hbatch).bind fun answers hanswers => ?_
      have hfound := only_foldl_extend hkept hanswers
      simp only
      split
      · exact ih hrest (only_carried hQ hfound)
      · refine (yields_inScope (only_best hfound)).bind fun results hresults => ?_
        split
        · exact ih hrest CandidateSet.only_empty
        · exact yields_pure hresults

/-- A property of all answers that does not depend on ranks is one of all results. -/
theorem yields_resolve (hQ : RankBlind Q) {ranking : Ranking Interpretation}
    (hlookup : ∀ s ∈ ranking.items, Yields (r.lookup s) (·.Only Q)) :
    Yields (r.resolve ranking) fun found => ∀ x ∈ found, Q x := by
  refine (yields_visit hQ (fun group hgroup s hs => ?_) CandidateSet.only_empty).bind
    fun found hfound => yields_pure hfound
  exact hlookup s (List.mem_flatMap.2 ⟨group, hgroup, hs⟩)

end Resolver

/-! ## Attempts -/

namespace SearchRequest

variable {r next r' : SearchRequest}

theorem attempts_of_none (h : r.relax? = none) : r.attempts = [r] := by
  rw [attempts]
  split
  · rfl
  · next h' => simp [h] at h'

theorem attempts_of_some (h : r.relax? = some next) : r.attempts = r :: next.attempts := by
  rw [attempts]
  split
  · next h' => simp [h] at h'
  · next h' =>
    rw [h, Option.some.injEq] at h'
    rw [h']

theorem exists_fields_of_relax? (h : r.relax? = some next) :
    ∃ fields, next = { r with query := .structured fields } := by
  rw [relax?] at h
  split at h
  · contradiction
  · obtain ⟨fields, -, rfl⟩ := Option.map_eq_some_iff.1 h
    exact ⟨fields, rfl⟩

/-- Attempts differ from the request in the fields of a structured query only. -/
theorem eq_or_structured_of_mem_attempts (h : r' ∈ r.attempts) :
    r' = r ∨ ∃ fields, r' = { r with query := .structured fields } := by
  induction r using attempts.induct with
  | case1 r hrelax =>
    rw [attempts_of_none hrelax] at h
    exact Or.inl (List.mem_singleton.1 h)
  | case2 r next hrelax _ ih =>
    rw [attempts_of_some hrelax] at h
    rcases List.mem_cons.1 h with rfl | h
    · exact Or.inl rfl
    · obtain ⟨fields, rfl⟩ := exists_fields_of_relax? hrelax
      rcases ih h with rfl | ⟨fields', rfl⟩
      · exact Or.inr ⟨fields, rfl⟩
      · exact Or.inr ⟨fields', rfl⟩

theorem excluded_of_mem_attempts (h : r' ∈ r.attempts) : r'.excluded = r.excluded := by
  rcases eq_or_structured_of_mem_attempts h with rfl | ⟨fields, rfl⟩
  · rfl
  · rfl

/-- A request for more than coordinates: there are words in its query, or fields. -/
def HasWords (r : SearchRequest) : Prop :=
  ∀ query, r.prepare = .ok query → query.isCoordinateOnly = false

theorem hasWords_of_structured {fields : StructuredQuery} (h : r.query = .structured fields) :
    r.HasWords := by
  intro query hquery
  rw [prepare, h] at hquery
  simp only [PreparedQuery.ofFields] at hquery
  split at hquery
  · contradiction
  · obtain rfl := Except.ok.inj hquery
    rfl

theorem hasWords_of_mem_attempts (hr : r.HasWords) (h : r' ∈ r.attempts) : r'.HasWords := by
  rcases eq_or_structured_of_mem_attempts h with rfl | ⟨fields, rfl⟩
  · exact hr
  · exact hasWords_of_structured rfl

end SearchRequest

/-! ## Searching -/

namespace Geocoder

section

variable {m : Type → Type} [Monad m] (g : Geocoder m) (r : SearchRequest)

/-- The attempts that a search for a request makes, as long as they find nothing. -/
def tries : List SearchRequest :=
  if g.config.fallback then r.attempts else [r]

/-- What the lookups for a request have in common. -/
def scopeOf : Scope where
  ranks := r.restriction.ranks
  allowed := r.restriction.allowed
  limit := lookupLimit (r.limit.getD g.config.limit)
  parcelCountries := g.config.parcelCountries

/-- The interpretation is one that is planned for the request, under the constraints. -/
def Plans (c : Constraints) (s : Interpretation) : Prop :=
  ∃ query ranking, r.prepare = .ok query ∧ g.interpret r query = pure (c, ranking) ∧
    s ∈ ranking.items

end

variable {g : Geocoder Id} {r : SearchRequest} {Q : Candidate → Prop}

theorem yields_prepare : Yields (prepare r : GeocoderM Id PreparedQuery) fun query =>
    r.prepare = .ok query := by
  intro query h
  rw [prepare] at h
  cases hr : r.prepare with
  | error e =>
    rw [hr] at h
    exact nomatch h
  | ok query' =>
    rw [hr] at h
    obtain rfl : query' = query := Except.ok.inj h
    rfl

/-- What a planned interpretation is part of: a plan under the constraints of the request, from the
roots of its query. -/
theorem exists_plan_of_plans {c : Constraints} {s : Interpretation} (h : g.Plans r c s) :
    ∃ query phrases table roots, r.prepare = .ok query ∧ c = r.constraints query table ∧
      g.roots c query = pure roots ∧
      s ∈ (({ limits := g.config.planner, thresholds := g.config.frequencies, constraints := c } :
        Planner).plan phrases table roots query.isStructured).items := by
  obtain ⟨query, ranking, hquery, hplan, hs⟩ := h
  have hinterpret : Yields (g.interpret r query) fun planned => ∃ phrases table roots,
      planned.1 = r.constraints query table ∧ g.roots planned.1 query = pure roots ∧
      planned.2 = ({ limits := g.config.planner, thresholds := g.config.frequencies
                     constraints := planned.1 } : Planner).plan phrases table roots
        query.isStructured := by
    refine (yields_trivial _).bind fun tokenized _ => ?_
    obtain ⟨phrases, table⟩ := tokenized
    refine (yields_self _).bind fun roots hroots => yields_pure ?_
    exact ⟨phrases, table, roots, rfl, hroots, rfl⟩
  obtain ⟨phrases, table, roots, hc, hroots, hranking⟩ := hinterpret _ hplan
  exact ⟨query, phrases, table, roots, hquery, hc, hroots, hranking ▸ hs⟩

theorem yields_lookUp (hQ : RankBlind Q) {c : Constraints} {ranking : Ranking Interpretation}
    (hlookup : ∀ s ∈ ranking.items, Yields (lookup g.places c (g.scopeOf r) s) (·.Only Q)) :
    Yields (g.lookUp r c ranking) fun found => ∀ x ∈ found, Q x := by
  refine ((Resolver.yields_resolve hQ hlookup).adapt GeocoderError.resolve).bind
    fun found hfound => yields_pure ?_
  exact fun x hx => hfound x (List.mem_of_mem_take hx)

theorem yields_searchOnce (hQ : RankBlind Q)
    (hwords : r.HasWords)
    (hlookup : ∀ c s, g.Plans r c s → Yields (lookup g.places c (g.scopeOf r) s) (·.Only Q)) :
    Yields (g.searchOnce r) fun found => ∀ x ∈ found, Q x := by
  refine yields_prepare.bind fun query hquery => ?_
  have hnone : (query.near.filter fun _ => query.isCoordinateOnly) = none := by
    simp [hwords query hquery]
  simp only [hnone]
  have hinterpret : Yields (g.interpret r query) fun planned =>
      g.interpret r query = pure planned := fun _ h => h
  refine hinterpret.bind fun planned hplan => ?_
  obtain ⟨c, ranking⟩ := planned
  simp only
  split
  · exact yields_pure (by simp)
  · exact yields_lookUp hQ fun s hs => hlookup c s ⟨query, ranking, hquery, hplan, hs⟩

theorem yields_firstFound (hQ : RankBlind Q) {attempts : List SearchRequest}
    (hwords : ∀ r ∈ attempts, r.HasWords)
    (hlookup : ∀ r ∈ attempts, ∀ c s, g.Plans r c s →
      Yields (lookup g.places c (g.scopeOf r) s) (·.Only Q)) :
    Yields (g.firstFound attempts) fun found => ∀ x ∈ found, Q x := by
  induction attempts with
  | nil => exact yields_pure (by simp)
  | cons r rest ih =>
    obtain ⟨hwords, hrestWords⟩ := List.forall_mem_cons.1 hwords
    obtain ⟨hlookup, hrestLookup⟩ := List.forall_mem_cons.1 hlookup
    rw [firstFound]
    refine (yields_searchOnce hQ hwords hlookup).bind fun found hfound => ?_
    split
    · exact ih hrestWords hrestLookup
    · exact yields_pure hfound

theorem mem_attempts_of_mem_tries {r' : SearchRequest} (h : r' ∈ g.tries r) :
    r' ∈ r.attempts := by
  rw [tries] at h
  split at h
  · exact h
  · obtain rfl := List.mem_singleton.1 h
    cases hrelax : r'.relax? with
    | none => simp [SearchRequest.attempts_of_none hrelax]
    | some next => simp [SearchRequest.attempts_of_some hrelax]

/-- A property that the lookups of all planned interpretations give to their candidates, and that
does not depend on ranks, is one of all results of a search. -/
theorem yields_search (hQ : RankBlind Q) (hwords : r.HasWords)
    (hlookup : ∀ r' ∈ g.tries r, ∀ c s, g.Plans r' c s →
      Yields (lookup g.places c (g.scopeOf r') s) (·.Only Q)) :
    Yields (g.search r) fun found => ∀ x ∈ found, Q x :=
  yields_firstFound hQ
    (fun _ hr' => SearchRequest.hasWords_of_mem_attempts hwords (mem_attempts_of_mem_tries hr'))
    hlookup

end Geocoder

end Geocoding
