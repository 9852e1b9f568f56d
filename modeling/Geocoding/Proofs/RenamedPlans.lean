import Geocoding.Planner
import Geocoding.Proofs.Renaming

/-!
# Plans under other word ids

Planning commutes with renaming the ids of words (`Planner.plan_rename`). Interpretations are sorted
by their costs and tie-breaks, put into buckets by their costs, and compared for equality to drop
duplicates; the ids take part in the last of these only, where it suffices that different ids stay
different.
-/

namespace Geocoding

/-! ## Rankings -/

section

variable {α β : Type} (f : α → β)

/-- Change the items of some buckets. -/
def mapItems (buckets : List (Nat × List α)) : List (Nat × List β) :=
  buckets.map fun (rank, items) => (rank, items.map f)

theorem appendAt_mapItems (rank : Nat) (items : List α) (buckets : List (Nat × List α)) :
    appendAt rank (items.map f) (mapItems f buckets) =
      mapItems f (appendAt rank items buckets) := by
  induction buckets with
  | nil => rfl
  | cons bucket rest ih =>
    obtain ⟨r, xs⟩ := bucket
    show appendAt rank (items.map f) ((r, xs.map f) :: mapItems f rest) = _
    rw [appendAt, appendAt, ih]
    split
    · rfl
    · split
      · simp [mapItems]
      · rfl

end

attribute [ext] Ranking

namespace Ranking

variable {α β : Type} (f : α → β)

/-- Change the items. -/
def map (ranking : Ranking α) : Ranking β where
  buckets := mapItems f ranking.buckets
  ascending := by simpa [mapItems, Function.comp_def] using ranking.ascending

variable {f}

theorem append_map (ranking : Ranking α) (rank : Nat) (items : List α) :
    (ranking.map f).append rank (items.map f) = (ranking.append rank items).map f :=
  Ranking.ext (appendAt_mapItems f rank items ranking.buckets)

theorem push_map (ranking : Ranking α) (rank : Nat) (x : α) :
    (ranking.map f).push rank (f x) = (ranking.push rank x).map f :=
  append_map ranking rank [x]

theorem ofPairs_map (pairs : List (Nat × α)) :
    ofPairs (pairs.map fun (rank, x) => (rank, f x)) = (ofPairs pairs).map f := by
  unfold ofPairs
  rw [List.foldl_map]
  show pairs.foldl _ (map f ∅) = _
  refine List.foldl_hom (map f) ?_
  exact fun ranking (rank, x) => push_map ranking rank x

theorem ofList_map {rankOf : α → Nat} {rankOf' : β → Nat} (h : ∀ x, rankOf' (f x) = rankOf x)
    (items : List α) : ofList rankOf' (items.map f) = (ofList rankOf items).map f := by
  unfold ofList
  rw [← ofPairs_map, List.map_map, List.map_map]
  simp only [Function.comp_def, h]

theorem merge_map (a b : Ranking α) : (a.map f).merge (b.map f) = (a.merge b).map f := by
  show (mapItems f b.buckets).foldl _ (a.map f) = _
  unfold mapItems
  rw [List.foldl_map]
  refine List.foldl_hom (map f) ?_
  exact fun ranking (rank, items) => append_map ranking rank items

theorem mapBuckets_map {g : List α → List α} {g' : List β → List β}
    (h : ∀ xs, g' (xs.map f) = (g xs).map f) (ranking : Ranking α) :
    (ranking.map f).mapBuckets g' = (ranking.mapBuckets g).map f := by
  refine Ranking.ext ?_
  simp [map, mapBuckets, mapItems, h]

theorem toPairs_map (ranking : Ranking α) :
    (ranking.map f).toPairs = ranking.toPairs.map fun (rank, x) => (rank, f x) := by
  simp [toPairs, map, mapItems, List.flatMap_map, List.map_flatMap, Function.comp_def]

theorem isEmpty_map (ranking : Ranking α) : (ranking.map f).isEmpty = ranking.isEmpty := by
  simp [isEmpty, map, mapItems, Function.comp_def]

end Ranking

/-! ## Distinct members -/

section

variable {α β γ δ : Type} [BEq γ] [BEq δ] [LawfulBEq γ] [LawfulBEq δ] {key : α → γ} {key' : β → δ}
  {f : α → β} {g : γ → δ}

theorem distinctBy_go_map (hg : Function.Injective g) (h : ∀ x, key' (f x) = g (key x))
    (seen : List γ) (xs : List α) :
    distinctBy.go key' (seen.map g) (xs.map f) = (distinctBy.go key seen xs).map f := by
  induction xs generalizing seen with
  | nil => rfl
  | cons x xs ih =>
    have hseen : (seen.map g).contains (key' (f x)) = seen.contains (key x) := by
      rw [Bool.eq_iff_iff, List.contains_iff_mem, List.contains_iff_mem, h,
        List.mem_map_of_injective hg]
    rw [List.map_cons, distinctBy.go, distinctBy.go, hseen]
    split
    · exact ih seen
    · rw [h, ← List.map_cons, ih, List.map_cons]

/-- Which members are repetitions does not change under an injective change of the keys. -/
theorem distinctBy_map (hg : Function.Injective g) (h : ∀ x, key' (f x) = g (key x))
    (xs : List α) : distinctBy key' (xs.map f) = (distinctBy key xs).map f :=
  distinctBy_go_map hg h [] xs

end

variable (σ : Renaming)

/-! ## Token tables -/

attribute [ext] TokenTable

namespace TokenTable

/-- Change the ids of some tokens under their terms. -/
def renameEntries (entries : List (String × List Token)) : List (String × List Token) :=
  entries.map fun (term, tokens) => (term, tokens.map (·.rename σ))

/-- The table with other ids for the tokens. -/
def rename (table : TokenTable) : TokenTable where
  entries := renameEntries σ table.entries
  distinct := by simpa [renameEntries, Function.comp_def] using table.distinct
  tokens_ne_nil := by
    intro e he
    obtain ⟨entry, hentry, rfl⟩ := List.mem_map.1 he
    simpa using table.tokens_ne_nil entry hentry

variable (table : TokenTable) (term : String)

theorem lookup_renameEntries (entries : List (String × List Token)) :
    (renameEntries σ entries).lookup term = (entries.lookup term).map (·.map (·.rename σ)) := by
  induction entries with
  | nil => rfl
  | cons entry rest ih =>
    obtain ⟨t, tokens⟩ := entry
    show List.lookup term ((t, tokens.map (·.rename σ)) :: renameEntries σ rest) = _
    rw [List.lookup_cons, List.lookup_cons, ih]
    split <;> rfl

theorem get_rename : (table.rename σ).get term = (table.get term).map (·.rename σ) := by
  unfold get rename
  rw [lookup_renameEntries]
  cases table.entries.lookup term <;> rfl

theorem contains_rename : (table.rename σ).contains term = table.contains term := by
  unfold contains rename
  rw [lookup_renameEntries, Option.isSome_map]

theorem isKnown_rename : (table.rename σ).isKnown = table.isKnown := by
  funext term
  unfold isKnown
  rw [get_rename, List.isEmpty_map]

theorem isEmpty_rename : (table.rename σ).isEmpty = table.isEmpty :=
  List.isEmpty_map

theorem add_rename (token : Token) :
    (table.rename σ).add term (token.rename σ) = (table.add term token).rename σ := by
  have hlist (entries : List (String × List Token)) :
      listUnder term (token.rename σ) (renameEntries σ entries) =
        renameEntries σ (listUnder term token entries) := by
    induction entries with
    | nil => rfl
    | cons entry rest ih =>
      obtain ⟨t, tokens⟩ := entry
      show listUnder term (token.rename σ)
        ((t, tokens.map (·.rename σ)) :: renameEntries σ rest) = _
      rw [listUnder, listUnder, ih]
      split
      · simp [renameEntries]
      · rfl
  exact TokenTable.ext (hlist table.entries)

theorem ofList_rename (pairs : List (String × Token)) :
    ofList (pairs.map fun (term, token) => (term, token.rename σ)) = (ofList pairs).rename σ := by
  unfold ofList
  rw [List.foldl_map]
  show pairs.foldl _ (rename σ ∅) = _
  refine List.foldl_hom (rename σ) ?_
  exact fun table (term, token) => add_rename σ table term token

/-- A token for an unknown term has no id. -/
theorem rename_of_fallback? {token : Token} (h : fallback? term = some token) :
    token.rename σ = token := by
  unfold fallback? at h
  split at h
  · obtain rfl := Option.some.inj h
    rfl
  · split at h
    · obtain rfl := Option.some.inj h
      rfl
    · exact nomatch h

theorem addFallback_rename :
    (table.rename σ).addFallback term = (table.addFallback term).rename σ := by
  unfold addFallback
  rw [contains_rename]
  split
  · rfl
  · cases hfallback : fallback? term with
    | none => rfl
    | some token =>
      have hsame := rename_of_fallback? σ term hfallback
      show (table.rename σ).add term token = (table.add term token).rename σ
      rw [← add_rename, hsame]

theorem addFallbacks_rename (terms : List String) :
    (table.rename σ).addFallbacks terms = (table.addFallbacks terms).rename σ :=
  List.foldl_hom (rename σ) fun table term => addFallback_rename σ table term

theorem retainCountries_rename (countries : List String) :
    (table.rename σ).retainCountries countries = (table.retainCountries countries).rename σ := by
  have hstays (token : Token) : staysIn countries (token.rename σ) = staysIn countries token := by
    cases token <;> rfl
  unfold retainCountries
  split
  · rfl
  · refine TokenTable.ext ?_
    simp [rename, renameEntries, restricted, List.filter_map, Function.comp_def, hstays]

theorem toList_rename :
    (table.rename σ).toList = table.toList.map fun (term, token) => (term, token.rename σ) := by
  simp [toList, rename, renameEntries, List.flatMap_map, List.map_flatMap, Function.comp_def]

theorem fullWordIds_rename : (table.rename σ).fullWordIds = table.fullWordIds.rename σ := by
  unfold fullWordIds
  rw [toList_rename, TermSet.rename_ofList, List.filterMap_map, List.map_filterMap]
  congr 2
  funext ⟨term, token⟩
  cases token with
  | word w => cases hfull : w.isFull <;> simp [Token.rename, Token.isFullWord, Token.id?, hfull]
  | country => rfl
  | postcode => rfl
  | houseNumber => rfl
  | special => rfl

end TokenTable

/-! ## Planning -/

namespace Interpretation

theorem sorted_rename (states : List Interpretation) :
    sorted (states.map (·.rename σ)) = (sorted states).map (·.rename σ) :=
  (List.map_mergeSort fun s _ t _ => (notAfter_rename σ s t).symm).symm

end Interpretation

/-- Reading those of some tokens that fit gives the same under the other ids. -/
theorem Token.flatMap_extend_rename (c : Constraints) (s : Interpretation) (pos : Position)
    (t : FrequencyThresholds) (tokens : List Token) :
    ((tokens.map (·.rename σ)).filter (·.fits (c.rename σ) (s.rename σ) pos)).flatMap
      (·.extend (c.rename σ) t (s.rename σ) pos) =
      ((tokens.filter (·.fits c s pos)).flatMap (·.extend c t s pos)).map (·.rename σ) := by
  simp [List.flatMap_map, List.map_flatMap, List.filter_map, Function.comp_def, Token.fits_rename,
    Token.extend_rename]

namespace Planner

/-- The planner with other ids for the words in its constraints. -/
def rename (p : Planner) : Planner :=
  { p with constraints := p.constraints.rename σ }

variable (p : Planner) (table : TokenTable)

theorem ranking_rename (states : List Interpretation) :
    Ranking.ofList (·.cost) (states.map (·.rename σ)) =
      (Ranking.ofList (·.cost) states).map (·.rename σ) :=
  Ranking.ofList_map (fun _ => rfl) states

theorem filter_cost_rename (states : List Interpretation) :
    (states.map (·.rename σ)).filter (·.cost < p.limits.maxCost) =
      (states.filter (·.cost < p.limits.maxCost)).map (·.rename σ) := by
  rw [List.filter_map]
  rfl

theorem advance_rename (pos : Position) (tokens : List Token) (states : List Interpretation) :
    (p.rename σ).advance pos (tokens.map (·.rename σ)) (states.map (·.rename σ)) =
      (p.advance pos tokens states).map (·.rename σ) := by
  have hextended : ((states.map (·.rename σ)).flatMap fun s =>
      ((tokens.map (·.rename σ)).filter (·.fits (p.rename σ).constraints s pos)).flatMap
        (·.extend (p.rename σ).constraints p.thresholds s pos)) =
      (states.flatMap fun s => (tokens.filter (·.fits p.constraints s pos)).flatMap
        (·.extend p.constraints p.thresholds s pos)).map (·.rename σ) := by
    rw [List.flatMap_map, List.map_flatMap]
    congr 1
    funext s
    exact Token.flatMap_extend_rename σ p.constraints s pos p.thresholds tokens
  unfold advance
  rw [List.map_take, ← Interpretation.sorted_rename, ← filter_cost_rename, ← hextended]
  rfl

theorem readParts_rename (pos : Position) (grouping : Grouping) (states : List Interpretation) :
    (p.rename σ).readParts (table.rename σ) pos grouping (states.map (·.rename σ)) =
      (p.readParts table pos grouping states).map (·.rename σ) := by
  induction grouping generalizing pos states with
  | nil => rfl
  | cons term rest ih => rw [readParts, readParts, TokenTable.get_rename, advance_rename, ih]

theorem readGrouping_rename (pos : Position) (frontier : List Interpretation)
    (grouping : Grouping) :
    (p.rename σ).readGrouping (table.rename σ) pos (frontier.map (·.rename σ)) grouping =
      (p.readGrouping table pos frontier grouping).map (·.rename σ) :=
  readParts_rename σ p table _ grouping frontier

theorem readGroupings_rename (pos : Position) (frontier : List Interpretation)
    (groupings : List Grouping) :
    (p.rename σ).readGroupings (table.rename σ) pos (frontier.map (·.rename σ)) groupings =
      (p.readGroupings table pos frontier groupings).map (·.rename σ) := by
  unfold readGroupings
  show groupings.foldl _ (List.map (Interpretation.rename σ) []) = _
  refine List.foldl_hom (List.map (Interpretation.rename σ)) ?_
  intro found grouping
  have hdistinct (states : List Interpretation) :
      distinctBy id (states.map (·.rename σ)) = (distinctBy id states).map (·.rename σ) := by
    refine distinctBy_map (Interpretation.rename_injective σ) ?_ states
    exact fun _ => rfl
  rw [readGrouping_rename, ← List.map_append, Interpretation.sorted_rename, hdistinct,
    List.map_take]
  rfl

theorem takeBuckets_mapItems {f : Interpretation → Interpretation} (budget : Nat)
    (buckets : List (Nat × List Interpretation)) (taken : List Interpretation) :
    takeBuckets budget (mapItems f buckets) (taken.map f) =
      (takeBuckets budget buckets taken).map f := by
  induction buckets generalizing taken with
  | nil => rfl
  | cons bucket rest ih =>
    obtain ⟨rank, items⟩ := bucket
    show takeBuckets budget ((rank, items.map f) :: mapItems f rest) (taken.map f) = _
    rw [takeBuckets, takeBuckets, ← List.map_append, ih, List.length_map]
    split <;> rfl

theorem bestBuckets_rename (states : List Interpretation) :
    (p.rename σ).bestBuckets (states.map (·.rename σ)) =
      (p.bestBuckets states).map (·.rename σ) := by
  have hranking : Ranking.ofList (·.cost)
      ((states.map (·.rename σ)).filter (·.cost < p.limits.maxCost)) =
      (Ranking.ofList (·.cost) (states.filter (·.cost < p.limits.maxCost))).map (·.rename σ) := by
    rw [filter_cost_rename, ranking_rename]
  unfold bestBuckets
  rw [← takeBuckets_mapItems, List.map_nil]
  exact congrArg (fun ranking => takeBuckets _ (Ranking.buckets ranking) []) hranking

theorem readPhrases_rename (count index : Nat) (phrases : List Phrase)
    (frontier : List Interpretation) :
    (p.rename σ).readPhrases (table.rename σ) count index phrases (frontier.map (·.rename σ)) =
      (p.readPhrases table count index phrases frontier).map (·.rename σ) := by
  induction phrases generalizing index frontier with
  | nil => rfl
  | cons phrase rest ih =>
    rw [readPhrases, readPhrases, readGroupings_rename, bestBuckets_rename, ih]

theorem pass_rename (phrases : List Phrase) (roots : List Interpretation) :
    (p.rename σ).pass (table.rename σ) phrases (roots.map (·.rename σ)) =
      (p.pass table phrases roots).map (·.rename σ) := by
  unfold pass
  rw [readPhrases_rename, List.filter_map, ranking_rename]
  simp only [Function.comp_def, Interpretation.isValid_rename]

theorem rootsOnly_rename (roots : List Interpretation) :
    (p.rename σ).rootsOnly (roots.map (·.rename σ)) = (p.rootsOnly roots).map (·.rename σ) := by
  unfold rootsOnly
  rw [List.filter_map, ranking_rename]
  simp only [Function.comp_def, Interpretation.isValid_rename]
  rfl

theorem passes_rename (phrases : List Phrase) (roots : List Interpretation) (structured : Bool) :
    (p.rename σ).passes phrases (table.rename σ) (roots.map (·.rename σ)) structured =
      (p.passes phrases table roots structured).map (·.rename σ) := by
  unfold passes
  rw [TokenTable.isEmpty_rename, rootsOnly_rename, pass_rename, pass_rename, Ranking.merge_map,
    Ranking.mapBuckets_map (Interpretation.sorted_rename σ)]
  split
  · rfl
  · split <;> rfl

theorem withoutDuplicates_map {f : Interpretation → Interpretation} (hf : Function.Injective f)
    (ranking : Ranking Interpretation) :
    withoutDuplicates (ranking.map f) = (withoutDuplicates ranking).map f := by
  have hdistinct (pairs : List (Nat × Interpretation)) :
      distinctBy (·.2) (pairs.map fun (rank, s) => (rank, f s)) =
        (distinctBy (·.2) pairs).map fun (rank, s) => (rank, f s) := by
    refine distinctBy_map hf ?_ pairs
    exact fun _ => rfl
  unfold withoutDuplicates
  rw [Ranking.toPairs_map, hdistinct, Ranking.ofPairs_map]

/-- Under other ids for the words, the same interpretations are planned in the same order. -/
theorem plan_rename (phrases : List Phrase) (roots : List Interpretation) (structured : Bool) :
    (p.rename σ).plan phrases (table.rename σ) (roots.map (·.rename σ)) structured =
      (p.plan phrases table roots structured).map (·.rename σ) := by
  unfold plan
  rw [passes_rename, withoutDuplicates_map (Interpretation.rename_injective σ)]

end Planner

end Geocoding
