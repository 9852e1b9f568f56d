import Geocoding.Proofs.Outcome
import Geocoding.Resolve
import Mathlib.Logic.Relation

/-!
# Resolving turn by turn

Resolving as a sequence of turns: where it stands before a group is a stage (`Resolver.Stage`), and
a turn looks up that group and either has the results or comes to the next stage (`Resolver.turn`).
Resolving takes turns until there are results (`Resolver.visitFrom_eq_turn`).

A turn that has no results comes to the stage behind its group, and only while there are groups left
and neither limit is reached (`Resolver.Precedes`). So whatever the lookups answer, resolving ends
with the results or the error of some last turn (`Resolver.exists_last_turn`).
-/

namespace Geocoding

namespace Resolver

/-- Where resolving stands before a group. -/
structure Stage where
  /-- How many groups were visited. -/
  visited : Nat := 0
  /-- How many interpretations were looked up. -/
  queried : Nat := 0
  /-- The places carried over from the last group. -/
  kept : CandidateSet := ∅
  /-- The groups that are left. -/
  groups : List (Nat × List Interpretation)

/-- The stage before the first group of a ranking. -/
def Stage.start (ranking : Ranking Interpretation) : Stage :=
  { groups := ranking.buckets }

section

variable {m : Type → Type} [Monad m] (r : Resolver m)

/-- What to do with the places found up to a group, which is counted already: the results, or the
stage behind the group. -/
def settle (visited queried : Nat) (rest : List (Nat × List Interpretation))
    (found : CandidateSet) : ResolveM m (CandidateSet ⊕ Stage) := do
  let goesOn := visited < r.limits.maxGroups && queried < r.limits.maxQueries && !rest.isEmpty
  if goesOn && !hasExact found then return .inr ⟨visited, queried, carried found, rest⟩
  else
    let results ← r.inScope (best found)
    if results.isEmpty && goesOn then return .inr ⟨visited, queried, ∅, rest⟩
    else return .inl results

/-- Look up one group: the results, or the stage behind it. -/
def turn (stage : Stage) : ResolveM m (CandidateSet ⊕ Stage) :=
  match stage.groups with
  | [] => return .inl ∅
  | (_, states) :: rest => do
    if ← r.isCancelled then throw .cancelled
    let batch := r.batch stage.queried states
    let answers ← batch.mapM fun s => ResolveM.ofIndex (r.lookup s)
    r.settle (stage.visited + 1) (stage.queried + batch.length) rest
      (answers.foldl (fun found answer => found.extend answer.entries) stage.kept)

/-- Look up the groups that are left at a stage. -/
def visitFrom (stage : Stage) : ResolveM m CandidateSet :=
  r.visit stage.visited stage.queried stage.kept stage.groups

theorem resolve_eq_visitFrom (ranking : Ranking Interpretation) :
    r.resolve ranking = (do return (← r.visitFrom (.start ranking)).entries) := rfl

/-- Resolving takes a turn, and another one as long as it has no results. -/
theorem visitFrom_eq_turn [LawfulMonad m] (stage : Stage) :
    r.visitFrom stage = (do
      match ← r.turn stage with
      | .inl results => return results
      | .inr next => r.visitFrom next) := by
  obtain ⟨visited, queried, kept, groups⟩ := stage
  cases groups with
  | nil => simp [visitFrom, turn, visit]
  | cons group rest =>
    obtain ⟨rank, states⟩ := group
    simp only [visitFrom, turn, visit, settle, bind_assoc]
    refine bind_congr fun cancelled => ?_
    cases cancelled with
    | true => exact ExceptT.ext (by simp)
    | false =>
      simp only [Bool.false_eq_true, if_false, bind_assoc]
      refine bind_congr fun answers => ?_
      split
      · rw [pure_bind]
      · rw [bind_assoc]
        refine bind_congr fun results => ?_
        split
        · rw [pure_bind]
        · rw [pure_bind]

end

/-! ## One turn -/

variable {σ : Type} {r : Resolver (StateM σ)}

/-- The stage is the one behind the first group of another, and that group was not the last one to
be visited. -/
structure Precedes (r : Resolver (StateM σ)) (stage next : Stage) : Prop where
  groups : ∃ rank states, stage.groups = (rank, states) :: next.groups ∧
    next.queried = stage.queried + (r.batch stage.queried states).length
  visited : next.visited = stage.visited + 1
  visited_lt : next.visited < r.limits.maxGroups
  queried_lt : next.queried < r.limits.maxQueries
  groups_ne_nil : next.groups ≠ []

/-- A turn in one world comes to the next stage in another. -/
def GoesOn (r : Resolver (StateM σ)) (here there : Stage × σ) : Prop :=
  outcome (r.turn here.1) here.2 = (.ok (.inr there.1), there.2)

theorem ends_settle (visited queried : Nat) (rest : List (Nat × List Interpretation))
    (found : CandidateSet) (w : σ) :
    Ends (r.settle visited queried rest found) w fun out _ => ∀ next, out = .ok (.inr next) →
      next.visited = visited ∧ next.queried = queried ∧ next.groups = rest ∧
        visited < r.limits.maxGroups ∧ queried < r.limits.maxQueries ∧ rest ≠ [] := by
  have hnext {kept : CandidateSet} (hgo : (decide (visited < r.limits.maxGroups) &&
      decide (queried < r.limits.maxQueries) && !rest.isEmpty) = true) :
      ∀ next, (Except.ok (.inr ⟨visited, queried, kept, rest⟩) :
          Except ResolveError (CandidateSet ⊕ Stage)) = .ok (.inr next) →
        next.visited = visited ∧ next.queried = queried ∧ next.groups = rest ∧
          visited < r.limits.maxGroups ∧ queried < r.limits.maxQueries ∧ rest ≠ [] := by
    rintro next hnext
    obtain rfl := Sum.inr.inj (Except.ok.inj hnext)
    simp only [Bool.and_eq_true, decide_eq_true_eq, Bool.not_eq_true',
      List.isEmpty_eq_false_iff] at hgo
    exact ⟨rfl, rfl, rfl, hgo.1.1, hgo.1.2, hgo.2⟩
  rw [settle]
  refine ends_ite (fun hgo => ends_pure (hnext (Bool.and_eq_true_iff.1 hgo).1)) fun _ => ?_
  refine (ends_trivial _ _).bind (fun results w' _ => ?_) fun _ _ _ => nofun
  exact ends_ite (fun hgo => ends_pure (hnext (Bool.and_eq_true_iff.1 hgo).2))
    fun _ => ends_pure nofun

/-- A turn without results comes to the stage behind its group. -/
theorem precedes_of_goesOn {stage next : Stage} {w w' : σ} (h : r.GoesOn (stage, w) (next, w')) :
    r.Precedes stage next := by
  have hends : Ends (r.turn stage) w fun out _ =>
      ∀ next, out = .ok (.inr next) → r.Precedes stage next := by
    cases hgroups : stage.groups with
    | nil =>
      rw [turn, hgroups]
      exact ends_pure nofun
    | cons group rest =>
      obtain ⟨rank, states⟩ := group
      rw [turn, hgroups]
      refine (ends_trivial _ _).bind (fun cancelled _ _ => ?_) fun _ _ _ => nofun
      cases cancelled with
      | true => exact ends_throw nofun
      | false =>
        refine (ends_trivial _ _).bind (fun answers _ _ => ?_) fun _ _ _ => nofun
        refine (ends_settle _ _ _ _ _).mono fun out _ hout next hnext => ?_
        obtain ⟨hvisited, hqueried, hrest, hgroups_lt, hqueries_lt, hne⟩ := hout next hnext
        exact {
          groups := ⟨rank, states, by rw [hgroups, hrest], hqueried⟩
          visited := hvisited
          visited_lt := hvisited ▸ hgroups_lt
          queried_lt := hqueried ▸ hqueries_lt
          groups_ne_nil := hrest ▸ hne }
  rw [Ends, GoesOn] at *
  rw [h] at hends
  exact hends next rfl

/-- Resolving ends the same way from every stage that it comes to. -/
theorem outcome_visitFrom_of_goesOn {here there : Stage × σ}
    (h : Relation.ReflTransGen r.GoesOn here there) :
    outcome (r.visitFrom here.1) here.2 = outcome (r.visitFrom there.1) there.2 := by
  induction h with
  | refl => rfl
  | tail _ hgoesOn ih => rw [ih, visitFrom_eq_turn, outcome_bind_of_ok hgoesOn]

theorem outcome_resolve (ranking : Ranking Interpretation) (w : σ) :
    outcome (r.resolve ranking) w =
      ((outcome (r.visitFrom (.start ranking)) w).1.map (·.entries),
        (outcome (r.visitFrom (.start ranking)) w).2) := by
  rw [resolve_eq_visitFrom, outcome_bind]
  rcases outcome (r.visitFrom (.start ranking)) w with ⟨_ | _, _⟩
  · rfl
  · rfl

/-! ## The last turn -/

/-- From any stage, resolving comes to a last turn and ends as that turn does. -/
theorem exists_last_turn (stage : Stage) (w : σ) :
    ∃ last w₁, Relation.ReflTransGen r.GoesOn (stage, w) (last, w₁) ∧
      ((∃ results w', outcome (r.turn last) w₁ = (.ok (.inl results), w') ∧
          outcome (r.visitFrom stage) w = (.ok results, w')) ∨
        ∃ e w', outcome (r.turn last) w₁ = (.error e, w') ∧
          outcome (r.visitFrom stage) w = (.error e, w')) := by
  -- the groups that are left become fewer with every turn
  induction hn : stage.groups.length generalizing stage w with
  | zero =>
    have hgroups : stage.groups = [] := List.eq_nil_of_length_eq_zero hn
    have hturn : outcome (r.turn stage) w = (.ok (.inl ∅), w) := by rw [turn, hgroups]; rfl
    refine ⟨stage, w, .refl, Or.inl ⟨∅, w, hturn, ?_⟩⟩
    rw [visitFrom_eq_turn, outcome_bind_of_ok hturn]
    rfl
  | succ n ih =>
    rcases hturn : outcome (r.turn stage) w with ⟨e | results | next, w'⟩
    · refine ⟨stage, w, .refl, Or.inr ⟨e, w', hturn, ?_⟩⟩
      rw [visitFrom_eq_turn, outcome_bind_of_error hturn]
    · refine ⟨stage, w, .refl, Or.inl ⟨results, w', hturn, ?_⟩⟩
      rw [visitFrom_eq_turn, outcome_bind_of_ok hturn]
      rfl
    · have hgoesOn : r.GoesOn (stage, w) (next, w') := hturn
      obtain ⟨rank, states, hgroups, -⟩ := (precedes_of_goesOn hgoesOn).groups
      have hlength : next.groups.length = n := by simpa [hgroups] using hn
      obtain ⟨last, w₁, hreaches, hlast⟩ := ih next w' hlength
      have hvisit : outcome (r.visitFrom stage) w = outcome (r.visitFrom next) w' := by
        rw [visitFrom_eq_turn, outcome_bind_of_ok hturn]
      rw [hvisit]
      exact ⟨last, w₁, .head hgoesOn hreaches, hlast⟩

end Resolver

end Geocoding
