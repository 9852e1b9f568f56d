import Geocoding.Proofs.Turns
import Mathlib.Data.List.ModifyLast

/-!
# Lookups on record

A resolver can be made to keep a record of the interpretations that it looks up, a batch for each
group that it visits (`Resolver.recorded`). The record is a part of the world, and resolving never
looks at it: with the record or without, it has the same outcome (`Resolver.records_resolve`).

What a turn adds to the record is a batch, namely the first interpretations of its group: all that
are to be looked up, or those up to the first lookup that fails (`Resolver.exists_batch_of_turn`).
-/

namespace Geocoding

/-- A world with a record of the interpretations that were looked up, group by group. -/
structure Recorded (σ : Type) where
  batches : List (List Interpretation) := []
  world : σ

namespace Recorded

variable {σ α : Type}

/-- The record with an empty batch for one more group. -/
def nextGroup (R : Recorded σ) : Recorded σ :=
  { R with batches := R.batches ++ [[]] }

/-- The record with one more lookup for the last group. -/
def note (s : Interpretation) (R : Recorded σ) : Recorded σ :=
  { R with batches := R.batches.modifyLast (· ++ [s]) }

/-- A computation beside the record. -/
def aside (x : StateM σ α) : StateM (Recorded σ) α := fun R =>
  let (a, world) := x R.world
  (a, { R with world })

end Recorded

namespace Resolver

open Recorded (aside)

variable {σ ε ε' α β : Type} {r : Resolver (StateM σ)}

/-- The resolver with a record of its lookups. A group is visited if resolving is not cancelled
before it. -/
def recorded (r : Resolver (StateM σ)) : Resolver (StateM (Recorded σ)) where
  limits := r.limits
  scope := r.scope
  lookup s := do
    modify (Recorded.note s)
    ExceptT.mk (aside (r.lookup s).run)
  withRanks source ids := ExceptT.mk (aside (r.withRanks source ids).run)
  isCancelled := fun R =>
    let (cancelled, world) := r.isCancelled R.world
    (cancelled, if cancelled then { R with world } else { R.nextGroup with world })

theorem outcome_lookup_recorded (s : Interpretation) (R : Recorded σ) :
    outcome (ResolveM.ofIndex (r.recorded.lookup s)) R =
      ((outcome (ResolveM.ofIndex (r.lookup s)) R.world).1,
        { R.note s with world := (outcome (ResolveM.ofIndex (r.lookup s)) R.world).2 }) := rfl

theorem outcome_isCancelled_recorded (R : Recorded σ) :
    outcome (liftM r.recorded.isCancelled : ResolveM (StateM (Recorded σ)) Bool) R =
      (.ok (r.isCancelled R.world).1,
        if (r.isCancelled R.world).1 then { R with world := (r.isCancelled R.world).2 }
        else { R.nextGroup with world := (r.isCancelled R.world).2 }) := rfl

/-! ## The record does not matter -/

/-- With a record or without, the computations end alike. -/
def Records (x : ExceptT ε (StateM (Recorded σ)) α) (y : ExceptT ε (StateM σ) α) : Prop :=
  ∀ R, ((outcome x R).1, (outcome x R).2.world) = outcome y R.world

section

variable {x : ExceptT ε (StateM (Recorded σ)) α} {y : ExceptT ε (StateM σ) α}

theorem records_pure (a : α) : Records (pure a : ExceptT ε (StateM (Recorded σ)) α) (pure a) :=
  fun _ => rfl

theorem records_throw (e : ε) :
    Records (throw e : ExceptT ε (StateM (Recorded σ)) α) (throw e) :=
  fun _ => rfl

theorem records_aside (y : ExceptT ε (StateM σ) α) : Records (ExceptT.mk (aside y.run)) y :=
  fun _ => rfl

theorem Records.bind {f : α → ExceptT ε (StateM (Recorded σ)) β} {g : α → ExceptT ε (StateM σ) β}
    (h : Records x y) (hfg : ∀ a, Records (f a) (g a)) : Records (x >>= f) (y >>= g) := by
  intro R
  rw [outcome_bind, outcome_bind, ← h R]
  rcases outcome x R with ⟨_ | a, R'⟩
  · rfl
  · exact hfg a R'

theorem Records.adapt (h : Records x y) (f : ε → ε') : Records (x.adapt f) (y.adapt f) := by
  intro R
  rw [outcome_adapt, outcome_adapt, ← h R]

theorem records_ite {p : Prop} [Decidable p] {x' : ExceptT ε (StateM (Recorded σ)) α}
    {y' : ExceptT ε (StateM σ) α} (h : Records x y) (h' : Records x' y') :
    Records (if p then x else x') (if p then y else y') := by
  split
  · exact h
  · exact h'

theorem records_mapM {γ : Type} {f : γ → ExceptT ε (StateM (Recorded σ)) α}
    {g : γ → ExceptT ε (StateM σ) α} (hfg : ∀ c, Records (f c) (g c)) (cs : List γ) :
    Records (cs.mapM f) (cs.mapM g) := by
  induction cs with
  | nil => exact records_pure []
  | cons c cs ih =>
    rw [List.mapM_cons, List.mapM_cons]
    exact (hfg c).bind fun a => ih.bind fun as => records_pure (a :: as)

end

theorem records_lookup (s : Interpretation) :
    Records (ResolveM.ofIndex (r.recorded.lookup s)) (ResolveM.ofIndex (r.lookup s)) :=
  fun _ => rfl

theorem records_isCancelled :
    Records (liftM r.recorded.isCancelled : ResolveM (StateM (Recorded σ)) Bool)
      (liftM r.isCancelled) := by
  intro R
  rw [outcome_isCancelled_recorded, outcome_liftM]
  split
  · rfl
  · rfl

theorem records_acceptedIn (found : CandidateSet) (source : Source) :
    Records (r.recorded.acceptedIn found source) (r.acceptedIn found source) :=
  records_ite (records_pure [])
    (((records_aside _).adapt _).bind fun kept => records_pure (kept.map (source, ·)))

theorem records_inScope (found : CandidateSet) :
    Records (r.recorded.inScope found) (r.inScope found) := by
  refine records_ite (records_pure found) ?_
  refine (records_acceptedIn found .primary).bind fun primary => ?_
  exact (records_acceptedIn found .postcode).bind fun postcodes => records_pure _

theorem records_visit (visited queried : Nat) (kept : CandidateSet)
    (groups : List (Nat × List Interpretation)) :
    Records (r.recorded.visit visited queried kept groups)
      (r.visit visited queried kept groups) := by
  induction groups generalizing visited queried kept with
  | nil => exact records_pure ∅
  | cons group rest ih =>
    rw [visit, visit]
    refine records_isCancelled.bind fun cancelled => ?_
    cases cancelled with
    | true => exact records_throw _
    | false =>
      refine (records_mapM records_lookup _).bind fun answers => ?_
      refine records_ite (ih _ _ _) ?_
      exact (records_inScope _).bind fun results => records_ite (ih _ _ _) (records_pure results)

/-- Keeping a record changes nothing else. -/
theorem records_resolve (ranking : Ranking Interpretation) :
    Records (r.recorded.resolve ranking) (r.resolve ranking) :=
  (records_visit 0 0 ∅ ranking.buckets).bind fun found => records_pure found.entries

/-! ## What is on record -/

/-- The computation leaves the record as it is. -/
def LeavesRecord (x : ExceptT ε (StateM (Recorded σ)) α) : Prop :=
  ∀ R, (outcome x R).2.batches = R.batches

section

variable {x : ExceptT ε (StateM (Recorded σ)) α}

theorem leavesRecord_pure (a : α) : LeavesRecord (pure a : ExceptT ε (StateM (Recorded σ)) α) :=
  fun _ => rfl

theorem leavesRecord_aside (y : ExceptT ε (StateM σ) α) :
    LeavesRecord (ExceptT.mk (aside y.run)) :=
  fun _ => rfl

theorem LeavesRecord.bind {f : α → ExceptT ε (StateM (Recorded σ)) β} (hx : LeavesRecord x)
    (hf : ∀ a, LeavesRecord (f a)) : LeavesRecord (x >>= f) := by
  intro R
  have hR := hx R
  rw [outcome_bind]
  rcases houtcome : outcome x R with ⟨_ | a, R'⟩
  · rwa [houtcome] at hR
  · rw [houtcome] at hR
    exact (hf a R').trans hR

theorem LeavesRecord.adapt (hx : LeavesRecord x) (f : ε → ε') : LeavesRecord (x.adapt f) :=
  hx

theorem leavesRecord_ite {p : Prop} [Decidable p] {y : ExceptT ε (StateM (Recorded σ)) α}
    (hx : LeavesRecord x) (hy : LeavesRecord y) : LeavesRecord (if p then x else y) := by
  split
  · exact hx
  · exact hy

end

theorem leavesRecord_inScope (found : CandidateSet) : LeavesRecord (r.recorded.inScope found) := by
  have haccepted (source : Source) : LeavesRecord (r.recorded.acceptedIn found source) :=
    leavesRecord_ite (leavesRecord_pure [])
      (((leavesRecord_aside _).adapt _).bind fun kept => leavesRecord_pure (kept.map (source, ·)))
  refine leavesRecord_ite (leavesRecord_pure found) ?_
  exact (haccepted .primary).bind fun primary => (haccepted .postcode).bind fun postcodes =>
    leavesRecord_pure _

theorem leavesRecord_settle (visited queried : Nat) (rest : List (Nat × List Interpretation))
    (found : CandidateSet) : LeavesRecord (r.recorded.settle visited queried rest found) :=
  leavesRecord_ite (leavesRecord_pure _) ((leavesRecord_inScope _).bind fun _ =>
    leavesRecord_ite (leavesRecord_pure _) (leavesRecord_pure _))

theorem not_exists_error_eq_ok {e : ε} : ¬ ∃ a : α, Except.error e = .ok a := by
  rintro ⟨a, h⟩
  cases h

/-- A batch is looked up in order, as far as the first lookup that fails. -/
theorem exists_noted_of_mapM (batch : List Interpretation) {R : Recorded σ}
    {before : List (List Interpretation)} {noted : List Interpretation}
    (hR : R.batches = before ++ [noted]) :
    Ends (batch.mapM fun s => ResolveM.ofIndex (r.recorded.lookup s)) R fun out R' =>
      ∃ more, more <+: batch ∧ (batch ≠ [] → more ≠ []) ∧
        R'.batches = before ++ [noted ++ more] ∧
        ((∃ answers, out = .ok answers) → more = batch) := by
  induction batch generalizing R noted with
  | nil => exact ends_pure ⟨[], List.prefix_refl [], id, by rw [hR, List.append_nil], fun _ => rfl⟩
  | cons s batch ih =>
    rw [List.mapM_cons]
    have hlookup : Ends (ResolveM.ofIndex (r.recorded.lookup s)) R fun _ R' =>
        R'.batches = before ++ [noted ++ [s]] := by
      rw [Ends, outcome_lookup_recorded]
      exact (congrArg _ hR).trans (List.modifyLast_concat _ _ _)
    refine hlookup.bind (fun answer R' hR' => ?_) fun e R' hR' => ?_
    · refine (ih hR').bind (fun answers R'' hmore => ends_pure ?_) fun e R'' hmore => ?_
      · obtain ⟨more, -, -, hbatches, hall⟩ := hmore
        obtain rfl := hall ⟨answers, rfl⟩
        exact ⟨s :: more, List.prefix_refl _, fun _ => List.cons_ne_nil _ _,
          by simpa using hbatches, fun _ => rfl⟩
      · obtain ⟨more, hprefix, -, hbatches, -⟩ := hmore
        exact ⟨s :: more, List.cons_prefix_cons.2 ⟨rfl, hprefix⟩, fun _ => List.cons_ne_nil _ _,
          by simpa using hbatches, not_exists_error_eq_ok.elim⟩
    · exact ⟨[s], List.cons_prefix_cons.2 ⟨rfl, List.nil_prefix⟩, fun _ => List.cons_ne_nil _ _,
        hR', not_exists_error_eq_ok.elim⟩

/-- A turn that is not cancelled puts a batch on record: the first interpretations of its group, and
all that are to be looked up unless it fails. -/
theorem exists_batch_of_turn {stage : Stage} {rank : Nat} {states : List Interpretation}
    {rest : List (Nat × List Interpretation)} (hgroups : stage.groups = (rank, states) :: rest)
    (R : Recorded σ) :
    Ends (r.recorded.turn stage) R fun out R' =>
      ((r.isCancelled R.world).1 = true ∧ out = .error .cancelled ∧ R'.batches = R.batches) ∨
        ∃ batch, batch <+: r.batch stage.queried states ∧
          (r.batch stage.queried states ≠ [] → batch ≠ []) ∧
          R'.batches = R.batches ++ [batch] ∧
          ((∃ next, out = .ok next) → batch = r.batch stage.queried states) := by
  have hcancelled : Ends
      (liftM r.recorded.isCancelled : ResolveM (StateM (Recorded σ)) Bool) R fun out R' =>
        out = .ok (r.isCancelled R.world).1 ∧
          R'.batches = if (r.isCancelled R.world).1 then R.batches else R.batches ++ [[]] := by
    rw [Ends, outcome_isCancelled_recorded]
    exact ⟨rfl, by split <;> rfl⟩
  rw [turn, hgroups]
  refine hcancelled.bind (fun cancelled R₁ h => ?_) fun e R₁ h =>
    not_exists_error_eq_ok.elim ⟨_, h.1⟩
  obtain ⟨hout, hR₁⟩ := h
  obtain rfl := Except.ok.inj hout
  cases hflag : (r.isCancelled R.world).1 with
  | true =>
    rw [hflag] at hR₁
    exact ends_throw (Or.inl ⟨rfl, rfl, hR₁⟩)
  | false =>
    rw [hflag] at hR₁
    refine (exists_noted_of_mapM (r.batch stage.queried states) hR₁).bind
      (fun answers R₂ h => ?_) fun e R₂ h => ?_
    · obtain ⟨batch, hprefix, hne, hR₂, hall⟩ := h
      obtain rfl := hall ⟨answers, rfl⟩
      refine Or.inr ⟨_, hprefix, hne, ?_, fun _ => rfl⟩
      exact (leavesRecord_settle _ _ _ _ R₂).trans hR₂
    · obtain ⟨batch, hprefix, hne, hR₂, -⟩ := h
      exact Or.inr ⟨batch, hprefix, hne, hR₂, not_exists_error_eq_ok.elim⟩

/-! ## The record grows -/

theorem prefix_of_turn (stage : Stage) (R : Recorded σ) :
    Ends (r.recorded.turn stage) R fun _ R' => R.batches <+: R'.batches := by
  cases hgroups : stage.groups with
  | nil =>
    rw [turn, hgroups]
    exact ends_pure (List.prefix_refl _)
  | cons group rest =>
    refine (exists_batch_of_turn hgroups R).mono fun _ R' h => ?_
    rcases h with ⟨-, -, hR'⟩ | ⟨batch, -, -, hR', -⟩
    · exact hR' ▸ List.prefix_refl _
    · exact hR' ▸ List.prefix_append _ _

theorem prefix_of_goesOn {here there : Stage × Recorded σ}
    (h : Relation.ReflTransGen r.recorded.GoesOn here there) :
    here.2.batches <+: there.2.batches := by
  induction h with
  | refl => exact List.prefix_refl _
  | @tail here there _ hstep ih =>
    have hturn := prefix_of_turn (r := r) here.1 here.2
    rw [Ends, hstep] at hturn
    exact ih.trans hturn

theorem prefix_of_visitFrom (stage : Stage) (R : Recorded σ) :
    Ends (r.recorded.visitFrom stage) R fun _ R' => R.batches <+: R'.batches := by
  obtain ⟨last, R₁, hreaches, hlast⟩ := exists_last_turn (r := r.recorded) stage R
  have hturn := prefix_of_turn (r := r) last R₁
  rw [Ends] at hturn ⊢
  rcases hlast with ⟨_, _, hout, hvisit⟩ | ⟨_, _, hout, hvisit⟩
  all_goals
    rw [hout] at hturn
    rw [hvisit]
    exact (prefix_of_goesOn hreaches).trans hturn

/-- What a turn puts on record stays there. -/
theorem prefix_of_turn_visitFrom (stage : Stage) (R : Recorded σ) :
    (outcome (r.recorded.turn stage) R).2.batches <+:
      (outcome (r.recorded.visitFrom stage) R).2.batches := by
  rw [visitFrom_eq_turn, outcome_bind]
  rcases outcome (r.recorded.turn stage) R with ⟨e | results | next, R'⟩
  · exact List.prefix_refl _
  · exact List.prefix_refl _
  · exact prefix_of_visitFrom next R'

end Resolver

end Geocoding
