import Geocoding.Proofs.Planning
import Geocoding.Proofs.Provenance

/-!
# Reading tokens one after the other

Interpretations grow by steps: a token that fits is read at a position, under some frequency
thresholds (`Interpretation.Step.Leads`). `Interpretation.Reads` says which interpretation a series
of steps leads to, be it one that planning would take or not: the positions may be any, in any
order, and the thresholds may change on the way.

What every step keeps, every series of steps keeps (`Interpretation.Reads.invariant`). A plan only
has interpretations that some series of steps leads to from a root, one step for every part of a
grouping of every phrase (`Planner.exists_takes_of_mem_plan`), and all that is planned for a request
is read from the root of its query (`Geocoder.exists_reads_of_plans`).
-/

namespace Geocoding

namespace Interpretation

/-- A token, and where and how it is read. -/
structure Step where
  token : Token
  position : Position
  thresholds : FrequencyThresholds

/-- The token fits, and the second interpretation is one of its readings from the first. -/
def Step.Leads (step : Step) (c : Constraints) (s t : Interpretation) : Prop :=
  step.token.fits c s step.position = true ∧
    t ∈ step.token.extend c step.thresholds s step.position

/-- The steps lead, one after the other, from the first interpretation to the second. -/
inductive Reads (c : Constraints) : Interpretation → List Step → Interpretation → Prop
  | done {s} : Reads c s [] s
  | step {s s' t step rest} (hstep : step.Leads c s s') (hrest : Reads c s' rest t) :
      Reads c s (step :: rest) t

section

variable {c : Constraints} {s s' t : Interpretation} {step : Step} {steps more : List Step}

theorem Step.Leads.extends (h : step.Leads c s t) :
    step.token.Extends c step.thresholds s step.position t :=
  Token.mem_extend_iff.1 h.2

theorem Reads.of_leads (h : step.Leads c s t) : Reads c s [step] t :=
  .step h .done

theorem Reads.append (h : Reads c s steps s') (hmore : Reads c s' more t) :
    Reads c s (steps ++ more) t := by
  induction h with
  | done => exact hmore
  | step hstep _ ih => exact .step hstep (ih hmore)

/-- What holds of the first interpretation and is kept by every single step holds of the last. -/
theorem Reads.invariant {P : Interpretation → Prop} (h : Reads c s steps t) (hs : P s)
    (hkeep : ∀ step ∈ steps, ∀ u v, step.Leads c u v → P u → P v) : P t := by
  induction h with
  | done => exact hs
  | step hstep _ ih =>
    obtain ⟨hfirst, hrest⟩ := List.forall_mem_cons.1 hkeep
    exact ih (hfirst _ _ hstep hs) hrest

end

end Interpretation

namespace Planner

open Interpretation (Reads Step)

/-! ## Planning takes such steps -/

section

variable (p : Planner) (table : TokenTable)

/-- The steps take one token for every part, the first of them at the position. -/
inductive TakesParts : Position → List String → List Step → Prop
  | done {pos} : TakesParts pos [] []
  | part {pos term rest token steps} (htoken : token ∈ table.get term)
      (hrest : TakesParts (nextPart pos) rest steps) :
      TakesParts pos (term :: rest) (⟨token, pos, p.thresholds⟩ :: steps)

/-- The steps take one token for every part of the groupings, which are one for every phrase. -/
inductive TakesPhrases (count : Nat) : Nat → List Phrase → List Grouping → List Step → Prop
  | done {index} : TakesPhrases count index [] [] []
  | phrase {index phrase rest grouping groupings steps more}
      (hgrouping : grouping ∈ phrase.groupings)
      (hparts : TakesParts p table (firstPart phrase index count grouping) grouping steps)
      (hrest : TakesPhrases count (index + 1) rest groupings more) :
      TakesPhrases count index (phrase :: rest) (grouping :: groupings) (steps ++ more)

/-- The steps are those of a derivation, from the first phrase on or, unless the query is
structured, from its end. -/
def Takes (phrases : List Phrase) (structured : Bool) (groupings : List Grouping)
    (steps : List Step) : Prop :=
  p.TakesPhrases table phrases.length 0 phrases groupings steps ∨
    structured = false ∧ p.TakesPhrases table (backwards phrases).length 0 (backwards phrases)
      groupings steps

end

variable {p : Planner} {table : TokenTable} {pos : Position} {parts : List String}
  {phrases : List Phrase} {groupings : List Grouping} {steps : List Step} {count index : Nat}
  {s t : Interpretation}

theorem exists_takesParts_of_readsParts (h : p.ReadsParts table pos parts s t) :
    ∃ steps, p.TakesParts table pos parts steps ∧ Reads p.constraints s steps t := by
  induction h with
  | done => exact ⟨[], .done, .done⟩
  | part hterm _ ih =>
    obtain ⟨token, htoken, hfits, hextends⟩ := hterm
    obtain ⟨steps, htakes, hreads⟩ := ih
    exact ⟨_, .part htoken htakes, .step ⟨hfits, hextends⟩ hreads⟩

theorem exists_takesPhrases_of_readsPhrases (h : p.ReadsPhrases table count index phrases s t) :
    ∃ groupings steps, p.TakesPhrases table count index phrases groupings steps ∧
      Reads p.constraints s steps t := by
  induction h with
  | done => exact ⟨[], [], .done, .done⟩
  | phrase hgrouping hparts _ ih =>
    obtain ⟨steps, htakes, hreads⟩ := exists_takesParts_of_readsParts hparts
    obtain ⟨groupings, more, hrest, hmore⟩ := ih
    exact ⟨_, _, .phrase hgrouping htakes hrest, hreads.append hmore⟩

/-- Every step is for the phrase of the position, and its token is one of some part. -/
theorem TakesParts.of_mem (h : p.TakesParts table pos parts steps) {step : Step}
    (hstep : step ∈ steps) :
    step.position.role = pos.role ∧ step.position.phrase = pos.phrase ∧
      ∃ part ∈ parts, step.token ∈ table.get part := by
  induction h with
  | done => exact absurd hstep List.not_mem_nil
  | part htoken _ ih =>
    rcases List.mem_cons.1 hstep with rfl | hstep
    · exact ⟨rfl, rfl, _, List.mem_cons_self, htoken⟩
    · obtain ⟨hrole, hphrase, part, hpart, hmem⟩ := ih hstep
      exact ⟨hrole, hphrase, part, List.mem_cons_of_mem _ hpart, hmem⟩

/-- Without tokens or without phrases, a plan has nothing but the roots. -/
theorem mem_roots_of_mem_plan {roots : List Interpretation} {structured : Bool}
    (hall : ¬ (table.isEmpty = false ∧ spoken phrases ≠ []))
    (h : s ∈ (p.plan phrases table roots structured).items) : s ∈ roots := by
  obtain ⟨rank, hpair⟩ := Ranking.mem_items.1 h
  rw [mem_toPairs_plan, passes_eq_rootsOnly hall] at hpair
  exact (mem_toPairs_rootsOnly.1 hpair).2.1

theorem exists_takes_of_mem_plan {roots : List Interpretation} {structured : Bool}
    (htable : table.isEmpty = false) (h : s ∈ (p.plan phrases table roots structured).items) :
    ∃ root ∈ roots, ∃ groupings steps, p.Takes table (spoken phrases) structured groupings steps ∧
      Reads p.constraints root steps s := by
  by_cases hphrases : spoken phrases = []
  · have htakes : p.Takes table (spoken phrases) structured [] [] := by
      rw [hphrases]
      exact Or.inl .done
    exact ⟨s, mem_roots_of_mem_plan (fun hall => hall.2 hphrases) h, [], [], htakes, .done⟩
  · obtain ⟨rank, hpair⟩ := Ranking.mem_items.1 h
    obtain ⟨-, -, -, hderives⟩ := wanted_of_mem_plan htable hphrases hpair
    rcases hderives with ⟨root, hroot, hread⟩ | ⟨hfree, root, hroot, hread⟩
    · obtain ⟨groupings, steps, htakes, hreads⟩ := exists_takesPhrases_of_readsPhrases hread
      exact ⟨root, hroot, groupings, steps, Or.inl htakes, hreads⟩
    · obtain ⟨groupings, steps, htakes, hreads⟩ := exists_takesPhrases_of_readsPhrases hread
      exact ⟨root, hroot, groupings, steps, Or.inr ⟨hfree, htakes⟩, hreads⟩

/-- Every interpretation of a plan is read from a root, by no step at all if there is nothing to
read. -/
theorem exists_reads_of_mem_plan {roots : List Interpretation} {structured : Bool}
    (h : s ∈ (p.plan phrases table roots structured).items) :
    ∃ root ∈ roots, ∃ steps, Reads p.constraints root steps s := by
  by_cases htable : table.isEmpty = false
  · obtain ⟨root, hroot, -, steps, -, hreads⟩ := exists_takes_of_mem_plan htable h
    exact ⟨root, hroot, steps, hreads⟩
  · exact ⟨s, mem_roots_of_mem_plan (fun hall => htable hall.1) h, [], .done⟩

end Planner

namespace Geocoder

open Interpretation (Reads Step)

variable {g : Geocoder Id} {r : SearchRequest} {c : Constraints}

theorem exists_reads_of_mem_rootsWith {root s : Interpretation} {tokens : List Token}
    (h : s ∈ g.rootsWith c root tokens) : ∃ steps, Reads c root steps s := by
  rw [rootsWith] at h
  split at h
  · obtain rfl := List.mem_singleton.1 h
    exact ⟨[], .done⟩
  · obtain ⟨token, htoken, hs⟩ := List.mem_flatMap.1 h
    have hstep : (Step.mk token specialPosition g.config.frequencies).Leads c root s :=
      ⟨(List.mem_filter.1 htoken).2, hs⟩
    exact ⟨_, .of_leads hstep⟩

/-- A phrase for a type of places in brackets is read first, if there is one. -/
theorem yields_roots (query : PreparedQuery) :
    Yields (g.roots c query) fun roots =>
      ∀ root ∈ roots, ∃ steps, Reads c query.root steps root := by
  rw [roots]
  split
  · refine yields_pure fun root hroot => ?_
    obtain rfl := List.mem_singleton.1 hroot
    exact ⟨[], .done⟩
  · refine (yields_trivial _).bind fun tokens _ => ?_
    exact yields_pure fun root hroot => exists_reads_of_mem_rootsWith hroot

/-- What is planned for a request is read from the root of its query. -/
theorem exists_reads_of_plans {s : Interpretation} (h : g.Plans r c s) :
    ∃ query steps, r.prepare = .ok query ∧ Reads c query.root steps s := by
  obtain ⟨query, phrases, table, roots, hquery, -, hroots, hs⟩ := exists_plan_of_plans h
  obtain ⟨root, hroot, steps, hsteps⟩ := Planner.exists_reads_of_mem_plan hs
  obtain ⟨first, hfirst⟩ := yields_roots query roots hroots root hroot
  exact ⟨query, first ++ steps, hquery, hfirst.append hsteps⟩

end Geocoder

end Geocoding
