import Geocoding.Proofs.Gazetteer
import Mathlib.Data.List.Infix
import Mathlib.Logic.Relation

/-!
# Ancestors of places

Which gazetteers make an atlas (`Atlas.exists_ofGazetteer_iff`): those whose places have ids of
their own, and in which every walk from a place or a postcode up to its parent, the parent of that
and so on stays within the gazetteer and comes to an end soon enough (`Gazetteer.Ascends`). In such
a gazetteer no place is its own ancestor (`Gazetteer.Ascends.nodup`), and the atlas knows of every
place what it should (`Atlas.Knows`).
-/

namespace Geocoding

/-! ## Walks to the top -/

namespace Gazetteer

/-- From a parent on, these are the ancestors, nearest first, up to a place without a parent. -/
inductive Ascends (g : Gazetteer) : Option Nat → List Nat → Prop
  | top : Ascends g none []
  | step {p : PlaceRecord} {ids : List Nat} (hp : p ∈ g.places) (rest : Ascends g p.parent ids) :
      Ascends g (some p.id) (p.id :: ids)

/-- The way up comes to an end, after at most 32 places. -/
def Ends (g : Gazetteer) (parent : Option Nat) : Prop :=
  ∃ ids, g.Ascends parent ids ∧ ids.length ≤ 32

/-- The second place is the parent of the first one. -/
def HasParent (g : Gazetteer) (p q : PlaceRecord) : Prop :=
  p ∈ g.places ∧ q ∈ g.places ∧ p.parent = some q.id

/-- The gazetteer is one that an atlas can be made of. -/
structure IsSound (g : Gazetteer) : Prop where
  distinct : (g.places.map (·.id)).Nodup
  places : ∀ p ∈ g.places, g.Ends p.parent
  postcodes : ∀ p ∈ g.postcodes, g.Ends p.parent
  ranges : ∀ r ∈ g.interpolations ++ g.parcels, ∃ p ∈ g.places, p.id = r.parent

variable {g : Gazetteer} {parent : Option Nat} {ids ids' : List Nat} {id : Nat}

theorem ascends_none_iff : g.Ascends none ids ↔ ids = [] := by
  constructor
  · rintro ⟨⟩
    rfl
  · rintro rfl
    exact .top

theorem ascends_some_iff :
    g.Ascends (some id) ids ↔ ∃ p ∈ g.places, p.id = id ∧
      ∃ rest, ids = id :: rest ∧ g.Ascends p.parent rest := by
  constructor
  · intro h
    generalize hid : some id = parent at h
    cases h with
    | top => cases hid
    | @step p rest hp hrest =>
      obtain rfl := Option.some.inj hid
      exact ⟨p, hp, rfl, rest, rfl, hrest⟩
  · rintro ⟨p, hp, rfl, rest, rfl, hrest⟩
    exact .step hp hrest

section

variable (hdistinct : (g.places.map (·.id)).Nodup)

include hdistinct

theorem eq_of_id_eq {p q : PlaceRecord} (hp : p ∈ g.places) (hq : q ∈ g.places)
    (hid : p.id = q.id) : p = q :=
  List.inj_on_of_nodup_map hdistinct hp hq hid

/-- There is one way up. -/
theorem Ascends.eq (h : g.Ascends parent ids) (h' : g.Ascends parent ids') : ids = ids' := by
  induction h generalizing ids' with
  | top =>
    cases h'
    rfl
  | @step p ids hp rest ih =>
    obtain ⟨q, hq, hid, rest', rfl, hrest'⟩ := ascends_some_iff.1 h'
    obtain rfl := eq_of_id_eq hdistinct hq hp hid
    rw [ih hrest']

end

/-- The way up from an ancestor is the rest of the way. -/
theorem Ascends.exists_suffix (h : g.Ascends parent ids) (hid : id ∈ ids) :
    ∃ later, g.Ascends (some id) (id :: later) ∧ id :: later <:+ ids := by
  induction h with
  | top => cases hid
  | @step p ids hp rest ih =>
    rcases List.mem_cons.1 hid with rfl | hid
    · exact ⟨ids, .step hp rest, List.suffix_refl _⟩
    · obtain ⟨later, hlater, hsuffix⟩ := ih hid
      exact ⟨later, hlater, hsuffix.trans (List.suffix_cons _ _)⟩

/-- Nothing occurs twice on the way up: from there on the way would be the same again, and yet
shorter. -/
theorem Ascends.nodup (hdistinct : (g.places.map (·.id)).Nodup) (h : g.Ascends parent ids) :
    ids.Nodup := by
  induction h with
  | top => exact .nil
  | @step p ids hp rest ih =>
    refine List.nodup_cons.2 ⟨fun hid => ?_, ih⟩
    obtain ⟨later, hlater, hsuffix⟩ := rest.exists_suffix hid
    have hsame : p.id :: ids = p.id :: later := Ascends.eq hdistinct (.step hp rest) hlater
    obtain rfl := (List.cons.inj hsame).2
    exact absurd hsuffix.length_le (by simp)

/-- The way up from a place with a parent begins with the parent. -/
theorem Ascends.of_hasParent (hdistinct : (g.places.map (·.id)).Nodup) {p q : PlaceRecord}
    (hparent : g.HasParent p q) (h : g.Ascends p.parent ids) :
    ∃ rest, ids = q.id :: rest ∧ g.Ascends q.parent rest := by
  obtain ⟨-, hq, heq⟩ := hparent
  rw [heq] at h
  obtain ⟨r, hr, hid, rest, rfl, hrest⟩ := ascends_some_iff.1 h
  obtain rfl := eq_of_id_eq hdistinct hr hq hid
  exact ⟨rest, rfl, hrest⟩

/-- All ancestors are on the way up. -/
theorem Ascends.mem_of_transGen (hdistinct : (g.places.map (·.id)).Nodup) {p q : PlaceRecord}
    (hq : Relation.TransGen g.HasParent p q) (h : g.Ascends p.parent ids) : q.id ∈ ids := by
  induction hq using Relation.TransGen.head_induction_on generalizing ids with
  | single hparent =>
    obtain ⟨rest, rfl, -⟩ := h.of_hasParent hdistinct hparent
    exact List.mem_cons_self
  | head hparent _ ih =>
    obtain ⟨rest, rfl, hrest⟩ := h.of_hasParent hdistinct hparent
    exact List.mem_cons_of_mem _ (ih hrest)

/-- A place from which there is a way up is no ancestor of its own. -/
theorem Ascends.not_transGen_self (hdistinct : (g.places.map (·.id)).Nodup) {p : PlaceRecord}
    (hp : p ∈ g.places) (h : g.Ascends p.parent ids) : ¬ Relation.TransGen g.HasParent p p :=
  fun hcycle => (List.nodup_cons.1 (Ascends.nodup hdistinct (.step hp h))).1
    (h.mem_of_transGen hdistinct hcycle)

end Gazetteer

/-! ## Rules for construction -/

section

variable {ε α β : Type} {x : Except ε α}

theorem exists_bind_eq_ok_iff {f : α → Except ε β} :
    (∃ b, x >>= f = .ok b) ↔ ∃ a, x = .ok a ∧ ∃ b, f a = .ok b := by
  cases x with
  | error e => simp [bind, Except.bind]
  | ok a => simp [bind, Except.bind]

/-- If what comes next succeeds for all results or for none, success of both parts is needed. -/
theorem exists_bind_eq_ok_iff_and {f : α → Except ε β} {succeeds : Prop}
    (hf : ∀ a, (∃ b, f a = .ok b) ↔ succeeds) :
    (∃ b, x >>= f = .ok b) ↔ (∃ a, x = .ok a) ∧ succeeds := by
  simp only [exists_bind_eq_ok_iff, hf, exists_and_right]

theorem exists_mapM_eq_ok_iff {f : α → Except ε β} {xs : List α} :
    (∃ ys, xs.mapM f = .ok ys) ↔ ∀ x ∈ xs, ∃ y, f x = .ok y := by
  induction xs with
  | nil => exact iff_of_true ⟨[], rfl⟩ nofun
  | cons x xs ih =>
    rw [List.mapM_cons, List.forall_mem_cons, ← ih]
    exact exists_bind_eq_ok_iff_and fun _ =>
      (exists_bind_eq_ok_iff_and fun _ => iff_true_intro ⟨_, rfl⟩).trans (iff_of_eq (and_true _))

theorem exists_mem_of_forall₂ {r : α → β → Prop} {xs : List α} {ys : List β}
    (h : List.Forall₂ r xs ys) : ∀ x ∈ xs, ∃ y ∈ ys, r x y := by
  induction h with
  | nil => exact nofun
  | cons hxy _ ih =>
    refine List.forall_mem_cons.2 ⟨⟨_, List.mem_cons_self, hxy⟩, fun x hx => ?_⟩
    obtain ⟨y, hy, hxy⟩ := ih x hx
    exact ⟨y, List.mem_cons_of_mem _ hy, hxy⟩

theorem exists_forM_eq_ok_iff {f : α → Except ε Unit} {xs : List α} :
    (∃ u, xs.forM f = .ok u) ↔ ∀ x ∈ xs, ∃ u, f x = .ok u := by
  induction xs with
  | nil => exact iff_of_true ⟨(), rfl⟩ nofun
  | cons x xs ih =>
    rw [List.forM_eq_forM] at ih ⊢
    rw [List.forM_cons, List.forall_mem_cons, ← ih]
    exact exists_bind_eq_ok_iff_and fun _ => Iff.rfl

end

namespace Atlas

variable {g : Gazetteer} {a : Atlas} {v : Vocabulary} {id n : Nat} {parent : Option Nat}
  {ids : List Nat}

/-! ## Walking up -/

theorem duplicate?_eq_none_iff {places : List PlaceRecord}
    (hsorted : places.Pairwise (·.id ≤ ·.id)) :
    duplicate? places = none ↔ (places.map (·.id)).Nodup := by
  constructor
  · intro h
    exact List.pairwise_map.2 ((pairwise_lt_of_duplicate? hsorted h).imp Nat.ne_of_lt)
  · intro h
    induction places with
    | nil => rfl
    | cons p rest ih =>
      obtain ⟨hp, hrest⟩ := List.nodup_cons.1 h
      cases rest with
      | nil => rfl
      | cons q rest =>
        have hne : p.id ≠ q.id := fun heq => hp (by simp [heq])
        rw [duplicate?, if_neg hne]
        exact ih (List.pairwise_cons.1 hsorted).2 hrest

theorem duplicate?_byId_eq_none_iff :
    duplicate? (byId g.places) = none ↔ (g.places.map (·.id)).Nodup := by
  rw [duplicate?_eq_none_iff (pairwise_byId _)]
  exact ((List.mergeSort_perm _ _).map _).nodup_iff

section

variable (hdistinct : (g.places.map (·.id)).Nodup)

include hdistinct

theorem record?_byId_eq_some_iff {p : PlaceRecord} :
    record? (byId g.places) id = some p ↔ p ∈ g.places ∧ p.id = id := by
  have hmem {q : PlaceRecord} : q ∈ byId g.places ↔ q ∈ g.places :=
    (List.mergeSort_perm _ _).mem_iff
  constructor
  · intro h
    exact ⟨hmem.1 (List.mem_of_find?_eq_some h), by simpa using List.find?_some h⟩
  · rintro ⟨hp, rfl⟩
    have hsome : (record? (byId g.places) p.id).isSome = true :=
      List.find?_isSome.2 ⟨p, hmem.2 hp, decide_eq_true rfl⟩
    obtain ⟨q, hq⟩ := Option.isSome_iff_exists.1 hsome
    have hid : q.id = p.id := by simpa using List.find?_some hq
    rw [hq, Gazetteer.eq_of_id_eq hdistinct (hmem.1 (List.mem_of_find?_eq_some hq)) hp hid]

/-- The walk comes to an end exactly if there is a way up of at most that length, and finds it. -/
theorem ancestors_eq_ok_iff : ancestors (byId g.places) id n parent = .ok ids ↔
    g.Ascends parent ids ∧ ids.length ≤ n := by
  induction n generalizing parent ids with
  | zero =>
    cases parent with
    | none => simp [ancestors, Gazetteer.ascends_none_iff, eq_comm]
    | some parent =>
      rw [ancestors]
      refine iff_of_false nofun ?_
      rintro ⟨h, hle⟩
      obtain ⟨p, -, -, rest, rfl, -⟩ := Gazetteer.ascends_some_iff.1 h
      exact absurd hle (by simp)
  | succ n ih =>
    cases parent with
    | none =>
      rw [ancestors, Gazetteer.ascends_none_iff]
      constructor
      · intro h
        obtain rfl := Except.ok.inj h
        exact ⟨rfl, Nat.zero_le _⟩
      · rintro ⟨rfl, -⟩
        rfl
    | some parent =>
      rw [ancestors, Gazetteer.ascends_some_iff]
      cases hrecord : record? (byId g.places) parent with
      | none =>
        refine iff_of_false nofun ?_
        rintro ⟨⟨p, hp, hid, -⟩, -⟩
        rw [(record?_byId_eq_some_iff hdistinct).2 ⟨hp, hid⟩] at hrecord
        cases hrecord
      | some p =>
        obtain ⟨hp, rfl⟩ := (record?_byId_eq_some_iff hdistinct).1 hrecord
        constructor
        · intro h
          obtain ⟨rest, hrest, h⟩ := exists_of_bind_eq_ok h
          obtain rfl := Except.ok.inj h
          obtain ⟨hascends, hle⟩ := ih.1 hrest
          exact ⟨⟨p, hp, rfl, rest, rfl, hascends⟩, Nat.succ_le_succ hle⟩
        · rintro ⟨⟨q, hq, hid, rest, rfl, hrest⟩, hle⟩
          obtain rfl := Gazetteer.eq_of_id_eq hdistinct hq hp hid
          have hwalk : ancestors (byId g.places) id n q.parent = .ok rest :=
            ih.2 ⟨hrest, Nat.le_of_succ_le_succ hle⟩
          exact congrArg (· >>= _) hwalk

theorem exists_place_eq_ok_iff {p : PlaceRecord} :
    (∃ q, place v (byId g.places) p = .ok q) ↔ g.Ends p.parent := by
  rw [place, exists_bind_eq_ok_iff]
  exact exists_congr fun _ => by
    rw [ancestors_eq_ok_iff hdistinct, and_iff_left ⟨_, rfl⟩, maxAncestors]

theorem exists_postcode_eq_ok_iff {p : PostcodeRecord} :
    (∃ q, postcode v (byId g.places) p = .ok q) ↔ g.Ends p.parent := by
  rw [postcode, exists_bind_eq_ok_iff]
  exact exists_congr fun _ => by
    rw [ancestors_eq_ok_iff hdistinct, and_iff_left ⟨_, rfl⟩, maxAncestors]

theorem exists_checkRange_eq_ok_iff {r : AddressRange} :
    (∃ u, checkRange (byId g.places) r = .ok u) ↔ ∃ p ∈ g.places, p.id = r.parent := by
  have hknown : (record? (byId g.places) r.parent).isSome = true ↔
      ∃ p ∈ g.places, p.id = r.parent := by
    rw [Option.isSome_iff_exists]
    exact exists_congr fun _ => record?_byId_eq_some_iff hdistinct
  rw [checkRange, ← hknown]
  split <;> simp [*]

end

/-- The atlas is made unless something is wrong with the gazetteer. -/
theorem exists_ofGazetteer_iff : (∃ a, ofGazetteer g = .ok a) ↔ g.IsSound := by
  by_cases hdistinct : (g.places.map (·.id)).Nodup
  · have hmem {p : PlaceRecord} : p ∈ byId g.places ↔ p ∈ g.places :=
      (List.mergeSort_perm _ _).mem_iff
    have hparts : (∃ a, ofGazetteer g = .ok a) ↔ (∀ p ∈ g.places, g.Ends p.parent) ∧
        (∀ p ∈ g.postcodes, g.Ends p.parent) ∧
        ∀ r ∈ g.interpolations ++ g.parcels, ∃ p ∈ g.places, p.id = r.parent := by
      rw [ofGazetteer, build, duplicate?_byId_eq_none_iff.2 hdistinct]
      refine (exists_bind_eq_ok_iff_and fun _ => exists_bind_eq_ok_iff_and fun _ =>
        exists_bind_eq_ok_iff_and fun _ => iff_true_intro ⟨_, rfl⟩).trans ?_
      rw [exists_mapM_eq_ok_iff, exists_mapM_eq_ok_iff, exists_forM_eq_ok_iff, and_true]
      simp only [hmem, exists_place_eq_ok_iff hdistinct, exists_postcode_eq_ok_iff hdistinct,
        exists_checkRange_eq_ok_iff hdistinct]
    rw [hparts]
    constructor
    · rintro ⟨hplaces, hpostcodes, hranges⟩
      exact ⟨hdistinct, hplaces, hpostcodes, hranges⟩
    · intro h
      exact ⟨h.places, h.postcodes, h.ranges⟩
  · refine iff_of_false ?_ fun h => hdistinct h.distinct
    rintro ⟨a, ha⟩
    exact hdistinct (duplicate?_byId_eq_none_iff.1 (places_of_build ha).1)

/-! ## What an atlas knows -/

/-- The place that the atlas finds by the id of a place of the gazetteer is that place, with the way
up from it and the names on the way. -/
structure Knows (a : Atlas) (g : Gazetteer) (p : PlaceRecord) (q : AtlasPlace) : Prop where
  found : a.place? p.id = some q
  record : q.record = p
  ancestors : g.Ascends p.parent q.ancestors
  nodup : (p.id :: q.ancestors).Nodup
  addressTerms : ∀ term, term ∈ q.addressTerms ↔
    ∃ id ∈ q.ancestors, ∃ x, a.place? id = some x ∧ term ∈ x.nameTerms

theorem mem_addressTerms_iff {places : List PlaceRecord} {term : Nat} :
    term ∈ addressTerms v places ids ↔
      ∃ id ∈ ids, ∃ x, record? places id = some x ∧ term ∈ nameTerms v x := by
  have hfold (xs : List PlaceRecord) (s : TermSet) :
      term ∈ xs.foldl (fun terms p => terms ∪ nameTerms v p) s ↔
        term ∈ s ∨ ∃ x ∈ xs, term ∈ nameTerms v x := by
    induction xs generalizing s with
    | nil => simp
    | cons x xs ih =>
      rw [List.foldl_cons, ih, TermSet.mem_union, or_assoc, List.exists_mem_cons_iff]
  rw [addressTerms, hfold, or_iff_right TermSet.not_mem_empty]
  simp only [List.mem_filterMap]
  constructor
  · rintro ⟨x, ⟨id, hid, hx⟩, hterm⟩
    exact ⟨id, hid, x, hx, hterm⟩
  · rintro ⟨id, hid, x, hx, hterm⟩
    exact ⟨x, ⟨id, hid, hx⟩, hterm⟩

/-- The record of an id has the names of the place of that id. -/
theorem Represents.exists_mem_nameTerms_iff (h : a.Represents g) {term : Nat} :
    (∃ x, record? (byId g.places) id = some x ∧ term ∈ Atlas.nameTerms (.ofGazetteer g) x) ↔
      ∃ x, a.place? id = some x ∧ term ∈ x.nameTerms := by
  constructor
  · rintro ⟨x, hx, hterm⟩
    obtain ⟨hmem, rfl⟩ := (record?_byId_eq_some_iff h.nodup_ids).1 hx
    obtain ⟨q, hq, rfl⟩ := List.mem_map.1 (h.records.mem_iff.2 hmem)
    exact ⟨q, h.place?_eq_some hq, (h.nameTerms q hq).symm ▸ hterm⟩
  · rintro ⟨q, hq, hterm⟩
    obtain ⟨hmem, rfl⟩ := Atlas.place?_eq_some hq
    have hrecord : q.record ∈ g.places := h.records.mem_iff.1 (List.mem_map_of_mem hmem)
    exact ⟨q.record, (record?_byId_eq_some_iff h.nodup_ids).2 ⟨hrecord, rfl⟩,
      h.nameTerms q hmem ▸ hterm⟩

theorem exists_knows (h : ofGazetteer g = .ok a) {p : PlaceRecord} (hp : p ∈ g.places) :
    ∃ q, a.Knows g p q := by
  have hrepresents := represents_of_ofGazetteer h
  have hdistinct := hrepresents.nodup_ids
  have hmem : p ∈ byId g.places := (List.mergeSort_perm _ _).mem_iff.2 hp
  obtain ⟨q, hq, hplace⟩ :=
    exists_mem_of_forall₂ (forall₂_of_mapM (places_of_build h).2) p hmem
  obtain ⟨ids, hids, hplace⟩ := exists_of_bind_eq_ok hplace
  obtain ⟨hascends, -⟩ := (ancestors_eq_ok_iff hdistinct).1 hids
  obtain rfl := Except.ok.inj hplace
  exact ⟨_, {
    found := hrepresents.place?_eq_some hq
    record := rfl
    ancestors := hascends
    nodup := Gazetteer.Ascends.nodup hdistinct (.step hp hascends)
    addressTerms := fun term => mem_addressTerms_iff.trans (exists_congr fun id =>
      and_congr_right' hrepresents.exists_mem_nameTerms_iff) }⟩

/-- A gazetteer makes an atlas exactly if it is sound. If a place is its own ancestor, there is no
atlas, and an atlas knows of each place what the gazetteer says. -/
theorem exists_ofGazetteer_iff_and_exists_knows (g : Gazetteer) :
    ((∃ a, ofGazetteer g = .ok a) ↔ g.IsSound) ∧
      (∀ p, Relation.TransGen g.HasParent p p → ∃ e, ofGazetteer g = .error e) ∧
      ∀ a, ofGazetteer g = .ok a → ∀ p ∈ g.places, ∃ q, a.Knows g p q := by
  refine ⟨exists_ofGazetteer_iff, fun p hcycle => ?_, fun a h p hp => exists_knows h hp⟩
  cases h : ofGazetteer g with
  | error e => exact ⟨e, rfl⟩
  | ok a =>
    have hsound := exists_ofGazetteer_iff.1 ⟨a, h⟩
    have hp : p ∈ g.places := by
      obtain ⟨q, hparent, -⟩ := Relation.TransGen.head'_iff.1 hcycle
      exact hparent.1
    obtain ⟨ids, hascends, -⟩ := hsound.places p hp
    exact absurd hcycle (hascends.not_transGen_self hsound.distinct hp)

/-- A place of which little is known. -/
def placeIn (parent : Option Nat) (id : Nat) (name : String) : PlaceRecord where
  id := id
  names := [name]
  placeType := ⟨"place", "locality"⟩
  addressRank := 20
  ownSearchRank := none
  country := none
  parent := parent
  postcode := none
  houseNumber := none
  location := ⟨50, 7⟩
  line := none
  area := none
  importance := 0

/-- A quarter of a town in a valley. -/
def valley : Gazetteer where
  places := [placeIn none 7 "Ahrtal", placeIn (some 7) 3 "Altenahr", placeIn (some 3) 5 "Altenburg"]

/-- Two places in each other. -/
def nested : Gazetteer where
  places := [placeIn (some 2) 1 "Huhn", placeIn (some 1) 2 "Ei"]

/-- The atlas of the valley knows the way up from the quarter, and there is no atlas of the two
places in each other. -/
theorem valley_known_and_nested_refused :
    (∃ a q, ofGazetteer valley = .ok a ∧ a.Knows valley (placeIn (some 3) 5 "Altenburg") q ∧
      q.ancestors = [3, 7]) ∧ ∃ e, ofGazetteer nested = .error e := by
  obtain ⟨hmade, -, hknows⟩ := exists_ofGazetteer_iff_and_exists_knows valley
  obtain ⟨-, hrefused, -⟩ := exists_ofGazetteer_iff_and_exists_knows nested
  have htop : valley.Ascends (some 7) [7] :=
    .step (p := placeIn none 7 "Ahrtal") (by simp [valley]) .top
  have htown : valley.Ascends (some 3) [3, 7] :=
    .step (p := placeIn (some 7) 3 "Altenahr") (by simp [valley]) htop
  have hsound : valley.IsSound := {
    distinct := by decide
    places := by
      intro p hp
      simp only [valley, List.mem_cons, List.not_mem_nil, or_false] at hp
      rcases hp with rfl | rfl | rfl
      · exact ⟨[], .top, by decide⟩
      · exact ⟨[7], htop, by decide⟩
      · exact ⟨[3, 7], htown, by decide⟩
    postcodes := nofun
    ranges := nofun }
  constructor
  · obtain ⟨a, ha⟩ := hmade.2 hsound
    obtain ⟨q, hq⟩ := hknows a ha (placeIn (some 3) 5 "Altenburg") (by simp [valley])
    exact ⟨a, q, ha, hq, hq.ancestors.eq hsound.distinct htown⟩
  · have hfirst : nested.HasParent (placeIn (some 2) 1 "Huhn") (placeIn (some 1) 2 "Ei") :=
      ⟨by simp [nested], by simp [nested], rfl⟩
    have hsecond : nested.HasParent (placeIn (some 1) 2 "Ei") (placeIn (some 2) 1 "Huhn") :=
      ⟨by simp [nested], by simp [nested], rfl⟩
    exact hrefused _ (.head hfirst (.single hsecond))

end Atlas

end Geocoding
