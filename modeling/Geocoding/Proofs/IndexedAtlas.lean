import Geocoding.Atlas.Indexed
import Geocoding.Proofs.Gazetteer
import Geocoding.Proofs.IndexedCandidates
import Geocoding.Proofs.Registry

/-!
# Finding places by their positions

The table of an `IndexedAtlas` tells where each id stands (`IndexedAtlas.Locates`), so it finds what
a search through all records finds. Hence a gazetteer makes an atlas with a table exactly if it
makes one without, or it is refused for the same reason, and both atlases have the same places
(`IndexedAtlas.map_toAtlas_ofGazetteer`) and find the same ones (`IndexedAtlas.place?_eq`).
-/

namespace Geocoding

namespace IndexedAtlas

/-- The table tells where each of some distinct ids stands. -/
def Locates (positions : Std.HashMap Nat Nat) (ids : List Nat) : Prop :=
  ∀ id pos : Nat, positions[id]? = some pos ↔ ids[pos]? = some id

variable {positions table : Std.HashMap Nat Nat} {records : List PlaceRecord} {id pos : Nat}

theorem locates_empty : Locates ∅ [] := by
  simp [Locates]

theorem Locates.contains_iff {ids : List Nat} (h : Locates positions ids) :
    positions.contains id = true ↔ id ∈ ids := by
  rw [Std.HashMap.contains_eq_isSome_getElem?, Option.isSome_iff_exists, List.mem_iff_getElem?]
  exact exists_congr fun pos => h id pos

theorem Locates.insert {ids : List Nat} (h : Locates positions ids) (hid : id ∉ ids) :
    Locates (positions.insert id ids.length) (ids ++ [id]) := by
  intro id' pos
  rw [getElem?_concat_eq_some_iff, Std.HashMap.getElem?_insert]
  by_cases heq : id = id'
  · subst heq
    have hnot : ids[pos]? ≠ some id := fun hpos => hid (List.mem_of_getElem? hpos)
    simp [hnot, eq_comm]
  · simp [heq, h id' pos]

/-- The table leads to what a search for the id finds. -/
theorem Locates.bind_getElem? {α : Type} {key : α → Nat} {xs : List α}
    (h : Locates positions (xs.map key)) (id : Nat) :
    positions[id]?.bind (xs[·]?) = xs.find? (key · = id) := by
  have hpos (pos : Nat) : positions[id]? = some pos ↔ ∃ x, xs[pos]? = some x ∧ key x = id := by
    rw [h id pos, List.getElem?_map, Option.map_eq_some_iff]
  cases hfind : xs.find? (key · = id) with
  | none =>
    have hnone : positions[id]? = none := by
      refine Option.eq_none_iff_forall_ne_some.2 fun pos hsome => ?_
      obtain ⟨x, hx, hkey⟩ := (hpos pos).1 hsome
      exact List.find?_eq_none.1 hfind x (List.mem_of_getElem? hx) (decide_eq_true hkey)
    rw [hnone, Option.bind_none]
  | some x =>
    obtain ⟨pos, hx⟩ := List.getElem?_of_mem (List.mem_of_find?_eq_some hfind)
    have hkey : key x = id := by simpa using List.find?_some hfind
    rw [(hpos pos).2 ⟨x, hx, hkey⟩, Option.bind_some, hx]

/-! ## The table of positions -/

theorem locates_of_enterPositions {ids : List Nat} (h : Locates positions ids)
    (htable : enterPositions positions ids.length records = .ok table) :
    Locates table (ids ++ records.map (·.id)) := by
  induction records generalizing positions ids with
  | nil =>
    obtain rfl := Except.ok.inj htable
    simpa using h
  | cons p rest ih =>
    rw [enterPositions] at htable
    split at htable
    · exact nomatch htable
    · next hnew =>
      have hp : p.id ∉ ids := fun hmem => hnew (h.contains_iff.2 hmem)
      have hlength : (ids ++ [p.id]).length = ids.length + 1 := by simp
      rw [List.map_cons, ← List.singleton_append, ← List.append_assoc]
      exact ih (h.insert hp) (hlength ▸ htable)

/-- An id that is there twice is found where it occurs again, right behind the first time. -/
theorem enterPositions_eq {ids : List Nat} (h : Locates positions ids)
    (hbelow : ∀ id ∈ ids, ∀ p ∈ records, id < p.id) (hsorted : records.Pairwise (·.id ≤ ·.id)) :
    match Atlas.duplicate? records with
    | some id => enterPositions positions ids.length records = .error (.duplicatePlace id)
    | none => ∃ table, enterPositions positions ids.length records = .ok table := by
  induction records generalizing positions ids with
  | nil => exact ⟨positions, rfl⟩
  | cons p rest ih =>
    obtain ⟨hp, hrest⟩ := List.pairwise_cons.1 hsorted
    have hnew : p.id ∉ ids := fun hmem =>
      Nat.lt_irrefl _ (hbelow p.id hmem p List.mem_cons_self)
    have hcons : enterPositions positions ids.length (p :: rest) =
        enterPositions (positions.insert p.id ids.length) (ids ++ [p.id]).length rest := by
      rw [enterPositions, if_neg (mt h.contains_iff.1 hnew), List.length_append,
        List.length_singleton]
    rw [hcons]
    cases rest with
    | nil => exact ⟨_, rfl⟩
    | cons q rest =>
      by_cases hsame : p.id = q.id
      · have hmem : q.id ∈ ids ++ [p.id] := by simp [hsame]
        rw [Atlas.duplicate?, if_pos hsame]
        exact if_pos ((h.insert hnew).contains_iff.2 hmem)
      · rw [Atlas.duplicate?, if_neg hsame]
        refine ih (h.insert hnew) (fun id hid r hr => ?_) hrest
        rcases List.mem_append.1 hid with hid | hid
        · exact hbelow id hid r (List.mem_cons_of_mem p hr)
        · obtain rfl := List.mem_singleton.1 hid
          have hpq : p.id < q.id := Nat.lt_of_le_of_ne (hp q List.mem_cons_self) hsame
          rcases List.mem_cons.1 hr with rfl | hr
          · exact hpq
          · exact Nat.lt_of_lt_of_le hpq ((List.pairwise_cons.1 hrest).1 r hr)

/-! ## Surroundings -/

section

variable (h : Locates positions (records.map (·.id)))

include h

/-- Where the table has no position there is no record, and otherwise the record stands there. -/
theorem record?_eq_of_getElem? (id : Nat) :
    (positions[id]? = none ∧ Atlas.record? records id = none) ∨
      ∃ pos p, positions[id]? = some pos ∧ records[pos]? = some p ∧
        Atlas.record? records id = some p := by
  have hrecord : positions[id]?.bind (records[·]?) = Atlas.record? records id := h.bind_getElem? id
  cases hpos : positions[id]? with
  | none =>
    rw [hpos, Option.bind_none] at hrecord
    exact Or.inl ⟨rfl, hrecord.symm⟩
  | some pos =>
    have hid := (h id pos).1 hpos
    rw [List.getElem?_map, Option.map_eq_some_iff] at hid
    obtain ⟨p, hp, -⟩ := hid
    rw [hpos, Option.bind_some, hp] at hrecord
    exact Or.inr ⟨pos, p, rfl, hp, hrecord.symm⟩

/-- The walk by the table takes the steps of the walk through the records. -/
theorem ancestors_eq (id : Nat) (chain : List Nat) (next : Option Nat) :
    ancestors positions records id chain next =
      (Atlas.ancestors records id (Atlas.maxAncestors - chain.length) next).map (chain ++ ·) := by
  -- the number of steps that are left goes down as the chain gets longer
  generalize hn : Atlas.maxAncestors - chain.length = n
  induction n generalizing chain next with
  | zero =>
    rw [ancestors.eq_def]
    cases next with
    | none => simp [Atlas.ancestors, Except.map]
    | some parent => simp [Atlas.ancestors, Except.map, Nat.le_of_sub_eq_zero hn]
  | succ n ih =>
    have hshort : ¬ Atlas.maxAncestors ≤ chain.length := by omega
    rw [ancestors.eq_def]
    cases next with
    | none => simp [Atlas.ancestors, Except.map]
    | some parent =>
      rcases record?_eq_of_getElem? h parent with ⟨hpos, hrecord⟩ | ⟨pos, p, hpos, hp, hrecord⟩
      · simp [Atlas.ancestors, hshort, hpos, hrecord, Except.map]
      · have hlength : Atlas.maxAncestors - (chain ++ [parent]).length = n := by
          rw [List.length_append, List.length_singleton]
          omega
        have hrest := ih (chain ++ [parent]) p.parent hlength
        simp only [if_neg hshort, hpos, hp, Option.bind_some, hrest, Atlas.ancestors, hrecord]
        cases Atlas.ancestors records id n p.parent with
        | error e => rfl
        | ok rest => simp [Except.map, bind, Except.bind, pure, Except.pure]

theorem ancestors_nil (id : Nat) (next : Option Nat) :
    ancestors positions records id [] next =
      Atlas.ancestors records id Atlas.maxAncestors next := by
  rw [ancestors_eq h, List.length_nil, Nat.sub_zero]
  cases Atlas.ancestors records id Atlas.maxAncestors next <;> rfl

/-- The terms at the position of a place are those of its names. -/
theorem addressTerms_eq (nameTerms : PlaceRecord → TermSet) (ids : List Nat) :
    addressTerms positions (records.map nameTerms) ids =
      (ids.filterMap (Atlas.record? records)).foldl (fun terms p => terms ∪ nameTerms p) ∅ := by
  have hfold (all : TermSet) : (ids.filterMap (positions[·]?)).foldl
      (fun all pos => all ∪ (records.map nameTerms).getD pos ∅) all =
        (ids.filterMap (Atlas.record? records)).foldl (fun all p => all ∪ nameTerms p) all := by
    induction ids generalizing all with
    | nil => rfl
    | cons id ids ih =>
      rcases record?_eq_of_getElem? h id with ⟨hpos, hrecord⟩ | ⟨pos, p, hpos, hp, hrecord⟩
      · rw [List.filterMap_cons_none hpos, List.filterMap_cons_none hrecord, ih]
      · have hterms : (records.map nameTerms).getD pos ∅ = nameTerms p := by simp [hp]
        rw [List.filterMap_cons_some hpos, List.filterMap_cons_some hrecord, List.foldl_cons,
          List.foldl_cons, hterms, ih]
  exact hfold ∅

end

/-! ## The same atlas -/

theorem nameTerms_ofGazetteer (g : Gazetteer) (p : PlaceRecord) :
    nameTerms (.ofGazetteer g) p = Atlas.nameTerms (.ofGazetteer g) p := by
  have hnumber : (p.houseNumber.bind fun number =>
      (Registry.ofGazetteer g).houseNumberId? (normalize number)) =
        p.houseNumber.bind fun number =>
          (Vocabulary.ofGazetteer g).id? .houseNumber (normalize number) := by
    simp only [Registry.houseNumberId?_ofGazetteer]
  have hnames : (Registry.ofGazetteer g).nameTerms = (Vocabulary.ofGazetteer g).nameTerms :=
    funext (Registry.nameTerms_ofGazetteer g)
  rw [nameTerms, hnumber, hnames, Atlas.nameTerms, TermSet.ofList, TermSet.ofList,
    List.foldl_append]
  cases p.houseNumber.bind fun number =>
    (Vocabulary.ofGazetteer g).id? .houseNumber (normalize number) <;> rfl

section

variable {g : Gazetteer} (h : Locates positions (records.map (·.id)))

include h

theorem place_eq (p : PlaceRecord) :
    place positions records (records.map (Atlas.nameTerms (.ofGazetteer g))) p
      (Atlas.nameTerms (.ofGazetteer g) p) = Atlas.place (.ofGazetteer g) records p := by
  simp only [place, ancestors_nil h, addressTerms_eq h]
  rfl

theorem postcode_eq (p : PostcodeRecord) :
    postcode positions records (records.map (Atlas.nameTerms (.ofGazetteer g))) p =
      Atlas.postcode (.ofGazetteer g) records p := by
  simp only [postcode, ancestors_nil h, addressTerms_eq h]
  rfl

theorem checkRange_eq (r : AddressRange) : checkRange positions r = Atlas.checkRange records r := by
  rcases record?_eq_of_getElem? h r.parent with ⟨hpos, hrecord⟩ | ⟨pos, p, hpos, hp, hrecord⟩
  · simp [checkRange, Atlas.checkRange, Std.HashMap.contains_eq_isSome_getElem?, hpos, hrecord]
  · simp [checkRange, Atlas.checkRange, Std.HashMap.contains_eq_isSome_getElem?, hpos, hrecord]

theorem mapM_place_eq : ((records.zip (records.map (Atlas.nameTerms (.ofGazetteer g)))).mapM
    fun p => place positions records (records.map (Atlas.nameTerms (.ofGazetteer g))) p.1 p.2) =
      records.mapM (Atlas.place (.ofGazetteer g) records) := by
  rw [← List.map_prod_left_eq_zip, List.mapM_map]
  exact congrArg (List.mapM · records) (funext (place_eq h))

end

/-- The same atlas is built with a table and without, or the same error is found. -/
theorem map_toAtlas_ofGazetteer (g : Gazetteer) :
    (ofGazetteer g).map (·.toAtlas) = Atlas.ofGazetteer g := by
  have hterms : nameTerms (.ofGazetteer g) = Atlas.nameTerms (.ofGazetteer g) :=
    funext (nameTerms_ofGazetteer g)
  have htable := enterPositions_eq locates_empty (by simp) (Atlas.pairwise_byId g.places)
  rw [ofGazetteer, build, Atlas.ofGazetteer, Atlas.build, hterms]
  cases hduplicate : Atlas.duplicate? (Atlas.byId g.places) with
  | some id =>
    rw [hduplicate] at htable
    have herror : enterPositions ∅ 0 (Atlas.byId g.places) = .error (.duplicatePlace id) := htable
    rw [herror]
    rfl
  | none =>
    rw [hduplicate] at htable
    obtain ⟨positions, hpositions⟩ := htable
    have hok : enterPositions ∅ 0 (Atlas.byId g.places) = .ok positions := hpositions
    have h : Locates positions ((Atlas.byId g.places).map (·.id)) :=
      locates_of_enterPositions locates_empty hpositions
    have hbind {α : Type} (f : Std.HashMap Nat Nat → Except AtlasError α) :
        Except.ok positions >>= f = f positions := rfl
    simp only [hok, hbind, mapM_place_eq h, funext (postcode_eq h), funext (checkRange_eq h)]
    cases (Atlas.byId g.places).mapM (Atlas.place (.ofGazetteer g) (Atlas.byId g.places)) with
    | error e => rfl
    | ok places =>
      cases g.postcodes.mapM (Atlas.postcode (.ofGazetteer g) (Atlas.byId g.places)) with
      | error e => rfl
      | ok postcodes =>
        cases (g.interpolations ++ g.parcels).forM (Atlas.checkRange (Atlas.byId g.places)) <;> rfl

/-- The table of an atlas tells where the places stand. -/
theorem locates_of_ofGazetteer {g : Gazetteer} {a : IndexedAtlas} (h : ofGazetteer g = .ok a) :
    Locates a.positions (a.places.map (·.id)) := by
  have hatlas : Atlas.ofGazetteer g = .ok a.toAtlas := by
    rw [← map_toAtlas_ofGazetteer, h]
    rfl
  have hrecords := (Atlas.nameTerms_and_records_of_build hatlas).2
  obtain ⟨positions, hpositions, h⟩ := exists_of_bind_eq_ok h
  obtain ⟨places, -, h⟩ := exists_of_bind_eq_ok h
  obtain ⟨postcodes, -, h⟩ := exists_of_bind_eq_ok h
  obtain ⟨-, -, h⟩ := exists_of_bind_eq_ok h
  obtain rfl := Except.ok.inj h
  have hids : places.map (·.id) = (Atlas.byId g.places).map (·.id) := by
    rw [← hrecords, List.map_map]
    rfl
  rw [hids]
  exact locates_of_enterPositions locates_empty hpositions

/-- Both atlases find the same place by an id. -/
theorem place?_eq {g : Gazetteer} {a : IndexedAtlas} (h : ofGazetteer g = .ok a) (id : Nat) :
    a.place? id = a.toAtlas.place? id :=
  (locates_of_ofGazetteer h).bind_getElem? id

end IndexedAtlas

end Geocoding
