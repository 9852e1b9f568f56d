import Geocoding.Proofs.Doubles
import Geocoding.Proofs.Gazetteer

/-!
# The most detailed area around a point

A reverse lookup asks the index for areas whose boxes cover the point and looks for one that
contains it. It finds the area of the highest address rank, or a place that is recorded as a point
within that area, close enough to the point and no farther away than any other such place
(`Locator.containingArea_of_few`). An index gives no more than a number of areas, so this holds as
long as there are no more boxes than that around the point.
-/

namespace Geocoding

/-! ## Areas and nodes of a gazetteer -/

namespace PlaceRecord

/-- A named place up to an address rank whose area has a box that covers the point. -/
def isBoxedAround (maxRank : Nat) (point : Point Float) (p : PlaceRecord) : Bool :=
  !p.names.isEmpty && (5 ≤ p.addressRank && p.addressRank ≤ maxRank) &&
    p.area.any fun area => area.bbox?.any (·.contains point)

/-- Not only the box around the area, but the area itself contains the point. -/
def isAround (maxRank : Nat) (point : Point Float) (p : PlaceRecord) : Bool :=
  p.isBoxedAround maxRank point && p.area.any (·.contains point)

theorem isBoxedAround_iff {maxRank : Nat} {point : Point Float} {p : PlaceRecord} :
    p.isBoxedAround maxRank point = true ↔
      (5 ≤ p.addressRank ∧ p.addressRank ≤ maxRank) ∧ p.names ≠ [] ∧
        ∃ area, p.area = some area ∧ ∃ box, area.bbox? = some box ∧ box.contains point = true := by
  simp only [isBoxedAround, Bool.and_eq_true, Bool.not_eq_true', List.isEmpty_eq_false_iff,
    decide_eq_true_eq, Option.any_eq_true, and_assoc, and_left_comm]

end PlaceRecord

namespace Gazetteer

/-- Of the places around the point, the one of the highest address rank, and among several of the
same rank the one of the lowest id. -/
structure IsMostDetailed (g : Gazetteer) (maxRank : Nat) (point : Point Float)
    (p : PlaceRecord) : Prop where
  mem : p ∈ g.places
  around : p.isAround maxRank point = true
  first : ∀ q ∈ g.places, q.isAround maxRank point = true →
    q.addressRank < p.addressRank ∨ q.addressRank = p.addressRank ∧ p.id ≤ q.id

/-- A place that is recorded as a point within the area, of a higher search rank, and that reaches
the point. -/
structure IsNodeIn (g : Gazetteer) (maxRank : Nat) (point : Point Float)
    (area node : PlaceRecord) : Prop where
  mem : node ∈ g.places
  isPlace : node.placeType.key = "place"
  noArea : node.area = none
  inside : area.area.any (·.contains node.location) = true
  addressRank : 0 < node.addressRank
  searchRank : area.searchRank < node.searchRank ∧ node.searchRank ≤ maxRank
  reaches : point.distance node.location ≤ placeReach node.searchRank

/-- The place is close to the point, for a place of the search rank of the area. -/
def IsNear (point : Point Float) (area node : PlaceRecord) : Prop :=
  point.distance node.location ≤ placeReach area.searchRank

/-- No other place in the area is closer to the point. -/
structure IsClosestNode (g : Gazetteer) (maxRank : Nat) (point : Point Float)
    (area node : PlaceRecord) : Prop where
  isNode : g.IsNodeIn maxRank point area node
  near : IsNear point area node
  closest : ∀ other, g.IsNodeIn maxRank point area other → IsNear point area other →
    ¬ point.distance other.location < point.distance node.location

end Gazetteer

/-! ## The first of a sorted list -/

theorem eq_or_of_find?_eq_some {α : Type} {r : α → α → Prop} {p : α → Bool} {xs : List α} {x y : α}
    (hsorted : xs.Pairwise r) (h : xs.find? p = some x) (hy : y ∈ xs) (hp : p y = true) :
    y = x ∨ r x y := by
  obtain ⟨-, before, after, rfl, hbefore⟩ := List.find?_eq_some_iff_append.1 h
  rcases List.mem_append.1 hy with hy | hy
  · exact absurd hp (by simpa using hbefore y hy)
  · obtain ⟨-, hsorted, -⟩ := List.pairwise_append.1 hsorted
    exact (List.mem_cons.1 hy).imp_right ((List.pairwise_cons.1 hsorted).1 y)

/-! ## Areas that an index gives -/

namespace AreaHit

/-- The area is that of the place. -/
structure IsOf (hit : AreaHit) (p : PlaceRecord) : Prop where
  id : hit.id = p.id
  addressRank : hit.addressRank = p.addressRank
  searchRank : hit.searchRank = p.searchRank
  area : p.area = some hit.area

theorem IsOf.isAround_iff {hit : AreaHit} {p : PlaceRecord} (hof : hit.IsOf p) {maxRank : Nat}
    {point : Point Float} : p.isAround maxRank point = true ↔
      p.isBoxedAround maxRank point = true ∧ hit.area.contains point = true := by
  rw [PlaceRecord.isAround, hof.area, Bool.and_eq_true]
  rfl

/-- The first area has a higher address rank, or the same one and no higher id. -/
def Precedes (x y : AreaHit) : Prop :=
  y.addressRank < x.addressRank ∨ y.addressRank = x.addressRank ∧ x.id ≤ y.id

theorem precedes_iff {x y : AreaHit} :
    ((compare y.addressRank x.addressRank).then (compare x.id y.id)).isLE = true ↔
      x.Precedes y := by
  rw [Ordering.isLE_then_iff_or, Nat.compare_eq_lt, Nat.compare_eq_eq, Nat.isLE_compare, Precedes]

end AreaHit

namespace Atlas

variable {g : Gazetteer} {a : Atlas} {maxRank : Nat} {point : Point Float} {hit : AreaHit}

/-- The areas whose boxes cover the point, in the order of their places. -/
def boxesAround (a : Atlas) (maxRank : Nat) (point : Point Float) : List AreaHit :=
  (a.places.filter fun p =>
    5 ≤ p.record.addressRank && p.record.addressRank ≤ maxRank).filterMap (areaHit? point)

theorem areasAround_eq (limit : Nat) : a.areasAround point 5 maxRank limit =
    ((a.boxesAround maxRank point).mergeSort fun x y =>
      ((compare y.addressRank x.addressRank).then (compare x.id y.id)).isLE).take limit :=
  rfl

theorem areaHit?_eq_some_iff {p : AtlasPlace} :
    areaHit? point p = some hit ↔ hit.IsOf p.record ∧ p.record.names ≠ [] ∧
      ∃ area, p.record.area = some area ∧
        ∃ box, area.bbox? = some box ∧ box.contains point = true := by
  simp only [areaHit?, bind, Option.bind_eq_some_iff]
  constructor
  · rintro ⟨area, harea, box, hbox, h⟩
    split at h
    · next hfits =>
      obtain rfl := Option.some.inj h
      simp only [Bool.and_eq_true, Bool.not_eq_true', List.isEmpty_eq_false_iff] at hfits
      exact ⟨⟨rfl, rfl, rfl, harea⟩, hfits.1, area, harea, box, hbox, hfits.2⟩
    · cases h
  · rintro ⟨⟨hid, haddress, hsearch, hsame⟩, hnames, area, harea, box, hbox, hcontains⟩
    obtain rfl : area = hit.area := Option.some.inj (harea.symm.trans hsame)
    refine ⟨_, hsame, box, hbox, ?_⟩
    rw [if_pos (by simp [hnames, hcontains]), AtlasPlace.id, ← hid, ← haddress, ← hsearch]

theorem mem_boxesAround_iff (h : a.Represents g) : hit ∈ a.boxesAround maxRank point ↔
    ∃ p ∈ g.places, p.isBoxedAround maxRank point = true ∧ hit.IsOf p := by
  simp only [boxesAround, List.mem_filterMap, List.mem_filter, Bool.and_eq_true, decide_eq_true_eq,
    areaHit?_eq_some_iff, PlaceRecord.isBoxedAround_iff]
  constructor
  · rintro ⟨p, ⟨hp, hranks⟩, hof, hbox⟩
    exact ⟨p.record, h.records.mem_iff.1 (List.mem_map_of_mem hp), ⟨hranks, hbox⟩, hof⟩
  · rintro ⟨p, hp, ⟨hranks, hbox⟩, hof⟩
    obtain ⟨q, hq, rfl⟩ := List.mem_map.1 (h.records.mem_iff.2 hp)
    exact ⟨q, ⟨hq, hranks⟩, hof, hbox⟩

theorem length_boxesAround (h : a.Represents g) : (a.boxesAround maxRank point).length =
    g.places.countP (·.isBoxedAround maxRank point) := by
  have hsome (p : AtlasPlace) : (areaHit? point p).isSome = true ↔ p.record.names ≠ [] ∧
      ∃ area, p.record.area = some area ∧
        ∃ box, area.bbox? = some box ∧ box.contains point = true := by
    simp only [Option.isSome_iff_exists, areaHit?_eq_some_iff, exists_and_right]
    refine and_iff_right_of_imp ?_
    rintro ⟨-, area, harea, -⟩
    exact ⟨⟨p.id, p.record.addressRank, p.record.searchRank, area⟩, rfl, rfl, rfl, harea⟩
  rw [boxesAround, List.length_filterMap_eq_countP, List.countP_filter, ← h.records.countP_eq,
    List.countP_map]
  refine List.countP_congr fun p _ => ?_
  rw [Function.comp_apply, PlaceRecord.isBoxedAround_iff, Bool.and_eq_true, hsome,
    Bool.and_eq_true, decide_eq_true_eq, decide_eq_true_eq, and_comm]

theorem pairwise_areasAround (a : Atlas) (point : Point Float) (maxRank limit : Nat) :
    (a.areasAround point 5 maxRank limit).Pairwise AreaHit.Precedes := by
  rw [areasAround_eq]
  refine List.Pairwise.sublist (List.take_sublist _ _) ?_
  refine (List.pairwise_mergeSort ?_ ?_ _).imp fun h => AreaHit.precedes_iff.1 h
  · simp only [AreaHit.precedes_iff, AreaHit.Precedes]
    omega
  · simp only [Bool.or_eq_true, AreaHit.precedes_iff, AreaHit.Precedes]
    omega

/-- All areas are given if there are few of them. -/
theorem mem_areasAround_iff (h : a.Represents g) {limit : Nat}
    (hfew : g.places.countP (·.isBoxedAround maxRank point) ≤ limit) :
    hit ∈ a.areasAround point 5 maxRank limit ↔
      ∃ p ∈ g.places, p.isBoxedAround maxRank point = true ∧ hit.IsOf p := by
  rw [areasAround_eq, List.take_of_length_le, List.mem_mergeSort, mem_boxesAround_iff h]
  rw [List.length_mergeSort, length_boxesAround h]
  exact hfew

end Atlas

namespace Locator

variable {g : Gazetteer} {a : Atlas} {maxRank : Nat} {point : Point Float} {hit : AreaHit}

/-- The areas come in the order in which they are tried. -/
theorem byDetail_areasAround (a : Atlas) (point : Point Float) (maxRank limit : Nat) :
    byDetail (a.areasAround point 5 maxRank limit) = a.areasAround point 5 maxRank limit := by
  refine List.mergeSort_of_pairwise ((a.pairwise_areasAround point maxRank limit).imp ?_)
  intro x y h
  rw [AreaHit.Precedes] at h
  simp only [decide_eq_true_eq]
  omega

section

variable (h : a.Represents g) (hfew : g.places.countP (·.isBoxedAround maxRank point) ≤ areaLimit)

include h hfew

/-- A place around the point is among the areas of the index. -/
theorem exists_mem_areasAround {p : PlaceRecord} (hp : p ∈ g.places)
    (haround : p.isAround maxRank point = true) :
    ∃ hit ∈ a.areasAround point 5 maxRank areaLimit, hit.IsOf p ∧
      hit.area.contains point = true := by
  have hbox : p.isBoxedAround maxRank point = true := (Bool.and_eq_true_iff.1 haround).1
  obtain ⟨-, -, area, harea, -⟩ := PlaceRecord.isBoxedAround_iff.1 hbox
  have hof : AreaHit.IsOf ⟨p.id, p.addressRank, p.searchRank, area⟩ p := ⟨rfl, rfl, rfl, harea⟩
  exact ⟨_, (Atlas.mem_areasAround_iff h hfew).2 ⟨p, hp, hbox, hof⟩, hof,
    (hof.isAround_iff.1 haround).2⟩

theorem find?_areasAround_eq_none_iff :
    (a.areasAround point 5 maxRank areaLimit).find? (·.area.contains point) = none ↔
      ∀ p ∈ g.places, p.isAround maxRank point = false := by
  rw [List.find?_eq_none]
  constructor
  · intro hnone p hp
    refine Bool.eq_false_iff.2 fun haround => ?_
    obtain ⟨hit, hmem, -, hcontains⟩ := exists_mem_areasAround h hfew hp haround
    exact hnone hit hmem hcontains
  · intro hnone hit hmem hcontains
    obtain ⟨p, hp, hbox, hof⟩ := (Atlas.mem_areasAround_iff h hfew).1 hmem
    exact Bool.false_ne_true ((hnone p hp).symm.trans (hof.isAround_iff.2 ⟨hbox, hcontains⟩))

theorem exists_isMostDetailed
    (hfirst : (a.areasAround point 5 maxRank areaLimit).find? (·.area.contains point) = some hit) :
    ∃ p, g.IsMostDetailed maxRank point p ∧ hit.IsOf p := by
  obtain ⟨p, hp, hbox, hof⟩ :=
    (Atlas.mem_areasAround_iff h hfew).1 (List.mem_of_find?_eq_some hfirst)
  have hcontains := List.find?_some hfirst
  refine ⟨p, ⟨hp, hof.isAround_iff.2 ⟨hbox, hcontains⟩, fun q hq haround => ?_⟩, hof⟩
  obtain ⟨other, hmem, hother, hinside⟩ := exists_mem_areasAround h hfew hq haround
  have hsorted := a.pairwise_areasAround point maxRank areaLimit
  rcases eq_or_of_find?_eq_some hsorted hfirst hmem hinside with rfl | hprecedes
  · exact Or.inr ⟨hother.addressRank.symm.trans hof.addressRank,
      Nat.le_of_eq (hof.id.symm.trans hother.id)⟩
  · rwa [AreaHit.Precedes, hother.addressRank, hof.addressRank, hother.id, hof.id] at hprecedes

end

/-! ## Nodes in an area -/

/-- The node of a place with its distance from the point. -/
def nodeOf (point : Point Float) (p : PlaceRecord) : PlaceNode × Float :=
  (⟨p.id, p.searchRank, p.addressRank, p.location⟩, point.distance p.location)

/-- The nodes in an area that reach the point. -/
def nodesIn (a : Atlas) (point : Point Float) (maxRank : Nat) (hit : AreaHit) :
    List (PlaceNode × Float) :=
  ((a.placeNodes {
    point, radius := placeReach hit.searchRank, minRank := hit.searchRank + 1, maxRank }).filter
      fun n => 0 < n.addressRank && hit.area.contains n.location).filterMap (reaching? point)

/-- The node that takes the place of the area. -/
def closestNode? (a : Atlas) (point : Point Float) (maxRank : Nat) (hit : AreaHit) :
    Option (PlaceNode × Float) :=
  if hit.addressRank ≠ maxRank && hit.searchRank < maxRank then
    best? closer (nodesIn a point maxRank hit)
  else none

theorem nodeInArea_eq {l : Locator Id} (hl : l.index = a.reverseIndex) :
    l.nodeInArea point maxRank hit = pure ((closestNode? a point maxRank hit).map ofNode) := by
  rw [nodeInArea, closestNode?, hl]
  split <;> rfl

theorem reaching?_eq_some_iff {n : PlaceNode} {node : PlaceNode × Float} :
    reaching? point n = some node ↔ point.distance n.location ≤ placeReach n.searchRank ∧
      node = (n, point.distance n.location) := by
  rw [reaching?]
  split
  · next hreaches => rw [Option.some_inj, eq_comm, and_iff_right hreaches]
  · next hreaches => exact iff_of_false nofun fun h => hreaches h.1

theorem mem_nodesIn_iff (h : a.Represents g) {p : PlaceRecord} (hof : hit.IsOf p)
    {node : PlaceNode × Float} : node ∈ nodesIn a point maxRank hit ↔
      ∃ q, g.IsNodeIn maxRank point p q ∧ Gazetteer.IsNear point p q ∧ node = nodeOf point q := by
  simp only [nodesIn, Atlas.placeNodes, List.mem_filterMap, List.mem_filter, List.mem_map,
    reaching?_eq_some_iff, Atlas.isNode, Bool.and_eq_true, decide_eq_true_eq,
    Option.isNone_iff_eq_none, Option.all_none, and_true]
  constructor
  · rintro ⟨n, ⟨⟨q, ⟨hq, ⟨hplace, hmin, hmax⟩, hnear⟩, rfl⟩, hrank, hinside⟩, hreaches, rfl⟩
    obtain ⟨hplace, harea⟩ := hplace
    refine ⟨q.record, ⟨h.records.mem_iff.1 (List.mem_map_of_mem hq), hplace, harea, ?_, hrank,
      ⟨?_, hmax⟩, hreaches⟩, ?_, rfl⟩
    · rw [hof.area]
      exact hinside
    · rw [← hof.searchRank]
      exact hmin
    · rw [Gazetteer.IsNear, Point.distance_comm, ← hof.searchRank]
      exact hnear
  · rintro ⟨q, hnode, hnear, rfl⟩
    obtain ⟨q, hq, rfl⟩ := List.mem_map.1 (h.records.mem_iff.2 hnode.mem)
    have hinside := hnode.inside
    rw [hof.area] at hinside
    rw [Gazetteer.IsNear, Point.distance_comm, ← hof.searchRank] at hnear
    have hrank := hnode.searchRank.1
    rw [← hof.searchRank] at hrank
    exact ⟨_, ⟨⟨q, ⟨hq, ⟨⟨hnode.isPlace, hnode.noArea⟩, hrank, hnode.searchRank.2⟩, hnear⟩, rfl⟩,
      hnode.addressRank, hinside⟩, hnode.reaches, rfl⟩

theorem isNumber_of_mem_nodesIn {node : PlaceNode × Float}
    (h : node ∈ nodesIn a point maxRank hit) : Double.IsNumber node.2 := by
  obtain ⟨n, -, hn⟩ := List.mem_filterMap.1 h
  obtain ⟨hreaches, rfl⟩ := reaching?_eq_some_iff.1 hn
  exact Double.isNumber_of_le hreaches

section

variable {x y : PlaceNode × Float} (hx : Double.IsNumber x.2) (hy : Double.IsNumber y.2)

include hx hy

theorem key_le_of_closer (h : closer x y = true) : Double.key x.2 ≤ Double.key y.2 := by
  simp only [closer, Bool.or_eq_true, Bool.and_eq_true, Bool.not_eq_true', decide_eq_true_eq,
    decide_eq_false_iff_not, Double.lt_iff hx hy, Double.lt_iff hy hx] at h
  rcases h with h | ⟨h, -⟩
  · exact h.le
  · exact not_lt.1 h

theorem key_le_of_not_closer (h : closer x y = false) : Double.key y.2 ≤ Double.key x.2 := by
  simp only [closer, Bool.or_eq_false_iff, decide_eq_false_iff_not, Double.lt_iff hx hy] at h
  exact not_lt.1 h.1

end

/-- Only in an area below the greatest rank is a node found, and it is the closest one. -/
theorem isClosestNode_of_closestNode? (h : a.Represents g) {p : PlaceRecord} (hof : hit.IsOf p)
    {node : PlaceNode × Float} (hfound : closestNode? a point maxRank hit = some node) :
    p.addressRank ≠ maxRank ∧ ∃ q, g.IsClosestNode maxRank point p q ∧ node = nodeOf point q := by
  rw [closestNode?] at hfound
  split at hfound
  · next hdetail =>
    simp only [Bool.and_eq_true, decide_eq_true_eq] at hdetail
    have hmem := mem_of_best?_eq_some hfound
    obtain ⟨q, hq, hnear, rfl⟩ := (mem_nodesIn_iff h hof).1 hmem
    refine ⟨hof.addressRank ▸ hdetail.1, q, ⟨hq, hnear, fun other hother hothernear hlt => ?_⟩, rfl⟩
    have hothermem := (mem_nodesIn_iff h hof).2 ⟨other, hother, hothernear, rfl⟩
    have hle : Double.key (nodeOf point q).2 ≤ Double.key (nodeOf point other).2 :=
      key_le_of_best?_eq_some (fun x y => key_le_of_closer) (fun x y => key_le_of_not_closer)
        (fun _ => isNumber_of_mem_nodesIn) hfound _ hothermem
    exact hle.not_gt
      ((Double.lt_iff (isNumber_of_mem_nodesIn hothermem) (isNumber_of_mem_nodesIn hmem)).1 hlt)
  · cases hfound

/-- If no node is found, the area is of the greatest rank, or there is none in it near the point. -/
theorem not_isNear_of_closestNode? (h : a.Represents g) {p : PlaceRecord} (hof : hit.IsOf p)
    (hnone : closestNode? a point maxRank hit = none) (hne : p.addressRank ≠ maxRank)
    {node : PlaceRecord} (hnode : g.IsNodeIn maxRank point p node) :
    ¬ Gazetteer.IsNear point p node := by
  intro hnear
  have hmem := (mem_nodesIn_iff h hof).2 ⟨node, hnode, hnear, rfl⟩
  have hrank : p.searchRank < maxRank := hnode.searchRank.1.trans_le hnode.searchRank.2
  rw [closestNode?, hof.addressRank, hof.searchRank, if_pos (by simp [hne, hrank]),
    best?_eq_none_iff] at hnone
  exact List.not_mem_nil (hnone ▸ hmem)

/-! ## The lookup -/

/-- What the lookup finds in the area: the closest node, or the area itself if it is of the greatest
rank or without a node near the point. -/
inductive FindsIn (g : Gazetteer) (maxRank : Nat) (point : Point Float) (p : PlaceRecord) :
    Candidate → Prop
  | area (h : p.addressRank = maxRank ∨
      ∀ node, g.IsNodeIn maxRank point p node → ¬ Gazetteer.IsNear point p node) :
      FindsIn g maxRank point p (.primary p.id (some p.addressRank))
  | node {q : PlaceRecord} (hne : p.addressRank ≠ maxRank)
      (h : g.IsClosestNode maxRank point p q) :
      FindsIn g maxRank point p (.primary q.id (some q.addressRank))

/-- What is found in the first area that contains the point. -/
def foundIn (a : Atlas) (point : Point Float) (maxRank : Nat) (hit : AreaHit) : Candidate :=
  ((closestNode? a point maxRank hit).map ofNode).getD (.primary hit.id (some hit.addressRank))

theorem containingArea_eq {l : Locator Id} (hl : l.index = a.reverseIndex) (point : Point Float)
    (maxRank : Nat) : l.containingArea point maxRank =
      pure (((a.areasAround point 5 (min (max maxRank 5) 25) areaLimit).find?
        (·.area.contains point)).map (foundIn a point (min (max maxRank 5) 25))) := by
  unfold containingArea
  simp only [hl, nodeInArea_eq hl, Atlas.reverseIndex, pure_bind, byDetail_areasAround]
  generalize min (max maxRank 5) 25 = m
  cases (a.areasAround point 5 m areaLimit).find? (·.area.contains point) with
  | none => rfl
  | some hit =>
    dsimp only [Option.map_some, foundIn]
    cases closestNode? a point m hit with
    | none => rfl
    | some node => rfl

theorem findsIn_foundIn (h : a.Represents g) {p : PlaceRecord} (hof : hit.IsOf p) :
    FindsIn g maxRank point p (foundIn a point maxRank hit) := by
  rw [foundIn]
  cases hfound : closestNode? a point maxRank hit with
  | none =>
    rw [Option.map_none, Option.getD_none, hof.id, hof.addressRank]
    exact .area (or_iff_not_imp_left.2 fun hne _ => not_isNear_of_closestNode? h hof hfound hne)
  | some node =>
    obtain ⟨hne, q, hq, rfl⟩ := isClosestNode_of_closestNode? h hof hfound
    exact .node hne hq

/-- A reverse lookup finds no area exactly if there is none around the point. Otherwise it finds the
most detailed one, or the closest node in it. -/
theorem containingArea_of_few (h : Atlas.ofGazetteer g = .ok a) {l : Locator Id}
    (hl : l.index = a.reverseIndex) (point : Point Float) (maxRank : Nat)
    (hfew : g.places.countP (·.isBoxedAround (min (max maxRank 5) 25) point) ≤ 50) :
    ∃ found, l.containingArea point maxRank = pure found ∧
      (found = none ↔ ∀ p ∈ g.places, p.isAround (min (max maxRank 5) 25) point = false) ∧
      ∀ c, found = some c → ∃ p, g.IsMostDetailed (min (max maxRank 5) 25) point p ∧
        FindsIn g (min (max maxRank 5) 25) point p c := by
  have hrepresents := Atlas.represents_of_ofGazetteer h
  refine ⟨_, containingArea_eq hl point maxRank, ?_, fun c hc => ?_⟩
  · rw [Option.map_eq_none_iff]
    exact find?_areasAround_eq_none_iff hrepresents hfew
  · obtain ⟨hit, hfirst, rfl⟩ := Option.map_eq_some_iff.1 hc
    obtain ⟨p, hp, hof⟩ := exists_isMostDetailed hrepresents hfew hfirst
    exact ⟨p, hp, findsIn_foundIn hrepresents hof⟩

/-- A named area. -/
def quarter (id addressRank : Nat) (name : String) (exterior : Ring Float) : PlaceRecord where
  id := id
  names := [name]
  placeType := ⟨"boundary", "administrative"⟩
  addressRank := addressRank
  ownSearchRank := none
  country := none
  parent := none
  postcode := none
  houseNumber := none
  location := ⟨1, 1⟩
  line := none
  area := some (.ofRing exterior)
  importance := 0

/-- A borough. -/
def altstadt : PlaceRecord :=
  quarter 3 18 "Altstadt" [⟨0, 0⟩, ⟨0, 2⟩, ⟨2, 2⟩, ⟨2, 0⟩]

/-- The borough and another one of the same extent in a larger town, and a quarter that is half of
them. -/
def boroughs : Gazetteer where
  places := [
    quarter 1 16 "Stadt" [⟨0, 0⟩, ⟨0, 4⟩, ⟨4, 4⟩, ⟨4, 0⟩], altstadt,
    quarter 4 20 "Hafen" [⟨0, 0⟩, ⟨0, 2⟩, ⟨2, 0⟩],
    quarter 5 18 "Neustadt" [⟨0, 0⟩, ⟨0, 2⟩, ⟨2, 2⟩, ⟨2, 0⟩]]

/-- In the half of the boroughs without the quarter, whose box covers it all the same, the borough
of the lower id is found. -/
theorem borough_found : ∃ a, Atlas.ofGazetteer boroughs = .ok a ∧
    ({ index := a.reverseIndex } : Locator Id).containingArea ⟨1.5, 1.5⟩ 20 =
      pure (some (.primary 3 (some 18))) := by
  have hsorted : Atlas.byId boroughs.places = boroughs.places :=
    List.mergeSort_of_pairwise (by simp [boroughs, altstadt, quarter])
  obtain ⟨a, ha⟩ : ∃ a, Atlas.ofGazetteer boroughs = .ok a := by
    rw [Atlas.ofGazetteer, Atlas.build, hsorted]
    exact ⟨_, rfl⟩
  have haround : boroughs.places.map (·.isAround 20 ⟨1.5, 1.5⟩) = [true, true, false, true] := by
    decide +kernel
  obtain ⟨found, hfound, hnone, hfinds⟩ := containingArea_of_few ha
    (l := { index := a.reverseIndex }) rfl ⟨1.5, 1.5⟩ 20 (by decide +kernel)
  simp only [boroughs, List.map_cons, List.map_nil, List.cons.injEq, and_true] at haround
  obtain ⟨-, haltstadt, hhafen, -⟩ := haround
  have hmem : altstadt ∈ boroughs.places := by simp [boroughs]
  cases found with
  | none => exact absurd ((hnone.1 rfl altstadt hmem).symm.trans haltstadt) Bool.false_ne_true
  | some c =>
    obtain ⟨p, hp, hfinds⟩ := hfinds c rfl
    have hfirst := hp.first altstadt hmem haltstadt
    have hplaces : ∀ q ∈ boroughs.places, q.area ≠ none := by simp [boroughs, altstadt, quarter]
    have hp' : p = altstadt := by
      have hmem := hp.mem
      simp only [boroughs, List.mem_cons, List.not_mem_nil, or_false] at hmem
      rcases hmem with rfl | rfl | rfl | rfl
      · simp [altstadt, quarter] at hfirst
      · rfl
      · exact absurd (hhafen.symm.trans hp.around) Bool.false_ne_true
      · simp [altstadt, quarter] at hfirst
    refine ⟨a, ha, hfound.trans ?_⟩
    cases hfinds with
    | area => rw [hp']; rfl
    | node _ hq => exact absurd hq.isNode.noArea (hplaces _ hq.isNode.mem)

end Locator

end Geocoding
