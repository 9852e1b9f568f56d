import Geocoding.Geometry.Polygon
import Mathlib.Data.List.Forall2
import Mathlib.Logic.Relation

/-!
# Rings and their edges

The edges of a ring are those of two walks, one along its first points and one along the others
(`Ring.edges_append`). So they stay the same, up to their order, if the ring begins with another of
its points, and only an edge from a point to itself is added if the first point is repeated at the
end. Such an edge is never crossed, whatever the coordinates are: a polygon contains the same points
however its rings are written down (`Polygon.contains_eq_of_rewritten`).

Going around a ring, any property of points changes an even number of times
(`Ring.countP_edges_mod_two`).
-/

namespace Geocoding

namespace Ring

variable {α : Type}

/-! ## Walks -/

/-- The edges of a walk along some points that comes from another one. -/
def walk (start : Point α) (points : List (Point α)) : List (Point α × Point α) :=
  points.zip (start :: points)

@[simp]
theorem walk_nil (start : Point α) : walk start [] = [] :=
  rfl

@[simp]
theorem walk_cons (start p : Point α) (rest : List (Point α)) :
    walk start (p :: rest) = (p, start) :: walk p rest :=
  rfl

theorem walk_append (start : Point α) (front back : List (Point α)) :
    walk start (front ++ back) = walk start front ++ walk (front.getLastD start) back := by
  induction front generalizing start with
  | nil => rfl
  | cons p rest ih => rw [List.cons_append, walk_cons, walk_cons, ih, List.getLastD_cons]; rfl

theorem edges_eq_walk {ring : Ring α} (h : ring ≠ []) : edges ring = walk (ring.getLast h) ring := by
  rw [edges, List.getLast?_eq_some_getLast h]
  rfl

theorem edges_append {front back : List (Point α)} (hfront : front ≠ []) (hback : back ≠ []) :
    edges (front ++ back) = walk (back.getLast hback) front ++ walk (front.getLast hfront) back := by
  rw [edges_eq_walk (List.append_ne_nil_of_left_ne_nil hfront back), walk_append,
    List.getLast_append_of_ne_nil _ hback, List.getLastD_eq_getLast?,
    List.getLast?_eq_some_getLast hfront]
  rfl

/-- Beginning with another point changes nothing but the order of the edges. -/
theorem edges_append_perm (front back : List (Point α)) :
    (edges (back ++ front)).Perm (edges (front ++ back)) := by
  by_cases hfront : front = []
  · rw [hfront, List.append_nil, List.nil_append]
  by_cases hback : back = []
  · rw [hback, List.append_nil, List.nil_append]
  rw [edges_append hfront hback, edges_append hback hfront]
  exact List.perm_append_comm

/-- Repeating the first point adds an edge from that point to itself. -/
theorem edges_close_perm (first : Point α) (rest : List (Point α)) :
    (edges (first :: rest ++ [first])).Perm ((first, first) :: edges (first :: rest)) := by
  rw [edges_append (List.cons_ne_nil _ _) (List.cons_ne_nil _ _),
    edges_eq_walk (List.cons_ne_nil first rest)]
  simp only [walk_cons, walk_nil, List.getLast_singleton, List.cons_append]
  exact (List.perm_append_singleton _ _).cons _

/-! ## Changes around a ring -/

/-- A property of points changes along a walk an odd number of times if and only if its ends
differ. -/
theorem countP_walk_mod_two (f : Point α → Bool) (start : Point α) (points : List (Point α)) :
    (walk start points).countP (fun e => f e.1 != f e.2) % 2 =
      (f start != f (points.getLastD start)).toNat := by
  induction points generalizing start with
  | nil => simp
  | cons p rest ih =>
    rw [walk_cons, List.countP_cons, Nat.add_mod, ih, List.getLastD_cons]
    cases f start <;> cases f p <;> cases f (rest.getLastD p) <;> rfl

/-- Going all around, it changes an even number of times. -/
theorem countP_edges_mod_two (f : Point α → Bool) (ring : Ring α) :
    (edges ring).countP (fun e => f e.1 != f e.2) % 2 = 0 := by
  cases ring with
  | nil => rfl
  | cons p rest =>
    have hlast (start : Point α) :
        (p :: rest).getLastD start = (p :: rest).getLast (List.cons_ne_nil p rest) := by
      rw [List.getLastD_eq_getLast?, List.getLast?_eq_some_getLast (List.cons_ne_nil p rest)]
      rfl
    rw [edges_eq_walk (List.cons_ne_nil p rest), countP_walk_mod_two, hlast, bne_self_eq_false]
    rfl

theorem mem_of_mem_edges {ring : Ring α} {a b : Point α} (h : (a, b) ∈ edges ring) :
    a ∈ ring ∧ b ∈ ring := by
  cases ring with
  | nil => exact absurd h List.not_mem_nil
  | cons p rest =>
    rw [edges_eq_walk (List.cons_ne_nil p rest)] at h
    obtain ⟨ha, hb⟩ := List.of_mem_zip h
    refine ⟨ha, ?_⟩
    rcases List.mem_cons.1 hb with rfl | hb
    · exact List.getLast_mem _
    · exact hb

/-! ## Ways of writing down a ring -/

/-- A ring is written down differently. -/
inductive Rewrites : Ring α → Ring α → Prop
  /-- It begins with another of its points. -/
  | rotate (front back : List (Point α)) : Rewrites (front ++ back) (back ++ front)
  /-- Its first point is repeated at the end. -/
  | close (first : Point α) (rest : List (Point α)) :
    Rewrites (first :: rest) (first :: rest ++ [first])

/-- A ring is written down differently any number of times. -/
def IsRewritten : Ring α → Ring α → Prop :=
  Relation.ReflTransGen Rewrites

theorem Rewrites.length_le {ring ring' : Ring α} (h : Rewrites ring ring') :
    ring.length ≤ ring'.length := by
  cases h with
  | rotate front back => simp [Nat.add_comm]
  | close first rest => simp

variable [Add α] [Sub α] [Mul α] [Div α] [LT α] [DecidableLT α]

/-- An edge from a point to itself is not crossed, even if the point has coordinates that are not
numbers. -/
theorem crosses_self (p q : Point α) : crosses p (q, q) = false := by
  rw [crosses, bne_self_eq_false, Bool.false_and]

theorem Rewrites.contains_eq {ring ring' : Ring α} (hpoints : 3 ≤ ring.length)
    (h : Rewrites ring ring') (p : Point α) : Ring.contains ring' p = Ring.contains ring p := by
  have hcount : (edges ring').countP (crosses p) = (edges ring).countP (crosses p) := by
    cases h with
    | rotate front back => exact (edges_append_perm front back).countP_eq _
    | close first rest =>
      rw [(edges_close_perm first rest).countP_eq, List.countP_cons, crosses_self]
      rfl
  rw [Ring.contains, Ring.contains, hcount, decide_eq_true hpoints,
    decide_eq_true (Nat.le_trans hpoints h.length_le)]

theorem IsRewritten.contains_eq {ring ring' : Ring α} (hpoints : 3 ≤ ring.length)
    (h : IsRewritten ring ring') (p : Point α) : Ring.contains ring' p = Ring.contains ring p := by
  suffices hkept : 3 ≤ ring'.length ∧ Ring.contains ring' p = Ring.contains ring p from hkept.2
  induction h with
  | refl => exact ⟨hpoints, rfl⟩
  | tail _ hstep ih =>
    exact ⟨Nat.le_trans ih.1 hstep.length_le, (hstep.contains_eq ih.1 p).trans ih.2⟩

theorem any_contains_eq {holes holes' : List (Ring α)} (hpoints : ∀ ring ∈ holes, 3 ≤ ring.length)
    (h : List.Forall₂ IsRewritten holes holes') (p : Point α) :
    holes'.any (Ring.contains · p) = holes.any (Ring.contains · p) := by
  induction h with
  | nil => rfl
  | cons hring _ ih =>
    obtain ⟨hpoint, hpoints⟩ := List.forall_mem_cons.1 hpoints
    rw [List.any_cons, List.any_cons, hring.contains_eq hpoint, ih hpoints]

end Ring

namespace Polygon

/-- A polygon contains the same points however its rings are written down. No law of arithmetic or
of the order is needed, so this holds of doubles that are infinite or not numbers, too. -/
theorem contains_eq_of_rewritten {α : Type} [Add α] [Sub α] [Mul α] [Div α] [LT α] [DecidableLT α]
    {polygon polygon' : Polygon α}
    (hpoints : ∀ ring ∈ polygon.exterior :: polygon.holes, 3 ≤ ring.length)
    (hexterior : Ring.IsRewritten polygon.exterior polygon'.exterior)
    (hholes : List.Forall₂ Ring.IsRewritten polygon.holes polygon'.holes) (p : Point α) :
    polygon'.contains p = polygon.contains p := by
  obtain ⟨hexteriorPoints, hholePoints⟩ := List.forall_mem_cons.1 hpoints
  rw [Polygon.contains, Polygon.contains, hexterior.contains_eq hexteriorPoints,
    Ring.any_contains_eq hholePoints hholes]

/-- A square with a triangular hole. -/
def pierced : Polygon Float where
  exterior := [⟨0, 0⟩, ⟨0, 1⟩, ⟨1, 1⟩, ⟨1, 0⟩]
  holes := [[⟨0.4, 0.4⟩, ⟨0.4, 0.6⟩, ⟨0.6, 0.5⟩]]

/-- The same, with the square closed after it begins elsewhere, and the hole beginning elsewhere. -/
def piercedAgain : Polygon Float where
  exterior := [⟨1, 1⟩, ⟨1, 0⟩, ⟨0, 0⟩, ⟨0, 1⟩, ⟨1, 1⟩]
  holes := [[⟨0.6, 0.5⟩, ⟨0.4, 0.4⟩, ⟨0.4, 0.6⟩]]

theorem piercedAgain_contains_corner :
    (∀ ring ∈ pierced.exterior :: pierced.holes, 3 ≤ ring.length) ∧
      pierced.contains ⟨0.1, 0.1⟩ = true ∧ piercedAgain.contains ⟨0.1, 0.1⟩ = true := by
  have hpoints : ∀ ring ∈ pierced.exterior :: pierced.holes, 3 ≤ ring.length := by
    simp [pierced]
  have hexterior : Ring.IsRewritten pierced.exterior piercedAgain.exterior :=
    .tail (.single (.rotate [⟨0, 0⟩, ⟨0, 1⟩] [⟨1, 1⟩, ⟨1, 0⟩])) (.close ⟨1, 1⟩ _)
  have hhole : Ring.IsRewritten [⟨0.4, 0.4⟩, ⟨0.4, 0.6⟩, ⟨0.6, 0.5⟩]
      [⟨0.6, 0.5⟩, ⟨0.4, 0.4⟩, (⟨0.4, 0.6⟩ : Point Float)] :=
    .single (.rotate [⟨0.4, 0.4⟩, ⟨0.4, 0.6⟩] [⟨0.6, 0.5⟩])
  have hcorner : pierced.contains ⟨0.1, 0.1⟩ = true := by decide +kernel
  exact ⟨hpoints, hcorner,
    (contains_eq_of_rewritten hpoints hexterior (.cons hhole .nil) _).trans hcorner⟩

end Polygon

end Geocoding
