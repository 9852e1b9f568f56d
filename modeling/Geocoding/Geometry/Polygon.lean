import Geocoding.Geometry.Point

/-!
# Polygons

An area is a ring of points, possibly with holes. Containment is decided by the even-odd rule: a
point lies within a ring if a ray from it crosses the ring an odd number of times.
-/

namespace Geocoding

/-- A closed line through points. The first point may be repeated at the end. -/
abbrev Ring (α : Type) := List (Point α)

/-- An area with an outer ring and holes. -/
structure Polygon (α : Type) where
  exterior : Ring α
  holes : List (Ring α)
deriving DecidableEq

namespace Ring

variable {α : Type}

/-- Each point with the one before it, the first point with the last. -/
def edges (ring : Ring α) : List (Point α × Point α) :=
  match ring.getLast? with
  | none => []
  | some last => ring.zip (last :: ring)

variable [Add α] [Sub α] [Mul α] [Div α] [LT α] [DecidableLT α]

/-- The ray from `p` towards the east crosses the edge. -/
def crosses (p : Point α) (edge : Point α × Point α) : Bool :=
  let (a, b) := edge
  decide (p.lat < a.lat) != decide (p.lat < b.lat) &&
    decide (p.lon < (b.lon - a.lon) * (p.lat - a.lat) / (b.lat - a.lat) + a.lon)

/-- The ray from the point crosses an odd number of edges. A ring has at least three points. -/
def contains (ring : Ring α) (p : Point α) : Bool :=
  decide (3 ≤ ring.length) && (edges ring).countP (crosses p) % 2 == 1

end Ring

namespace Polygon

variable {α : Type}

/-- The polygon without holes. -/
def ofRing (exterior : Ring α) : Polygon α :=
  ⟨exterior, []⟩

/-- The smallest box around the outer ring, if that has a point. -/
def bbox? [LE α] [DecidableLE α] (polygon : Polygon α) : Option (BoundingBox α) :=
  match polygon.exterior with
  | [] => none
  | p :: rest => some (rest.foldl BoundingBox.extend (.ofPoint p))

/-- The point lies within the outer ring and in no hole. -/
def contains [Add α] [Sub α] [Mul α] [Div α] [LT α] [DecidableLT α] (polygon : Polygon α)
    (p : Point α) : Bool :=
  Ring.contains polygon.exterior p && !polygon.holes.any (Ring.contains · p)

end Polygon

end Geocoding
