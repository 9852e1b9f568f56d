import Geocoding.Double

/-!
# Points and boxes

Coordinates are in degrees, and distances are plain Euclidean distances in degrees. Points and boxes
are stated for any type of coordinates that can be compared and calculated with; searches use
doubles.
-/

namespace Geocoding

/-- A position by latitude and longitude. -/
structure Point (α : Type) where
  lat : α
  lon : α
deriving DecidableEq

/-- A box between two meridians and two parallels. -/
structure BoundingBox (α : Type) where
  minLon : α
  minLat : α
  maxLon : α
  maxLat : α
deriving DecidableEq

/-- The lesser of two values. A value that is not comparable to itself counts as absent. -/
def lesser {α : Type} [LE α] [DecidableLE α] (a b : α) : α :=
  if a ≤ b then a else if b ≤ b then b else a

/-- The greater of two values. A value that is not comparable to itself counts as absent. -/
def greater {α : Type} [LE α] [DecidableLE α] (a b : α) : α :=
  if b ≤ a then a else if b ≤ b then b else a

namespace Point

/-- The distance between two points. -/
def distance (p q : Point Float) : Float :=
  Double.hypot (p.lat - q.lat) (p.lon - q.lon)

/-- Latitude and longitude are in range, up to a tolerance of a tenth of a degree. -/
def isPlausible (p : Point Float) : Bool :=
  p.lat.abs ≤ 90.1 && p.lon.abs ≤ 180.1

end Point

namespace BoundingBox

section Order

variable {α : Type} [LE α] [DecidableLE α]

/-- The box that two opposite corners span. -/
def ofCorners (lon₁ lat₁ lon₂ lat₂ : α) : BoundingBox α where
  minLon := lesser lon₁ lon₂
  minLat := lesser lat₁ lat₂
  maxLon := greater lon₁ lon₂
  maxLat := greater lat₁ lat₂

/-- The box of a single point. -/
def ofPoint (p : Point α) : BoundingBox α :=
  ofCorners p.lon p.lat p.lon p.lat

/-- The smallest box around a box and a point. -/
def extend (b : BoundingBox α) (p : Point α) : BoundingBox α where
  minLon := lesser b.minLon p.lon
  minLat := lesser b.minLat p.lat
  maxLon := greater b.maxLon p.lon
  maxLat := greater b.maxLat p.lat

/-- The point lies inside the box or on its edge. -/
def contains (b : BoundingBox α) (p : Point α) : Bool :=
  (b.minLon ≤ p.lon && p.lon ≤ b.maxLon) && (b.minLat ≤ p.lat && p.lat ≤ b.maxLat)

end Order

/-- The extent from west to east. -/
def width {α : Type} [Sub α] (b : BoundingBox α) : α :=
  b.maxLon - b.minLon

/-- The extent from south to north. -/
def height {α : Type} [Sub α] (b : BoundingBox α) : α :=
  b.maxLat - b.minLat

/-- The point in the middle. -/
def centre (b : BoundingBox Float) : Point Float where
  lat := (b.minLat + b.maxLat) / 2
  lon := (b.minLon + b.maxLon) / 2

/-- The box grown on every side by a multiple of its own extent. -/
def expand {α : Type} [Add α] [Sub α] [Mul α] (b : BoundingBox α) (factor : α) : BoundingBox α where
  minLon := b.minLon - b.width * factor
  minLat := b.minLat - b.height * factor
  maxLon := b.maxLon + b.width * factor
  maxLat := b.maxLat + b.height * factor

end BoundingBox

end Geocoding
