import Geocoding.Geometry.Point

/-!
# Lines

Streets and address ranges run along open lines. `Line.locate?` finds the closest position on a
line.
-/

namespace Geocoding

/-- An open line through points. -/
abbrev Line := List (Point Float)

/-- A position on a line: how far away it is, and how far along the line it lies as a fraction of
the length. -/
structure LinePosition where
  distance : Float
  fraction : Float

namespace Line

/-- The pieces between consecutive points. -/
def segments (line : Line) : List (Point Float × Point Float) :=
  line.zip line.tail

/-- The sum of the lengths of the pieces. -/
def length (line : Line) : Float :=
  line.segments.foldl (fun sum (a, b) => sum + a.distance b) 0

/-- How far along the piece from `a` to `b` the point closest to `p` lies, from 0 to 1. -/
def projection (a b p : Point Float) : Float :=
  let dx := b.lon - a.lon
  let dy := b.lat - a.lat
  let len2 := dx * dx + dy * dy
  if len2 == 0 then 0
  else
    let t := ((p.lon - a.lon) * dx + (p.lat - a.lat) * dy) / len2
    if t < 0 then 0 else if 1 < t then 1 else t

/-- The position closest to `p` on the pieces that begin `walked` along a line of the given length,
unless the `best` one so far is as close. -/
def closest (total : Float) (p : Point Float) :
    List (Point Float × Point Float) → Float → Option LinePosition → Option LinePosition
  | [], _, best => best
  | (a, b) :: rest, walked, best =>
    let span := a.distance b
    let t := projection a b p
    let foot : Point Float := ⟨a.lat + t * (b.lat - a.lat), a.lon + t * (b.lon - a.lon)⟩
    let distance := foot.distance p
    let best := if best.all (distance < ·.distance) then
        some ⟨distance, if 0 < total then (walked + t * span) / total else 0⟩
      else best
    closest total p rest (walked + span) best

/-- The position on the line that is closest to the point; none on a line without points. -/
def locate? (line : Line) (p : Point Float) : Option LinePosition :=
  match line with
  | [] => none
  | [only] => some ⟨only.distance p, 0⟩
  | line => closest line.length p line.segments 0 none

/-- The distance from the line to the point. -/
def distance? (line : Line) (p : Point Float) : Option Float :=
  (line.locate? p).map (·.distance)

end Line

end Geocoding
