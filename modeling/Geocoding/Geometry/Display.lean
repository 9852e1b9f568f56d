import Geocoding.Decimal.Text
import Geocoding.Geometry.Point

/-!
# Points as text
-/

namespace Geocoding

/-- Latitude and longitude with six decimal places. -/
def Point.display (p : Point Float) : String :=
  "(" ++ Decimal.fixed 6 p.lat ++ ", " ++ Decimal.fixed 6 p.lon ++ ")"

end Geocoding
