import Geocoding.Text.Blank
import Geocoding.Text.Case
import Geocoding.Text.CharClass

/-!
# Normal forms

Names and queries are compared as search terms: lower-case words of letters and digits with single
spaces between them (`normalize`). Postcodes are compared in upper case (`canonicalPostcode`).
-/

namespace Geocoding

/-- The words of a normal form: the lower-cased text cut at everything but letters and digits. -/
def termWords (text : String) : List String :=
  (Text.stretches (!Text.isAlphanumeric ·) (Text.lowerChars text.toList)).map String.ofList

/-- The normal form of a text: its lower-case words, joined by single spaces. -/
def normalize (text : String) : String :=
  Text.unwords (termWords text)

/-- The spelling of a postcode that counts: upper case, with single spaces. -/
def canonicalPostcode (code : String) : String :=
  Text.upper (Text.unwords (Text.words code))

end Geocoding
