/-!
# Replacing a text within a text

`replaceAll` replaces the occurrences of a text that are met from left to right without overlap.
-/

namespace Geocoding.Text

/-- Replace the occurrences of `old` by `new` once `skip` more characters, the rest of an occurrence
that is already replaced, have been passed over. -/
def replaceFrom (old new : List Char) : Nat → List Char → List Char
  | _, [] => []
  | skip + 1, _ :: cs => replaceFrom old new skip cs
  | 0, c :: cs =>
    if old.isPrefixOf (c :: cs) then new ++ replaceFrom old new (old.length - 1) cs
    else c :: replaceFrom old new 0 cs

/-- Replace every occurrence of a non-empty text. -/
def replaceAll (old new : List Char) (cs : List Char) : List Char :=
  replaceFrom old new 0 cs

end Geocoding.Text
