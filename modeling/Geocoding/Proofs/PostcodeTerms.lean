import Geocoding.Proofs.Casing
import Geocoding.Proofs.Entries
import Geocoding.Proofs.Gazetteer

/-!
# Typing a postcode

A vocabulary lists postcodes by their normal form, in which only letters and digits count; an atlas
compares the spelling that counts, in which only case and the number of blanks do not. If postcodes
of one normal form are spelled differently, the vocabulary has the first of them, and the atlas
finds those that are spelled like it (`Atlas.postcodesOf_normalize`). The other ones are not found,
however they are typed (`Atlas.postcode_lost`).
-/

namespace Geocoding

namespace PostcodeRecord

/-- The postcode has the normal form. -/
def hasTerm (p : PostcodeRecord) (term : String) : Bool :=
  normalize p.postcode = term

/-- The spellings of both postcodes differ at most in case and blanks. -/
def isSpelledLike (p q : PostcodeRecord) : Bool :=
  canonicalPostcode p.postcode = canonicalPostcode q.postcode

end PostcodeRecord

namespace Vocabulary

variable {g : Gazetteer} {term : String}

theorem isFor_postcodeEntry_iff {p : PostcodeRecord} :
    (postcodeEntry p).IsFor .postcode term ↔ p.hasTerm term = true := by
  simp [postcodeEntry, Entry.IsFor, Meaning.kind, PostcodeRecord.hasTerm]

theorem not_isFor_postcode_of_mem_placeEntries {p : PlaceRecord} {e : Entry}
    (h : e ∈ placeEntries p) : ¬ e.IsFor .postcode term := by
  rintro ⟨hkind, -⟩
  rcases meaning_of_mem_placeEntries h with h | h | h | ⟨code, h, -⟩ <;>
    exact nomatch h ▸ hkind

/-- Of the postcodes of a normal form the first one is entered. -/
theorem filter_entries_postcode (g : Gazetteer) (term : String) :
    (ofGazetteer g).entries.filter (·.IsFor .postcode term) =
      ((g.postcodes.find? (·.hasTerm term)).map postcodeEntry).toList := by
  have hplaces : (g.places.flatMap placeEntries).find? (·.IsFor .postcode term) = none := by
    refine List.find?_eq_none.2 fun e he => ?_
    obtain ⟨p, -, he⟩ := List.mem_flatMap.1 he
    simpa using not_isFor_postcode_of_mem_placeEntries he
  have hphrases : (g.phrases.map phraseEntry).find? (·.IsFor .postcode term) = none := by
    refine List.find?_eq_none.2 fun e he => ?_
    obtain ⟨p, -, rfl⟩ := List.mem_map.1 he
    simp [Entry.IsFor, phraseEntry, Meaning.kind]
  have hfind : (g.postcodes.map postcodeEntry).find? (·.IsFor .postcode term) =
      (g.postcodes.find? (·.hasTerm term)).map postcodeEntry := by
    rw [List.find?_map]
    congr 2
    funext p
    simp [isFor_postcodeEntry_iff]
  rw [filter_entries_eq_toList g rfl, entriesOf, List.find?_append, List.find?_append, hplaces,
    hphrases, hfind, Option.none_or, Option.or_none]

/-- The token of a postcode stands for the first postcode of its normal form. -/
theorem exists_tokensOf_postcode {first : PostcodeRecord}
    (h : g.postcodes.find? (·.hasTerm term) = some first) :
    ∃ id, (ofGazetteer g).tokensOf term .postcode =
      [.ofPostcode (some id) (canonicalPostcode first.postcode) first.country] := by
  have hentries := (ofGazetteer g).map_fst_find .postcode term
  rw [filter_entries_postcode, h] at hentries
  obtain ⟨⟨e, id⟩, hfind, rfl⟩ := List.map_eq_singleton_iff.1 hentries
  exact ⟨id, by rw [tokensOf, hfind]; rfl⟩

end Vocabulary

namespace Atlas

variable {g : Gazetteer} {a : Atlas}

/-- Asked for a spelling that counts and for nothing else, an atlas finds all postcodes of that
spelling. -/
theorem postcodesOf_canonicalPostcode (h : ofGazetteer g = .ok a) (p : PostcodeRecord) {limit : Nat}
    (hlimit : g.postcodes.length ≤ limit) :
    a.postcodesOf { postcode := canonicalPostcode p.postcode, address := ∅, limit } =
      (g.postcodes.filter (·.isSpelledLike p)).map (·.id) := by
  obtain ⟨hcodes, hrecords⟩ := codes_and_records_of_build h
  have hlength : (a.postcodes.filter (·.record.isSpelledLike p)).length ≤ limit := by
    rw [← hrecords, List.length_map] at hlimit
    exact Nat.le_trans (List.length_filter_le _ _) hlimit
  have hempty (q : AtlasPostcode) : (∅ : TermSet).ids.all (· ∈ q.addressTerms) = true := rfl
  have hfound : (a.postcodes.filter fun q =>
      q.code = canonicalPostcode (canonicalPostcode p.postcode) && !([] : List Nat).contains q.id &&
        inCountries [] q.record.country && (∅ : TermSet).ids.all (· ∈ q.addressTerms) &&
        inBox none q.record.location) = a.postcodes.filter (·.record.isSpelledLike p) :=
    List.filter_congr fun q hq => by
      simp [canonicalPostcode_idem, hcodes q hq, PostcodeRecord.isSpelledLike, inCountries, inBox,
        hempty]
  simp only [postcodesOf, hfound]
  rw [List.take_of_length_le hlength, ← hrecords, List.filter_map, List.map_map]
  simp only [Function.comp_def, AtlasPostcode.id]

/-- The token of a postcode that is typed stands for the first postcode of its normal form, and the
atlas finds exactly those that are spelled like that one. -/
theorem postcodesOf_normalize (h : ofGazetteer g = .ok a) {r : PostcodeRecord}
    (hr : r ∈ g.postcodes) :
    ∃ first id, g.postcodes.find? (·.hasTerm (normalize r.postcode)) = some first ∧
      ((Vocabulary.ofGazetteer g).tokens (normalize r.postcode)).filter (·.letter = 'P') =
        [.ofPostcode (some id) (canonicalPostcode first.postcode) first.country] ∧
      ∀ limit, g.postcodes.length ≤ limit →
        a.postcodesOf { postcode := canonicalPostcode first.postcode, address := ∅, limit } =
          (g.postcodes.filter (·.isSpelledLike first)).map (·.id) := by
  have hself : r.hasTerm (normalize r.postcode) = true := decide_eq_true rfl
  have hfind : (g.postcodes.find? (·.hasTerm (normalize r.postcode))).isSome = true :=
    List.find?_isSome.2 ⟨r, hr, hself⟩
  obtain ⟨first, hfirst⟩ := Option.isSome_iff_exists.1 hfind
  obtain ⟨id, htokens⟩ := Vocabulary.exists_tokensOf_postcode hfirst
  refine ⟨first, id, hfirst, ?_, fun limit => postcodesOf_canonicalPostcode h first⟩
  rw [← htokens]
  exact Vocabulary.filter_letter_tokens _ _ .postcode

/-- A postcode with a hyphen. -/
def hyphenated : PostcodeRecord where
  id := 1
  postcode := "SW1A-2AA"
  country := none
  parent := none
  location := ⟨51.5, -0.12⟩

/-- The same postcode with a space. -/
def spaced : PostcodeRecord :=
  { hyphenated with id := 2, postcode := "SW1A 2AA" }

/-- The postcode with a space is not found in its own spelling, as the one with a hyphen comes
first. -/
theorem postcode_lost :
    ∃ a, ofGazetteer { postcodes := [hyphenated, spaced] } = .ok a ∧
      normalize spaced.postcode = "sw1a 2aa" ∧ ∃ id code country,
        ((Vocabulary.ofGazetteer { postcodes := [hyphenated, spaced] }).tokens "sw1a 2aa").filter
          (·.letter = 'P') = [.ofPostcode (some id) code country] ∧
        ∀ limit, 2 ≤ limit →
          spaced.id ∉ a.postcodesOf { postcode := code, address := ∅, limit } := by
  have hatlas : ∃ a, ofGazetteer { postcodes := [hyphenated, spaced] } = .ok a := by
    simp only [ofGazetteer, build, byId, List.mergeSort_nil]
    exact ⟨_, rfl⟩
  obtain ⟨a, ha⟩ := hatlas
  have hterm : normalize spaced.postcode = "sw1a 2aa" := by decide +kernel
  have hspaced : spaced ∈ [hyphenated, spaced] := by simp
  obtain ⟨first, id, hfirst, htokens, hfound⟩ := postcodesOf_normalize ha hspaced
  have hhyphenated : [hyphenated, spaced].find? (·.hasTerm (normalize spaced.postcode)) =
      some hyphenated := List.find?_cons_of_pos (by decide +kernel)
  obtain rfl := Option.some.inj (hhyphenated.symm.trans hfirst)
  refine ⟨a, ha, hterm, id, _, _, hterm ▸ htokens, fun limit hlimit hmem => ?_⟩
  rw [hfound limit hlimit] at hmem
  have hother : spaced.isSpelledLike hyphenated = false := by decide +kernel
  obtain ⟨p, hp, hid⟩ := List.mem_map.1 hmem
  obtain ⟨hp, halike⟩ := List.mem_filter.1 hp
  rcases List.mem_pair.1 hp with rfl | rfl
  · exact absurd hid (by decide)
  · exact Bool.false_ne_true (hother.symm.trans halike)

end Atlas

end Geocoding
