import Geocoding.Lexicon
import Geocoding.Proofs.Distinct
import Geocoding.Proofs.Text
import Geocoding.Request.Prepared

/-!
# Plain texts

A text without commas, brackets and coordinates (`IsPlain`) is a single phrase
(`PreparedQuery.ofText_of_isPlain`). The vocabulary is asked for every stretch of the words of a
phrase (`Phrase.mem_runs_iff`), so for all of them together (`Lexicon.text_mem_terms`) and for each
one (`Phrase.mem_runs_of_mem_words`).
-/

namespace Geocoding

/-- A text with nothing that divides it or that is taken out of it. -/
structure IsPlain (text : String) : Prop where
  comma : ',' ∉ text.toList
  bracket : '[' ∉ text.toList
  point : Coordinates.extractPoint? text = none

/-! ## Texts without brackets -/

namespace Bracketed

theorem findAllFrom_eq_nil {α : Type} {find? : List Char → Option (α × Nat)}
    (hfind : ∀ c rest, c ≠ '[' → find? (c :: rest) = none) {cs : List Char} (h : '[' ∉ cs) :
    findAllFrom find? 0 cs = [] := by
  induction cs with
  | nil => rfl
  | cons c cs ih =>
    obtain ⟨hc, hcs⟩ := List.ne_and_not_mem_of_not_mem_cons h
    rw [findAllFrom, hfind c cs hc.symm]
    exact ih hcs

variable {isWord : Char → Bool} {cs : List Char}

theorem keyValue?_of_ne {c : Char} (rest : List Char) (h : c ≠ '[') :
    keyValue? isWord (c :: rest) = none := by
  rw [keyValue?]
  rintro rest' heq
  exact h (List.cons.inj heq).1

theorem words?_of_ne {c : Char} (rest : List Char) (h : c ≠ '[') :
    words? isWord (c :: rest) = none := by
  rw [words?]
  rintro rest' heq
  exact h (List.cons.inj heq).1

theorem keyValues_eq_nil (h : '[' ∉ cs) : keyValues isWord cs = [] :=
  findAllFrom_eq_nil (fun c rest hc => by rw [keyValue?_of_ne rest hc, Option.map_none]) h

theorem bracketedWords_eq_nil (h : '[' ∉ cs) : bracketedWords isWord cs = [] :=
  findAllFrom_eq_nil (fun c rest hc => by rw [words?_of_ne rest hc, Option.map_none]) h

variable {text : String}

theorem extractPlaceType_of_not_mem (h : '[' ∉ text.toList) :
    extractPlaceType text = (none, text) := by
  rw [extractPlaceType, extractKeyValue, keyValues_eq_nil h]
  simp [blankOut]

theorem extractSpecialTerm_of_not_mem (h : '[' ∉ text.toList) :
    extractSpecialTerm text = (none, text) := by
  rw [extractSpecialTerm, extractWords, bracketedWords_eq_nil h]
  simp [blankOut]

end Bracketed

/-! ## Texts without commas -/

theorem Text.splitAt_of_not_mem {separator : Char} {text : String}
    (h : separator ∉ text.toList) : Text.splitAt separator text = [text] := by
  have hnone : ∀ c ∈ text.toList, (c == separator) = false := by
    intro c hc
    rw [beq_eq_false_iff_ne]
    rintro rfl
    exact h hc
  rw [Text.splitAt, List.splitOnP_eq_singleton hnone]
  simp

/-- A text of which something is left in its normal form is not blank. -/
theorem isEmpty_trim_of_normalize {text : String} (hne : normalize text ≠ "") :
    (Text.trim text).isEmpty = false := by
  rw [← Bool.not_eq_true, String.isEmpty_iff]
  intro hnil
  rw [← normalize_trim, hnil] at hne
  exact hne rfl

/-- A plain text is a single phrase. -/
theorem PreparedQuery.ofText_of_isPlain {text : String} (hplain : IsPlain text)
    (hne : normalize text ≠ "") :
    PreparedQuery.ofText text =
      .ok { phrases := [(Text.trim text, .untyped)], isStructured := false } := by
  simp [ofText, isEmpty_trim_of_normalize hne, hplain.point,
    Bracketed.extractPlaceType_of_not_mem hplain.bracket,
    Bracketed.extractSpecialTerm_of_not_mem hplain.bracket,
    Text.splitAt_of_not_mem hplain.comma]

/-! ## Terms of a phrase -/

namespace Phrase

variable {α : Type} {xs ys : List α}

theorem mem_initials_iff : ys ∈ initials xs ↔ ys ≠ [] ∧ ys <+: xs := by
  induction xs generalizing ys with
  | nil => simp [initials]
  | cons x xs ih =>
    rw [initials, List.mem_cons, List.mem_map]
    constructor
    · rintro (rfl | ⟨zs, hzs, rfl⟩)
      · exact ⟨List.cons_ne_nil _ _, List.prefix_append [x] xs⟩
      · exact ⟨List.cons_ne_nil _ _, List.cons_prefix_cons.2 ⟨rfl, (ih.1 hzs).2⟩⟩
    · rintro ⟨hne, hprefix⟩
      obtain ⟨y, zs, rfl⟩ := List.exists_cons_of_ne_nil hne
      obtain ⟨rfl, hzs⟩ := List.cons_prefix_cons.1 hprefix
      by_cases hnil : zs = []
      · exact Or.inl (by rw [hnil])
      · exact Or.inr ⟨zs, ih.2 ⟨hnil, hzs⟩, rfl⟩

theorem mem_segments_iff : ys ∈ segments xs ↔ ys ≠ [] ∧ ys <:+: xs := by
  induction xs with
  | nil => simp [segments]
  | cons x xs ih =>
    rw [segments, List.mem_append, mem_initials_iff, ih, List.infix_cons_iff, ← and_or_left]

/-- The runs of a phrase are the texts of its non-empty stretches of words. -/
theorem mem_runs_iff {p : Phrase} {term : String} :
    term ∈ p.runs ↔ ∃ words, words ≠ [] ∧ words <:+: p.words ∧ Text.unwords words = term := by
  simp only [runs, List.mem_map, mem_segments_iff, and_assoc]

/-- The whole phrase is one of its runs of words. -/
theorem text_mem_runs {p : Phrase} (h : p.words ≠ []) : p.text ∈ p.runs :=
  mem_runs_iff.2 ⟨p.words, h, List.infix_rfl, rfl⟩

/-- Each word of a phrase is one of its runs of words. -/
theorem mem_runs_of_mem_words {p : Phrase} {word : String} (h : word ∈ p.words) :
    word ∈ p.runs := by
  obtain ⟨before, after, hwords⟩ := List.append_of_mem h
  have hinfix : [word] <:+: p.words := ⟨before, after, by rw [hwords]; simp⟩
  exact mem_runs_iff.2 ⟨[word], List.cons_ne_nil _ _, hinfix, String.intercalate_singleton⟩

end Phrase

namespace Lexicon

theorem mem_terms {phrases : List Phrase} {term : String} :
    term ∈ terms phrases ↔ ∃ p ∈ phrases, term ∈ p.runs := by
  rw [terms, distinctTexts_eq, mem_distinctBy_id, List.mem_flatMap]

/-- The vocabulary is asked for every phrase as a whole. -/
theorem text_mem_terms {phrases : List Phrase} {p : Phrase} (hp : p ∈ phrases)
    (hwords : p.words ≠ []) : p.text ∈ terms phrases :=
  mem_terms.2 ⟨p, hp, Phrase.text_mem_runs hwords⟩

end Lexicon

end Geocoding
