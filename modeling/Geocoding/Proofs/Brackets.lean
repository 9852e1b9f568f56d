import Geocoding.Proofs.Pieces
import Mathlib.Data.List.TakeWhile
import Mathlib.Logic.Function.Iterate

/-!
# Bracketed terms are taken out

Taking out the keys with their values is exact, whatever the word characters are, as long as they
are no brackets, equals signs or spaces (`extractKeyValue_eq_pieces`): every term becomes one space
and the rest stays. A space is no part of such a term, so none comes into being.

Words in brackets may have spaces between them. So the space for a term can complete another one
around it, as in `[a[b]c]`, and that one is left. Unless terms are nested like that, all of them are
taken out at once (`bracketedWords_extractWords`). In any case every round takes out an opening
bracket, so that some rounds more take out all of them.
-/

namespace Geocoding

namespace Text

variable {old : List Char} {p : Char → Bool}

theorem takeWhile_append_cons {xs : List Char} (hxs : ∀ c ∈ xs, p c = true) {y : Char}
    (hy : p y = false) (ys : List Char) : (xs ++ y :: ys).takeWhile p = xs := by
  rw [List.takeWhile_append_of_pos hxs, List.takeWhile_cons_of_neg (by simp [hy]), List.append_nil]

theorem dropWhile_append_cons {xs : List Char} (hxs : ∀ c ∈ xs, p c = true) {y : Char}
    (hy : p y = false) (ys : List Char) : (xs ++ y :: ys).dropWhile p = y :: ys := by
  rw [List.dropWhile_append_of_pos hxs, List.dropWhile_cons_of_neg (by simp [hy])]

/-! ## Fewer brackets -/

theorem count_replaceFrom_le (old : List Char) (skip : Nat) (cs : List Char) :
    (replaceFrom old [' '] skip cs).count '[' ≤ (cs.drop skip).count '[' := by
  induction cs generalizing skip with
  | nil => simp [replaceFrom]
  | cons c cs ih =>
    cases skip with
    | succ skip => exact ih skip
    | zero =>
      rw [replaceFrom, List.drop_zero]
      split
      · have hdrop := (List.drop_sublist (old.length - 1) cs).count_le '['
        have hcs := (List.sublist_cons_self c cs).count_le '['
        have hspace : ([' '] ++ replaceFrom old [' '] (old.length - 1) cs).count '[' =
            (replaceFrom old [' '] (old.length - 1) cs).count '[' := by simp
        have hrest := ih (old.length - 1)
        omega
      · rw [List.count_cons, List.count_cons]
        exact Nat.add_le_add_right (ih 0) _

theorem count_replaceAll_lt {rest cs : List Char} (hold : old = '[' :: rest) (h : old <:+: cs) :
    (replaceAll old [' '] cs).count '[' < cs.count '[' := by
  induction cs with
  | nil => simp [hold] at h
  | cons c cs ih =>
    by_cases hstart : old <+: c :: cs
    · obtain rfl : '[' = c := (List.cons_prefix_cons.1 (hold ▸ hstart)).1
      have hle := count_replaceFrom_le old (old.length - 1) cs
      have hdrop := (List.drop_sublist (old.length - 1) cs).count_le '['
      rw [replaceAll, replaceFrom, if_pos (List.isPrefixOf_iff_prefix.2 hstart)]
      simp only [List.singleton_append, List.count_cons]
      simp
      omega
    · have hlt := ih ((List.infix_cons_iff.1 h).resolve_left hstart)
      rw [replaceAll_cons hstart, List.count_cons, List.count_cons]
      omega

end Text

namespace Bracketed

variable {isWord : Char → Bool}

/-! ## Keys with values -/

/-- Key and value consist of word characters. -/
def KeyValue.IsOf (isWord : Char → Bool) (t : KeyValue) : Prop :=
  (∀ c ∈ t.key, isWord c = true) ∧ ∀ c ∈ t.value, isWord c = true

theorem KeyValue.text_append (t : KeyValue) (rest : List Char) :
    t.text ++ rest = '[' :: (t.key ++ '=' :: (t.value ++ ']' :: rest)) := by
  simp [text]

theorem keyValue?_eq_some_iff (hclose : isWord ']' = false) (hequals : isWord '=' = false)
    (cs : List Char) (t : KeyValue) :
    keyValue? isWord cs = some t ↔ t.IsOf isWord ∧ t.text <+: cs := by
  constructor
  · intro h
    unfold keyValue? at h
    split at h
    · next rest =>
      split at h
      · next rest' hkey =>
        split at h
        · next rest'' hvalue =>
          obtain rfl := Option.some.inj h
          refine ⟨⟨fun c hc => List.mem_takeWhile_imp hc, fun c hc => List.mem_takeWhile_imp hc⟩,
            rest'', ?_⟩
          rw [KeyValue.text_append]
          show '[' :: (rest.takeWhile isWord ++
            '=' :: (rest'.takeWhile isWord ++ ']' :: rest'')) = _
          rw [← hvalue, List.takeWhile_append_dropWhile, ← hkey, List.takeWhile_append_dropWhile]
        · exact nomatch h
      · exact nomatch h
    · exact nomatch h
  · rintro ⟨⟨hkey, hvalue⟩, rest, rfl⟩
    rw [KeyValue.text_append]
    simp [keyValue?, Text.takeWhile_append_cons hkey hequals,
      Text.dropWhile_append_cons hkey hequals, Text.takeWhile_append_cons hvalue hclose,
      Text.dropWhile_append_cons hvalue hclose]

theorem readsTerms_keyValue (hopen : isWord '[' = false) (hclose : isWord ']' = false)
    (hequals : isWord '=' = false) :
    ReadsTerms (KeyValue.IsOf isWord) KeyValue.text (keyValue? isWord) where
  read?_eq_some_iff := keyValue?_eq_some_iff hclose hequals
  exists_eq_cons t ht := by
    refine ⟨t.key ++ '=' :: (t.value ++ [']']), by simp [KeyValue.text], ?_⟩
    have hkey : '[' ∉ t.key := fun h => by simpa [hopen] using ht.1 _ h
    have hvalue : '[' ∉ t.value := fun h => by simpa [hopen] using ht.2 _ h
    simp [hkey, hvalue]

/-- No key with its value comes into being when others become spaces. -/
theorem not_occurs_map_blank (hopen : isWord '[' = false) (hclose : isWord ']' = false)
    (hequals : isWord '=' = false) (hspace : isWord ' ' = false) {cs : List Char}
    {pieces : List (Piece KeyValue)}
    (hpieces : Divides (KeyValue.IsOf isWord) KeyValue.text (keyValue? isWord) pieces cs) :
    ¬ Occurs (KeyValue.IsOf isWord) KeyValue.text (pieces.map Piece.blank) := by
  rintro ⟨t, ht, hwithin⟩
  obtain ⟨front, inner, back, -, htext, b, hb⟩ :=
    hpieces.exists_term_of_infix_map_blank (readsTerms_keyValue hopen hclose hequals) ht hwithin
  have hmem : ' ' ∈ t.text := htext ▸ List.mem_cons_of_mem _ (List.mem_map_of_mem hb)
  have hkey : ' ' ∉ t.key := fun h => by simpa [hspace] using ht.1 _ h
  have hvalue : ' ' ∉ t.value := fun h => by simpa [hspace] using ht.2 _ h
  simp [KeyValue.text, hkey, hvalue] at hmem

theorem extractKeyValue_of_divides (hopen : isWord '[' = false) (hclose : isWord ']' = false)
    (hequals : isWord '=' = false) (hspace : isWord ' ' = false) {cs : List Char}
    {pieces : List (Piece KeyValue)}
    (hpieces : Divides (KeyValue.IsOf isWord) KeyValue.text (keyValue? isWord) pieces cs) :
    extractKeyValue isWord cs =
      ((pieces.filterMap Piece.term?).head?, pieces.map Piece.blank) := by
  have h := readsTerms_keyValue hopen hclose hequals
  rw [extractKeyValue, keyValues, hpieces.findAll_eq h,
    hpieces.blankOut_eq h (not_occurs_map_blank hopen hclose hequals hspace hpieces)]

/-- Every key with its value becomes one space, the other characters stay as they are, and no key
with a value is left. The first one counts; if there is none the text stays as it is. -/
theorem extractKeyValue_eq_pieces (hopen : isWord '[' = false) (hclose : isWord ']' = false)
    (hequals : isWord '=' = false) (hspace : isWord ' ' = false) (cs : List Char) :
    ∃ pieces : List (Piece KeyValue),
      cs = joined KeyValue.text pieces ∧
      (∀ t, .term t ∈ pieces → t.IsOf isWord) ∧
      (∀ t before after, t.IsOf isWord → cs = before ++ (t.text ++ after) →
        ∃ front back, pieces = front ++ .term t :: back ∧ before = joined KeyValue.text front ∧
          after = joined KeyValue.text back) ∧
      (extractKeyValue isWord cs).2 = pieces.map Piece.blank ∧
      (extractKeyValue isWord cs).1 = (pieces.filterMap Piece.term?).head? ∧
      ¬ Occurs (KeyValue.IsOf isWord) KeyValue.text (extractKeyValue isWord cs).2 ∧
      ((extractKeyValue isWord cs).1 = none ↔
        ¬ Occurs (KeyValue.IsOf isWord) KeyValue.text cs) ∧
      ((extractKeyValue isWord cs).1 = none → (extractKeyValue isWord cs).2 = cs) := by
  have h := readsTerms_keyValue hopen hclose hequals
  obtain ⟨pieces, hpieces⟩ := exists_divides h cs
  have hnone : (pieces.filterMap Piece.term?).head? = none ↔ ∀ t, .term t ∉ pieces := by
    rw [List.head?_eq_none_iff, filterMap_term?_eq_nil_iff]
  rw [extractKeyValue_of_divides hopen hclose hequals hspace hpieces]
  refine ⟨pieces, hpieces.joined_eq.symm, fun t ht => hpieces.isTerm_of_mem ht,
    fun t before after ht hcs => hpieces.eq_append_term h ht hcs, rfl, rfl,
    not_occurs_map_blank hopen hclose hequals hspace hpieces, ?_, fun hempty => ?_⟩
  · rw [hnone, hpieces.occurs_iff h, not_exists]
  · rw [← hpieces.joined_eq]
    exact (joined_eq_map_blank (hnone.1 hempty)).symm

/-- Both terms are taken out. The pub comes first, so pubs are looked for. -/
theorem pubAndBakery_pieces :
    Text.isWordChar '[' = false ∧ Text.isWordChar ']' = false ∧ Text.isWordChar '=' = false ∧
      Text.isWordChar ' ' = false ∧
      ¬ Occurs (KeyValue.IsOf Text.isWordChar) KeyValue.text
        (extractKeyValue Text.isWordChar "[amenity=pub] [shop=bakery] soho".toList).2 ∧
      Occurs (KeyValue.IsOf Text.isWordChar) KeyValue.text
        "[amenity=pub] [shop=bakery] soho".toList ∧
      extractPlaceType "[amenity=pub] [shop=bakery] soho" =
        (some ⟨"amenity", "pub"⟩, "    soho") := by
  have hopen : Text.isWordChar '[' = false := by decide +kernel
  have hclose : Text.isWordChar ']' = false := by decide +kernel
  have hequals : Text.isWordChar '=' = false := by decide +kernel
  have hspace : Text.isWordChar ' ' = false := by decide +kernel
  obtain ⟨pieces, -, -, -, -, -, hnone, hfirst, -⟩ :=
    extractKeyValue_eq_pieces hopen hclose hequals hspace
      "[amenity=pub] [shop=bakery] soho".toList
  have hfound : (extractKeyValue Text.isWordChar "[amenity=pub] [shop=bakery] soho".toList).1 ≠
      none := by
    decide +kernel
  exact ⟨hopen, hclose, hequals, hspace, hnone, not_not.1 fun h => hfound (hfirst.2 h),
    by decide +kernel⟩

/-! ## Words -/

/-- Word characters and spaces only. -/
def AreWords (isWord : Char → Bool) (words : List Char) : Prop :=
  ∀ c ∈ words, (isWord c || c == ' ') = true

theorem inBrackets_append (words rest : List Char) :
    inBrackets words ++ rest = '[' :: (words ++ ']' :: rest) := by
  simp [inBrackets]

theorem words?_eq_some_iff (hclose : isWord ']' = false) (cs words : List Char) :
    words? isWord cs = some words ↔ AreWords isWord words ∧ inBrackets words <+: cs := by
  have hclose' : (isWord ']' || ']' == ' ') = false := by rw [hclose]; rfl
  constructor
  · intro h
    unfold words? at h
    split at h
    · next rest =>
      dsimp only at h
      split at h
      · next rest' hwords =>
        obtain rfl := Option.some.inj h
        have hall : AreWords isWord (rest.takeWhile fun c => isWord c || c == ' ') :=
          fun _ => List.mem_takeWhile_imp
        refine ⟨hall, rest', ?_⟩
        rw [inBrackets_append, ← hwords, List.takeWhile_append_dropWhile]
      · exact nomatch h
    · exact nomatch h
  · rintro ⟨hwords, rest, rfl⟩
    rw [inBrackets_append]
    simp [words?, Text.takeWhile_append_cons hwords hclose',
      Text.dropWhile_append_cons hwords hclose']

theorem readsTerms_words (hopen : isWord '[' = false) (hclose : isWord ']' = false) :
    ReadsTerms (AreWords isWord) inBrackets (words? isWord) where
  read?_eq_some_iff := words?_eq_some_iff hclose
  exists_eq_cons words hwords := by
    refine ⟨words ++ [']'], rfl, ?_⟩
    have hnot : '[' ∉ words := fun h => by simpa [hopen] using hwords _ h
    simp [hnot]

/-- What can stand between brackets around words in brackets. -/
inductive IsInside (isWord : Char → Bool) : List Char → Prop
  | nil : IsInside isWord []
  | char {c : Char} {cs : List Char} (hc : (isWord c || c == ' ') = true)
      (rest : IsInside isWord cs) : IsInside isWord (c :: cs)
  | words {words cs : List Char} (hwords : AreWords isWord words) (rest : IsInside isWord cs) :
      IsInside isWord (inBrackets words ++ cs)

/-- Words in brackets stand between other brackets, with nothing but words around them. -/
def HasNested (isWord : Char → Bool) (cs : List Char) : Prop :=
  ∃ inside, IsInside isWord inside ∧ '[' ∈ inside ∧ inBrackets inside <:+: cs

theorem two_le_count_of_hasNested {cs : List Char} (h : HasNested isWord cs) :
    2 ≤ cs.count '[' := by
  obtain ⟨inside, -, hmem, hwithin⟩ := h
  have hpos := List.count_pos_iff.2 hmem
  have hle := hwithin.sublist.count_le '['
  rw [inBrackets, List.cons_append, List.count_cons, List.count_append] at hle
  simp at hle
  omega

theorem isInside_joined {pieces : List (Piece (List Char))}
    (hterms : ∀ words, .term words ∈ pieces → AreWords isWord words)
    (hblank : ∀ c ∈ pieces.map Piece.blank, (isWord c || c == ' ') = true) :
    IsInside isWord (joined inBrackets pieces) := by
  induction pieces with
  | nil => exact .nil
  | cons piece pieces ih =>
    obtain ⟨hpiece, hblank⟩ := List.forall_mem_cons.1 hblank
    have hrest := ih (fun words h => hterms words (List.mem_cons_of_mem _ h)) hblank
    cases piece with
    | char c => exact .char hpiece hrest
    | term words => exact .words (hterms words List.mem_cons_self) hrest

/-- The words in brackets that come into being when others become spaces were around those. -/
theorem hasNested_of_occurs_map_blank (hopen : isWord '[' = false) (hclose : isWord ']' = false)
    {cs : List Char} {pieces : List (Piece (List Char))}
    (hpieces : Divides (AreWords isWord) inBrackets (words? isWord) pieces cs)
    (hoccurs : Occurs (AreWords isWord) inBrackets (pieces.map Piece.blank)) :
    HasNested isWord cs := by
  obtain ⟨words, hwords, hwithin⟩ := hoccurs
  obtain ⟨front, inner, back, rfl, htext, nested, hnested⟩ :=
    hpieces.exists_term_of_infix_map_blank (readsTerms_words hopen hclose) hwords hwithin
  -- the last piece is the closing bracket
  obtain ⟨inside, last, rfl, hinside, hlast⟩ :=
    List.map_eq_append_iff.1 (List.cons.inj htext).2.symm
  obtain ⟨piece, rfl, hpiece⟩ := List.map_eq_singleton_iff.1 hlast
  have hchar : piece = .char ']' := by
    cases piece with
    | char c => exact congrArg _ hpiece
    | term b => exact absurd (show ' ' = ']' from hpiece) (by decide)
  subst hchar
  have hnested' : Piece.term nested ∈ inside := by simpa using hnested
  refine ⟨joined inBrackets inside, isInside_joined (fun words h => ?_) ?_, ?_, ?_⟩
  · exact hpieces.isTerm_of_mem (by simp [h])
  · rwa [hinside]
  · obtain ⟨before, after, rfl⟩ := List.append_of_mem hnested'
    rw [joined_append]
    exact List.mem_append_right _ List.mem_cons_self
  · refine ⟨joined inBrackets front, joined inBrackets back, ?_⟩
    rw [← hpieces.joined_eq]
    simp [joined, inBrackets, Piece.chars]

theorem bracketedWords_eq (hopen : isWord '[' = false) (hclose : isWord ']' = false)
    {cs : List Char} {pieces : List (Piece (List Char))}
    (hpieces : Divides (AreWords isWord) inBrackets (words? isWord) pieces cs) :
    bracketedWords isWord cs = pieces.filterMap Piece.term? := by
  have hlength (words : List Char) : (inBrackets words).length = words.length + 2 := by
    simp [inBrackets]
  have hfind := hpieces.findAll_eq (readsTerms_words hopen hclose)
  simp only [hlength] at hfind
  exact hfind

theorem bracketedWords_eq_nil_iff (hopen : isWord '[' = false) (hclose : isWord ']' = false)
    (cs : List Char) :
    bracketedWords isWord cs = [] ↔ ¬ Occurs (AreWords isWord) inBrackets cs := by
  have h := readsTerms_words hopen hclose
  obtain ⟨pieces, hpieces⟩ := exists_divides h cs
  rw [bracketedWords_eq hopen hclose hpieces, hpieces.occurs_iff h, not_exists,
    filterMap_term?_eq_nil_iff]

theorem extractWords_of_bracketedWords_eq_nil {cs : List Char}
    (h : bracketedWords isWord cs = []) : extractWords isWord cs = (none, cs) := by
  rw [extractWords, h]
  rfl

theorem bracketedWords_extractWords (hopen : isWord '[' = false) (hclose : isWord ']' = false)
    {cs : List Char} (hnested : ¬ HasNested isWord cs) :
    bracketedWords isWord (extractWords isWord cs).2 = [] := by
  have h := readsTerms_words hopen hclose
  obtain ⟨pieces, hpieces⟩ := exists_divides h cs
  have hnone : ¬ Occurs (AreWords isWord) inBrackets (pieces.map Piece.blank) :=
    fun hoccurs => hnested (hasNested_of_occurs_map_blank hopen hclose hpieces hoccurs)
  rw [bracketedWords_eq_nil_iff hopen hclose]
  rwa [extractWords, bracketedWords_eq hopen hclose hpieces, hpieces.blankOut_eq h hnone]

/-! ## Again and again -/

theorem count_blankOut_le (texts : List (List Char)) (cs : List Char) :
    (blankOut texts cs).count '[' ≤ cs.count '[' := by
  induction texts generalizing cs with
  | nil => exact Nat.le_refl _
  | cons text texts ih => exact (ih _).trans (Text.count_replaceFrom_le text 0 cs)

/-- If there is a term, an opening bracket is taken out. -/
theorem count_extractWords_lt (hopen : isWord '[' = false) (hclose : isWord ']' = false)
    {cs : List Char} (h : bracketedWords isWord cs ≠ []) :
    (extractWords isWord cs).2.count '[' < cs.count '[' := by
  obtain ⟨pieces, hpieces⟩ := exists_divides (readsTerms_words hopen hclose) cs
  obtain ⟨words, rest, hwords⟩ := List.exists_cons_of_ne_nil h
  have hmem : words ∈ pieces.filterMap Piece.term? := by
    rw [← bracketedWords_eq hopen hclose hpieces, hwords]
    exact List.mem_cons_self
  have hwithin := hpieces.infix_of_mem (mem_filterMap_term?_iff.1 hmem)
  rw [extractWords, hwords]
  exact (count_blankOut_le (rest.map inBrackets) _).trans_lt (Text.count_replaceAll_lt rfl hwithin)

/-- The text after the terms in it have been taken out so many times. -/
def extractAgain (isWord : Char → Bool) (rounds : Nat) (cs : List Char) : List Char :=
  (fun cs => (extractWords isWord cs).2)^[rounds] cs

theorem bracketedWords_extractAgain (hopen : isWord '[' = false) (hclose : isWord ']' = false)
    {rounds : Nat} {cs : List Char} (hrounds : cs.count '[' ≤ rounds) :
    bracketedWords isWord (extractAgain isWord rounds cs) = [] := by
  induction rounds generalizing cs with
  | zero =>
    by_contra h
    have hlt := count_extractWords_lt hopen hclose h
    rw [extractAgain, Function.iterate_zero_apply] at hlt
    omega
  | succ rounds ih =>
    rw [extractAgain, Function.iterate_succ_apply]
    by_cases h : bracketedWords isWord cs = []
    · have hfixed : (extractWords isWord cs).2 = cs := by
        rw [extractWords_of_bracketedWords_eq_nil h]
      rw [hfixed, Function.iterate_fixed hfixed, h]
    · have hlt := count_extractWords_lt hopen hclose h
      exact ih (by omega)

/-- Unless words in brackets stand between other brackets, all are taken out: in the text that is
left there are none to be found, and taking them out again changes nothing. In any case they are all
out after as many rounds as there are opening brackets. -/
theorem extractWords_of_not_hasNested (hopen : isWord '[' = false) (hclose : isWord ']' = false)
    (cs : List Char) :
    (¬ HasNested isWord cs →
      bracketedWords isWord (extractWords isWord cs).2 = [] ∧
      extractWords isWord (extractWords isWord cs).2 = (none, (extractWords isWord cs).2)) ∧
    ∀ rounds, cs.count '[' ≤ rounds →
      bracketedWords isWord (extractAgain isWord rounds cs) = [] := by
  refine ⟨fun hnested => ?_, fun rounds => bracketedWords_extractAgain hopen hclose⟩
  have hnone := bracketedWords_extractWords hopen hclose hnested
  exact ⟨hnone, extractWords_of_bracketedWords_eq_nil hnone⟩

/-- The pubs in Soho are not nested and are taken out. Taking out the nested word completes the term
around it. -/
theorem nestedWords_left :
    Text.isWordChar '[' = false ∧ Text.isWordChar ']' = false ∧
      ¬ HasNested Text.isWordChar "[pubs] in soho".toList ∧
      bracketedWords Text.isWordChar
        (extractWords Text.isWordChar "[pubs] in soho".toList).2 = [] ∧
      extractSpecialTerm "[pubs] in soho" = (some "pubs", "  in soho") ∧
      HasNested Text.isWordChar "[a[b]c]".toList ∧
      extractSpecialTerm "[a[b]c]" = (some "b", "[a c]") ∧
      extractSpecialTerm "[a c]" = (some "a c", " ") := by
  have hopen : Text.isWordChar '[' = false := by decide +kernel
  have hclose : Text.isWordChar ']' = false := by decide +kernel
  have hpubs : ¬ HasNested Text.isWordChar "[pubs] in soho".toList := by
    intro h
    have hcount := two_le_count_of_hasNested h
    revert hcount
    decide
  have hb : AreWords Text.isWordChar ['b'] := List.forall_mem_singleton.2 (by decide +kernel)
  have hc : IsInside Text.isWordChar ['c'] := .char (by decide +kernel) .nil
  refine ⟨hopen, hclose, hpubs, ?_, by decide +kernel, ?_, by decide +kernel, by decide +kernel⟩
  · exact ((extractWords_of_not_hasNested hopen hclose "[pubs] in soho".toList).1 hpubs).1
  · exact ⟨"a[b]c".toList, .char (by decide +kernel) (.words hb hc), by decide, by decide⟩

end Bracketed

end Geocoding
