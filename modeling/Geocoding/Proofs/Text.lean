import Geocoding.Term
import Mathlib.Data.List.TakeWhile

/-!
# Words and normal forms: laws

The stretches of a text between separators follow one equation (`Text.stretches_append_cons`), and
joining words by single spaces undoes cutting them out (`Text.words_unwords`). The words of a normal
form are the terms it is made of (`words_normalize`), and blanks around a text do not change it
(`normalize_trim`): they are neither letters nor digits, and they are as good as the end of the text
to the one letter whose lower case depends on its neighbours.
-/

namespace Geocoding

namespace Text

/-! ## Stretches -/

section

variable {sep : Char → Bool}

theorem stretches_append_cons {c : Char} (hc : sep c = true) (xs ys : List Char) :
    stretches sep (xs ++ c :: ys) = stretches sep xs ++ stretches sep ys := by
  rw [stretches, List.splitOnP_append_cons xs ys hc, List.filter_append]
  rfl

theorem stretches_cons {c : Char} (hc : sep c = true) (cs : List Char) :
    stretches sep (c :: cs) = stretches sep cs :=
  stretches_append_cons hc [] cs

theorem stretches_append_of_forall {xs ys : List Char} (hxs : ∀ c ∈ xs, sep c = true) :
    stretches sep (xs ++ ys) = stretches sep ys := by
  induction xs with
  | nil => rfl
  | cons c xs ih =>
    obtain ⟨hc, hxs⟩ := List.forall_mem_cons.1 hxs
    rw [List.cons_append, stretches_cons hc, ih hxs]

theorem stretches_append_of_forall_right {xs ys : List Char} (hys : ∀ c ∈ ys, sep c = true) :
    stretches sep (xs ++ ys) = stretches sep xs := by
  cases ys with
  | nil => rw [List.append_nil]
  | cons c ys =>
    obtain ⟨hc, hys⟩ := List.forall_mem_cons.1 hys
    have hnone : stretches sep ys = [] := by
      have hnil : stretches sep (ys ++ []) = stretches sep [] := stretches_append_of_forall hys
      simpa [stretches] using hnil
    rw [stretches_append_cons hc, hnone, List.append_nil]

theorem stretches_eq_singleton {w : List Char} (hne : w ≠ []) (hw : ∀ c ∈ w, sep c = false) :
    stretches sep w = [w] := by
  rw [stretches, List.splitOnP_eq_singleton hw]
  simp [hne]

/-- A piece between separators has no separator, and only characters of the text. -/
theorem of_mem_splitOnP {cs w : List Char} (h : w ∈ cs.splitOnP sep) :
    ∀ c ∈ w, c ∈ cs ∧ sep c = false := by
  induction cs generalizing w with
  | nil => simp_all
  | cons d cs ih =>
    rw [List.splitOnP_cons_eq_if_modifyHead] at h
    obtain ⟨first, rest, hsplit⟩ := List.exists_cons_of_ne_nil (List.splitOnP_ne_nil sep cs)
    rw [hsplit] at h ih
    have hlater {v : List Char} (hv : v ∈ first :: rest) :
        ∀ c ∈ v, c ∈ d :: cs ∧ sep c = false :=
      fun c hc => (ih hv c hc).imp_left (List.mem_cons_of_mem d)
    by_cases hd : sep d = true
    · rw [if_pos hd] at h
      rcases List.mem_cons.1 h with rfl | h
      · simp
      · exact hlater h
    · rw [if_neg hd, List.modifyHead_cons] at h
      rcases List.mem_cons.1 h with rfl | h
      · refine List.forall_mem_cons.2 ⟨⟨List.mem_cons_self, by simpa using hd⟩, ?_⟩
        exact hlater List.mem_cons_self
      · exact hlater (List.mem_cons_of_mem _ h)

/-- A stretch is not empty and has no separator. -/
theorem mem_stretches {cs w : List Char} (h : w ∈ stretches sep cs) :
    w ≠ [] ∧ ∀ c ∈ w, sep c = false := by
  obtain ⟨hmem, hne⟩ := List.mem_filter.1 h
  exact ⟨by simpa using hne, fun c hc => (of_mem_splitOnP hmem c hc).2⟩

/-- The characters of a stretch are those of the text. -/
theorem mem_of_mem_stretches {cs w : List Char} (h : w ∈ stretches sep cs) {c : Char}
    (hc : c ∈ w) : c ∈ cs :=
  (of_mem_splitOnP (List.mem_filter.1 h).1 c hc).1

theorem stretches_intercalate {c : Char} (hc : sep c = true) {ws : List (List Char)}
    (hws : ∀ w ∈ ws, w ≠ [] ∧ ∀ c ∈ w, sep c = false) :
    stretches sep ([c].intercalate ws) = ws := by
  induction ws with
  | nil => rfl
  | cons w ws ih =>
    obtain ⟨⟨hne, hw⟩, hws⟩ := List.forall_mem_cons.1 hws
    cases ws with
    | nil => rw [List.intercalate_singleton, stretches_eq_singleton hne hw]
    | cons v ws =>
      rw [List.intercalate_cons_cons, List.append_assoc, List.singleton_append,
        stretches_append_cons hc, stretches_eq_singleton hne hw, ih hws]
      rfl

theorem toList_unwords (ws : List String) :
    (unwords ws).toList = [' '].intercalate (ws.map String.toList) := by
  have hspace : " ".toList = [' '] := by decide
  rw [unwords, String.toList_intercalate, hspace]

/-- Words are cut out of their text again wherever it is divided at spaces, if at no character of
theirs. -/
theorem stretches_unwords (hspace : sep ' ' = true) {ws : List String}
    (hws : ∀ w ∈ ws, w.toList ≠ [] ∧ ∀ c ∈ w.toList, sep c = false) :
    (stretches sep (unwords ws).toList).map String.ofList = ws := by
  have hlists : ∀ w ∈ ws.map String.toList, w ≠ [] ∧ ∀ c ∈ w, sep c = false := by
    intro w hw
    obtain ⟨v, hv, rfl⟩ := List.mem_map.1 hw
    exact hws v hv
  rw [toList_unwords, stretches_intercalate hspace hlists]
  simp

end

theorem words_unwords {ws : List String}
    (hws : ∀ w ∈ ws, w.toList ≠ [] ∧ ∀ c ∈ w.toList, isBlank c = false) :
    words (unwords ws) = ws :=
  stretches_unwords (by decide) hws

theorem splitAt_unwords {words : List String} (hne : words ≠ [])
    (hspace : ∀ word ∈ words, ' ' ∉ word.toList) : splitAt ' ' (unwords words) = words := by
  have hlists : ∀ cs ∈ words.map String.toList, ' ' ∉ cs := by
    intro cs hcs
    obtain ⟨word, hword, rfl⟩ := List.mem_map.1 hcs
    exact hspace word hword
  have hsplit := List.splitOn_intercalate ' ' hlists (by simpa using hne)
  rw [List.splitOn_eq_splitOnP] at hsplit
  rw [splitAt, toList_unwords, hsplit]
  simp

/-! ## White space -/

/-- The code points of a set that is given by an even number of changes. -/
def codesBetween : List Nat → List Nat
  | first :: behind :: rest => List.range' first (behind - first) ++ codesBetween rest
  | _ => []

theorem mem_codesBetween {n : Nat} : ∀ {changes : List Nat}, changes.length % 2 = 0 →
    CharSet.holds n false changes = true → n ∈ codesBetween changes
  | [], _, h => nomatch h
  | [_], heven, _ => nomatch heven
  | first :: behind :: rest, heven, h => by
    simp only [CharSet.holds] at h
    rw [codesBetween, List.mem_append]
    split at h
    · contradiction
    · split at h
      · exact Or.inl (List.mem_range'_1.2 ⟨by omega, by omega⟩)
      · exact Or.inr (mem_codesBetween (by simp only [List.length_cons] at heven; omega) h)

/-- What blanks are to terms and to the lower case: neither letters nor digits, the same in lower
case, and neither cased nor case-ignorable. -/
def isNeutral (c : Char) : Bool :=
  !isAlphanumeric c && lowerChar c == [c] && c != capitalSigma && !cased.contains c &&
    !caseIgnorable.contains c

theorem isNeutral_of_isBlank {c : Char} (h : isBlank c = true) : isNeutral c = true := by
  have hall : (codesBetween whiteSpace.changes).all (fun n => isNeutral (Char.ofNat n)) = true := by
    decide +kernel
  have hmem : c.toNat ∈ codesBetween whiteSpace.changes := mem_codesBetween rfl h
  simpa using List.all_eq_true.1 hall _ hmem

theorem not_isAlphanumeric_of_isBlank {c : Char} (h : isBlank c = true) :
    isAlphanumeric c = false := by
  have hneutral := isNeutral_of_isBlank h
  simp only [isNeutral, Bool.and_eq_true, Bool.not_eq_true'] at hneutral
  exact hneutral.1.1.1.1

theorem not_isBlank_of_isAsciiDigit {c : Char} (h : isAsciiDigit c = true) :
    isBlank c = false := by
  have hall : (codesBetween whiteSpace.changes).all
      (fun n => !isAsciiDigit (Char.ofNat n)) = true := by
    decide +kernel
  refine Bool.eq_false_iff.2 fun hblank => ?_
  have hmem : c.toNat ∈ codesBetween whiteSpace.changes := mem_codesBetween rfl hblank
  have hnot := List.all_eq_true.1 hall _ hmem
  rw [Char.ofNat_toNat, h] at hnot
  contradiction

theorem lowerChar_of_isBlank {c : Char} (h : isBlank c = true) : lowerChar c = [c] := by
  have hneutral := isNeutral_of_isBlank h
  simp only [isNeutral, Bool.and_eq_true, beq_iff_eq] at hneutral
  exact hneutral.1.1.1.2

theorem ne_capitalSigma_of_isBlank {c : Char} (h : isBlank c = true) : c ≠ capitalSigma := by
  have hneutral := isNeutral_of_isBlank h
  simp only [isNeutral, Bool.and_eq_true, bne_iff_ne] at hneutral
  exact hneutral.1.1.2

/-- The characters between the blanks at both ends, and those blanks. -/
theorem exists_trimChars (cs : List Char) :
    ∃ before after, (∀ c ∈ before, isBlank c = true) ∧ (∀ c ∈ after, isBlank c = true) ∧
      cs = before ++ trimChars cs ++ after := by
  let rest := cs.dropWhile isBlank
  refine ⟨cs.takeWhile isBlank, (rest.reverse.takeWhile isBlank).reverse, ?_, ?_, ?_⟩
  · exact fun c hc => List.mem_takeWhile_imp hc
  · exact fun c hc => List.mem_takeWhile_imp (List.mem_reverse.1 hc)
  · have hrest : trimChars cs ++ (rest.reverse.takeWhile isBlank).reverse = rest := by
      rw [trimChars, ← List.reverse_append, List.takeWhile_append_dropWhile, List.reverse_reverse]
    rw [List.append_assoc, hrest, List.takeWhile_append_dropWhile]

theorem trim_of_forall_not_isBlank {s : String} (h : ∀ c ∈ s.toList, isBlank c = false) :
    trim s = s := by
  obtain ⟨before, after, hbefore, hafter, hs⟩ := exists_trimChars s.toList
  have hnil {cs : List Char} (hcs : ∀ c ∈ cs, isBlank c = true) (hsub : cs ⊆ s.toList) :
      cs = [] := by
    refine List.eq_nil_iff_forall_not_mem.2 fun c hc => ?_
    have hnot := h c (hsub hc)
    rw [hcs c hc] at hnot
    contradiction
  have hfront : before = [] := hnil hbefore (by rw [hs]; simp)
  have hback : after = [] := hnil hafter (by rw [hs]; simp)
  rw [hfront, hback, List.nil_append, List.append_nil] at hs
  rw [trim, ← hs, String.ofList_toList]

/-! ## Lower case -/

/-- Neither the ends of a text nor blanks are a cased neighbour. -/
theorem meetsCased_of_forall_isBlank {cs : List Char} (h : ∀ c ∈ cs, isBlank c = true) :
    meetsCased cs = false := by
  cases cs with
  | nil => rfl
  | cons c cs =>
    have hneutral := isNeutral_of_isBlank (h c List.mem_cons_self)
    simp only [isNeutral, Bool.and_eq_true, Bool.not_eq_true'] at hneutral
    rw [meetsCased, List.dropWhile_cons_of_neg (by simp [hneutral.2])]
    simpa using hneutral.1.2

theorem meetsCased_append_congr {cs cs' : List Char} (h : meetsCased cs = meetsCased cs')
    (xs : List Char) : meetsCased (xs ++ cs) = meetsCased (xs ++ cs') := by
  induction xs with
  | nil => exact h
  | cons x xs ih =>
    simp only [meetsCased, List.cons_append, List.dropWhile_cons] at ih ⊢
    split
    · exact ih
    · rfl

/-- The lower case of characters that stand between others, of which the former are given in
reverse. -/
def lowerBetween (before : List Char) (cs after : List Char) : List Char :=
  match cs with
  | [] => []
  | c :: rest =>
    (if c = capitalSigma then [lowerSigma before (rest ++ after)] else lowerChar c) ++
      lowerBetween (c :: before) rest after

theorem lowerAfter_append (before cs after : List Char) :
    lowerAfter before (cs ++ after) =
      lowerBetween before cs after ++ lowerAfter (cs.reverse ++ before) after := by
  induction cs generalizing before with
  | nil => rfl
  | cons c cs ih => simp [lowerAfter, lowerBetween, ih]

theorem lowerBetween_nil (before cs : List Char) :
    lowerBetween before cs [] = lowerAfter before cs := by
  have h := lowerAfter_append before cs []
  rw [List.append_nil, lowerAfter, List.append_nil] at h
  exact h.symm

/-- Only whether they are cased counts of the characters around. -/
theorem lowerBetween_congr {before before' after after' : List Char}
    (hbefore : meetsCased before = meetsCased before')
    (hafter : meetsCased after = meetsCased after') (cs : List Char) :
    lowerBetween before cs after = lowerBetween before' cs after' := by
  induction cs generalizing before before' with
  | nil => rfl
  | cons c cs ih =>
    have hsigma : lowerSigma before (cs ++ after) = lowerSigma before' (cs ++ after') := by
      rw [lowerSigma, lowerSigma, hbefore, meetsCased_append_congr hafter]
    have hrest := ih (meetsCased_append_congr hbefore [c])
    simp only [List.singleton_append] at hrest
    rw [lowerBetween, lowerBetween, hsigma, hrest]

theorem lowerBetween_of_forall_isBlank {cs : List Char} (h : ∀ c ∈ cs, isBlank c = true)
    (before after : List Char) : lowerBetween before cs after = cs := by
  induction cs generalizing before with
  | nil => rfl
  | cons c cs ih =>
    obtain ⟨hc, hcs⟩ := List.forall_mem_cons.1 h
    rw [lowerBetween, if_neg (ne_capitalSigma_of_isBlank hc), lowerChar_of_isBlank hc, ih hcs]
    rfl

/-- Blanks around a text do not change its lower case. -/
theorem lowerChars_append_blanks {before after : List Char}
    (hbefore : ∀ c ∈ before, isBlank c = true) (hafter : ∀ c ∈ after, isBlank c = true)
    (cs : List Char) :
    lowerChars (before ++ cs ++ after) = before ++ lowerChars cs ++ after := by
  have hreverse : ∀ c ∈ before.reverse, isBlank c = true :=
    fun c hc => hbefore c (List.mem_reverse.1 hc)
  have hend : meetsCased [] = false := rfl
  have hcs : lowerBetween (before.reverse ++ []) cs after = lowerChars cs := by
    rw [lowerChars, ← lowerBetween_nil, List.append_nil]
    exact lowerBetween_congr ((meetsCased_of_forall_isBlank hreverse).trans hend.symm)
      ((meetsCased_of_forall_isBlank hafter).trans hend.symm) cs
  rw [lowerChars, List.append_assoc, lowerAfter_append, lowerBetween_of_forall_isBlank hbefore,
    lowerAfter_append, hcs, ← lowerBetween_nil _ after, lowerBetween_of_forall_isBlank hafter,
    List.append_assoc]

end Text

/-! ## Normal forms -/

theorem termWords_trim (text : String) : termWords (Text.trim text) = termWords text := by
  obtain ⟨before, after, hbefore, hafter, htext⟩ := Text.exists_trimChars text.toList
  have hsep {cs : List Char} (h : ∀ c ∈ cs, Text.isBlank c = true) :
      ∀ c ∈ cs, (!Text.isAlphanumeric c) = true := by
    intro c hc
    rw [Text.not_isAlphanumeric_of_isBlank (h c hc)]
    rfl
  rw [termWords, termWords, htext, Text.lowerChars_append_blanks hbefore hafter,
    Text.stretches_append_of_forall_right (hsep hafter),
    Text.stretches_append_of_forall (hsep hbefore), Text.trim, String.toList_ofList]

theorem normalize_trim (text : String) : normalize (Text.trim text) = normalize text := by
  rw [normalize, termWords_trim, normalize]

/-- A term is a word of letters and digits. -/
theorem isAlphanumeric_of_mem_termWords {text w : String} (h : w ∈ termWords text) :
    w.toList ≠ [] ∧ ∀ c ∈ w.toList, Text.isAlphanumeric c = true := by
  obtain ⟨cs, hcs, rfl⟩ := List.mem_map.1 h
  obtain ⟨hne, hall⟩ := Text.mem_stretches hcs
  rw [String.toList_ofList]
  exact ⟨hne, fun c hc => by simpa using hall c hc⟩

/-- The words of a normal form are its terms. -/
theorem words_normalize (text : String) : Text.words (normalize text) = termWords text := by
  refine Text.words_unwords fun w hw => ?_
  obtain ⟨hne, hall⟩ := isAlphanumeric_of_mem_termWords hw
  refine ⟨hne, fun c hc => ?_⟩
  by_contra hblank
  have hnot := Text.not_isAlphanumeric_of_isBlank (by simpa using hblank)
  rw [hall c hc] at hnot
  contradiction

/-- A term has no spaces. -/
theorem space_not_mem_of_mem_termWords {text w : String} (h : w ∈ termWords text) :
    ' ' ∉ w.toList := fun hspace => by
  have hblank : Text.isAlphanumeric ' ' = false := by decide +kernel
  rw [(isAlphanumeric_of_mem_termWords h).2 ' ' hspace] at hblank
  contradiction

/-- The words of a normal form are what lies between its spaces; without words this is one empty
piece. -/
theorem splitAt_normalize {text : String} (h : termWords text ≠ []) :
    Text.splitAt ' ' (normalize text) = termWords text :=
  Text.splitAt_unwords h fun _ => space_not_mem_of_mem_termWords

theorem termWords_ne_nil {text : String} (h : normalize text ≠ "") : termWords text ≠ [] := by
  intro hnil
  exact h (by rw [normalize, hnil]; rfl)

end Geocoding
