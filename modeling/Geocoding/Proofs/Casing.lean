import Geocoding.Proofs.Text
import Mathlib.Data.Nat.Bitwise

/-!
# Lower and upper case: laws

A text that is in lower case already is its own lower case (`Text.lower_lower`), and likewise for
upper case (`Text.upper_upper`). The upper case of words are words again, so the spelling of a
postcode that counts is its own one (`canonicalPostcode_idem`).

What the tables have to fulfil is that no counterpart of a character has a counterpart itself. They
are too long to compare each character with each other one, so sets of code points are compared as
the bits of two numbers (`codeBits`).
-/

namespace Geocoding

namespace Text

/-! ## Sets of code points as numbers -/

/-- The number whose set bits are the members of a list. -/
def codeBits : List Nat → Nat
  | [] => 0
  | n :: rest => 2 ^ n ||| codeBits rest

theorem testBit_codeBits {n : Nat} {codes : List Nat} :
    (codeBits codes).testBit n = true ↔ n ∈ codes := by
  induction codes with
  | nil => simp [codeBits]
  | cons m rest ih =>
    rw [codeBits, Nat.testBit_or, Bool.or_eq_true, ih, List.mem_cons, Nat.testBit_two_pow]
    simp [eq_comm]

/-- Lists whose numbers have no bit in common have no member in common. -/
theorem not_mem_of_codeBits {xs ys : List Nat} (h : codeBits xs &&& codeBits ys = 0) {n : Nat}
    (hx : n ∈ xs) : n ∉ ys := by
  intro hy
  have hbit : (codeBits xs &&& codeBits ys).testBit n = true := by
    rw [Nat.testBit_and, testBit_codeBits.2 hx, testBit_codeBits.2 hy]
    rfl
  rw [h, Nat.zero_testBit] at hbit
  contradiction

/-! ## Tables of runs -/

namespace CaseRun

/-- The code points of a run. -/
def members (run : CaseRun) : List Nat :=
  List.range' run.first ((run.last - run.first) / run.step + 1) run.step

/-- What the code points of a run are mapped to. -/
def counterparts (run : CaseRun) : List Nat :=
  run.members.map fun (n : Nat) => (n + run.shift).toNat

theorem mem_members {run : CaseRun} {n : Nat}
    (h : run.first ≤ n ∧ n ≤ run.last ∧ (n - run.first) % run.step = 0) : n ∈ run.members := by
  obtain ⟨hfirst, hlast, hstep⟩ := h
  refine List.mem_range'.2 ⟨(n - run.first) / run.step, ?_, ?_⟩
  · exact Nat.lt_succ_of_le (Nat.div_le_div_right (Nat.sub_le_sub_right hlast _))
  · rw [Nat.mul_div_cancel' (Nat.dvd_of_mod_eq_zero hstep)]
    omega

theorem apply_of_not_mem {n : Nat} {runs : List CaseRun} (h : n ∉ runs.flatMap members) :
    apply n runs = n := by
  induction runs with
  | nil => rfl
  | cons run rest ih =>
    rw [List.flatMap_cons, List.mem_append, not_or] at h
    rw [apply, if_neg fun hn => h.1 (mem_members hn), ih h.2]

theorem apply_eq_or_mem (n : Nat) (runs : List CaseRun) :
    apply n runs = n ∨ apply n runs ∈ runs.flatMap counterparts := by
  induction runs with
  | nil => exact Or.inl rfl
  | cons run rest ih =>
    rw [apply, List.flatMap_cons, List.mem_append]
    split
    · next hn => exact Or.inr (Or.inl (List.mem_map.2 ⟨n, mem_members hn, rfl⟩))
    · exact ih.imp_right Or.inr

end CaseRun

/-- What is no character counts as zero. -/
theorem toNat_ofNat_mem (n : Nat) {codes : List Nat} (h : n ∈ codes) :
    (Char.ofNat n).toNat ∈ 0 :: codes := by
  by_cases hvalid : n.isValidChar
  · rw [Char.ofNat, dif_pos hvalid]
    exact List.mem_cons_of_mem _ h
  · rw [Char.ofNat, dif_neg hvalid]
    exact List.mem_cons_self

/-! ## Lower case -/

/-- A character that is its own lower case, whatever stands around it. -/
def IsLower (c : Char) : Prop :=
  c ≠ capitalSigma ∧ lowerChar c = [c]

instance (c : Char) : Decidable (IsLower c) :=
  inferInstanceAs (Decidable (_ ∧ _))

theorem isLower_of_not_mem {c : Char} (hspecial : c ≠ capitalSigma ∧ c ≠ 'İ')
    (h : c.toNat ∉ lowerRuns.flatMap CaseRun.members) : IsLower c := by
  refine ⟨hspecial.1, ?_⟩
  rw [lowerChar, if_neg hspecial.2, CaseRun.apply_of_not_mem h, Char.ofNat_toNat]

theorem isLower_ofNat {n : Nat} (h : n ∈ lowerRuns.flatMap CaseRun.counterparts) :
    IsLower (Char.ofNat n) := by
  have hbits : codeBits (0 :: lowerRuns.flatMap CaseRun.counterparts) &&&
      codeBits ('İ'.toNat :: capitalSigma.toNat :: lowerRuns.flatMap CaseRun.members) = 0 := by
    decide +kernel
  have hnone := not_mem_of_codeBits hbits (toNat_ofNat_mem n h)
  simp only [List.mem_cons, not_or] at hnone
  obtain ⟨hdotted, hsigma, hruns⟩ := hnone
  exact isLower_of_not_mem ⟨fun hc => hsigma (hc ▸ rfl), fun hc => hdotted (hc ▸ rfl)⟩ hruns

theorem isLower_of_mem_lowerChar {c d : Char} (hc : c ≠ capitalSigma) (h : d ∈ lowerChar c) :
    IsLower d := by
  by_cases hdotted : c = 'İ'
  · have hall : (lowerChar 'İ').all (IsLower ·) = true := by decide +kernel
    exact of_decide_eq_true (List.all_eq_true.1 hall d (hdotted ▸ h))
  · have hlower : lowerChar c = [Char.ofNat (CaseRun.apply c.toNat lowerRuns)] := by
      rw [lowerChar, if_neg hdotted]
    obtain rfl := List.mem_singleton.1 (hlower ▸ h)
    rcases CaseRun.apply_eq_or_mem c.toNat lowerRuns with hsame | hmem
    · rw [hsame, Char.ofNat_toNat] at hlower ⊢
      exact ⟨hc, hlower⟩
    · exact isLower_ofNat hmem

theorem isLower_of_mem_lowerAfter {d : Char} {before cs : List Char}
    (h : d ∈ lowerAfter before cs) : IsLower d := by
  induction cs generalizing before with
  | nil => exact nomatch h
  | cons c rest ih =>
    rw [lowerAfter, List.mem_append] at h
    rcases h with h | h
    · split at h
      · rw [List.mem_singleton.1 h, lowerSigma]
        split
        · decide +kernel
        · decide +kernel
      · next hc => exact isLower_of_mem_lowerChar hc h
    · exact ih h

theorem lowerAfter_of_forall_isLower {cs : List Char} (h : ∀ c ∈ cs, IsLower c)
    (before : List Char) : lowerAfter before cs = cs := by
  induction cs generalizing before with
  | nil => rfl
  | cons c rest ih =>
    obtain ⟨hc, hrest⟩ := List.forall_mem_cons.1 h
    rw [lowerAfter, if_neg hc.1, hc.2, ih hrest]
    rfl

/-- The lower case of a text is its own lower case. -/
theorem lower_lower (s : String) : lower (lower s) = lower s := by
  unfold lower
  rw [String.toList_ofList]
  congr 1
  exact lowerAfter_of_forall_isLower (fun d hd => isLower_of_mem_lowerAfter hd) []

/-! ## Upper case -/

/-- A character that is its own upper case and no blank. -/
def IsUpper (c : Char) : Prop :=
  upperChar c = [c] ∧ isBlank c = false

/-- The characters that have another upper case. -/
def upperSources : List Nat :=
  upperRuns.flatMap CaseRun.members ++ upperExpansions.map (·.1)

/-- The characters that others have as their upper case or in it. -/
def upperTargets : List Nat :=
  upperRuns.flatMap CaseRun.counterparts ++ upperExpansions.flatMap (·.2)

theorem upperChar_of_not_mem {c : Char} (h : c.toNat ∉ upperSources) : upperChar c = [c] := by
  rw [upperSources, List.mem_append, not_or] at h
  have hnone : upperExpansions.lookup c.toNat = none := by
    refine List.lookup_eq_none_iff.2 fun e he => ?_
    simp only [bne_iff_ne]
    intro heq
    exact h.2 (List.mem_map.2 ⟨e, he, heq.symm⟩)
  rw [upperChar, hnone]
  show [Char.ofNat (CaseRun.apply c.toNat upperRuns)] = [c]
  rw [CaseRun.apply_of_not_mem h.1, Char.ofNat_toNat]

theorem mem_codesBetween_of_isBlank {c : Char} (h : isBlank c = true) :
    c.toNat ∈ codesBetween whiteSpace.changes :=
  mem_codesBetween rfl h

theorem upperChar_of_isBlank {c : Char} (h : isBlank c = true) : upperChar c = [c] := by
  have hbits : codeBits (codesBetween whiteSpace.changes) &&& codeBits upperSources = 0 := by
    decide +kernel
  exact upperChar_of_not_mem (not_mem_of_codeBits hbits (mem_codesBetween_of_isBlank h))

theorem isUpper_ofNat {n : Nat} (h : n ∈ upperTargets) : IsUpper (Char.ofNat n) := by
  have hbits : codeBits (0 :: upperTargets) &&&
      codeBits (upperSources ++ codesBetween whiteSpace.changes) = 0 := by
    decide +kernel
  have hnone := not_mem_of_codeBits hbits (toNat_ofNat_mem n h)
  rw [List.mem_append, not_or] at hnone
  exact ⟨upperChar_of_not_mem hnone.1,
    Bool.eq_false_iff.2 fun hblank => hnone.2 (mem_codesBetween_of_isBlank hblank)⟩

theorem upperChar_ne_nil (c : Char) : upperChar c ≠ [] := by
  have hall : ∀ e ∈ upperExpansions, e.2 ≠ [] := by decide
  unfold upperChar
  split
  · next expansion hlookup =>
    obtain ⟨before, after, htable, -⟩ := List.lookup_eq_some_iff.1 hlookup
    have hmem : (c.toNat, expansion) ∈ upperExpansions := by simp [htable]
    simpa using hall _ hmem
  · exact List.cons_ne_nil _ _

theorem isUpper_of_mem_upperChar {c d : Char} (hc : isBlank c = false) (h : d ∈ upperChar c) :
    IsUpper d := by
  cases hlookup : upperExpansions.lookup c.toNat with
  | some expansion =>
    rw [upperChar, hlookup] at h
    obtain ⟨n, hn, rfl⟩ := List.mem_map.1 h
    obtain ⟨before, after, htable, -⟩ := List.lookup_eq_some_iff.1 hlookup
    have hmem : (c.toNat, expansion) ∈ upperExpansions := by simp [htable]
    exact isUpper_ofNat (List.mem_append_right _ (List.mem_flatMap.2 ⟨_, hmem, hn⟩))
  | none =>
    have hupper : upperChar c = [Char.ofNat (CaseRun.apply c.toNat upperRuns)] := by
      rw [upperChar, hlookup]
    obtain rfl := List.mem_singleton.1 (hupper ▸ h)
    rcases CaseRun.apply_eq_or_mem c.toNat upperRuns with hsame | hmem
    · rw [hsame, Char.ofNat_toNat] at hupper ⊢
      exact ⟨hupper, hc⟩
    · exact isUpper_ofNat (List.mem_append_left _ hmem)

theorem upperChar_of_mem_upperChar {c d : Char} (h : d ∈ upperChar c) : upperChar d = [d] := by
  by_cases hc : isBlank c = true
  · have hsame : upperChar c = [c] := upperChar_of_isBlank hc
    obtain rfl := List.mem_singleton.1 (hsame ▸ h)
    exact hsame
  · exact (isUpper_of_mem_upperChar (by simpa using hc) h).1

theorem flatMap_upperChar_of_forall {cs : List Char} (h : ∀ c ∈ cs, upperChar c = [c]) :
    cs.flatMap upperChar = cs := by
  induction cs with
  | nil => rfl
  | cons c rest ih =>
    obtain ⟨hc, hrest⟩ := List.forall_mem_cons.1 h
    rw [List.flatMap_cons, hc, ih hrest]
    rfl

theorem toList_upper (s : String) : (upper s).toList = s.toList.flatMap upperChar :=
  String.toList_ofList

/-- The upper case of a text is its own upper case. -/
theorem upper_upper (s : String) : upper (upper s) = upper s := by
  apply String.toList_injective
  rw [toList_upper (upper s), toList_upper]
  refine flatMap_upperChar_of_forall fun d hd => ?_
  obtain ⟨c, -, hd⟩ := List.mem_flatMap.1 hd
  exact upperChar_of_mem_upperChar hd

/-! ## Upper-case words -/

theorem upper_unwords (ws : List String) : upper (unwords ws) = unwords (ws.map upper) := by
  have hblank : upperChar ' ' = [' '] := upperChar_of_isBlank (by decide)
  have hlists (css : List (List Char)) : ([' '].intercalate css).flatMap upperChar =
      [' '].intercalate (css.map (·.flatMap upperChar)) := by
    induction css with
    | nil => rfl
    | cons cs css ih =>
      cases css with
      | nil => simp
      | cons ds css =>
        rw [List.intercalate_cons_cons, List.flatMap_append, List.flatMap_append, ih]
        simp [hblank, List.intercalate_cons_cons]
  apply String.toList_injective
  simp only [toList_upper, toList_unwords, hlists, List.map_map, Function.comp_def]

/-- The words of a text in upper case are its words in upper case. -/
theorem words_upper (s : String) : words (upper (unwords (words s))) = (words s).map upper := by
  rw [upper_unwords]
  refine words_unwords fun w hw => ?_
  obtain ⟨v, hv, rfl⟩ := List.mem_map.1 hw
  obtain ⟨cs, hcs, rfl⟩ := List.mem_map.1 hv
  obtain ⟨hne, hblank⟩ := mem_stretches hcs
  rw [toList_upper, String.toList_ofList]
  constructor
  · intro hnil
    obtain ⟨c, hc⟩ := List.exists_mem_of_ne_nil cs hne
    exact upperChar_ne_nil c (List.flatMap_eq_nil_iff.1 hnil c hc)
  · intro d hd
    obtain ⟨c, hc, hd⟩ := List.mem_flatMap.1 hd
    exact (isUpper_of_mem_upperChar (hblank c hc) hd).2

end Text

/-- The spelling of a postcode that counts is its own one. -/
theorem canonicalPostcode_idem (code : String) :
    canonicalPostcode (canonicalPostcode code) = canonicalPostcode code := by
  unfold canonicalPostcode
  rw [Text.words_upper, ← Text.upper_unwords, Text.upper_upper]

end Geocoding
