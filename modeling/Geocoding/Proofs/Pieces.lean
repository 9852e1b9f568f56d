import Geocoding.Request.Bracketed
import Mathlib.Data.List.Infix

/-!
# Texts in pieces

The terms that are taken out of a query are written in brackets, and no term has another opening
bracket in it (`ReadsTerms`). So two terms never overlap, and a text falls into pieces in one way
(`Divides`): its terms, all of them (`Divides.eq_append_term`), and the characters between them.

Terms are blanked one after the other, each wherever its text stands by then. What keeps this from
going astray is that the blanked text has no term: then no term comes into being on the way, the
text stays divided into the same pieces less the terms that are gone (`Divides.blankOut`), and at
the end every term has become one space (`Divides.blankOut_eq`).
-/

namespace Geocoding

/-! ## Replacing -/

namespace Text

variable {old new : List Char}

theorem replaceFrom_append (xs ys : List Char) :
    replaceFrom old new xs.length (xs ++ ys) = replaceAll old new ys := by
  induction xs with
  | nil => rfl
  | cons x xs ih => exact ih

theorem replaceAll_append_self (hne : old ≠ []) (cs : List Char) :
    replaceAll old new (old ++ cs) = new ++ replaceAll old new cs := by
  obtain ⟨c, rest, rfl⟩ := List.exists_cons_of_ne_nil hne
  have hstart : (c :: rest).isPrefixOf (c :: (rest ++ cs)) = true :=
    List.isPrefixOf_iff_prefix.2 (List.prefix_append (c :: rest) cs)
  rw [replaceAll, List.cons_append, replaceFrom, if_pos hstart]
  exact congrArg _ (replaceFrom_append rest cs)

theorem replaceAll_cons {c : Char} {cs : List Char} (h : ¬ old <+: c :: cs) :
    replaceAll old new (c :: cs) = c :: replaceAll old new cs := by
  rw [replaceAll, replaceFrom, if_neg (fun hstart => h (List.isPrefixOf_iff_prefix.1 hstart))]
  rfl

/-- A text is not found where its first character is not. -/
theorem replaceAll_append {first : Char} {rest : List Char} (hold : old = first :: rest)
    {xs : List Char} (hxs : first ∉ xs) (ys : List Char) :
    replaceAll old new (xs ++ ys) = xs ++ replaceAll old new ys := by
  induction xs with
  | nil => rfl
  | cons x xs ih =>
    have hnot : ¬ old <+: x :: (xs ++ ys) := fun h =>
      List.ne_of_not_mem_cons hxs (List.cons_prefix_cons.1 (hold ▸ h)).1
    rw [List.cons_append, replaceAll_cons hnot, ih (List.not_mem_of_not_mem_cons hxs),
      List.cons_append]

end Text

namespace Bracketed

/-! ## Pieces -/

/-- A piece of a text: a term, or a character outside of terms. -/
inductive Piece (α : Type) where
  | char (c : Char)
  | term (a : α)

namespace Piece

variable {α : Type}

/-- The term of a piece. -/
def term? : Piece α → Option α
  | char _ => none
  | term a => some a

/-- The characters of a piece. -/
def chars (text : α → List Char) : Piece α → List Char
  | char c => [c]
  | term a => text a

/-- What blanking leaves of a piece: the character, or a space for a term. -/
def blank : Piece α → Char
  | char c => c
  | term _ => ' '

end Piece

variable {α : Type} {isTerm : α → Prop} {text : α → List Char} {read? : List Char → Option α}
  {pieces : List (Piece α)} {cs : List Char} {a : α}

theorem mem_filterMap_term?_iff : a ∈ pieces.filterMap Piece.term? ↔ .term a ∈ pieces := by
  rw [List.mem_filterMap]
  constructor
  · rintro ⟨_ | b, hb, heq⟩
    · exact nomatch heq
    · rwa [← Option.some.inj heq]
  · exact fun ha => ⟨_, ha, rfl⟩

theorem filterMap_term?_eq_nil_iff :
    pieces.filterMap Piece.term? = [] ↔ ∀ a, .term a ∉ pieces := by
  rw [List.eq_nil_iff_forall_not_mem]
  exact forall_congr' fun a => not_congr mem_filterMap_term?_iff

/-- The characters of some pieces. -/
def joined (text : α → List Char) (pieces : List (Piece α)) : List Char :=
  pieces.flatMap (Piece.chars text)

theorem joined_append (pieces pieces' : List (Piece α)) :
    joined text (pieces ++ pieces') = joined text pieces ++ joined text pieces' :=
  List.flatMap_append

/-- Blanking pieces without a term leaves them as they are. -/
theorem joined_eq_map_blank (hnone : ∀ a, .term a ∉ pieces) :
    joined text pieces = pieces.map Piece.blank := by
  induction pieces with
  | nil => rfl
  | cons piece pieces ih =>
    have hrest := ih fun a ha => hnone a (List.mem_cons_of_mem _ ha)
    cases piece with
    | char c => exact congrArg _ hrest
    | term a => exact absurd List.mem_cons_self (hnone a)

/-- A term stands somewhere in the text. -/
def Occurs (isTerm : α → Prop) (text : α → List Char) (cs : List Char) : Prop :=
  ∃ a, isTerm a ∧ text a <:+: cs

theorem Occurs.cons {c : Char} (h : Occurs isTerm text cs) : Occurs isTerm text (c :: cs) := by
  obtain ⟨a, ha, hwithin⟩ := h
  exact ⟨a, ha, hwithin.trans (List.suffix_cons _ _).isInfix⟩

/-- `read?` reads the term that a text begins with. A term begins with an opening bracket and has no
other one. -/
structure ReadsTerms (isTerm : α → Prop) (text : α → List Char) (read? : List Char → Option α) :
    Prop where
  read?_eq_some_iff : ∀ cs a, read? cs = some a ↔ isTerm a ∧ text a <+: cs
  exists_eq_cons : ∀ a, isTerm a → ∃ rest, text a = '[' :: rest ∧ '[' ∉ rest

namespace ReadsTerms

theorem read?_append (h : ReadsTerms isTerm text read?) (ha : isTerm a) (cs : List Char) :
    read? (text a ++ cs) = some a :=
  (h.read?_eq_some_iff _ _).2 ⟨ha, List.prefix_append _ _⟩

theorem read?_eq_none_iff (h : ReadsTerms isTerm text read?) :
    read? cs = none ↔ ∀ a, isTerm a → ¬ text a <+: cs := by
  rw [Option.eq_none_iff_forall_ne_some]
  exact forall_congr' fun a => by rw [Ne, h.read?_eq_some_iff, not_and]

/-- One term at most stands at the start of a text. -/
theorem eq_of_prefix_append (h : ReadsTerms isTerm text read?) {b : α} (ha : isTerm a)
    (hb : isTerm b) (hstart : text a <+: text b ++ cs) : a = b := by
  have hread := (h.read?_eq_some_iff _ _).2 ⟨ha, hstart⟩
  rw [h.read?_append hb] at hread
  exact (Option.some.inj hread).symm

end ReadsTerms

/-- The pieces of a text: wherever a term can be read it is one of them. -/
inductive Divides (isTerm : α → Prop) (text : α → List Char) (read? : List Char → Option α) :
    List (Piece α) → List Char → Prop
  | nil : Divides isTerm text read? [] []
  | term {a : α} {pieces : List (Piece α)} {cs : List Char} (ha : isTerm a)
      (rest : Divides isTerm text read? pieces cs) :
      Divides isTerm text read? (.term a :: pieces) (text a ++ cs)
  | char {c : Char} {pieces : List (Piece α)} {cs : List Char} (hc : read? (c :: cs) = none)
      (rest : Divides isTerm text read? pieces cs) :
      Divides isTerm text read? (.char c :: pieces) (c :: cs)

theorem exists_divides (h : ReadsTerms isTerm text read?) (cs : List Char) :
    ∃ pieces, Divides isTerm text read? pieces cs := by
  induction hlength : cs.length using Nat.strongRecOn generalizing cs with
  | ind n ih =>
    subst hlength
    cases cs with
    | nil => exact ⟨[], .nil⟩
    | cons c cs =>
      cases hread : read? (c :: cs) with
      | none =>
        obtain ⟨pieces, hpieces⟩ := ih _ (Nat.lt_succ_self _) cs rfl
        exact ⟨_, .char hread hpieces⟩
      | some a =>
        obtain ⟨ha, rest, hrest⟩ := (h.read?_eq_some_iff _ _).1 hread
        obtain ⟨_, htext, -⟩ := h.exists_eq_cons a ha
        have hlt : rest.length < (c :: cs).length := by
          rw [← hrest, htext, List.cons_append, List.length_cons, List.length_append]
          omega
        obtain ⟨pieces, hpieces⟩ := ih _ hlt rest rfl
        exact ⟨.term a :: pieces, hrest ▸ Divides.term ha hpieces⟩

theorem findAllFrom_append {find? : List Char → Option (α × Nat)} (xs ys : List Char) :
    findAllFrom find? xs.length (xs ++ ys) = findAll find? ys := by
  induction xs with
  | nil => rfl
  | cons x xs ih => exact ih

namespace Divides

theorem joined_eq (hpieces : Divides isTerm text read? pieces cs) : joined text pieces = cs := by
  induction hpieces with
  | nil => rfl
  | term _ _ ih => exact congrArg _ ih
  | char _ _ ih => exact congrArg _ ih

theorem isTerm_of_mem (hpieces : Divides isTerm text read? pieces cs) (ha : Piece.term a ∈ pieces) :
    isTerm a := by
  induction hpieces with
  | nil => exact nomatch ha
  | term hb _ ih =>
    rcases List.mem_cons.1 ha with heq | ha
    · obtain rfl := Piece.term.inj heq
      exact hb
    · exact ih ha
  | char _ _ ih => exact ih ((List.mem_cons.1 ha).resolve_left nofun)

/-- The terms among the pieces are those that are found from left to right. -/
theorem findAll_eq (h : ReadsTerms isTerm text read?)
    (hpieces : Divides isTerm text read? pieces cs) :
    findAll (fun cs => (read? cs).map fun a => (a, (text a).length)) cs =
      pieces.filterMap Piece.term? := by
  induction hpieces with
  | nil => rfl
  | @term a _ cs ha _ ih =>
    obtain ⟨rest, htext, -⟩ := h.exists_eq_cons a ha
    have hread := h.read?_append ha cs
    rw [htext, List.cons_append] at hread ⊢
    rw [findAll, findAllFrom, hread, Option.map_some, htext]
    show a :: findAllFrom _ rest.length (rest ++ cs) = a :: _
    rw [findAllFrom_append, ih]
  | char hc _ ih =>
    rw [findAll, findAllFrom, hc]
    exact ih

/-- Wherever a term stands it is a piece. -/
theorem eq_append_term (h : ReadsTerms isTerm text read?)
    (hpieces : Divides isTerm text read? pieces cs) (ha : isTerm a) {before after : List Char}
    (hcs : cs = before ++ (text a ++ after)) :
    ∃ front back, pieces = front ++ .term a :: back ∧ before = joined text front ∧
      after = joined text back := by
  obtain ⟨rest, htext, -⟩ := h.exists_eq_cons a ha
  induction hpieces generalizing before with
  | nil => simp [htext] at hcs
  | @term b pieces cs hb hrest ih =>
    obtain ⟨rest', htext', hnot⟩ := h.exists_eq_cons b hb
    rcases List.append_eq_append_iff.1 hcs with ⟨before', hbefore, hback⟩ | ⟨inner, hinner, hback⟩
    · obtain ⟨front, back, hsplit, hfront, hafter⟩ := ih hback
      refine ⟨.term b :: front, back, congrArg _ hsplit, ?_, hafter⟩
      rw [hbefore, hfront]
      rfl
    · cases before with
      | nil =>
        obtain rfl : a = b := h.eq_of_prefix_append ha hb ⟨after, hcs.symm⟩
        have hcancel : after = cs := (List.append_cancel_left hcs).symm
        exact ⟨[], pieces, rfl, rfl, hcancel.trans hrest.joined_eq.symm⟩
      | cons c before =>
        cases inner with
        | nil =>
          obtain ⟨front, back, hsplit, hfront, hafter⟩ := @ih [] hback.symm
          refine ⟨.term b :: front, back, congrArg _ hsplit, ?_, hafter⟩
          rw [← hinner.trans (List.append_nil _)]
          show text b = text b ++ joined text front
          rw [← hfront, List.append_nil]
        -- the term would begin inside of the other one, which has no second opening bracket
        | cons d inner =>
          rw [htext] at hback
          rw [htext'] at hinner
          have hd : '[' = d := (List.cons.inj hback).1
          have hrest' : rest' = before ++ d :: inner := (List.cons.inj hinner).2
          exact absurd (by rw [hrest', hd]; simp) hnot
  | @char c pieces cs hc hrest ih =>
    cases before with
    | nil => exact absurd ⟨after, hcs.symm⟩ (h.read?_eq_none_iff.1 hc a ha)
    | cons d before =>
      obtain ⟨hd, hback⟩ := List.cons.inj hcs
      obtain ⟨front, back, hsplit, hfront, hafter⟩ := ih hback
      refine ⟨.char c :: front, back, congrArg _ hsplit, ?_, hafter⟩
      rw [hd, hfront]
      rfl

theorem infix_of_mem (hpieces : Divides isTerm text read? pieces cs)
    (ha : Piece.term a ∈ pieces) : text a <:+: cs := by
  obtain ⟨front, back, rfl⟩ := List.append_of_mem ha
  rw [← hpieces.joined_eq, joined_append]
  exact ⟨joined text front, joined text back, by rw [List.append_assoc]; rfl⟩

/-- A text has terms just if they are among its pieces. -/
theorem occurs_iff (h : ReadsTerms isTerm text read?)
    (hpieces : Divides isTerm text read? pieces cs) :
    Occurs isTerm text cs ↔ ∃ a, .term a ∈ pieces := by
  constructor
  · rintro ⟨a, ha, before, after, hcs⟩
    rw [List.append_assoc] at hcs
    obtain ⟨front, back, rfl, -⟩ := hpieces.eq_append_term h ha hcs.symm
    exact ⟨a, by simp⟩
  · exact fun ⟨a, ha⟩ => ⟨a, hpieces.isTerm_of_mem ha, hpieces.infix_of_mem ha⟩

/-! ## Blanking -/

/-- Up to its first term a text is the same when it is blanked. -/
theorem prefix_map_blank (h : ReadsTerms isTerm text read?)
    (hpieces : Divides isTerm text read? pieces cs) {xs : List Char} (hxs : '[' ∉ xs)
    (hstart : xs <+: cs) : xs <+: pieces.map Piece.blank := by
  induction hpieces generalizing xs with
  | nil => exact hstart
  | @term a _ _ ha _ _ =>
    obtain ⟨rest, htext, -⟩ := h.exists_eq_cons a ha
    cases xs with
    | nil => exact List.nil_prefix
    | cons x xs =>
      rw [htext, List.cons_append] at hstart
      exact absurd (List.cons_prefix_cons.1 hstart).1.symm (List.ne_of_not_mem_cons hxs)
  | char _ _ ih =>
    cases xs with
    | nil => exact List.nil_prefix
    | cons x xs =>
      obtain ⟨heq, htail⟩ := List.cons_prefix_cons.1 hstart
      exact List.cons_prefix_cons.2 ⟨heq, ih (List.not_mem_of_not_mem_cons hxs) htail⟩

/-- The pieces, with a space for every piece that is a term with the given text. -/
def without (text : α → List Char) (gone : List Char) : Piece α → Piece α
  | .char c => .char c
  | .term a => if text a = gone then .char ' ' else .term a

theorem map_blank_map_without (gone : List Char) (pieces : List (Piece α)) :
    (pieces.map (without text gone)).map Piece.blank = pieces.map Piece.blank := by
  rw [List.map_map]
  refine List.map_congr_left fun piece _ => ?_
  cases piece with
  | char c => rfl
  | term a =>
    rw [Function.comp_apply, without]
    split
    · rfl
    · rfl

theorem mem_of_mem_map_without {gone : List Char} (ha : .term a ∈ pieces.map (without text gone)) :
    .term a ∈ pieces ∧ text a ≠ gone := by
  obtain ⟨piece, hpiece, heq⟩ := List.mem_map.1 ha
  cases piece with
  | char c => exact nomatch heq
  | term b =>
    rw [without] at heq
    split at heq
    · exact nomatch heq
    · next hne =>
      obtain rfl := Piece.term.inj heq
      exact ⟨hpiece, hne⟩

/-- Blanking a term leaves the other pieces as they are, unless a term comes into being. This could
only be where an opening bracket is followed by what is the same in the blanked text. -/
theorem replaceAll (h : ReadsTerms isTerm text read?)
    (hpieces : Divides isTerm text read? pieces cs)
    (hnone : ¬ Occurs isTerm text (pieces.map Piece.blank)) (ha : isTerm a) :
    Divides isTerm text read? (pieces.map (without text (text a)))
      (Text.replaceAll (text a) [' '] cs) := by
  obtain ⟨rest, htext, -⟩ := h.exists_eq_cons a ha
  have hspace (ds : List Char) : read? (' ' :: ds) = none := by
    refine h.read?_eq_none_iff.2 fun b hb hstart => ?_
    obtain ⟨_, htext, -⟩ := h.exists_eq_cons b hb
    rw [htext] at hstart
    exact absurd (List.cons_prefix_cons.1 hstart).1 (by decide)
  induction hpieces with
  | nil => exact .nil
  | @term b pieces cs hb _ ih =>
    have hrest := ih fun hoccurs => hnone hoccurs.cons
    rw [List.map_cons, without]
    split
    · next heq =>
      rw [heq, Text.replaceAll_append_self (by simp [htext])]
      exact .char (hspace _) hrest
    · next hne =>
      obtain ⟨rest', htext', hnot⟩ := h.exists_eq_cons b hb
      have hstart : ¬ text a <+: text b ++ cs :=
        fun hstart => hne (congrArg text (h.eq_of_prefix_append ha hb hstart).symm)
      have hstays : Text.replaceAll (text a) [' '] (text b ++ cs) =
          text b ++ Text.replaceAll (text a) [' '] cs := by
        rw [htext', List.cons_append] at hstart ⊢
        rw [Text.replaceAll_cons hstart, Text.replaceAll_append htext hnot, List.cons_append]
      rw [hstays]
      exact .term hb hrest
  | @char c pieces cs hc _ ih =>
    have hrest := ih fun hoccurs => hnone hoccurs.cons
    rw [Text.replaceAll_cons (h.read?_eq_none_iff.1 hc a ha)]
    refine .char (h.read?_eq_none_iff.2 fun b hb hstart => hnone ⟨b, hb, ?_⟩) hrest
    obtain ⟨rest', htext', hnot⟩ := h.exists_eq_cons b hb
    rw [htext'] at hstart ⊢
    obtain ⟨heq, htail⟩ := List.cons_prefix_cons.1 hstart
    have hblank := hrest.prefix_map_blank h hnot htail
    rw [map_blank_map_without] at hblank
    exact (List.cons_prefix_cons.2 ⟨heq, hblank⟩).isInfix

/-- Blanking some terms leaves the other pieces as they are, unless a term comes into being. -/
theorem blankOut (h : ReadsTerms isTerm text read?)
    (hpieces : Divides isTerm text read? pieces cs)
    (hnone : ¬ Occurs isTerm text (pieces.map Piece.blank)) {found : List α}
    (hfound : ∀ a ∈ found, isTerm a) :
    ∃ left, Divides isTerm text read? left (blankOut (found.map text) cs) ∧
      left.map Piece.blank = pieces.map Piece.blank ∧
      ∀ a, .term a ∈ left → .term a ∈ pieces ∧ a ∉ found := by
  induction found generalizing pieces cs with
  | nil => exact ⟨pieces, hpieces, rfl, fun a ha => ⟨ha, List.not_mem_nil⟩⟩
  | cons b found ih =>
    obtain ⟨hb, hfound⟩ := List.forall_mem_cons.1 hfound
    have hblank : (pieces.map (without text (text b))).map Piece.blank = pieces.map Piece.blank :=
      map_blank_map_without _ _
    obtain ⟨left, hleft, hsame, hterms⟩ :=
      ih (hpieces.replaceAll h hnone hb) (by rwa [hblank]) hfound
    refine ⟨left, hleft, hsame.trans hblank, fun a ha => ?_⟩
    obtain ⟨hmem, hnot⟩ := hterms a ha
    obtain ⟨hmem, hne⟩ := mem_of_mem_map_without hmem
    exact ⟨hmem, List.not_mem_cons_of_ne_of_not_mem (fun heq => hne (congrArg text heq)) hnot⟩

/-- Blanking all terms leaves a space for each of them, unless a term comes into being. -/
theorem blankOut_eq (h : ReadsTerms isTerm text read?)
    (hpieces : Divides isTerm text read? pieces cs)
    (hnone : ¬ Occurs isTerm text (pieces.map Piece.blank)) :
    Bracketed.blankOut ((pieces.filterMap Piece.term?).map text) cs = pieces.map Piece.blank := by
  obtain ⟨left, hleft, hsame, hterms⟩ :=
    hpieces.blankOut h hnone fun a ha => hpieces.isTerm_of_mem (mem_filterMap_term?_iff.1 ha)
  rw [← hsame, ← hleft.joined_eq]
  refine joined_eq_map_blank fun a ha => ?_
  obtain ⟨hmem', hnot⟩ := hterms a ha
  exact hnot (mem_filterMap_term?_iff.2 hmem')

theorem exists_of_append {front back : List (Piece α)}
    (hpieces : Divides isTerm text read? (front ++ back) cs) :
    ∃ after, Divides isTerm text read? back after := by
  induction front generalizing cs with
  | nil => exact ⟨cs, hpieces⟩
  | cons _ front ih =>
    cases hpieces with
    | term _ hrest => exact ih hrest
    | char _ hrest => exact ih hrest

/-- A term in the blanked text begins with an opening bracket of the text and goes on over some of
its terms. -/
theorem exists_term_of_infix_map_blank (h : ReadsTerms isTerm text read?)
    (hpieces : Divides isTerm text read? pieces cs) (ha : isTerm a)
    (hwithin : text a <:+: pieces.map Piece.blank) :
    ∃ front inner back, pieces = front ++ .char '[' :: (inner ++ back) ∧
      text a = '[' :: inner.map Piece.blank ∧ ∃ b, .term b ∈ inner := by
  obtain ⟨rest, htext, -⟩ := h.exists_eq_cons a ha
  obtain ⟨before, after, hblank⟩ := hwithin
  obtain ⟨front', back, hsplit, hfront', -⟩ := List.map_eq_append_iff.1 hblank.symm
  obtain ⟨front, middle, hsplit', -, hmiddle⟩ := List.map_eq_append_iff.1 hfront'
  rw [htext] at hmiddle
  obtain ⟨piece, inner, rfl, hpiece, hinner⟩ := List.map_eq_cons_iff.1 hmiddle
  have hchar : piece = .char '[' := by
    cases piece with
    | char c => exact congrArg _ hpiece
    | term b => exact absurd (show ' ' = '[' from hpiece) (by decide)
  subst hsplit hsplit' hchar
  rw [List.append_assoc] at hpieces
  refine ⟨front, inner, back, List.append_assoc _ _ _, by rw [htext, hinner], ?_⟩
  -- without a term there it would be a term of the text, and a piece
  by_contra hnone
  have hsame : text a = '[' :: joined text inner := by
    rw [htext, ← hinner, joined_eq_map_blank fun b hb => hnone ⟨b, hb⟩]
  obtain ⟨after, hafter⟩ := hpieces.exists_of_append
  cases hafter with
  | char hread hrest =>
    refine h.read?_eq_none_iff.1 hread a ha ⟨joined text back, ?_⟩
    have hjoined := hrest.joined_eq
    rw [List.append_eq, joined_append] at hjoined
    rw [hsame, ← hjoined, List.cons_append]

end Divides

end Bracketed

end Geocoding
