import Geocoding.Best
import Mathlib.Order.Basic

/-!
# Laws of the best member

The best member of a list is one of its members, and only an empty list has none. If members are
compared by a key, then no other member has a lesser one (`key_le_of_best?_eq_some`).
-/

namespace Geocoding

variable {α β κ : Type} {replaces : α → α → Bool} {xs : List α} {x : α}

theorem foldl_better_eq_or (replaces : α → α → Bool) (xs : List α) (best : Option α) :
    xs.foldl (better replaces) best = best ∨
      ∃ x ∈ xs, xs.foldl (better replaces) best = some x := by
  induction xs generalizing best with
  | nil => exact Or.inl rfl
  | cons x xs ih =>
    rw [List.foldl_cons]
    rcases ih (better replaces best x) with h | ⟨y, hy, h⟩
    · have hnext : better replaces best x = best ∨ better replaces best x = some x := by
        cases best with
        | none => exact Or.inr rfl
        | some b =>
          rw [better]
          split
          · exact Or.inr rfl
          · exact Or.inl rfl
      rcases hnext with hnext | hnext
      · exact Or.inl (h.trans hnext)
      · exact Or.inr ⟨x, List.mem_cons_self, h.trans hnext⟩
    · exact Or.inr ⟨y, List.mem_cons_of_mem _ hy, h⟩

theorem mem_of_best?_eq_some (h : best? replaces xs = some x) : x ∈ xs := by
  rcases foldl_better_eq_or replaces xs none with hnone | ⟨y, hy, hsome⟩
  · exact nomatch hnone.symm.trans h
  · obtain rfl := Option.some.inj (hsome.symm.trans h)
    exact hy

theorem best?_eq_none_iff : best? replaces xs = none ↔ xs = [] := by
  have hsome (xs : List α) (x : α) : xs.foldl (better replaces) (some x) ≠ none := by
    induction xs generalizing x with
    | nil => exact Option.some_ne_none x
    | cons y ys ih => exact ih _
  cases xs with
  | nil => simp [best?]
  | cons x xs => simpa [best?, better] using hsome xs x

theorem best?_map {f : α → β} {replaces' : β → β → Bool}
    (h : ∀ x y, replaces' (f x) (f y) = replaces x y) (xs : List α) :
    best? replaces' (xs.map f) = (best? replaces xs).map f := by
  unfold best?
  rw [List.foldl_map]
  show List.foldl _ (Option.map f none) xs = _
  refine List.foldl_hom (Option.map f) ?_
  intro best x
  cases best with
  | none => rfl
  | some b =>
    show some (if replaces' (f x) (f b) then f x else f b) =
      some (f (if replaces x b then x else b))
    rw [h]
    split <;> rfl

section

variable [Preorder κ] {key : α → κ} {p : α → Prop}
  (hnew : ∀ x y, p x → p y → replaces x y = true → key x ≤ key y)
  (hold : ∀ x y, p x → p y → replaces x y = false → key y ≤ key x)

include hnew hold

/-- The key of the best member so far only becomes less, and is no greater than that of any member
before. -/
theorem key_le_of_foldl_better (hp : ∀ x ∈ xs, p x) {best : Option α} (hbest : ∀ b ∈ best, p b)
    (h : xs.foldl (better replaces) best = some x) :
    (∀ b ∈ best, key x ≤ key b) ∧ ∀ y ∈ xs, key x ≤ key y := by
  induction xs generalizing best with
  | nil =>
    obtain rfl : best = some x := h
    exact ⟨fun b hb => (Option.some.inj hb) ▸ le_refl _, nofun⟩
  | cons y ys ih =>
    obtain ⟨hy, hys⟩ := List.forall_mem_cons.1 hp
    rw [List.foldl_cons] at h
    cases best with
    | none =>
      obtain ⟨hfirst, hrest⟩ := ih hys (fun b hb => Option.some.inj hb ▸ hy) h
      exact ⟨nofun, List.forall_mem_cons.2 ⟨hfirst y rfl, hrest⟩⟩
    | some b =>
      have hb : p b := hbest b rfl
      cases hreplaces : replaces y b with
      | true =>
        rw [better, hreplaces, if_pos rfl] at h
        obtain ⟨hfirst, hrest⟩ := ih hys (fun c hc => Option.some.inj hc ▸ hy) h
        have hle : key x ≤ key b := (hfirst y rfl).trans (hnew y b hy hb hreplaces)
        exact ⟨fun c hc => Option.some.inj hc ▸ hle, List.forall_mem_cons.2 ⟨hfirst y rfl, hrest⟩⟩
      | false =>
        rw [better, hreplaces, if_neg Bool.false_ne_true] at h
        obtain ⟨hfirst, hrest⟩ := ih hys hbest h
        have hle : key x ≤ key y := (hfirst b rfl).trans (hold y b hy hb hreplaces)
        exact ⟨hfirst, List.forall_mem_cons.2 ⟨hle, hrest⟩⟩

/-- If members are compared by their keys, no member has a lesser key than the best one. -/
theorem key_le_of_best?_eq_some (hp : ∀ x ∈ xs, p x) (h : best? replaces xs = some x) :
    ∀ y ∈ xs, key x ≤ key y := by
  have hnone : ∀ b ∈ (none : Option α), p b := nofun
  exact (key_le_of_foldl_better hnew hold hp hnone h).2

end

end Geocoding
