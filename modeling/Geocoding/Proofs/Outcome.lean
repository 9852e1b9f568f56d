/-!
# Outcomes

An index, a lexicon or a cancellation flag can be anything that answers when it is asked, and its
answers can depend on what happened before. Such computations are those of `StateM σ`, where `σ` are
the worlds they live in. `outcome` is what one of them gives in a world, an answer or an error, and
the world that it leaves behind; `Ends` says what is true of both. `Returns` is about answers alone:
it says what is true of them whichever world they are given in.
-/

namespace Geocoding

variable {σ ε ε' α β : Type}

/-- What a computation gives in a world, and the world that it leaves behind. -/
def outcome (x : ExceptT ε (StateM σ) α) (w : σ) : Except ε α × σ :=
  x.run.run w

theorem outcome_pure (a : α) (w : σ) : outcome (pure a : ExceptT ε (StateM σ) α) w = (.ok a, w) :=
  rfl

theorem outcome_liftM (x : StateM σ α) (w : σ) :
    outcome (liftM x : ExceptT ε (StateM σ) α) w = (.ok (x w).1, (x w).2) := rfl

theorem outcome_adapt (x : ExceptT ε (StateM σ) α) (f : ε → ε') (w : σ) :
    outcome (x.adapt f) w = ((outcome x w).1.mapError f, (outcome x w).2) := rfl

/-- An error is the end; otherwise the second computation starts in the world that the first one
left. -/
theorem outcome_bind (x : ExceptT ε (StateM σ) α) (f : α → ExceptT ε (StateM σ) β) (w : σ) :
    outcome (x >>= f) w =
      match outcome x w with
      | (.ok a, w') => outcome (f a) w'
      | (.error e, w') => (.error e, w') := by
  simp only [outcome, ExceptT.run_bind, StateT.run_bind]
  rcases x.run.run w with ⟨_ | _, _⟩
  · rfl
  · rfl

theorem outcome_bind_of_ok {x : ExceptT ε (StateM σ) α} {w w' : σ} {a : α}
    (h : outcome x w = (.ok a, w')) (f : α → ExceptT ε (StateM σ) β) :
    outcome (x >>= f) w = outcome (f a) w' := by
  rw [outcome_bind, h]

theorem outcome_bind_of_error {x : ExceptT ε (StateM σ) α} {w w' : σ} {e : ε}
    (h : outcome x w = (.error e, w')) (f : α → ExceptT ε (StateM σ) β) :
    outcome (x >>= f) w = (.error e, w') := by
  rw [outcome_bind, h]

/-! ## What is true at the end -/

/-- Started in the world, the computation ends with an answer or an error, and in a world, that are
related so. -/
def Ends (x : ExceptT ε (StateM σ) α) (w : σ) (Q : Except ε α → σ → Prop) : Prop :=
  Q (outcome x w).1 (outcome x w).2

variable {x : ExceptT ε (StateM σ) α} {w : σ} {P Q : Except ε α → σ → Prop}

theorem Ends.mono (h : Ends x w P) (hPQ : ∀ a w', P a w' → Q a w') : Ends x w Q :=
  hPQ _ _ h

theorem ends_trivial (x : ExceptT ε (StateM σ) α) (w : σ) : Ends x w fun _ _ => True :=
  trivial

theorem ends_pure {a : α} (h : Q (.ok a) w) : Ends (pure a) w Q :=
  h

theorem ends_throw {e : ε} (h : Q (.error e) w) : Ends (throw e) w Q :=
  h

theorem Ends.bind {f : α → ExceptT ε (StateM σ) β} {R : Except ε β → σ → Prop} (hx : Ends x w P)
    (hok : ∀ a w', P (.ok a) w' → Ends (f a) w' R)
    (herror : ∀ e w', P (.error e) w' → R (.error e) w') : Ends (x >>= f) w R := by
  rw [Ends] at hx ⊢
  rw [outcome_bind]
  rcases houtcome : outcome x w with ⟨e | a, w'⟩
  · rw [houtcome] at hx
    exact herror e w' hx
  · rw [houtcome] at hx
    exact hok a w' hx

theorem ends_ite {p : Prop} [Decidable p] {y : ExceptT ε (StateM σ) α} (hx : p → Ends x w Q)
    (hy : ¬ p → Ends y w Q) : Ends (if p then x else y) w Q := by
  split
  · next h => exact hx h
  · next h => exact hy h

/-! ## What is true of answers -/

/-- In whatever world the computation is started, an answer that it gives has the property. -/
def Returns (x : ExceptT ε (StateM σ) α) (P : α → Prop) : Prop :=
  ∀ w, Ends x w fun out _ => ∀ a, out = .ok a → P a

section

variable {P Q : α → Prop} {y : ExceptT ε (StateM σ) α}

theorem Returns.mono (h : Returns x P) (hPQ : ∀ a, P a → Q a) : Returns x Q :=
  fun w => (h w).mono fun _ _ hout a ha => hPQ a (hout a ha)

/-- An answer is given in some world. -/
theorem returns_outcome (x : ExceptT ε (StateM σ) α) :
    Returns x fun a => ∃ w w', outcome x w = (.ok a, w') :=
  fun w _ ha => ⟨w, _, Prod.ext ha rfl⟩

theorem returns_trivial (x : ExceptT ε (StateM σ) α) : Returns x fun _ => True :=
  fun _ _ _ => trivial

theorem returns_pure {a : α} (h : P a) : Returns (pure a : ExceptT ε (StateM σ) α) P := by
  intro w b hb
  obtain rfl := Except.ok.inj hb
  exact h

theorem returns_throw (e : ε) : Returns (throw e : ExceptT ε (StateM σ) α) P := by
  intro w a ha
  cases ha

theorem Returns.bind {f : α → ExceptT ε (StateM σ) β} {R : β → Prop} (hx : Returns x P)
    (hf : ∀ a, P a → Returns (f a) R) : Returns (x >>= f) R := by
  refine fun w => (hx w).bind (fun a w' ha => hf a (ha a rfl) w') fun e w' _ b hb => ?_
  cases hb

theorem returns_ite {p : Prop} [Decidable p] (hx : p → Returns x P) (hy : ¬ p → Returns y P) :
    Returns (if p then x else y) P :=
  fun w => ends_ite (fun h => hx h w) fun h => hy h w

theorem Returns.adapt (h : Returns x P) (f : ε → ε') : Returns (x.adapt f) P := by
  intro w a ha
  rw [outcome_adapt] at ha
  cases hout : (outcome x w).1 with
  | error e =>
    rw [hout] at ha
    cases ha
  | ok b =>
    rw [hout] at ha
    obtain rfl : b = a := Except.ok.inj ha
    exact h w b hout

end

end Geocoding
