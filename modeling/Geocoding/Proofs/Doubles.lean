import Geocoding.Geometry.Point
import Mathlib.Data.Prod.Lex

/-!
# Comparing doubles

Doubles other than the value that is no number are compared by a key (`Double.lt_iff`), and that
value is not less than or equal to any (`Double.isNumber_of_le`). A difference has the magnitude of
the one the other way around, so that the distance between two points is the same both ways
(`Point.distance_comm`).
-/

namespace Geocoding

namespace Double

open Float.Model (UnpackedFloat Format)
open Float.Model.UnpackedFloat (Sign)

/-! ## The order of numbers -/

/-- The double is a number or infinite. -/
def IsNumber (x : Float) : Prop :=
  unpack x ≠ .notANumber

/-- Signs come first, then exponents and then mantissas. -/
def unpackedKey : UnpackedFloat → ℤ ×ₗ ℤ ×ₗ ℤ
  | .infinity .negative => toLex (-2, toLex (0, 0))
  | .finite .negative m e _ => toLex (-1, toLex (-e, -m))
  | .notANumber => toLex (0, toLex (0, 0))
  | .zero _ => toLex (0, toLex (0, 0))
  | .finite .positive m e _ => toLex (1, toLex (e, m))
  | .infinity .positive => toLex (2, toLex (0, 0))

/-- What doubles are compared by. -/
def key (x : Float) : ℤ ×ₗ ℤ ×ₗ ℤ :=
  unpackedKey (unpack x)

theorem compare_natCast (m n : Nat) : compare (m : Int) n = compare m n := by
  rcases lt_trichotomy m n with h | rfl | h
  · rw [compare_lt_iff_lt.2 h, compare_lt_iff_lt.2 (Int.ofNat_lt.2 h)]
  · rw [compare_eq_iff_eq.2 rfl, compare_eq_iff_eq.2 rfl]
  · rw [compare_gt_iff_gt.2 h, compare_gt_iff_gt.2 (Int.ofNat_lt.2 h)]

theorem compare_neg (a b : Int) : compare (-a) (-b) = compare b a := by
  rcases lt_trichotomy a b with h | rfl | h
  · rw [compare_gt_iff_gt.2 h, compare_gt_iff_gt.2 (Int.neg_lt_neg h)]
  · rw [compare_eq_iff_eq.2 rfl, compare_eq_iff_eq.2 rfl]
  · rw [compare_lt_iff_lt.2 h, compare_lt_iff_lt.2 (Int.neg_lt_neg h)]

/-- Numbers compare as their keys do. -/
theorem compare_eq_some {x y : UnpackedFloat} (hx : x ≠ .notANumber) (hy : y ≠ .notANumber) :
    x.compare y = some (compare (unpackedKey x) (unpackedKey y)) := by
  cases x with
  | notANumber => exact absurd rfl hx
  | infinity s =>
    cases y with
    | notANumber => exact absurd rfl hy
    | infinity t => cases s <;> cases t <;> rfl
    | zero t => cases s <;> rfl
    | finite t n f hn => cases s <;> cases t <;> rfl
  | zero s =>
    cases y with
    | notANumber => exact absurd rfl hy
    | infinity t => cases t <;> rfl
    | zero t => rfl
    | finite t n f hn => cases t <;> rfl
  | finite s m e hm =>
    cases y with
    | notANumber => exact absurd rfl hy
    | infinity t => cases s <;> cases t <;> rfl
    | zero t => cases s <;> rfl
    | finite t n f hn =>
      cases s with
      | negative =>
        cases t with
        | negative =>
          have hkey : compare (unpackedKey (.finite .negative m e hm))
              (unpackedKey (.finite .negative n f hn)) =
                (compare (-e) (-f)).then (compare (-m : Int) (-n)) := rfl
          have hcompare : UnpackedFloat.compare (.finite .negative m e hm)
              (.finite .negative n f hn) = some ((compare e f).then (compare m n)).swap := rfl
          rw [hkey, compare_neg, compare_neg, compare_natCast, hcompare, Ordering.swap_then,
            Int.compare_swap, Nat.compare_swap]
        | positive => rfl
      | positive =>
        cases t with
        | negative => rfl
        | positive =>
          have hkey : compare (unpackedKey (.finite .positive m e hm))
              (unpackedKey (.finite .positive n f hn)) =
                (compare e f).then (compare (m : Int) n) := rfl
          rw [hkey, compare_natCast]
          rfl

variable {x y : Float}

theorem lt_iff (hx : IsNumber x) (hy : IsNumber y) : x < y ↔ key x < key y := by
  have hlt : x < y ↔ decide ((unpack x).lt (unpack y) = true) = true := Iff.rfl
  rw [hlt, decide_eq_true_iff, UnpackedFloat.lt, beq_iff_eq, compare_eq_some hx hy,
    Option.some_inj, compare_lt_iff_lt, key, key]

/-- Only numbers are less than or equal to something. -/
theorem isNumber_of_le (h : x ≤ y) : IsNumber x := by
  have hle : decide ((unpack x).le (unpack y) = true) = true := h
  intro hx
  rw [hx] at hle
  exact Bool.false_ne_true hle

/-! ## Magnitudes -/

theorem abs_dite_eq_zero (s s' : Sign) (m : Nat) (e : Int) :
    (if h : m = 0 then UnpackedFloat.zero s else .finite s m e (Nat.pos_of_ne_zero h)).abs =
      (if h : m = 0 then UnpackedFloat.zero s' else .finite s' m e (Nat.pos_of_ne_zero h)).abs := by
  by_cases h : m = 0
  · rw [dif_pos h, dif_pos h]
    rfl
  · rw [dif_neg h, dif_neg h]
    rfl

theorem abs_round (format : Format) (s s' : Sign) (m : Nat) (e : Int) :
    (UnpackedFloat.round format s m e).abs = (UnpackedFloat.round format s' m e).abs :=
  abs_dite_eq_zero ..

theorem abs_normalize_neg (format : Format) (m e : Int) (s : Sign) :
    (UnpackedFloat.normalize format (-m) e s).abs = (UnpackedFloat.normalize format m e s).abs := by
  simp only [UnpackedFloat.normalize]
  rcases lt_trichotomy m 0 with h | rfl | h
  · rw [compare_lt_iff_lt.2 h, compare_gt_iff_gt.2 (Int.neg_pos.2 h)]
    exact abs_round ..
  · rfl
  · rw [compare_gt_iff_gt.2 h, compare_lt_iff_lt.2 (Int.neg_neg_iff_pos.2 h), Int.neg_neg]
    exact abs_round ..

/-- The differences of two numbers have the same magnitude. -/
theorem abs_sub_comm (format : Format) (x y : UnpackedFloat) :
    (UnpackedFloat.sub format x y).abs = (UnpackedFloat.sub format y x).abs := by
  cases x with
  | notANumber => cases y <;> rfl
  | infinity s =>
    cases y with
    | infinity t => cases s <;> cases t <;> rfl
    | _ => rfl
  | zero s =>
    cases y with
    | zero t => cases s <;> cases t <;> rfl
    | _ => rfl
  | finite s m e hm =>
    cases y with
    | finite t n f hn =>
      delta UnpackedFloat.sub
      dsimp only
      rw [← abs_normalize_neg, Int.neg_sub, min_comm]
    | _ => rfl

section

variable {format : Format} {x y : UnpackedFloat}

/-- The magnitude of a double is in its exponent and its mantissa. -/
theorem abs_unpack_congr {v w : BitVec format.numBits}
    (he : UnpackedFloat.unpackExponent v = UnpackedFloat.unpackExponent w)
    (hm : UnpackedFloat.unpackMantissa v = UnpackedFloat.unpackMantissa w) :
    (UnpackedFloat.unpack format v).abs = (UnpackedFloat.unpack format w).abs := by
  have hfinite {s s' : Sign} {m m' : Nat} {e e' : Int} (h : 0 < m) (h' : 0 < m') (hm : m = m')
      (he : e = e') :
      (UnpackedFloat.finite s m e h).abs = (UnpackedFloat.finite s' m' e' h').abs := by
    subst hm he
    rfl
  delta UnpackedFloat.unpack
  dsimp only
  rw [← he]
  by_cases hmax : UnpackedFloat.unpackExponent v = -.ofNat _ 1
  · rw [if_pos hmax, if_pos hmax, ← hm]
    split <;> rfl
  rw [if_neg hmax, if_neg hmax]
  by_cases hmin : UnpackedFloat.unpackExponent v = .ofNat _ 0
  · rw [if_pos hmin, if_pos hmin]
    by_cases hzero : UnpackedFloat.unpackMantissa v = .ofNat _ 0
    · rw [dif_pos hzero, dif_pos (hm.symm.trans hzero)]
      rfl
    · rw [dif_neg hzero, dif_neg fun h => hzero (hm.trans h)]
      exact hfinite _ _ (congrArg _ hm) rfl
  · rw [if_neg hmin, if_neg hmin]
    exact hfinite _ _ (congrArg (fun m => (BitVec.ofNat 1 1 ++ m).toNat) hm) rfl

/-- The sign of a double has no effect on the magnitude. -/
theorem abs_unpack_packComponents (s s' : Sign) (e : BitVec format.exponentBits)
    (m : BitVec format.mantissaBitsWithoutImplicit) :
    (UnpackedFloat.unpack format (UnpackedFloat.packComponents format s e m)).abs =
      (UnpackedFloat.unpack format (UnpackedFloat.packComponents format s' e m)).abs := by
  refine abs_unpack_congr ?_ ?_
  · rw [UnpackedFloat.unpackExponent_packComponents, UnpackedFloat.unpackExponent_packComponents]
  · rw [UnpackedFloat.unpackMantissa_packComponents, UnpackedFloat.unpackMantissa_packComponents]

/-- Numbers of the same magnitude become doubles of the same magnitude. -/
theorem abs_unpack_pack (h : x.abs = y.abs) :
    (UnpackedFloat.unpack format (UnpackedFloat.pack format x)).abs =
      (UnpackedFloat.unpack format (UnpackedFloat.pack format y)).abs := by
  cases x with
  | notANumber =>
    cases y with
    | notANumber => rfl
    | _ => cases h
  | infinity s =>
    cases y with
    | infinity t => exact abs_unpack_packComponents ..
    | _ => cases h
  | zero s =>
    cases y with
    | zero t => exact abs_unpack_packComponents ..
    | _ => cases h
  | finite s m e hm =>
    cases y with
    | finite t n f hn =>
      obtain ⟨-, rfl, rfl⟩ := UnpackedFloat.finite.inj h
      delta UnpackedFloat.pack
      dsimp only
      split
      · exact abs_unpack_packComponents ..
      · split <;> exact abs_unpack_packComponents ..
    | _ => cases h

end

/-- The doubles have the same magnitude. -/
def SameMagnitude (x y : Float) : Prop :=
  (unpack x).abs = (unpack y).abs

theorem sameMagnitude_sub (x y : Float) : SameMagnitude (x - y) (y - x) :=
  abs_unpack_pack (abs_sub_comm Format.binary64 (unpack x) (unpack y))

namespace SameMagnitude

variable {x x' y y' : Float}

theorem abs_eq (h : SameMagnitude x x') : x.abs = x'.abs :=
  congrArg (fun u => Float.ofModel (.pack u)) h

theorem isInf_eq (h : SameMagnitude x x') : x.isInf = x'.isInf := by
  have hinf (u : UnpackedFloat) : u.isInf = u.abs.isInf := by cases u <;> rfl
  exact (hinf _).trans ((congrArg UnpackedFloat.isInf h).trans (hinf _).symm)

theorem isNaN_eq (h : SameMagnitude x x') : x.isNaN = x'.isNaN := by
  have hnan (u : UnpackedFloat) : u.isNaN = u.abs.isNaN := by cases u <;> rfl
  exact (hnan _).trans ((congrArg UnpackedFloat.isNaN h).trans (hnan _).symm)

/-- Hypotenuses depend on the magnitudes of the legs. -/
theorem hypot_eq (hx : SameMagnitude x x') (hy : SameMagnitude y y') :
    hypot x y = hypot x' y' := by
  rw [hypot, hypot, hx.isInf_eq, hy.isInf_eq, hx.isNaN_eq, hy.isNaN_eq, hx.abs_eq, hy.abs_eq]

end SameMagnitude

end Double

/-- The distance between two points is the same both ways. -/
theorem Point.distance_comm (p q : Point Float) : p.distance q = q.distance p :=
  (Double.sameMagnitude_sub p.lat q.lat).hypot_eq (Double.sameMagnitude_sub p.lon q.lon)

end Geocoding
