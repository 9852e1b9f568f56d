import Geocoding.Proofs.Rings
import Mathlib.Algebra.Order.Field.Basic
import Mathlib.Algebra.Order.Ring.Rat
import Mathlib.Tactic.Ring

/-!
# Boxes around polygons

In exact arithmetic the box around a polygon contains every point that the polygon contains
(`Polygon.exists_bbox?_contains`), so areas may be sought by their boxes. The ray from a point in a
ring crosses an edge, which bounds the point on three sides. To the west the ring bounds it, too:
for a point west of all points of the ring, the ray crosses every edge that straddles the parallel
of the point, and around a ring there is an even number of these.
-/

namespace Geocoding

/-! ## The box of some points -/

section

variable {K : Type} [LinearOrder K]

theorem lesser_eq_min (a b : K) : lesser a b = min a b := by
  rw [lesser, min_def, if_pos (le_refl b)]

theorem greater_eq_max (a b : K) : greater a b = max a b := by
  rw [greater, max_def', if_pos (le_refl b)]

namespace BoundingBox

variable {box : BoundingBox K} {p q : Point K}

theorem contains_iff : box.contains p = true ↔
    (box.minLon ≤ p.lon ∧ p.lon ≤ box.maxLon) ∧ box.minLat ≤ p.lat ∧ p.lat ≤ box.maxLat := by
  simp only [contains, Bool.and_eq_true, decide_eq_true_eq]

theorem contains_ofPoint (p : Point K) : (ofPoint p).contains p = true := by
  simp [contains_iff, ofPoint, ofCorners, lesser_eq_min, greater_eq_max]

theorem contains_extend_self (box : BoundingBox K) (p : Point K) :
    (box.extend p).contains p = true := by
  simp [contains_iff, extend, lesser_eq_min, greater_eq_max]

theorem contains_extend (h : box.contains p = true) (q : Point K) :
    (box.extend q).contains p = true := by
  rw [contains_iff] at h
  simp [contains_iff, extend, lesser_eq_min, greater_eq_max, h]

theorem contains_foldl_extend {points : List (Point K)}
    (h : box.contains p = true ∨ p ∈ points) : (points.foldl extend box).contains p = true := by
  induction points generalizing box with
  | nil => exact h.resolve_right List.not_mem_nil
  | cons q points ih =>
    refine ih ?_
    rcases h with h | h
    · exact Or.inl (contains_extend h q)
    · rcases List.mem_cons.1 h with rfl | h
      · exact Or.inl (contains_extend_self box p)
      · exact Or.inr h

end BoundingBox

/-- The box around a polygon contains the points of the outer ring. -/
theorem Polygon.bbox?_contains {polygon : Polygon K} (h : polygon.exterior ≠ []) :
    ∃ box, polygon.bbox? = some box ∧ ∀ q ∈ polygon.exterior, box.contains q = true := by
  obtain ⟨exterior, holes⟩ := polygon
  cases exterior with
  | nil => exact absurd rfl h
  | cons p rest =>
    refine ⟨_, rfl, fun q hq => BoundingBox.contains_foldl_extend ?_⟩
    rcases List.mem_cons.1 hq with rfl | hq
    · exact Or.inl (BoundingBox.contains_ofPoint q)
    · exact Or.inr hq

/-! ## Edges across a parallel -/

namespace Ring

variable {p a b : Point K}

/-- The edge leads from one side of the parallel of a point to the other. -/
def straddles (p : Point K) (e : Point K × Point K) : Bool :=
  decide (p.lat < e.1.lat) != decide (p.lat < e.2.lat)

theorem straddles_iff : straddles p (a, b) = true ↔
    a.lat ≤ p.lat ∧ p.lat < b.lat ∨ b.lat ≤ p.lat ∧ p.lat < a.lat := by
  rw [straddles, bne_iff_ne, ne_eq, decide_eq_decide]
  constructor
  · intro h
    by_cases ha : p.lat < a.lat
    · exact Or.inr ⟨not_lt.1 fun hb => h (iff_of_true ha hb), ha⟩
    · exact Or.inl ⟨not_lt.1 ha, not_le.1 fun hb => h (iff_of_false ha (not_lt.2 hb))⟩
  · rintro (⟨ha, hb⟩ | ⟨hb, ha⟩) h
    · exact not_lt.2 ha (h.2 hb)
    · exact not_lt.2 hb (h.1 ha)

end Ring

end

/-! ## Points in a ring -/

variable {K : Type} [Field K] [LinearOrder K] [IsStrictOrderedRing K] {p a b : Point K}

namespace Ring

/-- The longitude at which the line through two points meets the parallel of `p`. -/
def meeting (p a b : Point K) : K :=
  (b.lon - a.lon) * (p.lat - a.lat) / (b.lat - a.lat) + a.lon

omit [IsStrictOrderedRing K] in
theorem crosses_iff :
    crosses p (a, b) = true ↔ straddles p (a, b) = true ∧ p.lon < meeting p a b := by
  rw [crosses, Bool.and_eq_true, decide_eq_true_eq]
  rfl

/-- A straddling edge meets the parallel part of the way along it. -/
theorem exists_meeting_eq (h : straddles p (a, b) = true) :
    ∃ t, 0 ≤ t ∧ t ≤ 1 ∧ meeting p a b = (1 - t) * a.lon + t * b.lon := by
  refine ⟨(p.lat - a.lat) / (b.lat - a.lat), ?_, ?_, by rw [meeting]; ring⟩
  · rcases straddles_iff.1 h with ⟨ha, hb⟩ | ⟨hb, ha⟩
    · exact div_nonneg (sub_nonneg.2 ha) (sub_nonneg.2 (ha.trans hb.le))
    · exact div_nonneg_of_nonpos (sub_nonpos.2 ha.le) (sub_nonpos.2 (hb.trans ha.le))
  · rcases straddles_iff.1 h with ⟨ha, hb⟩ | ⟨hb, ha⟩
    · rw [div_le_one (sub_pos.2 (ha.trans_lt hb))]
      exact sub_le_sub_right hb.le _
    · rw [div_le_one_of_neg (sub_neg.2 (hb.trans_lt ha))]
      exact sub_le_sub_right hb _

theorem le_meeting (h : straddles p (a, b) = true) {west : K} (ha : west ≤ a.lon)
    (hb : west ≤ b.lon) : west ≤ meeting p a b := by
  obtain ⟨t, ht, ht', hmeeting⟩ := exists_meeting_eq h
  calc west = (1 - t) * west + t * west := by ring
    _ ≤ (1 - t) * a.lon + t * b.lon := by
      have := sub_nonneg.2 ht'
      gcongr
    _ = meeting p a b := hmeeting.symm

theorem meeting_le (h : straddles p (a, b) = true) {east : K} (ha : a.lon ≤ east)
    (hb : b.lon ≤ east) : meeting p a b ≤ east := by
  obtain ⟨t, ht, ht', hmeeting⟩ := exists_meeting_eq h
  calc meeting p a b = (1 - t) * a.lon + t * b.lon := hmeeting
    _ ≤ (1 - t) * east + t * east := by
      have := sub_nonneg.2 ht'
      gcongr
    _ = east := by ring

/-- A ray that begins west of a ring crosses an even number of edges. -/
theorem countP_crosses_mod_two {ring : Ring K} (hwest : ∀ q ∈ ring, p.lon < q.lon) :
    (edges ring).countP (crosses p) % 2 = 0 := by
  have hcrosses : ∀ e ∈ edges ring, crosses p e = true ↔ straddles p e = true := by
    intro (a, b) hedge
    obtain ⟨ha, hb⟩ := mem_of_mem_edges hedge
    rw [crosses_iff, and_iff_left_iff_imp]
    intro hstraddles
    exact (lt_min (hwest a ha) (hwest b hb)).trans_le
      (le_meeting hstraddles (min_le_left _ _) (min_le_right _ _))
  rw [List.countP_congr hcrosses]
  exact countP_edges_mod_two (fun q => decide (p.lat < q.lat)) ring

end Ring

/-- A box that contains the points of a ring contains all that the ring contains. -/
theorem BoundingBox.contains_of_ring {box : BoundingBox K} {ring : Ring K}
    (hring : ∀ q ∈ ring, box.contains q = true) (h : Ring.contains ring p = true) :
    box.contains p = true := by
  simp only [contains_iff] at hring ⊢
  rw [Ring.contains, Bool.and_eq_true, beq_iff_eq] at h
  obtain ⟨⟨a, b⟩, hedge, hcrosses⟩ : ∃ e ∈ Ring.edges ring, Ring.crosses p e = true := by
    refine List.countP_pos_iff.1 (Nat.pos_of_ne_zero fun hzero => ?_)
    rw [hzero] at h
    exact Nat.zero_ne_one h.2
  obtain ⟨hstraddles, heast⟩ := Ring.crosses_iff.1 hcrosses
  obtain ⟨ha, hb⟩ := Ring.mem_of_mem_edges hedge
  have hmeeting := Ring.meeting_le hstraddles (hring a ha).1.2 (hring b hb).1.2
  refine ⟨⟨?west, heast.le.trans hmeeting⟩, ?_⟩
  case west =>
    by_contra hwest
    have heven := Ring.countP_crosses_mod_two fun q hq =>
      (not_le.1 hwest).trans_le (hring q hq).1.1
    exact Nat.zero_ne_one (heven.symm.trans h.2)
  rcases Ring.straddles_iff.1 hstraddles with ⟨hsouth, hnorth⟩ | ⟨hsouth, hnorth⟩
  · exact ⟨(hring a ha).2.1.trans hsouth, hnorth.le.trans (hring b hb).2.2⟩
  · exact ⟨(hring b hb).2.1.trans hsouth, hnorth.le.trans (hring a ha).2.2⟩

/-- Whatever the polygon, it has a box, and the box contains each point that the polygon
contains. -/
theorem Polygon.exists_bbox?_contains {polygon : Polygon K} (h : polygon.contains p = true) :
    ∃ box, polygon.bbox? = some box ∧ box.contains p = true := by
  rw [Polygon.contains, Bool.and_eq_true] at h
  have hpoints : polygon.exterior ≠ [] := by
    intro hnil
    rw [hnil] at h
    exact Bool.false_ne_true h.1
  obtain ⟨box, hbox, hring⟩ := bbox?_contains hpoints
  exact ⟨box, hbox, BoundingBox.contains_of_ring hring h.1⟩

/-- A ring that crosses itself, with a hole in its western half. -/
def bowTie : Polygon ℚ where
  exterior := [⟨0, 0⟩, ⟨2, 2⟩, ⟨0, 2⟩, ⟨2, 0⟩]
  holes := [[⟨1, 0⟩, ⟨1 / 2, 1 / 4⟩, ⟨3 / 2, 1 / 4⟩]]

theorem bowTie_box_contains :
    bowTie.contains ⟨1, 1 / 2⟩ = true ∧
      ∃ box, bowTie.bbox? = some box ∧ box.contains ⟨1, 1 / 2⟩ = true := by
  have hinside : bowTie.contains ⟨1, 1 / 2⟩ = true := by decide +kernel
  exact ⟨hinside, Polygon.exists_bbox?_contains hinside⟩

end Geocoding
