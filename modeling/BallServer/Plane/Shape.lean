import Mathlib

/-!
# Discs and boxes in the plane

Closed discs and closed axis-parallel boxes over an ordered field, as sets of
points, and when two of them have a point in common.  Square roots are not needed:
a disc is described by the square of its radius.

Main results:

- Theorem {lit}`disc_meets_disc`: two discs meet exactly when their centers are no
  farther apart than the sum of the radii.
- Theorem {lit}`disc_meets_box`: a disc meets a box exactly when it reaches the point
  of the box that is closest to its center.
- Theorem {lit}`Box.meets_iff_overlaps`: two boxes meet exactly when their sides
  overlap.
-/

namespace Plane

variable {K : Type} [Field K] [LinearOrder K]

/-- The nearest number of an interval. -/
def clamp {α : Type} [LinearOrder α] (v lo hi : α) : α := max lo (min hi v)

theorem le_clamp {α : Type} [LinearOrder α] (v lo hi : α) : lo ≤ clamp v lo hi :=
  le_max_left _ _

theorem clamp_le {α : Type} [LinearOrder α] (v : α) {lo hi : α} (h : lo ≤ hi) :
    clamp v lo hi ≤ hi :=
  max_le h (min_le_left _ _)

/-- Clamping keeps the order. -/
theorem clamp_mono {α : Type} [LinearOrder α] {v v' : α} (lo hi : α) (h : v ≤ v') :
    clamp v lo hi ≤ clamp v' lo hi :=
  max_le_max le_rfl (min_le_min le_rfl h)

/-- The points no farther than {lit}`r` from the center. -/
def disc (x y r : K) : Set (K × K) := {p | (p.1 - x) ^ 2 + (p.2 - y) ^ 2 ≤ r ^ 2}

/-- An axis-parallel box, given by two of its corners. -/
structure Box (K : Type) where
  minX : K
  minY : K
  maxX : K
  maxY : K

namespace Box

/-- The points of a box. -/
def points (b : Box K) : Set (K × K) :=
  {p | b.minX ≤ p.1 ∧ p.1 ≤ b.maxX ∧ b.minY ≤ p.2 ∧ p.2 ≤ b.maxY}

/-- The first corner is the smaller one. -/
structure Proper (b : Box K) : Prop where
  x : b.minX ≤ b.maxX
  y : b.minY ≤ b.maxY

/-- The sides of two boxes overlap. -/
structure Overlaps (a b : Box K) : Prop where
  left : a.minX ≤ b.maxX
  right : b.minX ≤ a.maxX
  below : a.minY ≤ b.maxY
  above : b.minY ≤ a.maxY

/-- The box around a disc. -/
def around (x y r : K) : Box K where
  minX := x - r
  minY := y - r
  maxX := x + r
  maxY := y + r

omit [Field K] in
theorem overlaps_of_mem {a b : Box K} {p : K × K} (ha : p ∈ a.points) (hb : p ∈ b.points) :
    a.Overlaps b where
  left := ha.1.trans hb.2.1
  right := hb.1.trans ha.2.1
  below := ha.2.2.1.trans hb.2.2.2
  above := hb.2.2.1.trans ha.2.2.2

omit [Field K] in
/-- Two proper boxes meet exactly when their sides overlap. -/
theorem meets_iff_overlaps {a b : Box K} (ha : a.Proper) (hb : b.Proper) :
    (a.points ∩ b.points).Nonempty ↔ a.Overlaps b := by
  constructor
  · rintro ⟨p, hpa, hpb⟩
    exact overlaps_of_mem hpa hpb
  · intro h
    refine ⟨(max a.minX b.minX, max a.minY b.minY), ?_, ?_⟩
    · exact ⟨le_max_left _ _, max_le ha.x h.right, le_max_left _ _, max_le ha.y h.above⟩
    · exact ⟨le_max_right _ _, max_le h.left hb.x, le_max_right _ _, max_le h.below hb.y⟩

end Box

variable [IsStrictOrderedRing K]

theorem around_proper (x y : K) {r : K} (hr : 0 ≤ r) : (Box.around x y r).Proper := by
  constructor <;> simp only [Box.around] <;> linarith

/-- A disc lies in the box around it. -/
theorem disc_subset_around (x y : K) {r : K} (hr : 0 ≤ r) :
    disc x y r ⊆ (Box.around x y r).points := by
  intro p hp
  have hx : |p.1 - x| ≤ r := by
    apply abs_le_of_sq_le_sq _ hr
    have := sq_nonneg (p.2 - y)
    have : (p.1 - x) ^ 2 + (p.2 - y) ^ 2 ≤ r ^ 2 := hp
    linarith
  have hy : |p.2 - y| ≤ r := by
    apply abs_le_of_sq_le_sq _ hr
    have := sq_nonneg (p.1 - x)
    have : (p.1 - x) ^ 2 + (p.2 - y) ^ 2 ≤ r ^ 2 := hp
    linarith
  rw [abs_le] at hx hy
  simp only [Box.points, Box.around, Set.mem_ofPred_eq]
  refine ⟨?_, ?_, ?_, ?_⟩ <;> linarith

/-- The triangle inequality without square roots. -/
theorem sq_add_sq_le {a b c d r s : K} (hr : 0 ≤ r) (hs : 0 ≤ s)
    (hab : a ^ 2 + b ^ 2 ≤ r ^ 2) (hcd : c ^ 2 + d ^ 2 ≤ s ^ 2) :
    (a + c) ^ 2 + (b + d) ^ 2 ≤ (r + s) ^ 2 := by
  -- the scalar product is at most the product of the radii
  have hdot : a * c + b * d ≤ r * s := by
    apply le_of_abs_le
    apply abs_le_of_sq_le_sq _ (mul_nonneg hr hs)
    have hcauchy : (a * c + b * d) ^ 2 ≤ (a ^ 2 + b ^ 2) * (c ^ 2 + d ^ 2) := by
      have := sq_nonneg (a * d - b * c)
      linarith [this, show (a ^ 2 + b ^ 2) * (c ^ 2 + d ^ 2) - (a * c + b * d) ^ 2 =
        (a * d - b * c) ^ 2 by ring]
    calc (a * c + b * d) ^ 2 ≤ (a ^ 2 + b ^ 2) * (c ^ 2 + d ^ 2) := hcauchy
      _ ≤ r ^ 2 * s ^ 2 := by
          apply mul_le_mul hab hcd
          · positivity
          · positivity
      _ = (r * s) ^ 2 := by ring
  calc (a + c) ^ 2 + (b + d) ^ 2
      = (a ^ 2 + b ^ 2) + (c ^ 2 + d ^ 2) + 2 * (a * c + b * d) := by ring
    _ ≤ r ^ 2 + s ^ 2 + 2 * (r * s) := by linarith
    _ = (r + s) ^ 2 := by ring

/-- Two discs meet exactly when their centers are no farther apart than the sum of
the radii; touching counts. -/
theorem disc_meets_disc {x y r u v s : K} (hr : 0 ≤ r) (hs : 0 ≤ s) :
    (disc x y r ∩ disc u v s).Nonempty ↔ (x - u) ^ 2 + (y - v) ^ 2 ≤ (r + s) ^ 2 := by
  constructor
  · rintro ⟨p, hp, hq⟩
    have hp : (x - p.1) ^ 2 + (y - p.2) ^ 2 ≤ r ^ 2 := by
      rw [← neg_sub p.1 x, ← neg_sub p.2 y, neg_sq, neg_sq]
      exact hp
    have hle := sq_add_sq_le hr hs hp hq
    rwa [sub_add_sub_cancel, sub_add_sub_cancel] at hle
  · intro h
    rcases (add_nonneg hr hs).eq_or_lt with hzero | hpos
    · -- two points
      have hr0 : r = 0 := by linarith
      have hs0 : s = 0 := by linarith
      rw [← hzero] at h
      have hx : (x - u) ^ 2 = 0 := by nlinarith [sq_nonneg (x - u), sq_nonneg (y - v)]
      have hy : (y - v) ^ 2 = 0 := by nlinarith [sq_nonneg (x - u), sq_nonneg (y - v)]
      refine ⟨(x, y), ?_, ?_⟩
      · simp [disc, sq_nonneg]
      · simp only [disc, Set.mem_ofPred_eq, hx, hy, add_zero]
        exact sq_nonneg s
    · -- the point that divides the line between the centers like the radii
      let c := r / (r + s)
      have hne : r + s ≠ 0 := hpos.ne'
      have hc : c * (r + s) = r := div_mul_cancel₀ r hne
      have hc' : (1 - c) * (r + s) = s := by rw [sub_mul, hc, one_mul, add_sub_cancel_left]
      refine ⟨(x + c * (u - x), y + c * (v - y)), ?_, ?_⟩
      · simp only [disc, Set.mem_ofPred_eq]
        calc (x + c * (u - x) - x) ^ 2 + (y + c * (v - y) - y) ^ 2
            = c ^ 2 * ((x - u) ^ 2 + (y - v) ^ 2) := by ring
          _ ≤ c ^ 2 * (r + s) ^ 2 := mul_le_mul_of_nonneg_left h (sq_nonneg c)
          _ = r ^ 2 := by rw [← mul_pow, hc]
      · simp only [disc, Set.mem_ofPred_eq]
        calc (x + c * (u - x) - u) ^ 2 + (y + c * (v - y) - v) ^ 2
            = (1 - c) ^ 2 * ((x - u) ^ 2 + (y - v) ^ 2) := by ring
          _ ≤ (1 - c) ^ 2 * (r + s) ^ 2 := mul_le_mul_of_nonneg_left h (sq_nonneg (1 - c))
          _ = s ^ 2 := by rw [← mul_pow, hc']

/-- No number of an interval is closer than the clamped one. -/
theorem sq_clamp_sub_le {v lo hi p : K} (hlo : lo ≤ p) (hhi : p ≤ hi) :
    (clamp v lo hi - v) ^ 2 ≤ (p - v) ^ 2 := by
  unfold clamp
  rcases le_total v lo with hv | hv
  · have hmax : max lo (min hi v) = lo := max_eq_left ((min_le_right _ _).trans hv)
    rw [hmax]
    nlinarith
  · rcases le_total v hi with hv' | hv'
    · rw [min_eq_right hv', max_eq_right hv, sub_self]
      simpa using sq_nonneg (p - v)
    · rw [min_eq_left hv', max_eq_right (hlo.trans hhi)]
      nlinarith

/-- A disc meets a box exactly when it reaches the point of the box that is closest to
its center. -/
theorem disc_meets_box {x y r : K} {b : Box K} (hb : b.Proper) :
    (disc x y r ∩ b.points).Nonempty ↔
      (clamp x b.minX b.maxX - x) ^ 2 + (clamp y b.minY b.maxY - y) ^ 2 ≤ r ^ 2 := by
  constructor
  · rintro ⟨p, hp, hx, hx', hy, hy'⟩
    exact (add_le_add (sq_clamp_sub_le hx hx') (sq_clamp_sub_le hy hy')).trans hp
  · intro h
    exact ⟨(clamp x b.minX b.maxX, clamp y b.minY b.maxY), h, le_clamp _ _ _,
      clamp_le _ hb.x, le_clamp _ _ _, clamp_le _ hb.y⟩

/-- A disc without extent meets a box exactly when its center lies in it. -/
theorem point_meets_box {x y : K} {b : Box K} :
    (disc x y 0 ∩ b.points).Nonempty ↔ (x, y) ∈ b.points := by
  constructor
  · rintro ⟨p, hp, hb⟩
    have hsum : (p.1 - x) ^ 2 + (p.2 - y) ^ 2 ≤ 0 := by simpa [disc] using hp
    have hx : p.1 - x = 0 := by
      apply pow_eq_zero_iff two_ne_zero |>.mp
      linarith [sq_nonneg (p.1 - x), sq_nonneg (p.2 - y)]
    have hy : p.2 - y = 0 := by
      apply pow_eq_zero_iff two_ne_zero |>.mp
      linarith [sq_nonneg (p.1 - x), sq_nonneg (p.2 - y)]
    rw [← sub_eq_zero.mp hx, ← sub_eq_zero.mp hy]
    exact hb
  · intro h
    exact ⟨(x, y), by simp [disc], h⟩

end Plane
