import BallServer.Predict.View
import BallServer.Scene.Mass

/-!
# Predicted motion and motion

One tick of predicted motion against one pass of {lit}`cell_move` and {lit}`spore.update`.
They differ when a cell is almost at its target, when a boost is about to end and when one
component of a spore's velocity has become small before the other.

Main results:

- Theorem {lit}`advance_iff`: when one tick gives the same cell.
- Theorem {lit}`sporeAdvance_iff`: when one tick gives the same spore.
- Theorem {lit}`motion_agrees_iff`: both, and what follows for many ticks.
-/

namespace BallServer.Ball

/-- The power with exponent one. -/
class LawfulPower (K : Type) [Field K] [Power K] : Prop where
  pow_one : ∀ x : K, Power.pow x 1 = x

noncomputable instance : Power ℝ := ⟨fun x y => x ^ y⟩

instance : LawfulPower ℝ where
  pow_one := Real.rpow_one

namespace Predict

open Scene (followTarget applyBoost clampCell calcSpeed)

variable {K : Type} [Field K] [LinearOrder K]

/-! ## Coordinates -/

section Coordinates

variable [IsStrictOrderedRing K]

theorem sceneWidth_pos : (0 : K) < sceneWidth := by
  unfold sceneWidth
  norm_num

theorem clampInsideMap_eq (x : K) : clampInsideMap x = max 0 (min sceneWidth x) := by
  have hpos : (0 : K) < sceneWidth := sceneWidth_pos
  unfold clampInsideMap clamp
  split_ifs with hlow hhigh
  · rw [min_eq_right (hlow.le.trans hpos.le), max_eq_left hlow.le]
  · rw [min_eq_left (le_of_lt hhigh), max_eq_right hpos.le]
  · push Not at hlow hhigh
    rw [min_eq_right hhigh, max_eq_right hlow]

/-- The border of the map hides a difference: the coordinates are the same or lie behind the
same border. -/
def Hidden (u v : K) : Prop :=
  u = v ∨ (u ≤ 0 ∧ v ≤ 0) ∨ (sceneWidth ≤ u ∧ sceneWidth ≤ v)

theorem clamp_eq_iff (u v : K) :
    max 0 (min sceneWidth u) = max 0 (min sceneWidth v) ↔ Hidden u v := by
  have hpos : (0 : K) < sceneWidth := sceneWidth_pos
  unfold Hidden
  constructor
  · intro h
    rcases le_or_gt u 0 with hu | hu
    · rw [max_eq_left ((min_le_right _ _).trans hu)] at h
      rcases le_or_gt v 0 with hv | hv
      · exact .inr (.inl ⟨hu, hv⟩)
      · exact absurd h (lt_max_of_lt_right (lt_min hpos hv)).ne
    · rcases le_or_gt v 0 with hv | hv
      · rw [max_eq_left ((min_le_right _ _).trans hv)] at h
        exact absurd h (lt_max_of_lt_right (lt_min hpos hu)).ne'
      · rw [max_eq_right (le_min hpos.le hu.le), max_eq_right (le_min hpos.le hv.le)] at h
        rcases le_or_gt sceneWidth u with hu' | hu'
        · rw [min_eq_left hu'] at h
          refine .inr (.inr ⟨hu', ?_⟩)
          rw [h]
          exact min_le_right _ _
        · rw [min_eq_right hu'.le] at h
          rcases le_or_gt sceneWidth v with hv' | hv'
          · rw [min_eq_left hv'] at h
            exact absurd h hu'.ne
          · rw [min_eq_right hv'.le] at h
            exact .inl h
  · rintro (rfl | ⟨hu, hv⟩ | ⟨hu, hv⟩)
    · rfl
    · rw [max_eq_left ((min_le_right _ _).trans hu), max_eq_left ((min_le_right _ _).trans hv)]
    · rw [min_eq_left hu, min_eq_left hv]

theorem moveScale_tick : getServerMoveScale (serverTickSeconds : K) = 1 / 5 := by
  have hne : (serverTickSeconds : K) ≠ 0 := by
    unfold serverTickSeconds
    norm_num
  rw [getServerMoveScale, getServerTickUnits, div_self hne, mul_one]

theorem tickUnits_tick : getServerTickUnits (serverTickSeconds : K) = 1 := by
  have hne : (serverTickSeconds : K) ≠ 0 := by
    unfold serverTickSeconds
    norm_num
  rw [getServerTickUnits, div_self hne]

end Coordinates

/-! ## Cells -/

/-- What a client's cell and a cell of the scene have in common: position, size, boost and
direction. -/
structure Same (v : CellView K) (c : Cell K) : Prop where
  x : v.renderX = c.x
  y : v.renderY = c.y
  size : v.size = c.size
  boostX : v.boostVx = c.boostVx
  boostY : v.boostVy = c.boostVy
  dirX : v.lastDirX = c.lastDirX
  dirY : v.lastDirY = c.lastDirY

section Cells

variable [Sqrt K] [Power K]

/-- One pass of {lit}`cell_move` over a cell. -/
def movedCell (p : Player K) (c : Cell K) : Cell K :=
  clampCell (applyBoost (followTarget p c))

/-- The distance of a cell from the target of its player. -/
def targetDist (p : Player K) (c : Cell K) : K :=
  sqrt ((p.targetX - c.x) * (p.targetX - c.x) + (p.targetY - c.y) * (p.targetY - c.y))

/-- A cell between the two distances at which the client and the scene stop. -/
def Near (p : Player K) (c : Cell K) : Prop :=
  p.moving = true ∧ 0.0001 < targetDist p c ∧ targetDist p c ≤ 0.001

/-- A boost whose components are both small, and not yet zero. -/
def Dying (c : Cell K) : Prop :=
  (c.boostVx ≠ 0 ∨ c.boostVy ≠ 0) ∧ |c.boostVx| < boostStopEpsilon ∧
    |c.boostVy| < boostStopEpsilon

instance (p : Player K) (c : Cell K) : Decidable (Near p c) :=
  inferInstanceAs (Decidable (_ ∧ _))

instance (c : Cell K) : Decidable (Dying c) :=
  inferInstanceAs (Decidable (_ ∧ _))

/-- The border hides on one axis what the client adds for a cell that is almost at its
target, and what the scene adds for a boost that is about to end.  The cell has come to
{lit}`at_`, {lit}`gap` away from its target, with the component {lit}`boost` of its
boost. -/
def HiddenAxis (p : Player K) (c : Cell K) (at_ gap boost : K) : Prop :=
  Hidden ((if Near p c then at_ + gap else at_) + if Dying c then 0 else boost * (1 / 5))
    (at_ + boost * (1 / 5))

/-- When one tick gives the same cell.  A cell that is almost at its target has to look
towards it, and the border has to hide the differences. -/
def TickAgrees (p : Player K) (c : Cell K) : Prop :=
  (Near p c → c.lastDirX = (p.targetX - c.x) / targetDist p c ∧
    c.lastDirY = (p.targetY - c.y) / targetDist p c) ∧
  HiddenAxis p c (followTarget p c).x (p.targetX - c.x) c.boostVx ∧
  HiddenAxis p c (followTarget p c).y (p.targetY - c.y) c.boostVy

omit [Power K] in
/-- Away from both differences one tick gives the same cell. -/
theorem tickAgrees_of_plain {p : Player K} {c : Cell K} (hnear : ¬ Near p c)
    (hdying : ¬ Dying c) : TickAgrees p c := by
  refine ⟨fun h => absurd h hnear, ?_, ?_⟩
  · rw [HiddenAxis, if_neg hnear, if_neg hdying]
    exact .inl rfl
  · rw [HiddenAxis, if_neg hnear, if_neg hdying]
    exact .inl rfl

omit [Power K] in
theorem followTarget_boost (p : Player K) (c : Cell K) :
    (followTarget p c).boostVx = c.boostVx ∧ (followTarget p c).boostVy = c.boostVy ∧
      (followTarget p c).size = c.size := by
  unfold followTarget
  split_ifs with hmoving
  · dsimp only
    split_ifs <;> exact ⟨rfl, rfl, rfl⟩
  · exact ⟨rfl, rfl, rfl⟩

variable [IsStrictOrderedRing K]

omit [Power K] [IsStrictOrderedRing K] in
theorem calcSpeed_ge (size : K) : 1 ≤ calcSpeed size :=
  le_max_left _ _

omit [Power K] in
/-- A cell of the client that follows its target: as in the scene, or onto the target. -/
theorem follow_spec {v : CellView K} {p : Player K} {c : Cell K} (h : Same v c)
    (hsize : 1 ≤ c.size) :
    let w := v.follow serverTickSeconds p.targetX p.targetY p.moving
    let d := followTarget p c
    w.boostVx = c.boostVx ∧ w.boostVy = c.boostVy ∧ w.size = c.size ∧
      (¬ Near p c → w.renderX = d.x ∧ w.renderY = d.y ∧ w.lastDirX = d.lastDirX ∧
        w.lastDirY = d.lastDirY) ∧
      (Near p c → d = c ∧ w.renderX = c.x + (p.targetX - c.x) ∧
        w.renderY = c.y + (p.targetY - c.y) ∧
        w.lastDirX = (p.targetX - c.x) / targetDist p c ∧
        w.lastDirY = (p.targetY - c.y) / targetDist p c) := by
  dsimp only
  by_cases hmoving : p.moving = true
  · have hdist : sqrt ((p.targetX - v.renderX) * (p.targetX - v.renderX) +
        (p.targetY - v.renderY) * (p.targetY - v.renderY)) = targetDist p c := by
      rw [h.x, h.y, targetDist]
    have hspeed : calcCellSpeed v.size = calcSpeed c.size := by
      rw [calcCellSpeed, h.size, max_eq_right hsize, calcSpeed]
    have hserver : followTarget p c = if targetDist p c > 0.001 then
        { c with
          x := c.x + (p.targetX - c.x) / targetDist p c *
            min (calcSpeed c.size * (1 / 5)) (targetDist p c)
          y := c.y + (p.targetY - c.y) / targetDist p c *
            min (calcSpeed c.size * (1 / 5)) (targetDist p c)
          lastDirX := (p.targetX - c.x) / targetDist p c
          lastDirY := (p.targetY - c.y) / targetDist p c } else c := by
      rw [followTarget, if_pos hmoving]
      rfl
    rw [hserver]
    unfold CellView.follow
    rw [if_pos hmoving]
    simp only [hdist, hspeed, moveScale_tick]
    by_cases hfar : targetDist p c > 0.001
    · have hmove : targetDist p c > 0.0001 := by
        refine lt_trans ?_ hfar
        norm_num
      rw [if_pos hmove, if_pos hfar]
      refine ⟨h.boostX, h.boostY, h.size, fun _ => ⟨?_, ?_, ?_, ?_⟩, fun hnear => ?_⟩
      · simp only [h.x, mul_one_div]
      · simp only [h.y, mul_one_div]
      · simp only [h.x, mul_one_div]
      · simp only [h.y, mul_one_div]
      · exact absurd hnear.2.2 hfar.not_ge
    · rw [if_neg hfar]
      by_cases hmove : targetDist p c > 0.0001
      · have hnear : Near p c := ⟨hmoving, hmove, not_lt.mp hfar⟩
        have hpos : 0 < targetDist p c := by
          refine lt_trans ?_ hmove
          norm_num
        have hstep : min (calcSpeed c.size * (1 / 5)) (targetDist p c) = targetDist p c := by
          refine min_eq_right ((not_lt.mp hfar).trans ?_)
          have := calcSpeed_ge c.size
          norm_num at *
          linarith
        rw [if_pos hmove]
        refine ⟨h.boostX, h.boostY, h.size, fun hno => absurd hnear hno, fun _ => ?_⟩
        refine ⟨rfl, ?_, ?_, ?_, ?_⟩
        · simp only [hstep, h.x]
          rw [mul_one_div, div_mul_cancel₀ _ hpos.ne']
        · simp only [hstep, h.y]
          rw [mul_one_div, div_mul_cancel₀ _ hpos.ne']
        · simp only [h.x, mul_one_div]
        · simp only [h.y, mul_one_div]
      · rw [if_neg hmove]
        exact ⟨h.boostX, h.boostY, h.size, fun _ => ⟨h.x, h.y, h.dirX, h.dirY⟩,
          fun hnear => absurd hnear.2.1 hmove⟩
  · unfold CellView.follow followTarget
    rw [if_neg hmoving, if_neg hmoving]
    exact ⟨h.boostX, h.boostY, h.size, fun _ => ⟨h.x, h.y, h.dirX, h.dirY⟩,
      fun hnear => absurd hnear.1 hmoving⟩

variable [LawfulPower K]

omit [Sqrt K] in
/-- The boost of the client: it ends at once when it is small. -/
theorem advanceBoost_spec (w : CellView K) {c : Cell K} (hx : w.boostVx = c.boostVx)
    (hy : w.boostVy = c.boostVy) :
    let w' := w.advanceBoost serverTickSeconds
    let d := applyBoost c
    w'.boostVx = d.boostVx ∧ w'.boostVy = d.boostVy ∧ w'.size = w.size ∧
      w'.lastDirX = w.lastDirX ∧ w'.lastDirY = w.lastDirY ∧
      d.x = c.x + c.boostVx * (1 / 5) ∧ d.y = c.y + c.boostVy * (1 / 5) ∧
      w'.renderX = w.renderX + (if Dying c then 0 else c.boostVx * (1 / 5)) ∧
      w'.renderY = w.renderY + (if Dying c then 0 else c.boostVy * (1 / 5)) := by
  have hserver : (applyBoost c).x = c.x + c.boostVx * (1 / 5) ∧
      (applyBoost c).y = c.y + c.boostVy * (1 / 5) := by
    unfold applyBoost
    split_ifs with hzero
    · exact ⟨rfl, rfl⟩
    · push Not at hzero
      rw [hzero.1, hzero.2]
      simp
  have heps : (boostStopEpsilon : K) = 1 / 100 := rfl
  dsimp only
  unfold CellView.advanceBoost
  rw [hx, hy]
  by_cases hsmall : |c.boostVx| < boostStopEpsilon ∧ |c.boostVy| < boostStopEpsilon
  · rw [if_pos hsmall]
    have hshrink : ∀ v : K, |v| < boostStopEpsilon → |v * (85 / 100)| < 1 / 100 := by
      intro v hv
      rw [abs_mul, abs_of_pos (by norm_num : (0 : K) < 85 / 100)]
      rw [heps] at hv
      have := abs_nonneg v
      linarith
    have hboost : (applyBoost c).boostVx = 0 ∧ (applyBoost c).boostVy = 0 := by
      unfold applyBoost
      split_ifs with hzero
      · exact ⟨if_pos (hshrink _ hsmall.1), if_pos (hshrink _ hsmall.2)⟩
      · push Not at hzero
        exact hzero
    refine ⟨hboost.1.symm, hboost.2.symm, rfl, rfl, rfl, hserver.1, hserver.2, ?_, ?_⟩
    · split_ifs with hdying
      · simp
      · have hzero : c.boostVx = 0 := by
          by_contra hne
          exact hdying ⟨.inl hne, hsmall⟩
        simp [hzero]
    · split_ifs with hdying
      · simp
      · have hzero : c.boostVy = 0 := by
          by_contra hne
          exact hdying ⟨.inr hne, hsmall⟩
        simp [hzero]
  · have hdying : ¬ Dying c := fun h => hsmall h.2
    have hne : c.boostVx ≠ 0 ∨ c.boostVy ≠ 0 := by
      by_contra hzero
      push Not at hzero
      refine hsmall ?_
      rw [hzero.1, hzero.2, abs_zero, heps]
      norm_num
    rw [if_neg hsmall, if_neg hdying, if_neg hdying]
    rw [moveScale_tick, tickUnits_tick, LawfulPower.pow_one]
    refine ⟨?_, ?_, rfl, rfl, rfl, hserver.1, hserver.2, rfl, rfl⟩
    · unfold applyBoost
      rw [if_pos hne]
      rfl
    · unfold applyBoost
      rw [if_pos hne]
      rfl

omit [Sqrt K] [Power K] [IsStrictOrderedRing K] [LawfulPower K] in
theorem tickProtected_eq (w : CellView K) (dt : K) :
    ∃ t, w.tickProtected dt = { w with protectedTimerTicks := t } := by
  unfold CellView.tickProtected
  split
  · exact ⟨0, rfl⟩
  · exact ⟨max 0 (w.protectedTimerTicks - dt / serverTickSeconds), rfl⟩

/-- When one tick of the client gives the cell of the scene. -/
theorem advance_iff {v : CellView K} {p : Player K} {c : Cell K} (h : Same v c)
    (hsize : 1 ≤ c.size) :
    Same (v.advance serverTickSeconds p.targetX p.targetY p.moving) (movedCell p c) ↔
      TickAgrees p c := by
  obtain ⟨hbx, hby, hsz, hfar, hnear⟩ := follow_spec (p := p) h hsize
  obtain ⟨hdx, hdy, hds⟩ := followTarget_boost p c
  have hdying : Dying (followTarget p c) ↔ Dying c := by
    unfold Dying
    rw [hdx, hdy]
  obtain ⟨hbx', hby', hsz', hlx, hly, hsx, hsy, hcx, hcy⟩ :=
    advanceBoost_spec (v.follow serverTickSeconds p.targetX p.targetY p.moving)
      (hbx.trans hdx.symm) (hby.trans hdy.symm)
  simp only [hdying, hdx, hdy] at hcx hcy hsx hsy
  have htick : ∀ w : CellView K, (w.tickProtected serverTickSeconds).renderX = w.renderX ∧
      (w.tickProtected serverTickSeconds).renderY = w.renderY ∧
      (w.tickProtected serverTickSeconds).size = w.size ∧
      (w.tickProtected serverTickSeconds).boostVx = w.boostVx ∧
      (w.tickProtected serverTickSeconds).boostVy = w.boostVy ∧
      (w.tickProtected serverTickSeconds).lastDirX = w.lastDirX ∧
      (w.tickProtected serverTickSeconds).lastDirY = w.lastDirY := by
    intro w
    obtain ⟨t, ht⟩ := tickProtected_eq w serverTickSeconds
    rw [ht]
    exact ⟨rfl, rfl, rfl, rfl, rfl, rfl, rfl⟩
  have hkeep : (applyBoost (followTarget p c)).size = c.size ∧
      (applyBoost (followTarget p c)).lastDirX = (followTarget p c).lastDirX ∧
      (applyBoost (followTarget p c)).lastDirY = (followTarget p c).lastDirY := by
    unfold applyBoost
    split_ifs <;> exact ⟨hds, rfl, rfl⟩
  obtain ⟨htx, hty, hts, htbx, htby, htlx, htly⟩ :=
    htick ((v.follow serverTickSeconds p.targetX p.targetY p.moving).advanceBoost
      serverTickSeconds).clampInside
  have hx : (v.advance serverTickSeconds p.targetX p.targetY p.moving).renderX =
      (movedCell p c).x ↔ HiddenAxis p c (followTarget p c).x (p.targetX - c.x) c.boostVx := by
    rw [CellView.advance, htx]
    simp only [CellView.clampInside, movedCell, clampCell, clampInsideMap_eq, hcx, hsx]
    rw [clamp_eq_iff, HiddenAxis]
    by_cases hn : Near p c
    · rw [if_pos hn, (hnear hn).2.1, (hnear hn).1]
    · rw [if_neg hn, (hfar hn).1]
  have hy : (v.advance serverTickSeconds p.targetX p.targetY p.moving).renderY =
      (movedCell p c).y ↔ HiddenAxis p c (followTarget p c).y (p.targetY - c.y) c.boostVy := by
    rw [CellView.advance, hty]
    simp only [CellView.clampInside, movedCell, clampCell, clampInsideMap_eq, hcy, hsy]
    rw [clamp_eq_iff, HiddenAxis]
    by_cases hn : Near p c
    · rw [if_pos hn, (hnear hn).2.2.1, (hnear hn).1]
    · rw [if_neg hn, (hfar hn).2.1]
  have hdir : ((v.advance serverTickSeconds p.targetX p.targetY p.moving).lastDirX =
        (movedCell p c).lastDirX ∧
      (v.advance serverTickSeconds p.targetX p.targetY p.moving).lastDirY =
        (movedCell p c).lastDirY) ↔
      (Near p c → c.lastDirX = (p.targetX - c.x) / targetDist p c ∧
        c.lastDirY = (p.targetY - c.y) / targetDist p c) := by
    rw [CellView.advance, htlx, htly]
    simp only [CellView.clampInside, movedCell, clampCell, hlx, hly, hkeep.2.1, hkeep.2.2]
    by_cases hn : Near p c
    · obtain ⟨hd, -, -, hwx, hwy⟩ := hnear hn
      rw [hd, hwx, hwy]
      exact ⟨fun h _ => ⟨h.1.symm, h.2.symm⟩, fun h => ⟨(h hn).1.symm, (h hn).2.symm⟩⟩
    · obtain ⟨-, -, hwx, hwy⟩ := hfar hn
      exact ⟨fun _ h => absurd h hn, fun _ => ⟨hwx, hwy⟩⟩
  constructor
  · intro hsame
    exact ⟨hdir.mp ⟨hsame.dirX, hsame.dirY⟩, hx.mp hsame.x, hy.mp hsame.y⟩
  · rintro ⟨hd, hax, hay⟩
    refine ⟨hx.mpr hax, hy.mpr hay, ?_, ?_, ?_, (hdir.mpr hd).1, (hdir.mpr hd).2⟩
    · rw [CellView.advance, hts]
      simp only [CellView.clampInside, movedCell, clampCell, hsz', hkeep.1]
      exact hsz
    · rw [CellView.advance, htbx]
      exact hbx'
    · rw [CellView.advance, htby]
      exact hby'

/-! ## Many ticks -/

/-- A cell of the client over some ticks, each with a target of its own. -/
def advances : List (Player K) → CellView K → CellView K
  | [], v => v
  | p :: ps, v => advances ps (v.advance serverTickSeconds p.targetX p.targetY p.moving)

/-- A cell of the scene over some ticks. -/
def movedCells : List (Player K) → Cell K → Cell K
  | [], c => c
  | p :: ps, c => movedCells ps (movedCell p c)

/-- Every tick gives the same cell. -/
def TicksAgree : List (Player K) → Cell K → Prop
  | [], _ => True
  | p :: ps, c => TickAgrees p c ∧ TicksAgree ps (movedCell p c)

omit [Power K] [IsStrictOrderedRing K] [LawfulPower K] in
theorem movedCell_size (p : Player K) (c : Cell K) : (movedCell p c).size = c.size := by
  have h := (followTarget_boost p c).2.2
  unfold movedCell clampCell applyBoost
  split_ifs <;> exact h

theorem advances_same {ps : List (Player K)} {v : CellView K} {c : Cell K} (h : Same v c)
    (hsize : 1 ≤ c.size) (hticks : TicksAgree ps c) : Same (advances ps v) (movedCells ps c) := by
  induction ps generalizing v c with
  | nil => exact h
  | cons p ps ih =>
      refine ih ((advance_iff h hsize).mpr hticks.1) ?_ hticks.2
      rwa [movedCell_size]

end Cells

/-! ## Spores -/

/-- What a client's spore and a spore of the scene have in common. -/
structure SameSpore (v : SporeView K) (o : Spore K) : Prop where
  x : v.x = o.x
  y : v.y = o.y
  vx : v.vx = o.vx
  vy : v.vy = o.vy

/-- The velocity of a spore after friction is small in both components, or a component that
is small is zero. -/
def SporeAgrees (x : Spore K) : Prop :=
  (|x.vx * (9 / 10)| < 1 / 100 ∧ |x.vy * (9 / 10)| < 1 / 100) ∨
    (|x.vx * (9 / 10)| < 1 / 100 → x.vx = 0) ∧ (|x.vy * (9 / 10)| < 1 / 100 → x.vy = 0)

section Spores

variable [Power K] [LawfulPower K] [IsStrictOrderedRing K]

omit [Power K] [LawfulPower K] in
theorem clamp_two (x : K) :
    (if (if x < 0 then 0 else x) > sceneWidth then sceneWidth else if x < 0 then 0 else x) =
      clampInsideMap x := by
  have hpos : (0 : K) < sceneWidth := sceneWidth_pos
  unfold clampInsideMap clamp
  by_cases hlow : x < 0
  · rw [if_pos hlow, if_neg hpos.not_gt, if_pos hlow]
  · rw [if_neg hlow, if_neg hlow]

omit [Power K] [LawfulPower K] in
theorem stopSmall_eq_iff (v : K) :
    stopSmall (v * (9 / 10)) = v * (9 / 10) ↔ (|v * (9 / 10)| < 1 / 100 → v = 0) := by
  unfold stopSmall boostStopEpsilon
  split_ifs with hsmall
  · constructor
    · intro h _
      have hne : (9 / 10 : K) ≠ 0 := by norm_num
      exact (mul_eq_zero.mp h.symm).resolve_right hne
    · intro h
      rw [h hsmall, zero_mul]
  · exact ⟨fun _ h => absurd h hsmall, fun _ => rfl⟩

/-- When one tick of the client gives the spore of the scene. -/
theorem sporeAdvance_iff {v : SporeView K} {x : Spore K} (h : SameSpore v x) :
    SameSpore (v.advance serverTickSeconds) (Scene.moveSpore x) ↔ SporeAgrees x := by
  have hadvance : v.advance serverTickSeconds =
      { v with
        x := clampInsideMap (x.x + x.vx * (1 / 5))
        y := clampInsideMap (x.y + x.vy * (1 / 5))
        vx := stopSmall (x.vx * (9 / 10))
        vy := stopSmall (x.vy * (9 / 10)) } := by
    simp only [SporeView.advance, moveScale_tick, tickUnits_tick, LawfulPower.pow_one, h.x, h.y,
      h.vx, h.vy]
  have hmove : Scene.moveSpore x =
      { x with
        x := clampInsideMap (x.x + x.vx * (1 / 5))
        y := clampInsideMap (x.y + x.vy * (1 / 5))
        vx := if |x.vx * (9 / 10)| < 1 / 100 ∧ |x.vy * (9 / 10)| < 1 / 100 then 0
          else x.vx * (9 / 10)
        vy := if |x.vx * (9 / 10)| < 1 / 100 ∧ |x.vy * (9 / 10)| < 1 / 100 then 0
          else x.vy * (9 / 10) } := by
    unfold Scene.moveSpore
    simp only [clamp_two]
    split_ifs <;> rfl
  rw [hadvance, hmove]
  by_cases hboth : |x.vx * (9 / 10)| < 1 / 100 ∧ |x.vy * (9 / 10)| < 1 / 100
  · simp only [if_pos hboth]
    refine ⟨fun _ => .inl hboth, fun _ => ⟨rfl, rfl, ?_, ?_⟩⟩
    · exact if_pos hboth.1
    · exact if_pos hboth.2
  · simp only [if_neg hboth]
    constructor
    · intro hsame
      exact .inr ⟨(stopSmall_eq_iff _).mp hsame.vx, (stopSmall_eq_iff _).mp hsame.vy⟩
    · rintro (h' | ⟨hx, hy⟩)
      · exact absurd h' hboth
      · exact ⟨rfl, rfl, (stopSmall_eq_iff _).mpr hx, (stopSmall_eq_iff _).mpr hy⟩

/-- Every tick gives the same spore. -/
def SporesAgree : Nat → Spore K → Prop
  | 0, _ => True
  | n + 1, x => SporeAgrees x ∧ SporesAgree n (Scene.moveSpore x)

theorem sporeAdvances_same (n : Nat) {v : SporeView K} {x : Spore K} (h : SameSpore v x)
    (hticks : SporesAgree n x) :
    SameSpore ((fun w => SporeView.advance w serverTickSeconds)^[n] v)
      (Scene.moveSpore^[n] x) := by
  induction n generalizing v x with
  | zero => exact h
  | succ n ih =>
      rw [Function.iterate_succ_apply, Function.iterate_succ_apply]
      exact ih ((sporeAdvance_iff h).mpr hticks.1) hticks.2

end Spores

/-! ## Both -/

/-- What has to hold of a cell and a target: away from both differences, or where the
direction and the border hide them. -/
theorem motion_agrees_iff [Sqrt K] [Power K] [LawfulPower K] [IsStrictOrderedRing K] :
    (∀ (p : Player K) (v : CellView K) (c : Cell K), Same v c → 1 ≤ c.size →
      0 ≤ c.x → c.x ≤ sceneWidth → 0 ≤ c.y → c.y ≤ sceneWidth →
        (Same (v.advance serverTickSeconds p.targetX p.targetY p.moving) (movedCell p c) ↔
          TickAgrees p c)) ∧
    (∀ (v : SporeView K) (o : Spore K), SameSpore v o →
      (SameSpore (v.advance serverTickSeconds) (Scene.moveSpore o) ↔ SporeAgrees o)) ∧
    (∀ (ps : List (Player K)) (v : CellView K) (c : Cell K), Same v c → 1 ≤ c.size →
      TicksAgree ps c → Same (advances ps v) (movedCells ps c)) ∧
    ∀ (n : Nat) (v : SporeView K) (o : Spore K), SameSpore v o → SporesAgree n o →
      SameSpore ((fun w => SporeView.advance w serverTickSeconds)^[n] v)
        (Scene.moveSpore^[n] o) := by
  refine ⟨?_, ?_, ?_, ?_⟩
  · intro p v c h hsize _ _ _ _
    exact advance_iff h hsize
  · intro v o h
    exact sporeAdvance_iff h
  · intro ps v c h hsize hticks
    exact advances_same h hsize hticks
  · intro n v o h hticks
    exact sporeAdvances_same n h hticks

-- A player is born at one of these many coordinates; there is one.
scoped instance coordinates : NeZero 1001 := ⟨by decide⟩

/-- A cell that looks to the right. -/
noncomputable def restingCell (x y : ℝ) : Cell ℝ :=
  { Scene.bornCell 1 (0, 0) with x := x, y := y, size := 1 }

/-- The client's view of it. -/
noncomputable def restingView (x y : ℝ) : CellView ℝ where
  cellId := 1
  sortKey := 1
  stableKey := 1
  playerId := 1
  serverX := x
  serverY := y
  renderX := x
  renderY := y
  size := 1
  protectedTimerTicks := 0
  boostVx := 0
  boostVy := 0
  lastDirX := 1
  lastDirY := 0
  renderInitialized := true
  isPredicted := false
  predictedActionSeq := 0
  predictedParentStableKey := 0

theorem restingView_same (x y : ℝ) : Same (restingView x y) (restingCell x y) :=
  ⟨rfl, rfl, rfl, rfl, rfl, rfl, rfl⟩

/-- A player whose cells follow a target. -/
noncomputable def follower (targetX targetY : ℝ) : Player ℝ where
  playerid := 1
  battleConv := 1
  battleOnline := true
  cells := {1}
  targetX := targetX
  targetY := targetY
  moving := true
  lastInputSeq := 0
  pendingActions := []

theorem resting_not_dying (x y : ℝ) : ¬ Dying (restingCell x y) := by
  rintro ⟨h | h, -⟩ <;> exact h rfl

/-- A target to the right of a cell is as far away as its coordinate says. -/
theorem targetDist_right (x y gap : ℝ) (hgap : 0 ≤ gap) :
    targetDist (follower (x + gap) y) (restingCell x y) = gap := by
  have hroot : ∀ m : ℝ, sqrt m = Real.sqrt m := fun _ => rfl
  unfold targetDist follower restingCell
  rw [hroot]
  dsimp only
  rw [add_sub_cancel_left, sub_self, mul_zero, add_zero, Real.sqrt_mul_self hgap]

/-- A cell that is far from its target. -/
theorem motion_agrees_far :
    Same ((restingView 100 100).advance serverTickSeconds (100 + 50) 100 true)
      (movedCell (follower (100 + 50) 100) (restingCell 100 100)) := by
  have hwidth : (100 : ℝ) ≤ sceneWidth := by
    unfold sceneWidth
    norm_num
  refine ((motion_agrees_iff (K := ℝ)).1 (follower (100 + 50) 100) (restingView 100 100)
    (restingCell 100 100) (restingView_same 100 100) le_rfl (by norm_num [restingCell]) hwidth
    (by norm_num [restingCell]) hwidth).mpr ?_
  refine tickAgrees_of_plain ?_ (resting_not_dying 100 100)
  rintro ⟨-, -, hle⟩
  rw [targetDist_right 100 100 50 (by norm_num)] at hle
  norm_num at hle

/-- A cell half a thousandth away from its target moves only at the client, and a spore that
flies almost along an axis loses the small component of its velocity only there. -/
theorem motion_differs :
    (¬ ∀ (p : Player ℝ) (v : CellView ℝ) (c : Cell ℝ), Same v c → 1 ≤ c.size →
      0 ≤ c.x → c.x ≤ sceneWidth → 0 ≤ c.y → c.y ≤ sceneWidth →
        Same (v.advance serverTickSeconds p.targetX p.targetY p.moving) (movedCell p c)) ∧
    ¬ ∀ (v : SporeView ℝ) (o : Spore ℝ), SameSpore v o →
      SameSpore (v.advance serverTickSeconds) (Scene.moveSpore o) := by
  constructor
  · intro h
    have hwidth : (100 : ℝ) ≤ sceneWidth := by
      unfold sceneWidth
      norm_num
    have hsame := h (follower (100 + 5 / 10000) 100) (restingView 100 100) (restingCell 100 100)
      (restingView_same 100 100) le_rfl (by norm_num [restingCell]) hwidth
      (by norm_num [restingCell]) hwidth
    have hdist := targetDist_right 100 100 (5 / 10000) (by norm_num)
    have hnear : Near (follower (100 + 5 / 10000) 100) (restingCell 100 100) := by
      refine ⟨rfl, ?_, ?_⟩ <;> rw [hdist] <;> norm_num
    obtain ⟨-, hhidden, -⟩ := (advance_iff (restingView_same 100 100) le_rfl).mp hsame
    obtain ⟨-, -, -, -, hspec⟩ := follow_spec (p := follower (100 + 5 / 10000) 100)
      (restingView_same 100 100) le_rfl
    rw [HiddenAxis, if_pos hnear, (hspec hnear).1, if_neg (resting_not_dying 100 100)] at hhidden
    norm_num [Hidden, follower, restingCell, Scene.bornCell, sceneWidth] at hhidden
  · intro h
    have hagrees := (sporeAdvance_iff (v := ⟨1, 100, 100, 15, 5 / 1000, true, 1, 1, 1, 1⟩)
      (x := ⟨1, 1, 100, 100, 15, 5 / 1000, 1⟩) ⟨rfl, rfl, rfl, rfl⟩).mp
        (h _ _ ⟨rfl, rfl, rfl, rfl⟩)
    unfold SporeAgrees at hagrees
    rw [abs_of_pos (by norm_num), abs_of_pos (by norm_num)] at hagrees
    norm_num at hagrees

end Predict

end BallServer.Ball
