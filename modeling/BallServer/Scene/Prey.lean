import BallServer.Scene.Bodies
import BallServer.Scene.Foods
import BallServer.Scene.IndexRuns
import BallServer.Scene.Orders

/-!
# Who eats whom

{lit}`eat_player` first collects pairs of cells that stand near each other and then goes
through them, while the cells grow and die.  This module keeps a log of the pass, with the
scene in which each cell was eaten.

Main results:

- Structure {lit}`GridRight`: the grid of the cells holds the cells of all players, in the
  buckets of their present places.
- Definition {lit}`eatings`: the log.
- Theorem {lit}`eat_player_fair`: who eats and who is eaten, and that nobody is left who
  could have been eaten throughout.
-/

namespace BallServer.Ball

open BallServer.Grid (GridIndex World Key objectKey)
open Plane (Box)

/-! ## A grid that is up to date -/

section Query

variable {K : Type} [Field K] [LinearOrder K] [IsStrictOrderedRing K] [FloorRing K]

/-- A circle around a point of the scene finds all objects of the index that touch it. -/
theorem mem_queryCircle {w : World Nat K} (hw : w.Tracked) (hs : w.Settled) {cx cy radius : K}
    (hradius : 0 ≤ radius)
    (hover : (Box.around cx cy radius).Overlaps w.grid.toLayout.box) (r : Nat) :
    r ∈ w.grid.queryCircle w.heap cx cy radius ↔
      w.Indexed r ∧ ((w.heap r).x - cx) ^ 2 + ((w.heap r).y - cy) ^ 2 ≤
        ((w.heap r).radius + radius) ^ 2 := by
  have hsome := (w.grid.cellRange_isSome (Box.around cx cy radius)).mpr hover
  obtain ⟨range, hrange⟩ := Option.isSome_iff_exists.mp hsome
  have hquery : w.grid.queryCircle w.heap cx cy radius =
      w.grid.scan range (GridIndex.hitsCircle w.heap cx cy radius) := by
    unfold GridIndex.queryCircle
    simp only [Box.around] at hrange
    rw [hrange]
  have hhit : ∀ r, w.Indexed r → GridIndex.hitsCircle w.heap cx cy radius r = true →
      (w.heap r).toPlace.box.Overlaps (Box.around cx cy radius) := by
    intro r hindexed hhit
    have hr := (hs r hindexed).2
    rw [GridIndex.hitsCircle_iff hr cx cy hradius] at hhit
    exact Grid.Place.overlaps_of_meets hr (Plane.disc_subset_around cx cy hradius) hhit
  have hfull := GridIndex.scan_full hw hs (Plane.around_proper cx cy hradius) hrange hhit
  rw [hquery, hfull.2 r, GridIndex.hitsCircle, decide_eq_true_eq]

omit [IsStrictOrderedRing K] [FloorRing K] in
theorem reorder_ascending (site : Site) (g : GridIndex Nat K) :
    Scene.reorder .ascending site g = g := by
  unfold Scene.reorder
  have hbuckets : (fun n => (g.buckets n).map (Order.ascending.bucket site)) = g.buckets := by
    funext n
    cases g.buckets n <;> rfl
  rw [hbuckets]

end Query

namespace Scene

section Right

variable {K : Type} [Field K] [LinearOrder K] [IsStrictOrderedRing K] [FloorRing K]
variable {s s' : Scene K}

/-- The grid of the cells, with every cell handed over where it is. -/
def cellWorld (s : Scene K) : World Nat K where
  grid := s.cellGrid
  heap := s.cellObj
  passed c := some (s.cellObj c).toPlace

/-- {lit}`cell_grid` holds the cells of all players where they are, and nothing else. -/
structure GridRight (s : Scene K) : Prop where
  box : s.cellGrid.toLayout.box = sceneBounds.box
  inside : ∀ c ∈ s.alive, Inside (s.cells c).x (s.cells c).y
  tracked : s.cellWorld.Tracked
  recorded : ∀ k, (s.cellGrid.records k).isSome ↔ ∃ c ∈ s.alive, k = .id c

omit [IsStrictOrderedRing K] in
theorem GridRight.obj_eq (h : s.GridRight) {c : Nat} {rec : Grid.Record}
    (hrec : s.cellGrid.records (.id c) = some rec) : rec.obj = c :=
  Key.id.inj (h.tracked.key _ rec hrec)

omit [IsStrictOrderedRing K] in
theorem GridRight.indexed (h : s.GridRight) {c : Nat} (hc : c ∈ s.alive) :
    s.cellWorld.Indexed c := by
  obtain ⟨rec, hrec⟩ := Option.isSome_iff_exists.mp ((h.recorded (.id c)).mpr ⟨c, hc, rfl⟩)
  exact ⟨_, rec, hrec, h.obj_eq hrec⟩

omit [IsStrictOrderedRing K] in
/-- Places, sizes and the grid are all that matters. -/
theorem GridRight.congr (h : s.GridRight) (halive : s'.alive = s.alive)
    (hgrid : s'.cellGrid = s.cellGrid)
    (hplace : ∀ c, (s'.cells c).x = (s.cells c).x ∧ (s'.cells c).y = (s.cells c).y ∧
      (s'.cells c).size = (s.cells c).size) : s'.GridRight := by
  have hobj : s'.cellObj = s.cellObj := by
    funext c
    obtain ⟨hx, hy, hsize⟩ := hplace c
    simp only [cellObj, hx, hy, hsize]
  have hworld : s'.cellWorld = s.cellWorld := by
    unfold cellWorld
    rw [hgrid, hobj]
  refine ⟨hgrid ▸ h.box, fun c hc => ?_, hworld ▸ h.tracked, ?_⟩
  · rw [(hplace c).1, (hplace c).2.1]
    exact h.inside c (halive ▸ hc)
  · rw [hgrid, halive]
    exact h.recorded

/-- A cell that a query around a cell has to find. -/
theorem GridRight.mem_near (h : s.GridRight) (hsizes : ∀ c ∈ s.alive, 0 < (s.cells c).size)
    (o : Order) (site : Site) {c d : Nat} (hc : c ∈ s.alive) (hd : d ∈ s.alive)
    (hnear : ((s.cells c).x - (s.cells d).x) * ((s.cells c).x - (s.cells d).x) +
      ((s.cells c).y - (s.cells d).y) * ((s.cells c).y - (s.cells d).y) <
        (s.cells c).size * (s.cells c).size) :
    d ∈ (reorder o site s.cellGrid).queryCircle s.cellObj (s.cells c).x (s.cells c).y
      ((s.cells c).size + (s.cells c).size) := by
  have hsettled : s.cellWorld.Settled := by
    rintro r ⟨k, rec, hrec, hobj⟩
    refine ⟨rfl, ?_⟩
    have hsome : (s.cellGrid.records k).isSome := by
      have hrec' : s.cellGrid.records k = some rec := hrec
      rw [hrec']
      rfl
    obtain ⟨e, he, rfl⟩ := (h.recorded k).mp hsome
    rw [← hobj, h.obj_eq hrec]
    exact (hsizes e he).le
  have hsize := hsizes c hc
  have hradius : 0 ≤ (s.cells c).size + (s.cells c).size := by linarith
  have hover : (Box.around (s.cells c).x (s.cells c).y
      ((s.cells c).size + (s.cells c).size)).Overlaps s.cellWorld.grid.toLayout.box := by
    obtain ⟨⟨hx, hx'⟩, hy, hy'⟩ := h.inside c hc
    have hbox : s.cellWorld.grid.toLayout.box = sceneBounds.box := h.box
    rw [hbox]
    constructor <;>
      simp only [Box.around, Grid.Bounds.box, sceneBounds, zero_add] <;> linarith
  have hperm := query_perm o .ascending site (Grid.Alike.refl s.cellGrid) s.cellObj (s.cells c).x
    (s.cells c).y ((s.cells c).size + (s.cells c).size)
  rw [reorder_ascending] at hperm
  refine hperm.mem_iff.mpr ((mem_queryCircle h.tracked hsettled hradius hover d).mpr
    ⟨h.indexed hd, ?_⟩)
  have hdsize : (s.cellObj d).radius = (s.cells d).size := rfl
  show ((s.cells d).x - (s.cells c).x) ^ 2 + ((s.cells d).y - (s.cells c).y) ^ 2 ≤
    ((s.cellObj d).radius + ((s.cells c).size + (s.cells c).size)) ^ 2
  rw [hdsize]
  have hdpos := hsizes d hd
  nlinarith

/-- A cell grows, and the grid is told. -/
theorem GridRight.resize (h : s.GridRight) {c : Nat} (hc : c ∈ s.alive) {size : K}
    (hsize : 0 ≤ size) :
    ((s.setCell c { s.cells c with size := size }).updateCell c).GridRight := by
  set s₁ := s.setCell c { s.cells c with size := size } with hs₁
  have hplace : ∀ d, (s₁.cells d).x = (s.cells d).x ∧ (s₁.cells d).y = (s.cells d).y := by
    intro d
    by_cases hdc : d = c
    · subst hdc
      simp [hs₁, setCell]
    · simp [hs₁, setCell, hdc]
  have hheap : s₁.cellObj =
      Function.update s.cellObj c { s.cellObj c with toPlace := (s₁.cellObj c).toPlace } := by
    funext d
    by_cases hdc : d = c
    · subst hdc
      simp [cellObj]
    · simp [cellObj, hs₁, setCell, hdc]
  have hmoved : (s.cellWorld.step (.move c (s₁.cellObj c).toPlace)).Tracked :=
    World.step_tracked h.tracked trivial
  have hworld : (s₁.updateCell c).cellWorld =
      (s.cellWorld.step (.move c (s₁.cellObj c).toPlace)).step (.update c) := by
    simp only [World.step, World.pass, cellWorld, ← hheap]
    congr 1
    funext d
    by_cases hdc : d = c
    · subst hdc
      simp [updateCell, cellObj]
    · simp [updateCell, cellObj, hs₁, setCell, hdc]
  have hlayout : (s₁.updateCell c).cellGrid.toLayout = s.cellGrid.toLayout :=
    World.update_toLayout s₁.cellGrid s₁.cellObj c
  refine ⟨hlayout ▸ h.box, fun d hd => ?_, ?_, fun k => ?_⟩
  · have hd' := h.inside d hd
    rw [← (hplace d).1, ← (hplace d).2] at hd'
    exact hd'
  · rw [hworld]
    refine World.step_tracked hmoved ?_
    -- the record of the cell is that of the cell
    intro rec hrec hne
    have hmove : (s.cellWorld.step (.move c (s₁.cellObj c).toPlace)).heap = s₁.cellObj := hheap.symm
    have hkey := hmoved.key _ rec hrec
    rw [hmove] at hkey
    exact absurd (Key.id.inj hkey) hne
  · have hrecords : (s₁.updateCell c).cellGrid.records =
        Function.update s.cellGrid.records (.id c) (recordOf s.cellGrid s₁.cellObj c) :=
      update_recordOf s.cellGrid s₁.cellObj c
    rw [hrecords]
    by_cases hk : k = .id c
    · subst hk
      rw [Function.update_self]
      have hin : Inside (s₁.cellObj c).x (s₁.cellObj c).y := by
        show Inside (s₁.cells c).x (s₁.cells c).y
        rw [(hplace c).1, (hplace c).2]
        exact h.inside c hc
      have hsome := rangeForObj_isSome (p := (s₁.cellObj c).toPlace) h.box hin (by
        show 0 ≤ (s₁.cells c).size
        simpa [hs₁, setCell] using hsize)
      refine iff_of_true ?_ ⟨c, hc, rfl⟩
      rw [recordOf, Option.isSome_map]
      exact hsome
    · rw [Function.update_of_ne hk]
      exact h.recorded k

omit [IsStrictOrderedRing K] in
/-- A player loses a cell, and so does the grid. -/
theorem GridRight.dropCell (h : s.GridRight) (hs : s.Sound) {p r c : Nat}
    (hr : s.players.get p = some r) (hc : c ∈ (s.tables r).cells) :
    ((s.dropCell r c).removeCell c).GridRight := by
  have halive : ((s.dropCell r c).removeCell c).alive = s.alive.erase c := alive_dropCell hs hr hc
  have hworld : ((s.dropCell r c).removeCell c).cellWorld = s.cellWorld.step (.remove (.id c)) :=
    rfl
  have hlayout : ((s.dropCell r c).removeCell c).cellGrid.toLayout = s.cellGrid.toLayout :=
    GridIndex.remove_toLayout s.cellGrid (.id c)
  refine ⟨hlayout ▸ h.box, fun d hd => ?_, ?_, fun k => ?_⟩
  · rw [halive] at hd
    exact h.inside d (Finset.mem_of_mem_erase hd)
  · rw [hworld]
    exact World.step_tracked h.tracked trivial
  · have hrecords : ((s.dropCell r c).removeCell c).cellGrid.records =
        Function.update s.cellGrid.records (.id c) none :=
      GridIndex.remove_records s.cellGrid (.id c)
    rw [hrecords, halive]
    by_cases hk : k = .id c
    · subst hk
      rw [Function.update_self]
      refine iff_of_false (by simp) ?_
      rintro ⟨d, hd, heq⟩
      exact Finset.ne_of_mem_erase hd (Key.id.inj heq).symm
    · rw [Function.update_of_ne hk, h.recorded k]
      constructor
      · rintro ⟨d, hd, rfl⟩
        exact ⟨d, Finset.mem_erase.mpr ⟨fun hdc => hk (hdc ▸ rfl), hd⟩, rfl⟩
      · rintro ⟨d, hd, rfl⟩
        exact ⟨d, Finset.mem_of_mem_erase hd, rfl⟩

end Right

/-! ## The log of a pass -/

section Log

variable {K : Type} [Field K] [LinearOrder K]

/-- A candidate is eaten. -/
def Eats (s : Scene K) (e : Candidate) : Prop :=
  e.eaterCid ∈ s.cellsOf e.eaterPid ∧ e.targetCid ∈ s.cellsOf e.targetPid ∧
    canEat (s.cells e.eaterCid) (s.cells e.targetCid) = true

instance (s : Scene K) (e : Candidate) : Decidable (s.Eats e) := by
  unfold Eats
  infer_instance

variable [FloorRing K] [Sqrt K]

/-- The candidates that are eaten, each with the scene of that moment. -/
def eatings : List Candidate → Scene K → List (Scene K × Candidate)
  | [], _ => []
  | e :: es, s => (if s.Eats e then [(s, e)] else []) ++ eatings es (eatCandidate s e).1

/-- The scene after the protection of the cells has worn off. -/
def hunted (o : Order) (s : Scene K) : Scene K :=
  ((o.pairs .eatPlayers s.players.keys).flatMap fun p =>
    o.pairs (.eatCells p) (s.cellsOf p)).foldl wearOff s

/-- The candidates of {lit}`eat_player`. -/
def candidates (o : Order) (s : Scene K) : List Candidate :=
  (sortBy id ((o.pairs .eatPlayers s.players.keys).flatMap fun p =>
    o.pairs (.eatCells p) (s.cellsOf p))).flatMap (candidatesOf o (hunted o s))

theorem eatPlayer_eq (o : Order) (s : Scene K) :
    eatPlayer o s = eatCandidates (candidates o s) (hunted o s) := rfl

variable {s s' : Scene K}

/-- A cell that grows by eating. -/
def fed (s : Scene K) (e : Candidate) : Scene K :=
  (s.setCell e.eaterCid { s.cells e.eaterCid with
    size := sqrt (calMass (s.cells e.eaterCid).size + calMass (s.cells e.targetCid).size)
      }).updateCell e.eaterCid

omit [FloorRing K] [Sqrt K] in
theorem Eats.ne {e : Candidate} (h : s.Eats e) : e.eaterCid ≠ e.targetCid := by
  obtain ⟨-, -, hcan⟩ := h
  intro heq
  rw [heq] at hcan
  simp [canEat] at hcan

theorem eatCandidate_of_not {e : Candidate} (h : ¬s.Eats e) : eatCandidate s e = (s, none) := by
  unfold Eats at h
  unfold eatCandidate
  split
  · rw [if_neg h]
  · rfl

/-- A cell is eaten: the other one grows, and its owner loses it. -/
theorem eatCandidate_of_eats {e : Candidate} (h : s.Eats e) :
    ∃ t, s.players.get e.targetPid = some t ∧ e.targetCid ∈ (s.tables t).cells ∧
      eatCandidate s e = (((s.fed e).dropCell t e.targetCid).removeCell e.targetCid,
        some ((s.cells e.eaterCid).playerid, (s.cells e.targetCid).playerid)) := by
  have hcells : ∀ p c, c ∈ s.cellsOf p →
      ∃ r, s.players.get p = some r ∧ c ∈ (s.tables r).cells := by
    intro p c hc
    unfold cellsOf at hc
    split at hc
    next r hr => exact ⟨r, hr, hc⟩
    next => cases hc
  obtain ⟨r, hr, -⟩ := hcells _ _ h.1
  obtain ⟨t, ht, htarget⟩ := hcells _ _ h.2.1
  refine ⟨t, ht, htarget, ?_⟩
  unfold eatCandidate
  rw [hr, ht]
  simp only
  have heats := h
  unfold Eats at heats
  rw [if_pos heats]
  simp [fed, updateCell, removeCell, dropCell, setTable, setCell, h.ne.symm]

/-- The scene after a cell was eaten differs in its size and in what is left. -/
theorem eatCandidate_cells (s : Scene K) (e : Candidate) (c : Nat) :
    ((eatCandidate s e).1.cells c).playerid = (s.cells c).playerid ∧
      ((eatCandidate s e).1.cells c).protectedTimer = (s.cells c).protectedTimer := by
  by_cases h : s.Eats e
  · obtain ⟨t, -, -, heq⟩ := eatCandidate_of_eats h
    rw [heq]
    by_cases hc : c = e.eaterCid
    · subst hc
      simp [fed, updateCell, removeCell, dropCell, setTable, setCell]
    · simp [fed, updateCell, removeCell, dropCell, setTable, setCell, hc]
  · rw [eatCandidate_of_not h]
    exact ⟨rfl, rfl⟩

/-- The events of the pass are the owners of the cells in the log. -/
theorem eatCandidates_events (es : List Candidate) (s : Scene K) :
    (eatCandidates es s).2 = (eatings es s).map fun x =>
      ((x.1.cells x.2.eaterCid).playerid, (x.1.cells x.2.targetCid).playerid) := by
  induction es generalizing s with
  | nil => rfl
  | cons e es ih =>
      have hcons : (eatCandidates (e :: es) s).2 =
          (eatCandidate s e).2.toList ++ (eatCandidates es (eatCandidate s e).1).2 := rfl
      rw [hcons, ih, eatings, List.map_append]
      congr 1
      by_cases h : s.Eats e
      · obtain ⟨t, -, -, heq⟩ := eatCandidate_of_eats h
        rw [heq, if_pos h]
        rfl
      · rw [eatCandidate_of_not h, if_neg h]
        rfl

variable [IsStrictOrderedRing K] [LawfulSqrt K]

/-- What a pass relies on. -/
structure Hunting (s : Scene K) : Prop where
  sound : s.Sound
  sizes : ∀ c ∈ s.alive, 0 < (s.cells c).size
  timers : ∀ c ∈ s.alive, 0 ≤ (s.cells c).protectedTimer
  grid : s.GridRight

omit [FloorRing K] [Sqrt K] [IsStrictOrderedRing K] [LawfulSqrt K] in
theorem mem_cellsOf_alive {p c : Nat} (hc : c ∈ s.cellsOf p) : c ∈ s.alive := by
  unfold cellsOf at hc
  split at hc
  next r hr => exact mem_alive_of hr hc
  next => cases hc

omit [FloorRing K] [Sqrt K] [IsStrictOrderedRing K] [LawfulSqrt K] in
theorem Sound.mem_cellsOf (hs : s.Sound) {c : Nat} (hc : c ∈ s.alive) :
    c ∈ s.cellsOf (s.cells c).playerid := by
  obtain ⟨p, r, hr, hcr⟩ := mem_alive.mp hc
  rw [hs.owner p r c hr hcr, cellsOf, hr]
  exact hcr

omit [FloorRing K] [Sqrt K] [IsStrictOrderedRing K] [LawfulSqrt K] in
theorem Sound.owner_cellsOf (hs : s.Sound) {p c : Nat} (hc : c ∈ s.cellsOf p) :
    (s.cells c).playerid = p := by
  unfold cellsOf at hc
  split at hc
  next r hr => exact hs.owner p r c hr hc
  next => cases hc

omit [IsStrictOrderedRing K] [LawfulSqrt K] in
/-- One candidate: the victim is lost and nothing else is. -/
theorem eatCandidate_cellsOf (hs : s.Sound) (e : Candidate) (p : Nat) :
    (eatCandidate s e).1.cellsOf p =
      if s.Eats e then (s.cellsOf p).erase e.targetCid else s.cellsOf p := by
  split
  next h =>
    obtain ⟨t, ht, htarget, heq⟩ := eatCandidate_of_eats h
    have hplayers : (eatCandidate s e).1.players = s.players := by
      rw [heq]
      rfl
    have htables : (eatCandidate s e).1.tables = (s.dropCell t e.targetCid).tables := by
      rw [heq]
      rfl
    unfold cellsOf
    rw [hplayers, htables]
    cases hp : s.players.get p with
    | none => rfl
    | some r =>
        by_cases hrt : r = t
        · subst hrt
          simp [dropCell, setTable]
        · simp only [dropCell, setTable, Function.update_of_ne hrt]
          refine (Finset.erase_eq_of_notMem fun hin => hrt ?_).symm
          have hpt := (hs.owner p r _ hp hin).symm.trans (hs.owner _ t _ ht htarget)
          subst hpt
          exact Option.some.inj (hp.symm.trans ht)
  next h => rw [eatCandidate_of_not h]

theorem Hunting.eatCandidate (h : s.Hunting) (e : Candidate) : (eatCandidate s e).1.Hunting := by
  by_cases heats : s.Eats e
  · have hsound := (eatCandidate_conserves h.sound e).sound
    obtain ⟨t, ht, htarget, heq⟩ := eatCandidate_of_eats heats
    rw [heq] at hsound ⊢
    have heater := mem_cellsOf_alive heats.1
    have halive : (((s.fed e).dropCell t e.targetCid).removeCell e.targetCid).alive =
        s.alive.erase e.targetCid := alive_dropCell h.sound ht htarget
    have hmass : 0 < calMass (s.cells e.eaterCid).size + calMass (s.cells e.targetCid).size := by
      have := mul_pos (h.sizes _ heater) (h.sizes _ heater)
      have := calMass_nonneg (s.cells e.targetCid).size
      unfold calMass at *
      linarith
    have hsize := LawfulSqrt.sqrt_nonneg
      (calMass (s.cells e.eaterCid).size + calMass (s.cells e.targetCid).size)
    have hgrid : (s.fed e).GridRight := h.grid.resize heater hsize
    have hfed : (s.fed e).Sound := h.sound.resize e.eaterCid _
    refine ⟨hsound, fun c hc => ?_, fun c hc => ?_, hgrid.dropCell hfed ht htarget⟩
    · rw [halive] at hc
      by_cases hce : c = e.eaterCid
      · subst hce
        have hroot := LawfulSqrt.mul_self_sqrt _ hmass.le
        have hpos : 0 < sqrt (calMass (s.cells e.eaterCid).size +
            calMass (s.cells e.targetCid).size) := by
          refine lt_of_le_of_ne hsize fun hzero => ?_
          rw [← hzero, zero_mul] at hroot
          exact hmass.ne hroot
        simpa [fed, updateCell, removeCell, Scene.dropCell, setTable, setCell] using hpos
      · have := h.sizes c (Finset.mem_of_mem_erase hc)
        simpa [fed, updateCell, removeCell, Scene.dropCell, setTable, setCell, hce] using this
    · rw [halive] at hc
      have htimer := (eatCandidate_cells s e c).2
      rw [heq] at htimer
      rw [htimer]
      exact h.timers c (Finset.mem_of_mem_erase hc)
  · rw [eatCandidate_of_not heats]
    exact h

theorem eatCandidate_sound (hs : s.Sound) (e : Candidate) : (eatCandidate s e).1.Sound :=
  (eatCandidate_conserves hs e).sound

/-- What the log says of an entry: it is of a candidate that is eaten in a scene of the pass. -/
theorem mem_eatings (es : List Candidate) (hs : s.Sound) {x : Scene K × Candidate}
    (hx : x ∈ eatings es s) :
    x.2 ∈ es ∧ x.1.Eats x.2 ∧ x.1.Sound ∧ (∀ p, x.1.cellsOf p ⊆ s.cellsOf p) ∧
      ∀ c, (x.1.cells c).playerid = (s.cells c).playerid ∧
        (x.1.cells c).protectedTimer = (s.cells c).protectedTimer := by
  induction es generalizing s with
  | nil => cases hx
  | cons e es ih =>
      rw [eatings, List.mem_append] at hx
      rcases hx with hx | hx
      · split at hx
        next heats =>
          rw [List.mem_singleton.mp hx]
          exact ⟨List.mem_cons_self, heats, hs, fun _ => subset_rfl, fun _ => ⟨rfl, rfl⟩⟩
        next => cases hx
      · obtain ⟨hmem, heats, hsound, hsub, hcells⟩ := ih (eatCandidate_sound hs e) hx
        refine ⟨List.mem_cons_of_mem e hmem, heats, hsound, fun p => (hsub p).trans ?_, fun c => ?_⟩
        · rw [eatCandidate_cellsOf hs]
          split
          · exact Finset.erase_subset _ _
          · exact subset_rfl
        · have hcell := eatCandidate_cells s e c
          exact ⟨(hcells c).1.trans hcell.1, (hcells c).2.trans hcell.2⟩

theorem eatings_hunting (es : List Candidate) (h : s.Hunting) {x : Scene K × Candidate}
    (hx : x ∈ eatings es s) : x.1.Hunting := by
  induction es generalizing s with
  | nil => cases hx
  | cons e es ih =>
      rw [eatings, List.mem_append] at hx
      rcases hx with hx | hx
      · split at hx
        next =>
          rw [List.mem_singleton.mp hx]
          exact h
        next => cases hx
      · exact ih (h.eatCandidate e) hx

/-- The dead stay dead. -/
theorem eatings_pairwise (es : List Candidate) (hs : s.Sound) :
    (eatings es s).Pairwise fun x y =>
      y.2.eaterCid ≠ x.2.targetCid ∧ y.2.targetCid ≠ x.2.targetCid := by
  induction es generalizing s with
  | nil => exact List.Pairwise.nil
  | cons e es ih =>
      rw [eatings]
      split
      next heats =>
        refine List.Pairwise.cons (fun y hy => ?_) (ih (eatCandidate_sound hs e))
        obtain ⟨-, ⟨heater, htarget, -⟩, -, hsub, -⟩ := mem_eatings es (eatCandidate_sound hs e) hy
        have hgone : ∀ p c, c ∈ y.1.cellsOf p → c ≠ e.targetCid := by
          intro p c hc
          have hc := hsub p hc
          rw [eatCandidate_cellsOf hs, if_pos heats] at hc
          exact Finset.ne_of_mem_erase hc
        exact ⟨hgone _ _ heater, hgone _ _ htarget⟩
      next => exact ih (eatCandidate_sound hs e)

/-- The cells that are left are those that were not eaten. -/
theorem eatCandidates_cellsOf (es : List Candidate) (hs : s.Sound) (p : Nat) :
    (eatCandidates es s).1.cellsOf p =
      s.cellsOf p \ ((eatings es s).map (·.2.targetCid)).toFinset := by
  induction es generalizing s with
  | nil => simp [eatCandidates, eatings]
  | cons e es ih =>
      have hcons : (eatCandidates (e :: es) s).1 = (eatCandidates es (eatCandidate s e).1).1 := rfl
      rw [hcons, ih (eatCandidate_sound hs e), eatCandidate_cellsOf hs, eatings]
      split
      · ext c
        simp only [Finset.mem_sdiff, Finset.mem_erase, List.mem_toFinset, List.singleton_append,
          List.map_cons, List.mem_cons]
        tauto
      · rfl

theorem Hunting.eatCandidates (es : List Candidate) (h : s.Hunting) :
    (Scene.eatCandidates es s).1.Hunting := by
  induction es generalizing s with
  | nil => exact h
  | cons e es ih => exact ih (h.eatCandidate e)

/-- A candidate who could be eaten all the time is eaten. -/
theorem eatCandidates_hungry (es : List Candidate) (hs : s.Sound) {e : Candidate} (he : e ∈ es)
    (heater : e.eaterCid ∈ (Scene.eatCandidates es s).1.cellsOf e.eaterPid)
    (hcan : ∀ n, canEat ((Scene.eatCandidates (es.take n) s).1.cells e.eaterCid)
      ((Scene.eatCandidates (es.take n) s).1.cells e.targetCid) = true) :
    e.targetCid ∉ (Scene.eatCandidates es s).1.cellsOf e.targetPid := by
  induction es generalizing s with
  | nil => cases he
  | cons d es ih =>
      have hcons : Scene.eatCandidates (d :: es) s =
          ((Scene.eatCandidates es (Scene.eatCandidate s d).1).1,
            (Scene.eatCandidates (d :: es) s).2) :=
        rfl
      rcases List.mem_cons.mp he with rfl | he
      · intro htarget
        rw [eatCandidates_cellsOf _ hs] at heater htarget
        obtain ⟨heater, -⟩ := Finset.mem_sdiff.mp heater
        obtain ⟨htarget, hnot⟩ := Finset.mem_sdiff.mp htarget
        have heats : s.Eats e := ⟨heater, htarget, hcan 0⟩
        refine hnot ?_
        simp [eatings, heats]
      · exact ih (eatCandidate_sound hs d) he heater fun n => hcan (n + 1)

/-! ## The whole pass -/

omit [FloorRing K] [Sqrt K] [IsStrictOrderedRing K] [LawfulSqrt K] in
/-- The protection of every cell has worn off once, and nothing else has happened. -/
theorem hunted_spec (o : Order) (hs : s.Sound) :
    (hunted o s).players = s.players ∧ (hunted o s).tables = s.tables ∧
      (hunted o s).cellGrid = s.cellGrid ∧
      ∀ c, (hunted o s).cells c = if c ∈ s.alive then worn (s.cells c) else s.cells c := by
  have hfold : ∀ (l : List Nat) (s : Scene K), l.Nodup → (l.foldl wearOff s).players = s.players ∧
      (l.foldl wearOff s).tables = s.tables ∧ (l.foldl wearOff s).cellGrid = s.cellGrid ∧
      ∀ c, (l.foldl wearOff s).cells c = if c ∈ l then worn (s.cells c) else s.cells c := by
    intro l
    induction l with
    | nil => exact fun s _ => ⟨rfl, rfl, rfl, fun c => by simp⟩
    | cons d l ih =>
        intro s hl
        obtain ⟨hd, hl⟩ := List.nodup_cons.mp hl
        obtain ⟨hplayers, htables, hgrid, hcells⟩ := ih (wearOff s d) hl
        rw [wearOff_eq] at hplayers htables hgrid hcells
        rw [List.foldl_cons, wearOff_eq]
        refine ⟨hplayers, htables, hgrid, fun c => (hcells c).trans ?_⟩
        by_cases hcd : c = d
        · subst hcd
          simp [hd, setCell]
        · simp [hcd, setCell]
  have hnodup : ((o.pairs .eatPlayers s.players.keys).flatMap fun p =>
      o.pairs (.eatCells p) (s.cellsOf p)).Nodup := by
    have hsorted : (s.sortedCells o .eatPlayers .eatCells).Nodup := sortedCells_nodup o hs
    exact (sortBy_perm _ _).nodup_iff.mp hsorted
  obtain ⟨hplayers, htables, hgrid, hcells⟩ := hfold _ s hnodup
  refine ⟨hplayers, htables, hgrid, fun c => (hcells c).trans ?_⟩
  have hmem : c ∈ ((o.pairs .eatPlayers s.players.keys).flatMap fun p =>
      o.pairs (.eatCells p) (s.cellsOf p)) ↔ c ∈ s.alive := by
    simp only [List.mem_flatMap, o.mem_pairs, alive, Finset.mem_biUnion]
  simp only [hmem]

omit [Field K] [LinearOrder K] [FloorRing K] [Sqrt K] [IsStrictOrderedRing K] [LawfulSqrt K] in
theorem worn_place (x : Cell K) : (worn x).x = x.x ∧ (worn x).y = x.y ∧ (worn x).size = x.size ∧
    (worn x).playerid = x.playerid := by
  unfold worn
  split <;> exact ⟨rfl, rfl, rfl, rfl⟩

omit [FloorRing K] [Sqrt K] [IsStrictOrderedRing K] [LawfulSqrt K] in
theorem hunted_cell (o : Order) (hs : s.Sound) (c : Nat) :
    ((hunted o s).cells c).x = (s.cells c).x ∧ ((hunted o s).cells c).y = (s.cells c).y ∧
      ((hunted o s).cells c).size = (s.cells c).size ∧
      ((hunted o s).cells c).playerid = (s.cells c).playerid := by
  rw [(hunted_spec o hs).2.2.2 c]
  split
  · exact worn_place _
  · exact ⟨rfl, rfl, rfl, rfl⟩

omit [FloorRing K] [Sqrt K] [IsStrictOrderedRing K] [LawfulSqrt K] in
theorem hunted_cellsOf (o : Order) (hs : s.Sound) : (hunted o s).cellsOf = s.cellsOf := by
  obtain ⟨hplayers, htables, -⟩ := hunted_spec o hs
  funext p
  unfold cellsOf
  rw [hplayers, htables]

omit [Sqrt K] [IsStrictOrderedRing K] [LawfulSqrt K] in
theorem Hunting.hunted (h : s.Hunting) (o : Order) : (hunted o s).Hunting := by
  obtain ⟨hplayers, htables, hgrid, hcells⟩ := hunted_spec o h.sound
  have halive : (Scene.hunted o s).alive = s.alive := alive_congr hplayers fun r => by rw [htables]
  refine ⟨?_, fun c hc => ?_, fun c hc => ?_, h.grid.congr halive hgrid fun c => ?_⟩
  · exact (Conserves.foldl _ h.sound fun _ c _ hs _ => wearOff_conserves hs c).sound
  · rw [(hunted_cell o h.sound c).2.2.1]
    exact h.sizes c (halive ▸ hc)
  · have hc' : c ∈ s.alive := halive ▸ hc
    have htimer := h.timers c hc'
    rw [hcells c, if_pos hc', worn]
    split
    · show 0 ≤ (s.cells c).protectedTimer - 1
      omega
    · exact htimer
  · obtain ⟨hx, hy, hsize, -⟩ := hunted_cell o h.sound c
    exact ⟨hx, hy, hsize⟩

omit [FloorRing K] [Sqrt K] [IsStrictOrderedRing K] [LawfulSqrt K] in
theorem canEat_iff {a b : Cell K} : canEat a b = true ↔
    a.playerid ≠ b.playerid ∧ b.protectedTimer ≤ 0 ∧ b.size * (5 / 4) < a.size ∧
      (a.x - b.x) * (a.x - b.x) + (a.y - b.y) * (a.y - b.y) < a.size * a.size := by
  unfold canEat
  split_ifs with h₁ h₂ h₃
  · simp [h₁]
  · simp [h₂]
  · simp [h₃]
  · simp only [decide_eq_true_eq]
    exact ⟨fun h => ⟨h₁, not_lt.mp h₂, not_le.mp h₃, h⟩, fun h => h.2.2.2⟩

omit [Sqrt K] [LawfulSqrt K] in
/-- Cells that can be eaten are candidates. -/
theorem mem_candidates (o : Order) (h : s.Hunting) {a b : Nat} (ha : a ∈ s.alive)
    (hb : b ∈ s.alive) (hcan : canEat ((hunted o s).cells a) ((hunted o s).cells b) = true) :
    ⟨(s.cells a).playerid, a, (s.cells b).playerid, b⟩ ∈ candidates o s := by
  have hhunted := h.hunted o
  obtain ⟨hplayers, htables, -⟩ := hunted_spec o h.sound
  have halive : (hunted o s).alive = s.alive := alive_congr hplayers fun r => by rw [htables]
  obtain ⟨howner, -, -, hnear⟩ := canEat_iff.mp hcan
  have hfound := hhunted.grid.mem_near hhunted.sizes o (.nearCells a) (halive ▸ ha) (halive ▸ hb)
    hnear
  have hpa := (hunted_cell o h.sound a).2.2.2
  have hpb := (hunted_cell o h.sound b).2.2.2
  refine List.mem_flatMap.mpr ⟨a, ?_, ?_⟩
  · rw [mem_sortBy]
    simp only [List.mem_flatMap, o.mem_pairs]
    simpa only [alive, Finset.mem_biUnion] using ha
  · refine List.mem_map.mpr ⟨b, ?_, ?_⟩
    · refine List.mem_filter.mpr ⟨(mem_sortBy ..).mpr hfound, ?_⟩
      refine decide_eq_true ⟨?_, howner⟩
      rintro rfl
      exact howner rfl
    · simp only [hpa, hpb]

omit [FloorRing K] in
theorem sqrt_lt_of_lt {d a : K} (hd : 0 ≤ d) (ha : 0 ≤ a) (h : d < a * a) : sqrt d < a := by
  have hroot := LawfulSqrt.mul_self_sqrt d hd
  by_contra hnot
  have hle := mul_self_le_mul_self ha (not_lt.mp hnot)
  linarith

/-- What a pass of {lit}`eat_player` does: every victim was alive, belonged to another player,
was not protected and was eaten by a living cell that was large enough and near enough; the
dead neither die again nor eat; they are what players and grid lose; and of two cells that
are left one could not eat the other throughout. -/
theorem eat_player_fair (o : Order) (h : s.Hunting) :
    let log := eatings (candidates o s) (hunted o s)
    let s' := (eatPlayer o s).1
    let dead := (log.map (·.2.targetCid)).toFinset
    (eatPlayer o s).2 = (log.map fun x =>
      ((x.1.cells x.2.eaterCid).playerid, (x.1.cells x.2.targetCid).playerid)) ∧
    (∀ x ∈ log,
      let a := x.1.cells x.2.eaterCid
      let b := x.1.cells x.2.targetCid
      x.2.eaterCid ∈ x.1.cellsOf a.playerid ∧ x.2.targetCid ∈ x.1.cellsOf b.playerid ∧
        a.playerid ≠ b.playerid ∧ (worn (s.cells x.2.targetCid)).protectedTimer = 0 ∧
        b.size * (5 / 4) < a.size ∧
        sqrt ((a.x - b.x) * (a.x - b.x) + (a.y - b.y) * (a.y - b.y)) < a.size) ∧
    (log.Pairwise fun x y =>
      y.2.eaterCid ≠ x.2.targetCid ∧ y.2.targetCid ≠ x.2.targetCid) ∧
    dead ⊆ s.alive ∧ (∀ p, s'.cellsOf p = s.cellsOf p \ dead) ∧ s'.alive = s.alive \ dead ∧
    s'.GridRight ∧
    ∀ a ∈ s'.alive, ∀ b ∈ s'.alive, ¬∀ n,
      let sₙ := (Scene.eatCandidates ((candidates o s).take n) (hunted o s)).1
      canEat (sₙ.cells a) (sₙ.cells b) = true := by
  have hhunted := h.hunted o
  have hcellsOf := hunted_cellsOf o h.sound
  intro log s' dead
  have hplayers : s'.players = s.players :=
    (eatPlayer_loses o h.sound).players
  have hleft : ∀ p, s'.cellsOf p = s.cellsOf p \ dead := by
    intro p
    rw [← hcellsOf]
    exact eatCandidates_cellsOf _ hhunted.sound p
  have halive : s'.alive = s.alive \ dead := by
    ext c
    simp only [alive, Finset.mem_sdiff, Finset.mem_biUnion, hplayers, hleft]
    constructor
    · rintro ⟨p, hp, hc, hnot⟩
      exact ⟨⟨p, hp, hc⟩, hnot⟩
    · rintro ⟨⟨p, hp, hc⟩, hnot⟩
      exact ⟨p, hp, hc, hnot⟩
  have hafter : s'.Hunting := hhunted.eatCandidates _
  refine ⟨eatCandidates_events _ _, fun x hx => ?_, eatings_pairwise _ hhunted.sound,
    fun c hc => ?_, hleft, halive, hafter.grid, fun a ha b hb hcan => ?_⟩
  · obtain ⟨-, ⟨heater, htarget, hcan⟩, -, hsub, hcells⟩ := mem_eatings _ hhunted.sound hx
    have hx := eatings_hunting _ hhunted hx
    obtain ⟨howner, htimer, hsize, hnear⟩ := canEat_iff.mp hcan
    refine ⟨hx.sound.mem_cellsOf (mem_cellsOf_alive heater),
      hx.sound.mem_cellsOf (mem_cellsOf_alive htarget), howner, ?_, hsize,
      sqrt_lt_of_lt (add_nonneg (mul_self_nonneg _) (mul_self_nonneg _))
        (hx.sizes _ (mem_cellsOf_alive heater)).le hnear⟩
    have hwas : x.2.targetCid ∈ s.alive := by
      have hin := hsub _ htarget
      rw [hcellsOf] at hin
      exact mem_cellsOf_alive hin
    have hworn := (hunted_spec o h.sound).2.2.2 x.2.targetCid
    rw [if_pos hwas] at hworn
    rw [← hworn]
    refine le_antisymm ?_ (hhunted.timers _ ?_)
    · rw [← (hcells _).2]
      exact htimer
    · exact mem_cellsOf_alive (hsub _ htarget)
  · obtain ⟨x, hx, rfl⟩ := List.mem_map.mp (List.mem_toFinset.mp hc)
    obtain ⟨-, ⟨-, htarget, -⟩, -, hsub, -⟩ := mem_eatings _ hhunted.sound hx
    have hin := hsub _ htarget
    rw [hcellsOf] at hin
    exact mem_cellsOf_alive hin
  · have ha' : a ∈ s.alive := Finset.mem_of_subset (halive ▸ Finset.sdiff_subset) ha
    have hb' : b ∈ s.alive := Finset.mem_of_subset (halive ▸ Finset.sdiff_subset) hb
    have hmem := mem_candidates o h ha' hb' (hcan 0)
    have hstay : ∀ c, c ∈ s'.alive → c ∈ s'.cellsOf (s.cells c).playerid := by
      intro c hc
      rw [halive, Finset.mem_sdiff] at hc
      rw [hleft, Finset.mem_sdiff]
      exact ⟨h.sound.mem_cellsOf hc.1, hc.2⟩
    exact eatCandidates_hungry _ hhunted.sound hmem (hstay a ha) hcan (hstay b hb)

end Log

/-- Two players with one cell each in one place, of sizes 2 and 1. -/
noncomputable def meeting : Scene ℝ :=
  ({ start with
    players := (Table.empty.set 7 0).set 8 1
    tables := fun r => ⟨r + 7, r, false, {r + 1}, 0, 0, false, 0, []⟩
    nextTable := 2
    cells := fun c => { (start : Scene ℝ).cells c with
      playerid := c + 6
      size := if c = 1 then 1 + 1 else 1
      protectedTimer := 0 }
    cellMaxid := 2 } : Scene ℝ).upsertCell 1 |>.upsertCell 2

theorem meeting_players {p r : Nat} (hr : meeting.players.get p = some r) :
    (p = 7 ∧ r = 0) ∨ (p = 8 ∧ r = 1) := by
  have hr : ((Table.empty.set 7 0).set 8 1 : Table Nat).get p = some r := hr
  simp only [Table.get_set, Table.get_empty] at hr
  split_ifs at hr with h₁ h₂
  · exact .inr ⟨h₁, (Option.some.inj hr).symm⟩
  · exact .inl ⟨h₂, (Option.some.inj hr).symm⟩

theorem mem_meeting {c : Nat} : c ∈ meeting.alive ↔ c = 1 ∨ c = 2 := by
  rw [mem_alive]
  constructor
  · rintro ⟨p, r, hr, hc⟩
    have hc : c ∈ ({r + 1} : Finset Nat) := hc
    rw [Finset.mem_singleton] at hc
    rcases meeting_players hr with ⟨-, rfl⟩ | ⟨-, rfl⟩
    · exact .inl hc
    · exact .inr hc
  · rintro (rfl | rfl)
    · exact ⟨7, 0, rfl, Finset.mem_singleton_self 1⟩
    · exact ⟨8, 1, rfl, Finset.mem_singleton_self 2⟩

theorem meeting_inside (c : Nat) : Inside (meeting.cells c).x (meeting.cells c).y :=
  bornCell_inside 0 (0, 0)

theorem meeting_hunting : meeting.Hunting where
  sound :=
    { table := fun p r hr => by
        rcases meeting_players hr with ⟨rfl, rfl⟩ | ⟨rfl, rfl⟩ <;> rfl
      owner := fun p r c hr hc => by
        have hc : c ∈ ({r + 1} : Finset Nat) := hc
        rw [Finset.mem_singleton] at hc
        rcases meeting_players hr with ⟨rfl, rfl⟩ | ⟨rfl, rfl⟩ <;> subst hc <;> rfl
      cell_le := fun p r c hr hc => by
        have hc : c ∈ ({r + 1} : Finset Nat) := hc
        rw [Finset.mem_singleton] at hc
        rcases meeting_players hr with ⟨-, rfl⟩ | ⟨-, rfl⟩ <;> subst hc
        · exact Nat.le_succ 1
        · exact le_rfl
      spore_le := by rintro _ ⟨⟩ }
  sizes := fun c _ => by
    show (0 : ℝ) < if c = 1 then 1 + 1 else 1
    split <;> norm_num
  timers := fun _ _ => le_rfl
  grid := by
    -- the cells are handed over one after the other
    set g : GridIndex Nat ℝ := (start : Scene ℝ).cellGrid with hg
    set heap := meeting.cellObj with hheap
    have hstart : (⟨g, heap, fun c => some (heap c).toPlace⟩ : World Nat ℝ).Tracked := by
      have hnew : Grid.new sceneBounds (32 : ℝ) = some g := by
        unfold Grid.new
        rw [dif_pos (by norm_num)]
        rfl
      refine ⟨Grid.new_filed hnew, ?_, ?_, ?_⟩
      all_goals rintro k rec ⟨⟩
    have hrecords : meeting.cellGrid.records = Function.update (Function.update g.records
        (.id 1) (recordOf g heap 1)) (.id 2) (recordOf (g.upsert heap 1).1 heap 2) := by
      have hfirst := upsert_recordOf g heap 1
      have hsecond := upsert_recordOf (g.upsert heap 1).1 heap 2
      rw [hfirst] at hsecond
      exact hsecond
    have hsome : ∀ (g : GridIndex Nat ℝ), g.toLayout.box = sceneBounds.box → ∀ c,
        (recordOf g heap c).isSome := by
      intro g hbox c
      rw [recordOf, Option.isSome_map]
      refine rangeForObj_isSome hbox (meeting_inside c) ?_
      show (0 : ℝ) ≤ if c = 1 then 1 + 1 else 1
      split <;> norm_num
    have hlayout := upsert_toLayout g heap 1
    refine ⟨?_, fun c _ => meeting_inside c, ?_, fun k => ?_⟩
    · have hlayout' := upsert_toLayout (g.upsert heap 1).1 heap 2
      show ((g.upsert heap 1).1.upsert heap 2).1.toLayout.box = sceneBounds.box
      rw [hlayout', hlayout]
      rfl
    · have hfirst : ((⟨g, heap, fun c => some (heap c).toPlace⟩ : World Nat ℝ).step
          (.upsert 1)).Tracked := World.step_tracked hstart (by rintro rec ⟨⟩)
      have hsecond : (((⟨g, heap, fun c => some (heap c).toPlace⟩ : World Nat ℝ).step
          (.upsert 1)).step (.upsert 2)).Tracked := by
        refine World.step_tracked hfirst ?_
        intro rec hrec hne
        exact absurd (Key.id.inj (hfirst.key (.id 2) rec hrec)) hne
      have hworld : meeting.cellWorld =
          ((⟨g, heap, fun c => some (heap c).toPlace⟩ : World Nat ℝ).step (.upsert 1)).step
            (.upsert 2) := by
        simp only [World.step, World.pass, Function.update_eq_self]
        rfl
      rw [hworld]
      exact hsecond
    · rw [hrecords]
      simp only [mem_meeting, exists_eq_or_imp, exists_eq_left]
      by_cases h₂ : k = .id 2
      · subst h₂
        rw [Function.update_self]
        refine iff_of_true (hsome _ ?_ 2) (.inr rfl)
        rw [hlayout]
        rfl
      · rw [Function.update_of_ne h₂]
        by_cases h₁ : k = .id 1
        · subst h₁
          rw [Function.update_self]
          exact iff_of_true (hsome _ rfl 1) (.inl rfl)
        · rw [Function.update_of_ne h₁]
          simp only [h₁, h₂, or_self, iff_false]
          rintro ⟨⟩

theorem eat_player_fair_meeting :
    let s' := (eatPlayer .ascending meeting).1
    s'.GridRight ∧ ∀ a ∈ s'.alive, ∀ b ∈ s'.alive, ¬∀ n,
      let sₙ := (eatCandidates ((candidates .ascending meeting).take n)
        (hunted .ascending meeting)).1
      canEat (sₙ.cells a) (sₙ.cells b) = true :=
  (eat_player_fair .ascending meeting_hunting).2.2.2.2.2.2

end Scene

end BallServer.Ball
