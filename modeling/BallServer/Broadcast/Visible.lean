import BallServer.Broadcast.Messages
import BallServer.Scene.Deaths
import BallServer.Scene.SporeRuns

/-!
# What a player is shown

The message of a frame has the cells and spores in a rectangle around the mass center of the
player, as the grids know them.  When the frame is broadcast the grids are up to date, so these
are the cells and spores that touch the rectangle, and no others.

Main results:

- Structure {lit}`Current`: a grid that holds its objects where they are.
- Theorem {lit}`broadcast_current`: both grids are so when a frame is broadcast.
- Theorem {lit}`Current.mem_queryRect`: what a query finds.
- Theorem {lit}`frame_visible`: what is in the message of a frame, in every run.
-/

namespace BallServer.Broadcast

open BallServer.Ball
open BallServer.Ball.Scene
open BallServer.Grid (GridIndex)
open Plane (Box disc)

variable {K : Type} [Field K] [LinearOrder K] [IsStrictOrderedRing K] [FloorRing K]

/-! ## The rectangle -/

/-- The rectangle of {lit}`calc_player_aoi_rect`. -/
def aoiBox (s : Scene K) (x : Player K) : Box K :=
  let (minX, minY, maxX, maxY) := calcPlayerAoiRect s x
  ⟨minX, minY, maxX, maxY⟩

variable {s : Scene K} {x : Player K}

omit [IsStrictOrderedRing K] in
theorem weight_pos (s : Scene K) (c : Nat) :
    0 < max 1 ((s.cells c).size * (s.cells c).size) :=
  zero_lt_one.trans_le (le_max_left _ _)

omit [FloorRing K] in
/-- A mean of numbers up to the width of the scene is one. -/
theorem mean_inside {cells : Finset Nat} (hcells : cells.Nonempty) {v w : Nat → K}
    (hw : ∀ c, 0 < w c) (hv : ∀ c ∈ cells, 0 ≤ v c ∧ v c ≤ sceneWidth) :
    0 ≤ (cells.sum fun c => v c * w c) / cells.sum w ∧
      (cells.sum fun c => v c * w c) / cells.sum w ≤ sceneWidth := by
  have hpos : 0 < cells.sum w := Finset.sum_pos (fun c _ => hw c) hcells
  constructor
  · apply div_nonneg _ hpos.le
    exact Finset.sum_nonneg fun c hc => mul_nonneg (hv c hc).1 (hw c).le
  · rw [div_le_iff₀ hpos, Finset.mul_sum]
    exact Finset.sum_le_sum fun c hc => mul_le_mul_of_nonneg_right (hv c hc).2 (hw c).le

/-- Who has cells looks at a part of the scene. -/
theorem aoiBox_of_nonempty (hcells : x.cells.Nonempty)
    (hinside : ∀ c ∈ x.cells, Inside (s.cells c).x (s.cells c).y) :
    (aoiBox s x).Proper ∧ (aoiBox s x).Overlaps sceneBounds.box := by
  have hpos : 0 < x.cells.sum fun c => max 1 ((s.cells c).size * (s.cells c).size) :=
    Finset.sum_pos (fun c _ => weight_pos s c) hcells
  obtain ⟨hx, hx'⟩ := mean_inside hcells (v := fun c => (s.cells c).x) (weight_pos s)
    fun c hc => (hinside c hc).1
  obtain ⟨hy, hy'⟩ := mean_inside hcells (v := fun c => (s.cells c).y) (weight_pos s)
    fun c hc => (hinside c hc).2
  have hw : (0 : K) < aoiHalfW := by norm_num [aoiHalfW]
  have hh : (0 : K) < aoiHalfH := by norm_num [aoiHalfH]
  unfold aoiBox calcPlayerAoiRect
  dsimp only
  rw [if_neg (not_le.mpr hpos)]
  refine ⟨⟨?_, ?_⟩, ⟨?_, ?_, ?_, ?_⟩⟩
  all_goals
    simp only [Grid.Bounds.box, sceneBounds, zero_add]
    linarith

omit [FloorRing K] in
/-- Who has none looks at a point outside the scene. -/
theorem aoiBox_of_empty (hcells : x.cells = ∅) :
    ¬(aoiBox s x).Overlaps (sceneBounds (K := K)).box := by
  unfold aoiBox calcPlayerAoiRect
  simp only [hcells, Finset.sum_empty, le_refl, if_true]
  rintro ⟨-, hright, -, -⟩
  simp only [Grid.Bounds.box, sceneBounds] at hright
  linarith

/-- A player with one cell looks at it. -/
theorem mem_aoiBox_of_single {c : Nat} (hcells : x.cells = {c}) :
    ((s.cells c).x, (s.cells c).y) ∈ (aoiBox s x).points := by
  have hw : (0 : K) < aoiHalfW := by norm_num [aoiHalfW]
  have hh : (0 : K) < aoiHalfH := by norm_num [aoiHalfH]
  have hpos := weight_pos s c
  unfold aoiBox calcPlayerAoiRect
  simp only [hcells, Finset.sum_singleton]
  rw [if_neg (not_le.mpr hpos)]
  simp only [mul_div_cancel_right₀ _ hpos.ne']
  refine ⟨?_, ?_, ?_, ?_⟩
  all_goals
    dsimp only
    linarith

/-! ## What a grid finds -/

/-- A grid holds the objects {lit}`A`, and nothing else, where they are. -/
structure Current (g : GridIndex Nat K) (heap : Nat → Grid.Obj Nat K) (A : Finset Nat) : Prop where
  tracks : Tracks g heap A A
  held : Held g
  named : ∀ c, (heap c).id = some c
  inside : ∀ c ∈ A, Inside (heap c).x (heap c).y
  radius : ∀ c ∈ A, 0 ≤ (heap c).toPlace.radius

namespace Current

variable [Sqrt K] [LawfulSqrt K] {g : GridIndex Nat K} {heap : Nat → Grid.Obj Nat K} {A : Finset Nat}

omit [Sqrt K] [LawfulSqrt K] in
/-- The grid, with every object handed over where it is. -/
theorem tracked (h : Current g heap A) :
    (⟨g, heap, fun c => some (heap c).toPlace⟩ : Grid.World Nat K).Tracked ∧
      ∀ k, (g.records k).isSome ↔ ∃ c ∈ A, k = .id c := by
  obtain ⟨hrecorded, hranges⟩ := Tracks.follows h.tracks h.inside h.radius
  obtain ⟨passed, hw⟩ := h.held.tracked h.named
  refine ⟨⟨hw.filed, hw.key, fun k rec hrec => ?_, hw.current⟩, hrecorded⟩
  have hrec : g.records k = some rec := hrec
  obtain ⟨c, hc, rfl⟩ := (hrecorded k).mp (Option.isSome_iff_exists.mpr ⟨rec, hrec⟩)
  obtain ⟨⟨rec', hrec', hobj, hrange⟩, -⟩ := hranges c hc
  obtain rfl := Option.some.inj (hrec'.symm.trans hrec)
  exact ⟨_, rfl, by rw [hobj]; exact hrange⟩

omit [Sqrt K] [LawfulSqrt K] in
theorem indexed_iff (h : Current g heap A) (c : Nat) :
    (⟨g, heap, fun c => some (heap c).toPlace⟩ : Grid.World Nat K).Indexed c ↔ c ∈ A := by
  obtain ⟨hw, hrecorded⟩ := h.tracked
  constructor
  · rintro ⟨k, rec, hrec, rfl⟩
    have hrec : g.records k = some rec := hrec
    obtain ⟨e, he, rfl⟩ := (hrecorded k).mp (Option.isSome_iff_exists.mpr ⟨rec, hrec⟩)
    have hkey := hw.key _ rec hrec
    unfold Grid.objectKey at hkey
    simp only [h.named] at hkey
    rw [Grid.Key.id.inj hkey]
    exact he
  · intro hc
    obtain ⟨⟨rec, hrec, hobj, -⟩, -⟩ := (Tracks.follows h.tracks h.inside h.radius).2 c hc
    exact ⟨_, rec, hrec, hobj⟩

omit [Sqrt K] [LawfulSqrt K] in
/-- A query finds the objects that touch the rectangle, each once. -/
theorem mem_queryRect (h : Current g heap A) {b : Box K} (hb : b.Proper)
    (hover : b.Overlaps sceneBounds.box) :
    (g.queryRect heap b.minX b.minY b.maxX b.maxY).Nodup ∧
      ∀ c, c ∈ g.queryRect heap b.minX b.minY b.maxX b.maxY ↔
        c ∈ A ∧ ((heap c).disc ∩ b.points).Nonempty := by
  have hsettled : (⟨g, heap, fun c => some (heap c).toPlace⟩ : Grid.World Nat K).Settled :=
    fun c hc => ⟨rfl, h.radius c ((h.indexed_iff c).mp hc)⟩
  have hhit (c : Nat) (hc : c ∈ A) : GridIndex.hitsRect heap b.minX b.minY b.maxX b.maxY c = true ↔
      ((heap c).disc ∩ b.points).Nonempty := GridIndex.hitsRect_iff (h.radius c hc) hb
  have hsome := (g.toLayout.cellRange_isSome b).mpr (by rw [h.tracks.box]; exact hover)
  obtain ⟨range, hrange⟩ := Option.isSome_iff_exists.mp hsome
  have hfull := GridIndex.scan_full h.tracked.1 hsettled hb hrange fun c hc hit =>
    have hin := (h.indexed_iff c).mp hc
    Grid.Place.overlaps_of_meets (h.radius c hin) subset_rfl ((hhit c hin).mp hit)
  unfold GridIndex.queryRect
  rw [hrange]
  refine ⟨hfull.1, fun c => (hfull.2 c).trans ?_⟩
  rw [h.indexed_iff c]
  exact and_congr_right fun hc => hhit c hc

omit [IsStrictOrderedRing K] [Sqrt K] [LawfulSqrt K] in
theorem queryRect_nil (h : Current g heap A) {b : Box K} (hover : ¬b.Overlaps sceneBounds.box) :
    g.queryRect heap b.minX b.minY b.maxX b.maxY = [] := by
  have hnone : g.cellRangeForAabb b.minX b.minY b.maxX b.maxY = none := by
    rw [← Option.not_isSome_iff_eq_none, g.toLayout.cellRange_isSome b, h.tracks.box]
    exact hover
  unfold GridIndex.queryRect
  rw [hnone]

omit [Sqrt K] [LawfulSqrt K] in
/-- What a player who has cells in the scene finds around them, in the order of the numbers. -/
theorem visible (h : Current g heap A)
    (hinside : ∀ c ∈ x.cells, Inside (s.cells c).x (s.cells c).y) :
    (sortBy id (g.queryRect heap (aoiBox s x).minX (aoiBox s x).minY (aoiBox s x).maxX
        (aoiBox s x).maxY)).Pairwise (· < ·) ∧
      ∀ c, c ∈ sortBy id (g.queryRect heap (aoiBox s x).minX (aoiBox s x).minY (aoiBox s x).maxX
        (aoiBox s x).maxY) ↔
          x.cells.Nonempty ∧ c ∈ A ∧ ((heap c).disc ∩ (aoiBox s x).points).Nonempty := by
  have hfound : (g.queryRect heap (aoiBox s x).minX (aoiBox s x).minY (aoiBox s x).maxX
      (aoiBox s x).maxY).Nodup ∧
      ∀ c, c ∈ g.queryRect heap (aoiBox s x).minX (aoiBox s x).minY (aoiBox s x).maxX
        (aoiBox s x).maxY ↔
          x.cells.Nonempty ∧ c ∈ A ∧ ((heap c).disc ∩ (aoiBox s x).points).Nonempty := by
    rcases x.cells.eq_empty_or_nonempty with hempty | hnonempty
    · rw [h.queryRect_nil (aoiBox_of_empty hempty)]
      exact ⟨List.nodup_nil, fun c => by simp [hempty]⟩
    · obtain ⟨hproper, hover⟩ := aoiBox_of_nonempty hnonempty hinside
      obtain ⟨hnodup, hmem⟩ := h.mem_queryRect hproper hover
      exact ⟨hnodup, fun c => (hmem c).trans (iff_and_self.mpr fun _ => hnonempty)⟩
  obtain ⟨hnodup, hmem⟩ := hfound
  refine ⟨?_, fun c => (mem_sortBy id).trans (hmem c)⟩
  have hdistinct := sortBy_nodup hnodup id
  exact ((sortBy_pairwise id _).and hdistinct).imp fun hle => lt_of_le_of_ne hle.1 hle.2

end Current

/-! ## Frames -/

variable [Sqrt K] [LawfulSqrt K]

/-- The grids know all cells and spores when a frame is broadcast. -/
theorem broadcast_shown (o : Order) (d : Draws) (hs : s.Live) (h : s.Shown) (hlarge : s.Large) :
    (broadcast o d s).Shown ∧ (broadcast o d s).Large := by
  have hsame : Same s { s with event := .empty } :=
    ⟨rfl, rfl, fun _ => ⟨rfl, rfl⟩, fun _ => ⟨rfl, rfl⟩, rfl, rfl, rfl⟩
  have hs₀ := hsame.live hs
  have h₀ : ({ s with event := .empty } : Scene K).Shown := h.congr rfl rfl
  obtain ⟨hl₁, hleaves₁, -⟩ := flushPendingLeaves_mass o hs₀
  have h₁ := flushPendingLeaves_shown o hs₀.sound h₀
  have h₂ := flushPendingRebirth_shown o d.rebirth hl₁ hleaves₁ h₁
  obtain ⟨hl₂, hleaves₂, hlarge₂⟩ := beforeCommands_live o d hs
  have hcommands := processCommands_conserves o hl₂.sound
  have h₃ := foodUpdate_loose d.food (processCommands_loose o hl₂.sound h₂.loose)
  obtain ⟨hl₄, -, -, -, hlarge₄⟩ := foodUpdate_live d.food (hcommands.live hl₂ hleaves₂)
  -- {lit}`spores_move` and {lit}`cell_move` repair the grids, and every later phase keeps them
  obtain ⟨hspores₅, hcells₅⟩ := sporesMove_shown o h₃
  have hc₅ := sporesMove_conserves o hl₄.sound
  have h₇ := cleanup_shown o (cellMove_shown o hcells₅ hspores₅)
  have hc₇ := cleanup_conserves o (cellMove_conserves o hc₅.sound).sound
  have hc₈ := eatFood_conserves o hc₇.sound
  have h₉ := eatSpore_shown o hc₈.sound (eatFood_shown o hc₇.sound h₇)
  have hc₉ := eatSpore_conserves o hc₈.sound
  have hc₁₀ := eatCell_conserves o hc₉.sound
  refine ⟨collisionUpdate_shown o (mergeUpdate_shown o hc₁₀.sound (eatCell_shown o hc₉.sound h₉)),
    (middle_conserves o hl₄.sound).large ?_⟩
  exact hlarge₄ (hcommands.large (hlarge₂ hlarge))

omit [IsStrictOrderedRing K] [LawfulSqrt K] in
theorem broadcast_held (o : Order) (d : Draws) (h : Held s.cellGrid) :
    Held (broadcast o d s).cellGrid := by
  have hbefore : Held (beforeCommands o d s).cellGrid :=
    flushPendingRebirth_held o d.rebirth (flushPendingLeaves_held (s := { s with event := .empty })
      o h)
  have hcommands : Held (processCommands o (beforeCommands o d s)).cellGrid := by
    rw [processCommands_grid]
    exact hbefore
  exact collisionUpdate_held o (mergeUpdate_held o (eatCell_held o (prey_held o d hcommands)))

/-- In every frame of every run the grids are right when the frame is broadcast. -/
theorem broadcast_current (es : List (Scene.Event K)) (o : Order) (d : Draws) :
    let b := broadcast o d (run start es)
    Current b.cellGrid b.cellObj b.alive ∧ Current b.sporeGrid b.sporeObj b.spores := by
  intro b
  obtain ⟨hlive, hrun⟩ := run_shown (K := K) es
  obtain ⟨hshown, hlarge⟩ := broadcast_shown o d hlive hrun (run_live (K := K) es).2
  refine ⟨⟨hshown.cells.tracks, broadcast_held o d (run_held es), fun _ => rfl,
      fun c _ => hshown.cells.bounded c, fun c hc => zero_le_one.trans (hlarge c hc)⟩,
    hshown.spores.tracks, broadcast_sporesHeld o d (run_sporesHeld es), fun _ => rfl,
    hshown.spores.inside, fun i _ => ?_⟩
  show 0 ≤ (b.sporeTables i).size
  rw [hshown.spores.sizes i]
  exact zero_le_one

/-- The cells of a message. -/
def Msg.cells : Msg K → List (CellInfo K)
  | .sceneSnapshot cells .. => cells
  | .frameUpdate cells .. => cells

/-- The spores of a message. -/
def Msg.spores : Msg K → List (SporeInfo K)
  | .sceneSnapshot _ spores .. => spores
  | .frameUpdate _ _ _ _ _ _ _ spores _ => spores

/-- The message of a frame shows a player the cells and spores that touch the rectangle around
her mass center, where they are after the frame, in the order of their numbers; and if she has
one cell it is among them. -/
theorem frame_visible (es : List (Scene.Event K)) (o : Order) (d : Draws) {tick p : Nat}
    {m : Msg K} (hm : frameUpdateTo (broadcast o d (run start es)) tick p = some m) :
    let b := broadcast o d (run start es)
    ∃ r, b.players.get p = some r ∧ ∃ cells spores : List Nat,
      m.cells = cells.map (cellInfo b) ∧ m.spores = spores.map (sporeInfo b) ∧
      cells.Pairwise (· < ·) ∧ spores.Pairwise (· < ·) ∧
      (∀ c, c ∈ cells ↔ (b.tables r).cells.Nonempty ∧ c ∈ b.alive ∧
        (disc (b.cells c).x (b.cells c).y (b.cells c).size ∩
          (aoiBox b (b.tables r)).points).Nonempty) ∧
      (∀ i, i ∈ spores ↔ (b.tables r).cells.Nonempty ∧ i ∈ b.spores ∧
        (disc (b.sporeTables i).x (b.sporeTables i).y (b.sporeTables i).size ∩
          (aoiBox b (b.tables r)).points).Nonempty) ∧
      ∀ c, (b.tables r).cells = {c} → c ∈ cells := by
  obtain ⟨hcells, hspores⟩ := broadcast_current es o d
  generalize broadcast o d (run start es) = b at hcells hspores hm
  obtain ⟨r, hr, hsend⟩ := Option.bind_eq_some_iff.mp hm
  obtain rfl : frameUpdateMsg b tick p (b.tables r) = m := by
    unfold sendFrameMsg at hsend
    split at hsend
    · exact Option.some.inj hsend
    · cases hsend
  have hown (c : Nat) (hc : c ∈ (b.tables r).cells) : c ∈ b.alive := mem_alive.mpr ⟨p, r, hr, hc⟩
  obtain ⟨hsortedCells, hmemCells⟩ := hcells.visible (x := b.tables r)
    fun c hc => hcells.inside c (hown c hc)
  obtain ⟨hsortedSpores, hmemSpores⟩ := hspores.visible (x := b.tables r)
    fun c hc => hcells.inside c (hown c hc)
  refine ⟨r, hr, _, _, rfl, rfl, hsortedCells, hsortedSpores, hmemCells, hmemSpores,
    fun c hc => (hmemCells c).mpr ?_⟩
  have hmem : c ∈ (b.tables r).cells := by
    rw [hc]
    exact Finset.mem_singleton_self c
  refine ⟨⟨c, hmem⟩, hown c hmem, _, ?_, mem_aoiBox_of_single hc⟩
  show ((b.cells c).x - (b.cells c).x) ^ 2 + ((b.cells c).y - (b.cells c).y) ^ 2 ≤ _
  rw [sub_self, sub_self, zero_pow two_ne_zero, add_zero]
  positivity

/-- The records of the players of the duel, of whom one has a client. -/
noncomputable def watcher (r : Nat) : Player ℝ :=
  { duelist r with battleOnline := decide (r = 0) }

/-- The client comes when the players have entered. -/
noncomputable def watched : List (Scene.Event ℝ) := duelEnters ++ [.online 7 true]

theorem run_watched : run start watched = (run start duelEnters).setTable 0 (watcher 0) := by
  have h := duel_enters
  have hplayer : (run start duelEnters).players.get 7 = some 0 :=
    (h.players 7 0).mpr (.inl ⟨rfl, rfl⟩)
  have hnone : (run start duelEnters).pendingEnters.get 7 = none :=
    Table.get_eq_none (by rw [h.enters]; exact Finset.notMem_empty 7)
  have hlast : run start watched = (battleOnline (run start duelEnters) 7 true).1 := by
    unfold watched run
    rw [List.foldl_append]
    rfl
  rw [hlast]
  unfold battleOnline
  rw [hnone, hplayer]
  change (run start duelEnters).setTable 0
    { (run start duelEnters).tables 0 with battleOnline := true } = _
  rw [h.tables 0 (.inl rfl)]
  rfl

/-- Nothing happens in the frame after that. -/
theorem watched_broadcast :
    let b := broadcast .ascending ⟨fun _ => middle, none⟩ (run start watched)
    b.players.get 7 = some 0 ∧ b.tables 0 = watcher 0 := by
  obtain ⟨d, hd⟩ : ∃ d : Draws, d = ⟨fun _ => middle, none⟩ := ⟨_, rfl⟩
  have hright := (prey_right watched .ascending d).1
  have h := duel_enters
  rw [← hd]
  rw [run_watched] at hright ⊢
  generalize run start duelEnters = s at h hright
  have htables (r : Nat) (hr : r = 0 ∨ r = 1) : (s.setTable 0 (watcher 0)).tables r = watcher r := by
    rcases hr with rfl | rfl
    · exact Function.update_self 0 (watcher 0) s.tables
    · exact (Function.update_of_ne one_ne_zero (watcher 0) s.tables).trans (h.tables 1 (.inr rfl))
  have hplayers : ∀ p r, (s.setTable 0 (watcher 0)).players.get p = some r ↔
      p = 7 ∧ r = 0 ∨ p = 8 ∧ r = 1 := h.players
  have hcells : ∀ c, c = 1 ∨ c = 2 → (s.setTable 0 (watcher 0)).cells c = duelCell c 1 100 :=
    h.cells
  have hfoods : (s.setTable 0 (watcher 0)).foods = ∅ := h.foods
  have hspores : (s.setTable 0 (watcher 0)).spores = ∅ := h.spores
  have hleaves : (s.setTable 0 (watcher 0)).pendingLeaves = ∅ := h.leaves
  have hrebirth : (s.setTable 0 (watcher 0)).pendingRebirth.keys = ∅ := h.rebirth
  clear h
  generalize s.setTable 0 (watcher 0) = s at *
  have htable {p r : Nat} (hr : s.players.get p = some r) : s.tables r = watcher r :=
    htables r (((hplayers p r).mp hr).imp And.right And.right)
  have halive {i : Nat} : i ∈ s.alive ↔ i = 1 ∨ i = 2 :=
    mem_duel hplayers fun r hr => by rw [htables r hr]; rfl
  have hresting : s.Resting := by
    refine ⟨fun p r hr => ?_, fun p r hr => ?_, fun p r hr => ?_, fun c hc => ?_, fun c hc => ?_,
      hspores, hleaves, hrebirth⟩
    · rw [htable hr]
      rfl
    · rw [htable hr]
      rfl
    · rw [htable hr]
      exact (Finset.card_singleton _).le
    · rw [hcells c (halive.mp hc)]
      exact ⟨rfl, rfl, duelCell_inside (halive.mp hc) _ _⟩
    · rw [hcells c (halive.mp hc)]
      exact le_rfl
  have hfood : foodUpdate d.food { s with event := .empty } = { s with event := .empty } := by
    rw [hd]
    unfold foodUpdate
    split <;> rfl
  obtain ⟨g, t, n, hbefore⟩ := beforeEating_resting .ascending d hresting
  rw [hfood] at hbefore
  unfold prey at hright
  unfold broadcast afterCommands
  generalize beforeEating .ascending d (processCommands .ascending
    (beforeCommands .ascending d s)) = b at hright hbefore ⊢
  -- there is nothing to eat, and nobody is large enough to eat the other
  have heat : eatFood .ascending b = b := by
    refine foldl_fix fun c _ => eatFoods_outside .ascending fun f hf => ?_
    rw [hbefore] at hf
    have hf : f ∈ s.foods := hf
    rw [hfoods] at hf
    exact absurd hf (Finset.notMem_empty f)
  have hsame : b.players = s.players ∧ b.tables = s.tables ∧ b.cells = s.cells ∧
      b.spores = ∅ := by
    rw [hbefore]
    exact ⟨rfl, rfl, rfl, hspores⟩
  obtain ⟨hplayers', htables', hcells', hspores'⟩ := hsame
  have halive' : b.alive = s.alive := alive_congr hplayers' fun r => by rw [htables']
  rw [heat] at hright ⊢
  rw [eatSpore_none .ascending hspores'] at hright
  have hmasses : ∀ i, i = 1 ∨ i = 2 → b.cells i = duelCell i ((fun _ => 1 : Nat → Nat) i) 100 := by
    rw [hcells']
    exact hcells
  have hpeace := duel_peace .ascending hright (fun i => by rw [halive']; exact halive) hmasses
    fun _ => by decide
  have hafter := afterEating_resting .ascending hright
    (fun p r hr => by
      rw [htables']
      exact hresting.single p r (hplayers' ▸ hr))
    (fun c hc => by
      rw [hcells']
      exact hresting.timers c (halive' ▸ hc))
    hspores' hpeace
  rw [hafter]
  constructor
  · show b.players.get 7 = some 0
    rw [hplayers']
    exact (hplayers 7 0).mpr (.inl ⟨rfl, rfl⟩)
  · show b.tables 0 = watcher 0
    rw [htables']
    exact htables 0 (.inl rfl)

/-- Her client is shown her cell. -/
theorem frame_visible_watched :
    ∃ m, frameUpdateTo (broadcast .ascending ⟨fun _ => middle, none⟩ (run start watched)) 3 7 =
      some m ∧ ∃ c ∈ m.cells, c.cellId = 1 := by
  obtain ⟨hplayer, htable⟩ := watched_broadcast
  obtain ⟨m, hm⟩ : ∃ m, frameUpdateTo
      (broadcast .ascending ⟨fun _ => middle, none⟩ (run start watched)) 3 7 = some m := by
    unfold frameUpdateTo
    rw [hplayer, Option.bind_some, htable]
    exact ⟨_, rfl⟩
  obtain ⟨r, hr, ids, -, hcells, -, -, -, -, -, hown⟩ := frame_visible watched .ascending _ hm
  obtain rfl := Option.some.inj (hplayer.symm.trans hr)
  have hone : 1 ∈ ids := hown 1 (by rw [htable]; rfl)
  have hmem := hcells.symm ▸ List.mem_map_of_mem hone
  exact ⟨m, hm, _, hmem, rfl⟩

end BallServer.Broadcast
