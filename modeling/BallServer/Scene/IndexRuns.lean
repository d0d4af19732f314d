import BallServer.Scene.Indexes

/-!
# The grids after a frame

Splitting and spitting leave the grids behind; {lit}`spores_move` and {lit}`cell_move`
catch up, and eating, merging and pushing tell the grid of every cell they change.

Main results:

- Theorems {lit}`sporesMove_shown` and {lit}`cellMove_shown`: the phases that repair the grids.
- Theorem {lit}`run_shown`: the grids know all cells and spores after every sequence of events.
- Theorem {lit}`indexes_follow`: the same in terms of records.
-/

namespace BallServer.Ball

open BallServer.Grid

namespace Scene

variable {K : Type} [Field K] [LinearOrder K] [IsStrictOrderedRing K] [FloorRing K] [Sqrt K]
variable {s s' : Scene K} {F : Finset Nat}

/-! ## Commands leave the grids behind -/

/-- No record is of a cell or spore that does not exist. -/
structure Loose (s : Scene K) : Prop where
  cells : s.CellsShown ∅
  spores : s.SporesShown ∅

omit [IsStrictOrderedRing K] [Sqrt K] in
/-- Grids that show the cells and spores have no record of another one. -/
theorem Shown.loose (h : s.Shown) : s.Loose where
  cells := h.cells.mono (Finset.empty_subset _)
  spores := ⟨h.spores.tracks.mono subset_rfl (Finset.empty_subset _) fun _ _ => rfl, by simp,
    h.spores.sizes⟩

omit [IsStrictOrderedRing K] [Sqrt K] in
theorem Loose.congr (h : s.Loose) (hcells : s'.cellView = s.cellView)
    (hspores : s'.sporeView = s.sporeView) : s'.Loose :=
  ⟨h.cells.congr hcells, h.spores.congr hspores⟩

omit [IsStrictOrderedRing K] in
/-- The cell that a split adds is in no grid yet. -/
theorem splitCell_loose (h : s.Loose) (a : Action K) {p r : Nat}
    (hr : s.players.get p = some r) (c : Nat) : (splitCell a r s c).Loose := by
  have halive : (splitCell a r s c).alive = insert (s.cellMaxid + 1) s.alive :=
    alive_addCell (s := newCell (s.setCell c _) _) hr _
  refine ⟨⟨fun d => ?_, ?_⟩, h.spores.congr rfl⟩
  · by_cases hd : d = s.cellMaxid + 1
    · subst hd
      simpa [splitCell, addCell, setTable, newCell, Scene.setCell] using h.cells.bounded c
    · by_cases hdc : d = c
      · subst hdc
        simpa [splitCell, addCell, setTable, newCell, Scene.setCell, hd] using h.cells.bounded d
      · simpa [splitCell, addCell, setTable, newCell, Scene.setCell, hd, hdc] using h.cells.bounded d
  · rw [halive]
    exact h.cells.tracks.mono (Finset.subset_insert _ _) subset_rfl (by simp)

omit [IsStrictOrderedRing K] in
theorem splitCells_loose (a : Action K) {p r : Nat} (l : List Nat) (h : s.Loose)
    (hr : s.players.get p = some r) : (splitCells a r l s).1.Loose := by
  induction l generalizing s with
  | nil => exact h
  | cons c l ih =>
      unfold splitCells
      split
      · exact h
      · exact ih (splitCell_loose h a hr c) hr

omit [IsStrictOrderedRing K] in
/-- The spore that is spat is in no grid yet. -/
theorem spitCell_loose (h : s.Loose) (a : Action K) (r c : Nat) : (spitCell a r s c).Loose := by
  have hset := h.cells.setCell_place c (x := { s.cells c with
    size := sqrt (calMass (s.cells c).size - calMass 1) }) rfl rfl
  refine ⟨hset.congr rfl, ⟨?_, by simp, fun i => ?_⟩⟩
  · exact h.spores.tracks.mono (Finset.subset_insert _ _) subset_rfl (by simp)
  · by_cases hi : i = s.sporeMaxid + 1
    · subst hi
      simp [spitCell, newSpore, Scene.setCell]
    · simpa [spitCell, newSpore, Scene.setCell, hi] using h.spores.sizes i

omit [IsStrictOrderedRing K] in
theorem spitCells_loose (a : Action K) (r : Nat) (l : List Nat) (h : s.Loose) :
    (spitCells a r l s).1.Loose := by
  induction l generalizing s with
  | nil => exact h
  | cons c l ih =>
      unfold spitCells
      split
      · exact ih (spitCell_loose h a r c)
      · exact ih h

omit [IsStrictOrderedRing K] in
theorem doSplit_loose (o : Order) (site : Site) (a : Action K) {p r : Nat} (h : s.Loose)
    (hr : s.players.get p = some r) : (doSplit o site s r a).1.Loose := by
  unfold doSplit
  split
  · exact h
  · exact splitCells_loose a _ h hr

omit [IsStrictOrderedRing K] in
theorem runAction_loose (o : Order) {p r : Nat} (h : s.Loose) (hr : s.players.get p = some r)
    (a : Action K × Nat) : (runAction o r s a).Loose := by
  unfold runAction
  split
  · have hsplit := doSplit_loose o (.action r a.2) a.1 h hr
    exact hsplit.congr rfl rfl
  · have hspit : (spitSpore o (.action r a.2) s r a.1).1.Loose := spitCells_loose a.1 r _ h
    exact hspit.congr rfl rfl

/-- The commands leave the grids behind, but remove no cell or spore that has a record. -/
theorem processCommands_loose [LawfulSqrt K] (o : Order) (hs : s.Sound) (h : s.Loose) :
    (processCommands o s).Loose := by
  refine (List.foldlRecOn (motive := fun s₁ : Scene K =>
    s₁.Loose ∧ s₁.Sound ∧ s₁.players = s.players) _ (runActions o) ⟨h, hs, rfl⟩ ?_).1
  intro s₁ ⟨h₁, hs₁, hplayers⟩ r hr
  obtain ⟨p, hp⟩ := mem_sortedPlayers.mp hr
  have hactions : ∀ l : List (Action K × Nat), (l.foldl (runAction o r) s₁).Loose ∧
      (l.foldl (runAction o r) s₁).Sound ∧ (l.foldl (runAction o r) s₁).players = s.players := by
    intro l
    refine List.foldlRecOn (motive := fun s₂ : Scene K =>
      s₂.Loose ∧ s₂.Sound ∧ s₂.players = s.players) l _ ⟨h₁, hs₁, hplayers⟩ ?_
    intro s₂ ⟨h₂, hs₂, hplayers₂⟩ a _
    have hp₂ : s₂.players.get p = some r := hplayers₂ ▸ hp
    have hconserves := runAction_conserves o a hs₂ hp₂
    exact ⟨runAction_loose o h₂ hp₂ a, hconserves.sound, hconserves.players.trans hplayers₂⟩
  obtain ⟨h₂, hs₂, hplayers₂⟩ := hactions (s₁.tables r).pendingActions.zipIdx
  have hsame : Same ((s₁.tables r).pendingActions.zipIdx.foldl (runAction o r) s₁)
      (runActions o s₁ r) := setTable_same r rfl rfl
  refine ⟨⟨⟨h₂.cells.bounded, ?_⟩, h₂.spores.congr rfl⟩, ?_, hplayers₂⟩
  · rw [alive_congr hsame.players fun t => (hsame.tables t).2]
    exact h₂.cells.tracks.mono subset_rfl subset_rfl fun _ _ => rfl
  · exact hs₂.of_sub rfl (fun t => (hsame.tables t).1) (fun t => (hsame.tables t).2.subset)
      (fun _ _ => rfl) rfl (fun _ hi => hi) rfl

/-! ## Movement catches up -/

theorem insert_erase_self (F : Finset Nat) (c : Nat) : insert c (F.erase c) = insert c F := by
  ext d
  simp only [Finset.mem_insert, Finset.mem_erase]
  tauto

omit [IsStrictOrderedRing K] [FloorRing K] [Sqrt K] in
theorem insertFood_cellView (s : Scene K) (f : Nat) : (insertFood s f).cellView = s.cellView := by
  unfold insertFood
  split <;> rfl

omit [IsStrictOrderedRing K] [FloorRing K] [Sqrt K] in
theorem insertFood_sporeView (s : Scene K) (f : Nat) :
    (insertFood s f).sporeView = s.sporeView := by
  unfold insertFood
  split <;> rfl

omit [IsStrictOrderedRing K] [Sqrt K] in
theorem foodUpdate_loose (draw : Option (Fin 1001 × Fin 1001)) (h : s.Loose) :
    (foodUpdate draw s).Loose := by
  unfold foodUpdate
  split
  · exact h
  · split
    · exact h
    · exact h.congr (insertFood_cellView _ _) (insertFood_sporeView _ _)

omit [FloorRing K] [Sqrt K] in
/-- A spore is held at the edges of the scene. -/
theorem moveSpore_inside (x : Spore K) : Inside (moveSpore x).x (moveSpore x).y := by
  have hclamp : ∀ v : K, 0 ≤ (if (if v < 0 then 0 else v) > sceneWidth then sceneWidth
      else if v < 0 then 0 else v) ∧ (if (if v < 0 then 0 else v) > sceneWidth then sceneWidth
      else if v < 0 then 0 else v) ≤ (sceneWidth : K) := by
    intro v
    have hwidth : (0 : K) ≤ sceneWidth := by norm_num [sceneWidth]
    split_ifs <;> constructor <;> linarith
  unfold moveSpore
  simp only
  split <;> exact ⟨hclamp _, hclamp _⟩

omit [IsStrictOrderedRing K] [FloorRing K] [Sqrt K] in
theorem moveSpore_size (x : Spore K) : (moveSpore x).size = x.size := by
  unfold moveSpore
  simp only
  split <;> rfl

omit [Sqrt K] in
/-- A spore that has moved is shown at its new place. -/
theorem sporeMove_shown (h : s.SporesShown F) {i : Nat} (hi : i ∈ s.spores) :
    (sporeMove s i).SporesShown (insert i F) := by
  set s₁ : Scene K := { s with
    sporeTables := Function.update s.sporeTables i (moveSpore (s.sporeTables i)) } with hs₁
  have htable : ∀ j, j ≠ i → s₁.sporeTables j = s.sporeTables j := fun j hj => by simp [hs₁, hj]
  have htracks : Tracks s₁.sporeGrid s₁.sporeObj s.spores (F.erase i) :=
    h.tracks.mono subset_rfl (Finset.erase_subset i F) fun j hj => by
      simp [sporeObj, htable j (Finset.ne_of_mem_erase hj)]
  have hset := htracks.set i (upsert_toLayout s₁.sporeGrid s₁.sporeObj i)
    (upsert_recordOf s₁.sporeGrid s₁.sporeObj i)
  rw [Finset.insert_eq_of_mem hi, insert_erase_self] at hset
  refine ⟨hset, fun j hj => ?_, fun j => ?_⟩
  · show Inside (s₁.sporeTables j).x (s₁.sporeTables j).y
    by_cases hji : j = i
    · subst hji
      simpa [hs₁] using moveSpore_inside (s.sporeTables j)
    · rw [htable j hji]
      exact h.inside j ((Finset.mem_insert.mp hj).resolve_left hji)
  · show (s₁.sporeTables j).size = 1
    by_cases hji : j = i
    · subst hji
      simpa [hs₁, moveSpore_size] using h.sizes j
    · rw [htable j hji]
      exact h.sizes j

omit [Sqrt K] in
theorem foldl_sporeMove_shown (l : List Nat) (h : s.SporesShown F) (hl : ∀ i ∈ l, i ∈ s.spores) :
    (l.foldl sporeMove s).SporesShown (l.toFinset ∪ F) ∧
      (l.foldl sporeMove s).spores = s.spores ∧
      (l.foldl sporeMove s).cellView = s.cellView := by
  induction l generalizing s F with
  | nil => exact ⟨by simpa using h, rfl, rfl⟩
  | cons i l ih =>
      obtain ⟨hshown, hspores, hview⟩ := ih (sporeMove_shown h (hl i (by simp)))
        fun j hj => hl j (List.mem_cons_of_mem i hj)
      have hset : l.toFinset ∪ insert i F = (i :: l).toFinset ∪ F := by
        ext j
        simp only [Finset.mem_union, Finset.mem_insert, List.toFinset_cons]
        tauto
      rw [hset] at hshown
      exact ⟨hshown, hspores, hview⟩

omit [Sqrt K] in
/-- After {lit}`spores_move` the grid knows all spores. -/
theorem sporesMove_shown (o : Order) (h : s.Loose) :
    (sporesMove o s).SporesShown (sporesMove o s).spores ∧ (sporesMove o s).CellsShown ∅ := by
  obtain ⟨hshown, hspores, hview⟩ := foldl_sporeMove_shown (o.pairs .spores s.spores) h.spores
    fun i hi => (o.mem_pairs _ _ i).mp hi
  refine ⟨?_, h.cells.congr hview⟩
  have hset : (o.pairs .spores s.spores).toFinset ∪ ∅ = s.spores := by
    ext i
    simp [o.mem_pairs]
  rw [hset] at hshown
  unfold sporesMove
  rw [hspores]
  exact hshown

omit [FloorRing K] [Sqrt K] in
theorem clampCell_inside (c : Cell K) : Inside (clampCell c).x (clampCell c).y := by
  have hwidth : (0 : K) ≤ sceneWidth := by norm_num [sceneWidth]
  have hclamp : ∀ v : K, 0 ≤ max 0 (min sceneWidth v) ∧ max 0 (min sceneWidth v) ≤ sceneWidth :=
    fun v => ⟨le_max_left _ _, max_le hwidth (min_le_left _ _)⟩
  exact ⟨hclamp c.x, hclamp c.y⟩

/-- A cell that has moved is shown at its new place, whether the grid knew it before or not. -/
theorem moveCell_shown (r : Nat) (h : s.CellsShown F) {c : Nat} (hc : c ∈ s.alive) :
    (moveCell r s c).CellsShown (insert c F) := by
  have hset := h.setCell c (clampCell_inside (applyBoost (followTarget (s.tables r) (s.cells c))))
  have hmove := hset.upsertCell (c := c) hc
  rwa [insert_erase_self] at hmove

/-- What moving cells leaves alone. -/
def cellFrame (s : Scene K) : Table Nat × (Nat → Player K) × Finset Nat × (Nat → Spore K) ×
    GridIndex Nat K :=
  (s.players, s.tables, s.sporeView)

theorem foldl_moveCell_shown (r : Nat) (l : List Nat) (h : s.CellsShown F)
    (hl : ∀ c ∈ l, c ∈ s.alive) :
    (l.foldl (moveCell r) s).CellsShown (l.toFinset ∪ F) ∧
      (l.foldl (moveCell r) s).cellFrame = s.cellFrame := by
  induction l generalizing s F with
  | nil => exact ⟨by simpa using h, rfl⟩
  | cons c l ih =>
      obtain ⟨hshown, hframe⟩ := ih (moveCell_shown r h (hl c (by simp)))
        fun d hd => hl d (List.mem_cons_of_mem c hd)
      have hset : l.toFinset ∪ insert c F = (c :: l).toFinset ∪ F := by
        ext j
        simp only [Finset.mem_union, Finset.mem_insert, List.toFinset_cons]
        tauto
      rw [hset] at hshown
      exact ⟨hshown, hframe⟩

theorem moveCells_shown (o : Order) (h : s.CellsShown F) (p : Nat) :
    (moveCells o s p).CellsShown (s.cellsOf p ∪ F) ∧ (moveCells o s p).cellFrame = s.cellFrame := by
  unfold moveCells
  cases hp : s.players.get p with
  | none => exact ⟨by simpa [cellsOf, hp] using h, rfl⟩
  | some r =>
      obtain ⟨hshown, hframe⟩ := foldl_moveCell_shown r (o.pairs (.moveCells p) (s.tables r).cells) h
        fun c hc => mem_alive_of hp ((o.mem_pairs _ _ c).mp hc)
      have hset : (o.pairs (.moveCells p) (s.tables r).cells).toFinset = s.cellsOf p := by
        ext c
        simp [o.mem_pairs, cellsOf, hp]
      rw [hset] at hshown
      exact ⟨hshown, hframe⟩

theorem foldl_moveCells_shown (o : Order) (l : List Nat) (h : s.CellsShown F) :
    (l.foldl (moveCells o) s).CellsShown (l.toFinset.biUnion s.cellsOf ∪ F) ∧
      (l.foldl (moveCells o) s).cellFrame = s.cellFrame := by
  induction l generalizing s F with
  | nil => exact ⟨by simpa using h, rfl⟩
  | cons p l ih =>
      obtain ⟨hfirst, hframe⟩ := moveCells_shown o h p
      obtain ⟨hrest, hframe'⟩ := ih hfirst
      refine ⟨?_, hframe'.trans hframe⟩
      have hcells : (moveCells o s p).cellsOf = s.cellsOf := by
        simp only [cellFrame, Prod.mk.injEq] at hframe
        funext q
        unfold cellsOf
        rw [hframe.1, hframe.2.1]
      rw [hcells] at hrest
      refine hrest.mono fun c hc => ?_
      simp only [Finset.mem_union, Finset.mem_biUnion, List.mem_toFinset, List.mem_cons] at hc ⊢
      rcases hc with ⟨q, rfl | hq, hc⟩ | hc
      · exact .inr (.inl hc)
      · exact .inl ⟨q, hq, hc⟩
      · exact .inr (.inr hc)

/-- After {lit}`cell_move` the grid knows all cells. -/
theorem cellMove_shown (o : Order) (hcells : s.CellsShown ∅) (hspores : s.SporesShown s.spores) :
    (cellMove o s).Shown := by
  obtain ⟨hshown, hframe⟩ := foldl_moveCells_shown o (o.pairs .movePlayers s.players.keys) hcells
  simp only [cellFrame, sporeView, Prod.mk.injEq] at hframe
  obtain ⟨hplayers, htables, hset, hsporeTables, hgrid⟩ := hframe
  have halive : (cellMove o s).alive = s.alive := alive_congr hplayers fun r => congrFun htables r ▸ rfl
  constructor
  · rw [halive]
    refine hshown.mono fun c hc => ?_
    simp only [alive, Finset.mem_biUnion] at hc
    obtain ⟨p, hp, hc⟩ := hc
    refine Finset.mem_union_left _ (Finset.mem_biUnion.mpr ⟨p, ?_, hc⟩)
    rw [List.mem_toFinset, o.mem_pairs]
    exact hp
  · have hview : (cellMove o s).sporeView = s.sporeView := by
      simp only [sporeView, Prod.mk.injEq]
      exact ⟨hset, hsporeTables, hgrid⟩
    have hsame : (cellMove o s).spores = s.spores := hset
    rw [hsame]
    exact hspores.congr hview

omit [IsStrictOrderedRing K] [Sqrt K] in
theorem cleanup_shown (o : Order) (h : s.Shown) : (cleanup o s).Shown := by
  unfold cleanup
  split
  · have hloop : ∀ (l : List Nat) (s₁ : Scene K), (l.foldl insertFood s₁).cellView = s₁.cellView ∧
        (l.foldl insertFood s₁).sporeView = s₁.sporeView := by
      intro l s₁
      induction l generalizing s₁ with
      | nil => exact ⟨rfl, rfl⟩
      | cons f l ih =>
          exact ⟨(ih _).1.trans (insertFood_cellView s₁ f), (ih _).2.trans (insertFood_sporeView s₁ f)⟩
    obtain ⟨hcells, hspores⟩ := hloop (o.pairs .rebuild s.foods)
      { s with foodTree := s.foodTree.clear }
    exact h.congr hcells hspores
  · exact h

/-! ## Eating, merging and pushing keep up -/

section Keep

variable [LawfulSqrt K]

omit [IsStrictOrderedRing K] [Sqrt K] [LawfulSqrt K] in
/-- A cell is resized, and nothing else happens to the grids. -/
theorem Shown.resize (h : s.Shown) {c : Nat} (hc : c ∈ s.alive) (size : K) :
    ((s.setCell c { s.cells c with size := size }).updateCell c).Shown :=
  ⟨h.cells.resize hc size, h.spores.congr rfl⟩

/-- A cell that has eaten a food is put back with its new size. -/
theorem eatFood_shown (o : Order) (hs : s.Sound) (h : s.Shown) : (eatFood o s).Shown := by
  refine (Conserves.foldl_of (Q := fun s₁ => s₁.alive = s.alive ∧ s₁.Shown) _ hs ⟨rfl, h⟩ ?_).2.2
  intro s₁ c hc hs₁ _ h₁
  rw [mem_sortedCells] at hc
  refine Conserves.foldl_of (Q := fun s₂ => s₂.alive = s.alive ∧ s₂.Shown) _ hs₁ h₁ ?_
  intro s₂ f _ hs₂ _ h₂
  have hc₂ : c ∈ s₂.alive := h₂.1 ▸ hc
  refine ⟨eatOneFood_conserves hs₂ hc₂ f, (eatOneFood_alive c s₂ f).trans h₂.1, ?_⟩
  simp only [eatOneFood]
  split
  · exact (h₂.2.resize hc₂ _).congr rfl rfl
  · exact h₂.2

omit [IsStrictOrderedRing K] [LawfulSqrt K] in
/-- The eaten spore leaves its grid, and the cell is put back with its new size. -/
theorem eatOneSpore_shown (h : s.Shown) {c : Nat} (hc : c ∈ s.alive) (i : Nat) :
    (eatOneSpore c s i).Shown := by
  simp only [eatOneSpore]
  split
  · have hresize := h.cells.resize hc (sqrt (calMass (s.cells c).size +
      calMass (s.sporeTables i).size))
    refine ⟨hresize.congr rfl, h.spores.tracks.remove i, fun j hj => ?_, h.spores.sizes⟩
    exact h.spores.inside j (Finset.mem_of_mem_erase hj)
  · exact h

theorem eatSpore_shown (o : Order) (hs : s.Sound) (h : s.Shown) : (eatSpore o s).Shown := by
  refine (Conserves.foldl_of (Q := fun s₁ => s₁.alive = s.alive ∧ s₁.Shown) _ hs ⟨rfl, h⟩ ?_).2.2
  intro s₁ c hc hs₁ _ h₁
  rw [mem_sortedCells] at hc
  refine Conserves.foldl_of (Q := fun s₂ => s₂.alive = s.alive ∧ s₂.Shown) _ hs₁ h₁ ?_
  intro s₂ i _ hs₂ _ h₂
  have hc₂ : c ∈ s₂.alive := h₂.1 ▸ hc
  exact ⟨eatOneSpore_conserves hs₂ hc₂ i, (eatOneSpore_alive c s₂ i).trans h₂.1,
    eatOneSpore_shown h₂.2 hc₂ i⟩

omit [IsStrictOrderedRing K] [Sqrt K] [LawfulSqrt K] in
/-- A cell changes, but neither its place nor its size. -/
theorem Shown.setCell_same (h : s.Shown) (c : Nat) {x : Cell K} (hx : x.x = (s.cells c).x)
    (hy : x.y = (s.cells c).y) (hsize : x.size = (s.cells c).size) : (s.setCell c x).Shown :=
  ⟨h.cells.setCell_same c hx hy hsize, h.spores.congr rfl⟩

omit [IsStrictOrderedRing K] [Sqrt K] [LawfulSqrt K] in
theorem Shown.dropCell (h : s.Shown) (hs : s.Sound) {p r c : Nat}
    (hr : s.players.get p = some r) (hc : c ∈ (s.tables r).cells) :
    ((s.dropCell r c).removeCell c).Shown := by
  refine h.of_cells rfl ?_
  have halive : ((s.dropCell r c).removeCell c).alive = s.alive.erase c := alive_dropCell hs hr hc
  rw [halive]
  exact h.cells.dropCell hs hr hc

omit [IsStrictOrderedRing K] [Sqrt K] [LawfulSqrt K] in
/-- A resized cell still has its owner. -/
theorem Sound.resize (hs : s.Sound) (c : Nat) (size : K) :
    ((s.setCell c { s.cells c with size := size }).updateCell c).Sound := by
  refine hs.of_sub rfl (fun _ => rfl) (fun _ => subset_rfl) (fun d _ => ?_) rfl (fun _ hi => hi) rfl
  by_cases hdc : d = c
  · subst hdc
    simp [Scene.updateCell, Scene.setCell]
  · simp [Scene.updateCell, Scene.setCell, hdc]

omit [IsStrictOrderedRing K] [LawfulSqrt K] in
/-- A candidate is passed over, or the eater is put back and its target leaves the grid. -/
theorem eatCandidate_shown (hs : s.Sound) (h : s.Shown) (e : Candidate) :
    (eatCandidate s e).1.Shown := by
  unfold eatCandidate
  split
  · rename_i r t hr ht
    split
    · rename_i hcan
      obtain ⟨heater, htarget, -⟩ := hcan
      have heater' : e.eaterCid ∈ (s.tables r).cells := by
        simpa only [cellsOf, hr] using heater
      have htarget' : e.targetCid ∈ (s.tables t).cells := by
        simpa only [cellsOf, ht] using htarget
      exact (h.resize (mem_alive_of hr heater') _).dropCell (hs.resize e.eaterCid _) ht htarget'
    · exact h
  · exact h

theorem eatCandidates_shown (es : List Candidate) (hs : s.Sound) (h : s.Shown) :
    (eatCandidates es s).1.Shown := by
  induction es generalizing s with
  | nil => exact h
  | cons e es ih => exact ih (eatCandidate_conserves hs e).sound (eatCandidate_shown hs h e)

omit [IsStrictOrderedRing K] [Sqrt K] [LawfulSqrt K] in
theorem wearOff_shown (h : s.Shown) (c : Nat) : (wearOff s c).Shown := by
  unfold wearOff
  split
  · exact h.setCell_same c rfl rfl rfl
  · exact h

theorem eatCell_shown (o : Order) (hs : s.Sound) (h : s.Shown) : (eatCell o s).Shown := by
  have hwear : ∀ l : List Nat, (l.foldl wearOff s).Sound ∧ (l.foldl wearOff s).Shown := by
    intro l
    obtain ⟨hconserves, hshown⟩ := Conserves.foldl_of (Q := Shown) l hs h
      fun s₁ c _ hs₁ _ h₁ => ⟨wearOff_conserves hs₁ c, wearOff_shown h₁ c⟩
    exact ⟨hconserves.sound, hshown⟩
  have heat : (eatPlayer o s).1.Shown := eatCandidates_shown _ (hwear _).1 (hwear _).2
  refine List.foldlRecOn (motive := Shown) _ reportDeath heat fun s₁ h₁ e _ => ?_
  unfold reportDeath
  split
  · exact h₁
  · split
    · exact h₁.congr rfl rfl
    · exact h₁

omit [IsStrictOrderedRing K] [Sqrt K] [LawfulSqrt K] in
/-- One cell takes up another one of the same player. -/
theorem Shown.absorb (h : s.Shown) (hs : s.Sound) {p r big small : Nat}
    (hr : s.players.get p = some r) (hbig : big ∈ (s.tables r).cells)
    (hsmall : small ∈ (s.tables r).cells) (hne : big ≠ small) (size : K) :
    ((((s.setCell big { s.cells big with size := size }).dropCell r small).removeCell
      small).updateCell big).Shown := by
  have hset := h.cells.setCell big (x := { s.cells big with size := size }) (h.cells.bounded big)
  have hsound : (s.setCell big { s.cells big with size := size }).Sound :=
    ⟨(hs.resize big size).table, (hs.resize big size).owner, (hs.resize big size).cell_le,
      (hs.resize big size).spore_le⟩
  have hdrop := hset.dropCell hsound hr hsmall
  have halive : (((s.setCell big { s.cells big with size := size }).dropCell r small).removeCell
      small).alive = s.alive.erase small := alive_dropCell hsound hr hsmall
  have hin : big ∈ s.alive.erase small := Finset.mem_erase.mpr ⟨hne, mem_alive_of hr hbig⟩
  have hupdate := hdrop.updateCell (c := big) (by rw [halive]; exact hin)
  refine h.of_cells rfl ?_
  refine hupdate.mono fun d hd => ?_
  have hd : d ∈ s.alive.erase small := halive ▸ hd
  simp only [Finset.mem_insert, Finset.mem_erase] at hd ⊢
  tauto

omit [IsStrictOrderedRing K] [LawfulSqrt K] in
/-- Of two cells that merge one leaves the grid and the other is put back. -/
theorem mergePair_shown (hs : s.Sound) (h : s.Shown) {p r : Nat} (hr : s.players.get p = some r)
    {ab : Nat × Nat} (hne : ab.1 ≠ ab.2) : (mergePair r s ab).Shown := by
  simp only [mergePair]
  split
  · rename_i hcan
    obtain ⟨-, -, ha, hb, -⟩ := hcan
    rcases s.biggerOf_cases ab.1 ab.2 with hbig | hbig <;> rw [hbig]
    · exact h.absorb hs hr ha hb hne _
    · exact h.absorb hs hr hb ha hne.symm _
  · exact h

theorem mergeUpdate_shown (o : Order) (hs : s.Sound) (h : s.Shown) : (mergeUpdate o s).Shown := by
  refine (Conserves.foldl_of (Q := Shown) _ hs h ?_).2
  intro s₁ r hr hs₁ hplayers h₁
  obtain ⟨p, hp⟩ := mem_sortedPlayers.mp hr
  have hnodup := sortBy_nodup (o.nodup_pairs (.mergeCells r) (s₁.tables r).cells) id
  obtain ⟨htick, hshown⟩ := Conserves.foldl_of (Q := Shown) (f := tickMerge)
    (sortBy id (o.pairs (.mergeCells r) (s₁.tables r).cells)) hs₁ h₁ fun s₂ c _ hs₂ _ h₂ => by
      refine ⟨tickMerge_conserves hs₂ c, ?_⟩
      unfold tickMerge
      split
      · exact h₂.setCell_same c rfl rfl rfl
      · exact h₂
  obtain ⟨hmerge, hshown'⟩ := Conserves.foldl_of (Q := Shown) (f := mergePair r)
    (pairsOf (sortBy id (o.pairs (.mergeCells r) (s₁.tables r).cells))) htick.sound hshown
    fun s₂ ab hab hs₂ hplayers₂ h₂ => by
      have hp₂ : s₂.players.get p = some r := by rw [hplayers₂, htick.players, hplayers, hp]
      have hne := pairsOf_ne hnodup hab
      exact ⟨mergePair_conserves hs₂ hp₂ hne, mergePair_shown hs₂ h₂ hp₂ hne⟩
  exact ⟨htick.trans hmerge, hshown'⟩

omit [IsStrictOrderedRing K] [FloorRing K] [LawfulSqrt K] in
/-- A pair is left alone, or both cells are put to places in the scene. -/
theorem pushPair_cases (s : Scene K) (ab : Nat × Nat) :
    pushPair s ab = (s, false) ∨ ∃ x y : Cell K,
      pushPair s ab = ((s.setCell ab.1 (clampCell x)).setCell ab.2 (clampCell y), true) := by
  unfold pushPair
  simp only
  generalize (if sqrt (((s.cells ab.1).x - (s.cells ab.2).x) ^ 2 +
      ((s.cells ab.1).y - (s.cells ab.2).y) ^ 2) < 0.001 then _ else _) = n
  split
  · exact .inl rfl
  · exact .inr ⟨_, _, rfl⟩

omit [LawfulSqrt K] in
/-- The two cells of a pair that is pushed are out of date in the grid. -/
theorem pushPair_shown (h : s.CellsShown F) (ab : Nat × Nat) :
    (pushPair s ab).1.CellsShown ((F.erase ab.1).erase ab.2) ∧
      ((pushPair s ab).2 = false → (pushPair s ab).1 = s) ∧
      (pushPair s ab).1.cellFrame = s.cellFrame := by
  rcases pushPair_cases s ab with heq | ⟨x, y, heq⟩ <;> rw [heq]
  · refine ⟨h.mono ?_, fun _ => rfl, rfl⟩
    exact (Finset.erase_subset _ _).trans (Finset.erase_subset _ _)
  · refine ⟨(h.setCell ab.1 (clampCell_inside x)).setCell ab.2 (clampCell_inside y), ?_, rfl⟩
    intro hfalse
    cases hfalse

omit [LawfulSqrt K] in
/-- Pushing leaves the grid behind for the cells it touches. -/
theorem pushPairs_shown (abs : List (Nat × Nat)) (h : s.CellsShown F) :
    (pushPairs abs s).1.CellsShown (F \ (pushPairs abs s).2) ∧
      (∀ c ∈ (pushPairs abs s).2, ∃ ab ∈ abs, c = ab.1 ∨ c = ab.2) ∧
      (pushPairs abs s).1.cellFrame = s.cellFrame := by
  induction abs generalizing s F with
  | nil => exact ⟨by simpa [pushPairs] using h, by simp [pushPairs], rfl⟩
  | cons ab abs ih =>
      obtain ⟨hfirst, hsame, hframe⟩ := pushPair_shown h ab
      simp only [pushPairs]
      cases hpushed : (pushPair s ab).2 with
      | false =>
          obtain ⟨hrest, htouched, hframe'⟩ := ih (s := (pushPair s ab).1) (F := F) (by
            rw [hsame hpushed]
            exact h)
          refine ⟨by simpa using hrest, fun c hc => ?_, hframe'.trans hframe⟩
          obtain ⟨cd, hcd, hc⟩ := htouched c (by simpa using hc)
          exact ⟨cd, List.mem_cons_of_mem ab hcd, hc⟩
      | true =>
          obtain ⟨hrest, htouched, hframe'⟩ := ih hfirst
          refine ⟨hrest.mono fun c hc => ?_, fun c hc => ?_, hframe'.trans hframe⟩
          · simp only [if_true, Finset.mem_sdiff, Finset.mem_insert, not_or] at hc
            simp only [Finset.mem_sdiff, Finset.mem_erase]
            exact ⟨⟨hc.2.2.1, hc.2.1, hc.1⟩, hc.2.2.2⟩
          · simp only [if_true, Finset.mem_insert] at hc
            rcases hc with hc | hc | hc
            · exact ⟨ab, by simp, .inl hc⟩
            · exact ⟨ab, by simp, .inr hc⟩
            · obtain ⟨cd, hcd, hc⟩ := htouched c hc
              exact ⟨cd, List.mem_cons_of_mem ab hcd, hc⟩

omit [IsStrictOrderedRing K] [Sqrt K] [LawfulSqrt K] in
theorem foldl_updateCell_shown (l : List Nat) (h : s.CellsShown F) (hl : ∀ c ∈ l, c ∈ s.alive) :
    (l.foldl updateCell s).CellsShown (l.toFinset ∪ F) ∧
      (l.foldl updateCell s).cellFrame = s.cellFrame := by
  induction l generalizing s F with
  | nil => exact ⟨by simpa using h, rfl⟩
  | cons c l ih =>
      obtain ⟨hshown, hframe⟩ := ih (h.updateCell (hl c (by simp)))
        fun d hd => hl d (List.mem_cons_of_mem c hd)
      refine ⟨hshown.mono fun d hd => ?_, hframe⟩
      simp only [Finset.mem_union, Finset.mem_insert, List.toFinset_cons] at hd ⊢
      tauto

omit [LawfulSqrt K] in
/-- The cells that were pushed are put back after all the passes. -/
theorem selfCollision_shown (o : Order) (h : s.Shown) {p r : Nat} (hr : s.players.get p = some r) :
    (selfCollision o s r).Shown := by
  simp only [selfCollision]
  split
  · exact h
  · set cs := sortBy id (o.pairs (.collideCells r) (s.tables r).cells) with hcs
    obtain ⟨hpush, htouched, hframe⟩ := pushPairs_shown (pairsOf cs ++ pairsOf cs ++ pairsOf cs)
      h.cells
    set s₁ := (pushPairs (pairsOf cs ++ pairsOf cs ++ pairsOf cs) s).1
    set touched := (pushPairs (pairsOf cs ++ pairsOf cs ++ pairsOf cs) s).2
    have hframe₁ := hframe
    simp only [cellFrame, Prod.mk.injEq] at hframe
    have halive : s₁.alive = s.alive := alive_congr hframe.1 fun t => by rw [hframe.2.1]
    have hin : ∀ c ∈ o.pairs (.touched r) touched, c ∈ s₁.alive := by
      intro c hc
      rw [o.mem_pairs] at hc
      obtain ⟨ab, hab, hc⟩ := htouched c hc
      have hab : ab ∈ pairsOf cs := by simpa using hab
      have hmem : ∀ d ∈ cs, d ∈ s.alive := by
        intro d hd
        rw [hcs, mem_sortBy, o.mem_pairs] at hd
        exact mem_alive_of hr hd
      rw [halive]
      rcases hc with rfl | rfl
      · exact hmem _ (mem_pairsOf hab).1
      · exact hmem _ (mem_pairsOf hab).2
    obtain ⟨hupdate, hframe₂⟩ := foldl_updateCell_shown _ hpush hin
    have hframe₃ := hframe₂.trans hframe₁
    simp only [cellFrame, Prod.mk.injEq] at hframe₃
    refine h.of_cells hframe₃.2.2 (hupdate.mono fun c hc => ?_)
    rw [alive_congr hframe₃.1 fun t => by rw [hframe₃.2.1]] at hc
    by_cases htouch : c ∈ touched
    · exact Finset.mem_union_left _ (by rwa [List.mem_toFinset, o.mem_pairs])
    · exact Finset.mem_union_right _ (Finset.mem_sdiff.mpr ⟨hc, htouch⟩)

omit [IsStrictOrderedRing K] [LawfulSqrt K] in
theorem selfCollision_players (o : Order) (s : Scene K) (r : Nat) :
    (selfCollision o s r).players = s.players := by
  have hupdate : ∀ (l : List Nat) (s₁ : Scene K), (l.foldl updateCell s₁).players = s₁.players :=
    fun l s₁ => List.foldlRecOn (motive := fun s₂ : Scene K => s₂.players = s₁.players) l _ rfl
      fun _ h _ _ => h
  have hpush : ∀ (abs : List (Nat × Nat)) (s₁ : Scene K),
      (pushPairs abs s₁).1.players = s₁.players := by
    intro abs
    induction abs with
    | nil => exact fun _ => rfl
    | cons ab abs ih =>
        intro s₁
        have hfirst : (pushPair s₁ ab).1.players = s₁.players := by
          rcases pushPair_cases s₁ ab with heq | ⟨x, y, heq⟩
          · rw [heq]
          · rw [heq]
            rfl
        exact (ih _).trans hfirst
  simp only [selfCollision]
  split
  · rfl
  · exact (hupdate _ _).trans (hpush _ _)

omit [LawfulSqrt K] in
theorem collisionUpdate_shown (o : Order) (h : s.Shown) : (collisionUpdate o s).Shown := by
  refine (List.foldlRecOn (motive := fun s₁ : Scene K => s₁.Shown ∧ s₁.players = s.players) _
    (selfCollision o) ⟨h, rfl⟩ ?_).1
  intro s₁ ⟨h₁, hplayers⟩ r hr
  obtain ⟨p, hp⟩ := mem_sortedPlayers.mp hr
  have hp₁ : s₁.players.get p = some r := hplayers ▸ hp
  exact ⟨selfCollision_shown o h₁ hp₁, (selfCollision_players o s₁ r).trans hplayers⟩

/-! ## Frames and events -/

omit [IsStrictOrderedRing K] [Sqrt K] [LawfulSqrt K] in
theorem rebear_live (at_ : Nat → Fin 1001 × Fin 1001) (hs : s.Live) (hleaves : s.pendingLeaves = ∅)
    (p : Nat) : (rebear at_ s p).Live ∧ (rebear at_ s p).pendingLeaves = ∅ := by
  cases hr : s.pendingRebirth.get p with
  | none =>
      have hsame : rebear at_ s p = s := by simp only [rebear, hr]
      rw [hsame]
      exact ⟨hs, hleaves⟩
  | some r =>
      obtain ⟨hadds, -⟩ := rebear_adds at_ hs hr hleaves
      exact ⟨hadds.live, hadds.leaves.trans hleaves⟩

omit [Sqrt K] [LawfulSqrt K] in
theorem flushPendingRebirth_shown (o : Order) (at_ : Nat → Fin 1001 × Fin 1001) (hs : s.Live)
    (hleaves : s.pendingLeaves = ∅) (h : s.Shown) : (flushPendingRebirth o at_ s).Shown :=
  (List.foldlRecOn (motive := fun s₁ : Scene K => (s₁.Live ∧ s₁.pendingLeaves = ∅) ∧ s₁.Shown) _
    (rebear at_) ⟨⟨hs, hleaves⟩, h⟩ fun _ h₁ p _ =>
      ⟨rebear_live at_ h₁.1.1 h₁.1.2 p, rebear_shown at_ h₁.1.1 h₁.2 p⟩).2

omit [IsStrictOrderedRing K] [Sqrt K] [LawfulSqrt K] in
theorem enter_live (o : Order) (hs : s.Live) (p : Nat) : (enter o s p).Live := by
  cases hr : s.pendingEnters.get p with
  | none =>
      have hsame : enter o s p = s := by simp only [enter, hr]
      rw [hsame]
      exact hs
  | some r => exact (enter_adds o hs hr).1.live

omit [IsStrictOrderedRing K] [Sqrt K] [LawfulSqrt K] in
theorem flushPendingEnters_shown (o : Order) (hs : s.Live) (h : s.Shown) :
    (flushPendingEnters o s).Shown := by
  unfold flushPendingEnters
  split
  · exact (List.foldlRecOn (motive := fun s₁ : Scene K => s₁.Live ∧ s₁.Shown) _ (enter o) ⟨hs, h⟩
      fun _ h₁ p _ => ⟨enter_live o h₁.1 p, enter_shown o h₁.1 h₁.2 p⟩).2
  · exact h

/-- After each frame the grids show all cells and spores: the moves bring in what the commands
left behind, and the later phases keep up. -/
theorem update_shown (o : Order) (d : Draws) (hs : s.Live) (h : s.Shown) :
    (update o d s).Shown := by
  by_cases hstarted : s.gameStarted = false
  · have hsame : update o d s = s := by simp only [update, hstarted, if_true]
    rw [hsame]
    exact h
  · have hsame : Same s { s with event := .empty } :=
      ⟨rfl, rfl, fun _ => ⟨rfl, rfl⟩, fun _ => ⟨rfl, rfl⟩, rfl, rfl, rfl⟩
    have hs₀ := hsame.live hs
    have h₀ : ({ s with event := .empty } : Scene K).Shown := h.congr rfl rfl
    obtain ⟨hl₁, hleaves₁, -⟩ := flushPendingLeaves_mass o hs₀
    have h₁ := flushPendingLeaves_shown o hs₀.sound h₀
    obtain ⟨hadds₂, -⟩ := flushPendingRebirth_adds o d.rebirth hl₁ hleaves₁
    have h₂ := flushPendingRebirth_shown o d.rebirth hl₁ hleaves₁ h₁
    have hcommands := processCommands_conserves o hadds₂.live.sound
    have hl₃ := hcommands.live hadds₂.live (hadds₂.leaves.trans hleaves₁)
    have h₃ := foodUpdate_loose d.food (processCommands_loose o hadds₂.live.sound h₂.loose)
    obtain ⟨hl₄, houter₄, -⟩ := foodUpdate_live d.food hl₃
    simp only [outer, Prod.mk.injEq] at houter₄
    have hleaves₄ := houter₄.2.1.trans (hcommands.keeps.leaves.trans
      (hadds₂.leaves.trans hleaves₁))
    obtain ⟨hspores₅, hcells₅⟩ := sporesMove_shown o h₃
    have hc₅ := sporesMove_conserves o hl₄.sound
    have h₆ := cellMove_shown o hcells₅ hspores₅
    have hc₆ := cellMove_conserves o hc₅.sound
    have h₇ := cleanup_shown o h₆
    have hc₇ := cleanup_conserves o hc₆.sound
    have h₈ := eatFood_shown o hc₇.sound h₇
    have hc₈ := eatFood_conserves o hc₇.sound
    have h₉ := eatSpore_shown o hc₈.sound h₈
    have hc₉ := eatSpore_conserves o hc₈.sound
    have h₁₀ := eatCell_shown o hc₉.sound h₉
    have hc₁₀ := eatCell_conserves o hc₉.sound
    have h₁₁ := collisionUpdate_shown o (mergeUpdate_shown o hc₁₀.sound h₁₀)
    have hl₁₁ := (middle_conserves o hl₄.sound).live hl₄ hleaves₄
    have h₁₂ := flushPendingEnters_shown o hl₁₁ h₁₁
    unfold update
    rw [if_neg hstarted]
    exact h₁₂

omit [IsStrictOrderedRing K] [LawfulSqrt K] in
theorem turnCell_shown (m : Input K) (h : s.Shown) (c : Nat) : (turnCell m s c).Shown := by
  simp only [turnCell]
  split
  · exact h.setCell_same c rfl rfl rfl
  · exact h

omit [IsStrictOrderedRing K] [Sqrt K] [LawfulSqrt K] in
theorem setTable_shown (h : s.Shown) (r : Nat) {x : Player K}
    (hcells : x.cells = (s.tables r).cells) : (s.setTable r x).Shown := by
  refine h.of_cells rfl ⟨h.cells.bounded, ?_⟩
  have halive : (s.setTable r x).alive = s.alive := by
    refine alive_congr rfl fun t => ?_
    by_cases ht : t = r
    · subst ht
      simp [setTable, hcells]
    · simp [setTable, ht]
  rw [halive]
  exact h.cells.tracks.mono subset_rfl subset_rfl fun _ _ => rfl

omit [IsStrictOrderedRing K] [LawfulSqrt K] in
theorem inputFrame_shown (o : Order) (h : s.Shown) (p : Nat) (m : Input K) :
    (inputFrame o s p m).Shown := by
  unfold inputFrame
  split
  · exact h
  · rename_i r _
    split
    · exact h
    · simp only
      split
      · refine setTable_shown ?_ r rfl
        exact List.foldlRecOn (motive := Shown) _ (turnCell m) (setTable_shown h r rfl)
          fun _ h₁ c _ => turnCell_shown m h₁ c
      · exact setTable_shown h r rfl

omit [Sqrt K] [LawfulSqrt K] in
theorem addPlayer_shown (hs : s.Live) (h : s.Shown) (info : Nat × Nat × (Fin 1001 × Fin 1001)) :
    (addPlayer s info).Shown := by
  have halive : (addPlayer s info).alive = s.alive := by
    ext c
    rw [mem_alive, mem_alive]
    refine exists_congr fun p => exists_congr fun r => and_congr_right fun hr => ?_
    have hne : r ≠ s.nextTable := (hs.lt p r hr).ne
    simp [addPlayer, newCell, hne]
  refine h.of_cells rfl ⟨fun c => ?_, ?_⟩
  · by_cases hc : c = s.cellMaxid + 1
    · subst hc
      simpa [addPlayer, newCell] using bornCell_inside info.1 info.2.2
    · simpa [addPlayer, newCell, hc] using h.cells.bounded c
  · rw [halive]
    refine h.cells.tracks.mono subset_rfl subset_rfl fun c hc => ?_
    have hne : c ≠ s.cellMaxid + 1 := fun heq => hs.sound.fresh (heq ▸ hc)
    simp [cellObj, addPlayer, newCell, hne]

omit [Sqrt K] [LawfulSqrt K] in
theorem foldl_addPlayer_shown (l : List (Nat × Nat × (Fin 1001 × Fin 1001))) (hs : s.Live)
    (h : s.Shown) (hnone : ∀ i ∈ l, s.players.get i.1 = none) : (l.foldl addPlayer s).Shown := by
  induction l generalizing s with
  | nil => exact h
  | cons i l ih =>
      exact ih (addPlayer_live hs i (hnone i (by simp))).1 (addPlayer_shown hs h i)
        fun j hj => hnone j (List.mem_cons_of_mem i hj)

/-- Each event keeps the grids up to date. -/
theorem step_shown (hs : s.Live) (h : s.Shown) (e : Event K) : (step s e).Shown := by
  cases e with
  | frame o d => exact update_shown o d hs h
  | input o p m => exact inputFrame_shown o h p m
  | batchAdd infos =>
      show (batchAddPlayer s infos).1.Shown
      unfold batchAddPlayer
      split
      · exact h
      · rename_i hany
        refine foldl_addPlayer_shown infos hs h fun i hi => ?_
        by_contra hsome
        exact hany (List.any_eq_true.mpr ⟨i, hi, by rw [Option.isSome_iff_ne_none.mpr hsome]; rfl⟩)
  | kick p =>
      show (kickPlayer s p).1.Shown
      unfold kickPlayer
      split
      · exact h.congr rfl rfl
      · split
        · exact h.congr rfl rfl
        · split
          · exact h
          · split
            · exact h
            · exact h.congr rfl rfl
  | online p b =>
      show (battleOnline s p b).1.Shown
      unfold battleOnline
      split
      · exact h
      · exact setTable_shown h _ rfl
  | startGame => exact h.congr rfl rfl

omit [Sqrt K] [LawfulSqrt K] in
theorem start_shown : (start : Scene K).Shown := by
  have hwidth : (0 : K) ≤ sceneWidth := by norm_num [sceneWidth]
  have hnone : (start : Scene K).alive = ∅ := by
    ext c
    simp [alive, start]
  refine ⟨⟨fun c => ?_, ⟨rfl, fun _ _ => rfl, ?_⟩⟩, ⟨rfl, fun _ _ => rfl, ?_⟩, ?_, fun _ => rfl⟩
  · exact bornCell_inside 0 (0, 0)
  · rw [hnone]
    simp
  · rintro _ ⟨⟩
  · rintro _ ⟨⟩

/-- In every state of a run the grids show the cells and spores of the scene. -/
theorem run_shown (es : List (Event K)) :
    (run (start : Scene K) es).Live ∧ (run (start : Scene K) es).Shown :=
  List.foldlRecOn (motive := fun s : Scene K => s.Live ∧ s.Shown) es step
    ⟨start_live, start_shown⟩ fun _ h e _ => ⟨(step_live h.1 e).1, step_shown h.1 h.2 e⟩

/-! ## The records of the grids -/

/-- The records of the grid are those of the objects {lit}`A`, each with the range of its
place, and the places are in the scene. -/
def Follows (g : GridIndex Nat K) (heap : Nat → Obj Nat K) (A : Finset Nat) : Prop :=
  (∀ k, (g.records k).isSome ↔ ∃ c ∈ A, k = .id c) ∧
    ∀ c ∈ A, (∃ rec, g.records (.id c) = some rec ∧ rec.obj = c ∧
        g.rangeForObj (heap c).toPlace = some rec.range) ∧
      Inside (heap c).x (heap c).y

omit [Sqrt K] [LawfulSqrt K] in
/-- Each object of a grid that tracks the tables has the record of its place. -/
theorem Tracks.follows {g : GridIndex Nat K} {heap : Nat → Obj Nat K} {A : Finset Nat}
    (h : Tracks g heap A A) (hinside : ∀ c ∈ A, Inside (heap c).x (heap c).y)
    (hsize : ∀ c ∈ A, 0 ≤ (heap c).toPlace.radius) : Follows g heap A := by
  have hrecord : ∀ c ∈ A, ∃ rec, g.records (.id c) = some rec ∧ rec.obj = c ∧
      g.rangeForObj (heap c).toPlace = some rec.range := by
    intro c hc
    obtain ⟨range, hrange⟩ := Option.isSome_iff_exists.mp
      (rangeForObj_isSome h.box (hinside c hc) (hsize c hc))
    refine ⟨⟨c, range⟩, ?_, rfl, hrange⟩
    rw [h.current c hc, recordOf, hrange]
    rfl
  refine ⟨fun k => ⟨fun hk => ?_, ?_⟩, fun c hc => ⟨hrecord c hc, hinside c hc⟩⟩
  · by_contra hno
    have hnone := h.only k fun c hc heq => hno ⟨c, hc, heq⟩
    rw [hnone] at hk
    cases hk
  · rintro ⟨c, hc, rfl⟩
    obtain ⟨rec, hrec, -⟩ := hrecord c hc
    rw [hrec]
    rfl

end Keep

end Scene

/-- After every sequence of events the records of the two grids are those of the cells of
all players and of the spores, each has the range of the present place, and all of them are in
the scene. -/
theorem indexes_follow {K : Type} [Field K] [LinearOrder K] [IsStrictOrderedRing K] [FloorRing K]
    [Sqrt K] [LawfulSqrt K] (es : List (Scene.Event K)) :
    let s := Scene.run Scene.start es
    Scene.Follows s.cellGrid s.cellObj s.alive ∧ Scene.Follows s.sporeGrid s.sporeObj s.spores := by
  intro s
  obtain ⟨hlive, hshown⟩ := Scene.run_shown es
  have hlarge := (Scene.run_live es).2
  constructor
  · refine Scene.Tracks.follows hshown.cells.tracks (fun c _ => hshown.cells.bounded c) fun c hc => ?_
    exact zero_le_one.trans (hlarge c hc)
  · refine Scene.Tracks.follows hshown.spores.tracks hshown.spores.inside fun i _ => ?_
    show 0 ≤ (s.sporeTables i).size
    rw [hshown.spores.sizes i]
    exact zero_le_one

/-- A player enters and is indexed. -/
theorem indexes_follow_real :
    let s := Scene.run (Scene.start : Scene ℝ) [.batchAdd [(7, 1, (3, 4))], .startGame,
      .frame .ascending ⟨fun _ => (0, 0), none⟩]
    Scene.Follows s.cellGrid s.cellObj s.alive ∧ Scene.Follows s.sporeGrid s.sporeObj s.spores :=
  indexes_follow _

end BallServer.Ball
