import BallServer.GridIndex.Query
import BallServer.Scene.Lives

/-!
# The grids follow the scene

The grids of the scene have a record for each cell of a player and for each spore, and
the range of the record is that of the present place.  Commands spoil this: they resize
cells, and new cells and spores are not in the grids.  This module has the notions for
both and the phases in which players come and go.

Main results:

- Structure {lit}`Tracks`: what a grid knows of a set of objects.
- Structure {lit}`Shown`: the grids of a scene know all cells and spores.
- Theorems {lit}`leave_shown`, {lit}`rebear_shown` and {lit}`enter_shown`: players that leave,
  come back or enter.
-/

namespace BallServer.Ball

open BallServer.Grid

section Tracks

variable {K : Type} [Field K] [LinearOrder K] [FloorRing K]

/-- The record of an object at its present place, if it touches the scene. -/
def recordOf (g : GridIndex Nat K) (heap : Nat → Obj Nat K) (c : Nat) : Option Record :=
  (g.rangeForObj (heap c).toPlace).map (Record.mk c)

theorem update_recordOf (g : GridIndex Nat K) (heap : Nat → Obj Nat K) (c : Nat) :
    (g.update heap c).1.records =
      Function.update g.records (objectKey heap c) (recordOf g heap c) := by
  unfold GridIndex.update recordOf
  cases hrange : g.rangeForObj (heap c).toPlace with
  | none =>
      cases hrec : g.records (objectKey heap c) with
      | none =>
          simp only [hrec, Option.map_none]
          rw [← hrec, Function.update_eq_self]
      | some rec =>
          simp only [hrec]
          exact GridIndex.remove_records g _
  | some range =>
      cases hrec : g.records (objectKey heap c) with
      | none =>
          simp only [hrec]
          exact GridIndex.enter_records g _ c range
      | some rec =>
          simp only [hrec]
          exact GridIndex.moveTo_records g _ c rec range

theorem add_recordOf {g : GridIndex Nat K} {heap : Nat → Obj Nat K} {c : Nat}
    (hnone : g.records (objectKey heap c) = none) :
    (g.add heap c).1.records =
      Function.update g.records (objectKey heap c) (recordOf g heap c) := by
  unfold GridIndex.add recordOf
  cases hrange : g.rangeForObj (heap c).toPlace with
  | none =>
      simp only [Option.map_none]
      rw [← hnone, Function.update_eq_self]
  | some range =>
      simp only [hnone]
      exact GridIndex.enter_records g _ c range

theorem upsert_recordOf (g : GridIndex Nat K) (heap : Nat → Obj Nat K) (c : Nat) :
    (g.upsert heap c).1.records =
      Function.update g.records (objectKey heap c) (recordOf g heap c) := by
  unfold GridIndex.upsert
  cases hrec : g.records (objectKey heap c) with
  | none => exact add_recordOf hrec
  | some rec => exact update_recordOf g heap c

theorem upsert_toLayout (g : GridIndex Nat K) (heap : Nat → Obj Nat K) (c : Nat) :
    (g.upsert heap c).1.toLayout = g.toLayout := by
  unfold GridIndex.upsert
  split
  · exact World.update_toLayout g heap c
  · exact World.add_toLayout g heap c

/-- All records of the grid are of objects of the set {lit}`A`, and those of {lit}`F` are up
to date. -/
structure Tracks (g : GridIndex Nat K) (heap : Nat → Obj Nat K) (A F : Finset Nat) : Prop where
  box : g.toLayout.box = sceneBounds.box
  only : ∀ k, (∀ c ∈ A, k ≠ .id c) → g.records k = none
  current : ∀ c ∈ F, g.records (.id c) = recordOf g heap c

variable {g g' : GridIndex Nat K} {heap heap' : Nat → Obj Nat K} {A A' F F' : Finset Nat}

/-- Objects may be forgotten, and those that are not up to date may change. -/
theorem Tracks.mono (h : Tracks g heap A F) (hA : A ⊆ A') (hF : F' ⊆ F)
    (hheap : ∀ c ∈ F', (heap' c).toPlace = (heap c).toPlace) : Tracks g heap' A' F' where
  box := h.box
  only k hk := h.only k fun c hc => hk c (hA hc)
  current c hc := by
    rw [h.current c (hF hc), recordOf, recordOf, hheap c hc]

/-- An object is handed to the grid. -/
theorem Tracks.set (h : Tracks g heap A F) (c : Nat) (hlayout : g'.toLayout = g.toLayout)
    (hrecords : g'.records = Function.update g.records (.id c) (recordOf g heap c)) :
    Tracks g' heap (insert c A) (insert c F) where
  box := hlayout ▸ h.box
  only k hk := by
    rw [hrecords, Function.update_of_ne (hk c (Finset.mem_insert_self c A))]
    exact h.only k fun d hd => hk d (Finset.mem_insert_of_mem hd)
  current d hd := by
    have hrange : recordOf g' heap d = recordOf g heap d := by
      unfold recordOf
      rw [hlayout]
    rw [hrecords, hrange]
    by_cases hdc : d = c
    · subst hdc
      rw [Function.update_self]
    · have hne : Key.id d ≠ .id c := fun heq => hdc (Key.id.inj heq)
      rw [Function.update_of_ne hne]
      exact h.current d ((Finset.mem_insert.mp hd).resolve_left hdc)

/-- An object is taken out of the grid. -/
theorem Tracks.remove (h : Tracks g heap A F) (c : Nat) :
    Tracks (g.remove (.id c)).1 heap (A.erase c) (F.erase c) where
  box := (GridIndex.remove_toLayout g (.id c)).symm ▸ h.box
  only k hk := by
    rw [GridIndex.remove_records]
    by_cases hkc : k = .id c
    · rw [hkc, Function.update_self]
    · rw [Function.update_of_ne hkc]
      refine h.only k fun d hd hkd => ?_
      have hdc : d ≠ c := by
        rintro rfl
        exact hkc hkd
      exact hk d (Finset.mem_erase.mpr ⟨hdc, hd⟩) hkd
  current d hd := by
    obtain ⟨hdc, hd⟩ := Finset.mem_erase.mp hd
    have hne : Key.id d ≠ .id c := fun heq => hdc (Key.id.inj heq)
    have hrange : recordOf (g.remove (.id c)).1 heap d = recordOf g heap d := by
      unfold recordOf
      rw [GridIndex.remove_toLayout]
    rw [GridIndex.remove_records, Function.update_of_ne hne, hrange]
    exact h.current d hd

/-- A place in the scene. -/
def Inside (x y : K) : Prop :=
  (0 ≤ x ∧ x ≤ sceneWidth) ∧ 0 ≤ y ∧ y ≤ sceneWidth

/-- An object in the scene touches it. -/
theorem rangeForObj_isSome [IsStrictOrderedRing K] (hbox : g.toLayout.box = sceneBounds.box)
    {p : Place K} (hp : Inside p.x p.y) (hr : 0 ≤ p.radius) : (g.rangeForObj p).isSome := by
  have h := g.cellRange_isSome (Plane.Box.around p.x p.y p.radius)
  rw [hbox] at h
  apply h.mpr
  obtain ⟨⟨hx, hx'⟩, hy, hy'⟩ := hp
  constructor <;>
    simp only [Plane.Box.around, Bounds.box, sceneBounds, zero_add] <;> linarith

end Tracks

namespace Scene

variable {K : Type} [Field K] [LinearOrder K] [IsStrictOrderedRing K] [FloorRing K]

/-- The cells {lit}`F` are up to date in the grid, and no cell is out of the scene. -/
structure CellsShown (s : Scene K) (F : Finset Nat) : Prop where
  bounded : ∀ c, Inside (s.cells c).x (s.cells c).y
  tracks : Tracks s.cellGrid s.cellObj s.alive F

/-- The spores {lit}`F` are up to date in the grid, and they are in the scene. -/
structure SporesShown (s : Scene K) (F : Finset Nat) : Prop where
  tracks : Tracks s.sporeGrid s.sporeObj s.spores F
  inside : ∀ i ∈ F, Inside (s.sporeTables i).x (s.sporeTables i).y
  sizes : ∀ i, (s.sporeTables i).size = 1

/-- The grids know all cells and spores. -/
structure Shown (s : Scene K) : Prop where
  cells : s.CellsShown s.alive
  spores : s.SporesShown s.spores

variable {s s' : Scene K} {F F' : Finset Nat}

/-- The spores and their grid. -/
def sporeView (s : Scene K) : Finset Nat × (Nat → Spore K) × GridIndex Nat K :=
  (s.spores, s.sporeTables, s.sporeGrid)

/-- What the grid of the cells depends on. -/
def cellView (s : Scene K) : Table Nat × (Nat → Player K) × (Nat → Cell K) × GridIndex Nat K :=
  (s.players, s.tables, s.cells, s.cellGrid)

omit [IsStrictOrderedRing K] in
theorem SporesShown.congr (h : s.SporesShown F) (hview : s'.sporeView = s.sporeView) :
    s'.SporesShown F := by
  simp only [sporeView, Prod.mk.injEq] at hview
  obtain ⟨hspores, htables, hgrid⟩ := hview
  constructor
  · rw [hspores, hgrid]
    exact h.tracks.mono subset_rfl subset_rfl fun i _ => by simp only [sporeObj, htables]
  · rw [htables]
    exact h.inside
  · rw [htables]
    exact h.sizes

omit [IsStrictOrderedRing K] in
theorem CellsShown.congr (h : s.CellsShown F) (hview : s'.cellView = s.cellView) :
    s'.CellsShown F := by
  simp only [cellView, Prod.mk.injEq] at hview
  obtain ⟨hplayers, htables, hcells, hgrid⟩ := hview
  constructor
  · rw [hcells]
    exact h.bounded
  · rw [hgrid, alive_congr hplayers fun r => by rw [htables]]
    exact h.tracks.mono subset_rfl subset_rfl fun c _ => by simp only [cellObj, hcells]

omit [IsStrictOrderedRing K] in
theorem CellsShown.mono (h : s.CellsShown F) (hF : F' ⊆ F) : s.CellsShown F' :=
  ⟨h.bounded, h.tracks.mono subset_rfl hF fun _ _ => rfl⟩

omit [IsStrictOrderedRing K] in
/-- A cell changes; its record is out of date. -/
theorem CellsShown.setCell (h : s.CellsShown F) (c : Nat) {x : Cell K} (hx : Inside x.x x.y) :
    (s.setCell c x).CellsShown (F.erase c) := by
  constructor
  · intro d
    by_cases hdc : d = c
    · subst hdc
      simpa [Scene.setCell] using hx
    · simpa [Scene.setCell, hdc] using h.bounded d
  · refine h.tracks.mono subset_rfl (Finset.erase_subset c F) fun d hd => ?_
    simp [cellObj, Scene.setCell, Finset.ne_of_mem_erase hd]

omit [IsStrictOrderedRing K] in
/-- A cell changes, but neither its place nor its size. -/
theorem CellsShown.setCell_same (h : s.CellsShown F) (c : Nat) {x : Cell K}
    (hx : x.x = (s.cells c).x) (hy : x.y = (s.cells c).y) (hsize : x.size = (s.cells c).size) :
    (s.setCell c x).CellsShown F := by
  constructor
  · intro d
    by_cases hdc : d = c
    · subst hdc
      simpa [Scene.setCell, hx, hy] using h.bounded d
    · simpa [Scene.setCell, hdc] using h.bounded d
  · refine h.tracks.mono subset_rfl subset_rfl fun d _ => ?_
    by_cases hdc : d = c
    · subst hdc
      simp [cellObj, Scene.setCell, hx, hy, hsize]
    · simp [cellObj, Scene.setCell, hdc]

omit [IsStrictOrderedRing K] in
/-- A cell is resized; only cells that are out of date may be. -/
theorem CellsShown.setCell_place (h : s.CellsShown ∅) (c : Nat) {x : Cell K}
    (hx : x.x = (s.cells c).x) (hy : x.y = (s.cells c).y) : (s.setCell c x).CellsShown ∅ := by
  have hinside : Inside x.x x.y := hx ▸ hy ▸ h.bounded c
  exact (h.setCell c hinside).mono (Finset.empty_subset _)

omit [IsStrictOrderedRing K] in
theorem CellsShown.updateCell (h : s.CellsShown F) {c : Nat} (hc : c ∈ s.alive) :
    (s.updateCell c).CellsShown (insert c F) := by
  refine ⟨h.bounded, ?_⟩
  have hset := h.tracks.set c (World.update_toLayout s.cellGrid s.cellObj c)
    (update_recordOf s.cellGrid s.cellObj c)
  rwa [Finset.insert_eq_of_mem hc] at hset

omit [IsStrictOrderedRing K] in
theorem CellsShown.upsertCell (h : s.CellsShown F) {c : Nat} (hc : c ∈ s.alive) :
    (s.upsertCell c).CellsShown (insert c F) := by
  refine ⟨h.bounded, ?_⟩
  have hset := h.tracks.set c (upsert_toLayout s.cellGrid s.cellObj c)
    (upsert_recordOf s.cellGrid s.cellObj c)
  rwa [Finset.insert_eq_of_mem hc] at hset

omit [IsStrictOrderedRing K] in
/-- A player loses a cell, and so does the grid. -/
theorem CellsShown.dropCell (h : s.CellsShown F) (hs : s.Sound) {p r c : Nat}
    (hr : s.players.get p = some r) (hc : c ∈ (s.tables r).cells) :
    ((s.dropCell r c).removeCell c).CellsShown (F.erase c) := by
  refine ⟨h.bounded, ?_⟩
  have halive : ((s.dropCell r c).removeCell c).alive = s.alive.erase c := alive_dropCell hs hr hc
  rw [halive]
  exact h.tracks.remove c

omit [IsStrictOrderedRing K] in
/-- A cell grows or shrinks, and the grid is told. -/
theorem CellsShown.resize (h : s.CellsShown F) {c : Nat} (hc : c ∈ s.alive) (size : K) :
    ((s.setCell c { s.cells c with size := size }).updateCell c).CellsShown F := by
  have hset := h.setCell c (x := { s.cells c with size := size }) (h.bounded c)
  have hupdate := hset.updateCell (c := c) hc
  refine hupdate.mono fun d hd => ?_
  by_cases hdc : d = c
  · simp [hdc]
  · simp [hdc, hd]

omit [IsStrictOrderedRing K] in
/-- A phase that leaves cells, spores and grids alone. -/
theorem Shown.congr (h : s.Shown) (hcells : s'.cellView = s.cellView)
    (hspores : s'.sporeView = s.sporeView) : s'.Shown := by
  have halive : s'.alive = s.alive := by
    simp only [cellView, Prod.mk.injEq] at hcells
    exact alive_congr hcells.1 fun r => by rw [hcells.2.1]
  have hset : s'.spores = s.spores := congrArg Prod.fst hspores
  constructor
  · rw [halive]
    exact h.cells.congr hcells
  · rw [hset]
    exact h.spores.congr hspores

omit [IsStrictOrderedRing K] in
/-- A phase that leaves the spores and their grid alone. -/
theorem Shown.of_cells (h : s.Shown) (hspores : s'.sporeView = s.sporeView)
    (hcells : s'.CellsShown s'.alive) : s'.Shown := by
  have hset : s'.spores = s.spores := congrArg Prod.fst hspores
  refine ⟨hcells, ?_⟩
  rw [hset]
  exact h.spores.congr hspores

/-! ## Leaving -/

omit [IsStrictOrderedRing K] in
theorem foldl_removeCell_tracks (l : List Nat) {A F : Finset Nat}
    (h : Tracks s.cellGrid s.cellObj A F) :
    Tracks (l.foldl removeCell s).cellGrid s.cellObj (A.filter (· ∉ l)) (F.filter (· ∉ l)) := by
  induction l generalizing s A F with
  | nil => exact h.mono (by simp) (by simp) fun _ _ => rfl
  | cons c l ih =>
      refine (ih (s := s.removeCell c) (h.remove c)).mono ?_ ?_ fun _ _ => rfl
      · intro d hd
        simp only [Finset.mem_filter, Finset.mem_erase, List.mem_cons, not_or] at hd ⊢
        exact ⟨hd.1.2, hd.1.1, hd.2⟩
      · intro d hd
        simp only [Finset.mem_filter, Finset.mem_erase, List.mem_cons, not_or] at hd ⊢
        exact ⟨⟨hd.2.1, hd.1⟩, hd.2.2⟩

omit [IsStrictOrderedRing K] in
theorem leave_shown (o : Order) (hs : s.Sound) (h : s.Shown) (p : Nat) :
    (leave o s p).Sound ∧ (leave o s p).Shown := by
  unfold leave
  cases hp : s.players.get p with
  | none => exact ⟨⟨hs.table, hs.owner, hs.cell_le, hs.spore_le⟩, h.congr rfl rfl⟩
  | some r =>
      obtain ⟨g, hg⟩ := foldl_removeCell (o.pairs (.leaveCells p) (s.tables r).cells) s
      have htracks := foldl_removeCell_tracks (o.pairs (.leaveCells p) (s.tables r).cells)
        h.cells.tracks
      simp only [hg] at htracks ⊢
      have hsub : ∀ q t, (s.players.erase p).get q = some t → q ≠ p ∧ s.players.get q = some t := by
        intro q t hq
        rw [Table.get_erase] at hq
        split at hq
        · cases hq
        · rename_i hne
          exact ⟨hne, hq⟩
      refine ⟨⟨fun q t hq => hs.table q t (hsub q t hq).2, fun q t c hq =>
        hs.owner q t c (hsub q t hq).2, fun q t c hq => hs.cell_le q t c (hsub q t hq).2,
        hs.spore_le⟩, h.of_cells rfl ⟨h.cells.bounded, htracks.mono ?_ ?_ fun _ _ => rfl⟩⟩
      · intro c hc
        obtain ⟨hc, hnot⟩ := Finset.mem_filter.mp hc
        obtain ⟨q, t, hq, hct⟩ := mem_alive.mp hc
        rw [o.mem_pairs] at hnot
        have hne : q ≠ p := by
          rintro rfl
          rw [hp] at hq
          cases hq
          exact hnot hct
        exact mem_alive.mpr ⟨q, t, by simp [hne, hq], hct⟩
      · intro c hc
        obtain ⟨q, t, hq, hct⟩ := mem_alive.mp hc
        obtain ⟨hne, hq⟩ := hsub q t hq
        refine Finset.mem_filter.mpr ⟨mem_alive_of hq hct, ?_⟩
        rw [o.mem_pairs]
        -- a cell has one owner
        intro hcr
        exact hne ((hs.owner q t c hq hct).symm.trans (hs.owner p r c hp hcr))

omit [IsStrictOrderedRing K] in
theorem flushPendingLeaves_shown (o : Order) (hs : s.Sound) (h : s.Shown) :
    (flushPendingLeaves o s).Shown :=
  (List.foldlRecOn (motive := fun s₁ : Scene K => s₁.Sound ∧ s₁.Shown) _ (leave o) ⟨hs, h⟩
    fun _ h₁ p _ => leave_shown o h₁.1 h₁.2 p).2

/-! ## Coming back and entering -/

theorem bornCell_inside (p : Nat) (at_ : Fin 1001 × Fin 1001) :
    Inside (bornCell p at_ : Cell K).x (bornCell p at_ : Cell K).y := by
  have hle : ∀ i : Fin 1001, (0 : K) ≤ ((i : Nat) : K) ∧ ((i : Nat) : K) ≤ sceneWidth := by
    intro i
    refine ⟨Nat.cast_nonneg _, ?_⟩
    have hi : (i : Nat) ≤ 1000 := by omega
    have hcast : ((i : Nat) : K) ≤ ((1000 : Nat) : K) := Nat.cast_le.mpr hi
    simpa [sceneWidth] using hcast
  exact ⟨hle at_.1, hle at_.2⟩

omit [IsStrictOrderedRing K] in
/-- A cell that no record names comes into the game. -/
theorem CellsShown.indexCell (h : s.CellsShown F) {c : Nat}
    (hnone : s.cellGrid.records (.id c) = none) (hc : c ∈ s.alive) :
    (s.indexCell c).CellsShown (insert c F) := by
  refine ⟨h.bounded, ?_⟩
  have hrecords : (s.cellGrid.add s.cellObj c).1.records =
      Function.update s.cellGrid.records (.id c) (recordOf s.cellGrid s.cellObj c) :=
    add_recordOf hnone
  have hset := h.tracks.set c (World.add_toLayout s.cellGrid s.cellObj c) hrecords
  rwa [Finset.insert_eq_of_mem hc] at hset

theorem rebear_shown (at_ : Nat → Fin 1001 × Fin 1001) (hs : s.Live) (h : s.Shown) (p : Nat) :
    (rebear at_ s p).Shown := by
  unfold rebear
  split
  · exact h
  · rename_i r hr
    have hp := hs.rebirth p r hr
    have hfresh := hs.sound.fresh
    simp only
    set s₁ := ((s.newCell (bornCell p (at_ p))).addCell r (s.cellMaxid + 1)) with hs₁
    have halive : s₁.alive = insert (s.cellMaxid + 1) s.alive :=
      alive_addCell (s := s.newCell (bornCell p (at_ p))) hp (s.cellMaxid + 1)
    have hcells₁ : s₁.CellsShown s.alive := by
      constructor
      · intro d
        by_cases hd : d = s.cellMaxid + 1
        · subst hd
          simpa [hs₁, addCell, setTable, newCell] using bornCell_inside p (at_ p)
        · simpa [hs₁, addCell, setTable, newCell, hd] using h.cells.bounded d
      · rw [halive]
        refine h.cells.tracks.mono (Finset.subset_insert _ _) subset_rfl fun d hd => ?_
        have hne : d ≠ s.cellMaxid + 1 := fun heq => hfresh (heq ▸ hd)
        simp [cellObj, hs₁, addCell, setTable, newCell, hne]
    set s₂ := s₁.setTable r { s₁.tables r with
      targetX := ((at_ p).1 : Nat)
      targetY := ((at_ p).2 : Nat)
      moving := false } with hs₂
    have halive₂ : s₂.alive = s₁.alive := by
      refine alive_congr rfl fun t => ?_
      by_cases ht : t = r
      · subst ht
        simp [hs₂, setTable]
      · simp [hs₂, setTable, ht]
    have hcells₂ : s₂.CellsShown s.alive := by
      refine ⟨hcells₁.bounded, ?_⟩
      rw [halive₂]
      exact hcells₁.tracks.mono subset_rfl subset_rfl fun _ _ => rfl
    have hnone : s₂.cellGrid.records (.id (s.cellMaxid + 1)) = none := by
      refine h.cells.tracks.only _ fun c hc heq => ?_
      exact hfresh (Key.id.inj heq ▸ hc)
    have hin : s.cellMaxid + 1 ∈ s₂.alive := by
      rw [halive₂, halive]
      exact Finset.mem_insert_self _ _
    have hindex := hcells₂.indexCell hnone hin
    refine h.of_cells rfl ?_
    have hset : insert (s.cellMaxid + 1) s.alive = s₂.alive := by rw [halive₂, halive]
    rw [hset] at hindex
    exact hindex.congr rfl

omit [IsStrictOrderedRing K] in
theorem enter_shown (o : Order) (hs : s.Live) (h : s.Shown) (p : Nat) : (enter o s p).Shown := by
  unfold enter
  split
  · exact h
  · rename_i r hr
    obtain ⟨hnone, hnew⟩ := hs.enters p r hr
    obtain ⟨c, hc, hle, hown, hsize⟩ := hnew.cell
    have hnotalive := hs.not_alive hnone hown
    have hlist : o.pairs (.enterCells p) (s.tables r).cells = [c] := by
      rw [hc]
      refine List.perm_singleton.mp ?_
      rw [List.perm_ext_iff_of_nodup (o.nodup_pairs _ _) (List.nodup_singleton c)]
      simp [o.mem_pairs]
    simp only [hlist, List.foldl_cons, List.foldl_nil]
    set s₁ : Scene K := { s with players := s.players.set p r } with hs₁
    have halive : s₁.alive = insert c s.alive := alive_enter hnone hc
    have hcells₁ : s₁.CellsShown s.alive := by
      refine ⟨h.cells.bounded, ?_⟩
      rw [halive]
      exact h.cells.tracks.mono (Finset.subset_insert _ _) subset_rfl fun _ _ => rfl
    have hrecord : s₁.cellGrid.records (.id c) = none :=
      h.cells.tracks.only _ fun d hd heq => hnotalive (Key.id.inj heq ▸ hd)
    have hindex := hcells₁.indexCell hrecord (by rw [halive]; exact Finset.mem_insert_self _ _)
    rw [← halive] at hindex
    exact h.of_cells rfl (hindex.congr rfl)

end Scene

end BallServer.Ball
