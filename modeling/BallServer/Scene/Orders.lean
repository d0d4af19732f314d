import BallServer.GridIndex.Columns
import BallServer.Scene.Lives

/-!
# The order of visits does not matter

Two runs of a phase in which tables, buckets and tree nodes are visited in different orders
end in the same scene, up to the order of the entries in the buckets of the grids.  Where
the turns of a loop cannot be swapped, the program sorts first.

Main results:

- Definition {lit}`Alike`: scenes that differ in the order of the entries of buckets at most.
- Theorem {lit}`orders_agree`: phases that run in different orders on scenes that are alike.
-/

namespace BallServer.Ball

open BallServer.Grid (GridIndex)

namespace Scene

variable {K : Type} [Field K] [LinearOrder K]

/-- The scene with other grids. -/
def withGrids (s : Scene K) (g k : GridIndex Nat K) : Scene K :=
  { s with
    cellGrid := g
    sporeGrid := k }

/-- Scenes that differ in the order of the entries of buckets at most. -/
def Alike (s s' : Scene K) : Prop :=
  ∃ g k, s' = s.withGrids g k ∧ Grid.Alike s.cellGrid g ∧ Grid.Alike s.sporeGrid k

variable {s s' s'' : Scene K}

theorem Alike.refl (s : Scene K) : Alike s s :=
  ⟨s.cellGrid, s.sporeGrid, rfl, .refl _, .refl _⟩

theorem Alike.trans (h : Alike s s') (h' : Alike s' s'') : Alike s s'' := by
  obtain ⟨g, k, rfl, hg, hk⟩ := h
  obtain ⟨g', k', rfl, hg', hk'⟩ := h'
  exact ⟨g', k', rfl, hg.trans hg', hk.trans hk'⟩

/-- A step that does not look at the grids and leaves them alone. -/
theorem Alike.map {f : Scene K → Scene K}
    (hf : ∀ (s : Scene K) g k, f (s.withGrids g k) = (f s).withGrids g k)
    (hcells : ∀ s : Scene K, (f s).cellGrid = s.cellGrid)
    (hspores : ∀ s : Scene K, (f s).sporeGrid = s.sporeGrid) (h : Alike s s') :
    Alike (f s) (f s') := by
  obtain ⟨g, k, rfl, hg, hk⟩ := h
  exact ⟨g, k, hf s g k, (hcells s).symm ▸ hg, (hspores s).symm ▸ hk⟩

theorem Alike.setCell (h : Alike s s') (c : Nat) (x : Cell K) :
    Alike (s.setCell c x) (s'.setCell c x) :=
  h.map (f := fun s => s.setCell c x) (fun _ _ _ => rfl) (fun _ => rfl) fun _ => rfl

theorem Alike.dropCell (h : Alike s s') (r c : Nat) : Alike (s.dropCell r c) (s'.dropCell r c) :=
  h.map (f := fun s => s.dropCell r c) (fun _ _ _ => rfl) (fun _ => rfl) fun _ => rfl

theorem Alike.removeCell (h : Alike s s') (c : Nat) : Alike (s.removeCell c) (s'.removeCell c) := by
  obtain ⟨g, k, rfl, hg, hk⟩ := h
  exact ⟨(g.remove (.id c)).1, k, rfl, hg.remove (.id c), hk⟩

/-! ## Lists that are sorted -/

/-- Players know their numbers. -/
def Named (s : Scene K) : Prop :=
  ∀ p r, s.players.get p = some r → (s.tables r).playerid = p

/-- The numbers of a table are visited once each in any order. -/
theorem pairs_perm (o o' : Order) (site site' : Site) (t : Finset Nat) :
    (o.pairs site t).Perm (o'.pairs site' t) := by
  rw [List.perm_ext_iff_of_nodup (o.nodup_pairs site t) (o'.nodup_pairs site' t)]
  intro i
  rw [o.mem_pairs, o'.mem_pairs]

/-- Players are told apart by their numbers. -/
theorem sortedPlayers_eq (o o' : Order) (hs : s.Named) (site : Site) :
    s.sortedPlayers o site = s.sortedPlayers o' site := by
  refine sortBy_eq_of_perm _ ((pairs_perm o o' site site _).filterMap _) ?_
  intro a ha b hb heq
  obtain ⟨p, -, hp⟩ := List.mem_filterMap.mp ha
  obtain ⟨q, -, hq⟩ := List.mem_filterMap.mp hb
  rw [hs p a hp, hs q b hq] at heq
  subst heq
  exact Option.some.inj (hp.symm.trans hq)

/-- Cells are told apart by their numbers. -/
theorem sortedCells_eq (o o' : Order) (s : Scene K) (site : Site) (sites : Nat → Site) :
    s.sortedCells o site sites = s.sortedCells o' site sites :=
  sortBy_id_eq (List.Perm.flatMap (pairs_perm o o' site site _) fun p _ =>
    pairs_perm o o' (sites p) (sites p) _)

/-! ## Commands -/

section Commands

variable [Sqrt K]

theorem splitCells_withGrids (a : Action K) (r : Nat) (l : List Nat) (s : Scene K)
    (g k : GridIndex Nat K) :
    splitCells a r l (s.withGrids g k) =
        ((splitCells a r l s).1.withGrids g k, (splitCells a r l s).2) ∧
      (splitCells a r l s).1.cellGrid = s.cellGrid ∧
      (splitCells a r l s).1.sporeGrid = s.sporeGrid := by
  induction l generalizing s with
  | nil => exact ⟨rfl, rfl, rfl⟩
  | cons c l ih =>
      obtain ⟨heq, hcells, hspores⟩ := ih (splitCell a r s c)
      have hstep : splitCell a r (s.withGrids g k) c = (splitCell a r s c).withGrids g k := rfl
      have htables : (s.withGrids g k).tables = s.tables := rfl
      have hmax : (s.withGrids g k).cellMaxid = s.cellMaxid := rfl
      simp only [splitCells, hstep, htables, hmax, heq]
      split
      · exact ⟨rfl, rfl, rfl⟩
      · exact ⟨rfl, hcells, hspores⟩

theorem spitCells_withGrids (a : Action K) (r : Nat) (l : List Nat) (s : Scene K)
    (g k : GridIndex Nat K) :
    spitCells a r l (s.withGrids g k) =
        ((spitCells a r l s).1.withGrids g k, (spitCells a r l s).2) ∧
      (spitCells a r l s).1.cellGrid = s.cellGrid ∧
      (spitCells a r l s).1.sporeGrid = s.sporeGrid := by
  induction l generalizing s with
  | nil => exact ⟨rfl, rfl, rfl⟩
  | cons c l ih =>
      obtain ⟨heq, hcells, hspores⟩ := ih (spitCell a r s c)
      obtain ⟨heq', hcells', hspores'⟩ := ih s
      have hstep : spitCell a r (s.withGrids g k) c = (spitCell a r s c).withGrids g k := rfl
      have hold : (s.withGrids g k).cells = s.cells := rfl
      have hmax : (s.withGrids g k).sporeMaxid = s.sporeMaxid := rfl
      simp only [spitCells, hstep, hold, hmax, heq, heq']
      split
      · exact ⟨rfl, hcells, hspores⟩
      · exact ⟨rfl, hcells', hspores'⟩

/-- The cells that split are sorted by number, so the order they are found in does not matter. -/
theorem doSplit_alike (o o' : Order) (site : Site) (r : Nat) (a : Action K) (h : Alike s s') :
    Alike (doSplit o site s r a).1 (doSplit o' site s' r a).1 ∧
      (doSplit o site s r a).2 = (doSplit o' site s' r a).2 := by
  obtain ⟨g, k, rfl, hg, hk⟩ := h
  have hlist : sortBy id ((o.pairs site (s.tables r).cells).filter fun c => 4 ≤ (s.cells c).size) =
      sortBy id ((o'.pairs site (s.tables r).cells).filter fun c => 4 ≤ (s.cells c).size) :=
    sortBy_id_eq ((pairs_perm o o' site site _).filter _)
  have htables : (s.withGrids g k).tables = s.tables := rfl
  have hold : (s.withGrids g k).cells = s.cells := rfl
  unfold doSplit
  rw [htables, hold, ← hlist]
  split
  · exact ⟨⟨g, k, rfl, hg, hk⟩, rfl⟩
  · obtain ⟨heq, hcells, hspores⟩ := splitCells_withGrids a r
      (sortBy id ((o.pairs site (s.tables r).cells).filter fun c => 4 ≤ (s.cells c).size)) s g k
    rw [heq]
    exact ⟨⟨g, k, rfl, hcells.symm ▸ hg, hspores.symm ▸ hk⟩, rfl⟩

/-- The cells that spit a spore are sorted by number. -/
theorem spitSpore_alike (o o' : Order) (site : Site) (r : Nat) (a : Action K) (h : Alike s s') :
    Alike (spitSpore o site s r a).1 (spitSpore o' site s' r a).1 ∧
      (spitSpore o site s r a).2 = (spitSpore o' site s' r a).2 := by
  obtain ⟨g, k, rfl, hg, hk⟩ := h
  have hlist : sortBy id (o.pairs site (s.tables r).cells) =
      sortBy id (o'.pairs site (s.tables r).cells) :=
    sortBy_id_eq (pairs_perm o o' site site _)
  have htables : (s.withGrids g k).tables = s.tables := rfl
  unfold spitSpore
  rw [htables, ← hlist]
  obtain ⟨heq, hcells, hspores⟩ := spitCells_withGrids a r
    (sortBy id (o.pairs site (s.tables r).cells)) s g k
  rw [heq]
  exact ⟨⟨g, k, rfl, hcells.symm ▸ hg, hspores.symm ▸ hk⟩, rfl⟩

theorem runAction_alike (o o' : Order) (r : Nat) (a : Action K × Nat) (h : Alike s s') :
    Alike (runAction o r s a) (runAction o' r s' a) := by
  have htables : s'.tables = s.tables := by
    obtain ⟨g, k, rfl, -, -⟩ := h
    rfl
  unfold runAction
  cases a.1.kind with
  | split =>
      obtain ⟨⟨g, k, heq, hg, hk⟩, hnew⟩ := doSplit_alike o o' (.action r a.2) r a.1 h
      simp only [heq, ← hnew, htables]
      exact ⟨g, k, rfl, hg, hk⟩
  | spit =>
      obtain ⟨⟨g, k, heq, hg, hk⟩, hnew⟩ := spitSpore_alike o o' (.action r a.2) r a.1 h
      simp only [heq, ← hnew, htables]
      exact ⟨g, k, rfl, hg, hk⟩

/-- The players act in the order of their numbers. -/
theorem processCommands_alike (o o' : Order) (hs : s.Named) (h : Alike s s') :
    Alike (processCommands o s) (processCommands o' s') := by
  have hlist : s'.sortedPlayers o' .commands = s.sortedPlayers o .commands := by
    obtain ⟨g, k, rfl, -, -⟩ := h
    exact sortedPlayers_eq o' o hs .commands
  unfold processCommands
  rw [hlist]
  refine foldl_rel (fun r _ s₁ s₁' h₁ => ?_) h
  have hactions : (s₁'.tables r).pendingActions = (s₁.tables r).pendingActions := by
    obtain ⟨g, k, rfl, -, -⟩ := h₁
    rfl
  have hloop : Alike ((s₁.tables r).pendingActions.zipIdx.foldl (runAction o r) s₁)
      ((s₁'.tables r).pendingActions.zipIdx.foldl (runAction o' r) s₁') := by
    rw [hactions]
    exact foldl_rel (fun a _ _ _ h₂ => runAction_alike o o' r a h₂) h₁
  exact hloop.map (f := fun s => s.setTable r { s.tables r with pendingActions := [] })
    (fun _ _ _ => rfl) (fun _ => rfl) fun _ => rfl

end Commands

section Grids

variable [FloorRing K]

theorem Alike.updateCell (h : Alike s s') (c : Nat) : Alike (s.updateCell c) (s'.updateCell c) := by
  obtain ⟨g, k, rfl, hg, hk⟩ := h
  exact ⟨(g.update s.cellObj c).1, k, rfl, hg.update rfl, hk⟩

theorem Alike.upsertCell (h : Alike s s') (c : Nat) : Alike (s.upsertCell c) (s'.upsertCell c) := by
  obtain ⟨g, k, rfl, hg, hk⟩ := h
  exact ⟨(g.upsert s.cellObj c).1, k, rfl, hg.upsert rfl, hk⟩

/-! ## Movement -/

theorem sporeMove_alike (i : Nat) (h : Alike s s') : Alike (sporeMove s i) (sporeMove s' i) := by
  obtain ⟨g, k, rfl, hg, hk⟩ := h
  exact ⟨g, _, rfl, hg, hk.upsert rfl⟩

/-- Two spores that move change the grid at different keys. -/
theorem sporeMove_swap (i j : Nat) (s : Scene K) :
    Alike (sporeMove (sporeMove s i) j) (sporeMove (sporeMove s j) i) := by
  by_cases hij : i = j
  · subst hij
    exact .refl _
  · have htables : Function.update (Function.update s.sporeTables i (moveSpore (s.sporeTables i))) j
        (moveSpore (s.sporeTables j)) =
        Function.update (Function.update s.sporeTables j (moveSpore (s.sporeTables j))) i
          (moveSpore (s.sporeTables i)) := Function.update_comm hij _ _ _
    have hi : (sporeMove s i).sporeTables j = s.sporeTables j := by
      simp [sporeMove, Ne.symm hij]
    have hj : (sporeMove s j).sporeTables i = s.sporeTables i := by
      simp [sporeMove, hij]
    refine ⟨(sporeMove (sporeMove s j) i).cellGrid, (sporeMove (sporeMove s j) i).sporeGrid, ?_,
      .refl _, ?_⟩
    · unfold sporeMove at hi hj ⊢
      simp only [withGrids] at hi hj ⊢
      rw [hi, hj, htables]
    · refine Grid.upsert_comm ?_ ?_ ?_ s.sporeGrid
      · simp only [sporeObj, sporeMove, Function.update_self, Function.update_of_ne hij]
      · simp only [sporeObj, sporeMove, Function.update_self, Function.update_of_ne (Ne.symm hij)]
      · intro heq
        exact hij (Grid.Key.id.inj heq)

/-- The spores move in any order, since two neighbouring turns can be swapped. -/
theorem sporesMove_alike (o o' : Order) (h : Alike s s') :
    Alike (sporesMove o s) (sporesMove o' s') := by
  have hspores : s'.spores = s.spores := by
    obtain ⟨g, k, rfl, -, -⟩ := h
    rfl
  unfold sporesMove
  rw [hspores]
  refine foldl_rel_of_perm (pairs_perm o o' _ _ _) .refl (fun _ _ _ => .trans)
    (fun i _ _ _ => sporeMove_alike i) (fun i _ j _ s₁ s₁' h₁ => ?_) h
  exact (sporeMove_alike j (sporeMove_alike i h₁)).trans (sporeMove_swap i j s₁')

section Move

variable [Sqrt K]

theorem moveCell_alike (r c : Nat) (h : Alike s s') : Alike (moveCell r s c) (moveCell r s' c) := by
  have hset : Alike (s.setCell c (clampCell (applyBoost (followTarget (s.tables r) (s.cells c)))))
      (s'.setCell c (clampCell (applyBoost (followTarget (s'.tables r) (s'.cells c))))) :=
    h.map (f := fun s => s.setCell c (clampCell (applyBoost (followTarget (s.tables r)
      (s.cells c))))) (fun _ _ _ => rfl) (fun _ => rfl) fun _ => rfl
  exact hset.upsertCell c

/-- Two cells that move change the grid at different keys. -/
theorem moveCell_swap {r r' c d : Nat} (hcd : c = d → r = r') (s : Scene K) :
    Alike (moveCell r' (moveCell r s c) d) (moveCell r (moveCell r' s d) c) := by
  by_cases heq : c = d
  · subst heq
    rw [hcd rfl]
    exact .refl _
  · set x := clampCell (applyBoost (followTarget (s.tables r) (s.cells c))) with hx
    set y := clampCell (applyBoost (followTarget (s.tables r') (s.cells d))) with hy
    have hc : moveCell r s c = (s.setCell c x).upsertCell c := rfl
    have hd : moveCell r' s d = (s.setCell d y).upsertCell d := rfl
    have hcells : Function.update (Function.update s.cells c x) d y =
        Function.update (Function.update s.cells d y) c x := Function.update_comm heq _ _ _
    have hcd' : moveCell r' (moveCell r s c) d =
        (((s.setCell c x).upsertCell c).setCell d y).upsertCell d := by
      have hsame : (moveCell r s c).cells d = s.cells d := by
        simp [hc, Scene.upsertCell, Scene.setCell, Ne.symm heq]
      unfold moveCell at hsame ⊢
      rw [hsame]
      rfl
    have hdc' : moveCell r (moveCell r' s d) c =
        (((s.setCell d y).upsertCell d).setCell c x).upsertCell c := by
      have hsame : (moveCell r' s d).cells c = s.cells c := by
        simp [hd, Scene.upsertCell, Scene.setCell, heq]
      unfold moveCell at hsame ⊢
      rw [hsame]
      rfl
    rw [hcd', hdc']
    refine ⟨((((s.setCell d y).upsertCell d).setCell c x).upsertCell c).cellGrid, s.sporeGrid, ?_, ?_,
      .refl _⟩
    · simp only [withGrids, Scene.upsertCell, Scene.setCell, hcells]
    · refine Grid.upsert_comm ?_ ?_ ?_ s.cellGrid
      · simp only [cellObj, Scene.setCell, Scene.upsertCell, Function.update_self]
      · simp only [cellObj, Scene.setCell, Scene.upsertCell, Function.update_self]
      · intro hkey
        exact heq (Grid.Key.id.inj hkey)

/-- The turns of the loops of {lit}`cell_move`. -/
def moves (o : Order) (s : Scene K) (p : Nat) : List (Nat × Nat) :=
  match s.players.get p with
  | none => []
  | some r => (o.pairs (.moveCells p) (s.tables r).cells).map fun c => (r, c)

theorem foldl_moveCell_tables (r : Nat) (l : List Nat) (s : Scene K) :
    (l.foldl (moveCell r) s).players = s.players ∧ (l.foldl (moveCell r) s).tables = s.tables :=
  List.foldlRecOn (motive := fun s₁ : Scene K => s₁.players = s.players ∧ s₁.tables = s.tables) l _
    ⟨rfl, rfl⟩ fun _ h _ _ => h

theorem moveCells_eq (o : Order) (s : Scene K) (p : Nat) :
    moveCells o s p = (moves o s p).foldl (fun s rc => moveCell rc.1 s rc.2) s := by
  unfold moveCells moves
  cases s.players.get p with
  | none => rfl
  | some r => simp only [List.foldl_map]

/-- {lit}`cell_move` is one loop over all cells of all players. -/
theorem cellMove_eq (o : Order) (s : Scene K) :
    cellMove o s = ((o.pairs .movePlayers s.players.keys).flatMap (moves o s)).foldl
      (fun s rc => moveCell rc.1 s rc.2) s := by
  have hloop : ∀ (l : List Nat) (s₁ : Scene K), s₁.players = s.players → s₁.tables = s.tables →
      l.foldl (moveCells o) s₁ = (l.flatMap (moves o s)).foldl
        (fun s rc => moveCell rc.1 s rc.2) s₁ := by
    intro l
    induction l with
    | nil => exact fun _ _ _ => rfl
    | cons p l ih =>
        intro s₁ hplayers htables
        have hmoves : moves o s₁ p = moves o s p := by
          unfold moves
          rw [hplayers, htables]
        have hkeep : (moveCells o s₁ p).players = s₁.players ∧
            (moveCells o s₁ p).tables = s₁.tables := by
          unfold moveCells
          split
          · exact ⟨rfl, rfl⟩
          · exact foldl_moveCell_tables _ _ s₁
        rw [List.foldl_cons, List.flatMap_cons, List.foldl_append, ← hmoves, ← moveCells_eq]
        exact ih _ (hkeep.1.trans hplayers) (hkeep.2.trans htables)
  exact hloop _ s rfl rfl

/-- The cells move in any order, since two neighbouring turns can be swapped. -/
theorem cellMove_alike (o o' : Order) (hs : s.Sound) (h : Alike s s') :
    Alike (cellMove o s) (cellMove o' s') := by
  have hperm : ((o.pairs .movePlayers s.players.keys).flatMap (moves o s)).Perm
      ((o'.pairs .movePlayers s.players.keys).flatMap (moves o' s)) := by
    refine List.Perm.flatMap (pairs_perm o o' _ _ _) fun p _ => ?_
    unfold moves
    split
    · exact .rfl
    · exact (pairs_perm o o' _ _ _).map _
  have hmoves : cellMove o' s' = ((o'.pairs .movePlayers s.players.keys).flatMap (moves o' s)).foldl
      (fun s rc => moveCell rc.1 s rc.2) s' := by
    obtain ⟨g, k, rfl, -, -⟩ := h
    exact cellMove_eq o' _
  -- a cell has one owner
  have howner : ∀ rc ∈ (o.pairs .movePlayers s.players.keys).flatMap (moves o s),
      ∃ p, s.players.get p = some rc.1 ∧ rc.2 ∈ (s.tables rc.1).cells := by
    intro rc hrc
    obtain ⟨p, -, hrc⟩ := List.mem_flatMap.mp hrc
    unfold moves at hrc
    split at hrc
    · cases hrc
    · rename_i r hr
      obtain ⟨c, hc, rfl⟩ := List.mem_map.mp hrc
      exact ⟨p, hr, (o.mem_pairs _ _ c).mp hc⟩
  rw [cellMove_eq, hmoves]
  refine foldl_rel_of_perm hperm .refl (fun _ _ _ => .trans)
    (fun rc _ _ _ => moveCell_alike rc.1 rc.2) (fun a ha b hb s₁ s₁' h₁ => ?_) h
  refine (moveCell_alike b.1 b.2 (moveCell_alike a.1 a.2 h₁)).trans (moveCell_swap ?_ s₁')
  intro hab
  obtain ⟨p, hp, hpa⟩ := howner a ha
  obtain ⟨q, hq, hqb⟩ := howner b hb
  rw [hab] at hpa
  have hpq := (hs.owner p a.1 b.2 hp hpa).symm.trans (hs.owner q b.1 b.2 hq hqb)
  subst hpq
  exact Option.some.inj (hp.symm.trans hq)

end Move

/-! ## Queries -/

omit [FloorRing K] in
/-- The entries of a bucket are found in any order. -/
theorem reorder_entriesOf (o : Order) (site : Site) (g : GridIndex Nat K) (c : Int × Int) :
    ((reorder o site g).entriesOf c).Perm (g.entriesOf c) := by
  have hbucket : (reorder o site g).getBucket c = (g.getBucket c).map (o.bucket site) := rfl
  unfold GridIndex.entriesOf
  rw [hbucket]
  cases g.getBucket c with
  | none => exact .rfl
  | some b => exact o.bucket_perm site b

/-- A query finds the same objects, in an order of its own. -/
theorem query_perm (o o' : Order) (site : Site) {g g' : GridIndex Nat K} (h : Grid.Alike g g')
    (heap : Nat → Grid.Obj Nat K) (cx cy radius : K) :
    ((reorder o site g).queryCircle heap cx cy radius).Perm
      ((reorder o' site g').queryCircle heap cx cy radius) := by
  have hlayout : (reorder o site g).toLayout = (reorder o' site g').toLayout := h.toLayout
  unfold GridIndex.queryCircle
  rw [hlayout]
  split
  · exact .rfl
  · exact Grid.scan_perm (fun c => (reorder_entriesOf o site g c).trans
      ((h.entriesOf c).trans (reorder_entriesOf o' site g' c).symm)) _ _

/-! ## Eating -/

section Eat

variable [Sqrt K]

theorem eatOneFood_alike (c f : Nat) (h : Alike s s') :
    Alike (eatOneFood c s f) (eatOneFood c s' f) := by
  obtain ⟨g, k, rfl, hg, hk⟩ := h
  have hfoods : (s.withGrids g k).foods = s.foods := rfl
  have hcells : (s.withGrids g k).cells = s.cells := rfl
  have htables : (s.withGrids g k).foodTables = s.foodTables := rfl
  simp only [eatOneFood]
  rw [hfoods, hcells, htables]
  split
  · exact ⟨_, k, rfl, hg.update rfl, hk⟩
  · exact ⟨g, k, rfl, hg, hk⟩

/-- Cells and the foods near them are sorted before they are visited. -/
theorem eatFood_alike (o o' : Order) (h : Alike s s') : Alike (eatFood o s) (eatFood o' s') := by
  have hlist : s'.sortedCells o' .foodPlayers .foodCells =
      s.sortedCells o .foodPlayers .foodCells := by
    obtain ⟨g, k, rfl, -, -⟩ := h
    exact sortedCells_eq o' o s _ _
  unfold eatFood
  rw [hlist]
  refine foldl_rel (fun c _ s₁ s₁' h₁ => ?_) h
  have hnear : sortBy id (o'.tree (.nearFood c) (Quadtree.retrieveInRadius s₁'.foodPlace
        (s₁'.cells c).x (s₁'.cells c).y ((s₁'.cells c).size + 1) s₁'.foodTree)) =
      sortBy id (o.tree (.nearFood c) (Quadtree.retrieveInRadius s₁.foodPlace
        (s₁.cells c).x (s₁.cells c).y ((s₁.cells c).size + 1) s₁.foodTree)) := by
    obtain ⟨g, k, rfl, -, -⟩ := h₁
    exact sortBy_id_eq ((o'.tree_perm _ _).trans (o.tree_perm _ _).symm)
  unfold eatFoods
  simp only [hnear]
  exact foldl_rel (fun f _ _ _ => eatOneFood_alike c f) h₁

theorem eatOneSpore_alike (c i : Nat) (h : Alike s s') :
    Alike (eatOneSpore c s i) (eatOneSpore c s' i) := by
  have hset := h.setCell c { s.cells c with
    size := sqrt (calMass (s.cells c).size + calMass (s.sporeTables i).size) }
  obtain ⟨g, k, rfl, hg, hk⟩ := h
  simp only [eatOneSpore]
  have hspores : (s.withGrids g k).spores = s.spores := rfl
  have hcells : (s.withGrids g k).cells = s.cells := rfl
  have htables : (s.withGrids g k).sporeTables = s.sporeTables := rfl
  rw [hspores, hcells, htables]
  split
  · refine Alike.updateCell ?_ c
    exact ⟨g, (k.remove (.id i)).1, rfl, hg, hk.remove (.id i)⟩
  · exact ⟨g, k, rfl, hg, hk⟩

/-- Cells and the spores near them are sorted before they are visited. -/
theorem eatSpore_alike (o o' : Order) (h : Alike s s') : Alike (eatSpore o s) (eatSpore o' s') := by
  have hlist : s'.sortedCells o' .sporePlayers .sporeCells =
      s.sortedCells o .sporePlayers .sporeCells := by
    obtain ⟨g, k, rfl, -, -⟩ := h
    exact sortedCells_eq o' o s _ _
  unfold eatSpore
  rw [hlist]
  refine foldl_rel (fun c _ s₁ s₁' h₁ => ?_) h
  have hnear : sortBy id ((reorder o' (.nearSpores c) s₁'.sporeGrid).queryCircle s₁'.sporeObj
        (s₁'.cells c).x (s₁'.cells c).y (s₁'.cells c).size) =
      sortBy id ((reorder o (.nearSpores c) s₁.sporeGrid).queryCircle s₁.sporeObj
        (s₁.cells c).x (s₁.cells c).y (s₁.cells c).size) := by
    obtain ⟨g, k, rfl, -, hk⟩ := h₁
    exact sortBy_id_eq (query_perm o' o _ hk.symm _ _ _ _)
  unfold eatSpores
  simp only [hnear]
  exact foldl_rel (fun i _ _ _ => eatOneSpore_alike c i) h₁

omit [FloorRing K] [Sqrt K] in
theorem wearOff_alike (c : Nat) (h : Alike s s') : Alike (wearOff s c) (wearOff s' c) := by
  obtain ⟨g, k, rfl, hg, hk⟩ := h
  unfold wearOff
  have hcells : (s.withGrids g k).cells = s.cells := rfl
  rw [hcells]
  split
  · exact ⟨g, k, rfl, hg, hk⟩
  · exact ⟨g, k, rfl, hg, hk⟩

/-- A cell whose protection has worn off a little. -/
def worn (x : Cell K) : Cell K :=
  if x.protectedTimer > 0 then { x with protectedTimer := x.protectedTimer - 1 } else x

omit [FloorRing K] [Sqrt K] in
theorem wearOff_eq (s : Scene K) (c : Nat) : wearOff s c = s.setCell c (worn (s.cells c)) := by
  unfold wearOff worn
  split
  · rfl
  · simp only [Scene.setCell, Function.update_eq_self]

omit [FloorRing K] [Sqrt K] in
/-- The protection of two cells wears off independently. -/
theorem wearOff_swap (c d : Nat) (s : Scene K) :
    wearOff (wearOff s c) d = wearOff (wearOff s d) c := by
  by_cases hcd : c = d
  · rw [hcd]
  · simp only [wearOff_eq, Scene.setCell, Function.update_of_ne hcd,
      Function.update_of_ne (Ne.symm hcd), Function.update_comm hcd]

theorem eatCandidate_alike (e : Candidate) (h : Alike s s') :
    Alike (eatCandidate s e).1 (eatCandidate s' e).1 ∧
      (eatCandidate s e).2 = (eatCandidate s' e).2 := by
  have hresize := (h.setCell e.eaterCid { s.cells e.eaterCid with
    size := sqrt (calMass (s.cells e.eaterCid).size +
      calMass (s.cells e.targetCid).size) }).updateCell e.eaterCid
  obtain ⟨g, k, rfl, hg, hk⟩ := h
  unfold eatCandidate
  have hplayers : (s.withGrids g k).players = s.players := rfl
  have hcells : (s.withGrids g k).cells = s.cells := rfl
  have hcellsOf : (s.withGrids g k).cellsOf = s.cellsOf := rfl
  rw [hplayers, hcells, hcellsOf]
  split
  · split
    · rename_i t _ _ _
      exact ⟨(hresize.dropCell t e.targetCid).removeCell e.targetCid, rfl⟩
    · exact ⟨⟨g, k, rfl, hg, hk⟩, rfl⟩
  · exact ⟨⟨g, k, rfl, hg, hk⟩, rfl⟩

theorem eatCandidates_alike (es : List Candidate) (h : Alike s s') :
    Alike (eatCandidates es s).1 (eatCandidates es s').1 ∧
      (eatCandidates es s).2 = (eatCandidates es s').2 := by
  induction es generalizing s s' with
  | nil => exact ⟨h, rfl⟩
  | cons e es ih =>
      obtain ⟨hstep, hdied⟩ := eatCandidate_alike e h
      obtain ⟨hrest, hevents⟩ := ih hstep
      exact ⟨hrest, congrArg₂ (fun (d : Option (Nat × Nat)) l => d.toList ++ l) hdied hevents⟩

omit [Sqrt K] in
/-- The cells near an eater are sorted before they become candidates. -/
theorem candidatesOf_eq (o o' : Order) (c : Nat) (h : Alike s s') :
    candidatesOf o' s' c = candidatesOf o s c := by
  obtain ⟨g, k, rfl, hg, -⟩ := h
  have hnear : sortBy id ((reorder o' (.nearCells c) g).queryCircle s.cellObj (s.cells c).x
        (s.cells c).y ((s.cells c).size + (s.cells c).size)) =
      sortBy id ((reorder o (.nearCells c) s.cellGrid).queryCircle s.cellObj (s.cells c).x
        (s.cells c).y ((s.cells c).size + (s.cells c).size)) :=
    sortBy_id_eq (query_perm o' o _ hg.symm _ _ _ _)
  unfold candidatesOf
  simp only [← hnear]
  rfl

/-- The candidates of all eaters are sorted before the first one is eaten. -/
theorem eatPlayer_alike (o o' : Order) (h : Alike s s') :
    Alike (eatPlayer o s).1 (eatPlayer o' s').1 ∧ (eatPlayer o s).2 = (eatPlayer o' s').2 := by
  have hplayers : s'.players = s.players := by
    obtain ⟨g, k, rfl, -, -⟩ := h
    rfl
  have hcellsOf : s'.cellsOf = s.cellsOf := by
    obtain ⟨g, k, rfl, -, -⟩ := h
    rfl
  have hvisited : ((o.pairs .eatPlayers s.players.keys).flatMap fun p =>
        o.pairs (.eatCells p) (s.cellsOf p)).Perm
      ((o'.pairs .eatPlayers s'.players.keys).flatMap fun p =>
        o'.pairs (.eatCells p) (s'.cellsOf p)) := by
    rw [hplayers, hcellsOf]
    exact List.Perm.flatMap (pairs_perm o o' _ _ _) fun p _ => pairs_perm o o' _ _ _
  unfold eatPlayer
  simp only
  rw [sortBy_id_eq hvisited.symm]
  generalize hl : ((o.pairs .eatPlayers s.players.keys).flatMap fun p =>
    o.pairs (.eatCells p) (s.cellsOf p)) = l at hvisited ⊢
  generalize hl' : ((o'.pairs .eatPlayers s'.players.keys).flatMap fun p =>
    o'.pairs (.eatCells p) (s'.cellsOf p)) = l' at hvisited ⊢
  have hwear : Alike (l.foldl wearOff s) (l'.foldl wearOff s') := by
    refine foldl_rel_of_perm hvisited .refl (fun _ _ _ => .trans)
      (fun c _ _ _ => wearOff_alike c) (fun c _ d _ s₁ s₁' h₁ => ?_) h
    rw [wearOff_swap c d s₁]
    exact wearOff_alike c (wearOff_alike d h₁)
  have hcandidates : (sortBy id l).flatMap (candidatesOf o' (l'.foldl wearOff s')) =
      (sortBy id l).flatMap (candidatesOf o (l.foldl wearOff s)) := by
    congr 1
    funext c
    exact candidatesOf_eq o o' c hwear
  rw [hcandidates]
  exact eatCandidates_alike _ hwear

/-! ## Merging and pushing -/

omit [FloorRing K] [Sqrt K] in
theorem tickMerge_alike (c : Nat) (h : Alike s s') : Alike (tickMerge s c) (tickMerge s' c) := by
  obtain ⟨g, k, rfl, hg, hk⟩ := h
  unfold tickMerge
  have hcells : (s.withGrids g k).cells = s.cells := rfl
  rw [hcells]
  split
  · exact ⟨g, k, rfl, hg, hk⟩
  · exact ⟨g, k, rfl, hg, hk⟩

theorem mergePair_alike (r : Nat) (ab : Nat × Nat) (h : Alike s s') :
    Alike (mergePair r s ab) (mergePair r s' ab) := by
  have hsame := h
  obtain ⟨g, k, rfl, hg, hk⟩ := h
  have hcells : (s.withGrids g k).cells = s.cells := rfl
  have htables : (s.withGrids g k).tables = s.tables := rfl
  have hbigger : (s.withGrids g k).biggerOf ab.1 ab.2 = s.biggerOf ab.1 ab.2 := rfl
  unfold mergePair
  simp only [hcells, htables, hbigger]
  split
  · exact (((hsame.setCell _ _).dropCell r _).removeCell _).updateCell _
  · exact hsame

/-- Players, and the cells of a player, are sorted before any two cells merge. -/
theorem mergeUpdate_alike (o o' : Order) (hs : s.Named) (h : Alike s s') :
    Alike (mergeUpdate o s) (mergeUpdate o' s') := by
  have hlist : s'.sortedPlayers o' .mergePlayers = s.sortedPlayers o .mergePlayers := by
    obtain ⟨g, k, rfl, -, -⟩ := h
    exact sortedPlayers_eq o' o hs .mergePlayers
  unfold mergeUpdate
  rw [hlist]
  refine foldl_rel (fun r _ s₁ s₁' h₁ => ?_) h
  have hcells : sortBy id (o'.pairs (.mergeCells r) (s₁'.tables r).cells) =
      sortBy id (o.pairs (.mergeCells r) (s₁.tables r).cells) := by
    obtain ⟨g, k, rfl, -, -⟩ := h₁
    exact sortBy_id_eq (pairs_perm o' o _ _ _)
  unfold mergePlayer
  simp only [hcells]
  exact foldl_rel (fun ab _ _ _ => mergePair_alike r ab)
    (foldl_rel (fun c _ _ _ => tickMerge_alike c) h₁)

omit [FloorRing K] in
theorem pushPair_withGrids (s : Scene K) (ab : Nat × Nat) (g k : GridIndex Nat K) :
    pushPair (s.withGrids g k) ab = ((pushPair s ab).1.withGrids g k, (pushPair s ab).2) ∧
      (pushPair s ab).1.cellGrid = s.cellGrid ∧ (pushPair s ab).1.sporeGrid = s.sporeGrid := by
  have hcells : (s.withGrids g k).cells = s.cells := rfl
  unfold pushPair
  simp only [hcells]
  generalize (if sqrt (((s.cells ab.1).x - (s.cells ab.2).x) ^ 2 +
      ((s.cells ab.1).y - (s.cells ab.2).y) ^ 2) < 0.001 then _ else _) = n
  split
  · exact ⟨rfl, rfl, rfl⟩
  · exact ⟨rfl, rfl, rfl⟩

omit [FloorRing K] in
/-- Cells are pushed without a look at the grids. -/
theorem pushPairs_alike (abs : List (Nat × Nat)) (h : Alike s s') :
    Alike (pushPairs abs s).1 (pushPairs abs s').1 ∧ (pushPairs abs s).2 = (pushPairs abs s').2 := by
  induction abs generalizing s s' with
  | nil => exact ⟨h, rfl⟩
  | cons ab abs ih =>
      obtain ⟨g, k, rfl, hg, hk⟩ := h
      obtain ⟨heq, hcells, hspores⟩ := pushPair_withGrids s ab g k
      have hstep : Alike (pushPair s ab).1 ((pushPair s ab).1.withGrids g k) :=
        ⟨g, k, rfl, hcells.symm ▸ hg, hspores.symm ▸ hk⟩
      obtain ⟨hrest, htouched⟩ := ih hstep
      simp only [pushPairs, heq]
      exact ⟨hrest, by rw [htouched]⟩

omit [Sqrt K] in
/-- Two cells that are put back change the grid at different keys. -/
theorem updateCell_swap (c d : Nat) (s : Scene K) :
    Alike ((s.updateCell c).updateCell d) ((s.updateCell d).updateCell c) := by
  by_cases hcd : c = d
  · rw [hcd]
    exact .refl _
  · refine ⟨((s.updateCell d).updateCell c).cellGrid, s.sporeGrid, rfl, ?_, .refl _⟩
    refine Grid.update_comm rfl rfl ?_ s.cellGrid
    intro hkey
    exact hcd (Grid.Key.id.inj hkey)

/-- The pushed cells are put back in any order. -/
theorem selfCollision_alike (o o' : Order) (r : Nat) (h : Alike s s') :
    Alike (selfCollision o s r) (selfCollision o' s' r) := by
  have hcells : sortBy id (o'.pairs (.collideCells r) (s'.tables r).cells) =
      sortBy id (o.pairs (.collideCells r) (s.tables r).cells) := by
    obtain ⟨g, k, rfl, -, -⟩ := h
    exact sortBy_id_eq (pairs_perm o' o _ _ _)
  unfold selfCollision
  simp only [hcells]
  split
  · exact h
  · obtain ⟨hpush, htouched⟩ := pushPairs_alike
      (pairsOf (sortBy id (o.pairs (.collideCells r) (s.tables r).cells)) ++
        pairsOf (sortBy id (o.pairs (.collideCells r) (s.tables r).cells)) ++
        pairsOf (sortBy id (o.pairs (.collideCells r) (s.tables r).cells))) h
    rw [← htouched]
    refine foldl_rel_of_perm (pairs_perm o o' _ _ _) .refl (fun _ _ _ => .trans)
      (fun c _ _ _ h₁ => h₁.updateCell c) (fun c _ d _ s₁ s₁' h₁ => ?_) hpush
    exact ((h₁.updateCell c).updateCell d).trans (updateCell_swap c d s₁')

theorem collisionUpdate_alike (o o' : Order) (hs : s.Named) (h : Alike s s') :
    Alike (collisionUpdate o s) (collisionUpdate o' s') := by
  have hlist : s'.sortedPlayers o' .collidePlayers = s.sortedPlayers o .collidePlayers := by
    obtain ⟨g, k, rfl, -, -⟩ := h
    exact sortedPlayers_eq o' o hs .collidePlayers
  unfold collisionUpdate
  rw [hlist]
  exact foldl_rel (fun r _ _ _ => selfCollision_alike o o' r) h

/-! ## What the phases keep -/

omit [FloorRing K] in
theorem runAction_sound (o : Order) {p r : Nat} (a : Action K × Nat) (hs : s.Sound)
    (hr : s.players.get p = some r) :
    (runAction o r s a).Sound ∧ (runAction o r s a).players = s.players := by
  unfold runAction
  split
  · obtain ⟨hsound, hplayers⟩ := doSplit_sound o (.action r a.2) a.1 hs hr
    exact ⟨⟨hsound.table, hsound.owner, hsound.cell_le, hsound.spore_le⟩, hplayers⟩
  · obtain ⟨hsound, hplayers⟩ := spitCells_sound a.1 r
      (sortBy id (o.pairs (.action r a.2) (s.tables r).cells)) hs
    exact ⟨⟨hsound.table, hsound.owner, hsound.cell_le, hsound.spore_le⟩, hplayers⟩

omit [FloorRing K] in
/-- The commands of a frame keep the scene sound, so the next phases may rely on it. -/
theorem processCommands_sound (o : Order) (hs : s.Sound) : (processCommands o s).Sound := by
  refine (List.foldlRecOn (motive := fun s₁ : Scene K => s₁.Sound ∧ s₁.players = s.players) _
    (runActions o) ⟨hs, rfl⟩ fun s₁ h₁ r hr => ?_).1
  obtain ⟨p, hp⟩ := mem_sortedPlayers.mp hr
  have hactions : ∀ l : List (Action K × Nat), (l.foldl (runAction o r) s₁).Sound ∧
      (l.foldl (runAction o r) s₁).players = s.players := by
    intro l
    refine List.foldlRecOn (motive := fun s₂ : Scene K => s₂.Sound ∧ s₂.players = s.players) l _ h₁
      fun s₂ h₂ a _ => ?_
    obtain ⟨hsound, hplayers⟩ := runAction_sound o a h₂.1 (h₂.2 ▸ hp)
    exact ⟨hsound, hplayers.trans h₂.2⟩
  obtain ⟨hsound, hplayers⟩ := hactions (s₁.tables r).pendingActions.zipIdx
  have hsame : Same ((s₁.tables r).pendingActions.zipIdx.foldl (runAction o r) s₁)
      (runActions o s₁ r) := setTable_same r rfl rfl
  refine ⟨?_, hplayers⟩
  exact hsound.of_sub rfl (fun t => (hsame.tables t).1) (fun t => (hsame.tables t).2.subset)
    (fun _ _ => rfl) rfl (fun _ hi => hi) rfl

omit [Sqrt K] in
theorem sporesMove_sound (o : Order) (hs : s.Sound) : (sporesMove o s).Sound :=
  List.foldlRecOn (motive := Sound) _ sporeMove hs fun _ h _ _ =>
    ⟨h.table, h.owner, h.cell_le, h.spore_le⟩

/-- The players and the numbers of their tables. -/
def names (s : Scene K) : Table Nat × (Nat → Nat) :=
  (s.players, fun r => (s.tables r).playerid)

omit [FloorRing K] [Sqrt K] in
/-- The phases do not touch the numbers of the players. -/
theorem Named.congr (h : s.Named) (hnames : s'.names = s.names) : s'.Named := by
  simp only [names, Prod.mk.injEq] at hnames
  intro p r hr
  rw [hnames.1] at hr
  exact (congrFun hnames.2 r).trans (h p r hr)

omit [FloorRing K] [Sqrt K] in
@[simp] theorem setCell_names (s : Scene K) (c : Nat) (x : Cell K) :
    (s.setCell c x).names = s.names := rfl

omit [FloorRing K] [Sqrt K] in
@[simp] theorem removeCell_names (s : Scene K) (c : Nat) : (s.removeCell c).names = s.names := rfl

omit [Sqrt K] in
@[simp] theorem updateCell_names (s : Scene K) (c : Nat) : (s.updateCell c).names = s.names := rfl

omit [FloorRing K] [Sqrt K] in
@[simp] theorem dropCell_names (s : Scene K) (r c : Nat) : (s.dropCell r c).names = s.names := by
  have hid : (fun t => ((s.dropCell r c).tables t).playerid) = fun t => (s.tables t).playerid := by
    funext t
    by_cases h : t = r
    · subst h
      simp [Scene.dropCell, setTable]
    · simp [Scene.dropCell, setTable, h]
  exact congrArg (Prod.mk s.players) hid

omit [FloorRing K] [Sqrt K] in
theorem foldl_names {α : Type} {f : Scene K → α → Scene K} (hf : ∀ s a, (f s a).names = s.names)
    (l : List α) (s : Scene K) : (l.foldl f s).names = s.names :=
  List.foldlRecOn (motive := fun s₁ : Scene K => s₁.names = s.names) l f rfl
    fun s₁ h₁ a _ => (hf s₁ a).trans h₁

theorem cellMove_names (o : Order) (s : Scene K) : (cellMove o s).names = s.names := by
  rw [cellMove_eq]
  exact foldl_names (f := fun (s : Scene K) (rc : Nat × Nat) => moveCell rc.1 s rc.2)
    (fun _ _ => rfl) _ s

theorem eatFood_names (o : Order) (s : Scene K) : (eatFood o s).names = s.names := by
  refine foldl_names (fun s₁ c => foldl_names (fun s₂ f => ?_) _ s₁) _ s
  simp only [eatOneFood]
  split <;> rfl

theorem eatSpore_names (o : Order) (s : Scene K) : (eatSpore o s).names = s.names := by
  refine foldl_names (fun s₁ c => foldl_names (fun s₂ i => ?_) _ s₁) _ s
  simp only [eatOneSpore]
  split <;> rfl

theorem eatPlayer_names (o : Order) (s : Scene K) : (eatPlayer o s).1.names = s.names := by
  have hcandidates : ∀ (es : List Candidate) (s₁ : Scene K),
      (eatCandidates es s₁).1.names = s₁.names := by
    intro es
    induction es with
    | nil => exact fun _ => rfl
    | cons e es ih =>
        intro s₁
        have hstep : (eatCandidate s₁ e).1.names = s₁.names := by
          unfold eatCandidate
          split
          · split
            · simp
            · rfl
          · rfl
        exact (ih _).trans hstep
  have hwear : ∀ (s₁ : Scene K) c, (wearOff s₁ c).names = s₁.names := by
    intro s₁ c
    rw [wearOff_eq]
    rfl
  exact (hcandidates _ _).trans (foldl_names hwear _ s)

theorem mergeUpdate_names (o : Order) (s : Scene K) : (mergeUpdate o s).names = s.names := by
  have hmerge : ∀ r (s₁ : Scene K) ab, (mergePair r s₁ ab).names = s₁.names := by
    intro r s₁ ab
    simp only [mergePair]
    split
    · simp
    · rfl
  have htick : ∀ (s₁ : Scene K) c, (tickMerge s₁ c).names = s₁.names := by
    intro s₁ c
    unfold tickMerge
    split <;> rfl
  exact foldl_names (fun s₁ r => (foldl_names (hmerge r) _ _).trans (foldl_names htick _ s₁)) _ s

end Eat

end Grids

end Scene

/-- The phases of a frame that visit tables, buckets or the tree, one after another. -/
def Scene.phases {K : Type} [Field K] [LinearOrder K] [FloorRing K] [Sqrt K] (o : Order)
    (s : Scene K) : Scene K :=
  let s := Scene.cellMove o (Scene.sporesMove o (Scene.processCommands o s))
  let s := (Scene.eatPlayer o (Scene.eatSpore o (Scene.eatFood o s))).1
  Scene.collisionUpdate o (Scene.mergeUpdate o s)

open Scene in
/-- In a sound scene each phase, and all of them one after another, ends in the same scene
in whatever orders tables, buckets and tree nodes are visited. -/
theorem orders_agree {K : Type} [Field K] [LinearOrder K] [FloorRing K] [Sqrt K]
    (s s' : Scene K) (hs : s.Sound) (h : s.Alike s') (o o' : Order) :
    (processCommands o s).Alike (processCommands o' s') ∧
      (sporesMove o s).Alike (sporesMove o' s') ∧
      (cellMove o s).Alike (cellMove o' s') ∧
      (eatFood o s).Alike (eatFood o' s') ∧
      (eatSpore o s).Alike (eatSpore o' s') ∧
      ((eatPlayer o s).1.Alike (eatPlayer o' s').1 ∧ (eatPlayer o s).2 = (eatPlayer o' s').2) ∧
      (mergeUpdate o s).Alike (mergeUpdate o' s') ∧
      (collisionUpdate o s).Alike (collisionUpdate o' s') ∧
      (phases o s).Alike (phases o' s') := by
  have hnamed : s.Named := hs.table
  refine ⟨processCommands_alike o o' hnamed h, sporesMove_alike o o' h, cellMove_alike o o' hs h,
    eatFood_alike o o' h, eatSpore_alike o o' h, eatPlayer_alike o o' h,
    mergeUpdate_alike o o' hnamed h, collisionUpdate_alike o o' hnamed h, ?_⟩
  have h₁ := processCommands_alike o o' hnamed h
  have hs₁ := processCommands_sound o hs
  have h₂ := sporesMove_alike o o' h₁
  have hs₂ := sporesMove_sound o hs₁
  have h₃ := cellMove_alike o o' hs₂ h₂
  have hn₃ : (cellMove o (sporesMove o (processCommands o s))).Named :=
    Named.congr hs₂.table (cellMove_names o _)
  have h₄ := eatSpore_alike o o' (eatFood_alike o o' h₃)
  have hn₄ := (hn₃.congr (eatFood_names o _)).congr (eatSpore_names o _)
  have h₅ := (eatPlayer_alike o o' h₄).1
  have hn₅ := hn₄.congr (eatPlayer_names o _)
  have h₆ := mergeUpdate_alike o o' hn₅ h₅
  exact collisionUpdate_alike o o' (hn₅.congr (mergeUpdate_names o _)) h₆

/-- Numbers in descending order, buckets and the objects of the tree in reverse. -/
def Order.descending : Order where
  pairs _ t := (t.sort (· ≤ ·)).reverse
  bucket _ b := ⟨b.entries.reverse, (List.perm_nodupKeys b.entries.reverse_perm).mpr b.nodupKeys⟩
  tree _ l := l.reverse
  nodup_pairs _ t := List.nodup_reverse.mpr (t.sort_nodup _)
  mem_pairs _ t _ := List.mem_reverse.trans (t.mem_sort _)
  bucket_perm _ b := b.entries.reverse_perm
  tree_perm _ l := l.reverse_perm

/-- A root, rounded unless the number is a square. -/
instance : Sqrt ℚ := ⟨fun q => (Nat.sqrt q.num.toNat : ℚ) / Nat.sqrt q.den⟩

namespace Scene

/-- Players 7 and 8 with two cells each, two spores and two foods, close together.  The first
cell of player 7 will split and its second one spit. -/
def crowdTables : Scene ℚ :=
  { start with
    players := (Table.empty.set 7 0).set 8 1
    tables := fun r =>
      if r = 0 then ⟨7, 1, true, {1, 2}, 600, 500, true, 1, [⟨.split, 600, 500, 1, true, fun _ => none⟩]⟩
      else ⟨8, 2, true, {3, 4}, 400, 500, true, 1, [⟨.spit, 400, 500, 1, true, fun _ => none⟩]⟩
    nextTable := 2
    cells := fun c =>
      { (start : Scene ℚ).cells 0 with
        playerid := if c ≤ 2 then 7 else 8, x := 500 + 4 * c, y := 500,
        size := if c ≤ 2 then 6 else 3, protectedTimer := 0 }
    cellMaxid := 4
    sporeTables := fun i => ⟨7, 1, 500 + 5 * i, 501, 1, 0, 1⟩
    sporeMaxid := 2
    spores := {1, 2}
    foodTables := fun f => ⟨505 + f, 499⟩
    foodMaxid := 2
    foodCount := 2
    foods := {1, 2} }

/-- The same with all of them in the grids and the tree. -/
def crowd : Scene ℚ :=
  let s := [1, 2].foldl insertFood ([1, 2, 3, 4].foldl upsertCell crowdTables)
  { s with sporeGrid := [1, 2].foldl (fun g i => (g.upsert s.sporeObj i).1) s.sporeGrid }

theorem crowd_sound : crowd.Sound where
  table := by
    rintro p r hr
    have hr : ((Table.empty.set 7 0).set 8 1 : Table Nat).get p = some r := hr
    simp only [Table.get_set, Table.get_empty] at hr
    split_ifs at hr with h8 h7
    · obtain rfl := Option.some.inj hr
      exact h8.symm
    · obtain rfl := Option.some.inj hr
      exact h7.symm
  owner := by
    rintro p r c hr hc
    have hr : ((Table.empty.set 7 0).set 8 1 : Table Nat).get p = some r := hr
    simp only [Table.get_set, Table.get_empty] at hr
    split_ifs at hr with h8 h7
    · obtain rfl := Option.some.inj hr
      have hc : c ∈ ({3, 4} : Finset Nat) := hc
      rcases (by simpa using hc : c = 3 ∨ c = 4) with rfl | rfl
      · exact h8.symm
      · exact h8.symm
    · obtain rfl := Option.some.inj hr
      have hc : c ∈ ({1, 2} : Finset Nat) := hc
      rcases (by simpa using hc : c = 1 ∨ c = 2) with rfl | rfl
      · exact h7.symm
      · exact h7.symm
  cell_le := by
    rintro p r c hr hc
    have hr : ((Table.empty.set 7 0).set 8 1 : Table Nat).get p = some r := hr
    simp only [Table.get_set, Table.get_empty] at hr
    have hle : ∀ c ∈ ({1, 2} : Finset Nat) ∪ {3, 4}, c ≤ 4 := by decide
    split_ifs at hr with h8 h7
    · obtain rfl := Option.some.inj hr
      exact hle c (Finset.mem_union_right _ hc)
    · obtain rfl := Option.some.inj hr
      exact hle c (Finset.mem_union_left _ hc)
  spore_le := by
    have hle : ∀ i ∈ ({1, 2} : Finset Nat), i ≤ 2 := by decide
    exact hle

end Scene

/-- The two orders visit the players, the cells of a player, a bucket that cells share, one that
spores share and the tree differently, and both runs end alike. -/
theorem orders_agree_crowd :
    (Order.ascending.pairs .commands Scene.crowd.players.keys = [7, 8] ∧
      Order.descending.pairs .commands Scene.crowd.players.keys = [8, 7]) ∧
    (Order.ascending.pairs (.action 0 0) (Scene.crowd.tables 0).cells = [1, 2] ∧
      Order.descending.pairs (.action 0 0) (Scene.crowd.tables 0).cells = [2, 1]) ∧
    ((Scene.reorder .ascending (.nearCells 1) Scene.crowd.cellGrid).queryCircle
        Scene.crowd.cellObj 505 500 10 = [3, 2, 1, 4] ∧
      (Scene.reorder .descending (.nearCells 1) Scene.crowd.cellGrid).queryCircle
        Scene.crowd.cellObj 505 500 10 = [1, 2, 3, 4]) ∧
    ((Scene.reorder .ascending (.nearSpores 1) Scene.crowd.sporeGrid).queryCircle
        Scene.crowd.sporeObj 505 500 10 = [2, 1] ∧
      (Scene.reorder .descending (.nearSpores 1) Scene.crowd.sporeGrid).queryCircle
        Scene.crowd.sporeObj 505 500 10 = [1, 2]) ∧
    Quadtree.retrieveInRadius Scene.crowd.foodPlace 505 500 10 Scene.crowd.foodTree = [1, 2] ∧
    (Scene.phases .ascending Scene.crowd).Alike (Scene.phases .descending Scene.crowd) := by
  have hplayers : Scene.crowd.players.keys = {7, 8} := by decide +kernel
  have hcells : (Scene.crowd.tables 0).cells = {1, 2} := rfl
  have hsort : ∀ a b : Nat, a < b → ({a, b} : Finset Nat).sort (· ≤ ·) = [a, b] := by
    intro a b hab
    rw [Finset.sort_insert _ (by simpa using hab.le) (by simpa using hab.ne),
      Finset.sort_singleton]
  refine ⟨?_, ?_, ⟨by decide +kernel, by decide +kernel⟩, ⟨by decide +kernel, by decide +kernel⟩,
    by decide +kernel,
    (orders_agree Scene.crowd Scene.crowd Scene.crowd_sound (.refl Scene.crowd) .ascending
      .descending).2.2.2.2.2.2.2.2⟩
  · simp only [Order.ascending, Order.descending, hplayers, hsort 7 8 (by decide)]
    decide
  · simp only [Order.ascending, Order.descending, hcells, hsort 1 2 (by decide)]
    decide

end BallServer.Ball
