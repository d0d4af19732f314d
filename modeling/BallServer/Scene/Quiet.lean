import BallServer.Scene.HuntRuns
import BallServer.Scene.PlainFood

/-!
# Quiet frames

What the phases of a frame do when there is nothing for them to do: nobody moves or has given a
command, nobody has two cells, there are no spores, and nobody can eat anybody.

Main results:

- Structure {lit}`Resting`: nobody moves and nobody has two cells.
- Theorem {lit}`eatFood_single`: the only food there is goes to the only cell it lies in.
- Theorem {lit}`afterEating_resting`: a frame in which nobody is eaten.
-/

namespace BallServer.Ball

theorem pairs_empty (o : Order) (site : Site) : o.pairs site ∅ = [] :=
  List.eq_nil_iff_forall_not_mem.mpr fun i hi => by simpa using (o.mem_pairs site ∅ i).mp hi

/-- A loop whose body does nothing. -/
theorem foldl_fix {α β : Type} {f : β → α → β} {b : β} {l : List α} (h : ∀ a ∈ l, f b a = b) :
    l.foldl f b = b := by
  induction l with
  | nil => rfl
  | cons a l ih =>
      rw [List.foldl_cons, h a List.mem_cons_self]
      exact ih fun a ha => h a (List.mem_cons_of_mem _ ha)

/-- A loop of which only one turn does anything. -/
theorem foldl_only {α β : Type} {f : β → α → β} {b : β} {a : α} {l : List α} (ha : a ∈ l)
    (hbefore : ∀ x ∈ l, x ≠ a → f b x = b) (hafter : ∀ x ∈ l, f (f b a) x = f b a) :
    l.foldl f b = f b a := by
  induction l with
  | nil => cases ha
  | cons x l ih =>
      have hrest : ∀ x ∈ l, f (f b a) x = f b a := fun x hx => hafter x (List.mem_cons_of_mem _ hx)
      rw [List.foldl_cons]
      by_cases hxa : x = a
      · subst hxa
        exact foldl_fix hrest
      · rw [hbefore x List.mem_cons_self hxa]
        exact ih (List.mem_of_ne_of_mem (Ne.symm hxa) ha)
          (fun y hy => hbefore y (List.mem_cons_of_mem _ hy)) hrest

namespace Scene

variable {K : Type} [Field K] [LinearOrder K] [FloorRing K] [Sqrt K] {s s' : Scene K}

/-! ## Phases that have nothing to do -/

omit [FloorRing K] [Sqrt K] in
theorem flushPendingLeaves_none (o : Order) (h : s.pendingLeaves = ∅) :
    flushPendingLeaves o s = s := by
  unfold flushPendingLeaves
  rw [h, pairs_empty]
  rfl

omit [Sqrt K] in
theorem flushPendingRebirth_none (o : Order) (at_ : Nat → Fin 1001 × Fin 1001)
    (h : s.pendingRebirth.keys = ∅) : flushPendingRebirth o at_ s = s := by
  unfold flushPendingRebirth
  rw [h, pairs_empty]
  rfl

omit [Sqrt K] in
theorem flushPendingEnters_none (o : Order) (h : s.pendingEnters.keys = ∅) :
    flushPendingEnters o s = s := by
  unfold flushPendingEnters
  rw [h, pairs_empty]
  split <;> rfl

omit [Sqrt K] in
theorem beforeCommands_none (o : Order) (d : Draws) (hleaves : s.pendingLeaves = ∅)
    (hrebirth : s.pendingRebirth.keys = ∅) :
    beforeCommands o d s = { s with event := .empty } := by
  unfold beforeCommands
  rw [flushPendingLeaves_none (s := { s with event := .empty }) o hleaves]
  exact flushPendingRebirth_none o d.rebirth hrebirth

omit [FloorRing K] in
theorem runActions_idle (o : Order) {r : Nat} (h : (s.tables r).pendingActions = []) :
    runActions o s r = s := by
  have htable : ({ s.tables r with pendingActions := [] } : Player K) = s.tables r := by
    rw [← h]
  unfold runActions
  rw [h]
  simp only [List.zipIdx_nil, List.foldl_nil, setTable, htable, Function.update_eq_self]

omit [FloorRing K] in
theorem processCommands_idle (o : Order)
    (h : ∀ p r, s.players.get p = some r → (s.tables r).pendingActions = []) :
    processCommands o s = s := by
  refine foldl_fix fun r hr => ?_
  obtain ⟨p, hp⟩ := mem_sortedPlayers.mp hr
  exact runActions_idle o (h p r hp)

omit [FloorRing K] in
/-- Only one player has asked for something. -/
theorem processCommands_only (o : Order) {p r : Nat} (hr : s.players.get p = some r)
    (hidle : ∀ q t, s.players.get q = some t → t ≠ r → (s.tables t).pendingActions = [])
    (hrest : ∀ t, t ≠ r → (runActions o s r).tables t = s.tables t) :
    processCommands o s = runActions o s r := by
  have hidle : ∀ t ∈ s.sortedPlayers o .commands, t ≠ r → (s.tables t).pendingActions = [] := by
    intro t ht hne
    obtain ⟨q, hq⟩ := mem_sortedPlayers.mp ht
    exact hidle q t hq hne
  refine foldl_only (mem_sortedPlayers.mpr ⟨p, hr⟩)
    (fun t ht hne => runActions_idle o (hidle t ht hne)) fun t ht => runActions_idle o ?_
  by_cases hne : t = r
  · subst hne
    simp [runActions, setTable]
  · rw [hrest t hne]
    exact hidle t ht hne

omit [Sqrt K] in
theorem sporesMove_none (o : Order) (h : s.spores = ∅) : sporesMove o s = s := by
  unfold sporesMove
  rw [h, pairs_empty]
  rfl

theorem eatSpore_none (o : Order) (h : s.spores = ∅) : eatSpore o s = s := by
  refine foldl_fix fun c _ => foldl_fix fun i _ => ?_
  simp only [eatOneSpore]
  rw [if_neg]
  rintro ⟨hi, -⟩
  rw [h] at hi
  cases hi

omit [FloorRing K] [Sqrt K] in
theorem cleanup_eq (o : Order) (s : Scene K) :
    ∃ t n, cleanup o s = { s with foodTree := t, deadFoodInTree := n } := by
  have hinsert : ∀ (l : List Nat) (s : Scene K), ∃ t, l.foldl insertFood s =
      { s with foodTree := t } := by
    intro l
    induction l with
    | nil => exact fun s => ⟨s.foodTree, rfl⟩
    | cons f l ih =>
        intro s
        obtain ⟨t, ht⟩ := ih (insertFood s f)
        refine ⟨t, ht.trans ?_⟩
        unfold insertFood
        split <;> rfl
  unfold cleanup
  split
  · obtain ⟨t, ht⟩ := hinsert (o.pairs .rebuild s.foods) { s with foodTree := s.foodTree.clear }
    exact ⟨t, 0, by rw [ht]⟩
  · exact ⟨s.foodTree, s.deadFoodInTree, rfl⟩

omit [FloorRing K] [Sqrt K] in
/-- A food is put where it was drawn. -/
theorem foodUpdate_draw (at_ : Fin 1001 × Fin 1001) (h : ¬foodMax ≤ s.foodCount) :
    ∃ t e, foodUpdate (some at_) s = { s with
      foodCount := s.foodCount + 1
      foodMaxid := s.foodMaxid + 1
      foodTables := Function.update s.foodTables (s.foodMaxid + 1) ⟨(at_.1 : Nat), (at_.2 : Nat)⟩
      foods := insert (s.foodMaxid + 1) s.foods
      foodTree := t
      event := e } := by
  unfold foodUpdate
  rw [if_neg h]
  simp only [insertFood]
  split
  next t _ => exact ⟨t, _, rfl⟩
  next => exact ⟨s.foodTree, _, rfl⟩

/-! ## A cell is split -/

omit [FloorRing K] in
/-- A player who stands still asks to be split. -/
theorem inputFrame_split (o : Order) {p r : Nat} {m : Input K} (hr : s.players.get p = some r)
    (hseq : (s.tables r).lastInputSeq < m.inputSeq) (hmoving : m.moving = false)
    (hsplit : m.split = true) (hspit : m.spit = false) :
    inputFrame o s p m = s.setTable r { s.tables r with
      moving := false
      pendingActions := (s.tables r).pendingActions ++ [s.inputAction r m .split]
      lastInputSeq := m.inputSeq } := by
  unfold inputFrame
  simp only [hr]
  rw [if_neg (not_le.mpr hseq)]
  simp only [hmoving, hsplit, hspit, Bool.false_eq_true, if_false, if_true, List.append_nil]

omit [FloorRing K] in
theorem getCellActionDir_still {c : Nat} {a : Action K} {dir : K × K} (hmoving : a.moving = false)
    (hdir : a.cellDirs c = some dir) (x : Cell K) : getCellActionDir c x a = dir := by
  unfold getCellActionDir
  simp only [hdir]
  rw [if_neg]
  rintro ⟨h, -⟩
  rw [hmoving] at h
  cases h

omit [FloorRing K] in
theorem doSplit_single (o : Order) (site : Site) {r c : Nat} (a : Action K)
    (hcells : (s.tables r).cells = {c}) (hsize : 4 ≤ (s.cells c).size) :
    doSplit o site s r a = (splitCell a r s c, [s.cellMaxid + 1]) := by
  have hcard : ¬16 ≤ (s.tables r).cells.card := by
    rw [hcells, Finset.card_singleton]
    decide
  have hlist : s.splittable r = {c} := by
    unfold splittable
    rw [hcells, Finset.filter_singleton, if_pos hsize]
  unfold doSplit
  rw [if_neg hcard, sortBy_splittable, hlist, Finset.sort_singleton, splitCells, if_neg hcard]
  rfl

omit [FloorRing K] in
/-- The only cell of a player is split. -/
theorem runActions_split (o : Order) {r c : Nat} {a : Action K}
    (hactions : (s.tables r).pendingActions = [a]) (hkind : a.kind = .split)
    (hcells : (s.tables r).cells = {c}) (hsize : 4 ≤ (s.cells c).size) :
    ∃ e ts, runActions o s r = { splitCell a r s c with
        tables := ts
        event := e } ∧
      ts r = { (splitCell a r s c).tables r with pendingActions := [] } ∧
      ∀ t, t ≠ r → ts t = s.tables t := by
  have haction : ∃ e, runAction o r s (a, 0) = { splitCell a r s c with event := e } := by
    unfold runAction
    rw [hkind]
    simp only [doSplit_single o (.action r 0) a hcells hsize]
    exact ⟨_, rfl⟩
  obtain ⟨e, haction⟩ := haction
  have hother : ∀ t, t ≠ r → (splitCell a r s c).tables t = s.tables t := by
    intro t ht
    simp [splitCell, addCell, setTable, newCell, setCell, ht]
  unfold runActions
  rw [hactions, show [a].zipIdx = [(a, 0)] from rfl]
  simp only [List.foldl_cons, List.foldl_nil, haction]
  exact ⟨e, _, rfl, Function.update_self ..,
    fun t ht => (Function.update_of_ne ht ..).trans (hother t ht)⟩

/-! ## Players enter -/

omit [Sqrt K] in
/-- All who wait have entered. -/
theorem flushPendingEnters_spec (o : Order) (hstarted : s.gameStarted = true) :
    ∃ t g e, flushPendingEnters o s = { s with
        players := t
        cellGrid := g
        pendingEnters := e } ∧
      e.keys = ∅ ∧ ∀ p, t.get p = (s.pendingEnters.get p).or (s.players.get p) := by
  have hfold : ∀ (l : List Nat) (s : Scene K), ∃ t g e, l.foldl (enter o) s = { s with
        players := t
        cellGrid := g
        pendingEnters := e } ∧ ∀ p,
      e.get p = (if p ∈ l then none else s.pendingEnters.get p) ∧
      t.get p = if p ∈ l then (s.pendingEnters.get p).or (s.players.get p)
        else s.players.get p := by
    intro l
    induction l with
    | nil => exact fun s => ⟨s.players, s.cellGrid, s.pendingEnters, rfl, fun p => by simp⟩
    | cons q l ih =>
        intro s
        rw [List.foldl_cons]
        cases hq : s.pendingEnters.get q with
        | none =>
            have hsame : enter o s q = s := by
              unfold enter
              rw [hq]
            obtain ⟨t, g, e, heq, hget⟩ := ih s
            rw [hsame]
            refine ⟨t, g, e, heq, fun p => ?_⟩
            by_cases hpq : p = q
            · subst hpq
              simpa [hq] using hget p
            · simpa [hpq] using hget p
        | some r =>
            obtain ⟨g₁, hg₁⟩ : ∃ g, enter o s q = { s with
                players := s.players.set q r
                cellGrid := g
                pendingEnters := s.pendingEnters.erase q } := by
              unfold enter
              rw [hq]
              refine List.foldlRecOn (motive := fun s₁ : Scene K => ∃ g,
                { s₁ with pendingEnters := s₁.pendingEnters.erase q } = { s with
                  players := s.players.set q r
                  cellGrid := g
                  pendingEnters := s.pendingEnters.erase q } ∧
                s₁.players = s.players.set q r) _ _ ⟨s.cellGrid, rfl, rfl⟩
                (fun s₁ h₁ c _ => ?_) |>.imp fun _ h => h.1
              obtain ⟨g, h₁, hplayers⟩ := h₁
              refine ⟨(s₁.cellGrid.add s₁.cellObj c).1, ?_, hplayers⟩
              exact congrArg (fun s₂ : Scene K =>
                { s₂ with cellGrid := (s₁.cellGrid.add s₁.cellObj c).1 }) h₁
            obtain ⟨t, g, e, heq, hget⟩ := ih (enter o s q)
            rw [heq, hg₁]
            refine ⟨t, g, e, rfl, fun p => ?_⟩
            rw [hg₁] at hget
            by_cases hpq : p = q
            · subst hpq
              simpa [hq] using hget p
            · simpa [hpq] using hget p
  obtain ⟨t, g, e, heq, hget⟩ := hfold (o.pairs .enters s.pendingEnters.keys) s
  refine ⟨t, g, e, ?_, ?_, fun p => ?_⟩
  · unfold flushPendingEnters
    rw [if_pos hstarted, heq]
  · refine Finset.eq_empty_iff_forall_notMem.mpr fun p hp => ?_
    rw [e.mem_keys, (hget p).1] at hp
    split at hp
    · cases hp
    next h => exact h ((o.mem_pairs _ _ _).mpr ((s.pendingEnters.mem_keys p).mpr hp))
  · rw [(hget p).2]
    split
    · rfl
    next h =>
      rw [o.mem_pairs, s.pendingEnters.mem_keys] at h
      rw [Option.not_isSome_iff_eq_none.mp h, Option.none_or]

section Lawful

variable [IsStrictOrderedRing K] [LawfulSqrt K]

omit [IsStrictOrderedRing K] [LawfulSqrt K] in
/-- Every cell moves once. -/
theorem cellMove_cells (o : Order) (hs : s.Sound) : ∃ g f, cellMove o s = { s with
      cells := f
      cellGrid := g } ∧
    ∀ p r c, s.players.get p = some r → c ∈ (s.tables r).cells →
      f c = clampCell (applyBoost (followTarget (s.tables r) (s.cells c))) := by
  have hfold : ∀ (l : List (Nat × Nat)) (s : Scene K), (l.map (·.2)).Nodup →
      ∃ g f, l.foldl (fun s rc => moveCell rc.1 s rc.2) s = { s with
        cells := f
        cellGrid := g } ∧
      (∀ rc ∈ l, f rc.2 = clampCell (applyBoost (followTarget (s.tables rc.1) (s.cells rc.2)))) ∧
      ∀ c, c ∉ l.map (·.2) → f c = s.cells c := by
    intro l
    induction l with
    | nil => exact fun s _ => ⟨s.cellGrid, s.cells, rfl, by simp, fun _ _ => rfl⟩
    | cons rc l ih =>
        intro s hl
        obtain ⟨hrc, hl⟩ := List.nodup_cons.mp hl
        obtain ⟨g, f, heq, hmoved, hrest⟩ := ih (moveCell rc.1 s rc.2) hl
        have hself : (moveCell rc.1 s rc.2).cells rc.2 =
            clampCell (applyBoost (followTarget (s.tables rc.1) (s.cells rc.2))) := by
          simp [moveCell, upsertCell, setCell]
        have hother : ∀ c, c ≠ rc.2 → (moveCell rc.1 s rc.2).cells c = s.cells c := by
          intro c hc
          simp [moveCell, upsertCell, setCell, hc]
        refine ⟨g, f, heq, fun d hd => ?_, fun c hc => ?_⟩
        · rcases List.mem_cons.mp hd with rfl | hd
          · exact (hrest _ hrc).trans hself
          · have hne : d.2 ≠ rc.2 := fun h => hrc (List.mem_map.mpr ⟨d, hd, h⟩)
            rw [hmoved d hd, hother _ hne]
            rfl
        · rw [List.map_cons, List.mem_cons, not_or] at hc
          exact (hrest c hc.2).trans (hother c hc.1)
  have hcells : ((o.pairs .movePlayers s.players.keys).flatMap (moves o s)).map (·.2) =
      (o.pairs .movePlayers s.players.keys).flatMap fun p =>
        o.pairs (.moveCells p) (s.cellsOf p) := by
    rw [List.map_flatMap]
    refine List.flatMap_congr fun p hp => ?_
    obtain ⟨r, hr⟩ := Table.mem_keys_iff.mp ((o.mem_pairs _ _ _).mp hp)
    simp [moves, cellsOf, hr, Function.comp_def]
  have hnodup : (((o.pairs .movePlayers s.players.keys).flatMap (moves o s)).map (·.2)).Nodup := by
    have hsorted : (s.sortedCells o .movePlayers .moveCells).Nodup := sortedCells_nodup o hs
    rw [hcells]
    exact (sortBy_perm _ _).nodup_iff.mp hsorted
  obtain ⟨g, f, heq, hmoved, -⟩ := hfold _ s hnodup
  refine ⟨g, f, (cellMove_eq o s).trans heq, fun p r c hr hc => ?_⟩
  refine hmoved (r, c) (List.mem_flatMap.mpr ⟨p, ?_, ?_⟩)
  · exact (o.mem_pairs _ _ _).mpr (Table.mem_keys_iff.mpr ⟨r, hr⟩)
  · unfold moves
    rw [hr]
    exact List.mem_map_of_mem ((o.mem_pairs _ _ _).mpr hc)

omit [FloorRing K] [Sqrt K] [IsStrictOrderedRing K] [LawfulSqrt K] in
/-- A cell at rest. -/
theorem clampCell_inside_eq {c : Cell K} (h : Inside c.x c.y) : clampCell c = c := by
  obtain ⟨⟨hx, hx'⟩, hy, hy'⟩ := h
  unfold clampCell
  rw [min_eq_right hx', min_eq_right hy', max_eq_right hx, max_eq_right hy]

omit [FloorRing K] [Sqrt K] [IsStrictOrderedRing K] [LawfulSqrt K] in
theorem applyBoost_zero {c : Cell K} (hx : c.boostVx = 0) (hy : c.boostVy = 0) :
    applyBoost c = c := by
  unfold applyBoost
  rw [if_neg]
  rintro (h | h)
  · exact h hx
  · exact h hy

omit [FloorRing K] [IsStrictOrderedRing K] [LawfulSqrt K] in
theorem followTarget_still {x : Player K} (h : x.moving = false) (c : Cell K) :
    followTarget x c = c := by
  unfold followTarget
  rw [h]
  rfl

omit [IsStrictOrderedRing K] [LawfulSqrt K] in
/-- Cells that stay where they are. -/
theorem cellMove_still (o : Order)
    (hidle : ∀ p r, s.players.get p = some r → (s.tables r).moving = false)
    (hcells : ∀ c ∈ s.alive, (s.cells c).boostVx = 0 ∧ (s.cells c).boostVy = 0 ∧
      Inside (s.cells c).x (s.cells c).y) :
    ∃ g, cellMove o s = { s with cellGrid := g } := by
  refine List.foldlRecOn (motive := fun s₁ : Scene K => ∃ g, s₁ = { s with cellGrid := g }) _ _
    ⟨s.cellGrid, rfl⟩ fun s₁ h₁ p _ => ?_
  obtain ⟨g, rfl⟩ := h₁
  unfold moveCells
  simp only
  split
  · exact ⟨g, rfl⟩
  next r hr =>
    refine List.foldlRecOn (motive := fun s₁ : Scene K => ∃ g, s₁ = { s with cellGrid := g }) _ _
      ⟨g, rfl⟩ fun s₁ h₁ c hc => ?_
    obtain ⟨g, rfl⟩ := h₁
    obtain ⟨hx, hy, hin⟩ := hcells c (mem_alive_of hr ((o.mem_pairs _ _ _).mp hc))
    have hstill : clampCell (applyBoost (followTarget (s.tables r) (s.cells c))) = s.cells c := by
      rw [followTarget_still (hidle p r hr), applyBoost_zero hx hy, clampCell_inside_eq hin]
    simp only [moveCell, hstill, setCell, Function.update_eq_self, upsertCell]
    exact ⟨_, rfl⟩

omit [IsStrictOrderedRing K] [LawfulSqrt K] in
/-- Nobody is eaten: only the protection wears off. -/
theorem eatCell_peaceful (o : Order) (hs : s.Sound)
    (hpeace : ∀ a ∈ s.alive, ∀ b ∈ s.alive,
      canEat ((hunted o s).cells a) ((hunted o s).cells b) = false) :
    eatCell o s = { s with
      cells := fun c => if c ∈ s.alive then worn (s.cells c) else s.cells c } := by
  have hfold : ∀ (l : List Nat) (s : Scene K), ∃ f, l.foldl wearOff s = { s with cells := f } := by
    intro l
    induction l with
    | nil => exact fun s => ⟨s.cells, rfl⟩
    | cons c l ih =>
        intro s
        obtain ⟨f, hf⟩ := ih (wearOff s c)
        refine ⟨f, hf.trans ?_⟩
        rw [wearOff_eq]
        rfl
  have hnone : ∀ (es : List Candidate), eatCandidates es (hunted o s) = (hunted o s, []) := by
    intro es
    induction es with
    | nil => rfl
    | cons e es ih =>
        have hnot : ¬(hunted o s).Eats e := by
          rintro ⟨heater, htarget, hcan⟩
          rw [hunted_cellsOf o hs] at heater htarget
          rw [hpeace _ (mem_cellsOf_alive heater) _ (mem_cellsOf_alive htarget)] at hcan
          cases hcan
        unfold eatCandidates
        rw [eatCandidate_of_not hnot]
        simp only [ih]
        rfl
  have heat : eatPlayer o s = (hunted o s, []) := (eatPlayer_eq o s).trans (hnone _)
  obtain ⟨f, hf⟩ : ∃ f, hunted o s = { s with cells := f } := hfold _ s
  have hcells : f = fun c => if c ∈ s.alive then worn (s.cells c) else s.cells c := by
    funext c
    have hc := (hunted_spec o hs).2.2.2 c
    rw [hf] at hc
    exact hc
  unfold eatCell
  rw [heat, hf, hcells]
  rfl

/-- A set with one number at most. -/
theorem pairs_card_le_one (o : Order) (site : Site) {t : Finset Nat} (h : t.card ≤ 1) :
    (o.pairs site t).length ≤ 1 := by
  have hset : (o.pairs site t).toFinset = t := by
    ext i
    rw [List.mem_toFinset, o.mem_pairs]
  rw [← List.toFinset_card_of_nodup (o.nodup_pairs site t), hset]
  exact h

omit [IsStrictOrderedRing K] [LawfulSqrt K] in
theorem mergeUpdate_single (o : Order)
    (hcards : ∀ p r, s.players.get p = some r → (s.tables r).cells.card ≤ 1)
    (htimers : ∀ c ∈ s.alive, (s.cells c).mergeTimer ≤ 0) : mergeUpdate o s = s := by
  refine foldl_fix fun r hr => ?_
  obtain ⟨p, hp⟩ := mem_sortedPlayers.mp hr
  have htick : (sortBy id (o.pairs (.mergeCells r) (s.tables r).cells)).foldl tickMerge s = s := by
    refine foldl_fix fun c hc => ?_
    have hc := mem_alive_of hp ((o.mem_pairs _ _ _).mp ((mem_sortBy ..).mp hc))
    unfold tickMerge
    rw [if_neg (not_lt.mpr (htimers c hc))]
  have hlength : (sortBy id (o.pairs (.mergeCells r) (s.tables r).cells)).length ≤ 1 := by
    rw [(sortBy_perm _ _).length_eq]
    exact pairs_card_le_one o _ (hcards p r hp)
  have hpairs : pairsOf (sortBy id (o.pairs (.mergeCells r) (s.tables r).cells)) = [] := by
    generalize sortBy id (o.pairs (.mergeCells r) (s.tables r).cells) = l at hlength
    match l, hlength with
    | [], _ => rfl
    | [c], _ => rfl
  simp only [mergePlayer, htick, hpairs, List.foldl_nil]

omit [IsStrictOrderedRing K] [LawfulSqrt K] in
theorem collisionUpdate_single (o : Order)
    (hcards : ∀ p r, s.players.get p = some r → (s.tables r).cells.card ≤ 1) :
    collisionUpdate o s = s := by
  refine foldl_fix fun r hr => ?_
  obtain ⟨p, hp⟩ := mem_sortedPlayers.mp hr
  unfold selfCollision
  simp only
  rw [if_pos]
  rw [(sortBy_perm _ _).length_eq]
  exact pairs_card_le_one o _ (hcards p r hp)

/-! ## A single food -/

omit [LawfulSqrt K] in
/-- The food lies in a cell, which eats it. -/
theorem eatFoods_single (o : Order) (hs : s.Stocked) {c f : Nat} (hfoods : s.foods = {f})
    (hsize : 0 ≤ (s.cells c).size) (hin : s.FoodInside c f) :
    eatFoods o s c = eatOneFood c s f := by
  have hsort : s.foods.sort (· ≤ ·) = [f] := by rw [hfoods, Finset.sort_singleton]
  have hnear : ∀ m ∈ meals c (s.foods.sort (· ≤ ·)) s, s.FoodNear c m.2 := by
    intro m hm
    have hm := (mem_meals hm).2.2
    rw [hfoods, Finset.mem_singleton] at hm
    rw [hm]
    exact hin.le.trans (pow_le_pow_left₀ hsize (le_add_of_nonneg_right zero_le_one) 2)
  rw [(turn_plain_iff o hs hsize).2 hnear, plainFoods, hsort]
  rfl

omit [IsStrictOrderedRing K] [LawfulSqrt K] in
/-- The food does not lie in the cell. -/
theorem eatFoods_outside (o : Order) {c : Nat} (h : ∀ f ∈ s.foods, ¬s.FoodInside c f) :
    eatFoods o s c = s := by
  rw [eatFoods_eq]
  exact foldl_fix fun f _ => eatOneFood_of_not fun heats => h f heats.1 heats.2

omit [IsStrictOrderedRing K] [LawfulSqrt K] in
theorem eatOneFood_inside {c f : Nat} (hf : f ∈ s.foods) (hin : s.FoodInside c f) :
    ∃ g e, eatOneFood c s f = { s with
      cells := Function.update s.cells c
        { s.cells c with size := sqrt (calMass (s.cells c).size + 1) }
      cellGrid := g
      foods := s.foods.erase f
      deadFoodInTree := s.deadFoodInTree + 1
      foodCount := s.foodCount - 1
      event := e } := by
  have hcond : f ∈ s.foods ∧ ((s.cells c).x - (s.foodTables f).x) ^ 2 +
      ((s.cells c).y - (s.foodTables f).y) ^ 2 < (s.cells c).size ^ 2 := ⟨hf, hin⟩
  have heq : eatOneFood c s f = _ := if_pos hcond
  exact ⟨_, _, heq⟩

omit [LawfulSqrt K] in
/-- The only food goes to the only cell it lies in. -/
theorem eatFood_single (o : Order) (hs : s.Stocked) {c f : Nat} (hc : c ∈ s.alive)
    (hfoods : s.foods = {f}) (hsize : 0 ≤ (s.cells c).size) (hin : s.FoodInside c f)
    (hout : ∀ d ∈ s.alive, d ≠ c → ¬s.FoodInside d f) :
    ∃ g e, eatFood o s = { s with
      cells := Function.update s.cells c
        { s.cells c with size := sqrt (calMass (s.cells c).size + 1) }
      cellGrid := g
      foods := ∅
      deadFoodInTree := s.deadFoodInTree + 1
      foodCount := s.foodCount - 1
      event := e } := by
  have hf : f ∈ s.foods := by
    rw [hfoods]
    exact Finset.mem_singleton_self f
  obtain ⟨g, e, hate⟩ := eatOneFood_inside hf hin
  rw [hfoods, Finset.erase_singleton] at hate
  have hgone : (eatOneFood c s f).foods = ∅ := by rw [hate]
  have hturn := eatFoods_single o hs hfoods hsize hin
  rw [← hturn] at hgone hate
  refine ⟨g, e, (foldl_only (f := eatFoods o) (mem_sortedCells.mpr hc) (fun d hd hdc => ?_)
    fun d _ => ?_).trans hate⟩
  · refine eatFoods_outside o fun g hg => ?_
    rw [hfoods, Finset.mem_singleton] at hg
    rw [hg]
    exact hout d (mem_sortedCells.mp hd) hdc
  · refine eatFoods_outside o fun g hg => ?_
    rw [hgone] at hg
    cases hg

/-! ## Resting -/

/-- Nobody moves, wants to act or has two cells, nothing flies, and nobody comes or goes. -/
structure Resting (s : Scene K) : Prop where
  still : ∀ p r, s.players.get p = some r → (s.tables r).moving = false
  idle : ∀ p r, s.players.get p = some r → (s.tables r).pendingActions = []
  single : ∀ p r, s.players.get p = some r → (s.tables r).cells.card ≤ 1
  cells : ∀ c ∈ s.alive, (s.cells c).boostVx = 0 ∧ (s.cells c).boostVy = 0 ∧
    Inside (s.cells c).x (s.cells c).y
  timers : ∀ c ∈ s.alive, (s.cells c).mergeTimer ≤ 0
  spores : s.spores = ∅
  leaves : s.pendingLeaves = ∅
  rebirth : s.pendingRebirth.keys = ∅

omit [IsStrictOrderedRing K] [LawfulSqrt K] in
/-- Up to {lit}`eat_food` only the food and the grid change. -/
theorem beforeEating_resting (o : Order) (d : Draws) (h : s.Resting) :
    ∃ g t n, beforeEating o d (processCommands o (beforeCommands o d s)) =
      { foodUpdate d.food { s with event := .empty } with
        cellGrid := g
        foodTree := t
        deadFoodInTree := n } := by
  have hbefore := beforeCommands_none o d h.leaves h.rebirth
  have hcommands : processCommands o (beforeCommands o d s) = { s with event := .empty } := by
    rw [hbefore]
    exact processCommands_idle o h.idle
  have hfood : ∀ s : Scene K, (foodUpdate d.food s).players = s.players ∧
      (foodUpdate d.food s).tables = s.tables ∧ (foodUpdate d.food s).cells = s.cells ∧
      (foodUpdate d.food s).spores = s.spores := by
    intro s
    unfold foodUpdate
    split
    · exact ⟨rfl, rfl, rfl, rfl⟩
    · split
      · exact ⟨rfl, rfl, rfl, rfl⟩
      · simp only [insertFood]
        split <;> exact ⟨rfl, rfl, rfl, rfl⟩
  obtain ⟨hplayers, htables, hcells, hspores⟩ := hfood { s with event := .empty }
  rw [hcommands]
  unfold beforeEating
  generalize foodUpdate d.food { s with event := .empty } = s₁ at hplayers htables hcells hspores
  have halive : s₁.alive = s.alive := alive_congr hplayers fun r => by rw [htables]
  obtain ⟨g, hg⟩ := cellMove_still (s := s₁) o
    (fun p r hr => by
      rw [htables]
      exact h.still p r (hplayers ▸ hr))
    (fun c hc => by
      rw [hcells]
      exact h.cells c (halive ▸ hc))
  obtain ⟨t, n, hclean⟩ := cleanup_eq o ({ s₁ with cellGrid := g } : Scene K)
  refine ⟨g, t, n, ?_⟩
  rw [sporesMove_none o (hspores.trans h.spores), hg, hclean]

omit [IsStrictOrderedRing K] [LawfulSqrt K] in
/-- After {lit}`eat_food` nothing happens in a peaceful frame but that the protection wears
off. -/
theorem afterEating_resting (o : Order) (hs : s.Sound)
    (hsingle : ∀ p r, s.players.get p = some r → (s.tables r).cells.card ≤ 1)
    (htimers : ∀ c ∈ s.alive, (s.cells c).mergeTimer ≤ 0) (hspores : s.spores = ∅)
    (hpeace : ∀ a ∈ s.alive, ∀ b ∈ s.alive,
      canEat ((hunted o s).cells a) ((hunted o s).cells b) = false) :
    collisionUpdate o (mergeUpdate o (eatCell o (eatSpore o s))) = { s with
      cells := fun c => if c ∈ s.alive then worn (s.cells c) else s.cells c } := by
  have hworn : ∀ x : Cell K, (worn x).mergeTimer = x.mergeTimer := by
    intro x
    unfold worn
    split <;> rfl
  have hmerge := mergeUpdate_single (s := { s with
    cells := fun c => if c ∈ s.alive then worn (s.cells c) else s.cells c }) o hsingle
    fun c hc => by
      have hc : c ∈ s.alive := hc
      simp only [if_pos hc, hworn]
      exact htimers c hc
  rw [eatSpore_none o hspores, eatCell_peaceful o hs hpeace]
  exact (congrArg (collisionUpdate o) hmerge).trans (collisionUpdate_single o hsingle)

end Lawful

end Scene

end BallServer.Ball
