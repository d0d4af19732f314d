import BallServer.Predict.Directions

/-!
# Reconciliation

With every frame the client puts its own cells back to where the server has them and repeats
the inputs the server has not seen yet.

Main results:

- Definition {lit}`View.applyUpdate`: a frame without new cells and spores.
- Theorem {lit}`View.applyCellList_owned`: the own cells after the list of a frame.
- Theorem {lit}`View.start_spec`: the own cells before the replay.
-/

namespace BallServer.Ball

/-! ## A frame at the client -/

/-- {lit}`CellInfo`. -/
structure CellInfo (K : Type) where
  cellId : Int
  playerid : Nat
  x : K
  y : K
  size : K
  protectedTimer : K

section Definitions

variable {K : Type} [Field K] [LinearOrder K]

/-- A new {lit}`CellView` for a cell of the server. -/
def CellView.ofId (cellId : Int) : CellView K where
  cellId := cellId
  sortKey := cellId
  stableKey := cellId
  playerId := 0
  serverX := 0
  serverY := 0
  renderX := 0
  renderY := 0
  size := 0
  protectedTimerTicks := 0
  boostVx := 0
  boostVy := 0
  lastDirX := 1
  lastDirY := 0
  renderInitialized := false
  isPredicted := false
  predictedActionSeq := 0
  predictedParentStableKey := 0

/-- {lit}`ApplyAuthoritativeCellInfo` for the object of the cell. -/
def CellView.applyInfo (view : CellView K) (info : CellInfo K) (forceSnap : Bool) : CellView K :=
  let snap := decide (view.renderInitialized = false) || forceSnap ||
    decide (view.playerId ≠ info.playerid)
  { view with
    sortKey := info.cellId
    stableKey := if view.stableKey = 0 then info.cellId else view.stableKey
    playerId := info.playerid
    serverX := info.x
    serverY := info.y
    size := info.size
    protectedTimerTicks := info.protectedTimer
    isPredicted := false
    predictedActionSeq := 0
    predictedParentStableKey := 0
    renderX := if snap then info.x else view.renderX
    renderY := if snap then info.y else view.renderY
    renderInitialized := true }

/-- A cell put back to where the server has it. -/
def CellView.rollback (v : CellView K) : CellView K :=
  { v with renderX := v.serverX, renderY := v.serverY, renderInitialized := true }.clampInside

namespace View

/-- The object of a cell, or a new one. -/
def viewOf (s : View K) (cellId : Int) : CellView K :=
  (s.cells.find? fun v => v.cellId == cellId).getD (.ofId cellId)

/-- {lit}`ApplyAuthoritativeCellInfo`. -/
def applyAuthoritativeCellInfo (s : View K) (forceSnap : Bool) (info : CellInfo K) : View K :=
  { s.putCell ((s.viewOf info.cellId).applyInfo info forceSnap) with
    nextLocalCellSortKey := max s.nextLocalCellSortKey (info.cellId + 1)
    nextLocalStableKey := max s.nextLocalStableKey (info.cellId + 1) }

/-- {lit}`ApplyCellList`: own cells that are not in the list are removed. -/
def applyCellList (s : View K) (cells : List (CellInfo K)) (forceSnap : Bool) : View K :=
  let s' := cells.foldl (fun s info => s.applyAuthoritativeCellInfo forceSnap info) s
  { s' with cells := s'.cells.filter fun v =>
      (cells.map CellInfo.cellId).contains v.cellId ||
        !(forceSnap || decide (v.playerId = s'.myPlayerId)) }

/-- {lit}`RollbackOwnedCellsToAuthoritative`. -/
def rollbackOwnedCellsToAuthoritative (s : View K) : View K :=
  { s with cells := s.cells.map fun v =>
      if v.playerId ≠ s.myPlayerId ∨ v.isPredicted = true then v else v.rollback }

/-- {lit}`RemovePredictedLocalArtifacts`. -/
def removePredictedLocalArtifacts (s : View K) : View K :=
  { s with
    cells := s.cells.filter fun v => !(decide (v.playerId = s.myPlayerId) && v.isPredicted)
    spores := s.spores.filter fun x => !x.isPredicted }

variable [Sqrt K] [Power K]

/-- The loop of {lit}`ReconcileLocalPrediction` and the last segment. -/
def replay (latency receiveTime baseTime : K) :
    List (PendingInput K) → View K → K → K → K → Bool → View K
  | [], s, currentTime, targetX, targetY, moving =>
      { s.simulateSegment currentTime receiveTime targetX targetY moving with
        localTargetX := targetX
        localTargetY := targetY
        localMoving := moving }
  | input :: inputs, s, currentTime, targetX, targetY, moving =>
      let applyTime := clamp (input.sentAt + latency) baseTime receiveTime
      let s' := s.simulateSegment currentTime applyTime targetX targetY moving
      replay latency receiveTime baseTime inputs
        ((s'.applyControl input.targetX input.targetY input.moving).predictActions input).1
        applyTime input.targetX input.targetY input.moving

/-- {lit}`baseTime` in {lit}`ReconcileLocalPrediction`. -/
def baseTime (s : View K) (receiveTime : K) : K :=
  max 0 (receiveTime - s.estimatedOneWayLatencySeconds)

/-- The inputs that {lit}`ReconcileLocalPrediction` repeats. -/
def unseenInputs (s : View K) (maxAck : Int) : List (PendingInput K) :=
  s.pendingInputs.filter fun input => !decide (input.seq ≤ maxAck)

/-- {lit}`ReconcileLocalPrediction`. -/
def reconcileLocalPrediction (s : View K) (receiveTime : K) (maxAck : Int) : View K :=
  if s.myPlayerId = 0 then s
  else
    replay s.estimatedOneWayLatencySeconds receiveTime (s.baseTime receiveTime)
      (s.unseenInputs maxAck)
      s.rollbackOwnedCellsToAuthoritative.removePredictedLocalArtifacts
      (s.baseTime receiveTime) s.authoritativeTargetX s.authoritativeTargetY
      s.authoritativeMoving

/-- {lit}`ApplyCellList` and {lit}`ReconcileLocalPrediction`. -/
def applyUpdate (s : View K) (cells : List (CellInfo K)) (receiveTime : K) (ack : Int) : View K :=
  (s.applyCellList cells false).reconcileLocalPrediction receiveTime ack

end View

end Definitions

/-! ## The list of cells -/

namespace View

variable {K : Type} [Field K] [LinearOrder K]

/-- The list of a frame names every cell once, with a number of the server. -/
structure Proper (cells : List (CellInfo K)) : Prop where
  nodup : (cells.map CellInfo.cellId).Nodup
  positive : ∀ info ∈ cells, 0 < info.cellId

omit [LinearOrder K] in
theorem viewOf_cellId (s : View K) (id : Int) : (s.viewOf id).cellId = id := by
  unfold viewOf
  cases hfind : s.cells.find? fun v => v.cellId == id with
  | none => rfl
  | some v => simpa using List.find?_some hfind

omit [LinearOrder K] in
theorem viewOf_eq {s : View K} {v : CellView K} (hs : (s.cells.map CellView.cellId).Nodup)
    (hv : v ∈ s.cells) : s.viewOf v.cellId = v := by
  unfold viewOf
  cases hfind : s.cells.find? fun w => w.cellId == v.cellId with
  | none =>
      rw [List.find?_eq_none] at hfind
      exact absurd (beq_self_eq_true _) (hfind v hv)
  | some w =>
      have hid : w.cellId = v.cellId := by simpa using List.find?_some hfind
      exact List.inj_on_of_nodup_map hs (List.mem_of_find?_eq_some hfind) hv hid

omit [LinearOrder K] in
theorem viewOf_none {s : View K} {id : Int} (h : ∀ v ∈ s.cells, v.cellId ≠ id) :
    s.viewOf id = .ofId id := by
  unfold viewOf
  have hfind : s.cells.find? (fun v => v.cellId == id) = none := by
    rw [List.find?_eq_none]
    intro v hv heq
    exact h v hv (by simpa using heq)
  rw [hfind]
  rfl

omit [Field K] [LinearOrder K] in
/-- The cells after one has been put. -/
theorem mem_putCell {s : View K} {v w : CellView K} :
    w ∈ (s.putCell v).cells ↔ w = v ∨ w ∈ s.cells ∧ w.cellId ≠ v.cellId := by
  unfold putCell
  split_ifs with hany
  · obtain ⟨u, hu, heq⟩ := List.any_eq_true.mp hany
    have heq : u.cellId = v.cellId := by simpa using heq
    rw [List.mem_map]
    constructor
    · rintro ⟨x, hx, rfl⟩
      split_ifs with hid
      · exact .inl rfl
      · exact .inr ⟨hx, hid⟩
    · rintro (rfl | ⟨hw, hne⟩)
      · exact ⟨u, hu, if_pos heq⟩
      · exact ⟨w, hw, if_neg hne⟩
  · rw [List.mem_append, List.mem_singleton]
    have hne : ∀ u ∈ s.cells, u.cellId ≠ v.cellId := by
      intro u hu heq
      exact hany (List.any_eq_true.mpr ⟨u, hu, by simpa using heq⟩)
    constructor
    · rintro (hw | rfl)
      · exact .inr ⟨hw, hne w hw⟩
      · exact .inl rfl
    · rintro (rfl | ⟨hw, -⟩)
      · exact .inr rfl
      · exact .inl hw

omit [Field K] [LinearOrder K] in
theorem putCell_nodup {s : View K} {v : CellView K} (hs : (s.cells.map CellView.cellId).Nodup) :
    ((s.putCell v).cells.map CellView.cellId).Nodup := by
  by_cases hany : (s.cells.any fun w => w.cellId == v.cellId) = true
  · have hcells : (s.putCell v).cells.map CellView.cellId = s.cells.map CellView.cellId := by
      rw [putCell, if_pos hany, List.map_map]
      apply List.map_congr_left
      intro w _
      rw [Function.comp_apply]
      split_ifs with hid
      · exact hid.symm
      · rfl
    rw [hcells]
    exact hs
  · rw [putCell, if_neg hany, List.map_append, List.nodup_append']
    refine ⟨hs, List.nodup_singleton _, ?_⟩
    intro id hid hid'
    obtain ⟨w, hw, rfl⟩ := List.mem_map.mp hid
    rw [List.map_singleton, List.mem_singleton] at hid'
    exact hany (List.any_eq_true.mpr ⟨w, hw, by simpa using hid'⟩)

omit [Field K] [LinearOrder K] in
theorem putCell_fixed (s : View K) (v : CellView K) :
    Fixed s (s.putCell v) ∧ (s.putCell v).spores = s.spores ∧
      (s.putCell v).nextPredictedCellId = s.nextPredictedCellId ∧
      (s.putCell v).nextPredictedSporeId = s.nextPredictedSporeId := by
  unfold putCell
  split_ifs <;>
    exact ⟨⟨rfl, rfl, rfl, rfl, rfl, rfl, le_rfl, le_rfl, le_rfl⟩, rfl, rfl, rfl⟩

omit [LinearOrder K] in
/-- {lit}`ApplyAuthoritativeCellInfo` for all cells of a list. -/
theorem foldl_applyInfo (forceSnap : Bool) {cells : List (CellInfo K)}
    (hcells : (cells.map CellInfo.cellId).Nodup) {s : View K}
    (hs : (s.cells.map CellView.cellId).Nodup) :
    let s' := cells.foldl (fun s info => s.applyAuthoritativeCellInfo forceSnap info) s
    (s'.cells.map CellView.cellId).Nodup ∧ Fixed s s' ∧ s'.spores = s.spores ∧
      s'.nextPredictedCellId = s.nextPredictedCellId ∧
      s'.nextPredictedSporeId = s.nextPredictedSporeId ∧
      s.nextLocalCellSortKey ≤ s'.nextLocalCellSortKey ∧
      (∀ info ∈ cells, info.cellId < s'.nextLocalCellSortKey ∧
        info.cellId < s'.nextLocalStableKey) ∧
      ∀ w, w ∈ s'.cells ↔
        (∃ info ∈ cells, w = (s.viewOf info.cellId).applyInfo info forceSnap) ∨
          w ∈ s.cells ∧ ∀ info ∈ cells, info.cellId ≠ w.cellId := by
  induction cells generalizing s with
  | nil => exact ⟨hs, .refl s, rfl, rfl, rfl, le_rfl, by simp, by simp⟩
  | cons i cells ih =>
      obtain ⟨hi, hcells⟩ := List.nodup_cons.mp hcells
      have hid : ((s.viewOf i.cellId).applyInfo i forceSnap).cellId = i.cellId :=
        viewOf_cellId s i.cellId
      obtain ⟨hfixed, hspores, hnext, hnextSpore⟩ :=
        putCell_fixed s ((s.viewOf i.cellId).applyInfo i forceSnap)
      have hput : (((s.applyAuthoritativeCellInfo forceSnap i).cells).map
          CellView.cellId).Nodup := putCell_nodup hs
      obtain ⟨h1, h2, h3, h4, h5, h6, h7, h8⟩ := ih hcells hput
      have hview : ∀ info ∈ cells, (s.applyAuthoritativeCellInfo forceSnap i).viewOf info.cellId =
          s.viewOf info.cellId := by
        intro info hinfo
        have hne : info.cellId ≠ i.cellId := by
          intro heq
          exact hi (List.mem_map.mpr ⟨info, hinfo, heq⟩)
        by_cases hold : ∃ v ∈ s.cells, v.cellId = info.cellId
        · obtain ⟨v, hv, hv'⟩ := hold
          have hmem : v ∈ (s.applyAuthoritativeCellInfo forceSnap i).cells :=
            mem_putCell.mpr (.inr ⟨hv, by rw [hid, hv']; exact hne⟩)
          rw [← hv', viewOf_eq hput hmem, viewOf_eq hs hv]
        · have hnone : ∀ v ∈ s.cells, v.cellId ≠ info.cellId := fun v hv heq => hold ⟨v, hv, heq⟩
          rw [viewOf_none hnone, viewOf_none]
          intro v hv
          rcases mem_putCell.mp hv with rfl | ⟨hv, -⟩
          · rw [hid]
            exact hne.symm
          · exact hnone v hv
      have hfixed' : Fixed s (s.applyAuthoritativeCellInfo forceSnap i) :=
        ⟨hfixed.myPlayerId, hfixed.pendingInputs, hfixed.latency, hfixed.targetX, hfixed.targetY,
          hfixed.moving, hfixed.cellId, hfixed.sporeId, le_max_left _ _⟩
      have hsort : s.nextLocalCellSortKey ≤
          (s.applyAuthoritativeCellInfo forceSnap i).nextLocalCellSortKey := le_max_left _ _
      refine ⟨h1, hfixed'.trans h2, h3.trans hspores, h4.trans hnext, h5.trans hnextSpore,
        hsort.trans h6, ?_, ?_⟩
      · intro info hinfo
        rcases List.mem_cons.mp hinfo with rfl | hinfo
        · have hsort' : info.cellId + 1 ≤
              (s.applyAuthoritativeCellInfo forceSnap info).nextLocalCellSortKey := le_max_right _ _
          have hstable : info.cellId + 1 ≤
              (s.applyAuthoritativeCellInfo forceSnap info).nextLocalStableKey := le_max_right _ _
          have := h2.stableKey
          constructor
          · exact Int.lt_of_add_one_le (hsort'.trans h6)
          · exact Int.lt_of_add_one_le (hstable.trans this)
        · exact h7 info hinfo
      · intro w
        have hmem : w ∈ (s.applyAuthoritativeCellInfo forceSnap i).cells ↔
            w = (s.viewOf i.cellId).applyInfo i forceSnap ∨ w ∈ s.cells ∧ w.cellId ≠ i.cellId := by
          have hput := mem_putCell (s := s) (w := w)
            (v := (s.viewOf i.cellId).applyInfo i forceSnap)
          rw [hid] at hput
          exact hput
        rw [List.foldl_cons, h8 w, hmem]
        constructor
        · rintro (⟨info, hinfo, rfl⟩ | ⟨rfl | ⟨hw, hne⟩, hnot⟩)
          · exact .inl ⟨info, List.mem_cons_of_mem _ hinfo, by rw [hview info hinfo]⟩
          · exact .inl ⟨i, List.mem_cons_self, rfl⟩
          · refine .inr ⟨hw, fun info hinfo => ?_⟩
            rcases List.mem_cons.mp hinfo with rfl | hinfo
            · exact hne.symm
            · exact hnot info hinfo
        · rintro (⟨info, hinfo, rfl⟩ | ⟨hw, hnot⟩)
          · rcases List.mem_cons.mp hinfo with rfl | hinfo
            · refine .inr ⟨.inl rfl, fun info' hinfo' heq => ?_⟩
              rw [hid] at heq
              exact hi (List.mem_map.mpr ⟨info', hinfo', heq⟩)
            · exact .inl ⟨info, hinfo, by rw [hview info hinfo]⟩
          · exact .inr ⟨.inr ⟨hw, (hnot i List.mem_cons_self).symm⟩,
              fun info hinfo => hnot info (List.mem_cons_of_mem _ hinfo)⟩

/-- The own cells in the list of a frame, in the order of their numbers. -/
def ownInfos (cells : List (CellInfo K)) (me : Nat) : List (CellInfo K) :=
  (cells.filter fun info => decide (info.playerid = me)).mergeSort fun a b =>
    decide (a.cellId ≤ b.cellId)

omit [Field K] [LinearOrder K] in
theorem mem_ownInfos {cells : List (CellInfo K)} {me : Nat} {info : CellInfo K} :
    info ∈ ownInfos cells me ↔ info ∈ cells ∧ info.playerid = me := by
  unfold ownInfos
  rw [(List.mergeSort_perm _ _).mem_iff, List.mem_filter, decide_eq_true_eq]

omit [Field K] [LinearOrder K] in
theorem ownInfos_pairwise (cells : List (CellInfo K)) (me : Nat) :
    (ownInfos cells me).Pairwise fun a b => a.cellId ≤ b.cellId := by
  have hsorted : (ownInfos cells me).Pairwise fun a b => decide (a.cellId ≤ b.cellId) = true :=
    List.pairwise_mergeSort (fun a b c hab hbc => by simp only [decide_eq_true_eq] at *; omega)
    (fun a b => by simp only [Bool.or_eq_true, decide_eq_true_eq]; omega)
    (cells.filter fun info => decide (info.playerid = me))
  exact hsorted.imp fun h => by simpa using h

omit [Field K] [LinearOrder K] in
theorem ownInfos_nodup {cells : List (CellInfo K)} (hcells : (cells.map CellInfo.cellId).Nodup)
    (me : Nat) : ((ownInfos cells me).map CellInfo.cellId).Nodup := by
  refine ((List.mergeSort_perm _ _).map CellInfo.cellId).nodup_iff.mpr ?_
  exact hcells.sublist (List.Sublist.map _ List.filter_sublist)

omit [LinearOrder K] in
/-- {lit}`ApplyCellList`, as a whole. -/
theorem applyCellList_spec {s : View K} (hs : s.Wf) {cells : List (CellInfo K)}
    (hcells : Proper cells) (hneg : s.nextPredictedCellId < 0) :
    (s.applyCellList cells false).Wf ∧ Fixed s (s.applyCellList cells false) ∧
      (s.applyCellList cells false).nextPredictedCellId = s.nextPredictedCellId ∧
      ∀ w, w ∈ (s.applyCellList cells false).cells ∧ w.playerId = s.myPlayerId ↔
        ∃ info ∈ ownInfos cells s.myPlayerId, w = (s.viewOf info.cellId).applyInfo info false := by
  obtain ⟨hnodup, hfixed, hspores, hnext, hnextSpore, hsort, hless, hmem⟩ :=
    foldl_applyInfo false hcells.nodup hs.nodup
  have hsub : ∀ w ∈ (s.applyCellList cells false).cells,
      (∃ info ∈ cells, w = (s.viewOf info.cellId).applyInfo info false) ∨ w ∈ s.cells := by
    intro w hw
    rcases (hmem w).mp (List.mem_filter.mp hw).1 with h | h
    · exact .inl h
    · exact .inr h.1
  refine ⟨⟨?_, ?_, ?_, ?_, ?_⟩, ?_, hnext, ?_⟩
  · exact hnodup.sublist (List.Sublist.map _ List.filter_sublist)
  · intro w hw
    rw [show (s.applyCellList cells false).nextPredictedCellId = _ from hnext]
    rcases hsub w hw with ⟨info, hinfo, rfl⟩ | hw
    · have := hcells.positive info hinfo
      have hid : ((s.viewOf info.cellId).applyInfo info false).cellId = info.cellId :=
        viewOf_cellId s info.cellId
      omega
    · exact hs.cellId w hw
  · intro w hw
    rcases hsub w hw with ⟨info, hinfo, rfl⟩ | hw
    · exact (hless info hinfo).1
    · exact (hs.sortKey w hw).trans_le hsort
  · intro w hw
    rcases hsub w hw with ⟨info, hinfo, rfl⟩ | hw
    · change (if (s.viewOf info.cellId).stableKey = 0 then info.cellId
        else (s.viewOf info.cellId).stableKey) < _
      split_ifs with hzero
      · exact (hless info hinfo).2
      · by_cases hold : ∃ v ∈ s.cells, v.cellId = info.cellId
        · obtain ⟨v, hv, hid⟩ := hold
          rw [← hid, viewOf_eq hs.nodup hv]
          exact (hs.stableKey v hv).trans_le hfixed.stableKey
        · rw [viewOf_none fun v hv heq => hold ⟨v, hv, heq⟩]
          exact (hless info hinfo).2
    · exact (hs.stableKey w hw).trans_le hfixed.stableKey
  · intro x hx
    have hx : x ∈ s.spores := hspores ▸ hx
    exact hnextSpore ▸ hs.sporeId x hx
  · exact ⟨hfixed.myPlayerId, hfixed.pendingInputs, hfixed.latency, hfixed.targetX, hfixed.targetY,
      hfixed.moving, hfixed.cellId, hfixed.sporeId, hfixed.stableKey⟩
  · intro w
    have hlisted : ∀ info ∈ cells, (cells.map CellInfo.cellId).contains
        ((s.viewOf info.cellId).applyInfo info false).cellId = true := by
      intro info hinfo
      rw [List.contains_iff_mem]
      exact List.mem_map.mpr ⟨info, hinfo, (viewOf_cellId s info.cellId).symm⟩
    constructor
    · rintro ⟨hw, howner⟩
      obtain ⟨hw, hkept⟩ := List.mem_filter.mp hw
      rcases (hmem w).mp hw with ⟨info, hinfo, rfl⟩ | ⟨-, hnot⟩
      · exact ⟨info, mem_ownInfos.mpr ⟨hinfo, howner⟩, rfl⟩
      · rw [Bool.or_eq_true, List.contains_iff_mem] at hkept
        rcases hkept with hkept | hkept
        · obtain ⟨info, hinfo, heq⟩ := List.mem_map.mp hkept
          exact absurd heq (hnot info hinfo)
        · rw [hfixed.myPlayerId] at hkept
          simp [howner] at hkept
    · rintro ⟨info, hinfo, rfl⟩
      obtain ⟨hinfo, howner⟩ := mem_ownInfos.mp hinfo
      refine ⟨List.mem_filter.mpr ⟨(hmem _).mpr (.inl ⟨info, hinfo, rfl⟩), ?_⟩, howner⟩
      rw [hlisted info hinfo]
      rfl

omit [LinearOrder K] in
/-- The own cells after {lit}`ApplyCellList`. -/
theorem applyCellList_owned {s : View K} (hs : s.Wf) {cells : List (CellInfo K)}
    (hcells : Proper cells) (hneg : s.nextPredictedCellId < 0) :
    (s.applyCellList cells false).owned =
      (ownInfos cells s.myPlayerId).map fun info =>
        (s.viewOf info.cellId).applyInfo info false := by
  obtain ⟨hwf, hfixed, -, hmem⟩ := applyCellList_spec hs hcells hneg
  have hids : ((ownInfos cells s.myPlayerId).map fun info =>
      (s.viewOf info.cellId).applyInfo info false).map CellView.cellId =
      (ownInfos cells s.myPlayerId).map CellInfo.cellId := by
    rw [List.map_map]
    exact List.map_congr_left fun info _ => viewOf_cellId s info.cellId
  have hnodup : ((ownInfos cells s.myPlayerId).map fun info =>
      (s.viewOf info.cellId).applyInfo info false).Nodup := by
    apply List.Nodup.of_map CellView.cellId
    rw [hids]
    exact ownInfos_nodup hcells.nodup _
  apply owned_eq hwf.nodup
  · refine (List.perm_ext_iff_of_nodup (hwf.nodup.of_map.filter _) hnodup).mpr fun w => ?_
    rw [List.mem_filter, List.mem_map]
    have howns : (s.applyCellList cells false).owns w = true ↔
        w.playerId = s.myPlayerId ∧ w.renderInitialized = true := by
      unfold owns
      rw [hfixed.myPlayerId, Bool.and_eq_true, decide_eq_true_eq]
    rw [howns]
    constructor
    · rintro ⟨hw, howner, -⟩
      obtain ⟨info, hinfo, rfl⟩ := (hmem w).mp ⟨hw, howner⟩
      exact ⟨info, hinfo, rfl⟩
    · rintro ⟨info, hinfo, rfl⟩
      obtain ⟨hw, howner⟩ := (hmem _).mpr ⟨info, hinfo, rfl⟩
      exact ⟨hw, howner, rfl⟩
  · rw [List.pairwise_map]
    refine (ownInfos_pairwise cells s.myPlayerId).imp ?_
    intro a b hab
    rw [sortsBefore_iff]
    change a.cellId < b.cellId ∨ a.cellId = b.cellId ∧ (s.viewOf a.cellId).cellId ≤
      (s.viewOf b.cellId).cellId
    rw [viewOf_cellId, viewOf_cellId]
    omega

/-- The state in which the replay starts. -/
def start (s : View K) (cells : List (CellInfo K)) : View K :=
  (s.applyCellList cells false).rollbackOwnedCellsToAuthoritative.removePredictedLocalArtifacts

/-- An own cell in that state. -/
def startCell (s : View K) (info : CellInfo K) : CellView K :=
  ((s.viewOf info.cellId).applyInfo info false).rollback

/-- The own cells before the replay. -/
theorem start_spec {s : View K} (hs : s.Wf) {cells : List (CellInfo K)} (hcells : Proper cells)
    (hneg : s.nextPredictedCellId < 0) :
    (s.start cells).Wf ∧ Fixed s (s.start cells) ∧
      (s.start cells).owned = (ownInfos cells s.myPlayerId).map s.startCell ∧
      (s.start cells).spores.filter (fun x => x.isPredicted) = [] := by
  obtain ⟨hwf, hfixed, hnext, hmem⟩ := applyCellList_spec hs hcells hneg
  have howned := applyCellList_owned hs hcells hneg
  obtain ⟨t, ht⟩ : ∃ t, t = s.applyCellList cells false := ⟨_, rfl⟩
  rw [← ht] at hwf hfixed hnext hmem howned
  have hown : ∀ w ∈ t.cells, w.playerId = t.myPlayerId →
      w.renderInitialized = true ∧ w.isPredicted = false := by
    intro w hw howner
    obtain ⟨info, -, rfl⟩ := (hmem w).mp ⟨hw, howner.trans hfixed.myPlayerId⟩
    exact ⟨rfl, rfl⟩
  have hkeeps : ∀ v : CellView K,
      Keeps v { v.rollback with renderInitialized := v.renderInitialized } :=
    fun v => ⟨rfl, rfl, rfl, rfl, rfl⟩
  have hrollback : t.rollbackOwnedCellsToAuthoritative = t.modifyOwned fun v =>
      { v.rollback with renderInitialized := v.renderInitialized } := by
    unfold rollbackOwnedCellsToAuthoritative modifyOwned
    congr 1
    apply List.map_congr_left
    intro v hv
    by_cases howner : v.playerId = t.myPlayerId
    · obtain ⟨hinit, hpred⟩ := hown v hv howner
      have howns : t.owns v = true := by simp [owns, howner, hinit]
      rw [if_neg (by simp [howner, hpred]), if_pos howns]
      dsimp only
      rw [hinit]
      rfl
    · have howns : ¬ t.owns v = true := by simp [owns, howner]
      rw [if_pos (.inl howner), if_neg howns]
  have hremove : t.rollbackOwnedCellsToAuthoritative.removePredictedLocalArtifacts.cells =
      t.rollbackOwnedCellsToAuthoritative.cells := by
    apply List.filter_eq_self.mpr
    intro w hw
    obtain ⟨v, hv, rfl⟩ := List.mem_map.mp hw
    split_ifs with hother
    · rcases hother with hother | hpred
      · have : v.playerId ≠ t.rollbackOwnedCellsToAuthoritative.myPlayerId := hother
        simp [this]
      · by_cases howner : v.playerId = t.myPlayerId
        · rw [(hown v hv howner).2] at hpred
          cases hpred
        · have : v.playerId ≠ t.rollbackOwnedCellsToAuthoritative.myPlayerId := howner
          simp [this]
    · have hpred : v.rollback.isPredicted = false := by
        push Not at hother
        exact Bool.eq_false_iff.mpr hother.2
      rw [hpred]
      simp
  obtain ⟨hmodified, -⟩ := owned_modify hwf hkeeps
  have hwf' := modifyOwned_wf hwf hkeeps
  rw [← hrollback] at hmodified hwf'
  have hstart : s.start cells =
      t.rollbackOwnedCellsToAuthoritative.removePredictedLocalArtifacts := by
    rw [ht]
    rfl
  rw [hstart]
  refine ⟨⟨?_, ?_, ?_, ?_, ?_⟩, ?_, ?_, ?_⟩
  · rw [hremove]
    exact hwf'.nodup
  · rw [hremove]
    exact hwf'.cellId
  · rw [hremove]
    exact hwf'.sortKey
  · rw [hremove]
    exact hwf'.stableKey
  · exact fun x hx => hwf.sporeId x (List.mem_filter.mp hx).1
  · exact hfixed.trans ⟨rfl, rfl, rfl, rfl, rfl, rfl, le_rfl, le_rfl, le_rfl⟩
  · have howned' : t.rollbackOwnedCellsToAuthoritative.removePredictedLocalArtifacts.owned =
        t.rollbackOwnedCellsToAuthoritative.owned := by
      unfold owned
      rw [hremove]
      rfl
    rw [howned', hmodified, howned, List.map_map]
    apply List.map_congr_left
    intro info _
    rfl
  · rw [List.filter_eq_nil_iff]
    intro x hx
    simpa using (List.mem_filter.mp hx).2

end View

end BallServer.Ball
