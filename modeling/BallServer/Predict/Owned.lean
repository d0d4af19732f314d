import BallServer.Predict.View

/-!
# The client's own cells

The own cells are collected anew, in the order of their keys, before every step.  The keys
of the client grow, so that a predicted child stands behind all cells that were there.

Main results:

- Structure {lit}`View.Wf`: no two cells have one number, and the next keys are new.
- Theorem {lit}`View.owned_eq`: how to tell what is collected.
- Theorem {lit}`View.owned_store_put`: the cells after they have been changed and some were
  added.
-/

namespace BallServer.Ball

namespace View

variable {K : Type}

/-- What holds of the numbers and the keys of a client. -/
structure Wf (s : View K) : Prop where
  nodup : (s.cells.map CellView.cellId).Nodup
  cellId : ∀ v ∈ s.cells, s.nextPredictedCellId < v.cellId
  sortKey : ∀ v ∈ s.cells, v.sortKey < s.nextLocalCellSortKey
  stableKey : ∀ v ∈ s.cells, v.stableKey < s.nextLocalStableKey
  sporeId : ∀ x ∈ s.spores, s.nextPredictedSporeId < x.id

/-! ## Sorting -/

theorem sortsBefore_iff (a b : CellView K) :
    sortsBefore a b = true ↔
      a.sortKey < b.sortKey ∨ a.sortKey = b.sortKey ∧ a.cellId ≤ b.cellId := by
  unfold sortsBefore
  split_ifs with h <;> simp only [decide_eq_true_eq] <;> omega

theorem sorted_pairwise (l : List (CellView K)) :
    (l.mergeSort sortsBefore).Pairwise fun a b => sortsBefore a b = true := by
  apply List.pairwise_mergeSort
  · intro a b c hab hbc
    rw [sortsBefore_iff] at *
    omega
  · intro a b
    rw [Bool.or_eq_true, sortsBefore_iff, sortsBefore_iff]
    omega

theorem eq_of_cellId {l : List (CellView K)} (hl : (l.map CellView.cellId).Nodup)
    {a b : CellView K} (ha : a ∈ l) (hb : b ∈ l) (h : a.cellId = b.cellId) : a = b :=
  List.inj_on_of_nodup_map hl ha hb h

theorem mem_owned {s : View K} {v : CellView K} :
    v ∈ s.owned ↔ v ∈ s.cells ∧ s.owns v = true := by
  rw [owned, List.mem_mergeSort, List.mem_filter]

theorem owned_nodup {s : View K} (hs : s.Wf) : (s.owned.map CellView.cellId).Nodup := by
  have hperm : s.owned.Perm (s.cells.filter s.owns) := List.mergeSort_perm _ _
  refine (hperm.map CellView.cellId).nodup_iff.mpr ?_
  exact hs.nodup.sublist (List.Sublist.map _ (List.filter_sublist))

/-- The own cells are the only sorted list of the cells that are collected. -/
theorem owned_eq {s : View K} {l : List (CellView K)}
    (hnodup : (s.cells.map CellView.cellId).Nodup) (hperm : (s.cells.filter s.owns).Perm l)
    (hsorted : l.Pairwise fun a b => sortsBefore a b = true) : s.owned = l := by
  have hown : s.owned.Perm l := (List.mergeSort_perm _ _).trans hperm
  refine hown.eq_of_pairwise ?_ (sorted_pairwise _) hsorted
  intro a b ha hb hab hba
  have ha' := (mem_owned.mp ha).1
  have hb' := (mem_owned.mp (hown.mem_iff.mpr hb)).1
  rw [sortsBefore_iff] at hab hba
  exact eq_of_cellId hnodup ha' hb' (by omega)

/-! ## Changed cells -/

/-- A cell has been changed, but not its keys. -/
structure Keeps (v w : CellView K) : Prop where
  cellId : w.cellId = v.cellId
  sortKey : w.sortKey = v.sortKey
  stableKey : w.stableKey = v.stableKey
  playerId : w.playerId = v.playerId
  renderInitialized : w.renderInitialized = v.renderInitialized

theorem Keeps.owns {v w : CellView K} (h : Keeps v w) (s : View K) : s.owns w = s.owns v := by
  unfold View.owns
  rw [h.playerId, h.renderInitialized]

theorem Keeps.sorts {v w v' w' : CellView K} (h : Keeps v w) (h' : Keeps v' w') :
    sortsBefore w w' = sortsBefore v v' := by
  unfold sortsBefore
  rw [h.cellId, h.sortKey, h'.cellId, h'.sortKey]

/-- The object of a cell in a list of changed cells. -/
def changed (l : List (CellView K)) (v : CellView K) : CellView K :=
  (l.find? fun w => w.cellId == v.cellId).getD v

theorem changed_of_not_mem {l : List (CellView K)} {v : CellView K}
    (h : v.cellId ∉ l.map CellView.cellId) : changed l v = v := by
  have hnone : l.find? (fun w => w.cellId == v.cellId) = none := by
    rw [List.find?_eq_none]
    intro w hw heq
    exact h (List.mem_map.mpr ⟨w, hw, by simpa using heq⟩)
  rw [changed, hnone]
  rfl

theorem map_changed {l l' : List (CellView K)} (h : List.Forall₂ Keeps l l')
    (hl : (l.map CellView.cellId).Nodup) : l.map (changed l') = l' := by
  induction h with
  | nil => rfl
  | @cons v w l l' hvw h ih =>
      obtain ⟨hv, hl⟩ := List.nodup_cons.mp hl
      have hhead : changed (w :: l') v = w := by
        simp [changed, hvw.cellId]
      have htail : l.map (changed (w :: l')) = l.map (changed l') := by
        apply List.map_congr_left
        intro u hu
        have hne : w.cellId ≠ u.cellId := by
          rintro heq
          exact hv (List.mem_map.mpr ⟨u, hu, by rw [← heq, hvw.cellId]⟩)
        simp [changed, hne]
      rw [List.map_cons, hhead, htail, ih hl]

theorem forall₂_cellIds {l l' : List (CellView K)} (h : List.Forall₂ Keeps l l') :
    l'.map CellView.cellId = l.map CellView.cellId := by
  induction h with
  | nil => rfl
  | cons hvw _ ih => simp only [List.map_cons, hvw.cellId, ih]

section Store

variable {s : View K} {l' : List (CellView K)}

/-- A cell that is stored keeps its keys. -/
theorem changed_keeps (hs : s.Wf) (h : List.Forall₂ Keeps s.owned l') {v : CellView K}
    (hv : v ∈ s.cells) : Keeps v (changed l' v) := by
  by_cases hmem : v.cellId ∈ l'.map CellView.cellId
  · rw [forall₂_cellIds h] at hmem
    obtain ⟨u, hu, hid⟩ := List.mem_map.mp hmem
    obtain rfl := eq_of_cellId hs.nodup (mem_owned.mp hu).1 hv hid
    have hmap := map_changed h (owned_nodup hs)
    have hall : ∀ {a b : List (CellView K)}, List.Forall₂ Keeps a b → ∀ f, a.map f = b →
        ∀ x ∈ a, Keeps x (f x) := by
      intro a b hab f hf x hx
      induction hab with
      | nil => cases hx
      | cons hxy _ ih =>
          rw [List.map_cons] at hf
          obtain ⟨hhead, htail⟩ := List.cons.inj hf
          rcases List.mem_cons.mp hx with rfl | hx
          · rw [hhead]
            exact hxy
          · exact ih htail hx
    exact hall h _ hmap u hu
  · rw [changed_of_not_mem hmem]
    exact ⟨rfl, rfl, rfl, rfl, rfl⟩

theorem store_cells (s : View K) (l' : List (CellView K)) :
    (s.store l').cells = s.cells.map (changed l') :=
  rfl

theorem store_cellIds (hs : s.Wf) (h : List.Forall₂ Keeps s.owned l') :
    (s.store l').cells.map CellView.cellId = s.cells.map CellView.cellId := by
  rw [store_cells, List.map_map]
  apply List.map_congr_left
  intro v hv
  exact (changed_keeps hs h hv).cellId

/-- What is collected after the own cells were stored. -/
theorem filter_store (hs : s.Wf) (h : List.Forall₂ Keeps s.owned l') :
    ((s.store l').cells.filter s.owns).Perm l' := by
  have hfilter : (s.store l').cells.filter s.owns =
      (s.cells.filter s.owns).map (changed l') := by
    rw [store_cells, List.filter_map]
    congr 1
    apply List.filter_congr
    intro v hv
    exact (changed_keeps hs h hv).owns s
  have hperm : ((s.cells.filter s.owns).map (changed l')).Perm (s.owned.map (changed l')) :=
    ((List.mergeSort_perm _ _).map _).symm
  rw [hfilter]
  rw [map_changed h (owned_nodup hs)] at hperm
  exact hperm

theorem sorted_of_keeps {l l' : List (CellView K)} (h : List.Forall₂ Keeps l l')
    (hl : l.Pairwise fun a b => sortsBefore a b = true) :
    l'.Pairwise fun a b => sortsBefore a b = true := by
  have hrel : ∀ {v w : CellView K} {l l' : List (CellView K)}, Keeps v w →
      List.Forall₂ Keeps l l' → (∀ u ∈ l, sortsBefore v u = true) →
        ∀ u ∈ l', sortsBefore w u = true := by
    intro v w l l' hvw hll hall
    induction hll with
    | nil => simp
    | cons hxy _ ih =>
        intro u hu
        rcases List.mem_cons.mp hu with rfl | hu
        · rw [hvw.sorts hxy]
          exact hall _ List.mem_cons_self
        · exact ih (fun u hu => hall u (List.mem_cons_of_mem _ hu)) u hu
  induction h with
  | nil => exact .nil
  | cons hvw hll ih =>
      obtain ⟨hhead, htail⟩ := List.pairwise_cons.mp hl
      exact List.pairwise_cons.mpr ⟨hrel hvw hll hhead, ih htail⟩

end Store

/-! ## New cells -/

theorem putCell_fresh {s : View K} {v : CellView K} (h : ∀ w ∈ s.cells, w.cellId ≠ v.cellId) :
    s.putCell v = { s with cells := s.cells ++ [v] } := by
  have hnone : ¬ (s.cells.any fun w => w.cellId == v.cellId) = true := by
    rw [List.any_eq_true]
    rintro ⟨w, hw, heq⟩
    exact h w hw (by simpa using heq)
  rw [putCell, if_neg hnone]

/-- New children stand at the end of the dictionary. -/
theorem foldl_putCell {s : View K} {new : List (CellView K)}
    (h : ((s.cells ++ new).map CellView.cellId).Nodup) :
    new.foldl putCell s = { s with cells := s.cells ++ new } := by
  induction new generalizing s with
  | nil => simp
  | cons v new ih =>
      have hfresh : ∀ w ∈ s.cells, w.cellId ≠ v.cellId := by
        intro w hw heq
        rw [List.map_append, List.nodup_append'] at h
        exact h.2.2 (List.mem_map_of_mem hw) (by rw [heq]; simp)
      have happend : (s.cells ++ [v]) ++ new = s.cells ++ v :: new := by simp
      rw [List.foldl_cons, putCell_fresh hfresh, ih (by rw [happend]; exact h)]
      simp

theorem putSpore_fresh {s : View K} {x : SporeView K} (h : ∀ y ∈ s.spores, y.id ≠ x.id) :
    s.putSpore x = { s with spores := s.spores ++ [x] } := by
  have hnone : ¬ (s.spores.any fun y => y.id == x.id) = true := by
    rw [List.any_eq_true]
    rintro ⟨y, hy, heq⟩
    exact h y hy (by simpa using heq)
  rw [putSpore, if_neg hnone]

/-- New spores stand at the end of the dictionary. -/
theorem foldl_putSpore {s : View K} {new : List (SporeView K)}
    (hfresh : ∀ x ∈ new, ∀ y ∈ s.spores, y.id ≠ x.id) (hnodup : (new.map SporeView.id).Nodup) :
    new.foldl putSpore s = { s with spores := s.spores ++ new } := by
  induction new generalizing s with
  | nil => simp
  | cons x new ih =>
      obtain ⟨hx, hnodup⟩ := List.nodup_cons.mp hnodup
      rw [List.foldl_cons, putSpore_fresh (hfresh x List.mem_cons_self), ih ?_ hnodup]
      · simp
      · intro y hy z hz
        rcases List.mem_append.mp hz with hz | hz
        · exact hfresh y (List.mem_cons_of_mem _ hy) z hz
        · obtain rfl := List.mem_singleton.mp hz
          rintro heq
          exact hx (List.mem_map.mpr ⟨y, hy, heq.symm⟩)

/-- Children with new numbers and keys. -/
structure Children (s : View K) (new : List (CellView K)) : Prop where
  nodup : (new.map CellView.cellId).Nodup
  cellId : ∀ v ∈ new, v.cellId ≤ s.nextPredictedCellId
  sortKey : ∀ v ∈ new, s.nextLocalCellSortKey ≤ v.sortKey
  sorted : new.Pairwise fun a b => sortsBefore a b = true
  owned : ∀ v ∈ new, s.owns v = true

/-- The own cells after they were changed and children were added. -/
theorem owned_store_put {s s' : View K} {l' new : List (CellView K)} (hs : s.Wf)
    (h : List.Forall₂ Keeps s.owned l') (hnew : s.Children new)
    (hcells : s'.cells = (s.store l').cells ++ new) (hme : s'.myPlayerId = s.myPlayerId) :
    s'.owned = l' ++ new ∧ (s'.cells.map CellView.cellId).Nodup := by
  have howns : s'.owns = s.owns := by
    funext v
    unfold View.owns
    rw [hme]
  have hids : ((s.store l').cells.map CellView.cellId) = s.cells.map CellView.cellId :=
    store_cellIds hs h
  have hnodup : (s'.cells.map CellView.cellId).Nodup := by
    rw [hcells, List.map_append, hids, List.nodup_append']
    refine ⟨hs.nodup, hnew.nodup, ?_⟩
    intro i hi hi'
    obtain ⟨v, hv, rfl⟩ := List.mem_map.mp hi
    obtain ⟨w, hw, heq⟩ := List.mem_map.mp hi'
    have := hs.cellId v hv
    have := hnew.cellId w hw
    omega
  refine ⟨owned_eq hnodup ?_ ?_, hnodup⟩
  · rw [hcells, howns, List.filter_append, List.filter_eq_self.mpr hnew.owned]
    exact (filter_store hs h).append_right new
  · rw [List.pairwise_append]
    refine ⟨sorted_of_keeps h (sorted_pairwise _), hnew.sorted, ?_⟩
    intro a ha b hb
    have hmem : a ∈ (s.store l').cells :=
      (List.mem_filter.mp ((filter_store hs h).mem_iff.mpr ha)).1
    obtain ⟨v, hv, rfl⟩ := List.mem_map.mp hmem
    have hkey := (changed_keeps hs h hv).sortKey
    have := hs.sortKey v hv
    have := hnew.sortKey b hb
    rw [sortsBefore_iff]
    refine .inl ?_
    simp only [changed] at hkey
    omega

/-! ## Changes -/

/-- What no frame changes, and the counters it moves on. -/
structure Fixed (s s' : View K) : Prop where
  myPlayerId : s'.myPlayerId = s.myPlayerId
  pendingInputs : s'.pendingInputs = s.pendingInputs
  latency : s'.estimatedOneWayLatencySeconds = s.estimatedOneWayLatencySeconds
  targetX : s'.authoritativeTargetX = s.authoritativeTargetX
  targetY : s'.authoritativeTargetY = s.authoritativeTargetY
  moving : s'.authoritativeMoving = s.authoritativeMoving
  cellId : s'.nextPredictedCellId ≤ s.nextPredictedCellId
  sporeId : s'.nextPredictedSporeId ≤ s.nextPredictedSporeId
  stableKey : s.nextLocalStableKey ≤ s'.nextLocalStableKey

theorem Fixed.refl (s : View K) : Fixed s s :=
  ⟨rfl, rfl, rfl, rfl, rfl, rfl, le_rfl, le_rfl, le_rfl⟩

theorem Fixed.trans {s s' s'' : View K} (h : Fixed s s') (h' : Fixed s' s'') : Fixed s s'' :=
  ⟨h'.myPlayerId.trans h.myPlayerId, h'.pendingInputs.trans h.pendingInputs,
    h'.latency.trans h.latency, h'.targetX.trans h.targetX, h'.targetY.trans h.targetY,
    h'.moving.trans h.moving, h'.cellId.trans h.cellId, h'.sporeId.trans h.sporeId,
    h.stableKey.trans h'.stableKey⟩

/-- The own cells after a change of each of them by itself. -/
theorem owned_modify {s : View K} (hs : s.Wf) {f : CellView K → CellView K}
    (hf : ∀ v, Keeps v (f v)) : (s.modifyOwned f).owned = s.owned.map f ∧
      ((s.modifyOwned f).cells.map CellView.cellId) = s.cells.map CellView.cellId := by
  have howns : (s.modifyOwned f).owns = s.owns := rfl
  have hids : ((s.modifyOwned f).cells.map CellView.cellId) = s.cells.map CellView.cellId := by
    rw [modifyOwned, List.map_map]
    apply List.map_congr_left
    intro v _
    dsimp only [Function.comp]
    split_ifs
    · exact (hf v).cellId
    · rfl
  refine ⟨owned_eq (hids ▸ hs.nodup) ?_ ?_, hids⟩
  · have hfilter : (s.modifyOwned f).cells.filter s.owns = (s.cells.filter s.owns).map f := by
      rw [modifyOwned]
      generalize s.cells = l
      induction l with
      | nil => rfl
      | cons v l ih =>
          by_cases hv : s.owns v = true
          · have hfv : s.owns (f v) = true := ((hf v).owns s).trans hv
            rw [List.map_cons, if_pos hv, List.filter_cons_of_pos hfv, ih,
              List.filter_cons_of_pos hv, List.map_cons]
          · rw [List.map_cons, if_neg hv, List.filter_cons_of_neg hv, ih,
              List.filter_cons_of_neg hv]
    rw [howns, hfilter]
    exact ((List.mergeSort_perm _ _).map f).symm
  · have hkeeps : List.Forall₂ Keeps s.owned (s.owned.map f) := by
      rw [List.forall₂_map_right_iff]
      exact List.forall₂_same.mpr fun v _ => hf v
    exact View.sorted_of_keeps hkeeps (View.sorted_pairwise _)

theorem modifyOwned_wf {s : View K} (hs : s.Wf) {f : CellView K → CellView K}
    (hf : ∀ v, Keeps v (f v)) : (s.modifyOwned f).Wf := by
  have hcell : ∀ w ∈ (s.modifyOwned f).cells, ∃ v ∈ s.cells, Keeps v w := by
    intro w hw
    obtain ⟨v, hv, rfl⟩ := List.mem_map.mp hw
    refine ⟨v, hv, ?_⟩
    split_ifs
    · exact hf v
    · exact ⟨rfl, rfl, rfl, rfl, rfl⟩
  refine ⟨(owned_modify hs hf).2 ▸ hs.nodup, ?_, ?_, ?_, hs.sporeId⟩
  · intro w hw
    obtain ⟨v, hv, h⟩ := hcell w hw
    rw [h.cellId]
    exact hs.cellId v hv
  · intro w hw
    obtain ⟨v, hv, h⟩ := hcell w hw
    rw [h.sortKey]
    exact hs.sortKey v hv
  · intro w hw
    obtain ⟨v, hv, h⟩ := hcell w hw
    rw [h.stableKey]
    exact hs.stableKey v hv

/-- Storing changed cells keeps the state well formed. -/
theorem store_wf {s s' : View K} {l' : List (CellView K)} (hs : s.Wf)
    (h : List.Forall₂ Keeps s.owned l') (hcells : s'.cells = (s.store l').cells)
    (hid : s'.nextPredictedCellId = s.nextPredictedCellId)
    (hsort : s'.nextLocalCellSortKey = s.nextLocalCellSortKey)
    (hstable : s'.nextLocalStableKey = s.nextLocalStableKey)
    (hspores : ∀ x ∈ s'.spores, s'.nextPredictedSporeId < x.id) : s'.Wf := by
  have hold : ∀ w ∈ s'.cells, ∃ v ∈ s.cells, Keeps v w := by
    intro w hw
    rw [hcells] at hw
    obtain ⟨v, hv, rfl⟩ := List.mem_map.mp hw
    exact ⟨v, hv, changed_keeps hs h hv⟩
  refine ⟨?_, ?_, ?_, ?_, hspores⟩
  · rw [hcells, store_cellIds hs h]
    exact hs.nodup
  · intro w hw
    obtain ⟨v, hv, hkeep⟩ := hold w hw
    rw [hid, hkeep.cellId]
    exact hs.cellId v hv
  · intro w hw
    obtain ⟨v, hv, hkeep⟩ := hold w hw
    rw [hsort, hkeep.sortKey]
    exact hs.sortKey v hv
  · intro w hw
    obtain ⟨v, hv, hkeep⟩ := hold w hw
    rw [hstable, hkeep.stableKey]
    exact hs.stableKey v hv

end View

end BallServer.Ball
