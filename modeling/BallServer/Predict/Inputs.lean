import BallServer.Predict.Directions

/-!
# An input on both sides

The client predicts what an input does as soon as it is sent; the scene does it when the
input has arrived.  Cells with one key share the direction that is stored under it, and then
the client throws a child or a spore in a direction of another cell.

Main results:

- Theorem {lit}`split_spec`: the split of the client over bodies.
- Theorems {lit}`serveSplit_spec` and {lit}`serveSpit_spec`: the actions of the scene.
- Theorem {lit}`input_agrees_iff`: when both sides do the same with an input.
-/

namespace BallServer.Ball

/-! ## The two sides -/

section Definitions

variable {K : Type} [Field K] [LinearOrder K] [Sqrt K]

/-- {lit}`ApplyImmediateLocalPrediction`. -/
def View.predictInput (s : View K) (input : PendingInput K) :
    View K × List (CellView K) × List (SporeView K) :=
  (s.applyControl input.targetX input.targetY input.moving).predictActions input

/-- {lit}`do_split` and {lit}`spit_spore` for some actions of a player: the scene, the new
cells and the new spores. -/
def Scene.serveActions [FloorRing K] (o : Order) (r : Nat) :
    Nat → List (Action K) → Scene K → Scene K × List Nat × List Nat
  | _, [], t => (t, [], [])
  | n, a :: as, t =>
      match a.kind with
      | .split =>
          let (t, new) := t.doSplit o (.action r n) r a
          let (t, cells, spores) := serveActions o r (n + 1) as t
          (t, new ++ cells, spores)
      | .spit =>
          let (t, new) := t.spitSpore o (.action r n) r a
          let (t, cells, spores) := serveActions o r (n + 1) as t
          (t, cells, new ++ spores)

/-- {lit}`input_frame`, and then the actions it has stored. -/
def Scene.serveInput [FloorRing K] (o : Order) (t : Scene K) (p r : Nat) (m : Scene.Input K) :
    Scene K × List Nat × List Nat :=
  let t' := t.inputFrame o p m
  Scene.serveActions o r 0
    ((t'.tables r).pendingActions.drop (t.tables r).pendingActions.length) t'

end Definitions

namespace Predict

open Scene (splitCells spitCells doSplit spitSpore serveActions serveInput)

variable {K : Type} [Field K] [LinearOrder K]

/-- The cells of a player in the order of their numbers. -/
def ids (t : Scene K) (r : Nat) : List Nat :=
  (t.tables r).cells.sort (· ≤ ·)

/-- The client's cells are those of the scene, in the same order. -/
def Corresponds (s : View K) (t : Scene K) (r : Nat) : Prop :=
  List.Forall₂ (fun v c => Same v (t.cells c)) s.owned (ids t r)

/-- The same without the boosts. -/
def Placed (s : View K) (t : Scene K) (r : Nat) : Prop :=
  List.Forall₂ (fun v c => v.renderX = (t.cells c).x ∧ v.renderY = (t.cells c).y ∧
    v.size = (t.cells c).size ∧ v.lastDirX = (t.cells c).lastDirX ∧
    v.lastDirY = (t.cells c).lastDirY) s.owned (ids t r)

/-- The two sides have done the same: the cells correspond again, and the new cells and the
new spores have the same origins. -/
structure Agrees (s : View K) (t : Scene K) (r : Nat)
    (client : View K × List (CellView K) × List (SporeView K))
    (server : Scene K × List Nat × List Nat) : Prop where
  cells : Corresponds client.1 server.1 r
  children : List.Forall₂ (fun w d => ∃ x ∈ s.owned.zip (ids t r),
    w.predictedParentStableKey = x.1.stableKey ∧ (server.1.cells d).parentId = some x.2)
      client.2.1 server.2.1
  spores : List.Forall₂ (fun w i => SameSpore w (server.1.sporeTables i) ∧
    ∃ x ∈ client.1.owned.zip (ids server.1 r), w.sourceCellId = x.1.cellId ∧
      w.predictedSourceStableKey = x.1.stableKey ∧
        (server.1.sporeTables i).sourceCellId = x.2) client.2.2 server.2.2

section Condition

variable [Sqrt K]

/-- A cell splits or spits. -/
def Acts (s : View K) (input : PendingInput K) (v : CellView K) : Prop :=
  (input.split = true ∧ v ∈ splitters viewBody (16 - s.owned.length) s.owned) ∨
    (input.spit = true ∧ (viewBody v).Spits)

/-- A cell moves towards its target, or finds no other direction than its own under its
key. -/
def KeyAgrees (input : PendingInput K) (v : CellView K) : Prop :=
  Aims input v.renderX v.renderY ∨
    ∀ d, input.cellDirs v.stableKey = some d → d = (v.lastDirX, v.lastDirY)

/-- The keys agree for every cell that acts. -/
def KeysAgree (s : View K) (input : PendingInput K) : Prop :=
  ∀ v ∈ s.owned, Acts s input v → KeyAgrees input v

end Condition

/-! ## Lists in step -/

theorem corresponds_iff {s : View K} {t : Scene K} {r : Nat} :
    Corresponds s t r ↔ s.owned.map viewBody = (ids t r).map (bodyOf t) := by
  have hlists : ∀ (l : List (CellView K)) (l' : List Nat),
      List.Forall₂ (fun v c => Same v (t.cells c)) l l' ↔ l.map viewBody = l'.map (bodyOf t) := by
    intro l
    induction l with
    | nil => intro l'; cases l' <;> simp
    | cons v l ih =>
        intro l'
        cases l' with
        | nil => simp
        | cons c l' =>
            rw [List.forall₂_cons, ih, List.map_cons, List.map_cons, List.cons.injEq, same_iff]
            rfl
  exact hlists _ _

/-- Two lists in step with the two sides of a list of pairs. -/
theorem forall₂_join {α β γ δ : Type} {P : α → γ → Prop} {Q : β → δ → Prop} {l : List α}
    {l' : List β} {xs : List (γ × δ)} (hl : List.Forall₂ P l (xs.map Prod.fst))
    (hl' : List.Forall₂ Q l' (xs.map Prod.snd)) :
    List.Forall₂ (fun a b => ∃ x ∈ xs, P a x.1 ∧ Q b x.2) l l' := by
  induction xs generalizing l l' with
  | nil =>
      cases hl
      cases hl'
      exact .nil
  | cons x xs ih =>
      cases hl with
      | cons hp hl =>
          cases hl' with
          | cons hq hl' =>
              refine .cons ⟨x, List.mem_cons_self, hp, hq⟩ ((ih hl hl').imp ?_)
              rintro a b ⟨y, hy, h⟩
              exact ⟨y, List.mem_cons_of_mem _ hy, h⟩

theorem zip_map {α β γ : Type} {f : α → γ} {g : β → γ} {l : List α} {l' : List β}
    (h : l.map f = l'.map g) :
    (l.zip l').map Prod.fst = l ∧ (l.zip l').map Prod.snd = l' ∧
      ∀ x ∈ l.zip l', f x.1 = g x.2 := by
  have hlen : l.length = l'.length := by simpa using congrArg List.length h
  refine ⟨List.map_fst_zip hlen.le, List.map_snd_zip hlen.ge, ?_⟩
  rw [← List.forall₂_eq_eq_eq, List.forall₂_map_left_iff, List.forall₂_map_right_iff] at h
  exact fun x hx => (List.forall₂_iff_zip.mp h).2 hx

theorem forall₂_and {α β : Type} {P Q : α → β → Prop} {l : List α} {l' : List β}
    (hP : List.Forall₂ P l l') (hQ : List.Forall₂ Q l l') :
    List.Forall₂ (fun a b => P a b ∧ Q a b) l l' := by
  induction hP with
  | nil => exact .nil
  | cons hp _ ih =>
      cases hQ with
      | cons hq hQ => exact .cons ⟨hp, hq⟩ (ih hQ)

section Actors

variable [Sqrt K] {α β : Type}

/-- The room for children. -/
def room (input : PendingInput K) (n : Nat) : Nat :=
  if input.split then 16 - n else 0

/-- What an input splits. -/
def splits (input : PendingInput K) (body : α → Body K) (l : List α) : List α :=
  splitters body (room input l.length) l

/-- What an input lets spit. -/
def spits (input : PendingInput K) (body : α → Body K) (l : List α) : List α :=
  if input.spit then spitters body l else []

/-- The body after an input that may let it spit. -/
def Body.lighter (input : PendingInput K) (b : Body K) : Body K :=
  if input.spit = true ∧ b.Spits then b.small else b

theorem lighter_dir (input : PendingInput K) (b : Body K) :
    (b.lighter input).dirX = b.dirX ∧ (b.lighter input).dirY = b.dirY := by
  unfold Body.lighter
  split_ifs <;> exact ⟨rfl, rfl⟩

omit [Sqrt K] in
/-- Two lists with the same bodies let the same places act. -/
theorem splits_zip (input : PendingInput K) {body : α → Body K} {body' : β → Body K}
    {l : List α} {l' : List β} (h : l.map body = l'.map body') :
    ∃ xs : List (α × β), xs.map Prod.fst = splits input body l ∧
      xs.map Prod.snd = splits input body' l' ∧ (∀ x ∈ xs, x ∈ l.zip l') ∧
      ∀ x ∈ xs, body x.1 = body' x.2 := by
  have hlen : l.length = l'.length := by simpa using congrArg List.length h
  obtain ⟨hfst, hsnd, hbody⟩ := zip_map h
  have hsize : ∀ x ∈ l.zip l', (body x.1).size = (body' x.2).size :=
    fun x hx => congrArg Body.size (hbody x hx)
  have hmem : ∀ x ∈ splitters (fun x => body x.1) (room input l.length) (l.zip l'),
      x ∈ l.zip l' := fun x hx => List.mem_of_mem_filter (List.mem_of_mem_take hx)
  refine ⟨splitters (fun x => body x.1) (room input l.length) (l.zip l'), ?_, ?_, hmem,
    fun x hx => hbody x (hmem x hx)⟩
  · rw [← splitters_map, hfst]
    rfl
  · rw [splitters_congr _ _ hsize, ← splitters_map, hsnd, hlen]
    rfl

omit [Sqrt K] in
theorem spits_zip (input : PendingInput K) {body : α → Body K} {body' : β → Body K}
    {l : List α} {l' : List β} (h : l.map body = l'.map body') :
    ∃ xs : List (α × β), xs.map Prod.fst = spits input body l ∧
      xs.map Prod.snd = spits input body' l' ∧ (∀ x ∈ xs, x ∈ l.zip l') ∧
      ∀ x ∈ xs, body x.1 = body' x.2 := by
  obtain ⟨hfst, hsnd, hbody⟩ := zip_map h
  have hsize : ∀ x ∈ l.zip l', (body x.1).size = (body' x.2).size :=
    fun x hx => congrArg Body.size (hbody x hx)
  by_cases hspit : input.spit = true
  · have hmem : ∀ x ∈ spitters (fun x => body x.1) (l.zip l'), x ∈ l.zip l' :=
      fun x hx => List.mem_of_mem_filter hx
    refine ⟨spitters (fun x => body x.1) (l.zip l'), ?_, ?_, hmem,
      fun x hx => hbody x (hmem x hx)⟩
    · rw [spits, if_pos hspit, ← spitters_map, hfst]
    · rw [spits, if_pos hspit, spitters_congr _ hsize, ← spitters_map, hsnd]
  · refine ⟨[], ?_, ?_, nofun, nofun⟩
    · rw [spits, if_neg hspit]
      rfl
    · rw [spits, if_neg hspit]
      rfl

omit [Sqrt K] in
theorem mem_splits {input : PendingInput K} {body : α → Body K} {m : List α} {x : α} :
    x ∈ splits input body m ↔ input.split = true ∧ x ∈ splitters body (16 - m.length) m := by
  unfold splits room
  split_ifs with hsplit
  · exact ⟨fun h => ⟨hsplit, h⟩, fun h => h.2⟩
  · simp [splitters, hsplit]

omit [Sqrt K] in
theorem mem_spits {input : PendingInput K} {body : α → Body K} {m : List α} {x : α} :
    x ∈ spits input body m ↔ input.spit = true ∧ x ∈ m ∧ (body x).Spits := by
  unfold spits
  split_ifs with hspit
  · simp [spitters, hspit]
  · simp [hspit]

omit [Sqrt K] in
theorem mem_of_mem_splitters {body : α → Body K} {n : Nat} {m : List α} {x : α}
    (h : x ∈ splitters body n m) : x ∈ m :=
  List.mem_of_mem_filter (List.mem_of_mem_take h)

theorem forall₂_right {R : α → β → Prop} {m : List α} {m' : List β}
    (h : List.Forall₂ R m m') {b : β} (hb : b ∈ m') : ∃ a ∈ m, R a b := by
  induction h with
  | nil => simp at hb
  | cons hab _ ih =>
      rcases List.mem_cons.mp hb with rfl | hb
      · exact ⟨_, List.mem_cons_self, hab⟩
      · obtain ⟨a, ha, hr⟩ := ih hb
        exact ⟨a, List.mem_cons_of_mem _ ha, hr⟩

end Actors

/-! ## The client -/

section Client

variable [Sqrt K]

theorem splitViews_full (s : View K) (input : PendingInput K) (hfull : 16 ≤ s.owned.length)
    (l : List (CellView K)) : s.splitViews input s.owned.length 0 l = (l, []) := by
  induction l with
  | nil => rfl
  | cons v l ih => rw [View.splitViews, if_pos (.inr (by omega)), ih]

/-- {lit}`PredictSplitAction` puts the children behind the cells that it has changed. -/
theorem predictSplitAction_eq (s : View K) (input : PendingInput K) (hs : s.Wf) :
    let r := s.splitViews input s.owned.length 0 s.owned
    (s.predictSplitAction input).2 = r.2 ∧
      (s.predictSplitAction input).1.owned = r.1 ++ r.2 ∧
      (s.predictSplitAction input).1.Wf ∧ View.Fixed s (s.predictSplitAction input).1 ∧
      (s.predictSplitAction input).1.spores = s.spores := by
  intro r
  obtain ⟨-, hkeeps, -, hnew, hbound, hpairs⟩ :=
    splitViews_spec s input s.owned.length 0 s.owned
  have hchildren : s.Children r.2 := by
    refine ⟨?_, ?_, ?_, ?_, fun w hw => (hnew w hw).2.2.2⟩
    · rw [List.nodup_iff_pairwise_ne, List.pairwise_map]
      exact hpairs.imp fun h => h.1.ne'
    · intro w hw
      simpa using (hnew w hw).1
    · intro w hw
      simpa using (hnew w hw).2.1
    · refine hpairs.imp fun h => ?_
      rw [View.sortsBefore_iff]
      exact .inl h.2
  have hnodup : (((s.store r.1).cells ++ r.2).map CellView.cellId).Nodup := by
    let s' : View K := { s with cells := (s.store r.1).cells ++ r.2 }
    have h : s'.owned = r.1 ++ r.2 ∧ (s'.cells.map CellView.cellId).Nodup :=
      View.owned_store_put hs hkeeps hchildren rfl rfl
    exact h.2
  have hput := View.foldl_putCell hnodup
  by_cases hstop : s.owned = [] ∨ 16 ≤ s.owned.length
  · have hnone : r = (s.owned, []) := by
      rcases hstop with hnil | hfull
      · simp only [r, hnil, View.splitViews]
      · exact splitViews_full s input hfull s.owned
    rw [View.predictSplitAction, if_pos hstop, hnone]
    exact ⟨rfl, (List.append_nil _).symm, hs, .refl s, rfl⟩
  · have hq : s.predictSplitAction input =
        ({ r.2.foldl View.putCell (s.store r.1) with
            nextPredictedCellId := s.nextPredictedCellId - r.2.length
            nextLocalCellSortKey := s.nextLocalCellSortKey + r.2.length
            nextLocalStableKey := s.nextLocalStableKey + r.2.length }, r.2) := by
      rw [View.predictSplitAction, if_neg hstop]
    have hcells : (s.predictSplitAction input).1.cells = (s.store r.1).cells ++ r.2 := by
      rw [hq]
      exact congrArg View.cells hput
    have hme : (s.predictSplitAction input).1.myPlayerId = s.myPlayerId := by
      rw [hq]
      change (r.2.foldl View.putCell (s.store r.1)).myPlayerId = _
      rw [hput]
      rfl
    have hspores : (s.predictSplitAction input).1.spores = s.spores := by
      rw [hq]
      change (r.2.foldl View.putCell (s.store r.1)).spores = _
      rw [hput]
      rfl
    have hnextSpore : (s.predictSplitAction input).1.nextPredictedSporeId =
        s.nextPredictedSporeId := by
      rw [hq]
      change (r.2.foldl View.putCell (s.store r.1)).nextPredictedSporeId = _
      rw [hput]
      rfl
    have hold : ∀ w ∈ (s.store r.1).cells, ∃ v ∈ s.cells, View.Keeps v w := by
      intro w hw
      obtain ⟨v, hv, rfl⟩ := List.mem_map.mp hw
      exact ⟨v, hv, View.changed_keeps hs hkeeps hv⟩
    have hfixed : View.Fixed s (s.predictSplitAction input).1 := by
      rw [hq, hput]
      refine ⟨rfl, rfl, rfl, rfl, rfl, rfl, ?_, le_rfl, ?_⟩
      · change s.nextPredictedCellId - r.2.length ≤ s.nextPredictedCellId
        omega
      · change s.nextLocalStableKey ≤ s.nextLocalStableKey + r.2.length
        omega
    refine ⟨by rw [hq], (View.owned_store_put hs hkeeps hchildren hcells hme).1, ?_, hfixed,
      hspores⟩
    refine ⟨by rw [hcells]; exact hnodup, ?_, ?_, ?_, by rw [hspores, hnextSpore]; exact hs.sporeId⟩
    · rw [hcells, hq]
      intro w hw
      rcases List.mem_append.mp hw with hw | hw
      · obtain ⟨v, hv, h⟩ := hold w hw
        have := hs.cellId v hv
        rw [h.cellId]
        dsimp only
        omega
      · have := (hbound w hw).1
        simp only [Nat.cast_zero, sub_zero] at this
        exact this
    · rw [hcells, hq]
      intro w hw
      rcases List.mem_append.mp hw with hw | hw
      · obtain ⟨v, hv, h⟩ := hold w hw
        have := hs.sortKey v hv
        rw [h.sortKey]
        dsimp only
        omega
      · have := (hbound w hw).2.1
        simp only [Nat.cast_zero, add_zero] at this
        exact this
    · rw [hcells, hq]
      intro w hw
      rcases List.mem_append.mp hw with hw | hw
      · obtain ⟨v, hv, h⟩ := hold w hw
        have := hs.stableKey v hv
        rw [h.stableKey]
        dsimp only
        omega
      · have := (hbound w hw).2.2
        simp only [Nat.cast_zero, add_zero] at this
        exact this

/-- {lit}`PredictSplitAction`, if the input asks for it: the cells, with what is split
halved, and behind them the children with new keys. -/
theorem split_spec {s : View K} (hs : s.Wf) (input : PendingInput K) [DecidableEq (CellView K)] :
    let q := if input.split then s.predictSplitAction input else (s, [])
    ∃ l, q.1.owned = l ++ q.2 ∧ q.1.Wf ∧
      List.Forall₂ (fun v w => View.Keeps v w ∧ viewBody w =
        if v ∈ splits input viewBody s.owned then (viewBody v).half else viewBody v) s.owned l ∧
      List.Forall₂ (fun w v => viewBody w =
          (viewBody v).half.child (getActionDirForCell v input) ∧
          w.predictedParentStableKey = v.stableKey) q.2 (splits input viewBody s.owned) ∧
      ∀ w ∈ q.2, s.nextLocalStableKey ≤ w.stableKey := by
  intro q
  by_cases hsplit : input.split = true
  · have hq : q = s.predictSplitAction input := if_pos hsplit
    have hsplits : splits input viewBody s.owned =
        splitters viewBody (16 - s.owned.length) s.owned := by
      rw [splits, room, if_pos hsplit]
    obtain ⟨hnew, howned, hwf, -, -⟩ := predictSplitAction_eq s input hs
    obtain ⟨hbodies, hkeeps, hchildren, hkeys, -, -⟩ :=
      splitViews_spec s input s.owned.length 0 s.owned
    have hnodup : s.owned.Nodup := (View.owned_nodup hs).of_map
    rw [Nat.add_zero] at hbodies hchildren
    rw [splitList_halves _ _ _ hnodup] at hbodies
    rw [splitList_from, List.forall₂_map_right_iff] at hchildren
    rw [hq, hsplits]
    refine ⟨_, by rw [hnew]; exact howned, hwf, ?_, by rw [hnew]; exact hchildren, ?_⟩
    · have hmap := List.forall₂_eq_eq_eq ▸ hbodies.symm
      rw [List.forall₂_map_left_iff, List.forall₂_map_right_iff] at hmap
      exact (forall₂_and hkeeps hmap).imp fun v w h => ⟨h.1, h.2.symm⟩
    · rw [hnew]
      intro w hw
      simpa using (hkeys w hw).2.2.1
  · have hq : q = (s, []) := if_neg hsplit
    have hsplits : splits input viewBody s.owned = [] := by
      rw [splits, room, if_neg hsplit]
      rfl
    rw [hq, hsplits]
    refine ⟨s.owned, (List.append_nil _).symm, hs, ?_, .nil, by simp⟩
    exact List.forall₂_same.mpr fun v _ => ⟨⟨rfl, rfl, rfl, rfl, rfl⟩, by simp⟩

/-- {lit}`PredictSpitAction` puts the spores behind those that there are. -/
theorem predictSpitAction_eq (s : View K) (input : PendingInput K) (hs : s.Wf) :
    let r := s.spitViews input 0 s.owned
    (s.predictSpitAction input).2 = r.2 ∧ (s.predictSpitAction input).1.owned = r.1 ∧
      (s.predictSpitAction input).1.spores = s.spores ++ r.2 ∧
      (s.predictSpitAction input).1.Wf ∧ View.Fixed s (s.predictSpitAction input).1 := by
  intro r
  obtain ⟨-, hkeeps, -, hids, hpairs⟩ := spitViews_spec s input 0 s.owned
  have hno : s.Children [] := ⟨by simp, by simp, by simp, .nil, by simp⟩
  have hput : r.2.foldl View.putSpore (s.store r.1) =
      { s.store r.1 with spores := (s.store r.1).spores ++ r.2 } := by
    apply View.foldl_putSpore
    · intro x hx y hy heq
      have h1 := hs.sporeId y hy
      have h2 := hids x hx
      simp only [Nat.cast_zero, sub_zero] at h2
      omega
    · rw [List.nodup_iff_pairwise_ne, List.pairwise_map]
      exact hpairs.imp fun h => h.ne'
  have hq : s.predictSpitAction input =
      ({ s.store r.1 with
          spores := s.spores ++ r.2
          nextPredictedSporeId := s.nextPredictedSporeId - r.2.length }, r.2) := by
    change (({ r.2.foldl View.putSpore (s.store r.1) with
      nextPredictedSporeId := s.nextPredictedSporeId - r.2.length } : View K), r.2) = _
    rw [hput]
    rfl
  rw [hq]
  refine ⟨rfl, ?_, rfl, View.store_wf hs hkeeps rfl rfl rfl rfl ?_,
    rfl, rfl, rfl, rfl, rfl, rfl, le_rfl, ?_, le_rfl⟩
  · have h := (View.owned_store_put hs hkeeps hno (List.append_nil _).symm rfl).1
    rw [List.append_nil] at h
    exact h
  · intro x hx
    rcases List.mem_append.mp hx with hx | hx
    · have := hs.sporeId x hx
      dsimp only
      omega
    · have := spitViews_bound s input 0 s.owned x hx
      simp only [Nat.cast_zero, sub_zero] at this
      exact this
  · change s.nextPredictedSporeId - r.2.length ≤ s.nextPredictedSporeId
    omega

/-- {lit}`PredictSpitAction`, if the input asks for it. -/
theorem spit_spec {s : View K} (hs : s.Wf) (input : PendingInput K) :
    let q := if input.spit then s.predictSpitAction input else (s, [])
    List.Forall₂ View.Keeps s.owned q.1.owned ∧
      q.1.owned.map viewBody = s.owned.map (fun v => (viewBody v).lighter input) ∧
      List.Forall₂ (fun w v => viewPlace w =
          (viewBody v).small.spore (getActionDirForCell v input) ∧
          w.predictedSourceStableKey = v.stableKey ∧ w.sourceCellId = v.cellId) q.2
        (spits input viewBody s.owned) := by
  intro q
  have hrefl : List.Forall₂ View.Keeps s.owned s.owned :=
    List.forall₂_same.mpr fun _ _ => ⟨rfl, rfl, rfl, rfl, rfl⟩
  by_cases hspit : input.spit = true
  · have hq : q = s.predictSpitAction input := if_pos hspit
    obtain ⟨hbodies, hkeeps, hspores, -, -⟩ := spitViews_spec s input 0 s.owned
    obtain ⟨hnew, howned, -, -, -⟩ := predictSpitAction_eq s input hs
    rw [← hq] at hnew howned
    rw [spitList_bodies] at hbodies
    rw [spitList_from, List.forall₂_map_right_iff] at hspores
    rw [howned, hnew, spits, if_pos hspit]
    refine ⟨hkeeps, ?_, hspores⟩
    rw [hbodies]
    simp only [Body.lighter, hspit, true_and]
  · have hq : q = (s, []) := if_neg hspit
    rw [hq, spits, if_neg hspit]
    refine ⟨hrefl, ?_, .nil⟩
    simp only [Body.lighter, hspit, false_and, if_false, Bool.false_eq_true]

end Client

/-! ## The scene -/

section Server

variable [FloorRing K] [Sqrt K]

omit [FloorRing K] [Sqrt K] in
@[simp]
theorem mem_ids {t : Scene K} {r c : Nat} : c ∈ ids t r ↔ c ∈ (t.tables r).cells :=
  Finset.mem_sort _

omit [FloorRing K] [Sqrt K] in
theorem ids_nodup (t : Scene K) (r : Nat) : (ids t r).Nodup :=
  Finset.sort_nodup _ _

omit [FloorRing K] [Sqrt K] in
theorem ids_pairwise (t : Scene K) (r : Nat) : (ids t r).Pairwise (· ≤ ·) :=
  Finset.pairwise_sort _ _

omit [FloorRing K] [Sqrt K] in
theorem ids_length (t : Scene K) (r : Nat) : (ids t r).length = (t.tables r).cells.card :=
  Finset.length_sort _

omit [FloorRing K] [Sqrt K] in
theorem sortBy_ids (o : Order) (site : Site) (t : Scene K) (r : Nat) (q : Nat → Bool) :
    sortBy id ((o.pairs site (t.tables r).cells).filter q) = (ids t r).filter q := by
  have hperm : ((o.pairs site (t.tables r).cells).filter q).Perm ((ids t r).filter q) := by
    refine (List.perm_ext_iff_of_nodup ((o.nodup_pairs _ _).filter _)
      ((ids_nodup t r).filter _)).mpr fun c => ?_
    simp [o.mem_pairs]
  have hsorted := sortBy_pairwise id ((o.pairs site (t.tables r).cells).filter q)
  exact ((sortBy_perm id _).trans hperm).eq_of_pairwise
    (fun a b _ _ hab hba => Nat.le_antisymm hab hba) hsorted
    ((ids_pairwise t r).filter _)

omit [FloorRing K] in
theorem doSplit_eq (o : Order) (site : Site) (t : Scene K) (r : Nat) (a : Action K) :
    doSplit o site t r a =
      splitCells a r ((ids t r).filter fun c => decide (4 ≤ (t.cells c).size)) t := by
  unfold doSplit
  rw [sortBy_ids]
  by_cases hfull : 16 ≤ (t.tables r).cells.card
  · rw [if_pos hfull]
    cases (ids t r).filter fun c => decide (4 ≤ (t.cells c).size) with
    | nil => rfl
    | cons c cs => rw [splitCells, if_pos hfull]
  · rw [if_neg hfull]

omit [FloorRing K] in
theorem spitSpore_eq (o : Order) (site : Site) (t : Scene K) (r : Nat) (a : Action K) :
    spitSpore o site t r a = spitCells a r (ids t r) t := by
  unfold spitSpore
  have h := sortBy_ids o site t r fun _ => true
  simp only [List.filter_true] at h
  rw [h]

omit [FloorRing K] [Sqrt K] in
/-- New cells have the highest numbers. -/
theorem ids_union {t u : Scene K} {r n : Nat} {new : List Nat}
    (hle : ∀ c ∈ (t.tables r).cells, c ≤ t.cellMaxid)
    (hnew : new = List.range' (t.cellMaxid + 1) n)
    (htable : (u.tables r).cells = (t.tables r).cells ∪ new.toFinset) :
    ids u r = ids t r ++ new := by
  have hgt : ∀ d ∈ new, t.cellMaxid < d := by
    intro d hd
    rw [hnew, List.mem_range'_1] at hd
    omega
  have hnodup : (ids t r ++ new).Nodup := by
    rw [List.nodup_append']
    refine ⟨ids_nodup t r, hnew ▸ List.nodup_range', ?_⟩
    intro c hc hc'
    have := hle c (mem_ids.mp hc)
    have := hgt c hc'
    omega
  have hperm : (ids u r).Perm (ids t r ++ new) := by
    refine (List.perm_ext_iff_of_nodup (ids_nodup u r) hnodup).mpr fun c => ?_
    simp [htable]
  refine hperm.eq_of_pairwise (fun a b _ _ hab hba => Nat.le_antisymm hab hba)
    (ids_pairwise u r) ?_
  rw [List.pairwise_append]
  refine ⟨ids_pairwise t r, ?_, ?_⟩
  · rw [hnew]
    exact (List.pairwise_lt_range' 1).imp fun h => h.le
  · intro c hc d hd
    have := hle c (mem_ids.mp hc)
    have := hgt d hd
    omega

variable [IsStrictOrderedRing K] [LawfulSqrt K]

/-- A snapshot gives every old cell, and every new one, the direction of its body. -/
theorem Snapshot.dirOf {a : Action K} {kind : ActionKind} {input : PendingInput K} {t u : Scene K}
    {r : Nat} (h : Snapshot a kind input t r)
    (hkeep : ∀ c ∈ (t.tables r).cells, (u.cells c).lastDirX = (t.cells c).lastDirX ∧
      (u.cells c).lastDirY = (t.cells c).lastDirY) (c : Nat) :
    Predict.dirOf a u c = aimDir input (bodyOf u c) := by
  refine dirOf_eq h.targetX h.targetY h.moving ?_
  intro d hd
  rw [h.cellDirs] at hd
  split_ifs at hd with hc
  obtain rfl := Option.some.inj hd
  rw [(hkeep c hc).1, (hkeep c hc).2]

/-- {lit}`do_split` over bodies. -/
theorem serveSplit_spec (o : Order) (site : Site) {a : Action K} {input : PendingInput K}
    {t : Scene K} {r : Nat} (h : Snapshot a .split input t r)
    (hle : ∀ c ∈ (t.tables r).cells, c ≤ t.cellMaxid) :
    let u := doSplit o site t r a
    let b := splitList (bodyOf t) (fun c => aimDir input (bodyOf t c)) (16 - (ids t r).length)
      (ids t r)
    ids u.1 r = ids t r ++ u.2 ∧ (ids t r).map (bodyOf u.1) = b.1 ∧
      List.Forall₂ (fun d x => bodyOf u.1 d = x.2 ∧ (u.1.cells d).parentId = some x.1) u.2 b.2 := by
  have hdir : ∀ c, Predict.dirOf a t c = aimDir input (bodyOf t c) :=
    h.dirOf fun c _ => ⟨rfl, rfl⟩
  have hmem : ∀ c ∈ ids t r, c ≤ t.cellMaxid := fun c hc => hle c (mem_ids.mp hc)
  obtain ⟨hbodies, hchildren, hrange, -, -, htable, -⟩ :=
    splitCells_bodies a r (ids_nodup t r) hmem hle
  have hlist : splitList (bodyOf t) (Predict.dirOf a t) (16 - (t.tables r).cells.card) (ids t r) =
      splitList (bodyOf t) (fun c => aimDir input (bodyOf t c)) (16 - (ids t r).length)
        (ids t r) := by
    rw [ids_length]
    exact splitList_congr _ _ _ fun c _ => ⟨rfl, hdir c⟩
  dsimp only
  rw [doSplit_eq]
  refine ⟨ids_union hle hrange htable, ?_, ?_⟩
  · rw [← hlist]
    exact hbodies
  · rw [← hlist]
    exact hchildren

/-- {lit}`spit_spore` over bodies. -/
theorem serveSpit_spec (o : Order) (site : Site) {a : Action K} {input : PendingInput K}
    {t u : Scene K} {r : Nat} (h : Snapshot a .spit input t r)
    (hkeep : ∀ c ∈ (t.tables r).cells, (u.cells c).lastDirX = (t.cells c).lastDirX ∧
      (u.cells c).lastDirY = (t.cells c).lastDirY) :
    let w := spitSpore o site u r a
    let b := spitList (bodyOf u) (fun c => aimDir input (bodyOf u c)) (ids u r)
    ids w.1 r = ids u r ∧ (ids u r).map (bodyOf w.1) = b.1 ∧
      List.Forall₂ (fun i x => sporePlace (w.1.sporeTables i) = x.2 ∧
        (w.1.sporeTables i).sourceCellId = x.1) w.2 b.2 ∧
      ∀ c, (w.1.cells c).parentId = (u.cells c).parentId := by
  have hdir : ∀ c, Predict.dirOf a u c = aimDir input (bodyOf u c) := h.dirOf hkeep
  have hlist : spitList (bodyOf u) (Predict.dirOf a u) (ids u r) =
      spitList (bodyOf u) (fun c => aimDir input (bodyOf u c)) (ids u r) :=
    spitList_congr _ _ fun c _ => ⟨rfl, hdir c⟩
  obtain ⟨hbodies, hspores, -, -, hparent, htables⟩ :=
    spitCells_places a r (t := u) (ids_nodup u r)
  dsimp only
  rw [spitSpore_eq]
  refine ⟨?_, ?_, ?_, hparent⟩
  · exact congrArg (fun g => (g r).cells.sort (· ≤ ·)) htables
  · rw [← hlist]
    exact hbodies
  · rw [← hlist]
    exact hspores

/-- What an input does to the scene, once its actions are stored. -/
structure Served (input : PendingInput K) (t : Scene K) (r : Nat) (u : Scene K)
    (q : Scene K × List Nat × List Nat) : Prop where
  ids : ids u r = ids t r ++ q.2.1
  bodies : (Predict.ids t r).map (bodyOf u) = (Predict.ids t r).map fun c =>
    if c ∈ splits input (bodyOf t) (Predict.ids t r) then (bodyOf t c).half else bodyOf t c
  children : List.Forall₂ (fun d c =>
    bodyOf u d = (bodyOf t c).half.child (aimDir input (bodyOf t c)) ∧
      (u.cells d).parentId = some c) q.2.1 (splits input (bodyOf t) (Predict.ids t r))
  idsAfter : Predict.ids q.1 r = Predict.ids u r
  bodiesAfter : (Predict.ids u r).map (bodyOf q.1) =
    (Predict.ids u r).map fun c => (bodyOf u c).lighter input
  spores : List.Forall₂ (fun i c =>
    sporePlace (q.1.sporeTables i) = (bodyOf u c).small.spore (aimDir input (bodyOf u c)) ∧
      (q.1.sporeTables i).sourceCellId = c) q.2.2 (spits input (bodyOf u) (Predict.ids u r))
  parents : ∀ c, (q.1.cells c).parentId = (u.cells c).parentId

/-- The part of the actions that splits. -/
theorem served_split (o : Order) (site : Site) {a : Action K} {input : PendingInput K}
    {t : Scene K} {r : Nat} (h : Snapshot a .split input t r)
    (hle : ∀ c ∈ (t.tables r).cells, c ≤ t.cellMaxid) :
    let u := if input.split then doSplit o site t r a else (t, [])
    ids u.1 r = ids t r ++ u.2 ∧
      (ids t r).map (bodyOf u.1) = ((ids t r).map fun c =>
        if c ∈ splits input (bodyOf t) (ids t r) then (bodyOf t c).half else bodyOf t c) ∧
      List.Forall₂ (fun d c => bodyOf u.1 d = (bodyOf t c).half.child (aimDir input (bodyOf t c)) ∧
        (u.1.cells d).parentId = some c) u.2 (splits input (bodyOf t) (ids t r)) := by
  intro u
  by_cases hsplit : input.split = true
  · have hu : u = doSplit o site t r a := if_pos hsplit
    obtain ⟨hids, hbodies, hchildren⟩ := serveSplit_spec o site h hle
    rw [splitList_halves _ _ _ (ids_nodup t r)] at hbodies
    rw [splitList_from, List.forall₂_map_right_iff] at hchildren
    rw [hu, splits, room, if_pos hsplit]
    exact ⟨hids, hbodies, hchildren⟩
  · have hu : u = (t, []) := if_neg hsplit
    have hsplits : splits input (bodyOf t) (ids t r) = [] := by
      rw [splits, room, if_neg hsplit]
      rfl
    rw [hu, hsplits]
    exact ⟨(List.append_nil _).symm, by simp, .nil⟩

/-- The part of the actions that spits. -/
theorem served_spit (o : Order) (site : Site) {a : Action K} {input : PendingInput K}
    {t u : Scene K} {r : Nat} (h : Snapshot a .spit input t r)
    (hkeep : ∀ c ∈ (t.tables r).cells, (u.cells c).lastDirX = (t.cells c).lastDirX ∧
      (u.cells c).lastDirY = (t.cells c).lastDirY) :
    let q := if input.spit then spitSpore o site u r a else (u, [])
    ids q.1 r = ids u r ∧
      (ids u r).map (bodyOf q.1) = ((ids u r).map fun c => (bodyOf u c).lighter input) ∧
      List.Forall₂ (fun i c =>
        sporePlace (q.1.sporeTables i) = (bodyOf u c).small.spore (aimDir input (bodyOf u c)) ∧
          (q.1.sporeTables i).sourceCellId = c) q.2 (spits input (bodyOf u) (ids u r)) ∧
      ∀ c, (q.1.cells c).parentId = (u.cells c).parentId := by
  intro q
  by_cases hspit : input.spit = true
  · have hq : q = spitSpore o site u r a := if_pos hspit
    obtain ⟨hids, hbodies, hspores, hparents⟩ := serveSpit_spec o site h hkeep
    rw [spitList_bodies] at hbodies
    rw [spitList_from, List.forall₂_map_right_iff] at hspores
    rw [hq, spits, if_pos hspit]
    refine ⟨hids, ?_, hspores, hparents⟩
    rw [hbodies]
    simp only [Body.lighter, hspit, true_and]
  · have hq : q = (u, []) := if_neg hspit
    rw [hq, spits, if_neg hspit]
    refine ⟨rfl, ?_, .nil, fun _ => rfl⟩
    simp only [Body.lighter, hspit, false_and, if_false, Bool.false_eq_true]

omit [LinearOrder K] [FloorRing K] [IsStrictOrderedRing K] [LawfulSqrt K] in
/-- Halving keeps the direction. -/
theorem half_dir (b : Body K) (P : Prop) [Decidable P] :
    (if P then b.half else b).dirX = b.dirX ∧ (if P then b.half else b).dirY = b.dirY := by
  split_ifs <;> exact ⟨rfl, rfl⟩

/-- The actions of an input. -/
theorem serveActions_spec (o : Order) {as : List (Action K)} {input : PendingInput K}
    {t : Scene K} {r : Nat} (h : Asked as input t r)
    (hle : ∀ c ∈ (t.tables r).cells, c ≤ t.cellMaxid) :
    ∃ u, Served input t r u (serveActions o r 0 as t) := by
  obtain ⟨a, b, ha, hb, has⟩ := h.actions
  obtain ⟨u, hu⟩ : ∃ u, u = if input.split then doSplit o (.action r 0) t r a else (t, []) :=
    ⟨_, rfl⟩
  have hsplit := served_split o (.action r 0) ha hle
  rw [← hu] at hsplit
  obtain ⟨hids, hbodies, hchildren⟩ := hsplit
  have hkeep : ∀ c ∈ (t.tables r).cells, (u.1.cells c).lastDirX = (t.cells c).lastDirX ∧
      (u.1.cells c).lastDirY = (t.cells c).lastDirY := by
    intro c hc
    have hbody := List.map_inj_left.mp hbodies c (mem_ids.mpr hc)
    obtain ⟨hx, hy⟩ := half_dir (bodyOf t c) (c ∈ splits input (bodyOf t) (ids t r))
    exact ⟨(congrArg Body.dirX hbody).trans hx, (congrArg Body.dirY hbody).trans hy⟩
  obtain ⟨site, hsite⟩ : ∃ site, site = Site.action r (if input.split then 1 else 0) := ⟨_, rfl⟩
  obtain ⟨q, hq⟩ : ∃ q, q = if input.spit then spitSpore o site u.1 r b else (u.1, []) :=
    ⟨_, rfl⟩
  have hspit := served_spit o site hb hkeep
  rw [← hq] at hspit
  obtain ⟨hidsAfter, hafter, hspores, hparents⟩ := hspit
  have hserve : serveActions o r 0 as t = (q.1, u.2, q.2) := by
    rw [has, hq, hsite, hu]
    cases input.split <;> cases input.spit <;>
      simp [serveActions, ha.kind, hb.kind]
  rw [hserve]
  refine ⟨u.1, ?_⟩
  exact ⟨hids, hbodies, hchildren, hidsAfter, hafter, hspores, hparents⟩

end Server

end Predict

end BallServer.Ball
