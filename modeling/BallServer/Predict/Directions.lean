import BallServer.Predict.Actions
import Mathlib.Tactic.Positivity

/-!
# Directions on both sides

A cell acts towards the target while it moves, and otherwise in the direction in which it
moved last.  The scene keeps that direction for each cell, the client for each key.

Main results:

- Definition {lit}`aimDir`: the direction of a body.
- Theorem {lit}`dirOf_eq`: the direction the scene takes.
- Theorem {lit}`clientDir_eq_iff`: when the client takes it too.
- Theorems {lit}`owned_applyControl` and {lit}`inputFrame_spec`: both turn the cells alike.
-/

namespace BallServer.Ball

namespace Predict

open Scene (turnCell inputFrame inputAction getCellActionDir)

variable {K : Type} [Field K] [LinearOrder K] [IsStrictOrderedRing K] [Sqrt K] [LawfulSqrt K]

/-! ## Lengths -/

theorem sqrt_gt_iff {m : K} (hm : 0 ≤ m) : sqrt m > 0.001 ↔ m > 0.000001 := by
  have hsq := LawfulSqrt.mul_self_sqrt m hm
  have hnonneg := LawfulSqrt.sqrt_nonneg m
  have hpos : (0 : K) < 0.001 := by norm_num
  have hprod : (0.001 : K) * 0.001 = 0.000001 := by norm_num
  constructor
  · intro h
    rw [← hsq, ← hprod]
    exact mul_self_lt_mul_self hpos.le h
  · intro h
    by_contra hle
    have hle' := mul_self_le_mul_self hnonneg (not_lt.mp hle)
    rw [hsq, hprod] at hle'
    exact absurd h (not_lt.mpr hle')

omit [Sqrt K] [LawfulSqrt K] in
theorem sumSq_nonneg (dx dy : K) : 0 ≤ dx * dx + dy * dy :=
  add_nonneg (mul_self_nonneg dx) (mul_self_nonneg dy)

theorem sqrt_one : sqrt (1 : K) = 1 := by
  have hsq := LawfulSqrt.mul_self_sqrt (1 : K) zero_le_one
  have hnonneg := LawfulSqrt.sqrt_nonneg (1 : K)
  nlinarith

/-- A direction of length one. -/
def Unit (d : K × K) : Prop :=
  sqrMagnitude d = 1

theorem normalized_unit {d : K × K} (h : Unit d) : normalized d = d := by
  unfold normalized
  rw [h, sqrt_one, if_pos (by norm_num)]
  simp

/-- A vector divided by its length. -/
theorem unit_div {dx dy : K} (h : dx * dx + dy * dy > 0.000001) :
    Unit (dx / sqrt (dx * dx + dy * dy), dy / sqrt (dx * dx + dy * dy)) := by
  have hpos : 0 < dx * dx + dy * dy := lt_trans (by norm_num) h
  have hsq := LawfulSqrt.mul_self_sqrt _ hpos.le
  have hne : sqrt (dx * dx + dy * dy) ≠ 0 := by
    intro hzero
    rw [hzero, zero_mul] at hsq
    exact hpos.ne hsq
  unfold Unit sqrMagnitude
  dsimp only
  rw [div_mul_div_comm, div_mul_div_comm, ← add_div, hsq, div_self hpos.ne']

/-! ## The direction of a body -/

/-- A body moves towards a target that is not where it is. -/
def Aims (input : PendingInput K) (x y : K) : Prop :=
  input.moving = true ∧
    (input.targetX - x) * (input.targetX - x) + (input.targetY - y) * (input.targetY - y) >
      0.000001

instance (input : PendingInput K) (x y : K) : Decidable (Aims input x y) :=
  inferInstanceAs (Decidable (_ ∧ _))

/-- The direction towards the target. -/
def towards (input : PendingInput K) (x y : K) : K × K :=
  ((input.targetX - x) / sqrt ((input.targetX - x) * (input.targetX - x) +
      (input.targetY - y) * (input.targetY - y)),
    (input.targetY - y) / sqrt ((input.targetX - x) * (input.targetX - x) +
      (input.targetY - y) * (input.targetY - y)))

theorem towards_unit {input : PendingInput K} {x y : K} (h : Aims input x y) :
    Unit (towards input x y) :=
  unit_div h.2

/-- The direction in which a body acts. -/
def aimDir (input : PendingInput K) (b : Body K) : K × K :=
  if Aims input b.x b.y then towards input b.x b.y else (b.dirX, b.dirY)

/-- The scene takes the direction of the body, if its snapshot is up to date. -/
theorem dirOf_eq [FloorRing K] {a : Action K} {input : PendingInput K} {t : Scene K} {c : Nat}
    (hx : a.targetX = input.targetX) (hy : a.targetY = input.targetY)
    (hmoving : a.moving = input.moving)
    (hdirs : ∀ d, a.cellDirs c = some d → d = ((t.cells c).lastDirX, (t.cells c).lastDirY)) :
    dirOf a t c = aimDir input (bodyOf t c) := by
  have hiff : (a.moving = true ∧ sqrt ((a.targetX - (t.cells c).x) * (a.targetX - (t.cells c).x) +
      (a.targetY - (t.cells c).y) * (a.targetY - (t.cells c).y)) > 0.001) ↔
      Aims input (bodyOf t c).x (bodyOf t c).y := by
    rw [sqrt_gt_iff (sumSq_nonneg _ _), hx, hy, hmoving]
    rfl
  unfold dirOf getCellActionDir
  dsimp only
  by_cases haims : Aims input (bodyOf t c).x (bodyOf t c).y
  · rw [if_pos (hiff.mpr haims), aimDir, if_pos haims, hx, hy]
    rfl
  · rw [if_neg fun h => haims (hiff.mp h), aimDir, if_neg haims]
    cases hc : a.cellDirs c with
    | none => rfl
    | some d =>
        obtain rfl := hdirs d hc
        rfl

/-- The client takes the direction stored under the key of the cell, if there is one. -/
theorem clientDir_eq {input : PendingInput K} {w : CellView K}
    (hunit : Unit (w.lastDirX, w.lastDirY))
    (hdirs : ∀ d, input.cellDirs w.stableKey = some d → Unit d) :
    getActionDirForCell w input =
      if Aims input w.renderX w.renderY then towards input w.renderX w.renderY
      else (input.cellDirs w.stableKey).getD (w.lastDirX, w.lastDirY) := by
  have hone : ∀ d : K × K, Unit d → sqrMagnitude d > 0.000001 := by
    intro d hd
    rw [hd]
    norm_num
  have hstored : storedDirForCell w input =
      (input.cellDirs w.stableKey).getD (w.lastDirX, w.lastDirY) := by
    unfold storedDirForCell
    cases hkey : input.cellDirs w.stableKey with
    | none =>
        simp only [Option.getD_none]
        rw [if_pos (hone _ hunit), normalized_unit hunit]
    | some d =>
        have hd := hdirs d hkey
        simp only [Option.getD_some]
        rw [if_pos (hone _ hd), normalized_unit hd]
  unfold getActionDirForCell
  dsimp only
  by_cases haims : Aims input w.renderX w.renderY
  · rw [if_pos haims, if_pos (show _ ∧ _ from haims), towards]
    simp only [mul_one_div]
  · rw [if_neg haims, if_neg (show ¬ (_ ∧ _) from haims), hstored]

/-- When the client takes the direction of the body. -/
theorem clientDir_eq_iff {input : PendingInput K} {w : CellView K}
    (hunit : Unit (w.lastDirX, w.lastDirY))
    (hdirs : ∀ d, input.cellDirs w.stableKey = some d → Unit d) :
    getActionDirForCell w input = aimDir input (viewBody w) ↔
      Aims input w.renderX w.renderY ∨
        (input.cellDirs w.stableKey).getD (w.lastDirX, w.lastDirY) = (w.lastDirX, w.lastDirY) := by
  rw [clientDir_eq hunit hdirs]
  have haim : aimDir input (viewBody w) =
      if Aims input w.renderX w.renderY then towards input w.renderX w.renderY
      else (w.lastDirX, w.lastDirY) := rfl
  rw [haim]
  by_cases haims : Aims input w.renderX w.renderY
  · simp [haims]
  · simp [haims]

/-! ## What the client has stored -/

section Capture

omit [Field K] [LinearOrder K] [IsStrictOrderedRing K] [Sqrt K] [LawfulSqrt K] in
theorem foldl_capture (l : List (CellView K)) (dirs : Int → Option (K × K)) (key : Int) :
    let captured := l.foldl (fun (dirs : Int → Option (K × K)) v =>
      Function.update dirs v.stableKey (some (v.lastDirX, v.lastDirY))) dirs
    (captured key = dirs key ∧ ∀ v ∈ l, v.stableKey ≠ key) ∨
      ∃ v ∈ l, v.stableKey = key ∧ captured key = some (v.lastDirX, v.lastDirY) := by
  induction l generalizing dirs with
  | nil => exact .inl ⟨rfl, by simp⟩
  | cons u l ih =>
      dsimp only
      rw [List.foldl_cons]
      rcases ih (Function.update dirs u.stableKey (some (u.lastDirX, u.lastDirY))) with
        ⟨heq, hnone⟩ | ⟨v, hv, hkey, heq⟩
      · by_cases hu : u.stableKey = key
        · refine .inr ⟨u, List.mem_cons_self, hu, ?_⟩
          rw [heq, ← hu, Function.update_self]
        · refine .inl ⟨?_, ?_⟩
          · rw [heq, Function.update_of_ne (Ne.symm hu)]
          · intro v hv
            rcases List.mem_cons.mp hv with rfl | hv
            · exact hu
            · exact hnone v hv
      · exact .inr ⟨v, List.mem_cons_of_mem _ hv, hkey, heq⟩

omit [Field K] [LinearOrder K] [IsStrictOrderedRing K] [Sqrt K] [LawfulSqrt K] in
/-- A direction is stored for the keys of the own cells. -/
theorem captureCellDirs_some {s : View K} {v : CellView K} (hv : v ∈ s.owned) :
    ∃ u ∈ s.owned, u.stableKey = v.stableKey ∧
      s.captureCellDirs v.stableKey = some (u.lastDirX, u.lastDirY) := by
  rcases foldl_capture s.owned (fun _ => none) v.stableKey with ⟨-, hnone⟩ | h
  · exact absurd rfl (hnone v hv)
  · exact h

omit [Field K] [LinearOrder K] [IsStrictOrderedRing K] [Sqrt K] [LawfulSqrt K] in
/-- And for no other. -/
theorem captureCellDirs_none {s : View K} {key : Int} (h : ∀ v ∈ s.owned, v.stableKey ≠ key) :
    s.captureCellDirs key = none := by
  rcases foldl_capture s.owned (fun _ => none) key with ⟨heq, -⟩ | ⟨v, hv, hkey, -⟩
  · exact heq
  · exact absurd hkey (h v hv)

end Capture

/-! ## Turning -/

/-- The body of a cell that turns towards the target. -/
def Body.turned (input : PendingInput K) (b : Body K) : Body K :=
  if Aims input b.x b.y then
    { b with
      dirX := (towards input b.x b.y).1
      dirY := (towards input b.x b.y).2 }
  else b

omit [IsStrictOrderedRing K] [LawfulSqrt K] in
theorem turn_keeps (v : CellView K) (tx ty : K) : View.Keeps v (v.turn tx ty) := by
  unfold CellView.turn
  dsimp only
  split_ifs <;> exact ⟨rfl, rfl, rfl, rfl, rfl⟩

/-- A cell after {lit}`ApplyControlSnapshotToOwnedCells`. -/
def controlled (input : PendingInput K) (v : CellView K) : CellView K :=
  if input.moving then v.turn input.targetX input.targetY else v

omit [IsStrictOrderedRing K] [LawfulSqrt K] in
theorem controlled_keeps (input : PendingInput K) (v : CellView K) :
    View.Keeps v (controlled input v) := by
  unfold controlled
  split_ifs
  · exact turn_keeps v _ _
  · exact ⟨rfl, rfl, rfl, rfl, rfl⟩

omit [IsStrictOrderedRing K] [LawfulSqrt K] in
theorem controlled_body (input : PendingInput K) (v : CellView K) :
    viewBody (controlled input v) = (viewBody v).turned input := by
  unfold controlled Body.turned
  by_cases hmoving : input.moving = true
  · rw [if_pos hmoving]
    unfold CellView.turn
    dsimp only
    by_cases hnear : (input.targetX - v.renderX) * (input.targetX - v.renderX) +
        (input.targetY - v.renderY) * (input.targetY - v.renderY) ≤ 0.000001
    · have hno : ¬ Aims input (viewBody v).x (viewBody v).y := fun h => absurd h.2 hnear.not_gt
      rw [if_pos hnear, if_neg hno]
    · have haims : Aims input (viewBody v).x (viewBody v).y := ⟨hmoving, not_le.mp hnear⟩
      rw [if_neg hnear, if_pos haims]
      simp only [viewBody, towards, mul_one_div]
  · have hno : ¬ Aims input (viewBody v).x (viewBody v).y := fun h => hmoving h.1
    rw [if_neg hmoving, if_neg hno]

omit [IsStrictOrderedRing K] [LawfulSqrt K] in
/-- The client turns its cells. -/
theorem owned_applyControl {s : View K} (hs : s.Wf) (input : PendingInput K) :
    (s.applyControl input.targetX input.targetY input.moving).owned =
        s.owned.map (controlled input) ∧
      (s.applyControl input.targetX input.targetY input.moving).Wf := by
  unfold View.applyControl controlled
  by_cases hmoving : input.moving = true
  · simp only [hmoving, if_true]
    exact ⟨(View.owned_modify hs fun v => turn_keeps v _ _).1,
      View.modifyOwned_wf hs fun v => turn_keeps v _ _⟩
  · simp only [hmoving, if_false, Bool.false_eq_true]
    exact ⟨(List.map_id' s.owned).symm, hs⟩

/-! ## The scene -/

section Server

/-- The message of an input. -/
def PendingInput.message (input : PendingInput K) : Scene.Input K where
  targetX := input.targetX
  targetY := input.targetY
  moving := input.moving
  inputSeq := input.seq
  split := input.split
  spit := input.spit

/-- The scene turns one cell. -/
theorem turnCell_spec (input : PendingInput K) (t : Scene K) (c : Nat)
    (hmoving : input.moving = true) :
    (∀ d, d ≠ c → (turnCell (PendingInput.message input) t c).cells d = t.cells d) ∧
      cellBody ((turnCell (PendingInput.message input) t c).cells c) =
        (cellBody (t.cells c)).turned input ∧
      ((turnCell (PendingInput.message input) t c).cells c).parentId = (t.cells c).parentId ∧
      (turnCell (PendingInput.message input) t c).tables = t.tables ∧
      (turnCell (PendingInput.message input) t c).cellMaxid = t.cellMaxid ∧
      (turnCell (PendingInput.message input) t c).sporeMaxid = t.sporeMaxid := by
  have hiff : sqrt ((input.targetX - (t.cells c).x) * (input.targetX - (t.cells c).x) +
      (input.targetY - (t.cells c).y) * (input.targetY - (t.cells c).y)) > 0.001 ↔
      Aims input (t.cells c).x (t.cells c).y := by
    rw [sqrt_gt_iff (sumSq_nonneg _ _)]
    exact ⟨fun h => ⟨hmoving, h⟩, fun h => h.2⟩
  unfold turnCell Body.turned
  dsimp only [PendingInput.message]
  by_cases haims : Aims input (t.cells c).x (t.cells c).y
  · rw [if_pos (hiff.mpr haims)]
    refine ⟨fun d hd => ?_, ?_, ?_, rfl, rfl, rfl⟩
    · simp [Scene.setCell, hd]
    · have haims' : Aims input (cellBody (t.cells c)).x (cellBody (t.cells c)).y := haims
      rw [if_pos haims']
      simp only [Scene.setCell, Function.update_self, cellBody, towards]
    · simp [Scene.setCell]
  · rw [if_neg fun h => haims (hiff.mp h)]
    have haims' : ¬ Aims input (cellBody (t.cells c)).x (cellBody (t.cells c)).y := haims
    refine ⟨fun _ _ => rfl, ?_, rfl, rfl, rfl, rfl⟩
    rw [if_neg haims']

omit [IsStrictOrderedRing K] [LawfulSqrt K] in
theorem turned_turned (input : PendingInput K) (b : Body K) :
    (b.turned input).turned input = b.turned input := by
  unfold Body.turned
  by_cases haims : Aims input b.x b.y
  · simp only [if_pos haims]
  · simp only [if_neg haims]

/-- The scene turns the cells of a list, in any order. -/
theorem foldl_turnCell (input : PendingInput K) (hmoving : input.moving = true) (l : List Nat)
    (t : Scene K) :
    let t' := l.foldl (turnCell (PendingInput.message input)) t
    (∀ c, c ∉ l → t'.cells c = t.cells c) ∧
      (∀ c ∈ l, cellBody (t'.cells c) = (cellBody (t.cells c)).turned input) ∧
      t'.tables = t.tables ∧ t'.cellMaxid = t.cellMaxid ∧ t'.sporeMaxid = t.sporeMaxid := by
  induction l generalizing t with
  | nil => exact ⟨fun _ _ => rfl, by simp, rfl, rfl, rfl⟩
  | cons d l ih =>
      obtain ⟨hother, hself, -, htables, hmax, hspore⟩ := turnCell_spec input t d hmoving
      obtain ⟨hframe, hturned, htables', hmax', hspore'⟩ :=
        ih (turnCell (PendingInput.message input) t d)
      refine ⟨?_, ?_, htables'.trans htables, hmax'.trans hmax, hspore'.trans hspore⟩
      · intro c hc
        rw [List.mem_cons, not_or] at hc
        exact (hframe c hc.2).trans (hother c hc.1)
      · intro c hc
        by_cases hl : c ∈ l
        · have h := hturned c hl
          by_cases hcd : c = d
          · subst hcd
            exact h.trans (by rw [hself, turned_turned])
          · exact h.trans (by rw [hother c hcd])
        · obtain rfl := (List.mem_cons.mp hc).resolve_right hl
          exact (congrArg cellBody (hframe c hl)).trans hself

/-- An action that was stored when the cells had the directions they have now. -/
structure Snapshot (a : Action K) (kind : ActionKind) (input : PendingInput K) (t : Scene K)
    (r : Nat) : Prop where
  kind : a.kind = kind
  targetX : a.targetX = input.targetX
  targetY : a.targetY = input.targetY
  moving : a.moving = input.moving
  cellDirs : ∀ c, a.cellDirs c = if c ∈ (t.tables r).cells then
    some ((t.cells c).lastDirX, (t.cells c).lastDirY) else none

/-- The actions that an input asks for. -/
structure Asked (as : List (Action K)) (input : PendingInput K) (t : Scene K) (r : Nat) :
    Prop where
  actions : ∃ a b, Snapshot a .split input t r ∧ Snapshot b .spit input t r ∧
    as = (if input.split then [a] else []) ++ if input.spit then [b] else []

omit [IsStrictOrderedRing K] [Sqrt K] [LawfulSqrt K] in
/-- The end of {lit}`input_frame`. -/
theorem setActions_spec (input : PendingInput K) (t : Scene K) (r : Nat) :
    let t' := t.setTable r { t.tables r with
      moving := input.moving
      pendingActions := (t.tables r).pendingActions ++
        ((if input.split then [t.inputAction r (PendingInput.message input) .split] else []) ++
          (if input.spit then [t.inputAction r (PendingInput.message input) .spit] else []))
      lastInputSeq := input.seq }
    (t'.tables r).cells = (t.tables r).cells ∧
      ∃ as, (t'.tables r).pendingActions = (t.tables r).pendingActions ++ as ∧
        Asked as input t' r := by
  intro t'
  have hcells : (t'.tables r).cells = (t.tables r).cells := by
    simp [t', Scene.setTable]
  have hsnapshot : ∀ kind, Snapshot (t.inputAction r (PendingInput.message input) kind) kind
      input t' r := by
    intro kind
    refine ⟨rfl, rfl, rfl, rfl, fun c => ?_⟩
    rw [hcells]
    rfl
  refine ⟨hcells, _, ?_, ⟨_, _, hsnapshot .split, hsnapshot .spit, rfl⟩⟩
  simp [t', Scene.setTable]

/-- {lit}`input_frame` turns the cells of the player and stores the actions. -/
theorem inputFrame_spec (o : Order) {t : Scene K} {p r : Nat} {input : PendingInput K}
    (hr : t.players.get p = some r) (hseq : (t.tables r).lastInputSeq < input.seq) :
    let t' := t.inputFrame o p (PendingInput.message input)
    (t'.tables r).cells = (t.tables r).cells ∧ t'.cellMaxid = t.cellMaxid ∧
      t'.sporeMaxid = t.sporeMaxid ∧
      (∀ c ∈ (t.tables r).cells, cellBody (t'.cells c) = (cellBody (t.cells c)).turned input) ∧
      ∃ as, (t'.tables r).pendingActions = (t.tables r).pendingActions ++ as ∧
        Asked as input t' r := by
  dsimp only
  unfold inputFrame
  rw [hr]
  have hnot : ¬ (PendingInput.message input).inputSeq ≤ (t.tables r).lastInputSeq :=
    not_le.mpr hseq
  simp only [if_neg hnot]
  by_cases hmoving : input.moving = true
  · have hm : (PendingInput.message input).moving = true := hmoving
    rw [if_pos hm]
    have hcells : ((t.setTable r { t.tables r with
        targetX := (PendingInput.message input).targetX
        targetY := (PendingInput.message input).targetY }).tables r).cells =
        (t.tables r).cells := by
      simp [Scene.setTable]
    have hpending : ((t.setTable r { t.tables r with
        targetX := (PendingInput.message input).targetX
        targetY := (PendingInput.message input).targetY }).tables r).pendingActions =
        (t.tables r).pendingActions := by
      simp [Scene.setTable]
    have hfold := foldl_turnCell input hmoving
      (o.pairs (.input p) ((t.setTable r { t.tables r with
        targetX := (PendingInput.message input).targetX
        targetY := (PendingInput.message input).targetY }).tables r).cells)
      (t.setTable r { t.tables r with
        targetX := (PendingInput.message input).targetX
        targetY := (PendingInput.message input).targetY })
    dsimp only at hfold
    generalize List.foldl (turnCell (PendingInput.message input)) _ _ = t₁ at hfold ⊢
    obtain ⟨-, hturned, htables, hmax, hspore⟩ := hfold
    have hcells₁ : (t₁.tables r).cells = (t.tables r).cells := by rw [htables, hcells]
    have hpending₁ : (t₁.tables r).pendingActions = (t.tables r).pendingActions := by
      rw [htables, hpending]
    obtain ⟨hkeep, as, has, hasked⟩ := setActions_spec input t₁ r
    refine ⟨hkeep.trans hcells₁, hmax, hspore, ?_, as, hpending₁ ▸ has, hasked⟩
    intro c hc
    refine hturned c ?_
    rw [hcells, o.mem_pairs]
    exact hc
  · have hm : ¬ (PendingInput.message input).moving = true := hmoving
    have hbody : ∀ b : Body K, b.turned input = b := by
      intro b
      rw [Body.turned, if_neg fun h => hmoving h.1]
    rw [if_neg hm]
    obtain ⟨hkeep, as, has, hasked⟩ := setActions_spec input t r
    refine ⟨hkeep, rfl, rfl, ?_, as, has, hasked⟩
    intro c _
    rw [hbody]
    rfl

end Server

end Predict

end BallServer.Ball
