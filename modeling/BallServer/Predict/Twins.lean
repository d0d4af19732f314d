import BallServer.Predict.Reconcile
import BallServer.Predict.Inputs

/-!
# Two replays side by side

A second replay starts with the same cells as the first one, except for their boosts and
their directions, and gives other numbers and keys to what it predicts.  It takes the same
steps as long as none of these is used.

Main results:

- Structure {lit}`TwinCell`: a cell in two replays.
- Theorems {lit}`TwinCell.advance` and {lit}`pushApart_twin`: a cell moves alike in both.
- Theorems {lit}`splitViews_twin` and {lit}`spitViews_twin`: cells act alike in both.
-/

namespace BallServer.Ball

namespace Predict

variable {K : Type} [Field K] [LinearOrder K]

/-! ## Cells that stay -/

/-- What no step of a replay changes of a cell. -/
structure Stays (v w : CellView K) : Prop extends View.Keeps v w where
  isPredicted : w.isPredicted = v.isPredicted
  seq : w.predictedActionSeq = v.predictedActionSeq

omit [Field K] [LinearOrder K] in
theorem Stays.refl (v : CellView K) : Stays v v :=
  ⟨⟨rfl, rfl, rfl, rfl, rfl⟩, rfl, rfl⟩

omit [Field K] [LinearOrder K] in
theorem Stays.trans {u v w : CellView K} (h : Stays u v) (h' : Stays v w) : Stays u w :=
  ⟨⟨h'.cellId.trans h.cellId, h'.sortKey.trans h.sortKey, h'.stableKey.trans h.stableKey,
    h'.playerId.trans h.playerId, h'.renderInitialized.trans h.renderInitialized⟩,
    h'.isPredicted.trans h.isPredicted, h'.seq.trans h.seq⟩

/-- What only the motion of a cell changes. -/
structure Holds (v w : CellView K) : Prop extends Stays v w where
  boosts : (w.boostVx, w.boostVy) = (v.boostVx, v.boostVy)

omit [Field K] [LinearOrder K] in
theorem Holds.refl (v : CellView K) : Holds v v :=
  ⟨.refl v, rfl⟩

omit [Field K] [LinearOrder K] in
theorem Holds.trans {u v w : CellView K} (h : Holds u v) (h' : Holds v w) : Holds u w :=
  ⟨h.toStays.trans h'.toStays, h'.boosts.trans h.boosts⟩

section Steps

variable [Sqrt K]

/-- A cell that turns keeps its number, its action and its boost. -/
theorem turn_holds (v : CellView K) (targetX targetY : K) : Holds v (v.turn targetX targetY) := by
  unfold CellView.turn
  dsimp only
  split_ifs <;> exact ⟨⟨⟨rfl, rfl, rfl, rfl, rfl⟩, rfl, rfl⟩, rfl⟩

/-- A cell that moves keeps its number and its action. -/
theorem advance_stays [Power K] (v : CellView K) (dt targetX targetY : K) (moving : Bool) :
    Stays v (v.advance dt targetX targetY moving) := by
  have hfollow : Stays v (v.follow dt targetX targetY moving) := by
    unfold CellView.follow
    dsimp only
    split_ifs <;> exact ⟨⟨rfl, rfl, rfl, rfl, rfl⟩, rfl, rfl⟩
  have hboost : ∀ w : CellView K, Stays w (w.advanceBoost dt) := by
    intro w
    unfold CellView.advanceBoost
    dsimp only
    split_ifs <;> exact ⟨⟨rfl, rfl, rfl, rfl, rfl⟩, rfl, rfl⟩
  have htick : ∀ w : CellView K, Stays w (w.clampInside.tickProtected dt) := by
    intro w
    unfold CellView.tickProtected CellView.clampInside
    dsimp only
    split_ifs <;> exact ⟨⟨rfl, rfl, rfl, rfl, rfl⟩, rfl, rfl⟩
  exact hfollow.trans ((hboost _).trans (htick _))

/-- Two cells that are pushed keep all but their places. -/
theorem pushApart_holds (a b : CellView K) :
    Holds a (pushApart a b).1 ∧ Holds b (pushApart a b).2 := by
  unfold pushApart
  dsimp only
  split_ifs <;>
    exact ⟨⟨⟨⟨rfl, rfl, rfl, rfl, rfl⟩, rfl, rfl⟩, rfl⟩,
      ⟨⟨⟨rfl, rfl, rfl, rfl, rfl⟩, rfl, rfl⟩, rfl⟩⟩

theorem pushRow_holds (a : CellView K) (l : List (CellView K)) :
    Holds a (pushRow a l).1 ∧ List.Forall₂ Holds l (pushRow a l).2 := by
  induction l generalizing a with
  | nil => exact ⟨.refl a, .nil⟩
  | cons b l ih =>
      obtain ⟨ha, hb⟩ := pushApart_holds a b
      obtain ⟨ha', hl⟩ := ih (pushApart a b).1
      exact ⟨ha.trans ha', .cons hb hl⟩

theorem forall₂_trans {α : Type} {R : α → α → Prop} (hR : ∀ a b c, R a b → R b c → R a c)
    {l l' l'' : List α} (h : List.Forall₂ R l l') (h' : List.Forall₂ R l' l'') :
    List.Forall₂ R l l'' := by
  induction h generalizing l'' with
  | nil => exact h'
  | cons hab _ ih =>
      cases h' with
      | cons hbc h' => exact .cons (hR _ _ _ hab hbc) (ih h')

/-- So do all cells in one iteration. -/
theorem pushAll_holds (l : List (CellView K)) : List.Forall₂ Holds l (pushAll l) := by
  induction l using pushAll.induct with
  | case1 =>
      rw [pushAll]
      exact .nil
  | case2 a l ih =>
      rw [pushAll]
      obtain ⟨ha, hl⟩ := pushRow_holds a l
      exact .cons ha (forall₂_trans (fun _ _ _ h h' => h.trans h') hl ih)

theorem resolveCollisions_holds (l : List (CellView K)) :
    List.Forall₂ Holds l (resolveCollisions l) := by
  have hiterate : ∀ (n : Nat) (l : List (CellView K)), List.Forall₂ Holds l (pushAll^[n] l) := by
    intro n
    induction n with
    | zero => exact fun l => List.forall₂_same.mpr fun v _ => .refl v
    | succ n ih =>
        intro l
        rw [Function.iterate_succ_apply]
        exact forall₂_trans (fun _ _ _ h h' => h.trans h') (pushAll_holds l) (ih _)
  unfold resolveCollisions
  split_ifs
  · exact List.forall₂_same.mpr fun v _ => .refl v
  · exact hiterate _ l

/-- What {lit}`PredictSplitAction` does with the cells, and what the children are. -/
theorem splitViews_holds (s : View K) (input : PendingInput K) (count k : Nat)
    (vs : List (CellView K)) :
    List.Forall₂ Holds vs (s.splitViews input count k vs).1 ∧
      ∀ w ∈ (s.splitViews input count k vs).2, w.isPredicted = true := by
  induction vs generalizing k with
  | nil => exact ⟨.nil, by simp [View.splitViews]⟩
  | cons v vs ih =>
      rw [View.splitViews]
      split_ifs
      · exact ⟨.cons (.refl v) (ih k).1, (ih k).2⟩
      · refine ⟨.cons ⟨⟨⟨rfl, rfl, rfl, rfl, rfl⟩, rfl, rfl⟩, rfl⟩ (ih (k + 1)).1, fun w hw => ?_⟩
        rcases List.mem_cons.mp hw with rfl | hw
        · rfl
        · exact (ih (k + 1)).2 w hw

/-- The cells that spit keep all but their sizes, and new spores are predicted. -/
theorem spitViews_holds (s : View K) (input : PendingInput K) (k : Nat) (vs : List (CellView K)) :
    List.Forall₂ Holds vs (s.spitViews input k vs).1 ∧
      ∀ x ∈ (s.spitViews input k vs).2, x.isPredicted = true := by
  induction vs generalizing k with
  | nil => exact ⟨.nil, by simp [View.spitViews]⟩
  | cons v vs ih =>
      rw [View.spitViews]
      split_ifs
      · exact ⟨.cons (.refl v) (ih k).1, (ih k).2⟩
      · refine ⟨.cons ⟨⟨⟨rfl, rfl, rfl, rfl, rfl⟩, rfl, rfl⟩, rfl⟩ (ih (k + 1)).1, fun w hw => ?_⟩
        rcases List.mem_cons.mp hw with rfl | hw
        · rfl
        · exact (ih (k + 1)).2 w hw

end Steps

/-! ## A cell in two replays -/

/-- A boost that {lit}`AdvanceCellBoost` stops at once. -/
def Dead (b : K × K) : Prop :=
  |b.1| < boostStopEpsilon ∧ |b.2| < boostStopEpsilon

/-- What the client remembers of its own cells when a replay starts. -/
structure Memory (K : Type) where
  dir : Int → K × K
  boost : Int → K × K

/-- A cell in two replays that start with different memories: an own cell of the server has
in both what it has taken from the replay, or in each what was remembered. -/
structure TwinCell (m m' : Memory K) (passes : Prop) (inputs : List (PendingInput K))
    (v v' : CellView K) : Prop where
  isPredicted : v'.isPredicted = v.isPredicted
  seq : v'.predictedActionSeq = v.predictedActionSeq
  x : v'.renderX = v.renderX
  y : v'.renderY = v.renderY
  size : v'.size = v.size
  timer : v'.protectedTimerTicks = v.protectedTimerTicks
  number : v.isPredicted = false → v'.cellId = v.cellId ∧ v'.stableKey = v.stableKey
  dirs : (v'.lastDirX, v'.lastDirY) = (v.lastDirX, v.lastDirY) ∨ v.isPredicted = false ∧
    (v.lastDirX, v.lastDirY) = m.dir v.cellId ∧ (v'.lastDirX, v'.lastDirY) = m'.dir v.cellId
  boosts : (v'.boostVx, v'.boostVy) = (v.boostVx, v.boostVy) ∨ v.isPredicted = false ∧
    (v.boostVx, v.boostVy) = m.boost v.cellId ∧ (v'.boostVx, v'.boostVy) = m'.boost v.cellId
  dead : passes → v.isPredicted = false →
    Dead (v.boostVx, v.boostVy) ∧ Dead (v'.boostVx, v'.boostVy)
  fresh : v.isPredicted = true → ∀ input ∈ inputs,
    input.cellDirs v.stableKey = none ∧ input.cellDirs v'.stableKey = none

namespace TwinCell

variable {m m' : Memory K} {passes : Prop} {inputs : List (PendingInput K)} {v v' : CellView K}

section Moves

variable [IsStrictOrderedRing K] [Sqrt K]

omit [IsStrictOrderedRing K] in
/-- Both cells turn to the same target. -/
theorem turn (h : TwinCell m m' passes inputs v v') (targetX targetY : K) :
    TwinCell m m' passes inputs (v.turn targetX targetY) (v'.turn targetX targetY) := by
  unfold CellView.turn
  rw [h.x, h.y]
  dsimp only
  split_ifs
  · exact h
  · exact { h with dirs := .inl rfl, x := rfl, y := rfl }

omit [IsStrictOrderedRing K] in
/-- Both cells follow the same target from the same place. -/
theorem follow (h : TwinCell m m' passes inputs v v') (dt targetX targetY : K) (moving : Bool) :
    TwinCell m m' passes inputs (v.follow dt targetX targetY moving)
      (v'.follow dt targetX targetY moving) := by
  unfold CellView.follow
  rw [h.x, h.y, h.size]
  dsimp only
  split_ifs
  · exact { h with dirs := .inl rfl, x := rfl, y := rfl, size := rfl }
  · exact h
  · exact h

omit [Sqrt K] in
/-- The boosts of the server's cells must be dead, and then they are gone. -/
theorem advanceBoost [Power K] (h : TwinCell m m' passes inputs v v') (hpasses : passes) (dt : K) :
    TwinCell m m' passes inputs (v.advanceBoost dt) (v'.advanceBoost dt) := by
  have hzero : Dead ((0 : K), (0 : K)) := by
    unfold Dead boostStopEpsilon
    norm_num
  by_cases hpred : v.isPredicted = true
  · have hboost : (v'.boostVx, v'.boostVy) = (v.boostVx, v.boostVy) := by
      rcases h.boosts with hboost | ⟨hno, -⟩
      · exact hboost
      · rw [hpred] at hno
        cases hno
    have hx : v'.boostVx = v.boostVx := congrArg Prod.fst hboost
    have hy : v'.boostVy = v.boostVy := congrArg Prod.snd hboost
    have hnot : ¬ v.isPredicted = false := by simp [hpred]
    unfold CellView.advanceBoost
    rw [hx, hy, h.x, h.y]
    dsimp only
    split_ifs
    · exact { h with
        x := rfl
        y := rfl
        boosts := .inl rfl
        dead := fun _ hno => absurd hno hnot }
    · exact { h with
        x := rfl
        y := rfl
        boosts := .inl rfl
        dead := fun _ hno => absurd hno hnot }
  · have hpred : v.isPredicted = false := by simpa using hpred
    obtain ⟨hdead, hdead'⟩ := h.dead hpasses hpred
    have hleft : v.advanceBoost dt = { v with boostVx := 0, boostVy := 0 } := if_pos hdead
    have hright : v'.advanceBoost dt = { v' with boostVx := 0, boostVy := 0 } := if_pos hdead'
    rw [hleft, hright]
    exact { h with boosts := .inl rfl, dead := fun _ _ => ⟨hzero, hzero⟩ }

omit [IsStrictOrderedRing K] [Sqrt K] in
theorem clampInside (h : TwinCell m m' passes inputs v v') :
    TwinCell m m' passes inputs v.clampInside v'.clampInside := by
  unfold CellView.clampInside
  exact { h with x := by rw [h.x], y := by rw [h.y] }

omit [IsStrictOrderedRing K] [Sqrt K] in
theorem tickProtected (h : TwinCell m m' passes inputs v v') (dt : K) :
    TwinCell m m' passes inputs (v.tickProtected dt) (v'.tickProtected dt) := by
  unfold CellView.tickProtected
  rw [h.timer]
  split_ifs
  · exact { h with timer := rfl }
  · exact { h with timer := rfl }

/-- Where the boost was remembered it stops at once, so the places stay equal. -/
theorem advance [Power K] (h : TwinCell m m' passes inputs v v') (hpasses : passes)
    (dt targetX targetY : K) (moving : Bool) :
    TwinCell m m' passes inputs (v.advance dt targetX targetY moving)
      (v'.advance dt targetX targetY moving) :=
  (((h.follow dt targetX targetY moving).advanceBoost hpasses dt).clampInside).tickProtected dt

end Moves

end TwinCell

/-! ## Collisions -/

section Collisions

variable [Sqrt K]

/-- Two cells, one of them predicted, that are pushed apart where they stand on each other:
then their numbers decide in which direction. -/
def Coincide (a b : CellView K) : Prop :=
  sqrt ((a.renderX - b.renderX) * (a.renderX - b.renderX) +
      (a.renderY - b.renderY) * (a.renderY - b.renderY)) < 0.001 ∧
    (a.isPredicted = true ∨ b.isPredicted = true)

/-- A cell coincides with none of those behind it when it is pushed from them. -/
def RowApart (a : CellView K) : List (CellView K) → Prop
  | [] => True
  | b :: bs => ¬ Coincide a b ∧ RowApart (pushApart a b).1 bs

/-- No two cells coincide in one iteration. -/
def AllApart : List (CellView K) → Prop
  | [] => True
  | a :: l => RowApart a l ∧ AllApart (pushRow a l).2
termination_by l => l.length
decreasing_by simp only [length_pushRow, List.length_cons, Nat.lt_succ_self]

/-- No two cells coincide in some iterations. -/
def IterationsApart : Nat → List (CellView K) → Prop
  | 0, _ => True
  | n + 1, l => AllApart l ∧ IterationsApart n (pushAll l)

/-- No two cells coincide in {lit}`ResolveLocalOwnedCellCollisions`. -/
def CollisionsApart (l : List (CellView K)) : Prop :=
  l.length ≤ 1 ∨ IterationsApart (getLocalCollisionIterations l.length) l

variable [IsStrictOrderedRing K] {m m' : Memory K} {passes : Prop}
  {inputs : List (PendingInput K)}

omit [IsStrictOrderedRing K] in
/-- Pairs that do not coincide are pushed in a direction that their places give. -/
theorem pushApart_twin {a a' b b' : CellView K} (ha : TwinCell m m' passes inputs a a')
    (hb : TwinCell m m' passes inputs b b') (hapart : ¬ Coincide a b) :
    TwinCell m m' passes inputs (pushApart a b).1 (pushApart a' b').1 ∧
      TwinCell m m' passes inputs (pushApart a b).2 (pushApart a' b').2 := by
  have hdir : sqrt ((a.renderX - b.renderX) * (a.renderX - b.renderX) +
      (a.renderY - b.renderY) * (a.renderY - b.renderY)) < 0.001 →
      (getLocalOverlapFallbackDir a'.cellId b'.cellId : K × K) =
        getLocalOverlapFallbackDir a.cellId b.cellId := by
    intro hdist
    have hpred : a.isPredicted = false ∧ b.isPredicted = false := by
      constructor
      · exact Bool.eq_false_iff.mpr fun hpred => hapart ⟨hdist, .inl hpred⟩
      · exact Bool.eq_false_iff.mpr fun hpred => hapart ⟨hdist, .inr hpred⟩
    rw [(ha.number hpred.1).1, (hb.number hpred.2).1]
  unfold pushApart
  rw [ha.x, ha.y, ha.size, hb.x, hb.y, hb.size]
  dsimp only
  split_ifs with hoverlap hdist
  · exact ⟨ha, hb⟩
  · rw [hdir hdist]
    exact ⟨.clampInside { ha with x := rfl, y := rfl, size := rfl },
      .clampInside { hb with x := rfl, y := rfl, size := rfl }⟩
  · exact ⟨.clampInside { ha with x := rfl, y := rfl, size := rfl },
      .clampInside { hb with x := rfl, y := rfl, size := rfl }⟩

omit [IsStrictOrderedRing K] in
/-- One cell against those behind it. -/
theorem pushRow_twin {a a' : CellView K} {l l' : List (CellView K)}
    (ha : TwinCell m m' passes inputs a a') (hl : List.Forall₂ (TwinCell m m' passes inputs) l l')
    (hapart : RowApart a l) :
    TwinCell m m' passes inputs (pushRow a l).1 (pushRow a' l').1 ∧
      List.Forall₂ (TwinCell m m' passes inputs) (pushRow a l).2 (pushRow a' l').2 := by
  induction hl generalizing a a' with
  | nil => exact ⟨ha, .nil⟩
  | cons hb _ ih =>
      obtain ⟨hnot, hrest⟩ := hapart
      obtain ⟨ha', hb'⟩ := pushApart_twin ha hb hnot
      obtain ⟨hfirst, hrow⟩ := ih ha' hrest
      exact ⟨hfirst, .cons hb' hrow⟩

omit [IsStrictOrderedRing K] in
/-- One iteration. -/
theorem pushAll_twin {l l' : List (CellView K)}
    (hl : List.Forall₂ (TwinCell m m' passes inputs) l l') (hapart : AllApart l) :
    List.Forall₂ (TwinCell m m' passes inputs) (pushAll l) (pushAll l') := by
  induction l using pushAll.induct generalizing l' with
  | case1 =>
      cases hl
      rw [pushAll]
      exact .nil
  | case2 a l ih =>
      cases hl with
      | cons ha hl =>
          rw [AllApart] at hapart
          rw [pushAll, pushAll]
          obtain ⟨hfirst, hrow⟩ := pushRow_twin ha hl hapart.1
          exact .cons hfirst (ih hrow hapart.2)

omit [IsStrictOrderedRing K] in
theorem resolveCollisions_twin {l l' : List (CellView K)}
    (hl : List.Forall₂ (TwinCell m m' passes inputs) l l') (hapart : CollisionsApart l) :
    List.Forall₂ (TwinCell m m' passes inputs) (resolveCollisions l) (resolveCollisions l') := by
  have hiterate : ∀ (n : Nat) (l l' : List (CellView K)),
      List.Forall₂ (TwinCell m m' passes inputs) l l' → IterationsApart n l →
        List.Forall₂ (TwinCell m m' passes inputs) (pushAll^[n] l) (pushAll^[n] l') := by
    intro n
    induction n with
    | zero => exact fun l l' hl _ => hl
    | succ n ih =>
        intro l l' hl hapart
        rw [Function.iterate_succ_apply, Function.iterate_succ_apply]
        exact ih _ _ (pushAll_twin hl hapart.1) hapart.2
  unfold resolveCollisions
  rw [← hl.length_eq]
  split_ifs with hfew
  · exact hl
  · exact hiterate _ l l' hl (hapart.resolve_left hfew)

end Collisions

/-! ## Actions -/

section Actions

variable [Sqrt K]

/-- A cell acts in a direction that does not come from its last one. -/
def Directed (input : PendingInput K) (v : CellView K) : Prop :=
  Aims input v.renderX v.renderY ∨
    ∃ d, input.cellDirs v.stableKey = some d ∧ sqrMagnitude d > 0.000001

/-- The cells of the server that act do so in such a direction. -/
def ActionsDirected (s : View K) (input : PendingInput K) : Prop :=
  ∀ v ∈ s.owned, v.isPredicted = false → Acts s input v → Directed input v

variable {m m' : Memory K} {passes : Prop} {inputs : List (PendingInput K)}

/-- An action with a direction for the cell does not ask what the cell remembers. -/
theorem actionDir_twin {input : PendingInput K} (hinput : input ∈ inputs) {v v' : CellView K}
    (h : TwinCell m m' passes inputs v v')
    (hdirected : v.isPredicted = false → Directed input v) :
    getActionDirForCell v' input = getActionDirForCell v input := by
  have hstored : ¬ Aims input v.renderX v.renderY →
      storedDirForCell v' input = storedDirForCell v input := by
    intro haim
    by_cases hpred : v.isPredicted = true
    · obtain ⟨hkey, hkey'⟩ := h.fresh hpred input hinput
      have hdir : (v'.lastDirX, v'.lastDirY) = (v.lastDirX, v.lastDirY) := by
        rcases h.dirs with hdir | ⟨hno, -⟩
        · exact hdir
        · rw [hpred] at hno
          cases hno
      unfold storedDirForCell
      rw [hkey, hkey', hdir]
    · have hpred : v.isPredicted = false := by simpa using hpred
      obtain ⟨d, hd, hlong⟩ := (hdirected hpred).resolve_left haim
      have hd' : input.cellDirs v'.stableKey = some d := by rw [(h.number hpred).2, hd]
      unfold storedDirForCell
      rw [hd, hd']
      dsimp only
      rw [if_pos hlong, if_pos hlong]
  unfold getActionDirForCell
  rw [h.x, h.y]
  dsimp only
  split_ifs with haim
  · rfl
  · exact hstored haim

/-- A spore in two replays. -/
structure TwinSpore (w w' : SporeView K) : Prop where
  x : w'.x = w.x
  y : w'.y = w.y
  vx : w'.vx = w.vx
  vy : w'.vy = w.vy
  isPredicted : w'.isPredicted = w.isPredicted
  seq : w'.predictedActionSeq = w.predictedActionSeq

omit [Sqrt K] in
theorem splitters_cons (v : CellView K) (room : Nat) (vs : List (CellView K)) :
    splitters viewBody room (v :: vs) =
      if v.size < 4 ∨ room = 0 then splitters viewBody room vs
      else v :: splitters viewBody (room - 1) vs := by
  have hsize : (viewBody v).size = v.size := rfl
  unfold splitters
  by_cases hsmall : v.size < 4
  · have hno : ¬ decide (4 ≤ (viewBody v).size) = true := by simpa [hsize] using hsmall
    rw [if_pos (.inl hsmall), List.filter_cons, if_neg hno]
  · have hyes : decide (4 ≤ (viewBody v).size) = true := by simpa [hsize] using hsmall
    rw [List.filter_cons, if_pos hyes]
    cases room with
    | zero => simp
    | succ n => simp [hsmall]

/-- Both replays split the same cells in the same directions. -/
theorem splitViews_twin {input : PendingInput K} (hinput : input ∈ inputs) {s s' : View K}
    (hfresh : ∀ input ∈ inputs, ∀ key, s.nextLocalStableKey ≤ key → input.cellDirs key = none)
    (hfresh' : ∀ input ∈ inputs, ∀ key, s'.nextLocalStableKey ≤ key → input.cellDirs key = none)
    {vs vs' : List (CellView K)} (hvs : List.Forall₂ (TwinCell m m' passes inputs) vs vs')
    (count k : Nat)
    (hdirected : ∀ v ∈ splitters viewBody (16 - (count + k)) vs, v.isPredicted = false →
      Directed input v) :
    List.Forall₂ (TwinCell m m' passes inputs) (s.splitViews input count k vs).1
        (s'.splitViews input count k vs').1 ∧
      List.Forall₂ (TwinCell m m' passes inputs) (s.splitViews input count k vs).2
        (s'.splitViews input count k vs').2 := by
  induction hvs generalizing k with
  | nil => exact ⟨.nil, .nil⟩
  | @cons v v' vs vs' h hvs ih =>
      rw [View.splitViews, View.splitViews, h.size]
      have hroom : 16 ≤ count + k ↔ 16 - (count + k) = 0 := by omega
      rw [splitters_cons] at hdirected
      by_cases hstop : v.size < 4 ∨ 16 ≤ count + k
      · have hstop' : v.size < 4 ∨ 16 - (count + k) = 0 := by rwa [← hroom]
        rw [if_pos hstop'] at hdirected
        rw [if_pos hstop, if_pos hstop]
        obtain ⟨hcells, hchildren⟩ := ih k hdirected
        exact ⟨.cons h hcells, hchildren⟩
      · have hstop' : ¬ (v.size < 4 ∨ 16 - (count + k) = 0) := by rwa [← hroom]
        rw [if_neg hstop'] at hdirected
        rw [if_neg hstop, if_neg hstop]
        have hnext : 16 - (count + (k + 1)) = 16 - (count + k) - 1 := by omega
        obtain ⟨hcells, hchildren⟩ := ih (k + 1) (by
          rw [hnext]
          exact fun w hw => hdirected w (List.mem_cons_of_mem _ hw))
        have hdir := actionDir_twin hinput h (hdirected v List.mem_cons_self)
        have hhalf : TwinCell m m' passes inputs
            { v with size := sqrt (v.size * v.size * (1 / 2)) }
            { v' with size := sqrt (v.size * v.size * (1 / 2)) } := { h with size := rfl }
        have hchild : TwinCell m m' passes inputs
            (s.splitChild input k { v with size := sqrt (v.size * v.size * (1 / 2)) })
            (s'.splitChild input k { v' with size := sqrt (v.size * v.size * (1 / 2)) }) := by
          have hdir' : getActionDirForCell
              { v' with size := sqrt (v.size * v.size * (1 / 2)) } input =
              getActionDirForCell { v with size := sqrt (v.size * v.size * (1 / 2)) } input := hdir
          unfold View.splitChild
          rw [hdir']
          exact {
            isPredicted := rfl
            seq := rfl
            x := h.x
            y := h.y
            size := rfl
            timer := rfl
            number := fun hkept => absurd hkept.symm Bool.false_ne_true
            dirs := .inl rfl
            boosts := .inl rfl
            dead := fun _ hkept => absurd hkept.symm Bool.false_ne_true
            fresh := fun _ i hi => ⟨hfresh i hi _ (by simp), hfresh' i hi _ (by simp)⟩ }
        exact ⟨.cons hhalf hcells, .cons hchild hchildren⟩

/-- Both replays spit from the same cells in the same directions. -/
theorem spitViews_twin (s s' : View K) {input : PendingInput K} (hinput : input ∈ inputs)
    {vs vs' : List (CellView K)} (hvs : List.Forall₂ (TwinCell m m' passes inputs) vs vs')
    (k : Nat)
    (hdirected : ∀ v ∈ vs, (viewBody v).Spits → v.isPredicted = false → Directed input v) :
    List.Forall₂ (TwinCell m m' passes inputs) (s.spitViews input k vs).1
        (s'.spitViews input k vs').1 ∧
      List.Forall₂ TwinSpore (s.spitViews input k vs).2 (s'.spitViews input k vs').2 := by
  induction hvs generalizing k with
  | nil => exact ⟨.nil, .nil⟩
  | @cons v v' vs vs' h hvs ih =>
      rw [View.spitViews, View.spitViews, h.size]
      have hrest := fun w hw => hdirected w (List.mem_cons_of_mem _ hw)
      by_cases hspits : (viewBody v).Spits
      · have hno : ¬ (v.size < 3 ∨ v.size * v.size ≤ 1 * 1) := hspits
        rw [if_neg hno, if_neg hno]
        obtain ⟨hcells, hspores⟩ := ih (k + 1) hrest
        have hdir := actionDir_twin hinput h (hdirected v List.mem_cons_self hspits)
        have hsmall : TwinCell m m' passes inputs { v with size := sqrt (v.size * v.size - 1 * 1) }
            { v' with size := sqrt (v.size * v.size - 1 * 1) } := { h with size := rfl }
        have hspore : TwinSpore
            (s.spitSpore input k { v with size := sqrt (v.size * v.size - 1 * 1) })
            (s'.spitSpore input k { v' with size := sqrt (v.size * v.size - 1 * 1) }) := by
          have hdir' : getActionDirForCell
              { v' with size := sqrt (v.size * v.size - 1 * 1) } input =
              getActionDirForCell { v with size := sqrt (v.size * v.size - 1 * 1) } input := hdir
          unfold View.spitSpore
          rw [hdir']
          dsimp only
          rw [h.x, h.y]
          exact ⟨rfl, rfl, rfl, rfl, rfl, rfl⟩
        exact ⟨.cons hsmall hcells, .cons hspore hspores⟩
      · have hno : v.size < 3 ∨ v.size * v.size ≤ 1 * 1 := not_not.mp hspits
        rw [if_pos hno, if_pos hno]
        obtain ⟨hcells, hspores⟩ := ih k hrest
        exact ⟨.cons h hcells, hspores⟩

end Actions

end Predict

end BallServer.Ball
