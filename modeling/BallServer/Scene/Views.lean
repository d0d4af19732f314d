import BallServer.Scene.IndexRuns

/-!
# What the phases of a frame leave alone

Most phases move cells and spores about and touch neither the inputs that wait for the next
frame nor the food.

Main results:

- Definition {lit}`Scene.aside`: the inputs and the food.
- Theorem {lit}`update_eq`: a frame is cut at {lit}`process_commands` and before
  {lit}`flush_pending_enters`.
-/

namespace BallServer.Ball

namespace Scene

variable {K : Type} [Field K] [LinearOrder K]

/-- The number of tables there are, and the last number and the pending actions of each. -/
def inputs (s : Scene K) : Nat × (Nat → Int × List (Action K)) :=
  (s.nextTable, fun r => ((s.tables r).lastInputSeq, (s.tables r).pendingActions))

/-- The food, the tree it is kept in, and what was eaten in this frame. -/
structure Pantry (K : Type) [Field K] [LinearOrder K] where
  foodTables : Nat → Food K
  foodMaxid : Nat
  foodCount : Int
  foods : Finset Nat
  foodTree : Quadtree.Tree Nat K
  deadFoodInTree : Nat
  eatenFoodIds : List Nat

/-- The food of a scene. -/
def pantry (s : Scene K) : Pantry K where
  foodTables := s.foodTables
  foodMaxid := s.foodMaxid
  foodCount := s.foodCount
  foods := s.foods
  foodTree := s.foodTree
  deadFoodInTree := s.deadFoodInTree
  eatenFoodIds := s.event.eatenFoodIds

/-- The inputs and the food. -/
def aside (s : Scene K) : (Nat × (Nat → Int × List (Action K))) × Pantry K :=
  (s.inputs, s.pantry)

variable {s s' : Scene K}

theorem aside_inputs (h : s'.aside = s.aside) : s'.inputs = s.inputs :=
  congrArg Prod.fst h

theorem aside_pantry (h : s'.aside = s.aside) : s'.pantry = s.pantry :=
  congrArg Prod.snd h

/-- A loop whose body keeps a view of the scene keeps it. -/
theorem foldl_view {α β : Type} {v : Scene K → β} {f : Scene K → α → Scene K}
    (hf : ∀ s a, v (f s a) = v s) (l : List α) (s : Scene K) : v (l.foldl f s) = v s :=
  List.foldlRecOn (motive := fun s₁ : Scene K => v s₁ = v s) l f rfl
    fun s₁ h₁ a _ => (hf s₁ a).trans h₁

/-! ## Changes in place -/

/-- A table keeps its inputs. -/
theorem setTable_inputs (s : Scene K) (r : Nat) {x : Player K}
    (hseq : x.lastInputSeq = (s.tables r).lastInputSeq)
    (hactions : x.pendingActions = (s.tables r).pendingActions) :
    (s.setTable r x).inputs = s.inputs := by
  refine Prod.ext rfl (funext fun t => ?_)
  by_cases h : t = r
  · subst h
    simp [inputs, setTable, hseq, hactions]
  · simp [inputs, setTable, h]

/-- The table of a player changes in other fields. -/
theorem setTable_aside (s : Scene K) (r : Nat) {x : Player K}
    (hseq : x.lastInputSeq = (s.tables r).lastInputSeq)
    (hactions : x.pendingActions = (s.tables r).pendingActions) :
    (s.setTable r x).aside = s.aside :=
  Prod.ext (setTable_inputs s r hseq hactions) rfl

@[simp] theorem setCell_aside (s : Scene K) (c : Nat) (x : Cell K) :
    (s.setCell c x).aside = s.aside := rfl

@[simp] theorem newCell_aside (s : Scene K) (x : Cell K) : (s.newCell x).aside = s.aside := rfl

@[simp] theorem newSpore_aside (s : Scene K) (x : Spore K) : (s.newSpore x).aside = s.aside := rfl

@[simp] theorem removeCell_aside (s : Scene K) (c : Nat) : (s.removeCell c).aside = s.aside := rfl

@[simp] theorem addCell_aside (s : Scene K) (r c : Nat) : (s.addCell r c).aside = s.aside :=
  setTable_aside s r rfl rfl

/-- The target of a player is no part of its inputs. -/
theorem steer_aside (s : Scene K) (r : Nat) (x y : K) (b : Bool) :
    (s.setTable r { s.tables r with targetX := x, targetY := y, moving := b }).aside = s.aside :=
  setTable_aside s r rfl rfl

@[simp] theorem dropCell_aside (s : Scene K) (r c : Nat) : (s.dropCell r c).aside = s.aside :=
  setTable_aside s r rfl rfl

section Phases

variable [FloorRing K]

@[simp] theorem updateCell_aside (s : Scene K) (c : Nat) : (s.updateCell c).aside = s.aside := rfl

@[simp] theorem upsertCell_aside (s : Scene K) (c : Nat) : (s.upsertCell c).aside = s.aside := rfl

@[simp] theorem indexCell_aside (s : Scene K) (c : Nat) : (s.indexCell c).aside = s.aside := rfl

/-! ## Players leave, enter and come back -/

theorem flushPendingLeaves_aside (o : Order) (s : Scene K) :
    (flushPendingLeaves o s).aside = s.aside := by
  refine foldl_view (fun s₁ p => ?_) _ s
  obtain ⟨g, hg⟩ := leave_eq o s₁ p
  rw [hg]
  rfl

theorem flushPendingRebirth_aside (o : Order) (at_ : Nat → Fin 1001 × Fin 1001) (s : Scene K) :
    (flushPendingRebirth o at_ s).aside = s.aside := by
  refine foldl_view (fun s₁ p => ?_) _ s
  unfold rebear
  split
  · rfl
  next r hr =>
    exact (steer_aside _ r _ _ false).trans
      (addCell_aside (s₁.newCell (bornCell p (at_ p))) r (s₁.cellMaxid + 1))

theorem flushPendingEnters_aside (o : Order) (s : Scene K) :
    (flushPendingEnters o s).aside = s.aside := by
  unfold flushPendingEnters
  split
  · refine foldl_view (fun s₁ p => ?_) _ s
    unfold enter
    split
    · rfl
    next r hr => exact foldl_view (v := aside) (f := indexCell) indexCell_aside _ _
  · rfl

/-! ## Commands and movement -/

variable [Sqrt K]

omit [FloorRing K] in
/-- A split takes nothing from the actions, which are emptied in the end. -/
theorem splitCells_aside (a : Action K) (r : Nat) (l : List Nat) (s : Scene K) :
    (splitCells a r l s).1.aside = s.aside := by
  induction l generalizing s with
  | nil => rfl
  | cons c l ih =>
      unfold splitCells
      split
      · rfl
      · refine (ih (splitCell a r s c)).trans ?_
        simp [splitCell]

omit [FloorRing K] in
theorem doSplit_aside (o : Order) (site : Site) (s : Scene K) (r : Nat) (a : Action K) :
    (doSplit o site s r a).1.aside = s.aside := by
  unfold doSplit
  split
  · rfl
  · exact splitCells_aside a r _ s

omit [FloorRing K] in
theorem spitCells_aside (a : Action K) (r : Nat) (l : List Nat) (s : Scene K) :
    (spitCells a r l s).1.aside = s.aside := by
  induction l generalizing s with
  | nil => rfl
  | cons c l ih =>
      unfold spitCells
      split
      · exact ih (spitCell a r s c)
      · exact ih s

omit [FloorRing K] in
/-- A split or spit touches neither the inputs nor the food. -/
theorem runAction_aside (o : Order) (r : Nat) (s : Scene K) (a : Action K × Nat) :
    (runAction o r s a).aside = s.aside := by
  unfold runAction
  split
  · exact doSplit_aside o (.action r a.2) s r a.1
  · exact spitCells_aside a.1 r _ s

omit [FloorRing K] in
/-- Commands touch no food. -/
theorem processCommands_pantry (o : Order) (s : Scene K) :
    (processCommands o s).pantry = s.pantry := by
  refine foldl_view (v := pantry) (fun s₁ r => ?_) _ s
  exact foldl_view (v := pantry) (fun s₂ a => aside_pantry (runAction_aside o r s₂ a)) _ s₁

omit [Sqrt K] in
theorem sporesMove_aside (o : Order) (s : Scene K) : (sporesMove o s).aside = s.aside :=
  foldl_view (v := aside) (f := sporeMove) (fun _ _ => rfl) _ s

theorem cellMove_aside (o : Order) (s : Scene K) : (cellMove o s).aside = s.aside := by
  refine foldl_view (fun s₁ p => ?_) _ s
  unfold moveCells
  split
  · rfl
  next r hr => exact foldl_view (v := aside) (f := moveCell r) (fun _ _ => rfl) _ s₁

/-! ## Food -/

omit [FloorRing K] [Sqrt K] in
theorem insertFood_inputs (s : Scene K) (f : Nat) : (insertFood s f).inputs = s.inputs := by
  unfold insertFood
  split <;> rfl

omit [FloorRing K] [Sqrt K] in
/-- Food does not touch what the players have sent. -/
theorem foodUpdate_inputs (draw : Option (Fin 1001 × Fin 1001)) (s : Scene K) :
    (foodUpdate draw s).inputs = s.inputs := by
  unfold foodUpdate
  split
  · rfl
  · split
    · rfl
    · exact insertFood_inputs _ _

omit [FloorRing K] [Sqrt K] in
theorem cleanup_inputs (o : Order) (s : Scene K) : (cleanup o s).inputs = s.inputs := by
  unfold cleanup
  split
  · exact foldl_view (v := inputs) insertFood_inputs _ _
  · rfl

theorem eatFood_inputs (o : Order) (s : Scene K) : (eatFood o s).inputs = s.inputs := by
  refine foldl_view (fun s₁ c => foldl_view (fun s₂ f => ?_) _ s₁) _ s
  simp only [eatOneFood]
  split <;> rfl

/-! ## Eating, merging and pushing -/

theorem eatSpore_aside (o : Order) (s : Scene K) : (eatSpore o s).aside = s.aside := by
  refine foldl_view (fun s₁ c => foldl_view (fun s₂ i => ?_) _ s₁) _ s
  simp only [eatOneSpore]
  split <;> rfl

/-- A cell that is eaten takes no food or action with it. -/
theorem eatCandidate_aside (s : Scene K) (e : Candidate) :
    (eatCandidate s e).1.aside = s.aside := by
  unfold eatCandidate
  split
  · split
    · simp
    · rfl
  · rfl

theorem eatCandidates_aside (es : List Candidate) (s : Scene K) :
    (eatCandidates es s).1.aside = s.aside := by
  induction es generalizing s with
  | nil => rfl
  | cons e es ih => exact (ih _).trans (eatCandidate_aside s e)

omit [FloorRing K] [Sqrt K] in
theorem wearOff_aside (s : Scene K) (c : Nat) : (wearOff s c).aside = s.aside := by
  unfold wearOff
  split <;> rfl

theorem eatPlayer_aside (o : Order) (s : Scene K) : (eatPlayer o s).1.aside = s.aside :=
  (eatCandidates_aside _ _).trans (foldl_view wearOff_aside _ s)

theorem eatCell_aside (o : Order) (s : Scene K) : (eatCell o s).aside = s.aside := by
  refine (foldl_view (fun s₁ e => ?_) _ _).trans (eatPlayer_aside o s)
  unfold reportDeath
  split
  · rfl
  · split <;> rfl

theorem mergeUpdate_aside (o : Order) (s : Scene K) : (mergeUpdate o s).aside = s.aside := by
  refine foldl_view (fun s₁ r => ?_) _ s
  refine (foldl_view (fun s₂ ab => ?_) _ _).trans (foldl_view (fun s₂ c => ?_) _ s₁)
  · simp only [mergePair]
    split
    · simp
    · rfl
  · unfold tickMerge
    split <;> rfl

omit [FloorRing K] in
theorem pushPairs_aside (abs : List (Nat × Nat)) (s : Scene K) :
    (pushPairs abs s).1.aside = s.aside := by
  induction abs generalizing s with
  | nil => rfl
  | cons ab abs ih =>
      refine (ih (pushPair s ab).1).trans ?_
      unfold pushPair
      dsimp only
      split <;> rfl

theorem collisionUpdate_aside (o : Order) (s : Scene K) :
    (collisionUpdate o s).aside = s.aside := by
  refine foldl_view (fun s₁ r => ?_) _ s
  unfold selfCollision
  dsimp only
  split
  · rfl
  · exact (foldl_view (v := aside) (f := updateCell) updateCell_aside _ _).trans
      (pushPairs_aside _ s₁)

/-! ## A frame -/

/-- The scene when {lit}`process_commands` begins. -/
def beforeCommands (o : Order) (d : Draws) (s : Scene K) : Scene K :=
  flushPendingRebirth o d.rebirth (flushPendingLeaves o { s with event := .empty })

/-- The scene when {lit}`eat_food` begins. -/
def beforeEating (o : Order) (d : Draws) (s : Scene K) : Scene K :=
  cleanup o (cellMove o (sporesMove o (foodUpdate d.food s)))

/-- The scene when {lit}`broadcast_frame_update` begins, after {lit}`process_commands`. -/
def afterCommands (o : Order) (d : Draws) (s : Scene K) : Scene K :=
  collisionUpdate o (mergeUpdate o (eatCell o (eatSpore o (eatFood o (beforeEating o d s)))))

/-- The scene {lit}`broadcast_frame_update` shows to the players. -/
def broadcast (o : Order) (d : Draws) (s : Scene K) : Scene K :=
  afterCommands o d (processCommands o (beforeCommands o d s))

/-- A frame up to the broadcast, and after it. -/
theorem update_eq (o : Order) (d : Draws) (hstarted : s.gameStarted = true) :
    update o d s = flushPendingEnters o (broadcast o d s) := by
  simp [update, hstarted, broadcast, afterCommands, beforeEating, beforeCommands]

/-- Before the game has started a frame does nothing. -/
theorem update_not_started (o : Order) (d : Draws) (hstarted : s.gameStarted = false) :
    update o d s = s := by
  simp [update, hstarted]

omit [Sqrt K] in
theorem beforeCommands_inputs (o : Order) (d : Draws) (s : Scene K) :
    (beforeCommands o d s).inputs = s.inputs := by
  have hempty : ({ s with event := .empty } : Scene K).inputs = s.inputs := rfl
  exact (aside_inputs (flushPendingRebirth_aside o d.rebirth _)).trans
    ((aside_inputs (flushPendingLeaves_aside o _)).trans hempty)

theorem afterCommands_inputs (o : Order) (d : Draws) (s : Scene K) :
    (afterCommands o d s).inputs = s.inputs := by
  have hbefore : (beforeEating o d s).inputs = s.inputs :=
    (cleanup_inputs o _).trans ((aside_inputs (cellMove_aside o _)).trans
      ((aside_inputs (sporesMove_aside o _)).trans (foodUpdate_inputs d.food s)))
  have heat : (eatCell o (eatSpore o (eatFood o (beforeEating o d s)))).inputs = s.inputs :=
    (aside_inputs (eatCell_aside o _)).trans ((aside_inputs (eatSpore_aside o _)).trans
      ((eatFood_inputs o _).trans hbefore))
  exact (aside_inputs (collisionUpdate_aside o _)).trans
    ((aside_inputs (mergeUpdate_aside o _)).trans heat)

/-! ## The players of a frame -/

omit [FloorRing K] [Sqrt K] in
theorem foodUpdate_players (draw : Option (Fin 1001 × Fin 1001)) (s : Scene K) :
    (foodUpdate draw s).players = s.players := by
  unfold foodUpdate
  split
  · rfl
  · split
    · rfl
    · simp only [insertFood]
      split <;> rfl

section Live

variable [IsStrictOrderedRing K] [LawfulSqrt K]

omit [Sqrt K] [IsStrictOrderedRing K] [LawfulSqrt K] in
/-- The queue of leaving players is empty when commands are processed. -/
theorem beforeCommands_live (o : Order) (d : Draws) (hs : s.Live) :
    (beforeCommands o d s).Live ∧ (beforeCommands o d s).pendingLeaves = ∅ ∧
      (s.Large → (beforeCommands o d s).Large) := by
  have hempty : Same s { s with event := .empty } :=
    ⟨rfl, rfl, fun _ => ⟨rfl, rfl⟩, fun _ => ⟨rfl, rfl⟩, rfl, rfl, rfl⟩
  obtain ⟨hlive, hleaves, -, -, -, -, -, hlarge⟩ := flushPendingLeaves_mass o (hempty.live hs)
  obtain ⟨hadds, -⟩ := flushPendingRebirth_adds o d.rebirth hlive hleaves
  exact ⟨hadds.live, hadds.leaves.trans hleaves, fun h => hadds.large (hlarge h)⟩

/-- Nobody comes or goes between the first phases and the broadcast. -/
theorem broadcast_players (o : Order) (d : Draws) (hs : s.Live) :
    (broadcast o d s).players = (beforeCommands o d s).players := by
  obtain ⟨hlive, hleaves, -⟩ := beforeCommands_live o d hs
  have hcommands := processCommands_conserves o hlive.sound
  have hfood := foodUpdate_live d.food (hcommands.live hlive hleaves)
  have hmiddle := middle_conserves o hfood.1.sound
  exact hmiddle.players.trans ((foodUpdate_players d.food _).trans hcommands.players)

end Live

end Phases

end Scene

end BallServer.Ball
