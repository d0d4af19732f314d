import BallServer.Scene.HuntRuns

/-!
# The grid of the spores in runs

Only {lit}`spores_move` and {lit}`eat_spore` touch the grid of the spores, and each of them
tells it of one spore after the other.

Main results:

- Theorem {lit}`broadcast_sporesHeld`: the grid holds its objects when a frame is broadcast.
- Theorem {lit}`run_sporesHeld`: and after every sequence of events.
-/

namespace BallServer.Ball

namespace Scene

variable {K : Type} [Field K] [LinearOrder K] [FloorRing K] {s : Scene K}

/-! ## Phases that leave the grid alone -/

omit [FloorRing K] in
theorem flushPendingLeaves_sporeGrid (o : Order) (s : Scene K) :
    (flushPendingLeaves o s).sporeGrid = s.sporeGrid := by
  refine foldl_view (v := sporeGrid) (fun s₁ p => ?_) _ s
  unfold leave
  split
  · rfl
  · exact foldl_view (v := sporeGrid) (f := removeCell) (fun _ _ => rfl) _ s₁

theorem flushPendingRebirth_sporeGrid (o : Order) (at_ : Nat → Fin 1001 × Fin 1001)
    (s : Scene K) : (flushPendingRebirth o at_ s).sporeGrid = s.sporeGrid := by
  refine foldl_view (v := sporeGrid) (fun s₁ p => ?_) _ s
  unfold rebear
  split <;> rfl

theorem flushPendingEnters_sporeGrid (o : Order) (s : Scene K) :
    (flushPendingEnters o s).sporeGrid = s.sporeGrid := by
  unfold flushPendingEnters
  split
  · refine foldl_view (v := sporeGrid) (fun s₁ p => ?_) _ s
    unfold enter
    split
    · rfl
    · exact foldl_view (v := sporeGrid) (f := indexCell) (fun _ _ => rfl) _ _
  · rfl

omit [FloorRing K] in
theorem insertFood_sporeGrid (s : Scene K) (f : Nat) :
    (insertFood s f).sporeGrid = s.sporeGrid := by
  unfold insertFood
  split <;> rfl

omit [FloorRing K] in
theorem foodUpdate_sporeGrid (draw : Option (Fin 1001 × Fin 1001)) (s : Scene K) :
    (foodUpdate draw s).sporeGrid = s.sporeGrid := by
  unfold foodUpdate
  split
  · rfl
  · split
    · rfl
    · exact insertFood_sporeGrid _ _

omit [FloorRing K] in
theorem cleanup_sporeGrid (o : Order) (s : Scene K) : (cleanup o s).sporeGrid = s.sporeGrid := by
  unfold cleanup
  split
  · exact foldl_view (v := sporeGrid) insertFood_sporeGrid _ _
  · rfl

variable [Sqrt K]

omit [FloorRing K] in
/-- A spore that is spat enters the grid when it moves. -/
theorem processCommands_sporeGrid (o : Order) (s : Scene K) :
    (processCommands o s).sporeGrid = s.sporeGrid := by
  have hsplit (a : Action K) (r : Nat) (l : List Nat) (s : Scene K) :
      (splitCells a r l s).1.sporeGrid = s.sporeGrid := by
    induction l generalizing s with
    | nil => rfl
    | cons c l ih =>
        unfold splitCells
        split
        · rfl
        · exact ih (splitCell a r s c)
  have hspit (a : Action K) (r : Nat) (l : List Nat) (s : Scene K) :
      (spitCells a r l s).1.sporeGrid = s.sporeGrid := by
    induction l generalizing s with
    | nil => rfl
    | cons c l ih =>
        unfold spitCells
        split
        · exact ih (spitCell a r s c)
        · exact ih s
  refine foldl_view (v := sporeGrid) (fun s₁ r => ?_) _ s
  refine Eq.trans rfl (foldl_view (v := sporeGrid) (f := runAction o r) (fun s₂ a => ?_) _ s₁)
  unfold runAction
  split
  · show (doSplit o (.action r a.2) s₂ r a.1).1.sporeGrid = s₂.sporeGrid
    unfold doSplit
    split
    · rfl
    · exact hsplit a.1 r _ s₂
  · exact hspit a.1 r _ s₂

theorem cellMove_sporeGrid (o : Order) (s : Scene K) :
    (cellMove o s).sporeGrid = s.sporeGrid := by
  refine foldl_view (v := sporeGrid) (fun s₁ p => ?_) _ s
  unfold moveCells
  split
  · rfl
  next r hr => exact foldl_view (v := sporeGrid) (f := moveCell r) (fun _ _ => rfl) _ s₁

theorem eatFood_sporeGrid (o : Order) (s : Scene K) : (eatFood o s).sporeGrid = s.sporeGrid := by
  refine foldl_view (v := sporeGrid)
    (fun s₁ c => foldl_view (v := sporeGrid) (fun s₂ f => ?_) _ s₁) _ s
  simp only [eatOneFood]
  split <;> rfl

theorem eatCell_sporeGrid (o : Order) (s : Scene K) : (eatCell o s).sporeGrid = s.sporeGrid := by
  have hcandidates (es : List Candidate) (s : Scene K) :
      (eatCandidates es s).1.sporeGrid = s.sporeGrid := by
    induction es generalizing s with
    | nil => rfl
    | cons e es ih =>
        refine (ih (eatCandidate s e).1).trans ?_
        unfold eatCandidate
        split
        · split <;> rfl
        · rfl
  have hwear : (hunted o s).sporeGrid = s.sporeGrid := by
    refine foldl_view (v := sporeGrid) (fun s₁ c => ?_) _ s
    unfold wearOff
    split <;> rfl
  refine (foldl_view (v := sporeGrid) (f := reportDeath) (fun s₁ e => ?_) _ _).trans
    ((hcandidates _ _).trans hwear)
  unfold reportDeath
  split
  · rfl
  · split <;> rfl

theorem mergeUpdate_sporeGrid (o : Order) (s : Scene K) :
    (mergeUpdate o s).sporeGrid = s.sporeGrid := by
  refine foldl_view (v := sporeGrid) (fun s₁ r => ?_) _ s
  refine (foldl_view (v := sporeGrid) (fun s₂ ab => ?_) _ _).trans
    (foldl_view (v := sporeGrid) (fun s₂ c => ?_) _ s₁)
  · simp only [mergePair]
    split <;> rfl
  · unfold tickMerge
    split <;> rfl

theorem collisionUpdate_sporeGrid (o : Order) (s : Scene K) :
    (collisionUpdate o s).sporeGrid = s.sporeGrid := by
  have hpush (abs : List (Nat × Nat)) (s : Scene K) :
      (pushPairs abs s).1.sporeGrid = s.sporeGrid := by
    induction abs generalizing s with
    | nil => rfl
    | cons ab abs ih =>
        refine (ih (pushPair s ab).1).trans ?_
        unfold pushPair
        dsimp only
        split <;> rfl
  refine foldl_view (v := sporeGrid) (fun s₁ r => ?_) _ s
  unfold selfCollision
  dsimp only
  split
  · rfl
  · exact (foldl_view (v := sporeGrid) (f := updateCell) (fun _ _ => rfl) _ _).trans (hpush _ _)

/-! ## Runs -/

omit [Sqrt K] in
/-- A loop of steps that keep the grid so. -/
theorem foldl_sporesHeld {α : Type} {f : Scene K → α → Scene K}
    (hf : ∀ s a, Held s.sporeGrid → Held (f s a).sporeGrid) (l : List α) (h : Held s.sporeGrid) :
    Held (l.foldl f s).sporeGrid :=
  List.foldlRecOn (motive := fun s : Scene K => Held s.sporeGrid) l f h
    fun s₁ h₁ a _ => hf s₁ a h₁

omit [Sqrt K] in
theorem sporesMove_sporesHeld (o : Order) (h : Held s.sporeGrid) :
    Held (sporesMove o s).sporeGrid := by
  refine foldl_sporesHeld (f := sporeMove) (fun s₁ i h₁ => ?_) _ h
  have hid (j : Nat) : (({ s₁ with
      sporeTables := Function.update s₁.sporeTables i (moveSpore (s₁.sporeTables i)) } :
        Scene K).sporeObj j).id = some j := rfl
  exact h₁.upsert hid i

theorem eatSpore_sporesHeld (o : Order) (h : Held s.sporeGrid) :
    Held (eatSpore o s).sporeGrid := by
  refine foldl_sporesHeld (fun s₁ c h₁ => foldl_sporesHeld (fun s₂ i h₂ => ?_) _ h₁) _ h
  simp only [eatOneSpore]
  split
  · exact h₂.remove i
  · exact h₂

theorem broadcast_sporesHeld (o : Order) (d : Draws) (h : Held s.sporeGrid) :
    Held (broadcast o d s).sporeGrid := by
  have hbefore : (processCommands o (beforeCommands o d s)).sporeGrid = s.sporeGrid :=
    (processCommands_sporeGrid o _).trans ((flushPendingRebirth_sporeGrid o d.rebirth _).trans
      (flushPendingLeaves_sporeGrid o _))
  have hmoved : Held (sporesMove o (foodUpdate d.food
      (processCommands o (beforeCommands o d s)))).sporeGrid := by
    refine sporesMove_sporesHeld o ?_
    rw [foodUpdate_sporeGrid, hbefore]
    exact h
  have heaten : Held (eatSpore o (eatFood o (beforeEating o d
      (processCommands o (beforeCommands o d s))))).sporeGrid := by
    refine eatSpore_sporesHeld o ?_
    unfold beforeEating
    rw [eatFood_sporeGrid, cleanup_sporeGrid, cellMove_sporeGrid]
    exact hmoved
  unfold broadcast afterCommands
  rw [collisionUpdate_sporeGrid, mergeUpdate_sporeGrid, eatCell_sporeGrid]
  exact heaten

/-- Every event keeps the grid so. -/
theorem step_sporesHeld (h : Held s.sporeGrid) (e : Event K) : Held (s.step e).sporeGrid := by
  cases e with
  | frame o d =>
      show Held (update o d s).sporeGrid
      by_cases hstarted : s.gameStarted = true
      · rw [update_eq o d hstarted, flushPendingEnters_sporeGrid]
        exact broadcast_sporesHeld o d h
      · rw [update_not_started o d (by simpa using hstarted)]
        exact h
  | input o p m =>
      show Held (inputFrame o s p m).sporeGrid
      unfold inputFrame
      split
      · exact h
      · split
        · exact h
        · split
          · refine foldl_sporesHeld (f := turnCell m) (fun s₁ c h₁ => ?_) _ h
            simp only [turnCell]
            split <;> exact h₁
          · exact h
  | batchAdd infos =>
      show Held (batchAddPlayer s infos).1.sporeGrid
      unfold batchAddPlayer
      split
      · exact h
      · exact foldl_sporesHeld (f := addPlayer) (fun _ _ h => h) _ h
  | kick p =>
      show Held (kickPlayer s p).1.sporeGrid
      unfold kickPlayer
      split
      · exact h
      · split
        · exact h
        · split
          · exact h
          · split <;> exact h
  | online p b =>
      show Held (battleOnline s p b).1.sporeGrid
      unfold battleOnline
      split <;> exact h
  | startGame => exact h

variable [IsStrictOrderedRing K]

/-- In every state of a run buckets and records of the spores agree. -/
theorem run_sporesHeld (es : List (Event K)) : Held (run (start : Scene K) es).sporeGrid :=
  List.foldlRecOn (motive := fun s : Scene K => Held s.sporeGrid) es step
    (start_held : Held (start : Scene K).cellGrid) fun _ h e _ => step_sporesHeld h e

end Scene

end BallServer.Ball
