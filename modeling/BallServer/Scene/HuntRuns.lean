import BallServer.Scene.Prey

/-!
# Hunts in runs

The grid of the cells holds the right objects in its buckets after every sequence of events,
so that in every frame a pass of {lit}`eat_player` begins with a grid that is up to date.

Main results:

- Definition {lit}`Held`: the buckets of a grid hold the objects of its records.
- Theorem {lit}`run_held`: every event keeps the grid of the cells so.
- Theorem {lit}`prey_right`: the grid when {lit}`eat_cell` begins.
-/

namespace BallServer.Ball

open BallServer.Grid (GridIndex World Key objectKey)

section Held

variable {K : Type} [Field K] [LinearOrder K] [FloorRing K]

/-- The buckets hold the objects of the records, each in the range of a place it had. -/
def Held (g : GridIndex Nat K) : Prop :=
  ∃ heap passed, (∀ c, (heap c).id = some c) ∧ (⟨g, heap, passed⟩ : World Nat K).Tracked

variable {g : GridIndex Nat K}

/-- The places of the objects do not matter. -/
theorem Held.tracked (h : Held g) {heap : Nat → Grid.Obj Nat K} (hid : ∀ c, (heap c).id = some c) :
    ∃ passed, (⟨g, heap, passed⟩ : World Nat K).Tracked := by
  obtain ⟨heap', passed, hid', hw⟩ := h
  have hkey : ∀ c, objectKey heap c = objectKey heap' c := by
    intro c
    unfold objectKey
    rw [hid c, hid' c]
  exact ⟨passed, hw.filed, fun k rec hrec => (hkey rec.obj).trans (hw.key k rec hrec), hw.passed,
    hw.current⟩

/-- A record names the object it is filed under. -/
theorem tracked_apart {heap : Nat → Grid.Obj Nat K} {passed : Nat → Option (Grid.Place K)}
    (hid : ∀ c, (heap c).id = some c) (hw : (⟨g, heap, passed⟩ : World Nat K).Tracked) (c : Nat) :
    (⟨g, heap, passed⟩ : World Nat K).Apart c := by
  intro rec hrec hne
  have hkey := hw.key _ rec hrec
  unfold objectKey at hkey
  simp only [hid] at hkey
  exact absurd (Key.id.inj hkey) hne

/-- The table of the object gives its new place. -/
theorem Held.update (h : Held g) {heap : Nat → Grid.Obj Nat K} (hid : ∀ c, (heap c).id = some c)
    (c : Nat) : Held (g.update heap c).1 := by
  obtain ⟨passed, hw⟩ := h.tracked hid
  exact ⟨heap, _, hid, hw.update (tracked_apart hid hw c)⟩

theorem Held.add (h : Held g) {heap : Nat → Grid.Obj Nat K} (hid : ∀ c, (heap c).id = some c)
    (c : Nat) : Held (g.add heap c).1 := by
  obtain ⟨passed, hw⟩ := h.tracked hid
  cases hrange : g.rangeForObj (heap c).toPlace with
  | none =>
      have hsame : (g.add heap c).1 = g := by
        unfold GridIndex.add
        simp only [hrange]
      rw [hsame]
      exact h
  | some range =>
      refine ⟨heap, _, hid, hw.add (tracked_apart hid hw c) fun _ _ _ => ?_⟩
      rw [hrange]
      rfl

theorem Held.upsert (h : Held g) {heap : Nat → Grid.Obj Nat K} (hid : ∀ c, (heap c).id = some c)
    (c : Nat) : Held (g.upsert heap c).1 := by
  unfold GridIndex.upsert
  split
  · exact h.update hid c
  · exact h.add hid c

/-- An object that is taken out leaves the rest as it was. -/
theorem Held.remove (h : Held g) (c : Nat) : Held (g.remove (.id c)).1 := by
  obtain ⟨heap, passed, hid, hw⟩ := h
  have hstep : ((⟨g, heap, passed⟩ : World Nat K).step (.remove (.id c))).Tracked :=
    World.step_tracked hw trivial
  exact ⟨heap, passed, hid, hstep⟩

end Held

namespace Scene

section Keep

variable {K : Type} [Field K] [LinearOrder K] [FloorRing K] {s s' : Scene K}

omit [FloorRing K] in
theorem cellObj_id (s : Scene K) (c : Nat) : (s.cellObj c).id = some c := rfl

/-- A loop of steps that keep the grid so. -/
theorem foldl_held {α : Type} {f : Scene K → α → Scene K}
    (hf : ∀ s a, Held s.cellGrid → Held (f s a).cellGrid) (l : List α) (h : Held s.cellGrid) :
    Held (l.foldl f s).cellGrid :=
  List.foldlRecOn (motive := fun s : Scene K => Held s.cellGrid) l f h fun s₁ h₁ a _ => hf s₁ a h₁

theorem updateCell_held (c : Nat) (h : Held s.cellGrid) : Held (s.updateCell c).cellGrid :=
  h.update s.cellObj_id c

theorem upsertCell_held (c : Nat) (h : Held s.cellGrid) : Held (s.upsertCell c).cellGrid :=
  h.upsert s.cellObj_id c

theorem indexCell_held (c : Nat) (h : Held s.cellGrid) : Held (s.indexCell c).cellGrid :=
  h.add s.cellObj_id c

theorem removeCell_held (c : Nat) (h : Held s.cellGrid) : Held (s.removeCell c).cellGrid :=
  h.remove c

theorem flushPendingLeaves_held (o : Order) (h : Held s.cellGrid) :
    Held (flushPendingLeaves o s).cellGrid := by
  refine foldl_held (fun s₁ p h₁ => ?_) _ h
  unfold leave
  split
  · exact h₁
  · exact foldl_held (f := removeCell) (fun _ c => removeCell_held c) _ h₁

theorem flushPendingRebirth_held (o : Order) (at_ : Nat → Fin 1001 × Fin 1001)
    (h : Held s.cellGrid) : Held (flushPendingRebirth o at_ s).cellGrid := by
  refine foldl_held (fun s₁ p h₁ => ?_) _ h
  unfold rebear
  split
  · exact h₁
  · exact indexCell_held _ h₁

theorem flushPendingEnters_held (o : Order) (h : Held s.cellGrid) :
    Held (flushPendingEnters o s).cellGrid := by
  unfold flushPendingEnters
  split
  · refine foldl_held (fun s₁ p h₁ => ?_) _ h
    unfold enter
    split
    · exact h₁
    · exact foldl_held (f := indexCell) (fun _ c => indexCell_held c) _ h₁
  · exact h

variable [Sqrt K]

omit [FloorRing K] in
/-- Commands do not touch the grid. -/
theorem processCommands_grid (o : Order) (s : Scene K) :
    (processCommands o s).cellGrid = s.cellGrid := by
  have hsplit : ∀ (a : Action K) (r : Nat) (l : List Nat) (s : Scene K),
      (splitCells a r l s).1.cellGrid = s.cellGrid := by
    intro a r l
    induction l with
    | nil => exact fun _ => rfl
    | cons c l ih =>
        intro s
        unfold splitCells
        split
        · rfl
        · exact ih (splitCell a r s c)
  have hspit : ∀ (a : Action K) (r : Nat) (l : List Nat) (s : Scene K),
      (spitCells a r l s).1.cellGrid = s.cellGrid := by
    intro a r l
    induction l with
    | nil => exact fun _ => rfl
    | cons c l ih =>
        intro s
        unfold spitCells
        split
        · exact ih (spitCell a r s c)
        · exact ih s
  refine foldl_view (v := fun s : Scene K => s.cellGrid) (fun s₁ r => ?_) _ s
  refine Eq.trans rfl (foldl_view (v := fun s : Scene K => s.cellGrid) (f := runAction o r)
    (fun s₂ a => ?_) _ s₁)
  unfold runAction
  split
  · show (doSplit o (.action r a.2) s₂ r a.1).1.cellGrid = s₂.cellGrid
    unfold doSplit
    split
    · rfl
    · exact hsplit a.1 r _ s₂
  · exact hspit a.1 r _ s₂

/-- The scene when {lit}`eat_cell` begins, after {lit}`process_commands`. -/
def prey (o : Order) (d : Draws) (s : Scene K) : Scene K :=
  eatSpore o (eatFood o (beforeEating o d s))

/-- The phases before {lit}`eat_cell`. -/
theorem prey_held (o : Order) (d : Draws) (h : Held s.cellGrid) :
    Held (prey o d s).cellGrid := by
  have hinsert : ∀ (s : Scene K) (f : Nat), (insertFood s f).cellGrid = s.cellGrid := by
    intro s f
    unfold insertFood
    split <;> rfl
  have hfood : Held (foodUpdate d.food s).cellGrid := by
    unfold foodUpdate
    split
    · exact h
    · split
      · exact h
      · rw [hinsert]
        exact h
  have hspores : Held (sporesMove o (foodUpdate d.food s)).cellGrid :=
    foldl_held (f := sporeMove) (fun _ _ h => h) _ hfood
  have hmove : ∀ {s : Scene K}, Held s.cellGrid → Held (cellMove o s).cellGrid := by
    intro s h
    refine foldl_held (fun s₁ p h₁ => ?_) _ h
    unfold moveCells
    split
    · exact h₁
    · refine foldl_held (fun s₂ c h₂ => ?_) _ h₁
      exact upsertCell_held c h₂
  have hclean : ∀ {s : Scene K}, Held s.cellGrid → Held (cleanup o s).cellGrid := by
    intro s h
    unfold cleanup
    split
    · have hsame := foldl_view (v := fun s : Scene K => s.cellGrid) hinsert
        (o.pairs .rebuild s.foods) { s with foodTree := s.foodTree.clear }
      show Held (((o.pairs .rebuild s.foods).foldl insertFood
        { s with foodTree := s.foodTree.clear }).cellGrid)
      rw [hsame]
      exact h
    · exact h
  have heat : ∀ {s : Scene K}, Held s.cellGrid → Held (eatFood o s).cellGrid := by
    intro s h
    refine foldl_held (fun s₁ c h₁ => foldl_held (fun s₂ f h₂ => ?_) _ h₁) _ h
    simp only [eatOneFood]
    split
    · exact updateCell_held c h₂
    · exact h₂
  refine foldl_held (fun s₁ c h₁ => foldl_held (fun s₂ i h₂ => ?_) _ h₁) _
    (heat (hclean (hmove hspores)))
  simp only [eatOneSpore]
  split
  · exact updateCell_held c h₂
  · exact h₂

theorem eatCell_held (o : Order) (h : Held s.cellGrid) : Held (eatCell o s).cellGrid := by
  have hcandidates : ∀ (es : List Candidate) {s : Scene K}, Held s.cellGrid →
      Held (eatCandidates es s).1.cellGrid := by
    intro es
    induction es with
    | nil => exact fun h => h
    | cons e es ih =>
        intro s h
        refine ih (s := (eatCandidate s e).1) ?_
        unfold eatCandidate
        split
        · split
          · exact removeCell_held _ (updateCell_held _ h)
          · exact h
        · exact h
  have hwear : Held (hunted o s).cellGrid := by
    refine foldl_held (fun s₁ c h₁ => ?_) _ h
    unfold wearOff
    split <;> exact h₁
  refine foldl_held (f := reportDeath) (fun s₁ e h₁ => ?_) _ (hcandidates _ hwear)
  unfold reportDeath
  split
  · exact h₁
  · split <;> exact h₁

theorem mergeUpdate_held (o : Order) (h : Held s.cellGrid) : Held (mergeUpdate o s).cellGrid := by
  refine foldl_held (fun s₁ r h₁ => ?_) _ h
  refine foldl_held (fun s₂ ab h₂ => ?_) _ (foldl_held (fun s₂ c h₂ => ?_) _ h₁)
  · simp only [mergePair]
    split
    · exact updateCell_held _ (removeCell_held _ h₂)
    · exact h₂
  · unfold tickMerge
    split <;> exact h₂

theorem collisionUpdate_held (o : Order) (h : Held s.cellGrid) :
    Held (collisionUpdate o s).cellGrid := by
  have hpush : ∀ (abs : List (Nat × Nat)) (s : Scene K),
      (pushPairs abs s).1.cellGrid = s.cellGrid := by
    intro abs
    induction abs with
    | nil => exact fun _ => rfl
    | cons ab abs ih =>
        intro s
        refine (ih (pushPair s ab).1).trans ?_
        unfold pushPair
        dsimp only
        split <;> rfl
  refine foldl_held (fun s₁ r h₁ => ?_) _ h
  unfold selfCollision
  dsimp only
  split
  · exact h₁
  · refine foldl_held (f := updateCell) (fun _ c => updateCell_held c) _ ?_
    rw [hpush]
    exact h₁

/-- A whole frame. -/
theorem update_held (o : Order) (d : Draws) (h : Held s.cellGrid) :
    Held (update o d s).cellGrid := by
  by_cases hstarted : s.gameStarted = true
  · rw [update_eq o d hstarted]
    have hbefore : Held (beforeCommands o d s).cellGrid :=
      flushPendingRebirth_held o d.rebirth (flushPendingLeaves_held (s := { s with event := .empty })
        o h)
    have hcommands : Held (processCommands o (beforeCommands o d s)).cellGrid := by
      rw [processCommands_grid]
      exact hbefore
    exact flushPendingEnters_held o (collisionUpdate_held o (mergeUpdate_held o (eatCell_held o
      (prey_held o d hcommands))))
  · rw [update_not_started o d (by simpa using hstarted)]
    exact h

/-- Every event keeps the grid so. -/
theorem step_held (h : Held s.cellGrid) (e : Event K) : Held (s.step e).cellGrid := by
  cases e with
  | frame o d => exact update_held o d h
  | input o p m =>
      show Held (inputFrame o s p m).cellGrid
      unfold inputFrame
      split
      · exact h
      · split
        · exact h
        · split
          · refine foldl_held (f := turnCell m) (fun s₁ c h₁ => ?_) _ h
            simp only [turnCell]
            split <;> exact h₁
          · exact h
  | batchAdd infos =>
      show Held (batchAddPlayer s infos).1.cellGrid
      unfold batchAddPlayer
      split
      · exact h
      · exact foldl_held (f := addPlayer) (fun _ _ h => h) _ h
  | kick p =>
      show Held (kickPlayer s p).1.cellGrid
      unfold kickPlayer
      split
      · exact h
      · split
        · exact h
        · split
          · exact h
          · split <;> exact h
  | online p b =>
      show Held (battleOnline s p b).1.cellGrid
      unfold battleOnline
      split <;> exact h
  | startGame => exact h

variable [IsStrictOrderedRing K]

omit [Sqrt K] in
theorem start_held : Held (start : Scene K).cellGrid := by
  have hnew : Grid.new sceneBounds (32 : K) = some (start : Scene K).cellGrid := by
    unfold Grid.new
    rw [dif_pos (by norm_num)]
    rfl
  refine ⟨(start : Scene K).cellObj, fun _ => none, fun _ => rfl, Grid.new_filed hnew, ?_, ?_, ?_⟩
  all_goals rintro k rec ⟨⟩

/-- In every state of a run buckets and records of the cells agree. -/
theorem run_held (es : List (Event K)) : Held (run (start : Scene K) es).cellGrid :=
  List.foldlRecOn (motive := fun s : Scene K => Held s.cellGrid) es step start_held
    fun _ h e _ => step_held h e

variable [LawfulSqrt K]

omit [Sqrt K] [LawfulSqrt K] in
/-- A grid that knows all cells where they are is right when its buckets hold them. -/
theorem GridRight.of_shown (h : s.CellsShown s.alive) (hsizes : ∀ c ∈ s.alive, 0 ≤ (s.cells c).size)
    (hheld : Held s.cellGrid) : s.GridRight := by
  obtain ⟨hrecorded, hranges⟩ := Tracks.follows h.tracks (fun c _ => h.bounded c) hsizes
  obtain ⟨passed, hw⟩ := hheld.tracked s.cellObj_id
  refine ⟨h.tracks.box, fun c _ => h.bounded c, ⟨hw.filed, hw.key, fun k rec hrec => ?_,
    hw.current⟩, hrecorded⟩
  have hsome : (s.cellGrid.records k).isSome := by
    have hrec : s.cellGrid.records k = some rec := hrec
    rw [hrec]
    rfl
  obtain ⟨c, hc, rfl⟩ := (hrecorded k).mp hsome
  obtain ⟨⟨rec', hrec', hobj, hrange⟩, -⟩ := hranges c hc
  obtain rfl := Option.some.inj (hrec'.symm.trans hrec)
  exact ⟨_, rfl, by rw [hobj]; exact hrange⟩

/-- In every frame of every run the grid is right when {lit}`eat_cell` begins, and all cells have
a size. -/
theorem prey_right (es : List (Event K)) (o : Order) (d : Draws) :
    let before := prey o d (processCommands o (beforeCommands o d (run start es)))
    before.Sound ∧ before.GridRight ∧ ∀ c ∈ before.alive, 1 ≤ (before.cells c).size := by
  obtain ⟨hs, h⟩ := run_shown (K := K) es
  have hlarge := (run_live (K := K) es).2
  have hheld := run_held (K := K) es
  generalize run start es = s at hs h hlarge hheld
  intro before
  have hsame : Same s { s with event := .empty } :=
    ⟨rfl, rfl, fun _ => ⟨rfl, rfl⟩, fun _ => ⟨rfl, rfl⟩, rfl, rfl, rfl⟩
  have hs₀ := hsame.live hs
  have h₀ : ({ s with event := .empty } : Scene K).Shown := h.congr rfl rfl
  obtain ⟨hl₁, hleaves₁, -⟩ := flushPendingLeaves_mass o hs₀
  have h₁ := flushPendingLeaves_shown o hs₀.sound h₀
  have h₂ := flushPendingRebirth_shown o d.rebirth hl₁ hleaves₁ h₁
  obtain ⟨hl₂, hleaves₂, hlarge₂⟩ := beforeCommands_live o d hs
  have hcommands := processCommands_conserves o hl₂.sound
  have hl₃ := hcommands.live hl₂ hleaves₂
  have h₃ := foodUpdate_loose d.food (processCommands_loose o hl₂.sound h₂.loose)
  obtain ⟨hl₄, -, -, -, hlarge₄⟩ := foodUpdate_live d.food hl₃
  obtain ⟨hspores₅, hcells₅⟩ := sporesMove_shown o h₃
  have hc₅ := sporesMove_conserves o hl₄.sound
  have h₆ := cellMove_shown o hcells₅ hspores₅
  have hc₆ := cellMove_conserves o hc₅.sound
  have h₇ := cleanup_shown o h₆
  have hc₇ := cleanup_conserves o hc₆.sound
  have h₈ := eatFood_shown o hc₇.sound h₇
  have hc₈ := eatFood_conserves o hc₇.sound
  have h₉ := eatSpore_shown o hc₈.sound h₈
  have hc₉ := eatSpore_conserves o hc₈.sound
  have hlarge₉ : before.Large := hc₉.large (hc₈.large (hc₇.large (hc₆.large (hc₅.large
    (hlarge₄ (hcommands.large (hlarge₂ hlarge)))))))
  have hheld₁ : Held (beforeCommands o d s).cellGrid :=
    flushPendingRebirth_held o d.rebirth (flushPendingLeaves_held (s := { s with event := .empty })
      o hheld)
  have hheld₂ : Held (processCommands o (beforeCommands o d s)).cellGrid := by
    rw [processCommands_grid]
    exact hheld₁
  exact ⟨hc₉.sound, .of_shown h₉.cells (fun c hc => zero_le_one.trans (hlarge₉ c hc))
    (prey_held o d hheld₂), hlarge₉⟩

end Keep

end Scene

end BallServer.Ball
