import BallServer.Scene.Quiet

/-!
# Deaths

After a pass of {lit}`eat_player` the loop of {lit}`eat_cell` goes through the eaten cells
and reports the owner of each of them, if the owner has no cell left at the end of the pass.

Main results:

- Definition {lit}`Reported`: a player is reported as the deaths of a frame ask for.
- Theorem {lit}`deaths_reported_iff`: a player is reported rightly exactly when no more than
  one cell was there to lose, or one is left.
- Theorem {lit}`death_reported_twice`: a run in which a player is reported twice.
-/

namespace BallServer.Ball

/-- The killers of a player in messages to the room. -/
def killersOf (msgs : List RoomMsg) (p : Nat) : List Nat :=
  msgs.filterMap fun
    | .dead q k => if q = p then some k else none
    | .respawn _ => none

namespace Scene

variable {K : Type} [Field K] [LinearOrder K]

/-- How often a frame reports a player as dead so far, and the killers it names. -/
def obituary (s : Scene K) (p : Nat) : Nat × List Nat :=
  (s.event.deadPlayerids.count p, killersOf s.event.toRoom p)

variable [FloorRing K] [Sqrt K] {s s' : Scene K}

omit [FloorRing K] [Sqrt K] in
/-- The loop of {lit}`eat_cell`: who has no cell left is reported for every event. -/
theorem foldl_reportDeath_obituary (events : List (Nat × Nat)) (s : Scene K) (p : Nat) :
    (events.foldl reportDeath s).obituary p =
      if s.players.get p ≠ none ∧ s.cellsOf p = ∅ then
        ((s.obituary p).1 + (events.filter (·.2 = p)).length,
          (s.obituary p).2 ++ (events.filter (·.2 = p)).map Prod.fst)
      else s.obituary p := by
  induction events generalizing s with
  | nil => simp
  | cons e events ih =>
      have hsame : (reportDeath s e).players = s.players ∧ (reportDeath s e).tables = s.tables := by
        unfold reportDeath
        split
        · exact ⟨rfl, rfl⟩
        · split <;> exact ⟨rfl, rfl⟩
      have hcells : (reportDeath s e).cellsOf p = s.cellsOf p := by
        simp only [cellsOf, hsame]
      have hstep : (reportDeath s e).obituary p =
          if e.2 = p ∧ s.players.get p ≠ none ∧ s.cellsOf p = ∅ then
            ((s.obituary p).1 + 1, (s.obituary p).2 ++ [e.1])
          else s.obituary p := by
        unfold reportDeath
        split
        next hnone =>
          rw [if_neg]
          rintro ⟨rfl, h, -⟩
          exact h hnone
        next r hr =>
          split
          next hcard =>
            by_cases hp : e.2 = p
            · subst hp
              have hgone : s.cellsOf e.2 = ∅ := by
                simpa [cellsOf, hr] using Finset.card_eq_zero.mp hcard
              rw [if_pos ⟨rfl, by simp [hr], hgone⟩]
              simp [obituary, killersOf]
            · rw [if_neg fun h => hp h.1]
              simp [obituary, killersOf, hp]
          next hcard =>
            rw [if_neg]
            rintro ⟨rfl, -, h⟩
            simp only [cellsOf, hr] at h
            exact hcard (Finset.card_eq_zero.mpr h)
      rw [List.foldl_cons, ih, hsame.1, hcells, hstep]
      by_cases hp : e.2 = p
      · by_cases hgone : s.players.get p ≠ none ∧ s.cellsOf p = ∅
        · rw [if_pos hgone, if_pos hgone, if_pos ⟨hp, hgone⟩]
          simp only [List.filter_cons, hp, decide_true, if_true, List.length_cons, List.map_cons,
            List.append_assoc, List.singleton_append, Prod.mk.injEq, and_true]
          omega
        · rw [if_neg hgone, if_neg hgone, if_neg fun h => hgone h.2]
      · rw [if_neg (c := e.2 = p ∧ _) fun h => hp h.1]
        simp [hp]

/-! ## The other phases report nobody -/

omit [Sqrt K] in
theorem beforeCommands_obituary (o : Order) (d : Draws) (s : Scene K) :
    (beforeCommands o d s).obituary = fun _ => (0, []) := by
  have hleaves : (flushPendingLeaves o { s with event := .empty }).obituary =
      ({ s with event := .empty } : Scene K).obituary := by
    refine foldl_view (fun s₁ p => ?_) _ _
    unfold leave
    split
    · rfl
    · exact foldl_view (v := obituary) (f := removeCell) (fun _ _ => rfl) _ s₁
  refine (foldl_view (v := obituary) (fun s₁ p => ?_) _ _).trans (hleaves.trans rfl)
  unfold rebear
  split
  · rfl
  · funext q
    simp [obituary, killersOf, indexCell, setTable, addCell, newCell]

omit [FloorRing K] in
theorem processCommands_obituary (o : Order) (s : Scene K) :
    (processCommands o s).obituary = s.obituary := by
  refine foldl_view (fun s₁ r => ?_) _ s
  refine Eq.trans rfl (foldl_view (v := obituary) (f := runAction o r) (fun s₂ a => ?_) _ s₁)
  unfold runAction
  split
  · have hevent := doSplit_event o (.action r a.2) s₂ r a.1
    funext p
    simp only [obituary, hevent]
  · have hevent := spitSpore_event o (.action r a.2) s₂ r a.1
    funext p
    simp only [obituary, hevent]

theorem prey_obituary (o : Order) (d : Draws) (s : Scene K) :
    (prey o d s).obituary = s.obituary := by
  have hinsert : ∀ (s : Scene K) (f : Nat), (insertFood s f).obituary = s.obituary := by
    intro s f
    unfold insertFood
    split <;> rfl
  have hfood : (foodUpdate d.food s).obituary = s.obituary := by
    unfold foodUpdate
    split
    · rfl
    · split
      · rfl
      · exact hinsert _ _
  have hspores : ∀ s : Scene K, (sporesMove o s).obituary = s.obituary := fun s =>
    foldl_view (v := obituary) (f := sporeMove) (fun _ _ => rfl) _ s
  have hmove : ∀ s : Scene K, (cellMove o s).obituary = s.obituary := by
    intro s
    refine foldl_view (fun s₁ p => ?_) _ s
    unfold moveCells
    split
    · rfl
    next r hr => exact foldl_view (v := obituary) (f := moveCell r) (fun _ _ => rfl) _ s₁
  have hclean : ∀ s : Scene K, (cleanup o s).obituary = s.obituary := by
    intro s
    unfold cleanup
    split
    · exact foldl_view (v := obituary) hinsert _ _
    · rfl
  have heat : ∀ s : Scene K, (eatFood o s).obituary = s.obituary := by
    intro s
    refine foldl_view (fun s₁ c => foldl_view (fun s₂ f => ?_) _ s₁) _ s
    simp only [eatOneFood]
    split <;> rfl
  have hspore : ∀ s : Scene K, (eatSpore o s).obituary = s.obituary := by
    intro s
    funext p
    simp only [obituary, eatSpore_event]
  exact (hspore _).trans ((heat _).trans ((hclean _).trans ((hmove _).trans ((hspores _).trans
    hfood))))

theorem collisionUpdate_event (o : Order) (s : Scene K) :
    (collisionUpdate o s).event = s.event := by
  have hpush : ∀ (abs : List (Nat × Nat)) (s₁ : Scene K),
      (pushPairs abs s₁).1.event = s₁.event := by
    intro abs
    induction abs with
    | nil => exact fun _ => rfl
    | cons ab abs ih =>
        intro s₁
        refine (ih (pushPair s₁ ab).1).trans ?_
        unfold pushPair
        dsimp only
        split <;> rfl
  refine foldl_view (v := fun s : Scene K => s.event) (fun s₁ r => ?_) _ s
  unfold selfCollision
  dsimp only
  split
  · rfl
  · exact (foldl_view (v := fun s : Scene K => s.event) (f := updateCell) (fun _ _ => rfl)
      _ _).trans
      (hpush _ s₁)

omit [Sqrt K] in
theorem flushPendingEnters_event (o : Order) (s : Scene K) :
    (flushPendingEnters o s).event = s.event := by
  unfold flushPendingEnters
  split
  · refine foldl_view (v := fun s : Scene K => s.event) (fun s₁ p => ?_) _ s
    unfold enter
    split
    · rfl
    · exact foldl_view (v := fun s : Scene K => s.event) (f := indexCell) (fun _ _ => rfl) _ _
  · rfl

/-- What a frame reports is what {lit}`eat_cell` reports. -/
theorem update_obituary (o : Order) (d : Draws) (hstarted : s.gameStarted = true) (p : Nat) :
    (update o d s).obituary p =
      (eatCell o (prey o d (processCommands o (beforeCommands o d s)))).obituary p := by
  have hevent : (update o d s).event =
      (eatCell o (prey o d (processCommands o (beforeCommands o d s)))).event := by
    rw [update_eq o d hstarted]
    exact (flushPendingEnters_event o _).trans ((collisionUpdate_event o _).trans
      (mergeUpdate_event o _))
  simp only [obituary, hevent]

/-! ## Who is reported -/

section Reports

variable [IsStrictOrderedRing K] [LawfulSqrt K]

/-- The log of {lit}`eat_player`. -/
def deathLog (o : Order) (s : Scene K) : List (Scene K × Candidate) :=
  eatings (candidates o s) (hunted o s)

/-- The entries of the log that are of cells of a player. -/
def lossesOf (o : Order) (s : Scene K) (p : Nat) : List (Scene K × Candidate) :=
  (deathLog o s).filter fun x => (x.1.cells x.2.targetCid).playerid = p

/-- A player who had a cell and has none after {lit}`eat_cell` is reported once, with the owner
of the cell that ate the last one as the killer; nobody else is reported. -/
def Reported (o : Order) (s : Scene K) (e : FrameEvent K) (p : Nat) : Prop :=
  if (s.cellsOf p).Nonempty ∧ (eatCell o s).cellsOf p = ∅ then
    e.deadPlayerids.count p = 1 ∧ ∃ x ∈ deathLog o s, x.1.cellsOf p = {x.2.targetCid} ∧
      killersOf e.toRoom p = [(x.1.cells x.2.eaterCid).playerid]
  else p ∉ e.deadPlayerids ∧ killersOf e.toRoom p = []

omit [FloorRing K] [Sqrt K] [IsStrictOrderedRing K] [LawfulSqrt K] in
theorem hunted_sound (o : Order) (hs : s.Sound) : (hunted o s).Sound :=
  (Conserves.foldl _ hs fun _ c _ h _ => wearOff_conserves h c).sound

omit [IsStrictOrderedRing K] [LawfulSqrt K] in
theorem eatCell_cellsOf (o : Order) (s : Scene K) (p : Nat) :
    (eatCell o s).cellsOf p = (eatPlayer o s).1.cellsOf p := by
  obtain ⟨hplayers, htables, -⟩ := foldl_reportDeath (eatPlayer o s).2 (eatPlayer o s).1
  show ((eatPlayer o s).2.foldl reportDeath (eatPlayer o s).1).cellsOf p = _
  simp only [cellsOf, hplayers, htables]

/-- The losses of a player are the cells that are gone, each once. -/
theorem lossesOf_card (o : Order) (hs : s.Sound) (p : Nat) :
    (lossesOf o s p).length = (s.cellsOf p \ (eatCell o s).cellsOf p).card := by
  have hhunted := hunted_sound o hs
  have hcellsOf := hunted_cellsOf o hs
  have hnodup : ((lossesOf o s p).map (·.2.targetCid)).Nodup := by
    have hpair := (eatings_pairwise (candidates o s) hhunted).filter
      fun x => decide ((x.1.cells x.2.targetCid).playerid = p)
    rw [List.nodup_iff_pairwise_ne, List.pairwise_map]
    exact hpair.imp fun h => h.2.symm
  have hset : ((lossesOf o s p).map (·.2.targetCid)).toFinset =
      s.cellsOf p \ (eatCell o s).cellsOf p := by
    have hleft : (eatCell o s).cellsOf p =
        s.cellsOf p \ ((deathLog o s).map (·.2.targetCid)).toFinset := by
      rw [eatCell_cellsOf, ← hcellsOf]
      exact eatCandidates_cellsOf (candidates o s) hhunted p
    rw [hleft]
    ext c
    simp only [lossesOf, List.mem_toFinset, List.mem_map, List.mem_filter, decide_eq_true_eq,
      Finset.mem_sdiff, not_and, not_not]
    constructor
    · rintro ⟨x, ⟨hx, howner⟩, rfl⟩
      obtain ⟨-, ⟨-, htarget, -⟩, hsound, hsub, -⟩ := mem_eatings _ hhunted hx
      have hin : x.2.targetCid ∈ s.cellsOf p := by
        have hpid := hsound.owner_cellsOf htarget
        rw [howner] at hpid
        rw [hpid, ← hcellsOf]
        exact hsub _ htarget
      exact ⟨hin, fun _ => ⟨x, hx, rfl⟩⟩
    · rintro ⟨hc, hdead⟩
      obtain ⟨x, hx, rfl⟩ := hdead hc
      refine ⟨x, ⟨hx, ?_⟩, rfl⟩
      obtain ⟨-, -, -, -, hcells⟩ := mem_eatings _ hhunted hx
      rw [(hcells _).1]
      exact hhunted.owner_cellsOf (hcellsOf ▸ hc)
  rw [← hset, List.toFinset_card_of_nodup hnodup, List.length_map]

/-- What {lit}`eat_cell` reports of a player. -/
theorem eatCell_obituary (o : Order) (hs : s.Sound) (hsilent : s.obituary = fun _ => (0, []))
    (p : Nat) :
    (eatCell o s).obituary p = if s.players.get p ≠ none ∧ (eatCell o s).cellsOf p = ∅ then
      ((lossesOf o s p).length,
        (lossesOf o s p).map fun x => (x.1.cells x.2.eaterCid).playerid)
      else (0, []) := by
  have hplayers : (eatPlayer o s).1.players = s.players := (eatPlayer_loses o hs).players
  have hbefore : (eatPlayer o s).1.obituary p = (0, []) := by
    simp only [obituary, eatPlayer_event]
    exact congrFun hsilent p
  have hevents : (eatPlayer o s).2 = (deathLog o s).map fun x =>
      ((x.1.cells x.2.eaterCid).playerid, (x.1.cells x.2.targetCid).playerid) :=
    eatCandidates_events _ _
  have hfilter : (eatPlayer o s).2.filter (·.2 = p) = (lossesOf o s p).map fun x =>
      ((x.1.cells x.2.eaterCid).playerid, (x.1.cells x.2.targetCid).playerid) := by
    rw [hevents, List.filter_map]
    rfl
  have hfold := foldl_reportDeath_obituary (eatPlayer o s).2 (eatPlayer o s).1 p
  rw [hbefore, hplayers, hfilter, ← eatCell_cellsOf] at hfold
  refine hfold.trans ?_
  simp [List.map_map, Function.comp_def]

/-- Who has no cell left is reported once for each entry of the log. -/
theorem reports_of_none_left (o : Order) (hs : s.Sound) (hsilent : s.obituary = fun _ => (0, []))
    {e : FrameEvent K} {p : Nat}
    (he : (e.deadPlayerids.count p, killersOf e.toRoom p) = (eatCell o s).obituary p)
    (hleft : (eatCell o s).cellsOf p = ∅) :
    e.deadPlayerids.count p = (s.cellsOf p).card ∧
      (lossesOf o s p).length = (s.cellsOf p).card ∧
      killersOf e.toRoom p = (lossesOf o s p).map fun x =>
        (x.1.cells x.2.eaterCid).playerid := by
  have hobituary := he.trans (eatCell_obituary o hs hsilent p)
  have hcard := lossesOf_card o hs p
  rw [hleft, Finset.sdiff_empty] at hcard
  by_cases hplayer : s.players.get p = none
  · have hempty : s.cellsOf p = ∅ := by
      unfold cellsOf
      rw [hplayer]
    rw [hempty, Finset.card_empty] at hcard ⊢
    rw [if_neg fun h => h.1 hplayer, Prod.mk.injEq] at hobituary
    rw [List.length_eq_zero_iff.mp hcard]
    exact ⟨hobituary.1, rfl, hobituary.2⟩
  · rw [if_pos ⟨hplayer, hleft⟩, Prod.mk.injEq] at hobituary
    exact ⟨hobituary.1.trans hcard, hcard, hobituary.2⟩

/-- Who loses the only cell or keeps one is reported rightly, and nobody else is. -/
theorem reported_iff (o : Order) (hs : s.Sound) (hsilent : s.obituary = fun _ => (0, []))
    {e : FrameEvent K} {p : Nat}
    (he : (e.deadPlayerids.count p, killersOf e.toRoom p) = (eatCell o s).obituary p) :
    Reported o s e p ↔ (s.cellsOf p).card ≤ 1 ∨ (eatCell o s).cellsOf p ≠ ∅ := by
  unfold Reported
  by_cases hleft : (eatCell o s).cellsOf p = ∅
  · obtain ⟨hcount, hlength, hkillers⟩ := reports_of_none_left o hs hsilent he hleft
    by_cases hhad : (s.cellsOf p).Nonempty
    · rw [if_pos ⟨hhad, hleft⟩, hcount, hkillers]
      constructor
      · rintro ⟨hone, -⟩
        exact .inl hone.le
      · rintro (hone | hne)
        · have hone : (s.cellsOf p).card = 1 := le_antisymm hone hhad.card_pos
          refine ⟨hone, ?_⟩
          obtain ⟨x, hx⟩ := List.length_eq_one_iff.mp (hlength.trans hone)
          have hmem : x ∈ lossesOf o s p := hx ▸ List.mem_singleton_self x
          obtain ⟨hlog, howner⟩ := List.mem_filter.mp hmem
          obtain ⟨-, ⟨-, htarget, -⟩, hsound, hsub, -⟩ := mem_eatings _ (hunted_sound o hs) hlog
          rw [← hsound.owner_cellsOf htarget, of_decide_eq_true howner] at htarget
          refine ⟨x, hlog, ?_, by rw [hx]; rfl⟩
          -- the cell was the only one from the start
          refine (Finset.eq_singleton_iff_unique_mem.mpr ⟨htarget, fun c hc => ?_⟩)
          have hsub' := hsub p
          rw [hunted_cellsOf o hs] at hsub'
          exact Finset.card_le_one.mp hone.le c (hsub' hc) _ (hsub' htarget)
        · exact absurd hleft hne
    · have hempty := Finset.not_nonempty_iff_eq_empty.mp hhad
      rw [hempty, Finset.card_empty] at hcount hlength
      rw [List.length_eq_zero_iff.mp hlength] at hkillers
      rw [if_neg fun h => hhad h.1, hempty]
      exact iff_of_true ⟨List.count_eq_zero.mp hcount, hkillers⟩ (.inl (Nat.zero_le 1))
  · have hobituary := he.trans (eatCell_obituary o hs hsilent p)
    rw [if_neg fun h => hleft h.2, Prod.mk.injEq] at hobituary
    rw [if_neg fun h => hleft h.2]
    exact iff_of_true ⟨List.count_eq_zero.mp hobituary.1, hobituary.2⟩ (.inr hleft)

/-- The scene is sound when the cells begin to move. -/
theorem moving_sound (es : List (Event K)) (o : Order) (d : Draws) :
    (sporesMove o (foodUpdate d.food
      (processCommands o (beforeCommands o d (run start es))))).Sound := by
  obtain ⟨hlive, hleaves, -⟩ := beforeCommands_live o d (run_live es).1
  have hcommands := processCommands_conserves o hlive.sound
  have hfood := (foodUpdate_live d.food (hcommands.live hlive hleaves)).1.sound
  exact (sporesMove_conserves o hfood).sound

omit [LawfulSqrt K] in
theorem eating_stocked (es : List (Event K)) (o : Order) (d : Draws)
    (hstarted : (run start es).gameStarted = true) :
    (beforeEating o d (processCommands o (beforeCommands o d (run start es)))).Stocked := by
  have hready := (frame_served (run_stocked es) o d hstarted).ready
  simpa only [eatingScene, hstarted, Bool.true_eq_false, if_false] using hready

/-- In every frame of every run a player is reported as the deaths ask for, once and with the
right killer, exactly when the player had no more than one cell when {lit}`eat_cell` began or
{lit}`eat_player` leaves it one, so that there is nothing to report. -/
theorem deaths_reported_iff (es : List (Event K)) (hstarted : (run start es).gameStarted = true)
    (o : Order) (d : Draws) (p : Nat) :
    let before := prey o d (processCommands o (beforeCommands o d (run start es)))
    Reported o before (update o d (run start es)).event p ↔
      (before.cellsOf p).card ≤ 1 ∨ (eatPlayer o before).1.cellsOf p ≠ ∅ := by
  intro before
  have hsound : before.Sound := (prey_right es o d).1
  have hsilent : before.obituary = fun _ => (0, []) :=
    (prey_obituary o d _).trans ((processCommands_obituary o _).trans
      (beforeCommands_obituary o d _))
  rw [← eatCell_cellsOf]
  exact reported_iff o hsound hsilent (update_obituary o d hstarted p)

end Reports

/-! ## A death that is reported twice -/

/-- The record of a player of the duel. -/
def duelist (r : Nat) : Player ℝ where
  playerid := r + 7
  battleConv := 1
  battleOnline := false
  cells := {r + 1}
  targetX := 0
  targetY := 0
  moving := false
  lastInputSeq := 0
  pendingActions := []

/-- A cell of the duel, of a given mass and with what is left of its protection. -/
noncomputable def duelCell (c mass t : Nat) : Cell ℝ where
  playerid := c + 6
  parentId := none
  x := 488 + 12 * c
  y := 500
  size := sqrt (mass : ℝ)
  mergeTimer := 0
  boostVx := 0
  boostVy := 0
  protectedTimer := t
  lastDirX := 1
  lastDirY := 0

/-- Players 7 and 8 have a cell each, at a distance of 12, and nothing else is there. -/
structure Duel (s : Scene ℝ) (mass : Nat → Nat) (t : Nat) : Prop where
  started : s.gameStarted = true
  players : ∀ p r, s.players.get p = some r ↔ p = 7 ∧ r = 0 ∨ p = 8 ∧ r = 1
  tables : ∀ r, r = 0 ∨ r = 1 → s.tables r = duelist r
  cells : ∀ c, c = 1 ∨ c = 2 → s.cells c = duelCell c (mass c) t
  maxid : s.cellMaxid = 2
  foods : s.foods = ∅
  count : s.foodCount = 0
  spores : s.spores = ∅
  enters : s.pendingEnters.keys = ∅
  leaves : s.pendingLeaves = ∅
  rebirth : s.pendingRebirth.keys = ∅

section Duel

variable {s : Scene ℝ} {mass : Nat → Nat} {t : Nat}

theorem mem_duel (hplayers : ∀ p r, s.players.get p = some r ↔ p = 7 ∧ r = 0 ∨ p = 8 ∧ r = 1)
    (htables : ∀ r, r = 0 ∨ r = 1 → (s.tables r).cells = {r + 1}) {c : Nat} :
    c ∈ s.alive ↔ c = 1 ∨ c = 2 := by
  rw [mem_alive]
  constructor
  · rintro ⟨p, r, hr, hc⟩
    obtain ⟨-, rfl⟩ | ⟨-, rfl⟩ := (hplayers p r).mp hr
    · rw [htables 0 (.inl rfl), Finset.mem_singleton] at hc
      exact .inl hc
    · rw [htables 1 (.inr rfl), Finset.mem_singleton] at hc
      exact .inr hc
  · rintro (rfl | rfl)
    · refine ⟨7, 0, (hplayers 7 0).mpr (.inl ⟨rfl, rfl⟩), ?_⟩
      rw [htables 0 (.inl rfl)]
      exact Finset.mem_singleton_self 1
    · refine ⟨8, 1, (hplayers 8 1).mpr (.inr ⟨rfl, rfl⟩), ?_⟩
      rw [htables 1 (.inr rfl)]
      exact Finset.mem_singleton_self 2

theorem Duel.table (h : Duel s mass t) {p r : Nat} (hr : s.players.get p = some r) :
    s.tables r = duelist r :=
  h.tables r (((h.players p r).mp hr).imp And.right And.right)

theorem Duel.mem_alive (h : Duel s mass t) {c : Nat} : c ∈ s.alive ↔ c = 1 ∨ c = 2 :=
  mem_duel h.players fun r hr => by rw [h.tables r hr]; rfl

theorem duelCell_inside {c : Nat} (hc : c = 1 ∨ c = 2) (m t : Nat) :
    Inside (duelCell c m t).x (duelCell c m t).y := by
  simp only [Inside, duelCell, sceneWidth]
  rcases hc with rfl | rfl <;> norm_num

theorem Duel.resting (h : Duel s mass t) : s.Resting where
  still p r hr := by rw [h.table hr]; rfl
  idle p r hr := by rw [h.table hr]; rfl
  single p r hr := by rw [h.table hr]; exact (Finset.card_singleton _).le
  cells c hc := by
    have hc := h.mem_alive.mp hc
    rw [h.cells c hc]
    exact ⟨rfl, rfl, duelCell_inside hc _ _⟩
  timers c hc := by rw [h.cells c (h.mem_alive.mp hc)]; exact le_rfl
  spores := h.spores
  leaves := h.leaves
  rebirth := h.rebirth

theorem duel_apart {c d : Nat} (hc : c = 1 ∨ c = 2) (hd : d = 1 ∨ d = 2) (hne : d ≠ c) :
    ((488 + 12 * d : ℝ) - (488 + 12 * c)) ^ 2 = 144 := by
  rcases hc with rfl | rfl <;> rcases hd with rfl | rfl
  · exact absurd rfl hne
  · norm_num
  · norm_num
  · exact absurd rfl hne

theorem duelCell_mass (c m t : Nat) : calMass (duelCell c m t).size = m :=
  LawfulSqrt.mul_self_sqrt _ (Nat.cast_nonneg m)

theorem duelCell_worn (c m t : Nat) : worn (duelCell c m t) = duelCell c m (t - 1) := by
  unfold worn
  split
  next h =>
    have h : 0 < t := by simpa [duelCell] using h
    simp [duelCell, Nat.cast_sub h]
  next h =>
    have h : t = 0 := by simpa [duelCell] using h
    rw [h]

/-- Where the cell of player 8 is. -/
def beside : Fin 1001 × Fin 1001 :=
  (⟨512, by decide⟩, middle.2)

/-- A food appears under a cell of the duel. -/
def mealAt (c : Nat) : Draws where
  rebirth _ := middle
  food := some (if c = 1 then middle else beside)

/-- As long as both cells are of mass 144 at most, nobody is eaten. -/
theorem duel_peace (o : Order) (hs : s.Sound) (halive : ∀ i, i ∈ s.alive ↔ i = 1 ∨ i = 2)
    (hcells : ∀ i, i = 1 ∨ i = 2 → s.cells i = duelCell i (mass i) t) (hmass : ∀ i, mass i ≤ 144) :
    ∀ i ∈ s.alive, ∀ j ∈ s.alive,
      canEat ((hunted o s).cells i) ((hunted o s).cells j) = false := by
  intro i hi j hj
  refine Bool.eq_false_iff.mpr fun hcan => ?_
  obtain ⟨howner, -, -, hnear⟩ := canEat_iff.mp hcan
  have hi := (halive i).mp hi
  have hj := (halive j).mp hj
  obtain ⟨hxi, hyi, hsize, howneri⟩ := hunted_cell o hs i
  obtain ⟨hxj, hyj, -, hownerj⟩ := hunted_cell o hs j
  rw [howneri, hownerj, hcells i hi, hcells j hj] at howner
  have hne : i ≠ j := by
    rintro rfl
    exact howner rfl
  rw [hxi, hyi, hxj, hyj, hsize, hcells i hi, hcells j hj] at hnear
  have hfar : (duelCell i (mass i) t).size * (duelCell i (mass i) t).size ≤ 144 := by
    refine (duelCell_mass i (mass i) t).le.trans ?_
    exact_mod_cast hmass i
  have hdist := duel_apart hj hi hne
  simp only [duelCell] at hnear hfar
  nlinarith

/-- In a frame with a food under one of the cells this cell grows, and as the other one is too
far away nobody is eaten. -/
theorem Duel.feed (es : List (Event ℝ)) (h : Duel (run start es) mass t)
    (hmass : ∀ i, mass i ≤ 144) {c : Nat} (hc : c = 1 ∨ c = 2) (hpos : 1 ≤ mass c)
    (hfull : mass c + 1 ≤ 144) :
    Duel (run start (es ++ [.frame .ascending (mealAt c)]))
      (Function.update mass c (mass c + 1)) (t - 1) := by
  have hright := (prey_right es .ascending (mealAt c)).1
  have hready := eating_stocked es .ascending (mealAt c) h.started
  have hrun : run start (es ++ [.frame .ascending (mealAt c)]) =
      update .ascending (mealAt c) (run start es) := by
    simp [run, step]
  rw [hrun]
  generalize run start es = s at h hright hready
  obtain ⟨g, tr, k, hbefore⟩ := beforeEating_resting .ascending (mealAt c) h.resting
  have hcount : ¬foodMax ≤ ({ s with event := .empty } : Scene ℝ).foodCount := by
    show ¬foodMax ≤ s.foodCount
    rw [h.count]
    decide
  obtain ⟨tr', e, hfood⟩ := foodUpdate_draw (if c = 1 then middle else beside) hcount
  rw [show (mealAt c).food = some (if c = 1 then middle else beside) from rfl, hfood] at hbefore
  unfold prey at hright
  have hupdate := update_eq .ascending (mealAt c) h.started
  unfold broadcast afterCommands at hupdate
  generalize beforeEating .ascending (mealAt c) (processCommands .ascending
    (beforeCommands .ascending (mealAt c) s)) = b at hready hright hbefore hupdate
  -- the food is eaten
  have hplayers : b.players = s.players := by rw [hbefore]
  have htables : b.tables = s.tables := by rw [hbefore]
  have hcells : b.cells = s.cells := by rw [hbefore]
  have halive : ∀ i, i ∈ b.alive ↔ i = 1 ∨ i = 2 := fun i => by
    rw [alive_congr hplayers fun r => by rw [htables]]
    exact h.mem_alive
  have hfoods : b.foods = {s.foodMaxid + 1} := by
    rw [hbefore]
    show insert (s.foodMaxid + 1) s.foods = _
    rw [h.foods]
    rfl
  have hplace : (b.foodTables (s.foodMaxid + 1)).x = 488 + 12 * c ∧
      (b.foodTables (s.foodMaxid + 1)).y = 500 := by
    rw [hbefore]
    simp only [Function.update_self]
    rcases hc with rfl | rfl
    · norm_num [middle]
    · norm_num [middle, beside]
  obtain ⟨g', e', hate⟩ := eatFood_single .ascending hready ((halive c).mpr hc) hfoods
    (by
      rw [hcells, h.cells c hc]
      exact LawfulSqrt.sqrt_nonneg _)
    (by
      unfold FoodInside
      rw [hplace.1, hplace.2, hcells, h.cells c hc, pow_two (duelCell c _ _).size]
      refine lt_of_lt_of_eq ?_ (duelCell_mass c (mass c) t).symm
      have hpos : (1 : ℝ) ≤ mass c := by exact_mod_cast hpos
      simp only [duelCell, sub_self]
      linarith)
    (by
      intro d hd hdc
      have hd := (halive d).mp hd
      unfold FoodInside
      rw [hplace.1, hplace.2, hcells, h.cells d hd, pow_two (duelCell d _ _).size, not_lt]
      refine (duelCell_mass d (mass d) t).le.trans ?_
      have hmass : (mass d : ℝ) ≤ 144 := by exact_mod_cast hmass d
      simp only [duelCell, sub_self, duel_apart hc hd hdc]
      linarith)
  -- the other cell is too far away to eat or to be eaten
  generalize eatFood .ascending b = a at hate hright hupdate
  have hspores : a.spores = ∅ := by
    rw [hate, hbefore]
    exact h.spores
  have hplayers : a.players = s.players := by rw [hate, ← hplayers]
  have htables : a.tables = s.tables := by rw [hate, ← htables]
  have halive : ∀ i, i ∈ a.alive ↔ i = 1 ∨ i = 2 := fun i => by
    rw [alive_congr hplayers fun r => by rw [htables]]
    exact h.mem_alive
  have hcells : ∀ i, i = 1 ∨ i = 2 →
      a.cells i = duelCell i (Function.update mass c (mass c + 1) i) t := by
    intro i hi
    rw [hate, hcells]
    show Function.update s.cells c _ i = _
    by_cases hic : i = c
    · subst hic
      rw [Function.update_self, Function.update_self, h.cells i hc, duelCell_mass]
      simp only [duelCell, Nat.cast_add, Nat.cast_one]
    · rw [Function.update_of_ne hic, Function.update_of_ne hic, h.cells i hi]
  have hmass : ∀ i, Function.update mass c (mass c + 1) i ≤ 144 := by
    intro i
    by_cases hic : i = c
    · subst hic
      rwa [Function.update_self]
    · rw [Function.update_of_ne hic]
      exact hmass i
  generalize Function.update mass c (mass c + 1) = mass at hcells hmass ⊢
  rw [eatSpore_none .ascending hspores] at hright
  have hpeace := duel_peace .ascending hright halive hcells hmass
  have hafter := afterEating_resting .ascending hright
    (fun p r hr => by
      rw [htables, h.table (hplayers ▸ hr)]
      exact (Finset.card_singleton _).le)
    (fun i hi => by
      rw [hcells i ((halive i).mp hi)]
      exact le_rfl)
    hspores hpeace
  rw [hafter, flushPendingEnters_none .ascending (by rw [hate, hbefore]; exact h.enters)] at hupdate
  rw [hupdate]
  refine ⟨?_, ?_, ?_, fun i hi => ?_, ?_, ?_, ?_, hspores, ?_, ?_, ?_⟩
  · rw [hate, hbefore]
    exact h.started
  · show ∀ p r, a.players.get p = some r ↔ _
    rw [hplayers]
    exact h.players
  · show ∀ r, _ → a.tables r = _
    rw [htables]
    exact h.tables
  · show (if i ∈ a.alive then worn (a.cells i) else a.cells i) = _
    rw [if_pos ((halive i).mpr hi), hcells i hi]
    exact duelCell_worn i (mass i) t
  · rw [hate, hbefore]
    exact h.maxid
  · rw [hate]
  · rw [hate, hbefore]
    show s.foodCount + 1 - 1 = 0
    rw [h.count]
    rfl
  · rw [hate, hbefore]
    exact h.enters
  · rw [hate, hbefore]
    exact h.leaves
  · rw [hate, hbefore]
    exact h.rebirth

/-- Many such frames. -/
theorem Duel.feast (es : List (Event ℝ)) (h : Duel (run start es) mass t)
    (hmass : ∀ i, mass i ≤ 144) {c : Nat} (hc : c = 1 ∨ c = 2) (hpos : 1 ≤ mass c) {n : Nat}
    (hfull : mass c + n ≤ 144) :
    Duel (run start (es ++ List.replicate n (.frame .ascending (mealAt c))))
      (Function.update mass c (mass c + n)) (t - n) := by
  induction n with
  | zero => simpa using h
  | succ n ih =>
      have hbefore := ih (by omega)
      have hle : ∀ i, Function.update mass c (mass c + n) i ≤ 144 := by
        intro i
        by_cases hic : i = c
        · subst hic
          rw [Function.update_self]
          omega
        · rw [Function.update_of_ne hic]
          exact hmass i
      have hlast := hbefore.feed _ hle hc (by rw [Function.update_self]; omega)
        (by rw [Function.update_self]; omega)
      rw [Function.update_self, Function.update_idem, List.append_assoc,
        ← List.replicate_succ'] at hlast
      exact hlast

/-- The players enter. -/
noncomputable def duelEnters : List (Event ℝ) :=
  [.batchAdd [(7, 1, middle), (8, 1, beside)], .startGame,
    .frame .ascending ⟨fun _ => middle, none⟩]

theorem duel_enters : Duel (run start duelEnters) (fun _ => 1) 100 := by
  obtain ⟨d, hd⟩ : ∃ d : Draws, d = ⟨fun _ => middle, none⟩ := ⟨_, rfl⟩
  let es : List (Event ℝ) := [.batchAdd [(7, 1, middle), (8, 1, beside)], .startGame]
  have hright := (prey_right es .ascending d).1
  have hrun : run start duelEnters = update .ascending d (run start es) := by
    rw [hd]
    rfl
  have hnobody : ∀ p r, (run start es).players.get p = some r → False := by
    rintro p r ⟨⟩
  have hnone : ∀ i, i ∈ (run start es).alive → False := by
    intro i hi
    obtain ⟨p, r, hr, -⟩ := mem_alive.mp hi
    exact hnobody p r hr
  have hresting : (run start es).Resting :=
    { still := fun p r hr => (hnobody p r hr).elim
      idle := fun p r hr => (hnobody p r hr).elim
      single := fun p r hr => (hnobody p r hr).elim
      cells := fun i hi => (hnone i hi).elim
      timers := fun i hi => (hnone i hi).elim
      spores := rfl
      leaves := rfl
      rebirth := rfl }
  obtain ⟨g, tr, k, hbefore⟩ := beforeEating_resting .ascending d hresting
  have hfood : foodUpdate d.food { run start es with event := .empty } =
      { run start es with event := .empty } := by
    rw [hd]
    unfold foodUpdate
    split <;> rfl
  rw [hfood] at hbefore
  have hupdate := update_eq .ascending d (s := run start es) rfl
  unfold broadcast afterCommands at hupdate
  unfold prey at hright
  generalize beforeEating .ascending d (processCommands .ascending
    (beforeCommands .ascending d (run start es))) = b at hbefore hright hupdate
  have hplayers : b.players = (run start es).players := by rw [hbefore]
  have hnone : ∀ i, i ∈ b.alive → False := by
    intro i hi
    obtain ⟨p, r, hr, -⟩ := mem_alive.mp hi
    exact hnobody p r (hplayers ▸ hr)
  have hspores : b.spores = ∅ := by
    rw [hbefore]
    rfl
  have heat : eatFood .ascending b = b :=
    foldl_fix fun i hi => (hnone i (mem_sortedCells.mp hi)).elim
  rw [heat, eatSpore_none .ascending hspores] at hright
  rw [heat, afterEating_resting .ascending hright
    (fun p r hr => (hnobody p r (hplayers ▸ hr)).elim) (fun i hi => (hnone i hi).elim) hspores
    fun i hi => (hnone i hi).elim] at hupdate
  have hcells : (fun c => if c ∈ b.alive then worn (b.cells c) else b.cells c) =
      (run start es).cells := by
    funext c
    rw [if_neg (hnone c), hbefore]
  rw [hcells] at hupdate
  have hstarted : b.gameStarted = true := by
    rw [hbefore]
    rfl
  obtain ⟨t, g', e, hflush, hkeys, hget⟩ := flushPendingEnters_spec .ascending
    (s := { b with cells := (run start es).cells }) hstarted
  rw [hrun, hupdate, hflush]
  refine ⟨hstarted, fun p r => ?_, fun r hr => ?_, fun c hc => ?_, ?_, ?_, ?_, hspores, hkeys, ?_,
    ?_⟩
  · show t.get p = some r ↔ _
    rw [hget p]
    show (b.pendingEnters.get p).or (b.players.get p) = some r ↔ _
    rw [hplayers, hbefore]
    show (((Table.empty.set 7 0).set 8 1).get p).or none = some r ↔ _
    rw [Option.or_none, Table.get_set, Table.get_set]
    by_cases h₈ : p = 8
    · subst h₈
      simp [eq_comm]
    · by_cases h₇ : p = 7
      · subst h₇
        simp [eq_comm]
      · simp [h₇, h₈]
  · show b.tables r = _
    rw [hbefore]
    rcases hr with rfl | rfl
    · rfl
    · rfl
  · show (run start es).cells c = _
    have hborn : ∀ c, c = 1 ∨ c = 2 →
        bornCell (c + 6) (if c = 1 then middle else beside) = duelCell c 1 100 := by
      intro c hc
      have hsqrt : sqrt ((1 : Nat) : ℝ) = 1 := by
        rw [Nat.cast_one]
        exact Real.sqrt_one
      unfold bornCell duelCell
      rw [hsqrt]
      rcases hc with rfl | rfl
      · simp only [Cell.mk.injEq, true_and, and_true]
        norm_num [protectedTime, middle]
      · simp only [Cell.mk.injEq, true_and, and_true]
        norm_num [protectedTime, middle, beside]
    rcases hc with rfl | rfl
    · exact Eq.trans rfl (hborn 1 (.inl rfl))
    · exact Eq.trans rfl (hborn 2 (.inr rfl))
  · show b.cellMaxid = 2
    rw [hbefore]
    rfl
  · show b.foods = ∅
    rw [hbefore]
    rfl
  · show b.foodCount = 0
    rw [hbefore]
    rfl
  · show b.pendingLeaves = ∅
    rw [hbefore]
    rfl
  · show b.pendingRebirth.keys = ∅
    rw [hbefore]
    rfl

/-- Player 7 asks to be split. -/
def splitInput : Input ℝ where
  targetX := 0
  targetY := 0
  moving := false
  inputSeq := 1
  split := true
  spit := false

/-- The cell of player 7 is split, and its half is thrown at the other player. -/
theorem Duel.split (h : Duel s mass 0) (hlarge : mass 1 = 16) (d : Draws) :
    let s' := processCommands .ascending (beforeCommands .ascending d
      (inputFrame .ascending s 7 splitInput))
    s'.players = s.players ∧ (s'.tables 0).cells = {1, 3} ∧ (s'.tables 0).moving = false ∧
      s'.tables 1 = duelist 1 ∧ s'.cells 1 = { duelCell 1 8 0 with mergeTimer := 60 } ∧
      s'.cells 2 = s.cells 2 ∧
      s'.cells 3 = { duelCell 1 8 0 with
        parentId := some 1
        mergeTimer := 60
        boostVx := 10 } ∧
      s'.foods = ∅ ∧ s'.foodCount = 0 ∧ s'.spores = ∅ := by
  intro s'
  have hplayer : s.players.get 7 = some 0 := (h.players 7 0).mpr (.inl ⟨rfl, rfl⟩)
  have htable := h.tables 0 (.inl rfl)
  have hcell := h.cells 1 (.inl rfl)
  obtain ⟨a, ha⟩ : ∃ a, a = s.inputAction 0 splitInput .split := ⟨_, rfl⟩
  have hinput : inputFrame .ascending s 7 splitInput = s.setTable 0 { duelist 0 with
      lastInputSeq := 1
      pendingActions := [a] } := by
    rw [inputFrame_split .ascending hplayer (by rw [htable]; exact Int.zero_lt_one) rfl rfl rfl,
      htable, ha]
    rfl
  have hbefore := beforeCommands_none (s := inputFrame .ascending s 7 splitInput) .ascending d
    (by rw [hinput]; exact h.leaves) (by rw [hinput]; exact h.rebirth)
  have hs' : s' = processCommands .ascending
      { inputFrame .ascending s 7 splitInput with event := .empty } :=
    congrArg (processCommands .ascending) hbefore
  rw [hinput] at hs'
  obtain ⟨s₂, hs₂⟩ : ∃ s₂ : Scene ℝ, s₂ = { s.setTable 0 { duelist 0 with
      lastInputSeq := 1
      pendingActions := [a] } with event := .empty } := ⟨_, rfl⟩
  have htable₂ : s₂.tables 0 = { duelist 0 with
      lastInputSeq := 1
      pendingActions := [a] } := by
    rw [hs₂]
    exact Function.update_self (0 : Nat) _ s.tables
  have hother₂ : s₂.tables 1 = duelist 1 := by
    rw [hs₂]
    show Function.update s.tables 0 { duelist 0 with
      lastInputSeq := 1
      pendingActions := [a] } 1 = _
    rw [Function.update_of_ne Nat.one_ne_zero]
    exact h.tables 1 (.inr rfl)
  have hplayers : s₂.players = s.players := by rw [hs₂]; rfl
  have hcells₂ : s₂.cells = s.cells := by rw [hs₂]; rfl
  have hmaxid₂ : s₂.cellMaxid = 2 := by rw [hs₂]; exact h.maxid
  have hsize : (s₂.cells 1).size = 4 := by
    rw [hcells₂, hcell, hlarge]
    show Real.sqrt ((16 : Nat) : ℝ) = 4
    rw [show (((16 : Nat) : ℝ)) = 4 * 4 by norm_num]
    exact Real.sqrt_mul_self (by norm_num)
  have hhalf : sqrt (calMass (s₂.cells 1).size / 2.0) = (duelCell 1 8 0).size := by
    rw [hsize]
    show Real.sqrt (4 * 4 / 2.0) = Real.sqrt ((8 : Nat) : ℝ)
    norm_num
  -- the player who has asked for something
  obtain ⟨e, ts, hrun, hself, hrest⟩ := runActions_split (s := s₂) (c := 1) .ascending
    (by rw [htable₂]) (by rw [ha]; rfl) (by rw [htable₂]; rfl) hsize.ge
  have hdir : ∀ x : Cell ℝ, getCellActionDir 1 x a = (1, 0) := by
    refine getCellActionDir_still (by rw [ha]; rfl) ?_
    rw [ha]
    show (if 1 ∈ (s.tables 0).cells then some ((s.cells 1).lastDirX, (s.cells 1).lastDirY)
      else none) = _
    rw [htable, hcell]
    exact if_pos (Finset.mem_singleton_self 1)
  have hcells : (splitCell a 0 s₂ 1).cells = Function.update (Function.update s.cells 1
      { duelCell 1 8 0 with mergeTimer := 60 }) 3 { duelCell 1 8 0 with
        parentId := some 1
        mergeTimer := 60
        boostVx := 10 } := by
    have hplayerid : (s₂.tables 0).playerid = 7 := by rw [htable₂]; rfl
    unfold splitCell
    rw [hcells₂] at hhalf
    simp only [newCell, addCell, setTable, setCell, Function.update_self, hdir, hmaxid₂, hcells₂,
      hplayerid, mul_one, mul_zero, hhalf]
    rw [hcell]
    rfl
  have hset : ((splitCell a 0 s₂ 1).tables 0).cells = {1, 3} := by
    rw [splitCell_cells, if_pos rfl, htable₂, hmaxid₂]
    exact Finset.pair_comm 3 1
  have hmoving : ((splitCell a 0 s₂ 1).tables 0).moving = false := by
    have hsame : ((splitCell a 0 s₂ 1).tables 0).moving = (s₂.tables 0).moving := by
      simp [splitCell, addCell, setTable, newCell, setCell]
    rw [hsame, htable₂]
    rfl
  -- the other one has asked for nothing
  have helse : ts 1 = duelist 1 := (hrest 1 Nat.one_ne_zero).trans hother₂
  have hfinal : s' = runActions .ascending s₂ 0 := by
    rw [hs', ← hs₂]
    refine processCommands_only .ascending (hplayers ▸ hplayer) (fun q r hr hne => ?_)
      fun r hr => ?_
    · obtain ⟨-, rfl⟩ | ⟨-, rfl⟩ := (h.players q r).mp (hplayers ▸ hr)
      · exact absurd rfl hne
      · rw [hother₂]
        rfl
    · rw [hrun]
      exact hrest r hr
  rw [hfinal, hrun]
  refine ⟨hplayers, (congrArg Player.cells hself).trans hset,
    (congrArg Player.moving hself).trans hmoving, helse, ?_, ?_, ?_, ?_, ?_, ?_⟩
  · show (splitCell a 0 s₂ 1).cells 1 = _
    rw [hcells]
    rfl
  · show (splitCell a 0 s₂ 1).cells 2 = _
    rw [hcells]
    rfl
  · show (splitCell a 0 s₂ 1).cells 3 = _
    rw [hcells]
    rfl
  · show s₂.foods = ∅
    rw [hs₂]
    exact h.foods
  · show s₂.foodCount = 0
    rw [hs₂]
    exact h.count
  · show s₂.spores = ∅
    rw [hs₂]
    exact h.spores

/-- Cells 1 and 3 of player 7 lie inside cell 2 of player 8, which is much larger. -/
structure Cornered (s : Scene ℝ) : Prop where
  sound : s.Sound
  alive : ∀ c ∈ s.alive, (c = 1 ∨ c = 3) ∨ c = 2
  hunter : 2 ∈ s.cellsOf 8
  small : ∀ c, c = 1 ∨ c = 3 → (s.cells c).playerid = 7 ∧ (s.cells c).protectedTimer ≤ 0 ∧
    calMass (s.cells c).size = 8 ∧ 500 ≤ (s.cells c).x ∧ (s.cells c).x ≤ 502 ∧ (s.cells c).y = 500
  large : (s.cells 2).x = 512 ∧ (s.cells 2).y = 500 ∧ 0 ≤ (s.cells 2).size ∧
    145 ≤ calMass (s.cells 2).size

theorem Cornered.owner (h : Cornered s) : (s.cells 2).playerid = 8 :=
  h.sound.owner_cellsOf h.hunter

theorem Cornered.eaten (h : Cornered s) {c : Nat} (hc : c = 1 ∨ c = 3) :
    canEat (s.cells 2) (s.cells c) = true := by
  obtain ⟨howner, htimer, hmass, hle, hge, hy⟩ := h.small c hc
  obtain ⟨hx₂, hy₂, hsize, hlarge⟩ := h.large
  refine canEat_iff.mpr ⟨?_, htimer, ?_, ?_⟩
  · rw [h.owner, howner]
    decide
  · unfold calMass at hmass hlarge
    by_contra hnot
    have hle := mul_self_le_mul_self hsize (not_lt.mp hnot)
    nlinarith
  · rw [hx₂, hy₂, hy]
    unfold calMass at hlarge
    nlinarith

theorem Cornered.safe (h : Cornered s) {c : Nat} (hc : c = 1 ∨ c = 3) :
    ¬canEat (s.cells c) (s.cells 2) = true := by
  intro hcan
  obtain ⟨-, -, hmass, hle, hge, hy⟩ := h.small c hc
  obtain ⟨hx₂, hy₂, -, -⟩ := h.large
  obtain ⟨-, -, -, hnear⟩ := canEat_iff.mp hcan
  rw [hx₂, hy₂, hy] at hnear
  unfold calMass at hmass
  nlinarith

/-- Only the large cell eats. -/
theorem Cornered.eats (h : Cornered s) {e : Candidate} (he : s.Eats e) :
    e.eaterCid = 2 ∧ (e.targetCid = 1 ∨ e.targetCid = 3) := by
  obtain ⟨heater, htarget, hcan⟩ := he
  have howner := (canEat_iff.mp hcan).1
  rcases h.alive _ (mem_cellsOf_alive heater) with hsmall | heater
  · rcases h.alive _ (mem_cellsOf_alive htarget) with hsmall' | htarget
    · exact absurd ((h.small _ hsmall).1.trans (h.small _ hsmall').1.symm) howner
    · rw [htarget] at hcan
      exact absurd hcan (h.safe hsmall)
  · refine ⟨heater, (h.alive _ (mem_cellsOf_alive htarget)).resolve_right fun htarget => ?_⟩
    rw [heater, htarget] at howner
    exact howner rfl

theorem Cornered.eatCandidate (h : Cornered s) (e : Candidate) :
    Cornered (Scene.eatCandidate s e).1 := by
  by_cases heats : s.Eats e
  · obtain ⟨heater, htarget⟩ := h.eats heats
    have hcellsOf : ∀ p, (Scene.eatCandidate s e).1.cellsOf p =
        (s.cellsOf p).erase e.targetCid := fun p => by
      rw [eatCandidate_cellsOf h.sound, if_pos heats]
    have hcells : (Scene.eatCandidate s e).1.cells = (s.fed e).cells := by
      obtain ⟨t, -, -, heq⟩ := eatCandidate_of_eats heats
      rw [heq]
      rfl
    have hother : ∀ c, c ≠ 2 → (Scene.eatCandidate s e).1.cells c = s.cells c := fun c hc => by
      rw [hcells]
      exact Function.update_of_ne (heater ▸ hc) ..
    have hfed : (Scene.eatCandidate s e).1.cells 2 = { s.cells 2 with
        size := sqrt (calMass (s.cells 2).size + calMass (s.cells e.targetCid).size) } := by
      rw [hcells, ← heater]
      exact Function.update_self ..
    refine ⟨eatCandidate_sound h.sound e, fun c hc => ?_, ?_, fun c hc => ?_, ?_⟩
    · obtain ⟨p, r, hr, hc⟩ := Scene.mem_alive.mp hc
      have hin : c ∈ (Scene.eatCandidate s e).1.cellsOf p := by
        unfold cellsOf
        rw [hr]
        exact hc
      rw [hcellsOf] at hin
      exact h.alive c (mem_cellsOf_alive (Finset.mem_of_mem_erase hin))
    · rw [hcellsOf]
      refine Finset.mem_erase.mpr ⟨?_, h.hunter⟩
      rintro htwo
      rw [← htwo] at htarget
      simp at htarget
    · rw [hother c (by rcases hc with rfl | rfl <;> decide)]
      exact h.small c hc
    · rw [hfed]
      obtain ⟨hx, hy, -, hlarge⟩ := h.large
      have hmass := (h.small _ htarget).2.2.1
      refine ⟨hx, hy, LawfulSqrt.sqrt_nonneg _, ?_⟩
      refine le_of_le_of_eq ?_ (LawfulSqrt.mul_self_sqrt _ ?_).symm
      · linarith
      · linarith
  · rw [eatCandidate_of_not heats]
    exact h

theorem Cornered.eatCandidates (h : Cornered s) (es : List Candidate) :
    Cornered (Scene.eatCandidates es s).1 := by
  induction es generalizing s with
  | nil => exact h
  | cons e es ih => exact ih (h.eatCandidate e)

theorem Cornered.hunted (h : Cornered s) (o : Order) : Cornered (Scene.hunted o s) := by
  obtain ⟨hplayers, htables, -, hcells⟩ := hunted_spec o h.sound
  refine ⟨hunted_sound o h.sound, fun c hc => h.alive c ?_, ?_, fun c hc => ?_, ?_⟩
  · rwa [alive_congr hplayers fun r => by rw [htables]] at hc
  · rw [hunted_cellsOf o h.sound]
    exact h.hunter
  · have hsame : (Scene.hunted o s).cells c = s.cells c := by
      rw [hcells c, worn, if_neg (not_lt.mpr (h.small c hc).2.1), ite_self]
    rw [hsame]
    exact h.small c hc
  · obtain ⟨hx, hy, hsize, -⟩ := hunted_cell o h.sound 2
    rw [hx, hy, hsize]
    exact h.large

/-- Whoever is cornered is eaten out. -/
theorem Cornered.eatPlayer (h : Cornered s) (o : Order) (hs : s.Hunting) :
    (Scene.eatPlayer o s).1.cellsOf 7 = ∅ := by
  refine Finset.eq_empty_iff_forall_notMem.mpr fun c hc => ?_
  have hhunted := h.hunted o
  have hleft := hhunted.eatCandidates (candidates o s)
  have hcs : c = 1 ∨ c = 3 := by
    refine (hleft.alive c (mem_cellsOf_alive hc)).resolve_right fun htwo => ?_
    rw [htwo] at hc
    have howner := hleft.sound.owner_cellsOf hc
    rw [hleft.owner] at howner
    cases howner
  have hin : c ∈ s.cellsOf 7 := by
    have hsub := eatCandidates_cellsOf (candidates o s) hhunted.sound 7
    rw [← eatPlayer_eq, hunted_cellsOf o h.sound] at hsub
    rw [hsub] at hc
    exact (Finset.mem_sdiff.mp hc).1
  have hmem := mem_candidates o hs (mem_cellsOf_alive h.hunter) (mem_cellsOf_alive hin)
    (hhunted.eaten hcs)
  rw [h.owner, (h.small c hcs).1] at hmem
  exact eatCandidates_hungry _ hhunted.sound hmem hleft.hunter
    (fun n => (hhunted.eatCandidates _).eaten hcs) hc

theorem Duel.split_started (es : List (Event ℝ)) (h : Duel (run start es) mass t) :
    (run start (es ++ [.input .ascending 7 splitInput])).gameStarted = true := by
  have hrun : run start (es ++ [.input .ascending 7 splitInput]) =
      inputFrame .ascending (run start es) 7 splitInput := by
    simp [run, step]
  have houter := (inputFrame_same .ascending (run start es) 7 splitInput).outer
  simp only [outer, Prod.mk.injEq] at houter
  rw [hrun, houter.2.2.2.2]
  exact h.started

/-- Both cells of player 7 lie in front of the large one, and that one lies on a food. -/
structure Facing (s : Scene ℝ) (f : Nat) : Prop where
  players : ∀ p r, s.players.get p = some r ↔ p = 7 ∧ r = 0 ∨ p = 8 ∧ r = 1
  first : (s.tables 0).cells = {1, 3}
  second : (s.tables 1).cells = {2}
  small : ∀ c, c = 1 ∨ c = 3 → (s.cells c).playerid = 7 ∧ (s.cells c).protectedTimer = 0 ∧
    calMass (s.cells c).size = 8 ∧ 500 ≤ (s.cells c).x ∧ (s.cells c).x ≤ 502 ∧ (s.cells c).y = 500
  large : s.cells 2 = duelCell 2 144 0
  foods : s.foods = {f}
  place : (s.foodTables f).x = 512 ∧ (s.foodTables f).y = 500
  spores : s.spores = ∅

/-- The next frame, in which the half of the small cell flies towards the large one. -/
theorem Duel.facing (es : List (Event ℝ)) (h : Duel (run start es) mass 0)
    (hsmall : mass 1 = 16) (hlarge : mass 2 = 144) :
    ∃ f, Facing (beforeEating .ascending (mealAt 2) (processCommands .ascending
      (beforeCommands .ascending (mealAt 2)
        (run start (es ++ [.input .ascending 7 splitInput]))))) f := by
  have hrun : run start (es ++ [.input .ascending 7 splitInput]) =
      inputFrame .ascending (run start es) 7 splitInput := by
    simp [run, step]
  have hmoving := moving_sound (es ++ [.input .ascending 7 splitInput]) .ascending (mealAt 2)
  obtain ⟨hplayers, hset, hstill, hother, hone, htwo, hthree, hfoods, hcount, hspores⟩ :=
    h.split hsmall (mealAt 2)
  have htwo := htwo.trans (h.cells 2 (.inr rfl))
  rw [hrun] at hmoving ⊢
  generalize processCommands .ascending (beforeCommands .ascending (mealAt 2)
    (inputFrame .ascending (run start es) 7 splitInput)) = s at *
  -- a food appears under the large cell
  obtain ⟨tr, e, hfood⟩ := foodUpdate_draw beside (s := s) (by rw [hcount]; decide)
  obtain ⟨u, hu⟩ : ∃ u, u = foodUpdate (mealAt 2).food s := ⟨_, rfl⟩
  have hfood : u = _ := hu.trans hfood
  have huplayers : u.players = (run start es).players := by rw [hfood, ← hplayers]
  have hutables : u.tables = s.tables := by rw [hfood]
  have hucells : u.cells = s.cells := by rw [hfood]
  have huspores : u.spores = ∅ := by rw [hfood, ← hspores]
  have hufoods : u.foods = {s.foodMaxid + 1} := by
    rw [hfood]
    show insert (s.foodMaxid + 1) s.foods = _
    rw [hfoods]
    rfl
  have hplace : (u.foodTables (s.foodMaxid + 1)).x = 512 ∧
      (u.foodTables (s.foodMaxid + 1)).y = 500 := by
    rw [hfood]
    simp only [Function.update_self]
    norm_num [middle, beside]
  -- the cells move
  unfold beforeEating
  rw [← hu, sporesMove_none .ascending huspores] at hmoving ⊢
  obtain ⟨g, f, hmove, hmoved⟩ := cellMove_cells .ascending hmoving
  obtain ⟨tr', k, hclean⟩ := cleanup_eq .ascending (cellMove .ascending u)
  rw [hclean, hmove]
  have h₇ : u.players.get 7 = some 0 := huplayers ▸ (h.players 7 0).mpr (.inl ⟨rfl, rfl⟩)
  have h₈ : u.players.get 8 = some 1 := huplayers ▸ (h.players 8 1).mpr (.inr ⟨rfl, rfl⟩)
  have hbone : f 1 = { duelCell 1 8 0 with mergeTimer := 60 } := by
    rw [hmoved 7 0 1 h₇ (by rw [hutables, hset]; decide), hutables, hucells,
      followTarget_still hstill, hone, applyBoost_zero (by rfl) (by rfl)]
    exact clampCell_inside_eq (duelCell_inside (.inl rfl) 8 0)
  have hbtwo : f 2 = duelCell 2 144 0 := by
    rw [hmoved 8 1 2 h₈ (by rw [hutables, hother]; decide), hutables, hucells,
      followTarget_still (by rw [hother]; rfl), htwo, hlarge, applyBoost_zero (by rfl) (by rfl)]
    exact clampCell_inside_eq (duelCell_inside (.inr rfl) 144 0)
  have hbthree : f 3 = { duelCell 1 8 0 with
      parentId := some 1
      x := 502
      mergeTimer := 60
      boostVx := 17 / 2 } := by
    rw [hmoved 7 0 3 h₇ (by rw [hutables, hset]; decide), hutables, hucells,
      followTarget_still hstill, hthree]
    have hboost : applyBoost { duelCell 1 8 0 with
        parentId := some 1
        mergeTimer := 60
        boostVx := 10 } = { duelCell 1 8 0 with
        parentId := some 1
        x := 502
        mergeTimer := 60
        boostVx := 17 / 2 } := by
      unfold applyBoost duelCell
      norm_num
    rw [hboost]
    exact clampCell_inside_eq (by simp only [Inside, duelCell, sceneWidth]; norm_num)
  have hmass := duelCell_mass 1 8 0
  refine ⟨s.foodMaxid + 1, ?_, ?_, ?_, ?_, hbtwo, hufoods, hplace, huspores⟩
  · show ∀ p r, u.players.get p = some r ↔ _
    rw [huplayers]
    exact h.players
  · show (u.tables 0).cells = _
    rw [hutables, hset]
  · show (u.tables 1).cells = _
    rw [hutables, hother]
    rfl
  · rintro c (rfl | rfl)
    · show (f 1).playerid = 7 ∧ (f 1).protectedTimer = 0 ∧ calMass (f 1).size = 8 ∧
        500 ≤ (f 1).x ∧ (f 1).x ≤ 502 ∧ (f 1).y = 500
      rw [hbone]
      refine ⟨rfl, rfl, hmass.trans (by norm_num), ?_, ?_, rfl⟩
      · norm_num [duelCell]
      · norm_num [duelCell]
    · show (f 3).playerid = 7 ∧ (f 3).protectedTimer = 0 ∧ calMass (f 3).size = 8 ∧
        500 ≤ (f 3).x ∧ (f 3).x ≤ 502 ∧ (f 3).y = 500
      rw [hbthree]
      refine ⟨rfl, rfl, hmass.trans (by norm_num), ?_, ?_, rfl⟩
      · norm_num
      · norm_num

theorem Facing.mem_alive {f : Nat} (h : Facing s f) {c : Nat} :
    c ∈ s.alive ↔ (c = 1 ∨ c = 3) ∨ c = 2 := by
  rw [Scene.mem_alive]
  constructor
  · rintro ⟨p, r, hr, hc⟩
    obtain ⟨-, rfl⟩ | ⟨-, rfl⟩ := (h.players p r).mp hr
    · rw [h.first] at hc
      exact .inl (by simpa using hc)
    · rw [h.second] at hc
      exact .inr (Finset.mem_singleton.mp hc)
  · rintro (hc | rfl)
    · refine ⟨7, 0, (h.players 7 0).mpr (.inl ⟨rfl, rfl⟩), ?_⟩
      rw [h.first]
      simpa using hc
    · refine ⟨8, 1, (h.players 8 1).mpr (.inr ⟨rfl, rfl⟩), ?_⟩
      rw [h.second]
      exact Finset.mem_singleton_self 2

/-- The large cell eats the food, and is large enough then to reach both of the others. -/
theorem Facing.cornered {f : Nat} (h : Facing s f) (hready : s.Stocked)
    (hsound : (eatSpore .ascending (eatFood .ascending s)).Sound) :
    Cornered (eatSpore .ascending (eatFood .ascending s)) ∧
      (eatSpore .ascending (eatFood .ascending s)).cellsOf 7 = {1, 3} ∧
      ∀ c ∈ (eatSpore .ascending (eatFood .ascending s)).alive,
        0 ≤ ((eatSpore .ascending (eatFood .ascending s)).cells c).protectedTimer := by
  have hmass := duelCell_mass 2 144 0
  obtain ⟨g, e, hate⟩ := eatFood_single .ascending hready (h.mem_alive.mpr (.inr rfl)) h.foods
    (by
      rw [h.large]
      exact LawfulSqrt.sqrt_nonneg _)
    (by
      unfold FoodInside
      rw [h.place.1, h.place.2, h.large, pow_two (duelCell 2 144 0).size]
      refine lt_of_lt_of_eq ?_ hmass.symm
      norm_num [duelCell])
    (by
      intro c hc hne
      obtain ⟨-, -, hmass, hle, hge, hy⟩ := h.small c ((h.mem_alive.mp hc).resolve_right hne)
      unfold FoodInside
      rw [h.place.1, h.place.2, hy]
      unfold calMass at hmass
      nlinarith)
  have hspores : (eatFood .ascending s).spores = ∅ := by
    rw [hate]
    exact h.spores
  rw [eatSpore_none .ascending hspores] at hsound ⊢
  generalize eatFood .ascending s = a at hate hsound ⊢
  have hplayers : a.players = s.players := by rw [hate]
  have htables : a.tables = s.tables := by rw [hate]
  have halive : ∀ c, c ∈ a.alive ↔ (c = 1 ∨ c = 3) ∨ c = 2 := by
    intro c
    rw [alive_congr hplayers fun r => by rw [htables]]
    exact h.mem_alive
  have hsmall : ∀ c, c = 1 ∨ c = 3 → a.cells c = s.cells c := by
    intro c hc
    rw [hate]
    exact Function.update_of_ne (by rcases hc with rfl | rfl <;> decide) ..
  have hlarge : a.cells 2 = duelCell 2 145 0 := by
    rw [hate]
    show Function.update s.cells 2 _ 2 = _
    rw [Function.update_self, h.large, hmass]
    unfold duelCell
    norm_num
  have hsevens : a.cellsOf 7 = {1, 3} := by
    unfold cellsOf
    rw [hplayers, (h.players 7 0).mpr (.inl ⟨rfl, rfl⟩)]
    exact (congrArg (fun ts => (ts 0).cells) htables).trans h.first
  have heights : a.cellsOf 8 = {2} := by
    unfold cellsOf
    rw [hplayers, (h.players 8 1).mpr (.inr ⟨rfl, rfl⟩)]
    exact (congrArg (fun ts => (ts 1).cells) htables).trans h.second
  refine ⟨⟨hsound, fun c hc => (halive c).mp hc, ?_, fun c hc => ?_, ?_⟩, hsevens, fun c hc => ?_⟩
  · rw [heights]
    exact Finset.mem_singleton_self 2
  · rw [hsmall c hc]
    obtain ⟨howner, htimer, hrest⟩ := h.small c hc
    exact ⟨howner, htimer.le, hrest⟩
  · rw [hlarge]
    refine ⟨by norm_num [duelCell], rfl, LawfulSqrt.sqrt_nonneg _, ?_⟩
    exact le_of_le_of_eq (by norm_num) (duelCell_mass 2 145 0).symm
  · rcases (halive c).mp hc with hc | rfl
    · rw [hsmall c hc]
      exact (h.small c hc).2.1.ge
    · rw [hlarge]
      exact le_rfl

theorem Duel.cornered (es : List (Event ℝ)) (h : Duel (run start es) mass 0)
    (hsmall : mass 1 = 16) (hlarge : mass 2 = 144) :
    let before := prey .ascending (mealAt 2) (processCommands .ascending (beforeCommands .ascending
      (mealAt 2) (run start (es ++ [.input .ascending 7 splitInput]))))
    before.Hunting ∧ Cornered before ∧ before.cellsOf 7 = {1, 3} := by
  obtain ⟨f, hfacing⟩ := h.facing es hsmall hlarge
  have hready := eating_stocked (es ++ [.input .ascending 7 splitInput]) .ascending (mealAt 2)
    (h.split_started es)
  obtain ⟨hsound, hgrid, hsizes⟩ :=
    prey_right (es ++ [.input .ascending 7 splitInput]) .ascending (mealAt 2)
  obtain ⟨hcornered, hcells, htimers⟩ := hfacing.cornered hready hsound
  exact ⟨⟨hsound, fun c hc => zero_lt_one.trans_le (hsizes c hc), htimers, hgrid⟩, hcornered,
    hcells⟩

/-- Both players grow, and then player 7 is split in front of player 8. -/
noncomputable def duelEvents : List (Event ℝ) :=
  duelEnters ++ List.replicate 15 (.frame .ascending (mealAt 1)) ++
    List.replicate 143 (.frame .ascending (mealAt 2)) ++ [.input .ascending 7 splitInput]

/-- Player 7 loses both cells to player 8 in one frame and is reported twice. -/
theorem death_reported_twice :
    let before := prey .ascending (mealAt 2) (processCommands .ascending (beforeCommands .ascending
      (mealAt 2) (run start duelEvents)))
    let event := (update .ascending (mealAt 2) (run start duelEvents)).event
    before.cellsOf 7 = {1, 3} ∧ (eatPlayer .ascending before).1.cellsOf 7 = ∅ ∧
      event.deadPlayerids.count 7 = 2 ∧ (killersOf event.toRoom 7).length = 2 ∧
      ¬Reported .ascending before event 7 := by
  have hgrown := duel_enters.feast duelEnters (fun _ => by decide) (.inl rfl) le_rfl
    (n := 15) (by decide)
  have hready := hgrown.feast _ (fun i => by
      by_cases hi : i = 1
      · rw [hi, Function.update_self]
        decide
      · rw [Function.update_of_ne hi]
        decide) (.inr rfl) le_rfl (n := 143) le_rfl
  obtain ⟨hhunting, hcornered, hcells⟩ := hready.cornered _ rfl rfl
  intro before event
  have hcells : before.cellsOf 7 = {1, 3} := hcells
  have hcornered : Cornered before := hcornered
  have hleft : (eatPlayer .ascending before).1.cellsOf 7 = ∅ :=
    hcornered.eatPlayer .ascending hhunting
  have hsilent : before.obituary = fun _ => (0, []) :=
    (prey_obituary ..).trans ((processCommands_obituary ..).trans (beforeCommands_obituary ..))
  have hgone : (eatCell .ascending before).cellsOf 7 = ∅ := (eatCell_cellsOf ..).trans hleft
  have hstarted : (run start duelEvents).gameStarted = true := hready.split_started _
  have hobituary : (event.deadPlayerids.count 7, killersOf event.toRoom 7) =
      (eatCell .ascending before).obituary 7 :=
    update_obituary .ascending (mealAt 2) hstarted 7
  obtain ⟨hcount, hlength, hkillers⟩ := reports_of_none_left .ascending hcornered.sound hsilent
    hobituary hgone
  have htwo : (before.cellsOf 7).card = 2 := by
    rw [hcells]
    decide
  refine ⟨hcells, hleft, hcount.trans htwo, ?_, fun hreported => ?_⟩
  · rw [hkillers, List.length_map, hlength, htwo]
  unfold Reported at hreported
  rw [if_pos ⟨by rw [hcells]; decide, hgone⟩] at hreported
  exact absurd (hcount.symm.trans hreported.1) (by rw [htwo]; decide)

theorem deaths_reported_duel :
    let before := prey .ascending (mealAt 1) (processCommands .ascending (beforeCommands .ascending
      (mealAt 1) (run start duelEnters)))
    Reported .ascending before (update .ascending (mealAt 1) (run start duelEnters)).event 7 ↔
      (before.cellsOf 7).card ≤ 1 ∨ (eatPlayer .ascending before).1.cellsOf 7 ≠ ∅ :=
  deaths_reported_iff duelEnters duel_enters.started .ascending (mealAt 1) 7

end Duel

end Scene

end BallServer.Ball
