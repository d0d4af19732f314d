import BallServer.Broadcast.Messages
import BallServer.Scene.Deaths
import BallServer.Scene.Foods

/-!
# What a frame tells about the food

Main results:

- Definition {lit}`receive`: what the client does to its food.
- Theorem {lit}`frame_foods`: the message of a frame leads from the food before the frame to
  the food after it.
-/

namespace BallServer.Broadcast

open BallServer.Ball
open BallServer.Ball.Scene

variable {K : Type} [Field K] [LinearOrder K]

/-! ## The client -/

/-- {lit}`AddOrUpdateFood`. -/
def addOrUpdateFood (foods : Nat → Option (K × K)) (f : Nat × K × K) : Nat → Option (K × K) :=
  Function.update foods f.1 (some f.2)

/-- {lit}`RemoveFood`. -/
def removeFood (foods : Nat → Option (K × K)) (f : Nat) : Nat → Option (K × K) :=
  Function.update foods f none

/-- {lit}`OnSceneSnapshot` and {lit}`OnFrameUpdate`, as far as food is concerned. -/
def receive (foods : Nat → Option (K × K)) : Msg K → Nat → Option (K × K)
  | .sceneSnapshot _ _ fs _ => fs.foldl addOrUpdateFood fun _ => none
  | .frameUpdate _ newFoods _ eatenFoodIds _ _ _ _ _ =>
      eatenFoodIds.foldl removeFood (newFoods.foldl addOrUpdateFood foods)

omit [Field K] [LinearOrder K] in
theorem foldl_removeFood (l : List Nat) (foods : Nat → Option (K × K)) (f : Nat) :
    l.foldl removeFood foods f = if f ∈ l then none else foods f := by
  induction l generalizing foods with
  | nil => rfl
  | cons g l ih =>
      rw [List.foldl_cons, ih]
      by_cases hl : f ∈ l
      · rw [if_pos hl, if_pos (List.mem_cons_of_mem _ hl)]
      · rw [if_neg hl]
        by_cases hg : f = g
        · rw [if_pos (hg ▸ List.mem_cons_self), hg]
          exact Function.update_self ..
        · rw [if_neg (by simp [hg, hl])]
          exact Function.update_of_ne hg ..

theorem foldl_addOrUpdateFood (s : Scene K) (l : List Nat) (foods : Nat → Option (K × K))
    (f : Nat) : (l.map (foodInfo s)).foldl addOrUpdateFood foods f =
      if f ∈ l then some ((s.foodTables f).x, (s.foodTables f).y) else foods f := by
  induction l generalizing foods with
  | nil => rfl
  | cons g l ih =>
      rw [List.map_cons, List.foldl_cons, ih]
      by_cases hl : f ∈ l
      · rw [if_pos hl, if_pos (List.mem_cons_of_mem _ hl)]
      · rw [if_neg hl]
        by_cases hg : f = g
        · rw [if_pos (hg ▸ List.mem_cons_self), hg]
          exact Function.update_self ..
        · rw [if_neg (by simp [hg, hl])]
          exact Function.update_of_ne hg ..

variable [FloorRing K]

/-- A snapshot has all the food in it. -/
theorem receive_snapshotMsg (o : Order) (s : Scene K) (tick : Nat) (x : Player K)
    (foods : Nat → Option (K × K)) : receive foods (snapshotMsg o s tick x) = foodMap s := by
  funext f
  refine (foldl_addOrUpdateFood s _ _ f).trans ?_
  unfold foodMap
  simp only [o.mem_pairs]

/-! ## What the phases tell -/

/-- Where the foods are, and which are told to be new. -/
def fresh (s : Scene K) : (Nat → Food K) × List (Nat × K × K) :=
  (s.foodTables, s.event.newFoods)

variable {s s' : Scene K}

omit [FloorRing K] in
theorem fresh_of_event (htables : s'.foodTables = s.foodTables) (hevent : s'.event = s.event) :
    fresh s' = fresh s := by
  unfold fresh
  rw [htables, hevent]

theorem flushPendingLeaves_fresh (o : Order) (s : Scene K) :
    fresh (flushPendingLeaves o s) = fresh s := by
  refine foldl_view (v := fresh) (fun s₁ p => ?_) _ s
  obtain ⟨g, hg⟩ := leave_eq o s₁ p
  rw [hg]
  rfl

theorem flushPendingRebirth_fresh (o : Order) (at_ : Nat → Fin 1001 × Fin 1001) (s : Scene K) :
    fresh (flushPendingRebirth o at_ s) = fresh s := by
  refine foldl_view (v := fresh) (fun s₁ p => ?_) _ s
  unfold rebear
  split <;> rfl

variable [Sqrt K]

omit [FloorRing K] in
theorem runAction_fresh (o : Order) (r : Nat) (s : Scene K) (a : Action K × Nat) :
    fresh (runAction o r s a) = fresh s := by
  have htables : (runAction o r s a).foodTables = s.foodTables :=
    congrArg (fun a => a.2.foodTables) (runAction_aside o r s a)
  have hnew : (runAction o r s a).event.newFoods = s.event.newFoods := by
    unfold runAction
    split
    · have hsplit := congrArg FrameEvent.newFoods (doSplit_event o (.action r a.2) s r a.1)
      exact hsplit
    · have hspit := congrArg FrameEvent.newFoods (spitSpore_event o (.action r a.2) s r a.1)
      exact hspit
  exact Prod.ext htables hnew

omit [FloorRing K] in
theorem processCommands_fresh (o : Order) (s : Scene K) :
    fresh (processCommands o s) = fresh s := by
  refine foldl_view (v := fresh) (fun s₁ r => ?_) _ s
  exact foldl_view (v := fresh) (fun s₂ a => runAction_fresh o r s₂ a) _ s₁

omit [Sqrt K] in
theorem sporesMove_fresh (o : Order) (s : Scene K) : fresh (sporesMove o s) = fresh s :=
  foldl_view (v := fresh) (f := sporeMove) (fun _ _ => rfl) _ s

theorem cellMove_fresh (o : Order) (s : Scene K) : fresh (cellMove o s) = fresh s := by
  refine foldl_view (v := fresh) (fun s₁ p => ?_) _ s
  unfold moveCells
  split
  · rfl
  next r hr => exact foldl_view (v := fresh) (f := moveCell r) (fun _ _ => rfl) _ s₁

omit [FloorRing K] [Sqrt K] in
@[simp]
theorem insertFood_foods (s : Scene K) (f : Nat) : (insertFood s f).foods = s.foods := by
  unfold insertFood
  split <;> rfl

omit [FloorRing K] [Sqrt K] in
@[simp]
theorem insertFood_foodTables (s : Scene K) (f : Nat) :
    (insertFood s f).foodTables = s.foodTables := by
  unfold insertFood
  split <;> rfl

omit [FloorRing K] [Sqrt K] in
@[simp]
theorem insertFood_event (s : Scene K) (f : Nat) : (insertFood s f).event = s.event := by
  unfold insertFood
  split <;> rfl

omit [FloorRing K] [Sqrt K] in
theorem insertFood_fresh (s : Scene K) (f : Nat) : fresh (insertFood s f) = fresh s :=
  fresh_of_event (insertFood_foodTables s f) (insertFood_event s f)

omit [FloorRing K] [Sqrt K] in
theorem cleanup_fresh (o : Order) (s : Scene K) : fresh (cleanup o s) = fresh s := by
  unfold cleanup
  split
  · exact foldl_view (v := fresh) insertFood_fresh _ _
  · rfl

theorem eatFood_fresh (o : Order) (s : Scene K) : fresh (eatFood o s) = fresh s := by
  refine foldl_view (v := fresh) (fun s₁ c => foldl_view (v := fresh) (fun s₂ f => ?_) _ s₁) _ s
  simp only [eatOneFood]
  split <;> rfl

theorem eatCell_fresh (o : Order) (s : Scene K) : fresh (eatCell o s) = fresh s := by
  have heat : fresh (eatPlayer o s).1 = fresh s :=
    fresh_of_event (congrArg (fun a => a.2.foodTables) (eatPlayer_aside o s)) (eatPlayer_event o s)
  refine (foldl_view (v := fresh) (fun s₁ e => ?_) _ _).trans heat
  unfold reportDeath
  split
  · rfl
  · split <;> rfl

/-- After {lit}`food_update` nothing is told to be new. -/
theorem afterCommands_fresh (o : Order) (d : Draws) (s : Scene K) :
    fresh (afterCommands o d s) = fresh (foodUpdate d.food s) := by
  have hbefore : fresh (beforeEating o d s) = fresh (foodUpdate d.food s) :=
    (cleanup_fresh o _).trans ((cellMove_fresh o _).trans (sporesMove_fresh o _))
  have hspore (s₁ : Scene K) : fresh (eatSpore o s₁) = fresh s₁ :=
    fresh_of_event (congrArg (fun a => a.2.foodTables) (eatSpore_aside o s₁)) (eatSpore_event o s₁)
  have hmerge (s₁ : Scene K) : fresh (mergeUpdate o s₁) = fresh s₁ :=
    fresh_of_event (congrArg (fun a => a.2.foodTables) (mergeUpdate_aside o s₁))
      (mergeUpdate_event o s₁)
  have hcollision (s₁ : Scene K) : fresh (collisionUpdate o s₁) = fresh s₁ :=
    fresh_of_event (congrArg (fun a => a.2.foodTables) (collisionUpdate_aside o s₁))
      (collisionUpdate_event o s₁)
  exact (hcollision _).trans ((hmerge _).trans ((eatCell_fresh o _).trans ((hspore _).trans
    ((eatFood_fresh o _).trans hbefore))))

/-- Before {lit}`food_update` nothing is told to be new, and the food stays. -/
theorem beforeCommands_fresh (o : Order) (d : Draws) (s : Scene K) :
    fresh (processCommands o (beforeCommands o d s)) = (s.foodTables, []) ∧
      (processCommands o (beforeCommands o d s)).foods = s.foods ∧
      (processCommands o (beforeCommands o d s)).event.eatenFoodIds = [] := by
  have hfresh : fresh (processCommands o (beforeCommands o d s)) =
      fresh ({ s with event := .empty } : Scene K) :=
    (processCommands_fresh o _).trans
      ((flushPendingRebirth_fresh o d.rebirth _).trans (flushPendingLeaves_fresh o _))
  have hpantry : (processCommands o (beforeCommands o d s)).pantry =
      ({ s with event := .empty } : Scene K).pantry :=
    (processCommands_pantry o _).trans
      ((aside_pantry (flushPendingRebirth_aside o d.rebirth _)).trans
        (aside_pantry (flushPendingLeaves_aside o _)))
  exact ⟨hfresh, congrArg Pantry.foods hpantry, congrArg Pantry.eatenFoodIds hpantry⟩

/-- The foods, and which were eaten. -/
def left (s : Scene K) : Finset Nat × List Nat := (s.foods, s.event.eatenFoodIds)

/-- Until {lit}`eat_food` no food is eaten. -/
theorem beforeEating_left (o : Order) (d : Draws) (s : Scene K) :
    left (beforeEating o d s) = left (foodUpdate d.food s) := by
  have hpantry := aside_pantry ((cellMove_aside o (sporesMove o (foodUpdate d.food s))).trans
    (sporesMove_aside o _))
  have hmove : left (cellMove o (sporesMove o (foodUpdate d.food s))) =
      left (foodUpdate d.food s) :=
    Prod.ext (congrArg Pantry.foods hpantry) (congrArg Pantry.eatenFoodIds hpantry)
  have hinsert (s₁ : Scene K) (f : Nat) : left (insertFood s₁ f) = left s₁ := by
    unfold left
    rw [insertFood_foods, insertFood_event]
  refine Eq.trans ?_ hmove
  unfold beforeEating cleanup
  split
  · exact foldl_view (v := left) hinsert _ _
  · rfl

omit [FloorRing K] [Sqrt K] in
/-- A new food is told. -/
theorem foodUpdate_foods (draw : Option (Fin 1001 × Fin 1001)) (hnone : s.event.newFoods = []) :
    (foodUpdate draw s).event.newFoods.foldl addOrUpdateFood (foodMap s) =
      foodMap (foodUpdate draw s) ∧
    (foodUpdate draw s).event.eatenFoodIds = s.event.eatenFoodIds := by
  unfold foodUpdate
  split
  · rw [hnone]
    exact ⟨rfl, rfl⟩
  · split
    · rw [hnone]
      exact ⟨rfl, rfl⟩
    · rename_i x y
      dsimp only
      refine ⟨?_, ?_⟩
      · rw [insertFood_event, hnone]
        funext f
        unfold foodMap
        rw [insertFood_foods, insertFood_foodTables]
        by_cases hf : f = s.foodMaxid + 1
        · subst hf
          simp [addOrUpdateFood]
        · simp [addOrUpdateFood, hf]
      · rw [insertFood_event]

/-- The message of a frame leads from the food before the frame to the food after it. -/
theorem frame_foods (o : Order) (d : Draws) (s : Scene K) (tick p : Nat) (x : Player K) :
    receive (foodMap s) (frameUpdateMsg (broadcast o d s) tick p x) =
      foodMap (broadcast o d s) := by
  obtain ⟨hfirst, hfoods, hnone⟩ := beforeCommands_fresh o d s
  have hmap : foodMap (processCommands o (beforeCommands o d s)) = foodMap s := by
    have htables : (processCommands o (beforeCommands o d s)).foodTables = s.foodTables :=
      congrArg Prod.fst hfirst
    funext f
    unfold foodMap
    rw [hfoods, htables]
  obtain ⟨hnew, heaten⟩ := foodUpdate_foods d.food (congrArg Prod.snd hfirst)
  have hlast := afterCommands_fresh o d (processCommands o (beforeCommands o d s))
  have hleft := beforeEating_left o d (processCommands o (beforeCommands o d s))
  unfold broadcast
  generalize processCommands o (beforeCommands o d s) = s₁ at *
  have hmeal := eatFood_meal o (beforeEating o d s₁)
  have hpantry : (afterCommands o d s₁).pantry = (eatFood o (beforeEating o d s₁)).pantry :=
    (aside_pantry (collisionUpdate_aside o _)).trans
      ((aside_pantry (mergeUpdate_aside o _)).trans ((aside_pantry (eatCell_aside o _)).trans
        (aside_pantry (eatSpore_aside o _))))
  obtain ⟨new, hreport, -, hgone⟩ := hmeal.eaten
  have hfoodsBefore : (beforeEating o d s₁).foods = (foodUpdate d.food s₁).foods :=
    congrArg Prod.fst hleft
  have heatenBefore : (beforeEating o d s₁).event.eatenFoodIds = [] :=
    (congrArg Prod.snd hleft).trans (heaten.trans hnone)
  have hfoodsAfter : (afterCommands o d s₁).foods = (eatFood o (beforeEating o d s₁)).foods :=
    congrArg Pantry.foods hpantry
  have heatenAfter : (afterCommands o d s₁).event.eatenFoodIds = new := by
    refine (congrArg Pantry.eatenFoodIds hpantry).trans (hreport.trans ?_)
    rw [heatenBefore, List.nil_append]
  have hnewAfter : (afterCommands o d s₁).event.newFoods = (foodUpdate d.food s₁).event.newFoods :=
    congrArg Prod.snd hlast
  have htables : (afterCommands o d s₁).foodTables = (foodUpdate d.food s₁).foodTables :=
    congrArg Prod.fst hlast
  rw [hfoodsBefore, ← hfoodsAfter] at hgone
  have hsub : (afterCommands o d s₁).foods ⊆ (foodUpdate d.food s₁).foods := by
    rw [hfoodsAfter, ← hfoodsBefore]
    exact hmeal.subset
  change (afterCommands o d s₁).event.eatenFoodIds.foldl removeFood
    ((afterCommands o d s₁).event.newFoods.foldl addOrUpdateFood (foodMap s)) =
      foodMap (afterCommands o d s₁)
  rw [hnewAfter, heatenAfter, ← hmap, hnew]
  funext f
  rw [foldl_removeFood]
  unfold foodMap
  rw [htables]
  by_cases hin : f ∈ (afterCommands o d s₁).foods
  · rw [if_neg fun h => ((hgone f).mp h).2 hin, if_pos hin, if_pos (hsub hin)]
  · rw [if_neg hin]
    split
    · rfl
    · rename_i hkept
      rw [if_neg fun h => hkept ((hgone f).mpr ⟨h, hin⟩)]

end BallServer.Broadcast
