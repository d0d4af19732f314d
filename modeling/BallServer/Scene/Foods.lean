import BallServer.Scene.Views

/-!
# Food

A food that is eaten leaves the table {lit}`foods` at once and the quadtree only when it is
rebuilt.  Until then queries return it and the table decides whether it is still there.

Main results:

- Structure {lit}`Scene.Stocked`: the counter, the table, the tree and the counter of dead
  objects agree.
- Theorem {lit}`eatFoods_inside`: a cell eats every food that lies in it when its turn begins.
- Theorem {lit}`food_accounted`: what holds after every frame of every run.
-/

namespace BallServer.Ball

open BallServer.Quadtree (Tree retrieveInRadius retrieveInRadius_eq_filter inRadius)

namespace Scene

variable {K : Type} [Field K] [LinearOrder K] [FloorRing K]

/-! ## The pantry -/

/-- The counter is the number of foods and within the limit; the tree holds every food, and
besides as many objects as are counted as dead, none of which is a food. -/
structure Stocked (s : Scene K) : Prop where
  count : s.foodCount = s.foods.card
  le_max : s.foodCount ≤ foodMax
  le_maxid : ∀ f ∈ s.foods, f ≤ s.foodMaxid
  tree : Quadtree.Sound s.foodPlace foodLimits sceneBounds 0 s.foodTree
  stored : ∃ dead : Multiset Nat, s.foodTree.stored = s.foods.val + dead ∧
    dead.card = s.deadFoodInTree ∧ ∀ f ∈ dead, f ∉ s.foods ∧ f ≤ s.foodMaxid
  inside : ∀ f ∈ s.foods, Quadtree.Fits sceneBounds (s.foodPlace f)

variable {s s' : Scene K}

omit [FloorRing K] in
/-- Only the food matters. -/
theorem Stocked.of_pantry (hs : s.Stocked) (h : s'.pantry = s.pantry) : s'.Stocked := by
  have htables : s'.foodTables = s.foodTables := congrArg Pantry.foodTables h
  have hmaxid : s'.foodMaxid = s.foodMaxid := congrArg Pantry.foodMaxid h
  have hcount : s'.foodCount = s.foodCount := congrArg Pantry.foodCount h
  have hfoods : s'.foods = s.foods := congrArg Pantry.foods h
  have htree : s'.foodTree = s.foodTree := congrArg Pantry.foodTree h
  have hdead : s'.deadFoodInTree = s.deadFoodInTree := congrArg Pantry.deadFoodInTree h
  have hplace : s'.foodPlace = s.foodPlace := by
    funext f
    simp only [foodPlace, htables]
  obtain ⟨h₁, h₂, h₃, h₄, h₅, h₆⟩ := hs
  constructor
  · rw [hcount, hfoods]
    exact h₁
  · rw [hcount]
    exact h₂
  · rw [hfoods, hmaxid]
    exact h₃
  · rw [hplace, htree]
    exact h₄
  · rw [htree, hfoods, hdead, hmaxid]
    exact h₅
  · rw [hfoods, hplace]
    exact h₆

omit [FloorRing K] in
/-- Every food is in the tree once, and the rest of the tree is as large as is counted. -/
theorem Stocked.exact (hs : s.Stocked) :
    (∀ f ∈ s.foods, s.foodTree.stored.count f = 1) ∧
      (s.foodTree.stored.filter (· ∉ s.foods)).card = s.deadFoodInTree := by
  obtain ⟨dead, hstored, hcard, hdead⟩ := hs.stored
  refine ⟨fun f hf => ?_, ?_⟩
  · have hnot : f ∉ dead := fun h => (hdead f h).1 hf
    rw [hstored, Multiset.count_add, Multiset.count_eq_zero_of_notMem hnot,
      Multiset.count_eq_one_of_mem s.foods.nodup hf]
  · have hfoods : s.foods.val.filter (· ∉ s.foods) = 0 :=
      Multiset.filter_eq_nil.mpr fun f hf h => h hf
    have hall : dead.filter (· ∉ s.foods) = dead :=
      Multiset.filter_eq_self.mpr fun f hf => (hdead f hf).1
    rw [hstored, Multiset.filter_add, hfoods, hall, zero_add, hcard]

section Tree

variable [IsStrictOrderedRing K]

omit [FloorRing K] [IsStrictOrderedRing K] in
/-- The food goes into the tree. -/
theorem insertFood_spec (f : Nat)
    (htree : Quadtree.Sound s.foodPlace foodLimits sceneBounds 0 s.foodTree)
    (hfits : Quadtree.Fits sceneBounds (s.foodPlace f)) :
    ∃ t, insertFood s f = { s with foodTree := t } ∧
      Quadtree.Sound s.foodPlace foodLimits sceneBounds 0 t ∧
        t.stored = f ::ₘ s.foodTree.stored := by
  obtain ⟨t, hinsert, hsound, hstored⟩ := Quadtree.insert_spec htree
    (show (foodLimits.maxLevels - 0).toNat < 6 by decide) hfits
  refine ⟨t, ?_, hsound, hstored⟩
  unfold insertFood
  rw [hinsert]

/-- A place in the scene. -/
theorem fits_scene (x y : Fin 1001) :
    Quadtree.Fits sceneBounds ({ x := (x : Nat), y := (y : Nat) } : Grid.Place K) := by
  have hx : ((x : Nat) : K) ≤ 1000 := by exact_mod_cast Nat.lt_succ_iff.mp x.isLt
  have hy : ((y : Nat) : K) ≤ 1000 := by exact_mod_cast Nat.lt_succ_iff.mp y.isLt
  constructor <;> simp [sceneBounds, sceneWidth, Grid.Place.radius, hx, hy]

/-- A new food. -/
theorem foodUpdate_stocked (draw : Option (Fin 1001 × Fin 1001)) (hs : s.Stocked) :
    (foodUpdate draw s).Stocked ∧ s.foods ⊆ (foodUpdate draw s).foods ∧
      s.foodMaxid ≤ (foodUpdate draw s).foodMaxid ∧
      (∀ f ∈ (foodUpdate draw s).foods, f ∈ s.foods ∨ s.foodMaxid < f) ∧
      (foodUpdate draw s).event.eatenFoodIds = s.event.eatenFoodIds := by
  unfold foodUpdate
  split
  next => exact ⟨hs, fun _ h => h, le_rfl, fun _ h => .inl h, rfl⟩
  next hmax =>
    split
    next => exact ⟨hs, fun _ h => h, le_rfl, fun _ h => .inl h, rfl⟩
    next x y =>
      obtain ⟨dead, hstored, hcard, hdead⟩ := hs.stored
      have hnew : s.foodMaxid + 1 ∉ s.foods := fun h => by
        have := hs.le_maxid _ h
        omega
      -- the places of the other foods are as they were
      have hplace : ∀ (s₁ : Scene K) f, s₁.foodTables = Function.update s.foodTables
          (s.foodMaxid + 1) ⟨(x : Nat), (y : Nat)⟩ → f ≤ s.foodMaxid →
          s₁.foodPlace f = s.foodPlace f := by
        intro s₁ f hs₁ hf
        have hne : f ≠ s.foodMaxid + 1 := by omega
        simp [foodPlace, hs₁, hne]
      have hold : ∀ f ∈ s.foodTree.stored, f ≤ s.foodMaxid := by
        intro f hf
        rw [hstored, Multiset.mem_add] at hf
        rcases hf with hf | hf
        · exact hs.le_maxid f hf
        · exact (hdead f hf).2
      dsimp only
      have hspec := fun s₁ : Scene K => insertFood_spec (s := s₁) (s.foodMaxid + 1)
      obtain ⟨t, ht, hsound, ht'⟩ := hspec { s with
        foodCount := s.foodCount + 1
        foodMaxid := s.foodMaxid + 1
        foodTables := Function.update s.foodTables (s.foodMaxid + 1) ⟨(x : Nat), (y : Nat)⟩
        foods := Insert.insert (s.foodMaxid + 1) s.foods
        event := { s.event with newFoods := s.event.newFoods ++
          [(s.foodMaxid + 1, ((x : Nat) : K), ((y : Nat) : K))] } }
        (hs.tree.congr_place fun f hf => hplace _ f rfl (hold f hf))
        (by simpa [foodPlace] using fits_scene x y)
      rw [ht]
      refine ⟨⟨?_, ?_, fun f hf => ?_, hsound, ⟨dead, ?_, hcard, fun f hf => ?_⟩, fun f hf => ?_⟩,
        Finset.subset_insert _ _, Nat.le_succ _, fun f hf => ?_, rfl⟩
      · simp [hs.count, Finset.card_insert_of_notMem hnew]
      · simp only
        omega
      · rcases Finset.mem_insert.mp hf with rfl | hf
        · exact le_rfl
        · exact (hs.le_maxid f hf).trans (Nat.le_succ _)
      · simp only [ht', hstored, Finset.insert_val_of_notMem hnew, Multiset.cons_add]
      · have hle := (hdead f hf).2
        refine ⟨fun h => ?_, hle.trans (Nat.le_succ _)⟩
        rcases Finset.mem_insert.mp h with rfl | h
        · omega
        · exact (hdead f hf).1 h
      · rcases Finset.mem_insert.mp hf with rfl | hf
        · simpa [foodPlace] using fits_scene x y
        · have hne : f ≠ s.foodMaxid + 1 := fun h => hnew (h ▸ hf)
          simpa only [foodPlace, Function.update_of_ne hne] using hs.inside f hf
      · rcases Finset.mem_insert.mp hf with rfl | hf
        · exact .inr (Nat.lt_succ_self _)
        · exact .inl hf

omit [FloorRing K] [IsStrictOrderedRing K] in
/-- The tree is filled with the foods. -/
theorem foldl_insertFood (l : List Nat) (s : Scene K)
    (htree : Quadtree.Sound s.foodPlace foodLimits sceneBounds 0 s.foodTree)
    (hfits : ∀ f ∈ l, Quadtree.Fits sceneBounds (s.foodPlace f)) :
    ∃ t, l.foldl insertFood s = { s with foodTree := t } ∧
      Quadtree.Sound s.foodPlace foodLimits sceneBounds 0 t ∧
      t.stored = (l : Multiset Nat) + s.foodTree.stored := by
  induction l generalizing s with
  | nil => exact ⟨s.foodTree, rfl, htree, by simp⟩
  | cons f l ih =>
      obtain ⟨t, ht, hsound, hstored⟩ := insertFood_spec f htree (hfits f List.mem_cons_self)
      obtain ⟨t', ht', hsound', hstored'⟩ := ih { s with foodTree := t } hsound fun g hg =>
        hfits g (List.mem_cons_of_mem f hg)
      refine ⟨t', ?_, hsound', ?_⟩
      · rw [List.foldl_cons, ht, ht']
      · rw [hstored']
        simp only [hstored, ← Multiset.cons_coe, Multiset.cons_add, Multiset.add_cons]

omit [FloorRing K] [IsStrictOrderedRing K] in
/-- The tree is rebuilt. -/
theorem cleanup_stocked (o : Order) (hs : s.Stocked) :
    (cleanup o s).Stocked ∧ (cleanup o s).foods = s.foods ∧
      (cleanup o s).foodMaxid = s.foodMaxid ∧
      (cleanup o s).event.eatenFoodIds = s.event.eatenFoodIds := by
  unfold cleanup
  split
  · obtain ⟨hclear, hempty⟩ := hs.tree.clear
    obtain ⟨t, ht, hsound, hstored⟩ := foldl_insertFood (o.pairs .rebuild s.foods)
      { s with foodTree := s.foodTree.clear } hclear fun f hf =>
        hs.inside f ((o.mem_pairs _ _ f).mp hf)
    rw [ht]
    refine ⟨⟨hs.count, hs.le_max, hs.le_maxid, hsound, ⟨0, ?_, rfl, by simp⟩, hs.inside⟩, rfl, rfl,
      rfl⟩
    rw [hstored]
    simp only [hempty, add_zero]
    have hnodup : ((o.pairs .rebuild s.foods : List Nat) : Multiset Nat).Nodup :=
      Multiset.coe_nodup.mpr (o.nodup_pairs _ _)
    exact (Multiset.Nodup.ext hnodup s.foods.nodup).mpr fun f => by simp [o.mem_pairs]
  · exact ⟨hs, rfl, rfl, rfl⟩

end Tree

/-! ## Eating -/

section Eat

variable [Sqrt K]

/-- What eating does to the foods: what leaves the table is reported, each food once. -/
structure Meal (s s' : Scene K) : Prop where
  stocked : s.Stocked → s'.Stocked
  subset : s'.foods ⊆ s.foods
  maxid : s'.foodMaxid = s.foodMaxid
  tables : s'.foodTables = s.foodTables
  tree : s'.foodTree = s.foodTree
  eaten : ∃ new : List Nat, s'.event.eatenFoodIds = s.event.eatenFoodIds ++ new ∧ new.Nodup ∧
    ∀ f, f ∈ new ↔ f ∈ s.foods ∧ f ∉ s'.foods

omit [FloorRing K] [Sqrt K] in
theorem Meal.refl (s : Scene K) : Meal s s where
  stocked := id
  subset := fun _ h => h
  maxid := rfl
  tables := rfl
  tree := rfl
  eaten := ⟨[], by simp, List.nodup_nil, fun f => by simp⟩

omit [FloorRing K] [Sqrt K] in
theorem Meal.trans {s'' : Scene K} (h : Meal s s') (h' : Meal s' s'') : Meal s s'' where
  stocked := h'.stocked ∘ h.stocked
  subset := h'.subset.trans h.subset
  maxid := h'.maxid.trans h.maxid
  tables := h'.tables.trans h.tables
  tree := h'.tree.trans h.tree
  eaten := by
    obtain ⟨new, heaten, hnodup, hnew⟩ := h.eaten
    obtain ⟨new', heaten', hnodup', hnew'⟩ := h'.eaten
    refine ⟨new ++ new', ?_, ?_, fun f => ?_⟩
    · rw [heaten', heaten, List.append_assoc]
    · refine List.nodup_append.mpr ⟨hnodup, hnodup', fun f hf g hg hfg => ?_⟩
      subst hfg
      exact ((hnew f).mp hf).2 ((hnew' f).mp hg).1
    · rw [List.mem_append, hnew, hnew']
      constructor
      · rintro (⟨hf, hout⟩ | ⟨hf, hout⟩)
        · exact ⟨hf, fun h => hout (h'.subset h)⟩
        · exact ⟨h.subset hf, hout⟩
      · rintro ⟨hf, hout⟩
        by_cases hf' : f ∈ s'.foods
        · exact .inr ⟨hf', hout⟩
        · exact .inl ⟨hf, hf'⟩

omit [FloorRing K] [Sqrt K] in
theorem Meal.foldl {α : Type} {f : Scene K → α → Scene K} (hf : ∀ s a, Meal s (f s a))
    (l : List α) (s : Scene K) : Meal s (l.foldl f s) :=
  List.foldlRecOn (motive := Meal s) l f (.refl s) fun s₁ h₁ a _ => h₁.trans (hf s₁ a)

/-- One food. -/
theorem eatOneFood_meal (c : Nat) (s : Scene K) (f : Nat) : Meal s (eatOneFood c s f) := by
  simp only [eatOneFood]
  split
  next h =>
    have hmem := h.1
    refine ⟨fun hs => ?_, Finset.erase_subset _ _, rfl, rfl, rfl, [f], rfl, List.nodup_singleton f,
      fun g => ?_⟩
    · obtain ⟨dead, hstored, hcard, hdead⟩ := hs.stored
      have hcards := Finset.card_erase_add_one hmem
      refine ⟨?_, ?_, fun g hg => hs.le_maxid g (Finset.mem_of_mem_erase hg), hs.tree,
        ⟨f ::ₘ dead, ?_, ?_, fun g hg => ?_⟩, fun g hg => hs.inside g (Finset.mem_of_mem_erase hg)⟩
      · have := hs.count
        simp only [updateCell, setCell]
        omega
      · have := hs.le_max
        simp only [updateCell, setCell]
        omega
      · have hval : s.foods.val = f ::ₘ (s.foods.erase f).val := by
          rw [Finset.erase_val, Multiset.cons_erase hmem]
        simp only [updateCell, setCell]
        rw [hstored, hval, Multiset.cons_add, Multiset.add_cons]
      · simp [updateCell, setCell, hcard]
      · rcases Multiset.mem_cons.mp hg with rfl | hg
        · exact ⟨Finset.notMem_erase _ _, hs.le_maxid _ hmem⟩
        · exact ⟨fun h => (hdead g hg).1 (Finset.mem_of_mem_erase h), (hdead g hg).2⟩
    · simp only [updateCell, setCell, List.mem_singleton, Finset.mem_erase]
      constructor
      · rintro rfl
        exact ⟨hmem, fun h => h.1 rfl⟩
      · rintro ⟨hg, hout⟩
        by_contra hne
        exact hout ⟨hne, hg⟩
  next => exact .refl s

theorem eatFoods_meal (o : Order) (s : Scene K) (c : Nat) : Meal s (eatFoods o s c) :=
  Meal.foldl (eatOneFood_meal c) _ s

theorem eatFood_meal (o : Order) (s : Scene K) : Meal s (eatFood o s) :=
  Meal.foldl (eatFoods_meal o) _ s

/-! ## A cell eats what lies in it -/

/-- The food lies strictly inside the cell. -/
def FoodInside (s : Scene K) (c f : Nat) : Prop :=
  ((s.cells c).x - (s.foodTables f).x) ^ 2 + ((s.cells c).y - (s.foodTables f).y) ^ 2 <
    (s.cells c).size ^ 2

/-- A cell stays where it is and does not shrink while it eats. -/
theorem eatOneFood_grows [IsStrictOrderedRing K] [LawfulSqrt K] (c : Nat) (s : Scene K) (f : Nat) :
    ((eatOneFood c s f).cells c).x = (s.cells c).x ∧
      ((eatOneFood c s f).cells c).y = (s.cells c).y ∧
      (s.cells c).size ≤ ((eatOneFood c s f).cells c).size := by
  simp only [eatOneFood]
  split
  next =>
    simp only [updateCell, setCell, Function.update_self, true_and]
    have hnonneg : 0 ≤ calMass (s.cells c).size + 1 := add_nonneg (calMass_nonneg _) zero_le_one
    refine le_of_sq_le_sq ?_ (LawfulSqrt.sqrt_nonneg _)
    have hroot : sqrt (calMass (s.cells c).size + 1) ^ 2 = calMass (s.cells c).size + 1 := by
      rw [pow_two]
      exact LawfulSqrt.mul_self_sqrt _ hnonneg
    rw [hroot, pow_two]
    exact le_add_of_nonneg_right zero_le_one
  next => exact ⟨rfl, rfl, le_rfl⟩

/-- A food that lies in the cell is gone when its turn has come. -/
theorem foldl_eatOneFood_inside [IsStrictOrderedRing K] [LawfulSqrt K] {l : List Nat} {c f : Nat}
    (hf : f ∈ l) (hsize : 0 ≤ (s.cells c).size) (hin : s.FoodInside c f) :
    f ∉ (l.foldl (eatOneFood c) s).foods := by
  induction l generalizing s with
  | nil => cases hf
  | cons g l ih =>
      rw [List.foldl_cons]
      by_cases hfg : f = g
      · subst hfg
        have hgone : f ∉ (eatOneFood c s f).foods := by
          by_cases hmem : f ∈ s.foods
          · simp only [eatOneFood]
            rw [if_pos ⟨hmem, hin⟩]
            exact Finset.notMem_erase _ _
          · exact fun h => hmem ((eatOneFood_meal c s f).subset h)
        exact fun h => hgone ((Meal.foldl (eatOneFood_meal c) l _).subset h)
      · obtain ⟨hx, hy, hgrows⟩ := eatOneFood_grows c s g
        refine ih (List.mem_of_ne_of_mem hfg hf) (hsize.trans hgrows) ?_
        unfold FoodInside at hin ⊢
        rw [hx, hy, (eatOneFood_meal c s g).tables]
        exact hin.trans_le (pow_le_pow_left₀ hsize hgrows 2)

/-- A cell eats every food that lies in it when its turn begins. -/
theorem eatFoods_inside [IsStrictOrderedRing K] [LawfulSqrt K] (o : Order) (hs : s.Stocked)
    {c f : Nat} (hsize : 0 ≤ (s.cells c).size) (hin : s.FoodInside c f) :
    f ∉ (eatFoods o s c).foods := by
  by_cases hf : f ∈ s.foods
  · -- the query returns the food
    have hquery := retrieveInRadius_eq_filter hs.tree (s.cells c).x (s.cells c).y
      (add_nonneg hsize zero_le_one)
    obtain ⟨dead, hstored, -⟩ := hs.stored
    have hmem : f ∈ retrieveInRadius s.foodPlace (s.cells c).x (s.cells c).y
        ((s.cells c).size + 1) s.foodTree := by
      rw [← Multiset.mem_coe, hquery, Multiset.mem_filter, hstored]
      refine ⟨Multiset.mem_add.mpr (.inl hf), ?_⟩
      unfold FoodInside at hin
      simp only [inRadius, foodPlace, Grid.Place.radius, Option.getD_none, add_zero,
        decide_eq_true_eq]
      nlinarith
    unfold eatFoods
    refine foldl_eatOneFood_inside ?_ hsize hin
    rw [mem_sortBy]
    exact (o.tree_perm _ _).mem_iff.mpr hmem
  · exact fun h => hf ((eatFoods_meal o s c).subset h)

/-- The scene when the turn of a cell in {lit}`eat_food` begins. -/
def foodTurn (o : Order) (s : Scene K) (c : Nat) : Scene K :=
  ((s.sortedCells o .foodPlayers .foodCells).takeWhile (· ≠ c)).foldl (eatFoods o) s

/-- The cell eats the food: it is there when the turn of the cell begins, and gone when it
ends. -/
def EatenBy (o : Order) (s : Scene K) (f c : Nat) : Prop :=
  c ∈ s.sortedCells o .foodPlayers .foodCells ∧ f ∈ (foodTurn o s c).foods ∧
    f ∉ (eatFoods o (foodTurn o s c) c).foods

end Eat

section Turns

variable [Sqrt K] [IsStrictOrderedRing K] [LawfulSqrt K]

omit [FloorRing K] [Sqrt K] [IsStrictOrderedRing K] [LawfulSqrt K] in
theorem sortedCells_nodup (o : Order) (hs : s.Sound) {site : Site} {sites : Nat → Site} :
    (s.sortedCells o site sites).Nodup := by
  refine sortBy_nodup ?_ id
  rw [List.nodup_flatMap]
  refine ⟨fun p _ => o.nodup_pairs _ _, ?_⟩
  refine (o.nodup_pairs _ _).imp_of_mem fun {p q} _ _ hne => ?_
  refine fun c hcp hcq => hne ?_
  rw [o.mem_pairs] at hcp hcq
  unfold cellsOf at hcp hcq
  cases hp : s.players.get p with
  | none => simp [hp] at hcp
  | some r =>
      cases hq : s.players.get q with
      | none => simp [hq] at hcq
      | some t =>
          simp only [hp] at hcp
          simp only [hq] at hcq
          exact (hs.owner p r c hp hcp).symm.trans (hs.owner q t c hq hcq)

/-- The cells are large and the food is in order when a turn begins. -/
theorem foodTurn_large (o : Order) (hs : s.Sound) (hlarge : s.Large) {c : Nat}
    (hc : c ∈ s.alive) : 0 ≤ ((foodTurn o s c).cells c).size := by
  have hmem : ∀ d ∈ (s.sortedCells o .foodPlayers .foodCells).takeWhile (· ≠ c), d ∈ s.alive :=
    fun d hd => mem_sortedCells.mp (List.takeWhile_subset _ hd)
  obtain ⟨hconserves, halive⟩ := Conserves.foldl_of (f := eatFoods o)
    (Q := fun s₁ => s₁.alive = s.alive) _ hs rfl fun s₁ d hd hs₁ _ h₁ => by
      refine Conserves.foldl_of (Q := fun s₂ => s₂.alive = s.alive) _ hs₁ h₁ ?_
      intro s₂ f _ hs₂ _ h₂
      exact ⟨eatOneFood_conserves hs₂ (h₂ ▸ hmem d hd) f, (eatOneFood_alive d s₂ f).trans h₂⟩
  refine zero_le_one.trans (hconserves.large hlarge c ?_)
  rw [halive]
  exact hc

/-- A food that lies in some cell when the turn of the cell begins is eaten by exactly one
cell. -/
theorem eaten_once (o : Order) (hs : s.Sound) (hlarge : s.Large) (hstocked : s.Stocked)
    {c f : Nat} (hc : c ∈ s.alive) (hf : f ∈ s.foods) (hin : (foodTurn o s c).FoodInside c f) :
    f ∉ (eatFood o s).foods ∧ ∃! d, EatenBy o s f d := by
  have hmem : c ∈ s.sortedCells o .foodPlayers .foodCells := mem_sortedCells.mpr hc
  have hturn : Meal s (foodTurn o s c) := Meal.foldl (eatFoods_meal o) _ s
  have hgone : f ∉ (eatFoods o (foodTurn o s c) c).foods :=
    eatFoods_inside o (hturn.stocked hstocked) (foodTurn_large o hs hlarge hc) hin
  have hback : ∀ (s₁ : Scene K) d, f ∈ (eatFoods o s₁ d).foods → f ∈ s₁.foods :=
    fun s₁ d h => (eatFoods_meal o s₁ d).subset h
  have hlost : f ∉ (eatFood o s).foods :=
    lost_of_turn (P := fun s₁ : Scene K => f ∈ s₁.foods) hback hmem hgone
  refine ⟨hlost, ?_⟩
  exact existsUnique_turn (P := fun s₁ : Scene K => f ∈ s₁.foods) hback (sortedCells_nodup o hs) hf
    hlost

end Turns

/-! ## Runs -/

section Runs

variable [Sqrt K]

/-- The scene when food is eaten in an event; only a frame of a game that has started eats. -/
def eatingScene (s : Scene K) : Event K → Scene K
  | .frame o d =>
      if s.gameStarted = false then s
      else beforeEating o d (processCommands o (beforeCommands o d s))
  | _ => s

/-- The food an event reports as eaten. -/
def eatenIn (s : Scene K) : Event K → List Nat
  | .frame o d => if s.gameStarted = false then [] else (s.update o d).event.eatenFoodIds
  | _ => []

/-- The food a run reports as eaten. -/
def eatenOver : Scene K → List (Event K) → List Nat
  | _, [] => []
  | s, e :: es => s.eatenIn e ++ eatenOver (s.step e) es

/-- What an event does to the food: before eating foods are only added, and what leaves the
table is reported, each food once. -/
structure Served (s : Scene K) (e : Event K) : Prop where
  stocked : (s.step e).Stocked
  ready : (s.eatingScene e).Stocked
  subset : s.foods ⊆ (s.eatingScene e).foods
  maxid : s.foodMaxid ≤ (s.eatingScene e).foodMaxid
  new : ∀ f ∈ (s.eatingScene e).foods, f ∈ s.foods ∨ s.foodMaxid < f
  maxid_eq : (s.step e).foodMaxid = (s.eatingScene e).foodMaxid
  foods : (s.step e).foods ⊆ (s.eatingScene e).foods
  nodup : (s.eatenIn e).Nodup
  eaten : ∀ f, f ∈ s.eatenIn e ↔ f ∈ (s.eatingScene e).foods ∧ f ∉ (s.step e).foods

/-- Events between the frames leave the food alone. -/
theorem step_pantry (s : Scene K) (e : Event K) (he : ∀ o d, e ≠ .frame o d) :
    (s.step e).pantry = s.pantry := by
  cases e with
  | frame o d => exact absurd rfl (he o d)
  | input o p m =>
      simp only [step, inputFrame]
      split
      · rfl
      · split
        · rfl
        · split
          · have hturn : ∀ (l : List Nat) (s₁ : Scene K),
                (l.foldl (turnCell m) s₁).pantry = s₁.pantry := fun l s₁ =>
              foldl_view (fun s₂ c => by simp only [turnCell]; split <;> rfl) l s₁
            exact hturn _ _
          · rfl
  | batchAdd infos =>
      simp only [step, batchAddPlayer]
      split
      · rfl
      · exact foldl_view (v := pantry) (f := addPlayer) (fun _ _ => rfl) infos s
  | kick p =>
      simp only [step, kickPlayer]
      repeat' split
      all_goals rfl
  | online p b =>
      simp only [step, battleOnline]
      split <;> rfl
  | startGame => rfl

/-- An event that leaves the food alone. -/
theorem Served.of_pantry (hs : s.Stocked) {e : Event K} (hpantry : (s.step e).pantry = s.pantry)
    (hscene : s.eatingScene e = s) (heaten : s.eatenIn e = []) : Served s e := by
  have hfoods : (s.step e).foods = s.foods := congrArg Pantry.foods hpantry
  have hmaxid : (s.step e).foodMaxid = s.foodMaxid := congrArg Pantry.foodMaxid hpantry
  refine ⟨hs.of_pantry hpantry, ?_, ?_, ?_, ?_, ?_, ?_, ?_, ?_⟩
  · rw [hscene]
    exact hs
  · rw [hscene]
  · rw [hscene]
  · rw [hscene]
    exact fun f hf => .inl hf
  · rw [hscene, hmaxid]
  · rw [hscene, hfoods]
  · rw [heaten]
    exact List.nodup_nil
  · intro f
    rw [heaten, hscene, hfoods]
    simp

section Frames

variable [IsStrictOrderedRing K]

omit [IsStrictOrderedRing K] in
/-- After {lit}`eat_food` a frame leaves the food alone. -/
theorem update_pantry (o : Order) (d : Draws) (hstarted : s.gameStarted = true) :
    (s.update o d).pantry =
      (eatFood o (beforeEating o d (processCommands o (beforeCommands o d s)))).pantry := by
  rw [update_eq o d hstarted]
  exact (aside_pantry (flushPendingEnters_aside o _)).trans
    ((aside_pantry (collisionUpdate_aside o _)).trans
      ((aside_pantry (mergeUpdate_aside o _)).trans ((aside_pantry (eatCell_aside o _)).trans
        (aside_pantry (eatSpore_aside o _)))))

/-- A frame of a game that has started. -/
theorem frame_served (hs : s.Stocked) (o : Order) (d : Draws) (hstarted : s.gameStarted = true) :
    Served s (.frame o d) := by
  have hscene : s.eatingScene (.frame o d) =
      beforeEating o d (processCommands o (beforeCommands o d s)) := by
    simp [eatingScene, hstarted]
  -- the first phases touch no food
  have hfirst : (processCommands o (beforeCommands o d s)).pantry =
      ({ s with event := .empty } : Scene K).pantry :=
    (processCommands_pantry o _).trans
      ((aside_pantry (flushPendingRebirth_aside o d.rebirth _)).trans
        (aside_pantry (flushPendingLeaves_aside o _)))
  have hstart : (processCommands o (beforeCommands o d s)).Stocked := by
    refine Stocked.of_pantry (s := { s with event := .empty }) ?_ hfirst
    exact ⟨hs.count, hs.le_max, hs.le_maxid, hs.tree, hs.stored, hs.inside⟩
  have hfoods₁ : (processCommands o (beforeCommands o d s)).foods = s.foods :=
    congrArg Pantry.foods hfirst
  have hmaxid₁ : (processCommands o (beforeCommands o d s)).foodMaxid = s.foodMaxid :=
    congrArg Pantry.foodMaxid hfirst
  have heaten₁ : (processCommands o (beforeCommands o d s)).event.eatenFoodIds = [] :=
    congrArg Pantry.eatenFoodIds hfirst
  obtain ⟨hnew, hsub, hmax, hmem, heaten₂⟩ := foodUpdate_stocked d.food hstart
  -- then cells and spores move, and the tree may be rebuilt
  have hmove : (cellMove o (sporesMove o (foodUpdate d.food (processCommands o
      (beforeCommands o d s))))).pantry =
      (foodUpdate d.food (processCommands o (beforeCommands o d s))).pantry :=
    (aside_pantry (cellMove_aside o _)).trans (aside_pantry (sporesMove_aside o _))
  obtain ⟨hready, hfoods₃, hmaxid₃, heaten₃⟩ := cleanup_stocked o (hnew.of_pantry hmove)
  have hfoods₂ := congrArg Pantry.foods hmove
  have hmaxid₂ := congrArg Pantry.foodMaxid hmove
  have heaten₂' := congrArg Pantry.eatenFoodIds hmove
  simp only [pantry] at hfoods₂ hmaxid₂ heaten₂'
  -- and food is eaten
  have hmeal := eatFood_meal o (beforeEating o d (processCommands o (beforeCommands o d s)))
  have hlast := update_pantry o d hstarted
  have hfoods₄ : (s.step (.frame o d)).foods = _ := congrArg Pantry.foods hlast
  have hmaxid₄ : (s.step (.frame o d)).foodMaxid = _ := congrArg Pantry.foodMaxid hlast
  have heaten₄ : (s.update o d).event.eatenFoodIds = _ := congrArg Pantry.eatenFoodIds hlast
  have hready' : (beforeEating o d (processCommands o (beforeCommands o d s))).Stocked := hready
  have hnone : (beforeEating o d (processCommands o (beforeCommands o d s))).event.eatenFoodIds =
      [] := heaten₃.trans (heaten₂'.trans (heaten₂.trans heaten₁))
  have hb : (beforeEating o d (processCommands o (beforeCommands o d s))).foods =
      (foodUpdate d.food (processCommands o (beforeCommands o d s))).foods := hfoods₃.trans hfoods₂
  have hbmax : (beforeEating o d (processCommands o (beforeCommands o d s))).foodMaxid =
      (foodUpdate d.food (processCommands o (beforeCommands o d s))).foodMaxid :=
    hmaxid₃.trans hmaxid₂
  have hreport : s.eatenIn (.frame o d) = (s.update o d).event.eatenFoodIds := by
    simp [eatenIn, hstarted]
  obtain ⟨new, hnewEaten, hnodup, hiff⟩ := hmeal.eaten
  have hreport' : s.eatenIn (.frame o d) = new := by
    rw [hreport, heaten₄]
    exact hnewEaten.trans (by rw [hnone, List.nil_append])
  refine ⟨(hmeal.stocked hready').of_pantry hlast, ?_, ?_, ?_, ?_, ?_, ?_, ?_, ?_⟩
  · rw [hscene]
    exact hready'
  · rw [hscene, hb]
    exact hfoods₁ ▸ hsub
  · rw [hscene, hbmax]
    exact hmaxid₁ ▸ hmax
  · rw [hscene, hb]
    intro f hf
    have hf := hmem f hf
    rwa [hfoods₁, hmaxid₁] at hf
  · rw [hscene, hmaxid₄]
    exact hmeal.maxid
  · rw [hscene, hfoods₄]
    exact hmeal.subset
  · rw [hreport']
    exact hnodup
  · intro f
    rw [hreport', hscene, hfoods₄]
    exact hiff f

theorem step_served (hs : s.Stocked) (e : Event K) : Served s e := by
  cases e with
  | frame o d =>
      by_cases hstarted : s.gameStarted = true
      · exact frame_served hs o d hstarted
      · have hnot : s.gameStarted = false := by simpa using hstarted
        refine .of_pantry hs ?_ (by simp [eatingScene, hnot]) (by simp [eatenIn, hnot])
        simp only [step, update_not_started o d hnot]
  | input o p m => exact .of_pantry hs (step_pantry s _ fun _ _ h => by cases h) rfl rfl
  | batchAdd infos => exact .of_pantry hs (step_pantry s _ fun _ _ h => by cases h) rfl rfl
  | kick p => exact .of_pantry hs (step_pantry s _ fun _ _ h => by cases h) rfl rfl
  | online p b => exact .of_pantry hs (step_pantry s _ fun _ _ h => by cases h) rfl rfl
  | startGame => exact .of_pantry hs (step_pantry s _ fun _ _ h => by cases h) rfl rfl

omit [Sqrt K] in
theorem start_stocked : (start : Scene K).Stocked where
  count := rfl
  le_max := by
    show (0 : Int) ≤ 4000
    decide
  le_maxid _ hf := by cases hf
  tree := ⟨.leaf, fun _ ho => by cases ho⟩
  stored := ⟨0, rfl, rfl, by simp⟩
  inside _ hf := by cases hf

theorem run_stocked (es : List (Event K)) : (run (start : Scene K) es).Stocked :=
  List.foldlRecOn (motive := Stocked) es step start_stocked fun _ h e _ => (step_served h e).stocked

/-- What was eaten is gone for good. -/
structure Consumed (s : Scene K) (log : List Nat) : Prop where
  nodup : log.Nodup
  gone : ∀ f ∈ log, f ∉ s.foods ∧ f ≤ s.foodMaxid

theorem Consumed.step {log : List Nat} (h : Consumed s log) (hs : s.Stocked) (e : Event K) :
    Consumed (s.step e) (log ++ s.eatenIn e) := by
  have he := step_served hs e
  -- what was eaten before is not there to be eaten
  have hout : ∀ f ∈ log, f ∉ (s.eatingScene e).foods := by
    intro f hf hmem
    obtain ⟨hgone, hle⟩ := h.gone f hf
    rcases he.new f hmem with hmem | hlt
    · exact hgone hmem
    · omega
  refine ⟨?_, fun f hf => ?_⟩
  · refine List.nodup_append.mpr ⟨h.nodup, he.nodup, fun f hf g hg hfg => ?_⟩
    subst hfg
    exact hout f hf ((he.eaten f).mp hg).1
  · rcases List.mem_append.mp hf with hf | hf
    · refine ⟨fun hmem => hout f hf (he.foods hmem), ?_⟩
      rw [he.maxid_eq]
      exact (h.gone f hf).2.trans he.maxid
    · obtain ⟨hmem, hgone⟩ := (he.eaten f).mp hf
      refine ⟨hgone, ?_⟩
      rw [he.maxid_eq]
      exact he.ready.le_maxid f hmem

theorem Consumed.run {log : List Nat} (es : List (Event K)) (h : Consumed s log) (hs : s.Stocked) :
    (log ++ eatenOver s es).Nodup := by
  induction es generalizing s log with
  | nil => simpa [eatenOver] using h.nodup
  | cons e es ih =>
      have hrest := ih (h.step hs e) (step_served hs e).stocked
      rwa [List.append_assoc] at hrest

end Frames

end Runs

end Scene

open Scene

/-- In every run the counter of the foods is right and within the limit, every food is in the
tree once, and the rest of the tree is what is counted as dead.  No food is reported as eaten
twice, and an event reports exactly the foods that leave the table in it.  In a frame a food
that lies in a cell when the turn of the cell begins is eaten by exactly one cell. -/
theorem food_accounted {K : Type} [Field K] [LinearOrder K] [IsStrictOrderedRing K] [FloorRing K]
    [Sqrt K] [LawfulSqrt K] (es : List (Event K)) :
    let s := Scene.run Scene.start es
    (s.foodCount = s.foods.card ∧ s.foodCount ≤ foodMax ∧
      (∀ f ∈ s.foods, s.foodTree.stored.count f = 1) ∧
      (s.foodTree.stored.filter (· ∉ s.foods)).card = s.deadFoodInTree) ∧
    (eatenOver Scene.start es).Nodup ∧
    (∀ e, s.foods ⊆ (s.eatingScene e).foods ∧
      ∀ f, f ∈ s.eatenIn e ↔ f ∈ (s.eatingScene e).foods ∧ f ∉ (s.step e).foods) ∧
    ∀ o d, s.gameStarted = true → ∀ c f,
      c ∈ (s.eatingScene (.frame o d)).alive → f ∈ (s.eatingScene (.frame o d)).foods →
        (foodTurn o (s.eatingScene (.frame o d)) c).FoodInside c f →
          f ∈ s.eatenIn (.frame o d) ∧ ∃! c', EatenBy o (s.eatingScene (.frame o d)) f c' := by
  intro s
  have hs : s.Stocked := run_stocked es
  obtain ⟨hlive, hlarge⟩ := run_live (K := K) es
  refine ⟨⟨hs.count, hs.le_max, hs.exact⟩, ?_, fun e => ?_, fun o d hstarted c f hc hf hin => ?_⟩
  · have hnodup := Consumed.run es ⟨List.nodup_nil, by simp⟩ (start_stocked (K := K))
    simpa using hnodup
  · have he := step_served hs e
    exact ⟨he.subset, he.eaten⟩
  · have he := step_served hs (.frame o d)
    have hscene : s.eatingScene (.frame o d) =
        beforeEating o d (processCommands o (beforeCommands o d s)) := by
      simp [eatingScene, hstarted]
    obtain ⟨hbefore, hleaves, hlarge'⟩ := beforeCommands_live o d hlive
    have hcommands := processCommands_conserves o hbefore.sound
    obtain ⟨hfood, -, -, -, hlarge''⟩ := foodUpdate_live d.food (hcommands.live hbefore hleaves)
    have hmove := (((sporesMove_conserves o hfood.sound).next fun _ => cellMove_conserves o).next
      fun _ => cleanup_conserves o)
    have hsound : (s.eatingScene (.frame o d)).Sound := by
      rw [hscene]
      exact hmove.sound
    have hlarge : (s.eatingScene (.frame o d)).Large := by
      rw [hscene]
      exact hmove.large (hlarge'' (hcommands.large (hlarge' hlarge)))
    obtain ⟨hgone, hunique⟩ := eaten_once o hsound hlarge he.ready hc hf hin
    refine ⟨(he.eaten f).mpr ⟨hf, ?_⟩, hunique⟩
    have hlast : (s.step (.frame o d)).foods = (eatFood o (s.eatingScene (.frame o d))).foods := by
      rw [hscene]
      exact congrArg Pantry.foods (update_pantry o d hstarted)
    rw [hlast]
    exact hgone

/-- A player enters and the next frame draws a food. -/
theorem food_accounted_real :
    let es : List (Event ℝ) := [.batchAdd [(7, 1, (3, 4))], .startGame,
      .frame .ascending ⟨fun _ => (0, 0), some (3, 4)⟩]
    let s := Scene.run Scene.start es
    (s.foodCount = s.foods.card ∧ s.foodCount ≤ foodMax ∧
      (∀ f ∈ s.foods, s.foodTree.stored.count f = 1) ∧
      (s.foodTree.stored.filter (· ∉ s.foods)).card = s.deadFoodInTree) ∧
    (eatenOver Scene.start es).Nodup ∧
    (∀ e, s.foods ⊆ (s.eatingScene e).foods ∧
      ∀ f, f ∈ s.eatenIn e ↔ f ∈ (s.eatingScene e).foods ∧ f ∉ (s.step e).foods) ∧
    ∀ o d, s.gameStarted = true → ∀ c f,
      c ∈ (s.eatingScene (.frame o d)).alive → f ∈ (s.eatingScene (.frame o d)).foods →
        (foodTurn o (s.eatingScene (.frame o d)) c).FoodInside c f →
          f ∈ s.eatenIn (.frame o d) ∧ ∃! c', EatenBy o (s.eatingScene (.frame o d)) f c' :=
  food_accounted _

end BallServer.Ball
