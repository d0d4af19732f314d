import BallServer.Scene.Foods

/-!
# Food and the plain loop

A cell looks for food in a circle that is fixed when its turn begins, while it grows with
every food it eats.  This module compares {lit}`eat_food` with the loop that looks at every
food.

Main results:

- Definitions {lit}`eatFoodLog` and {lit}`plainLog`: which cell eats which food, in order.
- Theorem {lit}`turn_plain_iff`: the turn of one cell.
- Theorem {lit}`eat_food_plain_iff`: the loops agree exactly when in the plain loop no cell
  eats a food that lay outside of its circle.
-/

namespace BallServer.Ball

open BallServer.Quadtree (retrieveInRadius retrieveInRadius_eq_filter inRadius)

namespace Scene

variable {K : Type} [Field K] [LinearOrder K] [FloorRing K] [Sqrt K] {s s' : Scene K}

/-! ## Who eats what -/

/-- The cell eats the food when it looks at it. -/
def EatsFood (s : Scene K) (c f : Nat) : Prop :=
  f ∈ s.foods ∧ s.FoodInside c f

instance (s : Scene K) (c f : Nat) : Decidable (s.EatsFood c f) := by
  unfold EatsFood FoodInside
  infer_instance

/-- The events of one cell that looks at some foods. -/
def meals (c : Nat) : List Nat → Scene K → List (Nat × Nat)
  | [], _ => []
  | f :: fs, s => (if s.EatsFood c f then [(c, f)] else []) ++ meals c fs (eatOneFood c s f)

theorem eatFoods_eq (o : Order) (s : Scene K) (c : Nat) :
    eatFoods o s c = (nearFoods o s c).foldl (eatOneFood c) s := rfl

/-- The events of {lit}`eat_food`: the cell and the food. -/
def eatFoodLog (o : Order) : List Nat → Scene K → List (Nat × Nat)
  | [], _ => []
  | c :: cs, s => meals c (nearFoods o s c) s ++ eatFoodLog o cs (eatFoods o s c)

/-- The turn of a cell that looks at every food. -/
def plainFoods (s : Scene K) (c : Nat) : Scene K :=
  (s.foods.sort (· ≤ ·)).foldl (eatOneFood c) s

/-- The loop that visits the cells and, for each, all foods. -/
def plainFood (s : Scene K) : Scene K :=
  (s.alive.sort (· ≤ ·)).foldl plainFoods s

/-- The events of the plain loop. -/
def plainLog : List Nat → Scene K → List (Nat × Nat)
  | [], _ => []
  | c :: cs, s => meals c (s.foods.sort (· ≤ ·)) s ++ plainLog cs (plainFoods s c)

theorem eatOneFood_of_not {c f : Nat} (h : ¬s.EatsFood c f) : eatOneFood c s f = s := by
  unfold EatsFood FoodInside at h
  simp only [eatOneFood]
  rw [if_neg h]

/-- An event is of the cell, and of a food that was there. -/
theorem mem_meals {c : Nat} {l : List Nat} {m : Nat × Nat} (hm : m ∈ meals c l s) :
    m.1 = c ∧ m.2 ∈ l ∧ m.2 ∈ s.foods := by
  induction l generalizing s with
  | nil => cases hm
  | cons f l ih =>
      rw [meals, List.mem_append] at hm
      rcases hm with hm | hm
      · split at hm
        next h =>
          rw [List.mem_singleton.mp hm]
          exact ⟨rfl, List.mem_cons_self, h.1⟩
        next => cases hm
      · obtain ⟨hc, hl, hf⟩ := ih hm
        exact ⟨hc, List.mem_cons_of_mem f hl, (eatOneFood_meal c s f).subset hf⟩

/-- Foods that are not eaten need not be looked at. -/
theorem meals_filter {c : Nat} {p : Nat → Bool} {l : List Nat}
    (h : ∀ m ∈ meals c l s, p m.2 = true) :
    (l.filter p).foldl (eatOneFood c) s = l.foldl (eatOneFood c) s ∧
      meals c (l.filter p) s = meals c l s := by
  induction l generalizing s with
  | nil => exact ⟨rfl, rfl⟩
  | cons f l ih =>
      have htail := ih (s := eatOneFood c s f) fun m hm =>
        h m (by rw [meals]; exact List.mem_append_right _ hm)
      by_cases hf : p f = true
      · rw [List.filter_cons_of_pos hf]
        simp only [List.foldl_cons, meals, htail, and_self]
      · have hnot : ¬s.EatsFood c f := by
          intro heats
          refine hf (h (c, f) ?_)
          rw [meals, if_pos heats]
          exact List.mem_append_left _ (List.mem_singleton_self _)
        rw [eatOneFood_of_not hnot] at htail
        rw [List.filter_cons_of_neg hf, List.foldl_cons, meals, if_neg hnot, eatOneFood_of_not hnot]
        exact htail

/-- What was eaten is reported in this order. -/
theorem foldl_eatOneFood_eaten (c : Nat) (l : List Nat) (s : Scene K) :
    (l.foldl (eatOneFood c) s).event.eatenFoodIds =
      s.event.eatenFoodIds ++ (meals c l s).map Prod.snd := by
  induction l generalizing s with
  | nil => simp [meals]
  | cons f l ih =>
      rw [List.foldl_cons, ih, meals]
      by_cases h : s.EatsFood c f
      · have heaten : (eatOneFood c s f).event.eatenFoodIds = s.event.eatenFoodIds ++ [f] := by
          have hcond := h
          unfold EatsFood FoodInside at hcond
          simp only [eatOneFood]
          rw [if_pos hcond]
          rfl
        rw [heaten, if_pos h]
        simp
      · rw [eatOneFood_of_not h, if_neg h]
        rfl

/-- The log of {lit}`eat_food` is what the frame reports. -/
theorem eatFood_eaten (o : Order) (s : Scene K) :
    (eatFood o s).event.eatenFoodIds = s.event.eatenFoodIds ++
      (eatFoodLog o (s.sortedCells o .foodPlayers .foodCells) s).map Prod.snd := by
  have hfold : ∀ (cs : List Nat) (s : Scene K), (cs.foldl (eatFoods o) s).event.eatenFoodIds =
      s.event.eatenFoodIds ++ (eatFoodLog o cs s).map Prod.snd := by
    intro cs
    induction cs with
    | nil => simp [eatFoodLog]
    | cons c cs ih =>
        intro s
        rw [List.foldl_cons, ih, eatFoods_eq, foldl_eatOneFood_eaten, eatFoodLog, eatFoods_eq]
        simp
  exact hfold _ s

/-! ## The circle of a turn -/

/-- The food is in the circle the cell searches when its turn begins. -/
def FoodNear (s : Scene K) (c f : Nat) : Prop :=
  ((s.cells c).x - (s.foodTables f).x) ^ 2 + ((s.cells c).y - (s.foodTables f).y) ^ 2 ≤
    ((s.cells c).size + 1) ^ 2

section Lawful

variable [IsStrictOrderedRing K] [LawfulSqrt K]

omit [FloorRing K] [Sqrt K] [IsStrictOrderedRing K] [LawfulSqrt K] in
theorem inRadius_iff (s : Scene K) (c f : Nat) :
    inRadius s.foodPlace (s.cells c).x (s.cells c).y ((s.cells c).size + 1) f = true ↔
      s.FoodNear c f := by
  have hradius : (s.foodPlace f).radius = 0 := rfl
  have hx : (s.foodPlace f).x = (s.foodTables f).x := rfl
  have hy : (s.foodPlace f).y = (s.foodTables f).y := rfl
  unfold inRadius FoodNear
  simp only [hradius, hx, hy, add_zero, decide_eq_true_eq]
  have heq : ((s.foodTables f).x - (s.cells c).x) * ((s.foodTables f).x - (s.cells c).x) +
      ((s.foodTables f).y - (s.cells c).y) * ((s.foodTables f).y - (s.cells c).y) =
        ((s.cells c).x - (s.foodTables f).x) ^ 2 + ((s.cells c).y - (s.foodTables f).y) ^ 2 := by
    ring
  rw [heq, ← pow_two]

omit [Sqrt K] [LawfulSqrt K] in
/-- The query returns, besides eaten foods, the foods in the circle. -/
theorem nearFoods_filter (o : Order) (hs : s.Stocked) {c : Nat} (hsize : 0 ≤ (s.cells c).size) :
    (nearFoods o s c).filter (· ∈ s.foods) = (s.foods.sort (· ≤ ·)).filter
      (inRadius s.foodPlace (s.cells c).x (s.cells c).y ((s.cells c).size + 1)) := by
  have hquery := retrieveInRadius_eq_filter hs.tree (s.cells c).x (s.cells c).y
    (add_nonneg hsize zero_le_one)
  obtain ⟨dead, hstored, -, hdead⟩ := hs.stored
  have hlive : (s.foodTree.stored.filter (· ∈ s.foods)) = s.foods.val := by
    have hfoods : s.foods.val.filter (· ∈ s.foods) = s.foods.val :=
      Multiset.filter_eq_self.mpr fun f hf => hf
    have hnone : dead.filter (· ∈ s.foods) = 0 :=
      Multiset.filter_eq_nil.mpr fun f hf => (hdead f hf).1
    rw [hstored, Multiset.filter_add, hfoods, hnone, add_zero]
  have hperm : ((nearFoods o s c).filter (· ∈ s.foods)).Perm ((s.foods.sort (· ≤ ·)).filter
      (inRadius s.foodPlace (s.cells c).x (s.cells c).y ((s.cells c).size + 1))) := by
    refine (((sortBy_perm _ _).trans (o.tree_perm _ _)).filter _).trans ?_
    have hbool : ((s.foods.sort (· ≤ ·)).filter
        (inRadius s.foodPlace (s.cells c).x (s.cells c).y ((s.cells c).size + 1))) =
        (s.foods.sort (· ≤ ·)).filter fun f => decide
          (inRadius s.foodPlace (s.cells c).x (s.cells c).y ((s.cells c).size + 1) f = true) := by
      simp only [Bool.decide_eq_true]
    rw [hbool, ← Multiset.coe_eq_coe, ← Multiset.filter_coe, ← Multiset.filter_coe, hquery,
      Multiset.filter_comm, Finset.sort_eq]
    exact congrArg (Multiset.filter _) hlive
  refine hperm.eq_of_pairwise (fun a b _ _ => Nat.le_antisymm) ?_ ?_
  · exact (sortBy_pairwise id _).filter _
  · exact (s.foods.pairwise_sort (· ≤ ·)).filter _

omit [LawfulSqrt K] in
/-- The turn of one cell: it eats as in the plain loop exactly when what it eats there is in its
circle. -/
theorem turn_plain_iff (o : Order) (hs : s.Stocked) {c : Nat} (hsize : 0 ≤ (s.cells c).size) :
    (meals c (nearFoods o s c) s = meals c (s.foods.sort (· ≤ ·)) s ↔
      ∀ m ∈ meals c (s.foods.sort (· ≤ ·)) s, s.FoodNear c m.2) ∧
    ((∀ m ∈ meals c (s.foods.sort (· ≤ ·)) s, s.FoodNear c m.2) →
      eatFoods o s c = plainFoods s c) := by
  obtain ⟨hfold, hmeals⟩ := meals_filter (s := s) (c := c) (l := nearFoods o s c)
    (p := (· ∈ s.foods)) fun m hm => decide_eq_true (mem_meals hm).2.2
  rw [nearFoods_filter o hs hsize] at hfold hmeals
  have hplain : (∀ m ∈ meals c (s.foods.sort (· ≤ ·)) s, s.FoodNear c m.2) →
      eatFoods o s c = plainFoods s c ∧
        meals c (nearFoods o s c) s = meals c (s.foods.sort (· ≤ ·)) s := by
    intro hnear
    obtain ⟨hfold', hmeals'⟩ := meals_filter (s := s) (c := c) (l := s.foods.sort (· ≤ ·))
      (p := inRadius s.foodPlace (s.cells c).x (s.cells c).y ((s.cells c).size + 1))
      fun m hm => (inRadius_iff s c m.2).mpr (hnear m hm)
    exact ⟨hfold.symm.trans hfold', hmeals.symm.trans hmeals'⟩
  refine ⟨⟨fun heq m hm => ?_, fun h => (hplain h).2⟩, fun h => (hplain h).1⟩
  -- the cell has found the food
  rw [← heq, ← hmeals] at hm
  exact (inRadius_iff s c m.2).mp (List.mem_filter.mp (mem_meals hm).2.1).2

/-- In the plain loop no cell eats a food that was outside of its circle when its turn began. -/
def Covers : List Nat → Scene K → Prop
  | [], _ => True
  | c :: cs, s => (∀ m ∈ meals c (s.foods.sort (· ≤ ·)) s, s.FoodNear c m.2) ∧
      Covers cs (plainFoods s c)

omit [IsStrictOrderedRing K] in
/-- A cell that eats has a size afterwards. -/
theorem foldl_eatOneFood_size (c : Nat) (l : List Nat) (s : Scene K) {d : Nat}
    (hd : 0 ≤ (s.cells d).size) : 0 ≤ ((l.foldl (eatOneFood c) s).cells d).size := by
  induction l generalizing s with
  | nil => exact hd
  | cons f l ih =>
      refine ih (eatOneFood c s f) ?_
      simp only [eatOneFood]
      split
      next =>
        by_cases hdc : d = c
        · subst hdc
          simpa [updateCell, setCell] using LawfulSqrt.sqrt_nonneg _
        · simpa [updateCell, setCell, hdc] using hd
      next => exact hd

omit [IsStrictOrderedRing K] [LawfulSqrt K] in
theorem plainFoods_meal (s : Scene K) (c : Nat) : Meal s (plainFoods s c) :=
  Meal.foldl (eatOneFood_meal c) _ s

omit [IsStrictOrderedRing K] [LawfulSqrt K] in
theorem mem_plainLog {cs : List Nat} {m : Nat × Nat} (hm : m ∈ plainLog cs s) : m.1 ∈ cs := by
  induction cs generalizing s with
  | nil => cases hm
  | cons c cs ih =>
      rcases List.mem_append.mp hm with hm | hm
      · rw [(mem_meals hm).1]
        exact List.mem_cons_self
      · exact List.mem_cons_of_mem c (ih hm)

omit [IsStrictOrderedRing K] [LawfulSqrt K] in
theorem mem_eatFoodLog {o : Order} {cs : List Nat} {m : Nat × Nat}
    (hm : m ∈ eatFoodLog o cs s) : m.1 ∈ cs := by
  induction cs generalizing s with
  | nil => cases hm
  | cons c cs ih =>
      rcases List.mem_append.mp hm with hm | hm
      · rw [(mem_meals hm).1]
        exact List.mem_cons_self
      · exact List.mem_cons_of_mem c (ih hm)

/-- Logs of different cells can be told apart. -/
theorem append_inj_of_fst {c : Nat} {l l' r r' : List (Nat × Nat)} (hl : ∀ m ∈ l, m.1 = c)
    (hl' : ∀ m ∈ l', m.1 = c) (hr : ∀ m ∈ r, m.1 ≠ c) (hr' : ∀ m ∈ r', m.1 ≠ c)
    (h : l ++ r = l' ++ r') : l = l' ∧ r = r' := by
  have hleft : ∀ {l r : List (Nat × Nat)}, (∀ m ∈ l, m.1 = c) → (∀ m ∈ r, m.1 ≠ c) →
      (l ++ r).filter (·.1 = c) = l := by
    intro l r hl hr
    have hnone : r.filter (·.1 = c) = [] :=
      List.filter_eq_nil_iff.mpr fun m hm => by simpa using hr m hm
    have hall : l.filter (·.1 = c) = l := List.filter_eq_self.mpr fun m hm => by simpa using hl m hm
    rw [List.filter_append, hall, hnone, List.append_nil]
  have heq : l = l' := (hleft hl hr).symm.trans ((congrArg _ h).trans (hleft hl' hr'))
  subst heq
  exact ⟨rfl, List.append_cancel_left h⟩

/-- The loops over some cells. -/
theorem foldl_plain_iff (o : Order) {cs : List Nat} (hcs : cs.Nodup) (hs : s.Stocked)
    (hsizes : ∀ c ∈ cs, 0 ≤ (s.cells c).size) :
    (eatFoodLog o cs s = plainLog cs s ↔ Covers cs s) ∧
      (Covers cs s → cs.foldl (eatFoods o) s = cs.foldl plainFoods s) := by
  induction cs generalizing s with
  | nil => exact ⟨iff_of_true rfl trivial, fun _ => rfl⟩
  | cons c cs ih =>
      obtain ⟨hnot, hcs⟩ := List.nodup_cons.mp hcs
      obtain ⟨hturn, hscene⟩ := turn_plain_iff o hs (hsizes c List.mem_cons_self)
      obtain ⟨htail, hrest⟩ := ih (s := plainFoods s c) hcs ((plainFoods_meal s c).stocked hs)
        fun d hd => foldl_eatOneFood_size c _ s (hsizes d (List.mem_cons_of_mem c hd))
      refine ⟨⟨fun h => ?_, fun h => ?_⟩, fun h => ?_⟩
      · obtain ⟨hhead, hlog⟩ := append_inj_of_fst (c := c) (fun m hm => (mem_meals hm).1)
          (fun m hm => (mem_meals hm).1) (fun m hm heq => hnot (heq ▸ mem_eatFoodLog hm))
          (fun m hm heq => hnot (heq ▸ mem_plainLog hm)) h
        have hnear := hturn.mp hhead
        rw [hscene hnear] at hlog
        exact ⟨hnear, htail.mp hlog⟩
      · rw [eatFoodLog, plainLog, hscene h.1, htail.mpr h.2, hturn.mpr h.1]
      · rw [List.foldl_cons, List.foldl_cons, hscene h.1]
        exact hrest h.2

omit [FloorRing K] [Sqrt K] [IsStrictOrderedRing K] [LawfulSqrt K] in
theorem sortedCells_eq_sort (o : Order) (hs : s.Sound) (site : Site) (sites : Nat → Site) :
    s.sortedCells o site sites = s.alive.sort (· ≤ ·) := by
  have hperm : (s.sortedCells o site sites).Perm (s.alive.sort (· ≤ ·)) := by
    rw [List.perm_ext_iff_of_nodup (sortedCells_nodup o hs) (s.alive.sort_nodup _)]
    intro c
    rw [mem_sortedCells, s.alive.mem_sort]
  exact hperm.eq_of_pairwise (fun a b _ _ => Nat.le_antisymm) (sortBy_pairwise id _)
    (s.alive.pairwise_sort (· ≤ ·))

/-- {lit}`eat_food` reports the events of the plain loop, and leaves the same sizes, exactly when
in the plain loop no cell eats a food that lay outside of the circle it had searched. -/
theorem eat_food_plain_iff (o : Order) (hs : s.Sound) (hstocked : s.Stocked)
    (hsizes : ∀ c ∈ s.alive, 0 ≤ (s.cells c).size) :
    (eatFoodLog o (s.sortedCells o .foodPlayers .foodCells) s =
        plainLog (s.alive.sort (· ≤ ·)) s ∧
      ∀ c, ((eatFood o s).cells c).size = ((plainFood s).cells c).size) ↔
    Covers (s.alive.sort (· ≤ ·)) s := by
  obtain ⟨hlog, hscene⟩ := foldl_plain_iff o (s.alive.sort_nodup (· ≤ ·)) hstocked
    fun c hc => hsizes c ((s.alive.mem_sort _).mp hc)
  have hfold : eatFood o s = (s.alive.sort (· ≤ ·)).foldl (eatFoods o) s := by
    rw [← sortedCells_eq_sort o hs .foodPlayers .foodCells]
    rfl
  rw [sortedCells_eq_sort o hs .foodPlayers .foodCells, hlog]
  refine ⟨fun h => h.1, fun h => ⟨h, fun c => ?_⟩⟩
  rw [hfold, hscene h]
  rfl

/-- Foods in the middle of a cell are eaten one after the other. -/
theorem meals_middle {c : Nat} {l : List Nat} (hl : l.Nodup) (hfoods : ∀ f ∈ l, f ∈ s.foods)
    (hplace : ∀ f ∈ l, (s.foodTables f).x = (s.cells c).x ∧ (s.foodTables f).y = (s.cells c).y)
    (hsize : 0 < (s.cells c).size) :
    let s' := l.foldl (eatOneFood c) s
    (s'.cells c).x = (s.cells c).x ∧ (s'.cells c).y = (s.cells c).y ∧
      (s'.cells c).size ^ 2 = (s.cells c).size ^ 2 + l.length ∧
      s'.foodTables = s.foodTables ∧ ∀ f ∈ s.foods, f ∉ l → f ∈ s'.foods := by
  induction l generalizing s with
  | nil => exact ⟨rfl, rfl, by simp, rfl, fun f hf _ => hf⟩
  | cons f l ih =>
      obtain ⟨hnot, hl⟩ := List.nodup_cons.mp hl
      obtain ⟨hx, hy⟩ := hplace f List.mem_cons_self
      have hcond : f ∈ s.foods ∧ ((s.cells c).x - (s.foodTables f).x) ^ 2 +
          ((s.cells c).y - (s.foodTables f).y) ^ 2 < (s.cells c).size ^ 2 := by
        refine ⟨hfoods f List.mem_cons_self, ?_⟩
        rw [hx, hy, sub_self, sub_self, zero_pow two_ne_zero, zero_add]
        exact pow_pos hsize 2
      have hmass : 0 < calMass (s.cells c).size + 1 :=
        add_pos_of_nonneg_of_pos (calMass_nonneg _) zero_lt_one
      have hroot := LawfulSqrt.mul_self_sqrt _ hmass.le
      have hcell : (eatOneFood c s f).cells c =
          { s.cells c with size := sqrt (calMass (s.cells c).size + 1) } := by
        simp only [eatOneFood]
        rw [if_pos hcond]
        simp [updateCell, setCell]
      have hgone : (eatOneFood c s f).foods = s.foods.erase f := by
        simp only [eatOneFood]
        rw [if_pos hcond]
        rfl
      have htables := (eatOneFood_meal c s f).tables
      have hpos : 0 < ((eatOneFood c s f).cells c).size := by
        rw [hcell]
        refine lt_of_le_of_ne (LawfulSqrt.sqrt_nonneg _) fun hzero => ?_
        have hzero : 0 = sqrt (calMass (s.cells c).size + 1) := hzero
        rw [← hzero, zero_mul] at hroot
        exact hmass.ne hroot
      obtain ⟨hx', hy', hsize', htables', hkeep⟩ := ih (s := eatOneFood c s f) hl
        (fun g hg => by
          rw [hgone]
          exact Finset.mem_erase.mpr
            ⟨fun heq => hnot (heq ▸ hg), hfoods g (List.mem_cons_of_mem f hg)⟩)
        (fun g hg => by
          rw [htables, hcell]
          exact hplace g (List.mem_cons_of_mem f hg)) hpos
      have hsquare : ((eatOneFood c s f).cells c).size ^ 2 = (s.cells c).size ^ 2 + 1 := by
        rw [hcell, pow_two, pow_two]
        exact hroot
      rw [List.foldl_cons]
      refine ⟨?_, ?_, ?_, htables'.trans htables, fun g hg hgl => hkeep g ?_ ?_⟩
      · rw [hx', hcell]
      · rw [hy', hcell]
      · rw [hsize', hsquare, List.length_cons]
        push_cast
        ring
      · rw [hgone]
        exact Finset.mem_erase.mpr ⟨fun heq => hgl (heq ▸ List.mem_cons_self), hg⟩
      · exact fun h => hgl (List.mem_cons_of_mem f h)

omit [IsStrictOrderedRing K] [LawfulSqrt K] in
/-- The events before a food and at it. -/
theorem meals_append (c : Nat) (l l' : List Nat) (s : Scene K) :
    meals c (l ++ l') s = meals c l s ++ meals c l' (l.foldl (eatOneFood c) s) := by
  induction l generalizing s with
  | nil => rfl
  | cons f l ih => simp only [List.cons_append, meals, ih, List.foldl_cons, List.append_assoc]

end Lawful

/-! ## A food out of the circle -/

/-- The food is put into the scene. -/
def addFood (s : Scene K) (at_ : Fin 1001 × Fin 1001) : Scene K :=
  foodUpdate (some at_) s

/-- The first foods of the game are in their places. -/
structure Laid (s : Scene ℝ) (n : Nat) (place : Nat → Food ℝ) : Prop where
  maxid : s.foodMaxid = n
  count : s.foodCount = n
  foods : s.foods = Finset.Icc 1 n
  tables : ∀ i ∈ Finset.Icc 1 n, s.foodTables i = place i

theorem Laid.addFood {s : Scene ℝ} {n : Nat} {place : Nat → Food ℝ} (h : Laid s n place)
    (hn : n < 4000) {a : Fin 1001 × Fin 1001}
    (hplace : place (n + 1) = ⟨(a.1 : Nat), (a.2 : Nat)⟩) :
    Laid (s.addFood a) (n + 1) place := by
  have hroom : ¬foodMax ≤ s.foodCount := by
    have hmax : foodMax = 4000 := rfl
    rw [hmax, h.count]
    omega
  have hinsert : ∀ (s : Scene ℝ) f, (insertFood s f).foodMaxid = s.foodMaxid ∧
      (insertFood s f).foodCount = s.foodCount ∧ (insertFood s f).foods = s.foods ∧
      (insertFood s f).foodTables = s.foodTables := by
    intro s f
    unfold insertFood
    split <;> exact ⟨rfl, rfl, rfl, rfl⟩
  unfold Scene.addFood foodUpdate
  rw [if_neg hroom]
  obtain ⟨hmaxid, hcount, hfoods, htables⟩ := hinsert { s with
    foodCount := s.foodCount + 1
    foodMaxid := s.foodMaxid + 1
    foodTables := Function.update s.foodTables (s.foodMaxid + 1) ⟨(a.1 : Nat), (a.2 : Nat)⟩
    foods := insert (s.foodMaxid + 1) s.foods
    event := { s.event with newFoods := s.event.newFoods ++
      [(s.foodMaxid + 1, ((a.1 : Nat) : ℝ), ((a.2 : Nat) : ℝ))] } } (s.foodMaxid + 1)
  refine ⟨hmaxid.trans ?_, hcount.trans ?_, hfoods.trans ?_, fun i hi => ?_⟩
  · show s.foodMaxid + 1 = n + 1
    rw [h.maxid]
  · show s.foodCount + 1 = ((n + 1 : Nat) : Int)
    rw [h.count]
    push_cast
    rfl
  · show insert (s.foodMaxid + 1) s.foods = Finset.Icc 1 (n + 1)
    rw [h.maxid, h.foods]
    ext i
    simp only [Finset.mem_insert, Finset.mem_Icc]
    omega
  · refine (congrFun htables i).trans ?_
    show Function.update s.foodTables (s.foodMaxid + 1) _ i = place i
    rw [h.maxid]
    by_cases hin : i = n + 1
    · rw [hin, Function.update_self, hplace]
    · rw [Function.update_of_ne hin]
      refine h.tables i ?_
      simp only [Finset.mem_Icc] at hi ⊢
      omega

/-- The middle of the scene. -/
def middle : Fin 1001 × Fin 1001 :=
  (⟨500, by decide⟩, ⟨500, by decide⟩)

/-- A player with one cell of size 1, and six foods: five in the middle of the cell and one
out of the circle of radius 2 around it. -/
noncomputable def pasture : Scene ℝ :=
  { [middle, middle, middle, middle, middle, (⟨502, by decide⟩, ⟨501, by decide⟩)].foldl addFood
      (start : Scene ℝ) with
    players := Table.empty.set 7 0
    tables := fun _ => ⟨7, 1, false, {1}, 0, 0, false, 0, []⟩
    nextTable := 1
    cells := fun _ => bornCell 7 middle
    cellMaxid := 1
    spores := ∅ }

theorem pasture_stocked : pasture.Stocked := by
  have hfold : ∀ (l : List (Fin 1001 × Fin 1001)), (l.foldl addFood (start : Scene ℝ)).Stocked :=
    fun l => List.foldlRecOn (motive := Stocked) l addFood start_stocked fun s hs at_ _ =>
      (foodUpdate_stocked (some at_) hs).1
  exact (hfold _).of_pantry rfl

theorem pasture_sound : pasture.Sound where
  table p r hr := by
    have hr : (Table.empty.set 7 0 : Table Nat).get p = some r := hr
    simp only [Table.get_set, Table.get_empty, Option.ite_none_right_eq_some] at hr
    exact hr.1.symm
  owner p r c hr _ := by
    have hr : (Table.empty.set 7 0 : Table Nat).get p = some r := hr
    simp only [Table.get_set, Table.get_empty, Option.ite_none_right_eq_some] at hr
    exact hr.1.symm
  cell_le p r c _ hc := (Finset.mem_singleton.mp hc).le
  spore_le := by rintro _ ⟨⟩

/-- Where the foods of the pasture are. -/
noncomputable def pasturePlace (f : Nat) : Food ℝ :=
  if f = 6 then ⟨502, 501⟩ else ⟨(middle.1 : Nat), (middle.2 : Nat)⟩

theorem pasture_laid : Laid pasture 6 pasturePlace := by
  have hstart : Laid (start : Scene ℝ) 0 pasturePlace := ⟨rfl, rfl, rfl, by simp⟩
  have hmiddle : ∀ n, n + 1 ≠ 6 → pasturePlace (n + 1) =
      ⟨(middle.1 : Nat), (middle.2 : Nat)⟩ := by
    intro n hn
    simp [pasturePlace, middle, hn]
  have h₅ := ((((hstart.addFood (by omega) (a := middle) (hmiddle 0 (by omega))).addFood
    (by omega) (a := middle) (hmiddle 1 (by omega))).addFood
    (by omega) (a := middle) (hmiddle 2 (by omega))).addFood
    (by omega) (a := middle) (hmiddle 3 (by omega))).addFood
    (by omega) (a := middle) (hmiddle 4 (by omega))
  have h₆ := h₅.addFood (by omega) (a := (⟨502, by decide⟩, ⟨501, by decide⟩))
    (by simp [pasturePlace])
  exact ⟨h₆.maxid, h₆.count, h₆.foods, h₆.tables⟩

theorem pasture_alive : pasture.alive = {1} := by
  ext c
  rw [mem_alive, Finset.mem_singleton]
  constructor
  · rintro ⟨p, r, -, hc⟩
    exact Finset.mem_singleton.mp hc
  · rintro rfl
    exact ⟨7, 0, rfl, Finset.mem_singleton_self 1⟩

/-- The cell has grown past its circle when it comes to the last food. -/
theorem pasture_not_covers : ¬Covers (pasture.alive.sort (· ≤ ·)) pasture := by
  have hlaid := pasture_laid
  have hsort : pasture.foods.sort (· ≤ ·) = [1, 2, 3, 4, 5] ++ [6] := by
    have hperm : (pasture.foods.sort (· ≤ ·)).Perm [1, 2, 3, 4, 5, 6] := by
      rw [List.perm_ext_iff_of_nodup (Finset.sort_nodup _ _) (by decide)]
      intro f
      rw [Finset.mem_sort, hlaid.foods, Finset.mem_Icc]
      simp only [List.mem_cons, List.not_mem_nil, or_false]
      omega
    exact hperm.eq_of_pairwise (fun a b _ _ => Nat.le_antisymm) (Finset.pairwise_sort _ _)
      (by decide)
  have hx : (pasture.cells 1).x = 500 := by simp [pasture, bornCell, middle]
  have hy : (pasture.cells 1).y = 500 := by simp [pasture, bornCell, middle]
  have hsize : (pasture.cells 1).size = 1 := rfl
  obtain ⟨hx', hy', hsize', htables, hkeep⟩ := meals_middle (s := pasture) (c := 1)
    (l := [1, 2, 3, 4, 5]) (by decide) (fun f hf => by
      rw [hlaid.foods]
      revert f
      decide) (fun f hf => by
      have hin : f ∈ Finset.Icc 1 6 := by
        revert f
        decide
      have hne : f ≠ 6 := by
        revert f
        decide
      rw [hlaid.tables f hin, hx, hy, pasturePlace, if_neg hne]
      exact ⟨rfl, rfl⟩) (by rw [hsize]; norm_num)
  set s₅ := [1, 2, 3, 4, 5].foldl (eatOneFood 1) pasture with hs₅
  have hsix : pasture.foodTables 6 = ⟨502, 501⟩ := by
    rw [hlaid.tables 6 (by decide), pasturePlace, if_pos rfl]
  have heats : s₅.EatsFood 1 6 := by
    refine ⟨hkeep 6 (by rw [hlaid.foods]; decide) (by decide), ?_⟩
    unfold FoodInside
    rw [hx', hy', hx, hy, htables, hsix, hsize', hsize]
    norm_num
  rw [pasture_alive, Finset.sort_singleton]
  rintro ⟨hnear, -⟩
  have hmem : ((1, 6) : Nat × Nat) ∈ meals 1 (pasture.foods.sort (· ≤ ·)) pasture := by
    rw [hsort, meals_append]
    refine List.mem_append_right _ ?_
    rw [← hs₅, meals, if_pos heats]
    exact List.mem_append_left _ (List.mem_singleton_self _)
  have hfar := hnear _ hmem
  unfold FoodNear at hfar
  rw [hx, hy, hsix, hsize] at hfar
  norm_num at hfar

theorem eat_food_plain_iff_pasture :
    (eatFoodLog .ascending (pasture.sortedCells .ascending .foodPlayers .foodCells) pasture =
        plainLog (pasture.alive.sort (· ≤ ·)) pasture ∧
      ∀ c, ((eatFood .ascending pasture).cells c).size = ((plainFood pasture).cells c).size) ↔
    Covers (pasture.alive.sort (· ≤ ·)) pasture :=
  eat_food_plain_iff .ascending pasture_sound pasture_stocked fun _ _ => zero_le_one

/-- The cell misses a food that the plain loop eats. -/
theorem eat_food_misses :
    eatFoodLog .ascending (pasture.sortedCells .ascending .foodPlayers .foodCells) pasture ≠
      plainLog (pasture.alive.sort (· ≤ ·)) pasture := by
  intro h
  rw [sortedCells_eq_sort .ascending pasture_sound .foodPlayers .foodCells] at h
  exact pasture_not_covers ((foldl_plain_iff .ascending (pasture.alive.sort_nodup _) pasture_stocked
    fun _ _ => zero_le_one).1.mp h)

end Scene

end BallServer.Ball
