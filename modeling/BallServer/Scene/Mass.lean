import BallServer.Scene.Sound

/-!
# Mass

The mass of a cell or spore is the square of its size.  Splitting, spitting, eating spores
and cells and merging move mass around; food, new cells and leaving players change it.

Main results:

- Structure {lit}`Conserves`: what a phase does to the mass, the food and the sizes.
- Theorem {lit}`update_mass`: the mass after a frame.
-/

namespace BallServer.Ball

/-- The square root is exact. -/
class LawfulSqrt (K : Type) [Field K] [LinearOrder K] [Sqrt K] : Prop where
  sqrt_nonneg : ∀ m : K, 0 ≤ sqrt m
  mul_self_sqrt : ∀ m : K, 0 ≤ m → sqrt m * sqrt m = m

noncomputable instance : Sqrt ℝ := ⟨Real.sqrt⟩

instance : LawfulSqrt ℝ where
  sqrt_nonneg := Real.sqrt_nonneg
  mul_self_sqrt _ h := Real.mul_self_sqrt h

namespace Scene

variable {K : Type} [Field K] [LinearOrder K]

/-- The total mass of all cells and spores. -/
def mass (s : Scene K) : K :=
  (∑ c ∈ s.alive, calMass (s.cells c).size) + ∑ i ∈ s.spores, calMass (s.sporeTables i).size

/-- Every cell has at least size 1. -/
def Large (s : Scene K) : Prop :=
  ∀ c ∈ s.alive, 1 ≤ (s.cells c).size

/-- The number of foods eaten in this frame. -/
def eaten (s : Scene K) : Nat :=
  s.event.eatenFoodIds.length

/-- The queues of players that leave, come back and enter, and what else no phase in the
middle of a frame touches. -/
def outer (s : Scene K) : Table Nat × Finset Nat × Table Nat × Nat × Bool :=
  (s.pendingEnters, s.pendingLeaves, s.pendingRebirth, s.nextTable, s.gameStarted)

/-- A phase that only concerns the players of the game and their cells. -/
structure Keeps (s s' : Scene K) : Prop where
  enters : s'.pendingEnters = s.pendingEnters
  leaves : s'.pendingLeaves = s.pendingLeaves
  next : s'.nextTable = s.nextTable
  started : s'.gameStarted = s.gameStarted
  rebirth : ∀ p r, s'.pendingRebirth.get p = some r →
    s.pendingRebirth.get p = some r ∨ s.players.get p = some r
  maxid : s.cellMaxid ≤ s'.cellMaxid
  table : ∀ r, (∀ p, s.players.get p ≠ some r) →
    (s'.tables r).cells = (s.tables r).cells ∧ (s'.tables r).playerid = (s.tables r).playerid
  cell : ∀ c, c ∉ s.alive → c ≤ s.cellMaxid →
    (s'.cells c).playerid = (s.cells c).playerid ∧ (s'.cells c).size = (s.cells c).size
  alive : ∀ c ∈ s'.alive, c ∈ s.alive ∨ s.cellMaxid < c

/-- A phase that only moves mass around and eats food. -/
structure Conserves (s s' : Scene K) : Prop where
  keeps : s.Keeps s'
  players : s'.players = s.players
  sound : s'.Sound
  mass : s'.mass = s.mass + (s'.eaten - s.eaten : K)
  foods : s'.foods.card + s'.eaten = s.foods.card + s.eaten
  large : s.Large → s'.Large

section Sums

variable {s s' : Scene K}

theorem Keeps.refl (s : Scene K) : s.Keeps s where
  enters := rfl
  leaves := rfl
  next := rfl
  started := rfl
  rebirth _ _ h := .inl h
  maxid := le_rfl
  table _ _ := ⟨rfl, rfl⟩
  cell _ _ _ := ⟨rfl, rfl⟩
  alive _ h := .inl h

theorem Keeps.trans {s'' : Scene K} (h : s.Keeps s') (h' : s'.Keeps s'')
    (hp : s'.players = s.players) : s.Keeps s'' where
  enters := h'.enters.trans h.enters
  leaves := h'.leaves.trans h.leaves
  next := h'.next.trans h.next
  started := h'.started.trans h.started
  rebirth p r hr := by
    rcases h'.rebirth p r hr with hr | hr
    · exact h.rebirth p r hr
    · exact .inr (hp ▸ hr)
  maxid := h.maxid.trans h'.maxid
  table r hr := by
    obtain ⟨hc, hid⟩ := h.table r hr
    obtain ⟨hc', hid'⟩ := h'.table r (hp ▸ hr)
    exact ⟨hc'.trans hc, hid'.trans hid⟩
  cell c hc hle := by
    obtain ⟨hown, hsize⟩ := h.cell c hc hle
    have hc' : c ∉ s'.alive := by
      intro hmem
      rcases h.alive c hmem with hmem | hlt
      · exact hc hmem
      · omega
    obtain ⟨hown', hsize'⟩ := h'.cell c hc' (hle.trans h.maxid)
    exact ⟨hown'.trans hown, hsize'.trans hsize⟩
  alive c hc := by
    rcases h'.alive c hc with hc | hlt
    · exact h.alive c hc
    · exact .inr (h.maxid.trans_lt hlt)

/-- The queues are as they were. -/
theorem Keeps.of_outer (houter : s'.outer = s.outer) (hmax : s.cellMaxid ≤ s'.cellMaxid)
    (htable : ∀ r, (∀ p, s.players.get p ≠ some r) →
      (s'.tables r).cells = (s.tables r).cells ∧ (s'.tables r).playerid = (s.tables r).playerid)
    (hcell : ∀ c, c ∉ s.alive → c ≤ s.cellMaxid →
      (s'.cells c).playerid = (s.cells c).playerid ∧ (s'.cells c).size = (s.cells c).size)
    (halive : ∀ c ∈ s'.alive, c ∈ s.alive ∨ s.cellMaxid < c) : s.Keeps s' := by
  simp only [outer, Prod.mk.injEq] at houter
  obtain ⟨henters, hleaves, hrebirth, hnext, hstarted⟩ := houter
  exact ⟨henters, hleaves, hnext, hstarted, fun p r hr => .inl (hrebirth ▸ hr), hmax, htable, hcell,
    halive⟩

theorem Conserves.refl (hs : s.Sound) : Conserves s s where
  keeps := .refl s
  players := rfl
  sound := hs
  mass := by rw [sub_self, add_zero]
  foods := rfl
  large := id

theorem Conserves.trans {s'' : Scene K} (h : Conserves s s') (h' : Conserves s' s'') :
    Conserves s s'' where
  keeps := h.keeps.trans h'.keeps h.players
  players := h'.players.trans h.players
  sound := h'.sound
  mass := by
    rw [h'.mass, h.mass]
    ring
  foods := h'.foods.trans h.foods
  large := h'.large ∘ h.large

/-- A loop whose body conserves mass conserves mass. -/
theorem Conserves.foldl {α : Type} {f : Scene K → α → Scene K} (l : List α) (hs : s.Sound)
    (hstep : ∀ s₁ a, a ∈ l → s₁.Sound → s₁.players = s.players → Conserves s₁ (f s₁ a)) :
    Conserves s (l.foldl f s) :=
  List.foldlRecOn l f (Conserves.refl hs) fun s₁ h₁ a ha =>
    h₁.trans (hstep s₁ a ha h₁.sound h₁.players)

/-- The same for a body that needs and keeps something else. -/
theorem Conserves.foldl_of {α : Type} {f : Scene K → α → Scene K} {Q : Scene K → Prop}
    (l : List α) (hs : s.Sound) (hQ : Q s)
    (hstep : ∀ s₁ a, a ∈ l → s₁.Sound → s₁.players = s.players → Q s₁ →
      Conserves s₁ (f s₁ a) ∧ Q (f s₁ a)) :
    Conserves s (l.foldl f s) ∧ Q (l.foldl f s) :=
  List.foldlRecOn (motive := fun s₁ => Conserves s s₁ ∧ Q s₁) l f ⟨Conserves.refl hs, hQ⟩
    fun s₁ h₁ a ha => (hstep s₁ a ha h₁.1.sound h₁.1.players h₁.2).imp_left h₁.1.trans

omit [LinearOrder K] in
/-- A sum in which one term changes. -/
theorem sum_change {t : Finset Nat} {f g : Nat → K} {c : Nat} (hc : c ∈ t)
    (h : ∀ d ∈ t, d ≠ c → f d = g d) : ∑ d ∈ t, f d = ∑ d ∈ t, g d - g c + f c := by
  rw [← Finset.add_sum_erase _ _ hc, ← Finset.add_sum_erase t _ hc]
  have : ∑ d ∈ t.erase c, f d = ∑ d ∈ t.erase c, g d :=
    Finset.sum_congr rfl fun d hd => h d (Finset.mem_of_mem_erase hd) (Finset.ne_of_mem_erase hd)
  rw [this]
  ring

omit [LinearOrder K] in
/-- A sum in which one term changes and another one is taken out. -/
theorem sum_change_erase {t : Finset Nat} {f g : Nat → K} {c e : Nat} (hc : c ∈ t) (he : e ∈ t)
    (hne : c ≠ e) (h : ∀ d ∈ t, d ≠ c → f d = g d) :
    ∑ d ∈ t.erase e, f d = ∑ d ∈ t, g d - g c - g e + f c := by
  have hc' : c ∈ t.erase e := Finset.mem_erase.mpr ⟨hne, hc⟩
  rw [sum_change hc' fun d hd => h d (Finset.mem_of_mem_erase hd), ← Finset.add_sum_erase t _ he]
  ring

end Sums

variable [IsStrictOrderedRing K] [FloorRing K] [Sqrt K] [LawfulSqrt K] {s : Scene K}

omit [IsStrictOrderedRing K] [FloorRing K] in
theorem calMass_sqrt {m : K} (h : 0 ≤ m) : calMass (sqrt m) = m :=
  LawfulSqrt.mul_self_sqrt m h

omit [FloorRing K] [Sqrt K] [LawfulSqrt K] in
theorem calMass_nonneg (v : K) : 0 ≤ calMass v :=
  mul_self_nonneg v

theorem one_le_sqrt {m : K} (h : 1 ≤ m) : 1 ≤ sqrt m := by
  have hm := LawfulSqrt.mul_self_sqrt m (zero_le_one.trans h)
  have hn := LawfulSqrt.sqrt_nonneg m
  by_contra hlt
  have hlt := lt_of_not_ge hlt
  have : sqrt m * sqrt m < 1 := by nlinarith
  linarith

omit [Sqrt K] [LawfulSqrt K] in
theorem one_le_calMass {v : K} (h : 1 ≤ v) : 1 ≤ calMass v := by
  unfold calMass
  nlinarith

/-! ## Splitting and spitting -/

theorem splitCell_conserves (hs : s.Sound) (a : Action K) {p r c : Nat}
    (hr : s.players.get p = some r) (hc : c ∈ (s.tables r).cells) (hsize : 4 ≤ (s.cells c).size) :
    Conserves s (splitCell a r s c) := by
  have hne : c ≠ s.cellMaxid + 1 := by
    have := hs.cell_le p r c hr hc
    omega
  have halive : (splitCell a r s c).alive = insert (s.cellMaxid + 1) s.alive :=
    alive_addCell (s := newCell (s.setCell c _) _) hr _
  have hold : ∀ d ∈ s.alive, d ≠ c → ((splitCell a r s c).cells d) = s.cells d := by
    intro d hd hdc
    have := hs.alive_le hd
    have hd' : d ≠ s.cellMaxid + 1 := by omega
    simp [splitCell, addCell, setTable, newCell, setCell, hdc, hd']
  have htwo : (2.0 : K) = 2 := by norm_num
  have hhalf : calMass (sqrt (calMass (s.cells c).size / 2)) = calMass (s.cells c).size / 2 :=
    calMass_sqrt (div_nonneg (calMass_nonneg _) zero_le_two)
  have hc' : ((splitCell a r s c).cells c).size = sqrt (calMass (s.cells c).size / 2) := by
    simp [splitCell, addCell, setTable, newCell, setCell, hne, htwo]
  have hnew : ((splitCell a r s c).cells (s.cellMaxid + 1)).size =
      sqrt (calMass (s.cells c).size / 2) := by
    simp [splitCell, addCell, setTable, newCell, setCell, htwo]
  have htable : ∀ t, t ≠ r → (splitCell a r s c).tables t = s.tables t := by
    intro t h
    simp [splitCell, addCell, setTable, newCell, setCell, h]
  refine ⟨?_, rfl, splitCell_sound a hs hr c, ?_, rfl, ?_⟩
  · refine .of_outer rfl (Nat.le_succ _) (fun t ht => ?_) (fun d hd hle => ?_) (fun d hd => ?_)
    · rw [htable t fun h => ht p (h ▸ hr)]
      exact ⟨rfl, rfl⟩
    · have hdc : d ≠ c := fun h => hd (h ▸ mem_alive_of hr hc)
      have hdn : d ≠ s.cellMaxid + 1 := by omega
      simp [splitCell, addCell, setTable, newCell, setCell, hdc, hdn]
    · rw [halive, Finset.mem_insert] at hd
      exact hd.elim (fun h => .inr (by omega)) .inl
  · have hcalive := mem_alive_of hr hc
    unfold Scene.mass
    rw [halive, Finset.sum_insert hs.fresh, sum_change hcalive fun d hd hdc => by rw [hold d hd hdc],
      hnew, hc', hhalf]
    have hspores : (splitCell a r s c).spores = s.spores := rfl
    have htables : (splitCell a r s c).sporeTables = s.sporeTables := rfl
    have heaten : (splitCell a r s c).eaten = s.eaten := rfl
    rw [hspores, htables, heaten]
    ring
  · intro hlarge d hd
    have hone : 1 ≤ sqrt (calMass (s.cells c).size / 2) := by
      apply one_le_sqrt
      unfold calMass
      nlinarith
    rw [halive, Finset.mem_insert] at hd
    rcases hd with rfl | hd
    · rw [hnew]
      exact hone
    · by_cases hdc : d = c
      · subst hdc
        rw [hc']
        exact hone
      · rw [hold d hd hdc]
        exact hlarge d hd

omit [FloorRing K] [Sqrt K] [LawfulSqrt K] in
/-- A cell of a player is resized. -/
theorem resize_conserves {s' : Scene K} (hs : s.Sound) {c : Nat} (hc : c ∈ s.alive)
    (houter : s'.outer = s.outer) (hplayers : s'.players = s.players) (htables : s'.tables = s.tables)
    (hold : ∀ d, d ≠ c → s'.cells d = s.cells d)
    (hown : (s'.cells c).playerid = (s.cells c).playerid)
    (hmax : s'.cellMaxid = s.cellMaxid)
    (hspore_le : ∀ i ∈ s'.spores, i ≤ s'.sporeMaxid)
    (hfoods : s'.foods.card + s'.eaten = s.foods.card + s.eaten)
    (hmass : calMass (s'.cells c).size + ∑ i ∈ s'.spores, calMass (s'.sporeTables i).size =
      calMass (s.cells c).size + ∑ i ∈ s.spores, calMass (s.sporeTables i).size +
        (s'.eaten - s.eaten : K))
    (hlarge : s.Large → 1 ≤ (s'.cells c).size) : Conserves s s' := by
  have halive : s'.alive = s.alive := alive_congr hplayers fun r => by rw [htables]
  refine ⟨?_, hplayers, ?_, ?_, hfoods, ?_⟩
  · refine .of_outer houter hmax.ge (fun t _ => ?_) (fun d hd _ => ?_) fun d hd => .inl (halive ▸ hd)
    · rw [htables]
      exact ⟨rfl, rfl⟩
    · rw [hold d fun h => hd (h ▸ hc)]
      exact ⟨rfl, rfl⟩
  · constructor
    · intro p r hr
      rw [hplayers] at hr
      rw [htables]
      exact hs.table p r hr
    · intro p r d hr hd
      rw [hplayers] at hr
      rw [htables] at hd
      by_cases hdc : d = c
      · rw [hdc, hown, ← hdc]
        exact hs.owner p r d hr hd
      · rw [hold d hdc]
        exact hs.owner p r d hr hd
    · intro p r d hr hd
      rw [hplayers] at hr
      rw [htables] at hd
      rw [hmax]
      exact hs.cell_le p r d hr hd
    · exact hspore_le
  · have hsum := sum_change (f := fun d => calMass (s'.cells d).size)
      (g := fun d => calMass (s.cells d).size) hc fun d _ hdc => by rw [hold d hdc]
    unfold Scene.mass
    rw [halive, hsum]
    linarith
  · intro h d hd
    rw [halive] at hd
    by_cases hdc : d = c
    · rw [hdc]
      exact hlarge h
    · rw [hold d hdc]
      exact h d hd

theorem spitCell_conserves (hs : s.Sound) (a : Action K) {p r c : Nat}
    (hr : s.players.get p = some r) (hc : c ∈ (s.tables r).cells)
    (hmass : calMass (s.cells c).size > calMass 1) (hsize : 3 ≤ (s.cells c).size) :
    Conserves s (spitCell a r s c) := by
  have hfresh : s.sporeMaxid + 1 ∉ s.spores := by
    intro h
    have := hs.spore_le _ h
    omega
  have hnew : ((spitCell a r s c).cells c).size = sqrt (calMass (s.cells c).size - calMass 1) := by
    simp [spitCell, newSpore, setCell]
  refine resize_conserves hs (mem_alive_of hr hc) rfl rfl rfl ?_ ?_ rfl ?_ rfl ?_ ?_
  · intro d hdc
    simp [spitCell, newSpore, setCell, hdc]
  · simp [spitCell, newSpore, setCell]
  · intro i hi
    rcases Finset.mem_insert.mp hi with rfl | hi
    · exact le_rfl
    · exact (hs.spore_le i hi).trans (Nat.le_succ _)
  · have hspores : (spitCell a r s c).spores = insert (s.sporeMaxid + 1) s.spores := rfl
    have htables : ∀ i ∈ s.spores, (spitCell a r s c).sporeTables i = s.sporeTables i := by
      intro i hi
      have hne : i ≠ s.sporeMaxid + 1 := fun h => hfresh (h ▸ hi)
      simp [spitCell, newSpore, setCell, hne]
    have hone : ((spitCell a r s c).sporeTables (s.sporeMaxid + 1)).size = 1 := by
      simp [spitCell, newSpore, setCell]
    have heaten : (spitCell a r s c).eaten = s.eaten := rfl
    have hrest : ∑ i ∈ s.spores, calMass ((spitCell a r s c).sporeTables i).size =
        ∑ i ∈ s.spores, calMass (s.sporeTables i).size :=
      Finset.sum_congr rfl fun i hi => by rw [htables i hi]
    rw [hspores, Finset.sum_insert hfresh, hone, hnew, hrest, heaten,
      calMass_sqrt (sub_nonneg.mpr hmass.le)]
    ring
  · intro _
    rw [hnew]
    apply one_le_sqrt
    unfold calMass
    nlinarith

omit [IsStrictOrderedRing K] [FloorRing K] [LawfulSqrt K] in
/-- What the split of a cell leaves of another one. -/
theorem splitCell_old (hs : s.Sound) (a : Action K) {r c d : Nat} (hd : d ∈ s.alive) (hne : d ≠ c) :
    (splitCell a r s c).cells d = s.cells d := by
  have := hs.alive_le hd
  have hd' : d ≠ s.cellMaxid + 1 := by omega
  simp [splitCell, addCell, setTable, newCell, setCell, hne, hd']

theorem splitCells_conserves (a : Action K) {p r : Nat} {l : List Nat} (hs : s.Sound)
    (hr : s.players.get p = some r) (hl : l.Nodup)
    (hcells : ∀ c ∈ l, c ∈ (s.tables r).cells ∧ 4 ≤ (s.cells c).size) :
    Conserves s (splitCells a r l s).1 := by
  induction l generalizing s with
  | nil => exact .refl hs
  | cons c l ih =>
      unfold splitCells
      split
      · exact .refl hs
      · obtain ⟨hc, hsize⟩ := hcells c (by simp)
        have hstep := splitCell_conserves hs a hr hc hsize
        obtain ⟨hcl, hl⟩ := List.nodup_cons.mp hl
        refine hstep.trans (ih hstep.sound (hstep.players ▸ hr) hl fun d hd => ?_)
        obtain ⟨hdr, hdsize⟩ := hcells d (List.mem_cons_of_mem c hd)
        have hdc : d ≠ c := by
          rintro rfl
          exact hcl hd
        rw [splitCell_old hs a (mem_alive_of hr hdr) hdc]
        exact ⟨by simp [splitCell, addCell, setTable, newCell, setCell, hdr], hdsize⟩

theorem sortBy_nodup {l : List Nat} (h : l.Nodup) (key : Nat → Nat) : (sortBy key l).Nodup :=
  (sortBy_perm key l).nodup_iff.mpr h

/-- {lit}`do_split` conserves mass. -/
theorem doSplit_conserves (o : Order) (site : Site) (a : Action K) {p r : Nat} (hs : s.Sound)
    (hr : s.players.get p = some r) : Conserves s (doSplit o site s r a).1 := by
  unfold doSplit
  split
  · exact .refl hs
  · apply splitCells_conserves a hs hr
    · exact sortBy_nodup ((o.nodup_pairs _ _).filter _) id
    · intro c hc
      rw [mem_sortBy, List.mem_filter, o.mem_pairs] at hc
      exact ⟨hc.1, of_decide_eq_true hc.2⟩

theorem spitCells_conserves (a : Action K) {p r : Nat} {l : List Nat} (hs : s.Sound)
    (hr : s.players.get p = some r) (hcells : ∀ c ∈ l, c ∈ (s.tables r).cells) :
    Conserves s (spitCells a r l s).1 := by
  induction l generalizing s with
  | nil => exact .refl hs
  | cons c l ih =>
      unfold spitCells
      split
      · rename_i h
        have hstep := spitCell_conserves hs a hr (hcells c (by simp)) h.2 h.1
        refine hstep.trans (ih hstep.sound hr fun d hd => ?_)
        exact hcells d (List.mem_cons_of_mem c hd)
      · exact ih hs hr fun d hd => hcells d (List.mem_cons_of_mem c hd)

/-- {lit}`spit_spore` conserves mass. -/
theorem spitSpore_conserves (o : Order) (site : Site) (a : Action K) {p r : Nat} (hs : s.Sound)
    (hr : s.players.get p = some r) : Conserves s (spitSpore o site s r a).1 := by
  apply spitCells_conserves a hs hr
  intro c hc
  rwa [mem_sortBy, o.mem_pairs] at hc

omit [IsStrictOrderedRing K] [FloorRing K] [Sqrt K] [LawfulSqrt K] in
/-- A change outside the cells, the spores and the food. -/
theorem Conserves.silent {s' : Scene K} (hs : s.Sound) (houter : s'.outer = s.outer)
    (hplayers : s'.players = s.players)
    (htables : ∀ r, (s'.tables r).playerid = (s.tables r).playerid ∧
      (s'.tables r).cells = (s.tables r).cells)
    (hcells : ∀ c, (s'.cells c).playerid = (s.cells c).playerid ∧
      (s'.cells c).size = (s.cells c).size)
    (hmax : s'.cellMaxid = s.cellMaxid) (hspores : s'.spores = s.spores)
    (hsizes : ∀ i, (s'.sporeTables i).size = (s.sporeTables i).size)
    (hsporeMax : s'.sporeMaxid = s.sporeMaxid) (hfoods : s'.foods = s.foods)
    (heaten : s'.event.eatenFoodIds = s.event.eatenFoodIds) : Conserves s s' := by
  have halive : s'.alive = s.alive := alive_congr hplayers fun r => (htables r).2
  have he : s'.eaten = s.eaten := congrArg List.length heaten
  refine ⟨?_, hplayers, ?_, ?_, by rw [he, hfoods], ?_⟩
  · exact .of_outer houter hmax.ge (fun r _ => (htables r).symm) (fun c _ _ => hcells c)
      fun c hc => .inl (halive ▸ hc)
  · exact hs.of_sub hplayers (fun r => (htables r).1) (fun r => (htables r).2.subset)
      (fun c _ => (hcells c).1) hmax (fun i hi => hspores ▸ hi) hsporeMax
  · unfold Scene.mass
    rw [halive, hspores, he, sub_self, add_zero]
    simp only [hcells, hsizes]
  · intro h c hc
    rw [(hcells c).2]
    exact h c (halive ▸ hc)

theorem runAction_conserves (o : Order) {p r : Nat} (a : Action K × Nat) (hs : s.Sound)
    (hr : s.players.get p = some r) : Conserves s (runAction o r s a) := by
  unfold runAction
  split
  · have h := doSplit_conserves o (.action r a.2) a.1 hs hr
    exact h.trans (.silent h.sound rfl rfl (fun _ => ⟨rfl, rfl⟩) (fun _ => ⟨rfl, rfl⟩) rfl rfl
      (fun _ => rfl) rfl rfl rfl)
  · have h := spitSpore_conserves o (.action r a.2) a.1 hs hr
    exact h.trans (.silent h.sound rfl rfl (fun _ => ⟨rfl, rfl⟩) (fun _ => ⟨rfl, rfl⟩) rfl rfl
      (fun _ => rfl) rfl rfl rfl)

theorem runActions_conserves (o : Order) {p r : Nat} (hs : s.Sound)
    (hr : s.players.get p = some r) : Conserves s (runActions o s r) := by
  have hactions : Conserves s ((s.tables r).pendingActions.zipIdx.foldl (runAction o r) s) := by
    apply Conserves.foldl _ hs
    intro s₁ a _ hs₁ hplayers
    exact runAction_conserves o a hs₁ (by rw [hplayers]; exact hr)
  refine hactions.trans ?_
  refine .silent hactions.sound rfl rfl (fun t => ?_) (fun _ => ⟨rfl, rfl⟩) rfl rfl (fun _ => rfl)
    rfl rfl rfl
  by_cases h : t = r
  · subst h
    simp [runActions, setTable]
  · simp [runActions, setTable, h]

theorem processCommands_conserves (o : Order) (hs : s.Sound) :
    Conserves s (processCommands o s) := by
  unfold processCommands
  apply Conserves.foldl _ hs
  intro s₁ r hr hs₁ hplayers
  obtain ⟨p, hp⟩ := mem_sortedPlayers.mp hr
  exact runActions_conserves o hs₁ (by rw [hplayers]; exact hp)

/-! ## Movement -/

omit [IsStrictOrderedRing K] [Sqrt K] [LawfulSqrt K] in
theorem sporeMove_conserves (hs : s.Sound) (i : Nat) : Conserves s (sporeMove s i) := by
  refine .silent hs rfl rfl (fun _ => ⟨rfl, rfl⟩) (fun _ => ⟨rfl, rfl⟩) rfl rfl (fun j => ?_) rfl rfl
    rfl
  by_cases h : j = i
  · subst h
    simp only [sporeMove, Function.update_self, moveSpore]
    split <;> rfl
  · simp [sporeMove, h]

omit [IsStrictOrderedRing K] [Sqrt K] [LawfulSqrt K] in
theorem sporesMove_conserves (o : Order) (hs : s.Sound) : Conserves s (sporesMove o s) :=
  Conserves.foldl _ hs fun _ i _ h _ => sporeMove_conserves h i

omit [IsStrictOrderedRing K] [LawfulSqrt K] in
theorem moveCell_conserves (r : Nat) (hs : s.Sound) (c : Nat) : Conserves s (moveCell r s c) := by
  refine .silent hs rfl rfl (fun _ => ⟨rfl, rfl⟩) (fun d => ?_) rfl rfl (fun _ => rfl) rfl rfl rfl
  by_cases h : d = c
  · subst h
    have hfollow : ∀ (x : Player K) (y : Cell K), (followTarget x y).playerid = y.playerid ∧
        (followTarget x y).size = y.size := by
      intro x y
      unfold followTarget
      split
      · simp only
        split <;> exact ⟨rfl, rfl⟩
      · exact ⟨rfl, rfl⟩
    have hboost : ∀ y : Cell K, (applyBoost y).playerid = y.playerid ∧
        (applyBoost y).size = y.size := by
      intro y
      unfold applyBoost
      split <;> exact ⟨rfl, rfl⟩
    simp [moveCell, upsertCell, setCell, clampCell, hfollow, hboost]
  · simp [moveCell, upsertCell, setCell, h]

omit [IsStrictOrderedRing K] [LawfulSqrt K] in
theorem cellMove_conserves (o : Order) (hs : s.Sound) : Conserves s (cellMove o s) := by
  apply Conserves.foldl _ hs
  intro s₁ p _ hs₁ _
  unfold moveCells
  split
  · exact .refl hs₁
  · exact Conserves.foldl _ hs₁ fun _ c _ h _ => moveCell_conserves _ h c

omit [IsStrictOrderedRing K] [FloorRing K] [Sqrt K] [LawfulSqrt K] in
theorem insertFood_conserves (hs : s.Sound) (f : Nat) : Conserves s (insertFood s f) := by
  unfold insertFood
  split
  · exact .silent hs rfl rfl (fun _ => ⟨rfl, rfl⟩) (fun _ => ⟨rfl, rfl⟩) rfl rfl (fun _ => rfl) rfl
      rfl rfl
  · exact .refl hs

omit [IsStrictOrderedRing K] [FloorRing K] [Sqrt K] [LawfulSqrt K] in
theorem cleanup_conserves (o : Order) (hs : s.Sound) : Conserves s (cleanup o s) := by
  unfold cleanup
  split
  · have hclear : Conserves s { s with foodTree := s.foodTree.clear } :=
      .silent hs rfl rfl (fun _ => ⟨rfl, rfl⟩) (fun _ => ⟨rfl, rfl⟩) rfl rfl (fun _ => rfl) rfl rfl rfl
    have hloop := hclear.trans (Conserves.foldl (f := insertFood) (o.pairs .rebuild s.foods)
      hclear.sound fun _ f _ h _ => insertFood_conserves h f)
    exact hloop.trans (.silent hloop.sound rfl rfl (fun _ => ⟨rfl, rfl⟩) (fun _ => ⟨rfl, rfl⟩) rfl rfl
      (fun _ => rfl) rfl rfl rfl)
  · exact .refl hs

/-! ## Eating -/

theorem eatOneFood_conserves (hs : s.Sound) {c : Nat} (hc : c ∈ s.alive) (f : Nat) :
    Conserves s (eatOneFood c s f) := by
  simp only [eatOneFood]
  split
  · rename_i h
    have hsize : 0 ≤ calMass (s.cells c).size + 1 := add_nonneg (calMass_nonneg _) zero_le_one
    refine resize_conserves hs hc rfl rfl rfl ?_ ?_ rfl hs.spore_le ?_ ?_ ?_
    · intro d hdc
      simp [updateCell, setCell, hdc]
    · simp [updateCell, setCell]
    · have hcard := Finset.card_erase_add_one h.1
      simp only [eaten, updateCell, setCell, List.length_append, List.length_singleton]
      omega
    · simp only [eaten, updateCell, setCell, Function.update_self, calMass_sqrt hsize,
        List.length_append, List.length_singleton, Nat.cast_add, Nat.cast_one]
      ring
    · intro hlarge
      simp only [updateCell, setCell, Function.update_self]
      have := one_le_calMass (hlarge c hc)
      exact one_le_sqrt (by linarith)
  · exact .refl hs

omit [IsStrictOrderedRing K] [LawfulSqrt K] in
theorem eatOneFood_alive (c : Nat) (s : Scene K) (f : Nat) : (eatOneFood c s f).alive = s.alive := by
  simp only [eatOneFood]
  split <;> rfl

/-- {lit}`eat_food` adds the number of foods it removes. -/
theorem eatFood_conserves (o : Order) (hs : s.Sound) : Conserves s (eatFood o s) := by
  refine (Conserves.foldl_of (Q := fun s₁ => s₁.alive = s.alive) _ hs rfl ?_).1
  intro s₁ c hc hs₁ hplayers halive
  rw [mem_sortedCells] at hc
  refine (Conserves.foldl_of (Q := fun s₂ => s₂.alive = s.alive) _ hs₁ halive ?_)
  intro s₂ f _ hs₂ _ halive₂
  exact ⟨eatOneFood_conserves hs₂ (halive₂ ▸ hc) f, (eatOneFood_alive c s₂ f).trans halive₂⟩

theorem eatOneSpore_conserves (hs : s.Sound) {c : Nat} (hc : c ∈ s.alive) (i : Nat) :
    Conserves s (eatOneSpore c s i) := by
  simp only [eatOneSpore]
  split
  · rename_i h
    have hsize : 0 ≤ calMass (s.cells c).size + calMass (s.sporeTables i).size :=
      add_nonneg (calMass_nonneg _) (calMass_nonneg _)
    refine resize_conserves hs hc rfl rfl rfl ?_ ?_ rfl ?_ rfl ?_ ?_
    · intro d hdc
      simp [updateCell, setCell, hdc]
    · simp [updateCell, setCell]
    · intro j hj
      exact hs.spore_le j (Finset.mem_of_mem_erase hj)
    · have hsum := Finset.add_sum_erase s.spores (fun j => calMass (s.sporeTables j).size) h.1
      simp only [eaten, updateCell, setCell, Function.update_self, calMass_sqrt hsize, sub_self,
        add_zero, ← hsum]
      ring
    · intro hlarge
      simp only [updateCell, setCell, Function.update_self]
      have := one_le_calMass (hlarge c hc)
      have := calMass_nonneg (s.sporeTables i).size
      exact one_le_sqrt (by linarith)
  · exact .refl hs

omit [IsStrictOrderedRing K] [LawfulSqrt K] in
theorem eatOneSpore_alive (c : Nat) (s : Scene K) (i : Nat) :
    (eatOneSpore c s i).alive = s.alive := by
  simp only [eatOneSpore]
  split <;> rfl

/-- {lit}`eat_spore` conserves mass. -/
theorem eatSpore_conserves (o : Order) (hs : s.Sound) : Conserves s (eatSpore o s) := by
  refine (Conserves.foldl_of (Q := fun s₁ => s₁.alive = s.alive) _ hs rfl ?_).1
  intro s₁ c hc hs₁ hplayers halive
  rw [mem_sortedCells] at hc
  refine (Conserves.foldl_of (Q := fun s₂ => s₂.alive = s.alive) _ hs₁ halive ?_)
  intro s₂ i _ hs₂ _ halive₂
  exact ⟨eatOneSpore_conserves hs₂ (halive₂ ▸ hc) i, (eatOneSpore_alive c s₂ i).trans halive₂⟩

/-- A cell takes up another one, which its player loses. -/
theorem absorb_conserves {s' : Scene K} (hs : s.Sound) {p r big small : Nat}
    (hr : s.players.get p = some r) (hsmall : small ∈ (s.tables r).cells) (hbig : big ∈ s.alive)
    (hne : big ≠ small) (houter : s'.outer = s.outer)
    (hplayers : s'.players = s.players)
    (htables : s'.tables = (s.dropCell r small).tables)
    (hold : ∀ d, d ≠ big → s'.cells d = s.cells d)
    (hown : (s'.cells big).playerid = (s.cells big).playerid)
    (hsize : (s'.cells big).size = sqrt (calMass (s.cells big).size + calMass (s.cells small).size))
    (hmax : s'.cellMaxid = s.cellMaxid) (hspores : s'.spores = s.spores)
    (hsporeTables : s'.sporeTables = s.sporeTables) (hsporeMax : s'.sporeMaxid = s.sporeMaxid)
    (hfoods : s'.foods = s.foods) (hevent : s'.event = s.event) : Conserves s s' := by
  have halive : s'.alive = s.alive.erase small := by
    rw [← alive_dropCell hs hr hsmall]
    exact alive_congr hplayers fun t => by rw [htables]
  have hsmall' := mem_alive_of hr hsmall
  have heaten : s'.eaten = s.eaten := by unfold eaten; rw [hevent]
  have hpos : 0 ≤ calMass (s.cells big).size + calMass (s.cells small).size :=
    add_nonneg (calMass_nonneg _) (calMass_nonneg _)
  refine ⟨?_, hplayers, ?_, ?_, by rw [hfoods, heaten], ?_⟩
  · refine .of_outer houter hmax.ge (fun t ht => ?_) (fun d hd _ => ?_) fun d hd => .inl ?_
    · have h : t ≠ r := fun h => ht p (h ▸ hr)
      rw [htables]
      simp [dropCell, setTable, h]
    · rw [hold d fun h => hd (h ▸ hbig)]
      exact ⟨rfl, rfl⟩
    · rw [halive] at hd
      exact Finset.mem_of_mem_erase hd
  · refine hs.of_sub hplayers (fun t => ?_) (fun t => ?_) (fun d _ => ?_) hmax
      (fun i hi => hspores ▸ hi) hsporeMax
    · rw [htables]
      by_cases h : t = r
      · subst h
        simp [dropCell, setTable]
      · simp [dropCell, setTable, h]
    · rw [htables]
      by_cases h : t = r
      · subst h
        simp [dropCell, setTable, Finset.erase_subset]
      · simp [dropCell, setTable, h]
    · by_cases h : d = big
      · rw [h, hown]
      · rw [hold d h]
  · have hsum := sum_change_erase (f := fun d => calMass (s'.cells d).size)
      (g := fun d => calMass (s.cells d).size) hbig hsmall' hne fun d _ h => by rw [hold d h]
    unfold Scene.mass
    rw [halive, hsum, hspores, hsporeTables, heaten, hsize, calMass_sqrt hpos]
    ring
  · intro hlarge d hd
    rw [halive] at hd
    by_cases h : d = big
    · subst h
      rw [hsize]
      have := one_le_calMass (hlarge d hbig)
      have := calMass_nonneg (s.cells small).size
      exact one_le_sqrt (by linarith)
    · rw [hold d h]
      exact hlarge d (Finset.mem_of_mem_erase hd)

theorem eatCandidate_conserves (hs : s.Sound) (e : Candidate) :
    Conserves s (eatCandidate s e).1 := by
  unfold eatCandidate
  split
  · rename_i r t hr ht
    split
    · rename_i h
      obtain ⟨heater, htarget, hcan⟩ := h
      have htarget' : e.targetCid ∈ (s.tables t).cells := by
        simpa only [cellsOf, ht] using htarget
      have heater' : e.eaterCid ∈ (s.tables r).cells := by
        simpa only [cellsOf, hr] using heater
      have hne : e.eaterCid ≠ e.targetCid := by
        intro heq
        rw [heq] at hcan
        simp [canEat] at hcan
      refine absorb_conserves hs ht htarget' (mem_alive_of hr heater') hne rfl rfl rfl ?_ ?_ ?_ rfl rfl
        rfl rfl rfl rfl
      · intro d hd
        simp [removeCell, dropCell, setTable, updateCell, setCell, hd]
      · simp [removeCell, dropCell, setTable, updateCell, setCell]
      · simp [removeCell, dropCell, setTable, updateCell, setCell]
    · exact .refl hs
  · exact .refl hs

theorem eatCandidates_conserves (es : List Candidate) (hs : s.Sound) :
    Conserves s (eatCandidates es s).1 := by
  induction es generalizing s with
  | nil => exact .refl hs
  | cons e es ih =>
      have h := eatCandidate_conserves hs e
      exact h.trans (ih h.sound)

omit [IsStrictOrderedRing K] [FloorRing K] [Sqrt K] [LawfulSqrt K] in
theorem wearOff_conserves (hs : s.Sound) (c : Nat) : Conserves s (wearOff s c) := by
  unfold wearOff
  split
  · refine .silent hs rfl rfl (fun _ => ⟨rfl, rfl⟩) (fun d => ?_) rfl rfl (fun _ => rfl) rfl rfl rfl
    by_cases h : d = c
    · subst h
      simp [setCell]
    · simp [setCell, h]
  · exact .refl hs

/-- {lit}`eat_player` conserves mass. -/
theorem eatPlayer_conserves (o : Order) (hs : s.Sound) : Conserves s (eatPlayer o s).1 := by
  have hwear : Conserves s (((o.pairs .eatPlayers s.players.keys).flatMap fun p =>
      o.pairs (.eatCells p) (s.cellsOf p)).foldl wearOff s) :=
    Conserves.foldl _ hs fun _ c _ h _ => wearOff_conserves h c
  exact hwear.trans (eatCandidates_conserves _ hwear.sound)

omit [IsStrictOrderedRing K] [FloorRing K] [Sqrt K] [LawfulSqrt K] in
/-- A death puts a player of the game into the queue of the rebirths. -/
theorem reportDeath_conserves (hs : s.Sound) (e : Nat × Nat) : Conserves s (reportDeath s e) := by
  unfold reportDeath
  split
  · exact .refl hs
  · rename_i r hr
    split
    · refine ⟨⟨rfl, rfl, rfl, rfl, ?_, le_rfl, fun _ _ => ⟨rfl, rfl⟩, fun _ _ _ => ⟨rfl, rfl⟩,
        fun _ h => .inl h⟩, rfl, ⟨hs.table, hs.owner, hs.cell_le, hs.spore_le⟩,
        (Conserves.refl hs).mass, rfl, id⟩
      intro p t ht
      rw [Table.get_set] at ht
      split at ht
      · subst p
        exact .inr (hr.trans ht)
      · exact .inl ht
    · exact .refl hs

theorem eatCell_conserves (o : Order) (hs : s.Sound) : Conserves s (eatCell o s) := by
  have heat := eatPlayer_conserves o hs
  exact heat.trans (Conserves.foldl _ heat.sound fun s₁ e _ hs₁ _ => reportDeath_conserves hs₁ e)

/-! ## Merging and pushing -/

theorem mem_pairsOf {l : List Nat} {ab : Nat × Nat} (h : ab ∈ pairsOf l) :
    ab.1 ∈ l ∧ ab.2 ∈ l := by
  induction l with
  | nil => cases h
  | cons c l ih =>
      simp only [pairsOf, List.mem_append, List.mem_map] at h
      rcases h with ⟨d, hd, rfl⟩ | h
      · exact ⟨by simp, List.mem_cons_of_mem c hd⟩
      · exact ⟨List.mem_cons_of_mem c (ih h).1, List.mem_cons_of_mem c (ih h).2⟩

theorem pairsOf_ne {l : List Nat} (hl : l.Nodup) {ab : Nat × Nat} (h : ab ∈ pairsOf l) :
    ab.1 ≠ ab.2 := by
  induction l with
  | nil => cases h
  | cons c l ih =>
      obtain ⟨hc, hl⟩ := List.nodup_cons.mp hl
      simp only [pairsOf, List.mem_append, List.mem_map] at h
      rcases h with ⟨d, hd, rfl⟩ | h
      · intro (h : c = d)
        exact hc (h ▸ hd)
      · exact ih hl h

omit [IsStrictOrderedRing K] [FloorRing K] [Sqrt K] [LawfulSqrt K] in
theorem biggerOf_cases (s : Scene K) (a b : Nat) :
    s.biggerOf a b = (a, b) ∨ s.biggerOf a b = (b, a) := by
  unfold biggerOf
  split_ifs <;> simp

theorem mergePair_conserves (hs : s.Sound) {p r : Nat} (hr : s.players.get p = some r)
    {ab : Nat × Nat} (hne : ab.1 ≠ ab.2) : Conserves s (mergePair r s ab) := by
  simp only [mergePair]
  split
  · rename_i h
    obtain ⟨-, -, ha, hb, -⟩ := h
    rcases s.biggerOf_cases ab.1 ab.2 with hbig | hbig <;> rw [hbig]
    · refine absorb_conserves hs hr hb (mem_alive_of hr ha) hne rfl rfl rfl ?_ ?_ ?_ rfl rfl rfl rfl rfl
        rfl
      · intro d hd
        simp [removeCell, dropCell, setTable, updateCell, setCell, hd]
      · simp [removeCell, dropCell, setTable, updateCell, setCell]
      · simp [removeCell, dropCell, setTable, updateCell, setCell]
    · refine absorb_conserves hs hr ha (mem_alive_of hr hb) hne.symm rfl rfl rfl ?_ ?_ ?_ rfl rfl rfl
        rfl rfl rfl
      · intro d hd
        simp [removeCell, dropCell, setTable, updateCell, setCell, hd]
      · simp [removeCell, dropCell, setTable, updateCell, setCell]
      · simp [removeCell, dropCell, setTable, updateCell, setCell, add_comm]
  · exact .refl hs

omit [IsStrictOrderedRing K] [FloorRing K] [Sqrt K] [LawfulSqrt K] in
theorem tickMerge_conserves (hs : s.Sound) (c : Nat) : Conserves s (tickMerge s c) := by
  unfold tickMerge
  split
  · refine .silent hs rfl rfl (fun _ => ⟨rfl, rfl⟩) (fun d => ?_) rfl rfl (fun _ => rfl) rfl rfl rfl
    by_cases h : d = c
    · subst h
      simp [setCell]
    · simp [setCell, h]
  · exact .refl hs

/-- {lit}`merge_update` conserves mass. -/
theorem mergeUpdate_conserves (o : Order) (hs : s.Sound) : Conserves s (mergeUpdate o s) := by
  apply Conserves.foldl _ hs
  intro s₁ r hr hs₁ hplayers
  obtain ⟨p, hp⟩ := mem_sortedPlayers.mp hr
  have hnodup := sortBy_nodup (o.nodup_pairs (.mergeCells r) (s₁.tables r).cells) id
  have htick : Conserves s₁ ((sortBy id (o.pairs (.mergeCells r) (s₁.tables r).cells)).foldl
      tickMerge s₁) :=
    Conserves.foldl _ hs₁ fun _ c _ h _ => tickMerge_conserves h c
  refine htick.trans (Conserves.foldl _ htick.sound fun s₂ ab hab hs₂ hplayers₂ => ?_)
  refine mergePair_conserves hs₂ (p := p) ?_ (pairsOf_ne hnodup hab)
  rw [hplayers₂, htick.players, hplayers]
  exact hp

omit [IsStrictOrderedRing K] [FloorRing K] [LawfulSqrt K] in
theorem pushPair_conserves (hs : s.Sound) (ab : Nat × Nat) : Conserves s (pushPair s ab).1 := by
  simp only [pushPair]
  split
  · exact .refl hs
  · refine .silent hs rfl rfl (fun _ => ⟨rfl, rfl⟩) (fun d => ?_) rfl rfl (fun _ => rfl) rfl rfl rfl
    by_cases hb : d = ab.2
    · subst hb
      simp [setCell, clampCell]
    · by_cases ha : d = ab.1
      · subst ha
        simp [setCell, clampCell, hb]
      · simp [setCell, ha, hb]

omit [IsStrictOrderedRing K] [FloorRing K] [LawfulSqrt K] in
theorem pushPairs_conserves (abs : List (Nat × Nat)) (hs : s.Sound) :
    Conserves s (pushPairs abs s).1 := by
  induction abs generalizing s with
  | nil => exact .refl hs
  | cons ab abs ih =>
      have h := pushPair_conserves hs ab
      exact h.trans (ih h.sound)

omit [IsStrictOrderedRing K] [LawfulSqrt K] in
theorem collisionUpdate_conserves (o : Order) (hs : s.Sound) :
    Conserves s (collisionUpdate o s) := by
  apply Conserves.foldl _ hs
  intro s₁ r _ hs₁ _
  simp only [selfCollision]
  split
  · exact .refl hs₁
  · have hpush := pushPairs_conserves (pairsOf (sortBy id (o.pairs (.collideCells r)
      (s₁.tables r).cells)) ++ pairsOf (sortBy id (o.pairs (.collideCells r)
      (s₁.tables r).cells)) ++ pairsOf (sortBy id (o.pairs (.collideCells r)
      (s₁.tables r).cells))) hs₁
    refine hpush.trans (Conserves.foldl _ hpush.sound fun s₂ c _ hs₂ _ => ?_)
    exact .silent hs₂ rfl rfl (fun _ => ⟨rfl, rfl⟩) (fun _ => ⟨rfl, rfl⟩) rfl rfl (fun _ => rfl) rfl
      rfl rfl

end Scene

end BallServer.Ball
