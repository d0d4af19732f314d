import BallServer.Scene.Views

/-!
# The cells of a player

A player has at most sixteen cells.  Splitting adds cells up to this limit, cells of other
players eat them and cells of one player merge.  A player who has lost the last cell waits
for a new one in the next frame.

Main results:

- Theorem {lit}`doSplit_spec`: which cells a split concerns, and how many there are.
- Structure {lit}`Scene.Kept`: players without a cell are those that wait for their rebirth.
- Theorem {lit}`cells_well_formed`: what holds after every frame of every run.
-/

namespace BallServer.Ball

namespace Scene

variable {K : Type} [Field K] [LinearOrder K]

variable {s s' : Scene K}

/-! ## Splitting -/

section Split

variable [FloorRing K] [Sqrt K]

omit [FloorRing K] in
theorem splitCell_cells (a : Action K) (r : Nat) (s : Scene K) (c t : Nat) :
    ((splitCell a r s c).tables t).cells =
      if t = r then insert (s.cellMaxid + 1) (s.tables t).cells else (s.tables t).cells := by
  by_cases h : t = r
  · subst h
    simp [splitCell, addCell, setTable, newCell, setCell]
  · simp [splitCell, addCell, setTable, newCell, setCell, h]

omit [FloorRing K] in
theorem splitCell_maxid (a : Action K) (r : Nat) (s : Scene K) (c : Nat) :
    (splitCell a r s c).cellMaxid = s.cellMaxid + 1 := rfl

omit [FloorRing K] in
/-- Cells that are neither split nor new stay as they are. -/
theorem splitCell_other (a : Action K) (r : Nat) (s : Scene K) {c d : Nat} (hdc : d ≠ c)
    (hd : d ≠ s.cellMaxid + 1) : (splitCell a r s c).cells d = s.cells d := by
  simp [splitCell, addCell, setTable, newCell, setCell, hdc, hd]

omit [FloorRing K] in
/-- A cell that is split is halved, and the new cell is its child. -/
theorem splitCell_halves (a : Action K) (r : Nat) (s : Scene K) {c : Nat}
    (hc : c ≠ s.cellMaxid + 1) :
    ((splitCell a r s c).cells c).size = sqrt (calMass (s.cells c).size / 2.0) ∧
      ((splitCell a r s c).cells (s.cellMaxid + 1)).parentId = some c := by
  simp [splitCell, addCell, setTable, newCell, setCell, hc]

omit [FloorRing K] in
/-- The loop of {lit}`do_split`: the first cells of the list, as many as there is room for. -/
theorem splitCells_spec (a : Action K) (r : Nat) (l : List Nat) (s : Scene K) (hl : l.Nodup)
    (hle : ∀ c ∈ l, c ≤ s.cellMaxid) (hcells : ∀ c ∈ (s.tables r).cells, c ≤ s.cellMaxid) :
    let taken := l.take (16 - (s.tables r).cells.card)
    (splitCells a r l s).2.length = taken.length ∧
      (splitCells a r l s).2.map (fun d => ((splitCells a r l s).1.cells d).parentId) =
        taken.map some ∧
      (∀ d ∈ (splitCells a r l s).2, s.cellMaxid < d) ∧
      (∀ c ∈ taken, ((splitCells a r l s).1.cells c).size = sqrt (calMass (s.cells c).size / 2.0)) ∧
      (∀ c, c ≤ s.cellMaxid → c ∉ taken → (splitCells a r l s).1.cells c = s.cells c) ∧
      ∀ t, ((splitCells a r l s).1.tables t).cells =
        if t = r then (s.tables t).cells ∪ (splitCells a r l s).2.toFinset
        else (s.tables t).cells := by
  induction l generalizing s with
  | nil => simp [splitCells]
  | cons c l ih =>
      intro taken
      unfold splitCells
      split
      next hfull =>
        have hnone : taken = [] := by
          simp only [taken]
          rw [Nat.sub_eq_zero_of_le hfull, List.take_zero]
        simp [hnone]
      next hroom =>
        obtain ⟨hcl, hl⟩ := List.nodup_cons.mp hl
        have hc : c ≤ s.cellMaxid := hle c List.mem_cons_self
        have hcne : c ≠ s.cellMaxid + 1 := by omega
        have hfresh : s.cellMaxid + 1 ∉ (s.tables r).cells := fun h => by
          have := hcells _ h
          omega
        -- one cell more, and one place less
        have hcard : ((splitCell a r s c).tables r).cells.card = (s.tables r).cells.card + 1 := by
          rw [splitCell_cells, if_pos rfl, Finset.card_insert_of_notMem hfresh]
        have htaken : taken = c :: l.take (16 - ((splitCell a r s c).tables r).cells.card) := by
          simp only [taken]
          obtain ⟨n, hn⟩ : ∃ n, 16 - (s.tables r).cells.card = n + 1 :=
            ⟨15 - (s.tables r).cells.card, by omega⟩
          have hn' : 16 - ((splitCell a r s c).tables r).cells.card = n := by omega
          rw [hn, hn', List.take_succ_cons]
        obtain ⟨hlength, hparents, hnew, hhalves, hother, hsets⟩ := ih (splitCell a r s c) hl
          (fun d hd => (hle d (List.mem_cons_of_mem c hd)).trans (Nat.le_succ _)) (by
            intro d hd
            rw [splitCell_cells, if_pos rfl, Finset.mem_insert] at hd
            rcases hd with rfl | hd
            · exact le_rfl
            · exact (hcells d hd).trans (Nat.le_succ _))
        obtain ⟨hsize, hchild⟩ := splitCell_halves a r s hcne
        have hmax := splitCell_maxid a r s c
        -- the cells of the first turn are left alone by the others
        have hc' : c ∉ l.take (16 - ((splitCell a r s c).tables r).cells.card) :=
          fun h => hcl (List.mem_of_mem_take h)
        have hchild' :
            s.cellMaxid + 1 ∉ l.take (16 - ((splitCell a r s c).tables r).cells.card) := by
          intro h
          have := hle _ (List.mem_cons_of_mem c (List.mem_of_mem_take h))
          omega
        rw [htaken]
        refine ⟨?_, ?_, ?_, ?_, ?_, ?_⟩
        · simp [hlength]
        · simp only [List.map_cons, hparents]
          rw [hother (s.cellMaxid + 1) hmax.ge hchild', hchild]
        · intro d hd
          rcases List.mem_cons.mp hd with rfl | hd
          · exact Nat.lt_succ_self _
          · have := hnew d hd
            omega
        · intro d hd
          rcases List.mem_cons.mp hd with rfl | hd
          · rw [hother d (hc.trans (Nat.le_succ _)) hc', hsize]
          · have hdl := List.mem_of_mem_take hd
            have hdc : d ≠ c := fun h => hcl (h ▸ hdl)
            have hdmax : d ≠ s.cellMaxid + 1 := by
              have := hle d (List.mem_cons_of_mem c hdl)
              omega
            rw [hhalves d hd, splitCell_other a r s hdc hdmax]
        · intro d hd hnot
          rw [List.mem_cons, not_or] at hnot
          have hdmax : d ≠ s.cellMaxid + 1 := by omega
          rw [hother d (hd.trans (Nat.le_succ _)) hnot.2, splitCell_other a r s hnot.1 hdmax]
        · intro t
          rw [hsets t, splitCell_cells]
          split
          · ext d
            simp only [Finset.mem_union, Finset.mem_insert, List.toFinset_cons]
            tauto
          · rfl

omit [FloorRing K] [Sqrt K] in
theorem sortBy_splittable (o : Order) (site : Site) (s : Scene K) (r : Nat) :
    sortBy id ((o.pairs site (s.tables r).cells).filter fun c => 4 ≤ (s.cells c).size) =
      (s.splittable r).sort (· ≤ ·) := by
  have hperm : ((o.pairs site (s.tables r).cells).filter fun c => 4 ≤ (s.cells c).size).Perm
      ((s.splittable r).sort (· ≤ ·)) := by
    rw [List.perm_ext_iff_of_nodup ((o.nodup_pairs _ _).filter _) (Finset.sort_nodup _ _)]
    intro c
    simp [splittable, o.mem_pairs]
  have hsorted : (sortBy id ((o.pairs site (s.tables r).cells).filter
      fun c => 4 ≤ (s.cells c).size)).Pairwise (· ≤ ·) := sortBy_pairwise id _
  exact ((sortBy_perm id _).trans hperm).eq_of_pairwise
    (fun a b _ _ hab hba => Nat.le_antisymm hab hba) hsorted (Finset.pairwise_sort _ _)

/-- Of the cells that are large enough a split takes those with the lowest numbers, as many as
the player may still have, and leaves all others as they are. -/
def SplitsLowest (s : Scene K) (o : Order) (site : Site) (r : Nat) (a : Action K) : Prop :=
  let taken := ((s.splittable r).sort (· ≤ ·)).take (16 - (s.tables r).cells.card)
  taken.length = min (s.splittable r).card (16 - (s.tables r).cells.card) ∧
    (doSplit o site s r a).2.length = taken.length ∧
    (doSplit o site s r a).2.map (fun d => ((doSplit o site s r a).1.cells d).parentId) =
      taken.map some ∧
    (∀ d ∈ (doSplit o site s r a).2, s.cellMaxid < d) ∧
    (∀ c ∈ taken,
      ((doSplit o site s r a).1.cells c).size = sqrt (calMass (s.cells c).size / 2.0)) ∧
    (∀ c, c ≤ s.cellMaxid → c ∉ taken → (doSplit o site s r a).1.cells c = s.cells c) ∧
    ∀ t, ((doSplit o site s r a).1.tables t).cells =
      if t = r then (s.tables t).cells ∪ (doSplit o site s r a).2.toFinset
      else (s.tables t).cells

/-- {lit}`process_commands` comes to an action of a player in this state. -/
def ActsIn (o : Order) (s : Scene K) (r : Nat) (a : Action K × Nat) (s' : Scene K) : Prop :=
  ∃ rs rs' as as', s.sortedPlayers o .commands = rs ++ r :: rs' ∧
    ((rs.foldl (runActions o) s).tables r).pendingActions.zipIdx = as ++ a :: as' ∧
    s' = as.foldl (runAction o r) (rs.foldl (runActions o) s)

/-- A player that acts is a player of a sound state. -/
theorem ActsIn.sound [IsStrictOrderedRing K] [LawfulSqrt K] {o : Order} {r : Nat}
    {a : Action K × Nat} (h : ActsIn o s r a s') (hs : s.Sound) :
    s'.Sound ∧ ∃ p, s'.players.get p = some r := by
  obtain ⟨rs, rs', as, as', hrs, -, rfl⟩ := h
  have hplayer : ∀ t ∈ rs ++ r :: rs', ∃ p, s.players.get p = some t := fun t ht =>
    mem_sortedPlayers.mp (hrs ▸ ht)
  have hrest : Conserves s (rs.foldl (runActions o) s) := by
    apply Conserves.foldl _ hs
    intro s₁ t ht hs₁ hplayers
    obtain ⟨p, hp⟩ := hplayer t (List.mem_append_left _ ht)
    exact runActions_conserves o hs₁ (by rw [hplayers]; exact hp)
  obtain ⟨p, hp⟩ := hplayer r (by simp)
  have hp : (rs.foldl (runActions o) s).players.get p = some r := by rw [hrest.players]; exact hp
  have hacts := Conserves.foldl (f := runAction o r) as hrest.sound
    fun s₁ a _ hs₁ hplayers => runAction_conserves o a hs₁ (by rw [hplayers]; exact hp)
  exact ⟨hacts.sound, p, by rw [hacts.players]; exact hp⟩

omit [FloorRing K] in
/-- {lit}`do_split` splits, of the cells that are large enough, those with the lowest numbers
up to the limit: they are halved and get a child each, and nothing else changes. -/
theorem doSplit_spec (o : Order) (site : Site) (a : Action K) {p r : Nat} (hs : s.Sound)
    (hr : s.players.get p = some r) : s.SplitsLowest o site r a := by
  unfold SplitsLowest
  intro taken
  have hlength : taken.length = min (s.splittable r).card (16 - (s.tables r).cells.card) := by
    simp only [taken, List.length_take, Finset.length_sort]
    exact Nat.min_comm ..
  refine ⟨hlength, ?_⟩
  unfold doSplit
  split
  next hfull =>
    have hnone : taken = [] := by
      simp only [taken]
      rw [Nat.sub_eq_zero_of_le hfull, List.take_zero]
    simp [hnone]
  next =>
    rw [sortBy_splittable]
    have hle : ∀ c ∈ (s.tables r).cells, c ≤ s.cellMaxid := fun c hc => hs.cell_le p r c hr hc
    refine splitCells_spec a r _ s (Finset.sort_nodup _ _) (fun c hc => hle c ?_) hle
    rw [Finset.mem_sort] at hc
    exact (Finset.mem_filter.mp hc).1

end Split

/-! ## Who has cells and who waits -/

/-- The players, their cells, and those that wait or leave. -/
def bodies (s : Scene K) : Table Nat × (Nat → Finset Nat) × Table Nat × Finset Nat × Bool :=
  (s.players, fun t => (s.tables t).cells, s.pendingRebirth, s.pendingLeaves, s.gameStarted)

theorem bodies_eq (hp : s'.players = s.players)
    (ht : ∀ t, (s'.tables t).cells = (s.tables t).cells)
    (hr : s'.pendingRebirth = s.pendingRebirth) (hl : s'.pendingLeaves = s.pendingLeaves)
    (hg : s'.gameStarted = s.gameStarted) : s'.bodies = s.bodies := by
  simp only [bodies, hp, ht, hr, hl, hg]

/-- What holds between two frames: a player without a cell waits for its rebirth, or has waited
for it when it was kicked. -/
structure Bodied (s : Scene K) : Prop where
  card_le : ∀ p r, s.players.get p = some r → (s.tables r).cells.card ≤ 16
  empty : ∀ p r, s.players.get p = some r → (s.tables r).cells = ∅ →
    s.pendingRebirth.get p = some r ∨ p ∈ s.pendingLeaves
  rebirth : ∀ p r, s.pendingRebirth.get p = some r → (s.tables r).cells = ∅
  idle : s.gameStarted = false → ∀ p, s.players.get p = none

/-- What holds after a frame: nobody leaves, and the players without a cell are those that wait
for their rebirth. -/
structure Kept (s : Scene K) : Prop where
  card_le : ∀ p r, s.players.get p = some r → (s.tables r).cells.card ≤ 16
  empty_iff : ∀ p r, s.players.get p = some r →
    ((s.tables r).cells = ∅ ↔ s.pendingRebirth.get p = some r)
  waits : ∀ p r, s.pendingRebirth.get p = some r → s.players.get p = some r
  leaves : s.pendingLeaves = ∅
  started : s.gameStarted = true

/-- What holds between the rebirths and the eating of cells: everybody has a cell. -/
structure Filled (s : Scene K) : Prop where
  card_le : ∀ p r, s.players.get p = some r → (s.tables r).cells.card ≤ 16
  nonempty : ∀ p r, s.players.get p = some r → (s.tables r).cells.Nonempty
  rebirth : ∀ p, s.pendingRebirth.get p = none
  leaves : s.pendingLeaves = ∅
  started : s.gameStarted = true

theorem Kept.bodied (hs : s.Kept) : s.Bodied where
  card_le := hs.card_le
  empty p r hr h := .inl ((hs.empty_iff p r hr).mp h)
  rebirth p r hr := (hs.empty_iff p r (hs.waits p r hr)).mpr hr
  idle h := by
    rw [hs.started] at h
    cases h

theorem Filled.of_bodies (hs : s.Filled) (h : s'.bodies = s.bodies) : s'.Filled := by
  simp only [bodies, Prod.mk.injEq] at h
  obtain ⟨hp, ht, hr, hl, hg⟩ := h
  have ht : ∀ t, (s'.tables t).cells = (s.tables t).cells := congrFun ht
  obtain ⟨h₁, h₂, h₃, h₄, h₅⟩ := hs
  constructor
  · simpa only [hp, ht] using h₁
  · simpa only [hp, ht] using h₂
  · simpa only [hr] using h₃
  · exact hl.trans h₄
  · exact hg.trans h₅

theorem Kept.of_bodies (hs : s.Kept) (h : s'.bodies = s.bodies) : s'.Kept := by
  simp only [bodies, Prod.mk.injEq] at h
  obtain ⟨hp, ht, hr, hl, hg⟩ := h
  have ht : ∀ t, (s'.tables t).cells = (s.tables t).cells := congrFun ht
  obtain ⟨h₁, h₂, h₃, h₄, h₅⟩ := hs
  constructor
  · simpa only [hp, ht] using h₁
  · simpa only [hp, ht, hr] using h₂
  · simpa only [hp, hr] using h₃
  · exact hl.trans h₄
  · exact hg.trans h₅

theorem Bodied.of_bodies (hs : s.Bodied) (h : s'.bodies = s.bodies) : s'.Bodied := by
  simp only [bodies, Prod.mk.injEq] at h
  obtain ⟨hp, ht, hr, hl, hg⟩ := h
  have ht : ∀ t, (s'.tables t).cells = (s.tables t).cells := congrFun ht
  obtain ⟨h₁, h₂, h₃, h₄⟩ := hs
  constructor
  · simpa only [hp, ht] using h₁
  · simpa only [hp, ht, hr, hl] using h₂
  · simpa only [hr, ht] using h₃
  · simpa only [hg, hp] using h₄

section Phases

variable [FloorRing K]

/-! ## Rebirths -/

/-- A player that comes back has one cell. -/
theorem rebear_cells (at_ : Nat → Fin 1001 × Fin 1001) {p r : Nat}
    (hr : s.pendingRebirth.get p = some r) :
    (rebear at_ s p).players = s.players ∧ (rebear at_ s p).pendingLeaves = s.pendingLeaves ∧
      (rebear at_ s p).gameStarted = s.gameStarted ∧
      (rebear at_ s p).pendingRebirth = s.pendingRebirth.erase p ∧
      ∀ t, ((rebear at_ s p).tables t).cells =
        if t = r then insert (s.cellMaxid + 1) (s.tables t).cells else (s.tables t).cells := by
  simp only [rebear, hr]
  refine ⟨rfl, rfl, rfl, rfl, fun t => ?_⟩
  by_cases h : t = r
  · subst h
    simp [indexCell, setTable, addCell, newCell]
  · simp [indexCell, setTable, addCell, newCell, h]

/-- The queue of the rebirths is worked off: who is still in it has no cell, and everybody else
has one. -/
theorem foldl_rebear_filled (at_ : Nat → Fin 1001 × Fin 1001) (l : List Nat) (s : Scene K)
    (hlive : ∀ p r, s.pendingRebirth.get p = some r → s.players.get p = some r)
    (hinj : ∀ p q r, s.players.get p = some r → s.players.get q = some r → p = q)
    (hcard : ∀ p r, s.players.get p = some r → (s.tables r).cells.card ≤ 16)
    (hempty : ∀ p r, s.players.get p = some r →
      ((s.tables r).cells = ∅ ↔ s.pendingRebirth.get p = some r)) :
    (l.foldl (rebear at_) s).players = s.players ∧
      (l.foldl (rebear at_) s).pendingLeaves = s.pendingLeaves ∧
      (l.foldl (rebear at_) s).gameStarted = s.gameStarted ∧
      (∀ p, (l.foldl (rebear at_) s).pendingRebirth.get p =
        if p ∈ l then none else s.pendingRebirth.get p) ∧
      (∀ p r, s.players.get p = some r →
        ((l.foldl (rebear at_) s).tables r).cells.card ≤ 16) ∧
      ∀ p r, s.players.get p = some r → (((l.foldl (rebear at_) s).tables r).cells = ∅ ↔
        (l.foldl (rebear at_) s).pendingRebirth.get p = some r) := by
  induction l generalizing s with
  | nil => exact ⟨rfl, rfl, rfl, fun p => by simp, hcard, hempty⟩
  | cons p l ih =>
      rw [List.foldl_cons]
      cases hr : s.pendingRebirth.get p with
      | none =>
          have hsame : rebear at_ s p = s := by simp only [rebear, hr]
          rw [hsame]
          obtain ⟨h₁, h₂, h₃, h₄, h₅, h₆⟩ := ih s hlive hinj hcard hempty
          refine ⟨h₁, h₂, h₃, fun q => ?_, h₅, h₆⟩
          rw [h₄ q]
          by_cases hq : q = p
          · subst hq
            simp [hr]
          · simp [hq]
      | some r =>
          obtain ⟨hplayers, hleaves, hstarted, hrebirth, hcells⟩ := rebear_cells at_ hr
          have hp := hlive p r hr
          have hnone := (hempty p r hp).mpr hr
          have hget : ∀ q t, (rebear at_ s p).pendingRebirth.get q = some t →
              q ≠ p ∧ s.pendingRebirth.get q = some t := by
            intro q t hq
            rw [hrebirth, Table.get_erase] at hq
            split at hq
            next => cases hq
            next hne => exact ⟨hne, hq⟩
          obtain ⟨h₁, h₂, h₃, h₄, h₅, h₆⟩ := ih (rebear at_ s p)
            (fun q t hq => hplayers ▸ hlive q t (hget q t hq).2) (by rwa [hplayers])
            (fun q t hq => by
              rw [hplayers] at hq
              rw [hcells]
              split
              next htr =>
                subst htr
                rw [hnone]
                simp
              next => exact hcard q t hq)
            (fun q t hq => by
              rw [hplayers] at hq
              rw [hcells, hrebirth, Table.get_erase]
              split
              next htr =>
                subst htr
                rw [if_pos (hinj q p t hq hp)]
                simp
              next htr =>
                have hqp : q ≠ p := by
                  rintro rfl
                  exact htr (Option.some.inj (hq.symm.trans hp))
                rw [if_neg hqp]
                exact hempty q t hq)
          refine ⟨h₁.trans hplayers, h₂.trans hleaves, h₃.trans hstarted, fun q => ?_,
            fun q t hq => h₅ q t (hplayers ▸ hq), fun q t hq => h₆ q t (hplayers ▸ hq)⟩
          rw [h₄ q, hrebirth, Table.get_erase]
          by_cases hq : q = p
          · subst hq
            simp
          · simp [hq]

/-- Those that leave are gone, and those that waited have a cell. -/
theorem beforeCommands_filled (o : Order) (d : Draws) (hlive : s.Live) (hs : s.Bodied)
    (hstarted : s.gameStarted = true) : (beforeCommands o d s).Filled := by
  obtain ⟨ps, g, heq, hget⟩ := flushPendingLeaves_eq o ({ s with event := .empty } : Scene K)
  unfold beforeCommands
  rw [heq]
  have hsub : ∀ q r, ps.get q = some r → s.players.get q = some r ∧ q ∉ s.pendingLeaves := by
    intro q r hq
    rw [hget] at hq
    split at hq
    next => cases hq
    next hnot => exact ⟨hq, hnot⟩
  have hwaits : ∀ p r, s.pendingRebirth.get p = some r → ps.get p = some r := by
    intro p r hr
    rw [hget, if_neg]
    · exact hlive.rebirth p r hr
    · intro hp
      have hnone := hlive.leaves p hp
      rw [hr] at hnone
      cases hnone
  obtain ⟨h₁, h₂, h₃, h₄, h₅, h₆⟩ := foldl_rebear_filled d.rebirth
    (o.pairs .rebirth s.pendingRebirth.keys)
    { s with event := .empty, players := ps, pendingLeaves := ∅, cellGrid := g } hwaits
    (fun p q r hp hq => hlive.sound.table_inj (hsub p r hp).1 (hsub q r hq).1)
    (fun p r hr => hs.card_le p r (hsub p r hr).1)
    (fun p r hr => ⟨fun h => (hs.empty p r (hsub p r hr).1 h).resolve_right (hsub p r hr).2,
      hs.rebirth p r⟩)
  unfold flushPendingRebirth
  have hdone : ∀ p, (s.pendingRebirth.get p).isSome → p ∈ o.pairs .rebirth s.pendingRebirth.keys :=
    fun p hp => (o.mem_pairs _ _ p).mpr ((s.pendingRebirth.mem_keys p).mpr hp)
  have hnone : ∀ p, ((o.pairs .rebirth s.pendingRebirth.keys).foldl (rebear d.rebirth)
      { s with event := .empty, players := ps, pendingLeaves := ∅, cellGrid := g }
      ).pendingRebirth.get p = none := by
    intro p
    rw [h₄ p]
    split
    next => rfl
    next hnot =>
      by_contra hsome
      exact hnot (hdone p (Option.isSome_iff_ne_none.mpr hsome))
  refine ⟨fun p r hr => h₅ p r (h₁ ▸ hr), fun p r hr => ?_, hnone, h₂, h₃.trans hstarted⟩
  rw [Finset.nonempty_iff_ne_empty]
  intro hempty
  have hwait := (h₆ p r (h₁ ▸ hr)).mp hempty
  rw [hnone p] at hwait
  cases hwait

/-! ## Commands -/

/-- Cells are added, up to the limit. -/
structure Grows (s s' : Scene K) : Prop where
  players : s'.players = s.players
  rebirth : s'.pendingRebirth = s.pendingRebirth
  leaves : s'.pendingLeaves = s.pendingLeaves
  started : s'.gameStarted = s.gameStarted
  cells : ∀ t, (s.tables t).cells ⊆ (s'.tables t).cells
  card_le : ∀ t, (s.tables t).cells.card ≤ 16 → (s'.tables t).cells.card ≤ 16

omit [FloorRing K] in
theorem Grows.refl (s : Scene K) : Grows s s :=
  ⟨rfl, rfl, rfl, rfl, fun _ => subset_rfl, fun _ => id⟩

omit [FloorRing K] in
theorem Grows.of_bodies (h : s'.bodies = s.bodies) : Grows s s' := by
  simp only [bodies, Prod.mk.injEq] at h
  obtain ⟨hp, ht, hr, hl, hg⟩ := h
  have ht : ∀ t, (s'.tables t).cells = (s.tables t).cells := congrFun ht
  exact ⟨hp, hr, hl, hg, fun t => (ht t).ge, fun t h => (ht t).symm ▸ h⟩

omit [FloorRing K] in
theorem Grows.trans {s'' : Scene K} (h : Grows s s') (h' : Grows s' s'') : Grows s s'' where
  players := h'.players.trans h.players
  rebirth := h'.rebirth.trans h.rebirth
  leaves := h'.leaves.trans h.leaves
  started := h'.started.trans h.started
  cells t := (h.cells t).trans (h'.cells t)
  card_le t := h'.card_le t ∘ h.card_le t

omit [FloorRing K] in
theorem Grows.foldl {α : Type} {f : Scene K → α → Scene K} (hf : ∀ s a, Grows s (f s a))
    (l : List α) (s : Scene K) : Grows s (l.foldl f s) :=
  List.foldlRecOn (motive := Grows s) l f (.refl s) fun s₁ h₁ a _ => h₁.trans (hf s₁ a)

omit [FloorRing K] in
theorem Filled.grows (hs : s.Filled) (h : Grows s s') : s'.Filled where
  card_le p r hr := h.card_le r (hs.card_le p r (h.players ▸ hr))
  nonempty p r hr := (hs.nonempty p r (h.players ▸ hr)).mono (h.cells r)
  rebirth p := by
    rw [h.rebirth]
    exact hs.rebirth p
  leaves := h.leaves.trans hs.leaves
  started := h.started.trans hs.started

variable [Sqrt K]

omit [FloorRing K] in
theorem splitCells_grows (a : Action K) (r : Nat) (l : List Nat) (s : Scene K) :
    Grows s (splitCells a r l s).1 := by
  induction l generalizing s with
  | nil => exact .refl s
  | cons c l ih =>
      unfold splitCells
      split
      next => exact .refl s
      next hroom =>
        have hstep : Grows s (splitCell a r s c) := by
          refine ⟨rfl, rfl, rfl, rfl, fun t => ?_, fun t ht => ?_⟩
          all_goals rw [splitCell_cells]
          all_goals split
          · exact Finset.subset_insert _ _
          · exact subset_rfl
          next htr =>
            subst htr
            have hinsert := Finset.card_insert_le (s.cellMaxid + 1) (s.tables t).cells
            omega
          next => exact ht
        exact hstep.trans (ih (splitCell a r s c))

omit [FloorRing K] in
theorem spitCells_bodies (a : Action K) (r : Nat) (l : List Nat) (s : Scene K) :
    (spitCells a r l s).1.bodies = s.bodies := by
  induction l generalizing s with
  | nil => rfl
  | cons c l ih =>
      unfold spitCells
      split
      · exact ih (spitCell a r s c)
      · exact ih s

omit [FloorRing K] in
theorem runAction_grows (o : Order) (r : Nat) (s : Scene K) (a : Action K × Nat) :
    Grows s (runAction o r s a) := by
  have hsplit : Grows s (doSplit o (.action r a.2) s r a.1).1 := by
    unfold doSplit
    split
    · exact .refl s
    · exact splitCells_grows a.1 r _ s
  have hspit : Grows s (spitSpore o (.action r a.2) s r a.1).1 :=
    .of_bodies (spitCells_bodies a.1 r _ s)
  unfold runAction
  split
  · exact hsplit.trans (.of_bodies rfl)
  · exact hspit.trans (.of_bodies rfl)

omit [FloorRing K] [Sqrt K] in
theorem setTable_bodies (s : Scene K) (r : Nat) {x : Player K} (hx : x.cells = (s.tables r).cells) :
    (s.setTable r x).bodies = s.bodies := by
  refine bodies_eq rfl (fun t => ?_) rfl rfl rfl
  by_cases h : t = r
  · subst h
    simp [setTable, hx]
  · simp [setTable, h]

omit [FloorRing K] in
theorem processCommands_grows (o : Order) (s : Scene K) : Grows s (processCommands o s) := by
  refine Grows.foldl (fun s₁ r => ?_) _ s
  have hactions := Grows.foldl (runAction_grows o r) (s₁.tables r).pendingActions.zipIdx s₁
  exact hactions.trans (.of_bodies (setTable_bodies _ r rfl))

/-! ## Food, spores and movement -/

omit [FloorRing K] [Sqrt K] in
theorem insertFood_bodies (s : Scene K) (f : Nat) : (insertFood s f).bodies = s.bodies := by
  unfold insertFood
  split <;> rfl

/-- Nobody gets or loses a cell before cells are eaten. -/
theorem eatSpore_bodies (o : Order) (d : Draws) (s : Scene K) :
    (eatSpore o (eatFood o (beforeEating o d s))).bodies = s.bodies := by
  have hfood : ∀ s : Scene K, (foodUpdate d.food s).bodies = s.bodies := by
    intro s
    unfold foodUpdate
    split
    · rfl
    · split
      · rfl
      · exact insertFood_bodies _ _
  have hspores : ∀ s : Scene K, (sporesMove o s).bodies = s.bodies := fun s =>
    foldl_view (v := bodies) (f := sporeMove) (fun _ _ => rfl) _ s
  have hmove : ∀ s : Scene K, (cellMove o s).bodies = s.bodies := by
    intro s
    refine foldl_view (fun s₁ p => ?_) _ s
    unfold moveCells
    split
    · rfl
    next r hr => exact foldl_view (v := bodies) (f := moveCell r) (fun _ _ => rfl) _ s₁
  have hclean : ∀ s : Scene K, (cleanup o s).bodies = s.bodies := by
    intro s
    unfold cleanup
    split
    · exact foldl_view (v := bodies) insertFood_bodies _ _
    · rfl
  have heat : ∀ s : Scene K, (eatFood o s).bodies = s.bodies := by
    intro s
    refine foldl_view (fun s₁ c => foldl_view (fun s₂ f => ?_) _ s₁) _ s
    simp only [eatOneFood]
    split <;> rfl
  have hspore : ∀ s : Scene K, (eatSpore o s).bodies = s.bodies := by
    intro s
    refine foldl_view (fun s₁ c => foldl_view (fun s₂ i => ?_) _ s₁) _ s
    simp only [eatOneSpore]
    split <;> rfl
  exact (hspore _).trans ((heat _).trans ((hclean _).trans ((hmove _).trans ((hspores _).trans
    (hfood s)))))

/-! ## Eating cells -/

/-- Cells are lost, and the loss of a last cell is reported. -/
structure Loses (s s' : Scene K) (events : List (Nat × Nat)) : Prop where
  players : s'.players = s.players
  rebirth : s'.pendingRebirth = s.pendingRebirth
  leaves : s'.pendingLeaves = s.pendingLeaves
  started : s'.gameStarted = s.gameStarted
  cells : ∀ t, (s'.tables t).cells ⊆ (s.tables t).cells
  reported : ∀ p t, s.players.get p = some t → (s.tables t).cells.Nonempty →
    (s'.tables t).cells = ∅ → p ∈ events.map Prod.snd

omit [FloorRing K] [Sqrt K] in
theorem Loses.of_bodies (h : s'.bodies = s.bodies) : Loses s s' [] := by
  simp only [bodies, Prod.mk.injEq] at h
  obtain ⟨hp, ht, hr, hl, hg⟩ := h
  have ht : ∀ t, (s'.tables t).cells = (s.tables t).cells := congrFun ht
  refine ⟨hp, hr, hl, hg, fun t => (ht t).le, fun p t _ hne hempty => ?_⟩
  rw [ht t] at hempty
  exact absurd hempty hne.ne_empty

omit [FloorRing K] [Sqrt K] in
theorem Loses.trans {s'' : Scene K} {l l' : List (Nat × Nat)} (h : Loses s s' l)
    (h' : Loses s' s'' l') : Loses s s'' (l ++ l') where
  players := h'.players.trans h.players
  rebirth := h'.rebirth.trans h.rebirth
  leaves := h'.leaves.trans h.leaves
  started := h'.started.trans h.started
  cells t := (h'.cells t).trans (h.cells t)
  reported p t ht hne hempty := by
    rw [List.map_append]
    by_cases hmid : (s'.tables t).cells = ∅
    · exact List.mem_append_left _ (h.reported p t ht hne hmid)
    · exact List.mem_append_right _ (h'.reported p t (h.players ▸ ht)
        (Finset.nonempty_iff_ne_empty.mpr hmid) hempty)

section Lawful

variable [IsStrictOrderedRing K] [LawfulSqrt K]

omit [IsStrictOrderedRing K] [LawfulSqrt K] in
/-- One candidate: its cell is lost, and its owner is reported. -/
theorem eatCandidate_loses (hs : s.Sound) (e : Candidate) :
    Loses s (eatCandidate s e).1 (eatCandidate s e).2.toList := by
  unfold eatCandidate
  split
  next r t hr ht =>
    split
    next h =>
      obtain ⟨-, htarget, -⟩ := h
      have htarget' : e.targetCid ∈ (s.tables t).cells := by
        simpa only [cellsOf, ht] using htarget
      have howner := hs.owner e.targetPid t e.targetCid ht htarget'
      refine ⟨rfl, rfl, rfl, rfl, fun q => ?_, fun p q hq hne hempty => ?_⟩
      · by_cases hqt : q = t
        · subst hqt
          simp [removeCell, dropCell, setTable, updateCell, setCell, Finset.erase_subset]
        · simp [removeCell, dropCell, setTable, updateCell, setCell, hqt]
      · -- only the owner of the cell has lost one
        have hqt : q = t := by
          by_contra hqt
          have hsame : (s.tables q).cells = ∅ := by
            simpa [removeCell, dropCell, setTable, updateCell, setCell, hqt] using hempty
          exact absurd hsame hne.ne_empty
        subst hqt
        have hp : p = e.targetPid := hs.table_inj hq ht
        rw [hp, ← howner]
        by_cases hsame : e.targetCid = e.eaterCid
        · simp [updateCell, setCell, hsame]
        · simp [updateCell, setCell, hsame]
    next => exact .of_bodies rfl
  next => exact .of_bodies rfl

theorem eatCandidates_loses (es : List Candidate) (hs : s.Sound) :
    Loses s (eatCandidates es s).1 (eatCandidates es s).2 := by
  induction es generalizing s with
  | nil => exact .of_bodies rfl
  | cons e es ih =>
      exact (eatCandidate_loses hs e).trans (ih (eatCandidate_conserves hs e).sound)

theorem eatPlayer_loses (o : Order) (hs : s.Sound) :
    Loses s (eatPlayer o s).1 (eatPlayer o s).2 := by
  have hwear : (((o.pairs .eatPlayers s.players.keys).flatMap fun p =>
      o.pairs (.eatCells p) (s.cellsOf p)).foldl wearOff s).bodies = s.bodies := by
    refine foldl_view (fun s₁ c => ?_) _ s
    unfold wearOff
    split <;> rfl
  have hsound : (((o.pairs .eatPlayers s.players.keys).flatMap fun p =>
      o.pairs (.eatCells p) (s.cellsOf p)).foldl wearOff s).Sound :=
    (Conserves.foldl _ hs fun _ c _ h _ => wearOff_conserves h c).sound
  exact (Loses.of_bodies hwear).trans (eatCandidates_loses _ hsound)

end Lawful

omit [FloorRing K] [Sqrt K] in
/-- The reports: a player without a cell that is reported waits from then on. -/
theorem foldl_reportDeath (events : List (Nat × Nat)) (s : Scene K) :
    (events.foldl reportDeath s).players = s.players ∧
      (events.foldl reportDeath s).tables = s.tables ∧
      (events.foldl reportDeath s).pendingLeaves = s.pendingLeaves ∧
      (events.foldl reportDeath s).gameStarted = s.gameStarted ∧
      ∀ p, (events.foldl reportDeath s).pendingRebirth.get p =
        if p ∈ events.map Prod.snd ∧ s.players.get p ≠ none ∧ s.cellsOf p = ∅ then s.players.get p
        else s.pendingRebirth.get p := by
  induction events generalizing s with
  | nil => exact ⟨rfl, rfl, rfl, rfl, fun p => by simp⟩
  | cons e events ih =>
      have hstep : (reportDeath s e).players = s.players ∧ (reportDeath s e).tables = s.tables ∧
          (reportDeath s e).pendingLeaves = s.pendingLeaves ∧
          (reportDeath s e).gameStarted = s.gameStarted ∧
          ∀ p, (reportDeath s e).pendingRebirth.get p =
            if p = e.2 ∧ s.players.get p ≠ none ∧ s.cellsOf p = ∅ then s.players.get p
            else s.pendingRebirth.get p := by
        unfold reportDeath
        split
        next hnone =>
          refine ⟨rfl, rfl, rfl, rfl, fun p => ?_⟩
          rw [if_neg]
          rintro ⟨rfl, h, -⟩
          exact h hnone
        next r hr =>
          split
          next hcard =>
            refine ⟨rfl, rfl, rfl, rfl, fun p => ?_⟩
            rw [Table.get_set]
            by_cases hp : p = e.2
            · subst hp
              simp [cellsOf, hr, Finset.card_eq_zero.mp hcard]
            · simp [hp]
          next hcard =>
            refine ⟨rfl, rfl, rfl, rfl, fun p => ?_⟩
            rw [if_neg]
            rintro ⟨rfl, -, h⟩
            simp only [cellsOf, hr] at h
            exact hcard (Finset.card_eq_zero.mpr h)
      obtain ⟨hp, ht, hl, hg, hr⟩ := hstep
      obtain ⟨hp', ht', hl', hg', hr'⟩ := ih (reportDeath s e)
      refine ⟨hp'.trans hp, ht'.trans ht, hl'.trans hl, hg'.trans hg, fun p => (hr' p).trans ?_⟩
      have hcells : (reportDeath s e).cellsOf p = s.cellsOf p := by
        simp only [cellsOf, hp, ht]
      rw [hp, hcells, hr p]
      by_cases hq : p = e.2
      · subst hq
        by_cases hcond : s.players.get e.2 ≠ none ∧ s.cellsOf e.2 = ∅
        · rw [if_pos (c := e.2 = e.2 ∧ _) ⟨rfl, hcond⟩, ite_self,
            if_pos ⟨List.mem_cons_self, hcond⟩]
        · rw [if_neg fun h => hcond h.2, if_neg fun h => hcond h.2, if_neg fun h => hcond h.2]
      · simp only [List.map_cons, List.mem_cons, hq, false_or, false_and, if_false]

section Lawful

variable [IsStrictOrderedRing K] [LawfulSqrt K]

/-- After cells were eaten the players without one are those that wait. -/
theorem eatCell_kept (o : Order) (hsound : s.Sound) (hs : s.Filled) : (eatCell o s).Kept := by
  have hloses := eatPlayer_loses o hsound
  obtain ⟨hp, ht, hl, hg, hr⟩ := foldl_reportDeath (eatPlayer o s).2 (eatPlayer o s).1
  have hplayers : (eatCell o s).players = s.players := hp.trans hloses.players
  have htables : (eatCell o s).tables = (eatPlayer o s).1.tables := ht
  have hcells : ∀ p r, s.players.get p = some r →
      (eatPlayer o s).1.cellsOf p = ((eatPlayer o s).1.tables r).cells := by
    intro p r hr
    simp only [cellsOf, hloses.players, hr]
  -- who waits has been reported
  have hwaits : ∀ p r, (eatCell o s).pendingRebirth.get p = some r ↔ s.players.get p = some r ∧
      ((eatPlayer o s).1.tables r).cells = ∅ := by
    intro p r
    have hget : (eatCell o s).pendingRebirth.get p = _ := hr p
    rw [hget, hloses.players, hloses.rebirth, hs.rebirth p]
    constructor
    · intro h
      split at h
      next hcond => exact ⟨h, hcells p r h ▸ hcond.2.2⟩
      next => cases h
    · rintro ⟨hpr, hempty⟩
      have hreported := hloses.reported p r hpr (hs.nonempty p r hpr) hempty
      rw [if_pos ⟨hreported, by simp [hpr], hcells p r hpr ▸ hempty⟩]
      exact hpr
  refine ⟨fun p r hpr => ?_, fun p r hpr => ?_, fun p r hpr => ?_, ?_, ?_⟩
  · rw [hplayers] at hpr
    rw [htables]
    exact (Finset.card_le_card (hloses.cells r)).trans (hs.card_le p r hpr)
  · rw [hplayers] at hpr
    rw [htables, hwaits p r]
    exact ⟨fun h => ⟨hpr, h⟩, fun h => h.2⟩
  · rw [hplayers]
    exact ((hwaits p r).mp hpr).1
  · exact hl.trans (hloses.leaves.trans hs.leaves)
  · exact hg.trans (hloses.started.trans hs.started)

end Lawful

/-! ## Merging, pushing and entering -/

/-- Cells merge, and nobody loses the last one. -/
structure Trims (s s' : Scene K) : Prop where
  players : s'.players = s.players
  rebirth : s'.pendingRebirth = s.pendingRebirth
  leaves : s'.pendingLeaves = s.pendingLeaves
  started : s'.gameStarted = s.gameStarted
  cells : ∀ t, (s'.tables t).cells ⊆ (s.tables t).cells
  nonempty : ∀ t, (s.tables t).cells.Nonempty → (s'.tables t).cells.Nonempty

omit [FloorRing K] [Sqrt K] in
theorem Trims.of_bodies (h : s'.bodies = s.bodies) : Trims s s' := by
  simp only [bodies, Prod.mk.injEq] at h
  obtain ⟨hp, ht, hr, hl, hg⟩ := h
  have ht : ∀ t, (s'.tables t).cells = (s.tables t).cells := congrFun ht
  exact ⟨hp, hr, hl, hg, fun t => (ht t).le, fun t h => (ht t).symm ▸ h⟩

omit [FloorRing K] [Sqrt K] in
theorem Trims.trans {s'' : Scene K} (h : Trims s s') (h' : Trims s' s'') : Trims s s'' where
  players := h'.players.trans h.players
  rebirth := h'.rebirth.trans h.rebirth
  leaves := h'.leaves.trans h.leaves
  started := h'.started.trans h.started
  cells t := (h'.cells t).trans (h.cells t)
  nonempty t := h'.nonempty t ∘ h.nonempty t

omit [FloorRing K] [Sqrt K] in
theorem Trims.foldl {α : Type} {f : Scene K → α → Scene K} (l : List α) (s : Scene K)
    (hf : ∀ s a, a ∈ l → Trims s (f s a)) : Trims s (l.foldl f s) :=
  List.foldlRecOn (motive := Trims s) l f (.of_bodies rfl) fun s₁ h₁ a ha => h₁.trans (hf s₁ a ha)

omit [FloorRing K] [Sqrt K] in
theorem Kept.trims (hs : s.Kept) (h : Trims s s') : s'.Kept where
  card_le p r hr :=
    (Finset.card_le_card (h.cells r)).trans (hs.card_le p r (h.players ▸ hr))
  empty_iff p r hr := by
    rw [h.rebirth, ← hs.empty_iff p r (h.players ▸ hr)]
    constructor
    · intro hempty
      by_contra hne
      exact (h.nonempty r (Finset.nonempty_iff_ne_empty.mpr hne)).ne_empty hempty
    · intro hempty
      exact Finset.subset_empty.mp (hempty ▸ h.cells r)
  waits p r hr := by
    rw [h.players]
    exact hs.waits p r (h.rebirth ▸ hr)
  leaves := h.leaves.trans hs.leaves
  started := h.started.trans hs.started

theorem collisionUpdate_bodies (o : Order) (s : Scene K) :
    (collisionUpdate o s).bodies = s.bodies := by
  have hpush : ∀ (abs : List (Nat × Nat)) (s₁ : Scene K),
      (pushPairs abs s₁).1.bodies = s₁.bodies := by
    intro abs
    induction abs with
    | nil => exact fun _ => rfl
    | cons ab abs ih =>
        intro s₁
        refine (ih (pushPair s₁ ab).1).trans ?_
        unfold pushPair
        dsimp only
        split <;> rfl
  refine foldl_view (fun s₁ r => ?_) _ s
  unfold selfCollision
  dsimp only
  split
  · rfl
  · exact (foldl_view (v := bodies) (f := updateCell) (fun _ _ => rfl) _ _).trans (hpush _ s₁)

section Lawful

variable [IsStrictOrderedRing K] [LawfulSqrt K]

omit [IsStrictOrderedRing K] [LawfulSqrt K] in
/-- Of two cells that merge one stays. -/
theorem mergePair_trims (r : Nat) (s : Scene K) {ab : Nat × Nat} (hne : ab.1 ≠ ab.2) :
    Trims s (mergePair r s ab) := by
  simp only [mergePair]
  split
  next h =>
    obtain ⟨-, -, ha, hb, -⟩ := h
    -- whichever of them is the bigger one
    have habsorb : ∀ (big small : Nat) (x : Cell K), big ≠ small → big ∈ (s.tables r).cells →
        Trims s ((((s.setCell big x).dropCell r small).removeCell small).updateCell big) := by
      intro big small x hbs hbig
      refine ⟨rfl, rfl, rfl, rfl, fun t => ?_, fun t ht => ?_⟩
      · by_cases h : t = r
        · subst h
          simp [removeCell, dropCell, setTable, updateCell, setCell, Finset.erase_subset]
        · simp [removeCell, dropCell, setTable, updateCell, setCell, h]
      · by_cases h : t = r
        · subst h
          refine ⟨big, ?_⟩
          simp [removeCell, dropCell, setTable, updateCell, setCell, hbs, hbig]
        · simpa [removeCell, dropCell, setTable, updateCell, setCell, h] using ht
    rcases s.biggerOf_cases ab.1 ab.2 with hbig | hbig <;> rw [hbig]
    · exact habsorb _ _ _ hne ha
    · exact habsorb _ _ _ hne.symm hb
  next => exact .of_bodies rfl

omit [IsStrictOrderedRing K] [LawfulSqrt K] in
theorem mergeUpdate_trims (o : Order) (s : Scene K) : Trims s (mergeUpdate o s) := by
  refine Trims.foldl _ s fun s₁ r _ => ?_
  have htick :
      ((sortBy id (o.pairs (.mergeCells r) (s₁.tables r).cells)).foldl tickMerge s₁).bodies =
        s₁.bodies := by
    refine foldl_view (fun s₂ c => ?_) _ s₁
    unfold tickMerge
    split <;> rfl
  refine (Trims.of_bodies htick).trans (Trims.foldl _ _ fun s₂ ab hab => ?_)
  exact mergePair_trims r s₂ (pairsOf_ne (sortBy_nodup (o.nodup_pairs _ _) id) hab)

omit [Sqrt K] [IsStrictOrderedRing K] [LawfulSqrt K] in
/-- A player that enters has one cell. -/
theorem enter_kept (o : Order) (hlive : s.Live) (hs : s.Kept) (p : Nat) : (enter o s p).Kept := by
  cases hr : s.pendingEnters.get p with
  | none =>
      have hsame : enter o s p = s := by simp only [enter, hr]
      rw [hsame]
      exact hs
  | some r =>
      obtain ⟨hnone, hnew⟩ := hlive.enters p r hr
      obtain ⟨c, hc, -⟩ := hnew.cell
      obtain ⟨g, hg⟩ := foldl_indexCell (o.pairs (.enterCells p) (s.tables r).cells)
        ({ s with players := s.players.set p r } : Scene K)
      have heq : enter o s p = { s with
          players := s.players.set p r
          cellGrid := g
          pendingEnters := s.pendingEnters.erase p } := by
        simp only [enter, hr, hg]
      have hget : ∀ q t, (s.players.set p r).get q = some t →
          (q = p ∧ t = r) ∨ (q ≠ p ∧ s.players.get q = some t) := by
        intro q t ht
        rw [Table.get_set] at ht
        split at ht
        next h => exact .inl ⟨h, (Option.some.inj ht).symm⟩
        next h => exact .inr ⟨h, ht⟩
      rw [heq]
      refine ⟨fun q t ht => ?_, fun q t ht => ?_, fun q t ht => ?_, hs.leaves, hs.started⟩
      · rcases hget q t ht with ⟨rfl, rfl⟩ | ⟨-, ht⟩
        · show (s.tables t).cells.card ≤ 16
          rw [hc, Finset.card_singleton]
          decide
        · exact hs.card_le q t ht
      · rcases hget q t ht with ⟨rfl, rfl⟩ | ⟨-, ht⟩
        · show (s.tables t).cells = ∅ ↔ s.pendingRebirth.get q = some t
          rw [hc]
          refine iff_of_false (Finset.singleton_ne_empty c) fun h => ?_
          have hin := hs.waits q t h
          rw [hnone] at hin
          cases hin
        · exact hs.empty_iff q t ht
      · have hin := hs.waits q t ht
        have hqp : q ≠ p := by
          rintro rfl
          rw [hnone] at hin
          cases hin
        exact (Table.get_set ..).trans ((if_neg hqp).trans hin)

omit [Sqrt K] [IsStrictOrderedRing K] [LawfulSqrt K] in
theorem flushPendingEnters_kept (o : Order) (hlive : s.Live) (hs : s.Kept) :
    (flushPendingEnters o s).Kept := by
  unfold flushPendingEnters
  split
  · exact (List.foldlRecOn (motive := fun s₁ : Scene K => s₁.Live ∧ s₁.Kept) _ (enter o)
      ⟨hlive, hs⟩ fun s₁ h₁ p _ => ⟨enter_live o h₁.1 p, enter_kept o h₁.1 h₁.2 p⟩).2
  · exact hs

/-! ## Frames and events -/

/-- A frame of a game that has started. -/
theorem update_kept (o : Order) (d : Draws) (hlive : s.Live) (hs : s.Bodied)
    (hstarted : s.gameStarted = true) : (update o d s).Kept := by
  rw [update_eq o d hstarted]
  obtain ⟨hbefore, hleaves, -⟩ := beforeCommands_live o d hlive
  have hcommands := processCommands_conserves o hbefore.sound
  have hl₁ := hcommands.live hbefore hleaves
  have hleaves₁ := hcommands.keeps.leaves.trans hleaves
  obtain ⟨hl₂, houter, -⟩ := foodUpdate_live d.food hl₁
  simp only [outer, Prod.mk.injEq] at houter
  have hmove := ((((sporesMove_conserves o hl₂.sound).next fun _ => cellMove_conserves o).next
    fun _ => cleanup_conserves o).next fun _ => eatFood_conserves o).next
    fun _ => eatSpore_conserves o
  have hmiddle := middle_conserves o hl₂.sound
  have hl₃ := hmiddle.live hl₂ (houter.2.1.trans hleaves₁)
  -- everybody has a cell until cells are eaten
  have hfilled := (beforeCommands_filled o d hlive hs hstarted).grows
    (processCommands_grows o (beforeCommands o d s))
  have hready := hfilled.of_bodies (eatSpore_bodies o d (processCommands o (beforeCommands o d s)))
  have hkept := (eatCell_kept o hmove.sound hready).trims (mergeUpdate_trims o _)
  exact flushPendingEnters_kept o hl₃ (hkept.of_bodies (collisionUpdate_bodies o _))

omit [FloorRing K] [Sqrt K] [IsStrictOrderedRing K] [LawfulSqrt K] in
theorem Same.bodies (h : Same s s') : s'.bodies = s.bodies := by
  have houter := h.outer
  simp only [Scene.outer, Prod.mk.injEq] at houter
  exact bodies_eq h.players (fun t => (h.tables t).2) houter.2.2.1 houter.2.1 houter.2.2.2.2

omit [Sqrt K] [IsStrictOrderedRing K] [LawfulSqrt K] in
/-- A kick moves a player that waits for its rebirth to those that leave. -/
theorem kickPlayer_bodied (hs : s.Bodied) (p : Nat) :
    (kickPlayer s p).1.Bodied := by
  unfold kickPlayer
  split
  next => exact ⟨hs.card_le, hs.empty, hs.rebirth, hs.idle⟩
  next =>
    split
    next =>
      refine ⟨hs.card_le, fun q r hr hempty => ?_, fun q r hr => ?_, hs.idle⟩
      · by_cases hq : q = p
        · subst hq
          exact .inr (Finset.mem_insert_self _ _)
        · rcases hs.empty q r hr hempty with h | h
          · refine .inl ((Table.get_erase ..).trans ?_)
            rw [if_neg hq]
            exact h
          · exact .inr (Finset.mem_insert_of_mem h)
      · have hr : (s.pendingRebirth.erase p).get q = some r := hr
        rw [Table.get_erase] at hr
        split at hr
        next => cases hr
        next => exact hs.rebirth q r hr
    next =>
      split
      next => exact hs
      next =>
        split
        next => exact hs
        next =>
          refine ⟨hs.card_le, fun q r hr hempty => ?_, hs.rebirth, hs.idle⟩
          exact (hs.empty q r hr hempty).imp_right (Finset.mem_insert_of_mem)

omit [FloorRing K] [Sqrt K] [IsStrictOrderedRing K] [LawfulSqrt K] in
/-- New players have new tables. -/
theorem addPlayer_bodied (hlive : s.Live) (hs : s.Bodied)
    (info : Nat × Nat × (Fin 1001 × Fin 1001)) : (addPlayer s info).Bodied := by
  have htables : ∀ p r, s.players.get p = some r → (addPlayer s info).tables r = s.tables r := by
    intro p r hr
    have hlt := hlive.lt p r hr
    have hne : r ≠ s.nextTable := by omega
    simp [addPlayer, newCell, hne]
  refine ⟨fun p r hr => ?_, fun p r hr => ?_, fun p r hr => ?_, hs.idle⟩
  · rw [htables p r hr]
    exact hs.card_le p r hr
  · rw [htables p r hr]
    exact hs.empty p r hr
  · rw [htables p r (hlive.rebirth p r hr)]
    exact hs.rebirth p r hr

theorem step_bodied (hlive : s.Live) (hs : s.Bodied) (e : Event K) : (s.step e).Bodied := by
  cases e with
  | frame o d =>
      simp only [step]
      by_cases hstarted : s.gameStarted = true
      · exact (update_kept o d hlive hs hstarted).bodied
      · rw [update_not_started o d (by simpa using hstarted)]
        exact hs
  | input o p m => exact hs.of_bodies (inputFrame_same o s p m).bodies
  | batchAdd infos =>
      simp only [step, batchAddPlayer]
      split
      next => exact hs
      next hfree =>
        have hnone : ∀ i ∈ infos, s.players.get i.1 = none := by
          intro i hi
          by_contra hsome
          exact hfree (List.any_eq_true.mpr
            ⟨i, hi, by simp [Option.isSome_iff_ne_none.mpr hsome]⟩)
        exact (List.foldlRecOn (motive := fun s₁ : Scene K => (s₁.Live ∧ s₁.Bodied) ∧
          s₁.players = s.players) infos addPlayer ⟨⟨hlive, hs⟩, rfl⟩ fun s₁ h₁ i hi =>
            ⟨⟨(addPlayer_live h₁.1.1 i (h₁.2 ▸ hnone i hi)).1, addPlayer_bodied h₁.1.1 h₁.1.2 i⟩,
              h₁.2⟩).1.2
  | kick p => exact kickPlayer_bodied hs p
  | online p b => exact hs.of_bodies (battleOnline_same s p b).bodies
  | startGame =>
      refine ⟨hs.card_le, hs.empty, hs.rebirth, fun h => ?_⟩
      simp only [step] at h
      cases h

omit [Sqrt K] [LawfulSqrt K] in
theorem start_bodied : (start : Scene K).Bodied where
  card_le _ _ hr := by cases hr
  empty _ _ hr := by cases hr
  rebirth _ _ hr := by cases hr
  idle _ _ := rfl

theorem run_bodied (es : List (Event K)) : (run (start : Scene K) es).Bodied :=
  (List.foldlRecOn (motive := fun s : Scene K => s.Live ∧ s.Bodied) es step
    ⟨start_live, start_bodied⟩ fun _ h e _ =>
      ⟨(step_live h.1 e).1, step_bodied h.1 h.2 e⟩).2

end Lawful

end Phases

end Scene

open Scene

/-- After every frame of every run each player has at most 16 cells and none exactly when it
waits for its rebirth; cells know their owners, no cell belongs to two players, and nobody
both waits and leaves.  Every split of the frame takes, of the cells that are large enough,
those with the lowest numbers up to the limit. -/
theorem cells_well_formed {K : Type} [Field K] [LinearOrder K] [IsStrictOrderedRing K]
    [FloorRing K] [Sqrt K] [LawfulSqrt K] (es : List (Event K)) (o : Order) (d : Draws) :
    let s := Scene.run Scene.start es
    let t := s.update o d
    (∀ p r, t.players.get p = some r →
        (t.tables r).cells.card ≤ 16 ∧
        ((t.tables r).cells = ∅ ↔ t.pendingRebirth.get p = some r) ∧
        ∀ c ∈ (t.tables r).cells, (t.cells c).playerid = p) ∧
      (∀ p q r u c, t.players.get p = some r → t.players.get q = some u →
        c ∈ (t.tables r).cells → c ∈ (t.tables u).cells → p = q) ∧
      (∀ p ∈ t.pendingLeaves, t.pendingRebirth.get p = none) ∧
      ∀ r a s', ActsIn o (beforeCommands o d s) r a s' →
        SplitsLowest s' o (.action r a.2) r a.1 := by
  intro s t
  obtain ⟨hlive, -⟩ := run_live (K := K) es
  have hs : s.Bodied := run_bodied es
  have hlive' : t.Live := (step_live hlive (.frame o d)).1
  refine ⟨fun p r hr => ?_, fun p q r u c hr hu hc hc' => ?_, hlive'.leaves,
    fun r a s' hacts => ?_⟩
  · by_cases hstarted : s.gameStarted = true
    · have hkept := update_kept o d hlive hs hstarted
      exact ⟨hkept.card_le p r hr, hkept.empty_iff p r hr,
        fun c hc => hlive'.sound.owner p r c hr hc⟩
    · have hnot : s.gameStarted = false := by simpa using hstarted
      have hsame : t = s := update_not_started o d hnot
      rw [hsame, hs.idle hnot p] at hr
      cases hr
  · exact (hlive'.sound.owner p r c hr hc).symm.trans (hlive'.sound.owner q u c hu hc')
  · obtain ⟨hbefore, -⟩ := beforeCommands_live o d hlive
    obtain ⟨hsound, p, hp⟩ := hacts.sound hbefore.sound
    exact doSplit_spec o _ a.1 hsound hp

/-- Two players enter, and one of them splits. -/
theorem cells_well_formed_real :
    let es : List (Event ℝ) := [.batchAdd [(7, 1, (3, 4)), (8, 1, (500, 600))], .startGame,
      .frame .ascending ⟨fun _ => (0, 0), none⟩,
      .input .ascending 7 ⟨5, 5, true, 1, true, false⟩]
    let s := Scene.run Scene.start es
    let t := s.update .ascending ⟨fun _ => (0, 0), none⟩
    (∀ p r, t.players.get p = some r →
        (t.tables r).cells.card ≤ 16 ∧
        ((t.tables r).cells = ∅ ↔ t.pendingRebirth.get p = some r) ∧
        ∀ c ∈ (t.tables r).cells, (t.cells c).playerid = p) ∧
      (∀ p q r u c, t.players.get p = some r → t.players.get q = some u →
        c ∈ (t.tables r).cells → c ∈ (t.tables u).cells → p = q) ∧
      (∀ p ∈ t.pendingLeaves, t.pendingRebirth.get p = none) ∧
      ∀ r a s', ActsIn .ascending (beforeCommands .ascending ⟨fun _ => (0, 0), none⟩ s) r a s' →
        SplitsLowest s' .ascending (.action r a.2) r a.1 :=
  cells_well_formed _ _ _

end BallServer.Ball
