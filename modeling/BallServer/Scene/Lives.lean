import BallServer.Scene.Mass

/-!
# Players come and go

Players that wait to enter are newcomers: they have one cell of size 1 and are not in the
game.  Players that wait for their rebirth are in it.

Main results:

- Structure {lit}`Live`: the invariant of the queues.
- Theorem {lit}`run_live`: it holds after every sequence of events.
- Theorem {lit}`mass_conserved`: what changes the mass of the scene.
-/

namespace BallServer.Ball

namespace Scene

variable {K : Type} [Field K] [LinearOrder K]

/-- The player of the table {lit}`r` waits with one cell of size 1. -/
structure Newcomer (s : Scene K) (p r : Nat) : Prop where
  lt : r < s.nextTable
  table : (s.tables r).playerid = p
  cell : ∃ c, (s.tables r).cells = {c} ∧ c ≤ s.cellMaxid ∧ (s.cells c).playerid = p ∧
    (s.cells c).size = 1

/-- Players that wait for their rebirth are in the game, players that enter are not. -/
structure Live (s : Scene K) : Prop where
  sound : s.Sound
  lt : ∀ p r, s.players.get p = some r → r < s.nextTable
  rebirth : ∀ p r, s.pendingRebirth.get p = some r → s.players.get p = some r
  leaves : ∀ p ∈ s.pendingLeaves, s.pendingRebirth.get p = none
  enters : ∀ p r, s.pendingEnters.get p = some r → s.players.get p = none ∧ s.Newcomer p r

/-- The mass of a player. -/
def weight (s : Scene K) (p : Nat) : K :=
  ∑ c ∈ s.cellsOf p, calMass (s.cells c).size

variable {s s' : Scene K}

/-- The table of a newcomer is no player's. -/
theorem Live.not_player (hs : s.Live) {p r : Nat} (hr : s.pendingEnters.get p = some r) :
    ∀ q, s.players.get q ≠ some r := by
  intro q hq
  obtain ⟨hnone, hnew⟩ := hs.enters p r hr
  have hpq : q = p := (hs.sound.table q r hq).symm.trans hnew.table
  subst hpq
  rw [hnone] at hq
  cases hq

/-- The cell of a newcomer is not in the game. -/
theorem Live.not_alive (hs : s.Live) {p c : Nat} (hp : s.players.get p = none)
    (hc : (s.cells c).playerid = p) : c ∉ s.alive := by
  intro h
  obtain ⟨q, t, ht, hct⟩ := mem_alive.mp h
  have hpq : q = p := (hs.sound.owner q t c ht hct).symm.trans hc
  subst hpq
  rw [hp] at ht
  cases ht

/-- A newcomer is not touched by the phases of a frame. -/
theorem Keeps.newcomer (h : s.Keeps s') (hs : s.Live) {p r : Nat}
    (hr : s.pendingEnters.get p = some r) : s'.Newcomer p r := by
  obtain ⟨hnone, hnew⟩ := hs.enters p r hr
  obtain ⟨hcells, hid⟩ := h.table r (hs.not_player hr)
  obtain ⟨c, hc, hle, hown, hsize⟩ := hnew.cell
  obtain ⟨hown', hsize'⟩ := h.cell c (hs.not_alive hnone hown) hle
  exact ⟨h.next ▸ hnew.lt, hid.trans hnew.table, c, hcells.trans hc, hle.trans h.maxid,
    hown'.trans hown, hsize'.trans hsize⟩

theorem Keeps.live (h : s.Keeps s') (hs : s.Live) (hsound : s'.Sound)
    (hplayers : s'.players = s.players) (hleaves : s.pendingLeaves = ∅) : s'.Live where
  sound := hsound
  lt p r hr := by
    rw [hplayers] at hr
    rw [h.next]
    exact hs.lt p r hr
  rebirth p r hr := by
    rw [hplayers]
    exact (h.rebirth p r hr).elim (hs.rebirth p r) id
  leaves p hp := by
    rw [h.leaves, hleaves] at hp
    cases hp
  enters p r hr := by
    rw [h.enters] at hr
    exact ⟨hplayers ▸ (hs.enters p r hr).1, h.newcomer hs hr⟩

theorem Conserves.live (h : Conserves s s') (hs : s.Live) (hleaves : s.pendingLeaves = ∅) :
    s'.Live :=
  h.keeps.live hs h.sound h.players hleaves

/-- The cells of different players are different. -/
theorem Sound.sum_alive (hs : s.Sound) :
    ∑ c ∈ s.alive, calMass (s.cells c).size = ∑ p ∈ s.players.keys, s.weight p := by
  unfold alive weight
  apply Finset.sum_biUnion
  intro p hp q hq hne
  rw [Function.onFun, Finset.disjoint_left]
  intro c hcp hcq
  obtain ⟨r, hr⟩ := Table.mem_keys_iff.mp hp
  obtain ⟨t, ht⟩ := Table.mem_keys_iff.mp hq
  simp only [cellsOf, hr] at hcp
  simp only [cellsOf, ht] at hcq
  exact hne ((hs.owner p r c hr hcp).symm.trans (hs.owner q t c ht hcq))

/-- Events that leave the players, their cells and the queues alone. -/
structure Same (s s' : Scene K) : Prop where
  outer : s'.outer = s.outer
  players : s'.players = s.players
  tables : ∀ r, (s'.tables r).playerid = (s.tables r).playerid ∧
    (s'.tables r).cells = (s.tables r).cells
  cells : ∀ c, (s'.cells c).playerid = (s.cells c).playerid ∧ (s'.cells c).size = (s.cells c).size
  maxid : s'.cellMaxid = s.cellMaxid
  spores : s'.spores = s.spores
  sporeMaxid : s'.sporeMaxid = s.sporeMaxid

theorem Same.trans {s'' : Scene K} (h : Same s s') (h' : Same s' s'') : Same s s'' where
  outer := h'.outer.trans h.outer
  players := h'.players.trans h.players
  tables r := ⟨(h'.tables r).1.trans (h.tables r).1, (h'.tables r).2.trans (h.tables r).2⟩
  cells c := ⟨(h'.cells c).1.trans (h.cells c).1, (h'.cells c).2.trans (h.cells c).2⟩
  maxid := h'.maxid.trans h.maxid
  spores := h'.spores.trans h.spores
  sporeMaxid := h'.sporeMaxid.trans h.sporeMaxid

theorem Same.refl (s : Scene K) : Same s s :=
  ⟨rfl, rfl, fun _ => ⟨rfl, rfl⟩, fun _ => ⟨rfl, rfl⟩, rfl, rfl, rfl⟩

theorem Same.live (h : Same s s') (hs : s.Live) : s'.Live := by
  have houter := h.outer
  simp only [Scene.outer, Prod.mk.injEq] at houter
  obtain ⟨henters, hleaves, hrebirth, hnext, -⟩ := houter
  constructor
  · exact hs.sound.of_sub h.players (fun r => (h.tables r).1) (fun r => (h.tables r).2.subset)
      (fun c _ => (h.cells c).1) h.maxid (fun i hi => h.spores ▸ hi) h.sporeMaxid
  · intro p r hr
    rw [hnext]
    exact hs.lt p r (h.players ▸ hr)
  · intro p r hr
    rw [h.players]
    exact hs.rebirth p r (hrebirth ▸ hr)
  · intro p hp
    rw [hrebirth]
    exact hs.leaves p (hleaves ▸ hp)
  · intro p r hr
    obtain ⟨hnone, hnew⟩ := hs.enters p r (henters ▸ hr)
    obtain ⟨c, hc, hle, hown, hsize⟩ := hnew.cell
    exact ⟨h.players ▸ hnone, hnext ▸ hnew.lt, (h.tables r).1.trans hnew.table, c,
      (h.tables r).2.trans hc, h.maxid ▸ hle, (h.cells c).1.trans hown, (h.cells c).2.trans hsize⟩

theorem Same.large (h : Same s s') (hs : s.Large) : s'.Large := by
  intro c hc
  rw [alive_congr h.players fun r => (h.tables r).2] at hc
  rw [(h.cells c).2]
  exact hs c hc

/-! ## Leaving -/

theorem foldl_removeCell [FloorRing K] (l : List Nat) (s : Scene K) :
    ∃ g, l.foldl removeCell s = { s with cellGrid := g } := by
  induction l generalizing s with
  | nil => exact ⟨s.cellGrid, rfl⟩
  | cons c l ih => exact ih (s.removeCell c)

theorem foldl_indexCell [FloorRing K] (l : List Nat) (s : Scene K) :
    ∃ g, l.foldl indexCell s = { s with cellGrid := g } := by
  induction l generalizing s with
  | nil => exact ⟨s.cellGrid, rfl⟩
  | cons c l ih => exact ih (s.indexCell c)

theorem leave_eq [FloorRing K] (o : Order) (s : Scene K) (p : Nat) : ∃ g, leave o s p =
    { s with
      players := s.players.erase p
      pendingLeaves := s.pendingLeaves.erase p
      cellGrid := g } := by
  unfold leave
  cases hp : s.players.get p with
  | none =>
      refine ⟨s.cellGrid, ?_⟩
      have : s.players.erase p = s.players := by
        apply Table.ext_get
        intro k
        rw [Table.get_erase]
        split
        · subst k
          exact hp.symm
        · rfl
      rw [this]
  | some r =>
      obtain ⟨g, hg⟩ := foldl_removeCell (o.pairs (.leaveCells p) (s.tables r).cells) s
      refine ⟨g, ?_⟩
      simp only [hg]

theorem foldl_leave [FloorRing K] (o : Order) (l : List Nat) (s : Scene K) :
    ∃ ps g, l.foldl (leave o) s =
        { s with
          players := ps
          pendingLeaves := s.pendingLeaves.filter (· ∉ l)
          cellGrid := g } ∧
      ∀ q, ps.get q = if q ∈ l then none else s.players.get q := by
  induction l generalizing s with
  | nil => exact ⟨s.players, s.cellGrid, by simp, by simp⟩
  | cons p l ih =>
      obtain ⟨g, hg⟩ := leave_eq o s p
      obtain ⟨ps, g', heq, hget⟩ := ih (leave o s p)
      rw [hg] at heq hget
      refine ⟨ps, g', ?_, ?_⟩
      · rw [List.foldl_cons, hg, heq]
        have : (s.pendingLeaves.erase p).filter (· ∉ l) =
            s.pendingLeaves.filter (· ∉ p :: l) := by
          ext q
          simp only [Finset.mem_filter, Finset.mem_erase, List.mem_cons, not_or]
          tauto
        rw [this]
      · intro q
        rw [hget q, Table.get_erase]
        simp only [List.mem_cons]
        split_ifs <;> simp_all

/-- The players that wait to leave are gone, and with them their mass. -/
theorem flushPendingLeaves_eq [FloorRing K] (o : Order) (s : Scene K) :
    ∃ ps g, flushPendingLeaves o s =
        { s with
          players := ps
          pendingLeaves := ∅
          cellGrid := g } ∧
      ∀ q, ps.get q = if q ∈ s.pendingLeaves then none else s.players.get q := by
  obtain ⟨ps, g, heq, hget⟩ := foldl_leave o (o.pairs .leaves s.pendingLeaves) s
  refine ⟨ps, g, ?_, ?_⟩
  · rw [flushPendingLeaves, heq]
    have : s.pendingLeaves.filter (· ∉ o.pairs .leaves s.pendingLeaves) = ∅ := by
      ext q
      simp [o.mem_pairs]
    rw [this]
  · intro q
    rw [hget q]
    simp only [o.mem_pairs]

theorem flushPendingLeaves_mass [FloorRing K] (o : Order) (hs : s.Live) :
    (flushPendingLeaves o s).Live ∧ (flushPendingLeaves o s).pendingLeaves = ∅ ∧
      (flushPendingLeaves o s).pendingRebirth = s.pendingRebirth ∧
      (flushPendingLeaves o s).pendingEnters = s.pendingEnters ∧
      (flushPendingLeaves o s).event = s.event ∧
      (flushPendingLeaves o s).gameStarted = s.gameStarted ∧
      (flushPendingLeaves o s).mass = s.mass - ∑ p ∈ s.pendingLeaves, s.weight p ∧
      (s.Large → (flushPendingLeaves o s).Large) := by
  obtain ⟨ps, g, heq, hget⟩ := flushPendingLeaves_eq o s
  rw [heq]
  have hsub : ∀ q r, ps.get q = some r → s.players.get q = some r := by
    intro q r hq
    rw [hget] at hq
    split at hq
    · cases hq
    · exact hq
  have hsound : ({ s with players := ps, pendingLeaves := ∅, cellGrid := g } : Scene K).Sound :=
    ⟨fun p r hr => hs.sound.table p r (hsub p r hr),
      fun p r c hr => hs.sound.owner p r c (hsub p r hr),
      fun p r c hr => hs.sound.cell_le p r c (hsub p r hr), hs.sound.spore_le⟩
  refine ⟨?_, rfl, rfl, rfl, rfl, rfl, ?_, ?_⟩
  · refine ⟨hsound, fun p r hr => hs.lt p r (hsub p r hr), ?_, by simp, ?_⟩
    · intro p r hr
      have hin : p ∉ s.pendingLeaves := by
        intro hp
        rw [hs.leaves p hp] at hr
        cases hr
      exact (hget p).trans ((if_neg hin).trans (hs.rebirth p r hr))
    · intro p r hr
      obtain ⟨hnone, hnew⟩ := hs.enters p r hr
      refine ⟨?_, hnew.lt, hnew.table, hnew.cell⟩
      show ps.get p = none
      rw [hget, hnone, ite_self]
  · have hkeys : ps.keys = s.players.keys \ s.pendingLeaves := by
      ext p
      rw [ps.mem_keys, Finset.mem_sdiff, s.players.mem_keys, hget]
      split <;> simp_all
    have hweight : ∀ p ∈ ps.keys,
        ({ s with players := ps, pendingLeaves := ∅, cellGrid := g } : Scene K).weight p =
          s.weight p := by
      intro p hp
      obtain ⟨r, hr⟩ := Table.mem_keys_iff.mp hp
      simp only [weight, cellsOf, hr, hsub p r hr]
    have hgone : ∑ p ∈ s.pendingLeaves, s.weight p =
        ∑ p ∈ s.players.keys ∩ s.pendingLeaves, s.weight p := by
      symm
      apply Finset.sum_subset Finset.inter_subset_right
      intro p hp hnot
      have hnone : s.players.get p = none := by
        by_contra h
        exact hnot (Finset.mem_inter.mpr ⟨(s.players.mem_keys p).mpr
          (Option.isSome_iff_ne_none.mpr h), hp⟩)
      simp [weight, cellsOf, hnone]
    have hsplit := Finset.sum_inter_add_sum_sdiff s.players.keys s.pendingLeaves s.weight
    have hafter := hsound.sum_alive
    rw [Finset.sum_congr rfl hweight] at hafter
    unfold mass
    rw [hafter, hs.sound.sum_alive, hgone, hkeys]
    linear_combination hsplit
  · intro hlarge c hc
    obtain ⟨p, r, hr, hcell⟩ := mem_alive.mp hc
    exact hlarge c (mem_alive_of (hsub p r hr) hcell)

/-! ## Coming back and entering -/

/-- Players come back or enter: the mass grows by 1 for each, and the rest stays. -/
structure Adds (s s' : Scene K) (n : Nat) : Prop where
  live : s'.Live
  leaves : s'.pendingLeaves = s.pendingLeaves
  event : s'.event.eatenFoodIds = s.event.eatenFoodIds
  started : s'.gameStarted = s.gameStarted
  mass : s'.mass = s.mass + n
  large : s.Large → s'.Large

theorem Adds.refl (hs : s.Live) : Adds s s 0 :=
  ⟨hs, rfl, rfl, rfl, by simp, id⟩

theorem Adds.trans {s'' : Scene K} {m n : Nat} (h : Adds s s' m) (h' : Adds s' s'' n) :
    Adds s s'' (n + m) where
  live := h'.live
  leaves := h'.leaves.trans h.leaves
  event := h'.event.trans h.event
  started := h'.started.trans h.started
  mass := by
    rw [h'.mass, h.mass, Nat.cast_add]
    ring
  large := h'.large ∘ h.large

section Born

variable [IsStrictOrderedRing K] [FloorRing K]

omit [IsStrictOrderedRing K] in
theorem rebear_adds (at_ : Nat → Fin 1001 × Fin 1001) (hs : s.Live) {p r : Nat}
    (hr : s.pendingRebirth.get p = some r) (hleaves : s.pendingLeaves = ∅) :
    Adds s (rebear at_ s p) 1 ∧
      (rebear at_ s p).pendingRebirth = s.pendingRebirth.erase p ∧
      (rebear at_ s p).pendingEnters = s.pendingEnters := by
  have hp := hs.rebirth p r hr
  have hfresh := hs.sound.fresh
  set s' := rebear at_ s p with hs'
  simp only [rebear, hr] at hs'
  have hplayers : s'.players = s.players := by rw [hs']; rfl
  have hcells : ∀ t, (s'.tables t).cells =
      if t = r then insert (s.cellMaxid + 1) (s.tables t).cells else (s.tables t).cells := by
    intro t
    by_cases h : t = r
    · subst h
      simp [hs', indexCell, setTable, addCell, newCell]
    · simp [hs', indexCell, setTable, addCell, newCell, h]
  have hid : ∀ t, (s'.tables t).playerid = (s.tables t).playerid := by
    intro t
    by_cases h : t = r
    · subst h
      simp [hs', indexCell, setTable, addCell, newCell]
    · simp [hs', indexCell, setTable, addCell, newCell, h]
  have hnew : s'.cells (s.cellMaxid + 1) = bornCell p (at_ p) := by
    simp [hs', indexCell, setTable, addCell, newCell]
  have hold : ∀ c, c ≠ s.cellMaxid + 1 → s'.cells c = s.cells c := by
    intro c hc
    simp [hs', indexCell, setTable, addCell, newCell, hc]
  have hmax : s'.cellMaxid = s.cellMaxid + 1 := by rw [hs']; rfl
  have hspores : s'.spores = s.spores := by rw [hs']; rfl
  have hsporeTables : s'.sporeTables = s.sporeTables := by rw [hs']; rfl
  have holdAlive : ∀ c ∈ s.alive, s'.cells c = s.cells c := fun c hc =>
    hold c fun h => hfresh (h ▸ hc)
  have halive : s'.alive = insert (s.cellMaxid + 1) s.alive := by
    rw [← alive_addCell hp]
    refine alive_congr (s := s.addCell r (s.cellMaxid + 1)) hplayers fun t => ?_
    rw [hcells]
    by_cases h : t = r
    · subst h
      simp [addCell, setTable]
    · simp [addCell, setTable, h]
  have hsound : s'.Sound :=
    hs.sound.grow hp hplayers hid hcells (fun c hc => by rw [holdAlive c hc])
      (by rw [hnew]; rfl) hmax hspores (by rw [hs']; rfl)
  have hkeeps : s.Keeps s' := by
    refine ⟨by rw [hs']; rfl, by rw [hs']; rfl, by rw [hs']; rfl, by rw [hs']; rfl, ?_, by omega, ?_,
      ?_, ?_⟩
    · intro q t ht
      have hrebirth : s'.pendingRebirth = s.pendingRebirth.erase p := by rw [hs']; rfl
      rw [hrebirth, Table.get_erase] at ht
      split at ht
      · cases ht
      · exact .inl ht
    · intro t ht
      have htr : t ≠ r := fun h => ht p (h ▸ hp)
      exact ⟨(hcells t).trans (if_neg htr), hid t⟩
    · intro c _ hle
      rw [hold c (by omega)]
      exact ⟨rfl, rfl⟩
    · intro c hc
      rw [halive, Finset.mem_insert] at hc
      exact hc.elim (fun h => .inr (by omega)) .inl
  refine ⟨⟨hkeeps.live hs hsound hplayers hleaves, hkeeps.leaves, by rw [hs']; rfl, hkeeps.started,
    ?_, ?_⟩, by rw [hs']; rfl, hkeeps.enters⟩
  · have hsum : ∑ c ∈ s.alive, calMass (s'.cells c).size = ∑ c ∈ s.alive, calMass (s.cells c).size :=
      Finset.sum_congr rfl fun c hc => by rw [holdAlive c hc]
    unfold Scene.mass
    rw [halive, Finset.sum_insert hfresh, hnew, hspores, hsporeTables, hsum]
    simp only [bornCell, calMass, Nat.cast_one, mul_one]
    ring
  · intro hlarge c hc
    rw [halive, Finset.mem_insert] at hc
    rcases hc with rfl | hc
    · rw [hnew]
      exact le_rfl
    · rw [holdAlive c hc]
      exact hlarge c hc

omit [IsStrictOrderedRing K] in
theorem foldl_rebear_adds (at_ : Nat → Fin 1001 × Fin 1001) {l : List Nat} (hl : l.Nodup)
    (hs : s.Live) (hleaves : s.pendingLeaves = ∅)
    (hrebirth : ∀ p ∈ l, (s.pendingRebirth.get p).isSome) :
    Adds s (l.foldl (rebear at_) s) l.length ∧
      (l.foldl (rebear at_) s).pendingEnters = s.pendingEnters := by
  induction l generalizing s with
  | nil => exact ⟨.refl hs, rfl⟩
  | cons p l ih =>
      obtain ⟨hp, hl⟩ := List.nodup_cons.mp hl
      obtain ⟨r, hr⟩ := Option.isSome_iff_exists.mp (hrebirth p (by simp))
      obtain ⟨hadds, herase, henters⟩ := rebear_adds at_ hs hr hleaves
      obtain ⟨hrest, henters'⟩ := ih hl hadds.live (hadds.leaves.trans hleaves) (by
        intro q hq
        have hne : q ≠ p := by
          rintro rfl
          exact hp hq
        rw [herase, Table.get_erase, if_neg hne]
        exact hrebirth q (List.mem_cons_of_mem p hq))
      exact ⟨hadds.trans hrest, henters'.trans henters⟩

omit [IsStrictOrderedRing K] in
theorem enter_adds (o : Order) (hs : s.Live) {p r : Nat} (hr : s.pendingEnters.get p = some r) :
    Adds s (enter o s p) 1 ∧ (enter o s p).pendingEnters = s.pendingEnters.erase p := by
  obtain ⟨hnone, hnew⟩ := hs.enters p r hr
  obtain ⟨c, hc, hle, hown, hsize⟩ := hnew.cell
  have hnotalive := hs.not_alive hnone hown
  obtain ⟨g, hg⟩ := foldl_indexCell (o.pairs (.enterCells p) (s.tables r).cells)
    ({ s with players := s.players.set p r } : Scene K)
  have heq : enter o s p = { s with
      players := s.players.set p r
      cellGrid := g
      pendingEnters := s.pendingEnters.erase p } := by
    simp only [enter, hr, hg]
  rw [heq]
  have hget : ∀ q t, (s.players.set p r).get q = some t →
      (q = p ∧ t = r) ∨ (q ≠ p ∧ s.players.get q = some t) := by
    intro q t ht
    rw [Table.get_set] at ht
    split at ht
    · rename_i h
      exact .inl ⟨h, (Option.some.inj ht).symm⟩
    · rename_i h
      exact .inr ⟨h, ht⟩
  have halive : (({ s with
      players := s.players.set p r
      cellGrid := g
      pendingEnters := s.pendingEnters.erase p } : Scene K)).alive = insert c s.alive :=
    alive_enter hnone hc
  have hsound : (({ s with
      players := s.players.set p r
      cellGrid := g
      pendingEnters := s.pendingEnters.erase p } : Scene K)).Sound := by
    refine ⟨fun q t ht => ?_, fun q t d ht hd => ?_, fun q t d ht hd => ?_, hs.sound.spore_le⟩
    · rcases hget q t ht with ⟨rfl, rfl⟩ | ⟨-, ht⟩
      · exact hnew.table
      · exact hs.sound.table q t ht
    · rcases hget q t ht with ⟨rfl, rfl⟩ | ⟨-, ht⟩
      · have hd : d ∈ (s.tables t).cells := hd
        rw [hc, Finset.mem_singleton] at hd
        subst hd
        exact hown
      · exact hs.sound.owner q t d ht hd
    · rcases hget q t ht with ⟨rfl, rfl⟩ | ⟨-, ht⟩
      · have hd : d ∈ (s.tables t).cells := hd
        rw [hc, Finset.mem_singleton] at hd
        subst hd
        exact hle
      · exact hs.sound.cell_le q t d ht hd
  refine ⟨⟨⟨hsound, ?_, ?_, hs.leaves, ?_⟩, rfl, rfl, rfl, ?_, ?_⟩, rfl⟩
  · intro q t ht
    rcases hget q t ht with ⟨rfl, rfl⟩ | ⟨-, ht⟩
    · exact hnew.lt
    · exact hs.lt q t ht
  · intro q t ht
    have hq := hs.rebirth q t ht
    have hne : q ≠ p := by
      rintro rfl
      rw [hnone] at hq
      cases hq
    simp [hne, hq]
  · intro q t ht
    have ht : (s.pendingEnters.erase p).get q = some t := ht
    rw [Table.get_erase] at ht
    split at ht
    · cases ht
    · rename_i hne
      obtain ⟨hnone', hnew'⟩ := hs.enters q t ht
      exact ⟨by simp [hne, hnone'], hnew'.lt, hnew'.table, hnew'.cell⟩
  · unfold Scene.mass
    rw [halive, Finset.sum_insert hnotalive, hsize]
    simp only [calMass, Nat.cast_one, mul_one]
    ring
  · intro hlarge d hd
    rw [halive, Finset.mem_insert] at hd
    rcases hd with rfl | hd
    · exact hsize.ge
    · exact hlarge d hd

omit [IsStrictOrderedRing K] in
theorem foldl_enter_adds (o : Order) {l : List Nat} (hl : l.Nodup) (hs : s.Live)
    (henters : ∀ p ∈ l, (s.pendingEnters.get p).isSome) :
    Adds s (l.foldl (enter o) s) l.length := by
  induction l generalizing s with
  | nil => exact .refl hs
  | cons p l ih =>
      obtain ⟨hp, hl⟩ := List.nodup_cons.mp hl
      obtain ⟨r, hr⟩ := Option.isSome_iff_exists.mp (henters p (by simp))
      obtain ⟨hadds, herase⟩ := enter_adds o hs hr
      refine hadds.trans (ih hl hadds.live ?_)
      intro q hq
      have hne : q ≠ p := by
        rintro rfl
        exact hp hq
      rw [herase, Table.get_erase, if_neg hne]
      exact henters q (List.mem_cons_of_mem p hq)

end Born

/-! ## Frames -/

section Frame

variable [IsStrictOrderedRing K] [FloorRing K] [Sqrt K] [LawfulSqrt K]

omit [IsStrictOrderedRing K] [FloorRing K] [Sqrt K] [LawfulSqrt K] in
theorem foodUpdate_live (draw : Option (Fin 1001 × Fin 1001)) (hs : s.Live) :
    (foodUpdate draw s).Live ∧ (foodUpdate draw s).outer = s.outer ∧
      (foodUpdate draw s).mass = s.mass ∧ (foodUpdate draw s).eaten = s.eaten ∧
      (s.Large → (foodUpdate draw s).Large) := by
  unfold foodUpdate
  split
  · exact ⟨hs, rfl, rfl, rfl, id⟩
  · split
    · exact ⟨hs, rfl, rfl, rfl, id⟩
    · simp only [insertFood]
      split <;> exact ⟨⟨⟨hs.sound.table, hs.sound.owner, hs.sound.cell_le, hs.sound.spore_le⟩,
        hs.lt, hs.rebirth, hs.leaves,
        fun p r hr => ⟨(hs.enters p r hr).1, (hs.enters p r hr).2.lt, (hs.enters p r hr).2.table,
          (hs.enters p r hr).2.cell⟩⟩, rfl, rfl, rfl, id⟩

omit [IsStrictOrderedRing K] [FloorRing K] [Sqrt K] [LawfulSqrt K] in
/-- Two phases that are followed by a phase that conserves mass. -/
theorem Conserves.next {f : Scene K → Scene K} (h : Conserves s s')
    (hf : ∀ t : Scene K, t.Sound → Conserves t (f t)) : Conserves s (f s') :=
  h.trans (hf s' h.sound)

/-- The phases before and after {lit}`food_update`. -/
theorem middle_conserves (o : Order) (hs : s.Sound) :
    Conserves s (collisionUpdate o (mergeUpdate o (eatCell o (eatSpore o (eatFood o
      (cleanup o (cellMove o (sporesMove o s)))))))) :=
  (((((((sporesMove_conserves o hs).next fun _ => cellMove_conserves o).next
    fun _ => cleanup_conserves o).next fun _ => eatFood_conserves o).next
    fun _ => eatSpore_conserves o).next fun _ => eatCell_conserves o).next
    fun _ => mergeUpdate_conserves o).next fun _ => collisionUpdate_conserves o

omit [IsStrictOrderedRing K] [Sqrt K] [LawfulSqrt K] in
theorem flushPendingEnters_adds (o : Order) (hs : s.Live) (hstarted : s.gameStarted = true) :
    Adds s (flushPendingEnters o s) s.pendingEnters.keys.card := by
  unfold flushPendingEnters
  rw [if_pos hstarted]
  have h := foldl_enter_adds o (o.nodup_pairs .enters s.pendingEnters.keys) hs (by
    intro p hp
    rw [o.mem_pairs] at hp
    exact (s.pendingEnters.mem_keys p).mp hp)
  have hlength : (o.pairs .enters s.pendingEnters.keys).length = s.pendingEnters.keys.card := by
    rw [← List.toFinset_card_of_nodup (o.nodup_pairs .enters s.pendingEnters.keys)]
    congr 1
    ext p
    simp [o.mem_pairs]
  exact hlength ▸ h

omit [IsStrictOrderedRing K] [Sqrt K] [LawfulSqrt K] in
theorem flushPendingRebirth_adds (o : Order) (at_ : Nat → Fin 1001 × Fin 1001) (hs : s.Live)
    (hleaves : s.pendingLeaves = ∅) :
    Adds s (flushPendingRebirth o at_ s) s.pendingRebirth.keys.card ∧
      (flushPendingRebirth o at_ s).pendingEnters = s.pendingEnters := by
  unfold flushPendingRebirth
  have h := foldl_rebear_adds at_ (o.nodup_pairs .rebirth s.pendingRebirth.keys) hs hleaves (by
    intro p hp
    rw [o.mem_pairs] at hp
    exact (s.pendingRebirth.mem_keys p).mp hp)
  have hlength : (o.pairs .rebirth s.pendingRebirth.keys).length = s.pendingRebirth.keys.card := by
    rw [← List.toFinset_card_of_nodup (o.nodup_pairs .rebirth s.pendingRebirth.keys)]
    congr 1
    ext p
    simp [o.mem_pairs]
  exact ⟨hlength ▸ h.1, h.2⟩

/-- A frame adds 1 for each food eaten, each rebirth and each player that enters, and takes
away the mass of the players that leave. -/
theorem update_mass (o : Order) (d : Draws) (hs : s.Live) (hstarted : s.gameStarted = true) :
    (update o d s).Live ∧ (s.Large → (update o d s).Large) ∧
      (update o d s).mass = s.mass + (update o d s).eaten + s.pendingRebirth.keys.card +
        s.pendingEnters.keys.card - ∑ p ∈ s.pendingLeaves, s.weight p := by
  have hempty : Same s { s with event := .empty } :=
    ⟨rfl, rfl, fun _ => ⟨rfl, rfl⟩, fun _ => ⟨rfl, rfl⟩, rfl, rfl, rfl⟩
  have hs₀ := hempty.live hs
  obtain ⟨hl₁, hleaves₁, hrebirth₁, henters₁, hevent₁, hstarted₁, hmass₁, hlarge₁⟩ :=
    flushPendingLeaves_mass o hs₀
  obtain ⟨hadds₂, henters₂⟩ := flushPendingRebirth_adds o d.rebirth hl₁ hleaves₁
  have hleaves₂ := hadds₂.leaves.trans hleaves₁
  have hcommands := processCommands_conserves o hadds₂.live.sound
  have hl₃ := hcommands.live hadds₂.live hleaves₂
  obtain ⟨hl₄, houter₄, hmass₄, heaten₄, hlarge₄⟩ := foodUpdate_live d.food hl₃
  simp only [outer, Prod.mk.injEq] at houter₄
  have hmiddle := middle_conserves o hl₄.sound
  have hleaves₄ := houter₄.2.1.trans (hcommands.keeps.leaves.trans hleaves₂)
  have hl₅ := hmiddle.live hl₄ hleaves₄
  have hstarted₅ := hmiddle.keeps.started.trans (houter₄.2.2.2.2.trans
    (hcommands.keeps.started.trans (hadds₂.started.trans (hstarted₁.trans hstarted))))
  have henters₅ := hmiddle.keeps.enters.trans (houter₄.1.trans
    (hcommands.keeps.enters.trans (henters₂.trans henters₁)))
  have hadds₆ := flushPendingEnters_adds o hl₅ hstarted₅
  have hupdate : update o d s = flushPendingEnters o (collisionUpdate o (mergeUpdate o (eatCell o
      (eatSpore o (eatFood o (cleanup o (cellMove o (sporesMove o (foodUpdate d.food
        (processCommands o (flushPendingRebirth o d.rebirth (flushPendingLeaves o
          { s with event := .empty }))))))))))))  := by
    simp [update, hstarted]
  rw [hupdate]
  refine ⟨hadds₆.live, fun h => ?_, ?_⟩
  · exact hadds₆.large (hmiddle.large (hlarge₄ (hcommands.large (hadds₂.large (hlarge₁ h)))))
  · have heaten : ({ s with event := .empty } : Scene K).eaten = 0 := rfl
    have heaten₁ : (flushPendingLeaves o { s with event := .empty }).eaten = 0 :=
      (congrArg (fun e : FrameEvent K => e.eatenFoodIds.length) hevent₁).trans heaten
    have heaten₂ := (congrArg List.length hadds₂.event).trans heaten₁
    have heaten₆ := congrArg List.length hadds₆.event
    have hmass₀ : ({ s with event := .empty } : Scene K).mass = s.mass := rfl
    have hweight : ∀ p, ({ s with event := .empty } : Scene K).weight p = s.weight p := fun _ => rfl
    simp only [eaten] at heaten₂ heaten₆ heaten₄ ⊢
    rw [hadds₆.mass, hmiddle.mass, hmass₄, hcommands.mass, hadds₂.mass, hmass₁, hrebirth₁, henters₅]
    simp only [eaten, heaten₂, heaten₆, heaten₄, hweight, hmass₀]
    push_cast
    ring

end Frame

/-! ## Events -/

section Events

theorem setTable_same (r : Nat) {x : Player K} (hid : x.playerid = (s.tables r).playerid)
    (hcells : x.cells = (s.tables r).cells) : Same s (s.setTable r x) := by
  refine ⟨rfl, rfl, fun t => ?_, fun _ => ⟨rfl, rfl⟩, rfl, rfl, rfl⟩
  by_cases h : t = r
  · subst h
    simp [setTable, hid, hcells]
  · simp [setTable, h]

theorem turnCell_same [Sqrt K] (m : Input K) (s : Scene K) (c : Nat) :
    Same s (turnCell m s c) := by
  simp only [turnCell]
  split
  · refine ⟨rfl, rfl, fun _ => ⟨rfl, rfl⟩, fun d => ?_, rfl, rfl, rfl⟩
    by_cases h : d = c
    · subst h
      simp [setCell]
    · simp [setCell, h]
  · exact .refl s

/-- An input turns cells and adds to the actions that wait. -/
theorem inputFrame_same [Sqrt K] (o : Order) (s : Scene K) (p : Nat) (m : Input K) :
    Same s (inputFrame o s p m) := by
  unfold inputFrame
  split
  · exact .refl s
  · rename_i r _
    split
    · exact .refl s
    · simp only
      split
      · have hturn : ∀ (l : List Nat) (s₁ : Scene K), Same s₁ (l.foldl (turnCell m) s₁) :=
          fun l s₁ => List.foldlRecOn (motive := Same s₁) l _ (.refl s₁) fun s₂ h₂ c _ =>
            h₂.trans (turnCell_same m s₂ c)
        have htarget : Same s (s.setTable r { s.tables r with
            targetX := m.targetX
            targetY := m.targetY }) := setTable_same r rfl rfl
        exact (htarget.trans (hturn _ _)).trans (setTable_same r rfl rfl)
      · exact setTable_same r rfl rfl

theorem battleOnline_same (s : Scene K) (p : Nat) (b : Bool) : Same s (battleOnline s p b).1 := by
  unfold battleOnline
  split
  · exact .refl s
  · exact setTable_same _ rfl rfl

/-- A player that is kicked leaves the queues or waits to leave. -/
theorem kickPlayer_live [FloorRing K] (hs : s.Live) (p : Nat) :
    (kickPlayer s p).1.Live ∧ (s.Large → (kickPlayer s p).1.Large) := by
  have hsound : ∀ ps qs rs w, ({ s with
      pendingEnters := ps
      pendingLeaves := qs
      pendingRebirth := rs
      leftWeights := w } : Scene K).Sound := fun _ _ _ _ =>
    ⟨hs.sound.table, hs.sound.owner, hs.sound.cell_le, hs.sound.spore_le⟩
  have hnew : ∀ q r, s.pendingEnters.get q = some r → ∀ ps qs rs w,
      s.players.get q = none ∧ ({ s with
        pendingEnters := ps
        pendingLeaves := qs
        pendingRebirth := rs
        leftWeights := w } : Scene K).Newcomer q r := by
    intro q r hr ps qs rs w
    obtain ⟨hnone, hnew⟩ := hs.enters q r hr
    exact ⟨hnone, hnew.lt, hnew.table, hnew.cell⟩
  unfold kickPlayer
  split
  · refine ⟨⟨hsound _ _ _ _, hs.lt, hs.rebirth, hs.leaves, fun q r hq => ?_⟩, id⟩
    simp only [Table.get_erase] at hq
    split at hq
    · cases hq
    · exact hnew q r hq _ _ _ _
  · split
    · refine ⟨⟨hsound _ _ _ _, hs.lt, fun q r hq => ?_, fun q hq => ?_, fun q r hq =>
        hnew q r hq _ _ _ _⟩, id⟩
      · simp only [Table.get_erase] at hq
        split at hq
        · cases hq
        · exact hs.rebirth q r hq
      · simp only [Table.get_erase]
        split
        · rfl
        · rename_i hne
          exact hs.leaves q ((Finset.mem_insert.mp hq).resolve_left hne)
    · rename_i hnone
      split
      · exact ⟨hs, id⟩
      · split
        · exact ⟨hs, id⟩
        · refine ⟨⟨hsound _ _ _ _, hs.lt, hs.rebirth, fun q hq => ?_, fun q r hq =>
            hnew q r hq _ _ _ _⟩, id⟩
          rcases Finset.mem_insert.mp hq with rfl | hq
          · simpa using hnone
          · exact hs.leaves q hq

/-- A new player has a new table and a new cell. -/
theorem addPlayer_live (hs : s.Live) (info : Nat × Nat × (Fin 1001 × Fin 1001))
    (hnone : s.players.get info.1 = none) :
    (addPlayer s info).Live ∧ (s.Large → (addPlayer s info).Large) := by
  have htables : ∀ r, r < s.nextTable → (addPlayer s info).tables r = s.tables r := by
    intro r hr
    have hne : r ≠ s.nextTable := by omega
    simp [addPlayer, newCell, hne]
  have hcells : ∀ c, c ≤ s.cellMaxid → (addPlayer s info).cells c = s.cells c := by
    intro c hc
    have hne : c ≠ s.cellMaxid + 1 := by omega
    simp [addPlayer, newCell, hne]
  have hplayers : (addPlayer s info).players = s.players := rfl
  have hsound : (addPlayer s info).Sound := by
    refine ⟨fun p r hr => ?_, fun p r c hr hc => ?_, fun p r c hr hc => ?_, hs.sound.spore_le⟩
    · rw [htables r (hs.lt p r hr)]
      exact hs.sound.table p r hr
    · rw [htables r (hs.lt p r hr)] at hc
      rw [hcells c (hs.sound.cell_le p r c hr hc)]
      exact hs.sound.owner p r c hr hc
    · rw [htables r (hs.lt p r hr)] at hc
      exact (hs.sound.cell_le p r c hr hc).trans (Nat.le_succ _)
  refine ⟨⟨hsound, fun p r hr => (hs.lt p r hr).trans (Nat.lt_succ_self _), hs.rebirth, hs.leaves,
    fun p r hr => ?_⟩, fun hlarge c hc => ?_⟩
  · have hr : (s.pendingEnters.set info.1 s.nextTable).get p = some r := hr
    rw [Table.get_set] at hr
    split at hr
    · rename_i h
      cases hr
      refine ⟨h ▸ hnone, Nat.lt_succ_self _, ?_, s.cellMaxid + 1, ?_, le_rfl, ?_, ?_⟩
      · simp [addPlayer, newCell, h]
      · simp [addPlayer, newCell]
      · simp [addPlayer, newCell, bornCell, h]
      · simp [addPlayer, newCell, bornCell]
    · obtain ⟨hnone', hnew⟩ := hs.enters p r hr
      obtain ⟨c, hc, hle, hown, hsize⟩ := hnew.cell
      refine ⟨hnone', hnew.lt.trans (Nat.lt_succ_self _), ?_, c, ?_, hle.trans (Nat.le_succ _), ?_,
        ?_⟩
      · rw [htables r hnew.lt]
        exact hnew.table
      · rw [htables r hnew.lt]
        exact hc
      · rw [hcells c hle]
        exact hown
      · rw [hcells c hle]
        exact hsize
  · obtain ⟨p, r, hr, hc⟩ := mem_alive.mp hc
    rw [htables r (hs.lt p r hr)] at hc
    rw [hcells c (hs.sound.cell_le p r c hr hc)]
    exact hlarge c (mem_alive_of hr hc)

theorem foldl_addPlayer_live (l : List (Nat × Nat × (Fin 1001 × Fin 1001))) (hs : s.Live)
    (hnone : ∀ i ∈ l, s.players.get i.1 = none) :
    (l.foldl addPlayer s).Live ∧ (s.Large → (l.foldl addPlayer s).Large) := by
  induction l generalizing s with
  | nil => exact ⟨hs, id⟩
  | cons i l ih =>
      obtain ⟨hlive, hlarge⟩ := addPlayer_live hs i (hnone i (by simp))
      obtain ⟨hlive', hlarge'⟩ := ih hlive fun j hj => hnone j (List.mem_cons_of_mem i hj)
      exact ⟨hlive', hlarge' ∘ hlarge⟩

theorem batchAddPlayer_live (hs : s.Live) (l : List (Nat × Nat × (Fin 1001 × Fin 1001))) :
    (batchAddPlayer s l).1.Live ∧ (s.Large → (batchAddPlayer s l).1.Large) := by
  unfold batchAddPlayer
  split
  · exact ⟨hs, id⟩
  · rename_i hany
    refine foldl_addPlayer_live l hs fun i hi => ?_
    by_contra hsome
    apply hany
    rw [List.any_eq_true]
    exact ⟨i, hi, by rw [Option.isSome_iff_ne_none.mpr hsome]; rfl⟩

variable [IsStrictOrderedRing K] [FloorRing K] [Sqrt K] [LawfulSqrt K]

theorem step_live (hs : s.Live) (e : Event K) :
    (step s e).Live ∧ (s.Large → (step s e).Large) := by
  cases e with
  | frame o d =>
      by_cases hstarted : s.gameStarted = true
      · obtain ⟨hlive, hlarge, -⟩ := update_mass o d hs hstarted
        exact ⟨hlive, hlarge⟩
      · have hsame : step s (.frame o d) = s := by simp [step, update, hstarted]
        rw [hsame]
        exact ⟨hs, id⟩
  | input o p m => exact ⟨(inputFrame_same o s p m).live hs, (inputFrame_same o s p m).large⟩
  | batchAdd infos => exact batchAddPlayer_live hs infos
  | kick p => exact kickPlayer_live hs p
  | online p b => exact ⟨(battleOnline_same s p b).live hs, (battleOnline_same s p b).large⟩
  | startGame =>
      exact ⟨⟨⟨hs.sound.table, hs.sound.owner, hs.sound.cell_le, hs.sound.spore_le⟩, hs.lt,
        hs.rebirth, hs.leaves, fun p r hr => ⟨(hs.enters p r hr).1, (hs.enters p r hr).2.lt,
          (hs.enters p r hr).2.table, (hs.enters p r hr).2.cell⟩⟩, id⟩

omit [Sqrt K] [LawfulSqrt K] in
theorem start_live : (start : Scene K).Live where
  sound := ⟨by rintro _ _ ⟨⟩, by rintro _ _ _ ⟨⟩, by rintro _ _ _ ⟨⟩, by rintro _ ⟨⟩⟩
  lt := by rintro _ _ ⟨⟩
  rebirth := by rintro _ _ ⟨⟩
  leaves := by rintro _ ⟨⟩
  enters := by rintro _ _ ⟨⟩

omit [Sqrt K] [LawfulSqrt K] in
theorem start_large : (start : Scene K).Large := by
  intro c hc
  obtain ⟨p, r, hr, -⟩ := mem_alive.mp hc
  cases hr

/-- What every sequence of events keeps. -/
theorem run_live (es : List (Event K)) :
    (run (start : Scene K) es).Live ∧ (run (start : Scene K) es).Large :=
  List.foldlRecOn (motive := fun s : Scene K => s.Live ∧ s.Large) es step
    ⟨start_live, start_large⟩ fun _ h e _ =>
      ⟨(step_live h.1 e).1, (step_live h.1 e).2 h.2⟩

end Events

/-! ## The mass of the scene -/

section Eaten

variable [FloorRing K] [Sqrt K]

omit [FloorRing K] in
theorem splitCells_event (a : Action K) (r : Nat) (l : List Nat) (s : Scene K) :
    (splitCells a r l s).1.event = s.event := by
  induction l generalizing s with
  | nil => rfl
  | cons c l ih =>
      unfold splitCells
      split
      · rfl
      · exact ih (splitCell a r s c)

omit [FloorRing K] in
theorem doSplit_event (o : Order) (site : Site) (s : Scene K) (r : Nat) (a : Action K) :
    (doSplit o site s r a).1.event = s.event := by
  unfold doSplit
  split
  · rfl
  · exact splitCells_event a r _ s

omit [FloorRing K] in
theorem spitSpore_event (o : Order) (site : Site) (s : Scene K) (r : Nat) (a : Action K) :
    (spitSpore o site s r a).1.event = s.event := by
  unfold spitSpore
  generalize sortBy id (o.pairs site (s.tables r).cells) = l
  induction l generalizing s with
  | nil => rfl
  | cons c l ih =>
      unfold spitCells
      split
      · exact ih (spitCell a r s c)
      · exact ih s

theorem eatSpore_event (o : Order) (s : Scene K) : (eatSpore o s).event = s.event := by
  refine List.foldlRecOn (motive := fun s₁ : Scene K => s₁.event = s.event) _ _ rfl fun s₁ h₁ c _ => ?_
  refine List.foldlRecOn (motive := fun s₂ : Scene K => s₂.event = s.event) _ _ h₁ fun s₂ h₂ i _ => ?_
  simp only [eatOneSpore]
  split <;> exact h₂

theorem eatPlayer_event (o : Order) (s : Scene K) : (eatPlayer o s).1.event = s.event := by
  have hcandidates : ∀ (es : List Candidate) (s₁ : Scene K),
      (eatCandidates es s₁).1.event = s₁.event := by
    intro es
    induction es with
    | nil => exact fun _ => rfl
    | cons e es ih =>
        intro s₁
        have he : (eatCandidate s₁ e).1.event = s₁.event := by
          unfold eatCandidate
          split
          · split <;> rfl
          · rfl
        exact (ih _).trans he
  refine (hcandidates _ _).trans ?_
  refine List.foldlRecOn (motive := fun s₁ : Scene K => s₁.event = s.event) _ _ rfl fun s₁ h₁ c _ => ?_
  unfold wearOff
  split <;> exact h₁

theorem mergeUpdate_event (o : Order) (s : Scene K) : (mergeUpdate o s).event = s.event := by
  refine List.foldlRecOn (motive := fun s₁ : Scene K => s₁.event = s.event) _ _ rfl fun s₁ h₁ r _ => ?_
  refine List.foldlRecOn (motive := fun s₂ : Scene K => s₂.event = s.event) _ _ ?_ fun s₂ h₂ ab _ => ?_
  · refine List.foldlRecOn (motive := fun s₂ : Scene K => s₂.event = s.event) _ _ h₁ fun s₂ h₂ c _ => ?_
    unfold tickMerge
    split <;> exact h₂
  · simp only [mergePair]
    split <;> exact h₂

omit [FloorRing K] [Sqrt K] in
/-- A phase that reports no food eaten keeps the mass. -/
theorem Conserves.mass_eq (h : Conserves s s') (hevent : s'.event = s.event) : s'.mass = s.mass := by
  have heaten : s'.eaten = s.eaten := congrArg (fun e : FrameEvent K => e.eatenFoodIds.length) hevent
  rw [h.mass, heaten, sub_self, add_zero]

omit [Sqrt K] in
/-- A phase that eats food adds the number of foods it removes. -/
theorem Conserves.mass_foods (h : Conserves s s') : s'.mass = s.mass + (s.foods.card - s'.foods.card) := by
  have hfoods : (s'.foods.card + s'.eaten : K) = s.foods.card + s.eaten := by exact_mod_cast h.foods
  rw [h.mass]
  linear_combination hfoods

end Eaten

/-- What changes the mass of the scene: food, rebirths and players that enter or leave. -/
theorem mass_conserved :
    (∀ s : Scene ℝ, s.Sound → ∀ o : Order,
      (∀ site p r a, s.players.get p = some r →
        (doSplit o site s r a).1.mass = s.mass ∧ (spitSpore o site s r a).1.mass = s.mass) ∧
      (eatSpore o s).mass = s.mass ∧ (eatPlayer o s).1.mass = s.mass ∧
      (mergeUpdate o s).mass = s.mass ∧
      (eatFood o s).mass = s.mass + (s.foods.card - (eatFood o s).foods.card)) ∧
    ∀ es : List (Event ℝ), (run start es).Sound ∧ (run start es).Large ∧
      ((run start es).gameStarted = true → ∀ o d,
        (update o d (run start es)).mass =
          (run start es).mass + (update o d (run start es)).eaten +
            (run start es).pendingRebirth.keys.card + (run start es).pendingEnters.keys.card -
            ∑ p ∈ (run start es).pendingLeaves, (run start es).weight p) := by
  constructor
  · intro s hs o
    refine ⟨fun site p r a hr => ⟨?_, ?_⟩, ?_, ?_, ?_, ?_⟩
    · exact (doSplit_conserves o site a hs hr).mass_eq (doSplit_event o site s r a)
    · exact (spitSpore_conserves o site a hs hr).mass_eq (spitSpore_event o site s r a)
    · exact (eatSpore_conserves o hs).mass_eq (eatSpore_event o s)
    · exact (eatPlayer_conserves o hs).mass_eq (eatPlayer_event o s)
    · exact (mergeUpdate_conserves o hs).mass_eq (mergeUpdate_event o s)
    · exact (eatFood_conserves o hs).mass_foods
  · intro es
    obtain ⟨hlive, hlarge⟩ := run_live es
    exact ⟨hlive.sound, hlarge, fun hstarted o d => (update_mass o d hlive hstarted).2.2⟩

/-- A scene with one player, who has one cell of size 4. -/
noncomputable def solo : Scene ℝ :=
  { start with
    players := Table.empty.set 7 0
    tables := fun _ => ⟨7, 1, false, {1}, 0, 0, false, 0, []⟩
    nextTable := 1
    cells := fun c => { (start : Scene ℝ).cells c with playerid := 7, size := 4.0 }
    cellMaxid := 1 }

theorem solo_sound : solo.Sound where
  table p r hr := by
    have hr : (Table.empty.set 7 0 : Table Nat).get p = some r := hr
    simp only [Table.get_set, Table.get_empty, Option.ite_none_right_eq_some] at hr
    exact hr.1.symm
  owner p r c hr _ := by
    have hr : (Table.empty.set 7 0 : Table Nat).get p = some r := hr
    simp only [Table.get_set, Table.get_empty, Option.ite_none_right_eq_some] at hr
    exact hr.1.symm
  cell_le p r c _ hc := (Finset.mem_singleton.mp hc).le
  spore_le := by rintro _ ⟨⟩

theorem mass_conserved_solo :
    (doSplit .ascending (.action 0 0) solo 0 (solo.inputAction 0 ⟨0, 0, true, 1, true, false⟩ .split)
        ).1.mass = solo.mass ∧
      (update .ascending ⟨fun _ => (0, 0), none⟩ (run start [.batchAdd [(7, 1, (3, 4))],
        .startGame])).mass =
        (run (start : Scene ℝ) [.batchAdd [(7, 1, (3, 4))], .startGame]).mass +
          (update .ascending ⟨fun _ => (0, 0), none⟩ (run (start : Scene ℝ)
            [.batchAdd [(7, 1, (3, 4))], .startGame])).eaten + (0 : Nat) + (1 : Nat) - 0 :=
  ⟨((mass_conserved.1 solo solo_sound .ascending).1 (.action 0 0) 7 0 _ rfl).1,
    ((mass_conserved.2 [.batchAdd [(7, 1, (3, 4))], .startGame]).2.2 rfl .ascending
      ⟨fun _ => (0, 0), none⟩).trans rfl⟩

end Scene

end BallServer.Ball
