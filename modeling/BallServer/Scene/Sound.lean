import BallServer.Scene.Frame

/-!
# Players and their cells

In a sound scene the tables of the players know their numbers, the cells of a player name
it as their owner, and numbers are given out in order.

Main results:

- Structure {lit}`Scene.Sound`.
- Theorems {lit}`alive_addCell`, {lit}`alive_dropCell` and {lit}`alive_enter`: the cells of
  all players after one of them has got or lost a cell or has come into the game.
- Theorems {lit}`doSplit_sound` and {lit}`spitCells_sound`: commands leave the scene sound.
-/

namespace BallServer.Ball

namespace Scene

variable {K : Type} [Field K] [LinearOrder K]

/-- The cells of all players. -/
def alive (s : Scene K) : Finset Nat :=
  s.players.keys.biUnion s.cellsOf

/-- Players know their numbers, cells know their owners, and no number is used twice. -/
structure Sound (s : Scene K) : Prop where
  table : ∀ p r, s.players.get p = some r → (s.tables r).playerid = p
  owner : ∀ p r c, s.players.get p = some r → c ∈ (s.tables r).cells → (s.cells c).playerid = p
  cell_le : ∀ p r c, s.players.get p = some r → c ∈ (s.tables r).cells → c ≤ s.cellMaxid
  spore_le : ∀ i ∈ s.spores, i ≤ s.sporeMaxid

variable {s s' : Scene K}

theorem mem_alive {c : Nat} :
    c ∈ s.alive ↔ ∃ p r, s.players.get p = some r ∧ c ∈ (s.tables r).cells := by
  simp only [alive, Finset.mem_biUnion, Table.mem_keys_iff, cellsOf]
  constructor
  · rintro ⟨p, ⟨r, hr⟩, hc⟩
    rw [hr] at hc
    exact ⟨p, r, hr, hc⟩
  · rintro ⟨p, r, hr, hc⟩
    refine ⟨p, ⟨r, hr⟩, ?_⟩
    rw [hr]
    exact hc

theorem mem_alive_of {p r c : Nat} (hr : s.players.get p = some r)
    (hc : c ∈ (s.tables r).cells) : c ∈ s.alive :=
  mem_alive.mpr ⟨p, r, hr, hc⟩

/-- Only the players and their tables matter. -/
theorem alive_congr (hp : s'.players = s.players)
    (ht : ∀ r, (s'.tables r).cells = (s.tables r).cells) : s'.alive = s.alive := by
  ext c
  simp only [mem_alive, hp, ht]

theorem Sound.alive_le (hs : s.Sound) {c : Nat} (hc : c ∈ s.alive) : c ≤ s.cellMaxid := by
  obtain ⟨p, r, hr, hc⟩ := mem_alive.mp hc
  exact hs.cell_le p r c hr hc

/-- A table belongs to one player. -/
theorem Sound.table_inj (hs : s.Sound) {p q r : Nat} (hp : s.players.get p = some r)
    (hq : s.players.get q = some r) : p = q :=
  (hs.table p r hp).symm.trans (hs.table q r hq)

theorem alive_addCell {p r : Nat} (hr : s.players.get p = some r) (c : Nat) :
    (s.addCell r c).alive = insert c s.alive := by
  ext d
  rw [Finset.mem_insert, mem_alive, mem_alive]
  constructor
  · rintro ⟨q, t, ht, hd⟩
    by_cases h : t = r
    · subst h
      simp only [addCell, setTable, Function.update_self, Finset.mem_insert] at hd
      exact hd.imp id fun hd => ⟨q, t, ht, hd⟩
    · simp only [addCell, setTable, Function.update_of_ne h] at hd
      exact .inr ⟨q, t, ht, hd⟩
  · rintro (rfl | ⟨q, t, ht, hd⟩)
    · exact ⟨p, r, hr, by simp [addCell, setTable]⟩
    · refine ⟨q, t, ht, ?_⟩
      by_cases h : t = r
      · subst h
        simp [addCell, setTable, hd]
      · simpa [addCell, setTable, Function.update_of_ne h] using hd

theorem alive_dropCell (hs : s.Sound) {p r c : Nat} (hr : s.players.get p = some r)
    (hc : c ∈ (s.tables r).cells) : (s.dropCell r c).alive = s.alive.erase c := by
  ext d
  rw [Finset.mem_erase, mem_alive, mem_alive]
  constructor
  · rintro ⟨q, t, ht, hd⟩
    by_cases h : t = r
    · subst h
      simp only [dropCell, setTable, Function.update_self, Finset.mem_erase] at hd
      exact ⟨hd.1, q, t, ht, hd.2⟩
    · simp only [dropCell, setTable, Function.update_of_ne h] at hd
      refine ⟨?_, q, t, ht, hd⟩
      -- a cell has one owner
      rintro rfl
      have hq := (hs.owner q t d ht hd).symm.trans (hs.owner p r d hr hc)
      subst hq
      exact h (Option.some.inj (ht.symm.trans hr))
  · rintro ⟨hne, q, t, ht, hd⟩
    refine ⟨q, t, ht, ?_⟩
    by_cases h : t = r
    · subst h
      simp [dropCell, setTable, hne, hd]
    · simpa [dropCell, setTable, Function.update_of_ne h] using hd

/-- A player comes into the game with one cell. -/
theorem alive_enter {p r c : Nat} (hnone : s.players.get p = none)
    (hc : (s.tables r).cells = {c}) :
    ({ s with players := s.players.set p r } : Scene K).alive = insert c s.alive := by
  ext d
  rw [Finset.mem_insert, mem_alive, mem_alive]
  constructor
  · rintro ⟨q, t, ht, hd⟩
    have hd : d ∈ (s.tables t).cells := hd
    have ht : (s.players.set p r).get q = some t := ht
    rw [Table.get_set] at ht
    split at ht
    · cases ht
      rw [hc, Finset.mem_singleton] at hd
      exact .inl hd
    · exact .inr ⟨q, t, ht, hd⟩
  · rintro (rfl | ⟨q, t, ht, hd⟩)
    · refine ⟨p, r, by simp, ?_⟩
      show d ∈ (s.tables r).cells
      rw [hc, Finset.mem_singleton]
    · have hq : q ≠ p := by
        rintro rfl
        rw [hnone] at ht
        cases ht
      exact ⟨q, t, by simp [hq, ht], hd⟩

/-- A change of cells that keeps their owners, of tables that keep their numbers and
lose cells at most. -/
theorem Sound.of_sub (hs : s.Sound) (hp : s'.players = s.players)
    (hid : ∀ r, (s'.tables r).playerid = (s.tables r).playerid)
    (hsub : ∀ r, (s'.tables r).cells ⊆ (s.tables r).cells)
    (hown : ∀ c ∈ s.alive, (s'.cells c).playerid = (s.cells c).playerid)
    (hc : s'.cellMaxid = s.cellMaxid) (hspores : ∀ i ∈ s'.spores, i ∈ s.spores)
    (hi : s'.sporeMaxid = s.sporeMaxid) : s'.Sound where
  table p r hr := by
    rw [hp] at hr
    rw [hid]
    exact hs.table p r hr
  owner p r c hr hc := by
    rw [hp] at hr
    have hc := hsub r hc
    rw [hown c (mem_alive_of hr hc)]
    exact hs.owner p r c hr hc
  cell_le p r c hr hcell := by
    rw [hp] at hr
    rw [hc]
    exact hs.cell_le p r c hr (hsub r hcell)
  spore_le i h := by
    rw [hi]
    exact hs.spore_le i (hspores i h)

/-- A new cell of a player. -/
theorem Sound.grow (hs : s.Sound) {p r : Nat} (hr : s.players.get p = some r)
    (hp : s'.players = s.players) (hid : ∀ t, (s'.tables t).playerid = (s.tables t).playerid)
    (hcells : ∀ t, (s'.tables t).cells =
      if t = r then insert (s.cellMaxid + 1) (s.tables t).cells else (s.tables t).cells)
    (hown : ∀ c ∈ s.alive, (s'.cells c).playerid = (s.cells c).playerid)
    (hnew : (s'.cells (s.cellMaxid + 1)).playerid = p) (hmax : s'.cellMaxid = s.cellMaxid + 1)
    (hspores : s'.spores = s.spores) (hi : s'.sporeMaxid = s.sporeMaxid) : s'.Sound := by
  have hcase : ∀ q t c, s.players.get q = some t → c ∈ (s'.tables t).cells →
      (c = s.cellMaxid + 1 ∧ q = p) ∨ c ∈ (s.tables t).cells := by
    intro q t c ht hc
    rw [hcells] at hc
    split at hc
    · subst t
      rcases Finset.mem_insert.mp hc with hc | hc
      · exact .inl ⟨hc, hs.table_inj ht hr⟩
      · exact .inr hc
    · exact .inr hc
  constructor
  · intro q t ht
    rw [hp] at ht
    rw [hid]
    exact hs.table q t ht
  · intro q t c ht hc
    rw [hp] at ht
    rcases hcase q t c ht hc with ⟨rfl, rfl⟩ | hc
    · exact hnew
    · rw [hown c (mem_alive_of ht hc)]
      exact hs.owner q t c ht hc
  · intro q t c ht hc
    rw [hp] at ht
    rw [hmax]
    rcases hcase q t c ht hc with ⟨rfl, -⟩ | hc
    · exact le_rfl
    · exact (hs.cell_le q t c ht hc).trans (Nat.le_succ _)
  · intro i h
    rw [hi]
    exact hs.spore_le i (hspores ▸ h)

/-- The number of the next cell is not in use. -/
theorem Sound.fresh (hs : s.Sound) : s.cellMaxid + 1 ∉ s.alive := by
  intro h
  have := hs.alive_le h
  omega

/-! ## Splitting and spitting -/

section Commands

variable [Sqrt K]

theorem splitCell_sound (a : Action K) {p r : Nat} (hs : s.Sound) (hr : s.players.get p = some r)
    (c : Nat) : (splitCell a r s c).Sound := by
  refine hs.grow hr rfl (fun t => ?_) (fun t => ?_) (fun d hd => ?_) ?_ rfl rfl rfl
  · by_cases h : t = r
    · subst h
      simp [splitCell, addCell, setTable, newCell, setCell]
    · simp [splitCell, addCell, setTable, newCell, setCell, h]
  · by_cases h : t = r
    · subst h
      simp [splitCell, addCell, setTable, newCell, setCell]
    · simp [splitCell, addCell, setTable, newCell, setCell, h]
  · have hne : d ≠ s.cellMaxid + 1 := fun h => hs.fresh (h ▸ hd)
    by_cases hdc : d = c
    · subst hdc
      simp [splitCell, addCell, setTable, newCell, setCell, hne]
    · simp [splitCell, addCell, setTable, newCell, setCell, hne, hdc]
  · simpa [splitCell, addCell, setTable, newCell, setCell] using hs.table p r hr

theorem splitCells_sound (a : Action K) {p r : Nat} (l : List Nat) (hs : s.Sound)
    (hr : s.players.get p = some r) :
    (splitCells a r l s).1.Sound ∧ (splitCells a r l s).1.players = s.players := by
  induction l generalizing s with
  | nil => exact ⟨hs, rfl⟩
  | cons c l ih =>
      unfold splitCells
      split
      · exact ⟨hs, rfl⟩
      · exact ih (splitCell_sound a hs hr c) hr

theorem doSplit_sound (o : Order) (site : Site) (a : Action K) {p r : Nat} (hs : s.Sound)
    (hr : s.players.get p = some r) :
    (doSplit o site s r a).1.Sound ∧ (doSplit o site s r a).1.players = s.players := by
  unfold doSplit
  split
  · exact ⟨hs, rfl⟩
  · exact splitCells_sound a _ hs hr

theorem spitCell_sound (a : Action K) (r c : Nat) (hs : s.Sound) : (spitCell a r s c).Sound := by
  have hown : ∀ d, ((spitCell a r s c).cells d).playerid = (s.cells d).playerid := by
    intro d
    by_cases hdc : d = c
    · subst hdc
      simp [spitCell, newSpore, setCell]
    · simp [spitCell, newSpore, setCell, hdc]
  refine ⟨hs.table, fun p t d ht hd => (hown d).trans (hs.owner p t d ht hd), hs.cell_le,
    fun i hi => ?_⟩
  rcases Finset.mem_insert.mp hi with rfl | hi
  · exact le_rfl
  · exact (hs.spore_le i hi).trans (Nat.le_succ _)

theorem spitCells_sound (a : Action K) (r : Nat) (l : List Nat) (hs : s.Sound) :
    (spitCells a r l s).1.Sound ∧ (spitCells a r l s).1.players = s.players := by
  induction l generalizing s with
  | nil => exact ⟨hs, rfl⟩
  | cons c l ih =>
      unfold spitCells
      split
      · exact ih (spitCell_sound a r c hs)
      · exact ih hs

end Commands

/-! ## Lists of players and cells -/

theorem mem_sortedPlayers {o : Order} {site : Site} {r : Nat} :
    r ∈ s.sortedPlayers o site ↔ ∃ p, s.players.get p = some r := by
  simp only [sortedPlayers, mem_sortBy, List.mem_filterMap, o.mem_pairs]
  constructor
  · rintro ⟨p, -, hr⟩
    exact ⟨p, hr⟩
  · rintro ⟨p, hr⟩
    exact ⟨p, Table.mem_keys_iff.mpr ⟨r, hr⟩, hr⟩

theorem mem_sortedCells {o : Order} {site : Site} {sites : Nat → Site} {c : Nat} :
    c ∈ s.sortedCells o site sites ↔ c ∈ s.alive := by
  simp only [sortedCells, mem_sortBy, List.mem_flatMap, o.mem_pairs, alive, Finset.mem_biUnion]

end Scene

end BallServer.Ball
