import BallServer.Predict.Inputs

/-!
# When client and scene do the same

The two sides of an input are brought together: the loops run over the same bodies, so that
only the directions can differ, and the client differs where a cell finds the direction of
another cell under its key.

Main results:

- Theorem {lit}`predicted_spec`: the actions of the client, as a whole.
- Theorem {lit}`actions_agree_iff`: both do the same if the directions agree.
- Theorem {lit}`input_agrees_iff`: both do the same with an input if the keys agree.
-/

namespace BallServer.Ball

namespace Predict

open Scene (splitCells spitCells doSplit spitSpore serveActions serveInput)

variable {K : Type} [Field K] [LinearOrder K] [Sqrt K]

/-! ## The client -/

/-- The directions stored with an input have length one, and none is stored for a key that is
still free. -/
structure Stored (s : View K) (input : PendingInput K) : Prop where
  unit : ∀ key d, input.cellDirs key = some d → Unit d
  fresh : ∀ key, s.nextLocalStableKey ≤ key → input.cellDirs key = none

open Classical in
/-- What an input does to the client, once its cells are turned: {lit}`l` are the cells after
the split, without the children, and {lit}`u` is the state after it. -/
structure Predicted (input : PendingInput K) (s u : View K) (l : List (CellView K))
    (q : View K × List (CellView K) × List (SporeView K)) : Prop where
  owned : u.owned = l ++ q.2.1
  wf : u.Wf
  bodies : List.Forall₂ (fun v w => View.Keeps v w ∧ viewBody w =
    if v ∈ splits input viewBody s.owned then (viewBody v).half else viewBody v) s.owned l
  children : List.Forall₂ (fun w v =>
    viewBody w = (viewBody v).half.child (getActionDirForCell v input) ∧
      w.predictedParentStableKey = v.stableKey) q.2.1 (splits input viewBody s.owned)
  fresh : ∀ w ∈ q.2.1, s.nextLocalStableKey ≤ w.stableKey
  keeps : List.Forall₂ View.Keeps u.owned q.1.owned
  bodiesAfter : q.1.owned.map viewBody = u.owned.map fun v => (viewBody v).lighter input
  spores : List.Forall₂ (fun w v =>
    viewPlace w = (viewBody v).small.spore (getActionDirForCell v input) ∧
      w.predictedSourceStableKey = v.stableKey ∧ w.sourceCellId = v.cellId) q.2.2
        (spits input viewBody u.owned)

open Classical in
/-- The actions of the client, as a whole. -/
theorem predicted_spec {s : View K} (hs : s.Wf) (input : PendingInput K) :
    ∃ u l, Predicted input s u l (s.predictActions input) := by
  obtain ⟨l, howned, hwf, hbodies, hchildren, hfresh⟩ := split_spec hs input
  obtain ⟨hkeeps, hafter, hspores⟩ := spit_spec hwf input
  exact ⟨_, l, howned, hwf, hbodies, hchildren,
    hfresh, hkeeps, hafter, hspores⟩

/-! ## Directions -/

section Directions

variable [IsStrictOrderedRing K] [LawfulSqrt K]

theorem keyAgrees_iff {s : View K} {input : PendingInput K} (hstored : Stored s input)
    {v : CellView K} (hunit : Unit (v.lastDirX, v.lastDirY)) :
    KeyAgrees input v ↔ getActionDirForCell v input = aimDir input (viewBody v) := by
  rw [clientDir_eq_iff hunit fun d => hstored.unit v.stableKey d, KeyAgrees]
  apply or_congr_right
  cases input.cellDirs v.stableKey with
  | none => simp
  | some d => simp

/-- The directions the client takes have length one. -/
theorem clientDir_unit {s : View K} {input : PendingInput K} (hstored : Stored s input)
    {v : CellView K} (hunit : Unit (v.lastDirX, v.lastDirY)) :
    Unit (getActionDirForCell v input) := by
  rw [clientDir_eq hunit fun d => hstored.unit v.stableKey d]
  split_ifs with haim
  · exact towards_unit haim
  · cases hkey : input.cellDirs v.stableKey with
    | none => exact hunit
    | some d => exact hstored.unit _ d hkey

end Directions

/-! ## Both sides -/

section Both

variable [FloorRing K] [IsStrictOrderedRing K] [LawfulSqrt K]

theorem map_eq_of_forall₂ {α β γ : Type} {f : α → γ} {g : β → γ} {Q : α → β → Prop} {l : List α}
    {l' : List β} (h : List.Forall₂ (fun a b => f a = g b ∧ Q a b) l l') : l.map f = l'.map g := by
  rw [← List.forall₂_eq_eq_eq, List.forall₂_map_left_iff, List.forall₂_map_right_iff]
  exact h.imp fun _ _ h => h.1

open Classical in
omit [FloorRing K] [IsStrictOrderedRing K] [LawfulSqrt K] in
/-- Two lists with the same bodies have the same bodies after a split. -/
theorem halves_zip {α β : Type} (input : PendingInput K) {body : α → Body K}
    {body' : β → Body K} {l : List α} {l' : List β} (hl : l.Nodup) (hl' : l'.Nodup)
    (h : l.map body = l'.map body') :
    (l.map fun x => if x ∈ splits input body l then (body x).half else body x) =
      l'.map fun x => if x ∈ splits input body' l' then (body' x).half else body' x := by
  have hlen : l.length = l'.length := by simpa using congrArg List.length h
  obtain ⟨hfst, hsnd, hbody⟩ := zip_map h
  have hleft := splitList_map body (fun _ => (0, 0)) Prod.fst (room input l.length) (l.zip l')
  have hright := splitList_map body' (fun _ => (0, 0)) Prod.snd (room input l'.length) (l.zip l')
  rw [hfst] at hleft
  rw [hsnd, ← hlen] at hright
  unfold splits
  rw [← splitList_halves body (fun _ => (0, 0)) _ hl,
    ← splitList_halves body' (fun _ => (0, 0)) _ hl', hleft, ← hlen, hright]
  dsimp only
  rw [splitList_congr _ _ _ fun x hx => ⟨hbody x hx, rfl⟩]

open Classical in
omit [FloorRing K] [IsStrictOrderedRing K] [LawfulSqrt K] in
/-- The cells after a split correspond, apart from the children. -/
theorem old_agree {input : PendingInput K} {s w : View K} {t u : Scene K} {r : Nat}
    {l : List (CellView K)} {c : View K × List (CellView K) × List (SporeView K)}
    {q : Scene K × List Nat × List Nat} (hs : s.Wf) (hclient : Predicted input s w l c)
    (hserver : Served input t r u q) (h : Corresponds s t r) :
    l.map viewBody = (ids t r).map (bodyOf u) := by
  have hl : l.map viewBody = s.owned.map fun v =>
      if v ∈ splits input viewBody s.owned then (viewBody v).half else viewBody v := by
    exact (map_eq_of_forall₂ (hclient.bodies.imp fun _ _ h => ⟨h.2.symm, trivial⟩)).symm
  rw [hl, hserver.bodies, halves_zip input (View.owned_nodup hs).of_map (ids_nodup t r)
    (corresponds_iff.mp h)]
  apply List.map_congr_left
  intro c _
  congr

/-- A pair of a zip, after a step of the left list. -/
theorem zip_step {α β γ : Type} {R : α → β → Prop} {l : List α} {l' : List β} {m : List γ}
    (h : List.Forall₂ R l l') {x : α × γ} (hx : x ∈ l.zip m) :
    ∃ b, R x.1 b ∧ (b, x.2) ∈ l'.zip m := by
  induction h generalizing m with
  | nil => simp at hx
  | cons hab _ ih =>
      cases m with
      | nil => simp at hx
      | cons c m =>
          rw [List.zip_cons_cons, List.mem_cons] at hx
          rcases hx with rfl | hx
          · exact ⟨_, hab, by simp⟩
          · obtain ⟨b, hb, hmem⟩ := ih hx
            exact ⟨b, hb, List.mem_cons_of_mem _ hmem⟩

variable {input : PendingInput K} {s w : View K} {t u : Scene K} {r : Nat}
  {l : List (CellView K)} {c : View K × List (CellView K) × List (SporeView K)}
  {q : Scene K × List Nat × List Nat}

omit [FloorRing K] [IsStrictOrderedRing K] [LawfulSqrt K] in
/-- The new bodies, on both sides. -/
theorem children_agree (hclient : Predicted input s w l c) (hserver : Served input t r u q)
    {xs : List (CellView K × Nat)} (hfst : xs.map Prod.fst = splits input viewBody s.owned)
    (hsnd : xs.map Prod.snd = splits input (bodyOf t) (ids t r))
    (hbody : ∀ x ∈ xs, viewBody x.1 = bodyOf t x.2) :
    c.2.1.map viewBody =
        (xs.map fun x => (viewBody x.1).half.child (getActionDirForCell x.1 input)) ∧
      q.2.1.map (bodyOf u) =
        xs.map fun x => (viewBody x.1).half.child (aimDir input (viewBody x.1)) := by
  constructor
  · rw [map_eq_of_forall₂ hclient.children, ← hfst, List.map_map]
    rfl
  · rw [map_eq_of_forall₂ hserver.children, ← hsnd, List.map_map]
    apply List.map_congr_left
    intro x hx
    rw [hbody x hx]
    rfl

omit [FloorRing K] [IsStrictOrderedRing K] [LawfulSqrt K] in
/-- The new spores, on both sides. -/
theorem spores_agree (hclient : Predicted input s w l c) (hserver : Served input t r u q)
    {xs : List (CellView K × Nat)} (hfst : xs.map Prod.fst = spits input viewBody w.owned)
    (hsnd : xs.map Prod.snd = spits input (bodyOf u) (ids u r))
    (hbody : ∀ x ∈ xs, viewBody x.1 = bodyOf u x.2) :
    c.2.2.map viewPlace =
        (xs.map fun x => (viewBody x.1).small.spore (getActionDirForCell x.1 input)) ∧
      q.2.2.map (fun i => sporePlace (q.1.sporeTables i)) =
        xs.map fun x => (viewBody x.1).small.spore (aimDir input (viewBody x.1)) := by
  constructor
  · rw [map_eq_of_forall₂ hclient.spores, ← hfst, List.map_map]
    rfl
  · rw [map_eq_of_forall₂ hserver.spores, ← hsnd, List.map_map]
    apply List.map_congr_left
    intro x hx
    rw [hbody x hx]
    rfl

omit [FloorRing K] [IsStrictOrderedRing K] [LawfulSqrt K] in
/-- The cells correspond again if the directions of what is split agree. -/
theorem cells_agree_iff (hs : s.Wf) (hclient : Predicted input s w l c)
    (hserver : Served input t r u q) (h : Corresponds s t r) :
    Corresponds c.1 q.1 r ↔ ∀ v ∈ splits input viewBody s.owned,
      getActionDirForCell v input = aimDir input (viewBody v) := by
  obtain ⟨xs, hfst, hsnd, -, hbody⟩ := splits_zip input (corresponds_iff.mp h)
  obtain ⟨hch, hnew⟩ := children_agree hclient hserver hfst hsnd hbody
  have hold : l.map (fun v => (viewBody v).lighter input) =
      (ids t r).map fun c => (bodyOf u c).lighter input := by
    have := congrArg (List.map (Body.lighter input)) (old_agree hs hclient hserver h)
    rwa [List.map_map, List.map_map] at this
  rw [corresponds_iff, hclient.bodiesAfter, hserver.idsAfter, hserver.bodiesAfter,
    hclient.owned, hserver.ids, List.map_append, List.map_append, hold, List.append_cancel_left_eq,
    ← hfst]
  constructor
  · intro heq v hv
    obtain ⟨x, hx, rfl⟩ := List.mem_map.mp hv
    -- the direction of a child is the one in which it was thrown
    have hdirs := congrArg (List.map fun b : Body K => (b.dirX, b.dirY)) heq
    rw [List.map_map, List.map_map] at hdirs
    have hleft : c.2.1.map ((fun b : Body K => (b.dirX, b.dirY)) ∘
        fun v => (viewBody v).lighter input) =
        xs.map fun x => getActionDirForCell x.1 input := by
      have := congrArg (List.map fun b : Body K => (b.dirX, b.dirY)) hch
      rw [List.map_map, List.map_map] at this
      refine Eq.trans (List.map_congr_left fun v _ => ?_) this
      exact Prod.ext (lighter_dir input (viewBody v)).1 (lighter_dir input (viewBody v)).2
    have hright : q.2.1.map ((fun b : Body K => (b.dirX, b.dirY)) ∘
        fun d => (bodyOf u d).lighter input) =
        xs.map fun x => aimDir input (viewBody x.1) := by
      have := congrArg (List.map fun b : Body K => (b.dirX, b.dirY)) hnew
      rw [List.map_map, List.map_map] at this
      refine Eq.trans (List.map_congr_left fun d _ => ?_) this
      exact Prod.ext (lighter_dir input (bodyOf u d)).1 (lighter_dir input (bodyOf u d)).2
    rw [hleft, hright] at hdirs
    exact List.map_inj_left.mp hdirs x hx
  · intro hdirs
    have heq : c.2.1.map viewBody = q.2.1.map (bodyOf u) := by
      rw [hch, hnew]
      apply List.map_congr_left
      intro x hx
      rw [hdirs x.1 (List.mem_map_of_mem hx)]
    have := congrArg (List.map (Body.lighter input)) heq
    rwa [List.map_map, List.map_map] at this

omit [FloorRing K] [LawfulSqrt K] in
/-- The spores are the same if the directions of what spits agree. -/
theorem spores_agree_iff (hclient : Predicted input s w l c) (hserver : Served input t r u q)
    (hmid : w.owned.map viewBody = (ids u r).map (bodyOf u)) :
    List.Forall₂ (fun x i => SameSpore x (q.1.sporeTables i) ∧
      ∃ y ∈ c.1.owned.zip (ids q.1 r), x.sourceCellId = y.1.cellId ∧
        x.predictedSourceStableKey = y.1.stableKey ∧ (q.1.sporeTables i).sourceCellId = y.2)
        c.2.2 q.2.2 ↔
      ∀ v ∈ spits input viewBody w.owned,
        getActionDirForCell v input = aimDir input (viewBody v) := by
  obtain ⟨xs, hfst, hsnd, hzip, hbody⟩ := spits_zip input hmid
  obtain ⟨hclientSpores, hserverSpores⟩ := spores_agree hclient hserver hfst hsnd hbody
  rw [← hfst]
  constructor
  · intro hspores v hv
    obtain ⟨x, hx, rfl⟩ := List.mem_map.mp hv
    have hplaces : c.2.2.map viewPlace = q.2.2.map fun i => sporePlace (q.1.sporeTables i) :=
      map_eq_of_forall₂ (hspores.imp fun _ _ h => ⟨sameSpore_iff.mp h.1, trivial⟩)
    rw [hclientSpores, hserverSpores] at hplaces
    exact spore_inj (List.map_inj_left.mp hplaces x hx)
  · intro hdirs
    have hspores := hclient.spores
    have hspores' := hserver.spores
    rw [← hfst] at hspores
    rw [← hsnd] at hspores'
    refine (forall₂_join hspores hspores').imp ?_
    rintro x i ⟨y, hy, ⟨hplace, hkey, hid⟩, hplace', hid'⟩
    constructor
    · rw [sameSpore_iff, hplace, hplace', hdirs y.1 (List.mem_map_of_mem hy), hbody y hy]
    · obtain ⟨v, hv, hmem⟩ := zip_step hclient.keeps (hzip y hy)
      rw [hserver.idsAfter]
      exact ⟨(v, y.2), hmem, hid.trans hv.cellId.symm, hkey.trans hv.stableKey.symm, hid'⟩

omit [FloorRing K] [LawfulSqrt K] in
/-- Both do the same if the directions agree. -/
theorem actions_agree_iff (hs : s.Wf) (hclient : Predicted input s w l c)
    (hserver : Served input t r u q) (h : Corresponds s t r) :
    Agrees s t r c q ↔
      (∀ v ∈ splits input viewBody s.owned,
        getActionDirForCell v input = aimDir input (viewBody v)) ∧
      ∀ v ∈ spits input viewBody w.owned,
        getActionDirForCell v input = aimDir input (viewBody v) := by
  obtain ⟨xs, hfst, hsnd, hzip, hbody⟩ := splits_zip input (corresponds_iff.mp h)
  have hmid : (∀ v ∈ splits input viewBody s.owned,
      getActionDirForCell v input = aimDir input (viewBody v)) →
      w.owned.map viewBody = (ids u r).map (bodyOf u) := by
    intro hdirs
    obtain ⟨hch, hnew⟩ := children_agree hclient hserver hfst hsnd hbody
    rw [hclient.owned, hserver.ids, List.map_append, List.map_append,
      old_agree hs hclient hserver h, hch, hnew]
    congr 1
    apply List.map_congr_left
    intro x hx
    rw [hdirs x.1 (hfst ▸ List.mem_map_of_mem hx)]
  constructor
  · intro hagree
    have hdirs := (cells_agree_iff hs hclient hserver h).mp hagree.cells
    exact ⟨hdirs, (spores_agree_iff hclient hserver (hmid hdirs)).mp hagree.spores⟩
  · rintro ⟨hdirs, hspits⟩
    refine ⟨(cells_agree_iff hs hclient hserver h).mpr hdirs, ?_,
      (spores_agree_iff hclient hserver (hmid hdirs)).mpr hspits⟩
    have hchildren := hclient.children
    have hchildren' := hserver.children
    rw [← hfst] at hchildren
    rw [← hsnd] at hchildren'
    refine (forall₂_join hchildren hchildren').imp ?_
    rintro x d ⟨y, hy, ⟨-, hkey⟩, -, hparent⟩
    exact ⟨y, hzip y hy, hkey, (hserver.parents d).trans hparent⟩

/-! ## Keys -/

omit [Sqrt K] [FloorRing K] [IsStrictOrderedRing K] [LawfulSqrt K] in
/-- Cells with one key in one place and direction. -/
theorem keyAgrees_congr {v v' : CellView K} (hx : v'.renderX = v.renderX)
    (hy : v'.renderY = v.renderY) (hkey : v'.stableKey = v.stableKey)
    (hdx : v'.lastDirX = v.lastDirX) (hdy : v'.lastDirY = v.lastDirY) :
    KeyAgrees input v' ↔ KeyAgrees input v := by
  unfold KeyAgrees
  rw [hx, hy, hkey, hdx, hdy]

omit [FloorRing K] [IsStrictOrderedRing K] [LawfulSqrt K] in
/-- A cell after the split has the direction of the one it was. -/
theorem old_keyAgrees {v v' : CellView K} {P : Prop} [Decidable P] (hkeep : View.Keeps v v')
    (hbody : viewBody v' = if P then (viewBody v).half else viewBody v) :
    (KeyAgrees input v' ↔ KeyAgrees input v) ∧ v'.lastDirX = v.lastDirX ∧
      v'.lastDirY = v.lastDirY := by
  have hfields : v'.renderX = v.renderX ∧ v'.renderY = v.renderY ∧
      v'.lastDirX = v.lastDirX ∧ v'.lastDirY = v.lastDirY := by
    split_ifs at hbody
    all_goals
      exact ⟨congrArg Body.x hbody, congrArg Body.y hbody, congrArg Body.dirX hbody,
        congrArg Body.dirY hbody⟩
  obtain ⟨hx, hy, hdx, hdy⟩ := hfields
  exact ⟨keyAgrees_congr hx hy hkeep.stableKey hdx hdy, hdx, hdy⟩

open Classical in
omit [FloorRing K] in
/-- The directions agree if the keys do. -/
theorem keysAgree_iff (hclient : Predicted input s w l c) (hstored : Stored s input)
    (hunit : ∀ v ∈ s.owned, Unit (v.lastDirX, v.lastDirY)) :
    ((∀ v ∈ splits input viewBody s.owned,
        getActionDirForCell v input = aimDir input (viewBody v)) ∧
      ∀ v ∈ spits input viewBody w.owned,
        getActionDirForCell v input = aimDir input (viewBody v)) ↔ KeysAgree s input := by
  -- the cells after the split: the old ones, and children with free keys
  have hold : ∀ v' ∈ l, ∃ v ∈ s.owned, (KeyAgrees input v' ↔ KeyAgrees input v) ∧
      Unit (v'.lastDirX, v'.lastDirY) ∧ viewBody v' =
        if v ∈ splits input viewBody s.owned then (viewBody v).half else viewBody v := by
    intro v' hv'
    obtain ⟨v, hv, hkeep, hbody⟩ := forall₂_right hclient.bodies hv'
    obtain ⟨hkey, hdx, hdy⟩ := old_keyAgrees hkeep hbody
    exact ⟨v, hv, hkey, by rw [hdx, hdy]; exact hunit v hv, hbody⟩
  have hchild : ∀ v' ∈ c.2.1, KeyAgrees input v' ∧ Unit (v'.lastDirX, v'.lastDirY) := by
    intro v' hv'
    obtain ⟨v, hv, hbody, -⟩ := forall₂_right hclient.children.flip hv'
    constructor
    · right
      intro d hd
      rw [hstored.fresh _ (hclient.fresh v' hv')] at hd
      cases hd
    · have hdx := congrArg Body.dirX hbody
      have hdy := congrArg Body.dirY hbody
      have hv := mem_of_mem_splitters (mem_splits.mp hv).2
      have := clientDir_unit hstored (hunit v hv)
      unfold Unit at this ⊢
      rw [show v'.lastDirX = _ from hdx, show v'.lastDirY = _ from hdy]
      exact this
  have hmem : ∀ v ∈ s.owned, v ∉ splits input viewBody s.owned →
      ∃ v' ∈ l, (KeyAgrees input v' ↔ KeyAgrees input v) ∧ viewBody v' = viewBody v := by
    intro v hv hnot
    obtain ⟨v', hv', hkeep, hbody⟩ := forall₂_right hclient.bodies.flip hv
    exact ⟨v', hv', (old_keyAgrees hkeep hbody).1, by rw [hbody, if_neg hnot]⟩
  constructor
  · rintro ⟨hsplits, hspits⟩ v hv hacts
    by_cases hsplit : v ∈ splits input viewBody s.owned
    · exact (keyAgrees_iff hstored (hunit v hv)).mpr (hsplits v hsplit)
    · rcases hacts with hacts | ⟨hspit, hlarge⟩
      · exact absurd (mem_splits.mpr hacts) hsplit
      · obtain ⟨v', hv', hkey, hbody⟩ := hmem v hv hsplit
        obtain ⟨-, -, -, hunit', -⟩ := hold v' hv'
        apply hkey.mp
        apply (keyAgrees_iff hstored hunit').mpr
        apply hspits v'
        rw [mem_spits, hclient.owned, hbody]
        exact ⟨hspit, List.mem_append_left _ hv', hlarge⟩
  · intro hkeys
    constructor
    · intro v hv
      have hmem := mem_of_mem_splitters (mem_splits.mp hv).2
      exact (keyAgrees_iff hstored (hunit v hmem)).mp (hkeys v hmem (.inl (mem_splits.mp hv)))
    · intro v' hv'
      rw [mem_spits, hclient.owned, List.mem_append] at hv'
      obtain ⟨hspit, hv' | hv', hlarge⟩ := hv'
      · obtain ⟨v, hv, hkey, hunit', hbody⟩ := hold v' hv'
        apply (keyAgrees_iff hstored hunit').mp
        apply hkey.mpr
        apply hkeys v hv
        by_cases hsplit : v ∈ splits input viewBody s.owned
        · exact .inl (mem_splits.mp hsplit)
        · rw [if_neg hsplit] at hbody
          exact .inr ⟨hspit, hbody ▸ hlarge⟩
      · obtain ⟨hkey, hunit'⟩ := hchild v' hv'
        exact (keyAgrees_iff hstored hunit').mp hkey

/-! ## Turning first -/

omit [FloorRing K] [IsStrictOrderedRing K] [LawfulSqrt K] in
/-- The boosts of the old cells stay as they were. -/
theorem boosts_agree (hclient : Predicted input s w l c) (hserver : Served input t r u q)
    (hlen : s.owned.length = (ids t r).length) (h : Corresponds c.1 q.1 r) :
    s.owned.map (fun v => (v.boostVx, v.boostVy)) =
      (ids t r).map fun c => ((t.cells c).boostVx, (t.cells c).boostVy) := by
  have hlighter : ∀ b : Body K, ((b.lighter input).boostVx, (b.lighter input).boostVy) =
      (b.boostVx, b.boostVy) := by
    intro b
    unfold Body.lighter
    split_ifs <;> rfl
  rw [corresponds_iff, hclient.bodiesAfter, hserver.idsAfter, hserver.bodiesAfter] at h
  have hboosts := congrArg (List.map fun b : Body K => (b.boostVx, b.boostVy)) h
  rw [List.map_map, List.map_map, hclient.owned, hserver.ids, List.map_append,
    List.map_append] at hboosts
  have hl : l.length = (ids t r).length := hclient.bodies.length_eq.symm.trans hlen
  have hold := (List.append_inj hboosts (by simp [hl])).1
  have hleft : s.owned.map (fun v => (v.boostVx, v.boostVy)) =
      l.map ((fun b : Body K => (b.boostVx, b.boostVy)) ∘ fun v => (viewBody v).lighter input) := by
    apply map_eq_of_forall₂ (Q := fun _ _ => True)
    refine hclient.bodies.imp fun v v' hbody => ⟨?_, trivial⟩
    rw [Function.comp_apply, hlighter, hbody.2]
    split_ifs <;> rfl
  have hright : (ids t r).map ((fun b : Body K => (b.boostVx, b.boostVy)) ∘
      fun c => (bodyOf u c).lighter input) =
      (ids t r).map fun c => ((t.cells c).boostVx, (t.cells c).boostVy) := by
    apply List.map_congr_left
    intro c hc
    rw [Function.comp_apply, hlighter, List.map_inj_left.mp hserver.bodies c hc]
    split_ifs <;> rfl
  rw [hleft, hold, hright]

omit [Sqrt K] [FloorRing K] [IsStrictOrderedRing K] [LawfulSqrt K] in
/-- With the same boosts the cells correspond. -/
theorem corresponds_of_placed (h : Placed s t r)
    (hboosts : s.owned.map (fun v => (v.boostVx, v.boostVy)) =
      (ids t r).map fun c => ((t.cells c).boostVx, (t.cells c).boostVy)) :
    Corresponds s t r := by
  rw [← List.forall₂_eq_eq_eq, List.forall₂_map_left_iff, List.forall₂_map_right_iff] at hboosts
  refine (forall₂_and h hboosts).imp ?_
  rintro v c ⟨⟨hx, hy, hsize, hdx, hdy⟩, hboost⟩
  exact ⟨hx, hy, hsize, congrArg Prod.fst hboost, congrArg Prod.snd hboost, hdx, hdy⟩

omit [FloorRing K] [IsStrictOrderedRing K] [LawfulSqrt K] in
theorem turned_size (b : Body K) : (b.turned input).size = b.size := by
  unfold Body.turned
  split_ifs <;> rfl

omit [FloorRing K] in
theorem controlled_unit {v : CellView K} (h : Unit (v.lastDirX, v.lastDirY)) :
    Unit ((controlled input v).lastDirX, (controlled input v).lastDirY) := by
  have hbody := controlled_body input v
  unfold Body.turned at hbody
  split_ifs at hbody with haim
  · have hdx := congrArg Body.dirX hbody
    have hdy := congrArg Body.dirY hbody
    have := towards_unit haim
    unfold Unit at this ⊢
    rw [show (controlled input v).lastDirX = _ from hdx,
      show (controlled input v).lastDirY = _ from hdy]
    exact this
  · have hdx := congrArg Body.dirX hbody
    have hdy := congrArg Body.dirY hbody
    rw [show (controlled input v).lastDirX = _ from hdx,
      show (controlled input v).lastDirY = _ from hdy]
    exact h

omit [FloorRing K] [IsStrictOrderedRing K] [LawfulSqrt K] in
/-- Turning towards the target leaves it open whether the keys agree. -/
theorem controlled_keyAgrees (v : CellView K) :
    KeyAgrees input (controlled input v) ↔ KeyAgrees input v := by
  have hbody := controlled_body input v
  by_cases haim : Aims input v.renderX v.renderY
  · have hturned : viewBody (controlled input v) = { viewBody v with
        dirX := (towards input v.renderX v.renderY).1
        dirY := (towards input v.renderX v.renderY).2 } := by
      rw [hbody, Body.turned]
      exact if_pos haim
    have hx : (controlled input v).renderX = v.renderX := congrArg Body.x hturned
    have hy : (controlled input v).renderY = v.renderY := congrArg Body.y hturned
    refine ⟨fun _ => .inl haim, fun _ => .inl ?_⟩
    rw [hx, hy]
    exact haim
  · have hsame : viewBody (controlled input v) = viewBody v := by
      rw [hbody, Body.turned]
      exact if_neg haim
    exact keyAgrees_congr (congrArg Body.x hsame) (congrArg Body.y hsame)
      (controlled_keeps input v).stableKey (congrArg Body.dirX hsame) (congrArg Body.dirY hsame)

omit [FloorRing K] [IsStrictOrderedRing K] [LawfulSqrt K] in
/-- Turning first changes neither what acts nor the keys. -/
theorem applyControl_keysAgree (hs : s.Wf) :
    KeysAgree (s.applyControl input.targetX input.targetY input.moving) input ↔
      KeysAgree s input := by
  obtain ⟨howned, -⟩ := owned_applyControl hs input
  have hsplitters : ∀ n, splitters viewBody n (s.owned.map (controlled input)) =
      (splitters viewBody n s.owned).map (controlled input) := by
    intro n
    rw [splitters_map]
    congr 1
    apply splitters_congr
    intro v _
    exact (congrArg Body.size (controlled_body input v)).trans (turned_size _)
  have hspits : ∀ v, (viewBody (controlled input v)).Spits ↔ (viewBody v).Spits := by
    intro v
    unfold Body.Spits
    rw [controlled_body, turned_size]
  have hacts : ∀ v ∈ s.owned, Acts (s.applyControl input.targetX input.targetY input.moving)
      input (controlled input v) ↔ Acts s input v := by
    intro v hv
    unfold Acts
    rw [howned, List.length_map, hsplitters, hspits]
    refine or_congr (and_congr_right fun _ => ?_) Iff.rfl
    constructor
    · intro hmem
      obtain ⟨v', hv', heq⟩ := List.mem_map.mp hmem
      have hid : v'.cellId = v.cellId := by
        rw [← (controlled_keeps input v').cellId, heq, (controlled_keeps input v).cellId]
      rwa [← List.inj_on_of_nodup_map (View.owned_nodup hs) (mem_of_mem_splitters hv') hv hid]
    · exact List.mem_map_of_mem
  unfold KeysAgree
  rw [howned]
  constructor
  · intro h v hv hact
    exact (controlled_keyAgrees v).mp
      (h _ (List.mem_map_of_mem hv) ((hacts v hv).mpr hact))
  · intro h v' hv' hact
    obtain ⟨v, hv, rfl⟩ := List.mem_map.mp hv'
    exact (controlled_keyAgrees v).mpr (h v hv ((hacts v hv).mp hact))

omit [Sqrt K] [FloorRing K] [IsStrictOrderedRing K] [LawfulSqrt K] in
/-- Turning first leaves the parents of the children as they are. -/
theorem agrees_turned {s' : View K} {t' : Scene K}
    (hkeeps : List.Forall₂ View.Keeps s.owned s'.owned) (hids : ids t' r = ids t r) :
    Agrees s' t' r c q ↔ Agrees s t r c q := by
  have hpairs : ∀ (v : CellView K) (d : Nat),
      (∃ x ∈ s'.owned.zip (ids t r), v.predictedParentStableKey = x.1.stableKey ∧
        (q.1.cells d).parentId = some x.2) ↔
      ∃ x ∈ s.owned.zip (ids t r), v.predictedParentStableKey = x.1.stableKey ∧
        (q.1.cells d).parentId = some x.2 := by
    intro v d
    constructor
    · rintro ⟨x, hx, hkey, hparent⟩
      obtain ⟨b, hb, hmem⟩ := zip_step hkeeps.flip hx
      exact ⟨_, hmem, hkey.trans hb.stableKey, hparent⟩
    · rintro ⟨x, hx, hkey, hparent⟩
      obtain ⟨b, hb, hmem⟩ := zip_step hkeeps hx
      exact ⟨_, hmem, hkey.trans hb.stableKey.symm, hparent⟩
  constructor
  · rintro ⟨hcells, hchildren, hspores⟩
    rw [hids] at hchildren
    exact ⟨hcells, hchildren.imp fun v d h => (hpairs v d).mp h, hspores⟩
  · rintro ⟨hcells, hchildren, hspores⟩
    refine ⟨hcells, ?_, hspores⟩
    rw [hids]
    exact hchildren.imp fun v d h => (hpairs v d).mpr h

section Inputs

variable {p : Nat} (o : Order)

/-- An input on both sides, as a whole. -/
theorem input_sides (hs : s.Wf) (hle : ∀ c ∈ (t.tables r).cells, c ≤ t.cellMaxid)
    (hr : t.players.get p = some r) (hseq : (t.tables r).lastInputSeq < input.seq) :
    ∃ w l u, Predicted input (s.applyControl input.targetX input.targetY input.moving) w l
        (s.predictInput input) ∧
      Served input (t.inputFrame o p (PendingInput.message input)) r u
        (t.serveInput o p r (PendingInput.message input)) ∧
      ids (t.inputFrame o p (PendingInput.message input)) r = ids t r ∧
      ∀ c ∈ ids t r, bodyOf (t.inputFrame o p (PendingInput.message input)) c =
        (bodyOf t c).turned input := by
  obtain ⟨-, hwf⟩ := owned_applyControl hs input
  obtain ⟨hcells, hmax, -, hbodies, as, hpending, hasked⟩ := inputFrame_spec o hr hseq
  obtain ⟨w, l, hclient⟩ := predicted_spec hwf input
  obtain ⟨u, hserver⟩ := serveActions_spec o hasked (by rw [hcells, hmax]; exact hle)
  have hserve : t.serveInput o p r (PendingInput.message input) =
      serveActions o r 0 as (t.inputFrame o p (PendingInput.message input)) := by
    unfold serveInput
    dsimp only
    rw [hpending, List.drop_left]
  refine ⟨w, l, u, hclient, hserve ▸ hserver, ?_, fun c hc => hbodies c (mem_ids.mp hc)⟩
  unfold ids
  rw [hcells]

omit [FloorRing K] [IsStrictOrderedRing K] [LawfulSqrt K] in
/-- Corresponding cells are turned alike. -/
theorem corresponds_turned (hs : s.Wf) {t' : Scene K} (hids : ids t' r = ids t r)
    (hbodies : ∀ c ∈ ids t r, bodyOf t' c = (bodyOf t c).turned input)
    (h : Corresponds s t r) :
    Corresponds (s.applyControl input.targetX input.targetY input.moving) t' r := by
  have heq := congrArg (List.map (Body.turned input)) (corresponds_iff.mp h)
  rw [List.map_map, List.map_map] at heq
  rw [corresponds_iff, (owned_applyControl hs input).1, hids, List.map_map]
  refine (List.map_congr_left fun v _ => controlled_body input v).trans (heq.trans ?_)
  exact List.map_congr_left fun c hc => (hbodies c hc).symm

/-- If the cells correspond, both sides do the same if and only if the keys agree. -/
theorem agrees_iff_keysAgree (hs : s.Wf) (hle : ∀ c ∈ (t.tables r).cells, c ≤ t.cellMaxid)
    (hr : t.players.get p = some r) (hseq : (t.tables r).lastInputSeq < input.seq)
    (hunit : ∀ v ∈ s.owned, Unit (v.lastDirX, v.lastDirY)) (hstored : Stored s input)
    (h : Corresponds s t r) :
    Agrees s t r (s.predictInput input) (t.serveInput o p r (PendingInput.message input)) ↔
      KeysAgree s input := by
  obtain ⟨howned, hwf⟩ := owned_applyControl hs input
  obtain ⟨w, l, u, hclient, hserver, hids, hbodies⟩ := input_sides o hs hle hr hseq
  have hkeeps : List.Forall₂ View.Keeps s.owned
      (s.applyControl input.targetX input.targetY input.moving).owned := by
    rw [howned, List.forall₂_map_right_iff]
    exact List.forall₂_same.mpr fun v _ => controlled_keeps input v
  have hunit' : ∀ v ∈ (s.applyControl input.targetX input.targetY input.moving).owned,
      Unit (v.lastDirX, v.lastDirY) := by
    rw [howned]
    intro v' hv'
    obtain ⟨v, hv, rfl⟩ := List.mem_map.mp hv'
    exact controlled_unit (hunit v hv)
  have hstored' : Stored (s.applyControl input.targetX input.targetY input.moving) input := by
    refine ⟨hstored.unit, fun key hkey => hstored.fresh key ?_⟩
    unfold View.applyControl at hkey
    split_ifs at hkey <;> exact hkey
  rw [← agrees_turned hkeeps hids, ← applyControl_keysAgree hs,
    ← keysAgree_iff hclient hstored' hunit']
  exact actions_agree_iff hwf hclient hserver (corresponds_turned hs hids hbodies h)

/-- If both sides do the same, the boosts were the same. -/
theorem corresponds_of_agrees (hs : s.Wf) (hle : ∀ c ∈ (t.tables r).cells, c ≤ t.cellMaxid)
    (hr : t.players.get p = some r) (hseq : (t.tables r).lastInputSeq < input.seq)
    (hplaced : Placed s t r)
    (h : Agrees s t r (s.predictInput input) (t.serveInput o p r (PendingInput.message input))) :
    Corresponds s t r := by
  obtain ⟨howned, -⟩ := owned_applyControl hs input
  obtain ⟨w, l, u, hclient, hserver, hids, hbodies⟩ := input_sides o hs hle hr hseq
  have hturned : ∀ b : Body K, ((b.turned input).boostVx, (b.turned input).boostVy) =
      (b.boostVx, b.boostVy) := by
    intro b
    unfold Body.turned
    split_ifs <;> rfl
  have hlen : (s.applyControl input.targetX input.targetY input.moving).owned.length =
      (ids (t.inputFrame o p (PendingInput.message input)) r).length := by
    rw [hids, howned, List.length_map]
    exact hplaced.length_eq
  have hboosts := boosts_agree hclient hserver hlen h.cells
  rw [howned, hids, List.map_map] at hboosts
  apply corresponds_of_placed hplaced
  refine (List.map_congr_left fun v _ => ?_).trans (hboosts.trans ?_)
  · have hbody := controlled_body input v
    exact (hturned (viewBody v)).symm.trans
      (congrArg (fun b : Body K => (b.boostVx, b.boostVy)) hbody).symm
  · apply List.map_congr_left
    intro c hc
    exact (congrArg (fun b : Body K => (b.boostVx, b.boostVy)) (hbodies c hc)).trans
      (hturned (bodyOf t c))

/-- Client and scene do the same with an input if and only if the boosts were the same and
every cell that acts moves towards its target or finds its own direction under its key. -/
theorem input_agrees_iff (hs : s.Wf) (hle : ∀ c ∈ (t.tables r).cells, c ≤ t.cellMaxid)
    (hr : t.players.get p = some r) (hseq : (t.tables r).lastInputSeq < input.seq)
    (hunit : ∀ v ∈ s.owned, Unit (v.lastDirX, v.lastDirY)) (hstored : Stored s input)
    (hplaced : Placed s t r) :
    Agrees s t r (s.predictInput input) (t.serveInput o p r (PendingInput.message input)) ↔
      Corresponds s t r ∧ KeysAgree s input := by
  constructor
  · intro h
    have hcorresponds := corresponds_of_agrees o hs hle hr hseq hplaced h
    exact ⟨hcorresponds,
      (agrees_iff_keysAgree o hs hle hr hseq hunit hstored hcorresponds).mp h⟩
  · rintro ⟨hcorresponds, hkeys⟩
    exact (agrees_iff_keysAgree o hs hle hr hseq hunit hstored hcorresponds).mpr hkeys

end Inputs

omit [LinearOrder K] [Sqrt K] [FloorRing K] [IsStrictOrderedRing K] [LawfulSqrt K] in
/-- What {lit}`CapturePendingInputCellDirs` has stored may be used at once. -/
theorem captured_stored (hs : s.Wf) (hdirs : input.cellDirs = s.captureCellDirs)
    (hunit : ∀ v ∈ s.owned, Unit (v.lastDirX, v.lastDirY)) : Stored s input := by
  refine ⟨fun key d hd => ?_, fun key hkey => ?_⟩ <;> rw [hdirs] at *
  · by_cases hown : ∃ v ∈ s.owned, v.stableKey = key
    · obtain ⟨v, hv, rfl⟩ := hown
      obtain ⟨v', hv', -, hsome⟩ := captureCellDirs_some hv
      rw [hsome] at hd
      exact Option.some.inj hd ▸ hunit v' hv'
    · rw [captureCellDirs_none fun v hv heq => hown ⟨v, hv, heq⟩] at hd
      cases hd
  · refine captureCellDirs_none fun v hv heq => ?_
    have := hs.stableKey v (View.mem_owned.mp hv).1
    omega

end Both

/-! ## Two cells -/

/-- A cell of the client that looks in a direction. -/
noncomputable def looking (id key : Int) (x dirX dirY : ℝ) : CellView ℝ where
  cellId := id
  sortKey := id
  stableKey := key
  playerId := 7
  serverX := x
  serverY := 100
  renderX := x
  renderY := 100
  size := 3
  protectedTimerTicks := 0
  boostVx := 0
  boostVy := 0
  lastDirX := dirX
  lastDirY := dirY
  renderInitialized := true
  isPredicted := false
  predictedActionSeq := 0
  predictedParentStableKey := 0

/-- A client with two cells: one looks to the right, and one, with a key of its choice,
upwards. -/
noncomputable def pairView (key : Int) : View ℝ where
  myPlayerId := 7
  cells := [looking 1 1 100 1 0, looking 2 key 200 0 1]
  spores := []
  pendingInputs := []
  estimatedOneWayLatencySeconds := 0
  authoritativeTargetX := 0
  authoritativeTargetY := 0
  authoritativeMoving := false
  localTargetX := 0
  localTargetY := 0
  localMoving := false
  nextPredictedCellId := -1
  nextPredictedSporeId := -1
  nextLocalCellSortKey := 3
  nextLocalStableKey := 3

/-- The two cells at the server. -/
noncomputable def pairScene : Scene ℝ :=
  { Scene.start with
    players := Table.empty.set 7 0
    tables := fun _ => ⟨7, 1, true, {1, 2}, 0, 0, false, 0, []⟩
    nextTable := 1
    cells := fun c => { Scene.bornCell 7 (0, 0) with
      x := if c = 1 then 100 else 200
      y := 100
      size := 3
      lastDirX := if c = 1 then 1 else 0
      lastDirY := if c = 1 then 0 else 1 }
    cellMaxid := 2 }

/-- Both cells spit where they stand. -/
noncomputable def pairInput (key : Int) : PendingInput ℝ where
  seq := 1
  targetX := 0
  targetY := 0
  moving := false
  split := false
  spit := true
  sentAt := 0
  cellDirs := (pairView key).captureCellDirs

theorem pairView_owned (key : Int) :
    (pairView key).owned = [looking 1 1 100 1 0, looking 2 key 200 0 1] := by
  apply View.owned_eq
  · simp [pairView, looking]
  · exact List.Perm.refl _
  · simp [looking, View.sortsBefore]

theorem pairView_wf {key : Int} (hkey : key < 3) : (pairView key).Wf := by
  refine ⟨?_, ?_, ?_, ?_, ?_⟩ <;> simp [pairView, looking, hkey]

theorem pairView_unit (key : Int) :
    ∀ v ∈ (pairView key).owned, Unit (v.lastDirX, v.lastDirY) := by
  rw [pairView_owned]
  simp [looking, Unit, sqrMagnitude]

theorem pairScene_ids : ids pairScene 0 = [1, 2] := by
  have hperm : (ids pairScene 0).Perm [1, 2] := by
    refine (List.perm_ext_iff_of_nodup (ids_nodup _ _) (by decide)).mpr fun c => ?_
    rw [mem_ids]
    change c ∈ ({1, 2} : Finset Nat) ↔ c ∈ [1, 2]
    simp
  exact hperm.eq_of_pairwise (fun a b _ _ hab hba => Nat.le_antisymm hab hba)
    (ids_pairwise _ _) (by simp)

theorem pairScene_sound : pairScene.Sound where
  table p r hr := by
    have hr : (Table.empty.set 7 0 : Table Nat).get p = some r := hr
    simp only [Table.get_set, Table.get_empty, Option.ite_none_right_eq_some] at hr
    exact hr.1.symm
  owner p r c hr _ := by
    have hr : (Table.empty.set 7 0 : Table Nat).get p = some r := hr
    simp only [Table.get_set, Table.get_empty, Option.ite_none_right_eq_some] at hr
    exact hr.1.symm
  cell_le p r c _ hc := by
    have hc : c ∈ ({1, 2} : Finset Nat) := hc
    simp only [Finset.mem_insert, Finset.mem_singleton] at hc
    have : pairScene.cellMaxid = 2 := rfl
    omega
  spore_le := by rintro _ ⟨⟩

theorem pair_corresponds (key : Int) : Corresponds (pairView key) pairScene 0 := by
  unfold Corresponds
  rw [pairView_owned, pairScene_ids]
  refine .cons ?_ (.cons ?_ .nil) <;>
    constructor <;> simp [looking, pairScene, Scene.bornCell]

theorem pairInput_cellDirs (key : Int) : (pairInput key).cellDirs =
    Function.update (Function.update (fun _ : Int => (none : Option (ℝ × ℝ))) 1 (some (1, 0)))
      key (some (0, 1)) := by
  change (pairView key).captureCellDirs = _
  rw [View.captureCellDirs, pairView_owned]
  rfl

theorem pairScene_le : ∀ c ∈ (pairScene.tables 0).cells, c ≤ pairScene.cellMaxid :=
  fun c hc => pairScene_sound.cell_le 7 0 c rfl hc

/-- Two cells with different keys. -/
theorem input_agrees_pair :
    Agrees (pairView 2) pairScene 0 ((pairView 2).predictInput (pairInput 2))
      (pairScene.serveInput .ascending 7 0 (PendingInput.message (pairInput 2))) := by
  have hwf : (pairView 2).Wf := pairView_wf (by norm_num)
  have hplaced : Placed (pairView 2) pairScene 0 :=
    (pair_corresponds 2).imp fun v c h => ⟨h.x, h.y, h.size, h.dirX, h.dirY⟩
  refine (input_agrees_iff .ascending hwf pairScene_le rfl (by decide) (pairView_unit 2)
    (captured_stored hwf rfl (pairView_unit 2)) hplaced).mpr ⟨pair_corresponds 2, ?_⟩
  intro v hv _
  right
  intro d hd
  rw [pairInput_cellDirs] at hd
  rw [pairView_owned] at hv
  simp only [List.mem_cons, List.not_mem_nil, or_false] at hv
  rcases hv with rfl | rfl <;> simpa [looking, Function.update, eq_comm] using hd

/-- Of two cells with one key, one spits in the direction of the other. -/
theorem input_differs :
    ¬ ∀ (o : Order) (s : View ℝ) (t : Scene ℝ) (p r : Nat) (input : PendingInput ℝ), s.Wf →
      t.Sound → t.players.get p = some r → (t.tables r).lastInputSeq < input.seq →
        (∀ v ∈ s.owned, Unit (v.lastDirX, v.lastDirY)) → input.cellDirs = s.captureCellDirs →
          Corresponds s t r →
            Agrees s t r (s.predictInput input)
              (t.serveInput o p r (PendingInput.message input)) := by
  intro h
  have hwf : (pairView 1).Wf := pairView_wf (by norm_num)
  have hagrees := h .ascending (pairView 1) pairScene 7 0 (pairInput 1) hwf pairScene_sound rfl
    (by decide) (pairView_unit 1) rfl (pair_corresponds 1)
  have hkeys := (agrees_iff_keysAgree .ascending hwf pairScene_le rfl (by decide)
    (pairView_unit 1) (captured_stored hwf rfl (pairView_unit 1)) (pair_corresponds 1)).mp hagrees
  have hspits : (viewBody (looking 1 1 100 1 0)).Spits := by
    norm_num [Body.Spits, viewBody, looking]
  rcases hkeys (looking 1 1 100 1 0) (by simp [pairView_owned]) (.inr ⟨rfl, hspits⟩) with
    ⟨hmoving, -⟩ | hdirs
  · cases hmoving
  · have hother := hdirs (0, 1) (by simp [pairInput_cellDirs, looking])
    have : (0 : ℝ) = 1 := congrArg Prod.fst hother
    norm_num at this

end Predict

end BallServer.Ball
