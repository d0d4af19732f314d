import BallServer.Predict.Owned
import BallServer.Predict.Motion
import BallServer.Scene.Bodies

/-!
# Splitting and spitting on both sides

The client and the scene go through the same list of bodies; they could only differ in the
directions.  Both loops are compared with one over bodies and directions.

Main results:

- Definitions {lit}`splitList` and {lit}`spitList`: the loops over bodies.
- Theorems {lit}`splitViews_spec` and {lit}`spitViews_spec`: what the client does.
- Theorems {lit}`splitCells_bodies` and {lit}`spitCells_places`: what the scene does.
- Theorem {lit}`spore_inj`: a spore shows the direction in which it was thrown.
-/

namespace BallServer.Ball

namespace Predict

open Scene (splitCells spitCells splitCell spitCell getCellActionDir)

variable {K : Type} [Field K] [LinearOrder K]

/-! ## Bodies -/

/-- Position, size, boost and direction of a cell. -/
structure Body (K : Type) where
  x : K
  y : K
  size : K
  boostVx : K
  boostVy : K
  dirX : K
  dirY : K

def viewBody (v : CellView K) : Body K :=
  ⟨v.renderX, v.renderY, v.size, v.boostVx, v.boostVy, v.lastDirX, v.lastDirY⟩

def cellBody (c : Cell K) : Body K :=
  ⟨c.x, c.y, c.size, c.boostVx, c.boostVy, c.lastDirX, c.lastDirY⟩

omit [Field K] [LinearOrder K] in
theorem same_iff {v : CellView K} {c : Cell K} : Same v c ↔ viewBody v = cellBody c := by
  constructor
  · intro h
    simp only [viewBody, cellBody, h.x, h.y, h.size, h.boostX, h.boostY, h.dirX, h.dirY]
  · intro h
    simp only [viewBody, cellBody, Body.mk.injEq] at h
    obtain ⟨hx, hy, hsize, hbx, hby, hdx, hdy⟩ := h
    exact ⟨hx, hy, hsize, hbx, hby, hdx, hdy⟩

/-- Place and velocity of a spore. -/
abbrev Place (K : Type) := K × K × K × K

def viewPlace (w : SporeView K) : Place K := (w.x, w.y, w.vx, w.vy)

def sporePlace (o : Spore K) : Place K := (o.x, o.y, o.vx, o.vy)

omit [Field K] [LinearOrder K] in
theorem sameSpore_iff {w : SporeView K} {o : Spore K} :
    SameSpore w o ↔ viewPlace w = sporePlace o := by
  constructor
  · intro h
    simp only [viewPlace, sporePlace, h.x, h.y, h.vx, h.vy]
  · intro h
    simp only [viewPlace, sporePlace, Prod.mk.injEq] at h
    exact ⟨h.1, h.2.1, h.2.2.1, h.2.2.2⟩

/-! ## The loops over bodies -/

section Lists

variable [Sqrt K] {α β : Type}

/-- A body of half the mass. -/
def Body.half (b : Body K) : Body K :=
  { b with size := sqrt (b.size * b.size * (1 / 2)) }

/-- The child of a body, thrown in a direction. -/
def Body.child (b : Body K) (d : K × K) : Body K :=
  { b with
    boostVx := 10 * d.1
    boostVy := 10 * d.2
    dirX := d.1
    dirY := d.2 }

/-- A body without the mass of a spore. -/
def Body.small (b : Body K) : Body K :=
  { b with size := sqrt (b.size * b.size - 1 * 1) }

/-- The spore of a body, thrown in a direction. -/
def Body.spore (b : Body K) (d : K × K) : Place K :=
  (b.x + d.1 * b.size, b.y + d.2 * b.size, 15 * d.1, 15 * d.2)

variable (body : α → Body K) (dir : α → K × K)

/-- Split bodies as long as there is room: the bodies, and the children with what they come
from. -/
def splitList : Nat → List α → List (Body K) × List (α × Body K)
  | _, [] => ([], [])
  | room, x :: xs =>
      if (body x).size < 4 ∨ room = 0 then
        (body x :: (splitList room xs).1, (splitList room xs).2)
      else
        ((body x).half :: (splitList (room - 1) xs).1,
          (x, (body x).half.child (dir x)) :: (splitList (room - 1) xs).2)

/-- What is split. -/
def splitters (room : Nat) (l : List α) : List α :=
  (l.filter fun x => decide (4 ≤ (body x).size)).take room

/-- A body is large enough to spit. -/
def Body.Spits (b : Body K) : Prop :=
  ¬ (b.size < 3 ∨ b.size * b.size ≤ 1 * 1)

instance (b : Body K) : Decidable b.Spits :=
  inferInstanceAs (Decidable (¬ _))

/-- Let bodies spit: the bodies, and the spores with what they come from. -/
def spitList : List α → List (Body K) × List (α × Place K)
  | [] => ([], [])
  | x :: xs =>
      if (body x).Spits then
        ((body x).small :: (spitList xs).1,
          (x, (body x).small.spore (dir x)) :: (spitList xs).2)
      else (body x :: (spitList xs).1, (spitList xs).2)

/-- What spits. -/
def spitters (l : List α) : List α :=
  l.filter fun x => decide (body x).Spits

theorem splitList_full (l : List α) : splitList body dir 0 l = (l.map body, []) := by
  induction l with
  | nil => rfl
  | cons x l ih => rw [splitList, if_pos (.inr rfl), ih, List.map_cons]

theorem splitList_map (f : β → α) (room : Nat) (l : List β) :
    splitList body dir room (l.map f) =
      ((splitList (fun y => body (f y)) (fun y => dir (f y)) room l).1,
        (splitList (fun y => body (f y)) (fun y => dir (f y)) room l).2.map
          fun x => (f x.1, x.2)) := by
  induction l generalizing room with
  | nil => rfl
  | cons x l ih =>
      simp only [List.map_cons, splitList, ih]
      split_ifs <;> rfl

theorem splitList_congr {body' : α → Body K} {dir' : α → K × K} (room : Nat) {l : List α}
    (h : ∀ x ∈ l, body x = body' x ∧ dir x = dir' x) :
    splitList body dir room l = splitList body' dir' room l := by
  induction l generalizing room with
  | nil => rfl
  | cons x l ih =>
      obtain ⟨hbody, hdir⟩ := h x List.mem_cons_self
      have htail := fun room => ih room fun y hy => h y (List.mem_cons_of_mem _ hy)
      rw [splitList, splitList, hbody, hdir, htail, htail]

theorem spitList_congr {body' : α → Body K} {dir' : α → K × K} {l : List α}
    (h : ∀ x ∈ l, body x = body' x ∧ dir x = dir' x) :
    spitList body dir l = spitList body' dir' l := by
  induction l with
  | nil => rfl
  | cons x l ih =>
      obtain ⟨hbody, hdir⟩ := h x List.mem_cons_self
      rw [spitList, spitList, hbody, hdir, ih fun y hy => h y (List.mem_cons_of_mem _ hy)]

/-- The children come from what is split. -/
theorem splitList_from (room : Nat) (l : List α) :
    (splitList body dir room l).2 =
      (splitters body room l).map fun x => (x, (body x).half.child (dir x)) := by
  induction l generalizing room with
  | nil => simp [splitList, splitters]
  | cons x l ih =>
      rw [splitList]
      by_cases hlarge : (body x).size < 4
      · rw [if_pos (.inl hlarge), ih, splitters, splitters,
          List.filter_cons_of_neg (by simpa using hlarge)]
      · by_cases hroom : room = 0
        · subst hroom
          rw [if_pos (.inr rfl), splitList_full]
          simp [splitters]
        · obtain ⟨n, rfl⟩ := Nat.exists_eq_succ_of_ne_zero hroom
          rw [if_neg (by simp [hlarge]), Nat.succ_sub_one, ih, splitters, splitters,
            List.filter_cons_of_pos (by simpa using hlarge)]
          rfl

/-- What is split is halved. -/
theorem splitList_halves (room : Nat) {l : List α} (hl : l.Nodup) [DecidableEq α] :
    (splitList body dir room l).1 =
      l.map fun x => if x ∈ splitters body room l then (body x).half else body x := by
  induction l generalizing room with
  | nil => rfl
  | cons x l ih =>
      obtain ⟨hx, hl⟩ := List.nodup_cons.mp hl
      have hsub : ∀ room, x ∉ splitters body room l := fun room h =>
        hx (List.mem_of_mem_filter (List.mem_of_mem_take h))
      have hne : ∀ y ∈ l, y ≠ x := by
        rintro y hy rfl
        exact hx hy
      rw [splitList, List.map_cons]
      by_cases hlarge : (body x).size < 4
      · have hskip : splitters body room (x :: l) = splitters body room l := by
          rw [splitters, splitters, List.filter_cons_of_neg (by simpa using hlarge)]
        rw [if_pos (.inl hlarge), ih room hl, hskip, if_neg (hsub room)]
      · by_cases hroom : room = 0
        · subst hroom
          rw [if_pos (.inr rfl), splitList_full]
          simp [splitters]
        · obtain ⟨n, rfl⟩ := Nat.exists_eq_succ_of_ne_zero hroom
          have htake : splitters body (n + 1) (x :: l) = x :: splitters body n l := by
            rw [splitters, splitters, List.filter_cons_of_pos (by simpa using hlarge)]
            rfl
          rw [if_neg (by simp [hlarge]), Nat.succ_sub_one, ih n hl, Nat.succ_eq_add_one, htake,
            if_pos List.mem_cons_self]
          refine congrArg (_ :: ·) (List.map_congr_left fun y hy => ?_)
          simp only [List.mem_cons, hne y hy, false_or]

omit [Sqrt K] in
theorem splitters_map (f : β → α) (room : Nat) (l : List β) :
    splitters body room (l.map f) = (splitters (fun y => body (f y)) room l).map f := by
  rw [splitters, splitters, List.filter_map, List.map_take]
  rfl

omit [Sqrt K] in
/-- What is split depends on the sizes alone. -/
theorem splitters_congr {body' : α → Body K} (room : Nat) {l : List α}
    (h : ∀ x ∈ l, (body x).size = (body' x).size) :
    splitters body room l = splitters body' room l := by
  rw [splitters, splitters]
  congr 1
  apply List.filter_congr
  intro x hx
  rw [h x hx]

omit [Sqrt K] in
theorem spitters_map (f : β → α) (l : List β) :
    spitters body (l.map f) = (spitters (fun y => body (f y)) l).map f := by
  unfold spitters
  rw [List.filter_map]
  rfl

omit [Sqrt K] in
/-- What spits depends on the sizes alone. -/
theorem spitters_congr {body' : α → Body K} {l : List α}
    (h : ∀ x ∈ l, (body x).size = (body' x).size) : spitters body l = spitters body' l := by
  unfold spitters
  apply List.filter_congr
  intro x hx
  rw [decide_eq_decide, Body.Spits, Body.Spits, h x hx]

theorem spitList_from (l : List α) :
    (spitList body dir l).2 =
      (spitters body l).map fun x => (x, (body x).small.spore (dir x)) := by
  induction l with
  | nil => rfl
  | cons x l ih =>
      rw [spitList, spitters]
      by_cases hspits : (body x).Spits
      · rw [if_pos hspits, List.filter_cons_of_pos (by simpa using hspits), ih]
        rfl
      · rw [if_neg hspits, List.filter_cons_of_neg (by simpa using hspits), ih]
        rfl

/-- The bodies after spitting. -/
theorem spitList_bodies (l : List α) :
    (spitList body dir l).1 =
      l.map fun x => if (body x).Spits then (body x).small else body x := by
  induction l with
  | nil => rfl
  | cons x l ih =>
      rw [spitList, List.map_cons]
      split_ifs <;> rw [ih]

omit [Sqrt K] in
theorem spore_inj [IsStrictOrderedRing K] {b : Body K} {d d' : K × K}
    (h : b.spore d = b.spore d') : d = d' := by
  simp only [Body.spore, Prod.mk.injEq] at h
  have hne : (15 : K) ≠ 0 := by norm_num
  exact Prod.ext (mul_left_cancel₀ hne h.2.2.1) (mul_left_cancel₀ hne h.2.2.2)

end Lists

/-! ## The client -/

section Client

variable [Sqrt K] (s : View K) (input : PendingInput K)

/-- The loop of {lit}`PredictSplitAction` over bodies.  The numbers and keys of the children
go on from those of the client. -/
theorem splitViews_spec (count k : Nat) (vs : List (CellView K)) :
    let r := s.splitViews input count k vs
    let b := splitList viewBody (fun v => getActionDirForCell v input) (16 - (count + k)) vs
    r.1.map viewBody = b.1 ∧ List.Forall₂ View.Keeps vs r.1 ∧
      List.Forall₂ (fun w x => viewBody w = x.2 ∧ w.predictedParentStableKey = x.1.stableKey)
        r.2 b.2 ∧
      (∀ w ∈ r.2, w.cellId ≤ s.nextPredictedCellId - k ∧ s.nextLocalCellSortKey + k ≤ w.sortKey ∧
        s.nextLocalStableKey + k ≤ w.stableKey ∧ s.owns w = true) ∧
      (∀ w ∈ r.2, s.nextPredictedCellId - k - r.2.length < w.cellId ∧
        w.sortKey < s.nextLocalCellSortKey + k + r.2.length ∧
        w.stableKey < s.nextLocalStableKey + k + r.2.length) ∧
      (r.2.Pairwise fun w w' => w'.cellId < w.cellId ∧ w.sortKey < w'.sortKey) := by
  induction vs generalizing k with
  | nil => exact ⟨rfl, .nil, .nil, by simp [View.splitViews], by simp [View.splitViews], .nil⟩
  | cons v vs ih =>
      dsimp only
      rw [View.splitViews, splitList]
      have hroom : 16 ≤ count + k ↔ 16 - (count + k) = 0 := by omega
      have hsize : (viewBody v).size = v.size := rfl
      by_cases hstop : v.size < 4 ∨ 16 ≤ count + k
      · have hstop' : (viewBody v).size < 4 ∨ 16 - (count + k) = 0 := by rwa [hsize, ← hroom]
        rw [if_pos hstop, if_pos hstop']
        obtain ⟨hbodies, hkeeps, hchildren, hnew, hbound, hpairs⟩ := ih k
        exact ⟨by rw [List.map_cons, hbodies], .cons ⟨rfl, rfl, rfl, rfl, rfl⟩ hkeeps, hchildren,
          hnew, hbound, hpairs⟩
      · have hstop' : ¬ ((viewBody v).size < 4 ∨ 16 - (count + k) = 0) := by
          rwa [hsize, ← hroom]
        rw [if_neg hstop, if_neg hstop']
        obtain ⟨hbodies, hkeeps, hchildren, hnew, hbound, hpairs⟩ := ih (k + 1)
        have hnext : 16 - (count + (k + 1)) = 16 - (count + k) - 1 := by omega
        rw [hnext] at hbodies hchildren
        refine ⟨?_, .cons ⟨rfl, rfl, rfl, rfl, rfl⟩ hkeeps, .cons ⟨rfl, rfl⟩ hchildren, ?_, ?_,
          ?_⟩
        · rw [List.map_cons, hbodies]
          rfl
        · intro w hw
          rcases List.mem_cons.mp hw with rfl | hw
          · refine ⟨le_rfl, le_rfl, le_rfl, ?_⟩
            simp [View.owns, View.splitChild]
          · obtain ⟨h1, h2, h3, h4⟩ := hnew w hw
            push_cast at h1 h2 h3
            exact ⟨by omega, by omega, by omega, h4⟩
        · intro w hw
          rw [List.length_cons]
          push_cast
          rcases List.mem_cons.mp hw with rfl | hw
          · simp only [View.splitChild]
            exact ⟨by omega, by omega, by omega⟩
          · obtain ⟨h1, h2, h3⟩ := hbound w hw
            push_cast at h1 h2 h3
            exact ⟨by omega, by omega, by omega⟩
        · refine .cons ?_ hpairs
          intro w hw
          obtain ⟨h1, h2, -, -⟩ := hnew w hw
          simp only [View.splitChild]
          push_cast at h1 h2
          exact ⟨by omega, by omega⟩

/-- The loop of {lit}`PredictSpitAction` over bodies. -/
theorem spitViews_spec (k : Nat) (vs : List (CellView K)) :
    let r := s.spitViews input k vs
    let b := spitList viewBody (fun v => getActionDirForCell v input) vs
    r.1.map viewBody = b.1 ∧ List.Forall₂ View.Keeps vs r.1 ∧
      List.Forall₂ (fun w x => viewPlace w = x.2 ∧ w.predictedSourceStableKey = x.1.stableKey ∧
        w.sourceCellId = x.1.cellId) r.2 b.2 ∧
      (∀ w ∈ r.2, w.id ≤ s.nextPredictedSporeId - k) ∧
      (r.2.Pairwise fun w w' => w'.id < w.id) := by
  induction vs generalizing k with
  | nil => exact ⟨rfl, .nil, .nil, by simp [View.spitViews], .nil⟩
  | cons v vs ih =>
      dsimp only
      rw [View.spitViews, spitList]
      by_cases hspits : (viewBody v).Spits
      · have hno : ¬ (v.size < 3 ∨ v.size * v.size ≤ 1 * 1) := hspits
        rw [if_pos hspits, if_neg hno]
        obtain ⟨hbodies, hkeeps, hspores, hnew, hpairs⟩ := ih (k + 1)
        refine ⟨?_, .cons ⟨rfl, rfl, rfl, rfl, rfl⟩ hkeeps, .cons ⟨rfl, rfl, rfl⟩ hspores, ?_, ?_⟩
        · rw [List.map_cons, hbodies]
          rfl
        · intro w hw
          rcases List.mem_cons.mp hw with rfl | hw
          · exact le_rfl
          · have h := hnew w hw
            push_cast at h
            omega
        · refine .cons ?_ hpairs
          intro w hw
          have h := hnew w hw
          simp only [View.spitSpore]
          push_cast at h
          omega
      · have hno : v.size < 3 ∨ v.size * v.size ≤ 1 * 1 := not_not.mp hspits
        rw [if_neg hspits, if_pos hno]
        obtain ⟨hbodies, hkeeps, hspores, hnew, hpairs⟩ := ih k
        exact ⟨by rw [List.map_cons, hbodies], .cons ⟨rfl, rfl, rfl, rfl, rfl⟩ hkeeps, hspores,
          hnew, hpairs⟩

/-- The numbers of the spores go on from those of the client. -/
theorem spitViews_bound (k : Nat) (vs : List (CellView K)) :
    ∀ w ∈ (s.spitViews input k vs).2,
      s.nextPredictedSporeId - k - (s.spitViews input k vs).2.length < w.id := by
  induction vs generalizing k with
  | nil => simp [View.spitViews]
  | cons v vs ih =>
      rw [View.spitViews]
      split_ifs
      · exact ih k
      · intro w hw
        rw [List.length_cons]
        push_cast
        rcases List.mem_cons.mp hw with rfl | hw
        · simp only [View.spitSpore]
          omega
        · have h := ih (k + 1) w hw
          push_cast at h
          omega

end Client

/-! ## The scene -/

section Server

variable [FloorRing K] [Sqrt K]

/-- The bodies of the cells of a scene. -/
def bodyOf (t : Scene K) (c : Nat) : Body K :=
  cellBody (t.cells c)

/-- The direction in which a cell of a scene acts. -/
def dirOf (a : Action K) (t : Scene K) (c : Nat) : K × K :=
  getCellActionDir c (t.cells c) a

theorem splitCell_self (a : Action K) (r : Nat) (t : Scene K) {c : Nat} (hc : c ≤ t.cellMaxid) :
    bodyOf (splitCell a r t c) c = (bodyOf t c).half := by
  have hne : c ≠ t.cellMaxid + 1 := by omega
  have hhalf : calMass (t.cells c).size / 2.0 =
      (t.cells c).size * (t.cells c).size * (1 / 2) := by
    rw [calMass, show (2.0 : K) = 2 by norm_num]
    ring
  simp [bodyOf, splitCell, Scene.addCell, Scene.setTable, Scene.newCell, Scene.setCell, hne,
    cellBody, Body.half, hhalf]

theorem splitCell_new (a : Action K) (r : Nat) (t : Scene K) {c : Nat} (hc : c ≤ t.cellMaxid) :
    bodyOf (splitCell a r t c) (t.cellMaxid + 1) = (bodyOf t c).half.child (dirOf a t c) ∧
      ((splitCell a r t c).cells (t.cellMaxid + 1)).parentId = some c := by
  have hne : t.cellMaxid + 1 ≠ c := by omega
  have hhalf : calMass (t.cells c).size / 2.0 =
      (t.cells c).size * (t.cells c).size * (1 / 2) := by
    rw [calMass, show (2.0 : K) = 2 by norm_num]
    ring
  simp [bodyOf, dirOf, splitCell, Scene.addCell, Scene.setTable, Scene.newCell, Scene.setCell,
    cellBody, Body.half, Body.child, hhalf, getCellActionDir]

/-- The loop of {lit}`do_split` over bodies. -/
theorem splitCells_bodies (a : Action K) (r : Nat) {cs : List Nat} {t : Scene K}
    (hnodup : cs.Nodup) (hle : ∀ c ∈ cs, c ≤ t.cellMaxid)
    (hcells : ∀ c ∈ (t.tables r).cells, c ≤ t.cellMaxid) :
    let q := splitCells a r (cs.filter fun c => decide (4 ≤ (t.cells c).size)) t
    let b := splitList (bodyOf t) (dirOf a t) (16 - (t.tables r).cells.card) cs
    cs.map (bodyOf q.1) = b.1 ∧
      List.Forall₂ (fun d x => bodyOf q.1 d = x.2 ∧ (q.1.cells d).parentId = some x.1) q.2 b.2 ∧
      q.2 = List.range' (t.cellMaxid + 1) q.2.length ∧
      q.1.cellMaxid = t.cellMaxid + q.2.length ∧
      (∀ c, c ≤ t.cellMaxid → c ∉ cs → q.1.cells c = t.cells c) ∧
      (q.1.tables r).cells = (t.tables r).cells ∪ q.2.toFinset ∧ q.1.sporeMaxid = t.sporeMaxid := by
  induction cs generalizing t with
  | nil => exact ⟨rfl, .nil, rfl, rfl, fun _ _ _ => rfl, by simp [splitCells], rfl⟩
  | cons c cs ih =>
      obtain ⟨hc, hnodup⟩ := List.nodup_cons.mp hnodup
      have hcle : c ≤ t.cellMaxid := hle c List.mem_cons_self
      have hle' : ∀ d ∈ cs, d ≤ t.cellMaxid := fun d hd => hle d (List.mem_cons_of_mem _ hd)
      dsimp only
      have hsize : (bodyOf t c).size = (t.cells c).size := rfl
      rw [splitList, hsize]
      by_cases hlarge : (t.cells c).size < 4
      · rw [if_pos (.inl hlarge), List.filter_cons_of_neg (by simpa using hlarge)]
        obtain ⟨hbodies, hchildren, hrange, hmax, hframe, htable, hspore⟩ := ih hnodup hle' hcells
        refine ⟨?_, hchildren, hrange, hmax, ?_, htable, hspore⟩
        · rw [List.map_cons, hbodies, bodyOf, hframe c hcle hc]
          rfl
        · intro d hd hmem
          exact hframe d hd fun h => hmem (List.mem_cons_of_mem _ h)
      · rw [List.filter_cons_of_pos (by simpa using hlarge)]
        by_cases hroom : 16 ≤ (t.tables r).cells.card
        · have hzero : 16 - (t.tables r).cells.card = 0 := by omega
          rw [if_pos (.inr hzero), splitCells, if_pos hroom, hzero, splitList_full]
          exact ⟨rfl, .nil, rfl, rfl, fun _ _ _ => rfl, by simp, rfl⟩
        · have hzero : ¬ ((t.cells c).size < 4 ∨ 16 - (t.tables r).cells.card = 0) := by
            rintro (h | h)
            · exact hlarge h
            · omega
          rw [if_neg hzero, splitCells, if_neg hroom]
          have hnew : t.cellMaxid + 1 ∉ (t.tables r).cells := fun h => by
            have := hcells _ h
            omega
          have hmax₁ : (splitCell a r t c).cellMaxid = t.cellMaxid + 1 := rfl
          have htable₁ : ((splitCell a r t c).tables r).cells =
              insert (t.cellMaxid + 1) (t.tables r).cells := by
            rw [Scene.splitCell_cells, if_pos rfl]
          have hother : ∀ d ∈ cs, (splitCell a r t c).cells d = t.cells d := by
            intro d hd
            have hdc : d ≠ c := by
              rintro rfl
              exact hc hd
            have := hle' d hd
            exact Scene.splitCell_other a r t hdc (by omega)
          have hfilter : (cs.filter fun d => decide (4 ≤ (t.cells d).size)) =
              cs.filter fun d => decide (4 ≤ ((splitCell a r t c).cells d).size) := by
            apply List.filter_congr
            intro d hd
            rw [hother d hd]
          have hcard : 16 - ((splitCell a r t c).tables r).cells.card =
              16 - (t.tables r).cells.card - 1 := by
            rw [htable₁, Finset.card_insert_of_notMem hnew]
            omega
          have hlist : splitList (bodyOf (splitCell a r t c)) (dirOf a (splitCell a r t c))
              (16 - (t.tables r).cells.card - 1) cs =
              splitList (bodyOf t) (dirOf a t) (16 - (t.tables r).cells.card - 1) cs := by
            refine splitList_congr _ _ _ fun d hd => ?_
            simp only [bodyOf, dirOf, hother d hd, and_self]
          obtain ⟨hbodies, hchildren, hrange, hmax, hframe, htable, hspore⟩ := ih
            (t := splitCell a r t c) hnodup (fun d hd => by have := hle' d hd; omega)
            (by
              intro d hd
              rw [htable₁] at hd
              rcases Finset.mem_insert.mp hd with rfl | hd
              · exact le_rfl
              · have := hcells d hd
                omega)
          rw [hcard, hlist, ← hfilter] at hbodies hchildren
          rw [← hfilter] at hrange hmax hframe htable hspore
          rw [hmax₁] at hrange hmax hframe
          have hself := hframe c (by omega) hc
          have hchild := hframe (t.cellMaxid + 1) le_rfl fun h => by
            have := hle' _ h
            omega
          refine ⟨?_, .cons ⟨?_, ?_⟩ hchildren, ?_, ?_, ?_, ?_, hspore⟩
          · rw [List.map_cons, hbodies, bodyOf, hself]
            exact congrArg (· :: _) (splitCell_self a r t hcle)
          · rw [bodyOf, hchild]
            exact (splitCell_new a r t hcle).1
          · rw [hchild]
            exact (splitCell_new a r t hcle).2
          · rw [List.length_cons, List.range'_succ]
            exact congrArg (_ :: ·) hrange
          · rw [hmax, List.length_cons]
            omega
          · intro d hd hmem
            have hdc : d ≠ c := fun h => hmem (h ▸ List.mem_cons_self)
            rw [hframe d (by omega) fun h => hmem (List.mem_cons_of_mem _ h),
              Scene.splitCell_other a r t hdc (by omega)]
          · rw [htable, htable₁, List.toFinset_cons, Finset.insert_union, Finset.union_insert]

omit [FloorRing K] in
/-- The loop of {lit}`spit_spore` over bodies. -/
theorem spitCells_places (a : Action K) (r : Nat) {cs : List Nat} {t : Scene K}
    (hnodup : cs.Nodup) :
    let q := spitCells a r cs t
    let b := spitList (bodyOf t) (dirOf a t) cs
    cs.map (bodyOf q.1) = b.1 ∧
      List.Forall₂ (fun i x => sporePlace (q.1.sporeTables i) = x.2 ∧
        (q.1.sporeTables i).sourceCellId = x.1) q.2 b.2 ∧
      (∀ i, i ≤ t.sporeMaxid → q.1.sporeTables i = t.sporeTables i) ∧
      (∀ c, c ∉ cs → q.1.cells c = t.cells c) ∧ (∀ c, (q.1.cells c).parentId =
        (t.cells c).parentId) ∧ q.1.tables = t.tables := by
  induction cs generalizing t with
  | nil => exact ⟨rfl, .nil, fun _ _ => rfl, fun _ _ => rfl, fun _ => rfl, rfl⟩
  | cons c cs ih =>
      obtain ⟨hc, hnodup⟩ := List.nodup_cons.mp hnodup
      dsimp only
      rw [spitList, spitCells]
      have hspits : (3 ≤ (t.cells c).size ∧ calMass (t.cells c).size > calMass 1) ↔
          (bodyOf t c).Spits := by
        simp only [Body.Spits, bodyOf, cellBody, calMass, not_or, not_lt, not_le, gt_iff_lt]
      by_cases hlarge : (bodyOf t c).Spits
      · rw [if_pos (hspits.mpr hlarge), if_pos hlarge]
        have hother : ∀ d, d ≠ c → (spitCell a r t c).cells d = t.cells d := by
          intro d hd
          simp [spitCell, Scene.newSpore, Scene.setCell, hd]
        have hlist : spitList (bodyOf (spitCell a r t c)) (dirOf a (spitCell a r t c)) cs =
            spitList (bodyOf t) (dirOf a t) cs := by
          refine spitList_congr _ _ fun d hd => ?_
          have hdc : d ≠ c := by
            rintro rfl
            exact hc hd
          simp only [bodyOf, dirOf, hother d hdc, and_self]
        obtain ⟨hbodies, hspores, hold, hframe, hparent, htables⟩ := ih
          (t := spitCell a r t c) hnodup
        rw [hlist] at hbodies hspores
        have hmax : (spitCell a r t c).sporeMaxid = t.sporeMaxid + 1 := rfl
        have hfirst := hold (t.sporeMaxid + 1) (by rw [hmax])
        have hspore : sporePlace ((spitCell a r t c).sporeTables (t.sporeMaxid + 1)) =
            (bodyOf t c).small.spore (dirOf a t c) ∧
            ((spitCell a r t c).sporeTables (t.sporeMaxid + 1)).sourceCellId = c := by
          simp [spitCell, Scene.newSpore, Scene.setCell, sporePlace, Body.spore, Body.small, bodyOf,
            cellBody, dirOf, getCellActionDir, calMass]
        refine ⟨?_, .cons ⟨?_, ?_⟩ hspores, ?_, ?_, ?_, ?_⟩
        · rw [List.map_cons, hbodies, bodyOf, hframe c hc]
          congr 1
          simp [spitCell, Scene.newSpore, Scene.setCell, cellBody, bodyOf, Body.small, calMass]
        · rw [hfirst]
          exact hspore.1
        · rw [hfirst]
          exact hspore.2
        · intro i hi
          rw [hold i (by omega)]
          have hne : i ≠ t.sporeMaxid + 1 := by omega
          simp [spitCell, Scene.newSpore, Scene.setCell, hne]
        · intro d hd
          rw [List.mem_cons, not_or] at hd
          rw [hframe d hd.2, hother d hd.1]
        · intro d
          rw [hparent d]
          by_cases hdc : d = c
          · subst hdc
            simp [spitCell, Scene.newSpore, Scene.setCell]
          · rw [hother d hdc]
        · rw [htables]
          rfl
      · rw [if_neg (fun h => hlarge (hspits.mp h)), if_neg hlarge]
        obtain ⟨hbodies, hspores, hold, hframe, hparent, htables⟩ := ih (t := t) hnodup
        refine ⟨?_, hspores, hold, ?_, hparent, htables⟩
        · rw [List.map_cons, hbodies, bodyOf, hframe c hc]
          rfl
        · intro d hd
          exact hframe d fun h => hd (List.mem_cons_of_mem _ h)

end Server

end Predict

end BallServer.Ball
