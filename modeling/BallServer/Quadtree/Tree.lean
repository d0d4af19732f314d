import BallServer.GridIndex.Index

/-!
# The quadtree

The scene keeps its food in a quadtree.  A node that holds too many objects is split
into four quarters, and an object whose circle lies in one quarter moves there; an
object on a middle line stays in the node.  A query skips every node whose bounds its
box does not meet.

Splitting moves objects into nodes that may split in turn, so {lit}`insert` recurses
both along the tree and into nodes it has just made.  The model takes the number of
calls that may be nested as an argument and gives up when there are not enough.

The numbers are any type with the operations the code uses, and these need not obey any
law: the doubles of Lua round, and what the code computes may differ from what the exact
numbers say.

Main results:

- Theorem {lit}`Filed.insert`: with one nested call for each level that is left,
  {lit}`insert` returns and files the object once, where {lit}`getIndex` leads.
- Theorem {lit}`Filed.search_eq_filter`: a query returns the hits among the objects whose
  nodes it comes to.
- Theorem {lit}`run_full_scan_iff`: after any sequence of {lit}`insert` and {lit}`clear`
  a query returns what a scan with exact numbers returns, if and only if its comparisons
  agree with the exact one and it skips no node on the way to a hit.
- Theorem {lit}`run_full_scan`: with exact numbers it always does.
-/

namespace BallServer.Quadtree

open Plane
open BallServer.Grid (Place Bounds)

/-- The four quarters of a node, in the order of the table {lit}`nodes`. -/
inductive Quarter where
  | ne
  | nw
  | sw
  | se
deriving DecidableEq, Repr

/-- The parameters that all nodes of a tree share. -/
structure Limits where
  maxObjects : Int
  maxLevels : Int

/-- A node: its bounds, its level, its own objects and, once it is split, its
quarters. -/
inductive Tree (α K : Type) where
  | leaf (bounds : Bounds K) (level : Int) (objects : List α)
  | split (bounds : Bounds K) (level : Int) (objects : List α) (nodes : Quarter → Tree α K)

section Model

variable {α K : Type} [Add K] [Sub K] [Div K] [Zero K] [OfNat K 2] [LinearOrder K]

/-- {lit}`Quadtree.new` with the default level. -/
def new (bounds : Bounds K) : Tree α K := .leaf bounds 0 []

namespace Tree

/-- {lit}`clear`. -/
def clear : Tree α K → Tree α K
  | .leaf b l _ => .leaf b l []
  | .split b l _ _ => .leaf b l []

/-- The level of a node. -/
def level : Tree α K → Int
  | .leaf _ l _ => l
  | .split _ l _ _ => l

end Tree

/-- The bounds {lit}`split` gives to a quarter. -/
def quarterBounds (b : Bounds K) : Quarter → Bounds K
  | .ne => { x := b.x + b.width / 2, y := b.y, width := b.width / 2, height := b.height / 2 }
  | .nw => { x := b.x, y := b.y, width := b.width / 2, height := b.height / 2 }
  | .sw => { x := b.x, y := b.y + b.height / 2, width := b.width / 2, height := b.height / 2 }
  | .se =>
      { x := b.x + b.width / 2, y := b.y + b.height / 2, width := b.width / 2,
        height := b.height / 2 }

/-- The quarters {lit}`split` makes. -/
def splitNodes (b : Bounds K) (level : Int) (q : Quarter) : Tree α K :=
  .leaf (quarterBounds b q) (level + 1) []

/-- {lit}`getIndex`; no quarter stands for the index 0. -/
def getIndex (b : Bounds K) (o : Place K) : Option Quarter :=
  let midX := b.x + b.width / 2
  let midY := b.y + b.height / 2
  let r := o.radius
  if o.y + r < midY then
    if o.x - r ≥ midX then some .ne
    else if o.x + r < midX then some .nw
    else none
  else if o.y - r ≥ midY then
    if o.x + r < midX then some .sw
    else if o.x - r ≥ midX then some .se
    else none
  else none

section Insert

variable (place : α → Place K)

/-- The loop that moves the objects of a node into its quarters: the objects that stay,
and the quarters afterwards. -/
def redistribute (insert : α → Tree α K → Option (Tree α K)) (b : Bounds K) :
    List α → (Quarter → Tree α K) → Option (List α × (Quarter → Tree α K))
  | [], nodes => some ([], nodes)
  | o :: os, nodes =>
      match getIndex b (place o) with
      | some q => do
          let t ← insert o (nodes q)
          redistribute insert b os (Function.update nodes q t)
      | none => do
          let (kept, nodes) ← redistribute insert b os nodes
          some (o :: kept, nodes)

/-- The end of {lit}`insert`: the object enters the node itself, which may be split
then. -/
def keep (lim : Limits) (insert : α → Tree α K → Option (Tree α K)) (o : α) :
    Tree α K → Option (Tree α K)
  | .leaf b l os =>
      if lim.maxObjects < (os ++ [o]).length ∧ l < lim.maxLevels then do
        let (kept, nodes) ← redistribute place insert b (os ++ [o]) (splitNodes b l)
        some (.split b l kept nodes)
      else some (.leaf b l (os ++ [o]))
  | .split b l os nodes =>
      if lim.maxObjects < (os ++ [o]).length ∧ l < lim.maxLevels then do
        let (kept, nodes) ← redistribute place insert b (os ++ [o]) nodes
        some (.split b l kept nodes)
      else some (.split b l (os ++ [o]) nodes)

/-- {lit}`insert`, with a bound on the number of nested calls. -/
def insert (lim : Limits) : Nat → α → Tree α K → Option (Tree α K)
  | 0, _, _ => none
  | depth + 1, o, .leaf b l os => keep place lim (insert lim depth) o (.leaf b l os)
  | depth + 1, o, .split b l os nodes =>
      match getIndex b (place o) with
      | some q => do
          let t ← insert lim depth o (nodes q)
          some (.split b l os (Function.update nodes q t))
      | none => keep place lim (insert lim depth) o (.split b l os nodes)

end Insert

/-! ## Queries -/

/-- {lit}`intersects`. -/
def intersects (rect bounds : Bounds K) : Bool :=
  decide (¬(rect.x > bounds.x + bounds.width ∨ rect.x + rect.width < bounds.x ∨
    rect.y > bounds.y + bounds.height ∨ rect.y + rect.height < bounds.y))

/-- The recursion both queries share: the hits of the nodes whose bounds meet
{lit}`rect`. -/
def search (rect : Bounds K) (hit : α → Bool) : Tree α K → List α
  | .leaf b _ os => if intersects rect b then os.filter hit else []
  | .split b _ os nodes =>
      if intersects rect b then
        os.filter hit ++ search rect hit (nodes .ne) ++ search rect hit (nodes .nw) ++
          search rect hit (nodes .sw) ++ search rect hit (nodes .se)
      else []

/-- The comparison of {lit}`retrieve`. -/
def inRect (place : α → Place K) (rect : Bounds K) (o : α) : Bool :=
  decide ((place o).x ≥ rect.x ∧ (place o).x ≤ rect.x + rect.width ∧
    (place o).y ≥ rect.y ∧ (place o).y ≤ rect.y + rect.height)

/-- {lit}`retrieve`. -/
def retrieve (place : α → Place K) (rect : Bounds K) (t : Tree α K) : List α :=
  search rect (inRect place rect) t

variable [Mul K] in
/-- The box {lit}`retrieveInRadius` compares with the bounds of a node. -/
def radiusRect (cx cy radius : K) : Bounds K where
  x := cx - radius
  y := cy - radius
  width := radius * 2
  height := radius * 2

variable [Mul K] in
/-- The comparison of {lit}`retrieveInRadius`. -/
def inRadius (place : α → Place K) (cx cy radius : K) (o : α) : Bool :=
  let dx := (place o).x - cx
  let dy := (place o).y - cy
  let threshold := radius + (place o).radius
  decide (dx * dx + dy * dy ≤ threshold * threshold)

variable [Mul K] in
/-- {lit}`retrieveInRadius`. -/
def retrieveInRadius (place : α → Place K) (cx cy radius : K) (t : Tree α K) : List α :=
  search (radiusRect cx cy radius) (inRadius place cx cy radius) t

/-! ## What a tree holds -/

/-- The objects of a tree. -/
def Tree.stored : Tree α K → Multiset α
  | .leaf _ _ os => os
  | .split _ _ os nodes =>
      os + ((nodes .ne).stored + (nodes .nw).stored + (nodes .sw).stored + (nodes .se).stored)

/-- The number of levels below the root. -/
def Tree.depth : Tree α K → Nat
  | .leaf _ _ _ => 0
  | .split _ _ _ nodes =>
      max (max (nodes .ne).depth (nodes .nw).depth) (max (nodes .sw).depth (nodes .se).depth) + 1

/-- A tree whose nodes have the bounds and levels {lit}`split` gives them, in which every
object is in the node to which {lit}`getIndex` leads and only nodes above the last level
are split. -/
inductive Filed (place : α → Place K) (lim : Limits) : Bounds K → Int → Tree α K → Prop where
  | leaf {b : Bounds K} {l : Int} {os : List α} : Filed place lim b l (.leaf b l os)
  | split {b : Bounds K} {l : Int} {os : List α} {nodes : Quarter → Tree α K}
      (hl : l < lim.maxLevels) (hos : ∀ o ∈ os, getIndex b (place o) = none)
      (hnodes : ∀ q, Filed place lim (quarterBounds b q) (l + 1) (nodes q))
      (hroute : ∀ q, ∀ o ∈ (nodes q).stored, getIndex b (place o) = some q) :
      Filed place lim b l (.split b l os nodes)

/-- Whether a query comes to the node in which an object at this place is filed. -/
def reaches (rect : Bounds K) (p : Place K) : Tree α K → Bool
  | .leaf b _ _ => intersects rect b
  | .split b _ _ nodes =>
      intersects rect b &&
        match getIndex b p with
        | none => true
        | some q => reaches rect p (nodes q)

variable {place : α → Place K} {lim : Limits}

omit [Add K] [Sub K] [Div K] [Zero K] [OfNat K 2] [LinearOrder K] in
/-- The objects of a quarter are among those of the node. -/
theorem mem_stored_split {b : Bounds K} {l : Int} {os : List α} {nodes : Quarter → Tree α K}
    {o : α} : o ∈ (Tree.split b l os nodes).stored ↔ o ∈ os ∨ ∃ q, o ∈ (nodes q).stored := by
  simp only [Tree.stored, Multiset.mem_add, Multiset.mem_coe]
  constructor
  · rintro (h | ((h | h) | h) | h)
    · exact .inl h
    · exact .inr ⟨.ne, h⟩
    · exact .inr ⟨.nw, h⟩
    · exact .inr ⟨.sw, h⟩
    · exact .inr ⟨.se, h⟩
  · rintro (h | ⟨q, h⟩)
    · exact .inl h
    · cases q <;> tauto

omit [Add K] [Sub K] [Div K] [Zero K] [OfNat K 2] [LinearOrder K] in
/-- Adding an object to one quarter adds it to the quarters. -/
theorem stored_update (nodes : Quarter → Tree α K) (q : Quarter) {t : Tree α K} {o : α}
    (ht : t.stored = o ::ₘ (nodes q).stored) :
    (Function.update nodes q t .ne).stored + (Function.update nodes q t .nw).stored +
        (Function.update nodes q t .sw).stored + (Function.update nodes q t .se).stored =
      o ::ₘ ((nodes .ne).stored + (nodes .nw).stored + (nodes .sw).stored +
        (nodes .se).stored) := by
  cases q <;> simp [Function.update, ht, Multiset.add_cons, Multiset.cons_add]

namespace Filed

/-- Only the places of the stored objects matter. -/
theorem congr_place {place' : α → Place K} {b : Bounds K} {l : Int} {t : Tree α K}
    (ht : Filed place lim b l t) (h : ∀ o ∈ t.stored, place' o = place o) :
    Filed place' lim b l t := by
  induction ht with
  | leaf => exact .leaf
  | split hl hos hnodes hroute ih =>
      refine .split hl (fun o ho => ?_) (fun q => ih q fun o ho => ?_) fun q o ho => ?_
      · rw [h o (mem_stored_split.mpr (.inl ho))]
        exact hos o ho
      · exact h o (mem_stored_split.mpr (.inr ⟨q, ho⟩))
      · rw [h o (mem_stored_split.mpr (.inr ⟨q, ho⟩))]
        exact hroute q o ho

/-- A tree that is cleared is filed and empty. -/
theorem clear {b : Bounds K} {l : Int} {t : Tree α K} (ht : Filed place lim b l t) :
    Filed place lim b l t.clear ∧ t.clear.stored = 0 := by
  cases ht <;> exact ⟨.leaf, rfl⟩

theorem level {b : Bounds K} {l : Int} {t : Tree α K} (ht : Filed place lim b l t) :
    t.level = l := by
  cases ht <;> rfl

theorem depth_le {b : Bounds K} {l : Int} {t : Tree α K} (ht : Filed place lim b l t) :
    t.depth ≤ (lim.maxLevels - l).toNat := by
  induction ht with
  | leaf => exact Nat.zero_le _
  | @split b l os nodes hl hos hnodes hroute ih =>
      have hne := ih .ne
      have hnw := ih .nw
      have hsw := ih .sw
      have hse := ih .se
      unfold Tree.depth
      omega

end Filed

/-! ## Insertion -/

/-- An object that enters a quarter leaves the other objects where they are. -/
theorem route_update {b : Bounds K} {nodes : Quarter → Tree α K} {q : Quarter} {o : α}
    {t : Tree α K} (hq : getIndex b (place o) = some q) (ht : t.stored = o ::ₘ (nodes q).stored)
    (hroute : ∀ q, ∀ o ∈ (nodes q).stored, getIndex b (place o) = some q) :
    ∀ q', ∀ a ∈ (Function.update nodes q t q').stored, getIndex b (place a) = some q' := by
  intro q' a ha
  by_cases h : q' = q
  · subst h
    rw [Function.update_self, ht] at ha
    rcases Multiset.mem_cons.mp ha with rfl | ha
    · exact hq
    · exact hroute q' a ha
  · rw [Function.update_of_ne h] at ha
    exact hroute q' a ha

/-- A quarter is replaced by one that is filed as well. -/
theorem filed_update {b : Bounds K} {l : Int} {nodes : Quarter → Tree α K} {q : Quarter}
    {t : Tree α K} (ht : Filed place lim (quarterBounds b q) (l + 1) t)
    (hnodes : ∀ q, Filed place lim (quarterBounds b q) (l + 1) (nodes q)) :
    ∀ q', Filed place lim (quarterBounds b q') (l + 1) (Function.update nodes q t q') := by
  intro q'
  by_cases h : q' = q
  · subst h
    rwa [Function.update_self]
  · rw [Function.update_of_ne h]
    exact hnodes q'

/-- The loop moves every object into its quarter or keeps it, given that the insertion
into a quarter works. -/
theorem redistribute_spec {insert : α → Tree α K → Option (Tree α K)} {b : Bounds K} {l : Int}
    (hinsert : ∀ q o t, Filed place lim (quarterBounds b q) (l + 1) t →
      ∃ t', insert o t = some t' ∧ Filed place lim (quarterBounds b q) (l + 1) t' ∧
        t'.stored = o ::ₘ t.stored)
    (os : List α) {nodes : Quarter → Tree α K}
    (hnodes : ∀ q, Filed place lim (quarterBounds b q) (l + 1) (nodes q))
    (hroute : ∀ q, ∀ o ∈ (nodes q).stored, getIndex b (place o) = some q) :
    ∃ kept nodes', redistribute place insert b os nodes = some (kept, nodes') ∧
      (∀ o ∈ kept, getIndex b (place o) = none) ∧
      (∀ q, Filed place lim (quarterBounds b q) (l + 1) (nodes' q)) ∧
      (∀ q, ∀ o ∈ (nodes' q).stored, getIndex b (place o) = some q) ∧
      (Tree.split b l kept nodes').stored = (Tree.split b l os nodes).stored := by
  induction os generalizing nodes with
  | nil => exact ⟨[], nodes, rfl, by simp, hnodes, hroute, rfl⟩
  | cons o os ih =>
      unfold redistribute
      cases hq : getIndex b (place o) with
      | some q =>
          obtain ⟨t, ht, hfiled, hstored⟩ := hinsert q o (nodes q) (hnodes q)
          obtain ⟨kept, nodes', heq, hkept, hfiled', hroute', hall⟩ :=
            ih (filed_update hfiled hnodes) (route_update hq hstored hroute)
          refine ⟨kept, nodes', ?_, hkept, hfiled', hroute', ?_⟩
          · simp [ht, heq]
          · rw [hall]
            simp only [Tree.stored, stored_update nodes q hstored]
            rw [← Multiset.cons_coe, Multiset.cons_add, Multiset.add_cons]
      | none =>
          obtain ⟨kept, nodes', heq, hkept, hfiled', hroute', hall⟩ := ih hnodes hroute
          refine ⟨o :: kept, nodes', ?_, ?_, hfiled', hroute', ?_⟩
          · simp [heq]
          · intro a ha
            rcases List.mem_cons.mp ha with rfl | ha
            · exact hq
            · exact hkept a ha
          · simp only [Tree.stored] at hall ⊢
            rw [← Multiset.cons_coe, ← Multiset.cons_coe, Multiset.cons_add, Multiset.cons_add,
              hall]

omit [Add K] [Sub K] [Div K] [Zero K] [OfNat K 2] [LinearOrder K] in
theorem coe_append_singleton (os : List α) (o : α) :
    ((os ++ [o] : List α) : Multiset α) = o ::ₘ (os : Multiset α) := by
  rw [Multiset.cons_coe, Multiset.coe_eq_coe]
  exact List.perm_append_singleton o os

/-- Insertion into the node itself, given that the insertion into a quarter works.  A node
that is split takes only objects that lie in none of its quarters. -/
theorem keep_spec {insert : α → Tree α K → Option (Tree α K)} {b : Bounds K} {l : Int}
    (hinsert : l < lim.maxLevels → ∀ q o t, Filed place lim (quarterBounds b q) (l + 1) t →
      ∃ t', insert o t = some t' ∧ Filed place lim (quarterBounds b q) (l + 1) t' ∧
        t'.stored = o ::ₘ t.stored)
    {t : Tree α K} (ht : Filed place lim b l t) {o : α}
    (ho : ∀ os nodes, t = .split b l os nodes → getIndex b (place o) = none) :
    ∃ t', keep place lim insert o t = some t' ∧ Filed place lim b l t' ∧
      t'.stored = o ::ₘ t.stored := by
  cases ht with
  | @leaf b l os =>
      simp only [keep]
      by_cases hsplit : lim.maxObjects < (os ++ [o]).length ∧ l < lim.maxLevels
      · have hnew : ∀ q, Filed place lim (quarterBounds b q) (l + 1)
            (splitNodes b l q : Tree α K) := fun q => .leaf
        have hempty : ∀ q, ∀ a ∈ (splitNodes b l q : Tree α K).stored,
            getIndex b (place a) = some q := by
          intro q a ha
          simp [splitNodes, Tree.stored] at ha
        obtain ⟨kept, nodes, heq, hkept, hfiled, hroute, hall⟩ := redistribute_spec
          (hinsert hsplit.2) (os ++ [o]) hnew hempty
        refine ⟨.split b l kept nodes, ?_, .split hsplit.2 hkept hfiled hroute, ?_⟩
        · rw [if_pos hsplit]
          simp [heq]
        · rw [hall]
          simp only [Tree.stored, splitNodes, coe_append_singleton]
          simp
      · exact ⟨.leaf b l (os ++ [o]), if_neg hsplit, .leaf, coe_append_singleton os o⟩
  | @split b l os nodes hl hos hnodes hroute =>
      simp only [keep]
      by_cases hsplit : lim.maxObjects < (os ++ [o]).length ∧ l < lim.maxLevels
      · obtain ⟨kept, nodes', heq, hkept, hfiled, hroute', hall⟩ := redistribute_spec
          (hinsert hsplit.2) (os ++ [o]) hnodes hroute
        refine ⟨.split b l kept nodes', ?_, .split hsplit.2 hkept hfiled hroute', ?_⟩
        · rw [if_pos hsplit]
          simp [heq]
        · rw [hall]
          simp only [Tree.stored, coe_append_singleton, Multiset.cons_add]
      · have hnone : ∀ a ∈ os ++ [o], getIndex b (place a) = none := by
          intro a ha
          rcases List.mem_append.mp ha with ha | ha
          · exact hos a ha
          · rw [List.mem_singleton.mp ha]
            exact ho os nodes rfl
        refine ⟨.split b l (os ++ [o]) nodes, if_neg hsplit, .split hl hnone hnodes hroute, ?_⟩
        simp only [Tree.stored, coe_append_singleton, Multiset.cons_add]

/-- One nested call for each level that is left is enough, and the tree holds one object
more. -/
theorem Filed.insert {depth : Nat} {b : Bounds K} {l : Int} {t : Tree α K}
    (ht : Filed place lim b l t) (hdepth : (lim.maxLevels - l).toNat < depth) (o : α) :
    ∃ t', Quadtree.insert place lim depth o t = some t' ∧ Filed place lim b l t' ∧
      t'.stored = o ::ₘ t.stored := by
  induction depth generalizing b l t o with
  | zero => omega
  | succ depth ih =>
      have hinsert : l < lim.maxLevels → ∀ q o t,
          Filed place lim (quarterBounds b q) (l + 1) t →
          ∃ t', Quadtree.insert place lim depth o t = some t' ∧
            Filed place lim (quarterBounds b q) (l + 1) t' ∧ t'.stored = o ::ₘ t.stored := by
        intro hl q o t ht
        exact ih ht (by omega) o
      cases ht with
      | leaf => exact keep_spec hinsert .leaf fun os nodes h => by cases h
      | @split b l os nodes hl hos hnodes hroute =>
          unfold Quadtree.insert
          cases hq : getIndex b (place o) with
          | none => exact keep_spec hinsert (.split hl hos hnodes hroute) fun _ _ _ => hq
          | some q =>
              obtain ⟨t, ht, hfiled, hstored⟩ := hinsert hl q o (nodes q) (hnodes q)
              refine ⟨.split b l os (Function.update nodes q t), ?_, .split hl hos
                (filed_update hfiled hnodes) (route_update hq hstored hroute), ?_⟩
              · simp [ht]
              · simp only [Tree.stored, stored_update nodes q hstored]
                rw [Multiset.add_cons]

/-! ## What a query returns -/

/-- A query returns the hits among the objects whose nodes it comes to. -/
theorem Filed.search_eq_filter {b : Bounds K} {l : Int} {t : Tree α K}
    (ht : Filed place lim b l t) (rect : Bounds K) (hit : α → Bool) :
    (search rect hit t : Multiset α) =
      t.stored.filter fun o => hit o = true ∧ reaches rect (place o) t = true := by
  induction ht with
  | @leaf b l os =>
      unfold search reaches
      by_cases hb : intersects rect b = true
      · rw [if_pos hb]
        simp only [Tree.stored, Multiset.filter_coe, hb, and_true, Bool.decide_eq_true]
      · rw [if_neg hb]
        simp only [hb, Bool.false_eq_true, and_false, Multiset.filter_false, Multiset.coe_nil]
  | @split b l os nodes hl hos hnodes hroute ih =>
      unfold search
      by_cases hb : intersects rect b = true
      · have hown : ∀ o ∈ (os : Multiset α), hit o = true ↔
            hit o = true ∧ reaches rect (place o) (.split b l os nodes) = true := by
          intro o ho
          unfold reaches
          rw [hb, hos o ho]
          simp
        have hquarter : ∀ q, ∀ o ∈ (nodes q).stored,
            (hit o = true ∧ reaches rect (place o) (nodes q) = true ↔
              hit o = true ∧ reaches rect (place o) (.split b l os nodes) = true) := by
          intro q o ho
          conv_rhs => unfold reaches
          rw [hb, hroute q o ho]
          simp
        rw [if_pos hb]
        simp only [← Multiset.coe_add, ih, Tree.stored, Multiset.filter_add]
        rw [← Multiset.filter_congr hown, ← Multiset.filter_congr (hquarter .ne),
          ← Multiset.filter_congr (hquarter .nw), ← Multiset.filter_congr (hquarter .sw),
          ← Multiset.filter_congr (hquarter .se)]
        simp only [Multiset.filter_coe, Bool.decide_eq_true, Multiset.add_assoc]
      · rw [if_neg hb]
        have hnone : ∀ o : α, reaches rect (place o) (.split b l os nodes) = false := by
          intro o
          unfold reaches
          rw [Bool.eq_false_of_not_eq_true hb, Bool.false_and]
        simp only [hnone, Bool.false_eq_true, and_false, Multiset.filter_false, Multiset.coe_nil]

/-! ## Runs -/

/-- A call of the quadtree. -/
inductive Op (α : Type) where
  | insert (o : α)
  | clear

variable (place lim) in
/-- One call; {lit}`insert` may nest as many calls as there are levels left. -/
def step (t : Tree α K) : Op α → Option (Tree α K)
  | .insert o => insert place lim ((lim.maxLevels - t.level).toNat + 1) o t
  | .clear => some t.clear

/-- The objects inserted since the last {lit}`clear`. -/
def sinceClear (os : List α) : Op α → List α
  | .insert o => o :: os
  | .clear => []

variable (place lim) in
/-- A sequence of calls. -/
def run : Tree α K → List (Op α) → Option (Tree α K)
  | t, [] => some t
  | t, op :: ops => do
      let t ← step place lim t op
      run t ops

theorem run_spec {b : Bounds K} {l : Int} {t : Tree α K} (ht : Filed place lim b l t)
    {os : List α} (hos : t.stored = os) (ops : List (Op α)) :
    ∃ t', run place lim t ops = some t' ∧ Filed place lim b l t' ∧
      t'.stored = (ops.foldl sinceClear os : List α) := by
  induction ops generalizing t os with
  | nil => exact ⟨t, rfl, ht, hos⟩
  | cons op ops ih =>
      cases op with
      | insert o =>
          obtain ⟨t', ht', hfiled, hstored⟩ := ht.insert
            (Nat.lt_succ_self (lim.maxLevels - l).toNat) o
          have hcons : t'.stored = (o :: os : List α) := by
            rw [hstored, hos]
            rfl
          obtain ⟨t'', hrun, hspec⟩ := ih hfiled hcons
          refine ⟨t'', ?_, hspec⟩
          simp [run, step, ht.level, ht', hrun]
      | clear =>
          obtain ⟨t', hrun, hspec⟩ := ih ht.clear.1 ht.clear.2
          refine ⟨t', ?_, hspec⟩
          simp [run, step, hrun]

omit [Add K] [Sub K] [Div K] [Zero K] [OfNat K 2] [LinearOrder K] in
/-- Two scans over a list find the same objects when their comparisons agree on it. -/
theorem filter_perm_iff {os : List α} {s : Multiset α} {p : α → Prop} [DecidablePred p]
    {found : α → Prop} [DecidablePred found] (hs : s = (os : Multiset α).filter found)
    {l : List α} (hl : (l : Multiset α) = s) :
    l.Perm (os.filter fun o => p o) ↔ ∀ o ∈ os, p o ↔ found o := by
  rw [← Multiset.coe_eq_coe, hl, hs, ← Multiset.filter_coe, eq_comm]
  constructor
  · intro heq o ho
    have hmem := congrArg (o ∈ ·) heq
    simpa [ho] using hmem
  · intro hagree
    exact Multiset.filter_congr hagree

end Model

/-! ## Exact numbers -/

section Geometry

variable {α K : Type} [Field K] [LinearOrder K] {place : α → Place K} {lim : Limits}

/-- The circle of an object lies in the bounds. -/
structure Fits (b : Bounds K) (o : Place K) : Prop where
  radius : 0 ≤ o.radius
  left : b.x ≤ o.x - o.radius
  right : o.x + o.radius ≤ b.x + b.width
  top : b.y ≤ o.y - o.radius
  bottom : o.y + o.radius ≤ b.y + b.height

/-- A tree in which every object is filed where {lit}`getIndex` leads, and every circle lies
in the bounds of the root. -/
structure Sound (place : α → Place K) (lim : Limits) (b : Bounds K) (l : Int) (t : Tree α K) :
    Prop where
  filed : Filed place lim b l t
  fits : ∀ o ∈ t.stored, Fits b (place o)

/-- Only the places of the stored objects matter. -/
theorem Sound.congr_place {place' : α → Place K} {b : Bounds K} {l : Int} {t : Tree α K}
    (ht : Sound place lim b l t) (h : ∀ o ∈ t.stored, place' o = place o) :
    Sound place' lim b l t where
  filed := ht.filed.congr_place h
  fits o ho := by
    rw [h o ho]
    exact ht.fits o ho

/-- A tree that is cleared is sound and empty. -/
theorem Sound.clear {b : Bounds K} {l : Int} {t : Tree α K} (ht : Sound place lim b l t) :
    Sound place lim b l t.clear ∧ t.clear.stored = 0 := by
  obtain ⟨hfiled, hstored⟩ := ht.filed.clear
  exact ⟨⟨hfiled, by simp [hstored]⟩, hstored⟩

/-- An object whose circle lies in the bounds is inserted. -/
theorem insert_spec {depth : Nat} {b : Bounds K} {l : Int} {t : Tree α K}
    (ht : Sound place lim b l t) (hdepth : (lim.maxLevels - l).toNat < depth) {o : α}
    (ho : Fits b (place o)) :
    ∃ t', insert place lim depth o t = some t' ∧ Sound place lim b l t' ∧
      t'.stored = o ::ₘ t.stored := by
  obtain ⟨t', hinsert, hfiled, hstored⟩ := ht.filed.insert hdepth o
  refine ⟨t', hinsert, ⟨hfiled, fun a ha => ?_⟩, hstored⟩
  rw [hstored] at ha
  rcases Multiset.mem_cons.mp ha with rfl | ha
  · exact ho
  · exact ht.fits a ha

variable [IsStrictOrderedRing K]

/-- An object goes into a quarter only with its whole circle. -/
theorem fits_quarter {b : Bounds K} {o : Place K} (ho : Fits b o) {q : Quarter}
    (hq : getIndex b o = some q) : Fits (quarterBounds b q) o := by
  have hr := ho.radius
  have hl := ho.left
  have hright := ho.right
  have ht := ho.top
  have hb := ho.bottom
  unfold getIndex at hq
  simp only at hq
  split_ifs at hq <;> obtain rfl := Option.some.inj hq <;>
    refine ⟨hr, ?_, ?_, ?_, ?_⟩ <;> simp only [quarterBounds] <;> linarith

/-- The box of a disc that lies in the bounds does so as well. -/
theorem fits_iff {b : Bounds K} {o : Place K} (hr : 0 ≤ o.radius) :
    Fits b o ↔ disc o.x o.y o.radius ⊆ b.box.points := by
  constructor
  · intro h p hp
    obtain ⟨hl, hright, ht, hb⟩ := disc_subset_around o.x o.y hr hp
    simp only [Box.around] at hl hright ht hb
    exact ⟨h.left.trans hl, hright.trans h.right, h.top.trans ht, hb.trans h.bottom⟩
  · intro h
    have hleft : (o.x - o.radius, o.y) ∈ disc o.x o.y o.radius := by simp [disc]
    have hright : (o.x + o.radius, o.y) ∈ disc o.x o.y o.radius := by simp [disc]
    have htop : (o.x, o.y - o.radius) ∈ disc o.x o.y o.radius := by simp [disc]
    have hbottom : (o.x, o.y + o.radius) ∈ disc o.x o.y o.radius := by simp [disc]
    exact ⟨hr, (h hleft).1, (h hright).2.1, (h htop).2.2.1, (h hbottom).2.2.2⟩

/-! ## Queries and full scans -/

/-- A query comes to the node of an object if it meets all bounds the object lies in. -/
theorem Filed.reaches {rect b : Bounds K} {l : Int} {t : Tree α K} (ht : Filed place lim b l t)
    {p : Place K} (hp : Fits b p) (hmeets : ∀ b, Fits b p → intersects rect b = true) :
    reaches rect p t = true := by
  induction ht with
  | leaf => exact hmeets _ hp
  | @split b l os nodes hl hos hnodes hroute ih =>
      unfold Quadtree.reaches
      rw [hmeets b hp, Bool.true_and]
      split
      · rfl
      next q hq => exact ih q (fits_quarter hp hq)

/-- A query loses nothing when an object that is hit lies only in bounds that the box of
the query meets. -/
theorem Sound.search_eq_filter {rect : Bounds K} {hit : α → Bool}
    (hhit : ∀ b o, Fits b (place o) → hit o = true → intersects rect b = true)
    {b : Bounds K} {l : Int} {t : Tree α K} (ht : Sound place lim b l t) :
    (search rect hit t : Multiset α) = t.stored.filter (hit · = true) := by
  rw [ht.filed.search_eq_filter]
  refine Multiset.filter_congr fun o ho => and_iff_left_of_imp fun hh => ?_
  exact ht.filed.reaches (ht.fits o ho) fun b hb => hhit b o hb hh

omit [IsStrictOrderedRing K] in
/-- The box of a query meets the bounds when it overlaps them. -/
theorem intersects_of_overlaps {rect bounds : Bounds K} (h : rect.box.Overlaps bounds.box) :
    intersects rect bounds = true := by
  unfold intersects
  rw [decide_eq_true_eq]
  rintro (hlt | hlt | hlt | hlt)
  · exact absurd hlt (not_lt.mpr h.left)
  · exact absurd hlt (not_lt.mpr h.right)
  · exact absurd hlt (not_lt.mpr h.below)
  · exact absurd hlt (not_lt.mpr h.above)

/-- The objects whose circle meets the circle of the query. -/
theorem retrieveInRadius_eq_filter {b : Bounds K} {l : Int} {t : Tree α K}
    (ht : Sound place lim b l t) (cx cy : K) {radius : K} (hr : 0 ≤ radius) :
    (retrieveInRadius place cx cy radius t : Multiset α) =
      t.stored.filter (inRadius place cx cy radius · = true) := by
  apply Sound.search_eq_filter _ ht
  intro b o ho hhit
  -- the circles have a point in common, and so have the boxes around them
  have hmeets : (disc (place o).x (place o).y (place o).radius ∩ disc cx cy radius).Nonempty := by
    rw [disc_meets_disc ho.radius hr]
    unfold inRadius at hhit
    simp only [decide_eq_true_eq] at hhit
    linarith [hhit]
  obtain ⟨p, hp, hp'⟩ := hmeets
  have hbounds : p ∈ b.box.points := (fits_iff ho.radius).mp ho hp
  have hrect : (radiusRect cx cy radius).box = Box.around cx cy radius := by
    simp only [radiusRect, Bounds.box, Box.around, Box.mk.injEq, true_and]
    constructor <;> ring
  apply intersects_of_overlaps
  rw [hrect]
  exact Box.overlaps_of_mem (disc_subset_around cx cy hr hp') hbounds

/-- The objects whose center lies in the rectangle of the query. -/
theorem retrieve_eq_filter {b : Bounds K} {l : Int} {t : Tree α K}
    (ht : Sound place lim b l t) (rect : Bounds K) :
    (retrieve place rect t : Multiset α) = t.stored.filter (inRect place rect · = true) := by
  apply Sound.search_eq_filter _ ht
  intro b o ho hhit
  unfold inRect at hhit
  simp only [decide_eq_true_eq] at hhit
  apply intersects_of_overlaps
  have hcenter : ((place o).x, (place o).y) ∈ b.box.points := by
    apply (fits_iff ho.radius).mp ho
    simp [disc, sq_nonneg]
  have hrect : ((place o).x, (place o).y) ∈ rect.box.points := hhit
  exact Box.overlaps_of_mem hrect hcenter

/-! ## Runs of exact numbers -/

omit [Field K] [LinearOrder K] [IsStrictOrderedRing K] in
/-- What is stored has been inserted. -/
theorem mem_sinceClear {ops : List (Op α)} {os : List α} {o : α}
    (h : o ∈ ops.foldl sinceClear os) : o ∈ os ∨ Op.insert o ∈ ops := by
  induction ops generalizing os with
  | nil => exact .inl h
  | cons op ops ih =>
      rcases ih h with h | h
      · cases op with
        | insert a =>
            rcases List.mem_cons.mp h with rfl | h
            · exact .inr List.mem_cons_self
            · exact .inl h
        | clear => cases h
      · exact .inr (List.mem_cons_of_mem op h)

/-- After any sequence of insertions of objects whose circles lie in the bounds, and of
clears: every insertion has returned, no node is deeper than the last level, the stored
objects are those inserted since the last clear, and the queries return what a scan over
these returns, each object once. -/
theorem run_full_scan (place : α → Place K) (lim : Limits) (bounds : Bounds K)
    (ops : List (Op α)) (hops : ∀ o, Op.insert o ∈ ops → Fits bounds (place o)) :
    ∃ t, run place lim (new bounds) ops = some t ∧ t.depth ≤ lim.maxLevels.toNat ∧
      t.stored = (ops.foldl sinceClear [] : List α) ∧
      (∀ cx cy radius, 0 ≤ radius →
        (retrieveInRadius place cx cy radius t).Perm ((ops.foldl sinceClear []).filter fun o =>
          ((place o).x - cx) ^ 2 + ((place o).y - cy) ^ 2 ≤ (radius + (place o).radius) ^ 2)) ∧
      ∀ rect : Bounds K,
        (retrieve place rect t).Perm ((ops.foldl sinceClear []).filter fun o =>
          rect.x ≤ (place o).x ∧ (place o).x ≤ rect.x + rect.width ∧
            rect.y ≤ (place o).y ∧ (place o).y ≤ rect.y + rect.height) := by
  have hnew : Filed place lim bounds 0 (new bounds : Tree α K) := .leaf
  obtain ⟨t, hrun, hfiled, hstored⟩ := run_spec hnew
    (show (new bounds : Tree α K).stored = ([] : List α) from rfl) ops
  have hsound : Sound place lim bounds 0 t := by
    refine ⟨hfiled, fun o ho => hops o ?_⟩
    rw [hstored] at ho
    exact (mem_sinceClear (Multiset.mem_coe.mp ho)).resolve_left List.not_mem_nil
  refine ⟨t, hrun, ?_, hstored, ?_, ?_⟩
  · simpa using hfiled.depth_le
  · intro cx cy radius hr
    have heq := retrieveInRadius_eq_filter hsound cx cy hr
    rw [hstored, Multiset.filter_coe, Multiset.coe_eq_coe] at heq
    refine heq.trans (List.Perm.of_eq (List.filter_congr ?_))
    intro o _
    simp only [inRadius, pow_two, decide_eq_true_eq]
  · intro rect
    have heq := retrieve_eq_filter hsound rect
    rw [hstored, Multiset.filter_coe, Multiset.coe_eq_coe] at heq
    refine heq.trans (List.Perm.of_eq (List.filter_congr ?_))
    intro o _
    simp only [inRect, ge_iff_le, Bool.decide_eq_true]

end Geometry

example :
    ∃ t, run id ⟨0, 1⟩ (new ⟨0, 0, 10, 10⟩ : Tree (Place Rat) Rat)
        [.insert ⟨1, 1, none⟩, .insert ⟨5, 5, some 2⟩] = some t ∧ t.depth ≤ 1 ∧
      t.stored = (([⟨5, 5, some 2⟩, ⟨1, 1, none⟩] : List (Place Rat))) ∧
      (∀ cx cy radius, 0 ≤ radius →
        (retrieveInRadius id cx cy radius t).Perm
          (([⟨5, 5, some 2⟩, ⟨1, 1, none⟩] : List (Place Rat)).filter fun o =>
            (o.x - cx) ^ 2 + (o.y - cy) ^ 2 ≤ (radius + o.radius) ^ 2)) ∧
      ∀ rect : Bounds Rat,
        (retrieve id rect t).Perm
          (([⟨5, 5, some 2⟩, ⟨1, 1, none⟩] : List (Place Rat)).filter fun o =>
            rect.x ≤ o.x ∧ o.x ≤ rect.x + rect.width ∧
              rect.y ≤ o.y ∧ o.y ≤ rect.y + rect.height) := by
  apply run_full_scan id ⟨0, 1⟩ ⟨0, 0, 10, 10⟩ [.insert ⟨1, 1, none⟩, .insert ⟨5, 5, some 2⟩]
  intro o ho
  simp only [List.mem_cons, Op.insert.injEq, List.not_mem_nil, or_false] at ho
  rcases ho with rfl | rfl <;> constructor <;> norm_num [Place.radius]

end BallServer.Quadtree
