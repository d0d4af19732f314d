import BallServer.GridIndex.Buckets

/-!
# Queries on the grid

A query looks only into the buckets of the cells its box touches.  This module proves
that it finds what a scan over all objects would find, as long as every object stands
in the buckets of the cells of its present place.

Main results:

- Theorem {lit}`World.run_tracked`: which operations keep the buckets up to date with
  the objects that were handed to the index.
- Theorem {lit}`GridIndex.scan_spec`: the loops of a query return every object of the
  buckets once.
- Theorem {lit}`queries_full_scan`: a query equals a full scan.
-/

namespace BallServer.Grid

open BallServer Plane

section Model

variable {ι K : Type} [Field K] [LinearOrder K] [DecidableEq ι]

/-! ## Collecting the hits -/

/-- The result of the loops contains what was there and every entry that is hit and whose
key was not seen. -/
theorem mem_foldl_collect {hit : Nat → Bool} {es : List (Sigma fun _ : Key ι => Nat)}
    (hes : ∀ e ∈ es, ∀ e' ∈ es, e.1 = e'.1 → e.2 = e'.2)
    (acc : List Nat × List (Key ι)) (r : Nat) :
    r ∈ (es.foldl (collect hit) acc).1 ↔
      r ∈ acc.1 ∨ ∃ e ∈ es, e.1 ∉ acc.2 ∧ hit e.2 = true ∧ e.2 = r := by
  induction es generalizing acc with
  | nil => simp
  | cons e es ih =>
      have htail : ∀ e ∈ es, ∀ e' ∈ es, e.1 = e'.1 → e.2 = e'.2 := fun a ha b hb =>
        hes a (List.mem_cons_of_mem _ ha) b (List.mem_cons_of_mem _ hb)
      rw [List.foldl_cons, ih htail, List.exists_mem_cons_iff]
      unfold collect
      by_cases hseen : e.1 ∈ acc.2
      · rw [if_pos hseen]
        constructor
        · rintro (h | h)
          · exact Or.inl h
          · exact Or.inr (Or.inr h)
        · rintro (h | ⟨h, -⟩ | h)
          · exact Or.inl h
          · exact absurd hseen h
          · exact Or.inr h
      · rw [if_neg hseen]
        by_cases hhit : hit e.2 = true
        · rw [if_pos hhit]
          constructor
          · rintro (h | ⟨e', he', hfresh, h⟩)
            · rcases List.mem_append.mp h with h | h
              · exact Or.inl h
              · exact Or.inr (Or.inl ⟨hseen, hhit, (List.mem_singleton.mp h).symm⟩)
            · exact Or.inr (Or.inr ⟨e', he', fun h => hfresh (List.mem_cons_of_mem _ h), h⟩)
          · rintro (h | ⟨-, -, rfl⟩ | ⟨e', he', hfresh, hhit', rfl⟩)
            · exact Or.inl (List.mem_append_left _ h)
            · exact Or.inl (List.mem_append_right _ (List.mem_singleton_self _))
            · by_cases hkey : e'.1 = e.1
              · -- the same key again: it was collected just now
                have heq : e'.2 = e.2 :=
                  hes e' (List.mem_cons_of_mem _ he') e List.mem_cons_self hkey
                rw [heq]
                exact Or.inl (List.mem_append_right _ (List.mem_singleton_self _))
              · refine Or.inr ⟨e', he', ?_, hhit', rfl⟩
                intro h
                rcases List.mem_cons.mp h with h | h
                · exact hkey h
                · exact hfresh h
        · rw [if_neg hhit]
          constructor
          · rintro (h | h)
            · exact Or.inl h
            · exact Or.inr (Or.inr h)
          · rintro (h | ⟨-, h, -⟩ | h)
            · exact Or.inl h
            · exact absurd h hhit
            · exact Or.inr h

/-- No object is collected twice: its key is remembered. -/
theorem nodup_foldl_collect {hit : Nat → Bool} {key : Nat → Key ι}
    {es : List (Sigma fun _ : Key ι => Nat)} (hes : ∀ e ∈ es, key e.2 = e.1)
    {acc : List Nat × List (Key ι)} (hacc : acc.1.Nodup) (hkeys : ∀ r ∈ acc.1, key r ∈ acc.2) :
    (es.foldl (collect hit) acc).1.Nodup := by
  induction es generalizing acc with
  | nil => exact hacc
  | cons e es ih =>
      rw [List.foldl_cons]
      have htail : ∀ e ∈ es, key e.2 = e.1 := fun a ha => hes a (List.mem_cons_of_mem _ ha)
      have hkey : key e.2 = e.1 := hes e List.mem_cons_self
      unfold collect
      split_ifs with hseen hhit
      · exact ih htail hacc hkeys
      · apply ih htail
        · refine List.Nodup.append hacc (List.nodup_singleton _) ?_
          intro r hr hr'
          rw [List.mem_singleton.mp hr'] at hr
          exact hseen (hkey ▸ hkeys e.2 hr)
        · intro r hr
          rcases List.mem_append.mp hr with hr | hr
          · exact List.mem_cons_of_mem _ (hkeys r hr)
          · rw [List.mem_singleton.mp hr, hkey]
            exact List.mem_cons_self
      · exact ih htail hacc hkeys

namespace GridIndex

/-- The entries of the buckets of a range, in the order of the loops. -/
def entriesIn (g : GridIndex ι K) (range : CellRange) : List (Sigma fun _ : Key ι => Nat) :=
  range.cells.flatMap fun c =>
    match g.getBucket c with
    | none => []
    | some b => b.entries

theorem mem_entriesIn {g : GridIndex ι K} {range : CellRange}
    {e : Sigma fun _ : Key ι => Nat} :
    e ∈ g.entriesIn range ↔
      ∃ c ∈ range.cells, g.stored (g.bucketKey c) e.1 = some e.2 := by
  unfold entriesIn stored getBucket
  rw [List.mem_flatMap]
  constructor
  · rintro ⟨c, hc, he⟩
    refine ⟨c, hc, ?_⟩
    cases hb : g.buckets (g.bucketKey c) with
    | none => simp [hb] at he
    | some b =>
        rw [hb] at he
        exact AList.mem_lookup_iff.mpr he
  · rintro ⟨c, hc, he⟩
    refine ⟨c, hc, ?_⟩
    cases hb : g.buckets (g.bucketKey c) with
    | none => simp [hb] at he
    | some b =>
        rw [hb] at he
        exact AList.mem_lookup_iff.mp he

theorem scan_eq (g : GridIndex ι K) (range : CellRange) (hit : Nat → Bool) :
    g.scan range hit = ((g.entriesIn range).foldl (collect hit) ([], [])).1 := by
  unfold scan entriesIn
  rw [List.foldl_flatMap]
  congr 2
  funext acc c
  cases g.getBucket c <;> rfl

end GridIndex

/-! ## Buckets that are up to date -/

namespace World

/-- Every object is in the buckets of the cells of the place it was last handed over
at, and the buckets hold the object of the record. -/
structure Tracked [FloorRing K] (w : World ι K) : Prop where
  filed : w.grid.Filed
  key : ∀ k rec, w.grid.records k = some rec → objectKey w.heap rec.obj = k
  passed : ∀ k rec, w.grid.records k = some rec →
    ∃ p, w.passed rec.obj = some p ∧ w.grid.rangeForObj p = some rec.range
  current : ∀ k rec, w.grid.records k = some rec → ∀ c ∈ rec.range.cells,
    w.grid.stored (w.grid.bucketKey c) k = some rec.obj

/-- The object is in the index. -/
def Indexed (w : World ι K) (r : Nat) : Prop :=
  ∃ k rec, w.grid.records k = some rec ∧ rec.obj = r

/-- Every object of the index was last handed over at its present place. -/
def Settled (w : World ι K) : Prop :=
  ∀ r, w.Indexed r → w.passed r = some (w.heap r).toPlace ∧ 0 ≤ (w.heap r).radius

end World

theorem GridIndex.scan_spec [FloorRing K] {w : World ι K} (hw : w.Tracked)
    {range : CellRange} (hrange : range.Within w.grid.toLayout) (hit : Nat → Bool) :
    (w.grid.scan range hit).Nodup ∧
      ∀ r, r ∈ w.grid.scan range hit ↔
        hit r = true ∧ ∃ k rec, w.grid.records k = some rec ∧ rec.obj = r ∧
          ∃ c ∈ rec.range.cells, c ∈ range.cells := by
  -- an entry of a bucket is the object of a record
  have hentry : ∀ e ∈ w.grid.entriesIn range, ∃ rec, w.grid.records e.1 = some rec ∧
      rec.obj = e.2 ∧ ∃ c ∈ rec.range.cells, c ∈ range.cells := by
    intro e he
    obtain ⟨c, hc, hstored⟩ := GridIndex.mem_entriesIn.mp he
    obtain ⟨rec, hrec, hmem⟩ := (hw.filed.mem_bucket e.1 c (hrange.inGrid hc)).mp
      (by rw [hstored]; rfl)
    have hobj := hw.current e.1 rec hrec c hmem
    exact ⟨rec, hrec, Option.some.inj (hobj.symm.trans hstored), c, hmem, hc⟩
  rw [GridIndex.scan_eq]
  constructor
  · apply nodup_foldl_collect _ List.nodup_nil (by simp)
    · exact objectKey w.heap
    · intro e he
      obtain ⟨rec, hrec, hobj, -⟩ := hentry e he
      rw [← hobj]
      exact hw.key e.1 rec hrec
  · intro r
    rw [mem_foldl_collect]
    · constructor
      · rintro (h | ⟨e, he, -, hhit, rfl⟩)
        · cases h
        · obtain ⟨rec, hrec, hobj, hc⟩ := hentry e he
          exact ⟨hhit, e.1, rec, hrec, hobj, hc⟩
      · rintro ⟨hhit, k, rec, hrec, rfl, c, hc, hc'⟩
        refine Or.inr ⟨⟨k, rec.obj⟩, ?_, by simp, hhit, rfl⟩
        exact GridIndex.mem_entriesIn.mpr ⟨c, hc', hw.current k rec hrec c hc⟩
    · intro e he e' he' hkey
      obtain ⟨rec, hrec, hobj, -⟩ := hentry e he
      obtain ⟨rec', hrec', hobj', -⟩ := hentry e' he'
      rw [hkey] at hrec
      obtain rfl := Option.some.inj (hrec.symm.trans hrec')
      exact hobj.symm.trans hobj'

namespace World

variable [FloorRing K]

/-- The table does not take the place of another one with its key, or shares no cell
with it. -/
def Apart (w : World ι K) (r : Nat) : Prop :=
  ∀ rec, w.grid.records (objectKey w.heap r) = some rec → rec.obj ≠ r →
    ∀ range, w.grid.rangeForObj (w.heap r).toPlace = some range →
      ∀ c ∈ rec.range.cells, c ∉ range.cells

/-- The table is not in the index or touches the scene. -/
def Inside (w : World ι K) (r : Nat) : Prop :=
  ∀ rec, w.grid.records (objectKey w.heap r) = some rec → rec.obj = r →
    (w.grid.rangeForObj (w.heap r).toPlace).isSome

/-- The operations that keep the buckets up to date. -/
def Allowed (w : World ι K) : Op ι K → Prop
  | .add r => w.Apart r ∧ w.Inside r
  | .update r => w.Apart r
  | .upsert r => w.Apart r
  | _ => True

/-- Every operation of the sequence is allowed where it is made. -/
def AllowedRun (w : World ι K) : List (Op ι K) → Prop
  | [] => True
  | op :: ops => w.Allowed op ∧ (w.step op).AllowedRun ops

/-- An operation that hands over {lit}`r` and leaves its record, if any, at its place. -/
theorem Tracked.pass {w : World ι K} (hw : w.Tracked) {r : Nat} {g : GridIndex ι K}
    {rec : Option Record} (hfiled : g.Filed) (hlayout : g.toLayout = w.grid.toLayout)
    (hrecords : g.records = Function.update w.grid.records (objectKey w.heap r) rec)
    (hother : ∀ n k, k ≠ objectKey w.heap r → g.stored n k = w.grid.stored n k)
    (hrec : ∀ x, rec = some x → x.obj = r ∧
      w.grid.rangeForObj (w.heap r).toPlace = some x.range ∧
      ∀ c ∈ x.range.cells, g.stored (w.grid.bucketKey c) (objectKey w.heap r) = some r) :
    (w.pass r g).Tracked where
  filed := hfiled
  key := by
    intro k x hx
    simp only [World.pass, hrecords] at hx ⊢
    by_cases hk : k = objectKey w.heap r
    · subst hk
      rw [Function.update_self] at hx
      rw [(hrec x hx).1]
    · rw [Function.update_of_ne hk] at hx
      exact hw.key k x hx
  passed := by
    intro k x hx
    simp only [World.pass, hrecords, hlayout] at hx ⊢
    by_cases hk : k = objectKey w.heap r
    · subst hk
      rw [Function.update_self] at hx
      obtain ⟨hobj, hrange, -⟩ := hrec x hx
      rw [hobj, Function.update_self]
      exact ⟨_, rfl, hrange⟩
    · rw [Function.update_of_ne hk] at hx
      -- another key belongs to another table
      have hne : x.obj ≠ r := by
        rintro rfl
        exact hk (hw.key k x hx).symm
      rw [Function.update_of_ne hne]
      exact hw.passed k x hx
  current := by
    intro k x hx c hc
    simp only [World.pass, hrecords, hlayout] at hx ⊢
    by_cases hk : k = objectKey w.heap r
    · subst hk
      rw [Function.update_self] at hx
      obtain ⟨hobj, -, hstored⟩ := hrec x hx
      rw [hobj]
      exact hstored c hc
    · rw [Function.update_of_ne hk] at hx
      rw [hother _ _ hk]
      exact hw.current k x hx c hc

/-- Handing over a table that the index ignores. -/
theorem Tracked.pass_ignored {w : World ι K} (hw : w.Tracked) {r : Nat}
    (hignored : ∀ rec, w.grid.records (objectKey w.heap r) = some rec → rec.obj ≠ r) :
    (w.pass r w.grid).Tracked where
  filed := hw.filed
  key := hw.key
  passed := by
    intro k x hx
    have hne : x.obj ≠ r := by
      rintro rfl
      exact hignored x ((hw.key k x hx).symm ▸ hx) rfl
    simp only [World.pass, Function.update_of_ne hne]
    exact hw.passed k x hx
  current := hw.current

theorem Tracked.pass_remove {w : World ι K} (hw : w.Tracked) (r : Nat) :
    (w.pass r (w.grid.remove (objectKey w.heap r)).1).Tracked := by
  apply hw.pass (hw.filed.remove _) (GridIndex.remove_toLayout _ _)
    (GridIndex.remove_records _ _)
  · intro n k hk
    rw [GridIndex.stored_remove hw.filed, if_neg hk]
  · intro x hx
    cases hx

theorem Tracked.pass_enter {w : World ι K} (hw : w.Tracked) {r : Nat} {range : CellRange}
    (hrange : w.grid.rangeForObj (w.heap r).toPlace = some range)
    (hnone : w.grid.records (objectKey w.heap r) = none) :
    (w.pass r (w.grid.enter (objectKey w.heap r) r range)).Tracked := by
  apply hw.pass (hw.filed.enter hnone r (w.grid.within_of_cellRange hrange))
    (GridIndex.enter_toLayout _ _ _ _) (GridIndex.enter_records _ _ _ _)
  · intro n k hk
    rw [GridIndex.stored_enter, if_neg fun h => hk h.1]
  · intro x hx
    obtain rfl := Option.some.inj hx
    refine ⟨rfl, hrange, ?_⟩
    intro c hc
    rw [GridIndex.stored_enter, if_pos ⟨rfl, c, hc, rfl⟩]

theorem Tracked.pass_moveTo {w : World ι K} (hw : w.Tracked) {r : Nat} (hapart : w.Apart r)
    {range : CellRange} (hrange : w.grid.rangeForObj (w.heap r).toPlace = some range)
    {rec : Record} (hrec : w.grid.records (objectKey w.heap r) = some rec) :
    (w.pass r (w.grid.moveTo (objectKey w.heap r) r rec range).1).Tracked := by
  have hwithin := w.grid.within_of_cellRange hrange
  have hspec := GridIndex.stored_moveTo (hw.filed.covers hrec)
    (fun c hc => (hw.filed.within _ rec hrec).inGrid hc) r (fun c hc => hwithin.inGrid hc)
  apply hw.pass (hw.filed.moveTo hrec r hwithin) (GridIndex.moveTo_toLayout _ _ _ _ _)
    (GridIndex.moveTo_records _ _ _ _ _)
  · intro n k hk
    rw [hspec, if_neg hk]
  · intro x hx
    obtain rfl := Option.some.inj hx
    refine ⟨rfl, hrange, ?_⟩
    intro c hc
    rw [hspec, if_pos rfl, if_pos ⟨c, hc, rfl⟩]
    by_cases hd : ∃ d ∈ rec.range.cells, w.grid.bucketKey c = w.grid.bucketKey d
    · rw [if_pos hd]
      obtain ⟨d, hd, hcd⟩ := hd
      obtain rfl := w.grid.bucketKey_inj (hwithin.inGrid hc)
        ((hw.filed.within _ rec hrec).inGrid hd) hcd
      by_cases hobj : rec.obj = r
      · rw [hw.current _ rec hrec c hd, hobj]
      · exact absurd hc (hapart rec hrec hobj range hrange c hd)
    · rw [if_neg hd]

theorem Tracked.update {w : World ι K} (hw : w.Tracked) {r : Nat} (hapart : w.Apart r) :
    (w.pass r (w.grid.update w.heap r).1).Tracked := by
  unfold GridIndex.update
  simp only
  split
  · exact hw.pass_remove r
  · rename_i hnone
    apply hw.pass_ignored
    intro rec hrec
    rw [hnone] at hrec
    cases hrec
  · rename_i range hrange hnone
    exact hw.pass_enter hrange hnone
  · rename_i range rec hrange hrec
    exact hw.pass_moveTo hapart hrange hrec

theorem Tracked.add {w : World ι K} (hw : w.Tracked) {r : Nat} (hapart : w.Apart r)
    (hinside : w.Inside r) : (w.pass r (w.grid.add w.heap r).1).Tracked := by
  cases hrange : w.grid.rangeForObj (w.heap r).toPlace with
  | none =>
      have hadd : (w.grid.add w.heap r).1 = w.grid := by
        simp only [GridIndex.add, hrange]
      rw [hadd]
      apply hw.pass_ignored
      intro rec hrec hobj
      have := hinside rec hrec hobj
      rw [hrange] at this
      cases this
  | some range =>
      cases hrec : w.grid.records (objectKey w.heap r) with
      | none =>
          have hadd : (w.grid.add w.heap r).1 = w.grid.enter (objectKey w.heap r) r range := by
            simp only [GridIndex.add, hrange, hrec]
          rw [hadd]
          exact hw.pass_enter hrange hrec
      | some rec =>
          rw [GridIndex.add_of_record _ hrec hrange]
          exact hw.pass_moveTo hapart hrange hrec

/-- An allowed operation keeps the buckets up to date. -/
theorem step_tracked {w : World ι K} (hw : w.Tracked) {op : Op ι K} (hop : w.Allowed op) :
    (w.step op).Tracked := by
  cases op with
  | move r p =>
      have hkey : ∀ o, objectKey (Function.update w.heap r { w.heap r with toPlace := p }) o =
          objectKey w.heap o := by
        intro o
        unfold objectKey
        by_cases ho : o = r
        · subst ho
          simp
        · rw [Function.update_of_ne ho]
      exact ⟨hw.filed, fun k rec hrec => (hkey rec.obj).trans (hw.key k rec hrec), hw.passed,
        hw.current⟩
  | add r => exact hw.add hop.1 hop.2
  | update r => exact hw.update hop
  | upsert r =>
      unfold step GridIndex.upsert
      simp only
      cases hrec : w.grid.records (objectKey w.heap r) with
      | some rec => exact hw.update hop
      | none =>
          refine hw.add hop ?_
          intro rec hrec'
          rw [hrec] at hrec'
          cases hrec'
  | remove k =>
      have hrecords : ∀ k' rec, (w.grid.remove k).1.records k' = some rec →
          k' ≠ k ∧ w.grid.records k' = some rec := by
        intro k' rec h
        rw [GridIndex.remove_records] at h
        by_cases hk : k' = k
        · subst hk
          rw [Function.update_self] at h
          cases h
        · rw [Function.update_of_ne hk] at h
          exact ⟨hk, h⟩
      refine ⟨hw.filed.remove k, ?_, ?_, ?_⟩
      · intro k' rec h
        exact hw.key k' rec (hrecords k' rec h).2
      · intro k' rec h
        simp only [step, GridIndex.remove_toLayout]
        exact hw.passed k' rec (hrecords k' rec h).2
      · intro k' rec h c hc
        simp only [step, GridIndex.remove_toLayout]
        rw [GridIndex.stored_remove hw.filed, if_neg (hrecords k' rec h).1]
        exact hw.current k' rec (hrecords k' rec h).2 c hc
  | clear =>
      refine ⟨step_filed hw.filed .clear, ?_, ?_, ?_⟩ <;> intro k rec h <;> cases h

theorem run_tracked {w : World ι K} (hw : w.Tracked) {ops : List (Op ι K)}
    (hops : w.AllowedRun ops) : (w.run ops).Tracked := by
  induction ops generalizing w with
  | nil => exact hw
  | cons op ops ih => exact ih (step_tracked hw hops.1) hops.2

/-! ## Keys that are not touched -/

theorem update_records_of_ne (g : GridIndex ι K) (heap : Nat → Obj ι K) (r : Nat)
    {k : Key ι} (hk : k ≠ objectKey heap r) : (g.update heap r).1.records k = g.records k := by
  unfold GridIndex.update
  simp only
  split
  · rw [GridIndex.remove_records, Function.update_of_ne hk]
  · rfl
  · rw [GridIndex.enter_records, Function.update_of_ne hk]
  · rw [GridIndex.moveTo_records, Function.update_of_ne hk]

theorem add_records_of_ne (g : GridIndex ι K) (heap : Nat → Obj ι K) (r : Nat)
    {k : Key ι} (hk : k ≠ objectKey heap r) : (g.add heap r).1.records k = g.records k := by
  unfold GridIndex.add
  simp only
  split
  · rfl
  · rw [GridIndex.enter_records, Function.update_of_ne hk]
  · rw [update_records_of_ne _ _ _ hk, GridIndex.setRecord_records, Function.update_of_ne hk]

theorem upsert_records_of_ne (g : GridIndex ι K) (heap : Nat → Obj ι K) (r : Nat)
    {k : Key ι} (hk : k ≠ objectKey heap r) : (g.upsert heap r).1.records k = g.records k := by
  unfold GridIndex.upsert
  split
  · exact update_records_of_ne g heap r hk
  · exact add_records_of_ne g heap r hk

/-! ## The layout never changes -/

theorem update_toLayout (g : GridIndex ι K) (heap : Nat → Obj ι K) (r : Nat) :
    (g.update heap r).1.toLayout = g.toLayout := by
  unfold GridIndex.update
  simp only
  split <;> simp

theorem add_toLayout (g : GridIndex ι K) (heap : Nat → Obj ι K) (r : Nat) :
    (g.add heap r).1.toLayout = g.toLayout := by
  unfold GridIndex.add
  simp only
  split <;> simp [update_toLayout]

theorem step_toLayout (w : World ι K) (op : Op ι K) :
    (w.step op).grid.toLayout = w.grid.toLayout := by
  cases op with
  | move r p => rfl
  | add r => exact add_toLayout w.grid w.heap r
  | update r => exact update_toLayout w.grid w.heap r
  | upsert r =>
      unfold step GridIndex.upsert
      simp only
      split
      · exact update_toLayout w.grid w.heap r
      · exact add_toLayout w.grid w.heap r
  | remove k => exact GridIndex.remove_toLayout w.grid k
  | clear => rfl

theorem run_toLayout (w : World ι K) (ops : List (Op ι K)) :
    (w.run ops).grid.toLayout = w.grid.toLayout := by
  induction ops generalizing w with
  | nil => rfl
  | cons op ops ih => exact (ih (w.step op)).trans (step_toLayout w op)

end World

/-! ## Queries and full scans -/

/-- The box of the scene. -/
def Layout.box (g : Layout K) : Box K where
  minX := g.minX
  minY := g.minY
  maxX := g.maxX
  maxY := g.maxY

omit [DecidableEq ι] in
/-- A box has cells exactly when it overlaps the scene. -/
theorem Layout.cellRange_isSome [FloorRing K] (g : Layout K) (b : Box K) :
    (g.cellRangeForAabb b.minX b.minY b.maxX b.maxY).isSome ↔ b.Overlaps g.box := by
  unfold Layout.cellRangeForAabb
  split_ifs with h
  · refine iff_of_false (by simp) ?_
    intro hb
    have hl := hb.left
    have hr := hb.right
    have hd := hb.below
    have hu := hb.above
    simp only [Layout.box] at hl hr hd hu
    rcases h with h | h | h | h
    · exact absurd h (not_lt.mpr hr)
    · exact absurd h (not_lt.mpr hu)
    · exact absurd h (not_lt.mpr hl)
    · exact absurd h (not_lt.mpr hd)
  · refine iff_of_true (by simp) ?_
    simp only [not_or, not_lt, gt_iff_lt] at h
    exact ⟨h.2.2.1, h.1, h.2.2.2, h.2.1⟩

/-- The disc of a place. -/
def Place.disc (p : Place K) : Set (K × K) := Plane.disc p.x p.y p.radius

/-- The box of a place. -/
def Place.box (p : Place K) : Box K := Box.around p.x p.y p.radius

variable [FloorRing K] [IsStrictOrderedRing K]

/-- A query with the box {lit}`b` that compares every object it meets returns the objects
that are hit, when a hit means that the box of the object overlaps the query. -/
theorem GridIndex.scan_full {w : World ι K} (hw : w.Tracked) (hs : w.Settled) {b : Box K}
    (hb : b.Proper) {range : CellRange}
    (hrange : w.grid.cellRangeForAabb b.minX b.minY b.maxX b.maxY = some range)
    {hit : Nat → Bool}
    (hhit : ∀ r, w.Indexed r → hit r = true → (w.heap r).toPlace.box.Overlaps b) :
    (w.grid.scan range hit).Nodup ∧
      ∀ r, r ∈ w.grid.scan range hit ↔ w.Indexed r ∧ hit r = true := by
  obtain ⟨hnodup, hmem⟩ := GridIndex.scan_spec hw (w.grid.within_of_cellRange hrange) hit
  refine ⟨hnodup, ?_⟩
  intro r
  rw [hmem]
  constructor
  · rintro ⟨h, k, rec, hrec, hobj, -⟩
    exact ⟨⟨k, rec, hrec, hobj⟩, h⟩
  · rintro ⟨⟨k, rec, hrec, rfl⟩, h⟩
    refine ⟨h, k, rec, hrec, rfl, ?_⟩
    -- the record has the cells of the present place
    obtain ⟨p, hpassed, hp⟩ := hw.passed k rec hrec
    obtain ⟨hpresent, hradius⟩ := hs rec.obj ⟨k, rec, hrec, rfl⟩
    obtain rfl := Option.some.inj (hpassed.symm.trans hpresent)
    exact w.grid.exists_common_cell (around_proper _ _ hradius) hb
      (hhit rec.obj ⟨k, rec, hrec, rfl⟩ h) hp hrange

omit [DecidableEq ι] [FloorRing K] in
theorem Place.overlaps_of_meets {p : Place K} (hp : 0 ≤ p.radius) {b : Box K} {s : Set (K × K)}
    (hs : s ⊆ b.points) (h : (p.disc ∩ s).Nonempty) : p.box.Overlaps b := by
  obtain ⟨q, hq, hq'⟩ := h
  exact Box.overlaps_of_mem (disc_subset_around _ _ hp hq) (hs hq')

omit [DecidableEq ι] [FloorRing K] in
theorem GridIndex.hitsCircle_iff {heap : Nat → Obj ι K} {r : Nat}
    (hr : 0 ≤ (heap r).radius) (cx cy : K) {radius : K} (hradius : 0 ≤ radius) :
    hitsCircle heap cx cy radius r = true ↔
      ((heap r).disc ∩ disc cx cy radius).Nonempty := by
  unfold hitsCircle Place.disc
  rw [disc_meets_disc hr hradius, decide_eq_true_eq]

omit [DecidableEq ι] [FloorRing K] in
theorem GridIndex.hitsRect_iff {heap : Nat → Obj ι K} {r : Nat}
    (hr : 0 ≤ (heap r).radius) {b : Box K} (hb : b.Proper) :
    hitsRect heap b.minX b.minY b.maxX b.maxY r = true ↔
      ((heap r).disc ∩ b.points).Nonempty := by
  unfold hitsRect Place.disc
  simp only
  split_ifs with hpos
  · unfold circleIntersectsRect
    rw [disc_meets_box hb, decide_eq_true_eq]
  · have hzero : (heap r).radius = 0 := le_antisymm (not_lt.mp hpos) hr
    rw [hzero, point_meets_box, decide_eq_true_eq]
    rfl

/-- After a sequence of allowed operations on a new index, whenever every object of the
index was last handed over at its present place: the queries return exactly the objects
of the index that meet the circle or the rectangle, each once, and nothing when the box
of the query does not overlap the scene. -/
theorem queries_full_scan {bounds : Bounds K} {cellSize : K} {g : GridIndex ι K}
    (hnew : new bounds cellSize = some g) (heap : Nat → Obj ι K) (ops : List (Op ι K))
    (hops : World.AllowedRun ⟨g, heap, fun _ => none⟩ ops)
    (hsettled : (World.run ⟨g, heap, fun _ => none⟩ ops).Settled) :
    let w := World.run ⟨g, heap, fun _ => none⟩ ops
    (∀ cx cy radius, 0 ≤ radius →
      (w.grid.queryCircle w.heap cx cy radius).Nodup ∧
      ((Box.around cx cy radius).Overlaps bounds.box →
        ∀ r, r ∈ w.grid.queryCircle w.heap cx cy radius ↔
          w.Indexed r ∧ ((w.heap r).disc ∩ disc cx cy radius).Nonempty) ∧
      (¬(Box.around cx cy radius).Overlaps bounds.box →
        w.grid.queryCircle w.heap cx cy radius = [])) ∧
    ∀ b : Box K, b.Proper →
      (w.grid.queryRect w.heap b.minX b.minY b.maxX b.maxY).Nodup ∧
      (b.Overlaps bounds.box →
        ∀ r, r ∈ w.grid.queryRect w.heap b.minX b.minY b.maxX b.maxY ↔
          w.Indexed r ∧ ((w.heap r).disc ∩ b.points).Nonempty) ∧
      (¬b.Overlaps bounds.box →
        w.grid.queryRect w.heap b.minX b.minY b.maxX b.maxY = []) := by
  intro w
  have hstart : (⟨g, heap, fun _ => none⟩ : World ι K).Tracked := by
    have hrecords : ∀ k, g.records k = none := by
      unfold new at hnew
      split_ifs at hnew
      obtain rfl := Option.some.inj hnew
      exact fun _ => rfl
    refine ⟨new_filed hnew, ?_, ?_, ?_⟩ <;> intro k rec hrec <;> rw [hrecords] at hrec <;>
      cases hrec
  have hw : w.Tracked := World.run_tracked hstart hops
  have hbox : w.grid.toLayout.box = bounds.box := by
    rw [World.run_toLayout]
    unfold new at hnew
    split_ifs at hnew
    obtain rfl := Option.some.inj hnew
    rfl
  have hradius : ∀ r, w.Indexed r → 0 ≤ (w.heap r).radius := fun r hr => (hsettled r hr).2
  constructor
  · intro cx cy radius hr
    have hsome := w.grid.cellRange_isSome (Box.around cx cy radius)
    rw [hbox] at hsome
    unfold GridIndex.queryCircle
    cases hrange : w.grid.cellRangeForAabb (cx - radius) (cy - radius) (cx + radius)
        (cy + radius) with
    | none =>
        have hout : ¬(Box.around cx cy radius).Overlaps bounds.box := by
          rw [← hsome]
          simp [Box.around, hrange]
        exact ⟨List.nodup_nil, fun h => absurd h hout, fun _ => rfl⟩
    | some range =>
        have hin : (Box.around cx cy radius).Overlaps bounds.box := by
          rw [← hsome]
          simp [Box.around, hrange]
        obtain ⟨hnodup, hmem⟩ := GridIndex.scan_full hw hsettled (around_proper cx cy hr) hrange
          (by
            intro r hindexed hhit
            rw [GridIndex.hitsCircle_iff (hradius r hindexed) cx cy hr] at hhit
            exact Place.overlaps_of_meets (hradius r hindexed) (disc_subset_around cx cy hr) hhit)
        refine ⟨hnodup, ?_, fun h => absurd hin h⟩
        intro _ r
        rw [hmem]
        apply and_congr_right
        intro hindexed
        exact GridIndex.hitsCircle_iff (hradius r hindexed) cx cy hr
  · intro b hb
    have hsome := w.grid.cellRange_isSome b
    rw [hbox] at hsome
    unfold GridIndex.queryRect
    cases hrange : w.grid.cellRangeForAabb b.minX b.minY b.maxX b.maxY with
    | none =>
        have hout : ¬b.Overlaps bounds.box := by
          rw [← hsome]
          simp [hrange]
        exact ⟨List.nodup_nil, fun h => absurd h hout, fun _ => rfl⟩
    | some range =>
        have hin : b.Overlaps bounds.box := by
          rw [← hsome]
          simp [hrange]
        obtain ⟨hnodup, hmem⟩ := GridIndex.scan_full hw hsettled hb hrange
          (by
            intro r hindexed hhit
            rw [GridIndex.hitsRect_iff (hradius r hindexed) hb] at hhit
            exact Place.overlaps_of_meets (hradius r hindexed) (Set.Subset.refl _) hhit)
        refine ⟨hnodup, ?_, fun h => absurd hin h⟩
        intro _ r
        rw [hmem]
        apply and_congr_right
        intro hindexed
        exact GridIndex.hitsRect_iff (hradius r hindexed) hb

end Model

/-! ## Queries that miss an object -/

/-- Two tables with the id 7 in different places of one cell. -/
def apart : Nat → Obj Nat Rat := fun r =>
  { x := if r = 0 then 2 else 8, y := 5, size := some 1, id := some 7 }

/-- A new index into which the tables {lit}`rs` were put. -/
def upserted (bounds : Bounds Rat) (heap : Nat → Obj Nat Rat) (rs : List Nat) : World Nat Rat :=
  World.run ⟨empty bounds 10 (by norm_num), heap, fun _ => none⟩ (rs.map .upsert)

/-- Only the keys of these tables have records. -/
theorem upserted_records (rs : List Nat) {w : World Nat Rat} {k : Key Nat}
    (hw : w.grid.records k = none) (hk : ∀ r ∈ rs, k ≠ objectKey w.heap r) :
    (w.run (rs.map .upsert)).grid.records k = none := by
  induction rs generalizing w with
  | nil => exact hw
  | cons r rs ih =>
      rw [List.map_cons]
      have hkey : k ≠ objectKey w.heap r := hk r List.mem_cons_self
      refine ih ?_ fun r' hr => hk r' (List.mem_cons_of_mem _ hr)
      exact (World.upsert_records_of_ne w.grid w.heap r hkey).trans hw

/-- It is enough to look at the records of these tables. -/
theorem upserted_settled {bounds : Bounds Rat} {heap : Nat → Obj Nat Rat} (rs : List Nat)
    (h : ∀ r ∈ rs, ((upserted bounds heap rs).grid.records (objectKey heap r)).all (fun rec =>
      (upserted bounds heap rs).passed rec.obj =
          some ((upserted bounds heap rs).heap rec.obj).toPlace ∧
        0 ≤ ((upserted bounds heap rs).heap rec.obj).radius) = true) :
    (upserted bounds heap rs).Settled := by
  rintro r ⟨k, rec, hrec, rfl⟩
  by_cases hk : ∃ r ∈ rs, k = objectKey heap r
  · obtain ⟨r, hr, rfl⟩ := hk
    have hrec' := h r hr
    rw [hrec] at hrec'
    exact of_decide_eq_true hrec'
  · have hnone : (upserted bounds heap rs).grid.records k = none :=
      upserted_records rs rfl fun r hr heq => hk ⟨r, hr, heq⟩
    rw [hnone] at hrec
    cases hrec

/-- A table that takes no other table's record. -/
theorem World.Apart.of_own {w : World Nat Rat} {r : Nat}
    (h : (w.grid.records (objectKey w.heap r)).all (fun rec => rec.obj = r) = true) : w.Apart r := by
  intro rec hrec hne
  rw [hrec] at h
  exact absurd (of_decide_eq_true h) hne

/-- Three tables, one of them in all four cells and put in twice. -/
theorem queries_full_scan_crowd :
    let w := upserted fourCells crowd [0, 1, 2, 1]
    w.grid.queryCircle w.heap 12 9 3 = [1, 2] ∧
    (∀ cx cy radius, 0 ≤ radius →
      (w.grid.queryCircle w.heap cx cy radius).Nodup ∧
      ((Box.around cx cy radius).Overlaps fourCells.box →
        ∀ r, r ∈ w.grid.queryCircle w.heap cx cy radius ↔
          w.Indexed r ∧ ((w.heap r).disc ∩ disc cx cy radius).Nonempty) ∧
      (¬(Box.around cx cy radius).Overlaps fourCells.box →
        w.grid.queryCircle w.heap cx cy radius = [])) ∧
    ∀ b : Box Rat, b.Proper →
      (w.grid.queryRect w.heap b.minX b.minY b.maxX b.maxY).Nodup ∧
      (b.Overlaps fourCells.box →
        ∀ r, r ∈ w.grid.queryRect w.heap b.minX b.minY b.maxX b.maxY ↔
          w.Indexed r ∧ ((w.heap r).disc ∩ b.points).Nonempty) ∧
      (¬b.Overlaps fourCells.box →
        w.grid.queryRect w.heap b.minX b.minY b.maxX b.maxY = []) := by
  refine ⟨by decide +kernel, ?_⟩
  apply queries_full_scan (dif_pos (by norm_num)) crowd ([0, 1, 2, 1].map .upsert)
  · exact ⟨.of_own (by decide +kernel), .of_own (by decide +kernel), .of_own (by decide +kernel),
      .of_own (by decide +kernel), trivial⟩
  · exact upserted_settled [0, 1, 2, 1] (by decide +kernel)

/-- The second of two tables with one id is recorded, but the bucket keeps the first, and
a circle around the second finds nothing. -/
theorem query_misses_twin :
    ¬ ∀ (bounds : Bounds Rat) (cellSize : Rat) (g : GridIndex Nat Rat),
      new bounds cellSize = some g → ∀ (heap : Nat → Obj Nat Rat) (ops : List (Op Nat Rat)),
        let w := World.run ⟨g, heap, fun _ => none⟩ ops
        w.Settled → ∀ cx cy radius, 0 ≤ radius →
          (Box.around cx cy radius).Overlaps bounds.box →
            ∀ r, w.Indexed r → ((w.heap r).disc ∩ disc cx cy radius).Nonempty →
              r ∈ w.grid.queryCircle w.heap cx cy radius := by
  intro h
  have hmem := h oneCell 10 (empty oneCell 10 (by norm_num)) (dif_pos (by norm_num)) apart
    [.upsert 0, .upsert 1]
    (upserted_settled [0, 1] (by decide +kernel))
    8 5 1 (by norm_num)
    (by constructor <;> norm_num [Box.around, Bounds.box, oneCell]) 1
    ⟨.id 7, ⟨1, ⟨0, 0, 0, 0⟩⟩, by decide +kernel, rfl⟩
    ⟨(8, 5), by
      show ((8 : Rat), (5 : Rat)) ∈ (apart 1).disc
      norm_num [Place.disc, disc, apart, Place.radius], by norm_num [disc]⟩
  revert hmem
  decide +kernel

/-- {lit}`add` keeps the record of an object that has left the scene; {lit}`update` would
take it out.  The object reaches into the scene with a circle that sticks out, but stands
in a bucket the query does not look into. -/
theorem query_misses_outside :
    let w := World.run (⟨empty { oneCell with width := 20 } 10 (by norm_num),
        fun _ => { x := 15, y := 5, size := some 1, id := some 7 }, fun _ => none⟩ :
          World Nat Rat)
      [.add 0, .move 0 { x := -3, y := 5, size := some 1 }, .add 0]
    w.Indexed 0 ∧ w.passed 0 = some (w.heap 0).toPlace ∧
      ((w.heap 0).disc ∩ disc (-1) 5 2).Nonempty ∧
      0 ∉ w.grid.queryCircle w.heap (-1) 5 2 := by
  refine ⟨⟨.id 7, ⟨0, ⟨1, 0, 1, 0⟩⟩, by decide +kernel, rfl⟩, by decide +kernel,
    ⟨(-2, 5), ?_, ?_⟩, by decide +kernel⟩
  · show ((-2 : Rat), (5 : Rat)) ∈ Place.disc (⟨-3, 5, some 1⟩ : Place Rat)
    norm_num [Place.disc, disc, Place.radius]
  · norm_num [disc]

end BallServer.Grid
