import BallServer.GridIndex.Buckets

/-!
# Adding, updating and upserting an object

The grid index has three entry points for an object that may or may not be in it
already.  {lit}`upsert` picks one of the other two, {lit}`update` calls {lit}`add` for a
new object and {lit}`add` calls {lit}`update` for a known one, so one expects that it does
not matter which of them is called.

It matters for an object whose key is recorded and that has left the scene:
{lit}`add` returns before it looks for a record.  And all three leave the buckets of
the cells in both the old and the new range alone, also when the recorded object is
another table with the same id.

Main results:

- Definition {lit}`GridIndex.Interchangeable`: the three entry points leave the same
  index, which has the object at its present range.
- Theorem {lit}`interchangeable_iff`: they are interchangeable exactly when the object is
  new to the index, or inside the scene and already in the buckets of both ranges.
-/

namespace BallServer.Grid

open BallServer Plane

section Model

variable {ι K : Type} [Field K] [LinearOrder K] [DecidableEq ι] [FloorRing K]

namespace GridIndex

/-! ## An indexed object -/

/-- The table {lit}`r` is in the index at its present range, under its record and in every
bucket, or not at all when it is out of bounds. -/
def IndexedAs (g : GridIndex ι K) (heap : Nat → Obj ι K) (r : Nat) : Prop :=
  match g.rangeForObj (heap r).toPlace with
  | none =>
      g.records (objectKey heap r) = none ∧ ∀ n, g.stored n (objectKey heap r) = none
  | some range =>
      g.records (objectKey heap r) = some ⟨r, range⟩ ∧
        ∀ n, g.stored n (objectKey heap r) =
          if ∃ c ∈ range.cells, n = g.bucketKey c then some r else none

/-- The buckets refer to no other table under the key of an indexed object. -/
theorem IndexedAs.eq_of_stored {g : GridIndex ι K} {heap : Nat → Obj ι K} {r : Nat}
    (h : g.IndexedAs heap r) {n : Int} {o : Nat} (ho : g.stored n (objectKey heap r) = some o) :
    o = r := by
  unfold IndexedAs at h
  split at h
  · rw [h.2 n] at ho
    cases ho
  · rw [h.2 n] at ho
    split_ifs at ho
    exact (Option.some.inj ho).symm

/-- {lit}`add`, {lit}`update` and {lit}`upsert` of {lit}`r` leave the same buckets and
records, and {lit}`r` is indexed in them. -/
structure Interchangeable (g : GridIndex ι K) (heap : Nat → Obj ι K) (r : Nat) : Prop where
  add_same : (g.add heap r).1.Same (g.update heap r).1
  upsert_same : (g.upsert heap r).1.Same (g.update heap r).1
  add_indexed : (g.add heap r).1.IndexedAs heap r
  update_indexed : (g.update heap r).1.IndexedAs heap r
  upsert_indexed : (g.upsert heap r).1.IndexedAs heap r

/-- An object whose key is recorded is inside the scene, and the buckets of both its old
and its present range hold this very table. -/
def Renewable (g : GridIndex ι K) (heap : Nat → Obj ι K) (r : Nat) : Prop :=
  ∀ rec, g.records (objectKey heap r) = some rec →
    g.rangeForObj (heap r).toPlace ≠ none ∧ g.Current heap r rec

/-- One index for all three entry points is enough. -/
theorem Interchangeable.of_eq {g g' : GridIndex ι K} {heap : Nat → Obj ι K} {r : Nat}
    (hadd : (g.add heap r).1 = g') (hupdate : (g.update heap r).1 = g')
    (hupsert : (g.upsert heap r).1 = g') (h : g'.IndexedAs heap r) :
    g.Interchangeable heap r where
  add_same := by
    rw [hadd, hupdate]
    exact Same.refl g'
  upsert_same := by
    rw [hupsert, hupdate]
    exact Same.refl g'
  add_indexed := by rwa [hadd]
  update_indexed := by rwa [hupdate]
  upsert_indexed := by rwa [hupsert]

/-! ## The three entry points -/

/-- Without a record {lit}`upsert` is {lit}`add`. -/
theorem upsert_of_no_record {g : GridIndex ι K} {heap : Nat → Obj ι K} {r : Nat}
    (h : g.records (objectKey heap r) = none) : g.upsert heap r = g.add heap r := by
  simp only [upsert, h]

/-- With a record {lit}`upsert` is {lit}`update`. -/
theorem upsert_of_record {g : GridIndex ι K} {heap : Nat → Obj ι K} {r : Nat} {rec : Record}
    (h : g.records (objectKey heap r) = some rec) : g.upsert heap r = g.update heap r := by
  simp only [upsert, h]

/-- Without a record {lit}`add` is {lit}`update`. -/
theorem add_of_no_record {g : GridIndex ι K} {heap : Nat → Obj ι K} {r : Nat}
    (h : g.records (objectKey heap r) = none) : g.add heap r = g.update heap r := by
  unfold add update
  cases g.rangeForObj (heap r).toPlace <;> simp only [h]

/-- A new object inside the scene is put into the buckets of its range. -/
theorem enter_indexedAs {g : GridIndex ι K} (hg : g.Filed) {heap : Nat → Obj ι K} {r : Nat}
    (hrec : g.records (objectKey heap r) = none) {range : CellRange}
    (hrange : g.rangeForObj (heap r).toPlace = some range) :
    (g.enter (objectKey heap r) r range).IndexedAs heap r := by
  unfold IndexedAs
  simp only [enter_toLayout, hrange]
  refine ⟨?_, ?_⟩
  · rw [enter_records, Function.update_self]
  · intro n
    rw [stored_enter, hg.stored_eq_none hrec]
    simp only [true_and]

/-- An index without the key does not have an object that is out of bounds. -/
theorem indexedAs_of_none {g : GridIndex ι K} (hg : g.Filed) {heap : Nat → Obj ι K} {r : Nat}
    (hrec : g.records (objectKey heap r) = none)
    (hrange : g.rangeForObj (heap r).toPlace = none) : g.IndexedAs heap r := by
  unfold IndexedAs
  simp only [hrange]
  exact ⟨hrec, hg.stored_eq_none hrec⟩

/-- An object that is new to the index may be handed to any of the three. -/
theorem interchangeable_of_no_record {g : GridIndex ι K} (hg : g.Filed)
    {heap : Nat → Obj ι K} {r : Nat} (hrec : g.records (objectKey heap r) = none) :
    g.Interchangeable heap r := by
  have hadd : g.add heap r = g.update heap r := add_of_no_record hrec
  have hupsert : g.upsert heap r = g.update heap r := by
    rw [upsert_of_no_record hrec, hadd]
  cases hrange : g.rangeForObj (heap r).toPlace with
  | none =>
      have hupdate : (g.update heap r).1 = g := by simp only [update, hrange, hrec]
      exact Interchangeable.of_eq (by rw [hadd, hupdate]) hupdate (by rw [hupsert, hupdate])
        (indexedAs_of_none hg hrec hrange)
  | some range =>
      have hupdate : (g.update heap r).1 = g.enter (objectKey heap r) r range := by
        simp only [update, hrange, hrec]
      exact Interchangeable.of_eq (by rw [hadd, hupdate]) hupdate (by rw [hupsert, hupdate])
        (enter_indexedAs hg hrec hrange)

/-- After a known object has moved it is indexed exactly when the buckets that were left
alone hold it. -/
theorem moveTo_indexedAs_iff {g : GridIndex ι K} (hg : g.Filed) {heap : Nat → Obj ι K}
    {r : Nat} {rec : Record} (hrec : g.records (objectKey heap r) = some rec)
    {range : CellRange} (hrange : g.rangeForObj (heap r).toPlace = some range) :
    (g.moveTo (objectKey heap r) r rec range).1.IndexedAs heap r ↔ g.Current heap r rec := by
  have hwithin := g.within_of_cellRange hrange
  have hold : ∀ c ∈ rec.range.cells, g.InGrid c := fun c hc => (hg.within _ rec hrec).inGrid hc
  have hnew : ∀ c ∈ range.cells, g.InGrid c := fun c hc => hwithin.inGrid hc
  have hstored := stored_moveTo (hg.covers hrec) hold r hnew
  unfold IndexedAs
  simp only [moveTo_toLayout, hrange, moveTo_records, Function.update_self, true_and, hstored,
    if_true]
  constructor
  · intro h range' hrange' c hc hc'
    obtain rfl := Option.some.inj (hrange.symm.trans hrange')
    have hbucket := h (g.bucketKey c)
    rwa [if_pos ⟨c, hc', rfl⟩, if_pos ⟨c, hc, rfl⟩, if_pos ⟨c, hc', rfl⟩] at hbucket
  · intro hcurrent n
    by_cases hc : ∃ c ∈ range.cells, n = g.bucketKey c
    · rw [if_pos hc, if_pos hc]
      by_cases hd : ∃ c ∈ rec.range.cells, n = g.bucketKey c
      · rw [if_pos hd]
        obtain ⟨c, hc, rfl⟩ := hc
        obtain ⟨d, hd, hcd⟩ := hd
        obtain rfl := g.bucketKey_inj (hnew c hc) (hold d hd) hcd
        exact hcurrent range hrange c hd hc
      · rw [if_neg hd]
    · rw [if_neg hc, if_neg hc]

/-- An object that is in the index may be handed to any of the three exactly when it is
inside the scene and in the buckets that are left alone. -/
theorem interchangeable_of_record_iff {g : GridIndex ι K} (hg : g.Filed)
    {heap : Nat → Obj ι K} {r : Nat} {rec : Record}
    (hrec : g.records (objectKey heap r) = some rec) :
    g.Interchangeable heap r ↔
      g.rangeForObj (heap r).toPlace ≠ none ∧ g.Current heap r rec := by
  cases hrange : g.rangeForObj (heap r).toPlace with
  | none =>
      -- the record stays after add and goes with update
      have hadd : (g.add heap r).1 = g := by simp only [add, hrange]
      have hupdate : (g.update heap r).1 = (g.remove (objectKey heap r)).1 := by
        simp only [update, hrange, hrec]
      refine iff_of_false (fun h => ?_) (fun h => h.1 rfl)
      have hrecords := congrFun h.add_same.records (objectKey heap r)
      rw [hadd, hupdate, remove_records, Function.update_self, hrec] at hrecords
      cases hrecords
  | some range =>
      have hadd : (g.add heap r).1 = (g.moveTo (objectKey heap r) r rec range).1 := by
        rw [g.add_of_record hrec hrange]
      have hupdate : (g.update heap r).1 = (g.moveTo (objectKey heap r) r rec range).1 := by
        simp only [update, hrange, hrec]
      have hupsert : (g.upsert heap r).1 = (g.moveTo (objectKey heap r) r rec range).1 := by
        rw [upsert_of_record hrec, hupdate]
      constructor
      · intro h
        have hindexed := h.update_indexed
        rw [hupdate, moveTo_indexedAs_iff hg hrec hrange] at hindexed
        exact ⟨by simp, hindexed⟩
      · rintro ⟨-, hcurrent⟩
        exact Interchangeable.of_eq hadd hupdate hupsert
          ((moveTo_indexedAs_iff hg hrec hrange).mpr hcurrent)

theorem Filed.interchange_iff {g : GridIndex ι K} (hg : g.Filed) (heap : Nat → Obj ι K)
    (r : Nat) : g.Interchangeable heap r ↔ g.Renewable heap r := by
  unfold Renewable
  cases hrec : g.records (objectKey heap r) with
  | none =>
      refine iff_of_true (interchangeable_of_no_record hg hrec) ?_
      intro rec h
      cases h
  | some rec =>
      rw [interchangeable_of_record_iff hg hrec]
      constructor
      · intro h rec' hrec'
        obtain rfl := Option.some.inj hrec'
        exact h
      · intro h
        exact h rec rfl

end GridIndex

/-- After any sequence of operations on a new index, {lit}`add`, {lit}`update` and
{lit}`upsert` of an object are interchangeable exactly when its key is not recorded, or it is
inside the scene and in the buckets of the cells of both its old and its present range. -/
theorem interchangeable_iff {bounds : Bounds K} {cellSize : K} {g : GridIndex ι K}
    (hnew : new bounds cellSize = some g) (heap : Nat → Obj ι K) (ops : List (Op ι K))
    (r : Nat) :
    let w := World.run ⟨g, heap, fun _ => none⟩ ops
    w.grid.Interchangeable w.heap r ↔ w.grid.Renewable w.heap r := by
  have hfiled : (World.run ⟨g, heap, fun _ => none⟩ ops).grid.Filed :=
    World.run_filed (new_filed hnew) ops
  exact hfiled.interchange_iff _ r

end Model

/-- The table in all four cells. -/
theorem interchangeable_iff_busy :
    let w := World.run ⟨empty fourCells 10 (by norm_num), crowd, fun _ => none⟩ busy
    w.grid.records (.id 1) = some ⟨1, ⟨0, 0, 1, 1⟩⟩ ∧
      (w.grid.Interchangeable w.heap 1 ↔ w.grid.Renewable w.heap 1) :=
  ⟨by decide +kernel, interchangeable_iff (dif_pos (by norm_num)) crowd busy 1⟩

/-- The second of two tables with one id is recorded by all three entry points, but the
bucket keeps the first. -/
theorem not_interchangeable_twin :
    ¬ ∀ (bounds : Bounds Rat) (cellSize : Rat) (g : GridIndex Nat Rat),
      new bounds cellSize = some g →
        ∀ (heap : Nat → Obj Nat Rat) (ops : List (Op Nat Rat)) (r : Nat),
          let w := World.run ⟨g, heap, fun _ => none⟩ ops
          w.grid.Interchangeable w.heap r := by
  intro h
  have hindexed := (h oneCell 10 (empty oneCell 10 (by norm_num)) (dif_pos (by norm_num)) twins
    [.upsert 0] 1).update_indexed
  have hkept : (0 : Nat) = 1 := hindexed.eq_of_stored (n := 1) (by decide +kernel)
  cases hkept

end BallServer.Grid
