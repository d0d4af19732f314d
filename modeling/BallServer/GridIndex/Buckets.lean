import BallServer.GridIndex.Index

/-!
# What the buckets of the grid hold

Every operation of the grid index changes the buckets through two loops: one puts a
key into the buckets of some cells, the other takes it out.  This module describes the
loops by what a reader of the buckets sees afterwards and derives that the buckets
always agree with the records.

Main results:

- Theorem {lit}`GridIndex.stored_moveTo`: after an update a key is in the buckets of
  the new range and in no others, whatever the overlap of the two ranges.
- Theorem {lit}`World.run_filed`: after any sequence of operations the buckets and the
  records agree and no empty bucket is kept.
- Theorem {lit}`update_same_rebuild_iff`: an update leaves what a removal followed by
  an addition leaves exactly when the buckets it does not touch hold the object.
-/

namespace BallServer.Grid

open BallServer Plane

section Model

variable {ι K : Type} [Field K] [LinearOrder K] [DecidableEq ι]

namespace GridIndex

/-! ## Reading a bucket -/

/-- The object a bucket holds under a key. -/
def stored (g : GridIndex ι K) (n : Int) (k : Key ι) : Option Nat :=
  (g.buckets n).bind fun b => b.lookup k

/-- No empty bucket is kept. -/
def Compact (g : GridIndex ι K) : Prop :=
  ∀ n b, g.buckets n = some b → b.entries ≠ []

/-- A bucket that is not empty finds one of its entries. -/
theorem exists_lookup_of_ne_nil {b : Bucket ι} (h : b.entries ≠ []) :
    ∃ k, (b.lookup k).isSome := by
  obtain ⟨e, he⟩ := List.exists_mem_of_ne_nil _ h
  refine ⟨e.1, ?_⟩
  rw [Option.isSome_iff_exists]
  exact ⟨e.2, AList.mem_lookup_iff.mpr he⟩

/-- In a grid without empty buckets a bucket exists when it holds something. -/
theorem Compact.isSome_iff {g : GridIndex ι K} (hg : g.Compact) (n : Int) :
    (g.buckets n).isSome ↔ ∃ k, (g.stored n k).isSome := by
  unfold stored
  cases hb : g.buckets n with
  | none => simp
  | some b => simpa using exists_lookup_of_ne_nil (hg n b hb)

@[simp] theorem put_toLayout (key : Key ι) (r : Nat) (g : GridIndex ι K) (c : Int × Int) :
    (put key r g c).toLayout = g.toLayout := rfl

@[simp] theorem put_records (key : Key ι) (r : Nat) (g : GridIndex ι K) (c : Int × Int) :
    (put key r g c).records = g.records := rfl

@[simp] theorem drop_toLayout (key : Key ι) (g : GridIndex ι K) (c : Int × Int) :
    (drop key g c).toLayout = g.toLayout := by
  unfold drop
  split <;> rfl

@[simp] theorem drop_records (key : Key ι) (g : GridIndex ι K) (c : Int × Int) :
    (drop key g c).records = g.records := by
  unfold drop
  split <;> rfl

/-- A bucket that an object is put into holds it, and the others are as before. -/
theorem stored_put (key : Key ι) (r : Nat) (g : GridIndex ι K) (c : Int × Int) (n : Int)
    (k : Key ι) :
    (put key r g c).stored n k =
      if n = g.bucketKey c ∧ k = key then some r else g.stored n k := by
  unfold stored put getBucket
  by_cases hn : n = g.bucketKey c
  · subst hn
    simp only [Function.update_self, Option.bind_some, true_and]
    by_cases hk : k = key
    · subst hk
      rw [if_pos rfl, AList.lookup_insert]
    · rw [if_neg hk, AList.lookup_insert_ne hk]
      cases g.buckets (g.bucketKey c) <;> simp
  · rw [if_neg (fun h => hn h.1)]
    simp only [Function.update_of_ne hn]

/-- A bucket that a key is taken from holds it no more, and the others are as before. -/
theorem stored_drop (key : Key ι) (g : GridIndex ι K) (c : Int × Int) (n : Int)
    (k : Key ι) :
    (drop key g c).stored n k =
      if n = g.bucketKey c ∧ k = key then none else g.stored n k := by
  unfold drop
  cases hb : g.getBucket c with
  | none =>
      unfold getBucket at hb
      by_cases hn : n = g.bucketKey c
      · subst hn
        simp [stored, hb]
      · rw [if_neg (fun h => hn h.1)]
  | some b =>
      unfold getBucket at hb
      unfold stored
      by_cases hn : n = g.bucketKey c
      · subst hn
        simp only [Function.update_self, true_and, hb, Option.bind_some]
        -- the bucket that is given up holds nothing
        have hlookup : (if (b.erase key).entries = [] then none else some (b.erase key)).bind
            (fun b => b.lookup k) = (b.erase key).lookup k := by
          split_ifs with hnil
          · have hempty : b.erase key = ∅ := AList.ext hnil
            rw [hempty]
            simp
          · rfl
        rw [hlookup]
        by_cases hk : k = key
        · subst hk
          rw [if_pos rfl, AList.lookup_erase]
        · rw [if_neg hk, AList.lookup_erase_ne hk]
      · rw [if_neg (fun h => hn h.1)]
        simp only [Function.update_of_ne hn]

/-- A bucket with an object is not empty. -/
theorem Compact.put {g : GridIndex ι K} (hg : g.Compact) (key : Key ι) (r : Nat)
    (c : Int × Int) : (put key r g c).Compact := by
  intro n b hb
  unfold GridIndex.put at hb
  by_cases hn : n = g.bucketKey c
  · subst hn
    simp only [Function.update_self, Option.some.injEq] at hb
    subst hb
    simp
  · simp only [Function.update_of_ne hn] at hb
    exact hg n b hb

/-- A bucket that has become empty is taken away. -/
theorem Compact.drop {g : GridIndex ι K} (hg : g.Compact) (key : Key ι) (c : Int × Int) :
    (drop key g c).Compact := by
  intro n b hb
  unfold GridIndex.drop at hb
  cases hbucket : g.getBucket c with
  | none =>
      rw [hbucket] at hb
      exact hg n b hb
  | some b' =>
      rw [hbucket] at hb
      by_cases hn : n = g.bucketKey c
      · subst hn
        simp only [Function.update_self] at hb
        split_ifs at hb with hnil
        obtain rfl := Option.some.inj hb
        exact hnil
      · simp only [Function.update_of_ne hn] at hb
        exact hg n b hb

/-! ## The loops over cells -/

@[simp] theorem foldl_put_toLayout (key : Key ι) (r : Nat) (cs : List (Int × Int))
    (g : GridIndex ι K) : (cs.foldl (put key r) g).toLayout = g.toLayout := by
  induction cs generalizing g with
  | nil => rfl
  | cons c cs ih => rw [List.foldl_cons, ih, put_toLayout]

@[simp] theorem foldl_put_records (key : Key ι) (r : Nat) (cs : List (Int × Int))
    (g : GridIndex ι K) : (cs.foldl (put key r) g).records = g.records := by
  induction cs generalizing g with
  | nil => rfl
  | cons c cs ih => rw [List.foldl_cons, ih, put_records]

@[simp] theorem foldl_drop_toLayout (key : Key ι) (cs : List (Int × Int))
    (g : GridIndex ι K) : (cs.foldl (drop key) g).toLayout = g.toLayout := by
  induction cs generalizing g with
  | nil => rfl
  | cons c cs ih => rw [List.foldl_cons, ih, drop_toLayout]

@[simp] theorem foldl_drop_records (key : Key ι) (cs : List (Int × Int))
    (g : GridIndex ι K) : (cs.foldl (drop key) g).records = g.records := by
  induction cs generalizing g with
  | nil => rfl
  | cons c cs ih => rw [List.foldl_cons, ih, drop_records]

/-- Putting an object into some cells changes the buckets of these cells only. -/
theorem stored_foldl_put (key : Key ι) (r : Nat) (cs : List (Int × Int))
    (g : GridIndex ι K) (n : Int) (k : Key ι) :
    (cs.foldl (put key r) g).stored n k =
      if k = key ∧ ∃ c ∈ cs, n = g.bucketKey c then some r else g.stored n k := by
  induction cs generalizing g with
  | nil => simp
  | cons c cs ih =>
      rw [List.foldl_cons, ih, stored_put, put_toLayout]
      simp only [List.exists_mem_cons_iff]
      by_cases hk : k = key <;> by_cases hc : n = g.bucketKey c <;>
        by_cases hcs : ∃ d ∈ cs, n = g.bucketKey d <;> simp only [hk, hc, hcs] <;> simp

/-- Taking a key from some cells changes the buckets of these cells only. -/
theorem stored_foldl_drop (key : Key ι) (cs : List (Int × Int)) (g : GridIndex ι K)
    (n : Int) (k : Key ι) :
    (cs.foldl (drop key) g).stored n k =
      if k = key ∧ ∃ c ∈ cs, n = g.bucketKey c then none else g.stored n k := by
  induction cs generalizing g with
  | nil => simp
  | cons c cs ih =>
      rw [List.foldl_cons, ih, stored_drop, drop_toLayout]
      simp only [List.exists_mem_cons_iff]
      by_cases hk : k = key <;> by_cases hc : n = g.bucketKey c <;>
        by_cases hcs : ∃ d ∈ cs, n = g.bucketKey d <;> simp only [hk, hc, hcs] <;> simp

theorem Compact.foldl_put {g : GridIndex ι K} (hg : g.Compact) (key : Key ι) (r : Nat)
    (cs : List (Int × Int)) : (cs.foldl (GridIndex.put key r) g).Compact := by
  induction cs generalizing g with
  | nil => exact hg
  | cons c cs ih => exact ih (hg.put key r c)

theorem Compact.foldl_drop {g : GridIndex ι K} (hg : g.Compact) (key : Key ι)
    (cs : List (Int × Int)) : (cs.foldl (GridIndex.drop key) g).Compact := by
  induction cs generalizing g with
  | nil => exact hg
  | cons c cs ih => exact ih (hg.drop key c)

/-! ## The operations -/

/-- The key is in the buckets of the cells of a range and in no others. -/
def Covers (g : GridIndex ι K) (key : Key ι) (range : CellRange) : Prop :=
  ∀ n, (g.stored n key).isSome ↔ ∃ c ∈ range.cells, n = g.bucketKey c

/-- The buckets of a range hold the object that was put into it. -/
theorem stored_insertRange (g : GridIndex ι K) (key : Key ι) (r : Nat) (range : CellRange)
    (n : Int) (k : Key ι) :
    (g.insertRange key r range).stored n k =
      if k = key ∧ ∃ c ∈ range.cells, n = g.bucketKey c then some r else g.stored n k :=
  stored_foldl_put key r range.cells g n k

/-- The buckets of a range hold the key no more. -/
theorem stored_removeRange (g : GridIndex ι K) (key : Key ι) (range : CellRange) (n : Int)
    (k : Key ι) :
    (g.removeRange key range).stored n k =
      if k = key ∧ ∃ c ∈ range.cells, n = g.bucketKey c then none else g.stored n k :=
  stored_foldl_drop key range.cells g n k

@[simp] theorem insertRange_toLayout (g : GridIndex ι K) (key : Key ι) (r : Nat)
    (range : CellRange) : (g.insertRange key r range).toLayout = g.toLayout :=
  foldl_put_toLayout key r range.cells g

@[simp] theorem insertRange_records (g : GridIndex ι K) (key : Key ι) (r : Nat)
    (range : CellRange) : (g.insertRange key r range).records = g.records :=
  foldl_put_records key r range.cells g

@[simp] theorem removeRange_toLayout (g : GridIndex ι K) (key : Key ι) (range : CellRange) :
    (g.removeRange key range).toLayout = g.toLayout :=
  foldl_drop_toLayout key range.cells g

@[simp] theorem removeRange_records (g : GridIndex ι K) (key : Key ι) (range : CellRange) :
    (g.removeRange key range).records = g.records :=
  foldl_drop_records key range.cells g

@[simp] theorem removeNonOverlap_toLayout (g : GridIndex ι K) (key : Key ι)
    (old ov : CellRange) : (g.removeNonOverlap key old ov).toLayout = g.toLayout :=
  foldl_drop_toLayout key _ g

@[simp] theorem removeNonOverlap_records (g : GridIndex ι K) (key : Key ι)
    (old ov : CellRange) : (g.removeNonOverlap key old ov).records = g.records :=
  foldl_drop_records key _ g

@[simp] theorem insertNonOverlap_toLayout (g : GridIndex ι K) (key : Key ι) (r : Nat)
    (new ov : CellRange) : (g.insertNonOverlap key r new ov).toLayout = g.toLayout :=
  foldl_put_toLayout key r _ g

@[simp] theorem insertNonOverlap_records (g : GridIndex ι K) (key : Key ι) (r : Nat)
    (new ov : CellRange) : (g.insertNonOverlap key r new ov).records = g.records :=
  foldl_put_records key r _ g

@[simp] theorem setRecord_toLayout (g : GridIndex ι K) (key : Key ι) (rec : Option Record) :
    (g.setRecord key rec).toLayout = g.toLayout := rfl

@[simp] theorem setRecord_buckets (g : GridIndex ι K) (key : Key ι) (rec : Option Record) :
    (g.setRecord key rec).buckets = g.buckets := rfl

@[simp] theorem setRecord_records (g : GridIndex ι K) (key : Key ι) (rec : Option Record) :
    (g.setRecord key rec).records = Function.update g.records key rec := rfl

@[simp] theorem stored_setRecord (g : GridIndex ι K) (key : Key ι) (rec : Option Record)
    (n : Int) (k : Key ι) : (g.setRecord key rec).stored n k = g.stored n k := rfl

@[simp] theorem compact_setRecord (g : GridIndex ι K) (key : Key ι) (rec : Option Record) :
    (g.setRecord key rec).Compact ↔ g.Compact := Iff.rfl

/-- What the buckets hold after {lit}`moveTo`, when the key was in the buckets of its old
range: nothing outside the new range, the object in the cells that are new, and in the
cells of both ranges what they held before. -/
theorem stored_moveTo {g : GridIndex ι K} {key : Key ι} {rec : Record}
    (hold : g.Covers key rec.range) (hin : ∀ c ∈ rec.range.cells, g.InGrid c) (r : Nat)
    {range : CellRange} (hnew : ∀ c ∈ range.cells, g.InGrid c) (n : Int) (k : Key ι) :
    (g.moveTo key r rec range).1.stored n k =
      if k = key then
        if ∃ c ∈ range.cells, n = g.bucketKey c then
          if ∃ c ∈ rec.range.cells, n = g.bucketKey c then g.stored n k else some r
        else none
      else g.stored n k := by
  -- a cell of both ranges, read off the bucket keys
  have hboth : ∀ {c d : Int × Int}, c ∈ rec.range.cells → d ∈ range.cells →
      g.bucketKey c = g.bucketKey d → c = d := fun hc hd h =>
    g.bucketKey_inj (hin _ hc) (hnew _ hd) h
  unfold moveTo
  simp only
  by_cases heq : rec.range = range
  · -- the same range
    rw [if_pos heq, stored_setRecord]
    by_cases hk : k = key
    · subst hk
      rw [if_pos rfl, heq]
      rw [heq] at hold
      by_cases hc : ∃ c ∈ range.cells, n = g.bucketKey c
      · rw [if_pos hc, if_pos hc]
      · rw [if_neg hc]
        simpa using mt (hold n).mp hc
    · rw [if_neg hk]
  rw [if_neg heq]
  by_cases hoverlap : rec.range.hasOverlap range
  · -- the ranges overlap
    rw [if_pos hoverlap, stored_setRecord]
    unfold insertNonOverlap removeNonOverlap
    rw [stored_foldl_put, stored_foldl_drop, stored_setRecord, foldl_drop_toLayout,
      setRecord_toLayout]
    by_cases hk : k = key
    · subst hk
      rw [if_pos rfl]
      have hout : ∀ {cs : CellRange} {c : Int × Int},
          c ∈ cs.cells.filter (· ∉ (rec.range.overlap range).cells) ↔
            c ∈ cs.cells ∧ ¬(c ∈ rec.range.cells ∧ c ∈ range.cells) := by
        intro cs c
        rw [List.mem_filter, decide_eq_true_eq, CellRange.mem_overlap]
      by_cases hc : ∃ c ∈ range.cells, n = g.bucketKey c
      · rw [if_pos hc]
        obtain ⟨c, hc, hcn⟩ := hc
        by_cases hd : ∃ d ∈ rec.range.cells, n = g.bucketKey d
        · rw [if_pos hd]
          obtain ⟨d, hd, hdn⟩ := hd
          obtain rfl := hboth hd hc (hdn.symm.trans hcn)
          rw [if_neg, if_neg]
          · rintro ⟨-, e, he, hen⟩
            have he := hout.mp he
            obtain rfl := hboth he.1 hc (hen.symm.trans hcn)
            exact he.2 ⟨hd, hc⟩
          · rintro ⟨-, e, he, hen⟩
            have he := hout.mp he
            obtain rfl := hboth hd he.1 (hdn.symm.trans hen)
            exact he.2 ⟨hd, hc⟩
        · rw [if_neg hd, if_pos]
          exact ⟨rfl, c, hout.mpr ⟨hc, fun h => hd ⟨c, h.1, hcn⟩⟩, hcn⟩
      · rw [if_neg hc, if_neg]
        · by_cases hd : ∃ d ∈ rec.range.cells, n = g.bucketKey d
          · obtain ⟨d, hd, hdn⟩ := hd
            rw [if_pos ⟨rfl, d, hout.mpr ⟨hd, fun h => hc ⟨d, h.2, hdn⟩⟩, hdn⟩]
          · have hnone : g.stored n k = none := by simpa using mt (hold n).mp hd
            rw [hnone, ite_self]
        · rintro ⟨-, c, h, hcn⟩
          exact hc ⟨c, (hout.mp h).1, hcn⟩
    · rw [if_neg hk, if_neg fun h => hk h.1, if_neg fun h => hk h.1]
  · -- the ranges are apart
    have hapart : rec.range.hasOverlap range = false := by simpa using hoverlap
    rw [if_neg hoverlap, stored_setRecord, stored_insertRange, stored_removeRange, stored_setRecord,
      removeRange_toLayout, setRecord_toLayout]
    by_cases hk : k = key
    · subst hk
      rw [if_pos rfl]
      by_cases hc : ∃ c ∈ range.cells, n = g.bucketKey c
      · rw [if_pos hc, if_pos ⟨rfl, hc⟩, if_neg]
        rintro ⟨d, hd, hdn⟩
        obtain ⟨c, hc, hcn⟩ := hc
        obtain rfl := hboth hd hc (hdn.symm.trans hcn)
        exact CellRange.not_mem_of_not_hasOverlap hapart hd hc
      · rw [if_neg hc, if_neg fun h => hc h.2]
        by_cases hd : ∃ d ∈ rec.range.cells, n = g.bucketKey d
        · rw [if_pos ⟨rfl, hd⟩]
        · rw [if_neg fun h => hd h.2]
          simpa using mt (hold n).mp hd
    · rw [if_neg hk, if_neg fun h => hk h.1, if_neg fun h => hk h.1]

@[simp] theorem moveTo_toLayout (g : GridIndex ι K) (key : Key ι) (r : Nat) (rec : Record)
    (range : CellRange) : (g.moveTo key r rec range).1.toLayout = g.toLayout := by
  unfold moveTo
  simp only
  split_ifs <;> simp

/-- The record has the new object and the new range. -/
theorem moveTo_records (g : GridIndex ι K) (key : Key ι) (r : Nat) (rec : Record)
    (range : CellRange) :
    (g.moveTo key r rec range).1.records =
      Function.update g.records key (some ⟨r, range⟩) := by
  unfold moveTo
  simp only
  split_ifs with h <;> simp [h]

theorem Compact.moveTo {g : GridIndex ι K} (hg : g.Compact) (key : Key ι) (r : Nat)
    (rec : Record) (range : CellRange) : (g.moveTo key r rec range).1.Compact := by
  unfold GridIndex.moveTo
  simp only
  split_ifs
  · exact hg
  · apply Compact.foldl_put
    apply Compact.foldl_drop
    exact hg
  · apply Compact.foldl_put
    apply Compact.foldl_drop
    exact hg

/-! ## Buckets and records agree -/

end GridIndex

/-- A range lies in the grid. -/
structure CellRange.Within (c : CellRange) (g : Layout K) : Prop where
  gx0 : 0 ≤ c.gx0 ∧ c.gx0 ≤ g.cols - 1
  gy0 : 0 ≤ c.gy0 ∧ c.gy0 ≤ g.rows - 1
  gx1 : 0 ≤ c.gx1 ∧ c.gx1 ≤ g.cols - 1
  gy1 : 0 ≤ c.gy1 ∧ c.gy1 ≤ g.rows - 1

omit [DecidableEq ι] in
/-- The cells of a range that lies in the grid have buckets of their own. -/
theorem CellRange.Within.inGrid {c : CellRange} {g : Layout K} (h : c.Within g)
    {p : Int × Int} (hp : p ∈ c.cells) : g.InGrid p := by
  rw [CellRange.mem_cells] at hp
  have hx0 := h.gx0
  have hy0 := h.gy0
  have hx1 := h.gx1
  have hy1 := h.gy1
  unfold Layout.InGrid
  omega

omit [DecidableEq ι] in
/-- A range is cut at the edges of the grid. -/
theorem Layout.within_of_cellRange [FloorRing K] (g : Layout K) {minX minY maxX maxY : K}
    {c : CellRange} (h : g.cellRangeForAabb minX minY maxX maxY = some c) : c.Within g := by
  unfold Layout.cellRangeForAabb at h
  split_ifs at h
  obtain rfl := Option.some.inj h
  have hx0 := g.slot_mem minX g.minX g.cols_pos
  have hx1 := g.slot_mem maxX g.minX g.cols_pos
  have hy0 := g.slot_mem minY g.minY g.rows_pos
  have hy1 := g.slot_mem maxY g.minY g.rows_pos
  constructor <;> simp only <;> omega

/-- Buckets and records agree: a key is in the bucket of a cell exactly when its record
has a range with this cell, the ranges lie in the grid and no empty bucket is kept. -/
structure GridIndex.Filed (g : GridIndex ι K) : Prop where
  mem_bucket : ∀ k c, g.InGrid c → ((g.stored (g.bucketKey c) k).isSome ↔
    ∃ rec, g.records k = some rec ∧ c ∈ rec.range.cells)
  within : ∀ k rec, g.records k = some rec → rec.range.Within g.toLayout
  compact : g.Compact
  inGrid : ∀ n k, (g.stored n k).isSome → ∃ c, g.InGrid c ∧ n = g.bucketKey c

namespace GridIndex

namespace Filed

variable {g : GridIndex ι K}

/-- A recorded key is in the buckets of its range only. -/
theorem covers (hg : g.Filed) {k : Key ι} {rec : Record} (h : g.records k = some rec) :
    g.Covers k rec.range := by
  intro n
  constructor
  · intro hn
    obtain ⟨c, hc, rfl⟩ := hg.inGrid n k hn
    obtain ⟨rec', hrec', hmem⟩ := (hg.mem_bucket k c hc).mp hn
    obtain rfl := Option.some.inj (h.symm.trans hrec')
    exact ⟨c, hmem, rfl⟩
  · rintro ⟨c, hc, rfl⟩
    exact (hg.mem_bucket k c ((hg.within k rec h).inGrid hc)).mpr ⟨rec, h, hc⟩

/-- A key without a record is in no bucket. -/
theorem stored_eq_none (hg : g.Filed) {k : Key ι} (h : g.records k = none) (n : Int) :
    g.stored n k = none := by
  by_contra hne
  have hsome : (g.stored n k).isSome := Option.isSome_iff_ne_none.mpr hne
  obtain ⟨c, hc, rfl⟩ := hg.inGrid n k hsome
  obtain ⟨rec, hrec, -⟩ := (hg.mem_bucket k c hc).mp hsome
  rw [h] at hrec
  cases hrec

/-- An operation that changes one key keeps the agreement when it keeps it for this
key. -/
theorem of_update (hg : g.Filed) {g' : GridIndex ι K} {key : Key ι} {rec : Option Record}
    (hlayout : g'.toLayout = g.toLayout)
    (hrecords : g'.records = Function.update g.records key rec)
    (hother : ∀ n k, k ≠ key → g'.stored n k = g.stored n k)
    (hkey : ∀ n, (g'.stored n key).isSome ↔
      ∃ r, rec = some r ∧ ∃ c ∈ r.range.cells, n = g.bucketKey c)
    (hwithin : ∀ r, rec = some r → r.range.Within g.toLayout) (hcompact : g'.Compact) :
    g'.Filed where
  mem_bucket := by
    intro k c hc
    rw [hlayout] at hc ⊢
    rw [hrecords]
    by_cases hk : k = key
    · subst hk
      rw [hkey, Function.update_self]
      constructor
      · rintro ⟨r, hr, d, hd, hcd⟩
        refine ⟨r, hr, ?_⟩
        rwa [g.bucketKey_inj hc ((hwithin r hr).inGrid hd) hcd]
      · rintro ⟨r, hr, hc⟩
        exact ⟨r, hr, c, hc, rfl⟩
    · rw [hother _ _ hk, Function.update_of_ne hk]
      exact hg.mem_bucket k c hc
  within := by
    intro k r hr
    rw [hlayout]
    rw [hrecords] at hr
    by_cases hk : k = key
    · subst hk
      rw [Function.update_self] at hr
      exact hwithin r hr
    · rw [Function.update_of_ne hk] at hr
      exact hg.within k r hr
  compact := hcompact
  inGrid := by
    intro n k hn
    rw [hlayout]
    by_cases hk : k = key
    · subst hk
      obtain ⟨r, hr, c, hc, hcn⟩ := (hkey n).mp hn
      exact ⟨c, (hwithin r hr).inGrid hc, hcn⟩
    · rw [hother _ _ hk] at hn
      exact hg.inGrid n k hn

end Filed

/-! ## One operation -/

/-- After {lit}`remove` no bucket holds the key: it was only in those of its record. -/
theorem stored_remove {g : GridIndex ι K} (hg : g.Filed) (key : Key ι) (n : Int)
    (k : Key ι) :
    (g.remove key).1.stored n k = if k = key then none else g.stored n k := by
  unfold remove
  by_cases hk : k = key
  · subst hk
    rw [if_pos rfl]
    cases hrec : g.records k with
    | none => exact hg.stored_eq_none hrec n
    | some rec =>
        simp only [stored_setRecord, stored_removeRange]
        by_cases hc : ∃ c ∈ rec.range.cells, n = g.bucketKey c
        · rw [if_pos ⟨trivial, hc⟩]
        · rw [if_neg fun h => hc h.2]
          simpa using mt (hg.covers hrec n).mp hc
  · rw [if_neg hk]
    cases hrec : g.records key with
    | none => rfl
    | some rec =>
        simp only [stored_setRecord, stored_removeRange]
        rw [if_neg fun h => hk h.1]

@[simp] theorem remove_toLayout (g : GridIndex ι K) (key : Key ι) :
    (g.remove key).1.toLayout = g.toLayout := by
  unfold remove
  split <;> simp

/-- The record is gone. -/
theorem remove_records (g : GridIndex ι K) (key : Key ι) :
    (g.remove key).1.records = Function.update g.records key none := by
  unfold remove
  cases hrec : g.records key with
  | none =>
      simp only
      rw [← hrec, Function.update_eq_self]
  | some rec => simp

theorem Compact.remove {g : GridIndex ι K} (hg : g.Compact) (key : Key ι) :
    (g.remove key).1.Compact := by
  unfold GridIndex.remove
  cases g.records key with
  | none => exact hg
  | some rec => exact hg.foldl_drop key rec.range.cells

/-- Taking an object out keeps buckets and records in agreement. -/
theorem Filed.remove {g : GridIndex ι K} (hg : g.Filed) (key : Key ι) :
    (g.remove key).1.Filed := by
  apply hg.of_update (remove_toLayout g key) (remove_records g key)
  · intro n k hk
    rw [stored_remove hg, if_neg hk]
  · intro n
    rw [stored_remove hg, if_pos rfl]
    simp
  · intro r hr
    cases hr
  · exact hg.compact.remove key

/-- What the buckets hold after a key without a record has come in. -/
theorem stored_enter (g : GridIndex ι K) (key : Key ι) (r : Nat) (range : CellRange)
    (n : Int) (k : Key ι) :
    (g.enter key r range).stored n k =
      if k = key ∧ ∃ c ∈ range.cells, n = g.bucketKey c then some r else g.stored n k := by
  unfold enter
  rw [stored_setRecord, stored_insertRange]

@[simp] theorem enter_toLayout (g : GridIndex ι K) (key : Key ι) (r : Nat)
    (range : CellRange) : (g.enter key r range).toLayout = g.toLayout := by
  simp [enter]

theorem enter_records (g : GridIndex ι K) (key : Key ι) (r : Nat) (range : CellRange) :
    (g.enter key r range).records =
      Function.update g.records key (some ⟨r, range⟩) := by
  simp [enter]

/-- A new key is put into the buckets of its range, and its record says so. -/
theorem Filed.enter {g : GridIndex ι K} (hg : g.Filed) {key : Key ι}
    (hnone : g.records key = none) (r : Nat) {range : CellRange}
    (hrange : range.Within g.toLayout) : (g.enter key r range).Filed := by
  apply hg.of_update (enter_toLayout g key r range) (enter_records g key r range)
  · intro n k hk
    rw [stored_enter, if_neg fun h => hk h.1]
  · intro n
    rw [stored_enter]
    by_cases hc : ∃ c ∈ range.cells, n = g.bucketKey c
    · rw [if_pos ⟨rfl, hc⟩]
      exact iff_of_true rfl ⟨_, rfl, hc⟩
    · rw [if_neg fun h => hc h.2, hg.stored_eq_none hnone]
      simpa using hc
  · intro r' hr'
    obtain rfl := Option.some.inj hr'
    exact hrange
  · exact hg.compact.foldl_put key r range.cells

/-- A key that moves leaves the cells of its old range that are not in the new one. -/
theorem Filed.moveTo {g : GridIndex ι K} (hg : g.Filed) {key : Key ι} {rec : Record}
    (hrec : g.records key = some rec) (r : Nat) {range : CellRange}
    (hrange : range.Within g.toLayout) : (g.moveTo key r rec range).1.Filed := by
  have hspec := stored_moveTo (hg.covers hrec) (fun c hc => (hg.within key rec hrec).inGrid hc)
    r (fun c hc => hrange.inGrid hc)
  apply hg.of_update (moveTo_toLayout g key r rec range) (moveTo_records g key r rec range)
  · intro n k hk
    rw [hspec, if_neg hk]
  · intro n
    rw [hspec, if_pos rfl]
    by_cases hc : ∃ c ∈ range.cells, n = g.bucketKey c
    · rw [if_pos hc]
      by_cases hd : ∃ c ∈ rec.range.cells, n = g.bucketKey c
      · rw [if_pos hd]
        simpa [(hg.covers hrec n).mpr hd] using hc
      · rw [if_neg hd]
        simpa using hc
    · rw [if_neg hc]
      simpa using hc
  · intro r' hr'
    obtain rfl := Option.some.inj hr'
    exact hrange
  · exact hg.compact.moveTo key r rec range

variable [FloorRing K]

/-- {lit}`add` of a key that has a record moves the object to its new range. -/
theorem add_of_record (g : GridIndex ι K) {heap : Nat → Obj ι K} {r : Nat} {rec : Record}
    (hrec : g.records (objectKey heap r) = some rec) {range : CellRange}
    (hrange : g.rangeForObj (heap r).toPlace = some range) :
    g.add heap r = g.moveTo (objectKey heap r) r rec range := by
  unfold add
  simp only [hrange, hrec]
  unfold update
  simp only [setRecord_toLayout, hrange, setRecord_records, Function.update_self]
  unfold moveTo setRecord
  simp only [Function.update_idem]

/-- {lit}`update` moves the object, or takes it out when it has left the grid. -/
theorem Filed.update {g : GridIndex ι K} (hg : g.Filed) (heap : Nat → Obj ι K) (r : Nat) :
    (g.update heap r).1.Filed := by
  unfold GridIndex.update
  simp only
  split
  · exact hg.remove _
  · exact hg
  · rename_i range hrange hrec
    exact hg.enter hrec r (g.within_of_cellRange hrange)
  · rename_i range rec hrange hrec
    exact hg.moveTo hrec r (g.within_of_cellRange hrange)

/-- {lit}`add` of a key that has a record hands the object on to {lit}`update`. -/
theorem Filed.add {g : GridIndex ι K} (hg : g.Filed) (heap : Nat → Obj ι K) (r : Nat) :
    (g.add heap r).1.Filed := by
  cases hrange : g.rangeForObj (heap r).toPlace with
  | none =>
      unfold GridIndex.add
      simp only [hrange]
      exact hg
  | some range =>
      cases hrec : g.records (objectKey heap r) with
      | none =>
          unfold GridIndex.add
          simp only [hrange, hrec]
          exact hg.enter hrec r (g.within_of_cellRange hrange)
      | some rec =>
          rw [g.add_of_record hrec hrange]
          exact hg.moveTo hrec r (g.within_of_cellRange hrange)

/-- {lit}`upsert` is {lit}`update` for a recorded key and {lit}`add` for a new one. -/
theorem Filed.upsert {g : GridIndex ι K} (hg : g.Filed) (heap : Nat → Obj ι K) (r : Nat) :
    (g.upsert heap r).1.Filed := by
  unfold GridIndex.upsert
  split
  · exact hg.update heap r
  · exact hg.add heap r

end GridIndex

omit [LinearOrder K] [DecidableEq ι] in
/-- A new index is empty. -/
theorem new_filed [LinearOrder K] [DecidableEq ι] [FloorRing K] {bounds : Bounds K}
    {cellSize : K} {g : GridIndex ι K} (h : new bounds cellSize = some g) : g.Filed := by
  unfold new at h
  split_ifs at h
  obtain rfl := Option.some.inj h
  constructor <;> simp [empty, GridIndex.stored, GridIndex.Compact]

/-! ## Runs -/

/-- The index, the tables, and the place each table had when it was last handed to
{lit}`add`, {lit}`update` or {lit}`upsert`. -/
structure World (ι K : Type) [Field K] [LinearOrder K] where
  grid : GridIndex ι K
  heap : Nat → Obj ι K
  passed : Nat → Option (Place K)

/-- What can happen to an index and its objects.  The key of a table does not change. -/
inductive Op (ι K : Type) where
  | move (r : Nat) (p : Place K)
  | add (r : Nat)
  | update (r : Nat)
  | upsert (r : Nat)
  | remove (k : Key ι)
  | clear

namespace World

/-- A table is handed to the index. -/
def pass (w : World ι K) (r : Nat) (g : GridIndex ι K) : World ι K :=
  { w with
    grid := g
    passed := Function.update w.passed r (some (w.heap r).toPlace) }

variable [FloorRing K]

/-- One operation. -/
def step (w : World ι K) : Op ι K → World ι K
  | .move r p => { w with heap := Function.update w.heap r { w.heap r with toPlace := p } }
  | .add r => w.pass r (w.grid.add w.heap r).1
  | .update r => w.pass r (w.grid.update w.heap r).1
  | .upsert r => w.pass r (w.grid.upsert w.heap r).1
  | .remove k => { w with grid := (w.grid.remove k).1 }
  | .clear => { w with grid := w.grid.clear }

/-- Any sequence of operations. -/
def run (w : World ι K) (ops : List (Op ι K)) : World ι K := ops.foldl step w

/-- Every operation keeps buckets and records in agreement. -/
theorem step_filed {w : World ι K} (h : w.grid.Filed) (op : Op ι K) :
    (w.step op).grid.Filed := by
  cases op with
  | move r p => exact h
  | add r => exact h.add w.heap r
  | update r => exact h.update w.heap r
  | upsert r => exact h.upsert w.heap r
  | remove k => exact h.remove k
  | clear => constructor <;> simp [step, GridIndex.clear, GridIndex.stored, GridIndex.Compact]

/-- Buckets and records agree after every sequence of operations. -/
theorem run_filed {w : World ι K} (h : w.grid.Filed) (ops : List (Op ι K)) :
    (w.run ops).grid.Filed := by
  induction ops generalizing w with
  | nil => exact h
  | cons op ops ih => exact ih (step_filed h op)

end World

/-! ## An update and a rebuild -/

/-- Two indexes with the same buckets and records. -/
structure GridIndex.Same (g g' : GridIndex ι K) : Prop where
  toLayout : g.toLayout = g'.toLayout
  records : g.records = g'.records
  stored : ∀ n k, g.stored n k = g'.stored n k
  buckets : ∀ n, (g.buckets n).isSome = (g'.buckets n).isSome

theorem GridIndex.Same.refl (g : GridIndex ι K) : g.Same g := ⟨rfl, rfl, fun _ _ => rfl, fun _ => rfl⟩

/-- {lit}`remove(obj)` followed by {lit}`add(obj)`. -/
def GridIndex.rebuild [FloorRing K] (g : GridIndex ι K) (heap : Nat → Obj ι K) (r : Nat) :
    GridIndex ι K :=
  ((g.remove (objectKey heap r)).1.add heap r).1

/-- The buckets an update of {lit}`r` does not touch, those of the old and the new
range, hold {lit}`r` itself. -/
def GridIndex.Current [FloorRing K] (g : GridIndex ι K) (heap : Nat → Obj ι K) (r : Nat)
    (rec : Record) : Prop :=
  ∀ range, g.rangeForObj (heap r).toPlace = some range →
    ∀ c ∈ rec.range.cells, c ∈ range.cells →
      g.stored (g.bucketKey c) (objectKey heap r) = some r

/-- An update leaves what a rebuild leaves exactly when the buckets it does not touch
hold the object. -/
theorem update_same_rebuild_iff [FloorRing K] {g : GridIndex ι K} (hg : g.Filed)
    {heap : Nat → Obj ι K} {r : Nat} {rec : Record}
    (hrec : g.records (objectKey heap r) = some rec) :
    (g.update heap r).1.Same (g.rebuild heap r) ↔ g.Current heap r rec := by
  cases hrange : g.rangeForObj (heap r).toPlace with
  | none =>
      -- out of bounds: both take the object out
      have hupdate : (g.update heap r).1 = (g.remove (objectKey heap r)).1 := by
        simp only [GridIndex.update, hrange, hrec]
      have hrebuild : g.rebuild heap r = (g.remove (objectKey heap r)).1 := by
        simp only [GridIndex.rebuild, GridIndex.add, GridIndex.remove_toLayout, hrange]
      rw [hupdate, hrebuild]
      refine iff_of_true (GridIndex.Same.refl _) ?_
      intro range h
      rw [hrange] at h
      cases h
  | some range =>
      have hwithin := g.within_of_cellRange hrange
      have hupdate : (g.update heap r).1 = (g.moveTo (objectKey heap r) r rec range).1 := by
        simp only [GridIndex.update, hrange, hrec]
      have hrebuild : g.rebuild heap r =
          (g.remove (objectKey heap r)).1.enter (objectKey heap r) r range := by
        simp only [GridIndex.rebuild, GridIndex.add, GridIndex.remove_toLayout, hrange,
          GridIndex.remove_records, Function.update_self]
      have hmove := GridIndex.stored_moveTo (hg.covers hrec)
        (fun c hc => (hg.within _ rec hrec).inGrid hc) r (fun c hc => hwithin.inGrid hc)
      have henter : ∀ n k, (g.rebuild heap r).stored n k =
          if k = objectKey heap r ∧ ∃ c ∈ range.cells, n = g.bucketKey c then some r
          else if k = objectKey heap r then none else g.stored n k := by
        intro n k
        rw [hrebuild, GridIndex.stored_enter, GridIndex.stored_remove hg,
          GridIndex.remove_toLayout]
      constructor
      · intro hsame range' hrange' c hold hnew
        obtain rfl := Option.some.inj (hrange.symm.trans hrange')
        have h := hsame.stored (g.bucketKey c) (objectKey heap r)
        rwa [hupdate, hmove, if_pos rfl, if_pos ⟨c, hnew, rfl⟩, if_pos ⟨c, hold, rfl⟩, henter,
          if_pos ⟨rfl, c, hnew, rfl⟩] at h
      · intro hcurrent
        have hstored : ∀ n k, (g.update heap r).1.stored n k = (g.rebuild heap r).stored n k := by
          intro n k
          rw [hupdate, hmove]
          by_cases hk : k = objectKey heap r
          · subst hk
            rw [if_pos rfl]
            by_cases hc : ∃ c ∈ range.cells, n = g.bucketKey c
            · rw [if_pos hc]
              by_cases hd : ∃ c ∈ rec.range.cells, n = g.bucketKey c
              · rw [if_pos hd, henter, if_pos ⟨rfl, hc⟩]
                obtain ⟨c, hc, rfl⟩ := hc
                obtain ⟨d, hd, hcd⟩ := hd
                obtain rfl := g.bucketKey_inj (hwithin.inGrid hc)
                  ((hg.within _ rec hrec).inGrid hd) hcd
                exact hcurrent range hrange c hd hc
              · rw [if_neg hd, henter, if_pos ⟨rfl, hc⟩]
            · rw [if_neg hc, henter, if_neg fun h => hc h.2, if_pos rfl]
          · rw [if_neg hk, henter, if_neg fun h => hk h.1, if_neg hk]
        have hcompact := (hg.update heap r).compact
        have hcompact' : (g.rebuild heap r).Compact :=
          ((hg.remove (objectKey heap r)).add heap r).compact
        refine ⟨?_, ?_, hstored, ?_⟩
        · rw [hupdate, hrebuild, GridIndex.moveTo_toLayout, GridIndex.enter_toLayout,
            GridIndex.remove_toLayout]
        · rw [hupdate, hrebuild, GridIndex.moveTo_records, GridIndex.enter_records,
            GridIndex.remove_records, Function.update_idem]
        · intro n
          rw [Bool.eq_iff_iff, hcompact.isSome_iff, hcompact'.isSome_iff]
          simp only [hstored]

/-- After any sequence of operations on a new index the buckets and the records agree,
and updating an object that is in the index leaves what taking it out and adding it
again leaves exactly when the buckets the update does not touch hold this object. -/
theorem update_rebuilds [FloorRing K] {bounds : Bounds K} {cellSize : K}
    {g : GridIndex ι K} (hnew : new bounds cellSize = some g) (heap : Nat → Obj ι K)
    (ops : List (Op ι K)) :
    let w := World.run ⟨g, heap, fun _ => none⟩ ops
    w.grid.Filed ∧
      ∀ r rec, w.grid.records (objectKey w.heap r) = some rec → rec.obj = r →
        ((w.grid.update w.heap r).1.Same (w.grid.rebuild w.heap r) ∧
          (w.grid.upsert w.heap r).1.Same (w.grid.rebuild w.heap r) ↔
            w.grid.Current w.heap r rec) := by
  have hfiled : (World.run ⟨g, heap, fun _ => none⟩ ops).grid.Filed :=
    World.run_filed (new_filed hnew) ops
  refine ⟨hfiled, ?_⟩
  intro r rec hrec _
  have hupsert : (World.run ⟨g, heap, fun _ => none⟩ ops).grid.upsert
      (World.run ⟨g, heap, fun _ => none⟩ ops).heap r =
      (World.run ⟨g, heap, fun _ => none⟩ ops).grid.update
      (World.run ⟨g, heap, fun _ => none⟩ ops).heap r := by
    simp only [GridIndex.upsert, hrec]
  rw [hupsert, and_self]
  exact update_same_rebuild_iff hfiled hrec

end Model

/-! ## Two tables with one id -/

/-- Two tables with the id 7 at the same point. -/
def twins : Nat → Obj Nat Rat := fun _ => { x := 5, y := 5, size := some 1, id := some 7 }

/-- A scene of one cell. -/
def oneCell : Bounds Rat := { x := 0, y := 0, width := 10, height := 10 }

/-- A scene of four cells. -/
def fourCells : Bounds Rat := { x := 0, y := 0, width := 20, height := 20 }

/-- Tables with ids of their own; the one with the id 1 reaches into all four cells. -/
def crowd : Nat → Obj Nat Rat := fun r =>
  { x := 5 * r + 5, y := 10, size := some 1, id := some r }

/-- Three tables are put in, the first one moves to one cell, and the last one is taken out. -/
def busy : List (Op Nat Rat) :=
  [.upsert 0, .upsert 1, .upsert 2, .move 0 { x := 15, y := 15, size := some 1 }, .upsert 0,
    .upsert 1, .remove (.id 2)]

/-- Moving and taking out leave buckets that a rebuilt index has too. -/
theorem update_rebuilds_busy :
    let w := World.run ⟨empty fourCells 10 (by norm_num), crowd, fun _ => none⟩ busy
    w.grid.records (.id 0) = some ⟨0, ⟨1, 1, 1, 1⟩⟩ ∧ w.grid.Filed ∧
      ∀ r rec, w.grid.records (objectKey w.heap r) = some rec → rec.obj = r →
        ((w.grid.update w.heap r).1.Same (w.grid.rebuild w.heap r) ∧
          (w.grid.upsert w.heap r).1.Same (w.grid.rebuild w.heap r) ↔
            w.grid.Current w.heap r rec) :=
  ⟨by decide +kernel, update_rebuilds (dif_pos (by norm_num)) crowd busy⟩

/-- The second of two tables with one id is recorded, but the bucket keeps the first. -/
theorem update_keeps_twin :
    ¬ ∀ (bounds : Bounds Rat) (cellSize : Rat) (g : GridIndex Nat Rat),
      new bounds cellSize = some g → ∀ (heap : Nat → Obj Nat Rat) (ops : List (Op Nat Rat)),
        let w := World.run ⟨g, heap, fun _ => none⟩ ops
        ∀ r rec, w.grid.records (objectKey w.heap r) = some rec → rec.obj = r →
          (w.grid.update w.heap r).1.Same (w.grid.rebuild w.heap r) := by
  intro h
  have hsame := h oneCell 10 (empty oneCell 10 (by norm_num)) (dif_pos (by norm_num)) twins
    [.upsert 0, .upsert 1] 1 ⟨1, ⟨0, 0, 0, 0⟩⟩ (by decide +kernel) rfl
  have hstored := hsame.stored 1 (.id 7)
  revert hstored
  decide +kernel

end BallServer.Grid
