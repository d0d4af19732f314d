import BallServer.Plane.Shape

/-!
# The grid index of the scene

The scene finds objects near a point with a grid: the plane is cut into square
cells, every cell has a bucket, and an object stands in the bucket of each cell its
bounding box touches.  A record for each object remembers these cells, so that the
object can be taken out again after it has moved.

Objects are Lua tables.  The index stores references to them and reads their
position only when it is called, so the tables may change in between.  Buckets and
records are indexed by the key of an object: its {lit}`id`, or the table itself when
it has none.  Coordinates are elements of an ordered field with a floor function.

Main results:

- Structure {lit}`GridIndex` with {lit}`add`, {lit}`remove`, {lit}`update` and
  {lit}`upsert`.
- Definitions {lit}`queryCircle` and {lit}`queryRect`.
- Theorem {lit}`Layout.exists_common_cell`: two boxes that overlap share a cell,
  also when they stick out of the scene.
-/

namespace BallServer.Grid

open BallServer Plane

/-! ## Objects and keys -/

/-- Where an object is and how large it is. -/
structure Place (K : Type) where
  x : K
  y : K
  size : Option K := none
deriving DecidableEq, Repr

/-- {lit}`obj.size or 0`. -/
def Place.radius {K : Type} [Zero K] (o : Place K) : K := o.size.getD 0

@[simp] theorem Place.radius_mk {K : Type} [Zero K] (x y : K) (size : Option K) :
    (Place.mk x y size).radius = size.getD 0 := rfl

/-- A Lua table with a position. -/
structure Obj (ι K : Type) extends Place K where
  id : Option ι := none
deriving DecidableEq, Repr

/-- What an object is filed under: its {lit}`id` or the table itself. -/
inductive Key (ι : Type) where
  | id (i : ι)
  | table (r : Nat)
deriving DecidableEq, Repr

section Model

variable {ι K : Type} [Field K] [LinearOrder K]

/-- {lit}`_object_key` of the table {lit}`r`. -/
def objectKey (heap : Nat → Obj ι K) (r : Nat) : Key ι :=
  match (heap r).id with
  | some i => .id i
  | none => .table r

/-! ## The layout of the grid -/

/-- The parameter {lit}`bounds` of {lit}`GridIndex.new`. -/
structure Bounds (K : Type) where
  x : K
  y : K
  width : K
  height : K

/-- The box of the bounds. -/
def Bounds.box (b : Bounds K) : Box K where
  minX := b.x
  minY := b.y
  maxX := b.x + b.width
  maxY := b.y + b.height

/-- The constants of a grid. -/
structure Layout (K : Type) [Field K] [LinearOrder K] where
  minX : K
  minY : K
  maxX : K
  maxY : K
  cellSize : K
  cols : Int
  rows : Int
  cellSize_pos : 0 < cellSize
  cols_pos : 0 < cols
  rows_pos : 0 < rows

/-- A rectangle of cells, both corners included. -/
structure CellRange where
  gx0 : Int
  gy0 : Int
  gx1 : Int
  gy1 : Int
deriving DecidableEq, Repr

/-- The numbers a Lua loop {lit}`for i = a, b` runs through. -/
def forRange (a b : Int) : List Int :=
  (List.range (b + 1 - a).toNat).map fun i : Nat => a + i

theorem mem_forRange {a b i : Int} : i ∈ forRange a b ↔ a ≤ i ∧ i ≤ b := by
  simp only [forRange, List.mem_map, List.mem_range]
  constructor
  · rintro ⟨n, hn, rfl⟩
    omega
  · rintro ⟨ha, hb⟩
    exact ⟨(i - a).toNat, by omega, by omega⟩

namespace CellRange

/-- The cells of a range in the order the loops visit them. -/
def cells (c : CellRange) : List (Int × Int) :=
  (forRange c.gy0 c.gy1).flatMap fun gy => (forRange c.gx0 c.gx1).map fun gx => (gx, gy)

theorem mem_cells {c : CellRange} {p : Int × Int} :
    p ∈ c.cells ↔ c.gx0 ≤ p.1 ∧ p.1 ≤ c.gx1 ∧ c.gy0 ≤ p.2 ∧ p.2 ≤ c.gy1 := by
  rcases p with ⟨gx, gy⟩
  simp only [cells, List.mem_flatMap, List.mem_map, Prod.mk.injEq, mem_forRange]
  constructor
  · rintro ⟨_, hy, _, hx, rfl, rfl⟩
    exact ⟨hx.1, hx.2, hy⟩
  · rintro ⟨hx, hx', hy⟩
    exact ⟨gy, hy, gx, ⟨hx, hx'⟩, rfl, rfl⟩

/-- The overlap of two ranges. -/
def overlap (old new : CellRange) : CellRange where
  gx0 := max old.gx0 new.gx0
  gy0 := max old.gy0 new.gy0
  gx1 := min old.gx1 new.gx1
  gy1 := min old.gy1 new.gy1

/-- {lit}`has_overlap`. -/
def hasOverlap (old new : CellRange) : Bool :=
  decide ((old.overlap new).gx0 ≤ (old.overlap new).gx1 ∧
    (old.overlap new).gy0 ≤ (old.overlap new).gy1)

theorem mem_overlap {old new : CellRange} {p : Int × Int} :
    p ∈ (old.overlap new).cells ↔ p ∈ old.cells ∧ p ∈ new.cells := by
  simp only [mem_cells, overlap, max_le_iff, le_min_iff]
  tauto

/-- Ranges without an overlap have no cell in common. -/
theorem not_mem_of_not_hasOverlap {old new : CellRange} (h : old.hasOverlap new = false)
    {p : Int × Int} (hp : p ∈ old.cells) : p ∉ new.cells := by
  intro hp'
  have hmem := mem_cells.mp (mem_overlap.mpr ⟨hp, hp'⟩)
  simp only [hasOverlap, decide_eq_false_iff_not, not_and, not_le] at h
  have := h (hmem.1.trans hmem.2.1)
  omega

end CellRange

namespace Layout

/-- {lit}`_bucket_key`. -/
def bucketKey (g : Layout K) (c : Int × Int) : Int := c.2 * g.cols + c.1 + 1

/-- The cell belongs to the grid. -/
def InGrid (g : Layout K) (c : Int × Int) : Prop :=
  0 ≤ c.1 ∧ c.1 < g.cols ∧ 0 ≤ c.2 ∧ c.2 < g.rows

/-- Different cells of the grid have different buckets. -/
theorem bucketKey_inj (g : Layout K) {c d : Int × Int} (hc : g.InGrid c) (hd : g.InGrid d)
    (h : g.bucketKey c = g.bucketKey d) : c = d := by
  have hkey : c.1 + c.2 * g.cols = d.1 + d.2 * g.cols := by
    unfold bucketKey at h
    omega
  have hx : c.1 = d.1 := by
    have hmod := congrArg (· % g.cols) hkey
    simpa [Int.emod_eq_of_lt hc.1 hc.2.1, Int.emod_eq_of_lt hd.1 hd.2.1] using hmod
  have hy : c.2 = d.2 := by
    have hmul : c.2 * g.cols = d.2 * g.cols := by omega
    exact Int.eq_of_mul_eq_mul_right g.cols_pos.ne' hmul
  exact Prod.ext hx hy

section Floor

variable [FloorRing K]

/-- The row or column of a coordinate, counted from the border {lit}`lo` of the scene. -/
def slot (g : Layout K) (v lo : K) (n : Int) : Int :=
  clamp ⌊(v - lo) / g.cellSize⌋ 0 (n - 1)

/-- {lit}`_cell_range_for_aabb`. -/
def cellRangeForAabb (g : Layout K) (minX minY maxX maxY : K) : Option CellRange :=
  if maxX < g.minX ∨ maxY < g.minY ∨ minX > g.maxX ∨ minY > g.maxY then none
  else
    some {
      gx0 := g.slot minX g.minX g.cols
      gy0 := g.slot minY g.minY g.rows
      gx1 := g.slot maxX g.minX g.cols
      gy1 := g.slot maxY g.minY g.rows }

/-- {lit}`_range_for_obj`. -/
def rangeForObj (g : Layout K) (o : Place K) : Option CellRange :=
  g.cellRangeForAabb (o.x - o.radius) (o.y - o.radius) (o.x + o.radius) (o.y + o.radius)

theorem slot_mem (g : Layout K) (v lo : K) {n : Int} (hn : 0 < n) :
    0 ≤ g.slot v lo n ∧ g.slot v lo n < n := by
  have hle := clamp_le ⌊(v - lo) / g.cellSize⌋ (show (0 : Int) ≤ n - 1 by omega)
  refine ⟨le_clamp _ _ _, ?_⟩
  unfold slot
  omega

variable [IsStrictOrderedRing K]

theorem slot_mono (g : Layout K) {v v' : K} (lo : K) (n : Int) (h : v ≤ v') :
    g.slot v lo n ≤ g.slot v' lo n := by
  apply clamp_mono
  apply Int.floor_le_floor
  exact div_le_div_of_nonneg_right (sub_le_sub_right h lo) g.cellSize_pos.le

/-- Two boxes that overlap share a cell: neither the floor nor the clamping of what
sticks out of the scene separates them. -/
theorem exists_common_cell (g : Layout K) {a b : Box K} (ha : a.Proper) (hb : b.Proper)
    (hab : a.Overlaps b) {c d : CellRange}
    (hc : g.cellRangeForAabb a.minX a.minY a.maxX a.maxY = some c)
    (hd : g.cellRangeForAabb b.minX b.minY b.maxX b.maxY = some d) :
    ∃ p, p ∈ c.cells ∧ p ∈ d.cells := by
  unfold cellRangeForAabb at hc hd
  split_ifs at hc hd
  obtain rfl := Option.some.inj hc
  obtain rfl := Option.some.inj hd
  have hx := g.slot_mono g.minX g.cols ha.x
  have hx' := g.slot_mono g.minX g.cols hb.x
  have hl := g.slot_mono g.minX g.cols hab.left
  have hr := g.slot_mono g.minX g.cols hab.right
  have hy := g.slot_mono g.minY g.rows ha.y
  have hy' := g.slot_mono g.minY g.rows hb.y
  have hbelow := g.slot_mono g.minY g.rows hab.below
  have habove := g.slot_mono g.minY g.rows hab.above
  refine ⟨(max (g.slot a.minX g.minX g.cols) (g.slot b.minX g.minX g.cols),
    max (g.slot a.minY g.minY g.rows) (g.slot b.minY g.minY g.rows)), ?_, ?_⟩ <;>
    rw [CellRange.mem_cells] <;> simp only <;> omega

end Floor

end Layout

/-! ## The index -/

/-- An entry of the table {lit}`records`. -/
structure Record where
  obj : Nat
  range : CellRange
deriving DecidableEq, Repr

/-- The objects of one cell under their keys. -/
abbrev Bucket (ι : Type) := AList fun _ : Key ι => Nat

/-- A grid index. -/
structure GridIndex (ι K : Type) [Field K] [LinearOrder K] extends Layout K where
  buckets : Int → Option (Bucket ι)
  records : Key ι → Option Record

/-- The index {lit}`GridIndex.new` builds when its assertion holds. -/
def empty [FloorRing K] (bounds : Bounds K) (cellSize : K) (h : 0 < cellSize) :
    GridIndex ι K where
  minX := bounds.x
  minY := bounds.y
  maxX := bounds.x + bounds.width
  maxY := bounds.y + bounds.height
  cellSize := cellSize
  cols := max 1 ⌈bounds.width / cellSize⌉
  rows := max 1 ⌈bounds.height / cellSize⌉
  cellSize_pos := h
  cols_pos := lt_max_of_lt_left one_pos
  rows_pos := lt_max_of_lt_left one_pos
  buckets := fun _ => none
  records := fun _ => none

/-- {lit}`GridIndex.new`; the assertion on {lit}`cell_size` may fail. -/
def new [FloorRing K] (bounds : Bounds K) (cellSize : K) : Option (GridIndex ι K) :=
  if h : 0 < cellSize then some (empty bounds cellSize h) else none

variable [DecidableEq ι]

namespace GridIndex

/-- {lit}`clear`. -/
def clear (g : GridIndex ι K) : GridIndex ι K :=
  { g with
    buckets := fun _ => none
    records := fun _ => none }

/-- {lit}`_get_bucket` without creating one. -/
def getBucket (g : GridIndex ι K) (c : Int × Int) : Option (Bucket ι) :=
  g.buckets (g.bucketKey c)

/-- Put an object into the bucket of one cell, creating the bucket if needed. -/
def put (key : Key ι) (r : Nat) (g : GridIndex ι K) (c : Int × Int) : GridIndex ι K :=
  { g with
    buckets := Function.update g.buckets (g.bucketKey c)
      (some (((g.getBucket c).getD ∅).insert key r)) }

/-- Take a key out of the bucket of one cell; an empty bucket is given up. -/
def drop (key : Key ι) (g : GridIndex ι K) (c : Int × Int) : GridIndex ι K :=
  match g.getBucket c with
  | none => g
  | some b =>
      { g with
        buckets := Function.update g.buckets (g.bucketKey c)
          (if (b.erase key).entries = [] then none else some (b.erase key)) }

/-- {lit}`_insert_range`. -/
def insertRange (g : GridIndex ι K) (key : Key ι) (r : Nat) (range : CellRange) :
    GridIndex ι K :=
  range.cells.foldl (put key r) g

/-- {lit}`_remove_range`. -/
def removeRange (g : GridIndex ι K) (key : Key ι) (range : CellRange) : GridIndex ι K :=
  range.cells.foldl (drop key) g

/-- {lit}`_remove_non_overlap`. -/
def removeNonOverlap (g : GridIndex ι K) (key : Key ι) (old ov : CellRange) :
    GridIndex ι K :=
  (old.cells.filter (· ∉ ov.cells)).foldl (drop key) g

/-- {lit}`_insert_non_overlap`. -/
def insertNonOverlap (g : GridIndex ι K) (key : Key ι) (r : Nat) (new ov : CellRange) :
    GridIndex ι K :=
  (new.cells.filter (· ∉ ov.cells)).foldl (put key r) g

/-- Set an entry of {lit}`records`. -/
def setRecord (g : GridIndex ι K) (key : Key ι) (rec : Option Record) : GridIndex ι K :=
  { g with records := Function.update g.records key rec }

/-- {lit}`remove`, given the key. -/
def remove (g : GridIndex ι K) (key : Key ι) : GridIndex ι K × Bool :=
  match g.records key with
  | none => (g, false)
  | some rec => ((g.removeRange key rec.range).setRecord key none, true)

/-- The end of {lit}`add`: a new object enters the grid. -/
def enter (g : GridIndex ι K) (key : Key ι) (r : Nat) (range : CellRange) :
    GridIndex ι K :=
  (g.insertRange key r range).setRecord key (some ⟨r, range⟩)

/-- The end of {lit}`update`: an object that is in the grid may have moved. -/
def moveTo (g : GridIndex ι K) (key : Key ι) (r : Nat) (rec : Record) (range : CellRange) :
    GridIndex ι K × Bool :=
  let g := g.setRecord key (some { rec with obj := r })
  if rec.range = range then (g, false)
  else
    let ov := rec.range.overlap range
    let g :=
      if rec.range.hasOverlap range then
        (g.removeNonOverlap key rec.range ov).insertNonOverlap key r range ov
      else (g.removeRange key rec.range).insertRange key r range
    (g.setRecord key (some ⟨r, range⟩), true)

variable [FloorRing K]

/-- {lit}`update`.  The {lit}`add` it calls for an object that is not in the grid
finds the same range and no record either. -/
def update (g : GridIndex ι K) (heap : Nat → Obj ι K) (r : Nat) : GridIndex ι K × Bool :=
  let key := objectKey heap r
  match g.rangeForObj (heap r).toPlace, g.records key with
  | none, some _ => ((g.remove key).1, true)
  | none, none => (g, false)
  | some range, none => (g.enter key r range, true)
  | some range, some rec => g.moveTo key r rec range

/-- {lit}`add`. -/
def add (g : GridIndex ι K) (heap : Nat → Obj ι K) (r : Nat) : GridIndex ι K × Bool :=
  let key := objectKey heap r
  match g.rangeForObj (heap r).toPlace, g.records key with
  | none, _ => (g, false)
  | some range, none => (g.enter key r range, true)
  | some _, some rec => (g.setRecord key (some { rec with obj := r })).update heap r

/-- {lit}`upsert`. -/
def upsert (g : GridIndex ι K) (heap : Nat → Obj ι K) (r : Nat) : GridIndex ι K × Bool :=
  match g.records (objectKey heap r) with
  | some _ => g.update heap r
  | none => g.add heap r

end GridIndex

/-! ## Queries -/

/-- What a query does with one entry of a bucket: an object that has not been seen and
that is hit goes into the result. -/
def collect (hit : Nat → Bool) (acc : List Nat × List (Key ι))
    (e : Sigma fun _ : Key ι => Nat) : List Nat × List (Key ι) :=
  if e.1 ∈ acc.2 then acc
  else if hit e.2 then (acc.1 ++ [e.2], e.1 :: acc.2)
  else acc

namespace GridIndex

/-- The loops of a query over the cells of a range and the entries of their buckets. -/
def scan (g : GridIndex ι K) (range : CellRange) (hit : Nat → Bool) : List Nat :=
  (range.cells.foldl (fun acc c =>
    match g.getBucket c with
    | none => acc
    | some b => b.entries.foldl (collect hit) acc) ([], [])).1

variable [FloorRing K]

/-- The comparison of {lit}`queryCircle`. -/
def hitsCircle (heap : Nat → Obj ι K) (cx cy radius : K) (r : Nat) : Bool :=
  let o := (heap r).toPlace
  decide ((o.x - cx) ^ 2 + (o.y - cy) ^ 2 ≤ (o.radius + radius) ^ 2)

/-- {lit}`queryCircle`. -/
def queryCircle (g : GridIndex ι K) (heap : Nat → Obj ι K) (cx cy radius : K) : List Nat :=
  match g.cellRangeForAabb (cx - radius) (cy - radius) (cx + radius) (cy + radius) with
  | none => []
  | some range => g.scan range (hitsCircle heap cx cy radius)

/-- {lit}`circle_intersects_rect`. -/
def circleIntersectsRect (cx cy r minX minY maxX maxY : K) : Bool :=
  decide ((clamp cx minX maxX - cx) ^ 2 + (clamp cy minY maxY - cy) ^ 2 ≤ r ^ 2)

/-- The comparison of {lit}`queryRect`: an object with an extent is a circle, one
without is a point. -/
def hitsRect (heap : Nat → Obj ι K) (minX minY maxX maxY : K) (r : Nat) : Bool :=
  let o := (heap r).toPlace
  if 0 < o.radius then circleIntersectsRect o.x o.y o.radius minX minY maxX maxY
  else decide (minX ≤ o.x ∧ o.x ≤ maxX ∧ minY ≤ o.y ∧ o.y ≤ maxY)

/-- {lit}`queryRect`. -/
def queryRect (g : GridIndex ι K) (heap : Nat → Obj ι K) (minX minY maxX maxY : K) :
    List Nat :=
  match g.cellRangeForAabb minX minY maxX maxY with
  | none => []
  | some range => g.scan range (hitsRect heap minX minY maxX maxY)

end GridIndex

end Model

end BallServer.Grid
