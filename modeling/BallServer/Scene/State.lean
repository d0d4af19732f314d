import BallServer.GridIndex.Index
import BallServer.Quadtree.Tree
import BallServer.Table

/-!
# The scene of a game

A player owns cells; cells eat food, spores and smaller cells of other players.  The scene
keeps cells and spores in two grids and the food in a quadtree.

A cell is a Lua table that never changes its {lit}`id`, and no two cells have the same
one, so a cell is named by its number here and the table {lit}`player.cells` is a set of
numbers.  The same holds for spores and food.  The tables of the players themselves are
named by references.  Coordinates and sizes are exact numbers.

The order in which {lit}`pairs` visits a table, a bucket of a grid or a node of the tree is
not defined.  An {lit}`Order` chooses one for every place and turn of the program.
-/

namespace BallServer.Ball

open BallServer.Grid (GridIndex Bucket Obj Bounds Key)
open BallServer.Quadtree (Tree Limits)

/-- {lit}`math.sqrt`. -/
class Sqrt (K : Type) where
  sqrt : K → K

export Sqrt (sqrt)

/-- {lit}`Cell.new`. -/
structure Cell (K : Type) where
  playerid : Nat
  parentId : Option Nat
  x : K
  y : K
  size : K
  mergeTimer : Int
  boostVx : K
  boostVy : K
  protectedTimer : Int
  lastDirX : K
  lastDirY : K

/-- {lit}`spore.new`. -/
structure Spore (K : Type) where
  ownerId : Nat
  sourceCellId : Nat
  x : K
  y : K
  vx : K
  vy : K
  size : K

/-- {lit}`new_food`. -/
structure Food (K : Type) where
  x : K
  y : K

inductive ActionKind where
  | split
  | spit
deriving DecidableEq, Repr

/-- An entry of {lit}`pending_actions`. -/
structure Action (K : Type) where
  kind : ActionKind
  targetX : K
  targetY : K
  seq : Int
  moving : Bool
  cellDirs : Nat → Option (K × K)

/-- {lit}`new_player`. -/
structure Player (K : Type) where
  playerid : Nat
  battleConv : Nat
  battleOnline : Bool
  cells : Finset Nat
  targetX : K
  targetY : K
  moving : Bool
  lastInputSeq : Int
  pendingActions : List (Action K)

/-- An entry of {lit}`frame_event.new_cells`. -/
structure NewCell (K : Type) where
  cellId : Nat
  parentCellId : Option Nat
  playerid : Nat
  actionSeq : Int
  x : K
  y : K
  size : K
  boostVx : K
  boostVy : K

/-- An entry of {lit}`frame_event.new_spores`. -/
structure NewSpore (K : Type) where
  sporeId : Nat
  x : K
  y : K
  vx : K
  vy : K
  actionSeq : Int
  ownerPlayerid : Nat
  sourceCellId : Nat

/-- A message to the room. -/
inductive RoomMsg where
  | dead (playerid killer : Nat)
  | respawn (playerid : Nat)
deriving DecidableEq, Repr

/-- {lit}`frame_event`, and the messages to the room. -/
structure FrameEvent (K : Type) where
  newFoods : List (Nat × K × K)
  newSpores : Nat → List (NewSpore K)
  eatenFoodIds : List Nat
  deadPlayerids : List Nat
  newCells : Nat → List (NewCell K)
  toRoom : List RoomMsg

/-- The event of a frame at its start. -/
def FrameEvent.empty {K : Type} : FrameEvent K where
  newFoods := []
  newSpores := fun _ => []
  eatenFoodIds := []
  deadPlayerids := []
  newCells := fun _ => []
  toRoom := []

/-- The scene. -/
structure Scene (K : Type) [Field K] [LinearOrder K] where
  players : Table Nat
  tables : Nat → Player K
  nextTable : Nat
  cells : Nat → Cell K
  cellMaxid : Nat
  sporeTables : Nat → Spore K
  sporeMaxid : Nat
  spores : Finset Nat
  foodTables : Nat → Food K
  foodMaxid : Nat
  foodCount : Int
  foods : Finset Nat
  foodTree : Tree Nat K
  deadFoodInTree : Nat
  cellGrid : GridIndex Nat K
  sporeGrid : GridIndex Nat K
  pendingEnters : Table Nat
  pendingLeaves : Finset Nat
  pendingRebirth : Table Nat
  leftWeights : Nat → Option Int
  gameStarted : Bool
  event : FrameEvent K

/-- The places of the program that visit something in an undefined order; the numbers tell
the turns of a loop apart. -/
inductive Site where
  | leaves
  | leaveCells (p : Nat)
  | rebirth
  | commands
  | action (r n : Nat)
  | spores
  | movePlayers
  | moveCells (p : Nat)
  | rebuild
  | foodPlayers
  | foodCells (p : Nat)
  | nearFood (c : Nat)
  | sporePlayers
  | sporeCells (p : Nat)
  | nearSpores (c : Nat)
  | eatPlayers
  | eatCells (p : Nat)
  | nearCells (c : Nat)
  | mergePlayers
  | mergeCells (r : Nat)
  | collidePlayers
  | collideCells (r : Nat)
  | touched (r : Nat)
  | enters
  | enterCells (p : Nat)
  | input (p : Nat)

/-- The orders in which things are visited. -/
structure Order where
  pairs : Site → Finset Nat → List Nat
  bucket : Site → Bucket Nat → Bucket Nat
  tree : Site → List Nat → List Nat
  nodup_pairs : ∀ s t, (pairs s t).Nodup
  mem_pairs : ∀ s t i, i ∈ pairs s t ↔ i ∈ t
  bucket_perm : ∀ s b, (bucket s b).entries.Perm b.entries
  tree_perm : ∀ s l, (tree s l).Perm l

/-- Numbers in ascending order, buckets and nodes as they are. -/
def Order.ascending : Order where
  pairs _ t := t.sort (· ≤ ·)
  bucket _ b := b
  tree _ l := l
  nodup_pairs _ t := t.sort_nodup _
  mem_pairs _ t _ := t.mem_sort _
  bucket_perm _ _ := .rfl
  tree_perm _ _ := .rfl

section Model

variable {K : Type} [Field K] [LinearOrder K]

/-- {lit}`SCENE_WIDTH` and {lit}`SCENE_HIGH`. -/
def sceneWidth : K := 1000

/-- {lit}`SCENE_BOUNDS`. -/
def sceneBounds : Bounds K where
  x := 0
  y := 0
  width := sceneWidth
  height := sceneWidth

/-- {lit}`FOOD_MAX`. -/
def foodMax : Int := 4000

/-- {lit}`PROTECTED_TIME`. -/
def protectedTime : Int := 100

/-- The parameters of {lit}`food_tree`. -/
def foodLimits : Limits where
  maxObjects := 10
  maxLevels := 5

/-- {lit}`Cell.cal_mass`. -/
def calMass (size : K) : K := size * size

namespace Scene

/-- A cell as an object of the grid. -/
def cellObj (s : Scene K) (c : Nat) : Obj Nat K where
  x := (s.cells c).x
  y := (s.cells c).y
  size := some (s.cells c).size
  id := some c

/-- A spore as an object of the grid. -/
def sporeObj (s : Scene K) (i : Nat) : Obj Nat K where
  x := (s.sporeTables i).x
  y := (s.sporeTables i).y
  size := some (s.sporeTables i).size
  id := some i

/-- {lit}`players[playerid].cells`, and the empty set if there is no such player. -/
def cellsOf (s : Scene K) (p : Nat) : Finset Nat :=
  match s.players.get p with
  | some r => (s.tables r).cells
  | none => ∅

/-- Change a cell in place. -/
def setCell (s : Scene K) (c : Nat) (x : Cell K) : Scene K :=
  { s with cells := Function.update s.cells c x }

/-- Change the table of a player in place. -/
def setTable (s : Scene K) (r : Nat) (x : Player K) : Scene K :=
  { s with tables := Function.update s.tables r x }

/-- {lit}`player.cells[c] = cell`. -/
def addCell (s : Scene K) (r c : Nat) : Scene K :=
  s.setTable r { s.tables r with cells := insert c (s.tables r).cells }

/-- {lit}`player.cells[c] = nil`. -/
def dropCell (s : Scene K) (r c : Nat) : Scene K :=
  s.setTable r { s.tables r with cells := (s.tables r).cells.erase c }

/-- {lit}`Cell.new`. -/
def newCell (s : Scene K) (x : Cell K) : Scene K :=
  { s with
    cellMaxid := s.cellMaxid + 1
    cells := Function.update s.cells (s.cellMaxid + 1) x }

/-- {lit}`spore.new`, and the entry in {lit}`spores`. -/
def newSpore (s : Scene K) (x : Spore K) : Scene K :=
  { s with
    sporeMaxid := s.sporeMaxid + 1
    sporeTables := Function.update s.sporeTables (s.sporeMaxid + 1) x
    spores := insert (s.sporeMaxid + 1) s.spores }

/-- The references of the players in the order of their numbers. -/
def sortedPlayers (o : Order) (site : Site) (s : Scene K) : List Nat :=
  sortBy (fun r => (s.tables r).playerid)
    ((o.pairs site s.players.keys).filterMap s.players.get)

/-- The cells of all players in the order of their numbers. -/
def sortedCells (o : Order) (site : Site) (sites : Nat → Site) (s : Scene K) : List Nat :=
  sortBy id ((o.pairs site s.players.keys).flatMap fun p => o.pairs (sites p) (s.cellsOf p))

variable [FloorRing K]

/-- {lit}`cell_grid:update`. -/
def updateCell (s : Scene K) (c : Nat) : Scene K :=
  { s with cellGrid := (s.cellGrid.update s.cellObj c).1 }

/-- {lit}`cell_grid:upsert`. -/
def upsertCell (s : Scene K) (c : Nat) : Scene K :=
  { s with cellGrid := (s.cellGrid.upsert s.cellObj c).1 }

/-- {lit}`cell_grid:add`. -/
def indexCell (s : Scene K) (c : Nat) : Scene K :=
  { s with cellGrid := (s.cellGrid.add s.cellObj c).1 }

omit [FloorRing K] in
/-- {lit}`cell_grid:remove`. -/
def removeCell (s : Scene K) (c : Nat) : Scene K :=
  { s with cellGrid := (s.cellGrid.remove (.id c)).1 }

/-- {lit}`calc_player_weight_score`. -/
def weightScore (s : Scene K) (x : Player K) : Int :=
  ⌊x.cells.sum fun c => calMass (s.cells c).size⌋

end Scene

end Model

end BallServer.Ball
