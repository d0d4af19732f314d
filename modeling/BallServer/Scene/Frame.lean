import BallServer.Scene.State

/-!
# A frame of the game

The phases of {lit}`update` in the order in which they run, and what can happen between
two frames.  A loop that goes through a sorted list is a fold over it.
-/

namespace BallServer.Ball

open BallServer.Grid (GridIndex Key)
open BallServer.Quadtree

namespace Scene

variable {K : Type} [Field K] [LinearOrder K] [FloorRing K]

/-! ## Players leave, enter and come back -/

/-- {lit}`flush_pending_leaves` for one player. -/
def leave (o : Order) (s : Scene K) (p : Nat) : Scene K :=
  let s :=
    match s.players.get p with
    | none => s
    | some r =>
        let s := (o.pairs (.leaveCells p) (s.tables r).cells).foldl removeCell s
        { s with players := s.players.erase p }
  { s with pendingLeaves := s.pendingLeaves.erase p }

/-- {lit}`flush_pending_leaves`. -/
def flushPendingLeaves (o : Order) (s : Scene K) : Scene K :=
  (o.pairs .leaves s.pendingLeaves).foldl (leave o) s

/-- {lit}`flush_pending_enters` for one player. -/
def enter (o : Order) (s : Scene K) (p : Nat) : Scene K :=
  match s.pendingEnters.get p with
  | none => s
  | some r =>
      let s := { s with players := s.players.set p r }
      let s := (o.pairs (.enterCells p) (s.tables r).cells).foldl indexCell s
      { s with pendingEnters := s.pendingEnters.erase p }

/-- {lit}`flush_pending_enters`. -/
def flushPendingEnters (o : Order) (s : Scene K) : Scene K :=
  if s.gameStarted then (o.pairs .enters s.pendingEnters.keys).foldl (enter o) s else s

/-- A new cell of size 1 at a random place. -/
def bornCell (p : Nat) (at_ : Fin 1001 × Fin 1001) : Cell K where
  playerid := p
  parentId := none
  x := (at_.1 : Nat)
  y := (at_.2 : Nat)
  size := 1
  mergeTimer := 0
  boostVx := 0
  boostVy := 0
  protectedTimer := protectedTime
  lastDirX := 1
  lastDirY := 0

/-- {lit}`flush_pending_rebirth` for one player. -/
def rebear (at_ : Nat → Fin 1001 × Fin 1001) (s : Scene K) (p : Nat) : Scene K :=
  match s.pendingRebirth.get p with
  | none => s
  | some r =>
      let c := s.cellMaxid + 1
      let s := (s.newCell (bornCell p (at_ p))).addCell r c
      let s := s.setTable r { s.tables r with
        targetX := ((at_ p).1 : Nat)
        targetY := ((at_ p).2 : Nat)
        moving := false }
      let s := s.indexCell c
      { s with
        pendingRebirth := s.pendingRebirth.erase p
        event := { s.event with toRoom := s.event.toRoom ++ [.respawn p] } }

/-- {lit}`flush_pending_rebirth`. -/
def flushPendingRebirth (o : Order) (at_ : Nat → Fin 1001 × Fin 1001) (s : Scene K) : Scene K :=
  (o.pairs .rebirth s.pendingRebirth.keys).foldl (rebear at_) s

/-! ## Commands -/

section Commands

variable [Sqrt K]

/-- {lit}`get_cell_action_dir`. -/
def getCellActionDir (c : Nat) (x : Cell K) (a : Action K) : K × K :=
  let dx := a.targetX - x.x
  let dy := a.targetY - x.y
  let dist := sqrt (dx * dx + dy * dy)
  if a.moving = true ∧ dist > 0.001 then (dx / dist, dy / dist)
  else
    match a.cellDirs c with
    | some dir => dir
    | none => (x.lastDirX, x.lastDirY)

/-- {lit}`do_split` for one cell. -/
def splitCell (a : Action K) (r : Nat) (s : Scene K) (c : Nat) : Scene K :=
  let size := sqrt (calMass (s.cells c).size / 2.0)
  let s := s.setCell c { s.cells c with
    size := size
    mergeTimer := 60 }
  let dir := getCellActionDir c (s.cells c) a
  (s.newCell {
    playerid := (s.tables r).playerid
    parentId := some c
    x := (s.cells c).x
    y := (s.cells c).y
    size := size
    mergeTimer := 60
    boostVx := 10 * dir.1
    boostVy := 10 * dir.2
    protectedTimer := 0
    lastDirX := dir.1
    lastDirY := dir.2 }).addCell r (s.cellMaxid + 1)

/-- The loop of {lit}`do_split`: the scene and the new cells.  The number of cells does not
fall, so after a {lit}`break` no further cell would be split. -/
def splitCells (a : Action K) (r : Nat) : List Nat → Scene K → Scene K × List Nat
  | [], s => (s, [])
  | c :: cs, s =>
      if 16 ≤ (s.tables r).cells.card then (s, [])
      else
        let (s', new) := splitCells a r cs (splitCell a r s c)
        (s', (s.cellMaxid + 1) :: new)

/-- {lit}`do_split`. -/
def doSplit (o : Order) (site : Site) (s : Scene K) (r : Nat) (a : Action K) :
    Scene K × List Nat :=
  if 16 ≤ (s.tables r).cells.card then (s, [])
  else
    splitCells a r (sortBy id
      ((o.pairs site (s.tables r).cells).filter fun c => 4 ≤ (s.cells c).size)) s

/-- The cells of a player that are large enough to be split. -/
def splittable (s : Scene K) (r : Nat) : Finset Nat :=
  (s.tables r).cells.filter fun c => 4 ≤ (s.cells c).size

/-- {lit}`spit_spore` for a cell that is large enough. -/
def spitCell (a : Action K) (r : Nat) (s : Scene K) (c : Nat) : Scene K :=
  let s := s.setCell c { s.cells c with
    size := sqrt (calMass (s.cells c).size - calMass 1) }
  let dir := getCellActionDir c (s.cells c) a
  s.newSpore {
    ownerId := (s.tables r).playerid
    sourceCellId := c
    x := (s.cells c).x + dir.1 * (s.cells c).size
    y := (s.cells c).y + dir.2 * (s.cells c).size
    vx := 15 * dir.1
    vy := 15 * dir.2
    size := 1 }

/-- The loop of {lit}`spit_spore`: the scene and the new spores. -/
def spitCells (a : Action K) (r : Nat) : List Nat → Scene K → Scene K × List Nat
  | [], s => (s, [])
  | c :: cs, s =>
      if 3 ≤ (s.cells c).size ∧ calMass (s.cells c).size > calMass 1 then
        let (s', new) := spitCells a r cs (spitCell a r s c)
        (s', (s.sporeMaxid + 1) :: new)
      else spitCells a r cs s

/-- {lit}`spit_spore`. -/
def spitSpore (o : Order) (site : Site) (s : Scene K) (r : Nat) (a : Action K) :
    Scene K × List Nat :=
  spitCells a r (sortBy id (o.pairs site (s.tables r).cells)) s

/-- {lit}`process_commands` for one action: the new cells or spores are reported. -/
def runAction (o : Order) (r : Nat) (s : Scene K) (a : Action K × Nat) : Scene K :=
  let p := (s.tables r).playerid
  match a.1.kind with
  | .split =>
      let (s, new) := doSplit o (.action r a.2) s r a.1
      let entries := new.map fun c =>
        let x := s.cells c
        ⟨c, x.parentId, x.playerid, a.1.seq, x.x, x.y, x.size, x.boostVx, x.boostVy⟩
      { s with event := { s.event with
          newCells := Function.update s.event.newCells p (s.event.newCells p ++ entries) } }
  | .spit =>
      let (s, new) := spitSpore o (.action r a.2) s r a.1
      let entries := new.map fun i =>
        let x := s.sporeTables i
        ⟨i, x.x, x.y, x.vx, x.vy, a.1.seq, x.ownerId, x.sourceCellId⟩
      { s with event := { s.event with
          newSpores := Function.update s.event.newSpores p (s.event.newSpores p ++ entries) } }

/-- {lit}`process_commands` for one player. -/
def runActions (o : Order) (s : Scene K) (r : Nat) : Scene K :=
  let s := (s.tables r).pendingActions.zipIdx.foldl (runAction o r) s
  s.setTable r { s.tables r with pendingActions := [] }

/-- {lit}`process_commands`. -/
def processCommands (o : Order) (s : Scene K) : Scene K :=
  (s.sortedPlayers o .commands).foldl (runActions o) s

end Commands

/-! ## Food and movement -/

/-- A food as an object of the tree. -/
def foodPlace (s : Scene K) (f : Nat) : Grid.Place K where
  x := (s.foodTables f).x
  y := (s.foodTables f).y

/-- {lit}`food_tree:insert`.  Six nested calls are enough for its five levels. -/
def insertFood (s : Scene K) (f : Nat) : Scene K :=
  match insert s.foodPlace foodLimits 6 f s.foodTree with
  | some t => { s with foodTree := t }
  | none => s

/-- {lit}`food_update`; the draw is {lit}`none` if the first random number is below 50. -/
def foodUpdate (draw : Option (Fin 1001 × Fin 1001)) (s : Scene K) : Scene K :=
  if foodMax ≤ s.foodCount then s
  else
    match draw with
    | none => s
    | some (x, y) =>
        let f := s.foodMaxid + 1
        let food : Food K := ⟨(x : Nat), (y : Nat)⟩
        insertFood { s with
          foodCount := s.foodCount + 1
          foodMaxid := f
          foodTables := Function.update s.foodTables f food
          foods := Insert.insert f s.foods
          event := { s.event with newFoods := s.event.newFoods ++ [(f, food.x, food.y)] } } f

/-- {lit}`spore.update`. -/
def moveSpore (x : Spore K) : Spore K :=
  let px := x.x + x.vx * (1 / 5)
  let py := x.y + x.vy * (1 / 5)
  let px := if px < 0 then 0 else px
  let px := if px > sceneWidth then sceneWidth else px
  let py := if py < 0 then 0 else py
  let py := if py > sceneWidth then sceneWidth else py
  let vx := x.vx * (9 / 10)
  let vy := x.vy * (9 / 10)
  if |vx| < 1 / 100 ∧ |vy| < 1 / 100 then { x with x := px, y := py, vx := 0, vy := 0 }
  else { x with x := px, y := py, vx := vx, vy := vy }

/-- {lit}`spores_move` for one spore. -/
def sporeMove (s : Scene K) (i : Nat) : Scene K :=
  let s := { s with
    sporeTables := Function.update s.sporeTables i (moveSpore (s.sporeTables i)) }
  { s with sporeGrid := (s.sporeGrid.upsert s.sporeObj i).1 }

/-- {lit}`spores_move`. -/
def sporesMove (o : Order) (s : Scene K) : Scene K :=
  (o.pairs .spores s.spores).foldl sporeMove s

section Move

variable [Sqrt K]

/-- {lit}`Cell.calc_speed`. -/
def calcSpeed (size : K) : K := max 1 (5 / sqrt size)

/-- {lit}`cell_move`: a cell follows the target of its player. -/
def followTarget (x : Player K) (c : Cell K) : Cell K :=
  if x.moving then
    let dx := x.targetX - c.x
    let dy := x.targetY - c.y
    let dist := sqrt (dx * dx + dy * dy)
    if dist > 0.001 then
      let way := min (calcSpeed c.size * (1 / 5)) dist
      { c with
        x := c.x + dx / dist * way
        y := c.y + dy / dist * way
        lastDirX := dx / dist
        lastDirY := dy / dist }
    else c
  else c

/-- {lit}`cell_move`: a cell is carried by its boost. -/
def applyBoost (c : Cell K) : Cell K :=
  if c.boostVx ≠ 0 ∨ c.boostVy ≠ 0 then
    let vx := c.boostVx * (85 / 100)
    let vy := c.boostVy * (85 / 100)
    { c with
      x := c.x + c.boostVx * (1 / 5)
      y := c.y + c.boostVy * (1 / 5)
      boostVx := if |vx| < 1 / 100 then 0 else vx
      boostVy := if |vy| < 1 / 100 then 0 else vy }
  else c

/-- The bounds of the scene. -/
def clampCell (c : Cell K) : Cell K :=
  { c with
    x := max 0 (min sceneWidth c.x)
    y := max 0 (min sceneWidth c.y) }

/-- {lit}`cell_move` for one cell. -/
def moveCell (r : Nat) (s : Scene K) (c : Nat) : Scene K :=
  (s.setCell c (clampCell (applyBoost (followTarget (s.tables r) (s.cells c))))).upsertCell c

/-- {lit}`cell_move` for one player. -/
def moveCells (o : Order) (s : Scene K) (p : Nat) : Scene K :=
  match s.players.get p with
  | none => s
  | some r => (o.pairs (.moveCells p) (s.tables r).cells).foldl (moveCell r) s

/-- {lit}`cell_move`. -/
def cellMove (o : Order) (s : Scene K) : Scene K :=
  (o.pairs .movePlayers s.players.keys).foldl (moveCells o) s

end Move

/-- {lit}`cleanup`. -/
def cleanup (o : Order) (s : Scene K) : Scene K :=
  if foodMax * 3 < (s.deadFoodInTree : Int) * 10 then
    { (o.pairs .rebuild s.foods).foldl insertFood { s with foodTree := s.foodTree.clear } with
      deadFoodInTree := 0 }
  else s

/-! ## Eating -/

section Eat

variable [Sqrt K]

/-- {lit}`eat_food` for one cell and one food. -/
def eatOneFood (c : Nat) (s : Scene K) (f : Nat) : Scene K :=
  let x := s.cells c
  if f ∈ s.foods ∧ (x.x - (s.foodTables f).x) ^ 2 + (x.y - (s.foodTables f).y) ^ 2 < x.size ^ 2
  then
    let s := (s.setCell c { x with size := sqrt (calMass x.size + 1) }).updateCell c
    { s with
      foods := s.foods.erase f
      deadFoodInTree := s.deadFoodInTree + 1
      foodCount := s.foodCount - 1
      event := { s.event with eatenFoodIds := s.event.eatenFoodIds ++ [f] } }
  else s

/-- {lit}`eat_food` for one cell. -/
def eatFoods (o : Order) (s : Scene K) (c : Nat) : Scene K :=
  let x := s.cells c
  let near := o.tree (.nearFood c) (retrieveInRadius s.foodPlace x.x x.y (x.size + 1) s.foodTree)
  (sortBy id near).foldl (eatOneFood c) s

/-- {lit}`nearbyFoods`. -/
def nearFoods (o : Order) (s : Scene K) (c : Nat) : List Nat :=
  sortBy id (o.tree (.nearFood c)
    (retrieveInRadius s.foodPlace (s.cells c).x (s.cells c).y ((s.cells c).size + 1) s.foodTree))

/-- {lit}`eat_food`. -/
def eatFood (o : Order) (s : Scene K) : Scene K :=
  (s.sortedCells o .foodPlayers .foodCells).foldl (eatFoods o) s

/-- A grid whose buckets are visited in a given order. -/
def reorder (o : Order) (site : Site) (g : GridIndex Nat K) : GridIndex Nat K :=
  { g with buckets := fun n => (g.buckets n).map (o.bucket site) }

/-- {lit}`eat_spore` for one cell and one spore. -/
def eatOneSpore (c : Nat) (s : Scene K) (i : Nat) : Scene K :=
  let x := s.cells c
  let y := s.sporeTables i
  if i ∈ s.spores ∧ (x.x - y.x) ^ 2 + (x.y - y.y) ^ 2 < (x.size + y.size) ^ 2 then
    let s := s.setCell c { x with size := sqrt (calMass x.size + calMass y.size) }
    { s with
      spores := s.spores.erase i
      sporeGrid := (s.sporeGrid.remove (.id i)).1 }.updateCell c
  else s

/-- {lit}`eat_spore` for one cell. -/
def eatSpores (o : Order) (s : Scene K) (c : Nat) : Scene K :=
  let x := s.cells c
  let near := (reorder o (.nearSpores c) s.sporeGrid).queryCircle s.sporeObj x.x x.y x.size
  (sortBy id near).foldl (eatOneSpore c) s

/-- {lit}`eat_spore`. -/
def eatSpore (o : Order) (s : Scene K) : Scene K :=
  (s.sortedCells o .sporePlayers .sporeCells).foldl (eatSpores o) s

omit [FloorRing K] [Sqrt K] in
/-- {lit}`Cell.can_eat`. -/
def canEat (a b : Cell K) : Bool :=
  if a.playerid = b.playerid then false
  else if b.protectedTimer > 0 then false
  else if a.size ≤ b.size * (5 / 4) then false
  else
    let dx := a.x - b.x
    let dy := a.y - b.y
    decide (dx * dx + dy * dy < a.size * a.size)

/-- An entry of {lit}`candidates`. -/
structure Candidate where
  eaterPid : Nat
  eaterCid : Nat
  targetPid : Nat
  targetCid : Nat

omit [FloorRing K] [Sqrt K] in
/-- {lit}`eat_player`: the protection of a cell wears off. -/
def wearOff (s : Scene K) (c : Nat) : Scene K :=
  if (s.cells c).protectedTimer > 0 then
    s.setCell c { s.cells c with protectedTimer := (s.cells c).protectedTimer - 1 }
  else s

omit [Sqrt K] in
/-- The candidates of one cell. -/
def candidatesOf (o : Order) (s : Scene K) (c : Nat) : List Candidate :=
  let x := s.cells c
  let near := (reorder o (.nearCells c) s.cellGrid).queryCircle s.cellObj x.x x.y (x.size + x.size)
  ((sortBy id near).filter fun d => c ≠ d ∧ x.playerid ≠ (s.cells d).playerid).map fun d =>
    ⟨x.playerid, c, (s.cells d).playerid, d⟩

/-- {lit}`eat_player` for one candidate: the scene, and the killer and the owner of the
cell if it dies. -/
def eatCandidate (s : Scene K) (e : Candidate) : Scene K × Option (Nat × Nat) :=
  match s.players.get e.eaterPid, s.players.get e.targetPid with
  | some _, some t =>
      if e.eaterCid ∈ s.cellsOf e.eaterPid ∧ e.targetCid ∈ s.cellsOf e.targetPid ∧
          canEat (s.cells e.eaterCid) (s.cells e.targetCid) then
        let size := sqrt (calMass (s.cells e.eaterCid).size + calMass (s.cells e.targetCid).size)
        let s := (s.setCell e.eaterCid { s.cells e.eaterCid with size := size }).updateCell e.eaterCid
        ((s.dropCell t e.targetCid).removeCell e.targetCid,
          some ((s.cells e.eaterCid).playerid, (s.cells e.targetCid).playerid))
      else (s, none)
  | _, _ => (s, none)

/-- The loop of {lit}`eat_player` over the candidates. -/
def eatCandidates : List Candidate → Scene K → Scene K × List (Nat × Nat)
  | [], s => (s, [])
  | e :: es, s =>
      let (s, died) := eatCandidate s e
      let (s, events) := eatCandidates es s
      (s, died.toList ++ events)

/-- {lit}`eat_player`: the scene and, for each cell eaten, the killer and the owner. -/
def eatPlayer (o : Order) (s : Scene K) : Scene K × List (Nat × Nat) :=
  let visited := (o.pairs .eatPlayers s.players.keys).flatMap fun p =>
    o.pairs (.eatCells p) (s.cellsOf p)
  let s := visited.foldl wearOff s
  eatCandidates ((sortBy id visited).flatMap (candidatesOf o s)) s

omit [FloorRing K] [Sqrt K] in
/-- {lit}`eat_cell` for one event. -/
def reportDeath (s : Scene K) (e : Nat × Nat) : Scene K :=
  match s.players.get e.2 with
  | none => s
  | some r =>
      if (s.tables r).cells.card = 0 then
        { s with
          pendingRebirth := s.pendingRebirth.set e.2 r
          event := { s.event with
            deadPlayerids := s.event.deadPlayerids ++ [e.2]
            toRoom := s.event.toRoom ++ [.dead e.2 e.1] } }
      else s

/-- {lit}`eat_cell`. -/
def eatCell (o : Order) (s : Scene K) : Scene K :=
  let (s, events) := eatPlayer o s
  events.foldl reportDeath s

/-! ## Cells of one player -/

omit [FloorRing K] [Sqrt K] in
/-- {lit}`merge_update`: a merge timer runs down. -/
def tickMerge (s : Scene K) (c : Nat) : Scene K :=
  if (s.cells c).mergeTimer > 0 then
    s.setCell c { s.cells c with mergeTimer := (s.cells c).mergeTimer - 1 }
  else s

omit [FloorRing K] [Sqrt K] in
/-- Of two cells the one that stays: the larger or, of equal ones, the older. -/
def biggerOf (s : Scene K) (a b : Nat) : Nat × Nat :=
  if (s.cells a).size > (s.cells b).size then (a, b)
  else if (s.cells a).size < (s.cells b).size then (b, a)
  else if a > b then (b, a)
  else (a, b)

/-- {lit}`merge_update` for one pair. -/
def mergePair (r : Nat) (s : Scene K) (ab : Nat × Nat) : Scene K :=
  let a := s.cells ab.1
  let b := s.cells ab.2
  if a.mergeTimer ≤ 0 ∧ b.mergeTimer ≤ 0 ∧
      ab.1 ∈ (s.tables r).cells ∧ ab.2 ∈ (s.tables r).cells ∧
      sqrt ((a.x - b.x) ^ 2 + (a.y - b.y) ^ 2) < a.size + b.size then
    let (big, small) := s.biggerOf ab.1 ab.2
    let s := s.setCell big { s.cells big with size := sqrt (calMass a.size + calMass b.size) }
    ((s.dropCell r small).removeCell small).updateCell big
  else s

/-- The pairs {lit}`i < j` of a list in the order of two nested loops. -/
def pairsOf : List Nat → List (Nat × Nat)
  | [] => []
  | c :: cs => cs.map (c, ·) ++ pairsOf cs

/-- {lit}`merge_update` for one player. -/
def mergePlayer (o : Order) (s : Scene K) (r : Nat) : Scene K :=
  let cs := sortBy id (o.pairs (.mergeCells r) (s.tables r).cells)
  let s := cs.foldl tickMerge s
  (pairsOf cs).foldl (mergePair r) s

/-- {lit}`merge_update`. -/
def mergeUpdate (o : Order) (s : Scene K) : Scene K :=
  (s.sortedPlayers o .mergePlayers).foldl (mergePlayer o) s

omit [LinearOrder K] [FloorRing K] [Sqrt K] in
/-- {lit}`OVERLAP_DIRS`. -/
def overlapDirs : List (K × K) :=
  let d : K := 70710678 / 100000000
  [(1, 0), (d, d), (0, 1), (-d, d), (-1, 0), (-d, -d), (0, -1), (d, -d)]

omit [LinearOrder K] [FloorRing K] [Sqrt K] in
/-- {lit}`get_pair_fallback_dir`. -/
def getPairFallbackDir (a b : Nat) : K × K :=
  let h := (min a b * 73856093 + max a b * 19349663) % 8
  (overlapDirs[h]?).getD (0, 0)

/-- {lit}`self_collision` for one pair: the scene and whether the cells were pushed. -/
def pushPair (s : Scene K) (ab : Nat × Nat) : Scene K × Bool :=
  let a := s.cells ab.1
  let b := s.cells ab.2
  let dx := a.x - b.x
  let dy := a.y - b.y
  let dist := sqrt (dx ^ 2 + dy ^ 2)
  let overlap := a.size + b.size - dist
  if overlap ≤ 0 then (s, false)
  else
    let n := if dist < 0.001 then getPairFallbackDir ab.1 ab.2 else (dx / dist, dy / dist)
    let px := n.1 * overlap / 2.0
    let py := n.2 * overlap / 2.0
    let s := s.setCell ab.1 (clampCell { a with x := a.x + px, y := a.y + py })
    (s.setCell ab.2 (clampCell { b with x := b.x - px, y := b.y - py }), true)

/-- The pushes of {lit}`self_collision`: the scene and the cells that were touched. -/
def pushPairs : List (Nat × Nat) → Scene K → Scene K × Finset Nat
  | [], s => (s, ∅)
  | ab :: abs, s =>
      let (s, pushed) := pushPair s ab
      let (s, touched) := pushPairs abs s
      (s, if pushed then Insert.insert ab.1 (Insert.insert ab.2 touched) else touched)

/-- {lit}`self_collision`: three rounds, then the grid learns of the touched cells. -/
def selfCollision (o : Order) (s : Scene K) (r : Nat) : Scene K :=
  let cs := sortBy id (o.pairs (.collideCells r) (s.tables r).cells)
  if cs.length ≤ 1 then s
  else
    let (s, touched) := pushPairs (pairsOf cs ++ pairsOf cs ++ pairsOf cs) s
    (o.pairs (.touched r) touched).foldl updateCell s

/-- {lit}`collision_all`. -/
def collisionUpdate (o : Order) (s : Scene K) : Scene K :=
  (s.sortedPlayers o .collidePlayers).foldl (selfCollision o) s

end Eat

/-! ## The frame, and what happens between frames -/

/-- The random numbers of a frame. -/
structure Draws where
  rebirth : Nat → Fin 1001 × Fin 1001
  food : Option (Fin 1001 × Fin 1001)

/-- {lit}`update`. -/
def update [Sqrt K] (o : Order) (d : Draws) (s : Scene K) : Scene K :=
  if s.gameStarted = false then s
  else
    let s := { s with event := .empty }
    let s := flushPendingRebirth o d.rebirth (flushPendingLeaves o s)
    let s := foodUpdate d.food (processCommands o s)
    let s := cleanup o (cellMove o (sporesMove o s))
    let s := eatCell o (eatSpore o (eatFood o s))
    let s := collisionUpdate o (mergeUpdate o s)
    flushPendingEnters o s

/-- The message {lit}`input_frame`, with its defaults filled in. -/
structure Input (K : Type) where
  targetX : K
  targetY : K
  moving : Bool
  inputSeq : Int
  split : Bool
  spit : Bool

omit [FloorRing K] in
/-- {lit}`input_frame`: a cell turns towards the target. -/
def turnCell [Sqrt K] (m : Input K) (s : Scene K) (c : Nat) : Scene K :=
  let dx := m.targetX - (s.cells c).x
  let dy := m.targetY - (s.cells c).y
  let dist := sqrt (dx * dx + dy * dy)
  if dist > 0.001 then
    s.setCell c { s.cells c with
      lastDirX := dx / dist
      lastDirY := dy / dist }
  else s

omit [FloorRing K] in
/-- The action an input asks for, with the directions its cells have now. -/
def inputAction (s : Scene K) (r : Nat) (m : Input K) (kind : ActionKind) : Action K where
  kind := kind
  targetX := m.targetX
  targetY := m.targetY
  seq := m.inputSeq
  moving := m.moving
  cellDirs c :=
    if c ∈ (s.tables r).cells then some ((s.cells c).lastDirX, (s.cells c).lastDirY) else none

omit [FloorRing K] in
/-- {lit}`input_frame`. -/
def inputFrame [Sqrt K] (o : Order) (s : Scene K) (p : Nat) (m : Input K) : Scene K :=
  match s.players.get p with
  | none => s
  | some r =>
      if m.inputSeq ≤ (s.tables r).lastInputSeq then s
      else
        let s :=
          if m.moving then
            let s := s.setTable r { s.tables r with
              targetX := m.targetX
              targetY := m.targetY }
            (o.pairs (.input p) (s.tables r).cells).foldl (turnCell m) s
          else s
        let actions := (if m.split then [s.inputAction r m .split] else []) ++
          (if m.spit then [s.inputAction r m .spit] else [])
        s.setTable r { s.tables r with
          moving := m.moving
          pendingActions := (s.tables r).pendingActions ++ actions
          lastInputSeq := m.inputSeq }

omit [FloorRing K] in
/-- The second loop of {lit}`batch_add_player` for one player. -/
def addPlayer (s : Scene K) (info : Nat × Nat × (Fin 1001 × Fin 1001)) : Scene K :=
  let c := s.cellMaxid + 1
  let s := s.newCell (bornCell info.1 info.2.2)
  { s with
    nextTable := s.nextTable + 1
    tables := Function.update s.tables s.nextTable {
      playerid := info.1
      battleConv := info.2.1
      battleOnline := false
      cells := {c}
      targetX := 0
      targetY := 0
      moving := false
      lastInputSeq := 0
      pendingActions := [] }
    pendingEnters := s.pendingEnters.set info.1 s.nextTable }

omit [FloorRing K] in
/-- {lit}`batch_add_player`: numbers, conversations and random places of the players. -/
def batchAddPlayer (s : Scene K) (infos : List (Nat × Nat × (Fin 1001 × Fin 1001))) :
    Scene K × Bool :=
  if infos.any fun i => (s.players.get i.1).isSome || (s.pendingEnters.get i.1).isSome then
    (s, false)
  else (infos.foldl addPlayer s, true)

/-- {lit}`kick_player`. -/
def kickPlayer (s : Scene K) (p : Nat) : Scene K × Bool :=
  if (s.pendingEnters.get p).isSome then
    ({ s with pendingEnters := s.pendingEnters.erase p }, true)
  else if (s.pendingRebirth.get p).isSome then
    ({ s with
      leftWeights := Function.update s.leftWeights p (some 1)
      pendingRebirth := s.pendingRebirth.erase p
      pendingLeaves := Insert.insert p s.pendingLeaves }, true)
  else
    match s.players.get p with
    | none => (s, false)
    | some r =>
        if p ∈ s.pendingLeaves then (s, false)
        else
          ({ s with
            leftWeights := Function.update s.leftWeights p (some (s.weightScore (s.tables r)))
            pendingLeaves := Insert.insert p s.pendingLeaves }, true)

omit [FloorRing K] in
/-- {lit}`battle_online`. -/
def battleOnline (s : Scene K) (p : Nat) (online : Bool) : Scene K × Bool :=
  match (s.pendingEnters.get p).or (s.players.get p) with
  | none => (s, false)
  | some r => (s.setTable r { s.tables r with battleOnline := online }, true)

/-- What can happen to the scene. -/
inductive Event (K : Type) where
  | frame (o : Order) (d : Draws)
  | input (o : Order) (p : Nat) (m : Input K)
  | batchAdd (infos : List (Nat × Nat × (Fin 1001 × Fin 1001)))
  | kick (p : Nat)
  | online (p : Nat) (b : Bool)
  | startGame

/-- One event. -/
def step [Sqrt K] (s : Scene K) : Event K → Scene K
  | .frame o d => s.update o d
  | .input o p m => s.inputFrame o p m
  | .batchAdd infos => (s.batchAddPlayer infos).1
  | .kick p => (s.kickPlayer p).1
  | .online p b => (s.battleOnline p b).1
  | .startGame => { s with gameStarted := true }

/-- A sequence of events. -/
def run [Sqrt K] (s : Scene K) (es : List (Event K)) : Scene K :=
  es.foldl step s

/-- A scene when its service starts, with empty grids of cells of size 32. -/
def start [IsStrictOrderedRing K] : Scene K where
  players := .empty
  tables := fun _ => ⟨0, 0, false, ∅, 0, 0, false, 0, []⟩
  nextTable := 0
  cells := fun _ => bornCell 0 (0, 0)
  cellMaxid := 0
  sporeTables := fun _ => ⟨0, 0, 0, 0, 0, 0, 1⟩
  sporeMaxid := 0
  spores := ∅
  foodTables := fun _ => ⟨0, 0⟩
  foodMaxid := 0
  foodCount := 0
  foods := ∅
  foodTree := Quadtree.new sceneBounds
  deadFoodInTree := 0
  cellGrid := Grid.empty sceneBounds 32 (by norm_num)
  sporeGrid := Grid.empty sceneBounds 32 (by norm_num)
  pendingEnters := .empty
  pendingLeaves := ∅
  pendingRebirth := .empty
  leftWeights := fun _ => none
  gameStarted := false
  event := .empty

end Scene

end BallServer.Ball
