import BallServer.Scene.Frame

/-!
# The client's picture of a game

The client does not wait for the scene: it moves its own cells, splits them and lets them
spit as soon as the player asks for it, and starts again from what the scene reports.

The dictionaries of cells and spores are lists here, in the order in which their entries
are visited, and a loop that changes each object by itself is a map.  Coordinates, sizes
and times are exact numbers.

Main results:

- Structures {lit}`CellView`, {lit}`SporeView`, {lit}`PendingInput` and {lit}`View`.
- Definitions {lit}`View.predictSplitAction` and {lit}`View.predictSpitAction`.
- Definition {lit}`View.advanceOwned`: one step of motion.
-/

namespace BallServer.Ball

/-- {lit}`Mathf.Pow`. -/
class Power (K : Type) where
  pow : K → K → K

/-- {lit}`CellView`. -/
structure CellView (K : Type) where
  cellId : Int
  sortKey : Int
  stableKey : Int
  playerId : Nat
  serverX : K
  serverY : K
  renderX : K
  renderY : K
  size : K
  protectedTimerTicks : K
  boostVx : K
  boostVy : K
  lastDirX : K
  lastDirY : K
  renderInitialized : Bool
  isPredicted : Bool
  predictedActionSeq : Int
  predictedParentStableKey : Int

/-- {lit}`SporeView`. -/
structure SporeView (K : Type) where
  id : Int
  x : K
  y : K
  vx : K
  vy : K
  isPredicted : Bool
  predictedActionSeq : Int
  predictedSourceStableKey : Int
  ownerPlayerId : Nat
  sourceCellId : Int

/-- {lit}`PendingInput`. -/
structure PendingInput (K : Type) where
  seq : Int
  targetX : K
  targetY : K
  moving : Bool
  split : Bool
  spit : Bool
  sentAt : K
  cellDirs : Int → Option (K × K)

/-- The state of a game in {lit}`GameManager`. -/
structure View (K : Type) where
  myPlayerId : Nat
  cells : List (CellView K)
  spores : List (SporeView K)
  pendingInputs : List (PendingInput K)
  estimatedOneWayLatencySeconds : K
  authoritativeTargetX : K
  authoritativeTargetY : K
  authoritativeMoving : Bool
  localTargetX : K
  localTargetY : K
  localMoving : Bool
  nextPredictedCellId : Int
  nextPredictedSporeId : Int
  nextLocalCellSortKey : Int
  nextLocalStableKey : Int

/-! ## The numbers of the rules -/

namespace Predict

-- The rules of the client and of the scene are written with the same numerals over a
-- field; each is a numeral because it is at least two, which is said here once.

scoped instance two : Nat.AtLeastTwo 2 := ⟨by decide⟩

scoped instance three : Nat.AtLeastTwo 3 := ⟨by decide⟩

scoped instance four : Nat.AtLeastTwo 4 := ⟨by decide⟩

scoped instance five : Nat.AtLeastTwo 5 := ⟨by decide⟩

scoped instance nine : Nat.AtLeastTwo 9 := ⟨by decide⟩

scoped instance ten : Nat.AtLeastTwo 10 := ⟨by decide⟩

scoped instance fifteen : Nat.AtLeastTwo 15 := ⟨by decide⟩

scoped instance twenty : Nat.AtLeastTwo 20 := ⟨by decide⟩

scoped instance eightyFive : Nat.AtLeastTwo 85 := ⟨by decide⟩

scoped instance hundred : Nat.AtLeastTwo 100 := ⟨by decide⟩

scoped instance twoHundred : Nat.AtLeastTwo 200 := ⟨by decide⟩

end Predict

open scoped Predict

section Arithmetic

variable {K : Type} [Field K] [LinearOrder K]

/-- {lit}`SERVER_TICK_SECONDS`. -/
def serverTickSeconds : K := 1 / 20

/-- {lit}`BOOST_STOP_EPSILON`. -/
def boostStopEpsilon : K := 1 / 100

/-- {lit}`GetServerTickUnits`. -/
def getServerTickUnits (dt : K) : K := dt / serverTickSeconds

/-- {lit}`GetServerMoveScale`. -/
def getServerMoveScale (dt : K) : K := 1 / 5 * getServerTickUnits dt

/-- {lit}`Mathf.Clamp`. -/
def clamp (value low high : K) : K :=
  if value < low then low else if value > high then high else value

/-- {lit}`ClampInsideMap` for one coordinate. -/
def clampInsideMap (x : K) : K := clamp x 0 sceneWidth

/-- {lit}`Vector2.sqrMagnitude`. -/
def sqrMagnitude (d : K × K) : K := d.1 * d.1 + d.2 * d.2

/-- A component of a boost is set to zero when it has become small. -/
def stopSmall (v : K) : K := if |v| < boostStopEpsilon then 0 else v

section Roots

variable [Sqrt K]

/-- {lit}`Vector2.normalized`. -/
def normalized (d : K × K) : K × K :=
  let mag := sqrt (sqrMagnitude d)
  if mag > 0.00001 then (d.1 / mag, d.2 / mag) else (0, 0)

/-- {lit}`CalcCellSpeed`. -/
def calcCellSpeed (size : K) : K := max 1 (5 / sqrt (max 1 size))

end Roots

end Arithmetic

/-! ## Motion -/

namespace CellView

variable {K : Type} [Field K] [LinearOrder K]

/-- {lit}`AdvanceCellMotion`: a cell follows its target. -/
def follow [Sqrt K] (v : CellView K) (dt targetX targetY : K) (moving : Bool) : CellView K :=
  if moving then
    let dx := targetX - v.renderX
    let dy := targetY - v.renderY
    let dist := sqrt (dx * dx + dy * dy)
    if dist > 0.0001 then
      let invDist := 1 / dist
      let moveStep := min (calcCellSpeed v.size * getServerMoveScale dt) dist
      { v with
        lastDirX := dx * invDist
        lastDirY := dy * invDist
        renderX := v.renderX + dx * invDist * moveStep
        renderY := v.renderY + dy * invDist * moveStep }
    else v
  else v

/-- {lit}`AdvanceCellBoost`. -/
def advanceBoost [Power K] (v : CellView K) (dt : K) : CellView K :=
  if |v.boostVx| < boostStopEpsilon ∧ |v.boostVy| < boostStopEpsilon then
    { v with boostVx := 0, boostVy := 0 }
  else
    let moveScale := getServerMoveScale dt
    let friction := Power.pow (85 / 100) (getServerTickUnits dt)
    { v with
      renderX := v.renderX + v.boostVx * moveScale
      renderY := v.renderY + v.boostVy * moveScale
      boostVx := stopSmall (v.boostVx * friction)
      boostVy := stopSmall (v.boostVy * friction) }

/-- {lit}`ClampInsideMap` for a cell. -/
def clampInside (v : CellView K) : CellView K :=
  { v with
    renderX := clampInsideMap v.renderX
    renderY := clampInsideMap v.renderY }

/-- {lit}`TickProtectedTimer`. -/
def tickProtected (v : CellView K) (dt : K) : CellView K :=
  if v.protectedTimerTicks ≤ 0 then { v with protectedTimerTicks := 0 }
  else { v with protectedTimerTicks := max 0 (v.protectedTimerTicks - dt / serverTickSeconds) }

/-- {lit}`AdvanceCellMotion`. -/
def advance [Sqrt K] [Power K] (v : CellView K) (dt targetX targetY : K) (moving : Bool) :
    CellView K :=
  (((v.follow dt targetX targetY moving).advanceBoost dt).clampInside).tickProtected dt

end CellView

/-- {lit}`AdvancePredictedSpores` for one spore. -/
def SporeView.advance {K : Type} [Field K] [LinearOrder K] [Power K] (x : SporeView K) (dt : K) :
    SporeView K :=
  let friction := Power.pow (9 / 10) (getServerTickUnits dt)
  { x with
    x := clampInsideMap (x.x + x.vx * getServerMoveScale dt)
    y := clampInsideMap (x.y + x.vy * getServerMoveScale dt)
    vx := stopSmall (x.vx * friction)
    vy := stopSmall (x.vy * friction) }

/-! ## The player's own cells -/

namespace View

variable {K : Type}

/-- The cells that {lit}`CollectOwnedCellsSorted(true)` collects. -/
def owns (s : View K) (v : CellView K) : Bool :=
  decide (v.playerId = s.myPlayerId) && v.renderInitialized

/-- The comparison of {lit}`CollectOwnedCellsSorted`. -/
def sortsBefore (a b : CellView K) : Bool :=
  if a.sortKey ≠ b.sortKey then decide (a.sortKey < b.sortKey) else decide (a.cellId ≤ b.cellId)

/-- {lit}`CollectOwnedCellsSorted(true)`; the empty list stands for {lit}`null`. -/
def owned (s : View K) : List (CellView K) :=
  (s.cells.filter s.owns).mergeSort sortsBefore

/-- A loop over the own cells that changes each of them by itself. -/
def modifyOwned (s : View K) (f : CellView K → CellView K) : View K :=
  { s with cells := s.cells.map fun v => if s.owns v then f v else v }

/-- The objects of a list, where they stand among the cells. -/
def store (s : View K) (l : List (CellView K)) : View K :=
  { s with cells := s.cells.map fun v => (l.find? fun w => w.cellId == v.cellId).getD v }

/-- {lit}`_cells[child.CellId] = child`. -/
def putCell (s : View K) (v : CellView K) : View K :=
  if s.cells.any fun w => w.cellId == v.cellId then
    { s with cells := s.cells.map fun w => if w.cellId = v.cellId then v else w }
  else { s with cells := s.cells ++ [v] }

/-- {lit}`AddOrUpdateSpore`. -/
def putSpore (s : View K) (x : SporeView K) : View K :=
  if s.spores.any fun y => y.id == x.id then
    { s with spores := s.spores.map fun y => if y.id = x.id then x else y }
  else { s with spores := s.spores ++ [x] }

/-- {lit}`CapturePendingInputCellDirs`: of two cells with one key the later one counts. -/
def captureCellDirs (s : View K) : Int → Option (K × K) :=
  s.owned.foldl (fun dirs v => Function.update dirs v.stableKey (some (v.lastDirX, v.lastDirY)))
    fun _ => none

end View

section Actions

variable {K : Type} [Field K] [LinearOrder K] [Sqrt K]

/-- {lit}`ApplyControlSnapshotToOwnedCells` for one cell. -/
def CellView.turn (v : CellView K) (targetX targetY : K) : CellView K :=
  let dx := targetX - v.renderX
  let dy := targetY - v.renderY
  let distSq := dx * dx + dy * dy
  if distSq ≤ 0.000001 then v
  else
    let invDist := 1 / sqrt distSq
    { v with
      lastDirX := dx * invDist
      lastDirY := dy * invDist }

/-- {lit}`GetActionDirForCell`, when the target does not give a direction. -/
def storedDirForCell (v : CellView K) (input : PendingInput K) : K × K :=
  let current : K × K :=
    if sqrMagnitude (v.lastDirX, v.lastDirY) > 0.000001 then normalized (v.lastDirX, v.lastDirY)
    else (1, 0)
  match input.cellDirs v.stableKey with
  | some dir => if sqrMagnitude dir > 0.000001 then normalized dir else current
  | none => current

/-- {lit}`GetActionDirForCell`. -/
def getActionDirForCell (v : CellView K) (input : PendingInput K) : K × K :=
  let dx := input.targetX - v.renderX
  let dy := input.targetY - v.renderY
  let distSq := dx * dx + dy * dy
  if input.moving = true ∧ distSq > 0.000001 then
    let invDist := 1 / sqrt distSq
    (dx * invDist, dy * invDist)
  else storedDirForCell v input

namespace View

/-- {lit}`ApplyControlSnapshotToOwnedCells`. -/
def applyControl (s : View K) (targetX targetY : K) (moving : Bool) : View K :=
  if moving then s.modifyOwned fun v => v.turn targetX targetY else s

/-- The child of a cell that has been halved, {lit}`k` children after the first one. -/
def splitChild (s : View K) (input : PendingInput K) (k : Nat) (v : CellView K) : CellView K :=
  let dir := getActionDirForCell v input
  { cellId := s.nextPredictedCellId - k
    sortKey := s.nextLocalCellSortKey + k
    stableKey := s.nextLocalStableKey + k
    playerId := s.myPlayerId
    serverX := v.renderX
    serverY := v.renderY
    renderX := v.renderX
    renderY := v.renderY
    size := v.size
    protectedTimerTicks := 0
    boostVx := 10 * dir.1
    boostVy := 10 * dir.2
    lastDirX := dir.1
    lastDirY := dir.2
    renderInitialized := true
    isPredicted := true
    predictedActionSeq := input.seq
    predictedParentStableKey := v.stableKey }

/-- The loop of {lit}`PredictSplitAction`: the cells and the children; {lit}`count` cells
and {lit}`k` children were there before. -/
def splitViews (s : View K) (input : PendingInput K) (count : Nat) :
    Nat → List (CellView K) → List (CellView K) × List (CellView K)
  | _, [] => ([], [])
  | k, v :: vs =>
      if v.size < 4 ∨ 16 ≤ count + k then
        (v :: (splitViews s input count k vs).1, (splitViews s input count k vs).2)
      else
        let half := { v with size := sqrt (v.size * v.size * (1 / 2)) }
        (half :: (splitViews s input count (k + 1) vs).1,
          s.splitChild input k half :: (splitViews s input count (k + 1) vs).2)

/-- {lit}`PredictSplitAction`: the state and the children. -/
def predictSplitAction (s : View K) (input : PendingInput K) : View K × List (CellView K) :=
  if s.owned = [] ∨ 16 ≤ s.owned.length then (s, [])
  else
    let r := s.splitViews input s.owned.length 0 s.owned
    let s' := r.2.foldl putCell (s.store r.1)
    ({ s' with
        nextPredictedCellId := s.nextPredictedCellId - r.2.length
        nextLocalCellSortKey := s.nextLocalCellSortKey + r.2.length
        nextLocalStableKey := s.nextLocalStableKey + r.2.length }, r.2)

/-- The spore of a cell that has become smaller, {lit}`k` spores after the first one. -/
def spitSpore (s : View K) (input : PendingInput K) (k : Nat) (v : CellView K) : SporeView K :=
  let dir := getActionDirForCell v input
  { id := s.nextPredictedSporeId - k
    x := v.renderX + dir.1 * v.size
    y := v.renderY + dir.2 * v.size
    vx := 15 * dir.1
    vy := 15 * dir.2
    isPredicted := true
    predictedActionSeq := input.seq
    predictedSourceStableKey := v.stableKey
    ownerPlayerId := s.myPlayerId
    sourceCellId := v.cellId }

/-- The loop of {lit}`PredictSpitAction`: the cells and the spores. -/
def spitViews (s : View K) (input : PendingInput K) :
    Nat → List (CellView K) → List (CellView K) × List (SporeView K)
  | _, [] => ([], [])
  | k, v :: vs =>
      if v.size < 3 ∨ v.size * v.size ≤ 1 * 1 then
        (v :: (spitViews s input k vs).1, (spitViews s input k vs).2)
      else
        let small := { v with size := sqrt (v.size * v.size - 1 * 1) }
        (small :: (spitViews s input (k + 1) vs).1,
          s.spitSpore input k small :: (spitViews s input (k + 1) vs).2)

/-- {lit}`PredictSpitAction`: the state and the spores. -/
def predictSpitAction (s : View K) (input : PendingInput K) : View K × List (SporeView K) :=
  let r := s.spitViews input 0 s.owned
  let s' := r.2.foldl putSpore (s.store r.1)
  ({ s' with nextPredictedSporeId := s.nextPredictedSporeId - r.2.length }, r.2)

/-- {lit}`PredictSplitAction` and {lit}`PredictSpitAction`, if an input asks for them: the
state, the children and the spores. -/
def predictActions (s : View K) (input : PendingInput K) :
    View K × List (CellView K) × List (SporeView K) :=
  let q := if input.split then s.predictSplitAction input else (s, [])
  let q' := if input.spit then q.1.predictSpitAction input else (q.1, [])
  (q'.1, q.2, q'.2)

end View

end Actions

/-! ## Steps of motion -/

section Segments

variable {K : Type} [Field K] [LinearOrder K] [Sqrt K]

/-- {lit}`LocalOverlapDirs`. -/
def localOverlapDirs : List (K × K) :=
  [(1, 0), (0.70710678, 0.70710678), (0, 1), (-0.70710678, 0.70710678), (-1, 0),
    (-0.70710678, -0.70710678), (0, -1), (0.70710678, -0.70710678)]

/-- {lit}`GetLocalOverlapFallbackDir`. -/
def getLocalOverlapFallbackDir (cellIdA cellIdB : Int) : K × K :=
  let hash := min cellIdA cellIdB * 73856093 + max cellIdA cellIdB * 19349663
  localOverlapDirs.getD (hash.emod 8).toNat (1, 0)

/-- {lit}`ResolveLocalOwnedCellCollisions` for one pair of cells. -/
def pushApart (a b : CellView K) : CellView K × CellView K :=
  let dx := a.renderX - b.renderX
  let dy := a.renderY - b.renderY
  let dist := sqrt (dx * dx + dy * dy)
  let overlap := a.size + b.size - dist
  if overlap ≤ 0 then (a, b)
  else
    let n : K × K :=
      if dist < 0.001 then getLocalOverlapFallbackDir a.cellId b.cellId
      else (dx * (1 / dist), dy * (1 / dist))
    let pushX := n.1 * overlap * (1 / 2)
    let pushY := n.2 * overlap * (1 / 2)
    ({ a with renderX := a.renderX + pushX, renderY := a.renderY + pushY }.clampInside,
      { b with renderX := b.renderX - pushX, renderY := b.renderY - pushY }.clampInside)

/-- The inner loop: a cell against those behind it. -/
def pushRow (a : CellView K) : List (CellView K) → CellView K × List (CellView K)
  | [] => (a, [])
  | b :: bs => ((pushRow (pushApart a b).1 bs).1,
      (pushApart a b).2 :: (pushRow (pushApart a b).1 bs).2)

theorem length_pushRow (a : CellView K) (l : List (CellView K)) :
    (pushRow a l).2.length = l.length := by
  induction l generalizing a with
  | nil => rfl
  | cons b l ih => simp only [pushRow, List.length_cons, ih]

/-- One iteration over all pairs. -/
def pushAll : List (CellView K) → List (CellView K)
  | [] => []
  | a :: l => (pushRow a l).1 :: pushAll (pushRow a l).2
termination_by l => l.length
decreasing_by simp only [length_pushRow, List.length_cons, Nat.lt_succ_self]

/-- {lit}`GetLocalCollisionIterations`. -/
def getLocalCollisionIterations (ownedCellCount : Nat) : Nat :=
  if ownedCellCount ≤ 4 then 3 else if ownedCellCount ≤ 8 then 2 else 1

/-- {lit}`ResolveLocalOwnedCellCollisions`. -/
def resolveCollisions (l : List (CellView K)) : List (CellView K) :=
  if l.length ≤ 1 then l else pushAll^[getLocalCollisionIterations l.length] l

namespace View

/-- {lit}`AdvancePredictedSpores`. -/
def advancePredictedSpores [Power K] (s : View K) (dt : K) : View K :=
  { s with spores := s.spores.map fun x => if x.isPredicted then x.advance dt else x }

/-- {lit}`SimulateLocalPredictionSegment`. -/
def simulateSegment [Power K] (s : View K) (startTime endTime targetX targetY : K)
    (moving : Bool) : View K :=
  let dt := endTime - startTime
  if dt ≤ 0 then s
  else
    (s.store (resolveCollisions
      (s.owned.map fun v => v.advance dt targetX targetY moving))).advancePredictedSpores dt

end View

end Segments

end BallServer.Ball
