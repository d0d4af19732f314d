import BallServer.Predict.Reconcile
import BallServer.Replica.Channel
import BallServer.Scene.Frame

/-!
# What a scene sends to the players

At the end of a frame every player is shown the cells and spores around her own cells, and
told which food is new and which was eaten.  The food as a whole is sent only in a snapshot:
to a player who enters, and to one who has come back.  The scene sends to players that are
marked as online, and the battle gateway drops what it gets for a session that is not
active.

Main results:

- Structure {lit}`World`: the scene, and the channel through the gateway to each player.
- Definition {lit}`World.step`.
-/

namespace BallServer.Broadcast

open BallServer.Ball

variable {K : Type} [Field K] [LinearOrder K]

/-- {lit}`SporeInfo`. -/
structure SporeInfo (K : Type) where
  sporeId : Nat
  x : K
  y : K

/-- A message of the scene to a player. -/
inductive Msg (K : Type) where
  | sceneSnapshot (cells : List (CellInfo K)) (spores : List (SporeInfo K))
      (foods : List (Nat × K × K)) (tick : Nat)
  | frameUpdate (cells : List (CellInfo K)) (newFoods : List (Nat × K × K))
      (newSpores : List (NewSpore K)) (eatenFoodIds : List Nat) (tick : Nat)
      (deadPlayerids : List Nat) (newCells : List (NewCell K)) (spores : List (SporeInfo K))
      (ack : Int)

/-- {lit}`AOI_HALF_W` and {lit}`AOI_HALF_H`. -/
def aoiHalfW : K := 176

def aoiHalfH : K := 106

/-! ## What a player sees -/

/-- {lit}`calc_player_aoi_rect`. -/
def calcPlayerAoiRect (s : Scene K) (x : Player K) : K × K × K × K :=
  let weight c := max 1 ((s.cells c).size * (s.cells c).size)
  let sumWeight := x.cells.sum weight
  if sumWeight ≤ 0 then (-1, -1, -1, -1)
  else
    let centerX := (x.cells.sum fun c => (s.cells c).x * weight c) / sumWeight
    let centerY := (x.cells.sum fun c => (s.cells c).y * weight c) / sumWeight
    (centerX - aoiHalfW, centerY - aoiHalfH, centerX + aoiHalfW, centerY + aoiHalfH)

/-- An entry of {lit}`cell_snapshot`. -/
def cellInfo (s : Scene K) (c : Nat) : CellInfo K where
  cellId := c
  playerid := (s.cells c).playerid
  x := (s.cells c).x
  y := (s.cells c).y
  size := (s.cells c).size
  protectedTimer := (s.cells c).protectedTimer

/-- An entry of {lit}`spore_snapshot`. -/
def sporeInfo (s : Scene K) (i : Nat) : SporeInfo K :=
  ⟨i, (s.sporeTables i).x, (s.sporeTables i).y⟩

/-- An entry of {lit}`foods_msg`. -/
def foodInfo (s : Scene K) (f : Nat) : Nat × K × K := (f, (s.foodTables f).x, (s.foodTables f).y)

variable [FloorRing K]

/-- {lit}`build_player_visible_snapshot`. -/
def buildPlayerVisibleSnapshot (s : Scene K) (x : Player K) :
    List (CellInfo K) × List (SporeInfo K) :=
  let (minX, minY, maxX, maxY) := calcPlayerAoiRect s x
  let visibleCells := sortBy id (s.cellGrid.queryRect s.cellObj minX minY maxX maxY)
  let visibleSpores := sortBy id (s.sporeGrid.queryRect s.sporeObj minX minY maxX maxY)
  (visibleCells.map (cellInfo s), visibleSpores.map (sporeInfo s))

/-- {lit}`snapshot_msg`. -/
def snapshotMsg (o : Order) (s : Scene K) (tick : Nat) (x : Player K) : Msg K :=
  let visible := buildPlayerVisibleSnapshot s x
  .sceneSnapshot visible.1 visible.2 ((o.pairs .rebuild s.foods).map (foodInfo s)) tick

/-- The message of {lit}`broadcast_frame_update` to one player. -/
def frameUpdateMsg (s : Scene K) (tick p : Nat) (x : Player K) : Msg K :=
  let visible := buildPlayerVisibleSnapshot s x
  .frameUpdate visible.1 s.event.newFoods (s.event.newSpores p) s.event.eatenFoodIds tick
    s.event.deadPlayerids (s.event.newCells p) visible.2 x.lastInputSeq

/-! ## What is sent -/

/-- {lit}`send_frame_msg`: only to a player who is online. -/
def sendFrameMsg (x : Player K) (m : Msg K) : Option (Msg K) :=
  if x.battleOnline then some m else none

/-- {lit}`broadcast_frame_update`, for one player. -/
def frameUpdateTo (s : Scene K) (tick p : Nat) : Option (Msg K) :=
  (s.players.get p).bind fun r => sendFrameMsg (s.tables r) (frameUpdateMsg s tick p (s.tables r))

/-- The snapshot of {lit}`flush_pending_enters`, for one player: the players who enter before
her are there already. -/
def enterSnapshotTo (o : Order) (s : Scene K) (tick p : Nat) : Option (Msg K) :=
  (s.pendingEnters.get p).bind fun r =>
    let earlier := (o.pairs .enters s.pendingEnters.keys).takeWhile (· ≠ p)
    let s := Scene.enter o (earlier.foldl (Scene.enter o) s) p
    sendFrameMsg (s.tables r) (snapshotMsg o s tick (s.tables r))

/-- {lit}`battle_resync`. -/
def resyncTo (o : Order) (s : Scene K) (tick p conv : Nat) : Option (Msg K) :=
  (s.players.get p).bind fun r =>
    if conv ≠ (s.tables r).battleConv then none
    else sendFrameMsg (s.tables r) (snapshotMsg o s tick (s.tables r))

/-! ## The gateway in between -/

/-- Where every food is. -/
def foodMap (s : Scene K) (f : Nat) : Option (K × K) :=
  if f ∈ s.foods then some ((s.foodTables f).x, (s.foodTables f).y) else none

/-- The scene, and what it sends to each player.  A channel is connected while the session of
the gateway is active; the food in its entries does not exist in the program. -/
structure World (K : Type) [Field K] [LinearOrder K] where
  scene : Scene K
  frame : Nat
  channel : Nat → Replica.Channel (Msg K) (Nat → Option (K × K))

/-- A step of the scene or the gateway.  Whenever a session becomes active or ceases to be, its
KCP object is new. -/
inductive Event (K : Type) where
  | scene (e : Scene.Event K)
  | resync (o : Order) (p conv : Nat)
  | handle (p : Nat)
  | active (p : Nat) (b : Bool)

namespace World

/-- The messages of a frame. -/
def sendUpdates (w : World K) (foods : Nat → Option (K × K)) (msgs : Nat → Option (Msg K)) :
    World K :=
  { w with channel := fun p => (w.channel p).send (.update (msgs p) foods) }

/-- Snapshots, to whom there is one. -/
def sendSnapshots (w : World K) (foods : Nat → Option (K × K)) (msgs : Nat → Option (Msg K)) :
    World K :=
  { w with channel := fun p => match msgs p with
    | some m => (w.channel p).send (.snapshot m foods)
    | none => w.channel p }

variable [Sqrt K]

/-- The loop of {lit}`s.init`: a frame of a game that has not started sends nothing. -/
def tick (w : World K) (o : Order) (d : Scene.Draws) : World K :=
  let w := { w with frame := w.frame + 1 }
  if w.scene.gameStarted = false then w
  else
    let b := w.scene.broadcast o d
    let w := { w with scene := w.scene.update o d }
    (w.sendUpdates (foodMap b) (frameUpdateTo b w.frame)).sendSnapshots (foodMap b)
      (enterSnapshotTo o b w.frame)

/-- {lit}`handle` is {lit}`s.resp.send` of the gateway. -/
def step (w : World K) : Event K → World K
  | .scene (.frame o d) => w.tick o d
  | .scene e => { w with scene := w.scene.step e }
  | .resync o p conv =>
      w.sendSnapshots (foodMap w.scene) (Function.update (fun _ => none) p
        (resyncTo o w.scene w.frame p conv))
  | .handle p => { w with channel := Function.update w.channel p (w.channel p).handle }
  | .active p b => { w with channel := Function.update w.channel p ((w.channel p).reconnect b) }

/-- A sequence of events. -/
def run (w : World K) (es : List (Event K)) : World K := es.foldl step w

/-- The scene and the gateway at the start. -/
def start [IsStrictOrderedRing K] : World K where
  scene := Scene.start
  frame := 0
  channel := fun _ => .empty

end World

end BallServer.Broadcast
