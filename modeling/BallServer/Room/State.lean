import BallServer.PlayerState
import Mathlib.Data.List.Sort

/-!
# State of the room service and of the services around it

A room owns the table {lit}`players` and the state number {lit}`room_state`.  It
talks to a scene, which keeps player tables of its own, to a battle gateway,
which lends it battle sessions, and to redis.  This module holds the data and
the functions without suspension of all four.

A Lua table of objects is a list of keys and a heap of objects: an entry leaves
the table when its key does, but the object lives on in the coroutines that
still hold it.  The order of the keys stands for the arbitrary order of
{lit}`pairs`.

Main results:

- Structures {lit}`Room`, {lit}`Scene`, {lit}`Gateway` and {lit}`Sys`.
- Definitions {lit}`Scene.kickPlayer`, {lit}`Scene.getWeight` and
  {lit}`Scene.update`: the scene's side of a player's life.
- Theorem {lit}`Gateway.batchAlloc_spec`: what the gateway hands out.
-/

namespace BallServer.RoomService

open BallServer

/-! ## The room -/

/-- The table {lit}`ROOM_STATE`. -/
inductive RoomState where
  | uninit
  | waitPrepare
  | waitBattlePrepare
  | running
  | aborting
  | finishing
  | aborted
  | finished
deriving DecidableEq, Repr

/-- What the match service tells a room about a player. -/
structure PlayerInfo where
  playerid : Nat
  agent : Nat
  agentNode : String
deriving DecidableEq, Repr

/-- The room's object of a player. -/
structure Player where
  playerid : Nat
  agent : Nat
  agentNode : String
  prepared : Bool := false
  battleReady : Bool := false
  alive : Bool := false
  inRoom : Bool := true
  rank : Nat := 0
  weightScore : Int := 1
  killCount : Nat := 0
  deathCount : Nat := 0
  aliveMs : Int := 0
  lastSpawnMs : Int := 0
  battleConv : Nat := 0
deriving DecidableEq, Repr

/-- {lit}`new_player`. -/
def newPlayer (info : PlayerInfo) : Player where
  playerid := info.playerid
  agent := info.agent
  agentNode := info.agentNode

/-- The variables of the room service. -/
structure Room where
  roomState : RoomState
  allocVersion : Nat
  sceneAddr : Option Nat
  battleGateway : Option Nat
  /-- The keys of the table {lit}`players`, in the order {lit}`pairs` visits them. -/
  players : List Nat
  /-- The player objects, also those that have left the table. -/
  obj : Nat → Player
  /-- Milliseconds on the service's clock. -/
  now : Int

namespace Room

/-- Change one player object. -/
def modify (r : Room) (p : Nat) (f : Player → Player) : Room :=
  { r with obj := Function.update r.obj p (f (r.obj p)) }

/-- A loop over {lit}`players` that changes each object by itself. -/
def modifyAll (r : Room) (f : Player → Player) : Room :=
  { r with obj := fun p => if p ∈ r.players then f (r.obj p) else r.obj p }

/-- {lit}`all_prepared`. -/
def allPrepared (r : Room) : Bool :=
  r.players.all fun p => (r.obj p).prepared

/-- {lit}`all_battle_ready`. -/
def allBattleReady (r : Room) : Bool :=
  r.players.all fun p => (r.obj p).battleReady

/-- {lit}`inroom_player_count`. -/
def inroomPlayerCount (r : Room) : Nat :=
  r.players.countP fun p => (r.obj p).inRoom

/-- {lit}`sorted_players`, as a list of ids. -/
def sortedPlayers (r : Room) : List Nat :=
  r.players.insertionSort (· ≤ ·)

/-- {lit}`build_prepare_players`. -/
def buildPreparePlayers (r : Room) : List (Nat × Bool) :=
  r.sortedPlayers.map fun p => (p, (r.obj p).prepared)

/-- The room has begun to end. -/
def closing (r : Room) : Bool :=
  match r.roomState with
  | .aborting | .aborted | .finishing | .finished => true
  | _ => false

/-- Add the time since the last spawn to a player that is alive. -/
def settleAlive (now : Int) (p : Player) : Player :=
  if p.alive && p.lastSpawnMs != 0 then
    { p with
      aliveMs := p.aliveMs + max 0 (now - p.lastSpawnMs)
      lastSpawnMs := now }
  else p

/-- {lit}`on_player_dead`. -/
def onPlayerDead (r : Room) (dead killer : Nat) : Room × Bool :=
  if dead ∉ r.players ∨ killer ∉ r.players ∨ killer = dead then (r, false)
  else
    let d := r.obj dead
    if d.alive && decide (0 < d.lastSpawnMs) then
      ((r.modify dead fun d => { d with
          aliveMs := d.aliveMs + max 0 (r.now - d.lastSpawnMs)
          alive := false
          lastSpawnMs := 0
          deathCount := d.deathCount + 1 }).modify killer fun k =>
        { k with killCount := k.killCount + 1 }, true)
    else (r, true)

/-- {lit}`on_player_respawn`. -/
def onPlayerRespawn (r : Room) (p : Nat) : Room × Bool :=
  if p ∉ r.players ∨ (r.obj p).inRoom = false then (r, false)
  else (r.modify p fun o => { o with alive := true, lastSpawnMs := r.now }, true)

end Room

/-- {lit}`calc_reward`: score, coins and experience of a rank. -/
def calcReward (totalPlayer rank : Nat) : Int × Int × Int :=
  if rank = 0 then (0, 0, 0)
  else
    let winCount : Int := (totalPlayer + 1) / 2
    let scoreDelta : Int :=
      if winCount < rank then -(rank - winCount) * 10 else (winCount - rank + 1) * 10
    let base : Int := max 0 (totalPlayer - rank + 1)
    (scoreDelta, 10 + base * 10, 5 + base * 8)

/-! ## The scene -/

/-- The player tables of the scene.  Cells, food and frames of motion are left
out: a player's score is whatever the environment says it is. -/
structure Scene where
  gameStarted : Bool := false
  players : List Nat := []
  pendingEnters : List Nat := []
  pendingLeaves : List Nat := []
  pendingRebirth : List Nat := []
  leftWeights : List (Nat × Int) := []
  /-- {lit}`calc_player_weight_score` of every player. -/
  weight : Nat → Int := fun _ => 0
  /-- {lit}`shutdown_scene` has been executed: nothing is served any more. -/
  closed : Bool := false
  /-- Coroutines of the room whose messages have not been executed yet, in the
  order of sending. -/
  inbox : List Nat := []

namespace Scene

/-- {lit}`batch_add_player`. -/
def batchAddPlayer (s : Scene) (list : List (Nat × Nat)) : Scene × Bool :=
  if list.any fun info => info.1 ∈ s.players ∨ info.1 ∈ s.pendingEnters then (s, false)
  else ({ s with pendingEnters := s.pendingEnters ++ list.map Prod.fst }, true)

/-- {lit}`start_game`. -/
def startGame (s : Scene) : Scene := { s with gameStarted := true }

/-- {lit}`kick_player`. -/
def kickPlayer (s : Scene) (p : Nat) : Scene × Bool :=
  if p ∈ s.pendingEnters then
    ({ s with pendingEnters := s.pendingEnters.filter (· ≠ p) }, true)
  else if p ∈ s.pendingRebirth then
    ({ s with
      leftWeights := (p, 1) :: s.leftWeights.filter (·.1 ≠ p)
      pendingRebirth := s.pendingRebirth.filter (· ≠ p)
      pendingLeaves := p :: s.pendingLeaves }, true)
  else if p ∉ s.players ∨ p ∈ s.pendingLeaves then (s, false)
  else
    ({ s with
      leftWeights := (p, s.weight p) :: s.leftWeights.filter (·.1 ≠ p)
      pendingLeaves := p :: s.pendingLeaves }, true)

/-- {lit}`get_weight`. -/
def getWeight (s : Scene) : List (Nat × Int) :=
  s.leftWeights ++
    (s.players.filter fun p => p ∉ s.leftWeights.map Prod.fst).map fun p => (p, s.weight p)

/-- {lit}`flush_pending_leaves`. -/
def flushPendingLeaves (s : Scene) : Scene :=
  { s with players := s.players.filter (· ∉ s.pendingLeaves), pendingLeaves := [] }

/-- {lit}`flush_pending_rebirth`. -/
def flushPendingRebirth (s : Scene) : Scene := { s with pendingRebirth := [] }

/-- The part of {lit}`eat_cell` that moves players without cells to the rebirth
queue; {lit}`dead` are those whose last cell has been eaten. -/
def eatCell (s : Scene) (dead : List Nat) : Scene :=
  { s with pendingRebirth := s.pendingRebirth ++ dead.filter (· ∈ s.players) }

/-- {lit}`flush_pending_enters`. -/
def flushPendingEnters (s : Scene) : Scene :=
  { s with
    players := s.players ++ s.pendingEnters.filter (· ∉ s.players)
    pendingEnters := [] }

/-- One call of {lit}`update`.  A frame that raises an error after the rebirths
({lit}`whole = false`) leaves the rest of its work undone. -/
def update (s : Scene) (dead : List Nat) (weight : Nat → Int) (whole : Bool) : Scene :=
  if s.gameStarted then
    let s := { s.flushPendingLeaves.flushPendingRebirth with weight := weight }
    if whole then (s.eatCell dead).flushPendingEnters else s
  else s

end Scene

/-! ## The battle gateway -/

/-- One entry of the answer to {lit}`batch_alloc`. -/
structure BattleInfo where
  playerid : Nat
  host : String
  port : Nat
  conv : Nat
  token : String
deriving DecidableEq, Repr

/-- The session table of the battle gateway. -/
structure Gateway where
  nextConvId : Nat
  /-- Live sessions: conversation number and player. -/
  sessions : List (Nat × Nat) := []
  publicHost : String := ""
  port : Nat := 0
  token : Nat → String := fun _ => ""

namespace Gateway

/-- {lit}`free`. -/
def free (g : Gateway) (conv : Nat) : Gateway :=
  { g with sessions := g.sessions.filter (·.1 ≠ conv) }

/-- {lit}`batch_alloc`: an old session of a player is replaced by a new one. -/
def batchAlloc (g : Gateway) : List Nat → Gateway × List BattleInfo
  | [] => (g, [])
  | p :: ps =>
      let conv := g.nextConvId
      let g' : Gateway :=
        { g with
          nextConvId := conv + 1
          sessions := (conv, p) :: g.sessions.filter (·.2 ≠ p) }
      let (g'', infos) := batchAlloc g' ps
      (g'', { playerid := p, host := g.publicHost, port := g.port, conv := conv,
              token := g.token conv } :: infos)

/-- The gateway answers for the players it was asked for, in order, and every
conversation number is one it had not used. -/
theorem batchAlloc_spec (g : Gateway) (ps : List Nat) :
    (g.batchAlloc ps).2.map BattleInfo.playerid = ps ∧
      g.nextConvId ≤ (g.batchAlloc ps).1.nextConvId ∧
      ∀ info ∈ (g.batchAlloc ps).2, g.nextConvId ≤ info.conv := by
  induction ps generalizing g with
  | nil => simp [batchAlloc]
  | cons p ps ih =>
      let g' : Gateway :=
        { g with
          nextConvId := g.nextConvId + 1
          sessions := (g.nextConvId, p) :: g.sessions.filter (·.2 ≠ p) }
      obtain ⟨hids, hle, hconv⟩ := ih g'
      have hg' : g'.nextConvId = g.nextConvId + 1 := rfl
      refine ⟨?_, ?_, ?_⟩
      · exact congrArg (p :: ·) hids
      · have : (g.batchAlloc (p :: ps)).1 = (g'.batchAlloc ps).1 := rfl
        rw [this]
        omega
      · intro info hinfo
        simp only [batchAlloc, List.mem_cons] at hinfo
        rcases hinfo with rfl | hinfo
        · exact le_rfl
        · have := hconv info hinfo
          omega

end Gateway

/-! ## Everything together -/

/-- Messages to the agents of the players. -/
inductive AgentMsg where
  | roomPrepare (players : List (Nat × Bool))
  | battleConnect (info : BattleInfo)
  | roomDismiss (reason : String)
  | battleResult (rank : Nat) (weightScore scoreDelta coin exp : Int)
deriving DecidableEq, Repr

/-- The room, redis, the scene and the gateway, and what the room has sent. -/
structure Sys where
  room : Room
  /-- The redis keys {lit}`match:player:<id>`. -/
  records : Nat → Option StoredState
  scene : Scene
  gateway : Gateway
  /-- Messages sent to agents, newest first. -/
  mail : List (Nat × AgentMsg) := []
  /-- Number of {lit}`batch_alloc` requests sent. -/
  batchAllocs : Nat := 0
  /-- Conversations the room has got from {lit}`batch_alloc`. -/
  given : List Nat := []
  /-- Conversations the room has passed to {lit}`free`. -/
  freed : List Nat := []
  /-- The record the match service is about to write under its own lock. -/
  matchWrite : Option (Nat × Option StoredState) := none

/-- {lit}`notify_agent`. -/
def Sys.notifyAgent (s : Sys) (p : Nat) (m : AgentMsg) : Sys :=
  { s with mail := (p, m) :: s.mail }

/-- Change the room. -/
def Sys.withRoom (s : Sys) (r : Room) : Sys := { s with room := r }

/-- Set {lit}`room_state`. -/
def Sys.setState (s : Sys) (st : RoomState) : Sys :=
  s.withRoom { s.room with roomState := st }

/-- Change one player object. -/
def Sys.modify (s : Sys) (p : Nat) (f : Player → Player) : Sys :=
  s.withRoom (s.room.modify p f)

/-- {lit}`broadcast_prepared_players`. -/
def Sys.broadcastPreparedPlayers (s : Sys) : Sys :=
  { s with
    mail := (s.room.players.map fun p => (p, .roomPrepare s.room.buildPreparePlayers)) ++
      s.mail }

end BallServer.RoomService
