import BallServer.Coroutine.View
import BallServer.Room.State

/-!
# The room service as a coroutine program

Every handler of the room is cut at its suspension points: calls of other
services, redis commands and lock waits.  Each piece between two such points is
one {lit}`Act`; the acts of one function carry the function's name and stand in
its order.  A function called last is called as a Lean function on the spot, so
that the code it runs before its own first suspension belongs to the same
atomic stretch.

A call that is not wrapped in {lit}`pcall` is followed by an act that raises when
the call has failed.  The error then ends the handler, and {lit}`skynet.queue`
releases the locks on the way out.

Main results:

- Definition {lit}`exec`: what each act does.
- Definition {lit}`serve`: how redis, the scene and the gateway answer.
- Definition {lit}`program`: the room service with its surroundings.
-/

namespace BallServer.RoomService

open BallServer Coroutine

/-- The two locks of the room. -/
inductive LockName where
  | playerState
  | prepareRoom
deriving DecidableEq, Repr

/-- Requests that suspend a coroutine of the room. -/
inductive Req where
  | redisGet (p : Nat)
  | redisSet (p : Nat) (value : StoredState)
  | redisDel (p : Nat)
  /-- {lit}`harbor.queryname` of a battle gateway. -/
  | queryname
  | batchAlloc (players : List Nat)
  | free (conv : Nat)
  | batchAddPlayer (players : List (Nat × Nat))
  | startGame
  | kickPlayer (p : Nat)
  | getWeight
  | shutdownScene
  | sleep (ticks : Nat)
deriving DecidableEq, Repr

/-- What a call returns, and what a function of the room returns. -/
inductive Ans where
  /-- No value: the callee's handler has raised an error. -/
  | nil
  | ok (b : Bool)
  /-- {lit}`false` and an error text. -/
  | refused (err : String)
  | record (r : Option StoredState)
  | handle (h : Nat)
  | infos (l : List BattleInfo)
  | weights (l : List (Nat × Int))
  /-- The call itself has raised an error. -/
  | error
deriving DecidableEq, Repr

instance : Inhabited Ans := ⟨.nil⟩

/-- Lua's truth of the first value returned. -/
def Ans.truthy : Ans → Bool
  | .nil | .ok false | .refused _ | .error => false
  | _ => true

/-- The atomic stretches of code of the room service. -/
inductive Act where
  | initRoom (playerList : List PlayerInfo) (allocVersion : Nat)
  /-- The timer {lit}`init_room` forks: it sleeps, then looks at the room. -/
  | prepareTimer
  | prepareTimeout
  | prepare (p : Nat)
  | battleReady (source p conv : Nat) (ready : Bool)
  | scenePlayerDead (p killer : Nat)
  | scenePlayerRespawn (p : Nat)
  | leave (p : Nat) (reason : String)
  | abortRoomWithoutClearState (reason : String)
  /-- {lit}`alloc_battle_for_all_no_lock`, up to the query for a gateway. -/
  | allocBattle
  | allocPicked
  | allocGiven
  | allocAdded (infos : List BattleInfo)
  | allocFree (ps : List Nat)
  /-- What both callers do when the allocation has returned. -/
  | allocDone
  /-- The function {lit}`remove_preparing_player` runs under its lock. -/
  | removePreparing (p : Nat) (reason : String)
  | removeKicked (reason : String)
  /-- {lit}`mark_player_leaveroom` after the record is cleared. -/
  | markCleared (p : Nat)
  | markKicked (reason : String)
  /-- {lit}`start_running` after {lit}`start_game`. -/
  | gameStarted
  | setPlayersRunning
  | setRunning (ps : List Nat)
  | setLoaded (p : Nat) (ps : List Nat)
  | runningSet
  /-- The timer {lit}`start_running` forks. -/
  | roundTimer
  | roundOver
  | clearOne (p : Nat)
  | clearInroom
  | clearEach (ps : List Nat)
  /-- Raise when the last call has failed. -/
  | checked
  | freeSession (p : Nat)
  | kick (p : Nat)
  /-- The loop of {lit}`abort_room` over {lit}`players`. -/
  | abortPlayers (notify : Option String)
  /-- The loop after the session of {lit}`p` is freed. -/
  | abortFreed (notify : Option String) (p : Nat) (ps : List Nat)
  | closeRoom (final : RoomState)
  /-- {lit}`build_rank_list` after {lit}`get_weight`; {lit}`arr` is its array. -/
  | finishWeighed (arr : List Nat)
  /-- The loop of {lit}`finish_room` over the players that are left. -/
  | settleEach (total : Nat) (ps : List Nat)
deriving DecidableEq, Repr

/-- Effects of the room's acts. -/
abbrev Eff := Effect Sys LockName Act Req Ans

/-- Return a value. -/
@[simps] def ret (s : Sys) (v : Ans) : Eff where
  state := s
  outcome := .ret v

/-- Go on with other acts. -/
@[simps] def goOn (s : Sys) (push : List (Code LockName Act)) : Eff where
  state := s
  outcome := .ret .nil
  push := push

/-- Call another service; {lit}`push` runs when the call has returned. -/
@[simps] def call (s : Sys) (q : Req) (push : List (Code LockName Act)) : Eff where
  state := s
  outcome := .call q
  push := push

/-- Raise an error. -/
@[simps] def raise (s : Sys) : Eff where
  state := s
  outcome := .raise

/-- Send a request to the scene; it goes to the end of the scene's inbox. -/
def callScene (t : Nat) (s : Sys) (q : Req) (push : List (Code LockName Act)) : Eff :=
  call { s with scene.inbox := s.scene.inbox ++ [t] } q push

/-! ## Redis state of the players -/

/-- {lit}`set_players_running`: the loop, up to the next redis command. -/
def setRunning (s : Sys) : List Nat → Eff
  | [] => ret s .nil
  | p :: ps =>
      if p ∈ s.room.players ∧ (s.room.obj p).inRoom = true then
        call s (.redisGet p) [.act (.setLoaded p ps)]
      else setRunning s ps

/-- {lit}`clear_inroom_player_state`: the loop, up to the next redis command. -/
def clearEach (s : Sys) : List Nat → Eff
  | [] => ret s .nil
  | p :: ps =>
      if p ∈ s.room.players ∧ (s.room.obj p).inRoom = true then
        call s (.redisDel p) [.act .checked, .act (.clearEach ps)]
      else clearEach s ps

/-- {lit}`clear_one_player_state`. -/
def clearOnePlayerState (p : Nat) : Code LockName Act := .locked .playerState (.clearOne p)

/-- {lit}`clear_inroom_player_state`. -/
def clearInroomPlayerState : Code LockName Act := .locked .playerState .clearInroom

/-! ## Closing the room -/

/-- {lit}`battle_conv` of a player becomes zero and is on its way to {lit}`free`. -/
def Sys.dropSession (s : Sys) (p : Nat) : Sys :=
  { s.modify p fun o => { o with battleConv := 0 } with
    freed := (s.room.obj p).battleConv :: s.freed }

/-- {lit}`free_player_battle_session`: call {lit}`free` and go on with
{lit}`push`, or go on at once when there is no session. -/
def freePlayerBattleSession (s : Sys) (p : Nat) (push : List (Code LockName Act))
    (next : Eff) : Eff :=
  if s.room.battleGateway = none ∨ (s.room.obj p).battleConv = 0 then next
  else call (s.dropSession p) (.free (s.room.obj p).battleConv) push

/-- {lit}`close_room`.  The room manager is told by a message without answer, and
the service exits a tenth of a second later: from then on nothing runs. -/
def closeRoom (t : Nat) (s : Sys) (final : RoomState) : Eff :=
  let s := s.setState final
  match s.room.sceneAddr with
  | none => ret s (.ok true)
  | some _ => callScene t s .shutdownScene []

/-- Tell a player's agent that the room is gone; an abort from outside does not. -/
def Sys.dismiss (s : Sys) (notify : Option String) (p : Nat) : Sys :=
  match notify with
  | none => s
  | some reason => s.notifyAgent p (.roomDismiss reason)

/-- The loop of {lit}`abort_room` and {lit}`abort_room_without_clear_state`, up to
the next call. -/
def abortEach (t : Nat) (s : Sys) (notify : Option String) : List Nat → Eff
  | [] => closeRoom t s .aborted
  | p :: ps =>
      if p ∈ s.room.players then
        freePlayerBattleSession s p [.act (.abortFreed notify p ps)]
          (abortEach t (s.dismiss notify p) notify ps)
      else abortEach t s notify ps

/-- {lit}`abort_room`. -/
def abortRoom (s : Sys) (reason : String) : Eff :=
  if s.room.closing then ret s (.ok true)
  else
    goOn (s.setState .aborting) [clearInroomPlayerState, .act (.abortPlayers (some reason))]

/-- {lit}`abort_room_without_clear_state`. -/
def abortRoomWithoutClearState (t : Nat) (s : Sys) : Eff :=
  if s.room.closing then ret s (.ok true)
  else abortEach t (s.setState .aborting) none s.room.players

/-- {lit}`finish_room`, up to the call of {lit}`get_weight` in
{lit}`build_rank_list`. -/
def finishRoom (t : Nat) (s : Sys) : Eff :=
  if s.room.closing then ret s (.ok true)
  else
    let s := s.setState .finishing
    callScene t (s.withRoom (s.room.modifyAll (Room.settleAlive s.room.now))) .getWeight
      [.act (.finishWeighed s.room.players)]

/-- The comparison of {lit}`build_rank_list`. -/
def rankBefore (r : Room) (a b : Nat) : Bool :=
  if (r.obj a).weightScore ≠ (r.obj b).weightScore then
    decide ((r.obj b).weightScore < (r.obj a).weightScore)
  else decide (a ≤ b)

/-- Number the players of a sorted array. -/
def assignRanks (r : Room) (i : Nat) : List Nat → Room
  | [] => r
  | p :: ps => assignRanks (r.modify p fun o => { o with rank := i }) (i + 1) ps

/-- Write the scene's weights into the player objects.  The loop raises an error
at the first weight of somebody who is not in {lit}`players`. -/
def storeWeights (r : Room) : List (Nat × Int) → Room × Bool
  | [] => (r, true)
  | (p, w) :: rest =>
      if p ∈ r.players then
        storeWeights (r.modify p fun o => { o with weightScore := w }) rest
      else (r, false)

/-- The loop of {lit}`finish_room`, up to the next call. -/
def settleEach (s : Sys) (total : Nat) : List Nat → Eff
  | [] => goOn s [clearInroomPlayerState, .act (.closeRoom .finished)]
  | p :: ps =>
      let o := s.room.obj p
      let (scoreDelta, coin, exp) := calcReward total o.rank
      let s := s.notifyAgent p (.battleResult o.rank o.weightScore scoreDelta coin exp)
      freePlayerBattleSession s p [.act (.settleEach total ps)] (settleEach s total ps)

/-- {lit}`build_rank_list` after {lit}`get_weight` and the start of the loop of
{lit}`finish_room`. -/
def finishWeighed (s : Sys) (arr : List Nat) (stats : List (Nat × Int)) : Eff :=
  match storeWeights s.room stats with
  | (r, false) => raise (s.withRoom r)
  | (r, true) =>
      let settled := arr.insertionSort fun a b => rankBefore r a b = true
      settleEach (s.withRoom (assignRanks r 1 settled)) settled.length settled

/-! ## Running -/

/-- {lit}`start_running`, up to the call of {lit}`start_game`. -/
def startRunning (t : Nat) (s : Sys) : Eff :=
  callScene t (s.setState .running) .startGame [.act .gameStarted]

/-- {lit}`start_running` after {lit}`start_game` has answered. -/
def gameStarted (s : Sys) (v : Ans) : Eff :=
  if v = .error then raise s
  else if s.room.roomState ≠ .running then ret s (.ok false)
  else if v.truthy = false then abortRoom s "start_game失败"
  else goOn s [.locked .playerState .setPlayersRunning, .act .runningSet]

/-- The end of {lit}`start_running`. -/
def runningSet (s : Sys) : Eff where
  state := s.withRoom (s.room.modifyAll fun o =>
    if o.inRoom then { o with alive := true, lastSpawnMs := s.room.now } else o)
  outcome := .ret (.ok true)
  fork := some .roundTimer

/-- {lit}`mark_player_leaveroom`, up to its first suspension. -/
def markPlayerLeaveroom (s : Sys) (p : Nat) (reason : String) : Eff :=
  if p ∉ s.room.players then ret s (.ok false)
  else if (s.room.obj p).inRoom = false then ret s (.ok true)
  else
    goOn (s.modify p fun o => { o with inRoom := false })
      [clearOnePlayerState p, .act (.markCleared p), .act (.freeSession p),
        .act (.kick p), .act (.markKicked reason)]

/-- {lit}`mark_player_leaveroom` after the record is cleared. -/
def markCleared (s : Sys) (p : Nat) : Eff :=
  ret (s.modify p fun o =>
    { o with
      aliveMs :=
        if o.alive && decide (0 < o.lastSpawnMs) then o.aliveMs + s.room.now - o.lastSpawnMs
        else o.aliveMs
      alive := false
      battleReady := false
      lastSpawnMs := 0 }) .nil

/-! ## Battle sessions -/

/-- {lit}`alloc_battle_for_all_no_lock`, up to the query for a gateway. -/
def allocBattle (s : Sys) : Eff :=
  if s.room.roomState ≠ .waitBattlePrepare then ret s (.refused "battle alloc cancled")
  else call s .queryname [.act .allocPicked]

/-- The request for sessions of everybody in the room. -/
def allocPicked (s : Sys) (v : Ans) : Eff :=
  match v with
  | .handle h =>
      let s := s.withRoom { s.room with battleGateway := some h }
      call { s with batchAllocs := s.batchAllocs + 1 }
        (.batchAlloc (s.room.players.filter fun p => (s.room.obj p).inRoom))
        [.act .allocGiven]
  | _ => raise s

/-- Store the sessions.  The loop raises an error at the first session of
somebody who is not in {lit}`players`. -/
def storeConvs (r : Room) : List BattleInfo → Room × Bool
  | [] => (r, true)
  | info :: rest =>
      if info.playerid ∈ r.players then
        storeConvs (r.modify info.playerid fun o =>
          { o with battleConv := info.conv, battleReady := false }) rest
      else (r, false)

/-- Store the sessions and hand them to the scene. -/
def allocGiven (t : Nat) (s : Sys) (v : Ans) : Eff :=
  match v with
  | .infos l =>
      let s := { s with given := l.map BattleInfo.conv ++ s.given }
      match storeConvs s.room l with
      | (r, false) => raise (s.withRoom r)
      | (r, true) =>
          callScene t (s.withRoom r)
            (.batchAddPlayer (l.map fun info => (info.playerid, info.conv)))
            [.act (.allocAdded l)]
  | .error => raise s
  | _ => ret s (.refused "battle_gateway batch_alloc失败")

/-- The loop that gives sessions back, up to the next call. -/
def allocFree (s : Sys) : List Nat → Eff
  | [] => ret s (.refused "scene batch_add_player失败")
  | p :: ps =>
      if p ∈ s.room.players then
        freePlayerBattleSession s p [.act (.allocFree ps)] (allocFree s ps)
      else allocFree s ps

/-- Send every player the address of its session. -/
def Sys.connectAll (s : Sys) : List BattleInfo → Sys
  | [] => s
  | info :: rest =>
      if info.playerid ∈ s.room.players then
        (s.notifyAgent info.playerid (.battleConnect info)).connectAll rest
      else s.connectAll rest

/-- Tell the clients, or give the sessions back when the scene has failed. -/
def allocAdded (s : Sys) (infos : List BattleInfo) (v : Ans) : Eff :=
  if v.truthy then ret (s.connectAll infos) (.ok true)
  else allocFree s (infos.map BattleInfo.playerid)

/-- What {lit}`prepare` and {lit}`remove_preparing_player` do when the allocation
has returned. -/
def allocDone (s : Sys) (v : Ans) : Eff :=
  match v with
  | .refused err => abortRoom s err
  | _ => ret s (.ok true)

/-! ## Preparation -/

/-- The function {lit}`remove_preparing_player` runs under
{lit}`prepare_room_lock`, up to its first suspension. -/
def removePreparing (s : Sys) (p : Nat) (reason : String) : Eff :=
  if p ∉ s.room.players then ret s (.ok false)
  else
    goOn (s.withRoom { s.room with players := s.room.players.filter (· ≠ p) })
      [clearOnePlayerState p, .act (.freeSession p), .act (.kick p),
        .act (.removeKicked reason)]

/-- {lit}`remove_preparing_player` after the scene has kicked the player. -/
def removeKicked (t : Nat) (s : Sys) (reason : String) : Eff :=
  let s := s.broadcastPreparedPlayers
  if s.room.inroomPlayerCount < 2 then abortRoom s reason
  else if s.room.roomState = .waitPrepare ∧ s.room.allPrepared = true then
    goOn (s.setState .waitBattlePrepare) [.act .allocBattle, .act .allocDone]
  else if s.room.roomState = .waitBattlePrepare ∧ s.room.allBattleReady = true then
    startRunning t s
  else ret s (.ok true)

/-! ## Handlers -/

/-- The room when {lit}`init_room` has filled it. -/
def Sys.initialised (s : Sys) (playerList : List PlayerInfo) (allocVersion : Nat) : Sys :=
  s.withRoom { s.room with
    allocVersion := allocVersion
    roomState := .waitPrepare
    players := (playerList.map PlayerInfo.playerid).dedup
    obj := playerList.foldl
      (fun obj info => Function.update obj info.playerid (newPlayer info)) s.room.obj }

/-- {lit}`init_room`. -/
def initRoom (s : Sys) (playerList : List PlayerInfo) (allocVersion : Nat) : Eff :=
  if s.room.roomState ≠ .uninit then ret s (.ok false)
  else if s.room.sceneAddr = none then ret s (.ok false)
  else
    { state := s.initialised playerList allocVersion
      outcome := .ret (.ok true)
      fork := some .prepareTimer }

/-- The prepare timer when it fires. -/
def prepareTimeout (s : Sys) : Eff :=
  if s.room.roomState ≠ .waitPrepare then ret s .nil
  else if s.room.allPrepared then ret s .nil
  else abortRoom s "有玩家未准备"

/-- A player has pressed the button and everybody is told. -/
def Sys.setPrepared (s : Sys) (p : Nat) : Sys :=
  (s.modify p fun o => { o with prepared := true }).broadcastPreparedPlayers

/-- {lit}`prepare`. -/
def prepare (s : Sys) (p : Nat) : Eff :=
  if s.room.roomState = .uninit then ret s (.refused "房间尚未初始化")
  else if s.room.roomState ≠ .waitPrepare then ret s (.refused "房间不在准备阶段")
  else if p ∉ s.room.players then ret s (.refused "玩家不在房间")
  else if (s.room.obj p).prepared then ret s (.ok true)
  else
    let s := s.setPrepared p
    if s.room.allPrepared then
      goOn (s.setState .waitBattlePrepare)
        [.locked .prepareRoom .allocBattle, .act .allocDone]
    else ret s (.ok true)

/-- {lit}`battle_ready`.  The message {lit}`battle_online` it sends to the scene
only sets a flag that decides who is sent frames. -/
def battleReady (t : Nat) (s : Sys) (source p conv : Nat) (ready : Bool) : Eff :=
  if p ∉ s.room.players then ret s (.ok false)
  else if s.room.battleGateway ≠ some source then ret s (.ok false)
  else if (s.room.obj p).battleConv ≠ conv then ret s (.ok false)
  else
    let s := s.modify p fun o => { o with battleReady := ready }
    if s.room.roomState = .waitBattlePrepare ∧ s.room.allPrepared = true ∧
        s.room.allBattleReady = true then
      startRunning t s
    else ret s (.ok true)

/-- {lit}`leave`. -/
def leave (s : Sys) (p : Nat) (reason : String) : Eff :=
  if p ∉ s.room.players then ret s (.ok true)
  else if s.room.roomState = .waitBattlePrepare ∨ s.room.roomState = .waitPrepare then
    goOn s [.locked .prepareRoom (.removePreparing p reason)]
  else if s.room.roomState = .running then markPlayerLeaveroom s p reason
  else ret s (.ok false)

/-- {lit}`scene_player_dead`. -/
def scenePlayerDead (s : Sys) (p killer : Nat) : Eff :=
  if s.room.roomState ≠ .running then ret s (.ok true)
  else ret (s.withRoom (s.room.onPlayerDead p killer).1) (.ok (s.room.onPlayerDead p killer).2)

/-- {lit}`scene_player_respawn`. -/
def scenePlayerRespawn (s : Sys) (p : Nat) : Eff :=
  if s.room.roomState ≠ .running then ret s (.ok true)
  else ret (s.withRoom (s.room.onPlayerRespawn p).1) (.ok (s.room.onPlayerRespawn p).2)

/-- What each act does when coroutine {lit}`t` runs it; {lit}`v` is the value the
last call or function has returned. -/
def exec (t : Nat) (a : Act) (v : Ans) (s : Sys) : Eff :=
  match a with
  | .initRoom playerList allocVersion => initRoom s playerList allocVersion
  | .prepareTimer => call s (.sleep 1500) [.act .prepareTimeout]
  | .prepareTimeout => prepareTimeout s
  | .prepare p => prepare s p
  | .battleReady source p conv ready => battleReady t s source p conv ready
  | .scenePlayerDead p killer => scenePlayerDead s p killer
  | .scenePlayerRespawn p => scenePlayerRespawn s p
  | .leave p reason => leave s p reason
  | .abortRoomWithoutClearState _ => abortRoomWithoutClearState t s
  | .allocBattle => allocBattle s
  | .allocPicked => allocPicked s v
  | .allocGiven => allocGiven t s v
  | .allocAdded infos => allocAdded s infos v
  | .allocFree ps => allocFree s ps
  | .allocDone => allocDone s v
  | .removePreparing p reason => removePreparing s p reason
  | .removeKicked reason => removeKicked t s reason
  | .markCleared p => markCleared s p
  | .markKicked _ =>
      if s.room.inroomPlayerCount ≤ 1 then finishRoom t s else ret s (.ok true)
  | .gameStarted => gameStarted s v
  | .setPlayersRunning => setRunning s s.room.players
  | .setRunning ps => setRunning s ps
  | .setLoaded p ps =>
      match v with
      | .record raw =>
          call s (.redisSet p { loadPlayerState p raw with state := .running }.encode)
            [.act .checked, .act (.setRunning ps)]
      | _ => raise s
  | .runningSet => runningSet s
  | .roundTimer => call s (.sleep 60000) [.act .roundOver]
  | .roundOver => if s.room.roomState = .running then finishRoom t s else ret s .nil
  | .clearOne p => call s (.redisDel p) [.act .checked]
  | .clearInroom => clearEach s s.room.players
  | .clearEach ps => clearEach s ps
  | .checked => if v = .error then raise s else ret s .nil
  | .freeSession p => freePlayerBattleSession s p [] (ret s .nil)
  | .kick p => callScene t s (.kickPlayer p) []
  | .abortPlayers notify => abortEach t s notify s.room.players
  | .abortFreed notify p ps => abortEach t (s.dismiss notify p) notify ps
  | .closeRoom final => closeRoom t s final
  | .finishWeighed arr =>
      match v with
      | .weights stats => finishWeighed s arr stats
      | _ => finishWeighed s arr []
  | .settleEach total ps => settleEach s total ps

/-! ## The other services -/

/-- How a call ends. -/
inductive Choice where
  /-- The request is executed and answered. -/
  | answer
  /-- {lit}`harbor.queryname` finds the gateway with handle {lit}`h`. -/
  | found (h : Nat)
  /-- The callee's handler raises an error and nothing is returned. -/
  | nothing
  /-- The call raises an error, after or without executing the request. -/
  | fail (executed : Bool)
deriving DecidableEq, Repr

/-- What happens when the scene executes a request. -/
def sceneExecute (sc : Scene) : Req → Scene × Ans
  | .batchAddPlayer list => ((sc.batchAddPlayer list).1, .ok (sc.batchAddPlayer list).2)
  | .startGame => (sc.startGame, .ok true)
  | .kickPlayer p => ((sc.kickPlayer p).1, .ok (sc.kickPlayer p).2)
  | .getWeight => (sc, .weights sc.getWeight)
  -- the scene exits inside the handler, which fails the caller's call
  | .shutdownScene => ({ sc with closed := true }, .error)
  | _ => (sc, .nil)

/-- The scene works off its inbox in order; none of its handlers raises an error.
After it has exited every request fails. -/
def serveScene (t : Nat) (q : Req) (s : Sys) : Option (Sys × Ans) :=
  if s.scene.inbox.head? ≠ some t then none
  else
    let sc := { s.scene with inbox := s.scene.inbox.tail }
    if sc.closed then some ({ s with scene := sc }, .error)
    else some ({ s with scene := (sceneExecute sc q).1 }, (sceneExecute sc q).2)

/-- What happens when redis or the gateway executes a request. -/
def execute (q : Req) (s : Sys) : Sys × Ans :=
  match q with
  | .redisGet p => (s, .record (s.records p))
  | .redisSet p value => ({ s with records := Function.update s.records p (some value) }, .ok true)
  | .redisDel p => ({ s with records := Function.update s.records p none }, .ok true)
  | .batchAlloc players =>
      ({ s with gateway := (s.gateway.batchAlloc players).1 },
        .infos (s.gateway.batchAlloc players).2)
  | .free conv => ({ s with gateway := s.gateway.free conv }, .ok true)
  | _ => (s, .nil)

/-- Requests that go to the scene. -/
def Req.toScene : Req → Bool
  | .batchAddPlayer _ | .startGame | .kickPlayer _ | .getWeight | .shutdownScene => true
  | _ => false

/-- How redis, the name service, the gateway and the timer answer. -/
def serveOther (q : Req) (c : Choice) (s : Sys) : Option (Sys × Ans) :=
  match c with
  | .answer =>
      match q with
      | .queryname => none
      | _ => some (execute q s)
  | .found h =>
      match q with
      | .queryname => some (s, .handle h)
      | _ => none
  | .nothing =>
      match q with
      | .queryname | .sleep _ => none
      | _ => some (s, .nil)
  | .fail executed =>
      match q with
      | .sleep _ => none
      | _ => some (if executed then (execute q s).1 else s, .error)

/-- How the other services answer the request {lit}`q` of coroutine {lit}`t`. -/
def serve (t : Nat) (q : Req) (c : Choice) (s : Sys) : Option (Sys × Ans) :=
  if q.toScene then
    match c with
    | .answer => serveScene t q s
    | _ => none
  else serveOther q c s

/-- What changes around the room without its doing. -/
inductive Env where
  /-- A frame of the scene. -/
  | frame (dead : List Nat) (weight : Nat → Int) (whole : Bool)
  | elapse (ms : Nat)
  /-- The match service loads a record under its own lock and decides. -/
  | matchJoin (p : Nat) (record : StoredState)
  | matchCancel (p : Nat)
  | matchLeave (p : Nat)
  /-- The match service carries out what it has decided. -/
  | matchWrite

/-- {lit}`join`, {lit}`cancel` and {lit}`leave` of the match service, as far as the
player's record is concerned: what they decide to write after loading it. -/
def matchDecision (e : Env) (raw : Nat → Option StoredState) :
    Option (Nat × Option StoredState) :=
  match e with
  | .matchJoin p record =>
      if (loadPlayerState p (raw p)).state = .idle ∧ record.state = .matching then
        some (p, some record)
      else none
  | .matchCancel p =>
      if (loadPlayerState p (raw p)).state = .matching then some (p, none) else none
  | .matchLeave p =>
      match (loadPlayerState p (raw p)).state with
      | .idle | .matching | .roomAllocating => some (p, none)
      -- a player in a room is left to the room
      | .roomPreparing | .running => none
  | _ => none

/-- One change of the surroundings. -/
def environment (e : Env) (s : Sys) : Option Sys :=
  match e with
  | .frame dead weight whole =>
      if s.scene.closed then none
      else some { s with scene := s.scene.update dead weight whole }
  | .elapse ms => some (s.withRoom { s.room with now := s.room.now + ms })
  | .matchWrite =>
      s.matchWrite.map fun d =>
        { s with records := Function.update s.records d.1 d.2, matchWrite := none }
  | e =>
      if s.matchWrite = none then
        (matchDecision e s.records).map fun d => { s with matchWrite := some d }
      else none

/-- The room service and its surroundings. -/
def program : Program Sys LockName Act Req Ans Choice Env where
  exec := exec
  serve := serve
  env := environment

/-- Worlds of the room service. -/
abbrev RoomWorld := World Sys LockName Act Req Ans

/-- Views of the room service. -/
abbrev RoomView := View Sys Act Req Ans

/-- Events of the room service. -/
abbrev RoomEvent := Event Act Choice Env

/-- The entry points other services and the clients reach. -/
def Act.isHandler : Act → Bool
  | .initRoom .. | .prepare _ | .battleReady .. | .scenePlayerDead .. |
    .scenePlayerRespawn _ | .leave .. | .abortRoomWithoutClearState _ => true
  | _ => false

/-- The state before {lit}`init_room`: the room is new, prewarmed or not, the
scene is empty, and conversation numbers start above zero. -/
structure Initial (s : Sys) : Prop where
  roomState : s.room.roomState = .uninit
  players : s.room.players = []
  battleGateway : s.room.battleGateway = none
  scenePlayers : s.scene.players = []
  pendingEnters : s.scene.pendingEnters = []
  pendingLeaves : s.scene.pendingLeaves = []
  pendingRebirth : s.scene.pendingRebirth = []
  leftWeights : s.scene.leftWeights = []
  gameStarted : s.scene.gameStarted = false
  inbox : s.scene.inbox = []
  closed : s.scene.closed = false
  nextConvId : 0 < s.gateway.nextConvId
  mail : s.mail = []
  batchAllocs : s.batchAllocs = 0
  given : s.given = []
  freed : s.freed = []
  matchWrite : s.matchWrite = none
  battleConv : ∀ p, (s.room.obj p).battleConv = 0

/-- Messages the room can get: the entry points, where a battle gateway only
names conversations it has numbered, and numbers start above zero. -/
def Act.arrives : Act → Prop
  | .battleReady _ _ conv _ => conv ≠ 0
  | a => a.isHandler = true

/-- What can happen in a run: only entry points are started from outside. -/
def Arrives (_ : RoomWorld) (e : RoomEvent) : Prop :=
  ∀ a, e = .spawn a → a.arrives

/-- The message is one the room can get. -/
def Act.arrives? : Act → Bool
  | .battleReady _ _ conv _ => conv != 0
  | a => a.isHandler

theorem Act.arrives_of_arrives? {a : Act} (h : a.arrives? = true) : a.arrives := by
  cases a <;> simpa [Act.arrives?, Act.arrives] using h

/-- The event may happen in a run. -/
def arrives? (_ : RoomWorld) : RoomEvent → Bool
  | .spawn a => a.arrives?
  | _ => true

theorem arrives_of_arrives? {w : RoomWorld} {e : RoomEvent} (h : arrives? w e = true) :
    Arrives w e := by
  rintro a rfl
  exact Act.arrives_of_arrives? h

/-- A room that has just been prewarmed, with its scene and the gateway of the
first node; {lit}`records` is what redis holds. -/
def prewarmed (records : Nat → Option StoredState) : Sys where
  room := {
    roomState := .uninit
    allocVersion := 0
    sceneAddr := some 9
    battleGateway := none
    players := []
    obj := fun p => { playerid := p, agent := 0, agentNode := "" }
    now := 0 }
  records := records
  scene := {}
  gateway := { nextConvId := 1000001 }

theorem initial_prewarmed (records : Nat → Option StoredState) :
    Initial (prewarmed records) := by
  have hconv : 0 < (prewarmed records).gateway.nextConvId := by
    simp [prewarmed]
  exact ⟨rfl, rfl, rfl, rfl, rfl, rfl, rfl, rfl, rfl, rfl, rfl, hconv, rfl, rfl, rfl, rfl, rfl,
    fun _ => rfl⟩

end BallServer.RoomService
