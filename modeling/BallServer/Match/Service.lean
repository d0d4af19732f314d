import BallServer.PlayerState
import Mathlib.Data.Char
import Mathlib.Data.Finset.Basic
import Mathlib.Data.List.Basic
import Mathlib.Data.List.Lex
import Mathlib.Logic.Function.Basic

/-!
# The match service

Players who want to play wait in sorted sets of redis, one for every mode and segment of
rank scores.  A scan takes a batch of them out of the queues, asks {lit}`roommgr` for a
room without holding {lit}`state_lock`, and then either hands the players over to the
room or puts them back.

Every function here runs under {lit}`state_lock`.  A redis command may raise an error;
what was written before it stays.

Main results:

- Structure {lit}`Service`: redis and the tables of the service.
- Definitions {lit}`takeBatch` and {lit}`finishBatch`: the two locked parts of
  {lit}`try_match`.
- Definitions {lit}`join`, {lit}`cancel`, {lit}`leave` and {lit}`shutdown`.
-/

namespace BallServer.MatchService

/-- The text behind {lit}`match:queue:`: {lit}`tostring` of a mode and of a segment. -/
abbrev QueueKey := Option Number × Option Number

/-- The table {lit}`MATCH_CONFIG` has one of these for every mode. -/
structure Config where
  playerNum : Nat
  segmentSpan : Int
  expandIntervalMs : Int
  maxExpandSegment : Int
deriving DecidableEq, Repr

/-- {lit}`MATCH_CONFIG`. -/
def matchConfig (mode : Int) : Option Config :=
  if mode = 1 then some ⟨2, 100, 5000, 1⟩
  else if mode = 2 then some ⟨4, 100, 5000, 3⟩
  else none

/-- The modes in {lit}`MATCH_CONFIG`. -/
def modes : List Number := [.int 1, .int 2]

/-- One of the {lit}`alloc_records`. -/
structure AllocRecord where
  canceled : Bool
  playerids : List Nat
deriving DecidableEq, Repr

/-- What {lit}`create_room` returns. -/
structure RoomInfo where
  roomId : Int
  room : Int
  roomNode : String
  sceneAddr : Int
deriving DecidableEq, Repr

/-- The messages that the service sends. -/
inductive Message where
  | matchFound (agentNode : String) (agent : Number) (playerids : List Nat)
  | abortRoom (roomNode : String) (room : Int) (reason : String)
  | leave (roomNode : String) (room : Number) (playerid : Nat) (reason : String)
deriving DecidableEq, Repr

/-- What the service keeps in redis and in memory. -/
structure Service where
  /-- The keys {lit}`match:player:<id>`. -/
  records : Nat → Option StoredState
  /-- The sorted sets, as pairs of a member and its score in the order of redis. -/
  queues : QueueKey → List (Nat × Int)
  /-- The sets {lit}`match:active_segment:<mode>`. -/
  active : Number → List (Option Number)
  allocVersion : Int
  allocRecords : Int → Option AllocRecord
  shuttingDown : Bool
  /-- The clock, in milliseconds. -/
  now : Int
  /-- How many redis commands still succeed before one raises an error. -/
  fault : Option Nat
  sent : List Message

/-- A function of the service: it returns or raises, and leaves a state in both cases. -/
abbrev Run := EStateM Unit Service

/-! ## Redis -/

/-- Send a command to redis. -/
def command {α : Type} (f : Service → α × Service) : Run α := fun s =>
  match s.fault with
  | none => .ok (f s).1 (f s).2
  | some 0 => .error () { s with fault := none }
  | some (n + 1) =>
      let r := f { s with fault := some n }
      .ok r.1 r.2

/-- The order of a sorted set: by score, then by the text of the member. -/
def entryLe (a b : Nat × Int) : Bool :=
  decide (a.2 < b.2) || decide (a.2 = b.2) && decide (Nat.toDigits 10 a.1 ≤ Nat.toDigits 10 b.1)

/-- Put an entry in its place. -/
def insertEntry (e : Nat × Int) : List (Nat × Int) → List (Nat × Int)
  | [] => [e]
  | e' :: l => if entryLe e e' then e :: e' :: l else e' :: insertEntry e l

/-- The queue without a member. -/
def dropEntry (p : Nat) (l : List (Nat × Int)) : List (Nat × Int) :=
  l.filter fun e => e.1 ≠ p

/-- {lit}`get` of a player's key. -/
def getRecord (p : Nat) : Run (Option StoredState) :=
  command fun s => (s.records p, s)

/-- {lit}`set` of a player's key. -/
def setRecord (p : Nat) (raw : StoredState) : Run Unit :=
  command fun s => ((), { s with records := Function.update s.records p (some raw) })

/-- {lit}`clear_player_state`. -/
def clearPlayerState (p : Nat) : Run Unit :=
  command fun s => ((), { s with records := Function.update s.records p none })

/-- {lit}`zadd`. -/
def zadd (key : QueueKey) (score : Int) (p : Nat) : Run Unit :=
  command fun s => ((), { s with
    queues := Function.update s.queues key (insertEntry (p, score) (dropEntry p (s.queues key))) })

/-- {lit}`zrem`. -/
def zrem (key : QueueKey) (p : Nat) : Run Unit :=
  command fun s =>
    ((), { s with queues := Function.update s.queues key (dropEntry p (s.queues key)) })

/-- {lit}`zrange key 0 (limit - 1)`; without a limit {lit}`zrange key 0 -1`. -/
def zrange (key : QueueKey) (limit : Option Nat) : Run (List Nat) :=
  command fun s =>
    let ids := (s.queues key).map Prod.fst
    ((match limit with
      | none => ids
      | some n => ids.take n), s)

/-- {lit}`sadd` to the active segments of a mode. -/
def sadd (mode : Number) (segment : Option Number) : Run Unit :=
  command fun s => ((), { s with
    active := Function.update s.active mode (s.active mode ∪ [segment]) })

/-- {lit}`srem` from the active segments of a mode. -/
def srem (mode : Number) (segment : Option Number) : Run Unit :=
  command fun s => ((), { s with
    active := Function.update s.active mode ((s.active mode).filter (· ≠ segment)) })

/-- The order in which redis returns the members of a set. -/
structure Members where
  list : List (Option Number) → List (Option Number)
  mem_list : ∀ l x, x ∈ list l ↔ x ∈ l

/-- The order in which they were added. -/
def Members.added : Members := ⟨id, fun _ _ => Iff.rfl⟩

/-- {lit}`smembers` of the active segments of a mode. -/
def smembers (o : Members) (mode : Number) : Run (List (Option Number)) :=
  command fun s => (o.list (s.active mode), s)

/-! ## Records -/

/-- {lit}`load_player_state`. -/
def loadState (p : Nat) : Run PlayerState := do
  return loadPlayerState p (← getRecord p)

/-- {lit}`save_player_state`. -/
def savePlayerState (data : PlayerState) : Run Unit :=
  setRecord data.playerid data.encode

/-- {lit}`next_alloc_version`. -/
def nextAllocVersion : Run Int := do
  modify fun s => { s with allocVersion := s.allocVersion + 1 }
  return (← get).allocVersion

/-- {lit}`alloc_records[alloc_version] = r`. -/
def setAllocRecord (version : Int) (r : Option AllocRecord) : Run Unit :=
  modify fun s => { s with allocRecords := Function.update s.allocRecords version r }

/-- {lit}`record_alloc`. -/
def recordAlloc (batch : List PlayerState) (version : Int) : Run Unit :=
  setAllocRecord version (some ⟨false, batch.map PlayerState.playerid⟩)

/-- {lit}`cancel_alloc`. -/
def cancelAlloc (version : Int) : Run Unit := do
  match (← get).allocRecords version with
  | none => return
  | some r => setAllocRecord version (some { r with canceled := true })

/-- Send a message; this does not suspend. -/
def send (m : Message) : Run Unit :=
  modify fun s => { s with sent := s.sent ++ [m] }

/-! ## Scanning -/

/-- The record belongs into the queue. -/
def Waiting (info : PlayerState) (mode segment : Number) : Prop :=
  info.state = .matching ∧ info.modeId.map Number.value = some mode.value ∧
    info.segmentId.map Number.value = some segment.value

instance (info : PlayerState) (mode segment : Number) : Decidable (Waiting info mode segment) :=
  inferInstanceAs (Decidable (_ ∧ _ ∧ _))

/-- The loop of {lit}`fetch_vaild_from_segment`. -/
def keepValid (mode segment : Number) : List Nat → Run (List PlayerState)
  | [] => return []
  | p :: raw => do
      let info ← loadState p
      if Waiting info mode segment then
        return info :: (← keepValid mode segment raw)
      else
        -- an entry left over from an earlier match
        zrem (some mode, some segment) p
        keepValid mode segment raw

/-- {lit}`fetch_vaild_from_segment`. -/
def fetchVaildFromSegment (mode segment : Number) (limit : Nat) : Run (List PlayerState) := do
  let raw ← zrange (some mode, some segment) (some limit)
  let ret ← keepValid mode segment raw
  if raw.length = 0 then
    srem mode (some segment)
  return ret

/-- {lit}`cal_expand_segment`. -/
def calExpandSegment (now enter : Int) (cfg : Config) : Nat :=
  (min cfg.maxExpandSegment ((now - enter) / cfg.expandIntervalMs)).toNat

/-- {lit}`segment - diff` and {lit}`segment + diff` keep the subtype of the segment. -/
def Number.shift : Number → Int → Number
  | .int n, d => .int (n + d)
  | .flt n, d => .flt (n + d)

/-- {lit}`math.max(x, 0)`. -/
def maxZero (x : Number) : Number :=
  if x.value < 0 then .int 0 else x

/-- The segments that {lit}`collect_batch` looks through, in its order. -/
def searchOrder (center : Number) (expand : Nat) : List Number :=
  center :: (List.range expand).flatMap fun i =>
    [maxZero (Number.shift center (-(i + 1 : Nat))), Number.shift center (i + 1 : Nat)]

/-- Add players to the batch until it is full. -/
def addUnused (need : Nat) : List PlayerState → List PlayerState → List PlayerState × Bool
  | batch, [] => (batch, false)
  | batch, info :: list =>
      if info.playerid ∈ batch.map PlayerState.playerid then addUnused need batch list
      else if need ≤ batch.length + 1 then (batch ++ [info], true)
      else addUnused need (batch ++ [info]) list

/-- The loop of {lit}`collect_batch` over the segments. -/
def searchSegments (mode : Number) (need : Nat) (batch : List PlayerState) :
    List Number → Run (List PlayerState)
  | [] => return []
  | g :: gs => do
      let list ← fetchVaildFromSegment mode g (need * 2)
      let r := addUnused need batch list
      if r.2 then return r.1 else searchSegments mode need r.1 gs

/-- {lit}`collect_batch`. -/
def collectBatch (mode center : Number) (cfg : Config) : Run (List PlayerState) := do
  match ← fetchVaildFromSegment mode center 1 with
  | [] => return []
  | first :: _ =>
      match first.queueEnterMs with
      | none => throw ()
      | some enter =>
          let expand := calExpandSegment (← get).now enter.value cfg
          searchSegments mode cfg.playerNum [first] (searchOrder center expand)

/-- The first segment that yields a batch. -/
def scanSegments (mode : Number) (cfg : Config) : List Number → Run (List PlayerState)
  | [] => return []
  | g :: gs => do
      let batch ← collectBatch mode g cfg
      if cfg.playerNum ≤ batch.length then return batch else scanSegments mode cfg gs

/-- Read and sort the active segments, then scan them. -/
def selectBatch (o : Members) (mode : Number) (cfg : Config) : Run (List PlayerState) := do
  let raw ← smembers o mode
  let segments := (raw.filterMap id).mergeSort fun a b => decide (a.value ≤ b.value)
  scanSegments mode cfg segments

/-! ## Allocating -/

/-- {lit}`info` with the fields that {lit}`mark_batch_allocating` sets. -/
def allocating (version : Int) (info : PlayerState) : PlayerState :=
  { info with state := .roomAllocating, allocVersion := some (.int version) }

/-- The loop of {lit}`mark_batch_allocating`. -/
def markAllocating (mode : Number) (version : Int) : List PlayerState → Run Unit
  | [] => return
  | info :: batch => do
      zrem (some mode, info.segmentId) info.playerid
      savePlayerState (allocating version info)
      markAllocating mode version batch

/-- {lit}`mark_batch_allocating`. -/
def markBatchAllocating (batch : List PlayerState) (mode : Number) (version : Int) : Run Unit := do
  recordAlloc batch version
  markAllocating mode version batch

/-- The first locked part of {lit}`try_match`. -/
def takeBatch (o : Members) (mode : Number) : Run (Option (List PlayerState × Int)) := do
  match matchConfig mode.value with
  | none => return none
  | some cfg =>
      let batch ← selectBatch o mode cfg
      if batch.length < cfg.playerNum then return none
      let version ← nextAllocVersion
      markBatchAllocating batch mode version
      return some (batch.map (allocating version), version)

/-- The record is still the one that this allocation wrote. -/
def Allocating (info : PlayerState) (version : Int) : Prop :=
  info.state = .roomAllocating ∧ info.allocVersion.map Number.value = some version

instance (info : PlayerState) (version : Int) : Decidable (Allocating info version) :=
  inferInstanceAs (Decidable (_ ∧ _))

/-- The loop of {lit}`requeue_batch`. -/
def requeue (mode : Number) (version : Int) : List PlayerState → Run Unit
  | [] => return
  | old :: batch => do
      let info ← loadState old.playerid
      if Allocating info version then
        savePlayerState { info with state := .matching, allocVersion := none }
        zadd (some mode, info.segmentId) ((info.queueEnterMs.map Number.value).getD 0) info.playerid
        sadd mode info.segmentId
      requeue mode version batch

/-- {lit}`requeue_batch`. -/
def requeueBatch (batch : List PlayerState) (mode : Number) (version : Int) : Run Unit := do
  requeue mode version batch
  setAllocRecord version none

/-- The loop of {lit}`alloc_canceled`. -/
def anyChanged (version : Int) : List PlayerState → Run Bool
  | [] => return false
  | old :: batch => do
      let info ← loadState old.playerid
      if Allocating info version then anyChanged version batch else return true

/-- {lit}`alloc_canceled`. -/
def allocCanceled (batch : List PlayerState) (version : Int) : Run Bool := do
  match (← get).allocRecords version with
  | none => return true
  | some r => if r.canceled then return true else anyChanged version batch

/-- {lit}`info` with the fields that {lit}`mark_batch_preparing` sets. -/
def preparing (room : RoomInfo) (info : PlayerState) : PlayerState :=
  { info with
    state := .roomPreparing
    roomId := some (.int room.roomId)
    room := some (.int room.room)
    roomNode := some room.roomNode
    sceneAddr := some (.int room.sceneAddr)
    allocVersion := none }

/-- The loop of {lit}`mark_batch_preparing`. -/
def markPreparing (room : RoomInfo) : List PlayerState → Run Unit
  | [] => return
  | old :: batch => do
      let info ← loadState old.playerid
      savePlayerState (preparing room info)
      markPreparing room batch

/-- {lit}`mark_batch_preparing`. -/
def markBatchPreparing (batch : List PlayerState) (room : RoomInfo) (version : Int) : Run Unit := do
  markPreparing room batch
  setAllocRecord version none

/-- The loop of {lit}`notify_match_found`. -/
def notify (playerids : List Nat) : List PlayerState → Run Unit
  | [] => return
  | info :: batch => do
      match info.agentNode, info.agent with
      | some node, some agent => send (.matchFound node agent playerids)
      | _, _ => pure ()
      notify playerids batch

/-- {lit}`notify_match_found`. -/
def notifyMatchFound (batch : List PlayerState) : Run Unit :=
  notify (batch.map PlayerState.playerid) batch

/-- The second locked part of {lit}`try_match`; {lit}`create_room` may have failed. -/
def finishBatch (batch : List PlayerState) (mode : Number) (version : Int) :
    Option RoomInfo → Run Bool
  | none => do
      requeueBatch batch mode version
      return false
  | some room => do
      if ← allocCanceled batch version then
        requeueBatch batch mode version
        setAllocRecord version none
        send (.abortRoom room.roomNode room.room "alloc canceled")
        return false
      else
        markBatchPreparing batch room version
        notifyMatchFound batch
        return true

/-! ## Requests -/

/-- {lit}`join`. -/
def join (p : Nat) (mode rankScore : Number) (agentNode : String) (agent : Number) :
    Run (Except String Unit) := do
  if (← get).shuttingDown then
    return .error "server shutting down"
  match matchConfig mode.value with
  | none => return .error "mode_id不存在"
  | some cfg =>
      let info ← loadState p
      if info.state ≠ .idle then
        return .error "不要重复匹配"
      let now := (← get).now
      let segment := Number.int (rankScore.value / cfg.segmentSpan)
      savePlayerState { info with
        state := .matching
        modeId := some mode
        rankScore := some rankScore
        segmentId := some segment
        queueEnterMs := some (.int now)
        agent := some agent
        agentNode := some agentNode }
      zadd (some mode, some segment) now p
      sadd mode (some segment)
      return .ok ()

/-- {lit}`cancel`. -/
def cancel (p : Nat) : Run (Except String Unit) := do
  let info ← loadState p
  if info.state = .idle then
    return .error "当前不在匹配中"
  if info.state ≠ .matching then
    return .error "当前阶段不能取消匹配"
  zrem (info.modeId, info.segmentId) p
  clearPlayerState p
  return .ok ()

/-- {lit}`leave`. -/
def leave (p : Nat) (reason : String) : Run Bool := do
  let info ← loadState p
  match info.state with
  | .idle =>
      clearPlayerState p
      return true
  | .matching =>
      zrem (info.modeId, info.segmentId) p
      clearPlayerState p
      return true
  | .roomAllocating =>
      match info.allocVersion with
      | some version => cancelAlloc version.value
      | none => pure ()
      clearPlayerState p
      return true
  | .roomPreparing | .running =>
      match info.room, info.roomNode with
      | some room, some node => send (.leave node room p reason)
      | _, _ => pure ()
      return true

/-- The loop of {lit}`shutdown` over the players of a queue. -/
def drainQueue (key : QueueKey) : List Nat → Run Unit
  | [] => return
  | p :: ids => do
      let info ← loadState p
      if info.state = .matching then
        zrem key p
        clearPlayerState p
      drainQueue key ids

/-- The loop of {lit}`shutdown` over the segments of a mode. -/
def drainSegments (mode : Number) : List (Option Number) → Run Unit
  | [] => return
  | g :: gs => do
      drainQueue (some mode, g) (← zrange (some mode, g) none)
      drainSegments mode gs

/-- The loop of {lit}`shutdown` over the modes. -/
def drainModes (o : Members) : List Number → Run Unit
  | [] => return
  | mode :: ms => do
      drainSegments mode (← smembers o mode)
      drainModes o ms

/-- {lit}`shutdown`. -/
def shutdown (o : Members) : Run Unit := do
  modify fun s => { s with shuttingDown := true }
  drainModes o modes

/-- The state after {lit}`clear_all_match_state`. -/
def start : Service where
  records := fun _ => none
  queues := fun _ => []
  active := fun _ => []
  allocVersion := 0
  allocRecords := fun _ => none
  shuttingDown := false
  now := 0
  fault := none
  sent := []

end BallServer.MatchService
