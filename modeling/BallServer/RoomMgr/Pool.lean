import Mathlib.Data.List.Basic
import Mathlib.Logic.Function.Basic
import Mathlib.Order.Nat

/-!
# The room pool

{lit}`roommgr` keeps rooms in stock.  A refill coroutine creates idle rooms for a mode,
one at a time; {lit}`create_room` reserves an idle room and initialises it; a room that
closes tells the pool.  All of them wait for other services in the middle, and the
others run meanwhile.

A coroutine is modelled by where it is suspended.  Entries of the pool are references,
since a coroutine keeps the entry it has found in a local variable.

The fields under {lit}`started`, {lit}`returned` and {lit}`shrunk` do not exist in the
program.  They record the addresses of the room services that were created, the entries
that {lit}`create_room` has given away, and those that {lit}`shrink_pool` has closed.

Main results:

- Structure {lit}`Pool` and definition {lit}`Pool.step`.
- Definition {lit}`Pool.countIdle`: what refill and shrink decide by.
-/

namespace BallServer.RoomMgr

/-- {lit}`POOL_STATE`. -/
inductive PoolState where
  | idle
  | reserved
  | busy
  | dead
deriving DecidableEq, Repr

/-- An entry of the pool. -/
structure Entry where
  roomId : Nat
  roomNode : String
  room : Nat
  sceneAddr : Nat
  state : PoolState
  idleAt : Nat
  modeId : Nat
deriving DecidableEq, Repr

/-- What {lit}`pool_key` is made of. -/
def Entry.key (x : Entry) : String × Nat := (x.roomNode, x.room)

/-- {lit}`MODE_SCENE_SERVICE`. -/
def modeSceneService (mode : Nat) : Option String :=
  if mode = 1 ∨ mode = 2 then some "scene" else none

/-- The keys of {lit}`MODE_SCENE_SERVICE`. -/
def sceneModes : List Nat := [1, 2]

/-- {lit}`POOL_MIN_IDLE`. -/
def poolMinIdle : Nat := 2

/-- {lit}`POOL_MAX_IDLE`. -/
def poolMaxIdle : Nat := 8

/-- {lit}`POOL_IDLE_TTL`. -/
def poolIdleTtl : Nat := 30 * 100

/-- Where a coroutine is suspended. -/
inductive Coroutine where
  /-- A refill coroutine that has not started. -/
  | forked (mode : Nat)
  /-- {lit}`create_idle_room_once`, in the redis command {lit}`incr`. -/
  | incr (mode : Nat)
  /-- The same, while the room service is created. -/
  | newservice (mode roomId : Nat) (roomNode : String)
  /-- The same, while the room creates its scene. -/
  | prewarm (mode roomId : Nat) (roomNode : String) (room : Nat)
  /-- The same, in the {lit}`abort_room` of a room that has no scene. -/
  | aborting (mode : Nat)
  /-- {lit}`create_room`, in {lit}`init_room`. -/
  | init (mode entry : Nat)
  /-- {lit}`create_room`, in the {lit}`abort_room` after {lit}`init_room` has failed. -/
  | dropping (mode : Nat)
deriving DecidableEq, Repr

/-- The mode that a refill coroutine works for. -/
def Coroutine.refills : Coroutine → Option Nat
  | .forked mode | .incr mode | .newservice mode _ _ | .prewarm mode _ _ _ | .aborting mode =>
      some mode
  | .init _ _ | .dropping _ => none

/-- The service. -/
structure Pool where
  roomNodes : List String
  nextNodeIdx : Nat
  refillRunning : Nat → Bool
  entries : Nat → Entry
  nextEntry : Nat
  /-- {lit}`room_pool`: the entries of each mode. -/
  roomPool : Nat → List Nat
  coroutines : Nat → Option Coroutine
  nextCoroutine : Nat
  started : List (String × Nat)
  returned : List (Nat × Nat)
  shrunk : List Nat

/-- The order in which {lit}`pairs` visits a table. -/
structure Pairs where
  visit : List Nat → List Nat
  perm : ∀ l, (visit l).Perm l

/-- The order in which the keys were set. -/
def Pairs.added : Pairs := ⟨id, fun _ => .rfl⟩

/-- What the environment answers to a coroutine that is resumed. -/
inductive Answer where
  /-- A forked coroutine starts, or an {lit}`abort_room` has returned or raised. -/
  | done
  /-- {lit}`incr` has returned a number, or raised. -/
  | roomId (id : Option Nat)
  /-- {lit}`nodemgr` has created a room service, or not. -/
  | service (room : Option Nat)
  /-- {lit}`prewarm` has returned the address of a scene, or not. -/
  | scene (addr : Option Nat) (now : Nat)
  /-- {lit}`init_room` has returned, or raised. -/
  | initialised (ok : Bool)
deriving DecidableEq, Repr

/-- What can happen to the service. -/
inductive Event where
  | createRoom (o : Pairs) (mode : Nat)
  | roomClosed (o : Pairs) (roomNode : String) (room : Nat)
  | maintain (o : Pairs) (now : Nat)
  | resume (c : Nat) (answer : Answer)

namespace Pool

/-- The service when it starts. -/
def start (roomNodes : List String) : Pool where
  roomNodes := roomNodes
  nextNodeIdx := 0
  refillRunning := fun _ => false
  entries := fun _ => ⟨0, "", 0, 0, .dead, 0, 0⟩
  nextEntry := 0
  roomPool := fun _ => []
  coroutines := fun _ => none
  nextCoroutine := 0
  started := []
  returned := []
  shrunk := []

/-- The entry is idle. -/
def Idle (s : Pool) (e : Nat) : Prop := (s.entries e).state = .idle

instance (s : Pool) (e : Nat) : Decidable (s.Idle e) :=
  inferInstanceAs (Decidable (_ = _))

/-- {lit}`count_idle_room`. -/
def countIdle (s : Pool) (mode : Nat) : Nat :=
  (s.roomPool mode).countP fun e => decide (s.Idle e)

/-- {lit}`entry.state = state`. -/
def setState (s : Pool) (e : Nat) (state : PoolState) : Pool :=
  { s with entries := Function.update s.entries e { s.entries e with state := state } }

/-- Suspend a coroutine, or end it. -/
def setCoroutine (s : Pool) (c : Nat) (x : Option Coroutine) : Pool :=
  { s with coroutines := Function.update s.coroutines c x }

/-- The entries of a pool without the one at a key. -/
def without (s : Pool) (key : String × Nat) (l : List Nat) : List Nat :=
  l.filter fun e => (s.entries e).key ≠ key

/-- {lit}`find_idle_room`. -/
def findIdleRoom (s : Pool) (o : Pairs) (mode : Nat) : Option Nat :=
  (o.visit (s.roomPool mode)).find? fun e => decide (s.Idle e)

/-- {lit}`remove_pool_room`. -/
def removePoolRoom (s : Pool) (e : Nat) : Pool :=
  let mode := (s.entries e).modeId
  { s.setState e .dead with
    roomPool := Function.update s.roomPool mode (s.without (s.entries e).key (s.roomPool mode)) }

/-- {lit}`close_idle_room`, as {lit}`shrink_pool` calls it. -/
def closeIdleRoom (s : Pool) (e : Nat) : Pool :=
  { s.removePoolRoom e with shrunk := e :: s.shrunk }

/-- {lit}`start_refill_pool`. -/
def startRefillPool (s : Pool) (mode : Nat) : Pool :=
  if s.refillRunning mode then s
  else
    { s with
      refillRunning := Function.update s.refillRunning mode true
      coroutines := Function.update s.coroutines s.nextCoroutine (some (.forked mode))
      nextCoroutine := s.nextCoroutine + 1 }

/-- The end of a refill coroutine. -/
def endRefill (s : Pool) (c mode : Nat) : Pool :=
  { s.setCoroutine c none with refillRunning := Function.update s.refillRunning mode false }

/-- The head of the loop of a refill coroutine, and {lit}`create_idle_room_once` up to
its first call. -/
def refillLoop (s : Pool) (c mode : Nat) : Pool :=
  if s.countIdle mode < poolMinIdle then
    match modeSceneService mode with
    | none => s.endRefill c mode
    | some _ => s.setCoroutine c (some (.incr mode))
  else s.endRefill c mode

/-- {lit}`room_pool[mode_id][pool_key(room_node, room)] = entry`. -/
def addEntry (s : Pool) (x : Entry) : Pool :=
  { s with
    entries := Function.update s.entries s.nextEntry x
    nextEntry := s.nextEntry + 1
    roomPool := Function.update s.roomPool x.modeId
      (s.nextEntry :: s.without x.key (s.roomPool x.modeId)) }

/-- The loop of {lit}`shrink_pool`. -/
def shrinkLoop (now : Nat) : List Nat → Nat → Pool → Pool
  | [], _, s => s
  | e :: es, n, s =>
      if n ≤ poolMaxIdle then s
      else if s.Idle e ∧ now > (s.entries e).idleAt + poolIdleTtl then
        shrinkLoop now es (n - 1) (s.closeIdleRoom e)
      else shrinkLoop now es n s

/-- {lit}`shrink_pool`. -/
def shrinkPool (s : Pool) (o : Pairs) (now mode : Nat) : Pool :=
  if s.countIdle mode ≤ poolMaxIdle then s
  else shrinkLoop now (o.visit (s.roomPool mode)) (s.countIdle mode) s

/-- {lit}`maintain_pool`. -/
def maintainPool (s : Pool) (o : Pairs) (now : Nat) : Pool :=
  (o.visit sceneModes).foldl (fun s mode => (s.startRefillPool mode).shrinkPool o now mode) s

/-- {lit}`create_room` up to its first call. -/
def createRoom (s : Pool) (c : Nat) (o : Pairs) (mode : Nat) : Pool :=
  match s.findIdleRoom o mode with
  | none => s.startRefillPool mode
  | some e => (s.setState e .reserved).setCoroutine c (some (.init mode e))

/-- The loop of {lit}`room_closed` over the modes. -/
def roomClosed (s : Pool) (key : String × Nat) : List Nat → Pool
  | [] => s
  | mode :: modes =>
      match (s.roomPool mode).find? fun e => (s.entries e).key = key with
      | some e => (s.removePoolRoom e).startRefillPool mode
      | none => s.roomClosed key modes

/-- The rest of a coroutine, from the call it waits for to the next one. -/
def resume (s : Pool) (c : Nat) : Coroutine → Answer → Option Pool
  | .forked mode, .done => some (s.refillLoop c mode)
  | .incr mode, .roomId none => some (s.endRefill c mode)
  | .incr mode, .roomId (some id) =>
      let idx := s.nextNodeIdx + 1
      let node := s.roomNodes.getD (idx % s.roomNodes.length) ""
      some ({ s with nextNodeIdx := idx }.setCoroutine c (some (.newservice mode id node)))
  | .newservice mode _ _, .service none => some (s.endRefill c mode)
  | .newservice mode id node, .service (some room) =>
      some ({ s with started := (node, room) :: s.started }.setCoroutine c
        (some (.prewarm mode id node room)))
  | .prewarm mode _ _ _, .scene none _ => some (s.setCoroutine c (some (.aborting mode)))
  | .prewarm mode id node room, .scene (some addr) now =>
      some ((s.addEntry ⟨id, node, room, addr, .idle, now, mode⟩).refillLoop c mode)
  | .aborting mode, .done => some (s.endRefill c mode)
  | .init mode e, .initialised false =>
      some ((s.removePoolRoom e).setCoroutine c (some (.dropping mode)))
  | .init mode e, .initialised true =>
      some ({ (s.setState e .busy).setCoroutine c none with
        returned := (c, e) :: s.returned }.startRefillPool mode)
  | .dropping mode, .done => some ((s.setCoroutine c none).startRefillPool mode)
  | _, _ => none

/-- One event. -/
def step (s : Pool) : Event → Option Pool
  | .createRoom o mode =>
      some ({ s with nextCoroutine := s.nextCoroutine + 1 }.createRoom s.nextCoroutine o mode)
  | .roomClosed o node room => some (s.roomClosed (node, room) (o.visit sceneModes))
  | .maintain o now => some (s.maintainPool o now)
  | .resume c answer =>
      match s.coroutines c with
      | none => none
      | some x => s.resume c x answer

/-- A sequence of events. -/
def run (s : Pool) : List Event → Option Pool
  | [] => some s
  | e :: es => do
      let s ← s.step e
      s.run es

end Pool

end BallServer.RoomMgr
