import BallServer.Table
import Mathlib.Order.Nat

/-!
# The battle gateway

The battle gateway speaks KCP with the clients of running games.  A session belongs to a
player of a room; the client authenticates with the token it was given, answers a random
number and is then in the game.  Sessions, players and KCP objects come and go while
{lit}`battle_ready_ack` waits for the room.

Sessions and players are references to tables.  The KCP library, the decoding of
messages, the random numbers and the tokens are parameters; the library is seen through
what {lit}`input` makes of a datagram and the messages that are then complete.  What the
gateway sends over UDP is left out.

The field {lit}`seen` does not exist in the program.  It records the messages that were
taken from the KCP object since the last {lit}`reset_kcp`, each with the number that was
drawn for it, if any.  Neither do {lit}`owner`, the player a session was allocated for,
{lit}`handed`, the conversation numbers given out, and {lit}`forwarded`, the commands sent
to scenes.

Main results:

- Structures {lit}`Link`, {lit}`Session` and {lit}`Gateway`.
- Definition {lit}`Gateway.step`: everything that happens between two suspensions.
-/

namespace BallServer.BattleGateway

/-- {lit}`PRE_READY_TIMEOUT_MS`. -/
def preReadyTimeoutMs : Nat := 5000

/-- {lit}`READY_NO_PACKET_TIMEOUT_MS`. -/
def readyNoPacketTimeoutMs : Nat := 5000

/-- {lit}`RECONNECT_WAIT_MS`. -/
def reconnectWaitMs : Nat := 15000

/-- {lit}`SESSION_STATE`. -/
inductive SessionState where
  | waitAuth
  | waitReady
  | active
  | reconnectWait
  | closed
deriving DecidableEq, Repr

/-- What {lit}`proto_unpack` makes of a message. -/
inductive Message where
  | battleAuth (token : String)
  | battleReadyAck (readySeq : Nat)
  | command (cmd : String) (body : String)
deriving DecidableEq, Repr

/-- The KCP library, the codec and the sources of random numbers: KCP objects
{lit}`κ`, datagrams {lit}`δ` and messages {lit}`π`. -/
structure Link (κ δ π : Type) where
  getconv : δ → Option Nat
  create : Nat → κ
  /-- The object after {lit}`input` and the messages that are now complete; none if the
  result is negative. -/
  input : κ → δ → Option (κ × List π)
  unpack : π → Option Message
  random : Nat → Nat
  token : Nat → String

/-- A link that loses nothing: every datagram carries a conversation number and a message. -/
def Link.plain : Link Unit (Nat × Message) Message where
  getconv d := some d.1
  create _ := ()
  input _ d := some ((), [d.2])
  unpack := some
  random n := n + 1
  token n := toString n

/-- A KCP object and the messages that {lit}`recv` will return. -/
structure KcpObject (κ π : Type) where
  kcp : κ
  ready : List π

/-- {lit}`battle_session`. -/
structure Session (κ π : Type) where
  player : Option Nat
  conv : Nat
  kcp : Option (KcpObject κ π)
  state : SessionState
  readySeq : Nat
  lastActive : Nat
  hasJoined : Bool
  reconnectDeadline : Nat
  seen : List (π × Option Nat)
  owner : Nat

/-- {lit}`battle_player`. -/
structure Player where
  playerid : Nat
  session : Option Nat
  token : String
  room : Nat
  scene : Nat
deriving DecidableEq, Repr

/-- {lit}`battle_ready_ack`, in the call to the room. -/
structure Handler where
  session : Nat
  player : Nat
  isreconnect : Bool
deriving DecidableEq, Repr

/-- A command sent to a scene, with the session it came from and the state of that session
at the time. -/
structure Forward where
  session : Nat
  state : SessionState
  scene : Nat
  playerid : Nat
  cmd : String
deriving DecidableEq, Repr

/-- The service. -/
structure Gateway (κ π : Type) where
  nextConvId : Nat
  sessions : Table Nat
  players : Nat → Option Nat
  session : Nat → Session κ π
  nextSession : Nat
  player : Nat → Player
  nextPlayer : Nat
  draws : Nat
  handlers : Nat → Option Handler
  nextHandler : Nat
  handed : List Nat
  forwarded : List Forward

/-- The order in which {lit}`pairs` visits the sessions. -/
structure Pairs where
  visit : Finset Nat → List Nat
  mem_visit : ∀ s c, c ∈ visit s ↔ c ∈ s
  nodup : ∀ s, (visit s).Nodup

/-- What can happen to the service. -/
inductive Event (δ : Type) where
  | udp (raw : δ) (now : Nat)
  | resume (h : Nat) (readyOk : Bool)
  | timer (o : Pairs) (now : Nat)
  | batchAlloc (room scene : Nat) (playerList : List Nat) (now : Nat)
  | free (conv : Nat)

namespace Gateway

variable {κ δ π : Type}

/-- Change a session in place. -/
def setSession (g : Gateway κ π) (x : Nat) (y : Session κ π) : Gateway κ π :=
  { g with session := Function.update g.session x y }

/-- {lit}`reset_kcp`. -/
def resetKcp (y : Session κ π) : Session κ π :=
  { y with kcp := none, readySeq := 0, seen := [] }

/-- {lit}`enter_reconnect_wait`. -/
def enterReconnectWait (g : Gateway κ π) (x now : Nat) : Gateway κ π :=
  g.setSession x { resetKcp (g.session x) with
    reconnectDeadline := now + reconnectWaitMs, state := .reconnectWait }

/-- The first half of {lit}`free_session`: the player forgets the session, unless it has
another one. -/
def detach (g : Gateway κ π) (x : Nat) : Gateway κ π :=
  match (g.session x).player with
  | none => g
  | some p =>
      if (g.player p).session = some x then
        { g with
          player := Function.update g.player p { g.player p with session := none }
          players := Function.update g.players (g.player p).playerid none }
      else g

/-- {lit}`free_session`. -/
def freeSession (g : Gateway κ π) (x : Nat) : Gateway κ π :=
  { (g.detach x).setSession x { resetKcp (g.session x) with
      player := none, reconnectDeadline := 0, state := .closed } with
    sessions := g.sessions.erase (g.session x).conv }

/-- {lit}`recv` takes the next message, to be handled with the number drawn for it. -/
def take (g : Gateway κ π) (x : Nat) (k : KcpObject κ π) (rest : List π) (p : π)
    (drawn : Option Nat) : Gateway κ π :=
  g.setSession x { g.session x with
    kcp := some { k with ready := rest }
    seen := (g.session x).seen ++ [(p, drawn)] }

/-- {lit}`battle_auth`. -/
def battleAuth (K : Link κ δ π) (g : Gateway κ π) (x : Nat) : Gateway κ π :=
  { g.setSession x { g.session x with state := .waitReady, readySeq := K.random g.draws } with
    draws := g.draws + 1 }

/-- {lit}`battle_auth` draws a number only in these states; otherwise it repeats itself. -/
def Unauthenticated (y : Session κ π) : Prop :=
  y.state = .waitAuth ∨ y.state = .reconnectWait

instance (y : Session κ π) : Decidable (Unauthenticated y) :=
  inferInstanceAs (Decidable (_ ∨ _))

/-- {lit}`battle_ready_ack` up to its call: the session is active before the room agrees. -/
def battleReadyAck (g : Gateway κ π) (x q : Nat) : Gateway κ π :=
  { g.setSession x { g.session x with
      state := .active, hasJoined := true, reconnectDeadline := 0 } with
    handlers := Function.update g.handlers g.nextHandler
      (some ⟨x, q, (g.session x).hasJoined⟩)
    nextHandler := g.nextHandler + 1 }

/-- A command is sent to the scene. -/
def forward (g : Gateway κ π) (x q : Nat) (cmd : String) : Gateway κ π :=
  { g with forwarded := ⟨x, (g.session x).state, (g.player q).scene, (g.player q).playerid, cmd⟩ ::
      g.forwarded }

/-- {lit}`drain_recv` on a session with at most this many messages.  It ends when a
handler suspends, which goes on with it later. -/
def drainRecv (K : Link κ δ π) (x : Nat) : Nat → Gateway κ π → Gateway κ π
  | 0, g => g
  | n + 1, g =>
      match (g.session x).kcp with
      | none => g
      | some k =>
          match k.ready with
          | [] => g
          | p :: rest =>
              match K.unpack p with
              | none => drainRecv K x n (g.take x k rest p none)
              | some (.battleAuth token) =>
                  match (g.session x).player with
                  -- indexing the missing player raises an error
                  | none => g.take x k rest p none
                  | some q =>
                      if token = (g.player q).token ∧ Unauthenticated (g.session x) then
                        drainRecv K x n
                          ((g.take x k rest p (some (K.random g.draws))).battleAuth K x)
                      else drainRecv K x n (g.take x k rest p none)
              | some (.battleReadyAck seq) =>
                  if (g.session x).state = .waitReady ∧ seq = (g.session x).readySeq then
                    match (g.session x).player with
                    | none => drainRecv K x n (g.take x k rest p none)
                    | some q => (g.take x k rest p none).battleReadyAck x q
                  else drainRecv K x n (g.take x k rest p none)
              | some (.command cmd _) =>
                  if (g.session x).state = .active then
                    match (g.session x).player with
                    | none => g.take x k rest p none
                    | some q => drainRecv K x n ((g.take x k rest p none).forward x q cmd)
                  else drainRecv K x n (g.take x k rest p none)

/-- {lit}`drain_recv`. -/
def drain (K : Link κ δ π) (g : Gateway κ π) (x : Nat) : Gateway κ π :=
  match (g.session x).kcp with
  | none => g
  | some k => g.drainRecv K x k.ready.length

/-- {lit}`kcp:input` and what follows. -/
def input (K : Link κ δ π) (g : Gateway κ π) (x : Nat) (k : KcpObject κ π) (raw : δ)
    (now : Nat) : Gateway κ π :=
  match K.input k.kcp raw with
  | none => g.setSession x { g.session x with kcp := some k }
  | some (kcp, msgs) =>
      (g.setSession x { g.session x with
        kcp := some ⟨kcp, k.ready ++ msgs⟩, lastActive := now }).drain K x

/-- {lit}`on_udp`. -/
def onUdp (K : Link κ δ π) (g : Gateway κ π) (raw : δ) (now : Nat) : Gateway κ π :=
  match (K.getconv raw).bind g.sessions.get with
  | none => g
  | some x =>
      match (g.session x).kcp with
      | some k => g.input K x k raw now
      | none =>
          match (g.session x).state with
          | .waitAuth | .waitReady | .reconnectWait =>
              g.input K x ⟨K.create (g.session x).conv, []⟩ raw now
          | .active | .closed => g

/-- {lit}`battle_ready_ack` after the call, and the rest of {lit}`drain_recv`. -/
def resume (K : Link κ δ π) (g : Gateway κ π) (h : Nat) (x : Handler) (readyOk : Bool) :
    Gateway κ π :=
  let g := { g with handlers := Function.update g.handlers h none }
  if readyOk then g.drain K x.session else (g.freeSession x.session).drain K x.session

/-- The timer for one session. -/
def checkSession (g : Gateway κ π) (x now : Nat) : Gateway κ π :=
  let y := g.session x
  if (y.state = .waitAuth ∨ y.state = .waitReady ∧ y.hasJoined = false) ∧
      now > y.lastActive + preReadyTimeoutMs then g.freeSession x
  else if y.state = .active ∧ now > y.lastActive + readyNoPacketTimeoutMs then
    g.enterReconnectWait x now
  else if (y.state = .reconnectWait ∨ y.state = .waitReady ∧ y.hasJoined = true) ∧
      now > y.reconnectDeadline then g.freeSession x
  else g

/-- The timer loop. -/
def timer (g : Gateway κ π) (o : Pairs) (now : Nat) : Gateway κ π :=
  (o.visit g.sessions.keys).foldl (fun g c =>
    match g.sessions.get c with
    | none => g
    | some x => g.checkSession x now) g

/-- The old session of a player is freed. -/
def freeOld (g : Gateway κ π) (playerid : Nat) : Gateway κ π :=
  match g.players playerid with
  | none => g
  | some old =>
      match (g.player old).session with
      | none => g
      | some x => g.freeSession x

/-- A new session with a new player. -/
def addSession (K : Link κ δ π) (g : Gateway κ π) (room scene playerid now : Nat) :
    Gateway κ π :=
  { g with
    nextConvId := g.nextConvId + 1
    draws := g.draws + 1
    player := Function.update g.player g.nextPlayer
      ⟨playerid, some g.nextSession, K.token g.draws, room, scene⟩
    nextPlayer := g.nextPlayer + 1
    session := Function.update g.session g.nextSession
      ⟨some g.nextPlayer, g.nextConvId, none, .waitAuth, 0, now, false, 0, [], playerid⟩
    nextSession := g.nextSession + 1
    players := Function.update g.players playerid (some g.nextPlayer)
    sessions := g.sessions.set g.nextConvId g.nextSession
    handed := g.nextConvId :: g.handed }

/-- {lit}`batch_alloc`. -/
def batchAlloc (K : Link κ δ π) (g : Gateway κ π) (room scene now : Nat) :
    List Nat → Gateway κ π
  | [] => g
  | p :: ps => ((g.freeOld p).addSession K room scene p now).batchAlloc K room scene now ps

/-- {lit}`free`. -/
def free (g : Gateway κ π) (conv : Nat) : Gateway κ π :=
  match g.sessions.get conv with
  | none => g
  | some x => g.freeSession x

/-- One event. -/
def step (K : Link κ δ π) (g : Gateway κ π) : Event δ → Option (Gateway κ π)
  | .udp raw now => some (g.onUdp K raw now)
  | .resume h readyOk =>
      match g.handlers h with
      | none => none
      | some x => some (g.resume K h x readyOk)
  | .timer o now => some (g.timer o now)
  | .batchAlloc room scene ps now => some (g.batchAlloc K room scene now ps)
  | .free conv => some (g.free conv)

/-- A sequence of events. -/
def run (K : Link κ δ π) (g : Gateway κ π) : List (Event δ) → Option (Gateway κ π)
  | [] => some g
  | e :: es => do
      let g ← g.step K e
      g.run K es

/-- The service with this number when it starts. -/
def start (id : Nat) : Gateway κ π where
  nextConvId := id * 1000000 + 1
  sessions := .empty
  players := fun _ => none
  session := fun _ => ⟨none, 0, none, .closed, 0, 0, false, 0, [], 0⟩
  nextSession := 0
  player := fun _ => ⟨0, none, "", 0, 0⟩
  nextPlayer := 0
  draws := 0
  handlers := fun _ => none
  nextHandler := 0
  handed := []
  forwarded := []

end Gateway

end BallServer.BattleGateway
