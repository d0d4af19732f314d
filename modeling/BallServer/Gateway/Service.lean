import Mathlib.Data.List.Basic
import Mathlib.Logic.Function.Basic

/-!
# The gateway

The gateway owns the client sockets.  A socket gets a conn table when it is accepted and
a gateplayer when the login on it is confirmed; the gateplayer outlives the socket, keeps
the messages sent to the player and is bound to a new socket when the client reconnects.

The table {lit}`conns` holds references to conn tables, because a gateplayer refers to
its conn table too.  A handler that waits for the agent manager, or for a timer, is one
constructor of {lit}`Handler`.  What the gateway does to sockets and to other services is
recorded in the order in which it happens.
-/

namespace BallServer.Gate

/-- A packed message. -/
abbrev Buff := List UInt8

/-- {lit}`conn`. -/
structure Conn where
  fd : Nat
  playerid : Option Nat
  loginid : Option Nat
deriving DecidableEq, Repr

/-- {lit}`a_buff`. -/
structure ABuff where
  sendSeq : Nat
  buff : Buff
deriving DecidableEq, Repr

/-- {lit}`gateplayer`. -/
structure GatePlayer where
  playerid : Nat
  agent : Nat
  conn : Option Nat
  token : Nat
  msgcache : List ABuff
  sendSeq : Nat
  disconnectVer : Nat
  loginVersion : Nat
deriving DecidableEq, Repr

/-- Where a handler is suspended. -/
inductive Handler where
  /-- {lit}`sure_agent` that has found no connection, in {lit}`confirm_login`. -/
  | confirmLost (fd playerid : Nat)
  /-- {lit}`sure_agent` that has entered the player, in {lit}`confirm_login`. -/
  | confirm (fd playerid token : Nat)
  /-- The timer that {lit}`disconnect` has started. -/
  | timer (playerid ver loginVersion : Nat)
  /-- {lit}`send` with a full cache or the timer, in {lit}`reqkick`. -/
  | reqkick (playerid loginVersion : Nat)
deriving DecidableEq, Repr

/-- What is written to a socket: a reply to {lit}`reconnect`, a cached message, or a
message of the login service. -/
inductive Packet where
  | reconnect (code : Nat)
  | numbered (m : ABuff)
  | direct (buf : Buff)
deriving DecidableEq, Repr

/-- What the gateway does. -/
inductive Action where
  | write (fd : Nat) (packet : Packet)
  | close (fd : Nat)
  /-- A client message goes to the login service or to the agent. -/
  | toLogin (loginid fd : Nat)
  | toAgent (agent : Nat)
  /-- What {lit}`sure_agent` returns: the token, or {lit}`false`. -/
  | sured (fd playerid : Nat) (token : Option Nat)
  /-- {lit}`disconnect` indexes the missing gateplayer of a player. -/
  | indexNil (playerid : Nat)
deriving DecidableEq, Repr

/-- The service.  A socket is live from its acceptance to its {lit}`socketdriver.close`. -/
structure Gateway where
  closing : Bool
  table : Nat → Conn
  nextTable : Nat
  conns : Nat → Option Nat
  players : Nat → Option GatePlayer
  nextDisconnectVer : Nat
  handlers : Nat → Option Handler
  nextHandler : Nat
  live : Nat → Bool
  out : List Action

/-- What a handler is resumed with: the answer of {lit}`confirm_login`, an error, or the
end of any other wait. -/
inductive Answer where
  | confirmed (ok : Bool)
  | raised
  | done
deriving DecidableEq, Repr

/-- What can happen to the service.  Choices that the program makes at random, the token
of a player and the login service of a connection, come with the event.  The message of
{lit}`send` comes packed; {lit}`none` stands for a {lit}`proto_pack` that raises. -/
inductive Event where
  | connect (fd : Nat)
  | message (fd loginid : Nat)
  | reconnect (fd playerid token : Nat) (lastAck : Int)
  | disconnect (fd : Nat)
  | sendByFd (fd : Nat) (buf : Buff)
  | send (playerid : Nat) (pack : Option Buff)
  | sureAgent (fd playerid agent loginVersion token : Nat)
  | kick (playerid : Nat)
  | shutdown
  | resume (h : Nat) (answer : Answer)
deriving DecidableEq, Repr

namespace Gateway

/-- The service when it starts. -/
def start : Gateway where
  closing := false
  table := fun _ => ⟨0, none, none⟩
  nextTable := 0
  conns := fun _ => none
  players := fun _ => none
  nextDisconnectVer := 0
  handlers := fun _ => none
  nextHandler := 0
  live := fun _ => false
  out := []

/-- Record an action. -/
def emit (g : Gateway) (a : Action) : Gateway :=
  { g with out := g.out ++ [a] }

/-- Suspend a handler, or end it. -/
def setHandler (g : Gateway) (h : Nat) (x : Option Handler) : Gateway :=
  { g with handlers := Function.update g.handlers h x }

/-- Change a conn table in place. -/
def setTable (g : Gateway) (r : Nat) (c : Conn) : Gateway :=
  { g with table := Function.update g.table r c }

/-- Set {lit}`conns[fd]`. -/
def setConn (g : Gateway) (fd : Nat) (r : Option Nat) : Gateway :=
  { g with conns := Function.update g.conns fd r }

/-- Set {lit}`players[playerid]`. -/
def setPlayer (g : Gateway) (p : Nat) (x : Option GatePlayer) : Gateway :=
  { g with players := Function.update g.players p x }

/-- {lit}`socketdriver.close`. -/
def close (g : Gateway) (fd : Nat) : Gateway :=
  { g with
    live := Function.update g.live fd false
    out := g.out ++ [.close fd] }

/-- {lit}`process_connect`. -/
def processConnect (g : Gateway) (fd : Nat) : Gateway :=
  if g.closing then g.close fd
  else
    { g with
      table := Function.update g.table g.nextTable ⟨fd, none, none⟩
      nextTable := g.nextTable + 1
      conns := Function.update g.conns fd (some g.nextTable)
      live := Function.update g.live fd true }

/-- {lit}`process_msg` for a message other than {lit}`reconnect`. -/
def processMsg (g : Gateway) (fd loginid : Nat) : Gateway :=
  match g.conns fd with
  | none => g
  | some r =>
      match (g.table r).playerid with
      | none =>
          let id := (g.table r).loginid.getD loginid
          (g.setTable r { g.table r with loginid := some id }).emit (.toLogin id fd)
      | some p =>
          match g.players p with
          | none => g
          | some x => g.emit (.toAgent x.agent)

/-- {lit}`process_reconnect` binds the socket and writes the cached messages the client
has not acknowledged. -/
def bind (g : Gateway) (fd r p : Nat) (x : GatePlayer) (lastAck : Int) : Gateway :=
  { (g.setPlayer p (some { x with conn := some r })).setTable r
      { g.table r with playerid := some p } with
    out := g.out ++ .write fd (.reconnect 0) ::
      (x.msgcache.filter (fun m => lastAck < m.sendSeq)).map (fun m => .write fd (.numbered m)) }

/-- {lit}`process_reconnect`. -/
def processReconnect (g : Gateway) (fd p token : Nat) (lastAck : Int) : Gateway :=
  match g.conns fd with
  | none => g.emit (.write fd (.reconnect 1))
  | some r =>
      match g.players p with
      | none => g.emit (.write fd (.reconnect 1))
      | some x =>
          if x.conn ≠ none then g.emit (.write fd (.reconnect 1))
          else if (g.table r).playerid ≠ none then g.emit (.write fd (.reconnect 1))
          else if token ≠ x.token then g.emit (.write fd (.reconnect 1))
          else g.bind fd r p x lastAck

/-- {lit}`disconnect`. -/
def disconnect (g : Gateway) (h fd : Nat) : Gateway :=
  match g.conns fd with
  | none => g
  | some r =>
      match (g.table r).playerid with
      | none => (g.setConn fd none).close fd
      | some p =>
          match g.players p with
          | none => g.emit (.indexNil p)
          | some x =>
              let ver := g.nextDisconnectVer + 1
              { ((g.setPlayer p (some { x with conn := none, disconnectVer := ver })).setConn fd
                  none).close fd with
                nextDisconnectVer := ver
                handlers := Function.update g.handlers h (some (.timer p ver x.loginVersion)) }

/-- {lit}`send` with the packed message {lit}`buff`. -/
def sendBuff (g : Gateway) (h p : Nat) (x : GatePlayer) (buff : Buff) : Gateway :=
  let m : ABuff := ⟨x.sendSeq + 1, buff⟩
  let cache := x.msgcache ++ [m]
  match x.conn with
  | none =>
      let g := g.setPlayer p (some { x with sendSeq := x.sendSeq + 1, msgcache := cache })
      if 500 < cache.length then g.setHandler h (some (.reqkick p x.loginVersion)) else g
  | some r =>
      (g.setPlayer p (some { x with
        sendSeq := x.sendSeq + 1
        msgcache := if 500 < cache.length then cache.drop 1 else cache })).emit
          (.write (g.table r).fd (.numbered m))

/-- {lit}`send`.  The number is taken before the message is packed. -/
def send (g : Gateway) (h p : Nat) (pack : Option Buff) : Gateway :=
  match g.players p with
  | none => g
  | some x =>
      match pack with
      | none => g.setPlayer p (some { x with sendSeq := x.sendSeq + 1 })
      | some buff => g.sendBuff h p x buff

/-- {lit}`sure_agent` up to its call. -/
def sureAgent (g : Gateway) (h fd p agent version token : Nat) : Gateway :=
  match g.conns fd with
  | none => g.setHandler h (some (.confirmLost fd p))
  | some r =>
      ((g.setTable r { g.table r with playerid := some p }).setPlayer p
        (some ⟨p, agent, some r, token, [], 0, 0, version⟩)).setHandler h
          (some (.confirm fd p token))

/-- {lit}`kick`. -/
def kick (g : Gateway) (p : Nat) : Gateway :=
  match g.players p with
  | none => g
  | some x =>
      match x.conn with
      | none => g.setPlayer p none
      | some r => ((g.setPlayer p none).setConn (g.table r).fd none).close (g.table r).fd

/-- The function {lit}`disconnect` gives to {lit}`skynet.timeout`. -/
def timeout (g : Gateway) (h p ver version : Nat) : Gateway :=
  match g.players p with
  | none => g.setHandler h none
  | some x =>
      if x.disconnectVer ≠ ver then g.setHandler h none
      else if x.conn = none then g.setHandler h (some (.reqkick p version))
      else g.setHandler h none

/-- The rest of a handler, from the call it waits for to the next one. -/
def resume (g : Gateway) (h : Nat) : Handler → Answer → Option Gateway
  | .confirmLost fd p, .confirmed _ => some ((g.setHandler h none).emit (.sured fd p none))
  | .confirm fd p token, .confirmed true =>
      some ((g.setHandler h none).emit (.sured fd p (some token)))
  | .confirm fd p _, .confirmed false =>
      some (((((g.setHandler h none).setPlayer p none).setConn fd none).close fd).emit
        (.sured fd p none))
  | .timer p ver version, .done => some (g.timeout h p ver version)
  | .reqkick _ _, .done => some (g.setHandler h none)
  | .timer _ _ _, .raised => none
  | _, .raised => some (g.setHandler h none)
  | _, _ => none

/-- One event.  A socket that is accepted has a number that no live socket has. -/
def step (g : Gateway) : Event → Option Gateway
  | .connect fd => if g.live fd then none else some (g.processConnect fd)
  | .message fd loginid => some (g.processMsg fd loginid)
  | .reconnect fd p token lastAck => some (g.processReconnect fd p token lastAck)
  | .disconnect fd =>
      some ({ g with nextHandler := g.nextHandler + 1 }.disconnect g.nextHandler fd)
  | .sendByFd fd buf => some (g.emit (.write fd (.direct buf)))
  | .send p pack => some ({ g with nextHandler := g.nextHandler + 1 }.send g.nextHandler p pack)
  | .sureAgent fd p agent version token =>
      some ({ g with nextHandler := g.nextHandler + 1 }.sureAgent g.nextHandler fd p agent
        version token)
  | .kick p => some (g.kick p)
  | .shutdown => some { g with closing := true }
  | .resume h answer =>
      match g.handlers h with
      | none => none
      | some x => g.resume h x answer

/-- A sequence of events. -/
def run (g : Gateway) : List Event → Option Gateway
  | [] => some g
  | e :: es => do
      let g ← g.step e
      g.run es

@[simp]
theorem run_nil (g : Gateway) : g.run [] = some g :=
  rfl

/-- A run is a step and a run. -/
theorem run_cons {g g' : Gateway} {e : Event} {es : List Event} :
    g.run (e :: es) = some g' ↔ ∃ g₁, g.step e = some g₁ ∧ g₁.run es = some g' := by
  simp only [run, Option.bind_eq_bind, Option.bind_eq_some_iff]

/-! ## The log and the players after an update -/

variable (g : Gateway)

@[simp, grind =]
theorem emit_out (a : Action) : (g.emit a).out = g.out ++ [a] :=
  rfl

@[simp, grind =]
theorem setHandler_out (h : Nat) (x : Option Handler) : (g.setHandler h x).out = g.out :=
  rfl

@[simp, grind =]
theorem setTable_out (r : Nat) (c : Conn) : (g.setTable r c).out = g.out :=
  rfl

@[simp, grind =]
theorem setConn_out (fd : Nat) (r : Option Nat) : (g.setConn fd r).out = g.out :=
  rfl

@[simp, grind =]
theorem setPlayer_out (p : Nat) (x : Option GatePlayer) : (g.setPlayer p x).out = g.out :=
  rfl

@[simp, grind =]
theorem close_out (fd : Nat) : (g.close fd).out = g.out ++ [.close fd] :=
  rfl

/-- After the answer the cached messages that the client has not acknowledged are sent again. -/
@[simp, grind =]
theorem bind_out (fd r p : Nat) (x : GatePlayer) (k : Int) :
    (g.bind fd r p x k).out = g.out ++ .write fd (.reconnect 0) ::
      (x.msgcache.filter (fun m => k < m.sendSeq)).map (fun m => .write fd (.numbered m)) :=
  rfl

/-- A timer sends nothing. -/
@[simp, grind =]
theorem timeout_out (h p ver version : Nat) : (g.timeout h p ver version).out = g.out := by
  unfold timeout
  split
  · rfl
  · split
    · rfl
    · split <;> rfl

@[simp, grind =]
theorem emit_players (a : Action) (p : Nat) : (g.emit a).players p = g.players p :=
  rfl

@[simp, grind =]
theorem setHandler_players (h p : Nat) (x : Option Handler) :
    (g.setHandler h x).players p = g.players p :=
  rfl

@[simp, grind =]
theorem setTable_players (r p : Nat) (c : Conn) : (g.setTable r c).players p = g.players p :=
  rfl

@[simp, grind =]
theorem setConn_players (fd p : Nat) (r : Option Nat) :
    (g.setConn fd r).players p = g.players p :=
  rfl

@[simp, grind =]
theorem setPlayer_players (p q : Nat) (x : Option GatePlayer) :
    (g.setPlayer p x).players q = if q = p then x else g.players q := by
  simp [setPlayer, Function.update_apply]

@[simp, grind =]
theorem close_players (fd p : Nat) : (g.close fd).players p = g.players p :=
  rfl

@[simp, grind =]
theorem timeout_players (h p ver version q : Nat) :
    (g.timeout h p ver version).players q = g.players q := by
  unfold timeout
  split
  · rfl
  · split
    · rfl
    · split <;> rfl

/-- The player has the new connection. -/
@[simp, grind =]
theorem bind_players (fd r p q : Nat) (x : GatePlayer) (k : Int) :
    (g.bind fd r p x k).players q =
      if q = p then some { x with conn := some r } else g.players q := by
  simp [bind, setTable, setPlayer, Function.update_apply]

end Gateway

/-- The states reached by events that meet a condition. -/
inductive Reach (ok : Gateway → Event → Prop) : Gateway → Prop where
  | start : Reach ok .start
  | step {g g' : Gateway} {e : Event} (hr : Reach ok g) (he : ok g e)
      (hs : g.step e = some g') : Reach ok g'

end BallServer.Gate
