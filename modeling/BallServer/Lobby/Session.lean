import BallServer.Lobby.Client
import BallServer.Gateway.Replay

/-!
# A session with the lobby

The gateplayer of one login and its client, with the bytes and the requests on their way
between them.  A connection is named by the count of connections the client has made; the
login comes on connection 0.  The session starts when {lit}`sure_agent` has entered the
gateplayer, and lasts until it is removed.

The fields {lit}`sent` and {lit}`dispatched` do not exist in the programs.  They record
the messages given to {lit}`send` that could be packed, and what the client has dispatched
since the login reply.

Main results:

- Definition {lit}`Session.step`: the gateway, the client and what is between them.
- Theorem {lit}`sendBuff_player`: {lit}`send` of the gateway does to the gateplayer and its
  socket what it does here.
- Theorem {lit}`bind_replay`: so does {lit}`process_reconnect`.
-/

namespace BallServer.Lobby

open BallServer.Gate (Buff ABuff GatePlayer)

/-! ## The gateplayer -/

/-- {lit}`send` numbers and keeps a message. -/
def keep (x : GatePlayer) (buff : Buff) : GatePlayer :=
  let cache := x.msgcache ++ [⟨x.sendSeq + 1, buff⟩]
  { x with
    sendSeq := x.sendSeq + 1
    msgcache := if x.conn ≠ none ∧ 500 < cache.length then cache.drop 1 else cache }

/-- The cached messages {lit}`process_reconnect` sends again. -/
def replay (x : GatePlayer) (lastAck : Int) : List ABuff :=
  x.msgcache.filter fun m => lastAck < m.sendSeq

/-- {lit}`send` of the gateway keeps the message and writes it to the player's socket. -/
theorem sendBuff_player (g : Gate.Gateway) (h p : Nat) (x : GatePlayer) (buff : Buff) :
    (g.sendBuff h p x buff).players p = some (keep x buff) ∧
      (g.sendBuff h p x buff).out = g.out ++
        (x.conn.toList.map fun r => .write (g.table r).fd (.numbered ⟨x.sendSeq + 1, buff⟩)) := by
  cases hc : x.conn with
  | none =>
      simp only [Gate.Gateway.sendBuff, hc, keep]
      split <;> simp
  | some r => simp [Gate.Gateway.sendBuff, hc, keep]

/-- {lit}`process_reconnect` binds the connection and writes what is sent again. -/
theorem bind_replay (g : Gate.Gateway) (fd r p : Nat) (x : GatePlayer) (lastAck : Int) :
    (g.bind fd r p x lastAck).players p = some { x with conn := some r } ∧
      (g.bind fd r p x lastAck).out = g.out ++ .write fd (.reconnect 0) ::
        (replay x lastAck).map fun m => .write fd (.numbered m) :=
  ⟨by simp, rfl⟩

/-! ## Both sides -/

/-- Where {lit}`Update` is: outside, in its loop over the changes of the connection, or in
its loop over the messages. -/
inductive Phase where
  | idle
  | changes
  | messages
deriving DecidableEq, Repr

/-- Both sides, the bytes on each connection and the requests with their
{lit}`last_ack`. -/
structure Session where
  client : Client
  phase : Phase
  player : GatePlayer
  wire : Nat → Buff
  requests : Nat → Option Nat
  replied : Bool
  begun : Bool
  sent : List Msg
  dispatched : List Msg

/-- What can happen. -/
inductive Event where
  /-- {lit}`send` of the gateway. -/
  | send (m : Msg)
  /-- The login service answers a successful {lit}`login_second`. -/
  | loginReply (body : Buff)
  /-- {lit}`send_by_fd` of the login service, for anything else. -/
  | sendByFd (n : Nat) (m : Msg)
  /-- The gateway loses a connection. -/
  | gateDisconnect (n : Nat)
  /-- The gateway handles the request on a connection; connection and token are right. -/
  | gateReconnect (n : Nat) (known : Bool)
  /-- The receive thread reads some bytes. -/
  | receive (count : Nat)
  /-- The receive thread ends; the socket still says it is connected, or not. -/
  | receiveEnd (connected : Bool)
  /-- {lit}`Update` begins. -/
  | update
  /-- {lit}`Update` takes a change of the connection. -/
  | change (connectOk sendOk : Bool)
  /-- {lit}`Update` has taken all changes. -/
  | changed
  /-- {lit}`Update` takes a message. -/
  | dispatch
  /-- {lit}`Update` has taken all messages. -/
  | updated
  /-- The frame goes on with {lit}`ReconnectRoutine`. -/
  | resume (connectOk sendOk deadline : Bool)
deriving DecidableEq, Repr

namespace Session

/-- Bytes are written to a connection. -/
def write (l : Session) (n : Nat) (bytes : Buff) : Session :=
  { l with wire := Function.update l.wire n (l.wire n ++ bytes) }

/-- {lit}`send`.  The number is taken before the message is packed. -/
def send (l : Session) (m : Msg) : Session :=
  match protoPack m with
  | none => { l with player := { l.player with sendSeq := l.player.sendSeq + 1 } }
  | some buff =>
      let l' := { l with player := keep l.player buff, sent := l.sent ++ [m] }
      match l.player.conn with
      | none => l'
      | some n => l'.write n buff

/-- {lit}`process_reconnect`. -/
def gateReconnect (l : Session) (B : Bodies) (n : Nat) (known : Bool) (lastAck : Nat) : Session :=
  let l := { l with requests := Function.update l.requests n none }
  if known = true ∧ l.player.conn = none then
    { l with player := { l.player with conn := some n } }.write n
      (Msg.packet ⟨name "reconnect", B.reconnectRes 0⟩ ++
        (replay l.player lastAck).flatMap ABuff.buff)
  else l.write n (Msg.packet ⟨name "reconnect", B.reconnectRes 1⟩)

/-- The main thread has done something; it may have sent a request on the connection it
has now. -/
def act (l : Session) (r : Client × Option Nat) : Session :=
  match r.2 with
  | none => { l with client := r.1 }
  | some lastAck =>
      { l with
        client := r.1
        requests := Function.update l.requests r.1.connectionEpoch (some lastAck) }

/-- The client dispatches a message. -/
def dispatch (l : Session) (B : Bodies) (m : Msg) (rest : List Msg) : Session :=
  { l with
    client := ({ l.client with msgQueue := rest } : Client).dispatch B m
    begun := l.begun || decide (m.cmd = name "login_second" ∧ B.loginSecond m.body ≠ none)
    dispatched := if l.begun then l.dispatched ++ [m] else l.dispatched }

/-- One event. -/
def step (l : Session) (B : Bodies) : Event → Option Session
  | .send m => some (l.send m)
  | .loginReply body =>
      let m : Msg := ⟨name "login_second", body⟩
      if l.replied = true ∨ B.loginSecond body = none ∨ ¬ m.Fits then none
      else if l.player.conn = some 0 then some ({ l with replied := true }.write 0 m.packet)
      else some { l with replied := true }
  | .sendByFd n m =>
      if l.client.connectionEpoch < n ∨ m.cmd ∉ uncounted ∨ ¬ m.Fits ∨
        (m.cmd = name "login_second" ∧ B.loginSecond m.body ≠ none) then none
      else some (l.write n m.packet)
  | .gateDisconnect n =>
      if l.player.conn = some n then some { l with player := { l.player with conn := none } }
      else some l
  | .gateReconnect n known =>
      match l.requests n with
      | none => none
      | some lastAck => some (l.gateReconnect B n known lastAck)
  | .receive count =>
      let c := l.client
      if c.reading = true ∧ c.isConnected = true ∧ c.running = true ∧ 0 < count ∧
        count ≤ (l.wire c.connectionEpoch).length then
        some { l with
          client := c.receive ((l.wire c.connectionEpoch).take count)
          wire := Function.update l.wire c.connectionEpoch
            ((l.wire c.connectionEpoch).drop count) }
      else none
  | .receiveEnd connected =>
      if l.client.reading then some { l with client := l.client.receiveEnd connected } else none
  | .update => if l.phase = .idle then some { l with phase := .changes } else none
  | .change connectOk sendOk =>
      match l.phase, l.client.connQueue with
      | .changes, connected :: rest =>
          some (l.act (({ l.client with connQueue := rest } : Client).onConnectionChanged connected
            connectOk sendOk))
      | _, _ => none
  | .changed =>
      if l.phase = .changes ∧ l.client.connQueue = [] then some { l with phase := .messages }
      else none
  | .dispatch =>
      match l.phase, l.client.msgQueue with
      | .messages, m :: rest => some (l.dispatch B m rest)
      | _, _ => none
  | .updated =>
      if l.phase = .messages ∧ l.client.msgQueue = [] then some { l with phase := .idle }
      else none
  | .resume connectOk sendOk deadline =>
      if l.phase = .idle then some (l.act (l.client.resume connectOk sendOk deadline)) else none

/-- A sequence of events. -/
def run (l : Session) (B : Bodies) : List Event → Option Session
  | [] => some l
  | e :: es => do
      let l ← l.step B e
      l.run B es

/-- The gateplayer is entered; the client waits for the answer on connection 0. -/
def start : Session where
  client := {
    isLoggedIn := false
    hasToken := false
    lastAck := 0
    reconnectRoutine := none
    awaitingReconnectResponse := false
    reconnectSucceeded := false
    lastDisconnectWasUserInitiated := true
    running := true
    connectionEpoch := 0
    isConnected := true
    reading := true
    accumBuf := []
    msgQueue := []
    connQueue := [] }
  phase := .idle
  player := ⟨0, 0, some 0, 0, [], 0, 0, 0⟩
  wire := fun _ => []
  requests := fun _ => none
  replied := false
  begun := false
  sent := []
  dispatched := []

/-- The states reached by events that meet a condition. -/
inductive Reach (B : Bodies) (ok : Session → Event → Prop) : Session → Prop where
  | start : Reach B ok start
  | step {l l' : Session} {e : Event} (hr : Reach B ok l) (he : ok l e)
      (hs : l.step B e = some l') : Reach B ok l'

/-- The messages that are not answers to {lit}`register`, {lit}`login_first`,
{lit}`login_second` or {lit}`reconnect`. -/
def counted (ms : List Msg) : List Msg :=
  ms.filter fun m => m.cmd ∉ uncounted

/-- The messages of {lit}`send` that the client's handlers have got since the login
reply. -/
def received (l : Session) : List Msg :=
  counted l.dispatched

end Session

end BallServer.Lobby
