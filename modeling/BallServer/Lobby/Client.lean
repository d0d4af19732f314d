import BallServer.Lobby.Wire

/-!
# The client's connection to the lobby

A receive thread reads from the socket and queues messages; the main thread dispatches
them in {lit}`Update` and counts them.  When the connection is lost the main thread opens
a new one and asks the gateway for what it has not counted.

One pass of {lit}`RecvLoop` is one step of the receive thread.  Whether a connection is
made, a request is written, or a deadline has passed, comes from outside.

Main results:

- Definition {lit}`Client.onConnectionChanged`: {lit}`ReconnectRoutine` starts inside the
  first loop of {lit}`Update`.
- Definition {lit}`Client.dispatch`: the second loop counts the messages.
-/

namespace BallServer.Lobby

open BallServer.Gate (Buff)

/-- The bytes of a command's name. -/
def name (s : String) : Buff :=
  s.toUTF8.data.toList

/-- The commands {lit}`OnRawMessage` does not count. -/
def uncounted : List Buff :=
  [name "login_first", name "login_second", name "register", name "reconnect"]

instance (b : Buff) : Decidable (b ∈ uncounted) :=
  inferInstance

/-- The encoded answers: what the client reads in the body of a successful
{lit}`login_second`, whether there is a token, and the code of {lit}`reconnect`. -/
structure Bodies where
  loginSecond : Buff → Option Bool
  reconnectRes : Nat → Buff
  reconnectCode : Buff → Nat
  reconnect_fits : ∀ code, (⟨name "reconnect", reconnectRes code⟩ : Msg).Fits

/-- Where {lit}`ReconnectRoutine` waits. -/
inductive Routine where
  /-- For {lit}`RetryDelaySeconds`, before it connects. -/
  | retry (attempt : Nat)
  /-- For a connection that was not made, until the deadline. -/
  | connecting (attempt : Nat)
  /-- For the answer. -/
  | await (attempt : Nat)
deriving DecidableEq, Repr

/-- {lit}`ClientSession` and {lit}`NetworkManager`.  The field {lit}`reading` tells whether
the receive thread of the last connection is still in its loop. -/
structure Client where
  isLoggedIn : Bool
  hasToken : Bool
  lastAck : Nat
  reconnectRoutine : Option Routine
  awaitingReconnectResponse : Bool
  reconnectSucceeded : Bool
  lastDisconnectWasUserInitiated : Bool
  running : Bool
  connectionEpoch : Nat
  isConnected : Bool
  reading : Bool
  accumBuf : Buff
  msgQueue : List Msg
  connQueue : List Bool
deriving DecidableEq, Repr

namespace Client

/-- {lit}`CanAttemptReconnect`. -/
def canAttemptReconnect (c : Client) : Bool :=
  c.isLoggedIn && c.hasToken

/-- {lit}`ShouldPreserveStateOnDisconnect`. -/
def shouldPreserveStateOnDisconnect (c : Client) : Bool :=
  c.canAttemptReconnect && !c.lastDisconnectWasUserInitiated

/-- {lit}`Disconnect`. -/
def disconnect (c : Client) (requestedByUser : Bool) : Client :=
  { c with
    running := false
    lastDisconnectWasUserInitiated := requestedByUser
    isConnected := false
    accumBuf := []
    connQueue := c.connQueue ++ [false] }

/-- {lit}`Connect`; the queue of messages stays as it is. -/
def connect (c : Client) (ok : Bool) : Client :=
  let c := if c.isConnected then c.disconnect true else c
  if ok then
    { c with
      isConnected := true
      accumBuf := []
      running := true
      connectionEpoch := c.connectionEpoch + 1
      reading := true
      connQueue := c.connQueue ++ [true] }
  else { c with lastDisconnectWasUserInitiated := false, connQueue := c.connQueue ++ [false] }

/-- {lit}`BeginAuthenticatedSession`. -/
def beginAuthenticatedSession (c : Client) (hasToken : Bool) : Client :=
  { c with isLoggedIn := true, hasToken := hasToken, lastAck := 0, reconnectRoutine := none }

/-- {lit}`EndSession`. -/
def endSession (c : Client) : Client :=
  { c with
    reconnectRoutine := none
    awaitingReconnectResponse := false
    reconnectSucceeded := false
    isLoggedIn := false
    hasToken := false
    lastAck := 0 }

/-- {lit}`ReconnectRoutine`: the head of its loop, for the attempts after the first, up to
the delay, or what follows the loop. -/
def nextAttempt (c : Client) (attempt : Nat) : Client :=
  if 6 < attempt ∨ c.canAttemptReconnect = false then c.endSession.disconnect true
  else { c with reconnectRoutine := some (.retry attempt) }

/-- {lit}`ReconnectRoutine`: an attempt from {lit}`Connect` on, and the {lit}`LastAck` of
the request if one is sent. -/
def tryReconnect (c : Client) (attempt : Nat) (connectOk sendOk : Bool) : Client × Option Nat :=
  let c := c.connect connectOk
  if c.isConnected then
    let c := { c with awaitingReconnectResponse := true, reconnectSucceeded := false }
    if sendOk then ({ c with reconnectRoutine := some (.await attempt) }, some c.lastAck)
    else
      (({ c.disconnect false with awaitingReconnectResponse := false } : Client).nextAttempt
        (attempt + 1), none)
  else ({ c with reconnectRoutine := some (.connecting attempt) }, none)

/-- {lit}`ReconnectRoutine`: what a frame does for it. -/
def resume (c : Client) (connectOk sendOk deadline : Bool) : Client × Option Nat :=
  match c.reconnectRoutine with
  | none => (c, none)
  | some (.retry n) => if deadline then c.tryReconnect n connectOk sendOk else (c, none)
  | some (.connecting n) => if deadline then (c.nextAttempt (n + 1), none) else (c, none)
  | some (.await n) =>
      if c.awaitingReconnectResponse ∧ c.isConnected ∧ deadline = false then (c, none)
      else if c.reconnectSucceeded then ({ c with reconnectRoutine := none }, none)
      else
        let c := { c with awaitingReconnectResponse := false }
        let c := if c.isConnected then c.disconnect false else c
        (c.nextAttempt (n + 1), none)

/-- {lit}`OnConnectionChanged`; {lit}`StartCoroutine` runs the first attempt at once. -/
def onConnectionChanged (c : Client) (connected connectOk sendOk : Bool) :
    Client × Option Nat :=
  if connected = true ∨ c.shouldPreserveStateOnDisconnect = false then (c, none)
  else if c.reconnectRoutine = none then c.tryReconnect 1 connectOk sendOk
  else (c, none)

/-- {lit}`OnRawMessage`. -/
def onRawMessage (c : Client) (m : Msg) : Client :=
  if c.isLoggedIn = true ∧ m.cmd ∉ uncounted then { c with lastAck := c.lastAck + 1 } else c

/-- {lit}`OnReconnectRes`. -/
def onReconnectRes (c : Client) (code : Nat) : Client :=
  if c.awaitingReconnectResponse then
    { c with awaitingReconnectResponse := false, reconnectSucceeded := decide (code = 0) }
  else c

/-- {lit}`OnMessageReceived`: the session counts the message, then its handler runs. -/
def dispatch (c : Client) (B : Bodies) (m : Msg) : Client :=
  let c := c.onRawMessage m
  if m.cmd = name "login_second" then
    match B.loginSecond m.body with
    | some hasToken => c.beginAuthenticatedSession hasToken
    | none => c
  else if m.cmd = name "reconnect" then c.onReconnectRes (B.reconnectCode m.body)
  else c

/-- {lit}`RecvLoop`: a read and {lit}`ProcessAccumBuffer`. -/
def receive (c : Client) (bytes : Buff) : Client :=
  { c with
    accumBuf := (packets.drain (c.accumBuf ++ bytes)).2
    msgQueue := c.msgQueue ++ (packets.drain (c.accumBuf ++ bytes)).1 }

/-- {lit}`RecvLoop`: its end, and whether the socket still says it is connected. -/
def receiveEnd (c : Client) (connected : Bool) : Client :=
  { c with
    reading := false
    isConnected := c.isConnected && connected
    lastDisconnectWasUserInitiated := c.lastDisconnectWasUserInitiated && !c.running
    connQueue := c.connQueue ++ [false] }

end Client

end BallServer.Lobby
