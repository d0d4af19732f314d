import Mathlib.Data.List.Basic
import Mathlib.Logic.Function.Basic

/-!
# The agent manager

The agent manager knows who is logged in.  A login asks it for an agent, takes the
place of an older session of the same player and is confirmed by the gateway; a kick
ends a session.  All of these wait for other services in the middle, and the others
run meanwhile.

A handler is modelled by where it is suspended, one constructor of {lit}`Handler` for
each call that waits.  Entries of the table {lit}`players` are references to tables,
since a handler keeps the table it has found in a local variable.

The fields under {lit}`created`, {lit}`saved`, {lit}`handed` and {lit}`due` do not
exist in the program.  They record what the properties of the next modules talk about:
the agents that were made and for whom, whose data has been saved by a kick, the
versions handed out, and the logins whose confirmation has not arrived.
-/

namespace BallServer.AgentMgr

/-- {lit}`STATUS`. -/
inductive Status where
  | login
  | game
  | logout
deriving DecidableEq, Repr

/-- {lit}`mgrplayer`. -/
structure MgrPlayer where
  playerid : Nat
  node : Nat
  gate : Nat
  agent : Option Nat
  status : Status
  loginVersion : Nat
deriving DecidableEq, Repr

/-- Where a handler is suspended. -/
inductive Handler where
  /-- {lit}`reqlogin`, in the kick of the agent of the session it replaces. -/
  | kickOld (playerid node gate old version : Nat)
  /-- {lit}`reqlogin`, in the kick at the gateway of the session it replaces. -/
  | kickGate (playerid node gate old version : Nat)
  /-- {lit}`reqlogin`, while the new agent is created. -/
  | creating (playerid entry version : Nat)
  /-- {lit}`confirm_login` that has failed, in the kick of the agent. -/
  | dropping (playerid entry version : Nat)
  /-- {lit}`reqkick`, in the kick of the agent. -/
  | kicking (playerid entry version : Nat)
  /-- {lit}`shutdown`, asking an agent whether it may be kicked. -/
  | asking (num n playerid entry : Nat)
  /-- {lit}`shutdown`, in its final sleep. -/
  | sleeping
  /-- A {lit}`reqkick` that {lit}`shutdown` has forked and that has not started. -/
  | forked (playerid version : Nat)
deriving DecidableEq, Repr

/-- A kick sent to a gateway on behalf of a login version; the handler that waits for
the answer, if it is a call. -/
structure Kick where
  gate : Nat
  playerid : Nat
  version : Nat
  caller : Option Nat
deriving DecidableEq, Repr

/-- The service. -/
structure Manager where
  versions : Nat → Nat
  entries : Nat → MgrPlayer
  nextEntry : Nat
  players : Nat → Option Nat
  handlers : Nat → Option Handler
  nextHandler : Nat
  nextAgent : Nat
  created : Nat → Option Nat
  saved : Nat → Bool
  handed : Nat → List Nat
  due : List (Nat × Nat)

/-- What the environment answers to a handler that is resumed. -/
inductive Answer where
  /-- A kick has returned or raised, or a sleep is over. -/
  | done
  /-- {lit}`nodemgr` has created an agent, or not. -/
  | agent (ok : Bool)
  /-- Whether the agent may be kicked, and the next player {lit}`pairs` finds in status
  {lit}`GAME`. -/
  | can (ok : Bool) (next : Option Nat)
deriving DecidableEq, Repr

/-- What can happen to the service.  A {lit}`confirm_login` names the version it is sent
for; the program does not see it. -/
inductive Event where
  | reqlogin (playerid node gate : Nat)
  | confirmLogin (playerid version : Nat) (isSucc : Bool)
  | reqkick (playerid version : Nat)
  | shutdown (num : Nat) (next : Option Nat)
  | resume (h : Nat) (answer : Answer)
deriving DecidableEq, Repr

namespace Manager

/-- The service when it starts. -/
def start : Manager where
  versions := fun _ => 0
  entries := fun _ => ⟨0, 0, 0, none, .login, 0⟩
  nextEntry := 0
  players := fun _ => none
  handlers := fun _ => none
  nextHandler := 0
  nextAgent := 0
  created := fun _ => none
  saved := fun _ => false
  handed := fun _ => []
  due := []

/-- Suspend a handler, or end it. -/
def setHandler (m : Manager) (h : Nat) (x : Option Handler) : Manager :=
  { m with handlers := Function.update m.handlers h x }

/-- Change an entry in place. -/
def setEntry (m : Manager) (e : Nat) (x : MgrPlayer) : Manager :=
  { m with entries := Function.update m.entries e x }

/-- Set {lit}`players[playerid]`. -/
def setPlayer (m : Manager) (p : Nat) (e : Option Nat) : Manager :=
  { m with players := Function.update m.players p e }

/-- The kick of an agent has returned or raised. -/
def save (m : Manager) (agent : Option Nat) : Manager :=
  match agent with
  | some a => { m with saved := Function.update m.saved a true }
  | none => m

/-- {lit}`next_login_version`. -/
def nextLoginVersion (m : Manager) (p : Nat) : Manager :=
  { m with
    versions := Function.update m.versions p (m.versions p + 1)
    handed := Function.update m.handed p ((m.versions p + 1) :: m.handed p) }

/-- The middle of {lit}`reqlogin`: a new entry, and the call that creates the agent. -/
def create (m : Manager) (h p node gate version : Nat) : Manager :=
  { m with
    entries := Function.update m.entries m.nextEntry ⟨p, node, gate, none, .login, version⟩
    nextEntry := m.nextEntry + 1
    players := Function.update m.players p (some m.nextEntry)
    handlers := Function.update m.handlers h (some (.creating p m.nextEntry version)) }

/-- {lit}`reqlogin` up to its first call. -/
def reqlogin (m : Manager) (h p node gate : Nat) : Manager :=
  match m.players p with
  | none => (m.nextLoginVersion p).create h p node gate (m.versions p + 1)
  | some e =>
      match (m.entries e).status with
      | .login => m
      | .logout => m
      | .game =>
          ((m.nextLoginVersion p).setEntry e { m.entries e with status := .logout }).setHandler h
            (some (.kickOld p node gate e (m.versions p + 1)))

/-- {lit}`confirm_login` up to its first call. -/
def confirmLogin (m : Manager) (h p version : Nat) (isSucc : Bool) : Manager :=
  let m := { m with due := m.due.erase (p, version) }
  match m.players p with
  | none => m
  | some e =>
      if (m.entries e).status ≠ .login ∨ isSucc = false then
        (m.setPlayer p none).setHandler h (some (.dropping p e version))
      else m.setEntry e { m.entries e with status := .game }

/-- {lit}`reqkick` up to its first call. -/
def reqkick (m : Manager) (h p version : Nat) : Manager :=
  match m.players p with
  | none => m.setHandler h none
  | some e =>
      if (m.entries e).loginVersion ≠ version then m.setHandler h none
      else if (m.entries e).status ≠ .game then m.setHandler h none
      else
        (m.setEntry e { m.entries e with status := .logout }).setHandler h
          (some (.kicking p e version))

/-- The loop of {lit}`shutdown` at the next player that is in the game. -/
def shutdownLoop (m : Manager) (h num n : Nat) (next : Option Nat) : Option Manager :=
  match next with
  | none => some (m.setHandler h (some .sleeping))
  | some p =>
      match m.players p with
      | none => none
      | some e =>
          if (m.entries e).status = .game then
            some (m.setHandler h (some (.asking num n p e)))
          else none

/-- {lit}`shutdown` after an agent has answered. -/
def shutdownNext (m : Manager) (h num n p e : Nat) (ok : Bool) (next : Option Nat) :
    Option Manager :=
  if ok then
    let m := { m with
      handlers := Function.update m.handlers m.nextHandler
        (some (.forked p (m.entries e).loginVersion))
      nextHandler := m.nextHandler + 1 }
    if n + 1 ≥ num then some (m.setHandler h (some .sleeping))
    else m.shutdownLoop h num (n + 1) next
  else m.shutdownLoop h num n next

/-- The rest of a handler, from the call it waits for to the next one. -/
def resume (m : Manager) (h : Nat) : Handler → Answer → Option (Manager × List Kick)
  | .kickOld p node gate old version, .done =>
      some ((m.save (m.entries old).agent).setHandler h
          (some (.kickGate p node gate old version)),
        [⟨(m.entries old).gate, p, (m.entries old).loginVersion, some h⟩])
  | .kickGate p node gate _ version, .done => some (m.create h p node gate version, [])
  | .creating p e version, .agent true =>
      some ({ m with
        entries := Function.update m.entries e { m.entries e with agent := some m.nextAgent }
        nextAgent := m.nextAgent + 1
        created := Function.update m.created m.nextAgent (some p)
        due := (p, version) :: m.due
        handlers := Function.update m.handlers h none }, [])
  | .creating p _ _, .agent false => some ((m.setPlayer p none).setHandler h none, [])
  | .dropping _ e _, .done => some ((m.save (m.entries e).agent).setHandler h none, [])
  | .kicking p e version, .done =>
      some (((m.save (m.entries e).agent).setPlayer p none).setHandler h none,
        [⟨(m.entries e).gate, p, version, none⟩])
  | .asking num n p e, .can ok next => (m.shutdownNext h num n p e ok next).map (·, [])
  | .sleeping, .done => some (m.setHandler h none, [])
  | .forked p version, .done => some (m.reqkick h p version, [])
  | _, _ => none

/-- One event: the service afterwards and the kicks it has sent to gateways. -/
def step (m : Manager) : Event → Option (Manager × List Kick)
  | .reqlogin p node gate =>
      some ({ m with nextHandler := m.nextHandler + 1 }.reqlogin m.nextHandler p node gate, [])
  | .confirmLogin p version isSucc =>
      some ({ m with nextHandler := m.nextHandler + 1 }.confirmLogin m.nextHandler p version
        isSucc, [])
  | .reqkick p version =>
      some ({ m with nextHandler := m.nextHandler + 1 }.reqkick m.nextHandler p version, [])
  | .shutdown num next =>
      ({ m with nextHandler := m.nextHandler + 1 }.shutdownLoop m.nextHandler num 0 next).map
        (·, [])
  | .resume h answer =>
      match m.handlers h with
      | none => none
      | some x => m.resume h x answer

/-- A sequence of events. -/
def run (m : Manager) : List Event → Option Manager
  | [] => some m
  | e :: es => do
      let (m, _) ← m.step e
      m.run es

end Manager

/-- The states reached by events that meet a condition. -/
inductive Reach (ok : Manager → Event → Prop) : Manager → Prop where
  | start : Reach ok .start
  | step {m m' : Manager} {e : Event} {ks : List Kick} (hr : Reach ok m) (he : ok m e)
      (hs : m.step e = some (m', ks)) : Reach ok m'

theorem Reach.of_run {ok : Manager → Event → Prop} {m m' : Manager}
    (hr : Reach ok m) (hok : ∀ m e, ok m e) (es : List Event) (hrun : m.run es = some m') :
    Reach ok m' := by
  induction es generalizing m with
  | nil =>
      obtain rfl := Option.some.inj hrun
      exact hr
  | cons e es ih =>
      simp only [Manager.run, Option.bind_eq_bind, Option.bind_eq_some_iff] at hrun
      obtain ⟨⟨m₁, ks⟩, hs, hrun⟩ := hrun
      exact ih (.step hr (hok m e) hs) hrun

end BallServer.AgentMgr
