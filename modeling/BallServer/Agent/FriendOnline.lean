import BallServer.Agent.Friend
import BallServer.AgentMgr.Manager

/-!
# Friends of players who come and go

The table {lit}`friend` under agents that start, register with the manager and stop.  An
agent reads its rows before the manager gives it the status {lit}`GAME`, and only an agent
with that status is told what other agents have written.  Every statement succeeds.

The database executes a statement at one moment, and the agent goes on with the answer at a
later one wherever it changes its tables then.  A request keeps the agent of its target that
had read the rows when they were changed: nothing in the code reads it, it says whom the
request still has to tell.

Main results:

- Definition {lit}`Online.step`: requests, notifications, logins and logouts.
- Definition {lit}`Online.Writes`: who is going to write a table of an agent.
- Theorem {lit}`Online.Reach.fresh`: a new request and a new notification have numbers of their
  own.
-/

namespace BallServer.Agent.Friend

open AgentMgr (Status)

/-- The tables of an agent: {lit}`s.data.friends` and {lit}`s.data.friends_pending`. -/
inductive Part where
  | friends
  | pending
deriving DecidableEq, Repr

/-- The status of the rows that a table has. -/
def Part.status : Part → Nat
  | .friends => 1
  | .pending => 0

/-- The row of two players has the status of a table. -/
def has (rows : List Row) (playerid friendid : Nat) (k : Part) : Bool :=
  decide (⟨playerid, friendid, k.status⟩ ∈ rows)

/-- What is written into the tables about one player. -/
abbrev Effect := Part → Option Bool

namespace Effect

/-- Neither table is written. -/
def nothing : Effect := fun _ => none

/-- A friend, and no request any more. -/
def befriend : Effect
  | .friends => some true
  | .pending => some false

/-- A request. -/
def ask : Effect
  | .friends => none
  | .pending => some true

/-- No friend any more. -/
def forget : Effect
  | .friends => some false
  | .pending => none

/-- No request any more. -/
def decline : Effect
  | .friends => none
  | .pending => some false

/-- The request that was to be accepted, again. -/
def restore : Effect
  | .friends => some false
  | .pending => some true

end Effect

/-- The commands of {lit}`friend_notify` that are sent. -/
inductive Cmd where
  | friendAdd
  | friendAdded
  | friendDelete
  | friendAccept
deriving DecidableEq, Repr

/-- {lit}`friend_notify`. -/
def Cmd.effect : Cmd → Effect
  | .friendAdd => .ask
  | .friendAdded => .befriend
  | .friendDelete => .forget
  | .friendAccept => .befriend

/-- What a request writes before it asks the database. -/
def Op.early : Op → Effect
  | .add => .nothing
  | .accept => .befriend
  | .delete => .forget
  | .reject => .decline

/-- What a request waits for. -/
inductive Wait where
  | beginning
  | lockingFirst
  | lockingSecond
  | readingFirst
  | readingSecond (firstRows : List Row)
  | writing (w : Write)
  | committing (w : Write)
  | committed (w : Write)
  | rollingBack
  | rolledBack
  /-- {lit}`accept_pending_atomic` has found a friend and returns without a rollback. -/
  | leaving
  | deleting
  | deleted
  /-- {lit}`get_player`. -/
  | asking (cmd : Cmd)
  /-- The request is over and has left its transaction open. -/
  | abandoned
deriving DecidableEq, Repr

/-- A request of an agent. -/
structure Request where
  op : Op
  agent : Nat
  self : Nat
  target : Nat
  wait : Wait
  locks : List Nat
  read : List Nat
  owes : Option Nat
deriving DecidableEq, Repr

/-- A notification on its way to an agent. -/
structure Note where
  agent : Nat
  cmd : Cmd
  playerid : Nat
deriving DecidableEq, Repr

/-- An entry of the manager. -/
structure Entry where
  agent : Option Nat
  status : Status
deriving DecidableEq, Repr

/-- The table {lit}`friend`, the manager, the players of the agents that take requests, and what
the agents have. -/
structure Online where
  rows : List Row
  players : Nat → Option Entry
  agents : Nat → Option Nat
  copy : Nat → Part → Nat → Bool
  requests : Nat → Option Request
  notes : Nat → Option Note
  clock : Nat

/-- What can happen. -/
inductive Turn where
  | reqlogin (playerid : Nat)
  /-- {lit}`friend_init` of the new agent. -/
  | load (playerid : Nat)
  | confirmLogin (playerid : Nat) (isSucc : Bool)
  | logout (playerid : Nat)
  /-- An agent gets {lit}`kick` and takes no more requests. -/
  | kick (agent : Nat)
  /-- {lit}`kick` has returned. -/
  | kicked (playerid : Nat)
  | call (op : Op) (agent target : Nat)
  /-- The database executes a statement; a player that is to be locked exists or not. -/
  | execute (h : Nat) (found : Bool)
  /-- The agent gets the answer of its last statement. -/
  | resume (h : Nat)
  | getPlayer (h : Nat)
  | deliver (m : Nat)
  /-- An open transaction that has no request any more is rolled back. -/
  | settle (h : Nat)
deriving DecidableEq, Repr

namespace Request

/-- The player that is locked first. -/
def first (x : Request) : Nat :=
  if x.target < x.self then x.target else x.self

/-- The player that is locked second. -/
def second (x : Request) : Nat :=
  if x.target < x.self then x.self else x.target

/-- What a request writes, or has written too early, into the tables of its own agent. -/
def own (x : Request) : Effect :=
  match x.wait with
  | .committed .accepted => if x.op = .add then .befriend else .nothing
  | .committed .pending => .nothing
  | .rolledBack => if x.op = .accept then .restore else .nothing
  | .leaving => if x.op = .accept then .restore else .nothing
  | .deleted => .nothing
  | .asking _ => .nothing
  | .abandoned => .nothing
  | _ => x.op.early

/-- The notification of a transaction. -/
def cmd (x : Request) (w : Write) : Cmd :=
  match x.op, w with
  | .add, .pending => .friendAdd
  | .add, .accepted => .friendAdded
  | _, _ => .friendAccept

/-- What a request has still to tell the agent of its target. -/
def owed (x : Request) : Effect :=
  match x.wait with
  | .committed w => (x.cmd w).effect
  | .deleted => if x.op = .delete then .forget else .nothing
  | .asking cmd => cmd.effect
  | _ => .nothing

/-- The request is over. -/
def Over (x : Request) : Prop :=
  x.wait = .abandoned

instance : DecidablePred Over := fun x => inferInstanceAs (Decidable (x.wait = .abandoned))

end Request

namespace Online

/-- The agent of a player, until it is kicked. -/
def current (s : Online) (playerid : Nat) : Option Nat :=
  match s.players playerid with
  | some ⟨agent, .login⟩ => agent
  | some ⟨agent, .game⟩ => agent
  | _ => none

/-- The entry of a player. -/
def setPlayer (s : Online) (playerid : Nat) (e : Option Entry) : Online :=
  { s with players := Function.update s.players playerid e }

/-- An agent writes its tables. -/
def put (s : Online) (a q : Nat) (e : Effect) : Online :=
  { s with copy := Function.update s.copy a fun k r =>
      if r = q then (e k).getD (s.copy a k r) else s.copy a k r }

/-- A request goes on. -/
def goOn (s : Online) (h : Nat) (x : Request) : Online :=
  { s with requests := Function.update s.requests h (some x) }

/-- A request is over. -/
def ended (s : Online) (h : Nat) : Online :=
  { s with requests := Function.update s.requests h none }

/-- A new request. -/
def start (s : Online) (x : Request) : Online :=
  { s with requests := Function.update s.requests s.clock (some x), clock := s.clock + 1 }

/-- A notification to an agent. -/
def send (s : Online) (n : Note) : Online :=
  { s with notes := Function.update s.notes s.clock (some n), clock := s.clock + 1 }

/-- A request up to its first statement. -/
def call (s : Online) (a : Nat) (op : Op) (self target : Nat) : Online :=
  let x : Request := ⟨op, a, self, target, .beginning, [], [], none⟩
  let begun := s.put a target op.early
  match op with
  | .add => if target = self ∨ s.copy a .friends target then s else begun.start x
  | .accept => if !s.copy a .pending target then s else begun.start x
  | .delete => if !s.copy a .friends target then s else begun.start { x with wait := .deleting }
  | .reject => if !s.copy a .pending target then s else begun.start { x with wait := .deleting }

/-- Another transaction has locked a player. -/
def lockedBy (s : Online) (h playerid : Nat) : Bool :=
  (List.range s.clock).any fun k =>
    k ≠ h && (s.requests k).any fun x => x.locks.contains playerid

/-- An open transaction has locked the row of a key, which it has read or has written. -/
def rowLocked (s : Online) (playerid friendid : Nat) : Bool :=
  (List.range s.clock).any fun k => (s.requests k).any fun x =>
    x.read.contains playerid &&
      (hasKey s.rows playerid friendid ||
        match x.wait with
        | .committing w => hasKey (w.apply s.rows x.self x.target) playerid friendid
        | _ => false)

/-- The rows are read. -/
def decided (s : Online) (x : Request) (firstRows : List Row) : Request :=
  let x := { x with read := x.second :: x.read }
  let secondRows := rowsOf s.rows x.second
  let selfRows := if x.first = x.self then firstRows else secondRows
  let targetRows := if x.first = x.self then secondRows else firstRows
  match x.op with
  | .add =>
      match decideAdd x.self x.target selfRows targetRows with
      | .ok w => { x with wait := .writing w }
      | .error _ => { x with wait := .rollingBack }
  | _ =>
      match decideAccept x.self x.target selfRows targetRows with
      | .ok w => { x with wait := .writing w }
      | .error (some _) => { x with wait := .rollingBack }
      | .error none => { x with wait := .leaving }

/-- A statement that leaves the table as it is. -/
def advance (s : Online) (h : Nat) (x : Request) (found : Bool) : Option Request :=
  match x.wait with
  | .beginning => some { x with wait := .lockingFirst }
  | .lockingFirst =>
      if !found then some { x with wait := .rollingBack }
      else if s.lockedBy h x.first then none
      else some { x with wait := .lockingSecond, locks := x.first :: x.locks }
  | .lockingSecond =>
      if !found then some { x with wait := .rollingBack }
      else if s.lockedBy h x.second then none
      else some { x with wait := .readingFirst, locks := x.second :: x.locks }
  | .readingFirst =>
      some { x with wait := .readingSecond (rowsOf s.rows x.first), read := x.first :: x.read }
  | .readingSecond firstRows => some (s.decided x firstRows)
  | .writing .accepted => some { x with wait := .committing .accepted }
  -- {lit}`insert ignore` has affected no row
  | .writing .pending =>
      if hasKey s.rows x.target x.self then some { x with wait := .rollingBack }
      else some { x with wait := .committing .pending }
  | .rollingBack => some { x with wait := .rolledBack, locks := [], read := [] }
  | _ => none

/-- The table after a statement that changes it. -/
def changed (s : Online) (x : Request) : Option (List Row × Wait) :=
  match x.wait with
  | .committing w => some (w.apply s.rows x.self x.target, .committed w)
  | .deleting =>
      match x.op with
      | .delete =>
          if s.rowLocked x.target x.self || s.rowLocked x.self x.target then none
          else
            some (deleteKey (deleteKey s.rows x.target x.self) x.self x.target, .deleted)
      | _ =>
          if s.rowLocked x.self x.target then none
          else some (deleteKey s.rows x.self x.target, .deleted)
  | _ => none

/-- The database executes the statement of a request. -/
def executed (s : Online) (h : Nat) (x : Request) (found : Bool) : Option Online :=
  match s.changed x with
  | some (rows, wait) =>
      let y := { x with wait := wait, locks := [], read := [], owes := s.current x.target }
      some (({ s with rows := rows } : Online).goOn h y)
  | none => (s.advance h x found).map (s.goOn h)

/-- The agent goes on with the answer. -/
def resumed (s : Online) (h : Nat) (x : Request) : Option Online :=
  let s := s.put x.agent x.target x.own
  match x.wait with
  | .committed w => some (s.goOn h { x with wait := .asking (x.cmd w) })
  | .rolledBack => some (s.ended h)
  | .leaving => some (s.goOn h { x with wait := .abandoned })
  | .deleted =>
      if x.op = .delete then some (s.goOn h { x with wait := .asking .friendDelete })
      else some (s.ended h)
  | _ => none

/-- {lit}`notify_if_online`. -/
def notify (s : Online) (h : Nat) (x : Request) (cmd : Cmd) : Online :=
  match s.players x.target with
  | some ⟨some a, .game⟩ => (s.send ⟨a, cmd, x.self⟩).ended h
  | _ => s.ended h

/-- An agent takes no requests and none of them runs: its {lit}`call_depth` is 0. -/
def idle (s : Online) (a : Nat) : Bool :=
  (s.agents a).isNone &&
    (List.range s.clock).all fun h => (s.requests h).all fun x => x.agent ≠ a || x.Over

/-- One turn. -/
def step (s : Online) : Turn → Option Online
  | .reqlogin p =>
      match s.players p with
      | some _ => none
      | none => some (s.setPlayer p (some ⟨none, .login⟩))
  | .load p =>
      match s.players p with
      | some ⟨none, status⟩ =>
          some (({ s with
            copy := Function.update s.copy s.clock fun
              | .friends, q => hasRow (rowsOf s.rows p) q 1
              | .pending, q => (rowsOf s.rows p).any fun r => r.friendid = q && r.status ≠ 1
            agents := Function.update s.agents s.clock (some p)
            clock := s.clock + 1 } : Online).setPlayer p (some ⟨some s.clock, status⟩))
      | _ => none
  | .confirmLogin p isSucc =>
      match s.players p with
      | some ⟨agent, .login⟩ =>
          some (s.setPlayer p (if isSucc then some ⟨agent, .game⟩ else none))
      | some _ => some (s.setPlayer p none)
      | none => none
  | .logout p =>
      match s.players p with
      | some ⟨agent, .game⟩ => some (s.setPlayer p (some ⟨agent, .logout⟩))
      | _ => none
  | .kick a =>
      match s.agents a with
      | some p =>
          if s.current p = some a then none
          else some { s with agents := Function.update s.agents a none }
      | none => none
  | .kicked p =>
      match s.players p with
      | some ⟨agent, .logout⟩ =>
          if agent.all s.idle then some (s.setPlayer p none) else none
      | _ => none
  | .call op a target =>
      match s.agents a with
      | some self => some (s.call a op self target)
      | none => none
  | .execute h found =>
      match s.requests h with
      | some x => s.executed h x found
      | none => none
  | .resume h =>
      match s.requests h with
      | some x => s.resumed h x
      | none => none
  | .getPlayer h =>
      match s.requests h with
      | some ⟨op, agent, self, target, .asking cmd, locks, read, owes⟩ =>
          some (s.notify h ⟨op, agent, self, target, .asking cmd, locks, read, owes⟩ cmd)
      | _ => none
  | .deliver m =>
      match s.notes m with
      | some n =>
          some (({ s with notes := Function.update s.notes m none } : Online).put n.agent n.playerid
            n.cmd.effect)
      | none => none
  | .settle h =>
      match s.requests h with
      | some x => if x.Over then some (s.ended h) else none
      | none => none

/-- The table before the first login. -/
def init (rows : List Row) : Online where
  rows := rows
  players := fun _ => none
  agents := fun _ => none
  copy := fun _ _ _ => false
  requests := fun _ => none
  notes := fun _ => none
  clock := 0

/-- What is going to write the tables of an agent. -/
inductive Writer where
  | request (h : Nat)
  | note (m : Nat)
deriving DecidableEq, Repr

/-- A request or a notification is going to write a table of a player's agent about another
player. -/
def Writes (s : Online) (p a q : Nat) (k : Part) : Writer → Prop
  | .request h => ∃ x, s.requests h = some x ∧
      (x.agent = a ∧ x.self = p ∧ x.target = q ∧ (x.own k).isSome ∨
        x.owes = some a ∧ x.target = p ∧ x.self = q ∧ (x.owed k).isSome)
  | .note m => ∃ n, s.notes m = some n ∧ n.agent = a ∧ n.playerid = q ∧ (n.cmd.effect k).isSome

/-- Somebody else is going to write it too. -/
def Else (s : Online) (p a q : Nat) (k : Part) (w : Writer) : Prop :=
  ∃ w', w' ≠ w ∧ s.Writes p a q k w'

/-- No request runs and no notification is on its way. -/
def Quiet (s : Online) : Prop :=
  (∀ h x, s.requests h = some x → x.Over) ∧ ∀ m, s.notes m = none

/-- The states reached from a table by turns that meet a condition. -/
inductive Reach (rows : List Row) (ok : Online → Turn → Prop) : Online → Prop where
  | init : Reach rows ok (init rows)
  | step {s s' : Online} {e : Turn} (hr : Reach rows ok s) (he : ok s e)
      (hs : s.step e = some s') : Reach rows ok s'

/-! ## Numbers -/

/-- What has begun has a number. -/
structure Fresh (s : Online) : Prop where
  request : ∀ h, s.clock ≤ h → s.requests h = none
  note : ∀ m, s.clock ≤ m → s.notes m = none

variable {s s' : Online}

/-- A request goes on or is over. -/
theorem Fresh.update (hf : s.Fresh) {h : Nat} {x : Request} (hx : s.requests h = some x)
    (y : Option Request) (hrequests : s'.requests = Function.update s.requests h y)
    (hclock : s'.clock = s.clock) (hnotes : s'.notes = s.notes) : s'.Fresh where
  request := fun h' hh => by
    rw [hclock] at hh
    have hne : h' ≠ h := by
      rintro rfl
      rw [hf.request h' hh] at hx
      cases hx
    rw [hrequests, Function.update_of_ne hne]
    exact hf.request h' hh
  note := fun m hm => by
    rw [hnotes]
    exact hf.note m (hclock ▸ hm)

/-- A new request. -/
theorem Fresh.start (hf : s.Fresh) (a q : Nat) (e : Effect) (x : Request) :
    ((s.put a q e).start x).Fresh where
  request := fun h (hh : s.clock + 1 ≤ h) =>
    (Function.update_of_ne (Nat.ne_of_gt hh) _ _).trans (hf.request h (Nat.le_of_succ_le hh))
  note := fun m hm => hf.note m (Nat.le_of_succ_le hm)

theorem Fresh.call (hf : s.Fresh) (a : Nat) (op : Op) (self target : Nat) :
    (s.call a op self target).Fresh := by
  unfold Online.call
  cases op with
  | add | accept | delete | reject =>
      dsimp only
      split
      · exact hf
      · exact hf.start _ _ _ _

theorem Fresh.executed (hf : s.Fresh) {h : Nat} {x : Request} {found : Bool}
    (hx : s.requests h = some x) (hstep : s.executed h x found = some s') : s'.Fresh := by
  unfold Online.executed at hstep
  split at hstep
  · obtain rfl := Option.some.inj hstep
    exact hf.update hx _ rfl rfl rfl
  · obtain ⟨y, -, rfl⟩ := Option.map_eq_some_iff.mp hstep
    exact hf.update hx _ rfl rfl rfl

theorem Fresh.resumed (hf : s.Fresh) {h : Nat} {x : Request} (hx : s.requests h = some x)
    (hstep : s.resumed h x = some s') : s'.Fresh := by
  unfold Online.resumed at hstep
  dsimp only at hstep
  split at hstep
  · obtain rfl := Option.some.inj hstep
    exact hf.update hx _ rfl rfl rfl
  · obtain rfl := Option.some.inj hstep
    exact hf.update hx _ rfl rfl rfl
  · obtain rfl := Option.some.inj hstep
    exact hf.update hx _ rfl rfl rfl
  · split_ifs at hstep
    · obtain rfl := Option.some.inj hstep
      exact hf.update hx _ rfl rfl rfl
    · obtain rfl := Option.some.inj hstep
      exact hf.update hx _ rfl rfl rfl
  · cases hstep

theorem Fresh.notify (hf : s.Fresh) {h : Nat} {x : Request} (hx : s.requests h = some x)
    (cmd : Cmd) : (s.notify h x cmd).Fresh := by
  unfold Online.notify
  split
  next a _ =>
    have hsent : (s.send ⟨a, cmd, x.self⟩).Fresh :=
      ⟨fun h hh => hf.request h (Nat.le_of_succ_le hh),
        fun m (hm : s.clock + 1 ≤ m) => (Function.update_of_ne (Nat.ne_of_gt hm) _ _).trans
          (hf.note m (Nat.le_of_succ_le hm))⟩
    exact hsent.update hx _ rfl rfl rfl
  next => exact hf.update hx _ rfl rfl rfl

theorem step_fresh {e : Turn} (hf : s.Fresh) (hstep : s.step e = some s') : s'.Fresh := by
  cases e with
  | reqlogin p | logout p =>
      simp only [step] at hstep
      split at hstep
      all_goals cases hstep
      exact ⟨hf.request, hf.note⟩
  | load p =>
      simp only [step] at hstep
      split at hstep
      all_goals cases hstep
      exact ⟨fun h hh => hf.request h (Nat.le_of_succ_le hh),
        fun m hm => hf.note m (Nat.le_of_succ_le hm)⟩
  | confirmLogin p isSucc =>
      simp only [step] at hstep
      split at hstep
      all_goals cases hstep
      · exact ⟨hf.request, hf.note⟩
      · exact ⟨hf.request, hf.note⟩
  | kick a | kicked p =>
      simp only [step] at hstep
      split at hstep
      · split_ifs at hstep
        cases hstep
        exact ⟨hf.request, hf.note⟩
      · cases hstep
  | call op a target =>
      simp only [step] at hstep
      split at hstep
      all_goals cases hstep
      exact hf.call a op _ target
  | execute h found =>
      simp only [step] at hstep
      split at hstep
      next x hx => exact hf.executed hx hstep
      next => cases hstep
  | resume h =>
      simp only [step] at hstep
      split at hstep
      next x hx => exact hf.resumed hx hstep
      next => cases hstep
  | getPlayer h =>
      simp only [step] at hstep
      split at hstep
      next hx =>
        cases hstep
        exact hf.notify hx _
      next => cases hstep
  | deliver m =>
      simp only [step] at hstep
      split at hstep
      next n hn =>
        cases hstep
        refine ⟨hf.request, fun m' hm => ?_⟩
        change Function.update s.notes m none m' = none
        by_cases hne : m' = m
        · rw [hne, Function.update_self]
        · rw [Function.update_of_ne hne]
          exact hf.note m' hm
      next => cases hstep
  | settle h =>
      simp only [step] at hstep
      split at hstep
      next x hx =>
        split_ifs at hstep
        cases hstep
        exact hf.update hx _ rfl rfl rfl
      next => cases hstep

theorem Reach.fresh {rows : List Row} {ok : Online → Turn → Prop} (hr : Reach rows ok s) :
    s.Fresh := by
  induction hr with
  | init => exact ⟨fun _ _ => rfl, fun _ _ => rfl⟩
  | step _ _ hstep ih => exact step_fresh ih hstep

end Online

end BallServer.Agent.Friend
