import Mathlib.Data.List.Basic
import Mathlib.Logic.Function.Basic

/-!
# Writing back from redis to mysql

An agent saves a value in redis, gives it its time to live and puts the player into the
dirty set.  {lit}`dbsync` writes the values of dirty players to mysql: in rounds, which move
the dirty set away first, and for one player when its agent asks.  There is one such set and
one such round for each kind of data, and no kind looks at another.

A value is a list of fields with a row of mysql for each; the base data is one field.  A
command that fails may have been executed.  The field {lit}`owed` does not exist in the
programs.  It records the players that were put into the dirty set and of which no sync has
succeeded since.

Key expiry and the fallback of an agent to mysql are left out.

Main results:

- Definition {lit}`Store.step`: the agents, the round and redis and mysql.
- Definition {lit}`Store.Steady`: no agent's save is cut off after its write.
-/

namespace BallServer.DbSync

/-- How a command ends: as it should, or with an error, executed or not. -/
inductive Answer where
  | ok
  | failed (executed : Bool)
deriving DecidableEq, Repr

/-- The command has been executed. -/
def Answer.Executed : Answer → Bool
  | .ok => true
  | .failed executed => executed

/-- A sync of one player: the value is read, or some fields are still to be written. -/
inductive Sync (F V : Type) where
  | getting
  | updating (rest : List (F × V))
deriving DecidableEq, Repr

/-- What an agent waits for. -/
inductive Agent (F V : Type) where
  | idle
  /-- {lit}`expire` after the write. -/
  | written
  /-- {lit}`sadd` after {lit}`expire`. -/
  | expiring
  /-- {lit}`sync_player`. -/
  | syncing (sync : Sync F V)
deriving DecidableEq, Repr

/-- What the round waits for; {lit}`todo` are the players it has not come to. -/
inductive Round (F V : Type) where
  | idle
  | checking
  | moving
  | reading
  /-- {lit}`del` of a set that was empty. -/
  | emptying
  | syncing (playerid : Nat) (todo : List Nat) (sync : Sync F V)
  | removing (playerid : Nat) (todo : List Nat)
  /-- {lit}`smembers` after the last player. -/
  | remaining
  | adding (playerid : Nat) (todo : List Nat)
  | deleting
deriving DecidableEq, Repr

/-- Redis, mysql, the agents and the round. -/
structure Store (F V : Type) where
  redis : Nat → List (F × V)
  mysql : Nat → F → Option V
  dirty : List Nat
  snapshot : List Nat
  agents : Nat → Agent F V
  round : Round F V
  owed : Nat → Bool

/-- What can happen. -/
inductive Event (F V : Type) where
  /-- {lit}`set` or {lit}`hmset` of a save. -/
  | save (playerid : Nat) (fields : List (F × V))
  | expire (playerid : Nat) (a : Answer)
  | sadd (playerid : Nat) (a : Answer)
  /-- The agent calls {lit}`sync_player`. -/
  | ask (playerid : Nat)
  /-- A command of the sync for the agent is answered. -/
  | answer (playerid : Nat) (a : Answer)
  /-- The five minutes are over. -/
  | tick
  /-- A command of the round is answered. -/
  | round (a : Answer)
deriving DecidableEq, Repr

namespace Store

variable {F V : Type} [DecidableEq F]

/-- {lit}`hmset`: the fields replace those of the same name. -/
def merge (old fields : List (F × V)) : List (F × V) :=
  old.filter (fun x => !fields.any fun y => y.1 = x.1) ++ fields

/-- Write a row of mysql. -/
def writeRow (s : Store F V) (p : Nat) (x : F × V) : Store F V :=
  { s with mysql := Function.update s.mysql p (Function.update (s.mysql p) x.1 (some x.2)) }

/-- A query for a row ends. -/
def queryRow (s : Store F V) (p : Nat) (x : F × V) (a : Answer) : Store F V :=
  if a.Executed then s.writeRow p x else s

/-- A sync of the player has succeeded. -/
def synced (s : Store F V) (p : Nat) : Store F V :=
  { s with owed := Function.update s.owed p false }

/-- A command of a sync of a player is answered: how the sync goes on, or its result. -/
def answerSync (s : Store F V) (p : Nat) (sync : Sync F V) (a : Answer) :
    Store F V × (Sync F V ⊕ Bool) :=
  match sync, a with
  | .getting, .ok => (s, if s.redis p = [] then .inr false else .inl (.updating (s.redis p)))
  | .getting, .failed _ => (s, .inr false)
  | .updating [], _ => (s.synced p, .inr true)
  | .updating (x :: rest), a =>
      let s := s.queryRow p x a
      if a = .ok then
        if rest = [] then (s.synced p, .inr true) else (s, .inl (.updating rest))
      else (s, .inr false)

/-- {lit}`sadd` into the dirty set. -/
def addDirty (s : Store F V) (p : Nat) : Store F V :=
  { s with dirty := p :: s.dirty, owed := Function.update s.owed p true }

/-- An agent goes on. -/
def setAgent (s : Store F V) (p : Nat) (x : Agent F V) : Store F V :=
  { s with agents := Function.update s.agents p x }

/-- The round goes on with the next player, or it looks for those that remain. -/
def nextPlayer : List Nat → Round F V
  | [] => .remaining
  | p :: todo => .syncing p todo .getting

/-- The round puts the next player back, or it deletes the snapshot. -/
def nextBack : List Nat → Round F V
  | [] => .deleting
  | p :: todo => .adding p todo

/-- {lit}`rename`: the dirty set becomes the snapshot. -/
def moved (s : Store F V) (a : Answer) : Store F V :=
  if a.Executed then { s with snapshot := s.dirty, dirty := [] } else s

/-- {lit}`del` of the snapshot. -/
def emptied (s : Store F V) (a : Answer) : Store F V :=
  if a.Executed then { s with snapshot := [] } else s

/-- {lit}`srem` of a player from the snapshot. -/
def removed (s : Store F V) (p : Nat) (a : Answer) : Store F V :=
  if a.Executed then { s with snapshot := s.snapshot.filter (· ≠ p) } else s

/-- {lit}`sadd` of a player of the snapshot; putting it back is no new promise. -/
def putBack (s : Store F V) (p : Nat) (a : Answer) : Store F V :=
  if a.Executed then { s with dirty := p :: s.dirty } else s

/-- A command of the round is answered; a command that fails outside of a {lit}`pcall` ends
the round. -/
def answerRound (s : Store F V) (a : Answer) : Option (Store F V) :=
  match s.round with
  | .idle => none
  | .checking =>
      if a = .ok then some { s with round := if s.snapshot = [] then .moving else .reading }
      else some { s with round := .idle }
  | .moving =>
      -- {lit}`rename` fails when there is no dirty set
      if s.dirty = [] then some { s with round := .idle }
      else some { s.moved a with round := if a = .ok then .reading else .idle }
  | .reading =>
      if a = .ok then
        some { s with round := if s.snapshot = [] then .emptying else nextPlayer s.snapshot }
      else some { s with round := .idle }
  | .emptying => some { s.emptied a with round := .idle }
  | .syncing p todo sync =>
      match s.answerSync p sync a with
      | (s, .inl sync) => some { s with round := .syncing p todo sync }
      | (s, .inr true) => some { s with round := .removing p todo }
      | (s, .inr false) => some { s with round := nextPlayer todo }
  | .removing p todo =>
      some { s.removed p a with round := if a = .ok then nextPlayer todo else .idle }
  | .remaining =>
      if a = .ok then some { s with round := nextBack s.snapshot }
      else some { s with round := .idle }
  | .adding p todo =>
      some { s.putBack p a with round := if a = .ok then nextBack todo else .idle }
  | .deleting => some { s.emptied a with round := .idle }

/-- One event. -/
def step (s : Store F V) : Event F V → Option (Store F V)
  | .save p fields =>
      match s.agents p with
      | .idle =>
          if fields = [] ∨ ¬ (fields.map Prod.fst).Nodup then none
          else
            some (({ s with redis := Function.update s.redis p (merge (s.redis p) fields) } :
              Store F V).setAgent p .written)
      | _ => none
  | .expire p a =>
      match s.agents p with
      | .written => some (s.setAgent p (if a = .ok then .expiring else .idle))
      | _ => none
  | .sadd p a =>
      match s.agents p with
      | .expiring => some ((if a.Executed then s.addDirty p else s).setAgent p .idle)
      | _ => none
  | .ask p =>
      match s.agents p with
      | .idle => some (s.setAgent p (.syncing .getting))
      | _ => none
  | .answer p a =>
      match s.agents p with
      | .syncing sync =>
          match s.answerSync p sync a with
          | (s, .inl sync) => some (s.setAgent p (.syncing sync))
          | (s, .inr _) => some (s.setAgent p .idle)
      | _ => none
  | .tick =>
      match s.round with
      | .idle => some { s with round := .checking }
      | _ => none
  | .round a => s.answerRound a

/-- What redis and mysql hold before the first save. -/
def start (redis : Nat → List (F × V)) (mysql : Nat → F → Option V) : Store F V where
  redis := redis
  mysql := mysql
  dirty := []
  snapshot := []
  agents := fun _ => .idle
  round := .idle
  owed := fun _ => false

/-- The rows of mysql are what redis holds. -/
def InSync (s : Store F V) (p : Nat) : Prop :=
  ∀ x ∈ s.redis p, s.mysql p x.1 = some x.2

/-- The states reached from a start in which all players are written back, by events that
meet a condition. -/
inductive Reach (ok : Store F V → Event F V → Prop) : Store F V → Prop where
  | start (redis : Nat → List (F × V)) (mysql : Nat → F → Option V)
      (hkeys : ∀ p, ((redis p).map Prod.fst).Nodup)
      (hsync : ∀ p, (start redis mysql).InSync p) : Reach ok (start redis mysql)
  | step {s s' : Store F V} {e : Event F V} (hr : Reach ok s) (he : ok s e)
      (hs : s.step e = some s') : Reach ok s'

/-- No save is cut off between its write and the dirty set. -/
def Steady (_ : Store F V) : Event F V → Prop
  | .expire _ a => a = .ok
  | .sadd _ a => a.Executed = true
  | _ => True

/-- A player that was put into the dirty set is in it or in the snapshot. -/
def Kept (s : Store F V) : Prop :=
  ∀ p, s.owed p = true → p ∈ s.dirty ∨ p ∈ s.snapshot

/-- The agent is between its write and the dirty set. -/
def Between (s : Store F V) (p : Nat) : Prop :=
  s.agents p = .written ∨ s.agents p = .expiring

/-- A player whose value has not been written back is known to be dirty, or will be. -/
def NoneLost (s : Store F V) : Prop :=
  ∀ p, ¬ s.InSync p → p ∈ s.dirty ∨ p ∈ s.snapshot ∨ s.Between p

end Store

end BallServer.DbSync
