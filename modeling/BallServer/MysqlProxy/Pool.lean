import Mathlib.Data.List.Basic
import Mathlib.Logic.Function.Basic

/-!
# The pool of database connections

{lit}`mysqlproxy` keeps a fixed number of slots, each with a connection.  A single query
takes a free slot for itself; {lit}`begin` takes one for a transaction, which holds it
until {lit}`commit` or {lit}`rollback`.  A handler waits for the database while its query
runs, while it reconnects after an error, and while no slot is free.

What mysql does with a statement comes with the answer.  A query that raises has lost its
connection, and {lit}`reconnect_slot` closes what is left of it; a transaction that was
open is rolled back.  A statement that fails may have rolled the transaction back, as
after a deadlock.  A connection may also be lost while nobody uses it; the channel below
it connects again with the next request.

The fields {lit}`begun`, {lit}`ended`, {lit}`broken`, {lit}`stmts` and {lit}`commits` do
not exist in the program.  They record the transactions that were begun, those that were
asked to commit or to roll back, those whose database transaction is gone, in which
database transaction each statement that succeeded was executed, and which one each commit
that succeeded has ended.

Main results:

- Definition {lit}`Pool.step`: the handlers between two suspensions, and mysql.
- Definition {lit}`Pool.Alone`: a handle is used by one coroutine at a time.
-/

namespace BallServer.MysqlProxy

/-- {lit}`SLOT_STATE`. -/
inductive SlotState where
  | free
  | normal
  | tx
deriving DecidableEq, Repr

/-- A slot of {lit}`pool`; the connection is a reference. -/
structure Slot where
  state : SlotState
  db : Nat
deriving DecidableEq, Repr

/-- A transaction of mysql. -/
structure DbTx where
  conn : Nat
  id : Nat
deriving DecidableEq, Repr

/-- A request. -/
inductive Job where
  | query (sql : String)
  | begin
  | queryTx (txId : Nat) (sql : String)
  /-- {lit}`commit` or {lit}`rollback`. -/
  | finish (txId : Nat) (commit : Bool)
deriving DecidableEq, Repr

/-- The transaction a request names. -/
def Job.tx : Job → Option Nat
  | .queryTx t _ => some t
  | .finish t _ => some t
  | _ => none

/-- Where a handler waits. -/
inductive Handler where
  /-- {lit}`acquire_slot`, with no slot free. -/
  | asleep (job : Job)
  /-- {lit}`slot.db.query`. -/
  | querying (job : Job) (slot : Nat)
  /-- {lit}`mysql.connect` of {lit}`reconnect_slot`. -/
  | reconnecting (job : Job) (slot : Nat)
deriving DecidableEq, Repr

/-- The request of a handler. -/
def Handler.job : Handler → Job
  | .asleep job => job
  | .querying job _ => job
  | .reconnecting job _ => job

/-- The slot on which a handler works. -/
def Handler.slot : Handler → Option Nat
  | .asleep _ => none
  | .querying _ s => some s
  | .reconnecting _ s => some s

/-- How a query ends: with a result, with an error that may have rolled the open
transaction back, or by raising. -/
inductive Answer where
  | ok
  | error (abort : Bool)
  | raised
deriving DecidableEq, Repr

/-- The service and mysql. -/
structure Pool where
  size : Nat
  pool : Nat → Slot
  rr : Nat
  txSeq : Nat
  txs : Nat → Option Nat
  handlers : Nat → Option Handler
  nextHandler : Nat
  /-- The open transaction of each connection. -/
  opened : Nat → Option DbTx
  nextConn : Nat
  nextDbTx : Nat
  begun : List Nat
  ended : List Nat
  broken : Nat → Bool
  stmts : Nat → List (Option DbTx)
  commits : List (Nat × Option DbTx)

/-- What can happen. -/
inductive Event where
  | call (job : Job)
  /-- The ten milliseconds of {lit}`acquire_slot` are over. -/
  | wake (h : Nat)
  | answer (h : Nat) (a : Answer)
  /-- {lit}`mysql.connect` has connected or not. -/
  | reconnected (h : Nat) (ok : Bool)
  /-- A connection that no request uses is lost. -/
  | lost (conn : Nat)
deriving DecidableEq, Repr

namespace Pool

/-- The service after {lit}`s.init`. -/
def start (size : Nat) : Pool where
  size := size
  pool := fun s => ⟨.free, s⟩
  rr := 0
  txSeq := 0
  txs := fun _ => none
  handlers := fun _ => none
  nextHandler := 0
  opened := fun _ => none
  nextConn := size + 1
  nextDbTx := 0
  begun := []
  ended := []
  broken := fun _ => false
  stmts := fun _ => []
  commits := []

/-- Suspend a handler, or end it. -/
def setHandler (p : Pool) (h : Nat) (x : Option Handler) : Pool :=
  { p with handlers := Function.update p.handlers h x }

/-- Change the state of a slot. -/
def setState (p : Pool) (s : Nat) (x : SlotState) : Pool :=
  { p with pool := Function.update p.pool s { p.pool s with state := x } }

/-- {lit}`release_slot`. -/
def releaseSlot (p : Pool) (s : Nat) : Pool :=
  p.setState s .free

/-- The loop of {lit}`acquire_slot`, at most so many turns. -/
def acquireFrom (p : Pool) (x : SlotState) : Nat → Pool × Option Nat
  | 0 => (p, none)
  | k + 1 =>
      let rr := p.rr % p.size + 1
      if (p.pool rr).state = .free then (({ p with rr := rr } : Pool).setState rr x, some rr)
      else acquireFrom { p with rr := rr } x k

/-- {lit}`acquire_slot` up to its sleep, and what follows up to the query. -/
def acquireSlot (p : Pool) (h : Nat) (job : Job) (x : SlotState) : Pool :=
  match p.acquireFrom x p.size with
  | (p, none) => p.setHandler h (some (.asleep job))
  | (p, some s) => p.setHandler h (some (.querying job s))

/-- The state a request takes a slot in. -/
def wanted : Job → SlotState
  | .query _ => .normal
  | _ => .tx

/-- A request up to its first wait. -/
def call (p : Pool) (h : Nat) : Job → Pool
  | .query sql =>
      if sql = "" then p else p.acquireSlot h (.query sql) .normal
  | .begin => p.acquireSlot h .begin .tx
  | .queryTx t sql =>
      if sql = "" then p
      else
        match p.txs t with
        | none => p
        | some s => p.setHandler h (some (.querying (.queryTx t sql) s))
  | .finish t commit =>
      match p.txs t with
      | none => p
      | some s =>
          ({ p with txs := Function.update p.txs t none, ended := t :: p.ended } : Pool).setHandler h
            (some (.querying (.finish t commit) s))

/-- The request after {lit}`query_on_slot`. -/
def returned (p : Pool) (h s : Nat) (succeeded : Bool) : Job → Pool
  | .query _ => (p.releaseSlot s).setHandler h none
  | .begin =>
      if succeeded then
        ({ p with
          txSeq := p.txSeq + 1
          txs := Function.update p.txs (p.txSeq + 1) (some s)
          begun := (p.txSeq + 1) :: p.begun } : Pool).setHandler h none
      else (p.releaseSlot s).setHandler h none
  | .queryTx _ _ => p.setHandler h none
  | .finish _ _ => (p.releaseSlot s).setHandler h none

/-- The connection has no open transaction any more. -/
def close (p : Pool) (conn : Nat) : Pool :=
  { p with opened := Function.update p.opened conn none }

/-- The database transaction of {lit}`txId` is gone. -/
def breaks (p : Pool) : Job → Pool
  | .queryTx t _ => { p with broken := Function.update p.broken t true }
  | _ => p

/-- Mysql executes the statement of a request. -/
def executed (p : Pool) (conn : Nat) : Job → Pool
  | .query _ => p
  | .begin =>
      { p with
        opened := Function.update p.opened conn (some ⟨conn, p.nextDbTx⟩)
        nextDbTx := p.nextDbTx + 1 }
  | .queryTx t _ => { p with stmts := Function.update p.stmts t (p.opened conn :: p.stmts t) }
  | .finish t commit =>
      if commit then ({ p with commits := (t, p.opened conn) :: p.commits } : Pool).close conn
      else p.close conn

/-- A handler goes on with the answer to its query. -/
def answer (p : Pool) (h s : Nat) (job : Job) : Answer → Pool
  | .ok => (p.executed (p.pool s).db job).returned h s true job
  | .error abort =>
      (if abort then (p.close (p.pool s).db).breaks job else p).returned h s false job
  | .raised => ((p.close (p.pool s).db).breaks job).setHandler h (some (.reconnecting job s))

/-- A connection that no request uses is lost, with the transaction it has open. -/
def lost (p : Pool) (conn : Nat) : Pool :=
  { p.close conn with
    broken := fun t => p.broken t || (p.txs t).any fun s => (p.pool s).db = conn }

/-- The handler works on a slot with the connection. -/
def uses (p : Pool) (conn h : Nat) : Bool :=
  match p.handlers h with
  | none => false
  | some x => x.slot.any fun s => (p.pool s).db = conn

/-- One event. -/
def step (p : Pool) : Event → Option Pool
  | .call job => some ({ p with nextHandler := p.nextHandler + 1 }.call p.nextHandler job)
  | .wake h =>
      match p.handlers h with
      | some (.asleep job) => some (p.acquireSlot h job (wanted job))
      | _ => none
  | .answer h a =>
      match p.handlers h with
      | some (.querying job s) => some (p.answer h s job a)
      | _ => none
  | .reconnected h ok =>
      match p.handlers h with
      | some (.reconnecting job s) =>
          if ok then
            some (({ p with
              pool := Function.update p.pool s { p.pool s with db := p.nextConn }
              nextConn := p.nextConn + 1 } : Pool).returned h s false job)
          else some (p.returned h s false job)
      | _ => none
  | .lost conn =>
      if (List.range p.nextHandler).any (p.uses conn) then none else some (p.lost conn)

/-- A sequence of events. -/
def run (p : Pool) : List Event → Option Pool
  | [] => some p
  | e :: es => do
      let p ← p.step e
      p.run es

/-- The states reached from a start with {lit}`size` connections, by events that meet a
condition. -/
inductive Reach (size : Nat) (ok : Pool → Event → Prop) : Pool → Prop where
  | start : Reach size ok (start size)
  | step {p p' : Pool} {e : Event} (hr : Reach size ok p) (he : ok p e)
      (hs : p.step e = some p') : Reach size ok p'

/-- A handle of a transaction is used by one coroutine at a time. -/
def Alone (p : Pool) : Event → Prop
  | .call job => ∀ t, job.tx = some t → ∀ h x, p.handlers h = some x → x.job.tx ≠ some t
  | _ => True

end Pool

end BallServer.MysqlProxy
