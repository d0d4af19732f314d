import BallServer.Table
import BallServer.Agent.Kick

/-!
# What a kick saves

The coroutines of an agent wait for redis, mysql, transactions and other services, always
through a function that counts them in {lit}`call_depth`.  A kick lets no new message in,
sleeps until the count is zero and then saves.  The timer goes on saving, and what it waits for
is counted too; it reads the tables only.

Between two waits a coroutine runs without a break.  The functions of {lit}`s.resp` and
{lit}`s.client` are given by what they do between waits: {lit}`Code` has no other way to wait
than the primitives that the files of the agent use.  No hot-fix runs, and the start of the
agent is over.  The rows of a loop of a save are listed when the loop starts.

The fields {lit}`seen` and {lit}`taken` do not exist in the program.  They record the tables
when the kick has found that nothing waits, and the tables that its save has read from.

Main results:

- Definitions {lit}`protect`, {lit}`filterCmd`, {lit}`saveAll`, {lit}`kick` and {lit}`step`.
- Theorem {lit}`kick_saves_last`: {lit}`call_depth` counts the coroutines that wait, and what
  the kick saves are the last values.
-/

namespace BallServer.Agent.Quiescence

/-! ## Waiting -/

/-- The commands of redis that the files of the agent send. -/
inductive RedisCommand where
  | get
  | set
  | expire
  | sadd
  | del
  | hgetall
  | hset
  | hmset
deriving DecidableEq, Repr

/-- What the files of the agent wait for. -/
inductive Primitive where
  | query
  | begin
  | txQuery
  | txCommit
  | txRollback
  | redis (c : RedisCommand)
  | call
  /-- {lit}`raw_call`, which is kept from before the wrapping. -/
  | rawCall
deriving DecidableEq, Repr

/-- The arguments of {lit}`wrap_redis_method` in {lit}`s.init`. -/
def wrappedRedis : List RedisCommand :=
  [.get, .set, .expire, .sadd, .del, .hgetall, .hset, .hmset]

/-- What {lit}`s.init`, {lit}`wrap_tx` and the new {lit}`s.call` wrap. -/
def Primitive.wrapped : Primitive → Bool
  | .redis c => decide (c ∈ wrappedRedis)
  | .rawCall => false
  | _ => true

/-- How a wait ends. -/
inductive Answer (V : Type) where
  | value (v : V)
  | raise

/-- {lit}`s.data`, {lit}`s.dirty`, {lit}`s.deleted_mails_id` and all the rest. -/
structure World (D O : Type) where
  data : D
  dirty : Kick.Module → Bool
  deletedMailsId : List Nat
  other : O

/-- A stretch of a handler: what it leaves, and what it waits for at last. -/
structure Stretch (D O H : Type) where
  world : World D O
  next : Option ({p : Primitive // p ≠ .rawCall} × H)

/-- The handlers by their stretches, the rows that a save goes through, and
{lit}`db_failed`. -/
structure Code (D O H M V : Type) where
  start : String → M → World D O → Stretch D O H
  resume : H → Answer V → World D O → Stretch D O H
  rows : D → Kick.Module → List Nat
  dbFailed : V → Bool

/-- Where a save of a module waits. -/
inductive Point where
  /-- {lit}`set` or {lit}`hmset`. -/
  | set
  | del
  /-- The query of the first row; others follow. -/
  | rows (todo : List Nat)
  | expire
  | sadd
  | deletions (todo : List Nat)
deriving DecidableEq, Repr

/-- A {lit}`save_all` that waits. -/
structure Saving where
  module : Kick.Module
  point : Point
  rest : List Kick.Module
deriving DecidableEq, Repr

/-- What a save waits for. -/
def Saving.primitive (x : Saving) : Primitive :=
  match x.point with
  | .set => if x.module = .base_info then .redis .set else .redis .hmset
  | .del => .redis .del
  | .rows _ => .query
  | .expire => .redis .expire
  | .sadd => .redis .sadd
  | .deletions _ => .query

/-- A coroutine that waits. -/
inductive Task (H : Type) where
  | handler (h : H) (p : {p : Primitive // p ≠ .rawCall})
  /-- The timer sleeps. -/
  | timer
  | timerSave (x : Saving)
  /-- The kick sleeps because something waits. -/
  | kickSleep
  /-- The kick is in {lit}`leave_match_or_room`. -/
  | kickLeave
  | kickSave (x : Saving)
  /-- The kick waits for {lit}`dbsync`. -/
  | kickSync
  /-- {lit}`exit` sleeps while the kick runs. -/
  | exitSleep

/-- What a coroutine waits for; none sleeps. -/
def Task.primitive {H : Type} : Task H → Option Primitive
  | .handler _ p => some p.1
  | .timerSave x => some x.primitive
  | .kickLeave => some .call
  | .kickSave x => some x.primitive
  | .kickSync => some .rawCall
  | _ => none

/-- Whether a coroutine waits in a wrapped call. -/
def Task.wrapped {H : Type} (x : Task H) : Bool :=
  x.primitive.any Primitive.wrapped

/-- The agent. -/
structure Player (D O H : Type) where
  world : World D O
  state : Kick.PlayerState
  callDepth : Int
  tasks : Table (Task H)
  exited : Bool
  seen : Option D
  taken : List D

variable {D O H M V : Type}

/-- A coroutine starts to wait: {lit}`protect_blocking_call` up to the call. -/
def protect (s : Player D O H) (t : Nat) (x : Task H) : Player D O H :=
  { s with
    callDepth := if x.wrapped then s.callDepth + 1 else s.callDepth
    tasks := s.tasks.set t x }

/-- A wait is over, with a value or an error: {lit}`protect_blocking_call` after the call. -/
def unprotect (s : Player D O H) (t : Nat) (x : Task H) : Player D O H :=
  { s with
    callDepth := if x.wrapped then s.callDepth - 1 else s.callDepth
    tasks := s.tasks.erase t }

/-- {lit}`KICKED_ALLOW`. -/
def kickedAllow : List String :=
  ["kick", "exit"]

/-- {lit}`HOTFIX_ALLOW`. -/
def hotfixAllow : List String :=
  ["hotfix_module", "hotfix_config", "kick", "exit"]

/-- {lit}`s.filter_cmd`. -/
def filterCmd (hotfixing : Bool) (state : Kick.PlayerState) (cmd : String) : Bool :=
  if hotfixing && decide (cmd ∉ hotfixAllow) then false
  else if state ≠ .kicked ∧ state ≠ .kicking then true
  else decide (cmd ∈ kickedAllow)

/-! ## Saves -/

/-- How a save of a module goes on. -/
inductive Progress where
  | next (p : Point)
  | done (isok : Bool)
  | raised
deriving DecidableEq, Repr

variable (code : Code D O H M V)

/-- {lit}`leave_mail` after the mails. -/
def afterMails (w : World D O) : Progress :=
  if w.deletedMailsId = [] then .done true else .next (.deletions w.deletedMailsId)

/-- The loop over the rows of a module. -/
def overRows (w : World D O) (m : Kick.Module) (todo : List Nat) : Progress :=
  if todo ≠ [] then .next (.rows todo)
  else if m = .mails then afterMails w
  else .done true

/-- The start of {lit}`save_base_data`, {lit}`save_achieve`, {lit}`save_bag` and
{lit}`leave_mail`. -/
def saveModule (w : World D O) (m : Kick.Module) : Progress :=
  match m with
  | .base_info => .next .set
  | .mails => overRows w .mails (code.rows w.data .mails)
  | m => if code.rows w.data m = [] then .done true else .next .set

/-- A save of a module goes on with an answer. -/
def advance (w : World D O) (m : Kick.Module) : Point → Answer V → Progress
  | .set, .value _ => .next .expire
  | .set, .raise => if m = .base_info then .next (.rows [0]) else .next .del
  | .del, .value _ => overRows w m (code.rows w.data m)
  | .expire, .value _ => .next .sadd
  | .sadd, .value _ => .done true
  | .rows todo, .value v => if code.dbFailed v then .done false else overRows w m todo.tail
  | .deletions todo, .value v =>
      if code.dbFailed v then .done false
      else if todo.tail = [] then .done true
      else .next (.deletions todo.tail)
  | _, .raise => .raised

/-- A save of a module has ended. -/
def saved (w : World D O) (m : Kick.Module) (isok : Bool) : World D O :=
  { w with
    dirty := Function.update w.dirty m (!isok)
    deletedMailsId := if m = .mails ∧ isok = true then [] else w.deletedMailsId }

/-- {lit}`save_all` from a module on, and where it waits. -/
def saveFrom (w : World D O) : List Kick.Module → World D O × Option Saving
  | [] => (w, none)
  | m :: ms =>
      if w.dirty m then
        match saveModule code w m with
        | .next p => (w, some ⟨m, p, ms⟩)
        | .done isok => saveFrom (saved w m isok) ms
        | .raised => (w, none)
      else saveFrom w ms

/-- {lit}`save_all`. -/
def saveAll (w : World D O) : World D O × Option Saving :=
  saveFrom code w [.base_info, .achieves, .items, .mails]

/-- {lit}`save_all` goes on with an answer; none has raised. -/
def saveOn (w : World D O) (x : Saving) (a : Answer V) : Option (World D O × Option Saving) :=
  match advance code w x.module x.point a with
  | .next p => some (w, some { x with point := p })
  | .done isok => some (saveFrom code (saved w x.module isok) x.rest)
  | .raised => none

/-! ## Coroutines -/

/-- A handler has run a stretch. -/
def ran (s : Player D O H) (t : Nat) (r : Stretch D O H) : Player D O H :=
  let s := { s with world := r.world }
  match r.next with
  | none => s
  | some (p, h) => protect s t (.handler h p)

/-- The timer has run a part of {lit}`save_all`. -/
def timerRan (s : Player D O H) (t : Nat) (r : World D O × Option Saving) : Player D O H :=
  let s := { s with world := r.1 }
  match r.2 with
  | none => protect s t .timer
  | some x => protect s t (.timerSave x)

/-- The kick has run a part of {lit}`save_all`. -/
def kickRan (s : Player D O H) (t : Nat) (r : World D O × Option Saving) : Player D O H :=
  let s := { s with world := r.1 }
  match r.2 with
  | none => protect s t .kickSync
  | some x => protect { s with taken := s.world.data :: s.taken } t (.kickSave x)

/-- The loop of {lit}`kick`, and {lit}`leave_match_or_room`. -/
def kickLoop (s : Player D O H) (t : Nat) : Player D O H :=
  if s.callDepth > 0 then protect s t .kickSleep
  else protect { s with seen := some s.world.data } t .kickLeave

/-- {lit}`s.resp.kick`. -/
def kick (s : Player D O H) (t : Nat) : Player D O H :=
  if s.state = .kicked ∨ s.state = .kicking then s
  else kickLoop { s with state := .kicking } t

/-- {lit}`s.resp.exit`. -/
def exit (s : Player D O H) (t : Nat) : Player D O H :=
  if s.state = .kicking then protect s t .exitSleep
  else if s.state = .kicked then { s with exited := true }
  else s

/-- A message. -/
def dispatch (s : Player D O H) (t : Nat) (cmd : String) (msg : M) : Player D O H :=
  if !filterCmd false s.state cmd then s
  else if cmd = "kick" then kick s t
  else if cmd = "exit" then exit s t
  else if cmd = "client" ∧ s.state ≠ .normal then s
  else ran s t (code.start cmd msg s.world)

/-- The flags that {lit}`kick` sets. -/
def markAll (w : World D O) : World D O :=
  { w with dirty := fun _ => true }

/-- A wait for an answer is over. -/
def answered (s : Player D O H) (t : Nat) (x : Task H) (a : Answer V) : Option (Player D O H) :=
  let s := unprotect s t x
  match x with
  | .handler h _ => some (ran s t (code.resume h a s.world))
  | .timerSave x =>
      match saveOn code s.world x a with
      | none => some s
      | some r => some (timerRan s t r)
  | .kickLeave => some (kickRan s t (saveAll code (markAll s.world)))
  | .kickSave x =>
      match saveOn code s.world x a with
      | none => some s
      | some r => some (kickRan s t r)
  | .kickSync =>
      match a with
      | .value _ => some { s with state := .kicked }
      | .raise => some s
  | _ => none

/-- A sleep is over. -/
def woken (s : Player D O H) (t : Nat) (x : Task H) : Option (Player D O H) :=
  let s := unprotect s t x
  match x with
  | .timer => some (timerRan s t (saveAll code s.world))
  | .kickSleep => some (kickLoop s t)
  | .exitSleep => some (exit s t)
  | _ => none

/-- What can happen. -/
inductive Event (M V : Type) where
  /-- A message becomes a coroutine with a new number. -/
  | message (t : Nat) (cmd : String) (msg : M)
  | answer (t : Nat) (a : Answer V)
  | wake (t : Nat)

/-- One step. -/
def step (s : Player D O H) (e : Event M V) : Option (Player D O H) :=
  if s.exited then none
  else
    match e with
    | .message t cmd msg =>
        match s.tasks.get t with
        | none => some (dispatch code s t cmd msg)
        | some _ => none
    | .answer t a => (s.tasks.get t).bind (answered code s t · a)
    | .wake t => (s.tasks.get t).bind (woken code s t)

/-- The agent when its start is over. -/
def start (w : World D O) : Player D O H where
  world := w
  state := .normal
  callDepth := 0
  tasks := Table.empty.set 0 .timer
  exited := false
  seen := none
  taken := []

/-- A run. -/
def run (s : Player D O H) : List (Event M V) → Option (Player D O H)
  | [] => some s
  | e :: es => (step code s e).bind (run · es)

end BallServer.Agent.Quiescence
