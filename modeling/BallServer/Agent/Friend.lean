import Mathlib.Data.List.Basic
import Mathlib.Logic.Function.Basic

/-!
# Friends

A row of {lit}`friend` with status 0 is a request that waits for an answer, one with status
1 is one half of a friendship.  Adding and accepting run in a transaction that locks the two
players and then their rows; deleting and rejecting are single statements.  Every agent has
its own copy of its rows, which it looks at before a request reaches the database and
updates from its own answers and from the messages of other agents.

A transaction keeps what it has written to itself until it commits.  A transaction whose
handler has left it open, after a failed {lit}`COMMIT` or {lit}`ROLLBACK` or when
{lit}`accept_pending_atomic` returns without one, is settled later.

Main results:

- Definition {lit}`Friends.step`: the four requests of all agents, between two answers.
- Definition {lit}`Friends.Steady`: a rejection deletes no friend row.
-/

namespace BallServer.Agent.Friend

/-- A row of {lit}`friend`. -/
structure Row where
  playerid : Nat
  friendid : Nat
  status : Nat
deriving DecidableEq, Repr

/-- The requests of a client. -/
inductive Op where
  | add
  | accept
  | delete
  | reject
deriving DecidableEq, Repr

/-- What a transaction writes. -/
inductive Write where
  /-- {lit}`replace into friend`: both halves. -/
  | accepted
  /-- {lit}`insert ignore into friend`: a request to the target. -/
  | pending
deriving DecidableEq, Repr

/-- What a handler waits for. -/
inductive Stage where
  | beginning
  | lockingFirst
  | lockingSecond
  | readingFirst
  | readingSecond (firstRows : List Row)
  | writing (w : Write)
  | committing (w : Write)
  | rollingBack (err : String)
  | deleting
  /-- The request is over and has left its transaction open. -/
  | abandoned (w : Option Write)
deriving DecidableEq, Repr

/-- A request: whose it is, the players its transaction has locked, and those whose rows it
has read. -/
structure Handler where
  op : Op
  self : Nat
  target : Nat
  stage : Stage
  locks : List Nat
  read : List Nat
deriving DecidableEq, Repr

/-- {lit}`friend_notify`. -/
structure Notify where
  target : Nat
  cmd : Op
  auto : Bool
  playerid : Nat
deriving DecidableEq, Repr

/-- The answer to a client. -/
structure Reply where
  handler : Nat
  code : Nat
  msg : String
deriving DecidableEq, Repr

/-- The table, and the agents with their copies of it. -/
structure Friends where
  rows : List Row
  friends : Nat → Nat → Bool
  pending : Nat → Nat → Bool
  handlers : Nat → Option Handler
  calls : Nat
  messages : List Notify
  replies : List Reply

/-- What can happen. -/
inductive Event where
  | call (op : Op) (self target : Nat)
  /-- A statement succeeds, or it fails or finds no player; the target may be online then. -/
  | answer (h : Nat) (ok online : Bool)
  /-- An open transaction that has no handler any more is committed or rolled back. -/
  | settle (h : Nat) (commit : Bool)
  | deliver (i : Nat)
  /-- {lit}`friend_init` of a new agent. -/
  | load (playerid : Nat)
deriving DecidableEq, Repr

/-- The player that is locked first. -/
def Handler.first (x : Handler) : Nat :=
  if x.target < x.self then x.target else x.self

/-- The player that is locked second. -/
def Handler.second (x : Handler) : Nat :=
  if x.target < x.self then x.self else x.target

/-- The rows of a player. -/
def rowsOf (rows : List Row) (playerid : Nat) : List Row :=
  rows.filter fun r => r.playerid = playerid

/-- The number of rows with a status. -/
def count (rows : List Row) (status : Nat) : Nat :=
  (rows.filter fun r => r.status = status).length

/-- A row for the friend with a status. -/
def hasRow (rows : List Row) (friendid status : Nat) : Bool :=
  rows.any fun r => r.friendid = friendid && r.status = status

/-- {lit}`check_target_capacity`. -/
def checkTargetCapacity (fNum pNum : Nat) : Option String :=
  if 50 ≤ fNum then some "对方好友已满"
  else if 20 ≤ pNum then some "对方申请列表已满"
  else none

/-- {lit}`add_or_accept_atomic` when it has read the rows: what it writes, or why it fails. -/
def decideAdd (self target : Nat) (selfRows targetRows : List Row) : Except String Write :=
  if hasRow selfRows target 1 || hasRow targetRows self 1 then .error "玩家已经是好友"
  else if hasRow selfRows target 0 then
    if 50 ≤ count selfRows 1 then .error "好友已满"
    else if 50 ≤ count targetRows 1 then .error "对方好友已满"
    else .ok .accepted
  else if hasRow targetRows self 0 then .error "已经申请过该玩家"
  else if 50 ≤ count selfRows 1 then .error "数量已达上限,请删除部分好友"
  else
    match checkTargetCapacity (count targetRows 1) (count targetRows 0) with
    | some err => .error err
    | none => .ok .pending

/-- {lit}`accept_pending_atomic` when it has read the rows; without an error it returns and
leaves its transaction open. -/
def decideAccept (self target : Nat) (selfRows targetRows : List Row) :
    Except (Option String) Write :=
  if !hasRow selfRows target 0 then .error (some "数据库不存在申请记录")
  else if hasRow selfRows target 1 || hasRow targetRows self 1 then .error none
  else if 50 ≤ count selfRows 1 then .error (some "好友已满")
  else if 50 ≤ count targetRows 1 then .error (some "对方好友已满")
  else .ok .accepted

/-- Delete the row of a key. -/
def deleteKey (rows : List Row) (playerid friendid : Nat) : List Row :=
  rows.filter fun r => !(r.playerid = playerid && r.friendid = friendid)

/-- {lit}`replace into friend`: one row takes the place of the row of its key. -/
def replaceRow (rows : List Row) (r : Row) : List Row :=
  deleteKey rows r.playerid r.friendid ++ [r]

/-- The table after a transaction has committed. -/
def Write.apply (rows : List Row) (self target : Nat) : Write → List Row
  | .accepted => replaceRow (replaceRow rows ⟨self, target, 1⟩) ⟨target, self, 1⟩
  | .pending => rows ++ [⟨target, self, 0⟩]

/-- The table has a row for the key. -/
def hasKey (rows : List Row) (playerid friendid : Nat) : Bool :=
  rows.any fun r => r.playerid = playerid && r.friendid = friendid

namespace Friends

/-- A handler goes on. -/
def goOn (s : Friends) (h : Nat) (x : Handler) : Friends :=
  { s with handlers := Function.update s.handlers h (some x) }

/-- A handler is over, and its transaction too. -/
def ended (s : Friends) (h : Nat) : Friends :=
  { s with handlers := Function.update s.handlers h none }

/-- The copy of an agent: whether it has a friend. -/
def setFriend (s : Friends) (p q : Nat) (b : Bool) : Friends :=
  { s with friends := Function.update s.friends p (Function.update (s.friends p) q b) }

/-- The copy of an agent: whether it has a request to answer. -/
def setPending (s : Friends) (p q : Nat) (b : Bool) : Friends :=
  { s with pending := Function.update s.pending p (Function.update (s.pending p) q b) }

/-- The answer to the client. -/
def reply (s : Friends) (h code : Nat) (msg : String) : Friends :=
  { s with replies := ⟨h, code, msg⟩ :: s.replies }

/-- {lit}`notify_if_online`. -/
def notify (s : Friends) (x : Handler) (auto online : Bool) : Friends :=
  if online then { s with messages := ⟨x.target, x.op, auto, x.self⟩ :: s.messages } else s

/-- The request goes on after its queries have failed. -/
def fails (s : Friends) (h : Nat) (x : Handler) (err : String) : Friends :=
  match x.op with
  | .add => s.reply h 1 err
  | .accept => ((s.setFriend x.self x.target false).setPending x.self x.target true).reply h 1 err
  | .delete => (s.setFriend x.self x.target true).reply h 1 err
  | .reject => (s.setPending x.self x.target true).reply h 1 err

/-- The request goes on after its transaction has committed. -/
def succeeds (s : Friends) (h : Nat) (x : Handler) (w : Write) (online : Bool) : Friends :=
  match x.op, w with
  | .add, .accepted =>
      (((s.setFriend x.self x.target true).setPending x.self x.target false).notify x true
        online).reply h 0 "添加成功"
  | .add, .pending => (s.notify x false online).reply h 0 "申请成功"
  | _, _ => (s.notify x false online).reply h 0 "接受成功"

/-- A request up to its first query. -/
def call (s : Friends) (h : Nat) (op : Op) (self target : Nat) : Friends :=
  let x : Handler := ⟨op, self, target, .beginning, [], []⟩
  match op with
  | .add =>
      if target = self then s.reply h 1 "不能添加自己"
      else if s.friends self target then s.reply h 1 "已经是好友"
      else s.goOn h x
  | .accept =>
      if !s.pending self target then s.reply h 1 "申请表中不存在该玩家"
      else ((s.setFriend self target true).setPending self target false).goOn h x
  | .delete =>
      if !s.friends self target then s.reply h 1 "不存在该好友"
      else (s.setFriend self target false).goOn h { x with stage := .deleting }
  | .reject =>
      if !s.pending self target then s.reply h 1 "不存在该好友的申请"
      else (s.setPending self target false).goOn h { x with stage := .deleting }

/-- Another transaction has locked a player. -/
def lockedBy (s : Friends) (h playerid : Nat) : Bool :=
  (List.range s.calls).any fun k =>
    k ≠ h && (s.handlers k).any fun x => x.locks.contains playerid

/-- An open transaction has locked the row of a key, which it has read or has written. -/
def rowLocked (s : Friends) (playerid friendid : Nat) : Bool :=
  (List.range s.calls).any fun k => (s.handlers k).any fun x =>
    x.read.contains playerid &&
      (hasKey s.rows playerid friendid ||
        match x.stage with
        | .committing w => hasKey (w.apply s.rows x.self x.target) playerid friendid
        | .abandoned (some w) => hasKey (w.apply s.rows x.self x.target) playerid friendid
        | _ => false)

/-- The rows are read; the handler goes on to its write. -/
def decided (s : Friends) (h : Nat) (x : Handler) (firstRows : List Row) : Friends :=
  let x := { x with read := x.second :: x.read }
  let secondRows := rowsOf s.rows x.second
  let selfRows := if x.first = x.self then firstRows else secondRows
  let targetRows := if x.first = x.self then secondRows else firstRows
  match x.op with
  | .add =>
      match decideAdd x.self x.target selfRows targetRows with
      | .ok w => s.goOn h { x with stage := .writing w }
      | .error err => s.goOn h { x with stage := .rollingBack err }
  | _ =>
      match decideAccept x.self x.target selfRows targetRows with
      | .ok w => s.goOn h { x with stage := .writing w }
      | .error (some err) => s.goOn h { x with stage := .rollingBack err }
      | .error none => (s.goOn h { x with stage := .abandoned none }).fails h x "已经是好友"

/-- The statement of a handler is executed. -/
def executed (s : Friends) (h : Nat) (x : Handler) (online : Bool) : Option Friends :=
  match x.stage with
  | .beginning => some (s.goOn h { x with stage := .lockingFirst })
  | .lockingFirst =>
      if s.lockedBy h x.first then none
      else some (s.goOn h { x with stage := .lockingSecond, locks := x.first :: x.locks })
  | .lockingSecond =>
      if s.lockedBy h x.second then none
      else some (s.goOn h { x with stage := .readingFirst, locks := x.second :: x.locks })
  | .readingFirst =>
      some (s.goOn h { x with
        stage := .readingSecond (rowsOf s.rows x.first)
        read := x.first :: x.read })
  | .readingSecond firstRows => some (s.decided h x firstRows)
  | .writing .accepted => some (s.goOn h { x with stage := .committing .accepted })
  | .writing .pending =>
      if hasKey s.rows x.target x.self then
        some (s.goOn h { x with stage := .rollingBack "已经是好友" })
      else some (s.goOn h { x with stage := .committing .pending })
  | .committing w =>
      some ((({ s with rows := w.apply s.rows x.self x.target } : Friends).ended h).succeeds h x w
        online)
  | .rollingBack err => some ((s.ended h).fails h x err)
  | .deleting =>
      match x.op with
      | .delete =>
          if s.rowLocked x.target x.self || s.rowLocked x.self x.target then none
          else
            let rows := deleteKey (deleteKey s.rows x.target x.self) x.self x.target
            some (((({ s with rows := rows } : Friends).ended h).notify x false online).reply h 0
              "删除成功")
      | _ =>
          if s.rowLocked x.self x.target then none
          else
            some ((({ s with rows := deleteKey s.rows x.self x.target } : Friends).ended h).reply h 0
              "拒绝成功")
  | .abandoned _ => none

/-- The error a failed statement is reported with. -/
def errOf (x : Handler) : String :=
  match x.stage with
  | .beginning => "事务开启失败"
  | .lockingFirst => "查询玩家失败或玩家不存在"
  | .lockingSecond => "玩家不存在"
  | .readingFirst => "查询失败"
  | .readingSecond _ => "查询失败"
  | .writing .accepted => "添加失败"
  | .writing .pending => "添加请求入库失败"
  | .committing _ => "提交失败"
  | .rollingBack err => err
  | .deleting =>
      if x.op = .delete then "从库中删除好友关系失败" else "从库中删除对方的申请记录失败"
  | .abandoned _ => ""

/-- The statement of a handler fails, or finds no player. -/
def failed (s : Friends) (h : Nat) (x : Handler) : Option Friends :=
  match x.stage with
  | .beginning => some ((s.ended h).fails h x (errOf x))
  | .deleting => some ((s.ended h).fails h x (errOf x))
  -- the pool does not know the transaction any more; the handler's {lit}`ROLLBACK` does nothing
  | .committing w =>
      some ((s.goOn h { x with stage := .abandoned (some w) }).fails h x (errOf x))
  | .rollingBack err => some ((s.goOn h { x with stage := .abandoned none }).fails h x err)
  | .abandoned _ => none
  | _ => some (s.goOn h { x with stage := .rollingBack (errOf x) })

/-- {lit}`friend_notify`. -/
def notified (s : Friends) (m : Notify) : Friends :=
  match m.cmd with
  | .add =>
      if m.auto then (s.setFriend m.target m.playerid true).setPending m.target m.playerid false
      else s.setPending m.target m.playerid true
  | .accept => (s.setFriend m.target m.playerid true).setPending m.target m.playerid false
  | .delete => s.setFriend m.target m.playerid false
  | .reject => s

/-- One event. -/
def step (s : Friends) : Event → Option Friends
  | .call op self target =>
      some (({ s with calls := s.calls + 1 } : Friends).call s.calls op self target)
  | .answer h ok online =>
      match s.handlers h with
      | none => none
      | some x => if ok then s.executed h x online else s.failed h x
  | .settle h commit =>
      match s.handlers h with
      | some ⟨_, self, target, .abandoned w, _, _⟩ =>
          match w, commit with
          | some w, true => some (({ s with rows := w.apply s.rows self target } : Friends).ended h)
          | _, _ => some (s.ended h)
      | _ => none
  | .deliver i =>
      match s.messages[i]? with
      | none => none
      | some m => some (({ s with messages := s.messages.eraseIdx i } : Friends).notified m)
  | .load p =>
      some { s with
        friends := Function.update s.friends p fun q => hasRow (rowsOf s.rows p) q 1
        pending := Function.update s.pending p fun q =>
          (rowsOf s.rows p).any fun r => r.friendid = q && r.status ≠ 1 }

/-- The table before the first request; no agent runs. -/
def start (rows : List Row) : Friends where
  rows := rows
  friends := fun _ _ => false
  pending := fun _ _ => false
  handlers := fun _ => none
  calls := 0
  messages := []
  replies := []

/-- The states reached from a table by events that meet a condition. -/
inductive Reach (rows : List Row) (ok : Friends → Event → Prop) : Friends → Prop where
  | start : Reach rows ok (start rows)
  | step {s s' : Friends} {e : Event} (hr : Reach rows ok s) (he : ok s e)
      (hs : s.step e = some s') : Reach rows ok s'

/-- The {lit}`DELETE` of a rejection finds no friend row. -/
def Steady (s : Friends) (e : Event) : Prop :=
  ∀ h x online, e = .answer h true online → s.handlers h = some x → x.op = .reject →
    x.stage = .deleting → ⟨x.self, x.target, 1⟩ ∉ s.rows

end Friends

end BallServer.Agent.Friend
