import BallServer.Agent.Friend
import BallServer.MysqlProxy.Pool

/-!
# The exits of a transaction

{lit}`add_or_accept_atomic`, {lit}`accept_pending_atomic` and {lit}`storage_mail` begin a
transaction and have to end it by hand on each of their ways out.  A call is run alone, from
its {lit}`begin` to its return.  Statements are numbered in the order in which they are
issued, and which of them fail is given beforehand.

The field {lit}`log` does not exist in the programs.  It records the transactions that were
begun and the requests to end one, with their results.

Main results:

- Definitions {lit}`addOrAcceptAtomic`, {lit}`acceptPendingAtomic` and {lit}`storageMail`.
- Theorem {lit}`Open.fail`: an exit through {lit}`rollback` ends the transaction.
- Theorem {lit}`tx_ended_iff`: one exit of {lit}`accept_pending_atomic` does not.
-/

namespace BallServer.Agent.TxExits

open Friend (Row Write rowsOf hasRow hasKey decideAdd decideAccept)
open MysqlProxy (SlotState)

/-- A row of {lit}`mail`. -/
structure Mail where
  mailId : Nat
  playerid : Nat
  senderId : Nat
  title : String
  content : String
  expireTime : Option Nat
deriving DecidableEq, Repr

/-- A row of {lit}`mail_attachment`. -/
structure Attachment where
  id : Nat
  mailId : Nat
  itemId : Int
  cnt : Int
deriving DecidableEq, Repr

/-- The tables. -/
structure Tables where
  players : List Nat
  friend : List Row
  mails : List Mail
  attachments : List Attachment
  nextMail : Nat
  nextAttachment : Nat
deriving DecidableEq, Repr

/-- What comes back with {lit}`false`: a text, the answer of the {lit}`START TRANSACTION` that
has failed, or nothing. -/
inductive Failure where
  | text (err : String)
  | answer
  | nothing
deriving DecidableEq, Repr

/-- An entry of the log. -/
inductive Entry where
  | begun (txId : Nat)
  | ended (txId : Nat) (commit ok : Bool)
deriving DecidableEq, Repr

/-- The pool of {lit}`mysqlproxy`, and the tables with what the open transaction makes of
them. -/
structure World where
  size : Nat
  pool : Nat → SlotState
  rr : Nat
  txSeq : Nat
  txs : Nat → Option Nat
  tables : Tables
  staged : Tables
  issued : Nat
  log : List Entry

namespace World

variable (fails : Nat → Bool) (w : World)

/-! ## The proxy -/

/-- {lit}`acquire_slot`, at most so many turns. -/
def acquireFrom (w : World) (state : SlotState) : Nat → Option (World × Nat)
  | 0 => none
  | k + 1 =>
      let rr := w.rr % w.size + 1
      if w.pool rr = .free then
        some ({ w with rr := rr, pool := Function.update w.pool rr state }, rr)
      else acquireFrom { w with rr := rr } state k

/-- {lit}`query_on_slot`: whether the next statement succeeds. -/
def queryOnSlot : World × Bool :=
  ({ w with issued := w.issued + 1 }, !fails w.issued)

/-- {lit}`release_slot`. -/
def releaseSlot (slot : Nat) : World :=
  { w with pool := Function.update w.pool slot .free }

/-- {lit}`begin`.  A call that finds no free slot waits. -/
def begin : Option (World × Option Nat) :=
  match w.acquireFrom .tx w.size with
  | none => none
  | some (w, slot) =>
      match w.queryOnSlot fails with
      | (w, false) => some (w.releaseSlot slot, none)
      | (w, true) =>
          some ({ w with
            txSeq := w.txSeq + 1
            txs := Function.update w.txs (w.txSeq + 1) (some slot)
            staged := w.tables
            log := w.log ++ [.begun (w.txSeq + 1)] }, some (w.txSeq + 1))

/-- {lit}`query_tx`; a statement that succeeds has read or written the staged tables. -/
def queryTx {α : Type} (txId : Nat) (f : Tables → Tables × α) : World × Option α :=
  match w.txs txId with
  | none => (w, none)
  | some _ =>
      match w.queryOnSlot fails with
      | (w, false) => (w, none)
      | (w, true) => ({ w with staged := (f w.staged).1 }, some (f w.staged).2)

/-- {lit}`finish_tx`.  The transaction is forgotten and its slot is free whether the statement
succeeds or not. -/
def finishTx (txId : Nat) (commit : Bool) : World × Bool :=
  match w.txs txId with
  | none => ({ w with log := w.log ++ [.ended txId commit false] }, false)
  | some slot =>
      match ({ w with txs := Function.update w.txs txId none } : World).queryOnSlot fails with
      | (w, ok) =>
          let w := w.releaseSlot slot
          ({ w with
            tables := if commit && ok then w.staged else w.tables
            log := w.log ++ [.ended txId commit ok] }, ok)

/-- {lit}`tx:rollback()` before a return. -/
def rollback (txId : Nat) : World :=
  (w.finishTx fails txId false).1

/-! ## Statements -/

/-- {lit}`select playerid from role_message where playerid=%s for update`: whether there is a
row. -/
def selectPlayer (txId playerid : Nat) : World × Option Bool :=
  w.queryTx fails txId fun t => (t, t.players.contains playerid)

/-- {lit}`select friendid,status from friend where playerid=%s for update`. -/
def selectFriends (txId playerid : Nat) : World × Option (List Row) :=
  w.queryTx fails txId fun t => (t, rowsOf t.friend playerid)

/-- {lit}`replace into friend`. -/
def replaceFriends (txId self target : Nat) : World × Option Unit :=
  w.queryTx fails txId fun t => ({ t with friend := Write.accepted.apply t.friend self target }, ())

/-- {lit}`insert ignore into friend`: {lit}`affected_rows`. -/
def insertPending (txId self target : Nat) : World × Option Nat :=
  w.queryTx fails txId fun t =>
    if hasKey t.friend target self then (t, 0)
    else ({ t with friend := Write.pending.apply t.friend self target }, 1)

/-- {lit}`insert into mail`: {lit}`insert_id`. -/
def insertMail (txId playerid senderId : Nat) (title content : String) (expireTime : Option Nat) :
    World × Option Nat :=
  w.queryTx fails txId fun t =>
    ({ t with
      mails := t.mails ++ [⟨t.nextMail, playerid, senderId, title, content, expireTime⟩]
      nextMail := t.nextMail + 1 }, t.nextMail)

/-- {lit}`insert into mail_attachment`: {lit}`insert_id`. -/
def insertAttachment (txId mailId : Nat) (itemId cnt : Int) : World × Option Nat :=
  w.queryTx fails txId fun t =>
    ({ t with
      attachments := t.attachments ++ [⟨t.nextAttachment, mailId, itemId, cnt⟩]
      nextAttachment := t.nextAttachment + 1 }, t.nextAttachment)

/-! ## The calls -/

/-- Return with an error after {lit}`tx:rollback()`. -/
def fail {α : Type} (txId : Nat) (err : Failure) : World × Except Failure α :=
  (w.rollback fails txId, .error err)

/-- {lit}`tx:commit()`, and what follows it up to the return. -/
def commit {α : Type} (txId : Nat) (err : Failure) (res : α) : World × Except Failure α :=
  match w.finishTx fails txId true with
  | (w, true) => (w, .ok res)
  | (w, false) => w.fail fails txId err

/-- Both functions on {lit}`friend` up to the rows of the two players, those of {lit}`fromId`
first, or the error they have rolled back with. -/
def lockRows (txId targetId fromId : Nat) : World × Except Failure (List Row × List Row) :=
  let firstId := if targetId < fromId then targetId else fromId
  let secondId := if targetId < fromId then fromId else targetId
  match w.selectPlayer fails txId firstId with
  | (w, none) | (w, some false) => w.fail fails txId (.text "查询玩家失败或玩家不存在")
  | (w, some true) =>
      match w.selectPlayer fails txId secondId with
      | (w, none) | (w, some false) => w.fail fails txId (.text "玩家不存在")
      | (w, some true) =>
          match w.selectFriends fails txId firstId with
          | (w, none) => w.fail fails txId (.text "查询失败")
          | (w, some firstRows) =>
              match w.selectFriends fails txId secondId with
              | (w, none) => w.fail fails txId (.text "查询失败")
              | (w, some secondRows) =>
                  if firstId = fromId then (w, .ok (firstRows, secondRows))
                  else (w, .ok (secondRows, firstRows))

/-- {lit}`add_or_accept_atomic` with the rows. -/
def addRows (txId targetId fromId : Nat) (selfRows targetRows : List Row) :
    World × Except Failure String :=
  match decideAdd fromId targetId selfRows targetRows with
  | .error err => w.fail fails txId (.text err)
  | .ok .accepted =>
      match w.replaceFriends fails txId fromId targetId with
      | (w, none) => w.fail fails txId (.text "添加失败")
      | (w, some ()) => w.commit fails txId (.text "提交失败") "accepted"
  | .ok .pending =>
      match w.insertPending fails txId fromId targetId with
      | (w, none) => w.fail fails txId (.text "添加请求入库失败")
      | (w, some 0) => w.fail fails txId (.text "已经是好友")
      | (w, some _) => w.commit fails txId (.text "提交失败") "pending"

/-- {lit}`add_or_accept_atomic`. -/
def addOrAcceptAtomic (targetId fromId : Nat) : Option (World × Except Failure String) :=
  match w.begin fails with
  | none => none
  | some (w, none) => some (w, .error .answer)
  | some (w, some txId) =>
      match w.lockRows fails txId targetId fromId with
      | (w, .error err) => some (w, .error err)
      | (w, .ok (selfRows, targetRows)) =>
          some (w.addRows fails txId targetId fromId selfRows targetRows)

/-- {lit}`accept_pending_atomic` with the rows.  The exit for players who are friends already
returns at once. -/
def acceptRows (txId targetId fromId : Nat) (selfRows targetRows : List Row) :
    World × Except Failure Unit :=
  match decideAccept fromId targetId selfRows targetRows with
  | .error (some err) => w.fail fails txId (.text err)
  | .error none => (w, .error (.text "已经是好友"))
  | .ok _ =>
      match w.replaceFriends fails txId fromId targetId with
      | (w, none) => w.fail fails txId (.text "添加失败")
      | (w, some ()) => w.commit fails txId (.text "提交失败") ()

/-- {lit}`accept_pending_atomic`. -/
def acceptPendingAtomic (targetId fromId : Nat) : Option (World × Except Failure Unit) :=
  match w.begin fails with
  | none => none
  | some (w, none) => some (w, .error .answer)
  | some (w, some txId) =>
      match w.lockRows fails txId targetId fromId with
      | (w, .error err) => some (w, .error err)
      | (w, .ok (selfRows, targetRows)) =>
          some (w.acceptRows fails txId targetId fromId selfRows targetRows)

/-- The loop of {lit}`storage_mail` over the attachments, each with an item and a count: the
ids of the rows, unless a statement has failed. -/
def insertAttachments (txId mailId : Nat) :
    World → List (Int × Int) → World × Option (List Attachment)
  | w, [] => (w, some [])
  | w, (itemId, cnt) :: as =>
      match w.insertAttachment fails txId mailId itemId cnt with
      | (w, none) => (w, none)
      | (w, some id) =>
          match insertAttachments txId mailId w as with
          | (w, none) => (w, none)
          | (w, some rows) => (w, some (⟨id, mailId, itemId, cnt⟩ :: rows))

/-- {lit}`storage_mail` of the player {lit}`self` at a time. -/
def storageMail (self targetId : Nat) (title content : String) (attachments : List (Int × Int))
    (expireSeconds : Option Int) (now : Nat) :
    Option (World × Except Failure (Mail × List Attachment)) :=
  match w.begin fails with
  | none => none
  | some (w, none) => some (w, .error .answer)
  | some (w, some txId) =>
      let expireTime := (expireSeconds.filter (0 < ·)).map fun n => now + n.toNat
      let senderId := if self = targetId then 0 else self
      match w.insertMail fails txId targetId senderId title content expireTime with
      | (w, none) => some (w.fail fails txId .nothing)
      | (w, some mailId) =>
          match insertAttachments fails txId mailId w attachments with
          | (w, none) => some (w.fail fails txId .nothing)
          | (w, some rows) =>
              some (w.commit fails txId .nothing
                (⟨mailId, targetId, senderId, title, content, expireTime⟩, rows))

/-! ## A transaction from its begin to its end -/

/-- The transaction {lit}`txId` is open on a slot that was free before. -/
structure Open (w w' : World) (txId slot : Nat) : Prop where
  free : w.pool slot = .free
  pool : w'.pool = Function.update w.pool slot .tx
  tx : w'.txs txId = some slot
  log : w'.log = w.log ++ [.begun txId]

/-- The call returns with its transaction ended: all slots are as before it, what it has
begun it has asked to end, and it succeeds only after a {lit}`COMMIT` that did. -/
structure Ended {α : Type} (w : World) (r : World × Except Failure α) : Prop where
  pool : r.1.pool = w.pool
  log : r.1.log = w.log ∨ ∃ txId e es, r.1.log = w.log ++ .begun txId :: e :: es ∧
    ∀ x ∈ e :: es, ∃ c ok, x = .ended txId c ok
  commits : ∀ x, r.2 = .ok x → ∃ txId, r.1.log = w.log ++ [.begun txId, .ended txId true true]

variable {fails w} {w' : World} {txId slot : Nat}

theorem acquireFrom_spec {state : SlotState} {k : Nat} {r : World × Nat}
    (h : w.acquireFrom state k = some r) :
    w.pool r.2 = .free ∧ r.1.pool = Function.update w.pool r.2 state ∧ r.1.txs = w.txs ∧
      r.1.log = w.log := by
  induction k generalizing w with
  | zero => cases h
  | succ k ih =>
      unfold acquireFrom at h
      dsimp only at h
      split at h
      · rename_i hfree
        obtain rfl := Option.some.inj h
        exact ⟨hfree, rfl, rfl, rfl⟩
      · have hrest := ih h
        exact hrest

/-- A {lit}`begin` that fails has given its slot back; otherwise the transaction is open. -/
theorem begin_spec {o : Option Nat} (h : w.begin fails = some (w', o)) :
    match o with
    | none => w'.pool = w.pool ∧ w'.log = w.log
    | some txId => ∃ slot, Open w w' txId slot := by
  unfold begin at h
  split at h
  · cases h
  · rename_i w₁ slot hacquire
    obtain ⟨hfree, hpool, -, hlog⟩ := acquireFrom_spec hacquire
    simp only [queryOnSlot] at h
    cases hfails : fails w₁.issued with
    | true =>
        simp only [hfails, Bool.not_true] at h
        obtain ⟨rfl, rfl⟩ := Prod.mk.inj (Option.some.inj h)
        refine ⟨?_, hlog⟩
        change Function.update w₁.pool slot .free = w.pool
        rw [hpool, Function.update_idem, ← hfree, Function.update_eq_self]
    | false =>
        simp only [hfails, Bool.not_false] at h
        obtain ⟨rfl, rfl⟩ := Prod.mk.inj (Option.some.inj h)
        exact ⟨slot, hfree, hpool, by simp, congrArg (· ++ [.begun (w₁.txSeq + 1)]) hlog⟩

theorem Open.queryTx {w₁ : World} (h : Open w w₁ txId slot) {α : Type}
    (f : Tables → Tables × α) : Open w (w₁.queryTx fails txId f).1 txId slot := by
  unfold World.queryTx
  simp only [h.tx, queryOnSlot]
  cases fails w₁.issued <;> exact ⟨h.free, h.pool, h.tx, h.log⟩

theorem Open.finishTx {w₁ : World} (h : Open w w₁ txId slot) (fails : Nat → Bool) (commit : Bool) :
    (w₁.finishTx fails txId commit).1.pool = w.pool ∧
      (w₁.finishTx fails txId commit).1.txs txId = none ∧
      (w₁.finishTx fails txId commit).1.log = w.log ++
        [.begun txId, .ended txId commit (w₁.finishTx fails txId commit).2] := by
  unfold World.finishTx
  simp only [h.tx, queryOnSlot, releaseSlot]
  refine ⟨?_, by simp, by simp [h.log]⟩
  rw [h.pool, Function.update_idem, ← h.free, Function.update_eq_self]

/-- An exit through {lit}`rollback` ends the transaction. -/
theorem Open.fail {w₁ : World} (h : Open w w₁ txId slot) {α : Type} (err : Failure) :
    Ended w (w₁.fail fails txId err : World × Except Failure α) := by
  obtain ⟨hpool, -, hlog⟩ := h.finishTx fails false
  refine ⟨hpool, .inr ⟨txId, _, [], hlog, ?_⟩, nofun⟩
  intro x hx
  exact ⟨false, _, List.mem_singleton.mp hx⟩

/-- So does an exit through {lit}`commit`; the {lit}`rollback` after one that has failed finds
no transaction. -/
theorem Open.commit {w₁ : World} (h : Open w w₁ txId slot) {α : Type} (err : Failure) (res : α) :
    Ended w (w₁.commit fails txId err res) := by
  obtain ⟨hpool, hgone, hlog⟩ := h.finishTx fails true
  unfold World.commit
  rcases hfinish : w₁.finishTx fails txId true with ⟨w₂, ok⟩
  rw [hfinish] at hpool hgone hlog
  cases ok with
  | true =>
      refine ⟨hpool, .inr ⟨txId, _, [], hlog, ?_⟩, fun x _ => ⟨txId, hlog⟩⟩
      intro x hx
      exact ⟨true, true, List.mem_singleton.mp hx⟩
  | false =>
      have hgone : w₂.txs txId = none := hgone
      have hlog : w₂.log = w.log ++ [.begun txId, .ended txId true false] := hlog
      simp only [World.fail, rollback, World.finishTx, hgone]
      refine ⟨hpool, .inr ⟨txId, .ended txId true false, [.ended txId false false], ?_, ?_⟩, nofun⟩
      · simp [hlog]
      · intro x hx
        simp only [List.mem_cons, List.not_mem_nil, or_false] at hx
        rcases hx with rfl | rfl
        · exact ⟨true, false, rfl⟩
        · exact ⟨false, false, rfl⟩

/-- A statement of an open transaction. -/
theorem Open.queryTx_eq {w₁ : World} (h : Open w w₁ txId slot) {α : Type}
    (f : Tables → Tables × α) :
    w₁.queryTx fails txId f =
      if fails w₁.issued then ({ w₁ with issued := w₁.issued + 1 }, none)
      else ({ w₁ with issued := w₁.issued + 1, staged := (f w₁.staged).1 },
        some (f w₁.staged).2) := by
  unfold World.queryTx
  simp only [h.tx, queryOnSlot]
  cases fails w₁.issued <;> rfl

theorem Open.of_eq {w₁ w₂ : World} (h : Open w w₁ txId slot) (hpool : w₂.pool = w₁.pool)
    (htxs : w₂.txs = w₁.txs) (hlog : w₂.log = w₁.log) : Open w w₂ txId slot :=
  ⟨h.free, hpool.trans h.pool, by rw [htxs, h.tx], hlog.trans h.log⟩

/-! ## The rows of two players -/

/-- The four statements that lock the players and their rows succeed and find both players. -/
structure Locks (fails : Nat → Bool) (t : Tables) (n targetId fromId : Nat) : Prop where
  succeed : ∀ i < 4, fails (n + i) = false
  self : fromId ∈ t.players
  target : targetId ∈ t.players

theorem Locks.first_mem {t : Tables} {n targetId fromId : Nat}
    (h : Locks fails t n targetId fromId) :
    (if targetId < fromId then targetId else fromId) ∈ t.players := by
  split
  · exact h.target
  · exact h.self

theorem Locks.second_mem {t : Tables} {n targetId fromId : Nat}
    (h : Locks fails t n targetId fromId) :
    (if targetId < fromId then fromId else targetId) ∈ t.players := by
  split
  · exact h.self
  · exact h.target

/-- The rows of both players are read in an open transaction, or it is rolled back. -/
theorem Open.lockRows {w₁ : World} (h : Open w w₁ txId slot) (fails : Nat → Bool)
    (targetId fromId : Nat) :
    (∃ w₂, w₁.lockRows fails txId targetId fromId =
        (w₂, .ok (rowsOf w₁.staged.friend fromId, rowsOf w₁.staged.friend targetId)) ∧
      Open w w₂ txId slot ∧ Locks fails w₁.staged w₁.issued targetId fromId) ∨
    ∃ w₂ err, w₁.lockRows fails txId targetId fromId = (w₂, .error err) ∧
      (∀ α : Type, Ended w ((w₂, .error err) : World × Except Failure α)) ∧
      ¬ Locks fails w₁.staged w₁.issued targetId fromId := by
  unfold World.lockRows selectPlayer selectFriends
  dsimp only
  -- the first player
  rw [h.queryTx_eq]
  cases h₀ : fails w₁.issued with
  | true =>
      have hopen : Open w { w₁ with issued := w₁.issued + 1 } txId slot := h.of_eq rfl rfl rfl
      refine .inr ⟨_, _, rfl, fun α => hopen.fail _, fun hl => ?_⟩
      have := hl.succeed 0 (by omega)
      rw [Nat.add_zero, h₀] at this
      cases this
  | false =>
  simp only [Bool.false_eq_true, if_false]
  have hopen₁ : Open w { w₁ with issued := w₁.issued + 1 } txId slot := h.of_eq rfl rfl rfl
  cases hp₁ : w₁.staged.players.contains (if targetId < fromId then targetId else fromId) with
  | false =>
      refine .inr ⟨_, _, rfl, fun α => hopen₁.fail _, fun hl => ?_⟩
      simp [hl.first_mem] at hp₁
  | true =>
  -- the second player
  dsimp only
  rw [hopen₁.queryTx_eq]
  cases h₁ : fails (w₁.issued + 1) with
  | true =>
      have hopen : Open w { w₁ with issued := w₁.issued + 1 + 1 } txId slot := h.of_eq rfl rfl rfl
      simp only [if_true]
      refine .inr ⟨_, _, rfl, fun α => hopen.fail _, fun hl => ?_⟩
      rw [hl.succeed 1 (by omega)] at h₁
      cases h₁
  | false =>
  simp only [Bool.false_eq_true, if_false]
  have hopen₂ : Open w { w₁ with issued := w₁.issued + 1 + 1 } txId slot := h.of_eq rfl rfl rfl
  cases hp₂ : w₁.staged.players.contains (if targetId < fromId then fromId else targetId) with
  | false =>
      refine .inr ⟨_, _, rfl, fun α => hopen₂.fail _, fun hl => ?_⟩
      simp [hl.second_mem] at hp₂
  | true =>
  -- the rows
  dsimp only
  rw [hopen₂.queryTx_eq]
  cases h₂ : fails (w₁.issued + 1 + 1) with
  | true =>
      have hopen : Open w { w₁ with issued := w₁.issued + 1 + 1 + 1 } txId slot :=
        h.of_eq rfl rfl rfl
      simp only [if_true]
      refine .inr ⟨_, _, rfl, fun α => hopen.fail _, fun hl => ?_⟩
      rw [show w₁.issued + 1 + 1 = w₁.issued + 2 from rfl, hl.succeed 2 (by omega)] at h₂
      cases h₂
  | false =>
  simp only [Bool.false_eq_true, if_false]
  have hopen₃ : Open w { w₁ with issued := w₁.issued + 1 + 1 + 1 } txId slot :=
    h.of_eq rfl rfl rfl
  rw [hopen₃.queryTx_eq]
  cases h₃ : fails (w₁.issued + 1 + 1 + 1) with
  | true =>
      have hopen : Open w { w₁ with issued := w₁.issued + 1 + 1 + 1 + 1 } txId slot :=
        h.of_eq rfl rfl rfl
      simp only [if_true]
      refine .inr ⟨_, _, rfl, fun α => hopen.fail _, fun hl => ?_⟩
      rw [show w₁.issued + 1 + 1 + 1 = w₁.issued + 3 from rfl, hl.succeed 3 (by omega)] at h₃
      cases h₃
  | false =>
  simp only [Bool.false_eq_true, if_false]
  have hopen₄ : Open w { w₁ with issued := w₁.issued + 1 + 1 + 1 + 1 } txId slot :=
    h.of_eq rfl rfl rfl
  have hsucceed : ∀ i < 4, fails (w₁.issued + i) = false := by
    intro i hi
    match i, hi with
    | 0, _ => exact h₀
    | 1, _ => exact h₁
    | 2, _ => exact h₂
    | 3, _ => exact h₃
  have hfirst : (if targetId < fromId then targetId else fromId) ∈ w₁.staged.players := by
    simpa using hp₁
  have hsecond : (if targetId < fromId then fromId else targetId) ∈ w₁.staged.players := by
    simpa using hp₂
  by_cases hlt : targetId < fromId
  · rw [if_pos hlt] at hfirst hsecond
    have hne : targetId ≠ fromId := Nat.ne_of_lt hlt
    exact .inl ⟨_, by simp [hlt, hne], hopen₄, hsucceed, hsecond, hfirst⟩
  · rw [if_neg hlt] at hfirst hsecond
    exact .inl ⟨_, by simp [hlt], hopen₄, hsucceed, hfirst, hsecond⟩

/-! ## The three calls -/

theorem ended_of_begin_failed {α : Type} {err : Failure} (hpool : w'.pool = w.pool)
    (hlog : w'.log = w.log) : Ended w ((w', .error err) : World × Except Failure α) :=
  ⟨hpool, .inl hlog, nofun⟩

theorem Open.addRows {w₁ : World} (h : Open w w₁ txId slot) (targetId fromId : Nat)
    (selfRows targetRows : List Row) :
    Ended w (w₁.addRows fails txId targetId fromId selfRows targetRows) := by
  unfold World.addRows
  split
  · exact h.fail _
  · have hreplace : Open w (w₁.replaceFriends fails txId fromId targetId).1 txId slot :=
      h.queryTx _
    split
    · rename_i heq
      rw [heq] at hreplace
      exact hreplace.fail _
    · rename_i heq
      rw [heq] at hreplace
      exact hreplace.commit _ _
  · have hinsert : Open w (w₁.insertPending fails txId fromId targetId).1 txId slot :=
      h.queryTx _
    split
    · rename_i heq
      rw [heq] at hinsert
      exact hinsert.fail _
    · rename_i heq
      rw [heq] at hinsert
      exact hinsert.fail _
    · rename_i heq
      rw [heq] at hinsert
      exact hinsert.commit _ _

theorem addOrAcceptAtomic_ended {targetId fromId : Nat} {r : World × Except Failure String}
    (h : w.addOrAcceptAtomic fails targetId fromId = some r) : Ended w r := by
  unfold addOrAcceptAtomic at h
  split at h
  · cases h
  · rename_i hbegin
    obtain rfl := Option.some.inj h
    obtain ⟨hpool, hlog⟩ := begin_spec hbegin
    exact ended_of_begin_failed hpool hlog
  · rename_i w₁ txId hbegin
    obtain ⟨slot, hopen⟩ := begin_spec hbegin
    rcases hopen.lockRows fails targetId fromId with
      ⟨w₂, hrows, hopen₂, -⟩ | ⟨w₂, err, hrows, hended, -⟩
    · rw [hrows] at h
      obtain rfl := Option.some.inj h
      exact hopen₂.addRows _ _ _ _
    · rw [hrows] at h
      obtain rfl := Option.some.inj h
      exact hended String

/-- The players are friends by one row while the request waits in another. -/
def HalfAccepted (rows : List Row) (targetId fromId : Nat) : Prop :=
  hasRow (rowsOf rows fromId) targetId 0 = true ∧
    (hasRow (rowsOf rows fromId) targetId 1 || hasRow (rowsOf rows targetId) fromId 1) = true

instance (rows : List Row) (targetId fromId : Nat) :
    Decidable (HalfAccepted rows targetId fromId) :=
  inferInstanceAs (Decidable (_ ∧ _))

theorem decideAccept_none_iff {rows : List Row} {targetId fromId : Nat} :
    decideAccept fromId targetId (rowsOf rows fromId) (rowsOf rows targetId) = .error none ↔
      HalfAccepted rows targetId fromId := by
  unfold decideAccept HalfAccepted
  cases hasRow (rowsOf rows fromId) targetId 0 with
  | false => simp
  | true =>
      cases hasRow (rowsOf rows fromId) targetId 1 || hasRow (rowsOf rows targetId) fromId 1 with
      | false =>
          simp only [Bool.not_true, Bool.false_eq_true, if_false, and_false, iff_false]
          split
          · simp
          · split <;> simp
      | true => simp

/-- All exits of {lit}`accept_pending_atomic` but one end the transaction. -/
theorem Open.acceptRows {w₁ : World} (h : Open w w₁ txId slot) {rows : List Row}
    (targetId fromId : Nat) :
    Ended w (w₁.acceptRows fails txId targetId fromId (rowsOf rows fromId)
      (rowsOf rows targetId)) ↔ ¬ HalfAccepted rows targetId fromId := by
  rw [← decideAccept_none_iff]
  unfold World.acceptRows
  split
  · rename_i heq
    exact iff_of_true (h.fail _) (by simp [heq])
  · rename_i heq
    refine iff_of_false (fun hended => ?_) (by simp [heq])
    rcases hended.log with hlog | ⟨t, e, es, hlog, -⟩
    · have : w.log ++ [Entry.begun txId] = w.log := h.log.symm.trans hlog
      simp at this
    · have : w.log ++ [Entry.begun txId] = w.log ++ .begun t :: e :: es := h.log.symm.trans hlog
      simp at this
  · rename_i heq
    refine iff_of_true ?_ (by simp [heq])
    have hreplace : Open w (w₁.replaceFriends fails txId fromId targetId).1 txId slot :=
      h.queryTx _
    split
    · rename_i heq
      rw [heq] at hreplace
      exact hreplace.fail _
    · rename_i heq
      rw [heq] at hreplace
      exact hreplace.commit _ _

/-- The transaction begins and locks the rows of two players that are half accepted. -/
def Leaks (fails : Nat → Bool) (w : World) (targetId fromId : Nat) : Prop :=
  fails w.issued = false ∧ Locks fails w.tables (w.issued + 1) targetId fromId ∧
    HalfAccepted w.tables.friend targetId fromId

theorem acquireFrom_tables {state : SlotState} {k : Nat} {r : World × Nat}
    (h : w.acquireFrom state k = some r) : r.1.tables = w.tables ∧ r.1.issued = w.issued := by
  induction k generalizing w with
  | zero => cases h
  | succ k ih =>
      unfold acquireFrom at h
      dsimp only at h
      split at h
      · obtain rfl := Option.some.inj h
        exact ⟨rfl, rfl⟩
      · have hrest := ih h
        exact hrest

/-- A transaction that has begun reads the tables as they are. -/
theorem begin_tables {o : Option Nat} (h : w.begin fails = some (w', o)) :
    (o.isSome ↔ fails w.issued = false) ∧ (o.isSome → w'.staged = w.tables) ∧
      w'.issued = w.issued + 1 := by
  unfold begin at h
  split at h
  · cases h
  · rename_i w₁ slot hacquire
    obtain ⟨htables, hissued⟩ := acquireFrom_tables hacquire
    have hissued : w₁.issued = w.issued := hissued
    simp only [queryOnSlot] at h
    cases hfails : fails w₁.issued with
    | true =>
        simp only [hfails, Bool.not_true] at h
        obtain ⟨rfl, rfl⟩ := Prod.mk.inj (Option.some.inj h)
        rw [← hissued, hfails]
        exact ⟨by simp, by simp, rfl⟩
    | false =>
        simp only [hfails, Bool.not_false] at h
        obtain ⟨rfl, rfl⟩ := Prod.mk.inj (Option.some.inj h)
        rw [← hissued, hfails]
        exact ⟨by simp, fun _ => htables, rfl⟩

theorem acceptPendingAtomic_ended_iff {targetId fromId : Nat} {r : World × Except Failure Unit}
    (h : w.acceptPendingAtomic fails targetId fromId = some r) :
    Ended w r ↔ ¬ Leaks fails w targetId fromId := by
  unfold acceptPendingAtomic at h
  split at h
  · cases h
  · rename_i hbegin
    obtain rfl := Option.some.inj h
    obtain ⟨hpool, hlog⟩ := begin_spec hbegin
    refine iff_of_true (ended_of_begin_failed hpool hlog) fun hl => ?_
    exact absurd ((begin_tables hbegin).1.mpr hl.1) (by simp)
  · rename_i w₁ txId hbegin
    obtain ⟨hok, hstaged, hissued⟩ := begin_tables hbegin
    have hstaged : w₁.staged = w.tables := hstaged rfl
    have hok : fails w.issued = false := hok.mp rfl
    obtain ⟨slot, hopen⟩ := begin_spec hbegin
    rcases hopen.lockRows fails targetId fromId with
      ⟨w₂, hrows, hopen₂, hlocks⟩ | ⟨w₂, err, hrows, hended, hlocks⟩
    · rw [hrows] at h
      obtain rfl := Option.some.inj h
      rw [hstaged, hissued] at hlocks
      rw [hstaged, hopen₂.acceptRows]
      exact not_congr ⟨fun hhalf => ⟨hok, hlocks, hhalf⟩, fun hl => hl.2.2⟩
    · rw [hrows] at h
      obtain rfl := Option.some.inj h
      rw [hstaged, hissued] at hlocks
      exact iff_of_true (hended Unit) fun hl => hlocks hl.2.1

theorem Open.insertAttachments {w₁ : World} (h : Open w w₁ txId slot) (fails : Nat → Bool)
    (mailId : Nat) (as : List (Int × Int)) :
    Open w (World.insertAttachments fails txId mailId w₁ as).1 txId slot := by
  induction as generalizing w₁ with
  | nil => exact h
  | cons a as ih =>
      obtain ⟨itemId, cnt⟩ := a
      have hinsert : Open w (w₁.insertAttachment fails txId mailId itemId cnt).1 txId slot :=
        h.queryTx _
      unfold World.insertAttachments
      split
      · rename_i heq
        rw [heq] at hinsert
        exact hinsert
      · rename_i w₂ id heq
        rw [heq] at hinsert
        have hrest : Open w (World.insertAttachments fails txId mailId w₂ as).1 txId slot :=
          ih hinsert
        split
        · rename_i heq
          rw [heq] at hrest
          exact hrest
        · rename_i heq
          rw [heq] at hrest
          exact hrest

theorem storageMail_ended {self targetId now : Nat} {title content : String}
    {attachments : List (Int × Int)} {expireSeconds : Option Int}
    {r : World × Except Failure (Mail × List Attachment)}
    (h : w.storageMail fails self targetId title content attachments expireSeconds now = some r) :
    Ended w r := by
  unfold storageMail at h
  split at h
  · cases h
  · rename_i hbegin
    obtain rfl := Option.some.inj h
    obtain ⟨hpool, hlog⟩ := begin_spec hbegin
    exact ended_of_begin_failed hpool hlog
  · rename_i w₁ txId hbegin
    obtain ⟨slot, hopen⟩ := begin_spec hbegin
    have hmail : ∀ sender title content expire,
        Open w (w₁.insertMail fails txId targetId sender title content expire).1 txId slot :=
      fun _ _ _ _ => hopen.queryTx _
    dsimp only at h
    split at h
    · rename_i heq
      obtain rfl := Option.some.inj h
      have hopen₂ := congrArg (Open w ·.1 txId slot) heq
      exact (hopen₂.mp (hmail _ _ _ _)).fail _
    · rename_i w₂ mailId heq
      have hopen₂ : Open w w₂ txId slot := by
        have := hmail (if self = targetId then 0 else self) title content
          ((expireSeconds.filter (0 < ·)).map fun n => now + n.toNat)
        rwa [heq] at this
      have hattach := hopen₂.insertAttachments fails mailId attachments
      split at h
      · rename_i heq
        obtain rfl := Option.some.inj h
        rw [heq] at hattach
        exact hattach.fail _
      · rename_i heq
        obtain rfl := Option.some.inj h
        rw [heq] at hattach
        exact hattach.commit _ _

/-- Calls of {lit}`add_or_accept_atomic` and {lit}`storage_mail` end the transaction they have
begun, whatever fails.  A call of {lit}`accept_pending_atomic` does exactly when it does not
lock two players of whom one has a request and the other is a friend already. -/
theorem tx_ended_iff (fails : Nat → Bool) (w : World) :
    (∀ targetId fromId r, w.addOrAcceptAtomic fails targetId fromId = some r → Ended w r) ∧
    (∀ self targetId title content attachments expireSeconds now r,
      w.storageMail fails self targetId title content attachments expireSeconds now = some r →
        Ended w r) ∧
    ∀ targetId fromId r, w.acceptPendingAtomic fails targetId fromId = some r →
      (Ended w r ↔ ¬ Leaks fails w targetId fromId) :=
  ⟨fun _ _ _ h => addOrAcceptAtomic_ended h, fun _ _ _ _ _ _ _ _ h => storageMail_ended h,
    fun _ _ _ h => acceptPendingAtomic_ended_iff h⟩

/-- A pool with one slot, and players 1 and 2: player 1 has a request of player 2, who has
player 1 as a friend. -/
def halfAccepted : World where
  size := 1
  pool := fun _ => .free
  rr := 0
  txSeq := 0
  txs := fun _ => none
  tables := ⟨[1, 2], [⟨1, 2, 0⟩, ⟨2, 1, 1⟩], [], [], 1, 1⟩
  staged := ⟨[], [], [], [], 1, 1⟩
  issued := 0
  log := []

/-- Player 1 accepts.  No statement fails, and the only slot stays in a transaction. -/
theorem tx_left_open :
    ∃ r, halfAccepted.acceptPendingAtomic (fun _ => false) 2 1 = some r ∧
      r.2.toOption = none ∧ r.1.log = [.begun 1] ∧ r.1.pool 1 = .tx ∧ ¬ Ended halfAccepted r := by
  refine ⟨_, rfl, rfl, rfl, rfl, fun h => ?_⟩
  have hleaks : Leaks (fun _ => false) halfAccepted 2 1 :=
    ⟨rfl, ⟨fun _ _ => rfl, by decide, by decide⟩, by decide⟩
  exact (acceptPendingAtomic_ended_iff rfl).mp h hleaks

/-- A mail whose attachment cannot be stored, with the pool of one slot. -/
theorem tx_ended_mail : ∃ r : World × Except Failure (Mail × List Attachment),
    Ended halfAccepted r ∧ r.1.log = [.begun 1, .ended 1 false true] :=
  ⟨_, (tx_ended_iff (fun n => n == 2) halfAccepted).2.1 1 2 "" "" [(1001, 5)] none 0 _ rfl, rfl⟩

end World

end BallServer.Agent.TxExits
