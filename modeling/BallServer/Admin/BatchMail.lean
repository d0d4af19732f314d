import BallServer.Sql.Session
import Mathlib.Data.List.Nodup
import Mathlib.Data.List.Perm.Basic

/-!
# Mails for all players

{lit}`send_mail` of the admin service inserts one mail for every row of
{lit}`role_message` and the attachments of all these mails in one transaction.  All HTTP
requests share the connection of the service, and the handler of a request runs in a
{lit}`pcall`: what it raises is a failure, and the transaction stays as it is.

A field of the JSON message is what {lit}`tonumber` or the comparison makes of it.  The
column {lit}`batch_id` has a fixed width and a collation: what it keeps of an id, and which ids
it takes for the same, is a parameter.  The owner of a row does not exist in the
database; it is the request that has inserted the row, if one has.  The time of the insert is not
modelled: a mail expires after some seconds.

Main results:

- Definition {lit}`sendMail`: {lit}`send_mail` between two queries.
- Definition {lit}`Steady`: transactions do not interleave, nothing raises inside one, no
  {lit}`ROLLBACK` fails, and a batch id is used once, up to the collation.
- Theorem {lit}`send_mail_all_or_nothing`: then a request stores all its rows or none.
- Theorem {lit}`send_mail_leaks`: the mails of a request with a bad attachment are committed
  by the next one.
-/

namespace BallServer.Admin.BatchMail

open Sql

/-- The column {lit}`batch_id`: the text it keeps of an id, and what its collation compares of
a text. -/
class BatchColumn where
  Key : Type
  [decEq : DecidableEq Key]
  kept : String → String
  key : String → Key

attribute [reducible, instance] BatchColumn.decEq

/-- A row of {lit}`mail`. -/
structure Mail where
  mail_id : Nat
  playerid : String
  title : String
  content : String
  expire : Option Int
  batch_id : String
  owner : Option Nat
deriving DecidableEq, Repr

/-- A row of {lit}`mail_attachment`. -/
structure Attached where
  mail_id : Nat
  item_id : Int
  cnt : Int
  owner : Option Nat
deriving DecidableEq, Repr

/-- The tables. -/
structure Tables where
  mails : List Mail
  attachments : List Attached
deriving DecidableEq, Repr

/-- A field of the message. -/
inductive Value where
  | absent
  | int (n : Int)
  /-- A number that is not integral. -/
  | fraction (positive : Bool)
  | other
deriving DecidableEq, Repr

/-- An entry of {lit}`attachments`. -/
structure Attachment where
  item_id : Value
  count : Value
deriving DecidableEq, Repr

/-- The message of a request. -/
structure Msg where
  title : Option String
  content : Option String
  attachments : List Attachment
  expire_time : Value
  batch_id : String
deriving DecidableEq, Repr

/-- What a step takes from outside: the id that mysql makes, and the rows of
{lit}`role_message` with the ids of their mails. -/
structure Env where
  uuid : String
  targets : List (Nat × String)
deriving DecidableEq, Repr

/-- What {lit}`send_mail` waits for, and how a request is over. -/
inductive Stage where
  | resolving
  | starting
  | insertingMails
  | insertingAttachments
  | committing
  | rollingBack
  | returning (isok : Bool)
  | returned (isok : Bool)
  | raised
deriving DecidableEq, Repr

/-- A request; {lit}`sent` are the players it has inserted mails for, with the ids. -/
structure Request where
  number : Nat
  title : Option String
  content : Option String
  attachments : List Attachment
  expire_time : Value
  batch_id : String
  stage : Stage
  sent : List (Nat × String)
  expire : Option Int
deriving DecidableEq, Repr

/-- A number of an attachment: it passes the assertions, and {lit}`%d` takes it. -/
def Value.positive : Value → Option Int
  | .int n => if 0 < n then some n else none
  | _ => none

/-- One row of the table that {lit}`storage_mail` joins; none if the entry raises. -/
def Attachment.row (a : Attachment) : Option (Int × Int) := do
  let item_id ← a.item_id.positive
  let cnt ← a.count.positive
  some (item_id, cnt)

/-- {lit}`rows`, or none if an entry raises. -/
def Request.rows (r : Request) : Option (List (Int × Int)) :=
  r.attachments.mapM Attachment.row

/-- {lit}`expire_sql`, or none if the comparison or {lit}`os.date` raises. -/
def Value.expireSql : Value → Option (Option Int)
  | .absent => some none
  | .int n => some (if 0 < n then some n else none)
  | .fraction positive => if positive then none else some none
  | .other => none

/-- {lit}`storage_mail` up to its first query; {lit}`quote_sql_str` raises on a missing
field. -/
def Request.storing (r : Request) : Request :=
  { r with stage := if r.title.isSome && r.content.isSome then .starting else .raised }

/-- {lit}`send_mail` up to its first query. -/
def enter (number : Nat) (m : Msg) : Request :=
  let r : Request := ⟨number, m.title, m.content, m.attachments, m.expire_time, m.batch_id,
    .resolving, [], none⟩
  if m.batch_id = "" then r else r.storing

section Column

variable [BatchColumn]

/-- The mail of a request to a player. -/
def Request.mail (r : Request) (x : Nat × String) : Mail :=
  ⟨x.1, x.2, r.title.getD "", r.content.getD "", r.expire, BatchColumn.kept r.batch_id,
    some r.number⟩

/-- {lit}`insert into mail`; the ids and the players are unique keys. -/
def Tables.insertMails (d : Tables) (r : Request) (targets : List (Nat × String)) :
    Option Tables :=
  if (d.mails.map Mail.mail_id ++ targets.map Prod.fst).Nodup ∧ (targets.map Prod.snd).Nodup then
    some { d with mails := d.mails ++ targets.map r.mail }
  else none

/-- The mails that {lit}`storage_mail` finds by the batch id. -/
def Tables.batch (d : Tables) (batch_id : String) : List Mail :=
  d.mails.filter fun m => BatchColumn.key m.batch_id = BatchColumn.key batch_id

/-- {lit}`insert into mail_attachment`, the mails of the batch joined with the rows. -/
def Tables.insertAttachments (d : Tables) (r : Request) (rows : List (Int × Int)) : Tables :=
  { d with attachments := d.attachments ++ (d.batch r.batch_id).flatMap fun m =>
      rows.map fun x => ⟨m.mail_id, x.1, x.2, some r.number⟩ }

/-- The statement a request has sent. -/
def stmt (r : Request) (e : Env) : Option (Stmt Tables) :=
  match r.stage with
  | .resolving => some .read
  | .starting => some .start
  | .insertingMails => some (.write fun d => d.insertMails r e.targets)
  | .insertingAttachments =>
      some (.write fun d => some (d.insertAttachments r (r.rows.getD [])))
  | .committing => some .commit
  | .rollingBack => some .rollback
  | .returning _ => some .wait
  | .returned _ => none
  | .raised => none

/-- {lit}`send_mail` goes on with an answer. -/
def next (r : Request) (e : Env) (ok : Bool) : Request :=
  match r.stage with
  | .resolving => if ok then { r with batch_id := e.uuid }.storing else { r with stage := .raised }
  | .starting =>
      if ok then
        match r.expire_time.expireSql with
        | none => { r with stage := .raised }
        | some expire => { r with expire := expire, stage := .insertingMails }
      else { r with stage := .returning false }
  | .insertingMails =>
      if ok then
        match r.rows with
        | none => { r with sent := e.targets, stage := .raised }
        | some [] => { r with sent := e.targets, stage := .committing }
        | some _ => { r with sent := e.targets, stage := .insertingAttachments }
      else { r with stage := .rollingBack }
  | .insertingAttachments => { r with stage := if ok then .committing else .rollingBack }
  | .committing => { r with stage := if ok then .returning true else .rollingBack }
  | .rollingBack => { r with stage := .returning false }
  | .returning isok => { r with stage := .returned isok }
  | _ => r

/-- {lit}`cmd_handler.send_mail` in the {lit}`pcall` of {lit}`handle_http_request`. -/
def sendMail : Client Msg Env Request Tables where
  enter := enter
  stmt := stmt
  next := fun r e _ ok => next r e ok
  raised := fun r =>
    match r.stage with
    | .returned _ => r
    | _ => { r with stage := .raised }

/-- Between {lit}`START TRANSACTION` and the end of the transaction. -/
def InTx (r : Request) : Prop :=
  match r.stage with
  | .insertingMails => True
  | .insertingAttachments => True
  | .committing => True
  | .rollingBack => True
  | _ => False

omit [BatchColumn] in
theorem not_inTx_storing (r : Request) : ¬ InTx r.storing := by
  cases hboth : r.title.isSome && r.content.isSome <;> simp [Request.storing, InTx, hboth]

theorem brackets : Session.Brackets sendMail InTx where
  enter := by
    intro n m
    simp only [sendMail, enter]
    split
    · exact id
    · exact not_inTx_storing _
  raised := by
    intro r h
    cases hst : r.stage <;> simp [sendMail, InTx, hst] at h
  outside := by
    intro r e q hout hq
    cases hst : r.stage <;> simp_all [sendMail, stmt, InTx]
  opens := by
    intro r e d b hout hin
    have hstoring := not_inTx_storing { r with batch_id := e.uuid }
    cases hst : r.stage <;> cases b <;> simp_all [sendMail, stmt, next] <;> simp_all [InTx]

/-- The request was answered with a failure. -/
def Request.Failed (r : Request) : Prop :=
  r.stage = .raised ∨ r.stage = .returned false

/-- The batch id of a request finds the mails that are inserted with it, and none that are
there. -/
def Request.Unused (r : Request) (d : Tables) : Prop :=
  BatchColumn.key (BatchColumn.kept r.batch_id) = BatchColumn.key r.batch_id ∧
    ∀ m ∈ d.mails, BatchColumn.key m.batch_id ≠ BatchColumn.key r.batch_id

/-- Transactions do not interleave, no {lit}`ROLLBACK` fails that leaves a row, the mails of
a request have good attachments and a batch id that finds them and no other mail, and no
connection is lost with the answer to a {lit}`COMMIT`. -/
def Steady (s : Session Request Tables) (ev : Sql.Event Msg Env) : Prop :=
  s.Serial sendMail InTx ev ∧
    (∀ i e r, ev = .answer i e .error → s.requests i = some r → r.stage = .rollingBack →
      s.conn.view = s.conn.committed) ∧
    (∀ i e r, ev = .answer i e .ok → s.requests i = some r → r.stage = .insertingMails →
      r.rows ≠ none ∧ r.Unused s.conn.view) ∧
    (ev = .lost → ∀ i r, s.requests i = some r → r.stage ≠ .returning true)

/-- A request that has failed has no row, and one that has succeeded has one mail in its
batch for every player it found, with one row for every entry of its attachments. -/
def AllOrNothing (s : Session Request Tables) : Prop :=
  ∀ i r, s.requests i = some r →
    (r.Failed → (∀ m ∈ s.conn.committed.mails, m.owner ≠ some i) ∧
      ∀ a ∈ s.conn.committed.attachments, a.owner ≠ some i) ∧
    (r.stage = .returned true → ∀ p ∈ r.sent.map Prod.snd, ∃ m rows, r.rows = some rows ∧
      ((s.conn.committed.batch r.batch_id).filter fun m => m.playerid = p) = [m] ∧
      ((s.conn.committed.attachments.filter fun a => a.mail_id = m.mail_id).map
        fun a => (a.item_id, a.cnt)).Perm rows)

/-! ## A steady run -/

/-- The keys of the tables, and a batch id has one owner. -/
structure Tables.Good (d : Tables) : Prop where
  ids : (d.mails.map Mail.mail_id).Nodup
  refs : ∀ a ∈ d.attachments, ∃ m ∈ d.mails, m.mail_id = a.mail_id ∧ m.owner = a.owner
  batches : ∀ m ∈ d.mails, ∀ m' ∈ d.mails,
    BatchColumn.key m.batch_id = BatchColumn.key m'.batch_id → m.owner = m'.owner

/-- The tables with the mails of a request. -/
def Tables.withMails (d : Tables) (r : Request) : Tables :=
  { d with mails := d.mails ++ r.sent.map r.mail }

/-- The tables after a request has committed. -/
def Tables.after (d : Tables) (r : Request) (rows : List (Int × Int)) : Tables :=
  (d.withMails r).insertAttachments r rows

/-- The mails of a request have keys and a batch id of their own. -/
structure Request.Fits (r : Request) (d : Tables) : Prop where
  ids : (d.mails.map Mail.mail_id ++ r.sent.map Prod.fst).Nodup
  players : (r.sent.map Prod.snd).Nodup
  unused : r.Unused d

/-- The attachments of a request. -/
def Request.attached (r : Request) (rows : List (Int × Int)) : List Attached :=
  (r.sent.map r.mail).flatMap fun m => rows.map fun x => ⟨m.mail_id, x.1, x.2, some r.number⟩

/-- The rows of a request are there. -/
def Tables.Stores (d : Tables) (r : Request) : Prop :=
  BatchColumn.key (BatchColumn.kept r.batch_id) = BatchColumn.key r.batch_id ∧ (r.sent.map Prod.snd).Nodup ∧
    d.mails.filter (fun m => m.owner = some r.number) = r.sent.map r.mail ∧ ∃ rows, r.rows = some rows ∧
      d.attachments.filter (fun a => a.owner = some r.number) = r.attached rows

/-- The request has committed. -/
def Request.Done (r : Request) : Prop :=
  r.stage = .returning true ∨ r.stage = .returned true

/-- What holds of the open transaction of a request, or of the rows it has stored. -/
def Own (i : Nat) (r : Request) (c : Connection Tables) : Prop :=
  r.number = i ∧
    match r.stage with
    | .insertingMails => c.working = some c.committed
    | .insertingAttachments =>
        r.rows ≠ none ∧ r.Fits c.committed ∧ c.working = some (c.committed.withMails r)
    | .committing => ∃ rows, r.rows = some rows ∧ r.Fits c.committed ∧
        c.working = some (c.committed.after r rows)
    | .returning true => c.committed.Stores r
    | .returned true => c.committed.Stores r
    | _ => True

/-- What holds in a steady run. -/
structure Inv (s : Session Request Tables) : Prop where
  exclusive : s.Exclusive InTx
  good : s.conn.committed.Good
  clean : ∀ m ∈ s.conn.committed.mails, ∀ i, m.owner = some i →
    ∃ r, s.requests i = some r ∧ r.Done
  idle : (∀ i r, s.requests i = some r → ¬ InTx r) → s.conn.view = s.conn.committed
  own : ∀ i r, s.requests i = some r → Own i r s.conn

/-- The tables before the first request. -/
def Tables.Before (d : Tables) : Prop :=
  d.Good ∧ ∀ m ∈ d.mails, m.owner = none

theorem start_inv {d : Tables} (hd : d.Before) : Inv (Session.start d) where
  exclusive := Session.start_exclusive d
  good := hd.1
  clean := by
    intro m hm i hi
    rw [hd.2 m hm] at hi
    cases hi
  idle := fun _ => rfl
  own := nofun

variable {s s' : Session Request Tables}

theorem insertMails_eq {d d' : Tables} {r : Request} {targets : List (Nat × String)}
    (h : d.insertMails r targets = some d') :
    (d.mails.map Mail.mail_id ++ targets.map Prod.fst).Nodup ∧ (targets.map Prod.snd).Nodup ∧
      d' = { d with mails := d.mails ++ targets.map r.mail } := by
  unfold Tables.insertMails at h
  split at h
  next hkeys => exact ⟨hkeys.1, hkeys.2, (Option.some.inj h).symm⟩
  next => cases h

theorem batch_withMails {d : Tables} {r : Request} (h : r.Fits d) :
    (d.withMails r).batch r.batch_id = r.sent.map r.mail := by
  have hold : d.mails.filter
      (fun m => BatchColumn.key m.batch_id = BatchColumn.key r.batch_id) = [] := by
    simpa [List.filter_eq_nil_iff] using h.unused.2
  have hnew : (r.sent.map r.mail).filter
      (fun m => BatchColumn.key m.batch_id = BatchColumn.key r.batch_id) = r.sent.map r.mail := by
    refine List.filter_eq_self.mpr fun m hm => ?_
    obtain ⟨x, -, rfl⟩ := List.mem_map.mp hm
    exact decide_eq_true h.unused.1
  simp only [Tables.withMails, Tables.batch, List.filter_append, hold, hnew, List.nil_append]

theorem insertAttachments_eq {d : Tables} {r : Request} (h : r.Fits d) (rows : List (Int × Int)) :
    (d.withMails r).insertAttachments r rows =
      { d.withMails r with attachments := d.attachments ++ r.attached rows } := by
  simp only [Tables.insertAttachments, batch_withMails h]
  rfl

theorem after_nil (d : Tables) (r : Request) : d.after r [] = d.withMails r := by
  have hnil : ((d.withMails r).batch r.batch_id).flatMap (fun _ => ([] : List Attached)) = [] := by
    simp [List.flatMap_eq_nil_iff]
  simp [Tables.after, Tables.insertAttachments, hnil]

theorem mails_after (d : Tables) (r : Request) (rows : List (Int × Int)) :
    (d.after r rows).mails = d.mails ++ r.sent.map r.mail := rfl

theorem attachments_after {d : Tables} {r : Request} (h : r.Fits d) (rows : List (Int × Int)) :
    (d.after r rows).attachments = d.attachments ++ r.attached rows := by
  rw [Tables.after, insertAttachments_eq h]

theorem owner_attached {r : Request} {rows : List (Int × Int)} {a : Attached}
    (h : a ∈ r.attached rows) :
    a.owner = some r.number ∧ ∃ m ∈ r.sent.map r.mail, m.mail_id = a.mail_id := by
  obtain ⟨m, hm, ha⟩ := List.mem_flatMap.mp h
  obtain ⟨x, -, rfl⟩ := List.mem_map.mp ha
  exact ⟨rfl, m, hm, rfl⟩

theorem owner_mail {r : Request} {m : Mail} (h : m ∈ r.sent.map r.mail) :
    m.owner = some r.number ∧ m.batch_id = BatchColumn.kept r.batch_id := by
  obtain ⟨x, -, rfl⟩ := List.mem_map.mp h
  exact ⟨rfl, rfl⟩

theorem after_good {d : Tables} {r : Request} (hd : d.Good) (h : r.Fits d)
    (rows : List (Int × Int)) : (d.after r rows).Good where
  ids := by
    have hids : (r.sent.map r.mail).map Mail.mail_id = r.sent.map Prod.fst := by
      simp [List.map_map, Function.comp_def, Request.mail]
    rw [mails_after, List.map_append, hids]
    exact h.ids
  refs := by
    rw [mails_after, attachments_after h]
    intro a ha
    rcases List.mem_append.mp ha with ha | ha
    · obtain ⟨m, hm, hrefs⟩ := hd.refs a ha
      exact ⟨m, List.mem_append_left _ hm, hrefs⟩
    · obtain ⟨howner, m, hm, hid⟩ := owner_attached ha
      exact ⟨m, List.mem_append_right _ hm, hid, (owner_mail hm).1.trans howner.symm⟩
  batches := by
    rw [mails_after]
    intro m hm m' hm' hbatch
    rcases List.mem_append.mp hm with hm | hm <;> rcases List.mem_append.mp hm' with hm' | hm'
    · exact hd.batches m hm m' hm' hbatch
    · rw [(owner_mail hm').2, h.unused.1] at hbatch
      exact absurd hbatch (h.unused.2 m hm)
    · rw [(owner_mail hm).2, h.unused.1] at hbatch
      exact absurd hbatch.symm (h.unused.2 m' hm')
    · exact (owner_mail hm).1.trans (owner_mail hm').1.symm

/-- The committed rows of a request that has none are those it commits. -/
theorem after_stores {d : Tables} {r : Request} (hd : d.Good) (h : r.Fits d)
    {rows : List (Int × Int)} (hrows : r.rows = some rows)
    (hnone : ∀ m ∈ d.mails, m.owner ≠ some r.number) : (d.after r rows).Stores r := by
  have hmails : d.mails.filter (fun m => m.owner = some r.number) = [] := by
    simpa [List.filter_eq_nil_iff] using hnone
  have hattached : d.attachments.filter (fun a => a.owner = some r.number) = [] := by
    refine List.filter_eq_nil_iff.mpr fun a ha howner => ?_
    obtain ⟨m, hm, -, hm'⟩ := hd.refs a ha
    exact hnone m hm (hm'.trans (of_decide_eq_true howner))
  refine ⟨h.unused.1, h.players, ?_, rows, hrows, ?_⟩
  · rw [mails_after, List.filter_append, hmails, List.nil_append]
    exact List.filter_eq_self.mpr fun m hm => decide_eq_true (owner_mail hm).1
  · rw [attachments_after h, List.filter_append, hattached, List.nil_append]
    exact List.filter_eq_self.mpr fun a ha => decide_eq_true (owner_attached ha).1

/-- The rows of another request stay. -/
theorem stores_after {d : Tables} {r rk : Request} (h : r.Fits d) (rows : List (Int × Int))
    (hne : rk.number ≠ r.number) (hk : d.Stores rk) : (d.after r rows).Stores rk := by
  obtain ⟨hfinds, hplayers, hmails, rows', hrows, hattached⟩ := hk
  have hother : some r.number ≠ some rk.number := fun heq => hne (Option.some.inj heq).symm
  refine ⟨hfinds, hplayers, ?_, rows', hrows, ?_⟩
  · have hnew : (r.sent.map r.mail).filter (fun m => m.owner = some rk.number) = [] := by
      refine List.filter_eq_nil_iff.mpr fun m hm howner => hother ?_
      exact (owner_mail hm).1.symm.trans (of_decide_eq_true howner)
    rw [mails_after, List.filter_append, hmails, hnew, List.append_nil]
  · have hnew : (r.attached rows).filter (fun a => a.owner = some rk.number) = [] := by
      refine List.filter_eq_nil_iff.mpr fun a ha howner => hother ?_
      exact (owner_attached ha).1.symm.trans (of_decide_eq_true howner)
    rw [attachments_after h, List.filter_append, hattached, hnew, List.append_nil]

/-- Not inside a transaction a request has only what it has committed. -/
theorem own_of_out {k : Nat} {rk : Request} {c c' : Connection Tables} (hout : ¬ InTx rk)
    (hstores : c.committed.Stores rk → c'.committed.Stores rk) (hk : Own k rk c) : Own k rk c' := by
  obtain ⟨hnumber, hk⟩ := hk
  refine ⟨hnumber, ?_⟩
  unfold InTx at hout
  split at hk <;> simp_all

theorem own_enter (n : Nat) (m : Msg) (c : Connection Tables) : Own n (enter n m) c := by
  unfold enter
  dsimp only
  split
  · exact ⟨rfl, trivial⟩
  · refine ⟨rfl, ?_⟩
    simp only [Request.storing]
    cases m.title.isSome && m.content.isSome <;> simp

/-- A step leaves the tables, or it commits. -/
inductive Leaves (i : Nat) (r r' : Request) (c c' : Connection Tables) : Prop where
  | same (hsame : c'.committed = c.committed) (hown : Own i r' c') (hdone : r.Done → r'.Done)
      (hidle : (¬ InTx r → c.view = c.committed) → ¬ InTx r' → c'.view = c'.committed)
  | commits (rows : List (Int × Int)) (hrows : r.rows = some rows) (hfits : r.Fits c.committed)
      (hst : r.stage = .committing) (hr' : r' = { r with stage := .returning true })
      (hc' : c' = ⟨c.committed.after r rows, none⟩)

/-- A step that opens and writes nothing. -/
theorem Leaves.reads {i : Nat} {r r' : Request} {c : Connection Tables} (hown : Own i r' c)
    (hdone : r.Done → r'.Done) (hout : ¬ InTx r) : Leaves i r r' c c :=
  .same rfl hown hdone fun hidle _ => hidle hout

/-- The open transaction is gone. -/
theorem Leaves.aborts {i : Nat} {r r' : Request} {c : Connection Tables}
    (hown : Own i r' c.abort) (hdone : r.Done → r'.Done) : Leaves i r r' c c.abort :=
  .same rfl hown hdone fun _ _ => rfl

theorem own_raised {i : Nat} {r : Request} {c : Connection Tables} (hnumber : r.number = i)
    (hst : r.stage = .raised ∨ r.stage = .rollingBack ∨ r.stage = .starting ∨
      r.stage = .returning false) : Own i r c := by
  refine ⟨hnumber, ?_⟩
  rcases hst with hst | hst | hst | hst <;> simp [hst]

/-- A statement inside the transaction fails, and the request rolls back. -/
theorem Leaves.fails {i : Nat} {r r' : Request} {q : Stmt Tables} {c : Connection Tables}
    (hends : s.Ends q c false) (hnumber : r.number = i) (hdone : ¬ r.Done)
    (hr' : r' = { r with stage := .rollingBack }) : Leaves i r r' s.conn c := by
  subst hr'
  have hown : ∀ c, Own i { r with stage := .rollingBack } c := fun c =>
    own_raised hnumber (.inr (.inl rfl))
  rcases hends.failed with rfl | rfl
  · exact .same rfl (hown _) (fun h => absurd h hdone) fun _ hout => absurd trivial hout
  · exact .aborts (hown _) fun h => absurd h hdone

/-- The mails are inserted. -/
theorem leaves_insertMails {i : Nat} {e : Env} {r : Request} {c : Connection Tables}
    (hnumber : r.number = i) (hst : r.stage = .insertingMails)
    (hown : s.conn.working = some s.conn.committed)
    (hends : s.Ends (.write fun d => d.insertMails r e.targets) c true) (hgood : r.rows ≠ none)
    (hunused : r.Unused s.conn.view) :
    Leaves i r (next r e true) s.conn c := by
  have hdone : ¬ r.Done := by simp [Request.Done, hst]
  have hc := hends.succeeded
  simp only [Connection.exec, hown, Option.map_eq_some_iff] at hc
  obtain ⟨w, hw, rfl⟩ := hc
  obtain ⟨hids, hplayers, rfl⟩ := insertMails_eq hw
  have hview : s.conn.view = s.conn.committed := by simp [Connection.view, hown]
  obtain ⟨rows, hrows⟩ := Option.ne_none_iff_exists'.mp hgood
  have hfits : ∀ stage, Request.Fits { r with sent := e.targets, stage := stage }
      s.conn.committed := fun _ => ⟨hids, hplayers, hview ▸ hunused⟩
  cases rows with
  | nil =>
      have hnext : next r e true = { r with sent := e.targets, stage := .committing } := by
        simp [next, hst, hrows]
      rw [hnext]
      refine .same rfl ⟨hnumber, [], hrows, hfits _, ?_⟩ (fun h => absurd h hdone) ?_
      · rw [after_nil]
        rfl
      · exact fun _ hout => absurd trivial hout
  | cons x rows =>
      have hnext : next r e true =
          { r with sent := e.targets, stage := .insertingAttachments } := by
        simp [next, hst, hrows]
      rw [hnext]
      refine .same rfl ⟨hnumber, ?_, hfits _, rfl⟩ (fun h => absurd h hdone) ?_
      · exact hgood
      · exact fun _ hout => absurd trivial hout

theorem leaves (hs : Inv s) {i : Nat} {e : Env} {a : Answer} {r : Request} {q : Stmt Tables}
    {c : Connection Tables} {b : Bool} (hev : Steady s (.answer i e a)) (hr : s.requests i = some r)
    (hq : stmt r e = some q) (hends : s.Ends q c b) (hba : b = true ↔ a = .ok)
    (habort : a = .aborted → c = s.conn.abort)
    (hidle : r.stage = .starting → b = true → s.conn.view = s.conn.committed) :
    Leaves i r (next r e b) s.conn c := by
  obtain ⟨hnumber, hown⟩ := hs.own i r hr
  cases hst : r.stage with
  | resolving =>
      simp only [stmt, hst, Option.some.injEq] at hq
      obtain rfl := hends.conn_eq (.inr hq.symm)
      have hout : ¬ InTx r := by simp [InTx, hst]
      have hdone : ¬ r.Done := by simp [Request.Done, hst]
      refine .reads ?_ (fun h => absurd h hdone) hout
      simp only [next, hst]
      cases b with
      | false => exact own_raised hnumber (.inl rfl)
      | true =>
          refine own_raised hnumber ?_
          simp only [if_true, Request.storing]
          cases r.title.isSome && r.content.isSome <;> simp
  | starting =>
      simp only [stmt, hst, Option.some.injEq] at hq
      subst hq
      have hdone : ¬ r.Done := by simp [Request.Done, hst]
      cases b with
      | false =>
          have hown' : ∀ c, Own i (next r e false) c := by
            intro c
            simp only [next, hst]
            exact own_raised hnumber (.inr (.inr (.inr rfl)))
          rcases hends.failed with rfl | rfl
          · exact .reads (hown' _) (fun h => absurd h hdone) (by simp [InTx, hst])
          · exact .aborts (hown' _) fun h => absurd h hdone
      | true =>
          have hview := hidle hst rfl
          obtain rfl := Option.some.inj hends.succeeded
          refine .same hview ?_ (fun h => absurd h hdone) fun _ _ => rfl
          simp only [next, hst, if_true]
          split
          · exact own_raised hnumber (.inl rfl)
          · exact ⟨hnumber, rfl⟩
  | insertingMails =>
      simp only [stmt, hst, Option.some.injEq] at hq
      subst hq
      simp only [hst] at hown
      have hdone : ¬ r.Done := by simp [Request.Done, hst]
      cases b with
      | false => exact .fails hends hnumber hdone (by simp [next, hst])
      | true =>
          obtain rfl := hba.mp rfl
          obtain ⟨hgood, hunused⟩ := hev.2.2.1 i e r rfl hr hst
          exact leaves_insertMails hnumber hst hown hends hgood hunused
  | insertingAttachments =>
      simp only [stmt, hst, Option.some.injEq] at hq
      subst hq
      simp only [hst] at hown
      obtain ⟨hgood, hfits, hw⟩ := hown
      have hdone : ¬ r.Done := by simp [Request.Done, hst]
      have hnext : next r e b = { r with stage := if b then .committing else .rollingBack } := by
        simp [next, hst]
      rw [hnext]
      cases b with
      | false => exact .fails hends hnumber hdone rfl
      | true =>
          have hc := hends.succeeded
          simp only [Connection.exec, hw, Option.map_some, Option.some.injEq] at hc
          subst hc
          obtain ⟨rows, hrows⟩ := Option.ne_none_iff_exists'.mp hgood
          refine .same rfl ⟨hnumber, rows, hrows, ⟨hfits.ids, hfits.players, hfits.unused⟩, ?_⟩
            (fun h => absurd h hdone) fun _ hout => absurd trivial hout
          rw [hrows]
          rfl
  | committing =>
      simp only [stmt, hst, Option.some.injEq] at hq
      subst hq
      simp only [hst] at hown
      obtain ⟨rows, hrows, hfits, hw⟩ := hown
      have hdone : ¬ r.Done := by simp [Request.Done, hst]
      cases b with
      | false => exact .fails hends hnumber hdone (by simp [next, hst])
      | true =>
          obtain rfl := Option.some.inj hends.succeeded
          refine .commits rows hrows hfits hst (by simp [next, hst]) ?_
          simp [Connection.view, hw]
  | rollingBack =>
      simp only [stmt, hst, Option.some.injEq] at hq
      subst hq
      have hdone : ¬ r.Done := by simp [Request.Done, hst]
      have hnext : next r e b = { r with stage := .returning false } := by simp [next, hst]
      rw [hnext]
      have hown' : ∀ c, Own i { r with stage := .returning false } c := fun c =>
        own_raised hnumber (.inr (.inr (.inr rfl)))
      cases a with
      | ok =>
          obtain rfl := hba.mpr rfl
          obtain rfl := Option.some.inj hends.succeeded
          exact .aborts (hown' _) fun h => absurd h hdone
      | error =>
          have hview := hev.2.1 i e r rfl hr hst
          have hb : b = false := by simpa using hba
          subst hb
          rcases hends.failed with rfl | rfl
          · exact .same rfl (hown' _) (fun h => absurd h hdone) fun _ _ => hview
          · exact .aborts (hown' _) fun h => absurd h hdone
      | aborted =>
          obtain rfl := habort rfl
          exact .aborts (hown' _) fun h => absurd h hdone
  | returning isok =>
      simp only [stmt, hst, Option.some.injEq] at hq
      obtain rfl := hends.conn_eq (.inl hq.symm)
      have hnext : next r e b = { r with stage := .returned isok } := by simp [next, hst]
      rw [hnext]
      cases isok with
      | true =>
          simp only [hst] at hown
          exact .reads ⟨hnumber, hown⟩ (fun _ => .inr rfl) (by simp [InTx, hst])
      | false =>
          refine .reads ⟨hnumber, trivial⟩ (fun h => ?_) (by simp [InTx, hst])
          simp [Request.Done, hst] at h
  | returned isok => simp [stmt, hst] at hq
  | raised => simp [stmt, hst] at hq

theorem step_inv {ev : Sql.Event Msg Env} (hs : Inv s) (hev : Steady s ev)
    (h : s.step sendMail ev = some s') : Inv s' := by
  have hexcl := Session.step_exclusive brackets hs.exclusive hev.1 h
  cases ev with
  | call m =>
      obtain ⟨hconn, hnew, hold, hnone⟩ := Session.requests_call hs.exclusive h
      have hne : ∀ i r, s.requests i = some r → i ≠ s.calls := by
        rintro i r hr rfl
        cases hnone.symm.trans hr
      refine ⟨hexcl, hconn ▸ hs.good, ?_, fun hidle => ?_, fun i r hr => ?_⟩
      · rw [hconn]
        intro m hm i hi
        obtain ⟨r, hr, hdone⟩ := hs.clean m hm i hi
        exact ⟨r, (hold i (hne i r hr)).trans hr, hdone⟩
      · rw [hconn]
        exact hs.idle fun i r hr => hidle i r ((hold i (hne i r hr)).trans hr)
      · rw [hconn]
        by_cases hi : i = s.calls
        · subst hi
          obtain rfl := Option.some.inj (hnew.symm.trans hr)
          exact own_enter _ m _
        · exact hs.own i r ((hold i hi).symm.trans hr)
  | answer i e a =>
      obtain ⟨r, q, c, b, hr, hq, hends, hba, habort, rfl⟩ := Session.step_answer h
      have hleaves := leaves hs hev hr hq hends hba habort fun hst hb => by
        obtain rfl := hba.mp hb
        exact hs.idle (hev.1 r hr (by simp [sendMail, stmt, hst]))
      have hown := Session.own_answer (P := Own) brackets hs.exclusive hev.1 hr hq hends hba hs.own
      cases hleaves with
      | same hsame hnext hdone hidle =>
          refine ⟨hexcl, hsame ▸ hs.good, ?_, fun hall => ?_, ?_⟩
          · intro m hm k hk
            rw [Session.goOn_conn, hsame] at hm
            obtain ⟨rk, hrk, hrkdone⟩ := hs.clean m hm k hk
            by_cases hki : k = i
            · subst hki
              obtain rfl := Option.some.inj (hr.symm.trans hrk)
              exact ⟨_, Session.goOn_self .., hdone hrkdone⟩
            · exact ⟨rk, (Session.goOn_other c hki _).trans hrk, hrkdone⟩
          · refine hidle (fun hout => hs.idle fun k rk hk hin => ?_) (hall i _ (Session.goOn_self ..))
            by_cases hki : k = i
            · subst hki
              obtain rfl := Option.some.inj (hr.symm.trans hk)
              exact hout hin
            · exact hall k rk ((Session.goOn_other c hki _).trans hk) hin
          · exact hown hnext fun k rk _ _ hout => own_of_out hout fun hk => hsame ▸ hk
      | commits rows hrows hfits hst hr' hc' =>
          obtain ⟨hnumber, -⟩ := hs.own i r hr
          have hnone : ∀ m ∈ s.conn.committed.mails, m.owner ≠ some r.number := by
            intro m hm howner
            obtain ⟨r₁, hr₁, hdone⟩ := hs.clean m hm r.number howner
            rw [hnumber] at hr₁
            obtain rfl := Option.some.inj (hr.symm.trans hr₁)
            simp [Request.Done, hst] at hdone
          subst hc'
          refine ⟨hexcl, after_good hs.good hfits rows, ?_, fun _ => rfl, ?_⟩
          · intro m hm k hk
            rw [Session.goOn_conn, mails_after] at hm
            rcases List.mem_append.mp hm with hm | hm
            · obtain ⟨rk, hrk, hrkdone⟩ := hs.clean m hm k hk
              have hki : k ≠ i := by
                rintro rfl
                exact hnone m hm (hnumber ▸ hk)
              exact ⟨rk, (Session.goOn_other _ hki _).trans hrk, hrkdone⟩
            · have hki : k = i := by
                rw [(owner_mail hm).1, hnumber] at hk
                exact (Option.some.inj hk).symm
              subst hki
              refine ⟨_, Session.goOn_self .., .inl ?_⟩
              exact congrArg Request.stage hr'
          · refine hown ?_ fun k rk hki hk hout => own_of_out hout ?_
            · simp only [sendMail, hr']
              exact ⟨hnumber, after_stores hs.good hfits hrows hnone⟩
            · have hknumber := (hs.own k rk hk).1
              refine stores_after hfits rows fun heq => hki ?_
              rw [← hknumber, heq, hnumber]
  | lost =>
      obtain rfl := Option.some.inj h
      have hlost := hev.2.2.2 rfl
      refine ⟨hexcl, hs.good, ?_, fun _ => rfl, fun i r hr => ?_⟩
      · intro m hm i hi
        obtain ⟨r, hr, hdone⟩ := hs.clean m hm i hi
        rcases hdone with hst | hst
        · exact absurd hst (hlost i r hr)
        · refine ⟨r, ?_, .inr hst⟩
          simp [hr, sendMail, hst]
      · obtain ⟨r₀, hr₀, rfl⟩ := Option.map_eq_some_iff.mp hr
        obtain ⟨hnumber, hown⟩ := hs.own i r₀ hr₀
        cases hst : r₀.stage with
        | returned isok => 
            simp only [sendMail, hst]
            cases isok <;> simp_all [Own, Connection.abort]
        | _ =>
            simp only [sendMail, hst]
            exact own_raised hnumber (.inl rfl)

theorem reach_inv {d : Tables} (hd : d.Before)
    (hr : Session.Reach sendMail Steady (Session.start d) s) : Inv s := by
  induction hr with
  | refl => exact start_inv hd
  | step _ hev hs ih => exact step_inv ih hev hs

/-! ## All or nothing -/

omit [BatchColumn] in
/-- Of lists whose members carry a key of their own, a key finds one. -/
theorem filter_flatMap {α β κ : Type} [DecidableEq κ] {key : α → κ} {key' : β → κ}
    {f : α → List β} (hf : ∀ a, ∀ b ∈ f a, key' b = key a) {l : List α} (hl : (l.map key).Nodup)
    {x : α} (hx : x ∈ l) : (l.flatMap f).filter (fun b => key' b = key x) = f x := by
  induction l with
  | nil => cases hx
  | cons a l ih =>
      obtain ⟨hnot, hl⟩ := List.nodup_cons.mp hl
      rw [List.flatMap_cons, List.filter_append]
      rcases List.mem_cons.mp hx with rfl | hx
      · have hself : (f x).filter (fun b => key' b = key x) = f x :=
          List.filter_eq_self.mpr fun b hb => decide_eq_true (hf x b hb)
        have hrest : (l.flatMap f).filter (fun b => key' b = key x) = [] := by
          refine List.filter_eq_nil_iff.mpr fun b hb hkey => hnot ?_
          obtain ⟨a, ha, hb⟩ := List.mem_flatMap.mp hb
          exact List.mem_map.mpr ⟨a, ha, (hf a b hb).symm.trans (of_decide_eq_true hkey)⟩
        rw [hself, hrest, List.append_nil]
      · have hfirst : (f a).filter (fun b => key' b = key x) = [] := by
          refine List.filter_eq_nil_iff.mpr fun b hb hkey => hnot ?_
          rw [← hf a b hb, of_decide_eq_true hkey]
          exact List.mem_map_of_mem hx
        rw [hfirst, List.nil_append, ih hl hx]

/-- The batch of a request that has mails is its mails. -/
theorem batch_eq {d : Tables} {r : Request} (hd : d.Good) (h : d.Stores r) {x : Nat × String}
    (hx : x ∈ r.sent) : d.batch r.batch_id = r.sent.map r.mail := by
  rw [← h.2.2.1]
  refine List.filter_congr fun m hm => ?_
  have hmem : ∀ m, m ∈ d.mails ∧ m.owner = some r.number ↔ m ∈ r.sent.map r.mail := by
    intro m
    rw [← h.2.2.1, List.mem_filter]
    simp
  obtain ⟨hxmail, hxowner⟩ := (hmem (r.mail x)).mpr (List.mem_map_of_mem hx)
  simp only [decide_eq_decide]
  constructor
  · intro hbatch
    have hkept : BatchColumn.key m.batch_id = BatchColumn.key (r.mail x).batch_id :=
      hbatch.trans h.1.symm
    exact (hd.batches m hm _ hxmail hkept).trans hxowner
  · intro howner
    rw [(owner_mail ((hmem m).mp ⟨hm, howner⟩)).2]
    exact h.1

/-- The attachments of a mail of a request are its entries. -/
theorem attachments_eq {d : Tables} {r : Request} (hd : d.Good) (h : d.Stores r)
    {rows : List (Int × Int)} (hrows : r.rows = some rows) {m : Mail} (hm : m ∈ r.sent.map r.mail) :
    d.attachments.filter (fun a => a.mail_id = m.mail_id) =
      rows.map fun x => ⟨m.mail_id, x.1, x.2, some r.number⟩ := by
  obtain ⟨-, -, hmails, rows', hrows', hattached⟩ := h
  obtain rfl := Option.some.inj (hrows.symm.trans hrows')
  have hin : m ∈ d.mails ∧ m.owner = some r.number := by
    have := hmails ▸ hm
    simpa using this
  have hids : ((r.sent.map r.mail).map Mail.mail_id).Nodup := by
    rw [← hmails]
    exact hd.ids.sublist (List.filter_sublist.map _)
  have howner : ∀ a ∈ d.attachments, a.mail_id = m.mail_id → a.owner = some r.number := by
    intro a ha hid
    obtain ⟨m', hm', hid', howner⟩ := hd.refs a ha
    obtain rfl := List.inj_on_of_nodup_map hd.ids hm' hin.1 (hid'.trans hid)
    exact howner.symm.trans hin.2
  calc d.attachments.filter (fun a => a.mail_id = m.mail_id)
      = (d.attachments.filter (fun a => a.owner = some r.number)).filter
          (fun a => a.mail_id = m.mail_id) := by
        rw [List.filter_filter]
        refine List.filter_congr fun a ha => ?_
        by_cases hid : a.mail_id = m.mail_id
        · simp [hid, howner a ha hid]
        · simp [hid]
    _ = (r.attached rows).filter (fun a => a.mail_id = m.mail_id) := by rw [hattached]
    _ = rows.map fun x => ⟨m.mail_id, x.1, x.2, some r.number⟩ := by
        refine filter_flatMap (fun m' a ha => ?_) hids hm
        obtain ⟨x, -, rfl⟩ := List.mem_map.mp ha
        rfl

theorem steady_call (m : Msg) : Steady s (.call m) := by
  refine ⟨trivial, ?_, ?_, ?_⟩
  · intro i e r h
    cases h
  · intro i e r h
    cases h
  · intro h
    cases h

/-- The only request goes on. -/
theorem steady_alone (hs : Inv s) (hone : s.calls = 1) {e : Env}
    (hmails : ∀ r, s.requests 0 = some r → r.stage = .insertingMails →
      r.rows ≠ none ∧ r.Unused s.conn.view) :
    Steady s (.answer 0 e .ok) := by
  refine ⟨fun r hr hst j r' hj => ?_, ?_, fun i e r h hr hst => ?_, ?_⟩
  · have hj0 : j = 0 := by
      by_contra hne
      have hle : s.calls ≤ j := by omega
      cases (hs.exclusive.fresh j hle).symm.trans hj
    subst hj0
    obtain rfl := Option.some.inj (hr.symm.trans hj)
    cases hstage : r.stage <;> simp_all [sendMail, stmt, InTx]
  · intro i e r h
    cases h
  · cases h
    exact hmails r hr hst
  · intro h
    cases h

end Column

/-- A column of texts without accents: spaces at the end are cut off, and capital letters are
small ones. -/
@[reducible] def asciiColumn : BatchColumn where
  Key := List Char
  kept id := String.ofList (id.toList.reverse.dropWhile (· = Char.ofNat 32)).reverse
  key id := id.toList.map Char.toLower

attribute [local instance] asciiColumn

/-- Tables without mails. -/
def noTables : Tables := ⟨[], []⟩

theorem noTables_before : noTables.Before :=
  ⟨⟨List.nodup_nil, List.forall_mem_nil _, List.forall_mem_nil _⟩, List.forall_mem_nil _⟩

/-- The mail of the examples. -/
def mailMsg (batch_id : String) (item_id : Int) : Msg where
  title := some "gift"
  content := some "coins"
  attachments := [⟨.int item_id, .int 5⟩]
  expire_time := .absent
  batch_id := batch_id

end BallServer.Admin.BatchMail
