import BallServer.Table
import BallServer.Agent.Kick
import Mathlib.Data.Rat.Defs

/-!
# Dirty flags

An agent keeps four tables in memory and a flag for each.  What changes a table sets its
flag; {lit}`save_all` saves the tables whose flag is set, one after the other, and gives each
flag the result of its save.  {lit}`add_coin` saves the base information by itself.  A save
takes the values first and then waits for redis or mysql several times; when redis fails, the
rows are read again one by one, and so are the mails always.

Between two waits a coroutine runs without a break, so a function that does not wait is one
step.  The base information is a table with one row.  The field {lit}`changes` does not exist
in the program; it counts the writes to each table.

Main results:

- Definitions {lit}`addCoin`, {lit}`addItem`, {lit}`mailClaim`, {lit}`saveAll` and
  {lit}`step`.
-/

namespace BallServer.Agent.Dirty

/-- {lit}`s.data.base_info`; a level is a quotient. -/
structure BaseInfo where
  coin : Int
  level : Rat
  vipLevel : Int
  exp : Int
  lastLoginTime : Int
  rankScore : Int

/-- {lit}`achieve`, with its number as the key. -/
structure Achieve where
  progress : Int
  isDone : Bool
  claimTime : Option String

/-- {lit}`attach_item`. -/
structure AttachItem where
  id : Nat
  itemId : Nat
  count : Int
  isClaimed : Bool

/-- {lit}`mail`; what its sender wrote never changes. -/
structure Mail where
  isRead : Bool
  expireTime : Option Nat
  attachments : List AttachItem

/-- What a row of a table is; an item is a count. -/
@[reducible] def Row : Kick.Module → Type
  | .base_info => BaseInfo
  | .achieves => Achieve
  | .items => Int
  | .mails => Mail

/-- {lit}`ITEM_CONFIG` and {lit}`ACHIEVE_CONFIG`. -/
structure Config where
  maxStack : Nat → Option Int
  target : Nat → Option Int
  eventList : String → Option (List Nat)

/-- A save that waits.  The rows of {lit}`todo` are still to be read, and {lit}`list` is the
table of deleted mails it goes through at last. -/
structure Save where
  module : Kick.Module
  taken : Table (Row module)
  todo : Finset Nat
  list : Option Nat
  written : Bool
  seen : Nat
  rest : List Kick.Module

/-- The agent, and what is stored of its tables.  A table of deleted mails that is replaced
while a loop is in it is an object. -/
structure Player where
  data : (m : Kick.Module) → Table (Row m)
  dirty : Kick.Module → Bool
  persisted : (m : Kick.Module) → Table (Row m)
  deletedMailsId : Nat
  list : Nat → List Nat
  saves : Table Save
  nextSave : Nat
  changes : Kick.Module → Nat

/-- How a save ends. -/
inductive Result where
  | saved
  | failed
  | raised
deriving DecidableEq, Repr

/-- What can happen. -/
inductive Event where
  | addCoin (count : Int)
  | addRankScore (count : Int)
  | addExp (count : Int)
  | addItem (itemId : Nat) (count : Int)
  | subItem (itemId : Nat) (count : Int)
  /-- The achievements of an event make progress. -/
  | achieveTrigger (event : String) (delta : Int)
  | mailRead (mid now : Nat)
  | mailClaim (mid now : Nat)
  | mailDelete (mid : Nat)
  | saveAll
  /-- Redis has failed; the rows are read again. -/
  | fallback (i : Nat)
  /-- The save reads a row. -/
  | row (i k : Nat)
  /-- The save of the mails comes to the deleted ones. -/
  | deletions (i : Nat)
  /-- What the save has taken is stored. -/
  | store (i : Nat)
  | finish (i : Nat) (r : Result)

variable (cfg : Config)

/-! ## Changes -/

/-- Write a table. -/
def write (s : Player) (m : Kick.Module) (t : Table (Row m)) : Player :=
  { s with
    data := Function.update s.data m t
    changes := Function.update s.changes m (s.changes m + 1) }

/-- {lit}`mark_dirty`. -/
def markDirty (s : Player) (m : Kick.Module) : Player :=
  { s with dirty := Function.update s.dirty m true }

/-- Write the base information. -/
def writeBase (s : Player) (f : BaseInfo → BaseInfo) : Player :=
  match (s.data .base_info).get 0 with
  | some b => write s .base_info ((s.data .base_info).set 0 (f b))
  | none => s

/-- {lit}`achieve_progress`. -/
def achieveProgress (t : Table Achieve) (aid : Nat) (delta : Int) : Table Achieve :=
  match cfg.target aid with
  | none => t
  | some target =>
      let a := (t.get aid).getD ⟨0, false, none⟩
      let progress := a.progress + delta
      t.set aid ⟨progress, a.isDone || decide (target ≤ progress), a.claimTime⟩

/-- {lit}`achieve_trigger`. -/
def achieveTrigger (s : Player) (event : String) (delta : Int) : Player :=
  match cfg.eventList event with
  | none => s
  | some aids =>
      markDirty (write s .achieves
        (aids.foldl (fun t aid => achieveProgress cfg t aid delta) (s.data .achieves))) .achieves

/-- A save starts; the mails are read one by one. -/
def begin (s : Player) (m : Kick.Module) (rest : List Kick.Module) : Player :=
  { s with
    saves := s.saves.set s.nextSave
      { module := m
        taken := if m = .mails then .empty else s.data m
        todo := if m = .mails then (s.data m).keys else ∅
        list := none
        written := false
        seen := s.changes m
        rest := rest }
    nextSave := s.nextSave + 1 }

/-- {lit}`add_coin`, up to its save. -/
def addCoin (s : Player) (count : Int) : Player :=
  let s := writeBase s fun b => { b with coin := b.coin + count }
  let s := achieveTrigger cfg s "earn_coin" count
  begin (markDirty s .base_info) .base_info []

/-- {lit}`add_rank_score`. -/
def addRankScore (s : Player) (count : Int) : Player :=
  let s := writeBase s fun b =>
    { b with rankScore := if b.rankScore + count < 0 then 0 else b.rankScore + count }
  markDirty s .base_info

/-- {lit}`set_level`. -/
def setLevel (b : BaseInfo) : BaseInfo :=
  { b with level := (b.exp : Rat) / 10 + 1 }

/-- {lit}`add_exp`. -/
def addExp (s : Player) (count : Int) : Player :=
  let s := writeBase s fun b =>
    setLevel { b with exp := if b.exp + count < 0 then 0 else b.exp + count }
  markDirty s .base_info

/-- {lit}`add_item` on the table: the table it leaves, and whether the item was added.  An item
that is new is put into the table before its capacity is checked. -/
def addToBag (t : Table Int) (itemId : Nat) (count : Int) : Table Int × Bool :=
  match cfg.maxStack itemId with
  | none => (t, false)
  | some maxStack =>
      match t.get itemId with
      | none => if count > maxStack then (t.set itemId 0, false) else (t.set itemId count, true)
      | some c => if c + count > maxStack then (t, false) else (t.set itemId (c + count), true)

/-- {lit}`add_item`. -/
def addItem (s : Player) (itemId : Nat) (count : Int) : Player :=
  let r := addToBag cfg (s.data .items) itemId count
  if r.2 then markDirty (write s .items r.1) .items else write s .items r.1

/-- {lit}`sub_item` on the table. -/
def subFromBag (t : Table Int) (itemId : Nat) (count : Int) : Option (Table Int) :=
  match cfg.maxStack itemId, t.get itemId with
  | some _, some c => if c < count then none else some (t.set itemId (c - count))
  | _, _ => none

/-- {lit}`sub_item`. -/
def subItem (s : Player) (itemId : Nat) (count : Int) : Player :=
  match subFromBag cfg (s.data .items) itemId count with
  | none => s
  | some t => markDirty (write s .items t) .items

/-! ## Mails -/

/-- {lit}`is_expired`. -/
def Mail.isExpired (m : Mail) (now : Nat) : Bool :=
  match m.expireTime with
  | none => false
  | some t => decide (t < now)

/-- What the loop of {lit}`claim_attachments` leaves. -/
structure Grants where
  bag : Table Int
  attachments : List AttachItem
  granted : List AttachItem
  refused : Bool

/-- The loop of {lit}`claim_attachments`. -/
def grantAll : Table Int → List AttachItem → Grants
  | t, [] => ⟨t, [], [], false⟩
  | t, a :: as =>
      if a.isClaimed then
        let r := grantAll t as
        { r with attachments := a :: r.attachments }
      else if (addToBag cfg t a.itemId a.count).2 then
        let r := grantAll (addToBag cfg t a.itemId a.count).1 as
        { r with
          attachments := { a with isClaimed := true } :: r.attachments
          granted := a :: r.granted }
      else ⟨(addToBag cfg t a.itemId a.count).1, a :: as, [], true⟩

/-- {lit}`rollback_grant` for each that was granted. -/
def rollback (t : Table Int) (granted : List AttachItem) : Table Int :=
  granted.foldl (fun t a => (subFromBag cfg t a.itemId a.count).getD t) t

/-- {lit}`mail_read`. -/
def mailRead (s : Player) (mid now : Nat) : Player :=
  match (s.data .mails).get mid with
  | none => s
  | some m =>
      if m.isExpired now then s
      else
        let m : Mail := { m with isRead := true }
        markDirty (write s .mails ((s.data .mails).set mid m)) .mails

/-- The bag after a claim; {lit}`add_item` marks it for each item that was added. -/
def claimBag (s : Player) (r : Grants) (bag : Table Int) : Player :=
  if r.granted = [] then write s .items bag else markDirty (write s .items bag) .items

/-- {lit}`mail_claim`.  A refusal gives the attachments their flags back. -/
def mailClaim (s : Player) (mid now : Nat) : Player :=
  match (s.data .mails).get mid with
  | none => s
  | some m =>
      if m.isExpired now then s
      else
        let r := grantAll cfg (s.data .items) m.attachments
        if r.refused then claimBag s r (rollback cfg r.bag r.granted)
        else if r.granted = [] then s
        else
          let m : Mail := { m with attachments := r.attachments }
          let s := claimBag s r r.bag
          markDirty (write s .mails ((s.data .mails).set mid m)) .mails

/-- {lit}`mail_delete`. -/
def mailDelete (s : Player) (mid : Nat) : Player :=
  match (s.data .mails).get mid with
  | none => s
  | some m =>
      if m.attachments.all (·.isClaimed) then
        let s := write s .mails ((s.data .mails).erase mid)
        let deleted := s.list s.deletedMailsId ++ [mid]
        markDirty { s with list := Function.update s.list s.deletedMailsId deleted } .mails
      else s

/-! ## Saves -/

/-- Whether a save has nothing to wait for. -/
def nothing (s : Player) : Kick.Module → Bool
  | .base_info => false
  | .achieves => decide ((s.data .achieves).keys = ∅)
  | .items => decide ((s.data .items).keys = ∅)
  | .mails => decide ((s.data .mails).keys = ∅) && (s.list s.deletedMailsId).isEmpty

/-- A save has succeeded; {lit}`leave_mail` starts a new table of deleted mails. -/
def succeeded (s : Player) (m : Kick.Module) : Player :=
  let s := { s with dirty := Function.update s.dirty m false }
  if m = .mails then
    { s with
      deletedMailsId := s.deletedMailsId + 1
      list := Function.update s.list (s.deletedMailsId + 1) [] }
  else s

/-- {lit}`save_all` from a module on. -/
def saveFrom (s : Player) : List Kick.Module → Player
  | [] => s
  | m :: ms =>
      if s.dirty m then
        if nothing s m then saveFrom (succeeded s m) ms else begin s m ms
      else saveFrom s ms

/-- {lit}`save_all`. -/
def saveAll (s : Player) : Player :=
  saveFrom s [.base_info, .achieves, .items, .mails]

/-- The stored table when the rows of a save have been stored.  A mail is updated where it
is, and the deleted ones are deleted. -/
def stored {m : Kick.Module} (taken old : Table (Row m)) (deleted : List Nat) : Nat → Option (Row m) :=
  fun k =>
    if m = .mails then
      if k ∈ deleted then none else (old.get k).map fun v => (taken.get k).getD v
    else (taken.get k).or (old.get k)

/-- The stored table of a save. -/
def storedTable {m : Kick.Module} (taken old : Table (Row m)) (deleted : List Nat) : Table (Row m) where
  get := stored taken old deleted
  keys := (taken.keys ∪ old.keys).filter fun k => (stored taken old deleted k).isSome
  mem_keys k := by
    simp only [Finset.mem_filter, Finset.mem_union, Table.mem_keys, and_iff_right_iff_imp]
    intro h
    unfold stored at h
    split at h
    · split at h
      · cases h
      · simp only [Option.isSome_map] at h
        exact Or.inr h
    · simpa [Option.isSome_or] using h

/-- A save goes on. -/
def goOn (s : Player) (i : Nat) (x : Save) : Player :=
  { s with saves := s.saves.set i x }

/-- Redis has failed to store the bag or the achievements. -/
def fallback (s : Player) (i : Nat) (x : Save) : Option Player :=
  if x.module = .mails ∨ x.module = .base_info ∨ x.written = true then none
  else some (goOn s i
    { x with
      taken := .empty
      todo := (s.data x.module).keys
      seen := s.changes x.module })

/-- The save reads a row that it has not read yet. -/
def readRow (s : Player) (i : Nat) (x : Save) (k : Nat) : Option Player :=
  if k ∈ x.todo then
    some (goOn s i
      { x with
        taken := match (s.data x.module).get k with
          | some v => x.taken.set k v
          | none => x.taken
        todo := x.todo.erase k })
  else none

/-- The save of the mails comes to the deleted ones. -/
def deletions (s : Player) (i : Nat) (x : Save) : Option Player :=
  if x.module = .mails ∧ x.todo = ∅ ∧ x.list = none then
    some (goOn s i { x with list := some s.deletedMailsId })
  else none

/-- Every row is read, and of the mails the deleted ones too. -/
def Save.complete (x : Save) : Bool :=
  decide (x.todo = ∅) && (decide (x.module ≠ .mails) || x.list.isSome)

/-- What the save has taken is stored. -/
def store (s : Player) (i : Nat) (x : Save) : Option Player :=
  if x.complete && !x.written then
    let deleted := (x.list.map s.list).getD []
    let s := goOn s i { x with written := true }
    some { s with
      persisted := Function.update s.persisted x.module
        (storedTable x.taken (s.persisted x.module) deleted) }
  else none

/-- A save ends.  One that raises leaves the flag as it is and ends what called it. -/
def finish (s : Player) (i : Nat) (x : Save) : Result → Option Player
  | .saved =>
      if x.written then
        some (saveFrom (succeeded { s with saves := s.saves.erase i } x.module) x.rest)
      else none
  | .failed =>
      if x.written then none
      else some (saveFrom (markDirty { s with saves := s.saves.erase i } x.module) x.rest)
  | .raised => some { s with saves := s.saves.erase i }

/-- One step. -/
def step (s : Player) : Event → Option Player
  | .addCoin count => some (addCoin cfg s count)
  | .addRankScore count => some (addRankScore s count)
  | .addExp count => some (addExp s count)
  | .addItem itemId count => some (addItem cfg s itemId count)
  | .subItem itemId count => some (subItem cfg s itemId count)
  | .achieveTrigger event delta => some (achieveTrigger cfg s event delta)
  | .mailRead mid now => some (mailRead s mid now)
  | .mailClaim mid now => some (mailClaim cfg s mid now)
  | .mailDelete mid => some (mailDelete s mid)
  | .saveAll => some (saveAll s)
  | .fallback i => (s.saves.get i).bind (fallback s i)
  | .row i k => (s.saves.get i).bind (readRow s i · k)
  | .deletions i => (s.saves.get i).bind (deletions s i)
  | .store i => (s.saves.get i).bind (store s i)
  | .finish i r => (s.saves.get i).bind (finish s i · r)

/-- An agent whose tables are as they are stored. -/
def start (data : (m : Kick.Module) → Table (Row m)) : Player where
  data := data
  dirty := fun _ => false
  persisted := data
  deletedMailsId := 0
  list := fun _ => []
  saves := .empty
  nextSave := 0
  changes := fun _ => 0

/-- A run. -/
def run (s : Player) : List Event → Option Player
  | [] => some s
  | e :: es => (step cfg s e).bind (run · es)

end BallServer.Agent.Dirty
