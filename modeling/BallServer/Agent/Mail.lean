import BallServer.Table

/-!
# The mails of a player

An agent keeps the mails of its player as objects.  They come from {lit}`mail_init`, when
the agent starts, and from {lit}`new_mail`, with the object that {lit}`send_mail` made or
with a {lit}`batch_id` by which the agent loads the mail itself.  Attachments are claimed
in memory; {lit}`leave_mail` writes the flags back, from time to time and when the player
is kicked.

Every query is executed by mysql some time after it was sent, and its answer arrives some
time later; between two queries a coroutine runs without a break.  A query of an agent
that is gone is executed all the same.  A login follows a kick that has finished.

The field {lit}`granted` does not exist in the program.  It records the attachments that
were added to the bag by a claim that succeeded.

Main results:

- Definition {lit}`Post.step`: the agents of a player and mysql.
-/

namespace BallServer.Agent

/-- {lit}`attach_item`, with the id of its row. -/
structure AttachItem where
  id : Nat
  isClaimed : Bool
deriving DecidableEq, Repr

/-- {lit}`mail`. -/
structure MailObject where
  mailId : Nat
  attachments : List AttachItem
deriving DecidableEq, Repr

/-- {lit}`claim_attachments`: the loop over the attachments from a position on.  It keeps
the rows it grants; an item that does not fit into the bag ends it. -/
def grantAll (addItem : Nat → Bool) : Nat → List AttachItem → Option (List AttachItem × List Nat)
  | _, [] => some ([], [])
  | i, a :: as =>
      if a.isClaimed then (grantAll addItem (i + 1) as).map fun r => (a :: r.1, r.2)
      else if addItem i then
        (grantAll addItem (i + 1) as).map fun r => ({ a with isClaimed := true } :: r.1, a.id :: r.2)
      else none

/-- {lit}`claim_attachments`.  When an item does not fit, what was granted is rolled
back. -/
def claimAttachments (expired : Bool) (addItem : Nat → Bool) (as : List AttachItem) :
    Option (List AttachItem × List Nat) :=
  if expired then none
  else
    match grantAll addItem 0 as with
    | none => none
    | some (as', granted) => if granted = [] then none else some (as', granted)

/-- {lit}`can_delete`. -/
def canDelete (as : List AttachItem) : Bool :=
  as.all (·.isClaimed)

/-- A query to mysql. -/
inductive Query where
  /-- The mails of the player. -/
  | mails
  /-- The mail of a batch. -/
  | mail (mid : Nat)
  | attachments (mid : Nat)
  | updateRead (mid : Nat)
  | updateClaimed (id : Nat) (isClaimed : Bool)
  | delete (mid : Nat)
deriving DecidableEq, Repr

/-- An answer of mysql. -/
inductive Reply where
  | mails (mids : List Nat)
  | found (b : Bool)
  | attachments (as : List AttachItem)
  | done
deriving DecidableEq, Repr

/-- What a coroutine does with the answer.  The coroutine of a kick is told apart. -/
inductive Cont where
  /-- {lit}`mail_init`, with the mails. -/
  | initRows
  /-- {lit}`mail_init`, with the attachments of an object. -/
  | initAttachments (object : Nat)
  /-- {lit}`load_mail_by_batch_id`. -/
  | batchMail (mid : Nat)
  | batchAttachments (mid : Nat)
  /-- {lit}`leave_mail`, at an attachment of an object; some mails are visited. -/
  | saveMails (kick : Bool) (visited : List Nat) (object i : Nat)
  /-- {lit}`leave_mail`, in a table of deleted mails. -/
  | saveDeleted (kick : Bool) (list i : Nat)
deriving DecidableEq, Repr

/-- A coroutine that waits for mysql, of one of the player's agents. -/
structure MailTask where
  agent : Nat
  query : Query
  reply : Option Reply
  cont : Cont
deriving DecidableEq, Repr

/-- How far the kick is. -/
inductive KickPhase where
  | normal
  /-- {lit}`kick` waits until nothing waits for an answer. -/
  | waiting
  /-- {lit}`kick` does what comes before the mails. -/
  | leaving
  /-- {lit}`kick` is in {lit}`leave_mail`. -/
  | saving
  | kicked
deriving DecidableEq, Repr

/-- Mysql, the agent, and what the player was granted.  Tables that are replaced while a
loop is in them are objects. -/
structure Post where
  stored : Finset Nat
  attachments : Nat → List Nat
  isClaimed : Nat → Bool
  nextMail : Nat
  nextId : Nat
  agent : Nat
  phase : KickPhase
  mails : Table Nat
  object : Nat → MailObject
  nextObject : Nat
  deletedMailsId : Nat
  list : Nat → List Nat
  nextList : Nat
  tasks : Table MailTask
  nextTask : Nat
  granted : List Nat

/-- What can happen. -/
inductive PostEvent where
  /-- A mail with some attachments is stored for the player. -/
  | store (count : Nat)
  /-- {lit}`new_mail` arrives with the object of a mail. -/
  | newMail (mid : Nat)
  /-- {lit}`new_mail` arrives with a {lit}`batch_id`. -/
  | newBatch (mid : Nat)
  | mailInit
  | mailClaim (mid : Nat) (expired : Bool) (addItem : Nat → Bool)
  | mailDelete (mid : Nat)
  /-- The timer saves. -/
  | save (next : Option Nat)
  /-- Mysql executes a query; it lists the mails in some order. -/
  | execute (t : Nat) (mids : List Nat)
  /-- An answer arrives; {lit}`pairs` goes on to a mail. -/
  | answer (t : Nat) (next : Option Nat)
  | kick
  /-- Nothing waits for an answer. -/
  | idle
  | kickSave (next : Option Nat)
  | login

namespace Post

/-- Nothing is stored yet. -/
def start : Post where
  stored := ∅
  attachments := fun _ => []
  isClaimed := fun _ => false
  nextMail := 0
  nextId := 0
  agent := 0
  phase := .normal
  mails := .empty
  object := fun _ => ⟨0, []⟩
  nextObject := 0
  deletedMailsId := 0
  list := fun _ => []
  nextList := 1
  tasks := .empty
  nextTask := 0
  granted := []

/-- A coroutine sends a query and waits. -/
def wait (p : Post) (t : Nat) (query : Query) (cont : Cont) : Post :=
  { p with tasks := p.tasks.set t ⟨p.agent, query, none, cont⟩ }

/-- A coroutine starts. -/
def fork (p : Post) (query : Query) (cont : Cont) : Post :=
  { p.wait p.nextTask query cont with nextTask := p.nextTask + 1 }

/-- A coroutine ends. -/
def finish (p : Post) (t : Nat) : Post :=
  { p with tasks := p.tasks.erase t }

/-- {lit}`s.data.mails[mid] = m` for a new object. -/
def install (p : Post) (mid : Nat) (as : List AttachItem) : Post :=
  { p with
    mails := p.mails.set mid p.nextObject
    object := Function.update p.object p.nextObject ⟨mid, as⟩
    nextObject := p.nextObject + 1 }

/-- Change the attachments of an object. -/
def setAttachments (p : Post) (o : Nat) (as : List AttachItem) : Post :=
  { p with object := Function.update p.object o { p.object o with attachments := as } }

/-- {lit}`mail_init`: its second loop goes on to a mail, or ends. -/
def initNext (p : Post) (t : Nat) : Option Nat → Option Post
  | none => some (p.finish t)
  | some mid =>
      match p.mails.get mid with
      | none => none
      | some o => some (p.wait t (.attachments mid) (.initAttachments o))

/-- {lit}`leave_mail`: its second loop, from a position of the table, and its end. -/
def deleteNext (p : Post) (t : Nat) (kick : Bool) (list i : Nat) : Post :=
  match (p.list list)[i]? with
  | some mid => p.wait t (.delete mid) (.saveDeleted kick list (i + 1))
  | none =>
      { p.finish t with
        deletedMailsId := p.nextList
        list := Function.update p.list p.nextList []
        nextList := p.nextList + 1
        phase := if kick then .kicked else p.phase }

/-- {lit}`leave_mail`: its first loop goes on to a mail it has not visited, or ends.  A
loop that mails were added to may miss some; none are added during a kick. -/
def saveNext (p : Post) (t : Nat) (kick : Bool) (visited : List Nat) : Option Nat → Option Post
  | none =>
      if kick = true ∧ ¬ p.mails.keys ⊆ visited.toFinset then none
      else some (p.deleteNext t kick p.deletedMailsId 0)
  | some mid =>
      match p.mails.get mid with
      | none => none
      | some o =>
          if mid ∈ visited then none
          else some (p.wait t (.updateRead mid) (.saveMails kick (mid :: visited) o 0))

/-- {lit}`leave_mail`: the attachments of an object from a position on. -/
def saveAttachments (p : Post) (t : Nat) (kick : Bool) (visited : List Nat) (o i : Nat)
    (next : Option Nat) : Option Post :=
  match (p.object o).attachments[i]? with
  | some a =>
      some (p.wait t (.updateClaimed a.id a.isClaimed) (.saveMails kick visited o (i + 1)))
  | none => p.saveNext t kick visited next

/-- A coroutine goes on with its answer. -/
def resume (p : Post) (t : Nat) (next : Option Nat) : Cont → Reply → Option Post
  | .initRows, .mails mids => (mids.foldl (fun p mid => p.install mid []) p).initNext t next
  | .initAttachments o, .attachments as =>
      (p.setAttachments o ((p.object o).attachments ++ as)).initNext t next
  | .batchMail _, .found false => some (p.finish t)
  | .batchMail mid, .found true => some (p.wait t (.attachments mid) (.batchAttachments mid))
  | .batchAttachments mid, .attachments as => some ((p.install mid as).finish t)
  | .saveMails kick visited o i, .done => p.saveAttachments t kick visited o i next
  | .saveDeleted kick list i, .done => some (p.deleteNext t kick list i)
  | _, _ => none

/-- What mysql answers; the rows of a deleted mail are gone with it. -/
def reply (p : Post) (mids : List Nat) : Query → Reply
  | .mails => .mails (mids.filter (· ∈ p.stored))
  | .mail mid => .found (decide (mid ∈ p.stored))
  | .attachments mid =>
      .attachments (if mid ∈ p.stored then (p.attachments mid).map fun r => ⟨r, p.isClaimed r⟩
        else [])
  | .updateRead _ | .updateClaimed _ _ | .delete _ => .done

/-- What mysql changes. -/
def execute (p : Post) : Query → Post
  | .updateClaimed id b => { p with isClaimed := Function.update p.isClaimed id b }
  | .delete mid => { p with stored := p.stored.erase mid }
  | .mails | .mail _ | .attachments _ | .updateRead _ => p

/-- One event. -/
def step (p : Post) : PostEvent → Option Post
  | .store n =>
      some { p with
        stored := insert p.nextMail p.stored
        attachments := Function.update p.attachments p.nextMail (List.range' p.nextId n)
        nextMail := p.nextMail + 1
        nextId := p.nextId + n }
  | .newMail mid =>
      if p.phase = .normal ∧ mid < p.nextMail then
        some (p.install mid ((p.attachments mid).map fun r => ⟨r, false⟩))
      else none
  | .newBatch mid =>
      if p.phase = .normal ∧ mid < p.nextMail then some (p.fork (.mail mid) (.batchMail mid))
      else none
  | .mailInit => if p.phase = .normal then some (p.fork .mails .initRows) else none
  | .mailClaim mid expired addItem =>
      match p.phase, p.mails.get mid with
      | .normal, some o =>
          match claimAttachments expired addItem (p.object o).attachments with
          | none => some p
          | some (as, granted) => some { p.setAttachments o as with granted := p.granted ++ granted }
      | _, _ => none
  | .mailDelete mid =>
      match p.phase, p.mails.get mid with
      | .normal, some o =>
          if canDelete (p.object o).attachments then
            some { p with
              mails := p.mails.erase mid
              list := Function.update p.list p.deletedMailsId (p.list p.deletedMailsId ++ [mid]) }
          else some p
      | _, _ => none
  | .save next => { p with nextTask := p.nextTask + 1 }.saveNext p.nextTask false [] next
  | .execute t mids =>
      match p.tasks.get t with
      | some ⟨agent, query, none, cont⟩ =>
          some { p.execute query with
            tasks := p.tasks.set t ⟨agent, query, some (p.reply mids query), cont⟩ }
      | _ => none
  | .answer t next =>
      match p.tasks.get t with
      | some ⟨agent, _, some reply, cont⟩ =>
          if agent = p.agent then p.resume t next cont reply else some (p.finish t)
      | _ => none
  | .kick => if p.phase = .normal then some { p with phase := .waiting } else none
  | .idle =>
      if p.phase = .waiting ∧ ∀ t ∈ p.tasks.keys, ∀ k, p.tasks.get t = some k →
        k.agent ≠ p.agent then some { p with phase := .leaving }
      else none
  | .kickSave next =>
      if p.phase = .leaving then
        { p with nextTask := p.nextTask + 1, phase := .saving }.saveNext p.nextTask true [] next
      else none
  | .login =>
      if p.phase = .kicked then
        some { p with
          agent := p.agent + 1
          phase := .normal
          mails := .empty
          deletedMailsId := p.nextList
          list := Function.update p.list p.nextList []
          nextList := p.nextList + 1 }
      else none

/-- A sequence of events. -/
def run (p : Post) : List PostEvent → Option Post
  | [] => some p
  | e :: es => do
      let p ← p.step e
      p.run es

/-- The states reached by events that meet a condition. -/
inductive Reach (ok : Post → PostEvent → Prop) : Post → Prop where
  | start : Reach ok start
  | step {p p' : Post} {e : PostEvent} (hr : Reach ok p) (he : ok p e)
      (hs : p.step e = some p') : Reach ok p'

end Post

end BallServer.Agent
