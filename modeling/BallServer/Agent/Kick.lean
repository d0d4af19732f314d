import Mathlib.Data.List.Basic
import Mathlib.Logic.Function.Basic

/-!
# A kick

{lit}`s.resp.kick` leaves the match, saves the four modules, asks {lit}`dbsync` to write
them back and sets the state to {lit}`KICKED`, for which {lit}`s.resp.exit` waits.  A
command of redis raises its errors, a query returns them, and both raise when the call
raises.  What raises outside of a {lit}`pcall` ends the handler where it is.  An error that is
caught need not be a text: a lost connection raises a table, and the save of the bag or of the
achievements raises when it puts such an error into its report.

The kick starts when the calls that other handlers have made are over.  A command is named
by what it does and by the position of its row, so it is executed once at most.

Main results:

- Definitions {lit}`saveBaseData`, {lit}`saveFields`, {lit}`leaveMail` and {lit}`kick`.
- Theorem {lit}`kick_completes`: a kick ends in {lit}`KICKED` with every module saved or its
  failure reported exactly when no command outside of a {lit}`pcall` raises.
- Theorem {lit}`kick_stuck`: it stays in {lit}`KICKING` when one does.
-/

namespace BallServer.Agent.Kick

/-- The modules of {lit}`s.dirty`. -/
inductive Module where
  | base_info
  | achieves
  | items
  | mails
deriving DecidableEq, Repr

/-- {lit}`PLAYER_STATE`. -/
inductive PlayerState where
  | normal
  | kicking
  | kicked
deriving DecidableEq, Repr

/-- The commands of a kick. -/
inductive Command where
  | leave
  /-- {lit}`set` or {lit}`hmset`. -/
  | set (m : Module)
  | del (m : Module)
  | expire (m : Module)
  | sadd (m : Module)
  /-- The query that saves a row of a module in mysql. -/
  | row (m : Module) (i : Nat)
  | readMail (i : Nat)
  | claim (i j : Nat)
  | deleteMail (i : Nat)
  | sync
deriving DecidableEq, Repr

/-- How a command ends.  An error value is a text. -/
inductive Outcome where
  | value
  | error
  | raise
  /-- The error that is raised is a table. -/
  | raiseTable
deriving DecidableEq, Repr

/-- A value that is raised. -/
inductive Thrown where
  | text
  | table
deriving DecidableEq, Repr

/-- What a failed save writes to the log: the module, and the row or mail. -/
structure Report where
  module : Module
  command : Command
deriving DecidableEq, Repr

/-- What a kick reads and writes; the rows of the bag and of the achievements are counted, and
so are the attachments of each mail. -/
structure Player where
  state : PlayerState
  dirty : Module → Bool
  items : Nat
  achieves : Nat
  mails : List Nat
  deletedMails : List Nat
  reports : List Report

/-- A command of redis; {lit}`build_methods` raises its errors. -/
def redis (o : Command → Outcome) (c : Command) : Except Thrown Unit :=
  match o c with
  | .value => .ok ()
  | .error => .error .text
  | .raise => .error .text
  | .raiseTable => .error .table

/-- A query: whether it has succeeded. -/
def query (o : Command → Outcome) (c : Command) : Except Thrown Bool :=
  match o c with
  | .value => .ok true
  | .error => .ok false
  | .raise => .error .text
  | .raiseTable => .error .table

/-- {lit}`pcall`: the error it has caught. -/
def pcall {α : Type} (x : Except Thrown α) : Option Thrown :=
  match x with
  | .ok _ => none
  | .error err => some err

/-- {lit}`".." .. err`: a table cannot be concatenated. -/
def concat (err : Thrown) : Except Thrown Unit :=
  match err with
  | .text => .ok ()
  | .table => .error .text

/-- The queries of a save, up to the first that fails; none is a success. -/
def queries (o : Command → Outcome) : List Command → Except Thrown (Option Command)
  | [] => .ok none
  | c :: cs => do
      if ← query o c then queries o cs
      else .ok (some c)

/-- {lit}`save_base_data`; none is a success.  Its report makes a text of the error first. -/
def saveBaseData (o : Command → Outcome) : Except Thrown (Option Command) := do
  match pcall (redis o (.set .base_info)) with
  | some _ => queries o [.row .base_info 0]
  | none =>
      redis o (.expire .base_info)
      redis o (.sadd .base_info)
      .ok none

/-- The queries for the rows of a module. -/
def rows (m : Module) (n : Nat) : List Command :=
  (List.range n).map (.row m)

/-- The saves of the bag and of the achievements. -/
def saveFields (o : Command → Outcome) (m : Module) (n : Nat) :
    Except Thrown (Option Command) := do
  if n = 0 then .ok none
  else
    match pcall (redis o (.set m)) with
    | some err =>
        concat err
        redis o (.del m)
        queries o (rows m n)
    | none =>
        redis o (.expire m)
        redis o (.sadd m)
        .ok none

/-- {lit}`save_achieve`. -/
def saveAchieve (o : Command → Outcome) (a : Player) : Except Thrown (Option Command) :=
  saveFields o .achieves a.achieves

/-- {lit}`save_bag`. -/
def saveBag (o : Command → Outcome) (a : Player) : Except Thrown (Option Command) :=
  saveFields o .items a.items

/-- The queries of {lit}`leave_mail`: every mail with its attachments, then the deletions. -/
def mailQueries (a : Player) : List Command :=
  (a.mails.zipIdx.flatMap fun x => .readMail x.2 :: (List.range x.1).map (.claim x.2)) ++
    (List.range a.deletedMails.length).map .deleteMail

/-- {lit}`leave_mail`. -/
def leaveMail (o : Command → Outcome) (a : Player) : Except Thrown (Option Command) :=
  queries o (mailQueries a)

/-- A module after its save. -/
def Player.saved (a : Player) (m : Module) (failed : Option Command) : Player :=
  { a with
    dirty := Function.update a.dirty m failed.isSome
    deletedMails := if m = .mails ∧ failed = none then [] else a.deletedMails
    reports := (failed.map (Report.mk m)).toList ++ a.reports }

/-- A module of {lit}`save_all`; what raises leaves the agent as it is. -/
def saveModule (m : Module) (save : Player → Except Thrown (Option Command)) (a : Player) :
    Except Player Player :=
  if a.dirty m then
    match save a with
    | .error _ => .error a
    | .ok failed => .ok (a.saved m failed)
  else .ok a

/-- {lit}`save_all`. -/
def saveAll (o : Command → Outcome) (a : Player) : Except Player Player := do
  let a ← saveModule .base_info (fun _ => saveBaseData o) a
  let a ← saveModule .achieves (saveAchieve o) a
  let a ← saveModule .items (saveBag o) a
  saveModule .mails (leaveMail o) a

/-- {lit}`raw_call` to {lit}`sync_player`. -/
def callSync (o : Command → Outcome) (a : Player) : Except Player Player :=
  match o .sync with
  | .raise => .error a
  | .raiseTable => .error a
  | _ => .ok a

/-- {lit}`s.resp.kick`; {lit}`leave_match_or_room` is a {lit}`pcall` whose result nobody
reads. -/
def kick (o : Command → Outcome) (a : Player) : Player :=
  if a.state = .kicked ∨ a.state = .kicking then a
  else
    let _ := pcall (query o .leave)
    let a := { a with state := .kicking, dirty := fun _ => true }
    match (do callSync o (← saveAll o a) : Except Player Player) with
    | .error a => a
    | .ok a => { a with state := .kicked }

/-- {lit}`s.resp.exit` after the kick: none while it goes on waiting, and whether it has ended
the service. -/
def exit (a : Player) : Option Bool :=
  match a.state with
  | .kicking => none
  | .kicked => some true
  | .normal => some false

/-- A module is saved, or its failure is in the log. -/
def Player.Settled (a : Player) (m : Module) : Prop :=
  a.dirty m = false ∨ ∃ r ∈ a.reports, r.module = m

/-- The kick is over, and the exit handler ends the service. -/
def Player.Completed (a : Player) : Prop :=
  a.state = .kicked ∧ (∀ m, a.Settled m) ∧ exit a = some true

/-! ## When a kick completes -/

/-- The command raises. -/
def Outcome.Raises (x : Outcome) : Prop :=
  x = .raise ∨ x = .raiseTable

/-- The first query that does not succeed does not raise. -/
def Quiet (o : Command → Outcome) (cs : List Command) : Prop :=
  ∀ c, cs.find? (fun c => o c ≠ .value) = some c → ¬ (o c).Raises

/-- The key lives on and the player is in the dirty set. -/
def Marks (o : Command → Outcome) (m : Module) : Prop :=
  o (.expire m) = .value ∧ o (.sadd m) = .value

/-- A hash is saved without raising; an error of {lit}`hmset` is a text. -/
def FieldsQuiet (o : Command → Outcome) (m : Module) (n : Nat) : Prop :=
  n = 0 ∨ (o (.set m) = .value ∧ Marks o m) ∨
    (o (.set m) ≠ .value ∧ o (.set m) ≠ .raiseTable ∧ o (.del m) = .value ∧ Quiet o (rows m n))

/-- No command outside of a {lit}`pcall` raises. -/
structure AllQuiet (o : Command → Outcome) (a : Player) : Prop where
  base : (o (.set .base_info) = .value ∧ Marks o .base_info) ∨
    (o (.set .base_info) ≠ .value ∧ ¬ (o (.row .base_info 0)).Raises)
  achieves : FieldsQuiet o .achieves a.achieves
  items : FieldsQuiet o .items a.items
  mails : Quiet o (mailQueries a)
  sync : ¬ (o .sync).Raises

theorem queries_isOk {o : Command → Outcome} {cs : List Command} :
    (queries o cs).isOk = true ↔ Quiet o cs := by
  induction cs with
  | nil => simp [queries, Quiet, Except.isOk, Except.toBool]
  | cons c cs ih =>
      cases hc : o c with
      | value =>
          have hq : queries o (c :: cs) = queries o cs := by
            simp [queries, query, hc, bind, Except.bind]
          rw [hq, ih]
          simp [Quiet, hc]
      | error | raise | raiseTable =>
          simp [queries, query, hc, bind, Except.bind, Quiet, Outcome.Raises, Except.isOk,
            Except.toBool]

/-- The two commands after a write to redis. -/
theorem marks_isOk {o : Command → Outcome} {m : Module} :
    (do
      redis o (.expire m)
      redis o (.sadd m)
      Except.ok none : Except Thrown (Option Command)).isOk = true ↔ Marks o m := by
  cases hd : o (.expire m) <;> cases he : o (.sadd m) <;>
    simp [redis, Marks, hd, he, bind, Except.bind, Except.isOk, Except.toBool]

theorem saveBaseData_isOk {o : Command → Outcome} :
    (saveBaseData o).isOk = true ↔ (o (.set .base_info) = .value ∧ Marks o .base_info) ∨
      (o (.set .base_info) ≠ .value ∧ ¬ (o (.row .base_info 0)).Raises) := by
  have hrow : Quiet o [.row .base_info 0] ↔ ¬ (o (.row .base_info 0)).Raises := by
    cases hc : o (.row .base_info 0) <;> simp [Quiet, Outcome.Raises, hc]
  unfold saveBaseData
  cases hset : o (.set .base_info) with
  | value => simpa [redis, pcall, hset] using marks_isOk
  | error | raise | raiseTable =>
      simp only [redis, pcall, hset, reduceCtorEq, false_and, false_or, ne_eq, not_false_eq_true,
        true_and]
      exact queries_isOk.trans hrow

theorem saveFields_isOk {o : Command → Outcome} {m : Module} {n : Nat} :
    (saveFields o m n).isOk = true ↔ FieldsQuiet o m n := by
  unfold saveFields FieldsQuiet
  by_cases hn : n = 0
  · simp [hn, Except.isOk, Except.toBool]
  have hdel : (do
      redis o (.del m)
      queries o (rows m n) : Except Thrown (Option Command)).isOk = true ↔
      o (.del m) = .value ∧ Quiet o (rows m n) := by
    rw [← queries_isOk]
    cases hc : o (.del m) <;>
      simp [redis, hc, bind, Except.bind, Except.isOk, Except.toBool]
  simp only [hn, if_false, false_or]
  cases hset : o (.set m) with
  | value => simpa [redis, pcall, hset] using marks_isOk
  | error | raise =>
      simp only [redis, pcall, hset, concat, reduceCtorEq, false_and, false_or, ne_eq,
        not_false_eq_true, true_and]
      exact hdel
  | raiseTable =>
      -- the report of the failure cannot be made
      simp [redis, pcall, hset, concat, bind, Except.bind, Except.isOk, Except.toBool]

/-- What the save of a module leaves. -/
structure Saves (m : Module) (a a' : Player) : Prop where
  state : a'.state = a.state
  items : a'.items = a.items
  achieves : a'.achieves = a.achieves
  mails : a'.mails = a.mails
  deletedMails : m ≠ .mails → a'.deletedMails = a.deletedMails
  settled : a'.Settled m
  dirty : ∀ m', m' ≠ m → a'.dirty m' = a.dirty m'
  keeps : ∀ m', m' ≠ m → a.Settled m' → a'.Settled m'

/-- A dirty module is saved or its save raises. -/
theorem saveModule_cases {m : Module} {f : Player → Except Thrown (Option Command)} {a : Player}
    (hd : a.dirty m = true) :
    ((f a).isOk = false ∧ saveModule m f a = .error a) ∨
      (f a).isOk = true ∧ ∃ a', saveModule m f a = .ok a' ∧ Saves m a a' := by
  cases hs : f a with
  | error _ => exact .inl ⟨rfl, by simp [saveModule, hd, hs]⟩
  | ok failed =>
      refine .inr ⟨rfl, a.saved m failed, by simp [saveModule, hd, hs], ?_⟩
      refine ⟨rfl, rfl, rfl, rfl, fun hm => by simp [Player.saved, hm], ?_, ?_, ?_⟩
      · cases failed with
        | none => exact .inl (Function.update_self ..)
        | some c => exact .inr ⟨⟨m, c⟩, List.mem_cons_self .., rfl⟩
      · exact fun m' hm' => Function.update_of_ne hm' ..
      · rintro m' hm' (hdirty | ⟨r, hr, hrm⟩)
        · exact .inl ((Function.update_of_ne hm' ..).trans hdirty)
        · exact .inr ⟨r, List.mem_append_right _ hr, hrm⟩

/-- All modules are saved, or one of the saves raises. -/
theorem saveAll_cases {o : Command → Outcome} {a : Player} (hd : ∀ m, a.dirty m = true) :
    (∃ a', saveAll o a = .ok a' ∧ a'.state = a.state ∧ (∀ m, a'.Settled m) ∧
      (saveBaseData o).isOk = true ∧ FieldsQuiet o .achieves a.achieves ∧
      FieldsQuiet o .items a.items ∧ Quiet o (mailQueries a)) ∨
    (∃ a', saveAll o a = .error a' ∧ a'.state = a.state ∧
      ¬ ((saveBaseData o).isOk = true ∧ FieldsQuiet o .achieves a.achieves ∧
        FieldsQuiet o .items a.items ∧ Quiet o (mailQueries a))) := by
  unfold saveAll
  simp only [bind, Except.bind]
  rcases saveModule_cases (m := .base_info) (f := fun _ => saveBaseData o) (hd _) with
    ⟨hno, hb⟩ | ⟨hok, b, hb, hsb⟩ <;> simp only [hb]
  · exact .inr ⟨a, rfl, rfl, fun h => by simp [hno] at h⟩
  have hdb := fun m hm => (hsb.dirty m hm).trans (hd m)
  rcases saveModule_cases (m := .achieves) (f := saveAchieve o) (hdb _ nofun) with
    ⟨hno, hc⟩ | ⟨hoka, c, hc, hsc⟩ <;> simp only [hc]
  · refine .inr ⟨b, rfl, hsb.state, fun h => ?_⟩
    rw [← hsb.achieves, ← saveFields_isOk] at h
    exact absurd h.2.1 (by simpa [saveAchieve] using hno)
  have hdc := fun m hm hm' => (hsc.dirty m hm).trans (hdb m hm')
  rcases saveModule_cases (m := .items) (f := saveBag o) (hdc _ nofun nofun) with
    ⟨hno, hd'⟩ | ⟨hoki, d, hd', hsd⟩ <;> simp only [hd']
  · refine .inr ⟨c, rfl, hsc.state.trans hsb.state, fun h => ?_⟩
    have hitems := hsc.items.trans hsb.items
    rw [← hitems, ← saveFields_isOk (m := .items)] at h
    exact absurd h.2.2.1 (by simpa [saveBag] using hno)
  have hdd := fun m hm hm' hm'' => (hsd.dirty m hm).trans (hdc m hm' hm'')
  have hstate := hsd.state.trans (hsc.state.trans hsb.state)
  have hqueries : mailQueries d = mailQueries a := by
    simp only [mailQueries, hsd.mails, hsc.mails, hsb.mails, hsd.deletedMails nofun,
      hsc.deletedMails nofun, hsb.deletedMails nofun]
  rcases saveModule_cases (m := .mails) (f := leaveMail o) (hdd _ nofun nofun nofun) with
    ⟨hno, he⟩ | ⟨hokm, e, he, hse⟩ <;> simp only [he]
  · refine .inr ⟨d, rfl, hstate, fun h => ?_⟩
    rw [← hqueries, ← queries_isOk] at h
    exact absurd h.2.2.2 (by simpa [leaveMail] using hno)
  refine .inl ⟨e, rfl, hse.state.trans hstate, fun m => ?_, hok, ?_, ?_, ?_⟩
  · cases m with
    | base_info =>
        exact hse.keeps _ nofun (hsd.keeps _ nofun (hsc.keeps _ nofun hsb.settled))
    | achieves => exact hse.keeps _ nofun (hsd.keeps _ nofun hsc.settled)
    | items => exact hse.keeps _ nofun hsd.settled
    | mails => exact hse.settled
  · rw [← hsb.achieves, ← saveFields_isOk]
    exact hoka
  · rw [← hsb.items, ← hsc.items, ← saveFields_isOk]
    exact hoki
  · rw [← hqueries, ← queries_isOk]
    exact hokm

/-- A kick completes exactly when nothing raises that no {lit}`pcall` catches. -/
theorem kick_completes (o : Command → Outcome) (a : Player) (hstate : a.state = .normal) :
    (kick o a).Completed ↔ AllQuiet o a := by
  have hquiet : AllQuiet o a ↔ ((saveBaseData o).isOk = true ∧
      FieldsQuiet o .achieves a.achieves ∧ FieldsQuiet o .items a.items ∧
      Quiet o (mailQueries a)) ∧ ¬ (o .sync).Raises := by
    rw [saveBaseData_isOk]
    constructor
    · exact fun h => ⟨⟨h.base, h.achieves, h.items, h.mails⟩, h.sync⟩
    · exact fun h => ⟨h.1.1, h.1.2.1, h.1.2.2.1, h.1.2.2.2, h.2⟩
  unfold kick
  simp only [hstate, reduceCtorEq, or_self, if_false, bind, Except.bind]
  rcases saveAll_cases (o := o) (a := { a with state := .kicking, dirty := fun _ => true })
    (fun _ => rfl) with ⟨b, hb, hbstate, hsettled, hok⟩ | ⟨b, hb, hbstate, hno⟩ <;> simp only [hb]
  · have hdone : ({ b with state := .kicked } : Player).Completed := ⟨rfl, hsettled, rfl⟩
    rw [hquiet]
    cases hsync : o .sync with
    | raise | raiseTable =>
        simp only [callSync, hsync, Outcome.Raises, or_true, true_or, not_true_eq_false, and_false,
          iff_false]
        intro h
        cases hbstate.symm.trans h.1
    | value | error =>
        simp only [callSync, hsync]
        exact ⟨fun _ => ⟨hok, by simp [Outcome.Raises]⟩, fun _ => hdone⟩
  · rw [hquiet]
    constructor
    · intro h
      cases hbstate.symm.trans h.1
    · exact fun h => absurd h.1 hno

/-- A player with an empty bag, one achievement and one mail. -/
def someone : Player where
  state := .normal
  dirty := fun _ => false
  items := 0
  achieves := 1
  mails := [1]
  deletedMails := []
  reports := []

/-- The mails cannot be saved, which is reported, and the kick completes. -/
theorem kick_completes_reported : (kick (fun c => if c = .readMail 0 then .error else .value)
    someone).Completed := by
  refine (kick_completes _ someone rfl).mpr ⟨?_, ?_, ?_, ?_, ?_⟩
  · exact .inl ⟨rfl, rfl, rfl⟩
  · exact .inr (.inl ⟨rfl, rfl, rfl⟩)
  · exact .inl rfl
  · intro c hc
    cases hc
    simp [Outcome.Raises]
  · simp [Outcome.Raises]

/-- The key is written but cannot be given its time to live; the handler ends and the state
stays {lit}`KICKING`. -/
theorem kick_stuck : ¬ ∀ (o : Command → Outcome) (a : Player), a.state = .normal →
    (kick o a).Completed := by
  intro hall
  have h := hall (fun c => if c = .expire .base_info then .raise else .value) someone rfl
  cases h.1

end BallServer.Agent.Kick
