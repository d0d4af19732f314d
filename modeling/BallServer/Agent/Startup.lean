import Mathlib.Data.List.Basic
import Mathlib.Data.List.Nodup
import Mathlib.Logic.Function.Basic

/-!
# How an agent starts

The file of the agent requires its modules and then calls {lit}`s.start`, which registers
{lit}`s.init` with {lit}`skynet.start`: a timer without delay runs it in a coroutine of its
own, and {lit}`LAUNCHOK` goes to the launcher when it returns.  The module {lit}`match`
ends with a call of {lit}`s.start` too.  So {lit}`s.init` is registered twice, once with
the arguments of {lit}`require` and once with those of {lit}`newservice`, and the two
coroutines load the same player side by side.

The loading of the mails is modelled statement by statement, since it is here that the
two meet: a mail that both have loaded is one object, to which both append.

Main results:

- Definition {lit}`registrations`: the coroutines that a file starts.
- Definition {lit}`Startup.step`: the coroutines up to the end of {lit}`s.init`.
- Theorem {lit}`initialised_twice`: no start is as the launcher takes it to be.
- Theorem {lit}`attachment_twice`: a start after which a mail has an attachment twice.
-/

namespace BallServer.Agent

/-! ## Loading the files -/

/-- A statement at the top of a file, as far as it matters here. -/
inductive Top where
  | require (modname : String)
  | start
deriving DecidableEq, Repr

/-- The files of the agent; the libraries they require start nothing. -/
def topLevel (file : String) : List Top :=
  if file = "agent" then
    [.require "bag", .require "achieve", .require "mail", .require "friend", .require "match", .start]
  else if file = "match" then [.start]
  else []

/-- Run the statements of a file: what is loaded, and the arguments with which
{lit}`s.init` was registered.  {lit}`s.start` keeps the name and the id for itself;
{lit}`require` passes the name of the module and of its file. -/
def runFile : Nat → List String → List String → List Top → List String × List (List String)
  | 0, loaded, _, _ => (loaded, [])
  | _, loaded, _, [] => (loaded, [])
  | n + 1, loaded, args, .start :: rest =>
      let r := runFile n loaded args rest
      (r.1, args.drop 2 :: r.2)
  | n + 1, loaded, args, .require m :: rest =>
      if m ∈ loaded then runFile n loaded args rest
      else
        let inner := runFile n (m :: loaded) [m, m ++ ".lua"] (topLevel m)
        let r := runFile n inner.1 args rest
        (r.1, inner.2 ++ r.2)

/-- The arguments of {lit}`s.init` in the order of its registrations, when the service is
made with a player and a {lit}`login_version`. -/
def registrations (playerid loginVersion : String) : List (Option String) :=
  (runFile 20 [] ["agent", playerid, loginVersion] (topLevel "agent")).2.map List.head?

theorem registrations_eq (playerid loginVersion : String) :
    registrations playerid loginVersion = [none, some loginVersion] := rfl

/-! ## Running them -/

/-- The mails of a player in mysql: the ids in the order of the rows and in the order in
which {lit}`pairs` visits them, and the ids of the attachments of each. -/
structure Mailbox where
  rows : List Nat
  order : List Nat
  perm : order.Perm rows
  attachments : Nat → List Nat

/-- Where a coroutine waits in {lit}`s.init`. -/
inductive Pc where
  /-- For the base data in redis. -/
  | get
  /-- For the base data in mysql. -/
  | loadBaseInfo
  /-- For redis to store them. -/
  | set
  /-- For {lit}`expire`. -/
  | expire
  /-- {lit}`mail_init`, for the mails. -/
  | mailRows
  /-- {lit}`mail_init`, for the attachments of a mail; the loop holds its object and has
  the other mails to come. -/
  | mailAttachments (mid object : Nat) (rest : List Nat)
  /-- {lit}`bag_init`, {lit}`achieve_init` and {lit}`friend_init`. -/
  | others
  | done
deriving DecidableEq, Repr

/-- The service while it starts.  The mails are objects; {lit}`runs` records the arguments
with which the body of {lit}`s.init` was entered, {lit}`launched` the coroutines that were
done at the first {lit}`LAUNCHOK`. -/
structure Startup where
  timers : List (Option String)
  runs : List (Option String)
  pcs : List Pc
  mails : Nat → Option Nat
  attachments : Nat → List Nat
  nextMail : Nat
  launched : Option (List Pc)

/-- A message arrives: the next timer, or the answer to a coroutine.  The answer says
whether redis had the base data, or whether another call follows. -/
inductive Arrival where
  | timer
  | answer (i : Nat) (b : Bool)
deriving DecidableEq, Repr

namespace Startup

/-- The files are loaded. -/
def loaded (playerid loginVersion : String) : Startup where
  timers := registrations playerid loginVersion
  runs := []
  pcs := []
  mails := fun _ => none
  attachments := fun _ => []
  nextMail := 0
  launched := none

/-- A coroutine goes on to its next call. -/
def setPc (s : Startup) (i : Nat) (pc : Pc) : Startup :=
  { s with pcs := s.pcs.set i pc }

/-- The first loop of {lit}`mail_init`: a new object for every row. -/
def addMails (s : Startup) : List Nat → Startup
  | [] => s
  | mid :: rows =>
      addMails { s with
        mails := Function.update s.mails mid (some s.nextMail)
        attachments := Function.update s.attachments s.nextMail []
        nextMail := s.nextMail + 1 } rows

/-- The second loop of {lit}`mail_init`, at its head. -/
def nextAttachments (s : Startup) (i : Nat) : List Nat → Startup
  | [] => s.setPc i .others
  | mid :: rest =>
      match s.mails mid with
      | none => s.nextAttachments i rest
      | some x => s.setPc i (.mailAttachments mid x rest)

/-- The end of {lit}`s.init`. -/
def finish (s : Startup) (i : Nat) : Startup :=
  let s := s.setPc i .done
  { s with launched := s.launched.or (some s.pcs) }

/-- The rest of a coroutine, from the call it waits for to the next one. -/
def answer (m : Mailbox) (s : Startup) (i : Nat) (b : Bool) : Pc → Option Startup
  | .get => some (s.setPc i (if b then .expire else .loadBaseInfo))
  | .loadBaseInfo => some (s.setPc i .set)
  | .set => some (s.setPc i .expire)
  | .expire => some (s.setPc i .mailRows)
  | .mailRows => some ((s.addMails m.rows).nextAttachments i m.order)
  | .mailAttachments mid x rest =>
      let attachments := s.attachments x ++ m.attachments mid
      some ({ s with attachments := Function.update s.attachments x attachments }.nextAttachments
        i rest)
  | .others => some (if b then s else s.finish i)
  | .done => none

/-- One message.  The timers were in the mailbox before any call was made. -/
def step (m : Mailbox) (s : Startup) : Arrival → Option Startup
  | .timer =>
      match s.timers with
      | [] => none
      | arg :: timers =>
          some { s with timers := timers, runs := s.runs ++ [arg], pcs := s.pcs ++ [.get] }
  | .answer i b =>
      if s.timers = [] then s.pcs[i]?.bind (s.answer m i b) else none

/-- A sequence of messages. -/
def run (m : Mailbox) (s : Startup) : List Arrival → Option Startup
  | [] => some s
  | a :: as => do
      let s ← s.step m a
      s.run m as

/-- What the launcher and the clients rely on. -/
structure Initialised (m : Mailbox) (loginVersion : String) (s : Startup) : Prop where
  once : s.runs = [some loginVersion]
  finished : ∀ pcs, s.launched = some pcs → ∀ pc ∈ pcs, pc = .done
  attachments : ∀ mid ∈ m.rows, ∃ x, s.mails mid = some x ∧ s.attachments x = m.attachments mid

section Runs

variable {m : Mailbox} {s s' : Startup}

theorem addMails_timers (rows : List Nat) (s : Startup) :
    (s.addMails rows).timers = s.timers ∧ (s.addMails rows).runs = s.runs := by
  induction rows generalizing s with
  | nil => exact ⟨rfl, rfl⟩
  | cons mid rows ih => exact ih _

theorem nextAttachments_timers (i : Nat) (rest : List Nat) (s : Startup) :
    (s.nextAttachments i rest).timers = s.timers ∧ (s.nextAttachments i rest).runs = s.runs := by
  induction rest with
  | nil => exact ⟨rfl, rfl⟩
  | cons mid rest ih =>
      unfold nextAttachments
      split
      · exact ih
      · exact ⟨rfl, rfl⟩

/-- An answer starts no coroutine. -/
theorem answer_timers {i : Nat} {b : Bool} {pc : Pc} (h : s.answer m i b pc = some s') :
    s'.timers = s.timers ∧ s'.runs = s.runs := by
  unfold answer at h
  split at h <;> first | (obtain rfl := Option.some.inj h) | cases h
  · exact ⟨rfl, rfl⟩
  · exact ⟨rfl, rfl⟩
  · exact ⟨rfl, rfl⟩
  · exact ⟨rfl, rfl⟩
  · obtain ⟨ht, hr⟩ := nextAttachments_timers i m.order (s.addMails m.rows)
    obtain ⟨ht', hr'⟩ := addMails_timers m.rows s
    exact ⟨ht.trans ht', hr.trans hr'⟩
  · exact nextAttachments_timers i _ _
  · cases b <;> exact ⟨rfl, rfl⟩

/-- The coroutines that have started and those that will are the registered ones; nothing
is answered before all have started. -/
structure Fired (all : List (Option String)) (s : Startup) : Prop where
  runs : s.runs ++ s.timers = all
  waits : s.timers ≠ [] → s.launched = none

theorem step_fired {all : List (Option String)} {a : Arrival} (h : s.Fired all)
    (hs : s.step m a = some s') : s'.Fired all := by
  cases a with
  | timer =>
      simp only [step] at hs
      split at hs
      · cases hs
      · rename_i arg timers ht
        obtain rfl := Option.some.inj hs
        refine ⟨?_, fun _ => h.waits (by simp [ht])⟩
        have := h.runs
        rw [ht] at this
        simpa using this
  | answer i b =>
      simp only [step] at hs
      split at hs
      · rename_i ht
        obtain ⟨pc, -, hpc⟩ := Option.bind_eq_some_iff.mp hs
        obtain ⟨ht', hr'⟩ := answer_timers hpc
        refine ⟨by rw [ht', hr', h.runs], fun hne => ?_⟩
        rw [ht'] at hne
        exact absurd ht hne
      · cases hs

theorem run_fired {all : List (Option String)} (as : List Arrival) (h : s.Fired all)
    (hs : s.run m as = some s') : s'.Fired all := by
  induction as generalizing s with
  | nil => exact Option.some.inj hs ▸ h
  | cons a as ih =>
      obtain ⟨t, ht, hrest⟩ := Option.bind_eq_some_iff.mp hs
      exact ih (step_fired h ht) hrest

/-- Whatever is stored and however the answers arrive: when the launcher reports the
service as started, the body of {lit}`s.init` has been entered twice, the first time
without {lit}`login_version`. -/
theorem initialised_twice (m : Mailbox) (playerid loginVersion : String) (as : List Arrival)
    (s : Startup) (hs : (loaded playerid loginVersion).run m as = some s)
    (hlaunched : s.launched ≠ none) :
    s.runs = [none, some loginVersion] ∧ ¬ s.Initialised m loginVersion := by
  have h : s.Fired (registrations playerid loginVersion) :=
    run_fired as ⟨rfl, fun _ => rfl⟩ hs
  have htimers : s.timers = [] := by
    by_contra hne
    exact hlaunched (h.waits hne)
  have hruns : s.runs = [none, some loginVersion] := by
    have := h.runs
    rwa [htimers, List.append_nil, registrations_eq] at this
  refine ⟨hruns, fun hinit => ?_⟩
  have := hinit.once
  rw [hruns] at this
  cases this

end Runs

/-- Two mails with one attachment each. -/
def twoMails : Mailbox where
  rows := [1, 2]
  order := [1, 2]
  perm := .rfl
  attachments mid := [10 * mid]

/-- Both coroutines load the base data, then the mails, then the attachments. -/
def sideBySide : List Arrival :=
  [.timer, .timer, .answer 0 true, .answer 1 true, .answer 0 false, .answer 1 false,
    .answer 0 false, .answer 1 false, .answer 0 false, .answer 0 false, .answer 1 false,
    .answer 1 false, .answer 0 false]

theorem initialised_twice_sideBySide :
    ∃ s, (loaded "7" "3").run twoMails sideBySide = some s ∧
      s.runs = [none, some "3"] ∧ ¬ s.Initialised twoMails "3" :=
  ⟨_, rfl, initialised_twice twoMails "7" "3" sideBySide _ rfl (by decide)⟩

/-- The second attachment is in its mail twice, and the service is reported as started
while the second coroutine still runs. -/
theorem attachment_twice :
    ∃ s, (loaded "7" "3").run twoMails sideBySide = some s ∧
      ((s.mails 2).map s.attachments = some [20, 20] ∧ s.launched = some [.done, .others]) ∧
      ¬ s.Initialised twoMails "3" := by
  refine ⟨_, rfl, by decide, fun h => ?_⟩
  cases h.once

end Startup

end BallServer.Agent
