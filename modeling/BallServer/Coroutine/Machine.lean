import Mathlib

/-!
# Cooperative coroutines with first-come first-served locks

A service runs many coroutines on one thread.  A coroutine keeps the processor
from the moment it is resumed until it calls another service, waits for a lock
or ends, so the stretch of code between two such points is atomic and other
coroutines run only in between.  This module is the machine that executes such
programs.  A coroutine is a stack of {lit}`Frame`s, the code it still has to
run; one {lit}`Act` of the program stands for one atomic stretch of code and
answers with an {lit}`Effect`: go on, send a request and be suspended, or raise
an error.

Main results:

- Definition {lit}`step?`: the executable transition function, one event at a
  time.
- Inductive {lit}`Step`: the same transitions as a relation, one constructor per
  way a world can change; theorem {lit}`step_of_step?` connects the two.
- Inductive {lit}`Reach`: the worlds reached by steps that meet a side
  condition; theorem {lit}`Reach.invariant` is the induction rule every safety
  result uses.
-/

namespace Coroutine

/-- A piece of code that an act may push on the stack of its coroutine. -/
inductive Code (L A : Type) where
  /-- One atomic stretch of code. -/
  | act (a : A)
  /-- A function run under a lock: acquire, run {lit}`a`, release. -/
  | locked (l : L) (a : A)
deriving DecidableEq, Repr

/-- An entry of a coroutine's stack.  The last two arise only while a
{lit}`locked` call is executed. -/
inductive Frame (L A : Type) where
  | code (c : Code L A)
  /-- The rest of a {lit}`locked` call whose coroutine had to queue. -/
  | granted (l : L) (a : A)
  /-- Release the lock when the locked function has returned or raised. -/
  | leave (l : L)
deriving DecidableEq, Repr

/-- What a coroutine is doing. -/
inductive Status (L Q R : Type) where
  /-- Running, or ended when its stack is empty. -/
  | active
  /-- Created or woken, and not resumed yet. -/
  | runnable
  /-- Suspended: the request is on its way or being served. -/
  | calling (q : Q)
  /-- Suspended: the answer is on its way back. -/
  | answered (r : R)
  /-- Suspended in the queue of a lock. -/
  | waiting (l : L)
deriving DecidableEq, Repr

/-- How an atomic stretch of code ends. -/
inductive Outcome (Q R : Type) where
  | ret (v : R)
  | call (q : Q)
  | raise

/-- The effect of one atomic stretch of code. -/
structure Effect (σ L A Q R : Type) where
  state : σ
  outcome : Outcome Q R
  push : List (Code L A) := []
  fork : Option A := none

/-- A coroutine: its remaining code, its status, the value last returned to it
and whether an error has ended it. -/
structure Co (L A Q R : Type) where
  stack : List (Frame L A)
  status : Status L Q R
  val : R
  raised : Bool

/-- A lock: its owner, how often the owner has entered, and who waits. -/
structure Lock where
  owner : Option Nat
  ref : Nat
  queue : List Nat
deriving DecidableEq, Repr

/-- A free lock. -/
def Lock.free : Lock where
  owner := none
  ref := 0
  queue := []

/-- A program: its atomic stretches of code, the services that answer its
requests (the answer may depend on a choice {lit}`c` of the environment), and
what may change around it. -/
structure Program (σ L A Q R C E : Type) where
  exec : Nat → A → R → σ → Effect σ L A Q R
  serve : Nat → Q → C → σ → Option (σ × R)
  env : E → σ → Option σ

/-- The state of a service and its surroundings.  Coroutines are numbered in the
order of their creation. -/
structure World (σ L A Q R : Type) where
  shared : σ
  co : Nat → Co L A Q R
  fresh : Nat
  running : Option Nat
  lock : L → Lock

/-- Everything that can happen next. -/
inductive Event (A C E : Type) where
  /-- A message arrives and its handler starts. -/
  | spawn (a : A)
  /-- The scheduler resumes a suspended coroutine. -/
  | resume (t : Nat)
  /-- The running coroutine executes the code on top of its stack. -/
  | tick
  /-- Another service answers the request of a coroutine. -/
  | serve (t : Nat) (c : C)
  /-- The surroundings change. -/
  | env (e : E)

section Machine

variable {σ L A Q R C E : Type}

/-- A lock frame is the only thing that survives an error. -/
def Frame.isLeave : Frame L A → Bool
  | .leave _ => true
  | _ => false

/-- A coroutine that has not been created yet. -/
def Co.blank [Inhabited R] : Co L A Q R where
  stack := []
  status := .active
  val := default
  raised := false

/-- A coroutine that is to run {lit}`a` from the start. -/
def Co.start [Inhabited R] (a : A) : Co L A Q R where
  stack := [.code (.act a)]
  status := .runnable
  val := default
  raised := false

/-- Nothing is left to do. -/
def Co.Ended (c : Co L A Q R) : Prop :=
  c.stack = [] ∧ c.status = .active

/-- The coroutine after an atomic stretch of code: what the stretch pushed goes
on top of the rest.  After an error only the locks remain to be released. -/
def Co.after (c : Co L A Q R) (rest : List (Frame L A)) (e : Effect σ L A Q R) :
    Co L A Q R :=
  match e.outcome with
  | .ret v => { c with stack := e.push.map Frame.code ++ rest, val := v }
  | .call q => { c with stack := e.push.map Frame.code ++ rest, status := .calling q }
  | .raise => { c with stack := rest.filter Frame.isLeave, raised := true }

/-- Only a request suspends the coroutine. -/
def Outcome.runs : Outcome Q R → Bool
  | .call _ => false
  | _ => true

namespace World

variable [Inhabited R]

/-- No coroutine exists and every lock is free. -/
def init (s : σ) : World σ L A Q R where
  shared := s
  co _ := Co.blank
  fresh := 0
  running := none
  lock _ := Lock.free

/-- Create a coroutine that is to run {lit}`a`. -/
def create (w : World σ L A Q R) (a : A) : World σ L A Q R :=
  { w with co := Function.update w.co w.fresh (Co.start a), fresh := w.fresh + 1 }

/-- Create the coroutine an act forks, if it forks one. -/
def createFork (w : World σ L A Q R) : Option A → World σ L A Q R
  | none => w
  | some a => w.create a

/-- Coroutine {lit}`t` has executed an act with effect {lit}`e`. -/
def perform (w : World σ L A Q R) (t : Nat) (rest : List (Frame L A))
    (e : Effect σ L A Q R) : World σ L A Q R :=
  createFork
    { w with
      shared := e.state
      co := Function.update w.co t ((w.co t).after rest e)
      running := if e.outcome.runs then some t else none }
    e.fork

variable [DecidableEq L]

/-- Coroutine {lit}`t` enters a lock that is free or already its own. -/
def enter (w : World σ L A Q R) (t : Nat) (l : L) (a : A) (rest : List (Frame L A)) :
    World σ L A Q R :=
  { w with
    co := Function.update w.co t
      { w.co t with stack := .code (.act a) :: .leave l :: rest }
    lock := Function.update w.lock l
      { w.lock l with owner := some t, ref := (w.lock l).ref + 1 } }

/-- Coroutine {lit}`t` queues for a lock. -/
def block (w : World σ L A Q R) (t : Nat) (l : L) (a : A) (rest : List (Frame L A)) :
    World σ L A Q R :=
  { w with
    co := Function.update w.co t
      { w.co t with stack := .granted l a :: rest, status := .waiting l }
    lock := Function.update w.lock l
      { w.lock l with queue := (w.lock l).queue ++ [t] }
    running := none }

/-- Coroutine {lit}`t` leaves a lock.  The last exit hands the lock to the
coroutine that has waited longest and wakes it. -/
def exit (w : World σ L A Q R) (t : Nat) (l : L) (rest : List (Frame L A)) :
    World σ L A Q R :=
  let co := Function.update w.co t { w.co t with stack := rest }
  if (w.lock l).ref ≤ 1 then
    match (w.lock l).queue with
    | [] => { w with co := co, lock := Function.update w.lock l Lock.free }
    | u :: queue =>
        { w with
          co := Function.update co u { co u with status := .runnable }
          lock := Function.update w.lock l { owner := some u, ref := 0, queue := queue } }
  else
    { w with
      co := co
      lock := Function.update w.lock l { w.lock l with ref := (w.lock l).ref - 1 } }

/-- Resume coroutine {lit}`t`, handing it the value {lit}`v`. -/
def wake (w : World σ L A Q R) (t : Nat) (v : R) : World σ L A Q R :=
  { w with
    co := Function.update w.co t { w.co t with status := .active, val := v }
    running := some t }

/-- The request of coroutine {lit}`t` has been answered. -/
def answer (w : World σ L A Q R) (t : Nat) (s : σ) (r : R) : World σ L A Q R :=
  { w with
    shared := s
    co := Function.update w.co t { w.co t with status := .answered r } }

end World

variable [Inhabited R] [DecidableEq L] (P : Program σ L A Q R C E)

/-- The running coroutine executes the code on top of its stack. -/
def tick? (w : World σ L A Q R) : Option (World σ L A Q R) :=
  match w.running with
  | none => none
  | some t =>
      match (w.co t).stack with
      | [] => some { w with running := none }
      | .code (.act a) :: rest =>
          some (w.perform t rest (P.exec t a (w.co t).val w.shared))
      | .code (.locked l a) :: rest =>
          if (w.lock l).owner = none ∨ (w.lock l).owner = some t then
            some (w.enter t l a rest)
          else some (w.block t l a rest)
      | .granted l a :: rest => some (w.enter t l a rest)
      | .leave l :: rest => some (w.exit t l rest)

/-- Resume a suspended coroutine; only possible while none is running. -/
def resume? (w : World σ L A Q R) (t : Nat) : Option (World σ L A Q R) :=
  match w.running, (w.co t).status with
  | none, .runnable => some (w.wake t (w.co t).val)
  | none, .answered r => some (w.wake t r)
  | _, _ => none

/-- Let another service answer the request of coroutine {lit}`t`. -/
def serve? (w : World σ L A Q R) (t : Nat) (c : C) : Option (World σ L A Q R) :=
  match (w.co t).status with
  | .calling q => (P.serve t q c w.shared).map fun p => w.answer t p.1 p.2
  | _ => none

/-- The executable transition function. -/
def step? (w : World σ L A Q R) : Event A C E → Option (World σ L A Q R)
  | .spawn a => if w.running = none then some (w.create a) else none
  | .resume t => resume? w t
  | .tick => tick? P w
  | .serve t c => serve? P w t c
  | .env e => (P.env e w.shared).map fun s => { w with shared := s }

/-- Let the running coroutine go on until it is suspended or ends, as long as every
event passes the check. -/
def drain? (check : World σ L A Q R → Event A C E → Bool) (w : World σ L A Q R) :
    Nat → Option (World σ L A Q R)
  | 0 => some w
  | n + 1 =>
      match tick? P w with
      | none => some w
      | some w' => if check w .tick then drain? check w' n else none

/-- Execute a list of events from left to right.  After each of them the running
coroutine goes on until it is suspended, for at most {lit}`fuel` acts. -/
def play? (check : World σ L A Q R → Event A C E → Bool) (fuel : Nat)
    (w : World σ L A Q R) : List (Event A C E) → Option (World σ L A Q R)
  | [] => some w
  | e :: es =>
      if check w e then
        ((step? P w e).bind fun w' => drain? P check w' fuel).bind fun w' =>
          play? check fuel w' es
      else none

/-- The transition relation.  Each constructor is one way in which the world can
change, with everything the change does. -/
inductive Step (w : World σ L A Q R) : Event A C E → World σ L A Q R → Prop where
  | spawn (a : A) (idle : w.running = none) : Step w (.spawn a) (w.create a)
  | woken (t : Nat) (idle : w.running = none) (hs : (w.co t).status = .runnable) :
      Step w (.resume t) (w.wake t (w.co t).val)
  | returned (t : Nat) (r : R) (idle : w.running = none)
      (hs : (w.co t).status = .answered r) : Step w (.resume t) (w.wake t r)
  | finish (t : Nat) (hr : w.running = some t) (hk : (w.co t).stack = []) :
      Step w .tick { w with running := none }
  | perform (t : Nat) (a : A) (rest : List (Frame L A)) (hr : w.running = some t)
      (hk : (w.co t).stack = .code (.act a) :: rest) :
      Step w .tick (w.perform t rest (P.exec t a (w.co t).val w.shared))
  | enter (t : Nat) (l : L) (a : A) (rest : List (Frame L A)) (hr : w.running = some t)
      (hk : (w.co t).stack = .code (.locked l a) :: rest)
      (hl : (w.lock l).owner = none ∨ (w.lock l).owner = some t) :
      Step w .tick (w.enter t l a rest)
  | block (t : Nat) (l : L) (a : A) (rest : List (Frame L A)) (hr : w.running = some t)
      (hk : (w.co t).stack = .code (.locked l a) :: rest)
      (hl : ¬((w.lock l).owner = none ∨ (w.lock l).owner = some t)) :
      Step w .tick (w.block t l a rest)
  | grant (t : Nat) (l : L) (a : A) (rest : List (Frame L A)) (hr : w.running = some t)
      (hk : (w.co t).stack = .granted l a :: rest) : Step w .tick (w.enter t l a rest)
  | exit (t : Nat) (l : L) (rest : List (Frame L A)) (hr : w.running = some t)
      (hk : (w.co t).stack = .leave l :: rest) : Step w .tick (w.exit t l rest)
  | serve (t : Nat) (c : C) (q : Q) (s : σ) (r : R) (hs : (w.co t).status = .calling q)
      (ha : P.serve t q c w.shared = some (s, r)) : Step w (.serve t c) (w.answer t s r)
  | env (e : E) (s : σ) (he : P.env e w.shared = some s) :
      Step w (.env e) { w with shared := s }

/-- The executable transition function only takes transitions of the relation. -/
theorem step_of_step? {w w' : World σ L A Q R} {e : Event A C E}
    (h : step? P w e = some w') : Step P w e w' := by
  cases e with
  | spawn a =>
      simp only [step?, Option.ite_none_right_eq_some, Option.some.injEq] at h
      obtain ⟨idle, rfl⟩ := h
      exact .spawn a idle
  | resume t =>
      simp only [step?, resume?] at h
      split at h
      · rename_i hidle hs
        cases h
        exact .woken t hidle hs
      · rename_i r hidle hs
        cases h
        exact .returned t r hidle hs
      · cases h
  | tick =>
      simp only [step?, tick?] at h
      split at h
      · cases h
      rename_i t hr
      split at h
      · rename_i hk
        cases h
        exact .finish t hr hk
      · rename_i a rest hk
        cases h
        exact .perform t a rest hr hk
      · rename_i l a rest hk
        split at h <;> rename_i hl <;> cases h
        · exact .enter t l a rest hr hk hl
        · exact .block t l a rest hr hk hl
      · rename_i l a rest hk
        cases h
        exact .grant t l a rest hr hk
      · rename_i l rest hk
        cases h
        exact .exit t l rest hr hk
  | serve t c =>
      simp only [step?, serve?] at h
      split at h
      · rename_i q hs
        obtain ⟨⟨s, r⟩, ha, rfl⟩ := Option.map_eq_some_iff.mp h
        exact .serve t c q s r hs ha
      · cases h
  | env e =>
      obtain ⟨s, he, rfl⟩ := Option.map_eq_some_iff.mp h
      exact .env e s he

/-! ## Runs -/

/-- Coroutine {lit}`t` is running and about to execute {lit}`a`. -/
def World.Executes (w : World σ L A Q R) (t : Nat) (a : A) : Prop :=
  w.running = some t ∧ ∃ rest, (w.co t).stack = .code (.act a) :: rest

/-- A side condition on the events of a run, in the world where they happen. -/
abbrev Guard (σ L A Q R C E : Type) := World σ L A Q R → Event A C E → Prop

/-- The worlds reached from {lit}`w₀` by steps that meet the side condition. -/
inductive Reach (ok : Guard σ L A Q R C E) (w₀ : World σ L A Q R) :
    World σ L A Q R → Prop where
  | refl : Reach ok w₀ w₀
  | step {w w' : World σ L A Q R} {e : Event A C E} (h : Reach ok w₀ w) (hok : ok w e)
      (hs : Step P w e w') : Reach ok w₀ w'

variable {P}

/-- What holds at the start and is kept by every step holds in every run. -/
theorem Reach.invariant {ok : Guard σ L A Q R C E} {w₀ w : World σ L A Q R}
    (Inv : World σ L A Q R → Prop) (h : Reach P ok w₀ w) (h₀ : Inv w₀)
    (hstep : ∀ w e w', Inv w → ok w e → Step P w e w' → Inv w') : Inv w := by
  induction h with
  | refl => exact h₀
  | step _ hok hs ih => exact hstep _ _ _ ih hok hs

/-- A run that meets a side condition meets every weaker one. -/
theorem Reach.mono {ok ok' : Guard σ L A Q R C E} {w₀ w : World σ L A Q R}
    (h : Reach P ok w₀ w) (hle : ∀ w e, ok w e → ok' w e) : Reach P ok' w₀ w := by
  induction h with
  | refl => exact .refl
  | step _ hok hs ih => exact .step ih (hle _ _ hok) hs

/-- Runs compose. -/
theorem Reach.trans {ok : Guard σ L A Q R C E} {w₀ w₁ w₂ : World σ L A Q R}
    (h₁ : Reach P ok w₀ w₁) (h₂ : Reach P ok w₁ w₂) : Reach P ok w₀ w₂ := by
  induction h₂ with
  | refl => exact h₁
  | step _ hok hs ih => exact .step ih hok hs

section Play

variable {ok : Guard σ L A Q R C E} {check : World σ L A Q R → Event A C E → Bool}

/-- Letting the running coroutine go on is a run. -/
theorem reach_of_drain? (hok : ∀ w e, check w e = true → ok w e) {w w' : World σ L A Q R}
    {n : Nat} (h : drain? P check w n = some w') : Reach P ok w w' := by
  induction n generalizing w with
  | zero =>
      cases h
      exact .refl
  | succ n ih =>
      simp only [drain?] at h
      cases ht : tick? P w with
      | none =>
          rw [ht] at h
          cases h
          exact .refl
      | some w₁ =>
          rw [ht] at h
          split_ifs at h with hc
          have hfirst : Reach P ok w w₁ := .step .refl (hok w _ hc) (step_of_step? P ht)
          exact hfirst.trans (ih h)

/-- Executing a list of events is a run. -/
theorem reach_of_play? (hok : ∀ w e, check w e = true → ok w e) {fuel : Nat}
    {w w' : World σ L A Q R} {es : List (Event A C E)}
    (h : play? P check fuel w es = some w') : Reach P ok w w' := by
  induction es generalizing w with
  | nil =>
      cases h
      exact .refl
  | cons e es ih =>
      simp only [play?] at h
      split_ifs at h with hc
      obtain ⟨w₂, hdrain, hrest⟩ := Option.bind_eq_some_iff.mp h
      obtain ⟨w₁, hs, hdrain⟩ := Option.bind_eq_some_iff.mp hdrain
      have hfirst : Reach P ok w w₁ := .step .refl (hok w e hc) (step_of_step? P hs)
      exact (hfirst.trans (reach_of_drain? hok hdrain)).trans (ih hrest)

/-- A run found by executing events: its last world passes a test. -/
theorem exists_reach_of_play? (hok : ∀ w e, check w e = true → ok w e) (fuel : Nat)
    (w : World σ L A Q R) (es : List (Event A C E)) (test : World σ L A Q R → Bool)
    (h : (play? P check fuel w es).any test = true) :
    ∃ w', Reach P ok w w' ∧ test w' = true := by
  obtain ⟨w', hplay, htest⟩ := (Option.any_eq_true _ _).mp h
  exact ⟨w', reach_of_play? hok hplay, htest⟩

/-- A run found by executing events, and the first act of the coroutine that is
resumed after it. -/
theorem exists_tick_of_play? (hok : ∀ w e, check w e = true → ok w e) (fuel t : Nat)
    (w : World σ L A Q R) (es : List (Event A C E))
    (test : World σ L A Q R → World σ L A Q R → Bool)
    (h : (play? P check fuel w es).any (fun w₁ => check w₁ (.resume t) &&
      (resume? w₁ t).any fun w₂ => check w₂ .tick && (tick? P w₂).any (test w₂)) = true) :
    ∃ w₁ w₂, Reach P ok w w₁ ∧ ok w₁ .tick ∧ Step P w₁ .tick w₂ ∧ test w₁ w₂ = true := by
  obtain ⟨w₁, hreach, h₁⟩ := exists_reach_of_play? hok fuel w es _ h
  simp only [Bool.and_eq_true] at h₁
  obtain ⟨w₂, hresume, h₂⟩ := (Option.any_eq_true _ _).mp h₁.2
  simp only [Bool.and_eq_true] at h₂
  obtain ⟨w₃, htick, h₃⟩ := (Option.any_eq_true _ _).mp h₂.2
  have hstep : Step P w₁ (.resume t) w₂ := step_of_step? P hresume
  exact ⟨w₂, w₃, .step hreach (hok _ _ h₁.1) hstep, hok _ _ h₂.1, step_of_step? P htick, h₃⟩

end Play

end Machine

end Coroutine
