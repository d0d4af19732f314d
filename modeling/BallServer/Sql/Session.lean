import Mathlib.Data.List.Basic
import Mathlib.Logic.Function.Basic

/-!
# Requests on one connection

Many requests of a service send their statements over one database connection.  The
database executes them in the order in which they come, and a request sends the next
statement when it has the answer to the last one.  A transaction belongs to the connection
and not to the request that has started it: {lit}`START TRANSACTION` commits the open one,
and the statements of all requests go into it.

What a handler does between two statements concerns nobody else, so the execution of a
statement and the code up to the next one are one step.  A connection that is lost rolls
back, and every request waits for an answer then, so all of them raise.

Main results:

- Definition {lit}`Connection.exec`: the statements.
- Definition {lit}`Client`: a handler; definition {lit}`Session.step`: its requests on the
  connection.
- Definition {lit}`Session.Serial`: a transaction is started when no request is inside one.
- Theorem {lit}`Reach.exclusive`: then at most one request is; theorem
  {lit}`Session.conn_of_other`: the others leave the connection alone.
-/

namespace Sql

/-- A statement. -/
inductive Stmt (D : Type) where
  /-- No statement: the last answer is on its way. -/
  | wait
  | read
  | start
  | write (f : D → Option D)
  | commit
  | rollback

/-- The database may roll back when the statement fails. -/
def Stmt.changes {D : Type} : Stmt D → Bool
  | .write _ => true
  | .commit => true
  | .rollback => true
  | _ => false

/-- What is committed, and the open transaction. -/
structure Connection (D : Type) where
  committed : D
  working : Option D

namespace Connection

variable {D : Type}

/-- What a statement reads. -/
def view (c : Connection D) : D :=
  c.working.getD c.committed

/-- Execute a statement, which may fail on the data. -/
def exec (c : Connection D) : Stmt D → Option (Connection D)
  | .wait => some c
  | .read => some c
  | .start => some ⟨c.view, some c.view⟩
  | .write f =>
      match c.working with
      | none => (f c.committed).map fun d => ⟨d, none⟩
      | some w => (f w).map fun d => ⟨c.committed, some d⟩
  | .commit => some ⟨c.view, none⟩
  | .rollback => some ⟨c.committed, none⟩

/-- The open transaction is rolled back. -/
def abort (c : Connection D) : Connection D :=
  ⟨c.committed, none⟩

end Connection

/-- A handler: the request a message becomes, by the number of the call, the statement it
sends, how it goes on with an answer, and what is left of it when a query raises. -/
structure Client (M E R D : Type) where
  enter : Nat → M → R
  stmt : R → E → Option (Stmt D)
  next : R → E → D → Bool → R
  raised : R → R

/-- How a statement ends: as it should, with an error, or with an error that has rolled the
open transaction back. -/
inductive Answer where
  | ok
  | error
  | aborted
deriving DecidableEq, Repr

/-- The connection and the requests of a service. -/
structure Session (R D : Type) where
  conn : Connection D
  requests : Nat → Option R
  calls : Nat

/-- What can happen. -/
inductive Event (M E : Type) where
  | call (m : M)
  | answer (i : Nat) (e : E) (a : Answer)
  | lost
deriving Repr

namespace Session

variable {M E R D : Type}

/-- A service that has just connected. -/
def start (d : D) : Session R D :=
  ⟨⟨d, none⟩, fun _ => none, 0⟩

/-- A request goes on. -/
def goOn (s : Session R D) (c : Connection D) (i : Nat) (r : R) : Session R D :=
  { s with conn := c, requests := Function.update s.requests i (some r) }

/-- One event. -/
def step (cl : Client M E R D) (s : Session R D) : Event M E → Option (Session R D)
  | .call m => some { s.goOn s.conn s.calls (cl.enter s.calls m) with calls := s.calls + 1 }
  | .answer i e a => do
      let r ← s.requests i
      let q ← cl.stmt r e
      match a with
      | .ok => do
          let c ← s.conn.exec q
          some (s.goOn c i (cl.next r e s.conn.view true))
      | .error => some (s.goOn s.conn i (cl.next r e s.conn.view false))
      | .aborted =>
          if q.changes then some (s.goOn s.conn.abort i (cl.next r e s.conn.view false))
          else none
  | .lost => some { s with conn := s.conn.abort, requests := fun i => (s.requests i).map cl.raised }

variable {cl : Client M E R D} {s s' : Session R D}

/-- The statement of a request ends with or without success and leaves a connection. -/
def Ends (s : Session R D) (q : Stmt D) (c : Connection D) (b : Bool) : Prop :=
  (s.conn.exec q = some c ∧ b = true) ∨ (c = s.conn ∧ b = false) ∨
    (q.changes = true ∧ c = s.conn.abort ∧ b = false)

/-- What a statement that is no part of a transaction leaves. -/
theorem Ends.conn_eq {q : Stmt D} {c : Connection D} {b : Bool}
    (hq : q = .wait ∨ q = .read) (h : s.Ends q c b) : c = s.conn := by
  rcases h with ⟨hc, -⟩ | ⟨hc, -⟩ | ⟨hch, -, -⟩
  · rcases hq with rfl | rfl <;> exact (Option.some.inj hc).symm
  · exact hc
  · rcases hq with rfl | rfl <;> cases hch

/-- A statement that fails leaves the tables. -/
theorem Ends.failed {q : Stmt D} {c : Connection D} (h : s.Ends q c false) :
    c = s.conn ∨ c = s.conn.abort := by
  rcases h with ⟨-, hb⟩ | ⟨hc, -⟩ | ⟨-, hc, -⟩
  · cases hb
  · exact .inl hc
  · exact .inr hc

theorem Ends.succeeded {q : Stmt D} {c : Connection D} (h : s.Ends q c true) :
    s.conn.exec q = some c := by
  rcases h with ⟨hc, -⟩ | ⟨-, hb⟩ | ⟨-, -, hb⟩
  · exact hc
  · cases hb
  · cases hb

theorem step_answer {i : Nat} {e : E} {a : Answer} (h : s.step cl (.answer i e a) = some s') :
    ∃ r q c b, s.requests i = some r ∧ cl.stmt r e = some q ∧ s.Ends q c b ∧
      (b = true ↔ a = .ok) ∧ (a = .aborted → c = s.conn.abort) ∧
      s' = s.goOn c i (cl.next r e s.conn.view b) := by
  simp only [step, Option.bind_eq_bind, Option.bind_eq_some_iff] at h
  obtain ⟨r, hr, q, hq, h⟩ := h
  cases a with
  | ok =>
      obtain ⟨c, hc, h⟩ := Option.bind_eq_some_iff.mp h
      obtain rfl := Option.some.inj h
      exact ⟨r, q, c, true, hr, hq, .inl ⟨hc, rfl⟩, by simp, nofun, rfl⟩
  | error =>
      obtain rfl := Option.some.inj h
      exact ⟨r, q, s.conn, false, hr, hq, .inr (.inl ⟨rfl, rfl⟩), by simp, nofun, rfl⟩
  | aborted =>
      dsimp only at h
      split at h
      next hch =>
        obtain rfl := Option.some.inj h
        exact ⟨r, q, s.conn.abort, false, hr, hq, .inr (.inr ⟨hch, rfl, rfl⟩), by simp,
          fun _ => rfl, rfl⟩
      next => cases h

@[simp] theorem goOn_conn (c : Connection D) (i : Nat) (r : R) : (s.goOn c i r).conn = c := rfl

@[simp] theorem goOn_self (c : Connection D) (i : Nat) (r : R) :
    (s.goOn c i r).requests i = some r :=
  Function.update_self ..

@[simp] theorem goOn_other (c : Connection D) {i j : Nat} (hj : j ≠ i) (r : R) :
    (s.goOn c i r).requests j = s.requests j :=
  Function.update_of_ne hj ..

/-- The states reached from a state by events that meet a condition. -/
inductive Reach (cl : Client M E R D) (ok : Session R D → Event M E → Prop) (s : Session R D) :
    Session R D → Prop where
  | refl : Reach cl ok s s
  | step {s₁ s₂ : Session R D} {e : Event M E} (hr : Reach cl ok s s₁) (hok : ok s₁ e)
      (hs : s₁.step cl e = some s₂) : Reach cl ok s s₂

/-- Which requests are between {lit}`START TRANSACTION` and the end of the transaction. -/
structure Brackets (cl : Client M E R D) (inTx : R → Prop) : Prop where
  enter : ∀ n m, ¬ inTx (cl.enter n m)
  raised : ∀ r, ¬ inTx (cl.raised r)
  outside : ∀ r e q, ¬ inTx r → cl.stmt r e = some q → q = .wait ∨ q = .read ∨ q = .start
  opens : ∀ r e d b, ¬ inTx r → inTx (cl.next r e d b) → cl.stmt r e = some .start ∧ b = true

/-- A transaction is started when no request is inside one. -/
def Serial (cl : Client M E R D) (inTx : R → Prop) (s : Session R D) : Event M E → Prop
  | .answer i e .ok => ∀ r, s.requests i = some r → cl.stmt r e = some .start →
      ∀ j r', s.requests j = some r' → ¬ inTx r'
  | _ => True

/-- At most one request is inside a transaction, and no request has a number to come. -/
structure Exclusive (inTx : R → Prop) (s : Session R D) : Prop where
  once : ∀ i j r r', s.requests i = some r → s.requests j = some r' → inTx r → inTx r' → i = j
  fresh : ∀ i, s.calls ≤ i → s.requests i = none

variable {inTx : R → Prop}

/-- Statements of other requests leave the connection of a transaction alone. -/
theorem conn_of_other (hb : Brackets cl inTx) (hex : s.Exclusive inTx) {i k : Nat} {e : E}
    {a : Answer} {r rk : R} {q : Stmt D} {c : Connection D} {b : Bool}
    (hser : s.Serial cl inTx (.answer i e a)) (hr : s.requests i = some r)
    (hk : s.requests k = some rk) (hin : inTx rk) (hki : k ≠ i) (hq : cl.stmt r e = some q)
    (hends : s.Ends q c b) (hba : b = true ↔ a = .ok) :
    c = s.conn ∧ ¬ inTx (cl.next r e s.conn.view b) := by
  have hout : ¬ inTx r := fun hir => hki (hex.once k i rk r hk hr hin hir)
  have hstart : b = true → q ≠ .start := by
    rintro hbt rfl
    obtain rfl := hba.mp hbt
    exact hser r hr hq k rk hk hin
  constructor
  · rcases hends with ⟨hc, hbt⟩ | ⟨hc, -⟩ | ⟨hch, -, -⟩
    · rcases hb.outside r e q hout hq with rfl | rfl | rfl
      · exact (Option.some.inj hc).symm
      · exact (Option.some.inj hc).symm
      · exact absurd rfl (hstart hbt)
    · exact hc
    · rcases hb.outside r e q hout hq with rfl | rfl | rfl <;> cases hch
  · intro hnext
    obtain ⟨hs, hbt⟩ := hb.opens r e _ b hout hnext
    exact hstart hbt (Option.some.inj (hq.symm.trans hs))

theorem step_exclusive (hb : Brackets cl inTx) {ev : Event M E} (hex : s.Exclusive inTx)
    (hser : s.Serial cl inTx ev) (hs : s.step cl ev = some s') : s'.Exclusive inTx := by
  cases ev with
  | call m =>
      obtain rfl := Option.some.inj hs
      constructor
      · intro i j r r' hi hj hr hr'
        simp only [goOn, Function.update_apply] at hi hj
        split at hi
        · obtain rfl := Option.some.inj hi
          exact absurd hr (hb.enter _ m)
        · split at hj
          · obtain rfl := Option.some.inj hj
            exact absurd hr' (hb.enter _ m)
          · exact hex.once i j r r' hi hj hr hr'
      · intro i hi
        have hne : i ≠ s.calls := Nat.ne_of_gt hi
        exact (Function.update_of_ne hne ..).trans (hex.fresh i (Nat.le_of_succ_le hi))
  | answer i e a =>
      obtain ⟨r, q, c, b, hr, hq, hends, hba, -, rfl⟩ := step_answer hs
      have hother : ∀ k rk, k ≠ i → s.requests k = some rk → inTx rk →
          ¬ inTx (cl.next r e s.conn.view b) := fun k rk hki hk hin =>
        (conn_of_other hb hex hser hr hk hin hki hq hends hba).2
      constructor
      · intro j k rj rk hj hk hjin hkin
        by_cases hji : j = i
        · by_cases hki : k = i
          · exact hji.trans hki.symm
          · subst hji
            rw [goOn_self] at hj
            rw [goOn_other c hki] at hk
            obtain rfl := Option.some.inj hj
            exact absurd hjin (hother k rk hki hk hkin)
        · rw [goOn_other c hji] at hj
          by_cases hki : k = i
          · subst hki
            rw [goOn_self] at hk
            obtain rfl := Option.some.inj hk
            exact absurd hkin (hother j rj hji hj hjin)
          · rw [goOn_other c hki] at hk
            exact hex.once j k rj rk hj hk hjin hkin
      · intro j hj
        have hji : j ≠ i := by
          rintro rfl
          rw [hex.fresh j hj] at hr
          cases hr
        rw [goOn_other c hji]
        exact hex.fresh j hj
  | lost =>
      obtain rfl := Option.some.inj hs
      constructor
      · intro i j r r' hi _ hr _
        obtain ⟨r₀, -, rfl⟩ := Option.map_eq_some_iff.mp hi
        exact absurd hr (hb.raised r₀)
      · intro i hi
        simp only [hex.fresh i hi, Option.map_none]

/-- What holds of every request survives a step of one of them, if that one keeps what the
others have outside of a transaction. -/
theorem own_answer {P : Nat → R → Connection D → Prop} (hb : Brackets cl inTx)
    (hex : s.Exclusive inTx) {i : Nat} {e : E} {a : Answer} {r : R} {q : Stmt D}
    {c : Connection D} {b : Bool} (hser : s.Serial cl inTx (.answer i e a))
    (hr : s.requests i = some r) (hq : cl.stmt r e = some q) (hends : s.Ends q c b)
    (hba : b = true ↔ a = .ok) (hown : ∀ k rk, s.requests k = some rk → P k rk s.conn)
    (hnext : P i (cl.next r e s.conn.view b) c)
    (hkeep : ∀ k rk, k ≠ i → s.requests k = some rk → ¬ inTx rk → P k rk s.conn → P k rk c) :
    ∀ k rk, (s.goOn c i (cl.next r e s.conn.view b)).requests k = some rk → P k rk c := by
  intro k rk hk
  by_cases hki : k = i
  · subst hki
    rw [goOn_self] at hk
    obtain rfl := Option.some.inj hk
    exact hnext
  · rw [goOn_other c hki] at hk
    by_cases hin : inTx rk
    · obtain ⟨rfl, -⟩ := conn_of_other hb hex hser hr hk hin hki hq hends hba
      exact hown k rk hk
    · exact hkeep k rk hki hk hin (hown k rk hk)

/-- A new request has a number of its own. -/
theorem requests_call (hex : s.Exclusive inTx) {m : M} (h : s.step cl (.call m) = some s') :
    s'.conn = s.conn ∧ s'.requests s.calls = some (cl.enter s.calls m) ∧
      (∀ k, k ≠ s.calls → s'.requests k = s.requests k) ∧ s.requests s.calls = none := by
  obtain rfl := Option.some.inj h
  exact ⟨rfl, Function.update_self .., fun k hk => Function.update_of_ne hk ..,
    hex.fresh s.calls (Nat.le_refl _)⟩

theorem start_exclusive (d : D) : (start d : Session R D).Exclusive inTx :=
  ⟨nofun, fun _ _ => rfl⟩

end Session
end Sql
