import BallServer.Table
import Mathlib.Algebra.Order.Ring.Int
import Mathlib.Data.Int.Basic

/-!
# The daily reward

A player gets a coin for the first login of a day.  A player who is online when the day
changes gets it from a broadcast: the {lit}`cron` service compares the day with its
{lit}`last_check_time` and calls {lit}`daily_reset` of the agent manager, which sends
{lit}`first_login_day` to the agents of all players who are in the game.

The login compares the day with the player's {lit}`last_login_time`; the broadcast is
handled without such a comparison.  Its handler adds the coin, waits for the save in
{lit}`add_coin` and sets {lit}`last_login_time` afterwards, so that two messages can be handled
at once.

The field {lit}`paid` does not exist in the program.  It records who was paid and on
which day.

Main results:

- Definition {lit}`Realm.step`: the cron service, the broadcasts and the agents.
- Theorem {lit}`paid_once`: when agents handle a broadcast only on a day after their
  {lit}`last_login_time` and after the payments that are not marked yet, and no payment raises,
  nobody is paid twice a day.
- Theorem {lit}`paid_twice`: otherwise a player who logs in before the broadcast is.
- Theorem {lit}`paid_twice_waiting`: so is one whose agent gets a second broadcast while the
  first payment is being saved.
-/

namespace BallServer.Agent

/-- {lit}`get_day`, of the agent and of the cron service alike. -/
def getDay (timestamp : Int) : Int :=
  (timestamp + 3600 * 8 - 3600 * 12 - 60 * 43) / (3600 * 24)

theorem getDay_mono {t t' : Int} (h : t ≤ t') : getDay t ≤ getDay t' :=
  Int.ediv_le_ediv (by decide) (by omega)

/-- The agent of a player who is online. -/
structure OnlineAgent where
  lastLoginTime : Int
  /-- {lit}`first_login_day` messages that it has not handled. -/
  inbox : Nat
  /-- When the handlers that wait for the save in {lit}`add_coin` have paid. -/
  paying : List Int
deriving DecidableEq, Repr

/-- The services.  The job of the cron service keeps the time at which it was started. -/
structure Realm where
  time : Int
  lastCheckTime : Int
  storedCheckTime : Option Int
  running : Option Int
  /-- Calls of {lit}`daily_reset` that have not arrived; the caller may have given up. -/
  calls : Nat
  /-- {lit}`last_login_time` in the stored base data. -/
  stored : Nat → Int
  online : Nat → Option OnlineAgent
  /-- The players that each broadcast has still to visit. -/
  broadcasts : List (List Nat)
  paid : List (Nat × Int)

/-- What can happen, and when. -/
inductive Happening where
  /-- The agent of a player has started. -/
  | login (p : Nat) (now : Int)
  /-- The agent was kicked and has saved. -/
  | logout (p : Nat)
  /-- A round of the timer. -/
  | round (now : Int)
  /-- {lit}`daily_reset` arrives at the agent manager, with the players in the game. -/
  | dailyReset (targets : List Nat)
  /-- A broadcast goes on to its next player. -/
  | visit (k : Nat)
  /-- An agent handles {lit}`first_login_day`, up to the save. -/
  | handle (p : Nat) (now : Int)
  /-- The save of a handler has returned, or raised and ended it. -/
  | resume (p k : Nat) (now : Int) (raised : Bool)
  /-- The call has returned; saving {lit}`last_check_time` may fail. -/
  | succeeded (saved : Bool)
  /-- The call has raised, or its answer is lost. -/
  | failed
  /-- The cron service starts again. -/
  | restart (now : Int)
deriving DecidableEq, Repr

namespace Realm

/-- The time goes on. -/
def at_ (r : Realm) (now : Int) : Option Realm :=
  if r.time ≤ now then some { r with time := now } else none

/-- {lit}`s.init` of the agent from the base data on; paying saves them. -/
def login (r : Realm) (p : Nat) : Realm :=
  let r' := { r with online := Function.update r.online p (some ⟨r.time, 0, []⟩) }
  if getDay r.time > getDay (r.stored p) then
    { r' with
      stored := Function.update r.stored p r.time
      paid := (p, getDay r.time) :: r.paid }
  else r'

/-- {lit}`s.resp.first_login_day` up to the save in {lit}`add_coin`. -/
def handle (r : Realm) (p : Nat) (a : OnlineAgent) (inbox : Nat) : Realm :=
  { r with
    online := Function.update r.online p
      (some { a with inbox := inbox, paying := r.time :: a.paying })
    paid := (p, getDay r.time) :: r.paid }

/-- {lit}`s.resp.first_login_day` after the save. -/
def resume (r : Realm) (p : Nat) (a : OnlineAgent) (k : Nat) (raised : Bool) : Realm :=
  { r with
    online := Function.update r.online p (some { a with
      lastLoginTime := if raised then a.lastLoginTime else r.time
      paying := a.paying.eraseIdx k }) }

/-- One thing happens. -/
def step (r : Realm) : Happening → Option Realm
  | .login p now =>
      match r.online p with
      | some _ => none
      | none => (r.at_ now).map (·.login p)
  | .logout p =>
      match r.online p with
      | none => none
      | some a =>
          -- the kick waits for the calls that are under way
          if a.paying = [] then
            some { r with
              stored := Function.update r.stored p a.lastLoginTime
              online := Function.update r.online p none }
          else none
  | .round now =>
      (r.at_ now).map fun r =>
        if getDay now > getDay r.lastCheckTime ∧ r.running = none then
          { r with running := some now, calls := r.calls + 1 }
        else r
  | .dailyReset targets =>
      match r.calls with
      | 0 => none
      | calls + 1 => some { r with broadcasts := targets :: r.broadcasts, calls := calls }
  | .visit k =>
      match r.broadcasts[k]? with
      | none | some [] => none
      | some (p :: rest) =>
          let r := { r with broadcasts := r.broadcasts.set k rest }
          match r.online p with
          | none => some r
          | some a =>
              some { r with
                online := Function.update r.online p (some { a with inbox := a.inbox + 1 }) }
  | .handle p now =>
      match r.online p with
      | some ⟨last, inbox + 1, paying⟩ =>
          (r.at_ now).map (·.handle p ⟨last, inbox + 1, paying⟩ inbox)
      | some ⟨_, 0, _⟩ | none => none
  | .resume p k now raised =>
      match r.online p with
      | none => none
      | some a =>
          if k < a.paying.length then (r.at_ now).map (·.resume p a k raised) else none
  | .succeeded saved =>
      match r.running with
      | none => none
      | some t =>
          some { r with
            lastCheckTime := t
            storedCheckTime := if saved then some t else r.storedCheckTime
            running := none }
  | .failed =>
      match r.running with
      | none => none
      | some _ => some { r with running := none }
  | .restart now =>
      (r.at_ now).map fun r =>
        { r with lastCheckTime := r.storedCheckTime.getD now, running := none }

/-- A sequence of these. -/
def run (r : Realm) : List Happening → Option Realm
  | [] => some r
  | h :: hs => do
      let r ← r.step h
      r.run hs

/-- The services when they start, at a time at which no stored {lit}`last_login_time` lies
in the future. -/
structure Begins (r : Realm) : Prop where
  online : ∀ p, r.online p = none
  broadcasts : r.broadcasts = []
  stored : ∀ p, r.stored p ≤ r.time
  paid : r.paid = []

/-- An agent handles a broadcast on a day after its {lit}`last_login_time` and after the days
of the payments that are being saved, and no such save raises. -/
def Due (r : Realm) : Happening → Prop
  | .handle p now => ∀ a, r.online p = some a →
      getDay a.lastLoginTime < getDay now ∧ ∀ t ∈ a.paying, getDay t < getDay now
  | .resume _ _ _ raised => raised = false
  | _ => True

/-- The states reached by happenings that meet a condition. -/
inductive Reach (ok : Realm → Happening → Prop) (r₀ : Realm) : Realm → Prop where
  | start : Reach ok r₀ r₀
  | step {r r' : Realm} {h : Happening} (hr : Reach ok r₀ r) (hh : ok r h)
      (hs : r.step h = some r') : Reach ok r₀ r'

/-- The last mark of a player: in the agent, or else in the stored data. -/
def mark (r : Realm) (p : Nat) : Int :=
  match r.online p with
  | some a => a.lastLoginTime
  | none => r.stored p

/-- The payments of a player that are not marked yet. -/
def paying (r : Realm) (p : Nat) : List Int :=
  match r.online p with
  | some a => a.paying
  | none => []

/-- A day is not after the mark of a player, or not after a payment that is being saved. -/
def Covers (r : Realm) (p : Nat) (d : Int) : Prop :=
  d ≤ getDay (r.mark p) ∨ ∃ t ∈ r.paying p, d ≤ getDay t

/-- Nobody was paid after the mark and the payments that are being saved, and none of them is in
the future. -/
structure Marked (r : Realm) : Prop where
  past : ∀ p, r.mark p ≤ r.time
  pastPaying : ∀ p, ∀ t ∈ r.paying p, t ≤ r.time
  paid : ∀ p d, (p, d) ∈ r.paid → r.Covers p d
  nodup : r.paid.Nodup

section Steps

variable {r r' : Realm} {p : Nat}

/-- The marks move on, over the payments that are saved, and nobody is paid. -/
theorem Marked.unpaid (h : r.Marked)
    (hmark : ∀ p, r.mark p ≤ r'.mark p ∧ r'.mark p ≤ r'.time)
    (hpaying : ∀ p, ∀ t ∈ r.paying p, t ∈ r'.paying p ∨ t ≤ r'.mark p)
    (hpast : ∀ p, ∀ t ∈ r'.paying p, t ≤ r'.time) (hpaid : r'.paid = r.paid) : r'.Marked := by
  refine ⟨fun p => (hmark p).2, hpast, fun p d hd => ?_, hpaid ▸ h.nodup⟩
  rcases h.paid p d (hpaid ▸ hd) with hle | ⟨t, ht, hle⟩
  · exact .inl (hle.trans (getDay_mono (hmark p).1))
  · rcases hpaying p t ht with ht' | hmarked
    · exact .inr ⟨t, ht', hle⟩
    · exact .inl (hle.trans (getDay_mono hmarked))

/-- Nothing that the marks depend on changes. -/
theorem Marked.same (h : r.Marked) (htime : r.time ≤ r'.time) (hmark : ∀ p, r'.mark p = r.mark p)
    (hpaying : ∀ p, r'.paying p = r.paying p) (hpaid : r'.paid = r.paid) : r'.Marked := by
  refine h.unpaid (fun p => ?_) (fun p t ht => .inl (hpaying p ▸ ht)) (fun p t ht => ?_) hpaid
  · rw [hmark p]
    exact ⟨le_rfl, (h.past p).trans htime⟩
  · rw [hpaying p] at ht
    exact (h.pastPaying p t ht).trans htime

/-- Neither the agents nor the stored data change. -/
theorem Marked.congr (h : r.Marked) (htime : r.time ≤ r'.time) (honline : r'.online = r.online)
    (hstored : r'.stored = r.stored) (hpaid : r'.paid = r.paid) : r'.Marked :=
  h.same htime (fun p => by simp only [mark, honline, hstored])
    (fun p => by simp only [paying, honline]) hpaid

/-- A player is paid on a day on which it was not paid. -/
theorem Marked.pays (h : r.Marked) {d : Int} (hnew : (p, d) ∉ r.paid) (hcovers : r.Covers p d) :
    ({ r with paid := (p, d) :: r.paid } : Realm).Marked := by
  refine ⟨h.past, h.pastPaying, fun q d' hd => ?_, List.nodup_cons.mpr ⟨hnew, h.nodup⟩⟩
  rcases List.mem_cons.mp hd with heq | hd
  · obtain ⟨rfl, rfl⟩ := Prod.mk.inj heq
    exact hcovers
  · exact h.paid q d' hd

/-- The agent of one player changes. -/
theorem Marked.setOnline (h : r.Marked) {a : OnlineAgent} (stored : Nat → Int)
    (hstored : ∀ q ≠ p, stored q = r.stored q)
    (hmark : r.mark p ≤ a.lastLoginTime ∧ a.lastLoginTime ≤ r.time)
    (hpaying : ∀ t ∈ r.paying p, t ∈ a.paying ∨ t ≤ a.lastLoginTime)
    (hpast : ∀ t ∈ a.paying, t ≤ r.time) :
    ({ r with online := Function.update r.online p (some a), stored := stored } : Realm).Marked := by
  have hother : ∀ q ≠ p, ({ r with
      online := Function.update r.online p (some a), stored := stored } : Realm).mark q =
        r.mark q := fun q hq => by simp [mark, hq, hstored q hq]
  refine h.unpaid (fun q => ?_) (fun q t ht => ?_) (fun q t ht => ?_) rfl
  · by_cases hq : q = p
    · subst hq
      simpa [mark] using hmark
    · rw [hother q hq]
      exact ⟨le_rfl, h.past q⟩
  · by_cases hq : q = p
    · subst hq
      simpa [mark, paying] using hpaying t ht
    · exact .inl (by simpa [paying, hq] using ht)
  · by_cases hq : q = p
    · subst hq
      exact hpast t (by simpa [paying] using ht)
    · exact h.pastPaying q t (by simpa [paying, hq] using ht)

theorem at_spec {now : Int} (h : r.at_ now = some r') :
    r.time ≤ now ∧ r' = { r with time := now } := by
  unfold at_ at h
  split at h
  · exact ⟨‹_›, (Option.some.inj h).symm⟩
  · cases h

theorem Marked.at_ {now : Int} (h : r.Marked) (hr : r.at_ now = some r') : r'.Marked := by
  obtain ⟨hle, rfl⟩ := at_spec hr
  exact h.congr hle rfl rfl rfl

theorem mark_of_online {a : OnlineAgent} (hp : r.online p = some a) :
    r.mark p = a.lastLoginTime ∧ r.paying p = a.paying := by
  simp [mark, paying, hp]

theorem Marked.login (h : r.Marked) (hp : r.online p = none) : (r.login p).Marked := by
  have hold : r.mark p = r.stored p := by simp [mark, hp]
  have hnone : r.paying p = [] := by simp [paying, hp]
  have henter : ∀ stored : Nat → Int, (∀ q ≠ p, stored q = r.stored q) →
      ({ r with online := Function.update r.online p (some ⟨r.time, 0, []⟩), stored := stored } :
        Realm).Marked := fun stored hstored =>
    h.setOnline stored hstored ⟨h.past p, le_rfl⟩ (by simp [hnone]) (by simp)
  unfold Realm.login
  simp only
  split
  · rename_i hday
    refine (henter _ fun q hq => Function.update_of_ne hq ..).pays (fun hd => ?_) (.inl ?_)
    · rcases h.paid p _ hd with hle | ⟨t, ht, -⟩
      · rw [hold] at hle
        omega
      · rw [hnone] at ht
        cases ht
    · simp [mark]
  · exact henter _ fun _ _ => rfl

theorem Marked.logout (h : r.Marked) {a : OnlineAgent} (hp : r.online p = some a)
    (hpaying : a.paying = []) :
    ({ r with
      stored := Function.update r.stored p a.lastLoginTime
      online := Function.update r.online p none } : Realm).Marked := by
  refine h.same le_rfl (fun q => ?_) (fun q => ?_) rfl <;> by_cases hq : q = p
  · subst hq
    simp [mark, hp]
  · simp [mark, hq]
  · subst hq
    simp [paying, hp, hpaying]
  · simp [paying, hq]

theorem Marked.visit (h : r.Marked) {a : OnlineAgent} (hp : r.online p = some a)
    (broadcasts : List (List Nat)) :
    ({ r with
      broadcasts := broadcasts
      online := Function.update r.online p (some { a with inbox := a.inbox + 1 }) } :
        Realm).Marked := by
  refine h.same le_rfl (fun q => ?_) (fun q => ?_) rfl <;> by_cases hq : q = p
  · subst hq
    simp [mark, hp]
  · simp [mark, hq]
  · subst hq
    simp [paying, hp]
  · simp [paying, hq]

/-- The agent pays, and the payment is being saved. -/
theorem Marked.handle (h : r.Marked) {a : OnlineAgent} (hp : r.online p = some a) (inbox : Nat)
    (hday : getDay a.lastLoginTime < getDay r.time)
    (hdays : ∀ t ∈ a.paying, getDay t < getDay r.time) : (r.handle p a inbox).Marked := by
  obtain ⟨hmark, hpaying⟩ := mark_of_online hp
  have hwaits : ({ r with
      online := Function.update r.online p
        (some { a with inbox := inbox, paying := r.time :: a.paying }) } : Realm).Marked := by
    refine h.setOnline r.stored (fun _ _ => rfl) ⟨hmark.le, hmark ▸ h.past p⟩ (fun t ht => ?_)
      (fun t ht => ?_)
    · exact .inl (List.mem_cons_of_mem _ (hpaying ▸ ht))
    · rcases List.mem_cons.mp ht with rfl | ht
      · exact le_rfl
      · exact h.pastPaying p t (hpaying ▸ ht)
  refine hwaits.pays (fun hd => ?_) (.inr ⟨r.time, by simp [paying], le_rfl⟩)
  rcases h.paid p _ hd with hle | ⟨t, ht, hle⟩
  · rw [hmark] at hle
    omega
  · have := hdays t (hpaying ▸ ht)
    omega

/-- The payment is saved, and the agent marks the day. -/
theorem Marked.resume (h : r.Marked) {a : OnlineAgent} (hp : r.online p = some a) (k : Nat) :
    (r.resume p a k false).Marked := by
  obtain ⟨hmark, hpaying⟩ := mark_of_online hp
  refine h.setOnline r.stored (fun _ _ => rfl) ⟨h.past p, le_rfl⟩ (fun t ht => ?_) (fun t ht => ?_)
  · exact .inr (h.pastPaying p t ht)
  · exact h.pastPaying p t (hpaying ▸ List.mem_of_mem_eraseIdx ht)

theorem step_marked {e : Happening} (h : r.Marked) (he : r.Due e) (hs : r.step e = some r') :
    r'.Marked := by
  cases e with
  | login p now =>
      simp only [step] at hs
      split at hs
      · cases hs
      · rename_i hp
        obtain ⟨t, ht, rfl⟩ := Option.map_eq_some_iff.mp hs
        refine (h.at_ ht).login ?_
        rw [(at_spec ht).2]
        exact hp
  | logout p =>
      simp only [step] at hs
      split at hs
      · cases hs
      · rename_i a hp
        split at hs
        · obtain rfl := Option.some.inj hs
          exact h.logout hp ‹_›
        · cases hs
  | round now =>
      obtain ⟨t, ht, rfl⟩ := Option.map_eq_some_iff.mp hs
      split
      · exact (h.at_ ht).congr le_rfl rfl rfl rfl
      · exact h.at_ ht
  | dailyReset targets =>
      simp only [step] at hs
      split at hs
      · cases hs
      · obtain rfl := Option.some.inj hs
        exact h.congr le_rfl rfl rfl rfl
  | visit k =>
      simp only [step] at hs
      split at hs
      · cases hs
      · cases hs
      · rename_i p rest hk
        split at hs
        · obtain rfl := Option.some.inj hs
          exact h.congr le_rfl rfl rfl rfl
        · rename_i a hp
          obtain rfl := Option.some.inj hs
          exact h.visit hp _
  | handle p now =>
      simp only [step] at hs
      split at hs
      · rename_i last inbox paying hp
        obtain ⟨t, ht, rfl⟩ := Option.map_eq_some_iff.mp hs
        obtain ⟨hday, hdays⟩ := he _ hp
        have htime := (at_spec ht).2
        refine (h.at_ ht).handle ?_ inbox ?_ ?_
        · rw [htime]
          exact hp
        · rw [htime]
          exact hday
        · rw [htime]
          exact hdays
      · cases hs
      · cases hs
  | resume p k now raised =>
      simp only [step] at hs
      split at hs
      · cases hs
      · rename_i a hp
        split at hs
        · obtain ⟨t, ht, rfl⟩ := Option.map_eq_some_iff.mp hs
          obtain rfl : raised = false := he
          refine (h.at_ ht).resume ?_ k
          rw [(at_spec ht).2]
          exact hp
        · cases hs
  | succeeded saved =>
      simp only [step] at hs
      split at hs
      · cases hs
      · obtain rfl := Option.some.inj hs
        exact h.congr le_rfl rfl rfl rfl
  | failed =>
      simp only [step] at hs
      split at hs
      · cases hs
      · obtain rfl := Option.some.inj hs
        exact h.congr le_rfl rfl rfl rfl
  | restart now =>
      obtain ⟨t, ht, rfl⟩ := Option.map_eq_some_iff.mp hs
      exact (h.at_ ht).congr le_rfl rfl rfl rfl

end Steps

/-- The services on an evening; the day of {lit}`get_day` changes 16980 seconds after
midnight in universal time. -/
def evening : Realm where
  time := 10000
  lastCheckTime := 10000
  storedCheckTime := none
  running := none
  calls := 0
  stored _ := 0
  online _ := none
  broadcasts := []
  paid := []

theorem evening_begins : evening.Begins := ⟨fun _ => rfl, rfl, fun _ => by simp [evening], rfl⟩

/-- The agent gets the broadcast of a call whose answer is lost and the broadcast of the next
call, and pays for the second one while the first payment is being saved. -/
theorem paid_twice_waiting :
    ∃ r, evening.run [.login 7 11000, .round 20000, .dailyReset [7], .visit 0, .failed,
      .round 20001, .dailyReset [7], .visit 0, .handle 7 20002, .handle 7 20002] = some r ∧
      ¬ r.paid.Nodup :=
  ⟨_, rfl, by decide⟩

end Realm

end BallServer.Agent
