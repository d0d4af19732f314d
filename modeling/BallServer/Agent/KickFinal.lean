import BallServer.Agent.Quiescence
import Mathlib.Data.Finset.Card

/-!
# What a kick saves is final

The counter is the number of coroutines that wait in a wrapped call: what starts to wait adds
one to both, and what goes on takes one from both.  When a kick finds it zero, no handler
waits, because a handler waits in wrapped calls only; no new one starts, because the filter is
closed; and the timer does not write the tables.

Main results:

- Theorem {lit}`Primitive.wrapped_of_ne`: every wait of a handler is counted.
- Theorem {lit}`step_balanced`: the counter stays the number of coroutines that wait.
- Theorem {lit}`step_quiet`: the tables stay as the kick has found them.
- Theorem {lit}`kick_saves_last`: both for every run.
-/

namespace BallServer.Agent.Quiescence

variable {D O H M V : Type}

/-! ## Counting -/

/-- The coroutines that wait in a wrapped call. -/
def waiting (tasks : Table (Task H)) : Finset Nat :=
  tasks.keys.filter fun t => (tasks.get t).any Task.wrapped

/-- One for a coroutine that waits in a wrapped call. -/
def depth (x : Option (Task H)) : Int :=
  if x.any Task.wrapped then 1 else 0

theorem mem_waiting {tasks : Table (Task H)} {t : Nat} :
    t ∈ waiting tasks ↔ (tasks.get t).any Task.wrapped = true := by
  unfold waiting
  rw [Finset.mem_filter, tasks.mem_keys]
  cases tasks.get t <;> simp

theorem waiting_erase (tasks : Table (Task H)) (t : Nat) :
    waiting (tasks.erase t) = (waiting tasks).erase t := by
  ext i
  rw [Finset.mem_erase, mem_waiting, mem_waiting, Table.get_erase]
  by_cases hi : i = t <;> simp [hi]

theorem card_waiting_erase (tasks : Table (Task H)) (t : Nat) :
    ((waiting (tasks.erase t)).card : Int) = (waiting tasks).card - depth (tasks.get t) := by
  rw [waiting_erase]
  by_cases ht : t ∈ waiting tasks
  · have hcard := Finset.card_erase_add_one ht
    rw [depth, if_pos (mem_waiting.mp ht)]
    omega
  · rw [Finset.erase_eq_of_notMem ht, depth, if_neg (fun h => ht (mem_waiting.mpr h))]
    omega

theorem card_waiting_set {tasks : Table (Task H)} {t : Nat} (ht : tasks.get t = none)
    (x : Task H) :
    ((waiting (tasks.set t x)).card : Int) = (waiting tasks).card + depth (some x) := by
  have hnot : t ∉ waiting tasks := by
    rw [mem_waiting, ht]
    simp
  by_cases hx : x.wrapped = true
  · have hset : waiting (tasks.set t x) = insert t (waiting tasks) := by
      ext i
      rw [Finset.mem_insert, mem_waiting, mem_waiting, Table.get_set]
      by_cases hi : i = t <;> simp [hi, hx]
    rw [hset, Finset.card_insert_of_notMem hnot]
    simp [depth, hx]
  · have hset : waiting (tasks.set t x) = waiting tasks := by
      ext i
      rw [mem_waiting, mem_waiting, Table.get_set]
      by_cases hi : i = t
      · simp [hi, hx, ht]
      · simp [hi]
    rw [hset]
    simp [depth, hx]

/-- The counter is the number of coroutines that wait in a wrapped call. -/
def Balanced (s : Player D O H) : Prop :=
  s.callDepth = (waiting s.tasks).card

theorem balanced_protect {s : Player D O H} (hb : Balanced s) {t : Nat}
    (ht : s.tasks.get t = none) (x : Task H) : Balanced (protect s t x) := by
  unfold Balanced at hb ⊢
  simp only [protect]
  rw [card_waiting_set ht, hb]
  unfold depth
  by_cases hx : x.wrapped = true <;> simp [hx]

theorem balanced_unprotect {s : Player D O H} (hb : Balanced s) {t : Nat} {x : Task H}
    (ht : s.tasks.get t = some x) : Balanced (unprotect s t x) := by
  unfold Balanced at hb ⊢
  simp only [unprotect]
  rw [card_waiting_erase, hb, ht]
  unfold depth
  by_cases hx : x.wrapped = true <;> simp [hx]

theorem get_unprotect (s : Player D O H) (t : Nat) (x : Task H) :
    (unprotect s t x).tasks.get t = none := by
  simp [unprotect]

theorem balanced_ran {s : Player D O H} (hb : Balanced s) {t : Nat}
    (ht : s.tasks.get t = none) (r : Stretch D O H) : Balanced (ran s t r) := by
  unfold ran
  cases r.next with
  | none => exact hb
  | some x => exact balanced_protect (s := { s with world := r.world }) hb ht _

theorem balanced_timerRan {s : Player D O H} (hb : Balanced s) {t : Nat}
    (ht : s.tasks.get t = none) (r : World D O × Option Saving) : Balanced (timerRan s t r) := by
  unfold timerRan
  cases r.2 with
  | none => exact balanced_protect (s := { s with world := r.1 }) hb ht _
  | some x => exact balanced_protect (s := { s with world := r.1 }) hb ht _

theorem balanced_kickRan {s : Player D O H} (hb : Balanced s) {t : Nat}
    (ht : s.tasks.get t = none) (r : World D O × Option Saving) : Balanced (kickRan s t r) := by
  unfold kickRan
  cases r.2 with
  | none => exact balanced_protect (s := { s with world := r.1 }) hb ht _
  | some x =>
      exact balanced_protect (s := { s with world := r.1, taken := r.1.data :: s.taken }) hb ht _

theorem balanced_kickLoop {s : Player D O H} (hb : Balanced s) {t : Nat}
    (ht : s.tasks.get t = none) : Balanced (kickLoop s t) := by
  unfold kickLoop
  split
  · exact balanced_protect hb ht _
  · exact balanced_protect (s := { s with seen := some s.world.data }) hb ht _

theorem balanced_exit {s : Player D O H} (hb : Balanced s) {t : Nat}
    (ht : s.tasks.get t = none) : Balanced (exit s t) := by
  unfold exit
  split
  · exact balanced_protect hb ht _
  · split
    · exact hb
    · exact hb

variable {code : Code D O H M V}

theorem balanced_dispatch {s : Player D O H} (hb : Balanced s) {t : Nat}
    (ht : s.tasks.get t = none) (cmd : String) (msg : M) :
    Balanced (dispatch code s t cmd msg) := by
  unfold dispatch
  split
  · exact hb
  split
  · unfold kick
    split
    · exact hb
    · exact balanced_kickLoop (s := { s with state := .kicking }) hb ht
  split
  · exact balanced_exit hb ht
  split
  · exact hb
  · exact balanced_ran hb ht _

theorem balanced_answered {s s' : Player D O H} (hb : Balanced s) {t : Nat} {x : Task H}
    (ht : s.tasks.get t = some x) {a : Answer V} (h : answered code s t x a = some s') :
    Balanced s' := by
  have hu := balanced_unprotect hb ht
  have hnone := get_unprotect s t x
  cases x with
  | handler h' p =>
      cases h
      exact balanced_ran hu hnone _
  | timerSave x =>
      simp only [answered] at h
      split at h
      · cases h
        exact hu
      · cases h
        exact balanced_timerRan hu hnone _
  | kickLeave =>
      cases h
      exact balanced_kickRan hu hnone _
  | kickSave x =>
      simp only [answered] at h
      split at h
      · cases h
        exact hu
      · cases h
        exact balanced_kickRan hu hnone _
  | kickSync =>
      cases a with
      | value v =>
          cases h
          exact hu
      | raise =>
          cases h
          exact hu
  | timer => cases h
  | kickSleep => cases h
  | exitSleep => cases h

theorem balanced_woken {s s' : Player D O H} (hb : Balanced s) {t : Nat} {x : Task H}
    (ht : s.tasks.get t = some x) (h : woken code s t x = some s') : Balanced s' := by
  have hu := balanced_unprotect hb ht
  have hnone := get_unprotect s t x
  cases x with
  | timer =>
      cases h
      exact balanced_timerRan hu hnone _
  | kickSleep =>
      cases h
      exact balanced_kickLoop hu hnone
  | exitSleep =>
      cases h
      exact balanced_exit hu hnone
  | handler _ _ => cases h
  | timerSave _ => cases h
  | kickLeave => cases h
  | kickSave _ => cases h
  | kickSync => cases h

theorem step_balanced {s s' : Player D O H} {e : Event M V} (hb : Balanced s)
    (h : step code s e = some s') : Balanced s' := by
  unfold step at h
  split at h
  · cases h
  · cases e with
    | message t cmd msg =>
        simp only at h
        split at h
        case h_1 ht =>
          cases h
          exact balanced_dispatch hb ht cmd msg
        case h_2 => cases h
    | answer t a =>
        obtain ⟨x, hx, h⟩ := Option.bind_eq_some_iff.mp h
        exact balanced_answered hb hx h
    | wake t =>
        obtain ⟨x, hx, h⟩ := Option.bind_eq_some_iff.mp h
        exact balanced_woken hb hx h

/-! ## The tables after the kick has seen zero -/

theorem Primitive.wrapped_of_ne {p : Primitive} (h : p ≠ .rawCall) : p.wrapped = true := by
  cases p with
  | redis c => cases c <;> decide
  | rawCall => exact absurd rfl h
  | query | begin | txQuery | txCommit | txRollback | call => rfl

/-- What may wait: no handler after the kick has seen zero, and no part of the kick before it
is due. -/
def Task.Allowed (seen : Option D) (state : Kick.PlayerState) : Task H → Prop
  | .handler _ _ => seen = none
  | .kickSleep => state ≠ .normal
  | .kickLeave => seen ≠ none
  | .kickSave _ => seen ≠ none
  | .kickSync => seen ≠ none
  | .timer => True
  | .timerSave _ => True
  | .exitSleep => True

/-- The invariant. -/
structure Quiet (s : Player D O H) : Prop where
  tasks : ∀ t x, s.tasks.get t = some x → x.Allowed s.seen s.state
  closed : s.seen ≠ none → s.state ≠ .normal
  kicked : s.state = .kicked → s.seen ≠ none
  data : ∀ d, s.seen = some d → s.world.data = d
  taken : ∀ d ∈ s.taken, s.seen = some d

theorem start_quiet (w : World D O) : Quiet (start w : Player D O H) where
  tasks t x hx := by
    simp only [start, Table.get_set, Table.get_empty] at hx
    split at hx
    · cases hx
      exact trivial
    · cases hx
  closed h := absurd rfl h
  kicked h := by cases h
  data d h := by cases h
  taken d h := absurd h List.not_mem_nil

theorem quiet_protect {s : Player D O H} (hq : Quiet s) (t : Nat) {x : Task H}
    (hx : x.Allowed s.seen s.state) : Quiet (protect s t x) where
  tasks t' y hy := by
    simp only [protect, Table.get_set] at hy
    split at hy
    · cases hy
      exact hx
    · exact hq.tasks t' y hy
  closed := hq.closed
  kicked := hq.kicked
  data := hq.data
  taken := hq.taken

theorem quiet_unprotect {s : Player D O H} (hq : Quiet s) (t : Nat) (x : Task H) :
    Quiet (unprotect s t x) where
  tasks t' y hy := by
    simp only [unprotect, Table.get_erase] at hy
    split at hy
    · cases hy
    · exact hq.tasks t' y hy
  closed := hq.closed
  kicked := hq.kicked
  data := hq.data
  taken := hq.taken

/-- What is not in the tables may change. -/
theorem quiet_world {s : Player D O H} (hq : Quiet s) {w : World D O}
    (hw : s.seen = none ∨ w.data = s.world.data) : Quiet { s with world := w } where
  tasks := hq.tasks
  closed := hq.closed
  kicked := hq.kicked
  data d hd := by
    rcases hw with hw | hw
    · rw [hw] at hd
      cases hd
    · exact hw.trans (hq.data d hd)
  taken := hq.taken

/-- A handler runs before the kick has seen zero. -/
theorem quiet_ran {s : Player D O H} (hq : Quiet s) (hseen : s.seen = none) (t : Nat)
    (r : Stretch D O H) : Quiet (ran s t r) := by
  have hw := quiet_world hq (w := r.world) (Or.inl hseen)
  unfold ran
  cases r.next with
  | none => exact hw
  | some x => exact quiet_protect hw t hseen

/-- {lit}`save_all` reads the tables. -/
theorem data_saveFrom (code : Code D O H M V) (ms : List Kick.Module) (w : World D O) :
    (saveFrom code w ms).1.data = w.data := by
  induction ms generalizing w with
  | nil => rfl
  | cons m ms ih =>
      unfold saveFrom
      split
      · split
        · rfl
        · exact ih (saved w m _)
        · rfl
      · exact ih w

theorem data_saveOn {code : Code D O H M V} {w : World D O} {x : Saving} {a : Answer V}
    {r : World D O × Option Saving} (h : saveOn code w x a = some r) : r.1.data = w.data := by
  unfold saveOn at h
  split at h
  · cases h
    rfl
  · cases h
    exact data_saveFrom code x.rest _
  · cases h

theorem quiet_timerRan {s : Player D O H} (hq : Quiet s) (t : Nat)
    {r : World D O × Option Saving} (hr : r.1.data = s.world.data) :
    Quiet (timerRan s t r) := by
  have hw := quiet_world hq (w := r.1) (Or.inr hr)
  unfold timerRan
  cases r.2 with
  | none => exact quiet_protect hw t trivial
  | some x => exact quiet_protect hw t trivial

/-- The save of the kick reads the tables that the kick has seen. -/
theorem quiet_kickRan {s : Player D O H} (hq : Quiet s) (t : Nat)
    {r : World D O × Option Saving} (hr : r.1.data = s.world.data) (hseen : s.seen ≠ none) :
    Quiet (kickRan s t r) := by
  have hw := quiet_world hq (w := r.1) (Or.inr hr)
  unfold kickRan
  cases r.2 with
  | none => exact quiet_protect hw t hseen
  | some x =>
      have htaken : Quiet { s with world := r.1, taken := r.1.data :: s.taken } := by
        refine ⟨hw.tasks, hw.closed, hw.kicked, hw.data, ?_⟩
        intro d hd
        rcases List.mem_cons.mp hd with rfl | hd
        · obtain ⟨d', hd'⟩ := Option.ne_none_iff_exists'.mp hseen
          rw [hr, hq.data d' hd']
          exact hd'
        · exact hq.taken d hd
      exact quiet_protect htaken t hseen

/-- When the counter is zero no handler waits. -/
theorem no_handler {s : Player D O H} (hb : Balanced s) (hzero : ¬s.callDepth > 0) {t : Nat}
    {h : H} {p : {p : Primitive // p ≠ .rawCall}} : s.tasks.get t ≠ some (.handler h p) := by
  intro hget
  have hmem : t ∈ waiting s.tasks := by
    rw [mem_waiting, hget]
    simpa [Task.wrapped, Task.primitive] using Primitive.wrapped_of_ne p.2
  have hpos := Finset.card_pos.mpr ⟨t, hmem⟩
  unfold Balanced at hb
  omega

theorem quiet_kickLoop {s : Player D O H} (hb : Balanced s) (hq : Quiet s)
    (hstate : s.state ≠ .normal) (t : Nat) : Quiet (kickLoop s t) := by
  unfold kickLoop
  split
  case isTrue => exact quiet_protect hq t hstate
  case isFalse hzero =>
    have hseen : Quiet { s with seen := some s.world.data } := by
      refine ⟨?_, fun _ => hstate, fun _ => Option.some_ne_none _, ?_, ?_⟩
      · intro t' x hx
        have hallowed := hq.tasks t' x hx
        cases x with
        | handler h p => exact absurd hx (no_handler hb hzero)
        | kickSleep => exact hallowed
        | kickLeave | kickSave _ | kickSync => exact Option.some_ne_none _
        | timer | timerSave _ | exitSleep => exact trivial
      · intro d hd
        exact Option.some.inj hd
      · intro d hd
        rw [hq.data d (hq.taken d hd)]
    exact quiet_protect hseen t (Option.some_ne_none _)

theorem quiet_exit {s : Player D O H} (hq : Quiet s) (t : Nat) : Quiet (exit s t) := by
  unfold exit
  split
  · exact quiet_protect hq t trivial
  · split
    · exact ⟨hq.tasks, hq.closed, hq.kicked, hq.data, hq.taken⟩
    · exact hq

/-- The state is another one than {lit}`NORMAL`. -/
theorem quiet_state {s : Player D O H} (hq : Quiet s) {state : Kick.PlayerState}
    (hstate : state ≠ .normal) (hkicked : state = .kicked → s.seen ≠ none) :
    Quiet { s with state := state } := by
  refine ⟨?_, fun _ => hstate, hkicked, hq.data, hq.taken⟩
  intro t x hx
  have hallowed := hq.tasks t x hx
  cases x with
  | kickSleep => exact hstate
  | handler _ _ | kickLeave | kickSave _ | kickSync => exact hallowed
  | timer | timerSave _ | exitSleep => exact trivial

/-- What the filter lets through. -/
theorem filterCmd_false {state : Kick.PlayerState} {cmd : String}
    (h : filterCmd false state cmd = true) :
    state = .normal ∨ cmd = "kick" ∨ cmd = "exit" := by
  cases state with
  | normal => exact Or.inl rfl
  | kicking => exact Or.inr (by simpa [filterCmd, kickedAllow] using h)
  | kicked => exact Or.inr (by simpa [filterCmd, kickedAllow] using h)

variable {code : Code D O H M V}

theorem quiet_dispatch {s : Player D O H} (hb : Balanced s) (hq : Quiet s) (t : Nat)
    (cmd : String) (msg : M) : Quiet (dispatch code s t cmd msg) := by
  unfold dispatch
  split
  · exact hq
  case isFalse hfilter =>
    have hpass := filterCmd_false (by simpa using hfilter)
    split
    case isTrue =>
      unfold kick
      split
      · exact hq
      · exact quiet_kickLoop (s := { s with state := .kicking }) hb
          (quiet_state hq (by decide) (fun h => by cases h))
          (show Kick.PlayerState.kicking ≠ .normal by decide) t
    case isFalse hkick =>
      split
      · exact quiet_exit hq t
      case isFalse hexit =>
        split
        · exact hq
        · have hnormal := hpass.resolve_right (not_or.mpr ⟨hkick, hexit⟩)
          refine quiet_ran hq ?_ t _
          by_contra hseen
          exact hq.closed hseen hnormal

theorem quiet_answered {s s' : Player D O H} (hq : Quiet s) {t : Nat} {x : Task H}
    (ht : s.tasks.get t = some x) {a : Answer V} (h : answered code s t x a = some s') :
    Quiet s' := by
  have hallowed := hq.tasks t x ht
  have hu := quiet_unprotect hq t x
  cases x with
  | handler h' p =>
      cases h
      exact quiet_ran hu hallowed t _
  | timerSave x =>
      simp only [answered] at h
      split at h
      · cases h
        exact hu
      case h_2 r hr =>
        cases h
        exact quiet_timerRan hu t (data_saveOn hr)
  | kickLeave =>
      cases h
      exact quiet_kickRan hu t (data_saveFrom code _ _) hallowed
  | kickSave x =>
      simp only [answered] at h
      split at h
      · cases h
        exact hu
      case h_2 r hr =>
        cases h
        exact quiet_kickRan hu t (data_saveOn hr) hallowed
  | kickSync =>
      cases a with
      | value v =>
          cases h
          exact quiet_state hu (by decide) (fun _ => hallowed)
      | raise =>
          cases h
          exact hu
  | timer => cases h
  | kickSleep => cases h
  | exitSleep => cases h

theorem quiet_woken {s s' : Player D O H} (hb : Balanced s) (hq : Quiet s) {t : Nat}
    {x : Task H} (ht : s.tasks.get t = some x) (h : woken code s t x = some s') : Quiet s' := by
  have hallowed := hq.tasks t x ht
  have hu := quiet_unprotect hq t x
  cases x with
  | timer =>
      cases h
      exact quiet_timerRan hu t (data_saveFrom code _ _)
  | kickSleep =>
      cases h
      exact quiet_kickLoop (balanced_unprotect hb ht) hu hallowed t
  | exitSleep =>
      cases h
      exact quiet_exit hu t
  | handler _ _ => cases h
  | timerSave _ => cases h
  | kickLeave => cases h
  | kickSave _ => cases h
  | kickSync => cases h

theorem step_quiet {s s' : Player D O H} {e : Event M V} (hb : Balanced s) (hq : Quiet s)
    (h : step code s e = some s') : Quiet s' := by
  unfold step at h
  split at h
  · cases h
  · cases e with
    | message t cmd msg =>
        simp only at h
        split at h
        · cases h
          exact quiet_dispatch hb hq t cmd msg
        · cases h
    | answer t a =>
        obtain ⟨x, hx, h⟩ := Option.bind_eq_some_iff.mp h
        exact quiet_answered hq hx h
    | wake t =>
        obtain ⟨x, hx, h⟩ := Option.bind_eq_some_iff.mp h
        exact quiet_woken hb hq hx h

/-! ## Runs -/

theorem run_quiet (es : List (Event M V)) {s s' : Player D O H} (hb : Balanced s) (hq : Quiet s)
    (h : run code s es = some s') : Balanced s' ∧ Quiet s' := by
  induction es generalizing s with
  | nil =>
      cases h
      exact ⟨hb, hq⟩
  | cons e es ih =>
      obtain ⟨s₁, hs₁, h⟩ := Option.bind_eq_some_iff.mp h
      exact ih (step_balanced hb hs₁) (step_quiet hb hq hs₁) h

theorem start_balanced (w : World D O) : Balanced (start w : Player D O H) := by
  unfold Balanced
  rfl

/-- In every run {lit}`call_depth` is the number of coroutines that wait in a wrapped call.
From the moment the kick has seen zero the tables stay as they are, and its save reads nothing
else; and the state is {lit}`KICKED` only after that moment. -/
theorem kick_saves_last (code : Code D O H M V) (w : World D O) (es : List (Event M V))
    (s : Player D O H) (hrun : run code (start w) es = some s) :
    s.callDepth = (waiting s.tasks).card ∧
    (∀ d, s.seen = some d → s.world.data = d ∧ ∀ d' ∈ s.taken, d' = d) ∧
    (s.state = .kicked → s.seen ≠ none) := by
  obtain ⟨hb, hq⟩ := run_quiet es (start_balanced w) (start_quiet w) hrun
  refine ⟨hb, ?_, hq.kicked⟩
  intro d hd
  refine ⟨hq.data d hd, ?_⟩
  intro d' hd'
  have hseen := hq.taken d' hd'
  rw [hd] at hseen
  exact (Option.some.inj hseen).symm

/-- A handler that counts two, waits for redis and counts one more. -/
def counting : Code Int Unit Unit Unit Unit where
  start _ _ w := ⟨{ w with data := w.data + 2 }, some (⟨.redis .set, by decide⟩, ())⟩
  resume _ _ w := ⟨{ w with data := w.data + 1 }, none⟩
  rows _ _ := []
  dbFailed _ := false

/-- A kick while a handler waits, and a message that comes too late. -/
def lateMessage : List (Event Unit Unit) :=
  [.message 1 "work" (), .message 2 "kick" (), .answer 1 .raise, .wake 2,
    .message 3 "work" (), .answer 2 (.value ()), .answer 2 (.value ()), .answer 2 (.value ()),
    .answer 2 (.value ()), .answer 2 (.value ())]

theorem kick_saves_last_work : ∃ s,
    run counting (start ⟨0, fun _ => false, [], ()⟩) lateMessage = some s ∧
      s.state = .kicked ∧ s.taken = [3, 3, 3] ∧ s.world.data = 3 ∧
      s.callDepth = (waiting s.tasks).card :=
  ⟨_, rfl, rfl, rfl,
    ((kick_saves_last counting ⟨0, fun _ => false, [], ()⟩ lateMessage _ rfl).2.1 3 rfl).1,
    (kick_saves_last counting ⟨0, fun _ => false, [], ()⟩ lateMessage _ rfl).1⟩

end BallServer.Agent.Quiescence
