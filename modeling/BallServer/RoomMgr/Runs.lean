import BallServer.RoomMgr.Stock
import Mathlib.Data.List.Nodup

/-!
# Rooms, addresses and runs

An entry stands for the room service whose address it holds.  {lit}`nodemgr` gives every
service a new address; then different entries are different rooms.

Main results:

- Theorem {lit}`step_addressed`: entries keep their addresses, and these are different.
- Theorem {lit}`step_shrunk`: shrinking closes only idle rooms.
- Theorem {lit}`pool_lends_once`: the pool never lends a room twice, and keeps its flags
  and its bound.
-/

namespace BallServer.RoomMgr

namespace Pool

variable {s s' : Pool} {c e m : Nat}

/-! ## Addresses -/

/-- Two entries of one address are one, as long as {lit}`nodemgr` has not given the same
address twice. -/
structure Addressed (s : Pool) : Prop where
  entry : ∀ e < s.nextEntry, (s.entries e).key ∈ s.started
  made : ∀ c m id node room, s.coroutines c = some (.prewarm m id node room) →
    (node, room) ∈ s.started
  inj : s.started.Nodup → ∀ e < s.nextEntry, ∀ e' < s.nextEntry,
    (s.entries e).key = (s.entries e').key → e = e'
  apart : s.started.Nodup → ∀ c m id node room, s.coroutines c = some (.prewarm m id node room) →
    ∀ e < s.nextEntry, (s.entries e).key ≠ (node, room)
  one : s.started.Nodup → ∀ c c' m m' id id' node room,
    s.coroutines c = some (.prewarm m id node room) →
    s.coroutines c' = some (.prewarm m' id' node room) → c = c'

/-- The entries keep their addresses, and no room is being made that was not before. -/
structure Stays (s s' : Pool) : Prop where
  next : s'.nextEntry = s.nextEntry
  key : ∀ e, (s'.entries e).key = (s.entries e).key
  prewarm : ∀ c m id node room, s'.coroutines c = some (.prewarm m id node room) →
    s.coroutines c = some (.prewarm m id node room)
  started : s'.started = s.started

theorem Stays.refl (s : Pool) : s.Stays s := ⟨rfl, fun _ => rfl, fun _ _ _ _ _ h => h, rfl⟩

theorem Stays.trans {s'' : Pool} (h : s.Stays s') (h' : s'.Stays s'') : s.Stays s'' :=
  ⟨h'.next.trans h.next, fun e => (h'.key e).trans (h.key e),
    fun c m id node room hc => h.prewarm c m id node room (h'.prewarm c m id node room hc),
    h'.started.trans h.started⟩

/-- Changes that leave the addresses alone. -/
theorem Addressed.stays (h : s.Addressed) (hs : s.Stays s') : s'.Addressed := by
  constructor
  · intro e he
    rw [hs.key, hs.started]
    exact h.entry e (hs.next ▸ he)
  · intro c m id node room hc
    rw [hs.started]
    exact h.made c m id node room (hs.prewarm c m id node room hc)
  · intro hn e he e' he' hkey
    rw [hs.key, hs.key] at hkey
    exact h.inj (hs.started ▸ hn) e (hs.next ▸ he) e' (hs.next ▸ he') hkey
  · intro hn c m id node room hc e he
    rw [hs.key]
    exact h.apart (hs.started ▸ hn) c m id node room (hs.prewarm c m id node room hc) e
      (hs.next ▸ he)
  · intro hn c c' m m' id id' node room hc hc'
    exact h.one (hs.started ▸ hn) c c' m m' id id' node room (hs.prewarm c m id node room hc)
      (hs.prewarm c' m' id' node room hc')

theorem stays_setState (s : Pool) (e : Nat) (state : PoolState) : s.Stays (s.setState e state) := by
  refine ⟨rfl, fun d => ?_, fun _ _ _ _ _ h => h, rfl⟩
  by_cases hd : d = e
  · subst hd
    simp [setState, Entry.key]
  · simp [setState, hd]

theorem stays_setCoroutine {x : Option Coroutine}
    (hx : ∀ m id node room, x ≠ some (.prewarm m id node room)) :
    s.Stays (s.setCoroutine c x) := by
  refine ⟨rfl, fun _ => rfl, fun c' m id node room h => ?_, rfl⟩
  by_cases hc : c' = c
  · subst hc
    simp only [setCoroutine, Function.update_self] at h
    exact absurd h (hx m id node room)
  · simpa [setCoroutine, hc] using h

theorem stays_removePoolRoom (s : Pool) (e : Nat) : s.Stays (s.removePoolRoom e) :=
  { stays_setState s e .dead with }

theorem stays_startRefillPool (s : Pool) (m : Nat) : s.Stays (s.startRefillPool m) := by
  unfold startRefillPool
  split
  · exact .refl s
  · exact { stays_setCoroutine (s := s) (c := s.nextCoroutine) (x := some (.forked m)) (by simp)
      with }

theorem stays_endRefill (s : Pool) (c m : Nat) : s.Stays (s.endRefill c m) :=
  { stays_setCoroutine (s := s) (c := c) (x := none) (by simp) with }

theorem stays_refillLoop (s : Pool) (c m : Nat) : s.Stays (s.refillLoop c m) := by
  unfold refillLoop
  split
  · split
    · exact stays_endRefill s c m
    · exact stays_setCoroutine (by simp)
  · exact stays_endRefill s c m

theorem stays_shrinkLoop {now : Nat} (es : List Nat) (n : Nat) (s : Pool) :
    s.Stays (shrinkLoop now es n s) := by
  induction es generalizing n s with
  | nil => exact .refl s
  | cons e es ih =>
      unfold shrinkLoop
      split
      · exact .refl s
      · split
        · have hclose : s.Stays (s.closeIdleRoom e) := { stays_removePoolRoom s e with }
          exact hclose.trans (ih _ _)
        · exact ih _ _

theorem stays_maintainPool (s : Pool) (o : Pairs) (now : Nat) : s.Stays (s.maintainPool o now) := by
  refine List.foldlRecOn (motive := s.Stays) _ _ (.refl s) fun t ht m _ => ?_
  refine (ht.trans (stays_startRefillPool t m)).trans ?_
  unfold shrinkPool
  split
  · exact .refl _
  · exact stays_shrinkLoop _ _ _

theorem stays_roomClosed (s : Pool) (key : String × Nat) (ms : List Nat) :
    s.Stays (s.roomClosed key ms) := by
  induction ms with
  | nil => exact .refl s
  | cons m ms ih =>
      unfold roomClosed
      split
      · exact (stays_removePoolRoom s _).trans (stays_startRefillPool _ _)
      · exact ih

/-- A room service has been created; its address is new, or the list has a duplicate. -/
theorem Addressed.service (h : s.Addressed) (m id : Nat) (node : String) (room : Nat) :
    ({ s with started := (node, room) :: s.started }.setCoroutine c
      (some (.prewarm m id node room))).Addressed := by
  have hco : ∀ c' m' id' node' room', ({ s with started := (node, room) :: s.started }.setCoroutine c
      (some (.prewarm m id node room))).coroutines c' = some (.prewarm m' id' node' room') →
      c' = c ∧ (node', room') = (node, room) ∨
        s.coroutines c' = some (.prewarm m' id' node' room') := by
    intro c' m' id' node' room' hc'
    by_cases heq : c' = c
    · subst heq
      simp only [setCoroutine, Function.update_self, Option.some.injEq,
        Coroutine.prewarm.injEq] at hc'
      obtain ⟨-, -, rfl, rfl⟩ := hc'
      exact .inl ⟨rfl, rfl⟩
    · exact .inr (by simpa [setCoroutine, heq] using hc')
  constructor
  · exact fun e he => List.mem_cons_of_mem _ (h.entry e he)
  · intro c' m' id' node' room' hc'
    rcases hco c' m' id' node' room' hc' with ⟨-, heq⟩ | hold
    · rw [heq]
      exact List.mem_cons_self
    · exact List.mem_cons_of_mem _ (h.made c' m' id' node' room' hold)
  · exact fun hn => h.inj (List.nodup_cons.mp hn).2
  · intro hn c' m' id' node' room' hc' e he heq
    obtain ⟨hnew, hn⟩ := List.nodup_cons.mp hn
    rcases hco c' m' id' node' room' hc' with ⟨-, hkey⟩ | hold
    · exact hnew (hkey ▸ heq ▸ h.entry e he)
    · exact h.apart hn c' m' id' node' room' hold e he heq
  · intro hn c₁ c₂ m₁ m₂ id₁ id₂ node' room' h₁ h₂
    obtain ⟨hnew, hn⟩ := List.nodup_cons.mp hn
    rcases hco c₁ m₁ id₁ node' room' h₁ with ⟨hc₁, hk₁⟩ | hs₁ <;>
      rcases hco c₂ m₂ id₂ node' room' h₂ with ⟨hc₂, hk₂⟩ | hs₂
    · rw [hc₁, hc₂]
    · exact absurd (hk₁ ▸ h.made c₂ m₂ id₂ node' room' hs₂) hnew
    · exact absurd (hk₂ ▸ h.made c₁ m₁ id₁ node' room' hs₁) hnew
    · exact h.one hn c₁ c₂ m₁ m₂ id₁ id₂ node' room' hs₁ hs₂

/-- The room that was being made gets its entry. -/
theorem Addressed.added (h : s.Addressed) {id room : Nat} {node : String} {x : Entry}
    (hc : s.coroutines c = some (.prewarm m id node room)) (hx : x.key = (node, room))
    {y : Option Coroutine} (hy : ∀ m id node room, y ≠ some (.prewarm m id node room)) :
    ((s.addEntry x).setCoroutine c y).Addressed := by
  have hkey : ∀ e < s.nextEntry, ((s.addEntry x).entries e).key = (s.entries e).key := fun e he => by
    simp [addEntry, he.ne]
  have hnew : ((s.addEntry x).entries s.nextEntry).key = (node, room) := by
    simp [addEntry, hx]
  have hlt : ∀ e, e < (s.addEntry x).nextEntry → e < s.nextEntry ∨ e = s.nextEntry := fun e he =>
    Nat.lt_succ_iff_lt_or_eq.mp he
  have hco : ∀ c' m' id' node' room',
      ((s.addEntry x).setCoroutine c y).coroutines c' = some (.prewarm m' id' node' room') →
      c' ≠ c ∧ s.coroutines c' = some (.prewarm m' id' node' room') := by
    intro c' m' id' node' room' hc'
    by_cases heq : c' = c
    · subst heq
      simp only [setCoroutine, Function.update_self] at hc'
      exact absurd hc' (hy m' id' node' room')
    · exact ⟨heq, by simpa [setCoroutine, addEntry, heq] using hc'⟩
  constructor
  · intro e he
    rcases hlt e he with he | rfl
    · exact (hkey e he).symm ▸ h.entry e he
    · exact hnew.symm ▸ h.made c m id node room hc
  · exact fun c' m' id' node' room' hc' => h.made c' m' id' node' room' (hco _ _ _ _ _ hc').2
  · intro hn e he e' he' heq
    have heq : ((s.addEntry x).entries e).key = ((s.addEntry x).entries e').key := heq
    rcases hlt e he with he | rfl <;> rcases hlt e' he' with he' | rfl
    · rw [hkey e he, hkey e' he'] at heq
      exact h.inj hn e he e' he' heq
    · rw [hkey e he, hnew] at heq
      exact absurd heq (h.apart hn c m id node room hc e he)
    · rw [hkey e' he', hnew] at heq
      exact absurd heq.symm (h.apart hn c m id node room hc e' he')
    · rfl
  · intro hn c' m' id' node' room' hc' e he heq
    have heq : ((s.addEntry x).entries e).key = (node', room') := heq
    obtain ⟨hne, hc'⟩ := hco c' m' id' node' room' hc'
    rcases hlt e he with he | rfl
    · exact h.apart hn c' m' id' node' room' hc' e he (hkey e he ▸ heq)
    · obtain ⟨rfl, rfl⟩ := Prod.mk.inj (hnew.symm.trans heq)
      exact hne (h.one hn c' c m' m id' id node room hc' hc)
  · intro hn c₁ c₂ m₁ m₂ id₁ id₂ node' room' h₁ h₂
    exact h.one hn c₁ c₂ m₁ m₂ id₁ id₂ node' room' (hco _ _ _ _ _ h₁).2 (hco _ _ _ _ _ h₂).2

/-- A room gets the address that its coroutine was given. -/
theorem Addressed.refilled (h : s.Addressed) {id room : Nat} {node : String} {x : Entry}
    (hc : s.coroutines c = some (.prewarm m id node room)) (hx : x.key = (node, room)) :
    ((s.addEntry x).refillLoop c m).Addressed := by
  have hend : ((s.addEntry x).endRefill c m).Addressed :=
    { h.added hc hx (y := none) (by simp) with }
  unfold refillLoop
  split
  · split
    · exact hend
    · exact h.added hc hx (by simp)
  · exact hend

/-- Every event keeps the addresses of the entries. -/
theorem step_addressed {ev : Event} (h : s.Addressed) (hs : s.step ev = some s') :
    s'.Addressed := by
  cases ev with
  | createRoom o m =>
      obtain rfl := Option.some.inj hs
      have hnext : ({ s with nextCoroutine := s.nextCoroutine + 1 } : Pool).Addressed :=
        h.stays { Stays.refl s with }
      unfold createRoom
      split
      · exact hnext.stays (stays_startRefillPool _ m)
      · exact (hnext.stays (stays_setState _ _ _)).stays (stays_setCoroutine (by simp))
  | roomClosed o node room =>
      obtain rfl := Option.some.inj hs
      exact h.stays (stays_roomClosed s _ _)
  | maintain o now =>
      obtain rfl := Option.some.inj hs
      exact h.stays (stays_maintainPool s o now)
  | resume c a =>
      simp only [step] at hs
      split at hs
      · cases hs
      · rename_i x hx
        unfold resume at hs
        split at hs <;> first | (obtain rfl := Option.some.inj hs) | cases hs
        · exact h.stays (stays_refillLoop s c _)
        · exact h.stays (stays_endRefill s c _)
        · refine Addressed.stays (s := { s with nextNodeIdx := s.nextNodeIdx + 1 }) ?_
            (stays_setCoroutine (by simp))
          exact h.stays { Stays.refl s with }
        · exact h.stays (stays_endRefill s c _)
        · exact h.service _ _ _ _
        · exact h.stays (stays_setCoroutine (by simp))
        · exact h.refilled hx rfl
        · exact h.stays (stays_endRefill s c _)
        · exact (h.stays (stays_removePoolRoom s _)).stays (stays_setCoroutine (by simp))
        · rename_i m e
          have hend := (stays_setState s e .busy).trans
            (stays_setCoroutine (c := c) (x := none) (by simp))
          refine Addressed.stays ?_ (stays_startRefillPool _ m)
          exact h.stays { hend with }
        · exact (h.stays (stays_setCoroutine (by simp))).stays (stays_startRefillPool _ _)

/-! ## Rooms that shrinking has closed -/

@[simp] theorem shrunk_startRefillPool (s : Pool) (m : Nat) :
    (s.startRefillPool m).shrunk = s.shrunk := by
  unfold startRefillPool
  split <;> rfl

@[simp] theorem shrunk_refillLoop (s : Pool) (c m : Nat) :
    (s.refillLoop c m).shrunk = s.shrunk := by
  unfold refillLoop
  repeat' split
  all_goals rfl

theorem shrunk_roomClosed (s : Pool) (key : String × Nat) (ms : List Nat) :
    (s.roomClosed key ms).shrunk = s.shrunk := by
  induction ms with
  | nil => rfl
  | cons m ms ih =>
      unfold roomClosed
      split
      · rw [shrunk_startRefillPool]
        rfl
      · exact ih

/-- What shrinking does to the idle entries and to the list of those it has closed. -/
structure Closes (s s' : Pool) : Prop where
  idle : ∀ e, s'.Idle e → s.Idle e
  old : ∀ e ∈ s.shrunk, e ∈ s'.shrunk
  new : ∀ e ∈ s'.shrunk, e ∈ s.shrunk ∨ s.Idle e

theorem Closes.refl (s : Pool) : s.Closes s := ⟨fun _ h => h, fun _ h => h, fun _ h => .inl h⟩

theorem Closes.trans {s'' : Pool} (h : s.Closes s') (h' : s'.Closes s'') : s.Closes s'' :=
  ⟨fun e he => h.idle e (h'.idle e he), fun e he => h'.old e (h.old e he),
    fun e he => (h'.new e he).elim (h.new e) fun hi => .inr (h.idle e hi)⟩

theorem closes_shrinkLoop {now : Nat} (es : List Nat) (n : Nat) (s : Pool) :
    s.Closes (shrinkLoop now es n s) := by
  induction es generalizing n s with
  | nil => exact .refl s
  | cons e es ih =>
      unfold shrinkLoop
      split
      · exact .refl s
      · split
        · rename_i hi
          have hclose : s.Closes (s.closeIdleRoom e) := by
            refine ⟨fun d hd => (removePoolRoom_idle hd).1, fun d hd => ?_, fun d hd => ?_⟩
            · exact List.mem_cons_of_mem _ hd
            · rcases List.mem_cons.mp hd with rfl | hd
              · exact .inr hi.1
              · exact .inl hd
          exact hclose.trans (ih _ _)
        · exact ih _ _

theorem closes_maintainPool (s : Pool) (o : Pairs) (now : Nat) :
    s.Closes (s.maintainPool o now) := by
  refine List.foldlRecOn (motive := s.Closes) _ _ (.refl s) fun t ht m _ => ?_
  have hstart : t.Closes (t.startRefillPool m) := by
    refine ⟨fun e he => ?_, fun e he => ?_, fun e he => .inl ?_⟩
    · unfold startRefillPool at he
      split at he <;> exact he
    · rwa [shrunk_startRefillPool]
    · rwa [shrunk_startRefillPool] at he
  refine (ht.trans hstart).trans ?_
  unfold shrinkPool
  split
  · exact .refl _
  · exact closes_shrinkLoop _ _ _

/-- What is closed stays closed, and only idle rooms are closed. -/
theorem step_shrunk {ev : Event} (hs : s.step ev = some s') :
    (∀ e ∈ s.shrunk, e ∈ s'.shrunk) ∧ ∀ e ∈ s'.shrunk, e ∈ s.shrunk ∨ s.Idle e := by
  have hsame : s'.shrunk = s.shrunk →
      (∀ e ∈ s.shrunk, e ∈ s'.shrunk) ∧ ∀ e ∈ s'.shrunk, e ∈ s.shrunk ∨ s.Idle e :=
    fun h => ⟨fun e he => h ▸ he, fun e he => .inl (h ▸ he)⟩
  cases ev with
  | createRoom o m =>
      obtain rfl := Option.some.inj hs
      apply hsame
      unfold createRoom
      split
      · exact shrunk_startRefillPool _ m
      · rfl
  | roomClosed o node room =>
      obtain rfl := Option.some.inj hs
      exact hsame (shrunk_roomClosed s _ _)
  | maintain o now =>
      obtain rfl := Option.some.inj hs
      exact ⟨(closes_maintainPool s o now).old, (closes_maintainPool s o now).new⟩
  | resume c a =>
      apply hsame
      simp only [step] at hs
      split at hs
      · cases hs
      · unfold resume at hs
        split at hs <;> first | (obtain rfl := Option.some.inj hs) | cases hs
        all_goals first | rfl | exact shrunk_refillLoop _ c _ | exact shrunk_startRefillPool _ _

/-! ## Runs -/

/-- What every event preserves. -/
structure Kept (s : Pool) : Prop where
  owned : s.Owned
  flags : s.Flags
  stock : s.Stock
  addressed : s.Addressed

/-- At the start there is no entry and no coroutine. -/
theorem start_kept (roomNodes : List String) : (start roomNodes).Kept where
  owned := by constructor <;> simp [start, Idle]
  flags := by constructor <;> simp [start, refillOf]
  stock := by constructor <;> simp [start, createsFor, countIdle]
  addressed := by constructor <;> simp [start]

/-- The parts of the invariant together. -/
theorem step_kept {ev : Event} (h : s.Kept) (hs : s.step ev = some s') : s'.Kept :=
  ⟨step_owned h.owned hs, step_flags h.flags hs, step_stock h.stock h.flags h.owned hs,
    step_addressed h.addressed hs⟩

/-- The invariant holds in every state of a run. -/
theorem run_kept (evs : List Event) (h : s.Kept) (hs : s.run evs = some s') : s'.Kept := by
  induction evs generalizing s with
  | nil => exact Option.some.inj hs ▸ h
  | cons ev evs ih =>
      obtain ⟨t, ht, hrest⟩ := Option.bind_eq_some_iff.mp hs
      exact ih (step_kept h ht) hrest

/-- In a run from any state in which entries are held so, they stay so and no closed room comes
back. -/
theorem run_owned (evs : List Event) (h : s.Owned) (hs : s.run evs = some s') :
    s'.Owned ∧ ∀ e ∈ s.shrunk, e ∈ s'.shrunk := by
  induction evs generalizing s with
  | nil => exact Option.some.inj hs ▸ ⟨h, fun _ he => he⟩
  | cons ev evs ih =>
      obtain ⟨t, ht, hrest⟩ := Option.bind_eq_some_iff.mp hs
      obtain ⟨ho, hmono⟩ := ih (step_owned h ht) hrest
      exact ⟨ho, fun e he => hmono e ((step_shrunk ht).1 e he)⟩

/-- The pool never lends a room twice: neither an entry nor, as long as {lit}`nodemgr`
gives new addresses, a room service.  One refill coroutine runs for a mode, its flag says
so, and the idle rooms of a mode are bounded.  Shrinking closes idle rooms only, also in
states with more idle rooms than a run can reach, and nobody reserves them later. -/
theorem pool_lends_once (roomNodes : List String) :
    (∀ evs s, (start roomNodes).run evs = some s →
      (s.returned.map Prod.snd).Nodup ∧
      (s.started.Nodup → (s.returned.map fun r => (s.entries r.2).key).Nodup) ∧
      (∀ m c c', s.refillOf c = some m → s.refillOf c' = some m → c = c') ∧
      (∀ m, s.refillRunning m = true ↔ ∃ c, s.refillOf c = some m) ∧
      (∀ m, s.countIdle m ≤ poolMinIdle) ∧ s.Owned) ∧
    ∀ s : Pool, s.Owned → ∀ o now, ∀ e ∈ (s.maintainPool o now).shrunk, e ∉ s.shrunk →
      s.Idle e ∧ ∀ evs s', (s.maintainPool o now).run evs = some s' →
        ¬ s'.Idle e ∧ (∀ c m, s'.coroutines c ≠ some (.init m e)) ∧ ∀ c, (c, e) ∉ s'.returned := by
  constructor
  · intro evs s hrun
    obtain ⟨ho, hf, hst, ha⟩ := run_kept evs (start_kept roomNodes) hrun
    refine ⟨ho.nodup, fun hn => ?_, fun m c c' => hf.one c c' m, hf.flag, hst.le, ho⟩
    have hmap : (s.returned.map fun r => (s.entries r.2).key) =
        (s.returned.map Prod.snd).map fun e => (s.entries e).key := by
      rw [List.map_map]
      rfl
    rw [hmap]
    refine List.Nodup.map_on (fun e he e' he' hkey => ?_) ho.nodup
    obtain ⟨r, hr, rfl⟩ := List.mem_map.mp he
    obtain ⟨r', hr', rfl⟩ := List.mem_map.mp he'
    exact ha.inj hn _ (ho.given r.1 r.2 hr).1 _ (ho.given r'.1 r'.2 hr').1 hkey
  · intro s h o now e he hnew
    refine ⟨((closes_maintainPool s o now).new e he).resolve_left hnew, fun evs s' hrun => ?_⟩
    obtain ⟨ho, hmono⟩ := run_owned evs (h.maintainPool o now) hrun
    exact (ho.closed e (hmono e he)).2

end Pool

end BallServer.RoomMgr
