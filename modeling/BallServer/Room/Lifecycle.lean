import BallServer.Coroutine.Load
import BallServer.Room.Footprint

/-!
# The life of a room

A room has one life and one end.  Each of its one-time actions, closing the room,
asking for battle sessions and telling a player the end, is taken by whichever
coroutine comes to it first; the others find {lit}`room_state` changed.  A potential
that counts the action itself, the coroutines on the way to it and the right to
begin it never exceeds one.

Main results:

- Inductive {lit}`RoomState.Edge` and theorem {lit}`step_forward`:
  {lit}`room_state` only moves forward.
- Theorem {lit}`batchAllocs_le_one`: the gateway is asked for sessions once.
- Theorem {lit}`endMails_le_one`: no player is told the end twice.
-/

namespace BallServer.RoomService

open BallServer Coroutine

/-! ## The way of the room's state -/

/-- One step on the way of {lit}`room_state`. -/
inductive RoomState.Edge : RoomState → RoomState → Prop where
  | initialise : Edge .uninit .waitPrepare
  | prepare : Edge .waitPrepare .waitBattlePrepare
  | start : Edge .waitBattlePrepare .running
  | finish : Edge .running .finishing
  | finished : Edge .finishing .finished
  | abortUninit : Edge .uninit .aborting
  | abortWaitPrepare : Edge .waitPrepare .aborting
  | abortWaitBattlePrepare : Edge .waitBattlePrepare .aborting
  | abortRunning : Edge .running .aborting
  | aborted : Edge .aborting .aborted

/-- {lit}`room_state` moves forward, by any number of edges. -/
def RoomState.Forward : RoomState → RoomState → Prop := Relation.ReflTransGen RoomState.Edge

/-- The state in which a room is when it is being closed in the state {lit}`final`. -/
def RoomState.before : RoomState → RoomState
  | .aborted => .aborting
  | .finished => .finishing
  | s => s

/-- A room that has not begun to close may be aborted. -/
theorem edge_aborting {r : Room} (h : r.closing = false) : RoomState.Edge r.roomState .aborting := by
  cases hs : r.roomState with
  | uninit => exact .abortUninit
  | waitPrepare => exact .abortWaitPrepare
  | waitBattlePrepare => exact .abortWaitBattlePrepare
  | running => exact .abortRunning
  | aborting | finishing | aborted | finished => simp [Room.closing, hs] at h

/-! ## What an act leaves to be done -/

attribute [local simp] Sys.broadcastPreparedPlayers Sys.setPrepared Sys.dropSession
  Sys.initialised markCleared runningSet startRunning clearOnePlayerState clearInroomPlayerState

section Load

variable {f : Act → Nat} {g : Req → Nat} {s : Sys} {t : Nat}

@[simp] theorem load_ret (v : Ans) : (ret s v).load f g = 0 := rfl

@[simp] theorem load_raise : (raise s).load f g = 0 := rfl

@[simp] theorem load_goOn (push : List (Code LockName Act)) :
    (goOn s push).load f g = (push.map fun c => f c.toAct).sum := by
  simp [Effect.load]

@[simp] theorem load_call (q : Req) (push : List (Code LockName Act)) :
    (call s q push).load f g = (push.map fun c => f c.toAct).sum + g q := by
  simp [Effect.load]

theorem load_closeRoom (final : RoomState) (hg : g .shutdownScene = 0) :
    (closeRoom t s final).load f g = 0 := by
  rw [closeRoom]
  split <;> simp [hg]

/-- The acts of a one-time action: asking for sessions and closing the room. -/
def Act.oneTime : Act → Bool
  | .allocBattle | .allocPicked | .allocGiven | .allocDone => true
  | .abortPlayers _ | .abortFreed .. | .closeRoom _ | .finishWeighed _ | .settleEach .. => true
  | _ => false

/-- The acts that can begin or continue a one-time action. -/
def Act.continues : Act → Bool
  | .prepareTimeout | .prepare _ | .abortRoomWithoutClearState _ | .allocBattle | .allocPicked
  | .allocDone | .removeKicked _ | .markKicked _ | .gameStarted | .roundOver | .abortPlayers _
  | .abortFreed .. | .finishWeighed _ | .settleEach .. => true
  | _ => false

theorem not_oneTime_of_pushes {a b : Act} (h : Pushes a b) (ha : a.continues = false) :
    b.oneTime = false := by
  cases a with
  | leave | removePreparing =>
      rcases h with rfl | rfl | rfl | rfl | rfl | rfl <;> rfl
  | prepareTimer | battleReady | roundTimer | clearOne =>
      cases h
      rfl
  | allocGiven | allocAdded | allocFree =>
      obtain ⟨l, rfl⟩ := h
      rfl
  | setPlayersRunning | setRunning =>
      obtain ⟨p, ps, rfl⟩ := h
      rfl
  | setLoaded => rcases h with rfl | rfl <;> rfl
  | clearInroom | clearEach => rcases h with rfl | ⟨ps, rfl⟩ <;> rfl
  | _ => first | exact h.elim | cases ha

/-- What an act leaves to be done weighs nothing if nothing it can push does. -/
theorem load_of_pushes {a : Act} (v : Ans) (hf : ∀ b, Pushes a b → f b = 0)
    (hprepare : f .prepareTimer = 0) (hround : f .roundTimer = 0) :
    (exec t a v s).load f (fun _ => 0) = 0 := by
  have hpush : ((exec t a v s).push.map fun c => f c.toAct).sum = 0 := by
    refine List.sum_eq_zero fun n hn => ?_
    obtain ⟨c, hc, rfl⟩ := List.mem_map.mp hn
    exact hf _ (exec_pushes hc)
  have hfork : ((exec t a v s).fork.map f).getD 0 = 0 := by
    cases hfk : (exec t a v s).fork with
    | none => rfl
    | some b =>
        rcases exec_fork t a v s hfk with ⟨-, -, -, rfl, -⟩ | ⟨-, rfl⟩
        · exact hprepare
        · exact hround
  rw [Effect.load, hpush, hfork]
  cases (exec t a v s).outcome <;> rfl

/-- No other act leaves anything of a one-time action to be done. -/
theorem load_eq_zero {a : Act} (v : Ans) (hf : ∀ b : Act, b.oneTime = false → f b = 0)
    (ha : a.continues = false) : (exec t a v s).load f (fun _ => 0) = 0 :=
  load_of_pushes v (fun _ hb => hf _ (not_oneTime_of_pushes hb ha)) (hf _ rfl) (hf _ rfl)

end Load

/-! ## One end -/

/-- Zero while a coroutine is closing the room, one before and after. -/
def RoomState.settled : RoomState → Nat
  | .aborting | .finishing => 0
  | _ => 1

@[simp] theorem settled_aborting : RoomState.settled .aborting = 0 := rfl

@[simp] theorem settled_finishing : RoomState.settled .finishing = 0 := rfl

theorem settled_le_one (st : RoomState) : st.settled ≤ 1 := by
  cases st <;> decide

theorem settled_of_not_closing {r : Room} (h : r.closing = false) : r.roomState.settled = 1 := by
  cases hs : r.roomState <;> simp [Room.closing, hs, RoomState.settled] at h ⊢

/-- The act is on the way to {lit}`close_room`. -/
def Act.closer (a : Act) : Nat := if a.closes.isSome then 1 else 0

attribute [local simp] Act.closer Act.closes

theorem closer_eq_one {b : Act} {final : RoomState} (h : b.closes = some final) :
    b.closer = 1 := by
  rw [Act.closer, h]
  rfl

theorem closer_eq_zero {b : Act} (h : b.oneTime = false) : b.closer = 0 := by
  cases b <;> first | rfl | cases h

/-- Whatever an act does, the room is settled only if it was or if the act closes
it. -/
theorem settled_exec_le (t : Nat) (a : Act) (v : Ans) (s : Sys) :
    (exec t a v s).state.room.roomState.settled ≤ s.room.roomState.settled + a.closer := by
  cases exec_roomMove t a v s with
  | stay _ _ he =>
      rw [he]
      omega
  | initialised list n _ hs he =>
      rw [he, hs]
      exact Nat.le_add_right _ _
  | prepared _ _ hs he =>
      rw [he, hs]
      exact Nat.le_add_right _ _
  | readyStart _ _ _ _ _ hs ha he | removeStart _ _ hs he =>
      rw [he, hs]
      exact Nat.le_add_right _ _
  | aborting _ _ hs he =>
      rw [he]
      exact Nat.zero_le _
  | finishing _ _ hs ha he =>
      rw [he]
      exact Nat.zero_le _
  | abortedAtOnce reason _ hs he =>
      rw [he, settled_of_not_closing hs]
      exact Nat.le_add_right _ _
  | closed _ _ final ha he =>
      have := settled_le_one (exec t a v s).state.room.roomState
      rw [Act.closer, ha, Option.isSome_some, if_pos rfl]
      omega

section Closer

variable (t : Nat) (s : Sys)

theorem closer_abortRoom (reason : String) :
    (abortRoom s reason).state.room.roomState.settled +
      (abortRoom s reason).load Act.closer (fun _ => 0) ≤ s.room.roomState.settled := by
  rcases abortRoom_cases s reason with ⟨-, he⟩ | ⟨hc, he⟩ <;> rw [he]
  · simp
  · simp [settled_of_not_closing hc]

theorem closer_finishRoom :
    (finishRoom t s).state.room.roomState.settled +
      (finishRoom t s).load Act.closer (fun _ => 0) ≤ s.room.roomState.settled := by
  rcases finishRoom_cases t s with ⟨-, he⟩ | ⟨hc, he⟩ <;> rw [he]
  · simp
  · simp [settled_of_not_closing hc]

theorem closer_abortEach (notify : Option String) (ps : List Nat) :
    (abortEach t s notify ps).state.room.roomState.settled +
      (abortEach t s notify ps).load Act.closer (fun _ => 0) ≤ s.room.roomState.settled + 1 := by
  rcases abortEach_cases t s notify ps with ⟨he, -⟩ | ⟨skipped, p, rest, -, he, -⟩ <;> rw [he]
  · rw [closeRoom_room, load_closeRoom _ rfl]
    have := settled_le_one .aborted
    simp only
    omega
  · simp

theorem closer_settleEach (total : Nat) (ps : List Nat) :
    (settleEach s total ps).state.room.roomState.settled +
      (settleEach s total ps).load Act.closer (fun _ => 0) = s.room.roomState.settled + 1 := by
  rcases settleEach_cases s total ps with ⟨he, -⟩ | ⟨skipped, p, rest, -, he, -⟩ <;> rw [he] <;>
    simp

/-- No act makes a second coroutine close the room. -/
theorem exec_closer (a : Act) (v : Ans) :
    (exec t a v s).state.room.roomState.settled + (exec t a v s).load Act.closer (fun _ => 0) ≤
      s.room.roomState.settled + a.closer := by
  have hstate := settled_exec_le t a v s
  cases ha : a.continues with
  | false =>
      rw [load_eq_zero v (fun b => closer_eq_zero) ha]
      exact hstate
  | true =>
      have hb := exec_branch t a v s
      generalize exec t a v s = e at hb hstate ⊢
      cases hb with
      | timedOut => exact (closer_abortRoom s _).trans (Nat.le_add_right _ _)
      | allocAbort err => exact (closer_abortRoom s err).trans (Nat.le_add_right _ _)
      | removeAbort reason =>
          exact (closer_abortRoom s.broadcastPreparedPlayers reason).trans (Nat.le_add_right _ _)
      | startRefused => exact (closer_abortRoom s _).trans (Nat.le_add_right _ _)
      | markFinish | roundOver => exact (closer_finishRoom t s).trans (Nat.le_add_right _ _)
      | abortPlayers notify => exact closer_abortEach t s notify _
      | abortFreed notify p ps =>
          have h := closer_abortEach t (s.dismiss notify p) notify ps
          rwa [dismiss_room] at h
      | abortOutside reason hs =>
          rw [settled_of_not_closing hs]
          exact (closer_abortEach t (s.setState .aborting) none _).trans (Nat.le_add_right _ _)
      | finishWeighed arr stats r hv hr =>
          have hroom := storeWeights_roomState s.room stats
          rw [hr] at hroom
          rw [closer_settleEach]
          simp [assignRanks_roomState, ← hroom]
      | settleEach total ps => exact (closer_settleEach s total ps).le
      | allPrepared | removeAlloc | removeStart | finishUnknown => simpa using hstate
      | declined | prepared | allocCancelled | allocBattle | allocPicked | allocUnpicked
      | allocDone | removeDone | markDone | startFailed | startLate | gameStarted => simp
      | _ => cases ha

end Closer

/-! ## Runs -/

section Runs

variable {ok : Guard Sys LockName Act Req Ans Choice Env} {w : RoomWorld} {s₀ : Sys}

/-- Nothing that arrives is part of a one-time action. -/
theorem not_oneTime_of_arrives {a : Act} (h : a.arrives) : a.oneTime = false := by
  have := h.isHandler
  cases a <;> first | rfl | cases this

/-- At most one coroutine closes the room, and none does before or after. -/
theorem closer_le_one (hinit : Initial s₀) (h : Reach program ok (World.init s₀) w)
    (hok : ∀ w e, ok w e → Arrives w e) :
    w.shared.room.roomState.settled + w.view.load Act.closer (fun _ => 0) ≤ 1 := by
  have hpot := h.potential (fun s => s.room.roomState.settled) Act.closer (fun _ => 0)
    (fun w a ha => closer_eq_zero (not_oneTime_of_arrives (hok w _ ha a rfl)))
    (fun w t a rest _ _ => exec_closer t w.view.shared a (w.view.val t))
    (fun w t q c s r _ _ ha => by rw [serve_room ha]; exact Nat.le_add_right _ _)
    (fun w e s _ he => by rw [(environment_sameTable he).1])
  have hone : s₀.room.roomState.settled = 1 := by
    rw [hinit.roomState]
    rfl
  exact hpot.trans hone.le

/-- A coroutine that closes the room is the only one, and the room is not settled. -/
theorem closes_unique (hinit : Initial s₀) (h : Reach program ok (World.init s₀) w)
    (hok : ∀ w e, ok w e → Arrives w e) {t : Nat} {b : Act} {final : RoomState}
    (hb : b ∈ w.view.pending t) (hf : b.closes = some final) :
    w.shared.room.roomState.settled = 0 ∧
      ∀ u a rest, w.view.pending u = a :: rest → (u ≠ t ∨ b ∈ rest) → a.closes = none := by
  have hload := closer_le_one hinit h hok
  have hv := h.wf.view_blank
  have hone : b.closer = 1 := closer_eq_one hf
  have hpos := View.weight_le_load (f := Act.closer) (g := fun _ => 0) hv hb
  refine ⟨by omega, fun u a rest hp hne => ?_⟩
  by_contra ha
  have hsome : a.closer = 1 := by
    cases hc : a.closes with
    | none => exact (ha hc).elim
    | some final' => exact closer_eq_one hc
  have htwo : 2 ≤ w.view.load Act.closer (fun _ => 0) := by
    by_cases hut : u = t
    · subst hut
      have hrest : b ∈ rest := hne.resolve_left (fun h => h rfl)
      have hle := View.coroutine_le_load (f := Act.closer) (g := fun _ => 0) hv u
      have hmem := View.weight_mem_le (f := Act.closer) (g := fun _ => 0) (w.view.flight u) hrest
      rw [hp, View.weight_cons] at hle
      omega
    · have hle := View.coroutine_add_le_load (f := Act.closer) (g := fun _ => 0) hv hut
      have hmem := View.weight_mem_le (f := Act.closer) (g := fun _ => 0) (w.view.flight t) hb
      rw [hp, View.weight_cons] at hle
      omega
  omega

/-- While the room is being closed, only the act that closes it moves its state. -/
theorem roomState_of_closing {t : Nat} {a : Act} {v : Ans} {s : Sys}
    (hs : s.room.closing = true) (ha : a.closes = none) :
    (exec t a v s).state.room.roomState = s.room.roomState := by
  cases exec_roomMove t a v s with
  | stay _ _ he => exact he
  | initialised _ _ _ hs' | prepared _ _ hs' | readyStart _ _ _ _ _ hs' | removeStart _ _ hs' =>
      simp [Room.closing, hs'] at hs
  | aborting _ _ hs' | abortedAtOnce _ _ hs' | finishing _ _ hs' =>
      rw [hs] at hs'
      cases hs'
  | closed _ _ _ ha' =>
      rw [ha] at ha'
      cases ha'

/-- What an act leaves on the way to {lit}`close_room` fits the room's state. -/
theorem closes_of_push {t : Nat} {a : Act} {v : Ans} {s : Sys} {c : Code LockName Act}
    {final : RoomState} (hc : c ∈ (exec t a v s).push) (hf : c.toAct.closes = some final) :
    (exec t a v s).state.room.roomState = final.before ∨
      a.closes = some final ∧ (exec t a v s).state.room.roomState = s.room.roomState := by
  have habort : ∀ (s : Sys) (reason : String), c ∈ (abortRoom s reason).push →
      (abortRoom s reason).state.room.roomState = final.before := by
    intro s reason hc
    rcases abortRoom_cases s reason with ⟨-, he⟩ | ⟨-, he⟩ <;> rw [he] at hc ⊢
    · cases hc
    · have hfinal : final = .aborted := by
        have hpush := pushes_abortRoom (he ▸ hc : c ∈ (abortRoom s reason).push)
        rcases hpush with h | ⟨r, h⟩ <;> rw [h] at hf <;> cases hf
        rfl
      rw [hfinal]
      rfl
  have hfinish : c ∈ (finishRoom t s).push →
      (finishRoom t s).state.room.roomState = final.before := by
    intro hc
    rcases finishRoom_cases t s with ⟨-, he⟩ | ⟨-, he⟩ <;> rw [he] at hc ⊢
    · cases hc
    · rw [List.mem_singleton.mp hc] at hf
      cases hf
      rfl
  have heach : ∀ (s : Sys) (notify : Option String) (ps : List Nat),
      c ∈ (abortEach t s notify ps).push → final = .aborted ∧
        (abortEach t s notify ps).state.room.roomState = s.room.roomState := by
    intro s notify ps hc
    rcases abortEach_cases t s notify ps with ⟨he, -⟩ | ⟨skipped, p, rest, -, he, -⟩ <;>
      rw [he] at hc ⊢
    · rw [closeRoom_push] at hc
      cases hc
    · rw [List.mem_singleton.mp hc] at hf
      cases hf
      exact ⟨rfl, rfl⟩
  have hsettle : ∀ (s : Sys) (total : Nat) (ps : List Nat),
      c ∈ (settleEach s total ps).push → final = .finished := by
    intro s total ps hc
    rcases pushes_settleEach hc with ⟨n, l, h⟩ | h | h <;> rw [h] at hf <;> cases hf <;> rfl
  cases ha : a.continues with
  | false =>
      have hzero := closer_eq_zero (not_oneTime_of_pushes (exec_pushes hc) ha)
      rw [closer_eq_one hf] at hzero
      cases hzero
  | true =>
      have hb := exec_branch t a v s
      generalize exec t a v s = e at hb hc ⊢
      cases hb with
      | timedOut => exact .inl (habort s _ hc)
      | allocAbort err => exact .inl (habort s err hc)
      | removeAbort reason => exact .inl (habort _ reason hc)
      | startRefused => exact .inl (habort s _ hc)
      | markFinish | roundOver => exact .inl (hfinish hc)
      | abortOutside reason =>
          obtain ⟨rfl, he⟩ := heach _ _ _ hc
          exact .inl he
      | abortPlayers notify =>
          obtain ⟨rfl, he⟩ := heach _ _ _ hc
          exact .inr ⟨rfl, he⟩
      | abortFreed notify p ps =>
          obtain ⟨rfl, he⟩ := heach _ _ _ hc
          rw [dismiss_room] at he
          exact .inr ⟨rfl, he⟩
      | finishWeighed arr stats r hv hr =>
          have hroom := storeWeights_roomState s.room stats
          rw [hr] at hroom
          rw [hsettle _ _ _ hc, settleEach_roomState]
          exact .inr ⟨rfl, (assignRanks_roomState r 1 _).trans hroom⟩
      | settleEach total ps =>
          rw [hsettle _ _ _ hc]
          exact .inr ⟨rfl, settleEach_roomState s total ps⟩
      | declined | prepared | allocCancelled | allocUnpicked | allocDone | removeDone | markDone
      | startFailed | startLate | finishUnknown => cases hc
      | allPrepared | removeAlloc | gameStarted =>
          simp only [goOn_push, List.mem_cons, List.not_mem_nil, or_false] at hc
          rcases hc with rfl | rfl <;> cases hf
      | allocBattle | allocPicked | removeStart =>
          rw [List.mem_singleton.mp hc] at hf
          cases hf
      | _ => cases ha

/-- A room that is being closed is in the state before the final one. -/
theorem before_of_closes (hinit : Initial s₀) (h : Reach program ok (World.init s₀) w)
    (hok : ∀ w e, ok w e → Arrives w e) {t : Nat} {b : Act} {final : RoomState}
    (hb : b ∈ w.view.pending t) (hf : b.closes = some final) :
    w.shared.room.roomState = final.before := by
  refine h.view_invariant (fun v => ∀ t b final, b ∈ v.pending t → b.closes = some final →
    v.shared.room.roomState = final.before) ?_ ?_ t b final hb hf
  · intro t b final hb
    cases hb
  · intro w e v hw hinv he hstep u b final hb hf
    have hv := hw.wf.view_blank
    cases hstep with
    | same => exact hinv u b final hb hf
    | spawn a =>
        rcases (View.mem_pending_create hv).mp hb with hb | ⟨-, rfl⟩
        · exact hinv u b final hb hf
        · have hone := not_oneTime_of_arrives (hok w _ he b rfl)
          have hzero := closer_eq_zero hone
          rw [closer_eq_one hf] at hzero
          cases hzero
    | serve t c q s r hq ha =>
        rw [View.shared_answer, serve_room ha]
        exact hinv u b final hb hf
    | env e s henv =>
        change s.room.roomState = _
        rw [(environment_sameTable henv).1]
        exact hinv u b final hb hf
    | perform t a rest stack ht hr hk hp hf' =>
        rw [View.shared_perform]
        -- an act of another coroutine, or one that was waiting below this one
        have hother : b ∈ w.view.pending u → (t ≠ u ∨ b ∈ rest) →
            (exec t a (w.view.val t) w.view.shared).state.room.roomState = final.before := by
          intro hold hne
          obtain ⟨hsettled, hunique⟩ := closes_unique hinit hw hok hold hf
          have hclosing : w.view.shared.room.closing = true := by
            have : w.view.shared.room.roomState.settled = 0 := hsettled
            by_contra hc
            rw [settled_of_not_closing (by simpa using hc)] at this
            cases this
          rw [roomState_of_closing hclosing (hunique t a rest hp hne)]
          exact hinv u b final hold hf
        rcases (View.mem_pending_perform hv ht).mp hb with ⟨rfl, hmem⟩ | ⟨hne, hold⟩ | ⟨-, hfork⟩
        · change b ∈ View.pendingAfter rest (exec u a (w.view.val u) w.view.shared) at hmem
          cases View.mem_pendingAfter hmem with
          | inl hpush =>
              obtain ⟨c, hc, rfl⟩ := hpush
              rcases closes_of_push hc hf with he | ⟨ha, he⟩
              · exact he
              · refine he.trans (hinv u a final ?_ ha)
                rw [hp]
                exact List.mem_cons_self
          | inr hrest =>
              refine hother ?_ (.inr hrest)
              rw [hp]
              exact List.mem_cons_of_mem _ hrest
        · exact hother hold (.inl fun h => hne h.symm)
        · rcases exec_fork t a _ _ hfork with ⟨-, -, -, rfl, -⟩ | ⟨-, rfl⟩ <;> cases hf

/-- The game has started. -/
def Room.started (r : Room) : Prop :=
  r.roomState ≠ .uninit ∧ r.roomState ≠ .waitPrepare ∧ r.roomState ≠ .waitBattlePrepare

theorem running_of_started {r : Room} (hs : r.started) (hc : r.closing = false) :
    r.roomState = .running := by
  cases hr : r.roomState with
  | running => rfl
  | uninit => exact (hs.1 hr).elim
  | waitPrepare => exact (hs.2.1 hr).elim
  | waitBattlePrepare => exact (hs.2.2 hr).elim
  | aborting | finishing | aborted | finished => simp [Room.closing, hr] at hc

/-- Only a player that leaves a running game is marked. -/
theorem markKicked_of_push {t : Nat} {a : Act} {v : Ans} {s : Sys} {c : Code LockName Act}
    {reason : String} (hc : c ∈ (exec t a v s).push) (hact : c.toAct = .markKicked reason) :
    ∃ p, a = .leave p reason ∧ s.room.roomState = .running := by
  have hpush := exec_pushes hc
  rw [hact] at hpush
  cases a with
  | leave p r =>
      have hb := exec_branch t (.leave p r) v s
      generalize exec t (.leave p r) v s = e at hb hc
      cases hb with
      | leaveRunning _ _ hp hs =>
          rcases hpush with h | h | h | h | h | h <;> cases h
          exact ⟨p, rfl, hs⟩
      | leavePreparing =>
          rw [List.mem_singleton.mp hc] at hact
          cases hact
      | declined => cases hc
  | _ => simp [Pushes, AbortPushes] at hpush

/-- A started game stays started. -/
theorem started_exec {t : Nat} {a : Act} {v : Ans} {s : Sys} {rest : List Act}
    (ha : Follows a rest) (hs : s.room.started) : (exec t a v s).state.room.started := by
  cases exec_roomMove t a v s with
  | stay _ _ he =>
      rw [Room.started, he]
      exact hs
  | initialised _ _ _ hs' => exact (hs.1 hs').elim
  | prepared _ _ hs' => exact (hs.2.1 hs').elim
  | readyStart _ _ _ _ _ hs' | removeStart _ _ hs' => exact (hs.2.2 hs').elim
  | aborting _ _ _ he | abortedAtOnce _ _ _ he | finishing _ _ _ _ he =>
      rw [Room.started, he]
      simp
  | closed _ _ final hc he =>
      rw [Room.started, he]
      rcases closes_final ha hc with rfl | rfl <;> simp

/-- Players leave a running game only after it has started. -/
theorem started_of_markKicked (h : Reach program ok (World.init s₀) w)
    (hok : ∀ w e, ok w e → Arrives w e) {t : Nat} {reason : String}
    (hb : .markKicked reason ∈ w.view.pending t) : w.shared.room.started := by
  refine h.view_invariant (fun v => ∀ t reason, .markKicked reason ∈ v.pending t →
    v.shared.room.started) ?_ ?_ t reason hb
  · intro t reason hb
    cases hb
  · intro w e v hw hinv he hstep u reason hb
    have hv := hw.wf.view_blank
    cases hstep with
    | same => exact hinv u reason hb
    | spawn a =>
        rcases (View.mem_pending_create hv).mp hb with hb | ⟨-, rfl⟩
        · exact hinv u reason hb
        · cases (hok w _ he _ rfl).isHandler
    | serve t c q s r hq ha =>
        rw [View.shared_answer, serve_room ha]
        exact hinv u reason hb
    | env e s henv =>
        change s.room.started
        rw [Room.started, (environment_sameTable henv).1]
        exact hinv u reason hb
    | perform t a rest stack ht hr hk hp hf =>
        rw [View.shared_perform]
        have ha : Follows a rest := by
          have := (reach_shape hw hok t).1
          rwa [hp] at this
        rcases (View.mem_pending_perform hv ht).mp hb with ⟨rfl, hmem⟩ | ⟨hne, hold⟩ | ⟨-, hfork⟩
        · change _ ∈ View.pendingAfter rest (exec u a (w.view.val u) w.view.shared) at hmem
          rcases View.mem_pendingAfter hmem with ⟨c, hc, hact⟩ | hrest
          · obtain ⟨p, rfl, hrun⟩ := markKicked_of_push hc hact
            refine started_exec ha ?_
            rw [Room.started, hrun]
            simp
          · refine started_exec ha (hinv u reason ?_)
            rw [hp]
            exact List.mem_cons_of_mem _ hrest
        · exact started_exec ha (hinv u reason hold)
        · rcases exec_fork t a _ _ hfork with ⟨-, -, -, h, -⟩ | ⟨-, h⟩ <;> cases h

/-- {lit}`room_state` only moves forward. -/
theorem step_forward (hinit : Initial s₀) (h : Reach program ok (World.init s₀) w)
    (hok : ∀ w e, ok w e → Arrives w e) {e : RoomEvent} {w' : RoomWorld}
    (hstep : Step program w e w') :
    RoomState.Forward w.shared.room.roomState w'.shared.room.roomState := by
  have hview := hstep.view_cases h.wf
  have hshared : w'.shared = w'.view.shared := rfl
  rw [hshared]
  generalize w'.view = v at hview ⊢
  cases hview with
  | same => exact .refl
  | spawn a => exact .refl
  | serve t c q s r hq ha =>
      rw [View.shared_answer, serve_room ha]
      exact .refl
  | env e s henv =>
      change RoomState.Forward _ s.room.roomState
      rw [(environment_sameTable henv).1]
      exact .refl
  | perform t a rest stack ht hr hk hp hf =>
      rw [View.shared_perform]
      have hmem : a ∈ w.view.pending t := by
        rw [hp]
        exact List.mem_cons_self
      have ha : Follows a rest := by
        have := (reach_shape h hok t).1
        rwa [hp] at this
      change RoomState.Forward w.view.shared.room.roomState
        (exec t a (w.view.val t) w.view.shared).state.room.roomState
      cases exec_roomMove t a (w.view.val t) w.view.shared with
      | stay _ _ he =>
          rw [he]
          exact .refl
      | initialised list n _ hs he =>
          rw [hs, he]
          exact .single .initialise
      | prepared _ _ hs he =>
          rw [hs, he]
          exact .single .prepare
      | readyStart _ _ _ _ _ hs _ he | removeStart _ _ hs he =>
          rw [hs, he]
          exact .single .start
      | aborting _ _ hs he =>
          rw [he]
          exact .single (edge_aborting hs)
      | abortedAtOnce _ _ hs he =>
          rw [he]
          exact .tail (.single (edge_aborting hs)) .aborted
      | finishing _ _ hs hfin he =>
          have hrun : w.view.shared.room.roomState = .running := by
            rcases hfin with ⟨reason, rfl⟩ | ⟨-, hrun⟩
            · have hstarted := started_of_markKicked h hok hmem
              exact running_of_started hstarted hs
            · exact hrun
          rw [hrun, he]
          exact .single .finish
      | closed _ _ final hc he =>
          have hbefore := before_of_closes hinit h hok hmem hc
          change w.view.shared.room.roomState = _ at hbefore
          rw [hbefore, he]
          rcases closes_final ha hc with rfl | rfl
          · exact .single .aborted
          · exact .single .finished

end Runs

/-! ## One request for sessions -/

/-- One while the room may still come to ask for sessions. -/
def RoomState.early : RoomState → Nat
  | .uninit | .waitPrepare => 1
  | _ => 0

@[simp] theorem early_uninit : RoomState.early .uninit = 1 := rfl

@[simp] theorem early_waitPrepare : RoomState.early .waitPrepare = 1 := rfl

@[simp] theorem early_waitBattlePrepare : RoomState.early .waitBattlePrepare = 0 := rfl

@[simp] theorem early_running : RoomState.early .running = 0 := rfl

@[simp] theorem early_aborting : RoomState.early .aborting = 0 := rfl

@[simp] theorem early_finishing : RoomState.early .finishing = 0 := rfl

@[simp] theorem early_aborted : RoomState.early .aborted = 0 := rfl

@[simp] theorem early_finished : RoomState.early .finished = 0 := rfl

/-- The acts on the way to battle sessions. -/
def Act.allocates : Act → Bool
  | .allocBattle | .allocPicked | .allocGiven | .allocDone => true
  | _ => false

/-- What is left of a weight after an act on the way to the sessions. -/
def handsOn (f : Act → Nat) : Act → Nat
  | .allocPicked => f .allocGiven
  | .allocGiven => 0
  | a => f a

/-- No act makes the room early again. -/
theorem early_exec_le {t : Nat} {a : Act} {v : Ans} {s : Sys} {rest : List Act}
    (ha : Follows a rest) :
    (exec t a v s).state.room.roomState.early ≤ s.room.roomState.early := by
  cases exec_roomMove t a v s with
  | stay _ _ he => rw [he]
  | initialised list n _ hs he => rw [he, hs]; exact le_rfl
  | prepared _ _ _ he | readyStart _ _ _ _ _ _ _ he | removeStart _ _ _ he | aborting _ _ _ he
  | abortedAtOnce _ _ _ he | finishing _ _ _ _ he =>
      rw [he]
      exact Nat.zero_le _
  | closed _ _ final hc he =>
      rw [he]
      rcases closes_final ha hc with rfl | rfl <;> exact Nat.zero_le _

/-- Only {lit}`prepare` and {lit}`remove_preparing_player` begin to ask for sessions, and
only what they begin goes on. -/
theorem not_allocates_of_pushes {a b : Act} (h : Pushes a b)
    (ha : (∀ p, a ≠ .prepare p) ∧ (∀ r, a ≠ .removeKicked r) ∧ a ≠ .allocBattle ∧
      a ≠ .allocPicked) : b.allocates = false := by
  cases a with
  | prepare p => exact (ha.1 p rfl).elim
  | removeKicked r => exact (ha.2.1 r rfl).elim
  | allocBattle => exact (ha.2.2.1 rfl).elim
  | allocPicked => exact (ha.2.2.2 rfl).elim
  | leave | removePreparing =>
      rcases h with rfl | rfl | rfl | rfl | rfl | rfl <;> rfl
  | prepareTimeout | allocDone => rcases h with rfl | ⟨r, rfl⟩ <;> rfl
  | gameStarted => rcases h with (rfl | ⟨r, rfl⟩) | rfl | rfl <;> rfl
  | finishWeighed | settleEach => rcases h with ⟨n, ps, rfl⟩ | rfl | rfl <;> rfl
  | allocGiven | allocAdded | allocFree | markKicked | roundOver =>
      obtain ⟨l, rfl⟩ := h
      rfl
  | setPlayersRunning | setRunning | abortRoomWithoutClearState | abortPlayers | abortFreed =>
      obtain ⟨p, ps, rfl⟩ := h
      rfl
  | clearInroom | clearEach => rcases h with rfl | ⟨ps, rfl⟩ <;> rfl
  | setLoaded => rcases h with rfl | rfl <;> rfl
  | prepareTimer | battleReady | roundTimer | clearOne =>
      cases h
      rfl
  | _ => exact h.elim

/-- Sessions are asked for once: a weight on the way to them is used up by leaving
the states in which the room may begin to ask. -/
theorem exec_alloc (t : Nat) {a : Act} (v : Ans) (s : Sys) {rest : List Act}
    (ha : Follows a rest) (f : Act → Nat) (hf : ∀ b, b.allocates = false → f b = 0)
    (hbegin : f .allocBattle + f .allocDone ≤ 1) (hpick : f .allocPicked ≤ f .allocBattle) :
    (exec t a v s).state.room.roomState.early + (exec t a v s).load f (fun _ => 0) ≤
      s.room.roomState.early + handsOn f a := by
  have hearly := early_exec_le (t := t) (v := v) (s := s) ha
  by_cases hother : (∀ p, a ≠ .prepare p) ∧ (∀ r, a ≠ .removeKicked r) ∧ a ≠ .allocBattle ∧
      a ≠ .allocPicked
  · rw [load_of_pushes v (fun b hb => hf b (not_allocates_of_pushes hb hother)) (hf _ rfl)
      (hf _ rfl)]
    omega
  · have hb := exec_branch t a v s
    generalize exec t a v s = e at hb hearly ⊢
    cases hb with
    | declined | prepared | allocCancelled | allocUnpicked | removeDone =>
        exact Nat.add_le_add hearly (Nat.zero_le _)
    | allPrepared p hs =>
        rw [hs]
        simpa [handsOn, hf (.prepare p) rfl] using hbegin
    | removeAlloc reason hcount hs =>
        rw [hs]
        simpa [handsOn, hf (.removeKicked reason) rfl] using hbegin
    | allocBattle => simpa [handsOn] using hpick
    | allocPicked => simp [handsOn]
    | removeAbort reason =>
        have hload : (abortRoom s.broadcastPreparedPlayers reason).load f (fun _ => 0) = 0 := by
          rcases abortRoom_cases s.broadcastPreparedPlayers reason with ⟨-, he⟩ | ⟨-, he⟩ <;>
            rw [he]
          · rfl
          · simp [hf .clearInroom rfl, hf (.abortPlayers (some reason)) rfl]
        omega
    | removeStart reason =>
        have hload : (startRunning t s.broadcastPreparedPlayers).load f (fun _ => 0) = 0 := by
          simp [hf .gameStarted rfl]
        omega
    | _ => simp at hother

section Runs

variable {ok : Guard Sys LockName Act Req Ans Choice Env} {w : RoomWorld} {s₀ : Sys}

/-- Whatever a run adds to {lit}`n`, it adds by using up a weight on the way to the
sessions, and so does it once. -/
theorem alloc_le_one (n : Sys → Nat) (f : Act → Nat) (hinit : Initial s₀)
    (h : Reach program ok (World.init s₀) w) (hok : ∀ w e, ok w e → Arrives w e)
    (hzero : n s₀ = 0) (hf : ∀ b, b.allocates = false → f b = 0)
    (hbegin : f .allocBattle + f .allocDone ≤ 1) (hpick : f .allocPicked ≤ f .allocBattle)
    (hexec : ∀ t a v s, n (exec t a v s).state + handsOn f a ≤ n s + f a)
    (hledger : ∀ s s', s.SameLedger s' → n s' = n s) :
    (n w.shared + w.shared.room.roomState.early) + w.view.load f (fun _ => 0) ≤ 1 := by
  have hpot := h.potential (fun s => n s + s.room.roomState.early) f
    (fun _ => 0) (fun w a ha => ?spawn) ?exec ?serve ?env
  case spawn =>
    have := (hok w _ ha a rfl).isHandler
    cases a <;> first | exact hf _ rfl | cases this
  case exec =>
    intro w t a rest hw hp
    have hshape := (reach_shape hw hok t).1
    rw [hp] at hshape
    have halloc := exec_alloc t (w.view.val t) w.view.shared hshape f hf hbegin hpick
    have hn := hexec t a (w.view.val t) w.view.shared
    change (n (exec t a (w.view.val t) w.view.shared).state +
      (exec t a (w.view.val t) w.view.shared).state.room.roomState.early) +
        (exec t a (w.view.val t) w.view.shared).load f (fun _ => 0) ≤ _
    omega
  case serve =>
    intro w t q c s r _ _ ha
    rw [serve_room ha, hledger _ _ (serve_sameLedger ha)]
    exact Nat.le_add_right _ _
  case env =>
    intro w e s _ he
    rw [(environment_sameTable he).1, hledger _ _ (environment_sameLedger he)]
  rw [hinit.roomState, hzero] at hpot
  exact hpot

/-- The act is on the way to {lit}`batch_alloc`. -/
def Act.asks : Act → Nat
  | .allocBattle | .allocPicked => 1
  | _ => 0

/-- The gateway is asked for sessions at most once. -/
theorem batchAllocs_le_one (hinit : Initial s₀) (h : Reach program ok (World.init s₀) w)
    (hok : ∀ w e, ok w e → Arrives w e) : w.shared.batchAllocs ≤ 1 := by
  have hpot := alloc_le_one Sys.batchAllocs Act.asks hinit h hok hinit.batchAllocs
    (fun b hb => by cases b <;> first | rfl | cases hb) le_rfl le_rfl ?_
    fun s s' hs => hs.batchAllocs
  · omega
  · intro t a v s
    rw [(exec_kept t a v s).batchAllocs]
    cases a with
    | allocPicked | allocGiven => cases v <;> simp [Sys.noted, handsOn, Act.asks]
    | _ => simp [Sys.noted, handsOn, Act.asks]

/-- The act is on the way to the answer of {lit}`batch_alloc`. -/
def Act.awaits : Act → Nat
  | .allocBattle | .allocPicked | .allocGiven => 1
  | _ => 0

/-- Until the answer of {lit}`batch_alloc` has come the room has been given nothing,
and only one coroutine waits for it. -/
theorem given_awaits_le_one (hinit : Initial s₀) (h : Reach program ok (World.init s₀) w)
    (hok : ∀ w e, ok w e → Arrives w e) :
    ((if w.shared.given = [] then 0 else 1) + w.shared.room.roomState.early) +
      w.view.load Act.awaits (fun _ => 0) ≤ 1 := by
  refine alloc_le_one (fun s => if s.given = [] then 0 else 1) Act.awaits hinit h hok
    (if_pos hinit.given) (fun b hb => by cases b <;> first | rfl | cases hb) le_rfl le_rfl ?_
    fun s s' hs => by rw [hs.given]
  intro t a v s
  have hle : (if (exec t a v s).state.given = [] then 0 else 1) ≤ 1 := by
    split_ifs <;> omega
  cases a with
  | allocGiven =>
      simp only [handsOn, Act.awaits]
      omega
  | allocPicked =>
      rw [(exec_kept t .allocPicked v s).given]
      cases v <;> exact Nat.le_refl _
  | _ =>
      rw [(exec_kept t _ v s).given]
      exact Nat.le_refl _

/-- One for the end of the allocation. -/
def Act.completes : Act → Nat
  | .allocDone => 1
  | _ => 0

/-- Only one coroutine ever asks for sessions. -/
theorem completes_le_one (hinit : Initial s₀) (h : Reach program ok (World.init s₀) w)
    (hok : ∀ w e, ok w e → Arrives w e) :
    w.shared.room.roomState.early + w.view.load Act.completes (fun _ => 0) ≤ 1 := by
  have hpot := alloc_le_one (fun _ => 0) Act.completes hinit h hok rfl
    (fun b hb => by cases b <;> first | rfl | cases hb) le_rfl le_rfl
    (fun t a v s => by cases a <;> simp [handsOn, Act.completes]) fun _ _ _ => rfl
  simpa using hpot

end Runs

/-! ## One message about the end -/

/-- The message tells its player that the room has ended. -/
def AgentMsg.isEnd : AgentMsg → Bool
  | .roomDismiss _ | .battleResult .. => true
  | _ => false

/-- How many messages about the end a player has been sent. -/
def endMails (p : Nat) (mail : List (Nat × AgentMsg)) : Nat :=
  mail.countP fun m => decide (m.1 = p) && m.2.isEnd

@[simp] theorem endMails_nil (p : Nat) : endMails p [] = 0 := rfl

@[simp] theorem endMails_append (p : Nat) (m n : List (Nat × AgentMsg)) :
    endMails p (m ++ n) = endMails p m + endMails p n :=
  List.countP_append

@[simp] theorem endMails_cons (p q : Nat) (msg : AgentMsg) (mail : List (Nat × AgentMsg)) :
    endMails p ((q, msg) :: mail) =
      endMails p mail + if q = p ∧ msg.isEnd = true then 1 else 0 := by
  simp [endMails, List.countP_cons]

/-- Messages of another kind do not count. -/
theorem endMails_eq_zero {p : Nat} {mail : List (Nat × AgentMsg)}
    (h : ∀ m ∈ mail, m.2.isEnd = false) : endMails p mail = 0 := by
  rw [endMails, List.countP_eq_zero]
  intro m hm
  simp [h m hm]

theorem endMails_dismissals_none (r : Room) (p : Nat) (ps : List Nat) :
    endMails p (dismissals r none ps) = 0 := by
  apply endMails_eq_zero
  simp [dismissals, dismissal]

theorem endMails_dismissals (r : Room) (p : Nat) (reason : String) (ps : List Nat) :
    endMails p (dismissals r (some reason) ps) ≤ ps.count p := by
  induction ps with
  | nil => simp [dismissals]
  | cons q ps ih =>
      rw [dismissals_cons, endMails_append, List.count_cons]
      have hhead : endMails p (if q ∈ r.players then dismissal (some reason) q else []) ≤
          if q == p then 1 else 0 := by
        split_ifs with hq hp hp <;> simp_all [dismissal, AgentMsg.isEnd]
      omega

theorem endMails_resultMails (s : Sys) (total p : Nat) (ps : List Nat) :
    endMails p (resultMails s total ps) = ps.count p := by
  induction ps with
  | nil => rfl
  | cons q ps ih =>
      have hcons : resultMails s total (q :: ps) =
          resultMails s total ps ++ [resultMail s total q] := by
        simp [resultMails]
      rw [hcons, endMails_append, ih, List.count_cons]
      by_cases hp : q = p <;> simp [hp, resultMail, AgentMsg.isEnd]

/-- The act is on the way to telling the player {lit}`p` that the room has ended. -/
def Act.teller (p : Nat) : Act → Nat
  | .abortPlayers (some _) => 1
  | .abortFreed (some _) q ps => (q :: ps).count p
  | .finishWeighed arr => arr.count p
  | .settleEach _ ps => ps.count p
  | _ => 0

/-- One until the room begins to close. -/
def Room.open (r : Room) : Nat := if r.closing then 0 else 1

@[simp] theorem open_aborting {r : Room} (h : r.roomState = .aborting) : r.open = 0 := by
  simp [Room.open, Room.closing, h]

@[simp] theorem open_finishing {r : Room} (h : r.roomState = .finishing) : r.open = 0 := by
  simp [Room.open, Room.closing, h]

theorem open_le_one (r : Room) : r.open ≤ 1 := by
  unfold Room.open
  split_ifs <;> omega

theorem open_of_not_closing {r : Room} (h : r.closing = false) : r.open = 1 := by
  simp [Room.open, h]

theorem closing_congr {r r' : Room} (h : r'.roomState = r.roomState) :
    r'.closing = r.closing := by
  unfold Room.closing
  rw [h]

theorem open_congr {r r' : Room} (h : r'.roomState = r.roomState) : r'.open = r.open := by
  rw [Room.open, Room.open, closing_congr h]

/-- No act opens the room again. -/
theorem open_exec_le {t : Nat} {a : Act} {v : Ans} {s : Sys} {rest : List Act}
    (ha : Follows a rest) : (exec t a v s).state.room.open ≤ s.room.open := by
  cases exec_roomMove t a v s with
  | stay _ _ he => rw [open_congr he]
  | initialised _ _ _ hs | prepared _ _ hs | readyStart _ _ _ _ _ hs | removeStart _ _ hs =>
      have hopen : s.room.closing = false := by simp [Room.closing, hs]
      rw [open_of_not_closing hopen]
      exact open_le_one _
  | aborting _ _ hs | abortedAtOnce _ _ hs | finishing _ _ hs =>
      rw [open_of_not_closing hs]
      exact open_le_one _
  | closed _ _ final hc he =>
      have hclosing : (exec t a v s).state.room.closing = true := by
        rw [Room.closing, he]
        rcases closes_final ha hc with rfl | rfl <;> rfl
      simp [Room.open, hclosing]

/-- The acts that tell players the end. -/
def Act.tellsEnd : Act → Bool
  | .abortPlayers _ | .abortFreed .. | .finishWeighed _ | .settleEach ..
  | .abortRoomWithoutClearState _ => true
  | _ => false

theorem endMails_broadcast (s : Sys) (p : Nat) :
    endMails p s.broadcastPreparedPlayers.mail = endMails p s.mail := by
  have hnone : endMails p (s.room.players.map fun q =>
      (q, AgentMsg.roomPrepare s.room.buildPreparePlayers)) = 0 := by
    apply endMails_eq_zero
    simp [AgentMsg.isEnd]
  rw [Sys.broadcastPreparedPlayers, endMails_append, hnone, Nat.zero_add]

theorem endMails_connectAll (s : Sys) (p : Nat) (l : List BattleInfo) :
    endMails p (s.connectAll l).mail = endMails p s.mail := by
  induction l generalizing s with
  | nil => rfl
  | cons info l ih =>
      rw [Sys.connectAll]
      split_ifs
      · rw [ih]
        simp [AgentMsg.isEnd]
      · exact ih s

theorem closeRoom_mail (t : Nat) (s : Sys) (final : RoomState) :
    (closeRoom t s final).state.mail = s.mail := by
  rw [closeRoom]
  split <;> rfl

theorem abortRoom_mail (s : Sys) (reason : String) :
    (abortRoom s reason).state.mail = s.mail := by
  rcases abortRoom_cases s reason with ⟨-, he⟩ | ⟨-, he⟩ <;> rw [he] <;> rfl

theorem finishRoom_mail (t : Nat) (s : Sys) : (finishRoom t s).state.mail = s.mail := by
  rcases finishRoom_cases t s with ⟨-, he⟩ | ⟨-, he⟩ <;> rw [he] <;> rfl

theorem allocFree_mail (s : Sys) (ps : List Nat) : (allocFree s ps).state.mail = s.mail := by
  rcases allocFree_cases s ps with ⟨he, -⟩ | ⟨skipped, p, rest, -, he, -⟩ <;> rw [he] <;> rfl

theorem freeSession_mail (s : Sys) (p : Nat) (v : Ans) :
    (freePlayerBattleSession s p [] (ret s v)).state.mail = s.mail := by
  rcases freePlayerBattleSession_cases s p [] (ret s v) with ⟨-, he⟩ | ⟨-, he⟩ <;> rw [he] <;> rfl

/-- No other act tells a player the end. -/
theorem exec_endMails (t p : Nat) {a : Act} (v : Ans) (s : Sys) (ha : a.tellsEnd = false) :
    endMails p (exec t a v s).state.mail = endMails p s.mail := by
  have hb := exec_branch t a v s
  generalize exec t a v s = e at hb ⊢
  cases hb with
  | prepared | allPrepared => exact endMails_broadcast _ p
  | removeStart | removeAlloc | removeDone => exact endMails_broadcast s p
  | removeAbort reason =>
      rw [abortRoom_mail]
      exact endMails_broadcast s p
  | timedOut | allocAbort | startRefused => rw [abortRoom_mail]
  | markFinish | roundOver => rw [finishRoom_mail]
  | allocAdded infos => exact endMails_connectAll s p infos
  | allocNotAdded | allocFree => rw [allocFree_mail]
  | setPlayersRunning | setRunning => rw [setRunning_state]
  | clearInroom | clearEach => rw [clearEach_state]
  | freeSession q => rw [freeSession_mail]
  | closeRoom final => rw [closeRoom_mail]
  | abortOutside | abortPlayers | abortFreed | finishWeighed | finishUnknown | settleEach => cases ha
  | _ => rfl

section Teller

variable (t p : Nat) (s : Sys)

theorem teller_abortRoom (reason : String) :
    (endMails p (abortRoom s reason).state.mail + (abortRoom s reason).state.room.open) +
      (abortRoom s reason).load (Act.teller p) (fun _ => 0) ≤
        endMails p s.mail + s.room.open := by
  rcases abortRoom_cases s reason with ⟨-, he⟩ | ⟨hc, he⟩ <;> rw [he]
  · simp
  · simp [open_of_not_closing hc, Act.teller]

theorem teller_finishRoom (hnd : s.room.players.Nodup) :
    (endMails p (finishRoom t s).state.mail + (finishRoom t s).state.room.open) +
      (finishRoom t s).load (Act.teller p) (fun _ => 0) ≤ endMails p s.mail + s.room.open := by
  rcases finishRoom_cases t s with ⟨-, he⟩ | ⟨hc, he⟩ <;> rw [he]
  · simp
  · have hone := List.nodup_iff_count_le_one.mp hnd p
    simpa [open_of_not_closing hc, Act.teller] using hone

/-- The loop of {lit}`abort_room` tells every player at most as often as it still
visits that player. -/
theorem teller_abortEach (reason : String) (ps : List Nat) :
    endMails p (abortEach t s (some reason) ps).state.mail +
      (abortEach t s (some reason) ps).load (Act.teller p) (fun _ => 0) ≤
        endMails p s.mail + ps.count p := by
  rcases abortEach_cases t s (some reason) ps with ⟨he, -⟩ | ⟨skipped, q, rest, hps, he, -⟩ <;>
    rw [he]
  · have hm := endMails_dismissals s.room p reason ps
    rw [closeRoom_mail, load_closeRoom _ rfl, Sys.post, endMails_append]
    omega
  · have hm := endMails_dismissals s.room p reason skipped
    rw [hps, List.count_append]
    simp only [call_state, load_call, Sys.dropSession, Sys.modify, Sys.withRoom, Sys.post,
      endMails_append, List.map_cons, List.map_nil, List.sum_singleton, Code.toAct_act,
      Act.teller]
    omega

/-- The loop of {lit}`abort_room_without_clear_state` tells nobody. -/
theorem teller_abortEach_none (ps : List Nat) :
    endMails p (abortEach t s none ps).state.mail +
      (abortEach t s none ps).load (Act.teller p) (fun _ => 0) = endMails p s.mail := by
  rcases abortEach_cases t s none ps with ⟨he, -⟩ | ⟨skipped, q, rest, hps, he, -⟩ <;> rw [he]
  · rw [closeRoom_mail, load_closeRoom _ rfl, Sys.post, endMails_append,
      endMails_dismissals_none]
    omega
  · simp [Act.teller, endMails_dismissals_none]

/-- The loop of {lit}`finish_room` tells every player exactly as often as it visits
that player. -/
theorem teller_settleEach (total : Nat) (ps : List Nat) :
    endMails p (settleEach s total ps).state.mail +
      (settleEach s total ps).load (Act.teller p) (fun _ => 0) = endMails p s.mail + ps.count p := by
  rcases settleEach_cases s total ps with ⟨he, -⟩ | ⟨skipped, q, rest, hps, he, -⟩ <;> rw [he]
  · simp [Act.teller, endMails_resultMails]
    omega
  · have hmails := endMails_resultMails s total p (skipped ++ [q])
    rw [hps]
    simp only [call_state, load_call, Sys.dropSession, Sys.modify, Sys.withRoom, Sys.post,
      endMails_append, List.map_cons, List.map_nil, List.sum_singleton, Code.toAct_act,
      Act.teller, hmails, List.count_append, List.count_cons, List.count_nil]
    omega

end Teller

/-- No act makes it possible to tell a player the end twice. -/
theorem exec_teller (t p : Nat) {a : Act} (v : Ans) (s : Sys) {rest : List Act}
    (ha : Follows a rest) (hnd : s.room.players.Nodup) :
    (endMails p (exec t a v s).state.mail + (exec t a v s).state.room.open) +
      (exec t a v s).load (Act.teller p) (fun _ => 0) ≤
        (endMails p s.mail + s.room.open) + a.teller p := by
  have hopen := open_exec_le (t := t) (v := v) (s := s) ha
  cases hc : a.continues with
  | false =>
      have hzero : ∀ b : Act, b.oneTime = false → b.teller p = 0 := by
        intro b hb
        cases b <;> first | rfl | cases hb
      have hmail : endMails p (exec t a v s).state.mail = endMails p s.mail := by
        apply exec_endMails
        cases a <;> first | rfl | cases hc
      rw [load_eq_zero v hzero hc, hmail]
      omega
  | true =>
      have hmail := exec_endMails t p (a := a) v s
      have hb := exec_branch t a v s
      generalize exec t a v s = e at hb hopen hmail ⊢
      cases hb with
      | timedOut | allocAbort | startRefused =>
          exact (teller_abortRoom p s _).trans (Nat.le_add_right _ _)
      | removeAbort reason =>
          have h := teller_abortRoom p s.broadcastPreparedPlayers reason
          rw [endMails_broadcast] at h
          exact h.trans (Nat.le_add_right _ _)
      | markFinish | roundOver =>
          exact (teller_finishRoom t p s hnd).trans (Nat.le_add_right _ _)
      | abortOutside reason hs =>
          have h := teller_abortEach_none t p (s.setState .aborting) s.room.players
          have hmails : endMails p (s.setState .aborting).mail = endMails p s.mail := rfl
          omega
      | abortPlayers notify =>
          cases notify with
          | none =>
              have h := teller_abortEach_none t p s s.room.players
              omega
          | some reason =>
              have h := teller_abortEach t p s reason s.room.players
              have hone := List.nodup_iff_count_le_one.mp hnd p
              simp only [Act.teller]
              omega
      | abortFreed notify q ps =>
          cases notify with
          | none =>
              have h := teller_abortEach_none t p s ps
              simp only [Act.teller]
              exact (Nat.add_le_add_right (Nat.add_le_add_left hopen _) _).trans (by
                simp only [Sys.dismiss] at *
                omega)
          | some reason =>
              have h := teller_abortEach t p (s.dismiss (some reason) q) reason ps
              have hdismiss : endMails p (s.dismiss (some reason) q).mail =
                  endMails p s.mail + if q = p then 1 else 0 := by
                simp [Sys.dismiss, AgentMsg.isEnd]
              simp only [Act.teller, List.count_cons, beq_iff_eq]
              omega
      | finishWeighed arr stats r hv hr =>
          have hperm := (List.perm_insertionSort
            (fun a b => rankBefore r a b = true) arr).count_eq p
          have h := teller_settleEach p (s.withRoom (assignRanks r 1
            (arr.insertionSort fun a b => rankBefore r a b = true))) arr.length
            (arr.insertionSort fun a b => rankBefore r a b = true)
          have hmails : endMails p (s.withRoom (assignRanks r 1
            (arr.insertionSort fun a b => rankBefore r a b = true))).mail =
              endMails p s.mail := rfl
          simp only [Act.teller]
          omega
      | settleEach total ps =>
          have h := teller_settleEach p s total ps
          simp only [Act.teller]
          omega
      | finishUnknown =>
          rw [load_raise]
          simp only [raise_state, Sys.withRoom] at hopen ⊢
          omega
      | prepared | removeDone =>
          exact Nat.add_le_add (Nat.add_le_add (hmail rfl).le hopen) (Nat.zero_le _)
      | declined | allocCancelled | allocUnpicked | allocDone | markDone | startFailed
      | startLate =>
          exact Nat.add_le_add (Nat.add_le_add le_rfl hopen) (Nat.zero_le _)
      | allPrepared | removeAlloc | gameStarted | allocBattle | allocPicked | removeStart =>
          exact Nat.add_le_add (Nat.add_le_add (hmail rfl).le hopen) (Nat.le_of_eq rfl)
      | _ => cases hc

section Runs

variable {ok : Guard Sys LockName Act Req Ans Choice Env} {w : RoomWorld} {s₀ : Sys}

/-- A table has no key twice. -/
theorem players_nodup (hinit : Initial s₀) (h : Reach program ok (World.init s₀) w) :
    w.shared.room.players.Nodup := by
  refine h.view_invariant (fun v => v.shared.room.players.Nodup) ?_ ?_
  · rw [show (World.init s₀ : RoomWorld).view.shared = s₀ from rfl, hinit.players]
    exact List.nodup_nil
  · intro w e v hw hinv he hstep
    cases hstep with
    | same | spawn => exact hinv
    | perform t a rest stack =>
        rw [View.shared_perform]
        rcases exec_players t a (w.view.val t) w.view.shared with
          hp | ⟨list, n, -, -, hp⟩ | ⟨q, reason, -, -, hp⟩
        · exact hp ▸ hinv
        · change (exec t a (w.view.val t) w.view.shared).state.room.players.Nodup
          rw [hp]
          exact List.nodup_dedup _
        · exact hp ▸ hinv.filter _
    | serve t c q s r hq ha =>
        rw [View.shared_answer, serve_room ha]
        exact hinv
    | env e s henv =>
        change s.room.players.Nodup
        rw [environment_room henv]
        exact hinv

/-- No player is sent both {lit}`battle_result` and {lit}`room_dismiss`, nor either of
them twice. -/
theorem endMails_le_one (hinit : Initial s₀) (h : Reach program ok (World.init s₀) w)
    (hok : ∀ w e, ok w e → Arrives w e) (p : Nat) : endMails p w.shared.mail ≤ 1 := by
  have hpot := h.potential (fun s => endMails p s.mail + s.room.open) (Act.teller p)
    (fun _ => 0) (fun w a ha => ?spawn) ?exec ?serve ?env
  case spawn =>
    have := (hok w _ ha a rfl).isHandler
    cases a <;> first | rfl | cases this
  case exec =>
    intro w t a rest hw hp
    have hshape := (reach_shape hw hok t).1
    rw [hp] at hshape
    exact exec_teller t p (w.view.val t) w.view.shared hshape (players_nodup hinit hw)
  case serve =>
    intro w t q c s r _ _ ha
    rw [serve_room ha, (serve_sameLedger ha).mail]
    exact Nat.le_add_right _ _
  case env =>
    intro w e s _ he
    rw [open_congr (environment_sameTable he).1, (environment_sameLedger he).mail]
  have hone : endMails p s₀.mail + s₀.room.open ≤ 1 := by
    rw [hinit.mail]
    simpa using open_le_one s₀.room
  have hle : endMails p w.shared.mail ≤
      endMails p w.view.shared.mail + w.view.shared.room.open := Nat.le_add_right _ _
  omega

end Runs

end BallServer.RoomService
