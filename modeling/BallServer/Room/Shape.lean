import BallServer.Room.Branch

/-!
# The shape of the room's coroutines

Calls in the room service nest only one level deep, so there are few ways in which
the remaining code of a coroutine can look: what follows an act is known from the
act, and the request a coroutine waits for tells which act comes next.

Main results:

- Definition {lit}`Follows`: what may come after each act.
- Definition {lit}`Waits`: what each request is waited for with.
- Theorem {lit}`reach_shape`: every coroutine of every run has this shape.
- Definition {lit}`Pushes` and theorem {lit}`exec_pushes`: which act leaves which
  others to be done.
-/

namespace BallServer.RoomService

open BallServer Coroutine

/-- What comes after {lit}`clear_inroom_player_state`. -/
def AfterClear (k : Act) : Prop :=
  (∃ reason, k = .abortPlayers (some reason)) ∨ k = .closeRoom .finished

/-- What comes after {lit}`clear_one_player_state` for player {lit}`p`. -/
def AfterClearOne (p : Nat) (rest : List Act) : Prop :=
  (∃ reason, rest = [.freeSession p, .kick p, .removeKicked reason]) ∨
    ∃ reason, rest = [.markCleared p, .freeSession p, .kick p, .markKicked reason]

/-- What comes after {lit}`kick_player`. -/
def AfterKick (rest : List Act) : Prop :=
  (∃ reason, rest = [.removeKicked reason]) ∨ ∃ reason, rest = [.markKicked reason]

/-- The code that may follow an act. -/
def Follows : Act → List Act → Prop
  | .allocBattle, rest | .allocPicked, rest | .allocGiven, rest | .allocAdded _, rest
  | .allocFree _, rest => rest = [.allocDone]
  | .setPlayersRunning, rest | .setRunning _, rest | .setLoaded .., rest => rest = [.runningSet]
  | .clearInroom, rest | .clearEach _, rest => ∃ k, rest = [k] ∧ AfterClear k
  | .clearOne p, rest => AfterClearOne p rest
  | .checked, rest =>
      (∃ p, AfterClearOne p rest) ∨ (∃ ps, rest = [.setRunning ps, .runningSet]) ∨
        ∃ ps k, rest = [.clearEach ps, k] ∧ AfterClear k
  | .markCleared p, rest => ∃ reason, rest = [.freeSession p, .kick p, .markKicked reason]
  | .freeSession p, rest => ∃ k, rest = .kick p :: k ∧ AfterKick k
  | .kick _, rest => AfterKick rest
  | .closeRoom final, rest => final = .finished ∧ rest = []
  | _, rest => rest = []

/-- The remaining code of a coroutine. -/
def Chain : List Act → Prop
  | [] => True
  | a :: rest => Follows a rest

/-- What a coroutine does when its request is answered. -/
def Waits : Req → List Act → Prop
  | .queryname, l => l = [.allocPicked, .allocDone]
  | .batchAlloc _, l => l = [.allocGiven, .allocDone]
  | .batchAddPlayer ps, l =>
      ∃ infos, l = [.allocAdded infos, .allocDone] ∧
        ps = infos.map fun info => (info.playerid, info.conv)
  | .startGame, l => l = [.gameStarted]
  | .getWeight, l => ∃ arr, l = [.finishWeighed arr]
  | .kickPlayer _, l => AfterKick l
  | .shutdownScene, l => l = []
  | .redisGet p, l => ∃ ps, l = [.setLoaded p ps, .runningSet]
  | .redisSet .., l => ∃ ps, l = [.checked, .setRunning ps, .runningSet]
  | .redisDel p, l =>
      (∃ rest, l = .checked :: rest ∧ AfterClearOne p rest) ∨
        ∃ ps k, l = [.checked, .clearEach ps, k] ∧ AfterClear k
  | .free _, l =>
      (∃ ps, l = [.allocFree ps, .allocDone]) ∨ (∃ p k, l = .kick p :: k ∧ AfterKick k) ∨
        (∃ n p ps, l = [.abortFreed n p ps]) ∨ ∃ total ps, l = [.settleEach total ps]
  | .sleep _, l => l = [.prepareTimeout] ∨ l = [.roundOver]

theorem chain_afterKick {rest : List Act} (h : AfterKick rest) : Chain rest := by
  rcases h with ⟨reason, rfl⟩ | ⟨reason, rfl⟩ <;> rfl

theorem chain_afterClearOne {p : Nat} {rest : List Act} (h : AfterClearOne p rest) :
    Chain rest := by
  rcases h with ⟨reason, rfl⟩ | ⟨reason, rfl⟩
  · exact ⟨_, rfl, .inl ⟨reason, rfl⟩⟩
  · exact ⟨reason, rfl⟩

theorem chain_afterClear {k : Act} (h : AfterClear k) : Chain [k] := by
  rcases h with ⟨reason, rfl⟩ | rfl
  · rfl
  · exact ⟨rfl, rfl⟩

/-- What follows an act is the remaining code of a coroutine. -/
theorem chain_of_follows {a : Act} {rest : List Act} (h : Follows a rest) : Chain rest := by
  cases a with
  | allocBattle | allocPicked | allocGiven | allocAdded | allocFree =>
      cases h
      rfl
  | setPlayersRunning | setRunning | setLoaded =>
      cases h
      rfl
  | clearInroom | clearEach =>
      obtain ⟨k, rfl, hk⟩ := h
      exact chain_afterClear hk
  | clearOne p => exact chain_afterClearOne h
  | checked =>
      rcases h with ⟨p, h⟩ | ⟨ps, rfl⟩ | ⟨ps, k, rfl, hk⟩
      · exact chain_afterClearOne h
      · rfl
      · exact ⟨k, rfl, hk⟩
  | markCleared p =>
      obtain ⟨reason, rfl⟩ := h
      exact ⟨_, rfl, .inr ⟨reason, rfl⟩⟩
  | freeSession p =>
      obtain ⟨k, rfl, hk⟩ := h
      exact hk
  | kick p => exact chain_afterKick h
  | closeRoom final =>
      obtain ⟨-, rfl⟩ := h
      trivial
  | _ =>
      cases h
      trivial

/-- Before the count of a removal come its redis command, its session and its
kick. -/
theorem follows_removeKicked {a : Act} {rest : List Act} {reason : String}
    (h : Follows a rest) (hmem : .removeKicked reason ∈ rest) :
    (∃ p, a = .clearOne p) ∨ a = .checked ∨ (∃ p, a = .freeSession p) ∨ ∃ p, a = .kick p := by
  cases a with
  | clearOne p => exact .inl ⟨p, rfl⟩
  | checked => exact .inr (.inl rfl)
  | freeSession p => exact .inr (.inr (.inl ⟨p, rfl⟩))
  | kick p => exact .inr (.inr (.inr ⟨p, rfl⟩))
  | clearInroom | clearEach =>
      obtain ⟨k, rfl, ⟨reason, rfl⟩ | rfl⟩ := h <;> simp at hmem
  | markCleared p =>
      obtain ⟨reason, rfl⟩ := h
      simp at hmem
  | closeRoom final =>
      obtain ⟨-, rfl⟩ := h
      simp at hmem
  | _ =>
      cases h
      simp at hmem

/-- The acts that may stand below another one. -/
def Act.trails : Act → Bool
  | .allocDone | .runningSet | .setRunning _ | .clearEach _ | .abortPlayers _ | .closeRoom _
  | .freeSession _ | .kick _ | .removeKicked _ | .markKicked _ | .markCleared _ => true
  | _ => false

/-- Only few acts stand below another one. -/
theorem trails_of_follows {a b : Act} {rest : List Act} (h : Follows a rest) (hb : b ∈ rest) :
    b.trails = true := by
  have hclear : ∀ {k}, AfterClear k → k.trails = true := by
    rintro k (⟨reason, rfl⟩ | rfl) <;> rfl
  have hkick : ∀ {l}, AfterKick l → b ∈ l → b.trails = true := by
    rintro l (⟨reason, rfl⟩ | ⟨reason, rfl⟩) hb <;> rw [List.mem_singleton.mp hb] <;> rfl
  have hone : ∀ {p l}, AfterClearOne p l → b ∈ l → b.trails = true := by
    rintro p l (⟨reason, rfl⟩ | ⟨reason, rfl⟩) hb <;>
      simp only [List.mem_cons, List.not_mem_nil, or_false] at hb <;>
      rcases hb with rfl | rfl | rfl | rfl <;> rfl
  cases a with
  | allocBattle | allocPicked | allocGiven | allocAdded | allocFree | setPlayersRunning
  | setRunning | setLoaded =>
      cases h
      rw [List.mem_singleton.mp hb]
      rfl
  | clearInroom | clearEach =>
      obtain ⟨k, rfl, hk⟩ := h
      rw [List.mem_singleton.mp hb]
      exact hclear hk
  | clearOne p => exact hone h hb
  | checked =>
      rcases h with ⟨p, h⟩ | ⟨ps, rfl⟩ | ⟨ps, k, rfl, hk⟩
      · exact hone h hb
      · rcases List.mem_cons.mp hb with rfl | hb
        · rfl
        · rw [List.mem_singleton.mp hb]
          rfl
      · rcases List.mem_cons.mp hb with rfl | hb
        · rfl
        · rw [List.mem_singleton.mp hb]
          exact hclear hk
  | markCleared p =>
      obtain ⟨reason, rfl⟩ := h
      simp only [List.mem_cons, List.not_mem_nil, or_false] at hb
      rcases hb with rfl | rfl | rfl <;> rfl
  | freeSession p =>
      obtain ⟨k, rfl, hk⟩ := h
      rcases List.mem_cons.mp hb with rfl | hb
      · rfl
      · exact hkick hk hb
  | kick p => exact hkick h hb
  | closeRoom final =>
      obtain ⟨-, rfl⟩ := h
      cases hb
  | _ =>
      cases h
      cases hb

/-- A coroutine's code and the request it is waiting for fit together. -/
def Shape (flight : Option Req) (pending : List Act) : Prop :=
  Chain pending ∧ ∀ q, flight = some q → Waits q pending

theorem shape_none {l : List Act} (h : Chain l) : Shape none l := ⟨h, fun _ hq => nomatch hq⟩

theorem shape_some {q : Req} {l : List Act} (h : Chain l) (hq : Waits q l) :
    Shape (some q) l :=
  ⟨h, fun _ hq' => by cases hq'; exact hq⟩

/-! ## Acts keep the shape -/

section Effects

variable {rest : List Act}

/-- The coroutine after an effect has a proper shape. -/
def Shaped (rest : List Act) (e : Eff) : Prop :=
  Shape (View.flightAfter e.outcome) (View.pendingAfter rest e)

theorem shaped_ret {s : Sys} {v : Ans} (h : Chain rest) : Shaped rest (ret s v) :=
  shape_none (by simpa using h)

theorem shaped_raise {s : Sys} : Shaped rest (raise s) := shape_none trivial

theorem shaped_abortRoom {s : Sys} {reason : String} : Shaped [] (abortRoom s reason) := by
  rcases abortRoom_cases s reason with ⟨-, he⟩ | ⟨-, he⟩ <;> rw [he]
  · exact shaped_ret trivial
  · exact shape_none ⟨_, rfl, .inl ⟨reason, rfl⟩⟩

theorem shaped_finishRoom {t : Nat} {s : Sys} : Shaped [] (finishRoom t s) := by
  rcases finishRoom_cases t s with ⟨-, he⟩ | ⟨-, he⟩ <;> rw [he]
  · exact shaped_ret trivial
  · exact shape_some rfl ⟨_, rfl⟩

theorem shaped_closeRoom {t : Nat} {s : Sys} {final : RoomState} :
    Shaped [] (closeRoom t s final) := by
  rw [closeRoom]
  split
  · exact shaped_ret trivial
  · exact shape_some trivial rfl

theorem shaped_startRunning {t : Nat} {s : Sys} : Shaped [] (startRunning t s) :=
  shape_some rfl rfl

theorem shaped_abortEach {t : Nat} {s : Sys} {notify : Option String} {ps : List Nat} :
    Shaped [] (abortEach t s notify ps) := by
  rcases abortEach_cases t s notify ps with ⟨he, -⟩ | ⟨skipped, p, rest, -, he, -⟩ <;> rw [he]
  · exact shaped_closeRoom
  · exact shape_some rfl (.inr (.inr (.inl ⟨notify, p, rest, rfl⟩)))

theorem shaped_settleEach {s : Sys} {total : Nat} {ps : List Nat} :
    Shaped [] (settleEach s total ps) := by
  rcases settleEach_cases s total ps with ⟨he, -⟩ | ⟨skipped, p, rest, -, he, -⟩ <;> rw [he]
  · exact shape_none ⟨_, rfl, .inr rfl⟩
  · exact shape_some rfl (.inr (.inr (.inr ⟨total, rest, rfl⟩)))

theorem shaped_allocFree {s : Sys} {ps : List Nat} :
    Shaped [.allocDone] (allocFree s ps) := by
  rcases allocFree_cases s ps with ⟨he, -⟩ | ⟨skipped, p, rest, -, he, -⟩ <;> rw [he]
  · exact shaped_ret rfl
  · exact shape_some rfl (.inl ⟨rest, rfl⟩)

theorem shaped_setRunning {s : Sys} {ps : List Nat} :
    Shaped [.runningSet] (setRunning s ps) := by
  rcases setRunning_cases s ps with ⟨he, -⟩ | ⟨p, rest, he, -⟩ <;> rw [he]
  · exact shaped_ret rfl
  · exact shape_some rfl ⟨rest, rfl⟩

theorem shaped_clearEach {s : Sys} {ps : List Nat} {k : Act} (hk : AfterClear k) :
    Shaped [k] (clearEach s ps) := by
  rcases clearEach_cases s ps with ⟨he, -⟩ | ⟨skipped, p, rest, -, he, -⟩ <;> rw [he]
  · exact shaped_ret (chain_afterClear hk)
  · exact shape_some (.inr (.inr ⟨rest, k, rfl, hk⟩)) (.inr ⟨rest, k, rfl, hk⟩)

theorem shaped_freeSession {s : Sys} {p : Nat} {v : Ans} {k : List Act} (hk : AfterKick k) :
    Shaped (.kick p :: k) (freePlayerBattleSession s p [] (ret s v)) := by
  rcases freePlayerBattleSession_cases s p [] (ret s v) with ⟨-, he⟩ | ⟨-, he⟩ <;> rw [he]
  · exact shaped_ret hk
  · exact shape_some hk (.inr (.inl ⟨p, k, rfl, hk⟩))

/-- Executing an act keeps the shape of its coroutine. -/
theorem exec_shaped (t : Nat) {a : Act} (v : Ans) (s : Sys) (ha : Follows a rest) :
    Shaped rest (exec t a v s) := by
  have hrest := chain_of_follows ha
  have h := exec_branch t a v s
  generalize exec t a v s = e at h ⊢
  cases h with
  | declined | prepared | ready | dead | respawned | allocCancelled | allocNothing | allocAdded
  | allocDone | removeGone | removeDone | markCleared | markDone | startLate
  | checked => exact shaped_ret hrest
  | initialised | runningSet => exact shape_none hrest
  | allocUnpicked | allocError | allocUnknown | startFailed | setFailed | checkFailed
  | finishUnknown => exact shaped_raise
  | prepareTimer =>
      cases ha
      exact shape_some rfl (.inl rfl)
  | roundTimer =>
      cases ha
      exact shape_some rfl (.inr rfl)
  | timedOut | allocAbort | removeAbort | startRefused =>
      cases ha
      exact shaped_abortRoom
  | allPrepared | removeAlloc =>
      cases ha
      exact shape_none rfl
  | readyStart | removeStart =>
      cases ha
      exact shaped_startRunning
  | leavePreparing =>
      cases ha
      exact shape_none rfl
  | leaveRunning p reason =>
      cases ha
      exact shape_none (.inr ⟨reason, rfl⟩)
  | abortOutside | abortPlayers | abortFreed =>
      cases ha
      exact shaped_abortEach
  | allocBattle | allocPicked =>
      cases ha
      exact shape_some rfl rfl
  | allocGiven l =>
      cases ha
      exact shape_some rfl ⟨l, rfl, rfl⟩
  | allocNotAdded | allocFree =>
      cases ha
      exact shaped_allocFree
  | removed p reason =>
      cases ha
      exact shape_none (.inl ⟨reason, rfl⟩)
  | markFinish | roundOver =>
      cases ha
      exact shaped_finishRoom
  | gameStarted =>
      cases ha
      exact shape_none rfl
  | setPlayersRunning | setRunning =>
      cases ha
      exact shaped_setRunning
  | setLoaded p ps =>
      cases ha
      exact shape_some (.inr (.inl ⟨ps, rfl⟩)) ⟨ps, rfl⟩
  | clearOne p => exact shape_some (.inl ⟨p, ha⟩) (.inl ⟨rest, rfl, ha⟩)
  | clearInroom | clearEach =>
      obtain ⟨k, rfl, hk⟩ := ha
      exact shaped_clearEach hk
  | freeSession p =>
      obtain ⟨k, rfl, hk⟩ := ha
      exact shaped_freeSession hk
  | kick p => exact shape_some (chain_afterKick ha) ha
  | closeRoom =>
      obtain ⟨-, rfl⟩ := ha
      exact shaped_closeRoom
  | finishWeighed | settleEach =>
      cases ha
      exact shaped_settleEach

/-- An abort leaves {lit}`b` to be done. -/
def AbortPushes (b : Act) : Prop :=
  b = .clearInroom ∨ ∃ reason, b = .abortPlayers (some reason)

/-- The act on the left may leave the one on the right to be done. -/
def Pushes : Act → Act → Prop
  | .prepareTimer, b => b = .prepareTimeout
  | .roundTimer, b => b = .roundOver
  | .prepareTimeout, b | .allocDone, b => AbortPushes b
  | .prepare _, b => b = .allocBattle ∨ b = .allocDone
  | .battleReady .., b => b = .gameStarted
  | .leave p reason, b =>
      b = .removePreparing p reason ∨ b = .clearOne p ∨ b = .markCleared p ∨
        b = .freeSession p ∨ b = .kick p ∨ b = .markKicked reason
  | .abortRoomWithoutClearState _, b => ∃ p ps, b = .abortFreed none p ps
  | .allocBattle, b => b = .allocPicked
  | .allocPicked, b => b = .allocGiven
  | .allocGiven, b => ∃ l, b = .allocAdded l
  | .allocAdded _, b | .allocFree _, b => ∃ ps, b = .allocFree ps
  | .removePreparing p reason, b =>
      b = .clearOne p ∨ b = .freeSession p ∨ b = .kick p ∨ b = .removeKicked reason
  | .removeKicked _, b =>
      AbortPushes b ∨ b = .allocBattle ∨ b = .allocDone ∨ b = .gameStarted
  | .markKicked _, b | .roundOver, b => ∃ arr, b = .finishWeighed arr
  | .gameStarted, b => AbortPushes b ∨ b = .setPlayersRunning ∨ b = .runningSet
  | .setPlayersRunning, b | .setRunning _, b => ∃ p ps, b = .setLoaded p ps
  | .setLoaded _ ps, b => b = .checked ∨ b = .setRunning ps
  | .clearOne _, b => b = .checked
  | .clearInroom, b | .clearEach _, b => b = .checked ∨ ∃ ps, b = .clearEach ps
  | .abortPlayers n, b | .abortFreed n _ _, b => ∃ p ps, b = .abortFreed n p ps
  | .finishWeighed _, b | .settleEach .., b =>
      (∃ total ps, b = .settleEach total ps) ∨ b = .clearInroom ∨ b = .closeRoom .finished
  | _, _ => False

section Pushes

variable {s : Sys} {t : Nat} {c : Code LockName Act}

theorem pushes_abortRoom {reason : String} (hc : c ∈ (abortRoom s reason).push) :
    AbortPushes c.toAct := by
  rcases abortRoom_cases s reason with ⟨-, he⟩ | ⟨-, he⟩ <;> rw [he] at hc
  · cases hc
  · rcases List.mem_cons.mp hc with rfl | hc
    · exact .inl rfl
    · rw [List.mem_singleton.mp hc]
      exact .inr ⟨reason, rfl⟩

theorem pushes_finishRoom (hc : c ∈ (finishRoom t s).push) :
    ∃ arr, c.toAct = .finishWeighed arr := by
  rcases finishRoom_cases t s with ⟨-, he⟩ | ⟨-, he⟩ <;> rw [he] at hc
  · cases hc
  · rw [List.mem_singleton.mp hc]
    exact ⟨_, rfl⟩

theorem closeRoom_push (t : Nat) (s : Sys) (final : RoomState) :
    (closeRoom t s final).push = [] := by
  rw [closeRoom]
  split <;> rfl

theorem pushes_abortEach {notify : Option String} {ps : List Nat}
    (hc : c ∈ (abortEach t s notify ps).push) : ∃ p ps, c.toAct = .abortFreed notify p ps := by
  rcases abortEach_cases t s notify ps with ⟨he, -⟩ | ⟨skipped, p, rest, -, he, -⟩ <;> rw [he] at hc
  · rw [closeRoom_push] at hc
    cases hc
  · rw [List.mem_singleton.mp hc]
    exact ⟨_, _, rfl⟩

theorem pushes_settleEach {total : Nat} {ps : List Nat}
    (hc : c ∈ (settleEach s total ps).push) :
    (∃ total ps, c.toAct = .settleEach total ps) ∨ c.toAct = .clearInroom ∨
      c.toAct = .closeRoom .finished := by
  rcases settleEach_cases s total ps with ⟨he, -⟩ | ⟨skipped, p, rest, -, he, -⟩ <;> rw [he] at hc
  · rcases List.mem_cons.mp hc with rfl | hc
    · exact .inr (.inl rfl)
    · rw [List.mem_singleton.mp hc]
      exact .inr (.inr rfl)
  · rw [List.mem_singleton.mp hc]
    exact .inl ⟨_, _, rfl⟩

theorem pushes_allocFree {ps : List Nat} (hc : c ∈ (allocFree s ps).push) :
    ∃ ps, c.toAct = .allocFree ps := by
  rcases allocFree_cases s ps with ⟨he, -⟩ | ⟨skipped, p, rest, -, he, -⟩ <;> rw [he] at hc
  · cases hc
  · rw [List.mem_singleton.mp hc]
    exact ⟨_, rfl⟩

theorem pushes_setRunning {ps : List Nat} (hc : c ∈ (setRunning s ps).push) :
    ∃ p ps, c.toAct = .setLoaded p ps := by
  rcases setRunning_cases s ps with ⟨he, -⟩ | ⟨p, rest, he, -⟩ <;> rw [he] at hc
  · cases hc
  · rw [List.mem_singleton.mp hc]
    exact ⟨_, _, rfl⟩

theorem pushes_clearEach {ps : List Nat} (hc : c ∈ (clearEach s ps).push) :
    c.toAct = .checked ∨ ∃ ps, c.toAct = .clearEach ps := by
  rcases clearEach_cases s ps with ⟨he, -⟩ | ⟨skipped, p, rest, -, he, -⟩ <;> rw [he] at hc
  · cases hc
  · rcases List.mem_cons.mp hc with rfl | hc
    · exact .inl rfl
    · rw [List.mem_singleton.mp hc]
      exact .inr ⟨_, rfl⟩

/-- What an act leaves to be done. -/
theorem exec_pushes {a : Act} {v : Ans} (hc : c ∈ (exec t a v s).push) : Pushes a c.toAct := by
  have hb := exec_branch t a v s
  generalize exec t a v s = e at hb hc
  cases hb with
  | timedOut | allocAbort | startRefused => first | exact pushes_abortRoom hc | exact .inl (pushes_abortRoom hc)
  | removeAbort => exact .inl (pushes_abortRoom hc)
  | markFinish | roundOver => exact pushes_finishRoom hc
  | abortOutside | abortPlayers | abortFreed => exact pushes_abortEach hc
  | finishWeighed | settleEach => exact pushes_settleEach hc
  | allocNotAdded | allocFree => exact pushes_allocFree hc
  | setPlayersRunning | setRunning => exact pushes_setRunning hc
  | clearInroom | clearEach => exact pushes_clearEach hc
  | closeRoom final =>
      rw [closeRoom_push] at hc
      cases hc
  | freeSession p =>
      rcases freePlayerBattleSession_cases s p [] (ret s .nil) with ⟨-, he⟩ | ⟨-, he⟩ <;>
        rw [he] at hc <;> cases hc
  | removeAlloc =>
      refine .inr ?_
      simp only [goOn_push, List.mem_cons, List.not_mem_nil, or_false] at hc
      rcases hc with rfl | rfl <;> simp
  | gameStarted =>
      refine .inr ?_
      simp only [goOn_push, List.mem_cons, List.not_mem_nil, or_false] at hc
      rcases hc with rfl | rfl <;> simp
  | removeStart =>
      rw [List.mem_singleton.mp hc]
      exact .inr (.inr (.inr rfl))
  | allPrepared | leaveRunning | removed | setLoaded =>
      simp only [goOn_push, call_push, List.mem_cons, List.not_mem_nil, or_false] at hc
      rcases hc with rfl | rfl | rfl | rfl | rfl <;> simp [Pushes, clearOnePlayerState]
  | leavePreparing =>
      rw [List.mem_singleton.mp hc]
      exact .inl rfl
  | prepareTimer | roundTimer | readyStart | allocBattle | allocPicked | clearOne =>
      rw [List.mem_singleton.mp hc]
      rfl
  | allocGiven =>
      rw [List.mem_singleton.mp hc]
      exact ⟨_, rfl⟩
  | _ => cases hc

end Pushes

/-- Only the timers are forked. -/
theorem exec_fork (t : Nat) (a : Act) (v : Ans) (s : Sys) {b : Act}
    (hb : (exec t a v s).fork = some b) :
    (∃ list n, a = .initRoom list n ∧ b = .prepareTimer ∧ s.room.roomState = .uninit) ∨
      a = .runningSet ∧ b = .roundTimer := by
  have h := exec_branch t a v s
  generalize exec t a v s = e at h hb
  have habort : ∀ s reason, (abortRoom s reason).fork = none := by
    intro s reason
    rcases abortRoom_cases s reason with ⟨-, he⟩ | ⟨-, he⟩ <;> rw [he] <;> rfl
  have hfinish : ∀ s, (finishRoom t s).fork = none := by
    intro s
    rcases finishRoom_cases t s with ⟨-, he⟩ | ⟨-, he⟩ <;> rw [he] <;> rfl
  have hclose : ∀ s f, (closeRoom t s f).fork = none := by
    intro s f
    rw [closeRoom]
    split <;> rfl
  have heach : ∀ s n ps, (abortEach t s n ps).fork = none := by
    intro s n ps
    rcases abortEach_cases t s n ps with ⟨he, -⟩ | ⟨skipped, p, rest, -, he, -⟩ <;> rw [he]
    · exact hclose _ _
    · rfl
  have hsettle : ∀ s n ps, (settleEach s n ps).fork = none := by
    intro s n ps
    rcases settleEach_cases s n ps with ⟨he, -⟩ | ⟨skipped, p, rest, -, he, -⟩ <;> rw [he] <;> rfl
  have hfree : ∀ s ps, (allocFree s ps).fork = none := by
    intro s ps
    rcases allocFree_cases s ps with ⟨he, -⟩ | ⟨skipped, p, rest, -, he, -⟩ <;> rw [he] <;> rfl
  have hset : ∀ s ps, (setRunning s ps).fork = none := by
    intro s ps
    rcases setRunning_cases s ps with ⟨he, -⟩ | ⟨p, rest, he, -⟩ <;> rw [he] <;> rfl
  have hclear : ∀ s ps, (clearEach s ps).fork = none := by
    intro s ps
    rcases clearEach_cases s ps with ⟨he, -⟩ | ⟨skipped, p, rest, -, he, -⟩ <;> rw [he] <;> rfl
  have hsession : ∀ s p v, (freePlayerBattleSession s p [] (ret s v)).fork = none := by
    intro s p v
    rcases freePlayerBattleSession_cases s p [] (ret s v) with ⟨-, he⟩ | ⟨-, he⟩ <;> rw [he] <;> rfl
  cases h with
  | initialised list n hs =>
      cases hb
      exact .inl ⟨list, n, rfl, rfl, hs⟩
  | runningSet =>
      cases hb
      exact .inr ⟨rfl, rfl⟩
  | timedOut | allocAbort | removeAbort | startRefused => simp [habort] at hb
  | markFinish | roundOver => simp [hfinish] at hb
  | abortOutside | abortPlayers | abortFreed => simp [heach] at hb
  | allocNotAdded | allocFree => simp [hfree] at hb
  | setPlayersRunning | setRunning => simp [hset] at hb
  | clearInroom | clearEach => simp [hclear] at hb
  | freeSession =>
      rw [hsession] at hb
      cases hb
  | closeRoom => simp [hclose] at hb
  | finishWeighed | settleEach => simp [hsettle] at hb
  | _ => cases hb

end Effects

/-! ## Runs -/

/-- Nothing follows a handler. -/
theorem follows_handler {a : Act} (ha : a.isHandler = true) : Follows a [] := by
  cases a <;> first | rfl | cases ha

theorem Act.arrives.isHandler {a : Act} (h : a.arrives) : a.isHandler = true := by
  cases a <;> first | rfl | exact h

variable {ok : Guard Sys LockName Act Req Ans Choice Env} {w : RoomWorld} {s₀ : Sys}

/-- Every coroutine of every run has its shape. -/
theorem reach_shape (h : Reach program ok (World.init s₀) w)
    (hok : ∀ w e, ok w e → Arrives w e) (t : Nat) :
    Shape (w.view.flight t) (w.view.pending t) := by
  refine h.view_invariant (fun v => ∀ t, Shape (v.flight t) (v.pending t)) ?_ ?_ t
  · intro t
    exact shape_none trivial
  · intro w e v hw hinv he hstep u
    have hblank := hw.wf.view_blank
    cases hstep with
    | same => exact hinv u
    | spawn a =>
        rw [View.flight_create hblank]
        by_cases hu : u = w.view.fresh
        · subst hu
          rw [hblank.flight _ le_rfl]
          refine shape_none ?_
          simp only [View.create, Function.update_self]
          exact follows_handler (hok w _ he a rfl).isHandler
        · simpa [View.create, hu] using hinv u
    | perform t a rest stack ht hr hk hp hf =>
        have ha : Follows a rest := by
          have := (hinv t).1
          rwa [hp] at this
        have hexec : ∀ u, Shape
            ((w.view.execute t rest (exec t a (w.view.val t) w.view.shared)).flight u)
            ((w.view.execute t rest (exec t a (w.view.val t) w.view.shared)).pending u) := by
          intro u
          by_cases hu : u = t
          · subst hu
            simpa [View.execute, Shaped] using exec_shaped u (w.view.val u) w.view.shared ha
          · simpa [View.execute, hu] using hinv u
        change Shape ((w.view.perform t rest (exec t a (w.view.val t) w.view.shared)).flight u)
          ((w.view.perform t rest (exec t a (w.view.val t) w.view.shared)).pending u)
        rw [View.perform]
        cases hfork : (exec t a (w.view.val t) w.view.shared).fork with
        | none => exact hexec u
        | some b =>
            by_cases hu : u = w.view.fresh
            · subst hu
              have hb : Follows b [] := by
                rcases exec_fork t a _ _ hfork with ⟨-, -, -, rfl, -⟩ | ⟨-, rfl⟩ <;> rfl
              simpa [View.createFork, View.create, View.execute] using
                shape_none (l := [b]) hb
            · simpa [View.createFork, View.create, View.execute, hu] using hexec u
    | serve t c q s r hq ha =>
        by_cases hu : u = t
        · subst hu
          simpa [View.answer] using shape_none (hinv u).1
        · simpa [View.answer, hu] using hinv u
    | env e s he => exact hinv u

end BallServer.RoomService
