import BallServer.Coroutine.Lock
import BallServer.Room.Shape

/-!
# What the room does under its locks

Sessions are asked for and players are removed under {lit}`prepare_room_lock`;
the records of players are written under {lit}`player_state_lock`.

Main results:

- Definition {lit}`Act.lock`: the lock an act runs under.
- Theorem {lit}`program_critical`: the room enters every such act under its lock.
- Theorem {lit}`locked_unique`: only one coroutine runs under a lock.
-/

namespace BallServer.RoomService

open BallServer Coroutine

/-- The lock an act runs under. -/
def Act.lock : Act → Option LockName
  | .allocBattle | .allocPicked | .allocGiven | .allocAdded _ | .allocFree _
  | .removePreparing .. | .removeKicked _ => some .prepareRoom
  | .setPlayersRunning | .setRunning _ | .setLoaded .. | .clearOne _ | .clearInroom
  | .clearEach _ => some .playerState
  | _ => none

/-- The acts that may still be waiting for their lock. -/
def Act.enters : Act → Prop
  | .allocBattle | .removePreparing .. | .setPlayersRunning | .clearOne _ | .clearInroom => True
  | _ => False

/-- A piece of code fits under the act that pushes it: plain code needs no lock or
the same one, and a locked function is the first act under its lock. -/
def Fits (a : Act) : Code LockName Act → Prop
  | .act b => b.lock = none ∨ b.lock = a.lock
  | .locked l b => b.lock = some l ∧ b.enters

section Fits

variable {a : Act} {s : Sys} {t : Nat} {c : Code LockName Act}

theorem fits_abortRoom {reason : String} (hc : c ∈ (abortRoom s reason).push) : Fits a c := by
  rcases abortRoom_cases s reason with ⟨-, he⟩ | ⟨-, he⟩ <;> rw [he] at hc
  · cases hc
  · rcases List.mem_cons.mp hc with rfl | hc
    · exact ⟨rfl, trivial⟩
    · rw [List.mem_singleton.mp hc]
      exact .inl rfl

theorem fits_settleEach {total : Nat} {ps : List Nat} (hc : c ∈ (settleEach s total ps).push) :
    Fits a c := by
  rcases settleEach_cases s total ps with ⟨he, -⟩ | ⟨skipped, p, rest, -, he, -⟩ <;> rw [he] at hc
  · rcases List.mem_cons.mp hc with rfl | hc
    · exact ⟨rfl, trivial⟩
    · rw [List.mem_singleton.mp hc]
      exact .inl rfl
  · rw [List.mem_singleton.mp hc]
    exact .inl rfl

/-- Whatever an act pushes fits under it. -/
theorem exec_fits {v : Ans} (hc : c ∈ (exec t a v s).push) : Fits a c := by
  have hb := exec_branch t a v s
  generalize exec t a v s = e at hb hc
  cases hb with
  | timedOut | allocAbort | startRefused | removeAbort => exact fits_abortRoom hc
  | finishWeighed | settleEach => exact fits_settleEach hc
  | markFinish | roundOver =>
      rcases finishRoom_cases t s with ⟨-, he⟩ | ⟨-, he⟩ <;> rw [he] at hc
      · cases hc
      · rw [List.mem_singleton.mp hc]
        exact .inl rfl
  | abortOutside =>
      rcases abortEach_cases t (s.setState .aborting) none s.room.players with
        ⟨he, -⟩ | ⟨skipped, p, rest, -, he, -⟩ <;> rw [he] at hc
      · rw [closeRoom_push] at hc
        cases hc
      · rw [List.mem_singleton.mp hc]
        exact .inl rfl
  | abortPlayers notify =>
      rcases abortEach_cases t s notify s.room.players with
        ⟨he, -⟩ | ⟨skipped, p, rest, -, he, -⟩ <;> rw [he] at hc
      · rw [closeRoom_push] at hc
        cases hc
      · rw [List.mem_singleton.mp hc]
        exact .inl rfl
  | abortFreed notify q ps =>
      rcases abortEach_cases t (s.dismiss notify q) notify ps with
        ⟨he, -⟩ | ⟨skipped, p, rest, -, he, -⟩ <;> rw [he] at hc
      · rw [closeRoom_push] at hc
        cases hc
      · rw [List.mem_singleton.mp hc]
        exact .inl rfl
  | allocNotAdded infos =>
      rcases allocFree_cases s (infos.map BattleInfo.playerid) with
        ⟨he, -⟩ | ⟨skipped, p, rest, -, he, -⟩ <;> rw [he] at hc
      · cases hc
      · rw [List.mem_singleton.mp hc]
        exact .inr rfl
  | allocFree ps =>
      rcases allocFree_cases s ps with ⟨he, -⟩ | ⟨skipped, p, rest, -, he, -⟩ <;> rw [he] at hc
      · cases hc
      · rw [List.mem_singleton.mp hc]
        exact .inr rfl
  | setPlayersRunning =>
      rcases setRunning_cases s s.room.players with ⟨he, -⟩ | ⟨p, rest, he, -⟩ <;> rw [he] at hc
      · cases hc
      · rw [List.mem_singleton.mp hc]
        exact .inr rfl
  | setRunning ps =>
      rcases setRunning_cases s ps with ⟨he, -⟩ | ⟨p, rest, he, -⟩ <;> rw [he] at hc
      · cases hc
      · rw [List.mem_singleton.mp hc]
        exact .inr rfl
  | clearInroom =>
      rcases clearEach_cases s s.room.players with ⟨he, -⟩ | ⟨skipped, p, rest, -, he, -⟩ <;>
        rw [he] at hc
      · cases hc
      · rcases List.mem_cons.mp hc with rfl | hc
        · exact .inl rfl
        · rw [List.mem_singleton.mp hc]
          exact .inr rfl
  | clearEach ps =>
      rcases clearEach_cases s ps with ⟨he, -⟩ | ⟨skipped, p, rest, -, he, -⟩ <;> rw [he] at hc
      · cases hc
      · rcases List.mem_cons.mp hc with rfl | hc
        · exact .inl rfl
        · rw [List.mem_singleton.mp hc]
          exact .inr rfl
  | closeRoom final =>
      rw [closeRoom_push] at hc
      cases hc
  | freeSession p =>
      rcases freePlayerBattleSession_cases s p [] (ret s .nil) with ⟨-, he⟩ | ⟨-, he⟩ <;>
        rw [he] at hc <;> cases hc
  | allPrepared | leavePreparing | gameStarted =>
      simp only [goOn_push, List.mem_cons, List.not_mem_nil, or_false] at hc
      rcases hc with rfl | rfl <;> simp [Fits, Act.lock, Act.enters]
  | removeAlloc =>
      simp only [goOn_push, List.mem_cons, List.not_mem_nil, or_false] at hc
      rcases hc with rfl | rfl
      · exact .inr rfl
      · exact .inl rfl
  | leaveRunning | removed =>
      simp only [goOn_push, List.mem_cons, List.not_mem_nil, or_false] at hc
      rcases hc with rfl | rfl | rfl | rfl | rfl <;>
        simp [Fits, Act.lock, Act.enters, clearOnePlayerState]
  | setLoaded =>
      simp only [call_push, List.mem_cons, List.not_mem_nil, or_false] at hc
      rcases hc with rfl | rfl
      · exact .inl rfl
      · exact .inr rfl
  | allocBattle | allocPicked | allocGiven =>
      rw [List.mem_singleton.mp hc]
      exact .inr rfl
  | prepareTimer | roundTimer | readyStart | removeStart | clearOne =>
      rw [List.mem_singleton.mp hc]
      exact .inl rfl
  | _ => cases hc

end Fits

/-- The room enters every act that needs a lock under that lock. -/
theorem program_critical : program.Critical Act.lock Act.enters where
  act t a v s b hb := exec_fits (t := t) (a := a) (v := v) (s := s) hb
  locked t a v s l b hb := exec_fits (t := t) (a := a) (v := v) (s := s) hb
  fork t a v s b hb := by
    rcases exec_fork t a v s hb with ⟨-, -, -, rfl, -⟩ | ⟨-, rfl⟩ <;> rfl

variable {ok : Guard Sys LockName Act Req Ans Choice Env} {w : RoomWorld} {s₀ : Sys}

/-- Nothing that arrives runs under a lock from the start. -/
theorem lock_of_arrives {a : Act} (h : a.arrives) : a.lock = none := by
  have := h.isHandler
  cases a <;> first | rfl | cases this

/-- A coroutine that is about to execute an act under a lock is the one that has
entered that lock. -/
theorem locked_unique (h : Reach program ok (World.init s₀) w)
    (hok : ∀ w e, ok w e → Arrives w e) {t u : Nat} {a b : Act} {l : LockName}
    {stack : List (Frame LockName Act)} (hk : (w.co t).stack = .code (.act a) :: stack)
    (ha : a.lock = some l) (hb : b ∈ w.view.pending u) (hl : b.lock = some l)
    (he : ¬b.enters) : u = t := by
  have hspawn : ∀ w a, ok w (.spawn a) → a.lock = none :=
    fun w a hw => lock_of_arrives (hok w _ hw a rfl)
  have hrun := h.owner_of_running program_critical hspawn hk ha
  have hpend := h.owner_of_pending program_critical hspawn hb hl he
  rw [hrun] at hpend
  exact (Option.some.inj hpend).symm

end BallServer.RoomService
