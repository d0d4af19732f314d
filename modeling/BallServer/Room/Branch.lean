import BallServer.Room.Program

/-!
# The branches of the room's code

Every act of the room does one of finitely many things.  {lit}`Branch` lists them,
each with the conditions under which the source takes it and the effect it then
has; every invariant of the room is proved by going through this list.  The
loops that free battle sessions, write records and delete records get one
inversion theorem each: a loop reaches its end, or it stops at the first player
for whom another service has to be asked.

Main results:

- Theorem {lit}`exec_branch`: executing an act takes one of its branches.
- Theorems {lit}`abortEach_cases`, {lit}`settleEach_cases`, {lit}`allocFree_cases`,
  {lit}`setRunning_cases` and {lit}`clearEach_cases`: the loops.
-/

namespace BallServer.RoomService

open BallServer Coroutine

attribute [simp] callScene Sys.withRoom Sys.setState Sys.modify
  Sys.notifyAgent Room.modify Room.modifyAll View.pendingAfter View.flightAfter
  View.valAfter View.raisedAfter

/-- A branch of the code of an act: {lit}`Branch t v s a e` says that coroutine
{lit}`t` may run {lit}`a` in {lit}`s`, given the value {lit}`v`, with effect {lit}`e`. -/
inductive Branch (t : Nat) (v : Ans) (s : Sys) : Act → Eff → Prop where
  /-- A handler or a timer declines. -/
  | declined (a : Act) (r : Ans)
      (ha : a.isHandler = true ∨ a = .prepareTimeout ∨ a = .roundOver) :
      Branch t v s a (ret s r)
  | initialised (list : List PlayerInfo) (n : Nat) (hs : s.room.roomState = .uninit)
      (haddr : s.room.sceneAddr ≠ none) :
      Branch t v s (.initRoom list n)
        { state := s.initialised list n, outcome := .ret (.ok true), fork := some .prepareTimer }
  | prepareTimer : Branch t v s .prepareTimer (call s (.sleep 1500) [.act .prepareTimeout])
  | roundTimer : Branch t v s .roundTimer (call s (.sleep 60000) [.act .roundOver])
  | timedOut (hs : s.room.roomState = .waitPrepare) :
      Branch t v s .prepareTimeout (abortRoom s "有玩家未准备")
  | prepared (p : Nat) (hs : s.room.roomState = .waitPrepare) (hp : p ∈ s.room.players) :
      Branch t v s (.prepare p) (ret (s.setPrepared p) (.ok true))
  | allPrepared (p : Nat) (hs : s.room.roomState = .waitPrepare) (hp : p ∈ s.room.players)
      (hall : (s.setPrepared p).room.allPrepared = true) :
      Branch t v s (.prepare p)
        (goOn ((s.setPrepared p).setState .waitBattlePrepare)
          [.locked .prepareRoom .allocBattle, .act .allocDone])
  | ready (source p conv : Nat) (b : Bool) (hp : p ∈ s.room.players)
      (hg : s.room.battleGateway = some source) (hc : (s.room.obj p).battleConv = conv) :
      Branch t v s (.battleReady source p conv b)
        (ret (s.modify p fun o => { o with battleReady := b }) (.ok true))
  | readyStart (source p conv : Nat) (b : Bool) (hp : p ∈ s.room.players)
      (hg : s.room.battleGateway = some source) (hc : (s.room.obj p).battleConv = conv)
      (hs : s.room.roomState = .waitBattlePrepare)
      (hprep : (s.modify p fun o => { o with battleReady := b }).room.allPrepared = true)
      (hready : (s.modify p fun o => { o with battleReady := b }).room.allBattleReady = true) :
      Branch t v s (.battleReady source p conv b)
        (startRunning t (s.modify p fun o => { o with battleReady := b }))
  | dead (p killer : Nat) (b : Bool) (hs : s.room.roomState = .running) :
      Branch t v s (.scenePlayerDead p killer)
        (ret (s.withRoom (s.room.onPlayerDead p killer).1) (.ok b))
  | respawned (p : Nat) (b : Bool) (hs : s.room.roomState = .running) :
      Branch t v s (.scenePlayerRespawn p)
        (ret (s.withRoom (s.room.onPlayerRespawn p).1) (.ok b))
  | leavePreparing (p : Nat) (reason : String) (hp : p ∈ s.room.players)
      (hs : s.room.roomState = .waitBattlePrepare ∨ s.room.roomState = .waitPrepare) :
      Branch t v s (.leave p reason) (goOn s [.locked .prepareRoom (.removePreparing p reason)])
  | leaveRunning (p : Nat) (reason : String) (hp : p ∈ s.room.players)
      (hs : s.room.roomState = .running) (hin : (s.room.obj p).inRoom = true) :
      Branch t v s (.leave p reason)
        (goOn (s.modify p fun o => { o with inRoom := false })
          [clearOnePlayerState p, .act (.markCleared p), .act (.freeSession p),
            .act (.kick p), .act (.markKicked reason)])
  | abortOutside (reason : String) (hs : s.room.closing = false) :
      Branch t v s (.abortRoomWithoutClearState reason)
        (abortEach t (s.setState .aborting) none s.room.players)
  | allocCancelled (hs : s.room.roomState ≠ .waitBattlePrepare) :
      Branch t v s .allocBattle (ret s (.refused "battle alloc cancled"))
  | allocBattle (hs : s.room.roomState = .waitBattlePrepare) :
      Branch t v s .allocBattle (call s .queryname [.act .allocPicked])
  | allocPicked (h : Nat) (hv : v = .handle h) :
      Branch t v s .allocPicked
        (call { s.withRoom { s.room with battleGateway := some h } with
            batchAllocs := s.batchAllocs + 1 }
          (.batchAlloc (s.room.players.filter fun p => (s.room.obj p).inRoom))
          [.act .allocGiven])
  | allocUnpicked (hv : ∀ h, v ≠ .handle h) : Branch t v s .allocPicked (raise s)
  | allocError (hv : v = .error) : Branch t v s .allocGiven (raise s)
  | allocGiven (l : List BattleInfo) (r : Room) (hv : v = .infos l)
      (hr : storeConvs s.room l = (r, true)) :
      Branch t v s .allocGiven
        (callScene t (({ s with given := l.map BattleInfo.conv ++ s.given } : Sys).withRoom r)
          (.batchAddPlayer (l.map fun info => (info.playerid, info.conv)))
          [.act (.allocAdded l)])
  | allocUnknown (l : List BattleInfo) (r : Room) (hv : v = .infos l)
      (hr : storeConvs s.room l = (r, false)) :
      Branch t v s .allocGiven
        (raise (({ s with given := l.map BattleInfo.conv ++ s.given } : Sys).withRoom r))
  | allocNothing (hv : ∀ l, v ≠ .infos l) :
      Branch t v s .allocGiven (ret s (.refused "battle_gateway batch_alloc失败"))
  | allocAdded (infos : List BattleInfo) (hv : v.truthy = true) :
      Branch t v s (.allocAdded infos) (ret (s.connectAll infos) (.ok true))
  | allocNotAdded (infos : List BattleInfo) (hv : v.truthy = false) :
      Branch t v s (.allocAdded infos) (allocFree s (infos.map BattleInfo.playerid))
  | allocFree (ps : List Nat) : Branch t v s (.allocFree ps) (allocFree s ps)
  | allocDone (hv : ∀ err, v ≠ .refused err) : Branch t v s .allocDone (ret s (.ok true))
  | allocAbort (err : String) (hv : v = .refused err) :
      Branch t v s .allocDone (abortRoom s err)
  | removeGone (p : Nat) (reason : String) (hp : p ∉ s.room.players) :
      Branch t v s (.removePreparing p reason) (ret s (.ok false))
  | removed (p : Nat) (reason : String) (hp : p ∈ s.room.players) :
      Branch t v s (.removePreparing p reason)
        (goOn (s.withRoom { s.room with players := s.room.players.filter (· ≠ p) })
          [clearOnePlayerState p, .act (.freeSession p), .act (.kick p),
            .act (.removeKicked reason)])
  | removeAbort (reason : String) (hcount : s.room.inroomPlayerCount < 2) :
      Branch t v s (.removeKicked reason) (abortRoom s.broadcastPreparedPlayers reason)
  | removeAlloc (reason : String) (hcount : 2 ≤ s.room.inroomPlayerCount)
      (hs : s.room.roomState = .waitPrepare) (hprep : s.room.allPrepared = true) :
      Branch t v s (.removeKicked reason)
        (goOn (s.broadcastPreparedPlayers.setState .waitBattlePrepare)
          [.act .allocBattle, .act .allocDone])
  | removeStart (reason : String) (hcount : 2 ≤ s.room.inroomPlayerCount)
      (hs : s.room.roomState = .waitBattlePrepare) (hready : s.room.allBattleReady = true) :
      Branch t v s (.removeKicked reason) (startRunning t s.broadcastPreparedPlayers)
  | removeDone (reason : String) (hcount : 2 ≤ s.room.inroomPlayerCount) :
      Branch t v s (.removeKicked reason) (ret s.broadcastPreparedPlayers (.ok true))
  | markCleared (p : Nat) : Branch t v s (.markCleared p) (markCleared s p)
  | markFinish (reason : String) (hcount : s.room.inroomPlayerCount ≤ 1) :
      Branch t v s (.markKicked reason) (finishRoom t s)
  | markDone (reason : String) (hcount : 1 < s.room.inroomPlayerCount) :
      Branch t v s (.markKicked reason) (ret s (.ok true))
  | startFailed (hv : v = .error) : Branch t v s .gameStarted (raise s)
  | startLate (hs : s.room.roomState ≠ .running) :
      Branch t v s .gameStarted (ret s (.ok false))
  | startRefused (hs : s.room.roomState = .running) (hv : v.truthy = false) :
      Branch t v s .gameStarted (abortRoom s "start_game失败")
  | gameStarted (hs : s.room.roomState = .running) (hv : v.truthy = true) :
      Branch t v s .gameStarted
        (goOn s [.locked .playerState .setPlayersRunning, .act .runningSet])
  | setPlayersRunning : Branch t v s .setPlayersRunning (setRunning s s.room.players)
  | setRunning (ps : List Nat) : Branch t v s (.setRunning ps) (setRunning s ps)
  | setLoaded (p : Nat) (ps : List Nat) (raw : Option StoredState) (hv : v = .record raw) :
      Branch t v s (.setLoaded p ps)
        (call s (.redisSet p { loadPlayerState p raw with state := .running }.encode)
          [.act .checked, .act (.setRunning ps)])
  | setFailed (p : Nat) (ps : List Nat) (hv : ∀ raw, v ≠ .record raw) :
      Branch t v s (.setLoaded p ps) (raise s)
  | runningSet : Branch t v s .runningSet (runningSet s)
  | roundOver (hs : s.room.roomState = .running) :
      Branch t v s .roundOver (finishRoom t s)
  | clearOne (p : Nat) : Branch t v s (.clearOne p) (call s (.redisDel p) [.act .checked])
  | clearInroom : Branch t v s .clearInroom (clearEach s s.room.players)
  | clearEach (ps : List Nat) : Branch t v s (.clearEach ps) (clearEach s ps)
  | checked (hv : v ≠ .error) : Branch t v s .checked (ret s .nil)
  | checkFailed (hv : v = .error) : Branch t v s .checked (raise s)
  | freeSession (p : Nat) :
      Branch t v s (.freeSession p) (freePlayerBattleSession s p [] (ret s .nil))
  | kick (p : Nat) : Branch t v s (.kick p) (callScene t s (.kickPlayer p) [])
  | abortPlayers (notify : Option String) :
      Branch t v s (.abortPlayers notify) (abortEach t s notify s.room.players)
  | abortFreed (notify : Option String) (p : Nat) (ps : List Nat) :
      Branch t v s (.abortFreed notify p ps) (abortEach t (s.dismiss notify p) notify ps)
  | closeRoom (final : RoomState) : Branch t v s (.closeRoom final) (closeRoom t s final)
  | finishWeighed (arr : List Nat) (stats : List (Nat × Int)) (r : Room)
      (hv : v = .weights stats ∨ stats = []) (hr : storeWeights s.room stats = (r, true)) :
      Branch t v s (.finishWeighed arr)
        (settleEach
          (s.withRoom (assignRanks r 1 (arr.insertionSort fun a b => rankBefore r a b = true)))
          arr.length (arr.insertionSort fun a b => rankBefore r a b = true))
  | finishUnknown (arr : List Nat) (stats : List (Nat × Int)) (r : Room)
      (hv : v = .weights stats) (hr : storeWeights s.room stats = (r, false)) :
      Branch t v s (.finishWeighed arr) (raise (s.withRoom r))
  | settleEach (total : Nat) (ps : List Nat) :
      Branch t v s (.settleEach total ps) (settleEach s total ps)

/-- Executing an act takes one of its branches. -/
theorem exec_branch (t : Nat) (a : Act) (v : Ans) (s : Sys) :
    Branch t v s a (exec t a v s) := by
  cases a with
  | initRoom list n =>
      simp only [exec, initRoom]
      split_ifs with hs haddr
      · exact .declined _ _ (.inl rfl)
      · exact .declined _ _ (.inl rfl)
      · exact .initialised list n (not_not.mp hs) haddr
  | prepareTimer => exact .prepareTimer
  | prepareTimeout =>
      simp only [exec, prepareTimeout]
      split_ifs with hs hall
      · exact .declined _ _ (.inr (.inl rfl))
      · exact .declined _ _ (.inr (.inl rfl))
      · exact .timedOut (not_not.mp hs)
  | prepare p =>
      simp only [exec, prepare]
      split_ifs with h₁ hs hp hprep hall
      · exact .declined _ _ (.inl rfl)
      · exact .declined _ _ (.inl rfl)
      · exact .declined _ _ (.inl rfl)
      · exact .allPrepared p (not_not.mp hs) hp hall
      · exact .prepared p (not_not.mp hs) hp
      · exact .declined _ _ (.inl rfl)
  | battleReady source p conv b =>
      simp only [exec, battleReady]
      split_ifs with hp hg hc hs
      · exact .declined _ _ (.inl rfl)
      · exact .declined _ _ (.inl rfl)
      · exact .readyStart source p conv b hp (not_not.mp hg) (not_not.mp hc)
          hs.1 hs.2.1 hs.2.2
      · exact .ready source p conv b hp (not_not.mp hg) (not_not.mp hc)
      · exact .declined _ _ (.inl rfl)
  | scenePlayerDead p killer =>
      simp only [exec, scenePlayerDead]
      split_ifs with hs
      · exact .declined _ _ (.inl rfl)
      · exact .dead p killer _ (not_not.mp hs)
  | scenePlayerRespawn p =>
      simp only [exec, scenePlayerRespawn]
      split_ifs with hs
      · exact .declined _ _ (.inl rfl)
      · exact .respawned p _ (not_not.mp hs)
  | leave p reason =>
      rw [exec, leave, markPlayerLeaveroom]
      split_ifs with hp hs hrun hin
      · exact .leavePreparing p reason hp hs
      · exact .declined _ _ (.inl rfl)
      · exact .leaveRunning p reason hp hrun (by simpa using hin)
      · exact .declined _ _ (.inl rfl)
      · exact .declined _ _ (.inl rfl)
  | abortRoomWithoutClearState reason =>
      simp only [exec, abortRoomWithoutClearState]
      split_ifs with hs
      · exact .declined _ _ (.inl rfl)
      · exact .abortOutside reason (by simpa using hs)
  | allocBattle =>
      simp only [exec, allocBattle]
      split_ifs with hs
      · exact .allocCancelled hs
      · exact .allocBattle (not_not.mp hs)
  | allocPicked =>
      simp only [exec, allocPicked]
      split
      · exact .allocPicked _ rfl
      · exact .allocUnpicked ‹_›
  | allocGiven =>
      simp only [exec, allocGiven]
      split
      · split
        · exact .allocUnknown _ _ rfl ‹_›
        · exact .allocGiven _ _ rfl ‹_›
      · exact .allocError rfl
      · exact .allocNothing ‹_›
  | allocAdded infos =>
      simp only [exec, allocAdded]
      split_ifs with hv
      · exact .allocAdded infos hv
      · exact .allocNotAdded infos (by simpa using hv)
  | allocFree ps => exact .allocFree ps
  | allocDone =>
      simp only [exec, allocDone]
      split
      · exact .allocAbort _ rfl
      · exact .allocDone ‹_›
  | removePreparing p reason =>
      simp only [exec, removePreparing]
      split_ifs with hp
      · exact .removed p reason hp
      · exact .removeGone p reason hp
  | removeKicked reason =>
      simp only [exec, removeKicked]
      have hroom : s.broadcastPreparedPlayers.room = s.room := rfl
      rw [hroom]
      split_ifs with hcount halloc hstart
      · exact .removeAbort reason hcount
      · exact .removeAlloc reason (not_lt.mp hcount) halloc.1 halloc.2
      · exact .removeStart reason (not_lt.mp hcount) hstart.1 hstart.2
      · exact .removeDone reason (not_lt.mp hcount)
  | markCleared p => exact .markCleared p
  | markKicked reason =>
      simp only [exec]
      split_ifs with hcount
      · exact .markFinish reason hcount
      · exact .markDone reason (not_le.mp hcount)
  | gameStarted =>
      simp only [exec, gameStarted]
      split_ifs with hv hs hok
      · exact .startFailed hv
      · exact .startLate hs
      · exact .startRefused (not_not.mp hs) hok
      · exact .gameStarted (not_not.mp hs) (by simpa using hok)
  | setPlayersRunning => exact .setPlayersRunning
  | setRunning ps => exact .setRunning ps
  | setLoaded p ps =>
      simp only [exec]
      split
      · exact .setLoaded p ps _ rfl
      · exact .setFailed p ps ‹_›
  | runningSet => exact .runningSet
  | roundTimer => exact .roundTimer
  | roundOver =>
      simp only [exec]
      split_ifs with hs
      · exact .roundOver hs
      · exact .declined _ _ (.inr (.inr rfl))
  | clearOne p => exact .clearOne p
  | clearInroom => exact .clearInroom
  | clearEach ps => exact .clearEach ps
  | checked =>
      simp only [exec]
      split_ifs with hv
      · exact .checkFailed hv
      · exact .checked hv
  | freeSession p => exact .freeSession p
  | kick p => exact .kick p
  | abortPlayers notify => exact .abortPlayers notify
  | abortFreed notify p ps => exact .abortFreed notify p ps
  | closeRoom final => exact .closeRoom final
  | finishWeighed arr =>
      have hlen : ∀ r : Room,
          (arr.insertionSort fun a b => rankBefore r a b = true).length = arr.length :=
        fun r => List.length_insertionSort _ _
      simp only [exec]
      split
      · simp only [finishWeighed]
        split
        · exact .finishUnknown arr _ _ rfl ‹_›
        · rw [hlen]
          exact .finishWeighed arr _ _ (.inl rfl) ‹_›
      · simp only [finishWeighed, storeWeights]
        rw [hlen]
        exact .finishWeighed arr [] s.room (.inr rfl) rfl
  | settleEach total ps => exact .settleEach total ps

/-! ## Aborting and finishing -/

theorem abortRoom_cases (s : Sys) (reason : String) :
    s.room.closing = true ∧ abortRoom s reason = ret s (.ok true) ∨
      s.room.closing = false ∧ abortRoom s reason =
        goOn (s.setState .aborting) [clearInroomPlayerState, .act (.abortPlayers (some reason))] := by
  rw [abortRoom]
  cases hc : s.room.closing with
  | true => exact .inl ⟨rfl, if_pos rfl⟩
  | false => exact .inr ⟨rfl, if_neg (by simp)⟩

theorem finishRoom_cases (t : Nat) (s : Sys) :
    s.room.closing = true ∧ finishRoom t s = ret s (.ok true) ∨
      s.room.closing = false ∧ finishRoom t s =
        callScene t
          (s.withRoom ({ s.room with roomState := .finishing }.modifyAll
            (Room.settleAlive s.room.now)))
          .getWeight [.act (.finishWeighed s.room.players)] := by
  rw [finishRoom]
  cases hc : s.room.closing with
  | true => exact .inl ⟨rfl, if_pos rfl⟩
  | false => exact .inr ⟨rfl, if_neg (by simp)⟩

/-! ## Loops -/

/-- A player has a session to be freed. -/
def Sys.hasSession (s : Sys) (p : Nat) : Prop :=
  s.room.battleGateway ≠ none ∧ (s.room.obj p).battleConv ≠ 0

theorem freePlayerBattleSession_cases (s : Sys) (p : Nat) (push : List (Code LockName Act))
    (next : Eff) :
    ¬s.hasSession p ∧ freePlayerBattleSession s p push next = next ∨
      s.hasSession p ∧ freePlayerBattleSession s p push next =
        call (s.dropSession p) (.free (s.room.obj p).battleConv) push := by
  rw [freePlayerBattleSession]
  split_ifs with h
  · refine .inl ⟨?_, rfl⟩
    rintro ⟨hg, hc⟩
    rcases h with h | h
    · exact hg h
    · exact hc h
  · push Not at h
    exact .inr ⟨h, rfl⟩

theorem setRunning_cases (s : Sys) (ps : List Nat) :
    (setRunning s ps = ret s .nil ∧
        ∀ p ∈ ps, ¬(p ∈ s.room.players ∧ (s.room.obj p).inRoom = true)) ∨
      ∃ p rest, setRunning s ps = call s (.redisGet p) [.act (.setLoaded p rest)] ∧
        p ∈ s.room.players ∧ (s.room.obj p).inRoom = true ∧ p :: rest ⊆ ps := by
  induction ps with
  | nil => exact .inl ⟨rfl, by simp⟩
  | cons q ps ih =>
      by_cases hq : q ∈ s.room.players ∧ (s.room.obj q).inRoom = true
      · exact .inr ⟨q, ps, by simp [setRunning, hq], hq.1, hq.2, List.Subset.refl _⟩
      · rw [show setRunning s (q :: ps) = setRunning s ps by simp only [setRunning, if_neg hq]]
        rcases ih with ⟨he, hnone⟩ | ⟨p, rest, he, hp, hin, hsub⟩
        · exact .inl ⟨he, List.forall_mem_cons.mpr ⟨hq, hnone⟩⟩
        · exact .inr ⟨p, rest, he, hp, hin, List.subset_cons_of_subset _ hsub⟩

theorem clearEach_cases (s : Sys) (ps : List Nat) :
    (clearEach s ps = ret s .nil ∧
        ∀ p ∈ ps, ¬(p ∈ s.room.players ∧ (s.room.obj p).inRoom = true)) ∨
      ∃ skipped p rest, ps = skipped ++ p :: rest ∧
        clearEach s ps = call s (.redisDel p) [.act .checked, .act (.clearEach rest)] ∧
        p ∈ s.room.players ∧ (s.room.obj p).inRoom = true ∧
        ∀ q ∈ skipped, ¬(q ∈ s.room.players ∧ (s.room.obj q).inRoom = true) := by
  induction ps with
  | nil => exact .inl ⟨rfl, by simp⟩
  | cons q ps ih =>
      by_cases hq : q ∈ s.room.players ∧ (s.room.obj q).inRoom = true
      · exact .inr ⟨[], q, ps, rfl, by simp [clearEach, hq], hq.1, hq.2, by simp⟩
      · rw [show clearEach s (q :: ps) = clearEach s ps by simp only [clearEach, if_neg hq]]
        rcases ih with ⟨he, hnone⟩ | ⟨skipped, p, rest, hps, he, hp, hin, hnone⟩
        · exact .inl ⟨he, List.forall_mem_cons.mpr ⟨hq, hnone⟩⟩
        · exact .inr ⟨q :: skipped, p, rest, by simp [hps], he, hp, hin,
            List.forall_mem_cons.mpr ⟨hq, hnone⟩⟩

theorem allocFree_cases (s : Sys) (ps : List Nat) :
    (allocFree s ps = ret s (.refused "scene batch_add_player失败") ∧
        ∀ p ∈ ps, p ∈ s.room.players → ¬s.hasSession p) ∨
      ∃ skipped p rest, ps = skipped ++ p :: rest ∧
        allocFree s ps = call (s.dropSession p) (.free (s.room.obj p).battleConv)
          [.act (.allocFree rest)] ∧
        p ∈ s.room.players ∧ s.hasSession p ∧
        ∀ q ∈ skipped, q ∈ s.room.players → ¬s.hasSession q := by
  induction ps with
  | nil => exact .inl ⟨rfl, by simp⟩
  | cons q ps ih =>
      by_cases hstop : q ∈ s.room.players ∧ s.hasSession q
      · refine .inr ⟨[], q, ps, rfl, ?_, hstop.1, hstop.2, by simp⟩
        have h := freePlayerBattleSession_cases s q [.act (.allocFree ps)] (allocFree s ps)
        rw [allocFree, if_pos hstop.1]
        exact (h.resolve_left fun h => h.1 hstop.2).2
      · have hskip : allocFree s (q :: ps) = allocFree s ps := by
          rw [allocFree]
          split_ifs with hq
          · have hno : ¬s.hasSession q := fun h => hstop ⟨hq, h⟩
            have h := freePlayerBattleSession_cases s q [.act (.allocFree ps)] (allocFree s ps)
            exact (h.resolve_right fun h => hno h.1).2
          · rfl
        rw [hskip]
        have hq : q ∈ s.room.players → ¬s.hasSession q := fun hq h => hstop ⟨hq, h⟩
        rcases ih with ⟨he, hnone⟩ | ⟨skipped, p, rest, hps, he, hp, hs, hnone⟩
        · exact .inl ⟨he, List.forall_mem_cons.mpr ⟨hq, hnone⟩⟩
        · exact .inr ⟨q :: skipped, p, rest, by simp [hps], he, hp, hs,
            List.forall_mem_cons.mpr ⟨hq, hnone⟩⟩

/-- Send mail without changing anything else. -/
def Sys.post (s : Sys) (m : List (Nat × AgentMsg)) : Sys := { s with mail := m ++ s.mail }

attribute [simp] Sys.post

theorem Sys.post_post (s : Sys) (m n : List (Nat × AgentMsg)) :
    (s.post m).post n = s.post (n ++ m) := by
  simp

/-- The mail {lit}`dismiss` sends. -/
def dismissal (notify : Option String) (p : Nat) : List (Nat × AgentMsg) :=
  match notify with
  | none => []
  | some reason => [(p, .roomDismiss reason)]

theorem Sys.dismiss_eq_post (s : Sys) (notify : Option String) (p : Nat) :
    s.dismiss notify p = s.post (dismissal notify p) := by
  cases notify <;> rfl

/-- The mail of the loop of {lit}`abort_room`, newest first. -/
def dismissals (r : Room) (notify : Option String) (ps : List Nat) : List (Nat × AgentMsg) :=
  (ps.filter (· ∈ r.players)).reverse.flatMap (dismissal notify)

theorem dismissals_cons (r : Room) (notify : Option String) (q : Nat) (ps : List Nat) :
    dismissals r notify (q :: ps) =
      dismissals r notify ps ++ if q ∈ r.players then dismissal notify q else [] := by
  by_cases hq : q ∈ r.players <;> simp [dismissals, hq]

theorem abortEach_cases (t : Nat) (s : Sys) (notify : Option String) (ps : List Nat) :
    (abortEach t s notify ps = closeRoom t (s.post (dismissals s.room notify ps)) .aborted ∧
        ∀ p ∈ ps, p ∈ s.room.players → ¬s.hasSession p) ∨
      ∃ skipped p rest, ps = skipped ++ p :: rest ∧
        abortEach t s notify ps =
          call ((s.post (dismissals s.room notify skipped)).dropSession p)
            (.free (s.room.obj p).battleConv) [.act (.abortFreed notify p rest)] ∧
        p ∈ s.room.players ∧ s.hasSession p ∧
        ∀ q ∈ skipped, q ∈ s.room.players → ¬s.hasSession q := by
  induction ps generalizing s with
  | nil => exact .inl ⟨by simp [abortEach, dismissals], by simp⟩
  | cons q ps ih =>
      by_cases hstop : q ∈ s.room.players ∧ s.hasSession q
      · refine .inr ⟨[], q, ps, rfl, ?_, hstop.1, hstop.2, by simp⟩
        have h := freePlayerBattleSession_cases s q [.act (.abortFreed notify q ps)]
          (abortEach t (s.dismiss notify q) notify ps)
        rw [abortEach, if_pos hstop.1]
        exact (h.resolve_left fun h => h.1 hstop.2).2
      · let m := if q ∈ s.room.players then dismissal notify q else []
        have hskip : abortEach t s notify (q :: ps) = abortEach t (s.post m) notify ps := by
          rw [abortEach]
          split_ifs with hq
          · have hno : ¬s.hasSession q := fun h => hstop ⟨hq, h⟩
            have h := freePlayerBattleSession_cases s q [.act (.abortFreed notify q ps)]
              (abortEach t (s.dismiss notify q) notify ps)
            rw [(h.resolve_right fun h => hno h.1).2, Sys.dismiss_eq_post]
            simp [m, hq]
          · simp [m, hq]
        have hq : q ∈ s.room.players → ¬s.hasSession q := fun hq h => hstop ⟨hq, h⟩
        have hpost : ∀ ps, (s.post m).post (dismissals s.room notify ps) =
            s.post (dismissals s.room notify (q :: ps)) := by
          intro ps
          rw [Sys.post_post, dismissals_cons]
        rw [hskip]
        rcases ih (s.post m) with ⟨he, hnone⟩ | ⟨skipped, p, rest, hps, he, hp, hs, hnone⟩
        · refine .inl ⟨?_, List.forall_mem_cons.mpr ⟨hq, hnone⟩⟩
          rw [he]
          exact congrArg (closeRoom t · .aborted) (hpost ps)
        · refine .inr ⟨q :: skipped, p, rest, by simp [hps], ?_, hp, hs,
            List.forall_mem_cons.mpr ⟨hq, hnone⟩⟩
          rw [he]
          exact congrArg (fun s' : Sys => call (s'.dropSession p) _ _) (hpost skipped)

/-- The result {lit}`finish_room` sends to a player. -/
def resultMail (s : Sys) (total p : Nat) : Nat × AgentMsg :=
  let reward := calcReward total (s.room.obj p).rank
  (p, .battleResult (s.room.obj p).rank (s.room.obj p).weightScore reward.1 reward.2.1 reward.2.2)

/-- The mail of the loop of {lit}`finish_room`, newest first. -/
def resultMails (s : Sys) (total : Nat) (ps : List Nat) : List (Nat × AgentMsg) :=
  ps.reverse.map (resultMail s total)

theorem settleEach_cases (s : Sys) (total : Nat) (ps : List Nat) :
    (settleEach s total ps = goOn (s.post (resultMails s total ps))
        [clearInroomPlayerState, .act (.closeRoom .finished)] ∧ ∀ p ∈ ps, ¬s.hasSession p) ∨
      ∃ skipped p rest, ps = skipped ++ p :: rest ∧
        settleEach s total ps =
          call ((s.post (resultMails s total (skipped ++ [p]))).dropSession p)
            (.free (s.room.obj p).battleConv) [.act (.settleEach total rest)] ∧
        s.hasSession p ∧ ∀ q ∈ skipped, ¬s.hasSession q := by
  induction ps generalizing s with
  | nil => exact .inl ⟨by simp [settleEach, resultMails], by simp⟩
  | cons q ps ih =>
      let s₁ := s.post [resultMail s total q]
      have hstep : settleEach s total (q :: ps) =
          freePlayerBattleSession s₁ q [.act (.settleEach total ps)] (settleEach s₁ total ps) := rfl
      have hpost : ∀ ps, s₁.post (resultMails s₁ total ps) =
          s.post (resultMails s total (q :: ps)) := by
        intro ps
        simp [s₁, resultMails, resultMail]
      rw [hstep]
      rcases freePlayerBattleSession_cases s₁ q [.act (.settleEach total ps)]
        (settleEach s₁ total ps) with ⟨hno, he⟩ | ⟨hs, he⟩
      · have hq : ¬s.hasSession q := hno
        rw [he]
        rcases ih s₁ with ⟨he, hnone⟩ | ⟨skipped, p, rest, hps, he, hs, hnone⟩
        · refine .inl ⟨?_, List.forall_mem_cons.mpr ⟨hq, hnone⟩⟩
          rw [he, hpost]
        · refine .inr ⟨q :: skipped, p, rest, by simp [hps], ?_, hs,
            List.forall_mem_cons.mpr ⟨hq, hnone⟩⟩
          rw [he, hpost]
          rfl
      · exact .inr ⟨[], q, ps, rfl, he, hs, by simp⟩

end BallServer.RoomService
