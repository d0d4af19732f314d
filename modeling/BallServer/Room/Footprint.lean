import BallServer.Room.Shape

/-!
# What the acts of the room leave alone

Most acts change only a few variables.  Who is in the table {lit}`players`, who has
prepared and who is still in the room changes in four acts; the room's state moves
along fixed edges; redis, the gateway and the match service are never touched by
the room's own code, and of the scene only its inbox is.

Main results:

- Theorem {lit}`exec_sameTable`: the table changes only where
  {lit}`Act.editsTable` says.
- Theorem {lit}`exec_roomMove`: the edges of {lit}`room_state`, each with the guard
  under which it is taken.
- Theorem {lit}`exec_kept`: what belongs to other services stays as it is.
-/

namespace BallServer.RoomService

open BallServer Coroutine

/-! ## The table of players -/

/-- Two rooms with the same players, prepared or not, in the room or not. -/
structure Room.SameTable (r r' : Room) : Prop where
  players : r'.players = r.players
  sceneAddr : r'.sceneAddr = r.sceneAddr
  prepared : ∀ p, (r'.obj p).prepared = (r.obj p).prepared
  inRoom : ∀ p, (r'.obj p).inRoom = (r.obj p).inRoom

namespace Room.SameTable

variable {r r' r'' : Room}

theorem refl (r : Room) : r.SameTable r := ⟨rfl, rfl, fun _ => rfl, fun _ => rfl⟩

theorem trans (h : r.SameTable r') (h' : r'.SameTable r'') : r.SameTable r'' where
  players := h'.players.trans h.players
  sceneAddr := h'.sceneAddr.trans h.sceneAddr
  prepared p := (h'.prepared p).trans (h.prepared p)
  inRoom p := (h'.inRoom p).trans (h.inRoom p)

/-- Changing other fields of a player object. -/
theorem modify (r : Room) (p : Nat) {f : Player → Player}
    (hf : ∀ o, (f o).prepared = o.prepared ∧ (f o).inRoom = o.inRoom) :
    r.SameTable (r.modify p f) := by
  refine ⟨rfl, rfl, fun q => ?_, fun q => ?_⟩ <;> by_cases hq : q = p
  · subst hq
    simp [hf]
  · simp [hq]
  · subst hq
    simp [hf]
  · simp [hq]

/-- Changing other fields of all player objects. -/
theorem modifyAll (r : Room) {f : Player → Player}
    (hf : ∀ o, (f o).prepared = o.prepared ∧ (f o).inRoom = o.inRoom) :
    r.SameTable (r.modifyAll f) := by
  refine ⟨rfl, rfl, fun q => ?_, fun q => ?_⟩ <;> by_cases hq : q ∈ r.players <;>
    simp [hq, hf]

theorem storeConvs (r : Room) (l : List BattleInfo) :
    r.SameTable (storeConvs r l).1 := by
  induction l generalizing r with
  | nil => exact refl r
  | cons info l ih =>
      rw [RoomService.storeConvs]
      split_ifs with hp
      · exact (modify r info.playerid (fun _ => by simp)).trans (ih _)
      · exact refl r

theorem storeWeights (r : Room) (l : List (Nat × Int)) :
    r.SameTable (storeWeights r l).1 := by
  induction l generalizing r with
  | nil => exact refl r
  | cons e l ih =>
      rw [RoomService.storeWeights]
      split_ifs with hp
      · exact (modify r e.1 (fun _ => by simp)).trans (ih _)
      · exact refl r

theorem assignRanks (r : Room) (i : Nat) (l : List Nat) : r.SameTable (assignRanks r i l) := by
  induction l generalizing r i with
  | nil => exact refl r
  | cons p l ih => exact (modify r p (fun _ => by simp)).trans (ih _ _)

theorem onPlayerDead (r : Room) (p killer : Nat) : r.SameTable (r.onPlayerDead p killer).1 := by
  simp only [Room.onPlayerDead]
  split_ifs
  · exact refl r
  · dsimp only
    exact (modify r p fun _ => by simp).trans (modify _ killer fun _ => by simp)
  · exact refl r

theorem onPlayerRespawn (r : Room) (p : Nat) : r.SameTable (r.onPlayerRespawn p).1 := by
  simp only [Room.onPlayerRespawn]
  split_ifs
  · exact refl r
  · dsimp only
    exact modify r p fun _ => by simp

theorem dropSession (s : Sys) (p : Nat) : s.room.SameTable (s.dropSession p).room := by
  dsimp only [Sys.dropSession, Sys.modify, Sys.withRoom]
  exact modify s.room p fun _ => by simp

theorem allPrepared (h : r.SameTable r') : r'.allPrepared = r.allPrepared := by
  simp only [Room.allPrepared, h.players, h.prepared]

theorem inroomPlayerCount (h : r.SameTable r') :
    r'.inroomPlayerCount = r.inroomPlayerCount := by
  simp only [Room.inroomPlayerCount, h.players, h.inRoom]

end Room.SameTable

/-- Closing the room changes only its state. -/
theorem closeRoom_room (t : Nat) (s : Sys) (final : RoomState) :
    (closeRoom t s final).state.room = { s.room with roomState := final } := by
  simp only [closeRoom]
  split <;> rfl

theorem abortEach_sameTable (t : Nat) (s : Sys) (notify : Option String) (ps : List Nat) :
    s.room.SameTable (abortEach t s notify ps).state.room := by
  rcases abortEach_cases t s notify ps with ⟨he, -⟩ | ⟨skipped, p, rest, -, he, -⟩
  · rw [he, closeRoom_room]
    exact ⟨rfl, rfl, fun _ => rfl, fun _ => rfl⟩
  · rw [he]
    exact .dropSession _ p

theorem settleEach_sameTable (s : Sys) (total : Nat) (ps : List Nat) :
    s.room.SameTable (settleEach s total ps).state.room := by
  rcases settleEach_cases s total ps with ⟨he, -⟩ | ⟨skipped, p, rest, -, he, -⟩
  · rw [he]
    exact .refl _
  · rw [he]
    exact .dropSession _ p

theorem allocFree_sameTable (s : Sys) (ps : List Nat) :
    s.room.SameTable (allocFree s ps).state.room := by
  rcases allocFree_cases s ps with ⟨he, -⟩ | ⟨skipped, p, rest, -, he, -⟩
  · rw [he]
    exact .refl _
  · rw [he]
    exact .dropSession _ p

theorem setRunning_state (s : Sys) (ps : List Nat) : (setRunning s ps).state = s := by
  rcases setRunning_cases s ps with ⟨he, -⟩ | ⟨p, rest, he, -⟩ <;> rw [he] <;> rfl

theorem clearEach_state (s : Sys) (ps : List Nat) : (clearEach s ps).state = s := by
  rcases clearEach_cases s ps with ⟨he, -⟩ | ⟨skipped, p, rest, -, he, -⟩ <;> rw [he] <;> rfl

theorem abortRoom_sameTable (s : Sys) (reason : String) :
    s.room.SameTable (abortRoom s reason).state.room := by
  rcases abortRoom_cases s reason with ⟨-, he⟩ | ⟨-, he⟩ <;> rw [he] <;>
    exact ⟨rfl, rfl, fun _ => rfl, fun _ => rfl⟩

theorem settleAlive_flags (now : Int) (o : Player) :
    (Room.settleAlive now o).prepared = o.prepared ∧
      (Room.settleAlive now o).inRoom = o.inRoom := by
  rw [Room.settleAlive]
  split_ifs <;> exact ⟨rfl, rfl⟩

theorem finishRoom_sameTable (t : Nat) (s : Sys) :
    s.room.SameTable (finishRoom t s).state.room := by
  rcases finishRoom_cases t s with ⟨-, he⟩ | ⟨-, he⟩ <;> rw [he]
  · exact .refl _
  · have h : s.room.SameTable { s.room with roomState := .finishing } :=
      ⟨rfl, rfl, fun _ => rfl, fun _ => rfl⟩
    exact h.trans (.modifyAll _ (settleAlive_flags _))

theorem freeSession_sameTable (s : Sys) (p : Nat) (v : Ans) :
    s.room.SameTable (freePlayerBattleSession s p [] (ret s v)).state.room := by
  rcases freePlayerBattleSession_cases s p [] (ret s v) with ⟨-, he⟩ | ⟨-, he⟩ <;> rw [he]
  · exact .refl _
  · exact .dropSession s p

theorem connectAll_room (s : Sys) (l : List BattleInfo) : (s.connectAll l).room = s.room := by
  induction l generalizing s with
  | nil => rfl
  | cons info l ih =>
      rw [Sys.connectAll]
      split_ifs
      · rw [ih]
        rfl
      · exact ih s

theorem dismiss_room (s : Sys) (notify : Option String) (p : Nat) :
    (s.dismiss notify p).room = s.room := by
  cases notify <;> rfl

/-- The acts that edit the table: they fill it, mark a player as prepared or as
gone, or remove one. -/
def Act.editsTable : Act → Bool
  | .initRoom .. | .prepare _ | .leave .. | .removePreparing .. => true
  | _ => false

/-- All other acts leave the table as it is. -/
theorem exec_sameTable (t : Nat) {a : Act} (v : Ans) (s : Sys) (ha : a.editsTable = false) :
    s.room.SameTable (exec t a v s).state.room := by
  have h := exec_branch t a v s
  generalize exec t a v s = e at h ⊢
  cases h with
  | initialised | prepared | allPrepared | leavePreparing | leaveRunning | removeGone
  | removed => cases ha
  | timedOut => exact abortRoom_sameTable s _
  | ready source p conv b =>
      dsimp only [ret, Sys.modify, Sys.withRoom]
      exact .modify s.room p fun _ => by simp
  | readyStart source p conv b =>
      have h : s.room.SameTable (s.room.modify p fun o => { o with battleReady := b }) :=
        .modify s.room p fun _ => by simp
      exact h.trans ⟨rfl, rfl, fun _ => rfl, fun _ => rfl⟩
  | dead p killer => exact .onPlayerDead s.room p killer
  | respawned p => exact .onPlayerRespawn s.room p
  | abortOutside =>
      have h : s.room.SameTable (s.setState .aborting).room :=
        ⟨rfl, rfl, fun _ => rfl, fun _ => rfl⟩
      exact h.trans (abortEach_sameTable t _ _ _)
  | allocGiven l r hv hr =>
      have h := Room.SameTable.storeConvs s.room l
      rw [hr] at h
      exact h
  | allocUnknown l r hv hr =>
      have h := Room.SameTable.storeConvs s.room l
      rw [hr] at h
      exact h
  | allocAdded infos =>
      rw [ret, connectAll_room]
      exact .refl _
  | allocNotAdded infos => exact allocFree_sameTable s _
  | allocFree ps => exact allocFree_sameTable s ps
  | allocAbort err => exact abortRoom_sameTable s err
  | removeAbort reason => exact abortRoom_sameTable s.broadcastPreparedPlayers reason
  | markCleared p =>
      dsimp only [markCleared, ret, Sys.modify, Sys.withRoom]
      exact .modify s.room p fun _ => by simp
  | markFinish => exact finishRoom_sameTable t s
  | startRefused => exact abortRoom_sameTable s _
  | setPlayersRunning =>
      rw [setRunning_state]
      exact .refl _
  | setRunning ps =>
      rw [setRunning_state]
      exact .refl _
  | runningSet =>
      dsimp only [runningSet, Sys.withRoom]
      refine .modifyAll s.room fun o => ?_
      split_ifs <;> exact ⟨rfl, rfl⟩
  | roundOver => exact finishRoom_sameTable t s
  | clearInroom =>
      rw [clearEach_state]
      exact .refl _
  | clearEach ps =>
      rw [clearEach_state]
      exact .refl _
  | freeSession p => exact freeSession_sameTable s p .nil
  | abortPlayers notify => exact abortEach_sameTable t s notify _
  | abortFreed notify p ps =>
      have h := abortEach_sameTable t (s.dismiss notify p) notify ps
      rwa [dismiss_room] at h
  | closeRoom final =>
      rw [closeRoom_room]
      exact ⟨rfl, rfl, fun _ => rfl, fun _ => rfl⟩
  | finishWeighed arr stats r hv hr =>
      have h := Room.SameTable.storeWeights s.room stats
      rw [hr] at h
      let settled := arr.insertionSort fun a b => rankBefore r a b = true
      have hloop := settleEach_sameTable (s.withRoom (assignRanks r 1 settled)) arr.length settled
      exact (h.trans (.assignRanks r 1 settled)).trans hloop
  | finishUnknown arr stats r hv hr =>
      have h := Room.SameTable.storeWeights s.room stats
      rw [hr] at h
      exact h
  | settleEach total ps => exact settleEach_sameTable s total ps
  | _ => exact ⟨rfl, rfl, fun _ => rfl, fun _ => rfl⟩

/-- {lit}`init_room` makes a new player object for everybody on its list. -/
theorem initialised_obj (s : Sys) (list : List PlayerInfo) (n : Nat) {p : Nat}
    (hp : p ∈ (s.initialised list n).room.players) :
    ∃ info ∈ list, info.playerid = p ∧ (s.initialised list n).room.obj p = newPlayer info := by
  have hmem : p ∈ list.map PlayerInfo.playerid := List.mem_dedup.mp hp
  clear hp
  simp only [Sys.initialised, Sys.withRoom]
  induction list using List.reverseRecOn with
  | nil => cases hmem
  | append_singleton list info ih =>
      rw [List.foldl_append]
      by_cases hinfo : info.playerid = p
      · exact ⟨info, by simp, hinfo, by simp [hinfo]⟩
      · have hold : p ∈ list.map PlayerInfo.playerid := by
          rw [List.map_append, List.mem_append] at hmem
          rcases hmem with h | h
          · exact h
          · exact (hinfo (by simpa [eq_comm] using h)).elim
        obtain ⟨info', hin, hid, hobj⟩ := ih hold
        exact ⟨info', by simp [hin], hid, by simp [Ne.symm hinfo, hobj]⟩

/-- Where the table of players has come from. -/
theorem exec_players (t : Nat) (a : Act) (v : Ans) (s : Sys) :
    (exec t a v s).state.room.players = s.room.players ∨
      (∃ list n, a = .initRoom list n ∧ s.room.roomState = .uninit ∧
        (exec t a v s).state = s.initialised list n) ∨
      ∃ p reason, a = .removePreparing p reason ∧ p ∈ s.room.players ∧
        (exec t a v s).state.room.players = s.room.players.filter (· ≠ p) := by
  cases ha : a.editsTable with
  | false => exact .inl (exec_sameTable t v s ha).players
  | true =>
      have h := exec_branch t a v s
      generalize exec t a v s = e at h ⊢
      cases h with
      | initialised list n hs => exact .inr (.inl ⟨list, n, rfl, hs, rfl⟩)
      | removed p reason hp => exact .inr (.inr ⟨p, reason, rfl, hp, rfl⟩)
      | declined | prepared | allPrepared | leavePreparing | leaveRunning | removeGone =>
          exact .inl rfl
      | _ => cases ha

/-- Nobody leaves the room before the game has started, except by leaving the
table. -/
theorem exec_inRoom (t : Nat) (a : Act) (v : Ans) (s : Sys) (p : Nat) :
    ((exec t a v s).state.room.obj p).inRoom = (s.room.obj p).inRoom ∨
      (∃ list n, a = .initRoom list n ∧ s.room.roomState = .uninit ∧
        (exec t a v s).state = s.initialised list n) ∨
      ∃ reason, a = .leave p reason ∧ p ∈ s.room.players ∧ s.room.roomState = .running ∧
        (s.room.obj p).inRoom = true ∧ ((exec t a v s).state.room.obj p).inRoom = false := by
  cases ha : a.editsTable with
  | false => exact .inl ((exec_sameTable t v s ha).inRoom p)
  | true =>
      have h := exec_branch t a v s
      generalize exec t a v s = e at h ⊢
      cases h with
      | initialised list n hs => exact .inr (.inl ⟨list, n, rfl, hs, rfl⟩)
      | leaveRunning q reason hq hs hin =>
          by_cases hp : p = q
          · subst hp
            exact .inr (.inr ⟨reason, rfl, hq, hs, hin, by simp⟩)
          · exact .inl (by simp [hp])
      | prepared q | allPrepared q =>
          refine .inl ?_
          by_cases hp : p = q
          · subst hp
            simp [Sys.setPrepared, Sys.broadcastPreparedPlayers]
          · simp [Sys.setPrepared, Sys.broadcastPreparedPlayers, hp]
      | declined | leavePreparing | removeGone | removed => exact .inl rfl
      | _ => cases ha

/-- A player that has prepared stays prepared. -/
theorem exec_prepared (t : Nat) (a : Act) (v : Ans) (s : Sys) (p : Nat)
    (hs : s.room.roomState ≠ .uninit) (hp : (s.room.obj p).prepared = true) :
    ((exec t a v s).state.room.obj p).prepared = true := by
  cases ha : a.editsTable with
  | false => exact ((exec_sameTable t v s ha).prepared p).trans hp
  | true =>
      have h := exec_branch t a v s
      generalize exec t a v s = e at h ⊢
      cases h with
      | initialised list n hs' => exact (hs hs').elim
      | leaveRunning q =>
          by_cases hq : p = q
          · subst hq
            simpa using hp
          · simpa [hq] using hp
      | prepared q | allPrepared q =>
          by_cases hq : p = q
          · subst hq
            simp [Sys.setPrepared, Sys.broadcastPreparedPlayers]
          · simpa [Sys.setPrepared, Sys.broadcastPreparedPlayers, hq] using hp
      | declined | leavePreparing | removeGone | removed => exact hp
      | _ => cases ha

/-- Everybody stays prepared. -/
theorem exec_allPrepared (t : Nat) (a : Act) (v : Ans) (s : Sys)
    (hs : s.room.roomState ≠ .uninit) (h : s.room.allPrepared = true) :
    (exec t a v s).state.room.allPrepared = true := by
  simp only [Room.allPrepared, List.all_eq_true] at h ⊢
  intro p hp
  refine exec_prepared t a v s p hs (h p ?_)
  rcases exec_players t a v s with he | ⟨list, n, -, hs', -⟩ | ⟨q, reason, -, -, he⟩
  · rwa [he] at hp
  · exact (hs hs').elim
  · rw [he] at hp
    exact (List.mem_filter.mp hp).1

/-! ## The room's state -/

theorem abortRoom_roomState (s : Sys) (reason : String) :
    (abortRoom s reason).state.room.roomState =
      if s.room.closing then s.room.roomState else .aborting := by
  rcases abortRoom_cases s reason with ⟨hc, he⟩ | ⟨hc, he⟩ <;> rw [he] <;> simp [hc]

theorem finishRoom_roomState (t : Nat) (s : Sys) :
    (finishRoom t s).state.room.roomState =
      if s.room.closing then s.room.roomState else .finishing := by
  rcases finishRoom_cases t s with ⟨hc, he⟩ | ⟨hc, he⟩ <;> rw [he] <;> simp [hc]

/-- The loop of an abort ends in {lit}`ABORTED` or goes on later. -/
theorem abortEach_roomState (t : Nat) (s : Sys) (notify : Option String) (ps : List Nat) :
    (abortEach t s notify ps).state.room.roomState = .aborted ∨
      (abortEach t s notify ps).state.room.roomState = s.room.roomState := by
  rcases abortEach_cases t s notify ps with ⟨he, -⟩ | ⟨skipped, p, rest, -, he, -⟩
  · exact .inl (by rw [he, closeRoom_room])
  · exact .inr (by rw [he]; rfl)

theorem settleEach_roomState (s : Sys) (total : Nat) (ps : List Nat) :
    (settleEach s total ps).state.room.roomState = s.room.roomState := by
  rcases settleEach_cases s total ps with ⟨he, -⟩ | ⟨skipped, p, rest, -, he, -⟩ <;> rw [he] <;> rfl

theorem allocFree_roomState (s : Sys) (ps : List Nat) :
    (allocFree s ps).state.room.roomState = s.room.roomState := by
  rcases allocFree_cases s ps with ⟨he, -⟩ | ⟨skipped, p, rest, -, he, -⟩ <;> rw [he] <;> rfl

theorem freeSession_roomState (s : Sys) (p : Nat) (v : Ans) :
    (freePlayerBattleSession s p [] (ret s v)).state.room.roomState = s.room.roomState := by
  rcases freePlayerBattleSession_cases s p [] (ret s v) with ⟨-, he⟩ | ⟨-, he⟩ <;> rw [he] <;> rfl

theorem storeConvs_roomState (r : Room) (l : List BattleInfo) :
    (storeConvs r l).1.roomState = r.roomState := by
  induction l generalizing r with
  | nil => rfl
  | cons info l ih =>
      rw [storeConvs]
      split_ifs
      · rw [ih]
        rfl
      · rfl

theorem storeWeights_roomState (r : Room) (l : List (Nat × Int)) :
    (storeWeights r l).1.roomState = r.roomState := by
  induction l generalizing r with
  | nil => rfl
  | cons e l ih =>
      rw [storeWeights]
      split_ifs
      · rw [ih]
        rfl
      · rfl

theorem assignRanks_roomState (r : Room) (i : Nat) (l : List Nat) :
    (assignRanks r i l).roomState = r.roomState := by
  induction l generalizing r i with
  | nil => rfl
  | cons p l ih => exact ih _ _

theorem onPlayerDead_roomState (r : Room) (p killer : Nat) :
    (r.onPlayerDead p killer).1.roomState = r.roomState := by
  simp only [Room.onPlayerDead]
  split_ifs <;> rfl

theorem onPlayerRespawn_roomState (r : Room) (p : Nat) :
    (r.onPlayerRespawn p).1.roomState = r.roomState := by
  simp only [Room.onPlayerRespawn]
  split_ifs <;> rfl

/-- The final state an act is on the way to. -/
def Act.closes : Act → Option RoomState
  | .abortPlayers _ | .abortFreed .. => some .aborted
  | .finishWeighed _ | .settleEach .. => some .finished
  | .closeRoom final => some final
  | _ => none

/-- A room is closed in one of the two final states. -/
theorem closes_final {a : Act} {rest : List Act} {final : RoomState} (h : Follows a rest)
    (ha : a.closes = some final) : final = .aborted ∨ final = .finished := by
  cases a with
  | abortPlayers | abortFreed =>
      cases ha
      exact .inl rfl
  | finishWeighed | settleEach =>
      cases ha
      exact .inr rfl
  | closeRoom =>
      cases ha
      exact .inr h.1
  | _ => cases ha

/-- The message is a {lit}`battle_ready` that is accepted and makes everybody
ready. -/
def Sys.completesReadiness (s : Sys) : Act → Prop
  | .battleReady source p conv ready =>
      p ∈ s.room.players ∧ s.room.battleGateway = some source ∧
        (s.room.obj p).battleConv = conv ∧ s.room.roomState = .waitBattlePrepare ∧
        (s.modify p fun o => { o with battleReady := ready }).room.allPrepared = true ∧
        (s.modify p fun o => { o with battleReady := ready }).room.allBattleReady = true
  | _ => False

/-- The acts that abort a room that is not being closed. -/
def Sys.aborts (s : Sys) : Act → Prop
  | .prepareTimeout => s.room.roomState = .waitPrepare
  | .gameStarted => s.room.roomState = .running
  | .allocDone | .removeKicked _ | .abortRoomWithoutClearState _ => True
  | _ => False

/-- The edges of {lit}`room_state`: how an act with effect {lit}`e` moves it. -/
inductive RoomMove (s : Sys) : Act → Eff → Prop where
  | stay (a : Act) (e : Eff) (he : e.state.room.roomState = s.room.roomState) : RoomMove s a e
  | initialised (list : List PlayerInfo) (n : Nat) (e : Eff)
      (hs : s.room.roomState = .uninit) (he : e.state = s.initialised list n) :
      RoomMove s (.initRoom list n) e
  | prepared (a : Act) (e : Eff) (hs : s.room.roomState = .waitPrepare)
      (he : e.state.room.roomState = .waitBattlePrepare)
      (hprep : e.state.room.allPrepared = true)
      (ha : (∃ p, a = .prepare p) ∨
        ∃ reason, a = .removeKicked reason ∧ 2 ≤ s.room.inroomPlayerCount) :
      RoomMove s a e
  | readyStart (source p conv : Nat) (b : Bool) (e : Eff)
      (hs : s.room.roomState = .waitBattlePrepare)
      (ha : s.completesReadiness (.battleReady source p conv b))
      (he : e.state.room =
        { (s.modify p fun o => { o with battleReady := b }).room with roomState := .running }) :
      RoomMove s (.battleReady source p conv b) e
  | removeStart (reason : String) (e : Eff) (hs : s.room.roomState = .waitBattlePrepare)
      (he : e.state.room.roomState = .running) (hready : e.state.room.allBattleReady = true)
      (hcount : 2 ≤ s.room.inroomPlayerCount) : RoomMove s (.removeKicked reason) e
  | aborting (a : Act) (e : Eff) (hs : s.room.closing = false)
      (he : e.state.room.roomState = .aborting) (ha : s.aborts a) : RoomMove s a e
  | abortedAtOnce (reason : String) (e : Eff) (hs : s.room.closing = false)
      (he : e.state.room.roomState = .aborted) :
      RoomMove s (.abortRoomWithoutClearState reason) e
  | finishing (a : Act) (e : Eff) (hs : s.room.closing = false)
      (ha : (∃ reason, a = .markKicked reason) ∨ a = .roundOver ∧ s.room.roomState = .running)
      (he : e.state.room.roomState = .finishing) : RoomMove s a e
  | closed (a : Act) (e : Eff) (final : RoomState) (ha : a.closes = some final)
      (he : e.state.room.roomState = final) : RoomMove s a e

private theorem roomMove_abort {s s' : Sys} {a : Act} (reason : String)
    (ha : s.aborts a) (hs : s'.room = s.room) : RoomMove s a (abortRoom s' reason) := by
  have h := abortRoom_roomState s' reason
  rw [hs] at h
  cases hc : s.room.closing with
  | true =>
      rw [hc, if_pos rfl] at h
      exact .stay a _ h
  | false =>
      rw [hc, if_neg (by simp)] at h
      exact .aborting a _ hc h ha

private theorem roomMove_finish {t : Nat} {s : Sys} {a : Act}
    (ha : (∃ reason, a = .markKicked reason) ∨ a = .roundOver ∧ s.room.roomState = .running) :
    RoomMove s a (finishRoom t s) := by
  have h := finishRoom_roomState t s
  cases hc : s.room.closing with
  | true =>
      rw [hc, if_pos rfl] at h
      exact .stay a _ h
  | false =>
      rw [hc, if_neg (by simp)] at h
      exact .finishing a _ hc ha h

/-- Executing an act moves the room's state along one of its edges. -/
theorem exec_roomMove (t : Nat) (a : Act) (v : Ans) (s : Sys) :
    RoomMove s a (exec t a v s) := by
  have h := exec_branch t a v s
  generalize exec t a v s = e at h ⊢
  cases h with
  | initialised list n hs haddr => exact .initialised list n _ hs rfl
  | timedOut hs => exact roomMove_abort _ hs rfl
  | allPrepared p hs hp hall => exact .prepared _ _ hs rfl hall (.inl ⟨p, rfl⟩)
  | readyStart source p conv b hp hg hc hs hprep hready =>
      exact .readyStart source p conv b _ hs ⟨hp, hg, hc, hs, hprep, hready⟩ rfl
  | dead p killer => exact .stay _ _ (onPlayerDead_roomState s.room p killer)
  | respawned p => exact .stay _ _ (onPlayerRespawn_roomState s.room p)
  | abortOutside reason hs =>
      rcases abortEach_roomState t (s.setState .aborting) none s.room.players with h | h
      · exact .abortedAtOnce reason _ hs h
      · exact .aborting _ _ hs h trivial
  | allocGiven l r hv hr =>
      have h := storeConvs_roomState s.room l
      rw [hr] at h
      exact .stay _ _ h
  | allocUnknown l r hv hr =>
      have h := storeConvs_roomState s.room l
      rw [hr] at h
      exact .stay _ _ h
  | allocAdded infos =>
      refine .stay _ _ ?_
      rw [ret, connectAll_room]
  | allocNotAdded infos => exact .stay _ _ (allocFree_roomState s _)
  | allocFree ps => exact .stay _ _ (allocFree_roomState s ps)
  | allocAbort err => exact roomMove_abort err trivial rfl
  | removeAbort reason => exact roomMove_abort reason trivial rfl
  | removeAlloc reason hcount hs hprep => exact .prepared _ _ hs rfl hprep (.inr ⟨reason, rfl, hcount⟩)
  | removeStart reason hcount hs hready => exact .removeStart reason _ hs rfl hready hcount
  | markFinish reason => exact roomMove_finish (.inl ⟨reason, rfl⟩)
  | startRefused hs => exact roomMove_abort _ hs rfl
  | setPlayersRunning =>
      refine .stay _ _ ?_
      rw [setRunning_state]
  | setRunning ps =>
      refine .stay _ _ ?_
      rw [setRunning_state]
  | roundOver hs => exact roomMove_finish (.inr ⟨rfl, hs⟩)
  | clearInroom =>
      refine .stay _ _ ?_
      rw [clearEach_state]
  | clearEach ps =>
      refine .stay _ _ ?_
      rw [clearEach_state]
  | freeSession p => exact .stay _ _ (freeSession_roomState s p .nil)
  | abortPlayers notify =>
      rcases abortEach_roomState t s notify s.room.players with h | h
      · exact .closed _ _ .aborted rfl h
      · exact .stay _ _ h
  | abortFreed notify p ps =>
      rcases abortEach_roomState t (s.dismiss notify p) notify ps with h | h
      · exact .closed _ _ .aborted rfl h
      · rw [dismiss_room] at h
        exact .stay _ _ h
  | closeRoom final =>
      refine .closed _ _ final rfl ?_
      rw [closeRoom_room]
  | finishWeighed arr stats r hv hr =>
      have h := storeWeights_roomState s.room stats
      rw [hr] at h
      refine .stay _ _ ?_
      rw [settleEach_roomState, ← h]
      exact assignRanks_roomState r 1 _
  | finishUnknown arr stats r hv hr =>
      have h := storeWeights_roomState s.room stats
      rw [hr] at h
      exact .stay _ _ h
  | settleEach total ps => exact .stay _ _ (settleEach_roomState s total ps)
  | _ => exact .stay _ _ rfl

/-- The room waits for its players. -/
def Room.preparing (r : Room) : Prop :=
  r.roomState = .waitPrepare ∨ r.roomState = .waitBattlePrepare

/-- A room that waits for its players has waited before or has just been filled. -/
theorem preparing_of_exec {t : Nat} {a : Act} {v : Ans} {s : Sys} {rest : List Act}
    (ha : Follows a rest) (hs : (exec t a v s).state.room.preparing) :
    s.room.preparing ∨ s.room.roomState = .uninit ∧ ∃ list n, a = .initRoom list n ∧
      (exec t a v s).state = s.initialised list n := by
  cases exec_roomMove t a v s with
  | stay _ _ he =>
      rw [Room.preparing, he] at hs
      exact .inl hs
  | initialised list n _ hu he => exact .inr ⟨hu, list, n, rfl, he⟩
  | prepared _ _ hwait => exact .inl (.inl hwait)
  | readyStart _ _ _ _ _ hwait => exact .inl (.inr hwait)
  | removeStart _ _ hwait => exact .inl (.inr hwait)
  | aborting _ _ _ he | abortedAtOnce _ _ _ he | finishing _ _ _ _ he =>
      rcases hs with hs | hs <;> rw [he] at hs <;> cases hs
  | closed _ _ final hc he =>
      have hfinal : final = .aborted ∨ final = .finished := closes_final ha hc
      rcases hs with hs | hs <;> rw [he] at hs <;> rcases hfinal with rfl | rfl <;> cases hs

theorem exec_sceneAddr (t : Nat) (a : Act) (v : Ans) (s : Sys) :
    (exec t a v s).state.room.sceneAddr = s.room.sceneAddr := by
  cases ha : a.editsTable with
  | false => exact (exec_sameTable t v s ha).sceneAddr
  | true =>
      have h := exec_branch t a v s
      generalize exec t a v s = e at h ⊢
      cases h with
      | declined | initialised | prepared | allPrepared | leavePreparing | leaveRunning
      | removeGone | removed => rfl
      | _ => cases ha

/-! ## What belongs to other services -/

/-- The coroutine {lit}`t` puts its request into the scene's inbox. -/
def sends (t : Nat) : Outcome Req Ans → List Nat
  | .call q => if q.toScene then [t] else []
  | _ => []

/-- The requests and answers of {lit}`batch_alloc` an act takes note of. -/
def Sys.noted (s : Sys) : Act → Ans → Sys
  | .allocPicked, .handle _ => { s with batchAllocs := s.batchAllocs + 1 }
  | .allocGiven, .infos l => { s with given := l.map BattleInfo.conv ++ s.given }
  | _, _ => s

/-- An effect that touches only the room, its mail and its list of freed
conversations, and puts requests to the scene into the scene's inbox. -/
structure Kept (t : Nat) (s : Sys) (e : Eff) : Prop where
  records : e.state.records = s.records
  gateway : e.state.gateway = s.gateway
  matchWrite : e.state.matchWrite = s.matchWrite
  batchAllocs : e.state.batchAllocs = s.batchAllocs
  given : e.state.given = s.given
  scene : e.state.scene = { s.scene with inbox := s.scene.inbox ++ sends t e.outcome }

namespace Kept

variable {t : Nat} {s : Sys}

theorem ret (s : Sys) (v : Ans) : Kept t s (ret s v) :=
  ⟨rfl, rfl, rfl, rfl, rfl, by simp [sends]⟩

theorem raise (s : Sys) : Kept t s (raise s) :=
  ⟨rfl, rfl, rfl, rfl, rfl, by simp [sends]⟩

theorem goOn (s : Sys) (push : List (Code LockName Act)) : Kept t s (goOn s push) :=
  ⟨rfl, rfl, rfl, rfl, rfl, by simp [sends]⟩

theorem call (s : Sys) {q : Req} (hq : q.toScene = false) (push : List (Code LockName Act)) :
    Kept t s (call s q push) :=
  ⟨rfl, rfl, rfl, rfl, rfl, by simp [sends, hq]⟩

theorem callScene (s : Sys) {q : Req} (hq : q.toScene = true) (push : List (Code LockName Act)) :
    Kept t s (callScene t s q push) :=
  ⟨rfl, rfl, rfl, rfl, rfl, by simp [sends, hq]⟩

/-- Changing the room, the mail or the list of freed conversations beforehand. -/
theorem of_state {s' : Sys} {e : Eff} (h : Kept t s' e) (r : Room)
    (m : List (Nat × AgentMsg)) (f : List Nat)
    (hs : s' = { s with room := r, mail := m, freed := f }) : Kept t s e := by
  subst hs
  exact ⟨h.records, h.gateway, h.matchWrite, h.batchAllocs, h.given, h.scene⟩

theorem closeRoom (s : Sys) (final : RoomState) : Kept t s (closeRoom t s final) := by
  rw [RoomService.closeRoom]
  split
  · exact (Kept.ret _ _).of_state _ s.mail s.freed rfl
  · exact (Kept.callScene _ rfl _).of_state _ s.mail s.freed rfl

theorem abortEach (s : Sys) (notify : Option String) (ps : List Nat) :
    Kept t s (abortEach t s notify ps) := by
  rcases abortEach_cases t s notify ps with ⟨he, -⟩ | ⟨skipped, p, rest, -, he, -⟩ <;> rw [he]
  · exact (Kept.closeRoom _ _).of_state s.room _ s.freed rfl
  · exact (Kept.call _ rfl _).of_state _ _ _ rfl

theorem settleEach (s : Sys) (total : Nat) (ps : List Nat) :
    Kept t s (settleEach s total ps) := by
  rcases settleEach_cases s total ps with ⟨he, -⟩ | ⟨skipped, p, rest, -, he, -⟩ <;> rw [he]
  · exact (Kept.goOn _ _).of_state s.room _ s.freed rfl
  · exact (Kept.call _ rfl _).of_state _ _ _ rfl

theorem allocFree (s : Sys) (ps : List Nat) : Kept t s (allocFree s ps) := by
  rcases allocFree_cases s ps with ⟨he, -⟩ | ⟨skipped, p, rest, -, he, -⟩ <;> rw [he]
  · exact Kept.ret s _
  · exact (Kept.call _ rfl _).of_state _ s.mail _ rfl

theorem abortRoom (s : Sys) (reason : String) : Kept t s (abortRoom s reason) := by
  rcases abortRoom_cases s reason with ⟨-, he⟩ | ⟨-, he⟩ <;> rw [he]
  · exact Kept.ret s _
  · exact (Kept.goOn _ _).of_state _ s.mail s.freed rfl

theorem finishRoom (s : Sys) : Kept t s (finishRoom t s) := by
  rcases finishRoom_cases t s with ⟨-, he⟩ | ⟨-, he⟩ <;> rw [he]
  · exact Kept.ret s _
  · exact (Kept.callScene _ rfl _).of_state _ s.mail s.freed rfl

theorem setRunning (s : Sys) (ps : List Nat) : Kept t s (setRunning s ps) := by
  rcases setRunning_cases s ps with ⟨he, -⟩ | ⟨p, rest, he, -⟩ <;> rw [he]
  · exact Kept.ret s _
  · exact Kept.call s rfl _

theorem clearEach (s : Sys) (ps : List Nat) : Kept t s (clearEach s ps) := by
  rcases clearEach_cases s ps with ⟨he, -⟩ | ⟨skipped, p, rest, -, he, -⟩ <;> rw [he]
  · exact Kept.ret s _
  · exact Kept.call s rfl _

theorem freeSession (s : Sys) (p : Nat) (v : Ans) :
    Kept t s (freePlayerBattleSession s p [] (RoomService.ret s v)) := by
  rcases freePlayerBattleSession_cases s p [] (RoomService.ret s v) with ⟨-, he⟩ | ⟨-, he⟩ <;>
    rw [he]
  · exact Kept.ret s _
  · exact (Kept.call _ rfl _).of_state _ s.mail _ rfl

end Kept

theorem connectAll_eq (s : Sys) (l : List BattleInfo) :
    s.connectAll l = { s with mail := (s.connectAll l).mail } := by
  induction l generalizing s with
  | nil => rfl
  | cons info l ih =>
      rw [Sys.connectAll]
      split_ifs
      · rw [ih]
        rfl
      · rw [ih]

/-- An act touches only the room, its mail and its list of freed conversations, and
what it takes note of. -/
theorem exec_kept (t : Nat) (a : Act) (v : Ans) (s : Sys) :
    Kept t (s.noted a v) (exec t a v s) := by
  have h := exec_branch t a v s
  generalize exec t a v s = e at h ⊢
  cases h with
  | declined a r ha =>
      have hnoted : s.noted a v = s := by
        cases a <;> first | rfl | (rcases ha with ha | ha | ha <;> cases ha)
      rw [hnoted]
      exact .ret s r
  | allocPicked n hv =>
      subst hv
      exact (Kept.call _ rfl _).of_state _ s.mail s.freed rfl
  | allocGiven l r hv =>
      subst hv
      exact (Kept.callScene _ rfl _).of_state _ s.mail s.freed rfl
  | allocUnknown l r hv =>
      subst hv
      exact (Kept.raise _).of_state _ s.mail s.freed rfl
  | allocUnpicked hv =>
      have hnoted : s.noted .allocPicked v = s := by
        cases v <;> first | rfl | exact (hv _ rfl).elim
      rw [hnoted]
      exact .raise s
  | allocError hv =>
      subst hv
      exact Kept.raise s
  | allocNothing hv =>
      have hnoted : s.noted .allocGiven v = s := by
        cases v <;> first | rfl | exact (hv _ rfl).elim
      rw [hnoted]
      exact .ret s _
  | initialised => exact ⟨rfl, rfl, rfl, rfl, rfl, by simp [sends, Sys.initialised]; rfl⟩
  | prepareTimer | roundTimer | allocBattle | setLoaded | clearOne => exact Kept.call s rfl _
  | timedOut => exact Kept.abortRoom s _
  | prepared p | ready source p conv b | dead p killer | respawned p | markCleared p
  | removeDone reason => exact (Kept.ret _ _).of_state _ _ s.freed rfl
  | allPrepared p hs hp hall => exact (Kept.goOn _ _).of_state _ _ s.freed rfl
  | readyStart source p conv b => exact (Kept.callScene _ rfl _).of_state _ s.mail s.freed rfl
  | removeStart reason => exact (Kept.callScene _ rfl _).of_state _ _ s.freed rfl
  | leavePreparing => exact Kept.goOn s _
  | leaveRunning | removed => exact (Kept.goOn _ _).of_state _ s.mail s.freed rfl
  | abortOutside => exact (Kept.abortEach _ _ _).of_state _ s.mail s.freed rfl
  | allocCancelled | allocDone | removeGone | markDone | startLate | checked => exact Kept.ret s _
  | allocAdded infos =>
      exact (Kept.ret _ _).of_state s.room (s.connectAll infos).mail s.freed (connectAll_eq s infos)
  | allocNotAdded | allocFree => exact Kept.allocFree s _
  | allocAbort err => exact Kept.abortRoom s err
  | removeAbort reason =>
      exact (Kept.abortRoom s.broadcastPreparedPlayers reason).of_state s.room _ s.freed rfl
  | removeAlloc reason => exact (Kept.goOn _ _).of_state _ _ s.freed rfl
  | markFinish | roundOver => exact Kept.finishRoom s
  | startFailed | setFailed | checkFailed => exact Kept.raise s
  | startRefused => exact Kept.abortRoom s _
  | gameStarted => exact Kept.goOn s _
  | setPlayersRunning | setRunning => exact Kept.setRunning s _
  | runningSet => exact ⟨rfl, rfl, rfl, rfl, rfl, by simp [sends, RoomService.runningSet]; rfl⟩
  | clearInroom | clearEach => exact Kept.clearEach s _
  | freeSession p => exact Kept.freeSession s p _
  | kick p => exact Kept.callScene s rfl _
  | abortPlayers notify => exact Kept.abortEach s notify _
  | abortFreed notify p ps =>
      rw [Sys.dismiss_eq_post]
      exact (Kept.abortEach _ notify ps).of_state s.room (dismissal notify p ++ s.mail) s.freed rfl
  | closeRoom final => exact Kept.closeRoom s final
  | finishWeighed arr stats r =>
      exact (Kept.settleEach _ _ _).of_state _ s.mail s.freed rfl
  | finishUnknown arr stats r => exact (Kept.raise _).of_state _ s.mail s.freed rfl
  | settleEach total ps => exact Kept.settleEach s total ps

/-! ## The other services -/

/-- How a request is answered: by the scene, when it is its turn, or by another
service, which may also fail before or after it has executed the request. -/
theorem serve_cases {t : Nat} {q : Req} {c : Choice} {s s' : Sys} {r : Ans}
    (h : serve t q c s = some (s', r)) :
    (q.toScene = true ∧ s.scene.inbox.head? = some t ∧
      (s.scene.closed = true ∧ s' = { s with scene.inbox := s.scene.inbox.tail } ∧ r = .error ∨
        s.scene.closed = false ∧
          s' = { s with scene := (sceneExecute { s.scene with inbox := s.scene.inbox.tail } q).1 } ∧
          r = (sceneExecute { s.scene with inbox := s.scene.inbox.tail } q).2)) ∨
      q.toScene = false ∧
        (s' = (execute q s).1 ∧ (r = (execute q s).2 ∨ r = .error) ∨
          s' = s ∧ (r = .error ∨ r = .nil ∨ ∃ h, q = .queryname ∧ r = .handle h)) := by
  cases hq : q.toScene with
  | true =>
      refine .inl ⟨rfl, ?_⟩
      cases c with
      | answer =>
          simp only [serve, hq, if_true, serveScene] at h
          split_ifs at h with hhead hclosed
          · cases h
            exact ⟨not_not.mp hhead, .inl ⟨hclosed, rfl, rfl⟩⟩
          · cases h
            exact ⟨not_not.mp hhead, .inr ⟨by simpa using hclosed, rfl, rfl⟩⟩
      | _ =>
          simp only [serve, hq, if_true] at h
          cases h
  | false =>
      refine .inr ⟨rfl, ?_⟩
      have h : serveOther q c s = some (s', r) := by
        cases c <;> simpa only [serve, hq, Bool.false_eq_true, if_false] using h
      cases c with
      | answer =>
          have he : execute q s = (s', r) := by
            cases q <;> first | exact Option.some.inj h | cases h
          exact .inl ⟨by rw [he], .inl (by rw [he])⟩
      | found n =>
          cases q <;> cases h
          exact .inr ⟨rfl, .inr (.inr ⟨n, rfl, rfl⟩)⟩
      | nothing =>
          have he : (s, Ans.nil) = (s', r) := by
            cases q <;> first | exact Option.some.inj h | cases h
          cases he
          exact .inr ⟨rfl, .inr (.inl rfl)⟩
      | fail executed =>
          have he : ((if executed then (execute q s).1 else s), Ans.error) = (s', r) := by
            cases q <;> first | exact Option.some.inj h | cases h
          cases he
          cases executed with
          | true => exact .inl ⟨rfl, .inr rfl⟩
          | false => exact .inr ⟨rfl, .inl rfl⟩

theorem execute_room (q : Req) (s : Sys) : (execute q s).1.room = s.room := by
  cases q <;> rfl

/-- Serving a request leaves the room alone. -/
theorem serve_room {t : Nat} {q : Req} {c : Choice} {s s' : Sys} {r : Ans}
    (h : serve t q c s = some (s', r)) : s'.room = s.room := by
  rcases serve_cases h with ⟨-, -, ⟨-, rfl, -⟩ | ⟨-, rfl, -⟩⟩ | ⟨-, ⟨rfl, -⟩ | ⟨rfl, -⟩⟩
  · rfl
  · rfl
  · exact execute_room q s
  · rfl

/-- The surroundings change the room's clock at most. -/
theorem environment_room {e : Env} {s s' : Sys} (h : environment e s = some s') :
    s'.room = { s.room with now := s'.room.now } := by
  have hmatch : ∀ e', (if s.matchWrite = none then
      (matchDecision e' s.records).map fun d => { s with matchWrite := some d } else none) =
        some s' → s'.room = s.room := by
    intro e' h
    split_ifs at h
    obtain ⟨d, -, rfl⟩ := Option.map_eq_some_iff.mp h
    rfl
  cases e with
  | frame =>
      simp only [environment] at h
      split_ifs at h
      cases h
      rfl
  | elapse =>
      cases h
      rfl
  | matchWrite =>
      obtain ⟨d, -, rfl⟩ := Option.map_eq_some_iff.mp h
      rfl
  | matchJoin p record => rw [hmatch _ h]
  | matchCancel p => rw [hmatch _ h]
  | matchLeave p => rw [hmatch _ h]

/-- The surroundings change neither the room's state nor its table. -/
theorem environment_sameTable {e : Env} {s s' : Sys} (h : environment e s = some s') :
    s'.room.roomState = s.room.roomState ∧ s.room.SameTable s'.room := by
  rw [environment_room h]
  exact ⟨rfl, ⟨rfl, rfl, fun _ => rfl, fun _ => rfl⟩⟩

/-- What the room has sent, asked for and been given so far. -/
structure Sys.SameLedger (s s' : Sys) : Prop where
  mail : s'.mail = s.mail
  batchAllocs : s'.batchAllocs = s.batchAllocs
  given : s'.given = s.given
  freed : s'.freed = s.freed

theorem Sys.SameLedger.refl (s : Sys) : s.SameLedger s := ⟨rfl, rfl, rfl, rfl⟩

/-- Serving a request adds nothing to the room's account. -/
theorem serve_sameLedger {t : Nat} {q : Req} {c : Choice} {s s' : Sys} {r : Ans}
    (h : serve t q c s = some (s', r)) : s.SameLedger s' := by
  rcases serve_cases h with ⟨-, -, ⟨-, rfl, -⟩ | ⟨-, rfl, -⟩⟩ | ⟨-, ⟨rfl, -⟩ | ⟨rfl, -⟩⟩
  · exact ⟨rfl, rfl, rfl, rfl⟩
  · exact ⟨rfl, rfl, rfl, rfl⟩
  · cases q <;> exact ⟨rfl, rfl, rfl, rfl⟩
  · exact .refl _

/-- Nor do the surroundings. -/
theorem environment_sameLedger {e : Env} {s s' : Sys} (h : environment e s = some s') :
    s.SameLedger s' := by
  have hmatch : ∀ e', (if s.matchWrite = none then
      (matchDecision e' s.records).map fun d => { s with matchWrite := some d } else none) =
        some s' → s.SameLedger s' := by
    intro e' h
    split_ifs at h
    obtain ⟨d, -, rfl⟩ := Option.map_eq_some_iff.mp h
    exact ⟨rfl, rfl, rfl, rfl⟩
  cases e with
  | frame =>
      simp only [environment] at h
      split_ifs at h
      cases h
      exact ⟨rfl, rfl, rfl, rfl⟩
  | elapse =>
      cases h
      exact ⟨rfl, rfl, rfl, rfl⟩
  | matchWrite =>
      obtain ⟨d, -, rfl⟩ := Option.map_eq_some_iff.mp h
      exact ⟨rfl, rfl, rfl, rfl⟩
  | matchJoin p record => exact hmatch _ h
  | matchCancel p => exact hmatch _ h
  | matchLeave p => exact hmatch _ h

/-- The surroundings leave the gateway alone. -/
theorem environment_gateway {e : Env} {s s' : Sys} (h : environment e s = some s') :
    s'.gateway = s.gateway := by
  cases e with
  | frame =>
      simp only [environment] at h
      split_ifs at h
      cases h
      rfl
  | elapse =>
      cases h
      rfl
  | matchWrite =>
      obtain ⟨d, -, rfl⟩ := Option.map_eq_some_iff.mp h
      rfl
  | matchJoin | matchCancel | matchLeave =>
      simp only [environment] at h
      split_ifs at h
      obtain ⟨d, -, rfl⟩ := Option.map_eq_some_iff.mp h
      rfl

/-- What the gateway answers to {lit}`batch_alloc`. -/
theorem serve_infos {t : Nat} {q : Req} {c : Choice} {s s' : Sys} {l : List BattleInfo}
    (h : serve t q c s = some (s', .infos l)) :
    ∃ ps, q = .batchAlloc ps ∧ l = (s.gateway.batchAlloc ps).2 := by
  rcases serve_cases h with ⟨hq, -, ⟨-, -, hr⟩ | ⟨-, -, hr⟩⟩ | ⟨-, ⟨-, hr | hr⟩ | ⟨-, hr⟩⟩
  · cases hr
  · cases q <;> cases hr
  · cases q with
    | batchAlloc ps =>
        cases hr
        exact ⟨ps, rfl, rfl⟩
    | _ => cases hr
  · cases hr
  · rcases hr with hr | hr | ⟨n, -, hr⟩ <;> cases hr

/-- Conversation numbers only go up. -/
theorem serve_nextConvId {t : Nat} {q : Req} {c : Choice} {s s' : Sys} {r : Ans}
    (h : serve t q c s = some (s', r)) : s.gateway.nextConvId ≤ s'.gateway.nextConvId := by
  rcases serve_cases h with ⟨-, -, ⟨-, rfl, -⟩ | ⟨-, rfl, -⟩⟩ | ⟨-, ⟨rfl, -⟩ | ⟨rfl, -⟩⟩
  · exact le_rfl
  · exact le_rfl
  · cases q with
    | batchAlloc ps => exact (Gateway.batchAlloc_spec s.gateway ps).2.1
    | _ => exact le_rfl
  · exact le_rfl

end BallServer.RoomService
