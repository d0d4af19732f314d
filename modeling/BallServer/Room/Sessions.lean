import BallServer.Room.Inbox
import BallServer.Room.Lifecycle
import BallServer.Room.Locks

/-!
# Battle sessions are given back

The gateway lends the room one battle session for each player.  The room writes the
conversation numbers into the player objects, and whoever takes a number out of an
object passes it to {lit}`free`.  As long as a number stands in an object somebody is
on the way to it: the end of the room, which is still to come, the coroutine that
removes the player, or one of the loops that work off a list of players.

An error that ends the removal of a player before the number is freed is the one way
to lose it: the player has left {lit}`players`, where the end of the room looks.  Every
other error leaves the number to somebody else, or leaves a room that never ends.

Main results:

- Inductive {lit}`SessionMove` and theorem {lit}`exec_sessionMove`: how acts treat
  conversation numbers.
- Theorem {lit}`reach_asking`: while a coroutine asks for sessions, the room waits
  for it or the scene is being shut down.
- Definition {lit}`Unbroken`: no error ends the removal of a player with a session.
- Theorem {lit}`reach_held`: somebody is on the way to every number.
- Theorem {lit}`not_one_life`: a run in which such an error loses a number.
- Theorem {lit}`given_subset_freed`: in the end every number has been passed to
  {lit}`free`.
-/

namespace BallServer.RoomService

open BallServer Coroutine

/-! ## How acts treat conversation numbers -/

/-- Two rooms with the same gateway and the same conversations. -/
structure Room.SameSessions (r r' : Room) : Prop where
  battleGateway : r'.battleGateway = r.battleGateway
  battleConv : ∀ p, (r'.obj p).battleConv = (r.obj p).battleConv

namespace Room.SameSessions

variable {r r' r'' : Room}

theorem refl (r : Room) : r.SameSessions r := ⟨rfl, fun _ => rfl⟩

theorem trans (h : r.SameSessions r') (h' : r'.SameSessions r'') : r.SameSessions r'' where
  battleGateway := h'.battleGateway.trans h.battleGateway
  battleConv p := (h'.battleConv p).trans (h.battleConv p)

/-- Changing other fields of a player object. -/
theorem update (p : Nat) {o : Player} (hobj : r'.obj = Function.update r.obj p o)
    (ho : o.battleConv = (r.obj p).battleConv) (hg : r'.battleGateway = r.battleGateway) :
    r.SameSessions r' := by
  refine ⟨hg, fun q => ?_⟩
  by_cases hq : q = p
  · subst hq
    simpa [hobj] using ho
  · simp [hobj, hq]

theorem modifyAll (r : Room) {f : Player → Player}
    (hf : ∀ o, (f o).battleConv = o.battleConv) : r.SameSessions (r.modifyAll f) := by
  refine ⟨rfl, fun q => ?_⟩
  by_cases hq : q ∈ r.players <;> simp [hq, hf]

theorem storeWeights (r : Room) (l : List (Nat × Int)) :
    r.SameSessions (storeWeights r l).1 := by
  induction l generalizing r with
  | nil => exact refl r
  | cons e l ih =>
      unfold RoomService.storeWeights
      split_ifs
      · refine trans ?_ (ih _)
        exact update e.1 rfl rfl rfl
      · exact refl r

theorem assignRanks (r : Room) (i : Nat) (l : List Nat) :
    r.SameSessions (assignRanks r i l) := by
  induction l generalizing r i with
  | nil => exact refl r
  | cons p l ih =>
      refine trans ?_ (ih (r.modify p fun o => { o with rank := i }) (i + 1))
      exact update p rfl rfl rfl

theorem onPlayerDead (r : Room) (p killer : Nat) :
    r.SameSessions (r.onPlayerDead p killer).1 := by
  unfold Room.onPlayerDead
  split_ifs
  · exact refl r
  · dsimp only
    split_ifs
    · refine ⟨rfl, fun q => ?_⟩
      simp only [Room.modify, Function.update_apply]
      split_ifs <;> simp_all
    · exact refl r

theorem onPlayerRespawn (r : Room) (p : Nat) : r.SameSessions (r.onPlayerRespawn p).1 := by
  unfold Room.onPlayerRespawn
  split_ifs
  · exact refl r
  · exact update p rfl rfl rfl

theorem finishing (r : Room) :
    r.SameSessions ({ r with roomState := .finishing }.modifyAll (Room.settleAlive r.now)) := by
  have hstate : r.SameSessions { r with roomState := .finishing } := ⟨rfl, fun _ => rfl⟩
  refine hstate.trans (modifyAll _ fun o => ?_)
  unfold Room.settleAlive
  split_ifs <;> rfl

end Room.SameSessions

/-- How an act with effect {lit}`e` treats conversation numbers. -/
inductive SessionMove (s : Sys) : Act → Ans → Eff → Prop where
  | same (a : Act) (v : Ans) (e : Eff) (hr : s.room.SameSessions e.state.room)
      (hf : e.state.freed = s.freed) : SessionMove s a v e
  /-- The session of one player is passed to {lit}`free`. -/
  | dropped (a : Act) (v : Ans) (e : Eff) (q : Nat)
      (hg : e.state.room.battleGateway = s.room.battleGateway)
      (hq : (e.state.room.obj q).battleConv = 0)
      (hr : ∀ p, p ≠ q → (e.state.room.obj p).battleConv = (s.room.obj p).battleConv)
      (hf : e.state.freed = (s.room.obj q).battleConv :: s.freed) : SessionMove s a v e
  | initialised (list : List PlayerInfo) (n : Nat) (v : Ans) (e : Eff)
      (hs : s.room.roomState = .uninit) (he : e.state = s.initialised list n) :
      SessionMove s (.initRoom list n) v e
  | picked (h : Nat) (v : Ans) (e : Eff) (hg : e.state.room.battleGateway = some h)
      (hr : e.state.room.obj = s.room.obj) (hf : e.state.freed = s.freed) :
      SessionMove s .allocPicked v e
  | given (l : List BattleInfo) (v : Ans) (e : Eff) (hv : v = .infos l)
      (he : e.state.room = (storeConvs s.room l).1) (hf : e.state.freed = s.freed)
      (hraise : (storeConvs s.room l).2 = false → e.outcome = .raise) :
      SessionMove s .allocGiven v e

namespace SessionMove

variable {t : Nat} {s : Sys} {a : Act} {v : Ans}

/-- The room beforehand has the same sessions. -/
theorem of_post (s' : Sys) {q : Nat} (hroom : s.room.SameSessions s'.room)
    (hfreed : s'.freed = s.freed) {req : Req} {push : List (Code LockName Act)} :
    SessionMove s a v (call (s'.dropSession q) req push) := by
  refine .dropped a v _ q hroom.battleGateway (by simp [Sys.dropSession]) (fun p hp => ?_) ?_
  · simpa [Sys.dropSession, hp] using hroom.battleConv p
  · simp [Sys.dropSession, hroom.battleConv q, hfreed]

theorem abortRoom (s : Sys) (reason : String) : SessionMove s a v (abortRoom s reason) := by
  rcases abortRoom_cases s reason with ⟨-, he⟩ | ⟨-, he⟩ <;> rw [he] <;>
    exact .same a v _ ⟨rfl, fun _ => rfl⟩ rfl

theorem finishRoom (s : Sys) : SessionMove s a v (finishRoom t s) := by
  rcases finishRoom_cases t s with ⟨-, he⟩ | ⟨-, he⟩ <;> rw [he]
  · exact .same a v _ (.refl _) rfl
  · exact .same a v _ (.finishing s.room) rfl

theorem closeRoom {s' : Sys} (final : RoomState) (hroom : s.room.SameSessions s'.room)
    (hfreed : s'.freed = s.freed) : SessionMove s a v (closeRoom t s' final) := by
  refine .same a v _ ?_ ?_
  · rw [closeRoom_room]
    exact ⟨hroom.battleGateway, hroom.battleConv⟩
  · rw [← hfreed, RoomService.closeRoom]
    split <;> rfl

theorem abortEach {s' : Sys} (notify : Option String) (ps : List Nat)
    (hroom : s.room.SameSessions s'.room) (hfreed : s'.freed = s.freed) :
    SessionMove s a v (abortEach t s' notify ps) := by
  rcases abortEach_cases t s' notify ps with ⟨he, -⟩ | ⟨skipped, p, rest, -, he, -⟩ <;> rw [he]
  · exact .closeRoom _ hroom hfreed
  · exact of_post (s'.post (dismissals s'.room notify skipped)) hroom hfreed

theorem settleEach {s' : Sys} (total : Nat) (ps : List Nat)
    (hroom : s.room.SameSessions s'.room) (hfreed : s'.freed = s.freed) :
    SessionMove s a v (settleEach s' total ps) := by
  rcases settleEach_cases s' total ps with ⟨he, -⟩ | ⟨skipped, p, rest, -, he, -⟩ <;> rw [he]
  · exact .same a v _ hroom hfreed
  · exact of_post (s'.post (resultMails s' total (skipped ++ [p]))) hroom hfreed

theorem allocFree (s : Sys) (ps : List Nat) : SessionMove s a v (allocFree s ps) := by
  rcases allocFree_cases s ps with ⟨he, -⟩ | ⟨skipped, p, rest, -, he, -⟩ <;> rw [he]
  · exact .same a v _ (.refl _) rfl
  · exact of_post s (.refl _) rfl

theorem freeSession (s : Sys) (p : Nat) (r : Ans) :
    SessionMove s a v (freePlayerBattleSession s p [] (ret s r)) := by
  rcases freePlayerBattleSession_cases s p [] (ret s r) with ⟨-, he⟩ | ⟨-, he⟩ <;> rw [he]
  · exact .same a v _ (.refl _) rfl
  · exact of_post s (.refl _) rfl

end SessionMove

/-- How acts treat conversation numbers. -/
theorem exec_sessionMove (t : Nat) (a : Act) (v : Ans) (s : Sys) :
    SessionMove s a v (exec t a v s) := by
  have hb := exec_branch t a v s
  generalize exec t a v s = e at hb ⊢
  cases hb with
  | initialised list n hs => exact .initialised list n v _ hs rfl
  | allocPicked h hv => exact .picked h v _ rfl rfl rfl
  | allocGiven l r hv hr => exact .given l v _ hv (by rw [hr]; rfl) rfl (by simp [hr])
  | allocUnknown l r hv hr => exact .given l v _ hv (by rw [hr]; rfl) rfl fun _ => rfl
  | timedOut | allocAbort | startRefused => exact .abortRoom s _
  | removeAbort reason =>
      cases SessionMove.abortRoom (a := .removeKicked reason) (v := v)
        s.broadcastPreparedPlayers reason with
      | same _ _ _ hr hf => exact .same _ _ _ hr hf
      | dropped _ _ _ q hg hq hr hf => exact .dropped _ _ _ q hg hq hr hf
  | markFinish | roundOver => exact .finishRoom s
  | abortOutside => exact .abortEach _ _ ⟨rfl, fun _ => rfl⟩ rfl
  | abortPlayers notify => exact .abortEach _ _ (.refl _) rfl
  | abortFreed notify q ps =>
      rw [Sys.dismiss_eq_post]
      exact .abortEach _ _ (.refl _) rfl
  | closeRoom final => exact .closeRoom final (.refl _) rfl
  | finishWeighed arr stats r hv hr =>
      have h := Room.SameSessions.storeWeights s.room stats
      rw [hr] at h
      exact .settleEach _ _ (h.trans (.assignRanks r 1 _)) rfl
  | finishUnknown arr stats r hv hr =>
      have h := Room.SameSessions.storeWeights s.room stats
      rw [hr] at h
      exact .same _ _ _ h rfl
  | settleEach total ps => exact .settleEach total ps (.refl _) rfl
  | allocNotAdded | allocFree => exact .allocFree s _
  | freeSession p => exact .freeSession s p .nil
  | allocAdded infos =>
      refine .same _ _ _ ?_ ?_
      · rw [ret, connectAll_room]
        exact .refl _
      · rw [ret, connectAll_eq]
  | prepared p | allPrepared p | leaveRunning p | markCleared p =>
      exact .same _ _ _ (.update p rfl rfl rfl) rfl
  | ready source p conv b | readyStart source p conv b =>
      exact .same _ _ _ (.update p rfl rfl rfl) rfl
  | dead p killer => exact .same _ _ _ (.onPlayerDead s.room p killer) rfl
  | respawned p => exact .same _ _ _ (.onPlayerRespawn s.room p) rfl
  | runningSet =>
      refine .same _ _ _ ?_ rfl
      dsimp only [runningSet, Sys.withRoom]
      refine .modifyAll s.room fun o => ?_
      split_ifs <;> rfl
  | setPlayersRunning | setRunning =>
      refine .same _ _ _ ?_ ?_ <;> rw [setRunning_state]
      exact .refl _
  | clearInroom | clearEach =>
      refine .same _ _ _ ?_ ?_ <;> rw [clearEach_state]
      exact .refl _
  | _ => exact .same _ _ _ ⟨rfl, fun _ => rfl⟩ rfl

/-! ## What the gateway has given -/

/-- A new player object has no conversation. -/
theorem initialised_battleConv (s : Sys) (list : List PlayerInfo) (n : Nat) (p : Nat) :
    ((s.initialised list n).room.obj p).battleConv = 0 ∨
      ((s.initialised list n).room.obj p).battleConv = (s.room.obj p).battleConv := by
  simp only [Sys.initialised, Sys.withRoom]
  induction list using List.reverseRecOn with
  | nil => exact .inr rfl
  | append_singleton list info ih =>
      rw [List.foldl_append]
      by_cases hp : p = info.playerid
      · exact .inl (by simp [hp, newPlayer])
      · simpa [hp] using ih

/-- Storing conversations changes nothing else. -/
theorem storeConvs_battleConv (r : Room) (l : List BattleInfo) (p : Nat) :
    ((storeConvs r l).1.obj p).battleConv = (r.obj p).battleConv ∨
      ∃ info ∈ l, info.playerid = p ∧ info.playerid ∈ r.players ∧
        ((storeConvs r l).1.obj p).battleConv = info.conv := by
  induction l generalizing r with
  | nil => exact .inl rfl
  | cons info l ih =>
      unfold storeConvs
      split_ifs with hp
      · rcases ih (r.modify info.playerid fun o =>
          { o with battleConv := info.conv, battleReady := false }) with h | ⟨i, hi, hid, hin, h⟩
        · rw [h]
          by_cases hpi : info.playerid = p
          · subst hpi
            exact .inr ⟨info, by simp, rfl, hp, by simp⟩
          · exact .inl (by simp [Ne.symm hpi])
        · exact .inr ⟨i, by simp [hi], hid, hin, h⟩
      · exact .inl rfl

/-- The conversations of different players all get stored. -/
theorem storeConvs_stored {r r' : Room} {l : List BattleInfo}
    (h : storeConvs r l = (r', true)) (hnd : (l.map BattleInfo.playerid).Nodup) :
    ∀ info ∈ l, (r'.obj info.playerid).battleConv = info.conv := by
  induction l generalizing r with
  | nil => simp
  | cons i l ih =>
      have hp : i.playerid ∈ r.players := by
        by_contra hp
        simp [storeConvs, hp] at h
      simp only [storeConvs, hp, if_true] at h
      rw [List.map_cons, List.nodup_cons] at hnd
      intro info hinfo
      rcases List.mem_cons.mp hinfo with rfl | hinfo
      · have hsame := storeConvs_battleConv (r.modify info.playerid fun o =>
          { o with battleConv := info.conv, battleReady := false }) l info.playerid
        rw [h] at hsame
        rcases hsame with hsame | ⟨j, hj, hid, -⟩
        · simpa using hsame
        · exact (hnd.1 (hid ▸ List.mem_map_of_mem hj)).elim
      · exact ih h hnd.2 info hinfo

theorem storeConvs_battleGateway (r : Room) (l : List BattleInfo) :
    (storeConvs r l).1.battleGateway = r.battleGateway := by
  induction l generalizing r with
  | nil => rfl
  | cons info l ih =>
      unfold storeConvs
      split_ifs
      · rw [ih]
        rfl
      · rfl

/-- Only {lit}`alloc_battle_for_all_no_lock` asks for sessions, one for each player in
the room. -/
theorem exec_batchAlloc {t : Nat} {a : Act} {v : Ans} {s : Sys} {rest : List Act} {ps : List Nat}
    (ha : Follows a rest) (ho : (exec t a v s).outcome = .call (.batchAlloc ps)) :
    a = .allocPicked ∧ ps = s.room.players.filter fun p => (s.room.obj p).inRoom := by
  have hwaits := (exec_shaped t v s ha).2 (.batchAlloc ps) (by rw [ho]; rfl)
  have hmem : .allocGiven ∈ View.pendingAfter rest (exec t a v s) := by
    rw [show View.pendingAfter rest (exec t a v s) = [.allocGiven, .allocDone] from hwaits]
    simp
  have hpicked : a = .allocPicked := by
    rcases View.mem_pendingAfter hmem with ⟨c, hc, hact⟩ | hrest
    · have hpush := exec_pushes hc
      rw [hact] at hpush
      cases a <;> first | rfl | simp [Pushes, AbortPushes] at hpush
    · cases trails_of_follows ha hrest
  subst hpicked
  refine ⟨rfl, ?_⟩
  cases v with
  | handle h =>
      cases ho
      rfl
  | _ => cases ho

/-- Facts about the conversations the gateway has given, and about those it is about
to give. -/
structure Conversations (v : RoomView) : Prop where
  nextConvId : 0 < v.shared.gateway.nextConvId
  nonzero : ∀ c ∈ v.shared.given, c ≠ 0
  stored : ∀ p, (v.shared.room.obj p).battleConv ≠ 0 →
    (v.shared.room.obj p).battleConv ∈ v.shared.given ∧ v.shared.room.battleGateway ≠ none
  picked : ∀ t, .allocGiven ∈ v.pending t → v.shared.room.battleGateway ≠ none
  asked : ∀ t ps, v.flight t = some (.batchAlloc ps) → ps.Nodup
  answer : ∀ t l, .allocGiven ∈ v.pending t → v.flight t = none → v.val t = .infos l →
    (l.map BattleInfo.playerid).Nodup ∧ ∀ info ∈ l, info.conv ≠ 0

/-- The room notes what it has been given. -/
theorem exec_given (t : Nat) (a : Act) (v : Ans) (s : Sys) :
    (exec t a v s).state.given = s.given ∨ ∃ l, a = .allocGiven ∧ v = .infos l ∧
      (exec t a v s).state.given = l.map BattleInfo.conv ++ s.given := by
  rw [(exec_kept t a v s).given]
  unfold Sys.noted
  split
  · exact .inl rfl
  · exact .inr ⟨_, rfl, rfl, rfl⟩
  · exact .inl rfl

theorem exec_given_subset (t : Nat) (a : Act) (v : Ans) (s : Sys) :
    s.given ⊆ (exec t a v s).state.given := by
  rcases exec_given t a v s with h | ⟨l, -, -, h⟩ <;> rw [h]
  · exact List.Subset.refl _
  · exact List.subset_append_right _ _

theorem exec_gateway (t : Nat) (a : Act) (v : Ans) (s : Sys) :
    (exec t a v s).state.gateway = s.gateway := by
  rw [(exec_kept t a v s).gateway]
  unfold Sys.noted
  split <;> rfl

/-- Only with a gateway does {lit}`alloc_battle_for_all_no_lock` go on. -/
theorem exec_allocPicked {t : Nat} {v : Ans} {s : Sys}
    (h : .allocGiven ∈ (exec t .allocPicked v s).push.map Code.toAct) :
    (exec t .allocPicked v s).state.room.battleGateway ≠ none ∧
      ∃ q, (exec t .allocPicked v s).outcome = .call q := by
  cases v with
  | handle n => exact ⟨by simp [exec, allocPicked], _, rfl⟩
  | _ => simp [exec, allocPicked] at h

namespace Conversations

variable {w : RoomWorld} {t : Nat} {a : Act} {rest : List Act}

theorem perform (h : Conversations w.view) (hw : w.Wf) (ht : t < w.view.fresh)
    (hp : w.view.pending t = a :: rest) (hf : w.view.flight t = none) (ha : Follows a rest)
    (hnd : w.view.shared.room.players.Nodup) :
    Conversations (w.view.perform t rest (exec t a (w.view.val t) w.view.shared)) := by
  have hv := hw.view_blank
  have hmove := exec_sessionMove t a (w.view.val t) w.view.shared
  have hsub := exec_given_subset t a (w.view.val t) w.view.shared
  have hhead : a ∈ w.view.pending t := by
    rw [hp]
    exact List.mem_cons_self
  have hgateway : w.view.shared.room.battleGateway ≠ none →
      (exec t a (w.view.val t) w.view.shared).state.room.battleGateway ≠ none := by
    intro hg
    cases hmove with
    | same _ _ _ hr => exact hr.battleGateway ▸ hg
    | dropped _ _ _ q hg' => exact hg' ▸ hg
    | initialised list n _ _ hs he => exact he ▸ hg
    | picked n _ _ hg' =>
        rw [hg']
        simp
    | given l _ _ hval he =>
        rw [he, storeConvs_battleGateway]
        exact hg
  -- the act that waits for the answer comes from the one that asks, which calls
  have hwait : ∀ u, .allocGiven ∈
      (w.view.perform t rest (exec t a (w.view.val t) w.view.shared)).pending u →
        u = t ∧ a = .allocPicked ∧ .allocGiven ∈
          (exec t a (w.view.val t) w.view.shared).push.map Code.toAct ∨
        u ≠ t ∧ u ≠ w.view.fresh ∧ .allocGiven ∈ w.view.pending u := by
    intro u hu
    rcases (View.mem_pending_perform hv ht).mp hu with ⟨rfl, hmem⟩ | ⟨hne, hold⟩ | ⟨-, hfork⟩
    · rcases View.mem_pendingAfter hmem with ⟨c, hc, hact⟩ | hrest
      · have hpush := exec_pushes hc
        rw [hact] at hpush
        refine .inl ⟨rfl, ?_, List.mem_map.mpr ⟨c, hc, hact⟩⟩
        cases a <;> first | rfl | simp [Pushes, AbortPushes] at hpush
      · cases trails_of_follows ha hrest
    · refine .inr ⟨hne, ?_, hold⟩
      rintro rfl
      rw [hv.pending _ le_rfl] at hold
      cases hold
    · rcases exec_fork t a _ _ hfork with ⟨-, -, -, h, -⟩ | ⟨-, h⟩ <;> cases h
  constructor
  case nextConvId =>
    rw [View.shared_perform, exec_gateway]
    exact h.nextConvId
  case nonzero =>
    rw [View.shared_perform]
    intro c hc
    rcases exec_given t a (w.view.val t) w.view.shared with he | ⟨l, rfl, hval, he⟩
    · exact h.nonzero c (he ▸ hc)
    · rw [he, List.mem_append] at hc
      rcases hc with hc | hc
      · obtain ⟨info, hinfo, rfl⟩ := List.mem_map.mp hc
        exact (h.answer t l hhead hf hval).2 info hinfo
      · exact h.nonzero c hc
  case stored =>
    rw [View.shared_perform]
    intro p hconv
    have hold : (w.view.shared.room.obj p).battleConv ≠ 0 →
        ((exec t a (w.view.val t) w.view.shared).state.room.obj p).battleConv =
          (w.view.shared.room.obj p).battleConv →
        ((exec t a (w.view.val t) w.view.shared).state.room.obj p).battleConv ∈
          (exec t a (w.view.val t) w.view.shared).state.given ∧
        (exec t a (w.view.val t) w.view.shared).state.room.battleGateway ≠ none := by
      intro hne he
      obtain ⟨hin, hg⟩ := h.stored p hne
      rw [he]
      exact ⟨hsub hin, hgateway hg⟩
    cases hmove with
    | same _ _ _ hr => exact hold (hr.battleConv p ▸ hconv) (hr.battleConv p)
    | dropped _ _ _ q hg hq hr =>
        have hpq : p ≠ q := by
          rintro rfl
          exact hconv hq
        exact hold (hr p hpq ▸ hconv) (hr p hpq)
    | initialised list n _ _ hs he =>
        rw [he] at hconv
        have hsame := (initialised_battleConv w.view.shared list n p).resolve_left hconv
        exact hold (hsame ▸ hconv) (he ▸ hsame)
    | picked n _ _ hg hr =>
        rw [hr] at hconv
        exact hold hconv (by rw [hr])
    | given l _ _ hval he =>
        rw [he] at hconv
        rcases storeConvs_battleConv w.view.shared.room l p with hsame | ⟨info, hinfo, -, -, hsame⟩
        · exact hold (hsame ▸ hconv) (by rw [he]; exact hsame)
        · refine ⟨?_, hgateway (h.picked t hhead)⟩
          rw [he, hsame, hval, (exec_kept t .allocGiven _ _).given]
          exact List.mem_append_left _ (List.mem_map_of_mem hinfo)
  case picked =>
    rw [View.shared_perform]
    intro u hu
    rcases hwait u hu with ⟨rfl, rfl, hpush⟩ | ⟨-, -, hold⟩
    · exact (exec_allocPicked hpush).1
    · exact hgateway (h.picked u hold)
  case asked =>
    intro u ps hq
    rw [View.flight_perform hv ht] at hq
    split_ifs at hq with hut
    · have ho : (exec t a (w.view.val t) w.view.shared).outcome = .call (.batchAlloc ps) :=
        View.flightAfter_eq_some.mp hq
      obtain ⟨-, rfl⟩ := exec_batchAlloc ha ho
      exact hnd.filter _
    · exact h.asked u ps hq
  case answer =>
    intro u l hu hfl hval
    rcases hwait u hu with ⟨rfl, rfl, hpush⟩ | ⟨hne, hfresh, hold⟩
    · obtain ⟨q, hq⟩ := (exec_allocPicked hpush).2
      rw [View.flight_perform hv ht, if_pos rfl, hq] at hfl
      cases hfl
    · rw [View.flight_perform hv ht, if_neg hne] at hfl
      rw [View.val_perform hfresh, if_neg hne] at hval
      exact h.answer u l hold hfl hval

end Conversations

variable {ok : Guard Sys LockName Act Req Ans Choice Env} {w : RoomWorld} {s₀ : Sys}

/-- The facts about conversations hold in every run. -/
theorem reach_conversations (hinit : Initial s₀) (h : Reach program ok (World.init s₀) w)
    (hok : ∀ w e, ok w e → Arrives w e) : Conversations w.view := by
  refine h.view_invariant Conversations ?_ ?_
  · have hshared : (World.init s₀ : RoomWorld).view.shared = s₀ := rfl
    refine ⟨hinit.nextConvId, ?_, ?_, ?_, ?_, ?_⟩
    · rw [hshared, hinit.given]
      simp
    · intro p hp
      rw [hshared] at hp
      exact (hp (hinit.battleConv p)).elim
    · intro t ht
      cases ht
    · intro t ps hq
      cases hq
    · intro t l ht
      cases ht
  · intro w e v hw hinv he hstep
    have hv := hw.wf.view_blank
    cases hstep with
    | same => exact hinv
    | spawn a =>
        have hnot : ∀ t, .allocGiven ∈ (w.view.create a).pending t →
            t ≠ w.view.fresh ∧ .allocGiven ∈ w.view.pending t := by
          intro t ht
          have hold : .allocGiven ∈ w.view.pending t := by
            rcases (View.mem_pending_create hv).mp ht with hold | ⟨-, rfl⟩
            · exact hold
            · cases (hok w _ he _ rfl).isHandler
          refine ⟨?_, hold⟩
          rintro rfl
          rw [hv.pending _ le_rfl] at hold
          cases hold
        refine ⟨hinv.nextConvId, hinv.nonzero, hinv.stored,
          fun t ht => hinv.picked t (hnot t ht).2, fun t ps hq => ?_, fun t l ht hfl hval => ?_⟩
        · rw [View.flight_create hv] at hq
          exact hinv.asked t ps hq
        · rw [View.flight_create hv] at hfl
          rw [View.val_create_of_ne (hnot t ht).1] at hval
          exact hinv.answer t l (hnot t ht).2 hfl hval
    | perform t a rest stack ht hr hk hp hf =>
        have hshape := (reach_shape hw hok t).1
        rw [hp] at hshape
        exact hinv.perform hw.wf ht hp hf hshape (players_nodup hinit hw)
    | serve t c q s r hq ha =>
        have hroom : s.room = w.view.shared.room := serve_room ha
        have hgiven : s.given = w.view.shared.given := (serve_sameLedger ha).given
        constructor
        case nextConvId =>
          rw [View.shared_answer]
          exact hinv.nextConvId.trans_le (serve_nextConvId ha)
        case nonzero =>
          rw [View.shared_answer, hgiven]
          exact hinv.nonzero
        case stored =>
          rw [View.shared_answer, hroom, hgiven]
          exact hinv.stored
        case picked =>
          rw [View.shared_answer, hroom]
          exact hinv.picked
        case asked =>
          intro u ps hu
          by_cases hut : u = t
          · subst hut
            simp [View.answer] at hu
          · exact hinv.asked u ps (by simpa [View.answer, hut] using hu)
        case answer =>
          intro u l hu hfl hval
          by_cases hut : u = t
          · subst hut
            have hr : r = .infos l := by simpa [View.answer] using hval
            subst hr
            obtain ⟨ps, rfl, rfl⟩ := serve_infos ha
            obtain ⟨hids, -, hconv⟩ := Gateway.batchAlloc_spec w.view.shared.gateway ps
            refine ⟨by rw [hids]; exact hinv.asked u ps hq, fun info hinfo => ?_⟩
            have := hconv info hinfo
            have := hinv.nextConvId
            omega
          · exact hinv.answer u l hu (by simpa [View.answer, hut] using hfl)
              (by simpa [View.answer, hut] using hval)
    | env e s henv =>
        have hroom := environment_room henv
        have hgiven := (environment_sameLedger henv).given
        refine ⟨?_, ?_, ?_, ?_, hinv.asked, hinv.answer⟩
        · change 0 < s.gateway.nextConvId
          rw [environment_gateway henv]
          exact hinv.nextConvId
        · change ∀ c ∈ s.given, c ≠ 0
          rw [hgiven]
          exact hinv.nonzero
        · change ∀ p, (s.room.obj p).battleConv ≠ 0 →
            (s.room.obj p).battleConv ∈ s.given ∧ s.room.battleGateway ≠ none
          rw [hroom, hgiven]
          exact hinv.stored
        · change ∀ t, .allocGiven ∈ w.view.pending t → s.room.battleGateway ≠ none
          rw [hroom]
          exact hinv.picked


/-! ## While sessions are asked for -/

/-- No act starts a handler. -/
theorem not_isHandler_of_pushes {a b : Act} (h : Pushes a b) : b.isHandler = false := by
  cases a with
  | leave | removePreparing =>
      rcases h with rfl | rfl | rfl | rfl | rfl | rfl <;> rfl
  | prepareTimeout | allocDone => rcases h with rfl | ⟨r, rfl⟩ <;> rfl
  | prepare => rcases h with rfl | rfl <;> rfl
  | removeKicked => rcases h with (rfl | ⟨r, rfl⟩) | rfl | rfl | rfl <;> rfl
  | gameStarted => rcases h with (rfl | ⟨r, rfl⟩) | rfl | rfl <;> rfl
  | finishWeighed | settleEach => rcases h with ⟨n, ps, rfl⟩ | rfl | rfl <;> rfl
  | allocGiven | allocAdded | allocFree | markKicked | roundOver =>
      obtain ⟨l, rfl⟩ := h
      rfl
  | setPlayersRunning | setRunning | abortRoomWithoutClearState | abortPlayers | abortFreed =>
      obtain ⟨p, ps, rfl⟩ := h
      rfl
  | clearInroom | clearEach => rcases h with rfl | ⟨ps, rfl⟩ <;> rfl
  | setLoaded => rcases h with rfl | rfl <;> rfl
  | allocBattle | allocPicked | prepareTimer | battleReady | roundTimer | clearOne =>
      cases h
      rfl
  | _ => exact h.elim

/-- Every handler that is pending has arrived as a message. -/
theorem arrives_of_pending (h : Reach program ok (World.init s₀) w)
    (hok : ∀ w e, ok w e → Arrives w e) {t : Nat} {a : Act} (ha : a ∈ w.view.pending t)
    (hh : a.isHandler = true) : a.arrives := by
  refine h.view_invariant (fun v => ∀ t a, a ∈ v.pending t → a.isHandler = true → a.arrives)
    ?_ ?_ t a ha hh
  · intro t a ha
    cases ha
  · intro w e v hw hinv he hstep u b hb hh
    have hv := hw.wf.view_blank
    cases hstep with
    | same => exact hinv u b hb hh
    | spawn a =>
        rcases (View.mem_pending_create hv).mp hb with hb | ⟨-, rfl⟩
        · exact hinv u b hb hh
        · exact hok w _ he b rfl
    | perform t a rest stack ht hr hk hp hf =>
        rcases (View.mem_pending_perform hv ht).mp hb with ⟨rfl, hmem⟩ | ⟨hne, hold⟩ | ⟨-, hfork⟩
        · rcases View.mem_pendingAfter hmem with ⟨c, hc, rfl⟩ | hrest
          · rw [not_isHandler_of_pushes (exec_pushes hc)] at hh
            cases hh
          · refine hinv u b ?_ hh
            rw [hp]
            exact List.mem_cons_of_mem _ hrest
        · exact hinv u b hold hh
        · rcases exec_fork t a _ _ hfork with ⟨-, -, -, rfl, -⟩ | ⟨-, rfl⟩ <;> cases hh
    | serve t c q s r hq ha => exact hinv u b hb hh
    | env e s henv => exact hinv u b hb hh

/-- A room that waits for its players has a scene. -/
theorem sceneAddr_of_preparing (hinit : Initial s₀) (h : Reach program ok (World.init s₀) w)
    (hok : ∀ w e, ok w e → Arrives w e) (hs : w.shared.room.preparing) :
    w.shared.room.sceneAddr ≠ none := by
  refine h.view_invariant (fun v => v.shared.room.preparing → v.shared.room.sceneAddr ≠ none)
    ?_ ?_ hs
  · intro hs
    have hu : s₀.room.roomState = .uninit := hinit.roomState
    rcases hs with hs | hs <;> change s₀.room.roomState = _ at hs <;> rw [hu] at hs <;> cases hs
  · intro w e v hw hinv he hstep hs
    cases hstep with
    | same => exact hinv hs
    | spawn a => exact hinv hs
    | perform t a rest stack ht hr hk hp hf =>
        rw [View.shared_perform] at hs ⊢
        have hshape := (reach_shape hw hok t).1
        rw [hp] at hshape
        change (exec t a (w.view.val t) w.view.shared).state.room.preparing at hs
        change (exec t a (w.view.val t) w.view.shared).state.room.sceneAddr ≠ none
        rcases preparing_of_exec hshape hs with hold | ⟨hu, list, n, rfl, -⟩
        · rw [exec_sceneAddr]
          exact hinv hold
        · rw [exec_sceneAddr]
          intro hnone
          have hdeclined : exec t (.initRoom list n) (w.view.val t) w.view.shared =
              ret w.view.shared (.ok false) := by
            simp [exec, initRoom, hnone]
          rw [hdeclined] at hs
          rcases hs with hs | hs <;> rw [ret_state, hu] at hs <;> cases hs
    | serve t c q s r hq ha =>
        rw [View.shared_answer, serve_room ha] at hs ⊢
        exact hinv hs
    | env e s henv =>
        obtain ⟨hstate, htable⟩ := environment_sameTable henv
        change s.room.sceneAddr ≠ none
        rw [htable.sceneAddr]
        exact hinv (by rw [Room.preparing, ← hstate]; exact hs)

/-- The act waits for the gateway to hand out sessions. -/
def Act.asking (a : Act) : Prop := a = .allocPicked ∨ a = .allocGiven

/-- While a coroutine asks for sessions the room has been given none. -/
theorem given_of_asking (hinit : Initial s₀) (h : Reach program ok (World.init s₀) w)
    (hok : ∀ w e, ok w e → Arrives w e) {t : Nat} {b : Act} (hb : b ∈ w.view.pending t)
    (hask : b.asking) : w.view.shared.given = [] := by
  have hone : b.awaits = 1 := by rcases hask with rfl | rfl <;> rfl
  have hload := given_awaits_le_one hinit h hok
  have hpos := View.weight_le_load (f := Act.awaits) (g := fun _ => 0) h.wf.view_blank hb
  by_contra hne
  rw [if_neg (show w.shared.given ≠ [] from hne)] at hload
  omega

/-- Before {lit}`init_room` the room has been given none either. -/
theorem given_of_uninit (hinit : Initial s₀) (h : Reach program ok (World.init s₀) w)
    (hok : ∀ w e, ok w e → Arrives w e) (hs : w.view.shared.room.roomState = .uninit) :
    w.view.shared.given = [] := by
  have hload := given_awaits_le_one hinit h hok
  have hearly : w.shared.room.roomState.early = 1 := by
    rw [show w.shared.room.roomState = .uninit from hs]
    rfl
  by_contra hne
  rw [if_neg (show w.shared.given ≠ [] from hne)] at hload
  omega

/-- While a coroutine asks for sessions no player has one. -/
theorem battleConv_of_asking (hinit : Initial s₀) (h : Reach program ok (World.init s₀) w)
    (hok : ∀ w e, ok w e → Arrives w e) {t : Nat} {b : Act} (hb : b ∈ w.view.pending t)
    (hask : b.asking) (p : Nat) : (w.view.shared.room.obj p).battleConv = 0 := by
  by_contra hconv
  have hmem := ((reach_conversations hinit h hok).stored p hconv).1
  rw [given_of_asking hinit h hok hb hask] at hmem
  cases hmem

/-- Only one coroutine asks for sessions or has asked for them. -/
theorem allocDone_unique (hinit : Initial s₀) (h : Reach program ok (World.init s₀) w)
    (hok : ∀ w e, ok w e → Arrives w e) {t u : Nat} (ht : .allocDone ∈ w.view.pending t)
    (hu : .allocDone ∈ w.view.pending u) : t = u := by
  by_contra hne
  have hload := completes_le_one hinit h hok
  have hv := h.wf.view_blank
  have htwo := View.coroutine_add_le_load (f := Act.completes) (g := fun _ => 0) hv hne
  have h₁ := View.weight_mem_le (f := Act.completes) (g := fun _ => 0) (w.view.flight t) ht
  have h₂ := View.weight_mem_le (f := Act.completes) (g := fun _ => 0) (w.view.flight u) hu
  have hone : Act.completes .allocDone = 1 := rfl
  omega

/-- The coroutine that asks for sessions does nothing else. -/
theorem pending_of_asking (h : Reach program ok (World.init s₀) w)
    (hok : ∀ w e, ok w e → Arrives w e) {t : Nat} {b : Act} (hb : b ∈ w.view.pending t)
    (hask : b.asking) : w.view.pending t = [b, .allocDone] := by
  have hshape := (reach_shape h hok t).1
  cases hp : w.view.pending t with
  | nil =>
      rw [hp] at hb
      cases hb
  | cons a rest =>
      rw [hp] at hb hshape
      rcases List.mem_cons.mp hb with rfl | hrest
      · rcases hask with rfl | rfl <;> cases hshape <;> rfl
      · have := trails_of_follows hshape hrest
        rcases hask with rfl | rfl <;> cases this

/-- How a room that waits for the sessions can change while they are asked for: it is
aborted from outside, in one go. -/
theorem exec_asking (hinit : Initial s₀) (h : Reach program ok (World.init s₀) w)
    (hok : ∀ w e, ok w e → Arrives w e) {t u : Nat} {a b : Act} {rest : List Act}
    {stack : List (Frame LockName Act)} (hk : (w.co t).stack = .code (.act a) :: stack)
    (hp : w.view.pending t = a :: rest) (hb : b ∈ w.view.pending u) (hask : b.asking)
    (hne : u ≠ t) (hs : w.shared.room.roomState = .waitBattlePrepare) :
    (exec t a (w.view.val t) w.shared).state.room.roomState = .waitBattlePrepare ∨
      (exec t a (w.view.val t) w.shared).state.room.roomState = .aborted ∧
        (exec t a (w.view.val t) w.shared).outcome = .call .shutdownScene := by
  have hmem : a ∈ w.view.pending t := by
    rw [hp]
    exact List.mem_cons_self
  have hshape : Follows a rest := by
    have := (reach_shape h hok t).1
    rwa [hp] at this
  have hconv := battleConv_of_asking hinit h hok hb hask
  -- the removal of a player runs under the same lock
  have hlock : ∀ reason, a ≠ .removeKicked reason := by
    rintro reason rfl
    have hl : b.lock = some .prepareRoom := by rcases hask with rfl | rfl <;> rfl
    have he : ¬b.enters := by rcases hask with rfl | rfl <;> exact fun h => h
    exact hne (locked_unique h hok hk rfl hb hl he)
  cases exec_roomMove t a (w.view.val t) w.shared with
  | stay _ _ he => exact .inl (he.trans hs)
  | initialised _ _ _ hs' | prepared _ _ hs' =>
      rw [hs] at hs'
      cases hs'
  | readyStart source p conv ready _ _ hc =>
      have harr := arrives_of_pending h hok hmem rfl
      exact (harr (hc.2.2.1.symm.trans (hconv p))).elim
  | removeStart reason => exact (hlock reason rfl).elim
  | finishing _ _ _ hfin =>
      rcases hfin with ⟨reason, rfl⟩ | ⟨-, hrun⟩
      · exact ((started_of_markKicked h hok hmem).2.2 hs).elim
      · rw [hs] at hrun
        cases hrun
  | closed _ _ final hc =>
      have hbefore := before_of_closes hinit h hok hmem hc
      rw [hs] at hbefore
      rcases closes_final hshape hc with rfl | rfl <;> cases hbefore
  | aborting _ _ hopen he ha =>
      cases a with
      | prepareTimeout =>
          rw [Sys.aborts, hs] at ha
          cases ha
      | gameStarted =>
          rw [Sys.aborts, hs] at ha
          cases ha
      | allocDone =>
          have hdone : .allocDone ∈ w.view.pending u := by
            rw [pending_of_asking h hok hb hask]
            simp
          exact (hne (allocDone_unique hinit h hok hdone hmem)).elim
      | removeKicked reason => exact (hlock reason rfl).elim
      | abortRoomWithoutClearState reason =>
          rw [exec, abortRoomWithoutClearState, if_neg (by simp [hopen])] at he
          rcases abortEach_cases t (w.shared.setState .aborting) none w.shared.room.players with
            ⟨he', -⟩ | ⟨skipped, q, more, -, -, -, hsess, -⟩
          · rw [he', closeRoom_room] at he
            cases he
          · exact (hsess.2 (hconv q)).elim
      | _ => exact ha.elim
  | abortedAtOnce reason _ hopen he =>
      refine .inr ⟨he, ?_⟩
      have haddr := sceneAddr_of_preparing hinit h hok (.inr hs)
      rw [exec, abortRoomWithoutClearState, if_neg (by simp [hopen])]
      rcases abortEach_cases t (w.shared.setState .aborting) none w.shared.room.players with
        ⟨he', -⟩ | ⟨skipped, q, more, -, -, -, hsess, -⟩
      · rw [he', closeRoom]
        split
        · rename_i hnone
          exact (haddr hnone).elim
        · rfl
      · exact (hsess.2 (hconv q)).elim

/-- While a coroutine asks for sessions the room waits for it, or the room has been
aborted and the scene is about to be shut down. -/
theorem reach_asking (hinit : Initial s₀) (h : Reach program ok (World.init s₀) w)
    (hok : ∀ w e, ok w e → Arrives w e) {u : Nat} {b : Act} (hb : b ∈ w.view.pending u)
    (hask : b.asking) : w.view.shared.room.roomState = .waitBattlePrepare ∨
      w.view.shared.room.roomState = .aborted ∧ ShutdownSent w.view := by
  refine h.view_invariant (fun v => ∀ u b, b ∈ v.pending u → b.asking →
    v.shared.room.roomState = .waitBattlePrepare ∨
      v.shared.room.roomState = .aborted ∧ ShutdownSent v) ?_ ?_ u b hb hask
  · intro u b hb
    cases hb
  · intro w e v hw hinv he hstep u b hb hask
    have hv := hw.wf.view_blank
    have hsent : ShutdownSent w.view → ShutdownSent v := fun hs => hs.step hw.wf hstep
    cases hstep with
    | same => exact hinv u b hb hask
    | spawn a =>
        rcases (View.mem_pending_create hv).mp hb with hb | ⟨-, rfl⟩
        · exact (hinv u b hb hask).imp id fun h => ⟨h.1, hsent h.2⟩
        · have := (hok w _ he _ rfl).isHandler
          rcases hask with rfl | rfl <;> cases this
    | serve t c q s r hq ha =>
        rw [View.shared_answer, serve_room ha]
        exact (hinv u b hb hask).imp id fun h => ⟨h.1, hsent h.2⟩
    | env e s henv =>
        have hstate := (environment_sameTable henv).1
        exact (hinv u b hb hask).imp hstate.trans fun h => ⟨hstate.trans h.1, hsent h.2⟩
    | perform t a rest stack ht hr hk hp hf =>
        rw [View.shared_perform]
        change (exec t a (w.view.val t) w.view.shared).state.room.roomState = _ ∨
          (exec t a (w.view.val t) w.view.shared).state.room.roomState = _ ∧ _
        have hmem : a ∈ w.view.pending t := by
          rw [hp]
          exact List.mem_cons_self
        have hshape : Follows a rest := by
          have := (reach_shape hw hok t).1
          rwa [hp] at this
        rcases (View.mem_pending_perform hv ht).mp hb with ⟨rfl, hafter⟩ | ⟨hne, hold⟩ | ⟨-, hfork⟩
        · rcases View.mem_pendingAfter hafter with ⟨c, hc, rfl⟩ | hrest
          · have hpush := exec_pushes hc
            rcases hask with hpick | hgive
            · -- the room has just been seen waiting
              rw [hpick] at hpush
              have ha : a = .allocBattle := by
                cases a <;> first | rfl | simp [Pushes, AbortPushes] at hpush
              subst ha
              left
              have hb := exec_branch u .allocBattle (w.view.val u) w.view.shared
              change c ∈ (exec u .allocBattle (w.view.val u) w.view.shared).push at hc
              generalize exec u .allocBattle (w.view.val u) w.view.shared = e at hb hc ⊢
              cases hb with
              | allocBattle hs => exact hs
              | allocCancelled => cases hc
              | declined _ _ ha => rcases ha with ha | ha | ha <;> cases ha
            · rw [hgive] at hpush
              have ha : a = .allocPicked := by
                cases a <;> first | rfl | simp [Pushes, AbortPushes] at hpush
              subst ha
              have hstate : (exec u .allocPicked (w.view.val u) w.view.shared).state.room.roomState =
                  w.view.shared.room.roomState := by
                cases w.view.val u <;> rfl
              rw [hstate]
              exact (hinv u _ hmem (.inl rfl)).imp id fun h => ⟨h.1, hsent h.2⟩
          · have := trails_of_follows hshape hrest
            rcases hask with rfl | rfl <;> cases this
        · rcases hinv u b hold hask with hs | ⟨hs, hshut⟩
          · rcases exec_asking hinit hw hok hk hp hold hask hne hs with he' | ⟨he', hcall⟩
            · exact .inl he'
            · refine .inr ⟨he', .inr ⟨t, ?_, ?_⟩⟩
              · rw [View.shared_perform]
                have hin := (exec_inbox t a (w.view.val t) w.view.shared).1
                change t ∈ (exec t a (w.view.val t) w.view.shared).state.scene.inbox
                rw [hin]
                refine List.mem_append_right _ (mem_sends.mpr ⟨rfl, .shutdownScene, ?_, rfl⟩)
                exact View.flightAfter_eq_some.mpr hcall
              · rw [View.flight_perform hv ht, if_pos rfl]
                exact View.flightAfter_eq_some.mpr hcall
          · right
            have hnone : a.closes = none := by
              cases hc : a.closes with
              | none => rfl
              | some final =>
                  have hbefore := before_of_closes hinit hw hok hmem hc
                  change w.view.shared.room.roomState = _ at hbefore
                  rw [hs] at hbefore
                  rcases closes_final hshape hc with rfl | rfl <;> cases hbefore
            have hclosing : w.view.shared.room.closing = true := by
              rw [Room.closing, hs]
            exact ⟨(roomState_of_closing hclosing hnone).trans hs, hsent hshut⟩
        · rcases exec_fork t a _ _ hfork with ⟨-, -, -, rfl, -⟩ | ⟨-, rfl⟩ <;>
            rcases hask with h | h <;> cases h

/-! ## Errors -/

/-- The acts that an error can end.  It leaves nothing of the coroutine, and the state of the
room as it is. -/
theorem exec_raise {t : Nat} {a : Act} {v : Ans} {s : Sys}
    (h : (exec t a v s).outcome = .raise) :
    (exec t a v s).push = [] ∧ (exec t a v s).fork = none ∧
      (exec t a v s).state.room.roomState = s.room.roomState ∧
      (a = .allocPicked ∨ a = .allocGiven ∨ a = .gameStarted ∨ (∃ p ps, a = .setLoaded p ps) ∨
        a = .checked ∧ v = .error ∨ ∃ arr, a = .finishWeighed arr) := by
  have habort : ∀ s reason, (abortRoom s reason).outcome ≠ .raise := by
    intro s reason
    rcases abortRoom_cases s reason with ⟨-, he⟩ | ⟨-, he⟩ <;> rw [he] <;> simp
  have hfinish : ∀ s, (finishRoom t s).outcome ≠ .raise := by
    intro s
    rcases finishRoom_cases t s with ⟨-, he⟩ | ⟨-, he⟩ <;> rw [he] <;> simp
  have hclose : ∀ s f, (closeRoom t s f).outcome ≠ .raise := by
    intro s f
    rw [closeRoom]
    split <;> simp
  have heach : ∀ s notify ps, (abortEach t s notify ps).outcome ≠ .raise := by
    intro s notify ps
    rcases abortEach_cases t s notify ps with ⟨he, -⟩ | ⟨_, _, _, -, he, -⟩ <;> rw [he]
    · exact hclose _ _
    · simp
  have hsettle : ∀ s total ps, (settleEach s total ps).outcome ≠ .raise := by
    intro s total ps
    rcases settleEach_cases s total ps with ⟨he, -⟩ | ⟨_, _, _, -, he, -⟩ <;> rw [he] <;> simp
  have hfree : ∀ s ps, (allocFree s ps).outcome ≠ .raise := by
    intro s ps
    rcases allocFree_cases s ps with ⟨he, -⟩ | ⟨_, _, _, -, he, -⟩ <;> rw [he] <;> simp
  have hb := exec_branch t a v s
  generalize exec t a v s = e at hb h ⊢
  cases hb with
  | allocUnpicked => exact ⟨rfl, rfl, rfl, .inl rfl⟩
  | allocError => exact ⟨rfl, rfl, rfl, .inr (.inl rfl)⟩
  | allocUnknown l r hv hr =>
      have hstate := storeConvs_roomState s.room l
      rw [hr] at hstate
      exact ⟨rfl, rfl, hstate, .inr (.inl rfl)⟩
  | startFailed => exact ⟨rfl, rfl, rfl, .inr (.inr (.inl rfl))⟩
  | setFailed p ps => exact ⟨rfl, rfl, rfl, .inr (.inr (.inr (.inl ⟨p, ps, rfl⟩)))⟩
  | checkFailed hv => exact ⟨rfl, rfl, rfl, .inr (.inr (.inr (.inr (.inl ⟨rfl, hv⟩))))⟩
  | finishUnknown arr stats r hv hr =>
      have hstate := storeWeights_roomState s.room stats
      rw [hr] at hstate
      exact ⟨rfl, rfl, hstate, .inr (.inr (.inr (.inr (.inr ⟨arr, rfl⟩))))⟩
  | timedOut | allocAbort | removeAbort | startRefused => exact (habort _ _ h).elim
  | markFinish | roundOver => exact (hfinish _ h).elim
  | abortOutside | abortPlayers | abortFreed => exact (heach _ _ _ h).elim
  | closeRoom => exact (hclose _ _ h).elim
  | settleEach | finishWeighed => exact (hsettle _ _ _ h).elim
  | allocNotAdded | allocFree => exact (hfree _ _ h).elim
  | freeSession p =>
      rcases freePlayerBattleSession_cases s p [] (ret s .nil) with ⟨-, he⟩ | ⟨-, he⟩ <;>
        rw [he] at h <;> cases h
  | setPlayersRunning | setRunning =>
      rcases setRunning_cases s _ with ⟨he, -⟩ | ⟨_, _, he, -⟩ <;> rw [he] at h <;> cases h
  | clearInroom | clearEach =>
      rcases clearEach_cases s _ with ⟨he, -⟩ | ⟨_, _, _, -, he, -⟩ <;> rw [he] at h <;> cases h
  | _ => cases h

/-! ## Whom sessions are asked for -/

/-- The players for whom sessions are asked are in the room until the sessions come. -/
structure Invited (v : RoomView) : Prop where
  asked : ∀ t ps, v.flight t = some (.batchAlloc ps) → ∀ p ∈ ps, p ∈ v.shared.room.players
  answer : ∀ t l, .allocGiven ∈ v.pending t → v.flight t = none → v.val t = .infos l →
    ∀ info ∈ l, info.playerid ∈ v.shared.room.players

/-- While a coroutine asks for sessions nobody leaves the room. -/
theorem players_of_asking (hinit : Initial s₀) (h : Reach program ok (World.init s₀) w)
    (hok : ∀ w e, ok w e → Arrives w e) {t u : Nat} {a b : Act}
    {stack : List (Frame LockName Act)} (hk : (w.co t).stack = .code (.act a) :: stack)
    (hb : b ∈ w.view.pending u) (hask : b.asking) (hne : u ≠ t) :
    (exec t a (w.view.val t) w.view.shared).state.room.players = w.view.shared.room.players := by
  rcases exec_players t a (w.view.val t) w.view.shared with
    he | ⟨list, n, -, hu, -⟩ | ⟨q, reason, rfl, -, -⟩
  · exact he
  · have hload := given_awaits_le_one hinit h hok
    have hone : b.awaits = 1 := by rcases hask with rfl | rfl <;> rfl
    have hpos := View.weight_le_load (f := Act.awaits) (g := fun _ => 0) h.wf.view_blank hb
    have hearly : w.shared.room.roomState.early = 1 := by
      rw [show w.shared.room.roomState = .uninit from hu]
      rfl
    omega
  · -- the removal of a player runs under the same lock
    have hl : b.lock = some .prepareRoom := by rcases hask with rfl | rfl <;> rfl
    have he : ¬b.enters := by rcases hask with rfl | rfl <;> exact fun h => h
    exact (hne (locked_unique h hok hk rfl hb hl he)).elim

/-- The players for whom sessions are asked stay in the room. -/
theorem reach_invited (hinit : Initial s₀) (h : Reach program ok (World.init s₀) w)
    (hok : ∀ w e, ok w e → Arrives w e) : Invited w.view := by
  refine h.view_invariant Invited ⟨fun t ps hq => (by cases hq), fun t l ht => (by cases ht)⟩ ?_
  intro w e v hw hinv he hstep
  have hv := hw.wf.view_blank
  -- who waits for the gateway has the request in flight, or its answer
  have hasking : ∀ u ps, w.view.flight u = some (.batchAlloc ps) → .allocGiven ∈ w.view.pending u :=
    fun u ps hq => by
      rw [(reach_shape hw hok u).2 _ hq]
      exact List.mem_cons_self
  cases hstep with
  | same => exact hinv
  | spawn a =>
      refine ⟨fun t ps hq => hinv.asked t ps (by rwa [View.flight_create hv] at hq),
        fun t l ht hfl hval => ?_⟩
      have hold : .allocGiven ∈ w.view.pending t := by
        rcases (View.mem_pending_create hv).mp ht with hold | ⟨-, rfl⟩
        · exact hold
        · cases (hok w _ he _ rfl).isHandler
      have hne : t ≠ w.view.fresh := by
        rintro rfl
        rw [hv.pending _ le_rfl] at hold
        cases hold
      rw [View.flight_create hv] at hfl
      rw [View.val_create_of_ne hne] at hval
      exact hinv.answer t l hold hfl hval
  | perform t a rest stack ht hr hk hp hf =>
      have hshape : Follows a rest := by
        have := (reach_shape hw hok t).1
        rwa [hp] at this
      constructor
      · intro u ps hq
        rw [View.flight_perform hv ht] at hq
        rw [View.shared_perform]
        split_ifs at hq with hut
        · -- the room has just asked for those in it
          have ho : (exec t a (w.view.val t) w.view.shared).outcome = .call (.batchAlloc ps) :=
            View.flightAfter_eq_some.mp hq
          obtain ⟨rfl, rfl⟩ := exec_batchAlloc hshape ho
          intro p hin
          change p ∈ (exec t .allocPicked (w.view.val t) w.view.shared).state.room.players
          rcases exec_players t .allocPicked (w.view.val t) w.view.shared with
            he | ⟨_, _, h, -⟩ | ⟨_, _, h, -⟩
          · rw [he]
            exact List.mem_of_mem_filter hin
          · cases h
          · cases h
        · intro p hin
          change p ∈ (exec t a (w.view.val t) w.view.shared).state.room.players
          rw [players_of_asking hinit hw hok hk (hasking u ps hq) (.inr rfl) hut]
          exact hinv.asked u ps hq p hin
      · intro u l hu hfl hval info hinfo
        rw [View.shared_perform]
        change info.playerid ∈ (exec t a (w.view.val t) w.view.shared).state.room.players
        rcases (View.mem_pending_perform hv ht).mp hu with ⟨rfl, hmem⟩ | ⟨hne, hold⟩ | ⟨-, hfork⟩
        · rcases View.mem_pendingAfter hmem with ⟨c, hc, hact⟩ | hrest
          · have hpush := exec_pushes hc
            rw [hact] at hpush
            have ha : a = .allocPicked := by
              cases a <;> first | rfl | simp [Pushes, AbortPushes] at hpush
            subst ha
            obtain ⟨q, hq⟩ := (exec_allocPicked (List.mem_map.mpr ⟨c, hc, hact⟩)).2
            rw [View.flight_perform hv ht, if_pos rfl] at hfl
            change View.flightAfter (exec u .allocPicked (w.view.val u) w.view.shared).outcome =
              none at hfl
            rw [hq] at hfl
            cases hfl
          · cases trails_of_follows hshape hrest
        · have hfresh : u ≠ w.view.fresh := by
            rintro rfl
            rw [hv.pending _ le_rfl] at hold
            cases hold
          rw [View.flight_perform hv ht, if_neg hne] at hfl
          rw [View.val_perform hfresh, if_neg hne] at hval
          rw [players_of_asking hinit hw hok hk hold (.inr rfl) hne]
          exact hinv.answer u l hold hfl hval info hinfo
        · rcases exec_fork t a _ _ hfork with ⟨-, -, -, h, -⟩ | ⟨-, h⟩ <;> cases h
  | serve t c q s r hq ha =>
      have hroom : s.room = w.view.shared.room := serve_room ha
      constructor
      · intro u ps hu
        rw [View.shared_answer, hroom]
        by_cases hut : u = t
        · subst hut
          simp [View.answer] at hu
        · exact hinv.asked u ps (by simpa [View.answer, hut] using hu)
      · intro u l hu hfl hval info hinfo
        rw [View.shared_answer, hroom]
        by_cases hut : u = t
        · subst hut
          have hr : r = .infos l := by simpa [View.answer] using hval
          subst hr
          obtain ⟨ps, rfl, rfl⟩ := serve_infos ha
          obtain ⟨hids, -, -⟩ := Gateway.batchAlloc_spec w.view.shared.gateway ps
          exact hinv.asked u ps hq _ (hids ▸ List.mem_map_of_mem hinfo)
        · exact hinv.answer u l hu (by simpa [View.answer, hut] using hfl)
            (by simpa [View.answer, hut] using hval) info hinfo
  | env e s henv =>
      have hplayers : s.room.players = w.view.shared.room.players := by
        rw [environment_room henv]
      constructor
      · intro t ps hq
        change ∀ p ∈ ps, p ∈ s.room.players
        rw [hplayers]
        exact hinv.asked t ps hq
      · intro t l ht hfl hval
        change ∀ info ∈ l, info.playerid ∈ s.room.players
        rw [hplayers]
        exact hinv.answer t l ht hfl hval

/-- Sessions of players that are in the room can all be stored. -/
theorem storeConvs_all {r : Room} {l : List BattleInfo}
    (h : ∀ info ∈ l, info.playerid ∈ r.players) : (storeConvs r l).2 = true := by
  induction l generalizing r with
  | nil => rfl
  | cons info l ih =>
      unfold storeConvs
      rw [if_pos (h info List.mem_cons_self)]
      exact ih fun i hi => h i (List.mem_cons_of_mem info hi)

/-- The sessions that have come are all stored. -/
theorem exec_allocGiven (hinit : Initial s₀) (h : Reach program ok (World.init s₀) w)
    (hok : ∀ w e, ok w e → Arrives w e) {t : Nat} (ht : .allocGiven ∈ w.view.pending t)
    (hf : w.view.flight t = none) {l : List BattleInfo} (hval : w.view.val t = .infos l) :
    (exec t .allocGiven (w.view.val t) w.view.shared).outcome ≠ .raise := by
  have hall := storeConvs_all ((reach_invited hinit h hok).answer t l ht hf hval)
  have hb := exec_branch t .allocGiven (w.view.val t) w.view.shared
  rw [hval] at hb ⊢
  generalize exec t .allocGiven (.infos l) w.view.shared = e at hb ⊢
  cases hb with
  | allocError he => cases he
  | allocNothing he => exact (he l rfl).elim
  | allocUnknown l' r hl hr =>
      obtain rfl := Ans.infos.inj hl
      rw [hr] at hall
      cases hall
  | declined _ _ ha => rcases ha with ha | ha | ha <;> cases ha
  | allocGiven => simp

/-! ## Who gives a session back -/

/-- The step does not end {lit}`remove_preparing_player` by the error of a redis command while
the player has a session. -/
def Unbroken (w : RoomWorld) (e : RoomEvent) : Prop :=
  e = .tick → ∀ t p reason, w.running = some t →
    w.view.pending t = [.checked, .freeSession p, .kick p, .removeKicked reason] →
      w.view.val t = .error → (w.view.shared.room.obj p).battleConv = 0

/-- The loop comes to the session of player {lit}`p`, or leads on to one that does. -/
def Act.frees (players : List Nat) (p : Nat) : Act → Prop
  | .abortPlayers _ => p ∈ players
  | .abortFreed _ _ ps | .allocFree ps => p ∈ ps ∧ p ∈ players
  | .finishWeighed arr => p ∈ arr
  | .settleEach _ ps => p ∈ ps
  | _ => False

/-- The scene refuses the players that coroutine {lit}`t` has asked it to add, or has
refused them. -/
structure Doomed (v : RoomView) (t : Nat) : Prop where
  before : v.flight t ≠ none → ShutdownBefore v t
  after : v.flight t = none → (v.val t).truthy = false

/-- Somebody is on the way to the session of player {lit}`p`. -/
inductive Held (v : RoomView) (p : Nat) : Prop where
  /-- The end of the room is still to come. -/
  | room (hp : p ∈ v.shared.room.players) (ho : v.shared.room.closing = false)
  | pending (t : Nat) (b : Act) (hb : b ∈ v.pending t) (hf : b.frees v.shared.room.players p)
  /-- The allocation will fail in the end. -/
  | doomed (t : Nat) (infos : List BattleInfo) (hb : .allocAdded infos ∈ v.pending t)
      (hids : p ∈ infos.map BattleInfo.playerid) (hp : p ∈ v.shared.room.players)
      (hd : Doomed v t)
  /-- The player is being removed. -/
  | removing (t : Nat) (reason : String) (hb : .freeSession p ∈ v.pending t)
      (hr : .removeKicked reason ∈ v.pending t)

/-- Nobody is left to close the room that has begun to end. -/
structure Stuck (v : RoomView) : Prop where
  settled : v.shared.room.roomState.settled = 0
  closes : ∀ t, ∀ b ∈ v.pending t, b.closes = none

theorem closes_eq_none {b : Act} (h : b.closer = 0) : b.closes = none := by
  cases hb : b.closes with
  | none => rfl
  | some final =>
      rw [closer_eq_one hb] at h
      cases h

/-- A room that nobody closes stays as it is. -/
theorem Stuck.step {w : RoomWorld} {e : RoomEvent} {v : RoomView} (h : Stuck w.view) (hw : w.Wf)
    (he : Arrives w e) (hstep : View.Step program w e v) : Stuck v := by
  have hv := hw.view_blank
  cases hstep with
  | same => exact h
  | spawn a =>
      refine ⟨h.settled, fun t b hb => ?_⟩
      rcases (View.mem_pending_create hv).mp hb with hold | ⟨-, rfl⟩
      · exact h.closes t b hold
      · exact closes_eq_none (closer_eq_zero (not_oneTime_of_arrives (he b rfl)))
  | perform t a rest stack ht hr hk hp hf =>
      have hclose : a.closes = none := h.closes t a (hp ▸ List.mem_cons_self)
      have hzero : a.closer = 0 := by
        rw [Act.closer, hclose]
        rfl
      have hload := exec_closer t w.view.shared a (w.view.val t)
      rw [h.settled, hzero] at hload
      have hsettled : (exec t a (w.view.val t) w.view.shared).state.room.roomState.settled = 0 := by
        omega
      refine ⟨by rw [View.shared_perform]; exact hsettled, fun u b hb => ?_⟩
      rcases (View.mem_pending_perform hv ht).mp hb with ⟨rfl, hmem⟩ | ⟨-, hold⟩ | ⟨-, hfork⟩
      · rcases View.mem_pendingAfter hmem with ⟨c, hc, rfl⟩ | hrest
        · have hle : c.toAct.closer ≤
              (exec u a (w.view.val u) w.view.shared).load Act.closer (fun _ => 0) := by
            have hin := List.le_sum_of_mem
              (List.mem_map_of_mem (f := fun c : Code LockName Act => c.toAct.closer) hc)
            exact hin.trans ((Nat.le_add_right _ _).trans (Nat.le_add_right _ _))
          exact closes_eq_none (by omega)
        · exact h.closes u b (by rw [hp]; exact List.mem_cons_of_mem a hrest)
      · exact h.closes u b hold
      · rcases exec_fork t a _ _ hfork with ⟨-, -, -, rfl, -⟩ | ⟨-, rfl⟩ <;> rfl
  | serve t c q s r hq ha =>
      refine ⟨?_, h.closes⟩
      rw [View.shared_answer, serve_room ha]
      exact h.settled
  | env e s henv =>
      refine ⟨?_, h.closes⟩
      change s.room.roomState.settled = 0
      rw [environment_room henv]
      exact h.settled

theorem frees_mono {players players' : List Nat} {p : Nat} {b : Act}
    (h : p ∈ players → p ∈ players') (hf : b.frees players p) : b.frees players' p := by
  cases b with
  | abortPlayers => exact h hf
  | abortFreed | allocFree => exact ⟨hf.1, h hf.2⟩
  | finishWeighed | settleEach => exact hf
  | _ => exact hf.elim

section Frees

variable {s : Sys} {t p : Nat}

/-- The loop of an abort comes to every player with a session. -/
theorem frees_abortEach {notify : Option String} {ps : List Nat} (hp : p ∈ ps)
    (hin : p ∈ s.room.players) (hs : s.hasSession p)
    (hconv : ((abortEach t s notify ps).state.room.obj p).battleConv ≠ 0) :
    ∃ c ∈ (abortEach t s notify ps).push, c.toAct.frees s.room.players p := by
  rcases abortEach_cases t s notify ps with ⟨-, hnone⟩ | ⟨skipped, q, rest, hps, he, -, -, hnone⟩
  · exact (hnone p hp hin hs).elim
  · rw [he] at hconv ⊢
    refine ⟨_, List.mem_singleton_self _, ?_, hin⟩
    rw [hps, List.mem_append, List.mem_cons] at hp
    rcases hp with hp | rfl | hp
    · exact (hnone p hp hin hs).elim
    · simp [Sys.dropSession] at hconv
    · exact hp

/-- The loop of {lit}`finish_room` comes to every player with a session. -/
theorem frees_settleEach {total : Nat} {ps players : List Nat} (hp : p ∈ ps)
    (hs : s.hasSession p)
    (hconv : ((settleEach s total ps).state.room.obj p).battleConv ≠ 0) :
    ∃ c ∈ (settleEach s total ps).push, c.toAct.frees players p := by
  rcases settleEach_cases s total ps with ⟨-, hnone⟩ | ⟨skipped, q, rest, hps, he, -, hnone⟩
  · exact (hnone p hp hs).elim
  · rw [he] at hconv ⊢
    refine ⟨_, List.mem_singleton_self _, ?_⟩
    rw [hps, List.mem_append, List.mem_cons] at hp
    rcases hp with hp | rfl | hp
    · exact (hnone p hp hs).elim
    · simp [Sys.dropSession] at hconv
    · exact hp

/-- The loop that gives sessions back comes to every player with a session. -/
theorem frees_allocFree {ps : List Nat} (hp : p ∈ ps) (hin : p ∈ s.room.players)
    (hs : s.hasSession p) (hconv : ((allocFree s ps).state.room.obj p).battleConv ≠ 0) :
    ∃ c ∈ (allocFree s ps).push, c.toAct.frees s.room.players p := by
  rcases allocFree_cases s ps with ⟨-, hnone⟩ | ⟨skipped, q, rest, hps, he, -, -, hnone⟩
  · exact (hnone p hp hin hs).elim
  · rw [he] at hconv ⊢
    refine ⟨_, List.mem_singleton_self _, ?_, hin⟩
    rw [hps, List.mem_append, List.mem_cons] at hp
    rcases hp with hp | rfl | hp
    · exact (hnone p hp hin hs).elim
    · simp [Sys.dropSession] at hconv
    · exact hp

/-- An act that leads on to a session frees it or leaves another act that does. -/
theorem exec_frees {a : Act} {v : Ans} (hf : a.frees s.room.players p) (hs : s.hasSession p)
    (hraise : (exec t a v s).outcome ≠ .raise)
    (hconv : ((exec t a v s).state.room.obj p).battleConv ≠ 0) :
    ∃ c ∈ (exec t a v s).push, c.toAct.frees s.room.players p := by
  cases a with
  | abortPlayers notify => exact frees_abortEach hf hf hs hconv
  | abortFreed notify q ps =>
      rw [exec, Sys.dismiss_eq_post] at hconv ⊢
      exact frees_abortEach (s := s.post (dismissal notify q)) hf.1 hf.2 hs hconv
  | allocFree ps => exact frees_allocFree hf.1 hf.2 hs hconv
  | settleEach total ps => exact frees_settleEach hf hs hconv
  | finishWeighed arr =>
      have hb := exec_branch t (.finishWeighed arr) v s
      generalize exec t (.finishWeighed arr) v s = e at hb hraise hconv ⊢
      cases hb with
      | finishUnknown => exact (hraise rfl).elim
      | declined _ _ ha => rcases ha with ha | ha | ha <;> cases ha
      | finishWeighed _ stats r hv hr =>
          have hsame := Room.SameSessions.storeWeights s.room stats
          rw [hr] at hsame
          let settled := arr.insertionSort fun a b => rankBefore r a b = true
          have hroom : s.room.SameSessions (assignRanks r 1 settled) :=
            hsame.trans (.assignRanks r 1 settled)
          have hmem : p ∈ settled :=
            (List.perm_insertionSort (fun a b => rankBefore r a b = true) arr).mem_iff.mpr hf
          refine frees_settleEach hmem ⟨?_, ?_⟩ hconv
          · exact hroom.battleGateway ▸ hs.1
          · exact hroom.battleConv p ▸ hs.2
  | _ => exact hf.elim

/-- An act that begins to close the room leads on to every player's session. -/
theorem exec_closing {a : Act} {v : Ans} (hs : s.room.closing = false) (ha : a.closes = none)
    (he : (exec t a v s).state.room.closing = true) (hp : p ∈ s.room.players)
    (hsess : s.hasSession p)
    (hconv : ((exec t a v s).state.room.obj p).battleConv ≠ 0) :
    ∃ c ∈ (exec t a v s).push, c.toAct.frees s.room.players p := by
  have habort : ∀ (s' : Sys) (reason : String), s'.room = s.room →
      ∃ c ∈ (abortRoom s' reason).push, c.toAct.frees s.room.players p := by
    intro s' reason hroom
    rcases abortRoom_cases s' reason with ⟨hc, -⟩ | ⟨-, he⟩
    · rw [hroom, hs] at hc
      cases hc
    · rw [he]
      exact ⟨.act (.abortPlayers (some reason)), by simp, hp⟩
  have hfinish : ∃ c ∈ (finishRoom t s).push, c.toAct.frees s.room.players p := by
    rcases finishRoom_cases t s with ⟨hc, -⟩ | ⟨-, he⟩
    · rw [hs] at hc
      cases hc
    · rw [he]
      exact ⟨_, List.mem_singleton_self _, hp⟩
  have hclose : s.aborts a ∨ (∃ reason, a = .markKicked reason) ∨ a = .roundOver := by
    cases exec_roomMove t a v s with
    | stay _ _ hstate =>
        rw [closing_congr hstate, hs] at he
        cases he
    | initialised _ _ _ _ hstate | prepared _ _ _ hstate | readyStart _ _ _ _ _ _ _ hstate
    | removeStart _ _ _ hstate =>
        rw [Room.closing, hstate] at he
        cases he
    | aborting _ _ _ _ hab => exact .inl hab
    | abortedAtOnce => exact .inl trivial
    | finishing _ _ _ hfin => exact .inr (hfin.imp id And.left)
    | closed _ _ _ hc =>
        rw [ha] at hc
        cases hc
  have hb := exec_branch t a v s
  generalize exec t a v s = e at hb he hconv ⊢
  have hsame : e.state.room.roomState = s.room.roomState → False := by
    intro hstate
    rw [closing_congr hstate, hs] at he
    cases he
  cases hb with
  | timedOut | allocAbort | startRefused => exact habort s _ rfl
  | removeAbort => exact habort s.broadcastPreparedPlayers _ rfl
  | markFinish | roundOver => exact hfinish
  | abortOutside => exact frees_abortEach (s := s.setState .aborting) hp hp hsess hconv
  | abortPlayers | abortFreed | closeRoom | finishWeighed | finishUnknown | settleEach => cases ha
  | declined | allocDone | removeDone | markDone | startFailed | startLate | gameStarted =>
      exact (hsame rfl).elim
  | removeAlloc | removeStart => cases he
  | _ =>
      rcases hclose with hab | ⟨_, h⟩ | h
      · exact hab.elim
      · cases h
      · cases h

end Frees

/-- The surroundings of a coroutine that asks the scene may change: it stays doomed. -/
theorem Doomed.congr {v : RoomView} {t : Nat} (hd : Doomed w.view t)
    (hbefore : ShutdownBefore w.view t → ShutdownBefore v t)
    (hflight : v.flight t = w.view.flight t) (hval : v.val t = w.view.val t) : Doomed v t where
  before hne := hbefore (hd.before (by rwa [← hflight]))
  after hnone := by
    rw [hval]
    exact hd.after (by rwa [← hflight])

/-- The coroutine whose request comes after the shutdown of the scene is doomed. -/
theorem doomed_of_callScene (hv : w.view.Blank) {t : Nat} {a : Act} (rest : List Act)
    {q : Req} (ht : t < w.view.fresh) (hf : w.view.flight t = none)
    (hq : (exec t a (w.view.val t) w.view.shared).outcome = .call q) (hscene : q.toScene = true)
    (hs : ShutdownSent w.view) :
    Doomed (w.view.perform t rest (exec t a (w.view.val t) w.view.shared)) t := by
  have hfl : (w.view.perform t rest (exec t a (w.view.val t) w.view.shared)).flight t = some q := by
    rw [View.flight_perform hv ht, if_pos rfl, hq]
    rfl
  obtain ⟨hin, hclosed⟩ := exec_inbox t a (w.view.val t) w.view.shared
  rw [hq, sends, if_pos hscene] at hin
  refine ⟨fun _ => ?_, fun hnone => ?_⟩
  · rcases hs with hc | ⟨u, hu, hqu⟩
    · refine .inl ?_
      rw [View.shared_perform]
      exact hclosed.trans hc
    · obtain ⟨l₁, l₂, hl⟩ := List.append_of_mem hu
      have hut : u ≠ t := by
        rintro rfl
        rw [hf] at hqu
        cases hqu
      refine .inr ⟨l₁, u, l₂ ++ [t], ?_, ?_, by simp⟩
      · rw [View.shared_perform]
        rw [hin, hl]
        simp
      · rw [View.flight_perform hv ht, if_neg hut]
        exact hqu
  · rw [hfl] at hnone
    cases hnone

/-- An error leaves the session of a player to somebody else, unless it ends the removal of that
player, or leaves nobody to close the room. -/
theorem held_raise (hinit : Initial s₀) (h : Reach program ok (World.init s₀) w)
    (hok : ∀ w e, ok w e → Arrives w e) {t : Nat} {a : Act} {rest : List Act}
    (ht : t < w.view.fresh) (hp : w.view.pending t = a :: rest)
    (hraise : (exec t a (w.view.val t) w.view.shared).outcome = .raise)
    (hstep : View.Step program w .tick
      (w.view.perform t rest (exec t a (w.view.val t) w.view.shared))) {p : Nat}
    (hkeep : ∀ reason, a :: rest = [.checked, .freeSession p, .kick p, .removeKicked reason] →
      w.view.val t ≠ .error)
    (hplayers : p ∈ w.view.shared.room.players →
      p ∈ (exec t a (w.view.val t) w.view.shared).state.room.players) (hheld : Held w.view p) :
    Held (w.view.perform t rest (exec t a (w.view.val t) w.view.shared)) p ∨
      Stuck (w.view.perform t rest (exec t a (w.view.val t) w.view.shared)) := by
  have hv := h.wf.view_blank
  obtain ⟨-, hfork, hstate, hacts⟩ := exec_raise hraise
  have hshape : Follows a rest := by
    have := (reach_shape h hok t).1
    rwa [hp] at this
  have hshared : (w.view.perform t rest
      (exec t a (w.view.val t) w.view.shared)).shared =
        (exec t a (w.view.val t) w.view.shared).state := View.shared_perform _
  have hkept : ∀ u b, b ∈ w.view.pending u → u ≠ t →
      b ∈ (w.view.perform t rest (exec t a (w.view.val t) w.view.shared)).pending u :=
    fun u b hb hut => (View.mem_pending_perform hv ht).mpr (.inr (.inl ⟨hut, hb⟩))
  -- the act that raises is none of the loops
  have hother : ∀ b ∈ w.view.pending t, b.trails = false → b = a := by
    intro b hb htrail
    rw [hp] at hb
    rcases List.mem_cons.mp hb with hb | hb
    · exact hb
    · rw [trails_of_follows hshape hb] at htrail
      cases htrail
  cases hheld with
  | room hin ho =>
      refine .inl (.room ?_ ?_)
      · rw [hshared]
        exact hplayers hin
      · rw [hshared]
        exact (closing_congr hstate).trans ho
  | pending u b hb hfr =>
      by_cases hut : u = t
      · subst hut
        cases hc : b.closes with
        | none =>
            -- giving the sessions back raises no error
            cases b with
            | allocFree ps =>
                obtain rfl := hother _ hb rfl
                rcases hacts with h | h | h | ⟨_, _, h⟩ | ⟨h, -⟩ | ⟨_, h⟩ <;> cases h
            | abortPlayers | abortFreed | finishWeighed | settleEach => cases hc
            | _ => exact hfr.elim
        | some final =>
            refine .inr ⟨?_, fun s c hin => ?_⟩
            · rw [hshared, hstate]
              exact (closes_unique hinit h hok hb hc).1
            · rcases (View.mem_pending_perform hv ht).mp hin with ⟨rfl, hmem⟩ | ⟨hne, hold⟩ | ⟨-, hf⟩
              · simp [View.pendingAfter, hraise] at hmem
              · have hload := closer_le_one hinit h hok
                have hadd := View.coroutine_add_le_load (f := Act.closer) (g := fun _ => 0) hv hne
                have hone := View.weight_mem_le (f := Act.closer) (g := fun _ => 0)
                  (w.view.flight u) hb
                have hpos := View.weight_mem_le (f := Act.closer) (g := fun _ => 0)
                  (w.view.flight s) hold
                rw [closer_eq_one hc] at hone
                exact closes_eq_none (by omega)
              · rw [hfork] at hf
                cases hf
      · refine .inl (.pending u b (hkept u b hb hut) ?_)
        rw [hshared]
        exact frees_mono hplayers hfr
  | doomed u infos hb hids hin hd =>
      by_cases hut : u = t
      · subst hut
        obtain rfl := hother _ hb rfl
        rcases hacts with h | h | h | ⟨_, _, h⟩ | ⟨h, -⟩ | ⟨_, h⟩ <;> cases h
      · have hufresh : u ≠ w.view.fresh := by
          rintro rfl
          rw [hv.pending _ le_rfl] at hb
          cases hb
        refine .inl (.doomed u infos (hkept u _ hb hut) hids ?_ ?_)
        · rw [hshared]
          exact hplayers hin
        · refine hd.congr (fun hs => hs.step h.wf (reach_inbox hinit h) hstep) ?_ ?_
          · rw [View.flight_perform hv ht, if_neg hut]
          · rw [View.val_perform hufresh, if_neg hut]
  | removing u reason hb hr =>
      by_cases hut : u = t
      · subst hut
        rw [hp] at hb hr
        rcases hacts with rfl | rfl | rfl | ⟨_, _, rfl⟩ | ⟨rfl, herr⟩ | ⟨_, rfl⟩
        · cases hshape
          simp at hb
        · cases hshape
          simp at hb
        · cases hshape
          simp at hb
        · cases hshape
          simp at hb
        · rcases hshape with ⟨q, ⟨r, rfl⟩ | ⟨r, rfl⟩⟩ | ⟨ps, rfl⟩ | ⟨ps, k, rfl, ⟨r, rfl⟩ | rfl⟩
          · obtain rfl : p = q := by simpa using hb
            exact (hkeep r rfl herr).elim
          · simp at hr
          · simp at hb
          · simp at hb
          · simp at hb
        · cases hshape
          simp at hb
      · exact .inl (.removing u reason (hkept u _ hb hut) (hkept u _ hr hut))

/-- Executing an act keeps somebody on the way to every session, or leaves nobody to close the
room. -/
theorem held_perform (hinit : Initial s₀) (h : Reach program ok (World.init s₀) w)
    (hok : ∀ w e, ok w e → Arrives w e) {t : Nat} {a : Act} {rest : List Act}
    (ht : t < w.view.fresh) (hp : w.view.pending t = a :: rest) (hf : w.view.flight t = none)
    (hstep : View.Step program w .tick
      (w.view.perform t rest (exec t a (w.view.val t) w.view.shared)))
    (hkeep : ∀ p reason, a :: rest = [.checked, .freeSession p, .kick p, .removeKicked reason] →
      w.view.val t = .error → (w.view.shared.room.obj p).battleConv = 0)
    (hinv : ∀ p, (w.view.shared.room.obj p).battleConv ≠ 0 → Held w.view p) (p : Nat)
    (hconv : ((exec t a (w.view.val t) w.view.shared).state.room.obj p).battleConv ≠ 0) :
    Held (w.view.perform t rest (exec t a (w.view.val t) w.view.shared)) p ∨
      Stuck (w.view.perform t rest (exec t a (w.view.val t) w.view.shared)) := by
  have hv := h.wf.view_blank
  have hmem : a ∈ w.view.pending t := by
    rw [hp]
    exact List.mem_cons_self
  have hshape : Follows a rest := by
    have := (reach_shape h hok t).1
    rwa [hp] at this
  have hfacts := reach_conversations hinit h hok
  have hshared : (w.view.perform t rest
      (exec t a (w.view.val t) w.view.shared)).shared =
        (exec t a (w.view.val t) w.view.shared).state := View.shared_perform _
  -- what the act pushes is pending unless it raises, and so is everything else
  have hpush : (exec t a (w.view.val t) w.view.shared).outcome ≠ .raise →
      ∀ c ∈ (exec t a (w.view.val t) w.view.shared).push,
      c.toAct ∈ (w.view.perform t rest (exec t a (w.view.val t) w.view.shared)).pending t :=
    fun hraise c hc => View.pushed_perform hv ht hraise hc
  by_cases hgiven : a = .allocGiven ∧ ∃ l, w.view.val t = .infos l
  · -- the sessions have just come
    obtain ⟨rfl, l, hval⟩ := hgiven
    have hraise := exec_allocGiven hinit h hok hmem hf hval
    replace hpush := hpush hraise
    have hzero := battleConv_of_asking hinit h hok hmem (.inr rfl)
    have hb := exec_branch t .allocGiven (w.view.val t) w.view.shared
    have hdoomed := doomed_of_callScene (a := .allocGiven) hv rest ht hf
      (q := .batchAddPlayer (l.map fun info => (info.playerid, info.conv)))
    generalize exec t .allocGiven (w.view.val t) w.view.shared = e at *
    cases hb with
    | allocError he | allocNothing he =>
        rw [hval] at he
        first | cases he | exact (he l rfl).elim
    | allocUnknown => exact (hraise rfl).elim
    | declined _ _ ha => rcases ha with ha | ha | ha <;> cases ha
    | allocGiven l' r hl hr =>
        obtain rfl : l = l' := by
          rw [hval] at hl
          exact Ans.infos.inj hl
        have hsame := storeConvs_battleConv w.view.shared.room l p
        have htable := Room.SameTable.storeConvs w.view.shared.room l
        have hstate := storeConvs_roomState w.view.shared.room l
        rw [hr] at hsame htable hstate
        rcases hsame with hsame | ⟨info, hinfo, rfl, hin, -⟩
        · exact (hconv (hsame.trans (hzero p))).elim
        · have hin' : info.playerid ∈ r.players := htable.players ▸ hin
          rcases reach_asking hinit h hok hmem (.inr rfl) with hs | ⟨-, hsent⟩
          · refine .inl (.room ?_ ?_)
            · rw [hshared]
              exact hin'
            · rw [hshared]
              change r.closing = false
              rw [closing_congr hstate, Room.closing, hs]
          · refine .inl (.doomed t l ?_ (List.mem_map_of_mem hinfo) ?_ (hdoomed rfl rfl hsent))
            · exact hpush _ (List.mem_singleton_self _)
            · rw [hshared]
              exact hin'
  · by_cases hremoved : ∃ reason, a = .removePreparing p reason ∧ p ∈ w.view.shared.room.players
    · -- the player itself is removed
      obtain ⟨reason, rfl, hin⟩ := hremoved
      have he : exec t (.removePreparing p reason) (w.view.val t) w.view.shared =
          goOn (w.view.shared.withRoom { w.view.shared.room with
            players := w.view.shared.room.players.filter (· ≠ p) })
          [clearOnePlayerState p, .act (.freeSession p), .act (.kick p),
            .act (.removeKicked reason)] := by
        simp [exec, removePreparing, hin]
      have hraise : (exec t (.removePreparing p reason) (w.view.val t)
          w.view.shared).outcome ≠ .raise := by
        rw [he]
        simp
      refine .inl (.removing t reason ?_ ?_)
      · exact hpush hraise (.act (.freeSession p)) (by rw [he]; simp)
      · exact hpush hraise (.act (.removeKicked reason)) (by rw [he]; simp)
    · -- the player stays in the table, and its conversation is an old one
      have hold : (w.view.shared.room.obj p).battleConv ≠ 0 := by
        cases exec_sessionMove t a (w.view.val t) w.view.shared with
        | same _ _ _ hr => exact hr.battleConv p ▸ hconv
        | dropped _ _ _ q hg hq hr =>
            have hpq : p ≠ q := by
              rintro rfl
              exact hconv hq
            exact hr p hpq ▸ hconv
        | initialised list n _ _ hs he =>
            rw [he] at hconv
            have hsame := (initialised_battleConv w.view.shared list n p).resolve_left hconv
            exact hsame ▸ hconv
        | picked n _ _ hg hr => rwa [hr] at hconv
        | given l _ _ hval => exact (hgiven ⟨rfl, l, hval⟩).elim
      obtain ⟨hgivenMem, hgate⟩ := hfacts.stored p hold
      have hsess : w.view.shared.hasSession p := ⟨hgate, hold⟩
      have hplayers : p ∈ w.view.shared.room.players →
          p ∈ (exec t a (w.view.val t) w.view.shared).state.room.players := by
        intro hin
        rcases exec_players t a (w.view.val t) w.view.shared with
          he | ⟨list, n, -, hu, -⟩ | ⟨q, reason, rfl, -, he⟩
        · rwa [he]
        · rw [given_of_uninit hinit h hok hu] at hgivenMem
          cases hgivenMem
        · have hpq : p ≠ q := by
            rintro rfl
            exact hremoved ⟨reason, rfl, hin⟩
          rw [he]
          simp [hin, hpq]
      by_cases hraise : (exec t a (w.view.val t) w.view.shared).outcome = .raise
      · exact held_raise hinit h hok ht hp hraise hstep
          (fun reason hkey herr => hold (hkeep p reason hkey herr)) hplayers (hinv p hold)
      have hkept : ∀ u b, b ∈ w.view.pending u → u ≠ t ∨ b ∈ rest →
          b ∈ (w.view.perform t rest (exec t a (w.view.val t) w.view.shared)).pending u :=
        fun u b hb hne => View.kept_perform hv ht hraise hb hne
      refine .inl ?_
      have hnext : (∃ c ∈ (exec t a (w.view.val t) w.view.shared).push,
          c.toAct.frees w.view.shared.room.players p) →
            Held (w.view.perform t rest (exec t a (w.view.val t) w.view.shared)) p := by
        rintro ⟨c, hc, hfr⟩
        refine .pending t c.toAct (hpush hraise c hc) ?_
        rw [hshared]
        exact frees_mono hplayers hfr
      cases hinv p hold with
      | room hin ho =>
          cases hc : (exec t a (w.view.val t) w.view.shared).state.room.closing with
          | false =>
              refine .room ?_ ?_
              · rw [hshared]
                exact hplayers hin
              · rw [hshared]
                exact hc
          | true =>
              refine hnext (exec_closing ho ?_ hc hin hsess hconv)
              cases hcl : a.closes with
              | none => rfl
              | some final =>
                  have hbefore := before_of_closes hinit h hok hmem hcl
                  have hclosing : w.view.shared.room.closing = true := by
                    rw [Room.closing, show w.view.shared.room.roomState = _ from hbefore]
                    rcases closes_final hshape hcl with rfl | rfl <;> rfl
                  rw [ho] at hclosing
                  cases hclosing
      | pending u b hb hfr =>
          rcases View.pending_cases hp hb with hother | ⟨rfl, rfl⟩
          · refine .pending u b (hkept u b hb hother) ?_
            rw [hshared]
            exact frees_mono hplayers hfr
          · exact hnext (exec_frees hfr hsess hraise hconv)
      | doomed u infos hb hids hin hd =>
          rcases View.pending_cases hp hb with hother | ⟨rfl, rfl⟩
          · have hut : u ≠ t := by
              rcases hother with hne | hrest
              · exact hne
              · cases trails_of_follows hshape hrest
            have hufresh : u ≠ w.view.fresh := by
              rintro rfl
              rw [hv.pending _ le_rfl] at hb
              cases hb
            refine .doomed u infos (hkept u _ hb hother) hids ?_ ?_
            · rw [hshared]
              exact hplayers hin
            · refine hd.congr (fun hs => hs.step h.wf (reach_inbox hinit h) hstep) ?_ ?_
              · rw [View.flight_perform hv ht, if_neg hut]
              · rw [View.val_perform hufresh, if_neg hut]
          · have hval := hd.after hf
            have he : exec u (.allocAdded infos) (w.view.val u) w.view.shared =
                allocFree w.view.shared (infos.map BattleInfo.playerid) := by
              simp [exec, allocAdded, hval]
            rw [he] at hnext hconv ⊢
            exact hnext (frees_allocFree hids hin hsess hconv)
      | removing u reason hb hr =>
          rcases View.pending_cases hp hb with hother | ⟨rfl, rfl⟩
          · refine .removing u reason (hkept u _ hb hother) (hkept u _ hr ?_)
            rcases View.pending_cases hp hr with hlast | ⟨rfl, rfl⟩
            · exact hlast
            · refine hother.imp id fun hin => ?_
              cases hshape
              cases hin
          · have hdrop := freePlayerBattleSession_cases w.view.shared p [] (ret w.view.shared .nil)
            rw [exec, (hdrop.resolve_left fun h => h.1 hsess).2] at hconv
            simp [Sys.dropSession] at hconv

/-- Somebody is on the way to every session, or nobody is left to close the room. -/
theorem reach_held (hinit : Initial s₀) (h : Reach program ok (World.init s₀) w)
    (hok : ∀ w e, ok w e → Arrives w e) (hkeep : ∀ w e, ok w e → Unbroken w e) :
    Stuck w.view ∨ ∀ p, (w.view.shared.room.obj p).battleConv ≠ 0 → Held w.view p := by
  refine h.view_invariant (fun v => Stuck v ∨ ∀ p, (v.shared.room.obj p).battleConv ≠ 0 →
    Held v p) ?_ ?_
  · exact .inr fun p hp => (hp (hinit.battleConv p)).elim
  · intro w e v hw hinv he hstep
    rcases hinv with hstuck | hinv
    · exact .inl (hstuck.step hw.wf (hok w e he) hstep)
    rw [or_iff_not_imp_left]
    intro hstuck p hconv
    have hv := hw.wf.view_blank
    -- nothing but the room's own acts touches what the room holds
    have hcongr : v.shared.room.players = w.view.shared.room.players →
        v.shared.room.roomState = w.view.shared.room.roomState →
        v.shared.room.obj = w.view.shared.room.obj →
        (∀ t b, b ∈ w.view.pending t → b ∈ v.pending t) →
        (∀ t infos, .allocAdded infos ∈ w.view.pending t → Doomed w.view t → Doomed v t) →
        Held v p := by
      intro hplayers hstate hobj hpending hdoomed
      rw [hobj] at hconv
      cases hinv p hconv with
      | room hp ho => exact .room (hplayers ▸ hp) ((closing_congr hstate).trans ho)
      | pending t b hb hf => exact .pending t b (hpending t b hb) (hplayers ▸ hf)
      | doomed t infos hb hids hp hd =>
          exact .doomed t infos (hpending t _ hb) hids (hplayers ▸ hp) (hdoomed t infos hb hd)
      | removing t reason hb hr => exact .removing t reason (hpending t _ hb) (hpending t _ hr)
    have hbefore : ∀ t, ShutdownBefore w.view t → ShutdownBefore v t :=
      fun t hs => hs.step hw.wf (reach_inbox hinit hw) hstep
    cases hstep with
    | same => exact hinv p hconv
    | spawn a =>
        refine hcongr rfl rfl rfl (fun t b hb => (View.mem_pending_create hv).mpr (.inl hb)) ?_
        intro t infos hb hd
        refine hd.congr (hbefore t) (View.flight_create hv) (View.val_create_of_ne ?_)
        rintro rfl
        rw [hv.pending _ le_rfl] at hb
        cases hb
    | perform t a rest stack ht hr hk hp hf =>
        rw [View.shared_perform] at hconv
        refine (held_perform hinit hw hok ht hp hf (.perform t a rest stack ht hr hk hp hf)
          (fun p reason hkey herr => hkeep w _ he rfl t p reason hr (hp.trans hkey) herr)
          hinv p hconv).resolve_right hstuck
    | serve t c q s r hq ha =>
        have hroom : s.room = w.view.shared.room := serve_room ha
        refine hcongr (by rw [View.shared_answer, hroom]) (by rw [View.shared_answer, hroom])
          (by rw [View.shared_answer, hroom]) (fun _ _ hb => hb) ?_
        intro u infos hb hd
        by_cases hut : u = t
        · subst hut
          have hscene : q.toScene = true := by
            have hwaits := (reach_shape hw hok u).2 q hq
            cases hpend : w.view.pending u with
            | nil =>
                rw [hpend] at hb
                cases hb
            | cons b rest =>
                have hshape := (reach_shape hw hok u).1
                rw [hpend] at hb hwaits hshape
                have hhead : b = .allocAdded infos := by
                  rcases List.mem_cons.mp hb with hb | hb
                  · exact hb.symm
                  · cases trails_of_follows hshape hb
                subst hhead
                cases q <;> first | rfl | simp [Waits, AfterKick] at hwaits
          have herr : r = .error := (hd.before (by rw [hq]; simp)).error
            (reach_inbox hinit hw) hscene ha
          refine ⟨fun hne => ?_, fun _ => ?_⟩
          · simp [View.answer] at hne
          · simp [View.answer, herr, Ans.truthy]
        · exact hd.congr (hbefore u) (by simp [View.answer, hut]) (by simp [View.answer, hut])
    | env e s henv =>
        have hroom := environment_room henv
        refine hcongr ?_ ?_ ?_ (fun _ _ hb => hb) fun u infos hb hd =>
          hd.congr (hbefore u) rfl rfl
        · change s.room.players = _
          rw [hroom]
        · change s.room.roomState = _
          rw [hroom]
        · change s.room.obj = _
          rw [hroom]

/-! ## All sessions are given back -/

/-- Every conversation the room has been given stands in an object or has been passed
to {lit}`free`. -/
theorem given_accounted (hinit : Initial s₀) (h : Reach program ok (World.init s₀) w)
    (hok : ∀ w e, ok w e → Arrives w e) {c : Nat} (hc : c ∈ w.view.shared.given) :
    c ∈ w.view.shared.freed ∨ ∃ p, (w.view.shared.room.obj p).battleConv = c := by
  refine h.view_invariant (fun v => ∀ c ∈ v.shared.given, c ∈ v.shared.freed ∨
    ∃ p, (v.shared.room.obj p).battleConv = c) ?_ ?_ c hc
  · intro c hc
    rw [show (World.init s₀ : RoomWorld).view.shared = s₀ from rfl, hinit.given] at hc
    cases hc
  · intro w e v hw hinv he hstep c hc
    cases hstep with
    | same => exact hinv c hc
    | spawn a => exact hinv c hc
    | serve t k q s r hq ha =>
        have hledger := serve_sameLedger ha
        rw [View.shared_answer, hledger.given] at hc
        rw [View.shared_answer, hledger.freed, serve_room ha]
        exact hinv c hc
    | env e s henv =>
        have hledger := environment_sameLedger henv
        have hc : c ∈ s.given := hc
        rw [hledger.given] at hc
        change c ∈ s.freed ∨ ∃ p, (s.room.obj p).battleConv = c
        rw [hledger.freed, environment_room henv]
        exact hinv c hc
    | perform t a rest stack ht hr hk hp hf =>
        rw [View.shared_perform] at hc ⊢
        change c ∈ (exec t a (w.view.val t) w.view.shared).state.given at hc
        change c ∈ (exec t a (w.view.val t) w.view.shared).state.freed ∨
          ∃ p, ((exec t a (w.view.val t) w.view.shared).state.room.obj p).battleConv = c
        have hmem : a ∈ w.view.pending t := by
          rw [hp]
          exact List.mem_cons_self
        rcases exec_given t a (w.view.val t) w.view.shared with hsame | ⟨l, rfl, hval, hnew⟩
        · rw [hsame] at hc
          have hold := hinv c hc
          cases exec_sessionMove t a (w.view.val t) w.view.shared with
          | same _ _ _ hr hfreed =>
              rw [hfreed]
              refine hold.imp id ?_
              rintro ⟨p, hp⟩
              exact ⟨p, (hr.battleConv p).trans hp⟩
          | dropped _ _ _ q hg hq hr hfreed =>
              rw [hfreed]
              rcases hold with hold | ⟨p, rfl⟩
              · exact .inl (List.mem_cons_of_mem _ hold)
              · by_cases hpq : p = q
                · subst hpq
                  exact .inl List.mem_cons_self
                · exact .inr ⟨p, hr p hpq⟩
          | initialised list n _ _ hs he =>
              rw [given_of_uninit hinit hw hok hs] at hc
              cases hc
          | picked n _ _ hg hr hfreed =>
              rw [hfreed, hr]
              exact hold
          | given l _ _ hval hroom =>
              rw [given_of_asking hinit hw hok hmem (.inr rfl)] at hc
              cases hc
        · rw [hnew, given_of_asking hinit hw hok hmem (.inr rfl), List.append_nil] at hc
          obtain ⟨info, hinfo, rfl⟩ := List.mem_map.mp hc
          have hids := ((reach_conversations hinit hw hok).answer t l hmem hf hval).1
          have hout := exec_allocGiven hinit hw hok hmem hf hval
          have hb := exec_branch t .allocGiven (w.view.val t) w.view.shared
          generalize exec t .allocGiven (w.view.val t) w.view.shared = e at hb hout ⊢
          rw [hval] at hb
          cases hb with
          | allocError he => cases he
          | allocNothing he => exact (he l rfl).elim
          | allocUnknown => exact (hout rfl).elim
          | declined _ _ ha => rcases ha with ha | ha | ha <;> cases ha
          | allocGiven l' r hl hr' =>
              cases hl
              exact .inr ⟨info.playerid, storeConvs_stored hr' hids info hinfo⟩

/-- The timers of the room. -/
def Act.isTimer : Act → Bool
  | .prepareTimer | .prepareTimeout | .roundTimer | .roundOver => true
  | _ => false

/-- Every handler that has started has returned, with a value or with an error; timers may still
be asleep. -/
def HandlersReturned (v : RoomView) : Prop :=
  ∀ t, ∀ a ∈ v.pending t, a.isTimer = true

/-- When the room has reached its end and every handler has returned, all
conversations have been passed to {lit}`free`. -/
theorem given_subset_freed (hinit : Initial s₀) (h : Reach program ok (World.init s₀) w)
    (hok : ∀ w e, ok w e → Arrives w e) (hkeep : ∀ w e, ok w e → Unbroken w e)
    (hdone : HandlersReturned w.view)
    (hfinal : w.shared.room.roomState = .finished ∨ w.shared.room.roomState = .aborted) :
    w.shared.given ⊆ w.shared.freed := by
  have hstate : w.view.shared.room.roomState = w.shared.room.roomState := rfl
  intro c hc
  rcases given_accounted hinit h hok hc with hfreed | ⟨p, rfl⟩
  · exact hfreed
  · have hne := (reach_conversations hinit h hok).nonzero _ hc
    rcases reach_held hinit h hok hkeep with hstuck | hheld
    · have hsettled := hstuck.settled
      rw [hstate] at hsettled
      rcases hfinal with hs | hs <;> rw [hs] at hsettled <;> cases hsettled
    · cases hheld p hne with
      | room hp ho =>
          rw [Room.closing, hstate] at ho
          rcases hfinal with hs | hs <;> rw [hs] at ho <;> cases ho
      | pending t b hb hf =>
          have ht := hdone t b hb
          cases b <;> first | exact hf.elim | cases ht
      | doomed t infos hb => cases hdone t _ hb
      | removing t reason hb => cases hdone t _ hb

/-! ## One life and one end -/

/-- What every run keeps to in the world {lit}`w`, and in its next step. -/
structure OneWay (w : RoomWorld) : Prop where
  forward : ∀ e w', Arrives w e → Step program w e w' →
    RoomState.Forward w.shared.room.roomState w'.shared.room.roomState
  batchAllocs : w.shared.batchAllocs ≤ 1
  endMails : ∀ p, endMails p w.shared.mail ≤ 1

/-- One life, and in the end every session is given back. -/
structure OneLife (w : RoomWorld) : Prop extends OneWay w where
  freed : HandlersReturned w.view →
    w.shared.room.roomState = .finished ∨ w.shared.room.roomState = .aborted →
      w.shared.given ⊆ w.shared.freed

/-- {lit}`room_state` only moves forward, sessions are asked for at most once, and no player is
told the end twice. -/
theorem reach_oneWay (hinit : Initial s₀) (h : Reach program ok (World.init s₀) w)
    (hok : ∀ w e, ok w e → Arrives w e) : OneWay w where
  forward _ _ _ hstep := step_forward hinit h hok hstep
  batchAllocs := batchAllocs_le_one hinit h hok
  endMails := endMails_le_one hinit h hok

/-- A room has one life in every run.  When no error ends the removal of a player with a session,
all sessions have been given back in the end. -/
theorem room_one_life (s₀ : Sys) (hinit : Initial s₀) :
    (∀ w, Reach program Arrives (World.init s₀) w → OneWay w) ∧
      ∀ w, Reach program (fun w e => Arrives w e ∧ Unbroken w e) (World.init s₀) w → OneLife w := by
  refine ⟨fun w h => reach_oneWay hinit h fun _ _ h => h, fun w h => ?_⟩
  refine ⟨reach_oneWay hinit h fun _ _ h => h.1, ?_⟩
  exact given_subset_freed hinit h (fun _ _ h => h.1) fun _ _ h => h.2

/-- Every handler of the world has returned. -/
def handlersReturned? (w : RoomWorld) : Bool :=
  (List.range w.fresh).all fun t => (w.view.pending t).all Act.isTimer

theorem handlersReturned_of_handlersReturned? (hw : w.Wf) (h : handlersReturned? w = true) :
    HandlersReturned w.view := by
  intro t
  by_cases ht : t < w.fresh
  · exact List.all_eq_true.mp (List.all_eq_true.mp h t (List.mem_range.mpr ht))
  · rw [hw.view_blank.pending t (not_lt.mp ht)]
    simp

/-- The step ends no removal of a player with a session. -/
def unbroken? (w : RoomWorld) : RoomEvent → Bool
  | .tick =>
      match w.running with
      | none => true
      | some t =>
          match w.view.pending t with
          | .checked :: .freeSession p :: _ =>
              w.view.val t != .error || (w.view.shared.room.obj p).battleConv == 0
          | _ => true
  | _ => true

theorem unbroken_of_unbroken? {w : RoomWorld} {e : RoomEvent} (h : unbroken? w e = true) :
    Unbroken w e := by
  rintro rfl t p reason hr hp herr
  simpa [unbroken?, hr, hp, herr] using h

/-- Two players play a whole game: it starts, player one leaves, and the room finishes. -/
def playedByTwo : List RoomEvent :=
  [.spawn (.initRoom [⟨1, 11, "a"⟩, ⟨2, 12, "a"⟩] 1), .resume 0, .resume 1,
    .spawn (.prepare 1), .resume 2, .spawn (.prepare 2), .resume 3,
    .serve 3 (.found 77), .resume 3, .serve 3 .answer, .resume 3, .serve 3 .answer, .resume 3,
    .spawn (.battleReady 77 1 1000001 true), .resume 4,
    .spawn (.battleReady 77 2 1000002 true), .resume 5, .serve 5 .answer, .resume 5,
    .serve 5 .answer, .resume 5, .serve 5 .answer, .resume 5, .serve 5 .answer, .resume 5,
    .serve 5 .answer, .resume 5, .resume 6, .spawn (.leave 1 "leave"), .resume 7,
    .serve 7 .answer, .resume 7, .serve 7 .answer, .resume 7, .serve 7 .answer, .resume 7,
    .serve 7 .answer, .resume 7, .serve 7 .answer, .resume 7, .serve 7 .answer, .resume 7]

/-- At the end of the game both sessions have been given back. -/
theorem room_one_life_two : ∃ w : RoomWorld, OneLife w ∧
    w.shared.room.roomState = .finished ∧ w.shared.given = [1000001, 1000002] ∧
    w.shared.given ⊆ w.shared.freed := by
  have hok : ∀ w e, (arrives? w e && unbroken? w e) = true → Arrives w e ∧ Unbroken w e := by
    intro w e h
    obtain ⟨harrives, hunbroken⟩ := Bool.and_eq_true_iff.mp h
    exact ⟨arrives_of_arrives? harrives, unbroken_of_unbroken? hunbroken⟩
  obtain ⟨w, hreach, htest⟩ := exists_reach_of_play? (P := program) hok 60
    (World.init (prewarmed fun _ => none)) playedByTwo (fun w => handlersReturned? w &&
      decide (w.shared.room.roomState = .finished ∧ w.shared.given = [1000001, 1000002]))
    (by decide)
  simp only [Bool.and_eq_true, decide_eq_true_eq] at htest
  obtain ⟨hreturned, hstate, hgiven⟩ := htest
  have hlife : OneLife w := (room_one_life _ (initial_prewarmed _)).2 w hreach
  have hdone := handlersReturned_of_handlersReturned? hreach.wf hreturned
  exact ⟨w, hlife, hstate, hgiven, hlife.freed hdone (.inl hstate)⟩

/-- Three players have sessions.  Redis refuses to delete the record of player three, who leaves,
and then the room is aborted. -/
def abortedByThree : List RoomEvent :=
  [.spawn (.initRoom [⟨1, 11, "a"⟩, ⟨2, 12, "a"⟩, ⟨3, 13, "a"⟩] 1), .resume 0, .resume 1,
    .spawn (.prepare 1), .resume 2, .spawn (.prepare 2), .resume 3, .spawn (.prepare 3), .resume 4,
    .serve 4 (.found 77), .resume 4, .serve 4 .answer, .resume 4, .serve 4 .answer, .resume 4,
    .spawn (.leave 3 "leave"), .resume 5, .serve 5 (.fail false), .resume 5,
    .spawn (.abortRoomWithoutClearState "abort"), .resume 6, .serve 6 .answer, .resume 6,
    .serve 6 .answer, .resume 6, .serve 6 .answer, .resume 6]

/-- The session of player three is never given back. -/
theorem not_one_life : ¬ ∀ s₀ w, Initial s₀ → Reach program Arrives (World.init s₀) w →
    OneLife w := by
  intro h
  obtain ⟨w, hreach, htest⟩ := exists_reach_of_play? (P := program)
    (fun w e => arrives_of_arrives? (w := w) (e := e)) 60 (World.init (prewarmed fun _ => none))
    abortedByThree (fun w => handlersReturned? w &&
      decide (w.shared.room.roomState = .aborted ∧ 1000003 ∈ w.shared.given ∧
        1000003 ∉ w.shared.freed))
    (by decide)
  simp only [Bool.and_eq_true, decide_eq_true_eq] at htest
  obtain ⟨hreturned, hstate, hgiven, hfreed⟩ := htest
  have hdone := handlersReturned_of_handlersReturned? hreach.wf hreturned
  exact hfreed ((h _ w (initial_prewarmed _) hreach).freed hdone (.inr hstate) hgiven)

end BallServer.RoomService
