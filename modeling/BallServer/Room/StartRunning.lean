import BallServer.Room.Footprint
import BallServer.Room.Shape

/-!
# How many players a game starts with

A game starts when the last player's battle session is ready.  Two places notice:
{lit}`battle_ready`, which runs without a lock, and {lit}`remove_preparing_player`,
which runs under {lit}`prepare_room_lock`.  Only the second one counts the players.
Between the moment it takes a player out of the table and the moment it counts
those that are left it is suspended three times, and {lit}`battle_ready` may start
the game meanwhile.

Main results:

- Theorem {lit}`startRunning_counted`: when every {lit}`battle_ready` that completes
  the readiness finds two players or no removal between its deletion and its
  count, a game starts with two players or more, all of them prepared and ready.
- Theorem {lit}`startRunning_short`: a run in which a game starts with one player.
-/

namespace BallServer.RoomService

open BallServer Coroutine

/-- {lit}`start_running` is entered with everybody there: whenever {lit}`room_state`
becomes {lit}`RUNNING`, at least two players are in the room and all entries of
{lit}`players` are prepared and ready. -/
def StartsFull (w w' : RoomWorld) : Prop :=
  w.shared.room.roomState ≠ .running → w'.shared.room.roomState = .running →
    2 ≤ w'.shared.room.inroomPlayerCount ∧ w'.shared.room.allPrepared = true ∧
      w'.shared.room.allBattleReady = true

instance (w w' : RoomWorld) : Decidable (StartsFull w w') := by
  unfold StartsFull
  infer_instance

/-- A {lit}`remove_preparing_player` has deleted its player and has not yet counted
the others. -/
def RemovalOpen (v : RoomView) : Prop := ∃ t reason, .removeKicked reason ∈ v.pending t

/-- The condition under which games start with enough players. -/
structure StartsCounted (w : RoomWorld) (e : RoomEvent) : Prop where
  arrives : Arrives w e
  /-- {lit}`init_room` is given two players or more. -/
  init : e = .tick → ∀ t list n, w.Executes t (.initRoom list n) →
    2 ≤ (list.map PlayerInfo.playerid).dedup.length
  /-- A {lit}`battle_ready` that completes the readiness finds two players left or
  no removal open. -/
  ready : e = .tick → ∀ t a, w.Executes t a → w.shared.completesReadiness a →
    2 ≤ w.shared.room.players.length ∨ ¬RemovalOpen w.view
  /-- The redis command of a removal succeeds. -/
  redis : e = .tick → ∀ t, w.Executes t .checked → w.view.val t = .error →
    ∀ reason, .removeKicked reason ∉ w.view.pending t

/-! ## The invariant -/

/-- While the room waits for its players all of them are in the room, and unless a
removal is open there are two of them; once it waits for their sessions all of
them have prepared. -/
structure Counted (v : RoomView) : Prop where
  prepared : v.shared.room.roomState = .waitBattlePrepare → v.shared.room.allPrepared = true
  inRoom : v.shared.room.preparing →
    ∀ p ∈ v.shared.room.players, (v.shared.room.obj p).inRoom = true
  two : v.shared.room.preparing → RemovalOpen v ∨ 2 ≤ v.shared.room.players.length

namespace Counted

variable {v : RoomView}

/-- While the room waits, the players in the room are those in the table. -/
theorem inroomPlayerCount_eq (h : Counted v) (hs : v.shared.room.preparing) :
    v.shared.room.inroomPlayerCount = v.shared.room.players.length :=
  List.countP_eq_length.mpr (h.inRoom hs)

/-- Nobody leaves the room while it waits. -/
theorem exec_inRoom (h : Counted v) (t : Nat) (a : Act) (x : Ans)
    (hs : v.shared.room.preparing) :
    ∀ p ∈ (exec t a x v.shared).state.room.players,
      ((exec t a x v.shared).state.room.obj p).inRoom = true := by
  intro p hp
  have hold : p ∈ v.shared.room.players := by
    rcases exec_players t a x v.shared with he | ⟨list, n, -, hu, -⟩ | ⟨q, reason, -, -, he⟩
    · rwa [he] at hp
    · rcases hs with hs | hs <;> rw [hu] at hs <;> cases hs
    · rw [he] at hp
      exact (List.mem_filter.mp hp).1
  rcases RoomService.exec_inRoom t a x v.shared p with he | ⟨list, n, -, hu, -⟩ | ⟨reason, -, -, hr, -⟩
  · rw [he]
    exact h.inRoom hs p hold
  · rcases hs with hs | hs <;> rw [hu] at hs <;> cases hs
  · rcases hs with hs | hs <;> rw [hr] at hs <;> cases hs

/-- An act other than a removal's count keeps an open removal open, unless it is a
failed redis command of the removal. -/
theorem removalOpen_perform {t : Nat} {a : Act} {rest : List Act} (hv : v.Blank)
    (ht : t < v.fresh) (hp : v.pending t = a :: rest) (hshape : Follows a rest)
    (ha : ∀ reason, a ≠ .removeKicked reason)
    (hredis : a = .checked → v.val t = .error → ∀ reason, .removeKicked reason ∉ v.pending t)
    (h : RemovalOpen v) :
    RemovalOpen (v.perform t rest (exec t a (v.val t) v.shared)) := by
  obtain ⟨u, reason, hu⟩ := h
  refine ⟨u, reason, ?_⟩
  rw [View.mem_pending_perform hv ht]
  by_cases hut : u = t
  · subst hut
    refine .inl ⟨rfl, ?_⟩
    have hrest : .removeKicked reason ∈ rest := by
      rw [hp] at hu
      rcases List.mem_cons.mp hu with h | h
      · exact (ha reason h.symm).elim
      · exact h
    rcases follows_removeKicked hshape hrest with ⟨p, rfl⟩ | rfl | ⟨p, rfl⟩ | ⟨p, rfl⟩
    · simp [exec, hrest]
    · have hval : v.val u ≠ .error := fun he => hredis rfl he reason hu
      simp [exec, hval, hrest]
    · rcases freePlayerBattleSession_cases v.shared p [] (ret v.shared .nil) with ⟨-, he⟩ | ⟨-, he⟩ <;>
        rw [exec, he] <;> simp [hrest]
    · simp [exec, hrest]
  · exact .inr (.inl ⟨hut, hu⟩)

/-- What is pending when a removal has just deleted its player. -/
theorem removalOpen_removed {t p : Nat} {reason : String} {rest : List Act} (hv : v.Blank)
    (ht : t < v.fresh) (hp : p ∈ v.shared.room.players) :
    RemovalOpen (v.perform t rest (exec t (.removePreparing p reason) (v.val t) v.shared)) := by
  refine ⟨t, reason, ?_⟩
  rw [View.mem_pending_perform hv ht]
  exact .inl ⟨rfl, by simp [exec, removePreparing, hp]⟩

/-- A room that waits for the sessions has just seen everybody prepared or has
waited before. -/
theorem waitBattlePrepare_of_exec {t : Nat} {a : Act} {x : Ans} {s : Sys} {rest : List Act}
    (ha : Follows a rest) (hs : (exec t a x s).state.room.roomState = .waitBattlePrepare) :
    s.room.roomState = .waitBattlePrepare ∨ (exec t a x s).state.room.allPrepared = true := by
  cases exec_roomMove t a x s with
  | stay _ _ he => exact .inl (he.symm.trans hs)
  | prepared _ _ _ _ hprep => exact .inr hprep
  | initialised list n _ hu he =>
      rw [he] at hs
      cases hs
  | readyStart _ _ _ _ _ _ _ he | removeStart _ _ _ he | aborting _ _ _ he
  | abortedAtOnce _ _ _ he | finishing _ _ _ _ he =>
      rw [he] at hs
      cases hs
  | closed _ _ final hc he =>
      rw [he] at hs
      rcases closes_final ha hc with rfl | rfl <;> cases hs

/-- A removal that leaves the room waiting has counted two players. -/
theorem two_of_removeKicked {t : Nat} {reason : String} {x : Ans} {s : Sys}
    (hs : (exec t (.removeKicked reason) x s).state.room.preparing) :
    2 ≤ s.room.inroomPlayerCount := by
  by_contra hlt
  have hcount : s.room.inroomPlayerCount < 2 := by omega
  have he : exec t (.removeKicked reason) x s = abortRoom s.broadcastPreparedPlayers reason := by
    simp only [exec, removeKicked]
    exact if_pos hcount
  rw [he, Room.preparing, abortRoom_roomState] at hs
  cases hc : s.broadcastPreparedPlayers.room.closing with
  | true =>
      rw [hc, if_pos rfl] at hs
      rcases hs with hs | hs <;> simp [Room.closing, hs] at hc
  | false =>
      rw [hc, if_neg (by simp)] at hs
      rcases hs with hs | hs <;> cases hs

/-- Executing an act keeps two players in a room that waits, or a removal open. -/
theorem two_perform {w : RoomWorld} {t : Nat} {a : Act} {rest : List Act} (h : Counted w.view)
    (hw : w.Wf) (hok : StartsCounted w .tick) (hex : w.Executes t a)
    (ht : t < w.view.fresh) (hp : w.view.pending t = a :: rest) (hshape : Follows a rest)
    (hold : w.view.shared.room.preparing)
    (hs : (exec t a (w.view.val t) w.view.shared).state.room.preparing) :
    RemovalOpen (w.view.perform t rest (exec t a (w.view.val t) w.view.shared)) ∨
      2 ≤ (exec t a (w.view.val t) w.view.shared).state.room.players.length := by
  have hv := hw.view_blank
  by_cases hk : ∃ reason, a = .removeKicked reason
  · obtain ⟨reason, rfl⟩ := hk
    have htwo := two_of_removeKicked hs
    rw [h.inroomPlayerCount_eq hold] at htwo
    rw [(exec_sameTable t _ _ rfl).players]
    exact .inr htwo
  · push Not at hk
    rcases h.two hold with hopen | htwo
    · refine .inl (removalOpen_perform hv ht hp hshape hk ?_ hopen)
      rintro rfl hval
      exact hok.redis rfl t hex hval
    · rcases exec_players t a (w.view.val t) w.view.shared with
        he | ⟨list, n, -, hu, -⟩ | ⟨p, reason, rfl, hmem, -⟩
      · rw [he]
        exact .inr htwo
      · rcases hold with hs' | hs' <;> rw [hu] at hs' <;> cases hs'
      · exact .inl (removalOpen_removed hv ht hmem)

/-- Executing an act keeps the invariant. -/
theorem perform {w : RoomWorld} {t : Nat} {a : Act} {rest : List Act} (h : Counted w.view)
    (hw : w.Wf) (hok : StartsCounted w .tick) (hex : w.Executes t a)
    (ht : t < w.view.fresh) (hp : w.view.pending t = a :: rest) (hshape : Follows a rest) :
    Counted (w.view.perform t rest (exec t a (w.view.val t) w.view.shared)) := by
  have hpre := preparing_of_exec (t := t) (v := w.view.val t) (s := w.view.shared) hshape
  constructor
  case prepared =>
    rw [View.shared_perform]
    intro hs
    rcases waitBattlePrepare_of_exec hshape hs with hold | hprep
    · refine exec_allPrepared t a _ _ ?_ (h.prepared hold)
      rw [hold]
      simp
    · exact hprep
  case inRoom =>
    rw [View.shared_perform]
    intro hs
    rcases hpre hs with hold | ⟨hu, list, n, rfl, he⟩
    · exact h.exec_inRoom t a _ hold
    · intro p hmem
      rw [he] at hmem ⊢
      obtain ⟨info, -, -, hobj⟩ := initialised_obj _ list n hmem
      rw [hobj]
      rfl
  case two =>
    rw [View.shared_perform]
    intro hs
    rcases hpre hs with hold | ⟨hu, list, n, rfl, he⟩
    · exact h.two_perform hw hok hex ht hp hshape hold hs
    · rw [he]
      exact .inr (hok.init rfl t list n hex)

/-- Only the room's own code touches what the invariant speaks of. -/
theorem congr {v' : RoomView} (h : Counted v)
    (hstate : v'.shared.room.roomState = v.shared.room.roomState)
    (htable : v.shared.room.SameTable v'.shared.room)
    (hpending : ∀ t b, b ∈ v.pending t → b ∈ v'.pending t) : Counted v' where
  prepared hs := htable.allPrepared.trans (h.prepared (hstate ▸ hs))
  inRoom hs p hp := by
    rw [htable.inRoom]
    rw [Room.preparing, hstate] at hs
    exact h.inRoom hs p (htable.players ▸ hp)
  two hs := by
    rw [Room.preparing, hstate] at hs
    rw [htable.players]
    rcases h.two hs with ⟨t, reason, hmem⟩ | htwo
    · exact .inl ⟨t, reason, hpending t _ hmem⟩
    · exact .inr htwo

end Counted

/-- The invariant holds in every run that meets the condition. -/
theorem reach_counted {s₀ : Sys} {w : RoomWorld} (hinit : Initial s₀)
    (h : Reach program StartsCounted (World.init s₀) w) : Counted w.view := by
  refine h.view_invariant Counted ?_ ?_
  · have hu : ¬s₀.room.preparing := by simp [Room.preparing, hinit.roomState]
    refine ⟨fun hs => ?_, fun hs => (hu hs).elim, fun hs => (hu hs).elim⟩
    exact (hu (.inr hs)).elim
  · intro w e v hw hinv hok hstep
    have hv := hw.wf.view_blank
    cases hstep with
    | same => exact hinv
    | spawn a =>
        exact hinv.congr rfl (.refl _) fun t b hb =>
          (View.mem_pending_create hv).mpr (.inl hb)
    | perform t a rest stack ht hr hk hp hf =>
        have hshape := (reach_shape hw (fun _ _ h => h.arrives) t).1
        rw [hp] at hshape
        exact hinv.perform hw.wf hok ⟨hr, stack, hk⟩ ht hp hshape
    | serve t c q s r hq ha =>
        have hroom : (w.view.answer t s r).shared.room = w.view.shared.room := serve_room ha
        exact hinv.congr (by rw [hroom]) (by rw [hroom]; exact .refl _) fun _ _ hb => hb
    | env e s he =>
        have hsame := environment_sameTable he
        exact hinv.congr hsame.1 hsame.2 fun _ _ hb => hb

/-- When every {lit}`battle_ready` that completes the readiness finds two players or
no open removal, a game starts with two players or more, all of them prepared and
ready. -/
theorem startRunning_counted {s₀ : Sys} {w w' : RoomWorld} {e : RoomEvent}
    (hinit : Initial s₀) (h : Reach program StartsCounted (World.init s₀) w)
    (hok : StartsCounted w e) (hstep : Step program w e w') : StartsFull w w' := by
  intro hnot hrun
  have hinv := reach_counted hinit h
  have hview := hstep.view_cases h.wf
  have hshared : w'.shared = w'.view.shared := rfl
  rw [hshared] at hrun ⊢
  generalize w'.view = v at hview hrun ⊢
  cases hview with
  | same => exact (hnot hrun).elim
  | spawn a => exact (hnot hrun).elim
  | serve t c q s r hq ha =>
      rw [View.shared_answer, serve_room ha] at hrun
      exact (hnot hrun).elim
  | env e s he =>
      have hs : s.room.roomState = .running := hrun
      rw [(environment_sameTable he).1] at hs
      exact (hnot hs).elim
  | perform t a rest stack ht hr hk hp hf =>
      rw [View.shared_perform] at hrun ⊢
      have hshape := (reach_shape h (fun _ _ h => h.arrives) t).1
      rw [hp] at hshape
      change (exec t a (w.view.val t) w.view.shared).state.room.roomState = _ at hrun
      change 2 ≤ (exec t a (w.view.val t) w.view.shared).state.room.inroomPlayerCount ∧
        (exec t a (w.view.val t) w.view.shared).state.room.allPrepared = true ∧
        (exec t a (w.view.val t) w.view.shared).state.room.allBattleReady = true
      have hmove := exec_roomMove t a (w.view.val t) w.view.shared
      have htable := fun ha => exec_sameTable t (a := a) (w.view.val t) w.view.shared ha
      generalize exec t a (w.view.val t) w.view.shared = eff at hrun hmove htable ⊢
      cases hmove with
      | stay _ _ he => exact (hnot (he.symm.trans hrun)).elim
      | readyStart source p conv b _ hs ha he =>
          have htwo : 2 ≤ w.view.shared.room.inroomPlayerCount := by
            rw [hinv.inroomPlayerCount_eq (.inr hs)]
            rcases hok.ready rfl t _ ⟨hr, stack, hk⟩ ha with htwo | hclosed
            · exact htwo
            · exact (hinv.two (.inr hs)).resolve_left hclosed
          rw [(htable rfl).inroomPlayerCount, he]
          exact ⟨htwo, ha.2.2.2.2.1, ha.2.2.2.2.2⟩
      | removeStart reason _ hs he hready hcount =>
          rw [(htable rfl).inroomPlayerCount, (htable rfl).allPrepared]
          exact ⟨hcount, hinv.prepared hs, hready⟩
      | initialised list n _ hu he =>
          rw [he] at hrun
          cases hrun
      | prepared _ _ _ he | aborting _ _ _ he | abortedAtOnce _ _ _ he | finishing _ _ _ _ he =>
          rw [he] at hrun
          cases hrun
      | closed _ _ final hc he =>
          rw [he] at hrun
          rcases closes_final hshape hc with rfl | rfl <;> cases hrun

/-- A check that implies the condition. -/
def startsCounted? (w : RoomWorld) : RoomEvent → Bool
  | .spawn a => a.arrives?
  | .tick =>
      match w.running with
      | none => true
      | some t =>
          match (w.co t).stack with
          | .code (.act (.initRoom list _)) :: _ =>
              decide (2 ≤ (list.map PlayerInfo.playerid).dedup.length)
          | .code (.act (.battleReady ..)) :: _ => decide (2 ≤ w.shared.room.players.length)
          | .code (.act .checked) :: _ => decide (w.view.val t ≠ .error)
          | _ => true
  | _ => true

theorem startsCounted_of_startsCounted? {w : RoomWorld} {e : RoomEvent}
    (h : startsCounted? w e = true) : StartsCounted w e := by
  constructor
  case arrives =>
    rintro a rfl
    exact Act.arrives_of_arrives? h
  case init =>
    rintro rfl t list n ⟨hr, rest, hk⟩
    simpa [startsCounted?, hr, hk] using h
  case ready =>
    rintro rfl t a ⟨hr, rest, hk⟩ hc
    cases a with
    | battleReady => exact .inl (by simpa [startsCounted?, hr, hk] using h)
    | _ => exact hc.elim
  case redis =>
    rintro rfl t ⟨hr, rest, hk⟩ hval
    simp [startsCounted?, hr, hk, hval] at h

/-- The players one and two are in the room and have prepared; the gateway has
given them the conversations 1000001 and 1000002. -/
def preparedByTwo : List RoomEvent :=
  [.spawn (.initRoom [⟨1, 11, "a"⟩, ⟨2, 12, "a"⟩] 1), .resume 0, .resume 1,
    .spawn (.prepare 1), .resume 2, .spawn (.prepare 2), .resume 3,
    .serve 3 (.found 77), .resume 3, .serve 3 .answer, .resume 3, .serve 3 .answer, .resume 3]

/-- Both players' sessions become ready and the game starts. -/
theorem startRunning_counted_two : ∃ w w' : RoomWorld, StartsFull w w' ∧
    w.shared.room.roomState ≠ .running ∧ w'.shared.room.roomState = .running := by
  obtain ⟨w, w', hreach, hok, hstep, htest⟩ := exists_tick_of_play? (P := program)
    (fun w e => startsCounted_of_startsCounted? (w := w) (e := e)) 60 5 (World.init (prewarmed fun _ => none))
    (preparedByTwo ++ [.spawn (.battleReady 77 1 1000001 true), .resume 4,
      .spawn (.battleReady 77 2 1000002 true)])
    (fun w w' =>
      decide (w.shared.room.roomState ≠ .running ∧ w'.shared.room.roomState = .running))
    (by decide)
  have hstates := of_decide_eq_true htest
  exact ⟨w, w', startRunning_counted (initial_prewarmed _) hreach hok hstep, hstates⟩

/-- Player two leaves and is taken out of the table; before its record is deleted,
player one's session becomes ready and the game starts with one player. -/
theorem startRunning_short : ∃ (s : Sys) (w w' : RoomWorld) (e : RoomEvent), Initial s ∧
    Reach program Arrives (World.init s) w ∧ Arrives w e ∧ Step program w e w' ∧
    ¬StartsFull w w' := by
  obtain ⟨w, w', hreach, hok, hstep, htest⟩ := exists_tick_of_play? (P := program)
    (fun w e => arrives_of_arrives? (w := w) (e := e)) 60 5 (World.init (prewarmed fun _ => none))
    (preparedByTwo ++ [.spawn (.leave 2 "leave"), .resume 4,
      .spawn (.battleReady 77 1 1000001 true)])
    (fun w w' => decide (¬StartsFull w w')) (by decide)
  exact ⟨_, w, w', .tick, initial_prewarmed _, hreach, hok, hstep, of_decide_eq_true htest⟩

end BallServer.RoomService
