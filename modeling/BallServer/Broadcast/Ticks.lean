import BallServer.Broadcast.Mirror
import BallServer.Broadcast.Visible
import BallServer.Predict.Remote

/-!
# How a client draws the cells of others

The messages that reach a player have ticks that never decrease, however long they wait at the
gateway, so that the client can draw the cells of other players between the states it is told.

Main results:

- Definition {lit}`World.InOrder`: the ticks of all messages, passed on or not.
- Theorem {lit}`World.InOrder.step`: every event keeps them in order.
- Theorem {lit}`remote_drawn`: where a cell is drawn, in every run.
-/

namespace BallServer.Broadcast

open BallServer.Ball
open BallServer.Ball.Remote
open BallServer.Replica (Entry)

variable {K : Type} [Field K] [LinearOrder K]

/-- The tick of a message. -/
def Msg.tick : Msg K → Nat
  | .sceneSnapshot _ _ _ tick => tick
  | .frameUpdate _ _ _ _ tick _ _ _ _ => tick

/-- Messages whose ticks do not decrease, and none is after this frame. -/
structure InOrder (frame : Nat) (l : List (Msg K)) : Prop where
  ticks : l.Pairwise fun a b => a.tick ≤ b.tick
  le : ∀ m ∈ l, m.tick ≤ frame

variable {frame frame' : Nat} {l l' : List (Msg K)}

omit [Field K] [LinearOrder K] in
theorem InOrder.sublist (h : InOrder frame l) (hl : l'.Sublist l) : InOrder frame l' :=
  ⟨h.ticks.sublist hl, fun m hm => h.le m (hl.subset hm)⟩

omit [Field K] [LinearOrder K] in
/-- A message of a frame that is not earlier. -/
theorem InOrder.append (h : InOrder frame l) (hle : frame ≤ frame') {m : Option (Msg K)}
    (hm : ∀ m' ∈ m, m'.tick = frame') : InOrder frame' (l ++ m.toList) := by
  have htick (a : Msg K) (ha : a ∈ m.toList) : a.tick = frame' := hm a (Option.mem_toList.mp ha)
  constructor
  · refine List.pairwise_append.mpr ⟨h.ticks, ?_, fun a ha b hb => ?_⟩
    · cases m with
      | none => exact List.Pairwise.nil
      | some m => exact List.pairwise_singleton _ _
    · rw [htick b hb]
      exact (h.le a ha).trans hle
  · intro a ha
    rcases List.mem_append.mp ha with hin | hin
    · exact (h.le a hin).trans hle
    · exact (htick a hin).le

/-- All messages to all players are in order. -/
def World.InOrder (w : World K) : Prop :=
  ∀ p, Broadcast.InOrder w.frame (w.channel p).told

variable {w : World K} {foods : Nat → Option (K × K)} {msgs : Nat → Option (Msg K)}

theorem World.InOrder.sendUpdates
    (h : ∀ p, Broadcast.InOrder frame (w.channel p).told) (hle : frame ≤ w.frame)
    (hmsgs : ∀ p m, msgs p = some m → m.tick = w.frame) : (w.sendUpdates foods msgs).InOrder := by
  intro p
  have hsent := (h p).append hle fun m hm => hmsgs p m hm
  have htold := Replica.Channel.told_send (w.channel p) (.update (msgs p) foods)
  exact htold ▸ hsent

theorem World.InOrder.sendSnapshots (h : w.InOrder)
    (hmsgs : ∀ p m, msgs p = some m → m.tick = w.frame) : (w.sendSnapshots foods msgs).InOrder := by
  intro p
  unfold World.sendSnapshots
  dsimp only
  split
  · rename_i m hm
    have hsent := (h p).append le_rfl (m := some m) fun m' hm' => hmsgs p m' (hm.trans hm')
    have htold := Replica.Channel.told_send (w.channel p) (.snapshot m foods)
    rw [htold]
    exact hsent
  · exact h p

/-- One channel loses messages. -/
theorem World.InOrder.update (h : w.InOrder) {p : Nat}
    {c : Replica.Channel (Msg K) (Nat → Option (K × K))} (hc : c.told.Sublist (w.channel p).told) :
    ({ w with channel := Function.update w.channel p c } : World K).InOrder := by
  intro q
  by_cases hq : q = p
  · subst hq
    dsimp only
    rw [Function.update_self]
    exact (h q).sublist hc
  · dsimp only
    rw [Function.update_of_ne hq]
    exact h q

/-! ## Runs -/

variable [FloorRing K]

omit [Field K] [LinearOrder K] [FloorRing K] in
theorem tick_sendFrameMsg {x : Player K} {m m' : Msg K} {tick : Nat} (hm : m.tick = tick)
    (h : sendFrameMsg x m = some m') : m'.tick = tick := by
  rw [sendFrameMsg_eq_some h]
  exact hm

theorem tick_frameUpdateTo {s : Scene K} {tick p : Nat} {m : Msg K}
    (h : frameUpdateTo s tick p = some m) : m.tick = tick := by
  obtain ⟨r, -, hsend⟩ := Option.bind_eq_some_iff.mp h
  exact tick_sendFrameMsg rfl hsend

theorem tick_enterSnapshotTo {o : Order} {s : Scene K} {tick p : Nat} {m : Msg K}
    (h : enterSnapshotTo o s tick p = some m) : m.tick = tick := by
  obtain ⟨r, -, hsend⟩ := Option.bind_eq_some_iff.mp h
  exact tick_sendFrameMsg rfl hsend

theorem tick_resyncTo {o : Order} {s : Scene K} {tick p conv : Nat} {m : Msg K}
    (h : resyncTo o s tick p conv = some m) : m.tick = tick := by
  obtain ⟨r, -, hsend⟩ := Option.bind_eq_some_iff.mp h
  split at hsend
  · cases hsend
  · exact tick_sendFrameMsg rfl hsend

variable [Sqrt K]

/-- Every event keeps the ticks in order. -/
theorem World.InOrder.step (h : w.InOrder) (e : Event K) : (w.step e).InOrder := by
  cases e with
  | scene e =>
      by_cases hframe : ∃ o d, e = .frame o d
      · obtain ⟨o, d, rfl⟩ := hframe
        unfold World.step World.tick
        dsimp only
        split
        · exact fun p => ⟨(h p).ticks, fun m hm => ((h p).le m hm).trans (Nat.le_succ _)⟩
        · have hupdates : (World.sendUpdates { w with
                frame := w.frame + 1, scene := w.scene.update o d }
              (foodMap (w.scene.broadcast o d))
              (frameUpdateTo (w.scene.broadcast o d) (w.frame + 1))).InOrder :=
            World.InOrder.sendUpdates h (Nat.le_succ _) fun p m hm => tick_frameUpdateTo hm
          exact hupdates.sendSnapshots fun p m hm => tick_enterSnapshotTo hm
      · cases e with
        | frame o d => exact absurd ⟨o, d, rfl⟩ hframe
        | _ => exact h
  | resync o p conv =>
      refine h.sendSnapshots fun q m hm => ?_
      by_cases hq : q = p
      · subst hq
        rw [Function.update_self] at hm
        exact tick_resyncTo hm
      · rw [Function.update_of_ne hq] at hm
        cases hm
  | handle p => exact h.update (w.channel p).told_handle
  | active p b => exact h.update ((w.channel p).told_reconnect b)

variable [IsStrictOrderedRing K]

theorem run_inOrder (es : List (Event K)) : (World.start.run es).InOrder :=
  List.foldlRecOn (motive := fun w : World K => w.InOrder) es World.step
    (fun _ => ⟨List.Pairwise.nil, fun _ hm => absurd hm List.not_mem_nil⟩) fun _ h e _ => h.step e

/-! ## Cells of others -/

/-- What a message tells about the cell of another player. -/
def remoteStates (cellId : Int) (m : Msg K) : List (RemoteCellState K) :=
  (m.cells.filter fun info => info.cellId = cellId).map fun info =>
    ⟨m.tick, info.x, info.y, info.size, info.protectedTimer⟩

omit [Field K] [LinearOrder K] [FloorRing K] [Sqrt K] [IsStrictOrderedRing K] in
theorem remoteStates_ordered (cellId : Int) {msgs : List (Msg K)} (h : InOrder frame msgs) :
    (msgs.flatMap (remoteStates cellId)).Pairwise fun a b => a.tick ≤ b.tick := by
  have htick {m : Msg K} {a : RemoteCellState K} (ha : a ∈ remoteStates cellId m) :
      a.tick = m.tick := by
    obtain ⟨info, -, rfl⟩ := List.mem_map.mp ha
    rfl
  refine List.pairwise_flatMap.mpr ⟨fun m _ => ?_, h.ticks.imp fun hle a ha b hb => ?_⟩
  · exact List.pairwise_of_forall_mem_list fun a ha b hb => ((htick ha).trans (htick hb).symm).le
  · rw [htick ha, htick hb]
    exact_mod_cast hle

/-- In every run the ticks of the messages passed on to a player never decrease.  Whatever part
of them the client has taken since it made its view of a cell, it keeps the last eight states it
was told, one for each tick; and at every time the cell is drawn where the line through all of
them is, from the oldest of the states that are kept on, and in this state before that. -/
theorem remote_drawn (es : List (Event K)) (p : Nat) (cellId : Int) {msgs : List (Msg K)}
    (hmsgs : msgs.Sublist (((World.start.run es).channel p).passed.map (·.msg))) :
    ((((World.start.run es).channel p).passed.map (·.msg)).Pairwise fun a b => a.tick ≤ b.tick) ∧
      Ordered (recorded (msgs.flatMap (remoteStates cellId))) ∧
      buffered (msgs.flatMap (remoteStates cellId)) =
        (recorded (msgs.flatMap (remoteStates cellId))).drop
          ((recorded (msgs.flatMap (remoteStates cellId))).length - 8) ∧
      (msgs.flatMap (remoteStates cellId) ≠ [] →
        ∃ first h₀ hs, (buffered (msgs.flatMap (remoteStates cellId))).head? = some first ∧
          recorded (msgs.flatMap (remoteStates cellId)) = h₀ :: hs ∧ ∀ (v : CellView K) (t : K),
            (first.tick ≤ t → trySampleRemoteCellState v
              (buffered (msgs.flatMap (remoteStates cellId))) t = (interpolate h₀ hs t, true)) ∧
            (t ≤ first.tick → trySampleRemoteCellState v
              (buffered (msgs.flatMap (remoteStates cellId))) t = (first.values, true))) := by
  have hpassed : InOrder (World.start.run es).frame
      (((World.start.run es).channel p).passed.map (·.msg)) :=
    (run_inOrder es p).sublist (List.sublist_append_left _ _)
  have hordered := remoteStates_ordered cellId (hpassed.sublist hmsgs)
  refine ⟨hpassed.ticks, (recorded_ordered hordered).1, buffered_eq _, fun hseen => ?_⟩
  obtain ⟨first, rest, h₀, hs, hstates, hhistory, -, -, hdrawn⟩ := sample_arrivals hseen hordered
  exact ⟨first, h₀, hs, by rw [hstates]; rfl, hhistory, hdrawn⟩

/-- A view that has not been drawn. -/
def unseen : CellView ℚ where
  cellId := 1
  sortKey := 1
  stableKey := 1
  playerId := 7
  serverX := 0
  serverY := 0
  renderX := 0
  renderY := 0
  size := 1
  protectedTimerTicks := 0
  boostVx := 0
  boostVy := 0
  lastDirX := 0
  lastDirY := 0
  renderInitialized := false
  isPredicted := false
  predictedActionSeq := 0
  predictedParentStableKey := 0

/-- The cell of the player who has entered, between the snapshot and the frame after it. -/
theorem remote_drawn_entering :
    trySampleRemoteCellState unseen (buffered ((((World.start.run entering).channel 7).passed.map
      (·.msg)).flatMap (remoteStates 1))) (3 / 2) = ((4, 4, 1, 199 / 2), true) := by
  have hstates : (((World.start.run entering).channel 7).passed.map (·.msg)).flatMap
      (remoteStates 1) = [⟨1, 4, 4, 1, 100⟩, ⟨2, 4, 4, 1, 99⟩] := by
    decide +kernel
  obtain ⟨first, h₀, hs, hfirst, hhistory, hdrawn⟩ := (remote_drawn entering 7 1
    (List.Sublist.refl _)).2.2.2 (by rw [hstates]; exact List.cons_ne_nil _ _)
  have hdrawn := (hdrawn unseen (3 / 2)).1
  rw [hstates] at hfirst hhistory hdrawn ⊢
  have hbuffered : buffered [⟨1, 4, 4, 1, 100⟩, ⟨2, 4, 4, 1, 99⟩] =
      [(⟨1, 4, 4, 1, 100⟩ : RemoteCellState ℚ), ⟨2, 4, 4, 1, 99⟩] := rfl
  have hrecorded : recorded [⟨1, 4, 4, 1, 100⟩, ⟨2, 4, 4, 1, 99⟩] =
      [(⟨1, 4, 4, 1, 100⟩ : RemoteCellState ℚ), ⟨2, 4, 4, 1, 99⟩] := rfl
  rw [hbuffered] at hfirst
  obtain rfl := Option.some.inj hfirst
  obtain ⟨rfl, rfl⟩ := List.cons.inj (hhistory.symm.trans hrecorded)
  rw [hdrawn (by norm_num)]
  norm_num [interpolate, between]

end BallServer.Broadcast
