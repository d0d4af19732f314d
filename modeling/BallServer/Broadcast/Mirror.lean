import BallServer.Broadcast.Foods

/-!
# The food of a client is the food of the scene

A client that has had a snapshot and every later frame on its link knows where every food
is, although the frames only tell what changes.  It does not matter what it knew before the
snapshot, which frames other players missed, how long messages wait at the gateway, and when
players enter, leave and come back.

Main results:

- Definition {lit}`World.Mirrored`: every client is a mirror of the food.
- Theorem {lit}`World.Mirrored.step`: every event keeps it.
- Theorem {lit}`foods_mirrored`: what a client knows after any message of any run.
-/

namespace BallServer.Broadcast

open BallServer.Ball
open BallServer.Replica (Entry)

variable {K : Type} [Field K] [LinearOrder K]

/-! ## The messages of a scene -/

variable [FloorRing K]

omit [Field K] [LinearOrder K] [FloorRing K] in
theorem sendFrameMsg_eq_some {x : Player K} {m m' : Msg K} (h : sendFrameMsg x m = some m') :
    m' = m := by
  unfold sendFrameMsg at h
  split at h
  · exact (Option.some.inj h).symm
  · cases h

/-- Who enters changes no food. -/
theorem enter_foodMap (o : Order) (s : Scene K) (p : Nat) :
    foodMap (Scene.enter o s p) = foodMap s := by
  have hindex (l : List Nat) (s₁ : Scene K) :
      foodMap (l.foldl Scene.indexCell s₁) = foodMap s₁ :=
    Scene.foldl_view (v := foodMap) (f := Scene.indexCell) (fun _ _ => rfl) l s₁
  unfold Scene.enter
  split
  · rfl
  · exact hindex _ _

theorem flushPendingEnters_foodMap (o : Order) (s : Scene K) :
    foodMap (Scene.flushPendingEnters o s) = foodMap s := by
  unfold Scene.flushPendingEnters
  split
  · exact Scene.foldl_view (v := foodMap) (enter_foodMap o) _ s
  · rfl

theorem receive_enterSnapshotTo {o : Order} {s : Scene K} {tick p : Nat} {m : Msg K}
    (h : enterSnapshotTo o s tick p = some m) (known : Nat → Option (K × K)) :
    receive known m = foodMap s := by
  obtain ⟨r, -, hsend⟩ := Option.bind_eq_some_iff.mp h
  rw [sendFrameMsg_eq_some hsend, receive_snapshotMsg, enter_foodMap]
  exact Scene.foldl_view (v := foodMap) (enter_foodMap o) _ s

theorem receive_resyncTo {o : Order} {s : Scene K} {tick p conv : Nat} {m : Msg K}
    (h : resyncTo o s tick p conv = some m) (known : Nat → Option (K × K)) :
    receive known m = foodMap s := by
  obtain ⟨r, -, hsend⟩ := Option.bind_eq_some_iff.mp h
  split at hsend
  · cases hsend
  · rw [sendFrameMsg_eq_some hsend, receive_snapshotMsg]

variable [Sqrt K]

theorem receive_frameUpdateTo {o : Order} {d : Scene.Draws} {s : Scene K} {tick p : Nat}
    {m : Msg K} (h : frameUpdateTo (s.broadcast o d) tick p = some m) :
    receive (foodMap s) m = foodMap (s.broadcast o d) := by
  obtain ⟨r, -, hsend⟩ := Option.bind_eq_some_iff.mp h
  rw [sendFrameMsg_eq_some hsend]
  exact frame_foods o d s tick p _

/-! ## Runs -/

/-- Every client that is in sync knows this food, or will when it has had what waits for it. -/
def World.Mirrored (w : World K) (foods : Nat → Option (K × K)) : Prop :=
  ∀ p, Replica.Mirrored receive (w.channel p) foods

variable {w : World K} {foods foods' : Nat → Option (K × K)} {msgs : Nat → Option (Msg K)}

omit [FloorRing K] [Sqrt K] in
/-- A frame leads from the food before it to the food after it. -/
theorem World.Mirrored.sendUpdates (h : w.Mirrored foods)
    (hmsgs : ∀ p m, msgs p = some m → receive foods m = foods') :
    (w.sendUpdates foods' msgs).Mirrored foods' := by
  intro p
  have hleads : (Entry.update (msgs p) foods').Leads receive foods := fun m hm => hmsgs p m hm
  exact (h p).send hleads

omit [FloorRing K] [Sqrt K] in
/-- A snapshot has the food of now. -/
theorem World.Mirrored.sendSnapshots (h : w.Mirrored foods)
    (hmsgs : ∀ p m, msgs p = some m → ∀ known, receive known m = foods) :
    (w.sendSnapshots foods msgs).Mirrored foods := by
  intro p
  unfold World.sendSnapshots
  dsimp only
  split
  · rename_i m hm
    have hleads : (Entry.snapshot m foods).Leads receive foods := hmsgs p m hm
    exact (h p).send hleads
  · exact h p

omit [FloorRing K] [Sqrt K] in
/-- One channel takes a step that keeps it a mirror. -/
theorem World.Mirrored.update (h : w.Mirrored foods) {p : Nat}
    {c : Replica.Channel (Msg K) (Nat → Option (K × K))} (hc : Replica.Mirrored receive c foods) :
    ({ w with channel := Function.update w.channel p c } : World K).Mirrored foods := by
  intro q
  by_cases hq : q = p
  · subst hq
    dsimp only
    rw [Function.update_self]
    exact hc
  · dsimp only
    rw [Function.update_of_ne hq]
    exact h q

variable [IsStrictOrderedRing K]

omit [IsStrictOrderedRing K] in
/-- Every event keeps clients and scene together. -/
theorem World.Mirrored.step (h : w.Mirrored (foodMap w.scene)) (e : Event K) :
    (w.step e).Mirrored (foodMap (w.step e).scene) := by
  cases e with
  | scene e =>
      by_cases hframe : ∃ o d, e = .frame o d
      · obtain ⟨o, d, rfl⟩ := hframe
        unfold World.step World.tick
        dsimp only
        split
        · exact h
        · rename_i hstarted
          have hstarted : w.scene.gameStarted = true := by simpa using hstarted
          have hafter : foodMap (w.scene.update o d) = foodMap (w.scene.broadcast o d) := by
            rw [Scene.update_eq o d hstarted]
            exact flushPendingEnters_foodMap o _
          have hnow : ({ w with frame := w.frame + 1, scene := w.scene.update o d } :
              World K).Mirrored (foodMap w.scene) := h
          have hupdates : (World.sendUpdates _ (foodMap (w.scene.broadcast o d))
              (frameUpdateTo (w.scene.broadcast o d) (w.frame + 1))).Mirrored _ :=
            hnow.sendUpdates fun p m hm => receive_frameUpdateTo hm
          have hsnapshots : (World.sendSnapshots _ _
              (enterSnapshotTo o (w.scene.broadcast o d) (w.frame + 1))).Mirrored _ :=
            hupdates.sendSnapshots fun p m hm => receive_enterSnapshotTo hm
          change World.Mirrored _ (foodMap (w.scene.update o d))
          rw [hafter]
          exact hsnapshots
      · have hstep : w.step (.scene e) = { w with scene := w.scene.step e } := by
          cases e with
          | frame o d => exact absurd ⟨o, d, rfl⟩ hframe
          | _ => rfl
        have hpantry := Scene.step_pantry w.scene e fun o d he => hframe ⟨o, d, he⟩
        have hfoods : foodMap (w.scene.step e) = foodMap w.scene := by
          have hin : (w.scene.step e).foods = w.scene.foods :=
            congrArg Scene.Pantry.foods hpantry
          have htables : (w.scene.step e).foodTables = w.scene.foodTables :=
            congrArg Scene.Pantry.foodTables hpantry
          funext f
          unfold foodMap
          rw [hin, htables]
        rw [hstep]
        change World.Mirrored _ (foodMap (w.scene.step e))
        rw [hfoods]
        exact h
  | resync o p conv =>
      refine h.sendSnapshots fun q m hm => ?_
      by_cases hq : q = p
      · subst hq
        rw [Function.update_self] at hm
        exact receive_resyncTo hm
      · rw [Function.update_of_ne hq] at hm
        cases hm
  | handle p => exact h.update (h p).handle
  | active p b => exact h.update ((h p).reconnect b)

theorem run_mirrored (es : List (Event K)) :
    (World.start.run es).Mirrored (foodMap (World.start.run es).scene) :=
  List.foldlRecOn (motive := fun w : World K => w.Mirrored (foodMap w.scene)) es World.step
    (fun _ => .empty) fun _ h e _ => h.step e

/-- After any message that was passed on in sync, whatever the client knew before, its food is
the food of the scene when the message was sent; and when nothing waits for a client in sync it
is the food of now.  The message of a frame leads from the food before it to the food after it. -/
theorem foods_mirrored (es : List (Event K)) (p : Nat) :
    let w := World.start.run es
    (∀ l x, l ++ [x] <+: (w.channel p).passed → x.synced = true →
      ∀ known, Replica.replay receive known (l ++ [x]) = x.state) ∧
    ((w.channel p).synced = true → (w.channel p).queue = [] →
      ∀ known, Replica.replay receive known (w.channel p).passed = foodMap w.scene) ∧
    ∀ (o : Order) (d : Scene.Draws) (tick : Nat) (x : Player K),
      receive (foodMap w.scene) (frameUpdateMsg (Scene.broadcast o d w.scene) tick p x) =
        foodMap (Scene.broadcast o d w.scene) := by
  have h := run_mirrored es p
  refine ⟨h.entries, fun hsynced hqueue known => ?_, fun o d tick x => frame_foods o d _ tick p x⟩
  obtain ⟨first, htells, hknown⟩ := h.queued
  rw [hqueue] at htells
  exact (hknown hsynced known).trans htells

/-- Player 7 enters in the first frame, and in the second there is new food. -/
def entering : List (Event ℚ) :=
  let here : Fin 1001 := ⟨4, by decide⟩
  let there : Fin 1001 := ⟨900, by decide⟩
  [.scene (.batchAdd [(7, 1, (here, here))]), .scene (.online 7 true), .active 7 true,
    .scene .startGame, .scene (.frame .ascending ⟨fun _ => (here, here), none⟩),
    .scene (.frame .ascending ⟨fun _ => (here, here), some (there, here)⟩),
    .handle 7, .handle 7, .handle 7]

/-- The snapshot makes her forget the food she knew, and the frame tells her of the new one. -/
theorem foods_mirrored_entering :
    ((World.start.run entering).channel 7).passed.length = 2 ∧
      (List.range 3).map (Replica.replay receive (fun _ => some (1, 1))
        ((World.start.run entering).channel 7).passed) = [none, some (900, 4), none] := by
  have hsynced : ((World.start.run entering).channel 7).synced = true := by decide +kernel
  have hqueue : ((World.start.run entering).channel 7).queue.length = 0 := by decide +kernel
  have hfoods : (List.range 3).map (foodMap (World.start.run entering).scene) =
      [none, some (900, 4), none] := by
    decide +kernel
  refine ⟨by decide +kernel, ?_⟩
  rw [(foods_mirrored entering 7).2.1 hsynced (List.length_eq_zero_iff.mp hqueue)]
  exact hfoods

end BallServer.Broadcast
