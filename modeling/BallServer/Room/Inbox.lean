import BallServer.Room.Footprint

/-!
# The order in which the scene works

The scene executes the room's requests one after the other, in the order of
sending.  So whatever the room asks for after {lit}`shutdown_scene` fails.

Main results:

- Structure {lit}`InboxOrdered` and theorem {lit}`reach_inbox`: the inbox holds
  every coroutine that waits for the scene once, and nobody else.
- Theorems {lit}`ShutdownSent.step` and {lit}`ShutdownBefore.step`: a shutdown that
  has been sent takes effect before everything that is sent later.
-/

namespace BallServer.RoomService

open BallServer Coroutine

/-- Serving a request to the scene takes it out of the inbox. -/
theorem serve_inbox {t : Nat} {q : Req} {c : Choice} {s s' : Sys} {r : Ans}
    (h : serve t q c s = some (s', r)) :
    (q.toScene = true ∧ s.scene.inbox = t :: s'.scene.inbox ∧
      (s'.scene.closed = true ↔ s.scene.closed = true ∨ q = .shutdownScene) ∧
      (s.scene.closed = true → r = .error)) ∨
      q.toScene = false ∧ s'.scene = s.scene := by
  rcases serve_cases h with ⟨hq, hhead, hscene⟩ | ⟨hq, hother⟩
  · refine .inl ⟨hq, ?_⟩
    have hcons : s.scene.inbox = t :: s.scene.inbox.tail := (List.cons_head?_tail hhead).symm
    rcases hscene with ⟨hclosed, rfl, hr⟩ | ⟨hclosed, rfl, -⟩
    · exact ⟨hcons, by simp [hclosed], fun _ => hr⟩
    · cases q with
      | batchAddPlayer list =>
          simp only [sceneExecute, Scene.batchAddPlayer]
          split_ifs <;> exact ⟨hcons, by simp [hclosed], by simp [hclosed]⟩
      | kickPlayer p =>
          simp only [sceneExecute, Scene.kickPlayer]
          split_ifs <;> exact ⟨hcons, by simp [hclosed], by simp [hclosed]⟩
      | startGame | getWeight =>
          exact ⟨hcons, by simp [sceneExecute, Scene.startGame, hclosed], by simp [hclosed]⟩
      | shutdownScene => exact ⟨hcons, by simp [sceneExecute], by simp [hclosed]⟩
      | _ => cases hq
  · refine .inr ⟨hq, ?_⟩
    rcases hother with ⟨rfl, -⟩ | ⟨rfl, -⟩
    · cases q <;> rfl
    · rfl

/-- The surroundings neither read the scene's inbox nor shut the scene down. -/
theorem environment_inbox {e : Env} {s s' : Sys} (h : environment e s = some s') :
    s'.scene.inbox = s.scene.inbox ∧ s'.scene.closed = s.scene.closed := by
  cases e with
  | frame dead weight whole =>
      simp only [environment] at h
      split_ifs at h
      cases h
      simp only [Scene.update, Scene.flushPendingEnters, Scene.eatCell,
        Scene.flushPendingRebirth, Scene.flushPendingLeaves]
      split_ifs <;> exact ⟨rfl, rfl⟩
  | elapse =>
      cases h
      exact ⟨rfl, rfl⟩
  | matchWrite =>
      obtain ⟨d, -, rfl⟩ := Option.map_eq_some_iff.mp h
      exact ⟨rfl, rfl⟩
  | matchJoin | matchCancel | matchLeave =>
      simp only [environment] at h
      split_ifs at h
      obtain ⟨d, -, rfl⟩ := Option.map_eq_some_iff.mp h
      exact ⟨rfl, rfl⟩

/-- The inbox holds every coroutine that waits for the scene once, and nobody
else. -/
structure InboxOrdered (v : RoomView) : Prop where
  nodup : v.shared.scene.inbox.Nodup
  mem : ∀ t, t ∈ v.shared.scene.inbox ↔ ∃ q, v.flight t = some q ∧ q.toScene = true

theorem mem_sends {t u : Nat} {o : Outcome Req Ans} :
    u ∈ sends t o ↔ u = t ∧ ∃ q, View.flightAfter o = some q ∧ q.toScene = true := by
  cases o with
  | call q => by_cases hq : q.toScene = true <;> simp [sends, hq]
  | ret v => simp [sends]
  | raise => simp [sends]

/-- The inbox after an act. -/
theorem exec_inbox (t : Nat) (a : Act) (v : Ans) (s : Sys) :
    (exec t a v s).state.scene.inbox = s.scene.inbox ++ sends t (exec t a v s).outcome ∧
      (exec t a v s).state.scene.closed = s.scene.closed := by
  have hnoted : (s.noted a v).scene = s.scene := by
    unfold Sys.noted
    split <;> rfl
  rw [(exec_kept t a v s).scene, hnoted]
  exact ⟨rfl, rfl⟩

section Runs

variable {ok : Guard Sys LockName Act Req Ans Choice Env} {w : RoomWorld} {s₀ : Sys}

/-- The inbox is in order in every run. -/
theorem reach_inbox (hinit : Initial s₀) (h : Reach program ok (World.init s₀) w) :
    InboxOrdered w.view := by
  refine h.view_invariant InboxOrdered ?_ ?_
  · constructor
    · rw [show (World.init s₀ : RoomWorld).view.shared = s₀ from rfl, hinit.inbox]
      exact List.nodup_nil
    · intro t
      rw [show (World.init s₀ : RoomWorld).view.shared = s₀ from rfl, hinit.inbox]
      simp [World.view, World.init, Co.blank, Status.request]
  · intro w e v hw hinv hok hstep
    have hv := hw.wf.view_blank
    cases hstep with
    | same => exact hinv
    | spawn a =>
        refine ⟨hinv.nodup, fun t => ?_⟩
        rw [View.flight_create hv]
        exact hinv.mem t
    | perform t a rest stack ht hr hk hp hf =>
        have hin := (exec_inbox t a (w.view.val t) w.view.shared).1
        have hfree : t ∉ w.view.shared.scene.inbox := by
          intro hmem
          obtain ⟨q, hq, -⟩ := (hinv.mem t).mp hmem
          rw [hf] at hq
          cases hq
        constructor
        · rw [View.shared_perform]
          change (exec t a (w.view.val t) w.view.shared).state.scene.inbox.Nodup
          rw [hin, List.nodup_append]
          refine ⟨hinv.nodup, ?_, ?_⟩
          · cases (exec t a (w.view.val t) w.view.shared).outcome with
            | call q =>
                simp only [sends]
                split_ifs <;> simp
            | ret v => exact List.nodup_nil
            | raise => exact List.nodup_nil
          · intro u hu u' hu' heq
            rw [(mem_sends.mp hu').1] at heq
            exact hfree (heq ▸ hu)
        · intro u
          rw [View.shared_perform, View.flight_perform hv ht]
          change u ∈ (exec t a (w.view.val t) w.view.shared).state.scene.inbox ↔ _
          rw [hin, List.mem_append, mem_sends]
          by_cases hu : u = t
          · subst hu
            simp only [hfree, true_and, false_or, if_true]
            exact Iff.rfl
          · simp only [hu, false_and, or_false, if_false]
            exact hinv.mem u
    | serve t c q s r hq ha =>
        have hflight : ∀ u, u ≠ t → (w.view.answer t s r).flight u = w.view.flight u := by
          intro u hu
          simp [View.answer, hu]
        have hself : (w.view.answer t s r).flight t = none := by simp [View.answer]
        rcases serve_inbox ha with ⟨hscene, hcons, -⟩ | ⟨hother, hsame⟩
        · have hnd := hinv.nodup
          rw [hcons, List.nodup_cons] at hnd
          refine ⟨hnd.2, fun u => ?_⟩
          rw [View.shared_answer]
          by_cases hu : u = t
          · subst hu
            simp [hnd.1, hself]
          · rw [hflight u hu, ← hinv.mem u, hcons]
            simp [hu]
        · refine ⟨?_, fun u => ?_⟩
          · rw [View.shared_answer, hsame]
            exact hinv.nodup
          · rw [View.shared_answer, hsame]
            by_cases hu : u = t
            · subst hu
              rw [hinv.mem u, hself, hq]
              simp [hother]
            · rw [hflight u hu]
              exact hinv.mem u
    | env e s henv =>
        refine ⟨?_, fun u => ?_⟩
        · change s.scene.inbox.Nodup
          rw [(environment_inbox henv).1]
          exact hinv.nodup
        · change u ∈ s.scene.inbox ↔ _
          rw [(environment_inbox henv).1]
          exact hinv.mem u

end Runs

/-! ## Shutting the scene down -/

/-- The scene has been shut down, or is about to be. -/
def ShutdownSent (v : RoomView) : Prop :=
  v.shared.scene.closed = true ∨
    ∃ u ∈ v.shared.scene.inbox, v.flight u = some .shutdownScene

/-- The scene will have been shut down before it comes to coroutine {lit}`t`. -/
def ShutdownBefore (v : RoomView) (t : Nat) : Prop :=
  v.shared.scene.closed = true ∨
    ∃ l₁ u l₂, v.shared.scene.inbox = l₁ ++ u :: l₂ ∧ v.flight u = some .shutdownScene ∧ t ∈ l₂

section Shutdown

variable {w : RoomWorld} {v : RoomView} {e : RoomEvent} {t : Nat}

/-- A shutdown that has been sent stays sent. -/
theorem ShutdownSent.step (hs : ShutdownSent w.view) (hw : w.Wf)
    (hstep : View.Step program w e v) : ShutdownSent v := by
  have hv := hw.view_blank
  cases hstep with
  | same => exact hs
  | spawn a =>
      rcases hs with hc | ⟨u, hu, hq⟩
      · exact .inl hc
      · exact .inr ⟨u, hu, by rw [View.flight_create hv]; exact hq⟩
  | perform t a rest stack ht hr hk hp hf =>
      obtain ⟨hin, hclosed⟩ := exec_inbox t a (w.view.val t) w.view.shared
      rcases hs with hc | ⟨u, hu, hq⟩
      · refine .inl ?_
        rw [View.shared_perform]
        exact hclosed.trans hc
      · have hut : u ≠ t := by
          rintro rfl
          rw [hf] at hq
          cases hq
        refine .inr ⟨u, ?_, ?_⟩
        · rw [View.shared_perform]
          exact hin ▸ List.mem_append_left _ hu
        · rw [View.flight_perform hv ht, if_neg hut]
          exact hq
  | serve t c q s r hq ha =>
      rcases serve_inbox ha with ⟨-, hcons, hclosed, -⟩ | ⟨hother, hsame⟩
      · rcases hs with hc | ⟨u, hu, hqu⟩
        · exact .inl (hclosed.mpr (.inl hc))
        · by_cases hut : u = t
          · subst hut
            rw [hq] at hqu
            exact .inl (hclosed.mpr (.inr (Option.some.inj hqu)))
          · rw [hcons] at hu
            refine .inr ⟨u, (List.mem_cons.mp hu).resolve_left hut, ?_⟩
            simpa [View.answer, hut] using hqu
      · rcases hs with hc | ⟨u, hu, hqu⟩
        · refine .inl ?_
          rw [View.shared_answer, hsame]
          exact hc
        · have hut : u ≠ t := by
            rintro rfl
            rw [hq] at hqu
            cases hqu
            cases hother
          refine .inr ⟨u, ?_, ?_⟩
          · rw [View.shared_answer, hsame]
            exact hu
          · simpa [View.answer, hut] using hqu
  | env e s henv =>
      obtain ⟨hin, hclosed⟩ := environment_inbox henv
      rcases hs with hc | ⟨u, hu, hq⟩
      · exact .inl (hclosed.trans hc)
      · exact .inr ⟨u, by change u ∈ s.scene.inbox; rw [hin]; exact hu, hq⟩

/-- What has been sent after the shutdown fails. -/
theorem ShutdownBefore.error {q : Req} {c : Choice} {s : Sys} {r : Ans}
    (hs : ShutdownBefore w.view t) (hi : InboxOrdered w.view) (hq : q.toScene = true)
    (ha : serve t q c w.view.shared = some (s, r)) : r = .error := by
  rcases serve_inbox ha with ⟨-, hcons, -, herror⟩ | ⟨hother, -⟩
  · rcases hs with hc | ⟨l₁, u, l₂, hin, -, ht⟩
    · exact herror hc
    · have hnd := hi.nodup
      rw [hin] at hcons hnd
      cases l₁ with
      | nil =>
          obtain ⟨rfl, -⟩ := List.cons.inj hcons
          exact ((List.nodup_cons.mp hnd).1 ht).elim
      | cons x l₁ =>
          obtain ⟨rfl, -⟩ := List.cons.inj hcons
          simp [ht] at hnd
  · rw [hq] at hother
    cases hother

/-- What has been sent after the shutdown stays behind it. -/
theorem ShutdownBefore.step (hs : ShutdownBefore w.view t) (hw : w.Wf)
    (hi : InboxOrdered w.view) (hstep : View.Step program w e v) : ShutdownBefore v t := by
  have hv := hw.view_blank
  cases hstep with
  | same => exact hs
  | spawn a =>
      rcases hs with hc | ⟨l₁, u, l₂, hin, hq, ht⟩
      · exact .inl hc
      · exact .inr ⟨l₁, u, l₂, hin, by rw [View.flight_create hv]; exact hq, ht⟩
  | perform t' a rest stack ht' hr hk hp hf =>
      obtain ⟨hin', hclosed⟩ := exec_inbox t' a (w.view.val t') w.view.shared
      rcases hs with hc | ⟨l₁, u, l₂, hin, hq, ht⟩
      · refine .inl ?_
        rw [View.shared_perform]
        exact hclosed.trans hc
      · have hut : u ≠ t' := by
          rintro rfl
          rw [hf] at hq
          cases hq
        refine .inr ⟨l₁, u, l₂ ++ sends t' (exec t' a (w.view.val t') w.view.shared).outcome,
          ?_, ?_, List.mem_append_left _ ht⟩
        · rw [View.shared_perform]
          change (exec t' a (w.view.val t') w.view.shared).state.scene.inbox = _
          rw [hin', hin]
          simp
        · rw [View.flight_perform hv ht', if_neg hut]
          exact hq
  | serve t' c q s r hq' ha =>
      have hflight : ∀ u, u ≠ t' → (w.view.answer t' s r).flight u = w.view.flight u := by
        intro u hu
        simp [View.answer, hu]
      rcases serve_inbox ha with ⟨-, hcons, hclosed, -⟩ | ⟨hother, hsame⟩
      · rcases hs with hc | ⟨l₁, u, l₂, hin, hq, ht⟩
        · exact .inl (hclosed.mpr (.inl hc))
        · rw [hin] at hcons
          cases l₁ with
          | nil =>
              -- the shutdown itself is served
              obtain ⟨rfl, -⟩ := List.cons.inj hcons
              rw [hq'] at hq
              exact .inl (hclosed.mpr (.inr (Option.some.inj hq)))
          | cons x l₁ =>
              obtain ⟨rfl, htail⟩ := List.cons.inj hcons
              have hnd := hi.nodup
              rw [hin] at hnd
              have hux : u ≠ x := by
                rintro rfl
                simp at hnd
              refine .inr ⟨l₁, u, l₂, ?_, ?_, ht⟩
              · rw [View.shared_answer]
                exact htail.symm
              · rw [hflight u hux]
                exact hq
      · rcases hs with hc | ⟨l₁, u, l₂, hin, hq, ht⟩
        · refine .inl ?_
          rw [View.shared_answer, hsame]
          exact hc
        · have hut : u ≠ t' := by
            rintro rfl
            rw [hq'] at hq
            cases hq
            cases hother
          refine .inr ⟨l₁, u, l₂, ?_, ?_, ht⟩
          · rw [View.shared_answer, hsame]
            exact hin
          · rw [hflight u hut]
            exact hq
  | env e s henv =>
      obtain ⟨hin', hclosed⟩ := environment_inbox henv
      rcases hs with hc | ⟨l₁, u, l₂, hin, hq, ht⟩
      · exact .inl (hclosed.trans hc)
      · exact .inr ⟨l₁, u, l₂, hin'.trans hin, hq, ht⟩

end Shutdown

end BallServer.RoomService
