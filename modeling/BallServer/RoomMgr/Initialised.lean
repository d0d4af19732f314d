import BallServer.RoomMgr.Runs

/-!
# Handing out a room

{lit}`create_room` looks at whether its call of {lit}`init_room` has raised, and at nothing
else.  The call can also return {lit}`false`, or nothing when the handler of the room has
raised, and the room can close before the answer arrives.

Main results:

- Structure {lit}`RightReply`: what a caller of {lit}`create_room` relies on.
- Theorem {lit}`step_leaves`: a dead entry that nobody holds stays out of the pool.
- Theorem {lit}`hands_out_initialised_iff`: when the reply is right.
-/

namespace BallServer.RoomMgr

/-- How the call of {lit}`init_room` ends: with what the room returns, without a value when
its handler has raised, or with an error of the call. -/
inductive InitOutcome where
  | returned (ok : Bool)
  | noValue
  | callError
deriving DecidableEq, Repr

/-- The first result of {lit}`pcall`. -/
def InitOutcome.pcallOk : InitOutcome → Bool
  | .callError => false
  | _ => true

namespace Pool

/-- The entry is in the pool. -/
def Listed (s : Pool) (e : Nat) : Prop :=
  e ∈ s.roomPool (s.entries e).modeId

instance (s : Pool) (e : Nat) : Decidable (s.Listed e) :=
  inferInstanceAs (Decidable (_ ∈ _))

/-- The entry is out of the pool, and it was not given away. -/
structure Discarded (s : Pool) (e : Nat) : Prop where
  dead : (s.entries e).state = .dead
  unlisted : ¬ s.Listed e
  kept : ∀ c, (c, e) ∉ s.returned

/-- The reply of {lit}`create_room` to the end of {lit}`init_room`: the room is given away
only if it is initialised and its entry in the pool.  Otherwise the entry is discarded, the
room is told to abort, and when that call is over the pool is refilled. -/
structure RightReply (s s' : Pool) (c m e : Nat) (o : InitOutcome) : Prop where
  given : s'.returned ≠ s.returned → o = .returned true ∧ s.Listed e
  refused : ¬ (o = .returned true ∧ s.Listed e) → s'.returned = s.returned ∧
    s'.Discarded e ∧ s'.coroutines c = some (.dropping m) ∧
    ∀ evs s₁ s₂, s'.run evs = some s₁ → s₁.coroutines c = some (.dropping m) →
      s₁.step (.resume c .done) = some s₂ → s₂.Discarded e ∧ s₂.refillRunning m = true

/-! ## A dead entry -/

variable {s s' : Pool} {c e m : Nat}

/-- Nothing happens to a dead entry. -/
structure Leaves (s s' : Pool) (e : Nat) : Prop where
  le : s.nextEntry ≤ s'.nextEntry
  entry : s'.entries e = s.entries e
  pool : ∀ m, e ∈ s'.roomPool m → e ∈ s.roomPool m
  init : ∀ c m, s'.coroutines c = some (.init m e) → s.coroutines c = some (.init m e)
  returned : ∀ c, (c, e) ∈ s'.returned → (c, e) ∈ s.returned

theorem Leaves.refl (s : Pool) (e : Nat) : s.Leaves s e :=
  ⟨le_rfl, rfl, fun _ h => h, fun _ _ h => h, fun _ h => h⟩

theorem Leaves.trans {s'' : Pool} (h : s.Leaves s' e) (h' : s'.Leaves s'' e) : s.Leaves s'' e where
  le := h.le.trans h'.le
  entry := h'.entry.trans h.entry
  pool m hm := h.pool m (h'.pool m hm)
  init c m hc := h.init c m (h'.init c m hc)
  returned c hc := h.returned c (h'.returned c hc)

theorem Leaves.discarded (h : s.Leaves s' e) (hd : s.Discarded e) : s'.Discarded e where
  dead := by rw [h.entry, hd.dead]
  unlisted := by
    unfold Listed
    rw [h.entry]
    exact fun hm => hd.unlisted (h.pool _ hm)
  kept c hc := hd.kept c (h.returned c hc)

/-- What does not touch the entries and the pool, and begins no {lit}`init_room` of the
entry. -/
theorem leaves_of_keeps (hk : s.Keeps s') (he : e < s.nextEntry)
    (hentries : s'.entries e = s.entries e) : s.Leaves s' e where
  le := hk.le
  entry := hentries
  pool m hm := (hk.pool m e hm).resolve_right fun h => absurd h.1 (by omega)
  init c m := hk.init c m e
  returned c hc := hk.returned ▸ hc

theorem leaves_setCoroutine {x : Option Coroutine} (hx : ∀ m, x ≠ some (.init m e)) :
    s.Leaves (s.setCoroutine c x) e := by
  refine { Leaves.refl s e with init := fun c' m' hc' => ?_ }
  by_cases hc : c' = c
  · subst hc
    simp only [setCoroutine, Function.update_self] at hc'
    exact absurd hc' (hx m')
  · simpa [setCoroutine, hc] using hc'

theorem startRefillPool_entries (s : Pool) (m : Nat) :
    (s.startRefillPool m).entries = s.entries := by
  unfold startRefillPool
  split <;> rfl

theorem refillLoop_entries (s : Pool) (c m : Nat) : (s.refillLoop c m).entries = s.entries := by
  unfold refillLoop
  split
  · split <;> rfl
  · rfl

theorem leaves_startRefillPool (he : e < s.nextEntry) (m : Nat) :
    s.Leaves (s.startRefillPool m) e :=
  leaves_of_keeps (keeps_startRefillPool s m) he (by rw [startRefillPool_entries])

/-- Removing an entry, be it the dead one again. -/
theorem leaves_removePoolRoom (he : e < s.nextEntry) (hd : s.Discarded e) (d : Nat) :
    s.Leaves (s.removePoolRoom d) e := by
  refine leaves_of_keeps (keeps_removePoolRoom s d) he ?_
  by_cases hde : e = d
  · subst hde
    simp [removePoolRoom, setState, ← hd.dead]
  · simp [removePoolRoom, setState, hde]

theorem leaves_shrinkLoop {now : Nat} (es : List Nat) (n : Nat) (s : Pool)
    (he : e < s.nextEntry) (hd : s.Discarded e) : s.Leaves (shrinkLoop now es n s) e := by
  induction es generalizing n s with
  | nil => exact .refl s e
  | cons d es ih =>
      unfold shrinkLoop
      split
      · exact .refl s e
      · split
        · have hclose : s.Leaves (s.closeIdleRoom d) e :=
            { leaves_removePoolRoom he hd d with }
          exact hclose.trans (ih _ _ (he.trans_le hclose.le) (hclose.discarded hd))
        · exact ih _ _ he hd

theorem leaves_maintainPool (o : Pairs) (now : Nat) (he : e < s.nextEntry)
    (hd : s.Discarded e) : s.Leaves (s.maintainPool o now) e := by
  refine List.foldlRecOn (motive := fun s₁ => s.Leaves s₁ e) (o.visit sceneModes) _
    (Leaves.refl s e) fun s₁ hs₁ m _ => ?_
  have hlt := he.trans_le hs₁.le
  have hrefill := leaves_startRefillPool hlt m
  refine (hs₁.trans hrefill).trans ?_
  unfold shrinkPool
  split
  · exact .refl _ e
  · exact leaves_shrinkLoop _ _ _ (hlt.trans_le hrefill.le)
      (hrefill.discarded (hs₁.discarded hd))

theorem leaves_roomClosed (key : String × Nat) (ms : List Nat) (he : e < s.nextEntry)
    (hd : s.Discarded e) : s.Leaves (s.roomClosed key ms) e := by
  induction ms with
  | nil => exact .refl s e
  | cons m ms ih =>
      unfold roomClosed
      split
      · have hremove := leaves_removePoolRoom he hd ‹_›
        exact hremove.trans (leaves_startRefillPool (he.trans_le hremove.le) m)
      · exact ih

/-- No event touches a dead entry that no {lit}`create_room` holds. -/
theorem step_leaves {ev : Event} (he : e < s.nextEntry) (hd : s.Discarded e)
    (hfree : ∀ c m, s.coroutines c ≠ some (.init m e)) (hs : s.step ev = some s') :
    s.Leaves s' e := by
  cases ev with
  | createRoom o m =>
      obtain rfl := Option.some.inj hs
      have hnext : s.Leaves { s with nextCoroutine := s.nextCoroutine + 1 } e :=
        { Leaves.refl s e with }
      refine hnext.trans ?_
      unfold createRoom
      split
      · exact leaves_startRefillPool (s := { s with nextCoroutine := s.nextCoroutine + 1 }) he m
      · rename_i d hfind
        have hne : e ≠ d := by
          rintro rfl
          have hidle : s.Idle e := (findIdleRoom_spec hfind).2
          rw [Idle, hd.dead] at hidle
          cases hidle
        have hset : Leaves { s with nextCoroutine := s.nextCoroutine + 1 }
            (setState { s with nextCoroutine := s.nextCoroutine + 1 } d .reserved) e :=
          { Leaves.refl _ e with entry := by simp [setState, hne] }
        refine hset.trans (leaves_setCoroutine fun m' => ?_)
        simp only [ne_eq, Option.some.injEq, Coroutine.init.injEq, not_and]
        exact fun _ h => hne h.symm
  | roomClosed o node room =>
      obtain rfl := Option.some.inj hs
      exact leaves_roomClosed _ _ he hd
  | maintain o now =>
      obtain rfl := Option.some.inj hs
      exact leaves_maintainPool o now he hd
  | resume c a =>
      simp only [step] at hs
      split at hs
      · cases hs
      · rename_i x hx
        have hloop : ∀ m, s.Leaves (s.refillLoop c m) e := fun m =>
          leaves_of_keeps (keeps_refillLoop s c m) he (by rw [refillLoop_entries])
        have hend : ∀ m, s.Leaves (s.endRefill c m) e := fun m =>
          leaves_of_keeps (keeps_endRefill s c m) he rfl
        unfold resume at hs
        split at hs <;> first | (obtain rfl := Option.some.inj hs) | cases hs
        · exact hloop _
        · exact hend _
        · exact { leaves_setCoroutine (s := s) (e := e) (by simp) with }
        · exact hend _
        · exact { leaves_setCoroutine (s := s) (e := e) (by simp) with }
        · exact leaves_setCoroutine (by simp)
        · -- a new entry
          rename_i m id node room addr now
          have hadd : s.Leaves (s.addEntry ⟨id, node, room, addr, .idle, now, m⟩) e := by
            refine leaves_of_keeps (keeps_addEntry s _) he ?_
            have hne : e ≠ s.nextEntry := by omega
            simp [addEntry, hne]
          refine hadd.trans ?_
          exact leaves_of_keeps (keeps_refillLoop _ c _) (he.trans_le hadd.le)
            (by rw [refillLoop_entries])
        · exact hend _
        · have hremove := leaves_removePoolRoom he hd ‹_›
          exact hremove.trans (leaves_setCoroutine (by simp))
        · -- a room is given away, but not this one
          rename_i m d
          have hne : e ≠ d := by
            rintro rfl
            exact hfree c m hx
          have hgive : s.Leaves { (s.setState d .busy).setCoroutine c none with
              returned := (c, d) :: s.returned } e := by
            have hco := leaves_setCoroutine (s := s) (c := c) (e := e) (x := none) (by simp)
            refine { hco with entry := by simp [setCoroutine, setState, hne], returned := ?_ }
            intro c' hc'
            rcases List.mem_cons.mp hc' with heq | hc'
            · exact absurd (Prod.mk.inj heq).2 hne
            · exact hc'
          exact hgive.trans (leaves_startRefillPool (he.trans_le hgive.le) _)
        · have hco := leaves_setCoroutine (s := s) (c := c) (e := e) (x := none) (by simp)
          exact hco.trans (leaves_startRefillPool (he.trans_le hco.le) _)

theorem run_discarded (evs : List Event) (he : e < s.nextEntry) (hd : s.Discarded e)
    (hfree : ∀ c m, s.coroutines c ≠ some (.init m e)) (hs : s.run evs = some s') :
    e < s'.nextEntry ∧ s'.Discarded e ∧ ∀ c m, s'.coroutines c ≠ some (.init m e) := by
  induction evs generalizing s with
  | nil => exact Option.some.inj hs ▸ ⟨he, hd, hfree⟩
  | cons ev evs ih =>
      obtain ⟨t, ht, hrest⟩ := Option.bind_eq_some_iff.mp hs
      have hl := step_leaves he hd hfree ht
      exact ih (he.trans_le hl.le) (hl.discarded hd)
        (fun c m hc => hfree c m (hl.init c m hc)) hrest

/-! ## The reply -/

theorem startRefillPool_running (s : Pool) (m : Nat) :
    (s.startRefillPool m).refillRunning m = true := by
  unfold startRefillPool
  split
  · assumption
  · simp

/-- After an error of the call the entry is discarded. -/
theorem discarded_dropping (h : s.Owned) (hc : s.coroutines c = some (.init m e)) :
    ((s.removePoolRoom e).setCoroutine c (some (.dropping m))).Discarded e where
  dead := by simp [setCoroutine, removePoolRoom, setState]
  unlisted := by simp [Listed, setCoroutine, removePoolRoom, setState, without]
  kept c' hc' := (h.given c' e hc').2.2 c m hc

theorem free_dropping (h : s.Owned) (hc : s.coroutines c = some (.init m e)) (c' m' : Nat) :
    ((s.removePoolRoom e).setCoroutine c (some (.dropping m))).coroutines c' ≠
      some (.init m' e) := by
  intro hc'
  by_cases hcc : c' = c
  · subst hcc
    simp [setCoroutine] at hc'
  · simp only [setCoroutine, Function.update_of_ne hcc] at hc'
    exact hcc (h.apart c' c m' m e hc' hc)

/-- In every state a run reaches, the reply of {lit}`create_room` to the end of
{lit}`init_room` is right exactly when the call has raised, or the room has returned
{lit}`true` and its entry is in the pool. -/
theorem hands_out_initialised_iff (roomNodes : List String) (evs : List Event) (s s' : Pool)
    (c m e : Nat) (o : InitOutcome) (hrun : (start roomNodes).run evs = some s)
    (hc : s.coroutines c = some (.init m e))
    (hs : s.step (.resume c (.initialised o.pcallOk)) = some s') :
    RightReply s s' c m e o ↔ o = .callError ∨ o = .returned true ∧ s.Listed e := by
  obtain ⟨h, -, -, -⟩ := run_kept evs (start_kept roomNodes) hrun
  simp only [step, hc] at hs
  by_cases hcall : o = .callError
  · subst hcall
    obtain rfl := Option.some.inj hs
    refine iff_of_true ⟨fun hne => absurd rfl hne, fun _ => ?_⟩ (.inl rfl)
    have hd := discarded_dropping h hc
    have he : e < ((s.removePoolRoom e).setCoroutine c (some (.dropping m))).nextEntry :=
      (h.held c m e hc).1
    refine ⟨rfl, hd, by simp [setCoroutine], ?_⟩
    intro evs₁ s₁ s₂ hrun₁ hc₁ hs₂
    obtain ⟨he₁, hd₁, hfree₁⟩ := run_discarded evs₁ he hd (free_dropping h hc) hrun₁
    have hl := step_leaves he₁ hd₁ hfree₁ hs₂
    simp only [step, hc₁, resume, Option.some.injEq] at hs₂
    subst hs₂
    exact ⟨hl.discarded hd₁, startRefillPool_running _ m⟩
  · have hok : o.pcallOk = true := by
      cases o with
      | callError => exact absurd rfl hcall
      | returned ok => rfl
      | noValue => rfl
    rw [hok] at hs
    obtain rfl := Option.some.inj hs
    have hreturned : (startRefillPool { (s.setState e .busy).setCoroutine c none with
        returned := (c, e) :: s.returned } m).returned = (c, e) :: s.returned := by
      unfold startRefillPool
      split <;> rfl
    constructor
    · intro hr
      refine .inr (hr.given ?_)
      rw [hreturned]
      exact List.cons_ne_self _ _
    · intro hcond
      have hcond := hcond.resolve_left hcall
      exact ⟨fun _ => hcond, fun hno => absurd hcond hno⟩

/-- The pool has made a room for mode 1, and {lit}`create_room` has reserved it. -/
def reservation : List Event :=
  [.maintain .added 0, .resume 0 .done, .resume 0 (.roomId (some 5)),
    .resume 0 (.service (some 40)), .resume 0 (.scene (some 41) 100), .createRoom .added 1]

/-- The handler of {lit}`init_room` raises and the framework answers with nothing, or the room
returns {lit}`true` and its {lit}`room_closed` has come first: the room is given away. -/
theorem hands_out_failed_room :
    (∃ s s', (start ["room1"]).run reservation = some s ∧
      s.coroutines 2 = some (.init 1 0) ∧
      s.step (.resume 2 (.initialised InitOutcome.noValue.pcallOk)) = some s' ∧
      s'.returned = [(2, 0)] ∧ ¬ RightReply s s' 2 1 0 .noValue) ∧
    ∃ s s', (start ["room1"]).run (reservation ++ [.roomClosed .added "room1" 40]) = some s ∧
      s.coroutines 2 = some (.init 1 0) ∧
      s.step (.resume 2 (.initialised (InitOutcome.returned true).pcallOk)) = some s' ∧
      s'.returned = [(2, 0)] ∧ (s'.entries 0).state = .busy ∧
      ¬ RightReply s s' 2 1 0 (.returned true) := by
  constructor
  · refine ⟨_, _, rfl, rfl, rfl, rfl, fun h => ?_⟩
    exact absurd (h.given (by decide)).1 (by decide)
  · refine ⟨_, _, rfl, rfl, rfl, rfl, rfl, fun h => ?_⟩
    exact absurd (h.given (by decide)).2 (by decide)

/-- The room returns {lit}`true` and is in the pool. -/
theorem hands_out_initialised_room : ∃ s s',
    s.coroutines 2 = some (.init 1 0) ∧ s'.returned = [(2, 0)] ∧
      RightReply s s' 2 1 0 (.returned true) := by
  refine ⟨_, _, ?_, ?_, (hands_out_initialised_iff ["room1"] reservation _ _ 2 1 0
    (.returned true) rfl rfl rfl).mpr (.inr ⟨rfl, ?_⟩)⟩
  · rfl
  · rfl
  · decide

end Pool

end BallServer.RoomMgr
