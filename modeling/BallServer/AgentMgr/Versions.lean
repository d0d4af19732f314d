import BallServer.AgentMgr.Sessions

/-!
# Login versions

Every login of a player gets a version.  When each successful {lit}`reqlogin` is
confirmed at most once, the confirmation meets the entry it was sent for, and no handler
that works for a version touches an entry with a greater one.

Main results:

- Theorem {lit}`Reach.awaited`: an entry in status {lit}`LOGIN` with an agent is exactly
  one whose confirmation has not arrived.
- Theorem {lit}`versions_protect`: versions increase, an operation touches only entries
  of its version or an older one, and no entry stays in status {lit}`LOGOUT`.
-/

namespace BallServer.AgentMgr

/-- A confirmation arrives at most once for each successful {lit}`reqlogin`. -/
def Proper (m : Manager) : Event → Prop
  | .confirmLogin p v _ => (p, v) ∈ m.due
  | _ => True

/-- The entry is logged in, has its agent and is not confirmed. -/
def Manager.Unconfirmed (m : Manager) (p e : Nat) : Prop :=
  m.players p = some e ∧ (m.entries e).status = .login ∧ (m.entries e).agent ≠ none

/-- The confirmations that have not arrived belong to the unconfirmed entries. -/
structure Manager.Awaited (m : Manager) : Prop where
  due : ∀ p v, (p, v) ∈ m.due → ∃ e, m.Unconfirmed p e ∧ (m.entries e).loginVersion = v
  login : ∀ p e, m.Unconfirmed p e → (p, (m.entries e).loginVersion) ∈ m.due
  nodup : m.due.Nodup

/-- The versions a player has been given decrease from the latest one. -/
def Manager.Ascending (m : Manager) : Prop :=
  ∀ p, (m.handed p).Pairwise (· > ·) ∧ ∀ v ∈ m.handed p, v ≤ m.versions p

/-- The version a suspended handler works for. -/
def Handler.version : Handler → Option Nat
  | .kickOld _ _ _ _ v => some v
  | .kickGate _ _ _ _ v => some v
  | .creating _ _ v => some v
  | .dropping _ _ v => some v
  | .kicking _ _ v => some v
  | .forked _ v => some v
  | .asking _ _ _ _ => none
  | .sleeping => none

/-- The version the operation of an event works for; {lit}`shutdown` works for none. -/
def operation (m : Manager) : Event → Option Nat
  | .reqlogin p _ _ => some (m.versions p + 1)
  | .confirmLogin _ v _ => some v
  | .reqkick _ v => some v
  | .shutdown _ _ => none
  | .resume h _ => (m.handlers h).bind Handler.version

/-- A step overwrites or removes the entry of a player, or starts to kick it. -/
def Hits (m m' : Manager) (p e : Nat) : Prop :=
  m.players p = some e ∧ (m'.players p ≠ some e ∨
    (m'.entries e).status = .logout ∧ (m.entries e).status ≠ .logout)

namespace Manager

theorem Awaited.confirmable {m : Manager} (hw : m.Awaited) {e : Event} (he : Proper m e) :
    Confirmable m e := by
  cases e with
  | confirmLogin p v ok =>
      intro e he'
      obtain ⟨e₀, ⟨hplayer, hstatus, hagent⟩, -⟩ := hw.due p v he
      obtain rfl := Option.some.inj (hplayer.symm.trans he')
      exact ⟨hstatus, hagent⟩
  | _ => trivial

/-- A step that leaves the unconfirmed entries and the confirmations alone. -/
theorem Awaited.of_same {m m' : Manager} (hw : m.Awaited) (hdue : m'.due = m.due)
    (hsame : ∀ p e, m'.Unconfirmed p e ↔ m.Unconfirmed p e)
    (hversion : ∀ p e, m.Unconfirmed p e →
      (m'.entries e).loginVersion = (m.entries e).loginVersion) : m'.Awaited where
  due := by
    intro p v hv
    rw [hdue] at hv
    obtain ⟨e, he, hv⟩ := hw.due p v hv
    exact ⟨e, (hsame p e).mpr he, (hversion p e he).trans hv⟩
  login := by
    intro p e he
    have he := (hsame p e).mp he
    rw [hdue, hversion p e he]
    exact hw.login p e he
  nodup := by
    rw [hdue]
    exact hw.nodup

theorem Ascending.of_same {m m' : Manager} (h : m.Ascending) (hhanded : m'.handed = m.handed)
    (hversions : m'.versions = m.versions) : m'.Ascending := by
  intro p
  rw [hhanded, hversions]
  exact h p

theorem Ascending.next {m : Manager} (h : m.Ascending) (p : Nat) :
    (m.nextLoginVersion p).Ascending := by
  intro q
  by_cases hq : q = p
  · subst hq
    simp only [nextLoginVersion, Function.update_self, List.pairwise_cons, List.mem_cons]
    refine ⟨⟨?_, (h q).1⟩, ?_⟩
    · intro v hv
      exact Nat.lt_succ_of_le ((h q).2 v hv)
    · rintro v (rfl | hv)
      · exact Nat.le_refl _
      · exact Nat.le_succ_of_le ((h q).2 v hv)
  · simp only [nextLoginVersion, Function.update_of_ne hq]
    exact h q

section Steps

variable {m : Manager} (hm : m.Locked) (hw : m.Awaited) (hv : m.Ascending) {h p : Nat}

/-- What is proved about one event. -/
structure Guarded (m m' : Manager) (op : Option Nat) : Prop where
  awaited : m'.Awaited
  ascending : m'.Ascending
  hits : ∀ p e, Hits m m' p e → ∃ v, op = some v ∧ (m.entries e).loginVersion ≤ v

include hw hv in
theorem guarded_setHandler (x : Option Handler) (op : Option Nat) :
    Guarded m (m.setHandler h x) op where
  awaited := hw.of_same rfl (fun _ _ => Iff.rfl) (fun _ _ _ => rfl)
  ascending := hv.of_same rfl rfl
  hits := by
    rintro q e ⟨hq, hne | ⟨hl, hn⟩⟩
    · exact absurd hq hne
    · exact absurd hl hn

include hw hv in
theorem guarded_refl (op : Option Nat) : Guarded m m op where
  awaited := hw
  ascending := hv
  hits := by
    rintro q e ⟨hq, hne | ⟨hl, hn⟩⟩
    · exact absurd hq hne
    · exact absurd hl hn

include hm hw hv

theorem guarded_reqlogin (node gate : Nat) :
    Guarded m (m.reqlogin h p node gate) (some (m.versions p + 1)) := by
  have hentry := hm.entry
  unfold Manager.reqlogin
  cases hp : m.players p with
  | none =>
      refine ⟨hw.of_same rfl ?_ ?_, (hv.next p).of_same rfl rfl, ?_⟩ <;>
        simp only [Unconfirmed, Hits, nextLoginVersion, create] <;> grind [Function.update_apply]
  | some e =>
      simp only
      cases hs : (m.entries e).status with
      | login => exact guarded_refl hw hv _
      | logout => exact guarded_refl hw hv _
      | game =>
          refine ⟨hw.of_same rfl ?_ ?_, (hv.next p).of_same rfl rfl, ?_⟩ <;>
            simp only [Unconfirmed, Hits, nextLoginVersion, setEntry, Manager.setHandler] <;>
            grind [Function.update_apply]

theorem guarded_confirmLogin {v : Nat} (ok : Bool) (hdue : (p, v) ∈ m.due) :
    Guarded m (m.confirmLogin h p v ok) (some v) := by
  have hentry := hm.entry
  obtain ⟨e, ⟨hplayer, hstatus, hagent⟩, hversion⟩ := hw.due p v hdue
  have herase : ∀ q w, (q, w) ∈ m.due.erase (p, v) ↔ (q, w) ≠ (p, v) ∧ (q, w) ∈ m.due :=
    fun q w => hw.nodup.mem_erase_iff
  have hothers : ∀ q w, (q, w) ∈ m.due → q = p → w = v := by
    rintro q w hq rfl
    obtain ⟨e', ⟨hplayer', -⟩, hversion'⟩ := hw.due q w hq
    obtain rfl := Option.some.inj (hplayer.symm.trans hplayer')
    exact hversion'.symm.trans hversion
  have hdue' := hw.due
  have hlogin := hw.login
  unfold Manager.confirmLogin
  simp only [hplayer, hstatus, ne_eq, not_true_eq_false, false_or]
  split_ifs with hok
  · refine ⟨⟨?_, ?_, hw.nodup.erase _⟩, hv.of_same rfl rfl, ?_⟩
    · intro q w hq
      simp only [setPlayer, Manager.setHandler] at hq
      obtain ⟨hne, hq⟩ := (herase q w).mp hq
      have hqp : q ≠ p := fun h => hne (by rw [h, hothers q w hq h])
      obtain ⟨e', he', hw'⟩ := hdue' q w hq
      refine ⟨e', ?_, hw'⟩
      simp only [Unconfirmed, setPlayer, Manager.setHandler, Function.update_of_ne hqp]
      exact he'
    · intro q e' he'
      simp only [Unconfirmed, setPlayer, Manager.setHandler] at he' ⊢
      rw [herase]
      have hqp : q ≠ p := by
        rintro rfl
        simp at he'
      rw [Function.update_of_ne hqp] at he'
      exact ⟨by simp [hqp], hlogin q e' he'⟩
    · simp only [Hits, setPlayer, Manager.setHandler]
      grind [Function.update_apply]
  · refine ⟨⟨?_, ?_, hw.nodup.erase _⟩, hv.of_same rfl rfl, ?_⟩
    · intro q w hq
      simp only [setEntry] at hq
      obtain ⟨hne, hq⟩ := (herase q w).mp hq
      have hqp : q ≠ p := fun h => hne (by rw [h, hothers q w hq h])
      obtain ⟨e', he', hw'⟩ := hdue' q w hq
      refine ⟨e', ?_, ?_⟩ <;> simp only [Unconfirmed, setEntry] at he' ⊢ <;>
        grind [Function.update_apply]
    · intro q e' he'
      simp only [Unconfirmed, setEntry] at he' ⊢
      rw [herase]
      have hqp : q ≠ p := by
        rintro rfl
        grind [Function.update_apply]
      have := hlogin q e'
      simp only [Unconfirmed] at this
      grind [Function.update_apply]
    · simp only [Hits, setEntry]
      grind [Function.update_apply]

theorem guarded_reqkick (v : Nat) : Guarded m (m.reqkick h p v) (some v) := by
  have hentry := hm.entry
  unfold Manager.reqkick
  cases hp : m.players p with
  | none => exact guarded_setHandler hw hv none _
  | some e =>
      simp only
      split_ifs with hversion hstatus
      · exact guarded_setHandler hw hv none _
      · exact guarded_setHandler hw hv none _
      · refine ⟨hw.of_same rfl ?_ ?_, hv.of_same rfl rfl, ?_⟩ <;>
          simp only [Unconfirmed, Hits, setEntry, Manager.setHandler] <;>
          grind [Function.update_apply]

omit hm in
theorem guarded_shutdownLoop {num n : Nat} {next : Option Nat} {m' : Manager}
    (hs : m.shutdownLoop h num n next = some m') (op : Option Nat) : Guarded m m' op := by
  unfold Manager.shutdownLoop at hs
  cases next with
  | none =>
      obtain rfl := Option.some.inj hs
      exact guarded_setHandler hw hv _ _
  | some q =>
      cases hq : m.players q with
      | none => simp [hq] at hs
      | some e =>
          simp only [hq] at hs
          split_ifs at hs
          obtain rfl := Option.some.inj hs
          exact guarded_setHandler hw hv _ _

omit hm in
theorem guarded_shutdownNext {num n e : Nat} {ok : Bool} {next : Option Nat} {m' : Manager}
    (hs : m.shutdownNext h num n p e ok next = some m') (op : Option Nat) : Guarded m m' op := by
  unfold Manager.shutdownNext at hs
  cases ok with
  | false =>
      simp only [Bool.false_eq_true, if_false] at hs
      exact guarded_shutdownLoop hw hv hs op
  | true =>
      simp only [if_true] at hs
      split_ifs at hs
      · obtain rfl := Option.some.inj hs
        have hset := guarded_setHandler hw hv (h := h) (some .sleeping) op
        exact ⟨hset.awaited.of_same rfl (fun _ _ => Iff.rfl) (fun _ _ _ => rfl),
          hset.ascending.of_same rfl rfl, hset.hits⟩
      · -- the loop does not look at the handlers
        unfold Manager.shutdownLoop at hs
        cases next with
        | none =>
            obtain rfl := Option.some.inj hs
            have hset := guarded_setHandler hw hv (h := h) (some .sleeping) op
            exact ⟨hset.awaited.of_same rfl (fun _ _ => Iff.rfl) (fun _ _ _ => rfl),
              hset.ascending.of_same rfl rfl, hset.hits⟩
        | some q =>
            cases hq : m.players q with
            | none => simp [hq] at hs
            | some e' =>
                simp only [hq] at hs
                split_ifs at hs
                obtain rfl := Option.some.inj hs
                have hset := guarded_setHandler hw hv (h := h) (some .sleeping) op
                exact ⟨hset.awaited.of_same rfl (fun _ _ => Iff.rfl) (fun _ _ _ => rfl),
                  hset.ascending.of_same rfl rfl, hset.hits⟩

theorem guarded_resume {x : Handler} (hh : m.handlers h = some x) {a : Answer} {m' : Manager}
    {ks : List Kick} (hs : m.resume h x a = some (m', ks)) : Guarded m m' x.version := by
  have hentry := hm.entry
  have hown := hm.owns h x hh
  cases x with
  | kickOld p node gate e v =>
      cases a <;> simp only [Manager.resume, Option.some.injEq, Prod.mk.injEq, reduceCtorEq] at hs
      obtain ⟨rfl, -⟩ := hs
      cases (m.entries e).agent with
      | none => exact guarded_setHandler hw hv _ _
      | some b =>
          have hset := guarded_setHandler hw hv (h := h)
            (some (.kickGate p node gate e v)) (some v)
          exact ⟨hset.awaited.of_same rfl (fun _ _ => Iff.rfl) (fun _ _ _ => rfl),
            hset.ascending.of_same rfl rfl, hset.hits⟩
  | kickGate p node gate e v =>
      cases a <;> simp only [Manager.resume, Option.some.injEq, Prod.mk.injEq, reduceCtorEq] at hs
      obtain ⟨rfl, -⟩ := hs
      refine ⟨hw.of_same rfl ?_ ?_, hv.of_same rfl rfl, ?_⟩ <;>
        simp only [Unconfirmed, Hits, create, Handler.version] <;> grind [Function.update_apply]
  | creating p e v =>
      have hdue := hw.due
      have hlogin := hw.login
      cases a with
      | agent ok =>
          cases ok with
          | true =>
              simp only [Manager.resume, Option.some.injEq, Prod.mk.injEq] at hs
              obtain ⟨rfl, -⟩ := hs
              -- no confirmation was awaited while the agent was created
              have hnot : ∀ w, (p, w) ∉ m.due := by
                intro w hw'
                obtain ⟨e', ⟨hplayer, -, hagent⟩, -⟩ := hdue p w hw'
                obtain rfl := Option.some.inj (hplayer.symm.trans hown.1)
                exact hagent hown.2.2.1
              refine ⟨⟨?_, ?_, ?_⟩, hv.of_same rfl rfl, ?_⟩
              · intro q w hq
                rcases List.mem_cons.mp hq with hq | hq
                · obtain ⟨rfl, rfl⟩ := Prod.mk.inj hq
                  refine ⟨e, ?_, ?_⟩ <;> simp only [Unconfirmed] <;> grind [Function.update_apply]
                · obtain ⟨e', he', hw'⟩ := hdue q w hq
                  have hqp : q ≠ p := fun h => hnot w (h ▸ hq)
                  refine ⟨e', ?_, ?_⟩ <;> simp only [Unconfirmed] at he' ⊢ <;>
                    grind [Function.update_apply]
              · intro q e' he'
                have hold := hlogin q e'
                simp only [Unconfirmed] at he' hold ⊢
                grind [Function.update_apply]
              · exact List.nodup_cons.mpr ⟨hnot v, hw.nodup⟩
              · simp only [Hits]
                grind [Function.update_apply]
          | false =>
              simp only [Manager.resume, Option.some.injEq, Prod.mk.injEq] at hs
              obtain ⟨rfl, -⟩ := hs
              refine ⟨hw.of_same rfl ?_ ?_, hv.of_same rfl rfl, ?_⟩ <;>
                simp only [Unconfirmed, Hits, setPlayer, Manager.setHandler, Handler.version] <;>
                grind [Function.update_apply]
      | _ => cases hs
  | dropping p e v =>
      cases a <;> simp only [Manager.resume, Option.some.injEq, Prod.mk.injEq, reduceCtorEq] at hs
      obtain ⟨rfl, -⟩ := hs
      cases (m.entries e).agent with
      | none => exact guarded_setHandler hw hv _ _
      | some b =>
          have hset := guarded_setHandler hw hv (h := h) none (some v)
          exact ⟨hset.awaited.of_same rfl (fun _ _ => Iff.rfl) (fun _ _ _ => rfl),
            hset.ascending.of_same rfl rfl, hset.hits⟩
  | kicking p e v =>
      cases a <;> simp only [Manager.resume, Option.some.injEq, Prod.mk.injEq, reduceCtorEq] at hs
      obtain ⟨rfl, -⟩ := hs
      cases (m.entries e).agent <;>
        refine ⟨hw.of_same rfl ?_ ?_, hv.of_same rfl rfl, ?_⟩ <;>
        simp only [Unconfirmed, Hits, save, setPlayer, Manager.setHandler, Handler.version] <;>
        grind [Function.update_apply]
  | asking num n p e =>
      cases a with
      | can ok next =>
          simp only [Manager.resume, Option.map_eq_some_iff, Prod.mk.injEq] at hs
          obtain ⟨m₁, hs, rfl, -⟩ := hs
          exact guarded_shutdownNext hw hv hs _
      | _ => cases hs
  | sleeping =>
      cases a <;> simp only [Manager.resume, Option.some.injEq, Prod.mk.injEq, reduceCtorEq] at hs
      obtain ⟨rfl, -⟩ := hs
      exact guarded_setHandler hw hv _ _
  | forked p v =>
      cases a <;> simp only [Manager.resume, Option.some.injEq, Prod.mk.injEq, reduceCtorEq] at hs
      obtain ⟨rfl, -⟩ := hs
      exact guarded_reqkick hm hw hv v

omit hm hv in
theorem bump_awaited : ({ m with nextHandler := m.nextHandler + 1 } : Manager).Awaited :=
  hw.of_same rfl (fun _ _ => Iff.rfl) (fun _ _ _ => rfl)

/-- One event. -/
theorem guarded_step {e : Event} (he : Proper m e) {m' : Manager} {ks : List Kick}
    (hs : m.step e = some (m', ks)) : Guarded m m' (operation m e) := by
  have hbump := bump_awaited hw
  cases e with
  | reqlogin p node gate =>
      simp only [step, Option.some.injEq, Prod.mk.injEq] at hs
      obtain ⟨rfl, -⟩ := hs
      have hg := guarded_reqlogin hm.bump hbump hv (h := m.nextHandler) (p := p) node gate
      exact ⟨hg.awaited, hg.ascending, hg.hits⟩
  | confirmLogin p v ok =>
      simp only [step, Option.some.injEq, Prod.mk.injEq] at hs
      obtain ⟨rfl, -⟩ := hs
      have hg := guarded_confirmLogin hm.bump hbump hv (h := m.nextHandler) ok he
      exact ⟨hg.awaited, hg.ascending, hg.hits⟩
  | reqkick p v =>
      simp only [step, Option.some.injEq, Prod.mk.injEq] at hs
      obtain ⟨rfl, -⟩ := hs
      have hg := guarded_reqkick hm.bump hbump hv (h := m.nextHandler) (p := p) v
      exact ⟨hg.awaited, hg.ascending, hg.hits⟩
  | shutdown num next =>
      simp only [step, Option.map_eq_some_iff, Prod.mk.injEq] at hs
      obtain ⟨m₁, hs, rfl, -⟩ := hs
      have hg := guarded_shutdownLoop hbump hv hs none
      exact ⟨hg.awaited, hg.ascending, hg.hits⟩
  | resume h a =>
      simp only [step] at hs
      cases hh : m.handlers h with
      | none => simp [hh] at hs
      | some x =>
          rw [hh] at hs
          simpa [operation, hh] using guarded_resume hm hw hv hh hs

end Steps

end Manager

theorem Reach.awaited {m : Manager} (hr : Reach Proper m) :
    m.Locked ∧ m.Awaited ∧ m.Ascending := by
  induction hr with
  | start =>
      refine ⟨Manager.start_locked, ⟨?_, ?_, List.nodup_nil⟩, ?_⟩
      · intro p v hv
        cases hv
      · rintro p e ⟨h, -⟩
        cases h
      · intro p
        exact ⟨List.Pairwise.nil, by simp [Manager.start]⟩
  | step hr he hs ih =>
      obtain ⟨hm, hw, hv⟩ := ih
      have hg := Manager.guarded_step hm hw hv he hs
      exact ⟨Manager.step_locked hm (hw.confirmable he) hs, hg.awaited, hg.ascending⟩

/-- In every run in which each successful {lit}`reqlogin` is confirmed at most once: the
versions handed out for a player increase (the list names the latest first); whatever an
operation overwrites, removes or kicks has its version or an older one; and when all
handlers have returned, every entry waits for its confirmation or is in the game. -/
theorem versions_protect {m : Manager} (hr : Reach Proper m) :
    (∀ p, (m.handed p).Pairwise (· > ·)) ∧
      (∀ e m' ks, Proper m e → m.step e = some (m', ks) → ∀ p entry, Hits m m' p entry →
        ∃ v, operation m e = some v ∧ (m.entries entry).loginVersion ≤ v) ∧
      ((∀ h, m.handlers h = none) → ∀ p entry, m.players p = some entry →
        ((m.entries entry).status = .login ∧ (p, (m.entries entry).loginVersion) ∈ m.due) ∨
          (m.entries entry).status = .game) := by
  obtain ⟨hm, hw, hv⟩ := hr.awaited
  refine ⟨fun p => (hv p).1, ?_, ?_⟩
  · intro e m' ks he hs
    exact (Manager.guarded_step hm hw hv he hs).hits
  · intro hnone p entry hp
    rcases hm.idle p entry hp with ⟨h, x, hx, -⟩ | hs | ⟨hs, hag⟩
    · rw [hnone] at hx
      cases hx
    · exact Or.inr hs
    · exact Or.inl ⟨hs, hw.login p entry ⟨hp, hs, hag⟩⟩

theorem versions_protect_two :
    ∃ m : Manager, m.handed 7 = [2, 1] ∧
      (∀ p, (m.handed p).Pairwise (· > ·)) ∧
      (∀ e m' ks, Proper m e → m.step e = some (m', ks) → ∀ p entry, Hits m m' p entry →
        ∃ v, operation m e = some v ∧ (m.entries entry).loginVersion ≤ v) ∧
      ((∀ h, m.handlers h = none) → ∀ p entry, m.players p = some entry →
        ((m.entries entry).status = .login ∧ (p, (m.entries entry).loginVersion) ∈ m.due) ∨
          (m.entries entry).status = .game) := by
  have hlogin := Reach.step (e := .reqlogin 7 0 0) .start (show Proper _ _ from trivial) rfl
  have hcreated := Reach.step (e := .resume 0 (.agent true)) hlogin trivial rfl
  have hconfirmed := Reach.step (e := .confirmLogin 7 1 true) hcreated
    (show ((7, 1) : Nat × Nat) ∈ [(7, 1)] by decide) rfl
  have hagain := Reach.step (e := .reqlogin 7 0 0) hconfirmed trivial rfl
  exact ⟨_, by decide, versions_protect hagain⟩

end BallServer.AgentMgr
