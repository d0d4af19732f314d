import BallServer.AgentMgr.Manager

/-!
# One handler a session

The statuses {lit}`LOGIN` and {lit}`LOGOUT` work as a lock on the entry of a player:
while a handler waits with the entry in one of them, no other handler changes it.

Main results:

- Theorem {lit}`step_locked`: as long as confirmations arrive only for logins that have
  an agent, at most one handler holds the entry of a player and finds it unchanged when
  it resumes.
-/

namespace BallServer.AgentMgr

/-- The player whose entry a suspended handler holds. -/
@[grind =] def Handler.holds : Handler → Option Nat
  | .kickOld p _ _ _ _ => some p
  | .kickGate p _ _ _ _ => some p
  | .creating p _ _ => some p
  | .kicking p _ _ => some p
  | .dropping _ _ _ => none
  | .asking _ _ _ _ => none
  | .sleeping => none
  | .forked _ _ => none

/-- What a suspended handler relies on. -/
@[grind =] def Manager.Owns (m : Manager) : Handler → Prop
  | .kickOld p _ _ e v =>
      m.players p = some e ∧ (m.entries e).status = .logout ∧
        (m.entries e).loginVersion < v ∧ v = m.versions p
  | .kickGate p _ _ e v =>
      m.players p = some e ∧ (m.entries e).status = .logout ∧
        (m.entries e).loginVersion < v ∧ v = m.versions p
  | .creating p e v =>
      m.players p = some e ∧ (m.entries e).status = .login ∧ (m.entries e).agent = none ∧
        (m.entries e).loginVersion = v
  | .kicking p e v =>
      m.players p = some e ∧ (m.entries e).status = .logout ∧ (m.entries e).loginVersion = v
  | .dropping _ e _ => e < m.nextEntry ∧ ∀ q, m.players q ≠ some e
  | .asking _ _ _ e => e < m.nextEntry
  | .sleeping => True
  | .forked _ _ => True

/-- The entries are held by at most one handler each. -/
structure Manager.Locked (m : Manager) : Prop where
  entry : ∀ p e, m.players p = some e →
    e < m.nextEntry ∧ (m.entries e).playerid = p ∧ (m.entries e).loginVersion ≤ m.versions p
  fresh : ∀ h x, m.handlers h = some x → h < m.nextHandler
  owns : ∀ h x, m.handlers h = some x → m.Owns x
  unique : ∀ h x h' x' p, m.handlers h = some x → m.handlers h' = some x' →
    x.holds = some p → x'.holds = some p → h = h'
  idle : ∀ p e, m.players p = some e → (∃ h x, m.handlers h = some x ∧ x.holds = some p) ∨
    (m.entries e).status = .game ∨
      ((m.entries e).status = .login ∧ (m.entries e).agent ≠ none)

/-- A confirmation arrives only for a login that has its agent. -/
def Confirmable (m : Manager) : Event → Prop
  | .confirmLogin p _ _ => ∀ e, m.players p = some e →
      (m.entries e).status = .login ∧ (m.entries e).agent ≠ none
  | _ => True

namespace Manager

/-- No handler but {lit}`h` holds the entry of {lit}`p`, and this one holds no other. -/
structure Held (m : Manager) (p h : Nat) : Prop where
  held : ∀ k x, k ≠ h → m.handlers k = some x → x.holds ≠ some p
  old : ∀ x, m.handlers h = some x → x.holds = none ∨ x.holds = some p

/-- The service changes only the entry of {lit}`p`, through the handler {lit}`h`. -/
structure Touches (m m' : Manager) (p h : Nat) : Prop where
  versions : ∀ q, q ≠ p → m'.versions q = m.versions q
  version_le : m.versions p ≤ m'.versions p
  players : ∀ q, q ≠ p → m'.players q = m.players q
  player : ∀ e, m'.players p = some e → m.players p = some e ∨ e = m.nextEntry
  entries : ∀ e, e < m.nextEntry → m.players p ≠ some e → m'.entries e = m.entries e
  nextEntry : m.nextEntry ≤ m'.nextEntry
  handlers : ∀ k, k ≠ h → m'.handlers k = m.handlers k
  nextHandler : m.nextHandler ≤ m'.nextHandler

/-- A handler that holds another player finds its entry unchanged. -/
theorem Touches.owns {m m' : Manager} {p h : Nat} (ht : m.Touches m' p h)
    (hh : m.Held p h) (hm : m.Locked)
    {k : Nat} {x : Handler} (hk : k ≠ h) (hx : m.handlers k = some x) : m'.Owns x := by
  have hown := hm.owns k x hx
  have hheld := hh.held k x hk hx
  -- the entry of another player is another table
  have hother : ∀ q e, q ≠ p → m.players q = some e →
      m'.players q = some e ∧ m'.entries e = m.entries e := by
    intro q e hq he
    refine ⟨(ht.players q hq).trans he, ht.entries e (hm.entry q e he).1 ?_⟩
    intro hp
    have hqe := (hm.entry q e he).2.1
    have hpe := (hm.entry p e hp).2.1
    exact hq (hqe.symm.trans hpe)
  cases x with
  | kickOld q _ _ e v =>
      have hq : q ≠ p := fun h => hheld (congrArg some h)
      obtain ⟨hplayer, hentry⟩ := hother q e hq hown.1
      simp only [Owns, hplayer, hentry, ht.versions q hq]
      exact ⟨trivial, hown.2⟩
  | kickGate q _ _ e v =>
      have hq : q ≠ p := fun h => hheld (congrArg some h)
      obtain ⟨hplayer, hentry⟩ := hother q e hq hown.1
      simp only [Owns, hplayer, hentry, ht.versions q hq]
      exact ⟨trivial, hown.2⟩
  | creating q e v =>
      have hq : q ≠ p := fun h => hheld (congrArg some h)
      obtain ⟨hplayer, hentry⟩ := hother q e hq hown.1
      simp only [Owns, hplayer, hentry]
      exact ⟨trivial, hown.2⟩
  | kicking q e v =>
      have hq : q ≠ p := fun h => hheld (congrArg some h)
      obtain ⟨hplayer, hentry⟩ := hother q e hq hown.1
      simp only [Owns, hplayer, hentry]
      exact ⟨trivial, hown.2⟩
  | dropping q e v =>
      refine ⟨Nat.lt_of_lt_of_le hown.1 ht.nextEntry, ?_⟩
      intro r hr
      by_cases hrp : r = p
      · subst hrp
        rcases ht.player e hr with h | h
        · exact hown.2 r h
        · exact absurd hown.1 (by omega)
      · rw [ht.players r hrp] at hr
        exact hown.2 r hr
  | asking num n q e => exact Nat.lt_of_lt_of_le hown ht.nextEntry
  | sleeping => trivial
  | forked q v => trivial

/-- The lock is kept when it is kept for the player and the handler of a step. -/
theorem Touches.locked {m m' : Manager} {p h : Nat} (ht : m.Touches m' p h)
    (hh : m.Held p h) (hm : m.Locked)
    (hfresh : h < m'.nextHandler) (new : Option Handler) (hself : m'.handlers h = new)
    (hnew : ∀ x, new = some x → (x.holds = none ∨ x.holds = some p) ∧ m'.Owns x)
    (hentry : ∀ e, m'.players p = some e → e < m'.nextEntry ∧ (m'.entries e).playerid = p ∧
      (m'.entries e).loginVersion ≤ m'.versions p)
    (hidle : ∀ e, m'.players p = some e →
      (∃ x, new = some x ∧ x.holds = some p) ∨ (m'.entries e).status = .game ∨
        ((m'.entries e).status = .login ∧ (m'.entries e).agent ≠ none)) : m'.Locked where
  entry := by
    intro q e he
    by_cases hq : q = p
    · subst hq
      exact hentry e he
    · rw [ht.players q hq] at he
      have hold := hm.entry q e he
      have hkeep : m'.entries e = m.entries e := by
        apply ht.entries e hold.1
        intro hp
        exact hq (hold.2.1.symm.trans (hm.entry p e hp).2.1)
      rw [hkeep, ht.versions q hq]
      exact ⟨Nat.lt_of_lt_of_le hold.1 ht.nextEntry, hold.2⟩
  fresh := by
    intro k x hx
    by_cases hk : k = h
    · subst hk
      exact hfresh
    · rw [ht.handlers k hk] at hx
      exact Nat.lt_of_lt_of_le (hm.fresh k x hx) ht.nextHandler
  owns := by
    intro k x hx
    by_cases hk : k = h
    · subst hk
      exact (hnew x (hself.symm.trans hx)).2
    · rw [ht.handlers k hk] at hx
      exact ht.owns hh hm hk hx
  unique := by
    intro k x k' x' q hx hx' hq hq'
    by_cases hk : k = h
    · by_cases hk' : k' = h
      · exact hk.trans hk'.symm
      · subst hk
        rw [ht.handlers k' hk'] at hx'
        rcases (hnew x (hself.symm.trans hx)).1 with h | h
        · rw [h] at hq
          cases hq
        · obtain rfl := Option.some.inj (h.symm.trans hq)
          exact absurd hq' (hh.held k' x' hk' hx')
    · rw [ht.handlers k hk] at hx
      by_cases hk' : k' = h
      · subst hk'
        rcases (hnew x' (hself.symm.trans hx')).1 with h | h
        · rw [h] at hq'
          cases hq'
        · obtain rfl := Option.some.inj (h.symm.trans hq')
          exact absurd hq (hh.held k x hk hx)
      · rw [ht.handlers k' hk'] at hx'
        exact hm.unique k x k' x' q hx hx' hq hq'
  idle := by
    intro q e he
    by_cases hq : q = p
    · subst hq
      rcases hidle e he with ⟨x, hx, hp⟩ | h
      · exact Or.inl ⟨h, x, hself.trans hx, hp⟩
      · exact Or.inr h
    · rw [ht.players q hq] at he
      have hold := hm.entry q e he
      have hkeep : m'.entries e = m.entries e := by
        apply ht.entries e hold.1
        intro hp
        exact hq (hold.2.1.symm.trans (hm.entry p e hp).2.1)
      rw [hkeep]
      rcases hm.idle q e he with ⟨k, x, hx, hqx⟩ | h
      · have hk : k ≠ h := by
          rintro rfl
          rcases hh.old x hx with h | h
          · rw [h] at hqx
            cases hqx
          · exact hq (Option.some.inj (hqx.symm.trans h))
        exact Or.inl ⟨k, x, (ht.handlers k hk).trans hx, hqx⟩
      · exact Or.inr h

/-- An entry that is in the game, or logged in with its agent, is held by no handler. -/
theorem Locked.free {m : Manager} (hm : m.Locked) {p e : Nat} (he : m.players p = some e)
    (hs : (m.entries e).status = .game ∨
      ((m.entries e).status = .login ∧ (m.entries e).agent ≠ none)) :
    ∀ k x, m.handlers k = some x → x.holds ≠ some p := by
  intro k x hx hp
  have hown := hm.owns k x hx
  cases x <;> simp only [Handler.holds, Option.some.injEq, reduceCtorEq] at hp <;> subst hp <;>
    simp only [Owns] at hown <;> obtain rfl := Option.some.inj (he.symm.trans hown.1) <;>
    grind

/-- A player without an entry is held by no handler. -/
theorem Locked.free_of_none {m : Manager} (hm : m.Locked) {p : Nat} (hp : m.players p = none) :
    ∀ k x, m.handlers k = some x → x.holds ≠ some p := by
  intro k x hx hh
  have hown := hm.owns k x hx
  cases x <;> simp only [Handler.holds, Option.some.injEq, reduceCtorEq] at hh <;> subst hh <;>
    simp only [Owns, hp, reduceCtorEq, false_and] at hown

/-! ## The steps -/

theorem Locked.bump {m : Manager} (hm : m.Locked) :
    ({ m with nextHandler := m.nextHandler + 1 } : Manager).Locked where
  entry := hm.entry
  fresh := fun h x hx => Nat.lt_succ_of_lt (hm.fresh h x hx)
  owns := by
    intro h x hx
    have := hm.owns h x hx
    cases x <;> exact this
  unique := hm.unique
  idle := hm.idle

/-- A handler that holds nothing is suspended elsewhere or ends. -/
theorem Locked.setHandler {m : Manager} (hm : m.Locked) {h : Nat} {x : Option Handler}
    (hold : ∀ y, m.handlers h = some y → y.holds = none)
    (hnew : ∀ y, x = some y → y.holds = none ∧ m.Owns y) (hlt : h < m.nextHandler) :
    (m.setHandler h x).Locked := by
  have howns : ∀ y, (m.setHandler h x).Owns y ↔ m.Owns y := by
    intro y
    cases y <;> rfl
  have hhandlers : ∀ k, k ≠ h → (m.setHandler h x).handlers k = m.handlers k :=
    fun k hk => Function.update_of_ne hk _ _
  have hself : (m.setHandler h x).handlers h = x := Function.update_self _ _ _
  constructor
  · exact hm.entry
  · intro k y hy
    by_cases hk : k = h
    · subst hk
      exact hlt
    · rw [hhandlers k hk] at hy
      exact hm.fresh k y hy
  · intro k y hy
    rw [howns]
    by_cases hk : k = h
    · subst hk
      rw [hself] at hy
      exact (hnew y hy).2
    · rw [hhandlers k hk] at hy
      exact hm.owns k y hy
  · -- a handler that holds something is another one
    have hother : ∀ k y q, (m.setHandler h x).handlers k = some y → y.holds = some q →
        m.handlers k = some y := by
      intro k y q hy hq
      by_cases hk : k = h
      · subst hk
        rw [hself] at hy
        rw [(hnew y hy).1] at hq
        cases hq
      · rwa [hhandlers k hk] at hy
    intro k y k' y' q hy hy' hq hq'
    exact hm.unique k y k' y' q (hother k y q hy hq) (hother k' y' q hy' hq') hq hq'
  · intro q e he
    rcases hm.idle q e he with ⟨k, y, hy, hq⟩ | hs
    · refine Or.inl ⟨k, y, ?_, hq⟩
      rw [hhandlers]
      · exact hy
      · rintro rfl
        rw [hold y hy] at hq
        cases hq
    · exact Or.inr hs

section Steps

variable {m : Manager} (hm : m.Locked) {h p : Nat}

include hm

theorem Locked.reqlogin (hh : m.handlers h = none) (hlt : h < m.nextHandler) (node gate : Nat) :
    (m.reqlogin h p node gate).Locked := by
  unfold Manager.reqlogin
  cases hp : m.players p with
  | none =>
      have hfree := hm.free_of_none hp
      have ht : m.Touches ((m.nextLoginVersion p).create h p node gate (m.versions p + 1)) p h := by
        constructor <;> simp only [nextLoginVersion, create] <;> grind [Function.update_apply]
      have hheld : m.Held p h := by
        constructor <;> grind
      refine ht.locked hheld hm hlt (some (.creating p m.nextEntry (m.versions p + 1)))
        (Function.update_self _ _ _) ?_ ?_ ?_ <;> simp only [nextLoginVersion, create] <;>
        grind [Function.update_apply]
  | some e =>
      simp only
      cases hs : (m.entries e).status with
      | login => exact hm
      | logout => exact hm
      | game =>
          have hfree := hm.free hp (Or.inl hs)
          have hentry := hm.entry p e hp
          simp only
          have ht : m.Touches (((m.nextLoginVersion p).setEntry e
              { m.entries e with status := .logout }).setHandler h
                (some (.kickOld p node gate e (m.versions p + 1)))) p h := by
            constructor <;> simp only [nextLoginVersion, setEntry, Manager.setHandler] <;>
              grind [Function.update_apply]
          have hheld : m.Held p h := by
            constructor <;> grind
          refine ht.locked hheld hm hlt (some (.kickOld p node gate e (m.versions p + 1)))
            (Function.update_self _ _ _) ?_ ?_ ?_ <;>
            simp only [nextLoginVersion, setEntry, Manager.setHandler] <;>
            grind [Function.update_apply]

theorem Locked.confirmLogin (hh : m.handlers h = none) (hlt : h < m.nextHandler)
    (version : Nat) (isSucc : Bool)
    (hok : ∀ e, m.players p = some e → (m.entries e).status = .login ∧ (m.entries e).agent ≠ none) :
    (m.confirmLogin h p version isSucc).Locked := by
  unfold Manager.confirmLogin
  have hheld : m.players p ≠ none → m.Held p h := by
    intro hp
    obtain ⟨e, he⟩ := Option.ne_none_iff_exists'.mp hp
    have hfree := hm.free he (Or.inr (hok e he))
    constructor <;> grind
  cases hp : m.players p with
  | none =>
      simp only [hp]
      refine ⟨hm.entry, hm.fresh, ?_, hm.unique, hm.idle⟩
      intro k x hx
      have := hm.owns k x hx
      cases x <;> exact this
  | some e =>
      have hentry := hm.entry p e hp
      have hone : ∀ q, m.players q = some e → q = p := fun q hq =>
        (hm.entry q e hq).2.1.symm.trans hentry.2.1
      simp only [hp]
      split_ifs with hfail
      · have ht : m.Touches (({ m with due := m.due.erase (p, version) }.setPlayer p none).setHandler
            h (some (.dropping p e version))) p h := by
          constructor <;> simp only [setPlayer, Manager.setHandler] <;> grind [Function.update_apply]
        refine ht.locked (hheld (by simp [hp])) hm hlt (some (.dropping p e version))
          (Function.update_self _ _ _) ?_ ?_ ?_ <;>
          simp only [setPlayer, Manager.setHandler] <;> grind [Function.update_apply]
      · have ht : m.Touches ({ m with due := m.due.erase (p, version) }.setEntry e
            { m.entries e with status := .game }) p h := by
          constructor <;> simp only [setEntry] <;> grind [Function.update_apply]
        refine ht.locked (hheld (by simp [hp])) hm hlt none hh ?_ ?_ ?_ <;>
          simp only [setEntry] <;> grind [Function.update_apply]

theorem Locked.reqkick (hold : ∀ y, m.handlers h = some y → y.holds = none)
    (hlt : h < m.nextHandler) (version : Nat) : (m.reqkick h p version).Locked := by
  have hend : (m.setHandler h none).Locked := hm.setHandler hold (by simp) hlt
  unfold Manager.reqkick
  cases hp : m.players p with
  | none => exact hend
  | some e =>
      simp only
      split_ifs with hversion hstatus
      · exact hend
      · exact hend
      · have hs : (m.entries e).status = .game := by simpa using hstatus
        have hfree := hm.free hp (Or.inl hs)
        have hentry := hm.entry p e hp
        have ht : m.Touches ((m.setEntry e { m.entries e with status := .logout }).setHandler h
            (some (.kicking p e version))) p h := by
          constructor <;> simp only [setEntry, Manager.setHandler] <;> grind [Function.update_apply]
        have hheld : m.Held p h := by
          constructor <;> grind
        refine ht.locked hheld hm hlt (some (.kicking p e version))
          (Function.update_self _ _ _) ?_ ?_ ?_ <;>
          simp only [setEntry, Manager.setHandler] <;> grind [Function.update_apply]

theorem Locked.shutdownLoop (hold : ∀ y, m.handlers h = some y → y.holds = none)
    (hlt : h < m.nextHandler) {num n : Nat} {next : Option Nat} {m' : Manager}
    (hs : m.shutdownLoop h num n next = some m') : m'.Locked := by
  unfold Manager.shutdownLoop at hs
  cases next with
  | none =>
      obtain rfl := Option.some.inj hs
      exact hm.setHandler hold (by grind) hlt
  | some q =>
      cases hq : m.players q with
      | none => simp [hq] at hs
      | some e =>
          simp only [hq] at hs
          split_ifs at hs
          obtain rfl := Option.some.inj hs
          exact hm.setHandler hold (by grind [hm.entry q e hq]) hlt

theorem Locked.shutdownNext {num n e : Nat} (hh : m.handlers h = some (.asking num n p e))
    {ok : Bool} {next : Option Nat} {m' : Manager}
    (hs : m.shutdownNext h num n p e ok next = some m') : m'.Locked := by
  have hlt := hm.fresh h _ hh
  have hold : ∀ y, m.handlers h = some y → y.holds = none := by grind
  have hfresh : m.handlers m.nextHandler = none := by
    by_contra hne
    obtain ⟨x, hx⟩ := Option.ne_none_iff_exists'.mp hne
    exact absurd (hm.fresh _ x hx) (Nat.lt_irrefl _)
  -- the forked handler holds nothing yet
  have hforked : ({ m with
      handlers := Function.update m.handlers m.nextHandler
        (some (.forked p (m.entries e).loginVersion))
      nextHandler := m.nextHandler + 1 } : Manager).Locked :=
    hm.bump.setHandler (h := m.nextHandler) (x := some (.forked p (m.entries e).loginVersion))
      (by grind) (by grind) (Nat.lt_succ_self _)
  unfold Manager.shutdownNext at hs
  cases ok with
  | false =>
      simp only [Bool.false_eq_true, if_false] at hs
      exact hm.shutdownLoop hold hlt hs
  | true =>
      simp only [if_true] at hs
      have hold' : ∀ y, Function.update m.handlers m.nextHandler
          (some (Handler.forked p (m.entries e).loginVersion)) h = some y → y.holds = none := by
        grind [Function.update_apply]
      split_ifs at hs
      · obtain rfl := Option.some.inj hs
        exact hforked.setHandler hold' (by grind) (Nat.lt_succ_of_lt hlt)
      · exact hforked.shutdownLoop hold' (Nat.lt_succ_of_lt hlt) hs

/-- A handler that is resumed keeps the lock. -/
theorem Locked.resume {x : Handler} (hh : m.handlers h = some x) {a : Answer} {m' : Manager}
    {ks : List Kick} (hs : m.resume h x a = some (m', ks)) : m'.Locked := by
  have hlt := hm.fresh h x hh
  have hown := hm.owns h x hh
  have hheld : ∀ q, x.holds = some q → m.Held q h := by
    intro q hq
    constructor
    · intro k y hk hy hyq
      exact hk (hm.unique k y h x q hy hh hyq hq)
    · intro y hy
      obtain rfl := Option.some.inj (hh.symm.trans hy)
      exact Or.inr hq
  cases x with
  | kickOld p node gate e v =>
      cases a with
      | done =>
          simp only [Manager.resume, Option.some.injEq, Prod.mk.injEq] at hs
          obtain ⟨rfl, -⟩ := hs
          have hentry := hm.entry p e hown.1
          have ht : m.Touches ((m.save (m.entries e).agent).setHandler h
              (some (.kickGate p node gate e v))) p h := by
            cases (m.entries e).agent <;> constructor <;> simp only [save, Manager.setHandler] <;>
              grind [Function.update_apply]
          refine ht.locked (hheld p rfl) hm ?_ (some (.kickGate p node gate e v)) ?_ ?_ ?_ ?_ <;>
            cases (m.entries e).agent <;> simp only [save, Manager.setHandler] <;>
            grind [Function.update_apply]
      | _ => cases hs
  | kickGate p node gate e v =>
      cases a with
      | done =>
          simp only [Manager.resume, Option.some.injEq, Prod.mk.injEq] at hs
          obtain ⟨rfl, -⟩ := hs
          have ht : m.Touches (m.create h p node gate v) p h := by
            constructor <;> simp only [create] <;> grind [Function.update_apply]
          refine ht.locked (hheld p rfl) hm hlt (some (.creating p m.nextEntry v))
            (Function.update_self _ _ _) ?_ ?_ ?_ <;> simp only [create] <;>
            grind [Function.update_apply]
      | _ => cases hs
  | creating p e v =>
      have hentry := hm.entry p e hown.1
      cases a with
      | agent ok =>
          cases ok with
          | true =>
              simp only [Manager.resume, Option.some.injEq, Prod.mk.injEq] at hs
              obtain ⟨rfl, -⟩ := hs
              refine Touches.locked (p := p) (h := h) ?_ (hheld p rfl) hm hlt none
                (Function.update_self _ _ _) ?_ ?_ ?_
              · constructor <;> grind [Function.update_apply]
              · grind [Function.update_apply]
              · grind [Function.update_apply]
              · grind [Function.update_apply]
          | false =>
              simp only [Manager.resume, Option.some.injEq, Prod.mk.injEq] at hs
              obtain ⟨rfl, -⟩ := hs
              have ht : m.Touches ((m.setPlayer p none).setHandler h none) p h := by
                constructor <;> simp only [setPlayer, Manager.setHandler] <;>
                  grind [Function.update_apply]
              refine ht.locked (hheld p rfl) hm hlt none (Function.update_self _ _ _) ?_ ?_ ?_ <;>
                simp only [setPlayer, Manager.setHandler] <;> grind [Function.update_apply]
      | _ => cases hs
  | dropping p e v =>
      cases a with
      | done =>
          simp only [Manager.resume, Option.some.injEq, Prod.mk.injEq] at hs
          obtain ⟨rfl, -⟩ := hs
          have hsave : (m.save (m.entries e).agent).Locked := by
            cases (m.entries e).agent with
            | none => exact hm
            | some b =>
                refine ⟨hm.entry, hm.fresh, ?_, hm.unique, hm.idle⟩
                intro k y hy
                have := hm.owns k y hy
                cases y <;> exact this
          refine hsave.setHandler ?_ (by simp) ?_ <;> cases (m.entries e).agent <;> grind [save]
      | _ => cases hs
  | kicking p e v =>
      have hentry := hm.entry p e hown.1
      cases a with
      | done =>
          simp only [Manager.resume, Option.some.injEq, Prod.mk.injEq] at hs
          obtain ⟨rfl, -⟩ := hs
          have ht : m.Touches (((m.save (m.entries e).agent).setPlayer p none).setHandler h none)
              p h := by
            cases (m.entries e).agent <;> constructor <;>
              simp only [save, setPlayer, Manager.setHandler] <;> grind [Function.update_apply]
          refine ht.locked (hheld p rfl) hm ?_ none ?_ ?_ ?_ ?_ <;>
            cases (m.entries e).agent <;> simp only [save, setPlayer, Manager.setHandler] <;>
            grind [Function.update_apply]
      | _ => cases hs
  | asking num n p e =>
      cases a with
      | can ok next =>
          simp only [Manager.resume, Option.map_eq_some_iff, Prod.mk.injEq] at hs
          obtain ⟨m₁, hs, rfl, -⟩ := hs
          exact hm.shutdownNext hh hs
      | _ => cases hs
  | sleeping =>
      cases a with
      | done =>
          simp only [Manager.resume, Option.some.injEq, Prod.mk.injEq] at hs
          obtain ⟨rfl, -⟩ := hs
          exact hm.setHandler (by grind) (by simp) hlt
      | _ => cases hs
  | forked p v =>
      cases a with
      | done =>
          simp only [Manager.resume, Option.some.injEq, Prod.mk.injEq] at hs
          obtain ⟨rfl, -⟩ := hs
          exact hm.reqkick (by grind) hlt v
      | _ => cases hs

end Steps

theorem same_of_shutdownLoop {m m' : Manager} {h num n : Nat} {next : Option Nat}
    (hs : m.shutdownLoop h num n next = some m') :
    m'.players = m.players ∧ m'.entries = m.entries ∧
      ∀ k, k ≠ h → m'.handlers k = m.handlers k := by
  unfold Manager.shutdownLoop at hs
  cases next with
  | none =>
      obtain rfl := Option.some.inj hs
      exact ⟨rfl, rfl, fun k hk => Function.update_of_ne hk _ _⟩
  | some q =>
      cases hq : m.players q with
      | none => simp [hq] at hs
      | some e =>
          simp only [hq] at hs
          split_ifs at hs
          obtain rfl := Option.some.inj hs
          exact ⟨rfl, rfl, fun k hk => Function.update_of_ne hk _ _⟩

theorem start_locked : start.Locked := by
  constructor <;> simp [start]

/-- Every step keeps the lock when confirmations arrive only for logins that have an
agent. -/
theorem step_locked {m m' : Manager} (hm : m.Locked) {e : Event} {ks : List Kick}
    (hok : Confirmable m e) (hs : m.step e = some (m', ks)) : m'.Locked := by
  have hnone : m.handlers m.nextHandler = none := by
    by_contra hne
    obtain ⟨x, hx⟩ := Option.ne_none_iff_exists'.mp hne
    exact absurd (hm.fresh _ x hx) (Nat.lt_irrefl _)
  have hlt : m.nextHandler < m.nextHandler + 1 := Nat.lt_succ_self _
  have hold : ∀ y, m.handlers m.nextHandler = some y → y.holds = none := by
    intro y hy
    rw [hnone] at hy
    cases hy
  cases e with
  | reqlogin p node gate =>
      simp only [step, Option.some.injEq, Prod.mk.injEq] at hs
      obtain ⟨rfl, -⟩ := hs
      exact hm.bump.reqlogin hnone hlt node gate
  | confirmLogin p v ok =>
      simp only [step, Option.some.injEq, Prod.mk.injEq] at hs
      obtain ⟨rfl, -⟩ := hs
      exact hm.bump.confirmLogin hnone hlt v ok hok
  | reqkick p v =>
      simp only [step, Option.some.injEq, Prod.mk.injEq] at hs
      obtain ⟨rfl, -⟩ := hs
      exact hm.bump.reqkick hold hlt v
  | shutdown num next =>
      simp only [step, Option.map_eq_some_iff, Prod.mk.injEq] at hs
      obtain ⟨m₁, hs, rfl, -⟩ := hs
      exact hm.bump.shutdownLoop hold hlt hs
  | resume h a =>
      simp only [step] at hs
      cases hh : m.handlers h with
      | none => simp [hh] at hs
      | some x =>
          rw [hh] at hs
          exact hm.resume hh hs

end Manager

end BallServer.AgentMgr
