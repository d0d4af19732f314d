import BallServer.AgentMgr.Sessions

/-!
# One live agent a player

The data of a player is saved by the kick of the agent.  An agent that was made for a
player is either saved, or it is the agent of the player's entry, or a confirmation that
has failed is kicking it.  In the last case the entry is gone already, so that a login
which comes too early gets a second agent.

Main results:

- Theorem {lit}`creates_after_saves`: in runs in which no login starts while a failed
  confirmation is still kicking, a new agent is asked for only when all former ones are
  saved.
- Theorem {lit}`creates_too_early`: without this condition it is not so.
-/

namespace BallServer.AgentMgr

/-- Where the data of an agent is: saved, with the entry of its player, or with a failed
confirmation that is kicking the agent. -/
inductive Manager.Traced (m : Manager) (a p : Nat) : Prop where
  | saved (hs : m.saved a = true)
  | entry (e : Nat) (he : m.players p = some e) (hag : (m.entries e).agent = some a)
  | dropping (h e v : Nat) (hh : m.handlers h = some (.dropping p e v))
      (hag : (m.entries e).agent = some a)

/-- The data of every agent is somewhere. -/
structure Manager.Filed (m : Manager) : Prop where
  agent : ∀ a p, m.created a = some p → m.Traced a p
  fresh : ∀ a p, m.created a = some p → a < m.nextAgent
  gate : ∀ h p n g e v, m.handlers h = some (.kickGate p n g e v) →
    ∀ a, (m.entries e).agent = some a → m.saved a = true

/-- The data of every agent is somewhere, and a player with an entry has no agent that is
being dropped. -/
structure Manager.Accounted (m : Manager) : Prop where
  agent : ∀ a p, m.created a = some p → m.Traced a p
  fresh : ∀ a p, m.created a = some p → a < m.nextAgent
  apart : ∀ p e h e' v, m.players p = some e → m.handlers h ≠ some (.dropping p e' v)
  gate : ∀ h p n g e v, m.handlers h = some (.kickGate p n g e v) →
    ∀ a, (m.entries e).agent = some a → m.saved a = true

/-- Confirmations arrive only for logins that have an agent, and a login of a player
without an entry starts only when no failed confirmation is kicking an agent. -/
def Ordered (m : Manager) : Event → Prop
  | .reqlogin p _ _ => m.players p = none → ∀ h e v, m.handlers h ≠ some (.dropping p e v)
  | .confirmLogin p v ok => Confirmable m (.confirmLogin p v ok)
  | _ => True

theorem Ordered.confirmable {m : Manager} {e : Event} (h : Ordered m e) : Confirmable m e := by
  cases e <;> first | exact h | trivial

/-- The handler is one of {lit}`reqlogin` or {lit}`confirm_login`. -/
def Handler.OfLogin : Handler → Prop
  | .kickOld .. | .kickGate .. | .creating .. | .dropping .. => True
  | .kicking .. | .asking .. | .sleeping | .forked .. => False

/-- A new agent is asked for the player. -/
def Asks (m m' : Manager) (p : Nat) : Prop :=
  ∃ h e v, m'.handlers h = some (.creating p e v) ∧ m.handlers h ≠ some (.creating p e v)

namespace Manager

/-- What a step must do with the places where the data of the agents is. -/
theorem Filed.agent_of {m m' : Manager} (ha : m.Filed)
    (hcreated : ∀ a p, m'.created a = some p → m.created a = some p ∨ m'.Traced a p)
    (hsaved : ∀ a, m.saved a = true → m'.saved a = true)
    (hentry : ∀ a p e, m.players p = some e → (m.entries e).agent = some a → m'.Traced a p)
    (hdropping : ∀ a p h e v, m.handlers h = some (.dropping p e v) →
      (m.entries e).agent = some a → m'.Traced a p) :
    ∀ a p, m'.created a = some p → m'.Traced a p := by
  intro a p hc
  rcases hcreated a p hc with hc | ht
  · cases ha.agent a p hc with
    | saved hs => exact .saved (hsaved a hs)
    | entry e he hag => exact hentry a p e he hag
    | dropping h e v hh hag => exact hdropping a p h e v hh hag
  · exact ht

section Steps

variable {m : Manager} (hm : m.Locked) (ha : m.Filed) {h p : Nat}

include ha in
/-- A handler that drops no agent is suspended, or ends, without waiting for a gateway. -/
theorem Filed.setHandler {x : Option Handler}
    (hold : ∀ q e v, m.handlers h ≠ some (.dropping q e v))
    (hgate : ∀ q n g e v, x ≠ some (.kickGate q n g e v)) : (m.setHandler h x).Filed := by
  constructor
  · apply ha.agent_of
    · exact fun a p hc => Or.inl hc
    · exact fun a hs => hs
    · exact fun a p e he hag => .entry e he hag
    · intro a p k e v hk hag
      refine .dropping k e v ?_ hag
      simp only [Manager.setHandler]
      grind [Function.update_apply]
  · exact ha.fresh
  · have := ha.gate
    simp only [Manager.setHandler]
    grind [Function.update_apply]

include hm ha

theorem Filed.reqlogin (hh : m.handlers h = none) {node gate : Nat} :
    (m.reqlogin h p node gate).Filed := by
  have hown := hm.owns
  have hentry := hm.entry
  have hlt : ∀ k q e v, m.handlers k = some (.dropping q e v) → e ≠ m.nextEntry ∧ k ≠ h := by
    grind
  unfold Manager.reqlogin
  cases hp : m.players p with
  | none =>
      constructor
      · apply ha.agent_of
        · exact fun a q hc => Or.inl hc
        · exact fun a hs => hs
        · intro a q e he hag
          refine .entry e ?_ ?_ <;> simp only [nextLoginVersion, create] <;>
            grind [Function.update_apply]
        · intro a q k e v hk hag
          refine .dropping k e v ?_ ?_ <;> simp only [nextLoginVersion, create] <;>
            grind [Function.update_apply]
      · exact ha.fresh
      · have := ha.gate
        simp only [nextLoginVersion, create]
        grind [Function.update_apply]
  | some e =>
      simp only
      cases hs : (m.entries e).status with
      | login => exact ha
      | logout => exact ha
      | game =>
          constructor
          · apply ha.agent_of
            · exact fun a q hc => Or.inl hc
            · exact fun a hs => hs
            · intro a q e' he hag
              refine .entry e' he ?_
              simp only [nextLoginVersion, setEntry, Manager.setHandler]
              grind [Function.update_apply]
            · intro a q k e' v hk hag
              refine .dropping k e' v ?_ ?_ <;>
                simp only [nextLoginVersion, setEntry, Manager.setHandler] <;>
                grind [Function.update_apply]
          · exact ha.fresh
          · have := ha.gate
            simp only [nextLoginVersion, setEntry, Manager.setHandler]
            grind [Function.update_apply]

theorem Filed.confirmLogin (hh : m.handlers h = none) {version : Nat} {isSucc : Bool}
    (hok : ∀ e, m.players p = some e → (m.entries e).status = .login ∧ (m.entries e).agent ≠ none) :
    (m.confirmLogin h p version isSucc).Filed := by
  have hentry := hm.entry
  have hgate := ha.gate
  unfold Manager.confirmLogin
  cases hp : m.players p with
  | none =>
      simp only [hp]
      refine ⟨?_, ha.fresh, ha.gate⟩
      apply ha.agent_of
      · exact fun a q hc => Or.inl hc
      · exact fun a hs => hs
      · exact fun a q e he hag => .entry e he hag
      · exact fun a q k e v hk hag => .dropping k e v hk hag
  | some e =>
      simp only [hp]
      split_ifs with hfail
      · constructor
        · apply ha.agent_of
          · exact fun a q hc => Or.inl hc
          · exact fun a hs => hs
          · intro a q e' he hag
            by_cases hq : q = p
            · -- the agent of the entry that is removed
              subst hq
              obtain rfl := Option.some.inj (hp.symm.trans he)
              refine .dropping h e version ?_ hag
              simp [setPlayer, Manager.setHandler]
            · refine .entry e' ?_ hag
              simp only [setPlayer, Manager.setHandler]
              grind [Function.update_apply]
          · intro a q k e' v hk hag
            refine .dropping k e' v ?_ hag
            simp only [setPlayer, Manager.setHandler]
            grind [Function.update_apply]
        · exact ha.fresh
        · simp only [setPlayer, Manager.setHandler]
          grind [Function.update_apply]
      · constructor
        · apply ha.agent_of
          · exact fun a q hc => Or.inl hc
          · exact fun a hs => hs
          · intro a q e' he hag
            refine .entry e' he ?_
            simp only [setEntry]
            grind [Function.update_apply]
          · intro a q k e' v hk hag
            refine .dropping k e' v hk ?_
            simp only [setEntry]
            grind [Function.update_apply]
        · exact ha.fresh
        · simp only [setEntry]
          grind [Function.update_apply]

omit hm in
theorem Filed.reqkick (hold : ∀ y, m.handlers h = some y → ∃ q v, y = .forked q v)
    (version : Nat) : (m.reqkick h p version).Filed := by
  have hend : (m.setHandler h none).Filed :=
    ha.setHandler (by grind) (by simp)
  have hgate := ha.gate
  unfold Manager.reqkick
  cases hp : m.players p with
  | none => exact hend
  | some e =>
      simp only
      split_ifs with hversion hstatus
      · exact hend
      · exact hend
      · constructor
        · apply ha.agent_of
          · exact fun a q hc => Or.inl hc
          · exact fun a hs => hs
          · intro a q e' he hag
            refine .entry e' he ?_
            simp only [setEntry, Manager.setHandler]
            grind [Function.update_apply]
          · intro a q k e' v hk hag
            refine .dropping k e' v ?_ ?_ <;> simp only [setEntry, Manager.setHandler] <;>
              grind [Function.update_apply]
        · exact ha.fresh
        · simp only [setEntry, Manager.setHandler]
          grind [Function.update_apply]

omit hm in
theorem Filed.shutdownLoop
    (hold : ∀ y, m.handlers h = some y → ∃ num n q e, y = .asking num n q e) {num n : Nat}
    {next : Option Nat} {m' : Manager} (hs : m.shutdownLoop h num n next = some m') :
    m'.Filed := by
  unfold Manager.shutdownLoop at hs
  cases next with
  | none =>
      obtain rfl := Option.some.inj hs
      exact ha.setHandler (by grind) (by simp)
  | some q =>
      cases hq : m.players q with
      | none => simp [hq] at hs
      | some e =>
          simp only [hq] at hs
          split_ifs at hs
          obtain rfl := Option.some.inj hs
          exact ha.setHandler (by grind) (by simp)

theorem Filed.shutdownNext {num n e : Nat} (hh : m.handlers h = some (.asking num n p e))
    {ok : Bool} {next : Option Nat} {m' : Manager}
    (hs : m.shutdownNext h num n p e ok next = some m') : m'.Filed := by
  have hlt := hm.fresh h _ hh
  have hfresh : m.handlers m.nextHandler = none := by
    by_contra hne
    obtain ⟨x, hx⟩ := Option.ne_none_iff_exists'.mp hne
    exact absurd (hm.fresh _ x hx) (Nat.lt_irrefl _)
  have hforked : ({ m with
      handlers := Function.update m.handlers m.nextHandler
        (some (.forked p (m.entries e).loginVersion))
      nextHandler := m.nextHandler + 1 } : Manager).Filed := by
    have hset := ha.setHandler (h := m.nextHandler)
      (x := some (.forked p (m.entries e).loginVersion)) (by simp [hfresh]) (by simp)
    exact ⟨fun a q hc => by
      cases hset.agent a q hc with
      | saved hs => exact .saved hs
      | entry e he hag => exact .entry e he hag
      | dropping h e v hh hag => exact .dropping h e v hh hag, hset.fresh, hset.gate⟩
  unfold Manager.shutdownNext at hs
  cases ok with
  | false =>
      simp only [Bool.false_eq_true, if_false] at hs
      exact ha.shutdownLoop (by grind) hs
  | true =>
      simp only [if_true] at hs
      have hold' : ∀ y, Function.update m.handlers m.nextHandler
          (some (Handler.forked p (m.entries e).loginVersion)) h = some y →
            ∃ num n q e, y = .asking num n q e := by
        grind [Function.update_apply]
      split_ifs at hs
      · obtain rfl := Option.some.inj hs
        exact hforked.setHandler (by grind) (by simp)
      · exact hforked.shutdownLoop hold' hs

theorem Filed.resume {x : Handler} (hh : m.handlers h = some x) {a : Answer} {m' : Manager}
    {ks : List Kick} (hs : m.resume h x a = some (m', ks)) : m'.Filed := by
  have hown := hm.owns
  have hentry := hm.entry
  have hunique := hm.unique
  have hgate := ha.gate
  have hfresh := ha.fresh
  cases x with
  | kickOld p node gate e v =>
      cases a with
      | done =>
          simp only [Manager.resume, Option.some.injEq, Prod.mk.injEq] at hs
          obtain ⟨rfl, -⟩ := hs
          cases hag : (m.entries e).agent with
          | none =>
              simp only [save]
              constructor
              · apply ha.agent_of
                · exact fun a q hc => Or.inl hc
                · exact fun a hs => hs
                · exact fun a q e he hag => .entry e he hag
                · intro a q k e' v hk hag
                  refine .dropping k e' v ?_ hag
                  simp only [Manager.setHandler]
                  grind [Function.update_apply]
              · exact ha.fresh
              · simp only [Manager.setHandler]
                grind [Function.update_apply]
          | some b =>
              simp only [save]
              constructor
              · apply ha.agent_of
                · exact fun a q hc => Or.inl hc
                · intro a hs
                  simp only [Manager.setHandler]
                  grind [Function.update_apply]
                · exact fun a q e he hag => .entry e he hag
                · intro a q k e' v hk hag
                  refine .dropping k e' v ?_ hag
                  simp only [Manager.setHandler]
                  grind [Function.update_apply]
              · exact ha.fresh
              · simp only [Manager.setHandler]
                grind [Function.update_apply]
      | _ => cases hs
  | kickGate p node gate e v =>
      cases a with
      | done =>
          simp only [Manager.resume, Option.some.injEq, Prod.mk.injEq] at hs
          obtain ⟨rfl, -⟩ := hs
          have hself := hown h _ hh
          constructor
          · apply ha.agent_of
            · exact fun a q hc => Or.inl hc
            · exact fun a hs => hs
            · intro a q e' he hag
              by_cases hq : q = p
              · -- the agent of the session that is replaced has been saved
                subst hq
                obtain rfl := Option.some.inj (he.symm.trans hself.1)
                exact .saved (ha.gate h _ _ _ _ _ hh a hag)
              · refine .entry e' ?_ ?_ <;> simp only [create] <;> grind [Function.update_apply]
            · intro a q k e' v hk hag
              have := hown k _ hk
              refine .dropping k e' v ?_ ?_ <;> simp only [create] <;>
                grind [Function.update_apply]
          · exact ha.fresh
          · simp only [create]
            intro k q n g e' v' hk b hag
            have hk' : m.handlers k = some (.kickGate q n g e' v') := by
              grind [Function.update_apply]
            have := hown k _ hk'
            grind [Function.update_apply]
      | _ => cases hs
  | creating p e v =>
      have hself := hown h _ hh
      cases a with
      | agent ok =>
          cases ok with
          | true =>
              simp only [Manager.resume, Option.some.injEq, Prod.mk.injEq] at hs
              obtain ⟨rfl, -⟩ := hs
              constructor
              · apply ha.agent_of
                · intro a q hc
                  by_cases hq : a = m.nextAgent
                  · right
                    refine .entry e ?_ ?_ <;> grind [Function.update_apply]
                  · left
                    grind [Function.update_apply]
                · exact fun a hs => hs
                · intro a q e' he hag
                  refine .entry e' he ?_
                  grind [Function.update_apply]
                · intro a q k e' v hk hag
                  have := hown k _ hk
                  refine .dropping k e' v ?_ ?_ <;> grind [Function.update_apply]
              · intro b q hc
                simp only at hc ⊢
                grind [Function.update_apply]
              · simp only
                intro k q n g e' v' hk b hag
                have hk' : m.handlers k = some (.kickGate q n g e' v') := by
                  grind [Function.update_apply]
                have := hown k _ hk'
                grind [Function.update_apply]
          | false =>
              simp only [Manager.resume, Option.some.injEq, Prod.mk.injEq] at hs
              obtain ⟨rfl, -⟩ := hs
              constructor
              · apply ha.agent_of
                · exact fun a q hc => Or.inl hc
                · exact fun a hs => hs
                · intro a q e' he hag
                  refine .entry e' ?_ hag
                  simp only [setPlayer, Manager.setHandler]
                  grind [Function.update_apply]
                · intro a q k e' v hk hag
                  refine .dropping k e' v ?_ hag
                  simp only [setPlayer, Manager.setHandler]
                  grind [Function.update_apply]
              · exact ha.fresh
              · simp only [setPlayer, Manager.setHandler]
                grind [Function.update_apply]
      | _ => cases hs
  | dropping p e v =>
      cases a with
      | done =>
          simp only [Manager.resume, Option.some.injEq, Prod.mk.injEq] at hs
          obtain ⟨rfl, -⟩ := hs
          have hsaved : ∀ b, (m.entries e).agent = some b →
              ((m.save (m.entries e).agent).setHandler h none).saved b = true := by
            intro b hb
            rw [hb]
            simp [save, Manager.setHandler]
          have hmono : ∀ b, m.saved b = true →
              ((m.save (m.entries e).agent).setHandler h none).saved b = true := by
            intro b hb
            cases hag : (m.entries e).agent <;> simp only [save, Manager.setHandler] <;>
              grind [Function.update_apply]
          have hrest : ((m.save (m.entries e).agent).setHandler h none).created = m.created ∧
              ((m.save (m.entries e).agent).setHandler h none).players = m.players ∧
              ((m.save (m.entries e).agent).setHandler h none).entries = m.entries ∧
              ((m.save (m.entries e).agent).setHandler h none).nextAgent = m.nextAgent ∧
              ((m.save (m.entries e).agent).setHandler h none).handlers =
                Function.update m.handlers h none := by
            cases (m.entries e).agent <;> exact ⟨rfl, rfl, rfl, rfl, rfl⟩
          obtain ⟨hcreated, hplayers, hentries, hnext, hhandlers⟩ := hrest
          constructor
          · apply ha.agent_of
            · intro a q hc
              exact Or.inl (hcreated ▸ hc)
            · exact hmono
            · intro a q e' he hag
              exact .entry e' (by rw [hplayers]; exact he) (by rw [hentries]; exact hag)
            · intro a q k e' v' hk hag
              by_cases hkh : k = h
              · subst hkh
                rw [hh] at hk
                cases hk
                exact .saved (hsaved a hag)
              · refine .dropping k e' v' ?_ (by rw [hentries]; exact hag)
                rw [hhandlers, Function.update_of_ne hkh]
                exact hk
          · rw [hcreated, hnext]
            exact ha.fresh
          · rw [hhandlers, hentries]
            grind [Function.update_apply]
      | _ => cases hs
  | kicking p e v =>
      have hself := hown h _ hh
      cases a with
      | done =>
          simp only [Manager.resume, Option.some.injEq, Prod.mk.injEq] at hs
          obtain ⟨rfl, -⟩ := hs
          have hmono : ∀ b, m.saved b = true →
              (((m.save (m.entries e).agent).setPlayer p none).setHandler h none).saved b = true := by
            intro b hb
            cases hag : (m.entries e).agent <;>
              simp only [save, setPlayer, Manager.setHandler] <;> grind [Function.update_apply]
          have hrest :
              (((m.save (m.entries e).agent).setPlayer p none).setHandler h none).created =
                m.created ∧
              (((m.save (m.entries e).agent).setPlayer p none).setHandler h none).players =
                Function.update m.players p none ∧
              (((m.save (m.entries e).agent).setPlayer p none).setHandler h none).entries =
                m.entries ∧
              (((m.save (m.entries e).agent).setPlayer p none).setHandler h none).nextAgent =
                m.nextAgent ∧
              (((m.save (m.entries e).agent).setPlayer p none).setHandler h none).handlers =
                Function.update m.handlers h none := by
            cases (m.entries e).agent <;> exact ⟨rfl, rfl, rfl, rfl, rfl⟩
          obtain ⟨hcreated, hplayers, hentries, hnext, hhandlers⟩ := hrest
          constructor
          · apply ha.agent_of
            · intro a q hc
              exact Or.inl (hcreated ▸ hc)
            · exact hmono
            · intro a q e' he hag
              by_cases hq : q = p
              · -- the agent that has just been kicked
                subst hq
                obtain rfl := Option.some.inj (he.symm.trans hself.1)
                refine .saved ?_
                rw [hag]
                simp [save, setPlayer, Manager.setHandler]
              · refine .entry e' ?_ (by rw [hentries]; exact hag)
                rw [hplayers, Function.update_of_ne hq]
                exact he
            · intro a q k e' v' hk hag
              refine .dropping k e' v' ?_ (by rw [hentries]; exact hag)
              rw [hhandlers]
              grind [Function.update_apply]
          · rw [hcreated, hnext]
            exact ha.fresh
          · rw [hhandlers, hentries]
            grind [Function.update_apply]
      | _ => cases hs
  | asking num n p e =>
      cases a with
      | can ok next =>
          simp only [Manager.resume, Option.map_eq_some_iff, Prod.mk.injEq] at hs
          obtain ⟨m₁, hs, rfl, -⟩ := hs
          exact ha.shutdownNext hm hh hs
      | _ => cases hs
  | sleeping =>
      cases a with
      | done =>
          simp only [Manager.resume, Option.some.injEq, Prod.mk.injEq] at hs
          obtain ⟨rfl, -⟩ := hs
          exact ha.setHandler (by grind) (by simp)
      | _ => cases hs
  | forked p v =>
      cases a with
      | done =>
          simp only [Manager.resume, Option.some.injEq, Prod.mk.injEq] at hs
          obtain ⟨rfl, -⟩ := hs
          exact ha.reqkick (by grind) v
      | _ => cases hs

end Steps

theorem start_filed : start.Filed := by
  constructor <;> simp [start]

theorem Filed.bump {m : Manager} (ha : m.Filed) :
    ({ m with nextHandler := m.nextHandler + 1 } : Manager).Filed := by
  refine ⟨?_, ha.fresh, ha.gate⟩
  apply ha.agent_of
  · exact fun a q hc => Or.inl hc
  · exact fun a hs => hs
  · exact fun a q e he hag => .entry e he hag
  · exact fun a q k e v hk hag => .dropping k e v hk hag

theorem step_filed {m m' : Manager} (hm : m.Locked) (ha : m.Filed) {e : Event}
    {ks : List Kick} (hok : Confirmable m e) (hs : m.step e = some (m', ks)) : m'.Filed := by
  have hnone : m.handlers m.nextHandler = none := by
    by_contra hne
    obtain ⟨x, hx⟩ := Option.ne_none_iff_exists'.mp hne
    exact absurd (hm.fresh _ x hx) (Nat.lt_irrefl _)
  cases e with
  | reqlogin p node gate =>
      simp only [step, Option.some.injEq, Prod.mk.injEq] at hs
      obtain ⟨rfl, -⟩ := hs
      exact ha.bump.reqlogin hm.bump hnone
  | confirmLogin p v ok =>
      simp only [step, Option.some.injEq, Prod.mk.injEq] at hs
      obtain ⟨rfl, -⟩ := hs
      exact ha.bump.confirmLogin hm.bump hnone hok
  | reqkick p v =>
      simp only [step, Option.some.injEq, Prod.mk.injEq] at hs
      obtain ⟨rfl, -⟩ := hs
      exact ha.bump.reqkick (by grind) v
  | shutdown num next =>
      simp only [step, Option.map_eq_some_iff, Prod.mk.injEq] at hs
      obtain ⟨m₁, hs, rfl, -⟩ := hs
      exact ha.bump.shutdownLoop (by grind) hs
  | resume h a =>
      simp only [step] at hs
      cases hh : m.handlers h with
      | none => simp [hh] at hs
      | some x =>
          rw [hh] at hs
          exact ha.resume hm hh hs

/-! ## Entries and handlers of a step -/

theorem players_of_reqkick {m : Manager} {h p v q : Nat} : (m.reqkick h p v).players q = m.players q := by
  unfold reqkick
  split
  · rfl
  · split
    · rfl
    · split <;> rfl

theorem players_of_shutdownNext {m m' : Manager} {h num n p e q : Nat} {ok : Bool}
    {next : Option Nat}
    (hs : m.shutdownNext h num n p e ok next = some m') : m'.players q = m.players q := by
  unfold shutdownNext at hs
  cases ok with
  | false =>
      simp only [Bool.false_eq_true, if_false] at hs
      rw [(same_of_shutdownLoop hs).1]
  | true =>
      simp only [if_true] at hs
      split at hs
      · obtain rfl := Option.some.inj hs
        rfl
      · rw [(same_of_shutdownLoop hs).1]

theorem players_of_save {m : Manager} {a : Option Nat} {q : Nat} : (m.save a).players q = m.players q := by
  cases a <;> rfl

/-- A player gets an entry by a login only, at its beginning or after its kicks. -/
theorem enters_cases {m m' : Manager} {e : Event} {ks : List Kick}
    (hs : m.step e = some (m', ks)) {q : Nat} (hq : m'.players q ≠ none) :
    m.players q ≠ none ∨ (∃ node gate, e = .reqlogin q node gate) ∨
      ∃ h node gate old v, e = .resume h .done ∧
        m.handlers h = some (.kickGate q node gate old v) := by
  cases e with
  | reqlogin p node gate =>
      by_cases hpq : q = p
      · exact .inr (.inl ⟨node, gate, by rw [hpq]⟩)
      · left
        simp only [step, Option.some.injEq, Prod.mk.injEq] at hs
        obtain ⟨rfl, -⟩ := hs
        unfold reqlogin at hq
        revert hq
        split
        · simp [create, nextLoginVersion, hpq]
        · split <;> exact id
  | confirmLogin p v ok =>
      left
      simp only [step, Option.some.injEq, Prod.mk.injEq] at hs
      obtain ⟨rfl, -⟩ := hs
      unfold confirmLogin at hq
      revert hq
      dsimp only
      split
      · exact id
      · split
        · simp only [setHandler, setPlayer]
          by_cases hpq : q = p <;> simp [hpq]
        · exact id
  | reqkick p v =>
      left
      simp only [step, Option.some.injEq, Prod.mk.injEq] at hs
      obtain ⟨rfl, -⟩ := hs
      rwa [players_of_reqkick] at hq
  | shutdown num next =>
      left
      simp only [step, Option.map_eq_some_iff, Prod.mk.injEq] at hs
      obtain ⟨m₁, hs, rfl, -⟩ := hs
      rwa [(same_of_shutdownLoop hs).1] at hq
  | resume h a =>
      simp only [step] at hs
      cases hh : m.handlers h with
      | none => simp [hh] at hs
      | some x =>
          rw [hh] at hs
          cases x <;> cases a <;> simp only [resume, reduceCtorEq] at hs
          case kickOld.done =>
            left
            obtain ⟨rfl, -⟩ := Prod.mk.inj (Option.some.inj hs)
            exact fun hn => hq (players_of_save.trans hn)
          case kickGate.done p node gate old v =>
            obtain ⟨rfl, -⟩ := Prod.mk.inj (Option.some.inj hs)
            by_cases hpq : q = p
            · exact .inr (.inr ⟨h, node, gate, old, v, rfl, by rw [hpq, hh]⟩)
            · left
              simpa [create, hpq] using hq
          case creating.agent p e v ok =>
            left
            cases ok with
            | true =>
                obtain ⟨rfl, -⟩ := Prod.mk.inj (Option.some.inj hs)
                exact hq
            | false =>
                obtain ⟨rfl, -⟩ := Prod.mk.inj (Option.some.inj hs)
                intro hn
                by_cases hpq : q = p <;>
                  simp [setHandler, setPlayer, hpq] at hq
                exact hq hn
          case dropping.done =>
            left
            obtain ⟨rfl, -⟩ := Prod.mk.inj (Option.some.inj hs)
            exact fun hn => hq (players_of_save.trans hn)
          case kicking.done p e v =>
            left
            obtain ⟨rfl, -⟩ := Prod.mk.inj (Option.some.inj hs)
            intro hn
            by_cases hpq : q = p
            · simp [setHandler, setPlayer, hpq] at hq
            · simp only [setHandler, setPlayer,
                Function.update_of_ne hpq] at hq
              exact hq (players_of_save.trans hn)
          case asking.can =>
            left
            obtain ⟨m₁, hs₁, heq⟩ := Option.map_eq_some_iff.mp hs
            obtain ⟨rfl, -⟩ := Prod.mk.inj heq
            rwa [players_of_shutdownNext hs₁] at hq
          case sleeping.done =>
            left
            obtain ⟨rfl, -⟩ := Prod.mk.inj (Option.some.inj hs)
            exact hq
          case forked.done =>
            left
            obtain ⟨rfl, -⟩ := Prod.mk.inj (Option.some.inj hs)
            rwa [players_of_reqkick] at hq

/-- A player gets an entry by a login only. -/
theorem enters {m m' : Manager} (hm : m.Locked) {e : Event} {ks : List Kick}
    (hs : m.step e = some (m', ks)) {q : Nat} (hq : m'.players q ≠ none) :
    m.players q ≠ none ∨ ∃ node gate, e = .reqlogin q node gate := by
  rcases enters_cases hs hq with hold | hlogin | ⟨h, node, gate, old, v, rfl, hh⟩
  · exact .inl hold
  · exact .inr hlogin
  · refine .inl ?_
    rw [(hm.owns h _ hh).1]
    exact Option.some_ne_none _

theorem handler_of_setHandler {m : Manager} {h k : Nat} {x : Option Handler} {y : Handler}
    (hx : x ≠ some y) (hk : (m.setHandler h x).handlers k = some y) :
    m.handlers k = some y := by
  simp only [setHandler] at hk
  grind [Function.update_apply]

theorem handler_of_reqkick {m : Manager} {h k q w : Nat} {y : Handler} (hy : y.OfLogin)
    (hk : (m.reqkick h q w).handlers k = some y) : m.handlers k = some y := by
  unfold Manager.reqkick at hk
  cases hq : m.players q with
  | none =>
      rw [hq] at hk
      exact handler_of_setHandler (by simp) hk
  | some e' =>
      simp only [hq] at hk
      split_ifs at hk
      · exact handler_of_setHandler (by simp) hk
      · exact handler_of_setHandler (by simp) hk
      · refine handler_of_setHandler (m := m.setEntry e' _) ?_ hk
        rintro ⟨⟩
        exact hy

theorem handler_of_shutdownLoop {m m' : Manager} {h k num n : Nat} {next : Option Nat}
    {y : Handler} (hy : y.OfLogin) (hs : m.shutdownLoop h num n next = some m')
    (hk : m'.handlers k = some y) : m.handlers k = some y := by
  unfold Manager.shutdownLoop at hs
  cases next with
  | none =>
      obtain rfl := Option.some.inj hs
      refine handler_of_setHandler ?_ hk
      rintro ⟨⟩
      exact hy
  | some q =>
      cases hq : m.players q with
      | none => simp [hq] at hs
      | some e =>
          simp only [hq] at hs
          split_ifs at hs
          obtain rfl := Option.some.inj hs
          refine handler_of_setHandler ?_ hk
          rintro ⟨⟩
          exact hy

theorem handler_of_shutdownNext {m m' : Manager} {h k num n q e' : Nat} {ok : Bool}
    {next : Option Nat} {y : Handler} (hy : y.OfLogin)
    (hs : m.shutdownNext h num n q e' ok next = some m') (hk : m'.handlers k = some y) :
    m.handlers k = some y := by
  have hforked : Function.update m.handlers m.nextHandler
      (some (.forked q (m.entries e').loginVersion)) k = some y → m.handlers k = some y := by
    refine fun hk => handler_of_setHandler (m := m) (h := m.nextHandler) ?_ hk
    rintro ⟨⟩
    exact hy
  unfold Manager.shutdownNext at hs
  cases ok with
  | false =>
      simp only [Bool.false_eq_true, if_false] at hs
      exact handler_of_shutdownLoop hy hs hk
  | true =>
      simp only [if_true] at hs
      split_ifs at hs
      · obtain rfl := Option.some.inj hs
        refine hforked (handler_of_setHandler ?_ hk)
        rintro ⟨⟩
        exact hy
      · exact hforked (handler_of_shutdownLoop hy hs hk)

/-- An agent is dropped by the confirmation that removes the entry of its player. -/
theorem dropping_cases {m m' : Manager} {e : Event} {ks : List Kick}
    (hs : m.step e = some (m', ks)) {k p e₀ v : Nat}
    (hk : m'.handlers k = some (.dropping p e₀ v)) :
    m.handlers k = some (.dropping p e₀ v) ∨ m'.players p = none := by
  have hdropping : (Handler.dropping p e₀ v).OfLogin := trivial
  cases e with
  | reqlogin q node gate =>
      simp only [step, Option.some.injEq, Prod.mk.injEq] at hs
      obtain ⟨rfl, -⟩ := hs
      left
      unfold Manager.reqlogin at hk
      cases hp : m.players q with
      | none =>
          simp only [hp, nextLoginVersion, create] at hk
          grind [Function.update_apply]
      | some e =>
          simp only [hp] at hk
          cases hs : (m.entries e).status <;>
            simp only [hs, nextLoginVersion, setEntry, setHandler] at hk <;>
            grind [Function.update_apply]
  | confirmLogin q w ok =>
      simp only [step, Option.some.injEq, Prod.mk.injEq] at hs
      obtain ⟨rfl, -⟩ := hs
      unfold Manager.confirmLogin at hk ⊢
      cases hp : m.players q <;> simp only [hp] at hk ⊢
      · exact .inl hk
      · split_ifs at hk ⊢ <;> simp only [setPlayer, setEntry, setHandler] at hk ⊢ <;>
          grind [Function.update_apply]
  | reqkick q w =>
      simp only [step, Option.some.injEq, Prod.mk.injEq] at hs
      obtain ⟨rfl, -⟩ := hs
      have hold := handler_of_reqkick hdropping hk
      exact .inl hold
  | shutdown num next =>
      simp only [step, Option.map_eq_some_iff, Prod.mk.injEq] at hs
      obtain ⟨m₁, hs, rfl, -⟩ := hs
      have hold := handler_of_shutdownLoop hdropping hs hk
      exact .inl hold
  | resume h a =>
      left
      simp only [step] at hs
      cases hh : m.handlers h with
      | none => simp [hh] at hs
      | some x =>
          rw [hh] at hs
          cases x <;> cases a <;> simp only [Manager.resume, reduceCtorEq] at hs
          case kickOld.done q node gate old w | dropping.done q old w | kicking.done q old w =>
            obtain ⟨rfl, -⟩ := Prod.mk.inj (Option.some.inj hs)
            cases hag : (m.entries old).agent <;> rw [hag] at hk <;>
              exact handler_of_setHandler (by simp) hk
          case kickGate.done =>
            obtain ⟨rfl, -⟩ := Prod.mk.inj (Option.some.inj hs)
            simp only [create] at hk
            grind [Function.update_apply]
          case creating.agent q old w ok =>
            cases ok with
            | true =>
                obtain ⟨rfl, -⟩ := Prod.mk.inj (Option.some.inj hs)
                exact handler_of_setHandler (m := m) (h := h) (x := none) (by simp) hk
            | false =>
                obtain ⟨rfl, -⟩ := Prod.mk.inj (Option.some.inj hs)
                exact handler_of_setHandler (m := m.setPlayer q none) (by simp) hk
          case asking.can =>
            obtain ⟨m₁, hs₁, heq⟩ := Option.map_eq_some_iff.mp hs
            obtain ⟨rfl, -⟩ := Prod.mk.inj heq
            exact handler_of_shutdownNext hdropping hs₁ hk
          case sleeping.done =>
            obtain ⟨rfl, -⟩ := Prod.mk.inj (Option.some.inj hs)
            exact handler_of_setHandler (by simp) hk
          case forked.done =>
            obtain ⟨rfl, -⟩ := Prod.mk.inj (Option.some.inj hs)
            exact handler_of_reqkick hdropping hk

theorem start_accounted : start.Accounted := by
  constructor <;> simp [start]

/-- A login that waits for failed confirmations keeps dropped agents apart from entries. -/
theorem step_accounted {m m' : Manager} (hm : m.Locked) (ha : m.Accounted) {e : Event}
    {ks : List Kick} (hok : Ordered m e) (hs : m.step e = some (m', ks)) : m'.Accounted := by
  obtain ⟨hagent, hfresh, hgate⟩ := step_filed hm ⟨ha.agent, ha.fresh, ha.gate⟩ hok.confirmable hs
  refine ⟨hagent, hfresh, fun p e' k e₀ v hp hk => ?_, hgate⟩
  rcases dropping_cases hs hk with hold | hnone
  · rcases enters hm hs (q := p) (by simp [hp]) with hentry | ⟨node, gate, rfl⟩
    · obtain ⟨e₁, he₁⟩ := Option.ne_none_iff_exists'.mp hentry
      exact ha.apart p e₁ k e₀ v he₁ hold
    · cases hnone : m.players p with
      | none => exact hok hnone k e₀ v hold
      | some e₁ => exact ha.apart p e₁ k e₀ v hnone hold
  · rw [hp] at hnone
    cases hnone

/-! ## Where an agent is asked for -/

/-- Only two places of the program ask for an agent: {lit}`reqlogin` of a player without an
entry, and {lit}`reqlogin` after the older session has been kicked. -/
theorem asks_cases {m m' : Manager} {e : Event} {ks : List Kick}
    (hs : m.step e = some (m', ks)) {p : Nat} (hasks : Asks m m' p) :
    (∃ node gate, e = .reqlogin p node gate ∧ m.players p = none) ∨
      ∃ h node gate old v, m.handlers h = some (.kickGate p node gate old v) := by
  obtain ⟨k, e₀, v, hnew, hold⟩ := hasks
  have hcreating : (Handler.creating p e₀ v).OfLogin := trivial
  cases e with
  | reqlogin q node gate =>
      simp only [step, Option.some.injEq, Prod.mk.injEq] at hs
      obtain ⟨rfl, -⟩ := hs
      left
      unfold Manager.reqlogin at hnew
      cases hp : m.players q with
      | none =>
          simp only [hp, nextLoginVersion, create] at hnew
          by_cases hk : k = m.nextHandler
          · subst hk
            simp only [Function.update_self, Option.some.injEq, Handler.creating.injEq] at hnew
            obtain ⟨rfl, -⟩ := hnew
            exact ⟨node, gate, rfl, hp⟩
          · rw [Function.update_of_ne hk] at hnew
            exact absurd hnew hold
      | some e =>
          simp only [hp] at hnew
          cases hs : (m.entries e).status <;>
            simp only [hs, nextLoginVersion, setEntry, setHandler] at hnew <;>
            grind [Function.update_apply]
  | confirmLogin q w ok =>
      simp only [step, Option.some.injEq, Prod.mk.injEq] at hs
      obtain ⟨rfl, -⟩ := hs
      unfold Manager.confirmLogin at hnew
      cases hp : m.players q <;> simp only [hp] at hnew
      · grind
      · split_ifs at hnew <;> simp only [setPlayer, setEntry, setHandler] at hnew <;>
          grind [Function.update_apply]
  | reqkick q w =>
      simp only [step, Option.some.injEq, Prod.mk.injEq] at hs
      obtain ⟨rfl, -⟩ := hs
      exact absurd (handler_of_reqkick hcreating hnew) hold
  | shutdown num next =>
      simp only [step, Option.map_eq_some_iff, Prod.mk.injEq] at hs
      obtain ⟨m₁, hs, rfl, -⟩ := hs
      exact absurd (handler_of_shutdownLoop hcreating hs hnew) hold
  | resume h a =>
      simp only [step] at hs
      cases hh : m.handlers h with
      | none => simp [hh] at hs
      | some x =>
          rw [hh] at hs
          cases x with
          | kickOld q node gate old w =>
              cases a <;> simp only [Manager.resume, Option.some.injEq, Prod.mk.injEq,
                reduceCtorEq] at hs
              obtain ⟨rfl, -⟩ := hs
              cases hag : (m.entries old).agent <;> rw [hag] at hnew <;>
                exact absurd (handler_of_setHandler (by simp) hnew) hold
          | kickGate q node gate old w =>
              cases a <;> simp only [Manager.resume, Option.some.injEq, Prod.mk.injEq,
                reduceCtorEq] at hs
              obtain ⟨rfl, -⟩ := hs
              right
              simp only [create] at hnew
              grind [Function.update_apply]
          | creating q e w =>
              cases a with
              | agent ok =>
                  cases ok <;> simp only [Manager.resume, Option.some.injEq, Prod.mk.injEq] at hs
                  · obtain ⟨rfl, -⟩ := hs
                    exact absurd (handler_of_setHandler (m := m.setPlayer q none) (by simp) hnew)
                      hold
                  · obtain ⟨rfl, -⟩ := hs
                    exact absurd (handler_of_setHandler (m := m) (h := h) (x := none) (by simp)
                      hnew) hold
              | _ => cases hs
          | dropping q e w =>
              cases a <;> simp only [Manager.resume, Option.some.injEq, Prod.mk.injEq,
                reduceCtorEq] at hs
              obtain ⟨rfl, -⟩ := hs
              cases hag : (m.entries e).agent <;> rw [hag] at hnew <;>
                exact absurd (handler_of_setHandler (by simp) hnew) hold
          | kicking q e w =>
              cases a <;> simp only [Manager.resume, Option.some.injEq, Prod.mk.injEq,
                reduceCtorEq] at hs
              obtain ⟨rfl, -⟩ := hs
              cases hag : (m.entries e).agent <;> rw [hag] at hnew <;>
                exact absurd (handler_of_setHandler (by simp) hnew) hold
          | asking num n q e =>
              cases a with
              | can ok next =>
                  simp only [Manager.resume, Option.map_eq_some_iff, Prod.mk.injEq] at hs
                  obtain ⟨m₁, hs, rfl, -⟩ := hs
                  exact absurd (handler_of_shutdownNext hcreating hs hnew) hold
              | _ => cases hs
          | sleeping =>
              cases a <;> simp only [Manager.resume, Option.some.injEq, Prod.mk.injEq,
                reduceCtorEq] at hs
              obtain ⟨rfl, -⟩ := hs
              exact absurd (handler_of_setHandler (by simp) hnew) hold
          | forked q w =>
              cases a <;> simp only [Manager.resume, Option.some.injEq, Prod.mk.injEq,
                reduceCtorEq] at hs
              obtain ⟨rfl, -⟩ := hs
              exact absurd (handler_of_reqkick hcreating hnew) hold

/-- A step that asks for an agent finds all former agents of the player saved. -/
theorem saved_of_asks {m m' : Manager} (hm : m.Locked) (ha : m.Accounted) {e : Event}
    {ks : List Kick} (hok : Ordered m e) (hs : m.step e = some (m', ks)) {p : Nat}
    (hasks : Asks m m' p) : ∀ a, m.created a = some p → m.saved a = true := by
  intro a hc
  rcases asks_cases hs hasks with ⟨node, gate, rfl, hp⟩ | ⟨h, node, gate, old, v, hh⟩
  · cases ha.agent a p hc with
    | saved hs => exact hs
    | entry e he hag =>
        rw [hp] at he
        cases he
    | dropping h e v hh hag => exact absurd hh (hok hp h e v)
  · have hown := hm.owns h _ hh
    cases ha.agent a p hc with
    | saved hs => exact hs
    | entry e he hag =>
        obtain rfl := Option.some.inj (he.symm.trans hown.1)
        exact ha.gate h _ _ _ _ _ hh a hag
    | dropping k e w hk hag => exact absurd hk (ha.apart p old k e w hown.1)

end Manager

theorem Reach.accounted {m : Manager} (hr : Reach Ordered m) : m.Locked ∧ m.Accounted := by
  induction hr with
  | start => exact ⟨Manager.start_locked, Manager.start_accounted⟩
  | step hr he hs ih =>
      exact ⟨Manager.step_locked ih.1 he.confirmable hs, Manager.step_accounted ih.1 ih.2 he hs⟩

/-- In runs in which no login of a player without an entry starts while a failed
confirmation is kicking an agent of the player, and confirmations arrive only for logins
that have an agent: whenever an agent is asked for, all former agents of the player have
been kicked. -/
theorem creates_after_saves {m m' : Manager} {e : Event} {ks : List Kick}
    (hr : Reach Ordered m) (he : Ordered m e) (hs : m.step e = some (m', ks)) {p : Nat}
    (hasks : Asks m m' p) : ∀ a, m.created a = some p → m.saved a = true :=
  Manager.saved_of_asks hr.accounted.1 hr.accounted.2 he hs hasks

/-- The service after some events. -/
def after (es : List Event) : Manager := (Manager.start.run es).getD .start

theorem creates_after_saves_replaced :
    ∃ m m' ks, Manager.step m (.resume 2 .done) = some (m', ks) ∧ Asks m m' 7 ∧
      ∀ a, m.created a = some 7 → m.saved a = true := by
  have hlogin : Reach Ordered (after [.reqlogin 7 0 0]) :=
    .step (e := .reqlogin 7 0 0) .start (fun _ h e v => by simp [Manager.start]) rfl
  have hcreated : Reach Ordered (after [.reqlogin 7 0 0, .resume 0 (.agent true)]) :=
    .step (e := .resume 0 (.agent true)) hlogin trivial rfl
  have hconfirmed : Reach Ordered
      (after [.reqlogin 7 0 0, .resume 0 (.agent true), .confirmLogin 7 1 true]) := by
    refine .step (e := .confirmLogin 7 1 true) hcreated ?_ rfl
    intro e he
    cases he
    decide
  have hagain : Reach Ordered (after [.reqlogin 7 0 0, .resume 0 (.agent true),
      .confirmLogin 7 1 true, .reqlogin 7 0 0]) := by
    refine .step (e := .reqlogin 7 0 0) hconfirmed ?_ rfl
    intro h
    cases h
  have hkicked : Reach Ordered (after [.reqlogin 7 0 0, .resume 0 (.agent true),
      .confirmLogin 7 1 true, .reqlogin 7 0 0, .resume 2 .done]) :=
    .step (e := .resume 2 .done) hagain trivial rfl
  have hasks : Asks
      (after [.reqlogin 7 0 0, .resume 0 (.agent true), .confirmLogin 7 1 true, .reqlogin 7 0 0,
        .resume 2 .done])
      (after [.reqlogin 7 0 0, .resume 0 (.agent true), .confirmLogin 7 1 true, .reqlogin 7 0 0,
        .resume 2 .done, .resume 2 .done]) 7 := ⟨2, 1, 2, by decide, by decide⟩
  exact ⟨_, _, _, rfl, hasks, creates_after_saves (e := .resume 2 .done) hkicked trivial rfl hasks⟩

/-- A confirmation fails, and the player logs in again while the agent is being kicked: the
entry is gone, so a second agent is asked for while the first has not been saved. -/
theorem creates_too_early :
    ¬ ∀ (m m' : Manager) (e : Event) (ks : List Kick), Reach (fun _ _ => True) m →
      m.step e = some (m', ks) → ∀ p, Asks m m' p →
        ∀ a, m.created a = some p → m.saved a = true := by
  intro h
  have hr : Reach (fun _ _ => True)
      (after [.reqlogin 7 0 0, .resume 0 (.agent true), .confirmLogin 7 1 false]) :=
    Reach.of_run .start (fun _ _ => trivial)
      [.reqlogin 7 0 0, .resume 0 (.agent true), .confirmLogin 7 1 false] rfl
  have hasks : Asks (after [.reqlogin 7 0 0, .resume 0 (.agent true), .confirmLogin 7 1 false])
      (after [.reqlogin 7 0 0, .resume 0 (.agent true), .confirmLogin 7 1 false,
        .reqlogin 7 0 0]) 7 := ⟨2, 1, 2, by decide, by decide⟩
  have hsaved := h _ _ (.reqlogin 7 0 0) [] hr rfl 7 hasks 0 (by decide)
  revert hsaved
  decide

end BallServer.AgentMgr
