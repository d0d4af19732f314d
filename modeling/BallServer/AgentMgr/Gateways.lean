import BallServer.AgentMgr.Versions

/-!
# Kicks and logins at the gateways

A login passes through three services: the login service asks the agent manager for an
agent, then calls {lit}`sure_agent` at the gateway of the client, which asks the agent
manager to confirm.  Kicks go from the agent manager to the gateway.  Messages between
the same two services keep their order, so the kicks for one gateway form a queue;
nothing orders a kick and a {lit}`sure_agent`, which come from different services.

Main results:

- Definition {lit}`System.step`: the agent manager, the gateways and the messages
  between them.
- Theorem {lit}`kick_hits_own`: when no {lit}`sure_agent` overtakes a kick that
  {lit}`reqkick` has sent without waiting, a kick removes only the session it was sent
  for.
- Theorem {lit}`kick_hits_later`: otherwise it may remove the next one.
-/

namespace BallServer.AgentMgr

/-- A login that has got its agent: its {lit}`sure_agent` is on the way to the gateway, or
its {lit}`confirm_login` is on the way back with the argument the gateway gave it. -/
structure Login where
  gate : Nat
  playerid : Nat
  version : Nat
  confirm : Option Bool
deriving DecidableEq, Repr

/-- The agent manager, the {lit}`login_version` of the gateplayers of every gateway, and the
messages on their way. -/
structure System where
  mgr : Manager
  gateplayers : Nat → Nat → Option Nat
  queue : Nat → List Kick
  logins : List Login
  answers : List (Nat × Nat × Bool)

/-- A step of the system. -/
inductive Move where
  /-- The agent manager handles an event other than a confirmation. -/
  | manager (e : Event)
  /-- A gateway handles {lit}`sure_agent`; the connection may be gone. -/
  | sureAgent (l : Login) (connected : Bool)
  /-- The agent manager handles {lit}`confirm_login`. -/
  | confirm (l : Login)
  /-- {lit}`sure_agent` resumes with the answer to its {lit}`confirm_login`. -/
  | answer (gate playerid : Nat) (ok : Bool)
  /-- A gateway handles the next kick. -/
  | kick (gate : Nat)
  /-- The next kick is lost with its connection; the call raises. -/
  | lose (gate : Nat)
deriving DecidableEq, Repr

namespace System

/-- The system when it starts. -/
def start : System where
  mgr := .start
  gateplayers := fun _ _ => none
  queue := fun _ => []
  logins := []
  answers := []

/-- The handler waits for a kick that is still on its way. -/
def blocked (s : System) (h : Nat) : Bool :=
  match s.mgr.handlers h with
  | some (.kickGate _ _ _ e _) => (s.queue (s.mgr.entries e).gate).any (·.caller = some h)
  | _ => false

/-- The login whose agent has just been created. -/
def granted (s : System) : Event → Option Login
  | .resume h (.agent true) =>
      match s.mgr.handlers h with
      | some (.creating p e v) => some ⟨(s.mgr.entries e).gate, p, v, none⟩
      | _ => none
  | _ => none

/-- Set the gateplayer of a player. -/
def setPlayer (s : System) (g p : Nat) (v : Option Nat) : System :=
  { s with
    gateplayers := Function.update s.gateplayers g (Function.update (s.gateplayers g) p v) }

/-- The agent manager has made a step. -/
def advance (s : System) (m : Manager) (ks : List Kick) : System :=
  { s with
    mgr := m
    queue := fun g => s.queue g ++ ks.filter (·.gate = g) }

/-- The entry of the player would be confirmed. -/
def confirms (m : Manager) (p : Nat) (isSucc : Bool) : Bool :=
  match m.players p with
  | none => false
  | some e => decide ((m.entries e).status = .login) && isSucc

/-- One step. -/
def step (s : System) : Move → Option System
  | .manager (.confirmLogin _ _ _) => none
  | .manager e => do
      if (match e with | .resume h _ => s.blocked h | _ => false) then none
      else
        let (m, ks) ← s.mgr.step e
        some { s.advance m ks with logins := (s.granted e).toList ++ s.logins }
  | .sureAgent l connected =>
      if l ∈ s.logins ∧ l.confirm = none then
        let s := { s with logins := { l with confirm := some connected } :: s.logins.erase l }
        some (if connected then s.setPlayer l.gate l.playerid (some l.version) else s)
      else none
  | .confirm l =>
      match l.confirm with
      | none => none
      | some isSucc =>
          if l ∈ s.logins then do
            let (m, ks) ← s.mgr.step (.confirmLogin l.playerid l.version isSucc)
            some { s.advance m ks with
              logins := s.logins.erase l
              answers := (l.gate, l.playerid, confirms s.mgr l.playerid isSucc) :: s.answers }
          else none
  | .answer g p ok =>
      if (g, p, ok) ∈ s.answers then
        let s := { s with answers := s.answers.erase (g, p, ok) }
        some (if ok then s else s.setPlayer g p none)
      else none
  | .kick g =>
      match s.queue g with
      | [] => none
      | k :: ks =>
          some ({ s with queue := Function.update s.queue g ks }.setPlayer g k.playerid none)
  | .lose g =>
      match s.queue g with
      | [] => none
      | _ :: ks => some { s with queue := Function.update s.queue g ks }

/-- A sequence of steps. -/
def run (s : System) : List Move → Option System
  | [] => some s
  | e :: es => do
      let s ← s.step e
      s.run es

end System

/-- The states of the system reached by steps that meet a condition. -/
inductive System.Reach (ok : System → Move → Prop) : System → Prop where
  | start : Reach ok .start
  | step {s s' : System} {e : Move} (hr : Reach ok s) (he : ok s e)
      (hs : s.step e = some s') : Reach ok s'

/-- No {lit}`sure_agent` overtakes a kick of the same player that nobody waits for. -/
def Undelayed (s : System) : Move → Prop
  | .sureAgent l true =>
      ∀ k ∈ s.queue l.gate, k.playerid = l.playerid → k.caller ≠ none
  | _ => True

/-! ## What one step of the agent manager does -/

/-- The player a confirmation is for, and what it says. -/
@[grind =] def Event.confirms : Event → Option (Nat × Bool)
  | .confirmLogin p _ ok => some (p, ok)
  | .reqlogin _ _ _ => none
  | .reqkick _ _ => none
  | .shutdown _ _ => none
  | .resume _ _ => none

/-- The handler an event resumes. -/
@[grind =] def Event.resumes : Event → Option Nat
  | .resume h _ => some h
  | .reqlogin _ _ _ => none
  | .confirmLogin _ _ _ => none
  | .reqkick _ _ => none
  | .shutdown _ _ => none

/-- What the gateways notice of a step of the agent manager. -/
structure Effect (m m' : Manager) (e : Event) (ks : List Kick) : Prop where
  /-- A session that is no longer logging in has been so before, or is being confirmed. -/
  session : ∀ p x, m'.players p = some x → (m'.entries x).status ≠ .login →
    m.players p = some x ∧ (m'.entries x).loginVersion = (m.entries x).loginVersion ∧
      ((m.entries x).status ≠ .login ∨ e.confirms = some (p, true))
  /-- An unconfirmed login waits for its confirmation. -/
  unconfirmed : ∀ p x, m.Unconfirmed p x → e.confirms ≠ some (p, true) →
    e.confirms ≠ some (p, false) →
    m'.Unconfirmed p x ∧ (m'.entries x).loginVersion = (m.entries x).loginVersion
  /-- A login that gets its agent. -/
  granted : ∀ h p x v, e = .resume h (.agent true) → m.handlers h = some (.creating p x v) →
    m'.Unconfirmed p x ∧ (m'.entries x).loginVersion = v
  /-- A kick is sent to the gateway of a session that is being logged out. -/
  kicks : ∀ k ∈ ks, ∃ x, m.players k.playerid = some x ∧ (m.entries x).status = .logout ∧
    (m.entries x).gate = k.gate ∧ (m.entries x).loginVersion = k.version ∧
      (k.caller = none ∨ ∃ h n g v, k.caller = some h ∧
        m'.handlers h = some (.kickGate k.playerid n g x v))
  gate : ∀ x, x < m.nextEntry → (m'.entries x).gate = (m.entries x).gate
  handlers : ∀ k x, m.handlers k = some x → e.resumes ≠ some k → m'.handlers k = some x

namespace Manager

variable {m m' : Manager}

/-- A step that changes handlers only. -/
theorem effect_of_same {e : Event} (hplayers : m'.players = m.players)
    (hentries : m'.entries = m.entries)
    (hgranted : ∀ h p x v, e = .resume h (.agent true) → m.handlers h ≠ some (.creating p x v))
    (hhandlers : ∀ k x, m.handlers k = some x → e.resumes ≠ some k →
      m'.handlers k = some x) : Effect m m' e [] where
  session := by
    intro p x hp hs
    rw [hplayers] at hp
    rw [hentries] at hs ⊢
    exact ⟨hp, rfl, Or.inl hs⟩
  unconfirmed := by
    intro p x hu _ _
    unfold Unconfirmed at hu ⊢
    rw [hplayers, hentries]
    exact ⟨hu, rfl⟩
  granted := fun h p x v he hh => absurd hh (hgranted h p x v he)
  kicks := by simp
  gate := by
    intro x _
    rw [hentries]
  handlers := hhandlers

theorem effect_of_reqkick (hm : m.Locked) {e : Event} {h p v : Nat}
    (hgranted : ∀ k, e ≠ .resume k (.agent true))
    (hh : m.handlers h = none ∨ e.resumes = some h) :
    Effect m (m.reqkick h p v) e [] := by
  have hentry := hm.entry
  have hend : Effect m (m.setHandler h none) e [] := by
    refine effect_of_same ?_ ?_ ?_ ?_
    · rfl
    · rfl
    · intro k q x w hk
      exact absurd hk (hgranted k)
    · intro k x hx hk
      simp only [setHandler]
      grind [Function.update_apply]
  unfold Manager.reqkick
  cases hp : m.players p with
  | none => exact hend
  | some x =>
      simp only
      split_ifs with hversion hstatus
      · exact hend
      · exact hend
      · refine ⟨?_, ?_, ?_, by simp, ?_, ?_⟩ <;>
          simp only [Unconfirmed, setEntry, setHandler] <;> grind [Function.update_apply]

/-- What a step does to the tables the gateways depend on. -/
theorem step_effect (hm : m.Locked) {e : Event} {ks : List Kick}
    (hs : m.step e = some (m', ks)) : Effect m m' e ks := by
  have hentry := hm.entry
  have hfresh := hm.fresh
  have hnone : m.handlers m.nextHandler = none := by
    by_contra hne
    obtain ⟨x, hx⟩ := Option.ne_none_iff_exists'.mp hne
    exact absurd (hm.fresh _ x hx) (Nat.lt_irrefl _)
  cases e with
  | reqlogin p node gate =>
      simp only [step, Option.some.injEq, Prod.mk.injEq] at hs
      obtain ⟨rfl, rfl⟩ := hs
      unfold Manager.reqlogin
      cases hp : m.players p with
      | none =>
          simp only
          refine ⟨?_, ?_, ?_, by simp, ?_, ?_⟩ <;>
            simp only [Unconfirmed, nextLoginVersion, create] <;> grind [Function.update_apply]
      | some x =>
          simp only
          cases hs : (m.entries x).status with
          | login => exact effect_of_same rfl rfl (by simp) (fun k x hx _ => hx)
          | logout => exact effect_of_same rfl rfl (by simp) (fun k x hx _ => hx)
          | game =>
              refine ⟨?_, ?_, ?_, by simp, ?_, ?_⟩ <;>
                simp only [Unconfirmed, nextLoginVersion, setEntry, setHandler] <;>
                grind [Function.update_apply]
  | confirmLogin p v ok =>
      simp only [step, Option.some.injEq, Prod.mk.injEq] at hs
      obtain ⟨rfl, rfl⟩ := hs
      unfold Manager.confirmLogin
      cases hp : m.players p with
      | none =>
          simp only [hp]
          exact effect_of_same rfl rfl (by simp) (fun k x hx _ => hx)
      | some x =>
          simp only [hp]
          split_ifs with hfail
          · refine ⟨?_, ?_, ?_, by simp, ?_, ?_⟩ <;>
              simp only [Unconfirmed, setPlayer, setHandler] <;> grind [Function.update_apply]
          · refine ⟨?_, ?_, ?_, by simp, ?_, ?_⟩ <;> simp only [Unconfirmed, setEntry] <;>
              grind [Function.update_apply]
  | reqkick p v =>
      simp only [step, Option.some.injEq, Prod.mk.injEq] at hs
      obtain ⟨rfl, rfl⟩ := hs
      have heff := effect_of_reqkick hm.bump (e := .reqkick p v) (h := m.nextHandler) (p := p)
        (v := v) (by simp) (Or.inl hnone)
      exact ⟨heff.session, heff.unconfirmed, heff.granted, heff.kicks, heff.gate, heff.handlers⟩
  | shutdown num next =>
      simp only [step, Option.map_eq_some_iff, Prod.mk.injEq] at hs
      obtain ⟨m₁, hs, rfl, rfl⟩ := hs
      obtain ⟨hplayers, hentries, hhandlers⟩ := same_of_shutdownLoop hs
      refine effect_of_same ?_ ?_ (by simp) ?_
      · exact hplayers
      · exact hentries
      · intro k x hx _
        rw [hhandlers k (by grind)]
        exact hx
  | resume h a =>
      simp only [step] at hs
      cases hh : m.handlers h with
      | none => simp [hh] at hs
      | some x =>
          rw [hh] at hs
          have hown := hm.owns h x hh
          cases x with
          | kickOld q node gate old w =>
              cases a <;> simp only [Manager.resume, Option.some.injEq, Prod.mk.injEq,
                reduceCtorEq] at hs
              obtain ⟨rfl, rfl⟩ := hs
              cases (m.entries old).agent <;> refine ⟨?_, ?_, ?_, ?_, ?_, ?_⟩ <;>
                simp only [Unconfirmed, save, setHandler] <;> grind [Function.update_apply]
          | kickGate q node gate old w =>
              cases a <;> simp only [Manager.resume, Option.some.injEq, Prod.mk.injEq,
                reduceCtorEq] at hs
              obtain ⟨rfl, rfl⟩ := hs
              refine ⟨?_, ?_, ?_, by simp, ?_, ?_⟩ <;> simp only [Unconfirmed, create] <;>
                grind [Function.update_apply]
          | creating q e w =>
              cases a with
              | agent ok =>
                  cases ok with
                  | true =>
                      simp only [Manager.resume, Option.some.injEq, Prod.mk.injEq] at hs
                      obtain ⟨rfl, rfl⟩ := hs
                      refine ⟨?_, ?_, ?_, by simp, ?_, ?_⟩ <;> simp only [Unconfirmed] <;>
                        grind [Function.update_apply]
                  | false =>
                      simp only [Manager.resume, Option.some.injEq, Prod.mk.injEq] at hs
                      obtain ⟨rfl, rfl⟩ := hs
                      refine ⟨?_, ?_, ?_, by simp, ?_, ?_⟩ <;>
                        simp only [Unconfirmed, setPlayer, setHandler] <;>
                        grind [Function.update_apply]
              | _ => cases hs
          | dropping q e w =>
              cases a <;> simp only [Manager.resume, Option.some.injEq, Prod.mk.injEq,
                reduceCtorEq] at hs
              obtain ⟨rfl, rfl⟩ := hs
              cases (m.entries e).agent <;> refine effect_of_same ?_ ?_ (by simp) ?_ <;>
                simp only [save, setHandler] <;> grind [Function.update_apply]
          | kicking q e w =>
              cases a <;> simp only [Manager.resume, Option.some.injEq, Prod.mk.injEq,
                reduceCtorEq] at hs
              obtain ⟨rfl, rfl⟩ := hs
              cases (m.entries e).agent <;> refine ⟨?_, ?_, ?_, ?_, ?_, ?_⟩ <;>
                simp only [Unconfirmed, save, setPlayer, setHandler] <;>
                grind [Function.update_apply]
          | asking num n q e =>
              cases a with
              | can ok next =>
                  simp only [Manager.resume, Option.map_eq_some_iff, Prod.mk.injEq] at hs
                  obtain ⟨m₁, hs, rfl, rfl⟩ := hs
                  unfold Manager.shutdownNext at hs
                  have hlt := hm.fresh h _ hh
                  cases ok with
                  | false =>
                      simp only [Bool.false_eq_true, if_false] at hs
                      obtain ⟨hplayers, hentries, hhandlers⟩ := same_of_shutdownLoop hs
                      apply effect_of_same hplayers hentries (by simp)
                      intro k x hx hk
                      rw [hhandlers k (by grind)]
                      exact hx
                  | true =>
                      simp only [if_true] at hs
                      split_ifs at hs
                      · obtain rfl := Option.some.inj hs
                        refine effect_of_same ?_ ?_ (by simp) ?_
                        · rfl
                        · rfl
                        · simp only [setHandler]
                          grind [Function.update_apply]
                      · obtain ⟨hplayers, hentries, hhandlers⟩ := same_of_shutdownLoop hs
                        refine effect_of_same ?_ ?_ (by simp) ?_
                        · exact hplayers
                        · exact hentries
                        · intro k x hx hk
                          rw [hhandlers k (by grind)]
                          grind [Function.update_apply]
              | _ => cases hs
          | sleeping =>
              cases a <;> simp only [Manager.resume, Option.some.injEq, Prod.mk.injEq,
                reduceCtorEq] at hs
              obtain ⟨rfl, rfl⟩ := hs
              refine effect_of_same ?_ ?_ (by simp) ?_
              · rfl
              · rfl
              · simp only [setHandler]
                grind [Function.update_apply]
          | forked q w =>
              cases a <;> simp only [Manager.resume, Option.some.injEq, Prod.mk.injEq,
                reduceCtorEq] at hs
              obtain ⟨rfl, rfl⟩ := hs
              exact effect_of_reqkick hm (by simp) (Or.inr rfl)

end Manager

/-! ## The invariant of the system -/

namespace System

/-- A gateway has no session of the player, or the one with this version. -/
def NoOther (s : System) (g p v : Nat) : Prop :=
  s.gateplayers g p = none ∨ s.gateplayers g p = some v

/-- What holds of the system in every state. -/
structure Safe (s : System) : Prop where
  locked : s.mgr.Locked
  awaited : s.mgr.Awaited
  ascending : s.mgr.Ascending
  /-- A login on its way has an unconfirmed entry. -/
  login : ∀ l ∈ s.logins, ∃ x, s.mgr.Unconfirmed l.playerid x ∧
    (s.mgr.entries x).loginVersion = l.version ∧ (s.mgr.entries x).gate = l.gate
  one : (s.logins.map (·.playerid)).Nodup
  confirmed : ∀ l ∈ s.logins, l.confirm = some true → s.NoOther l.gate l.playerid l.version
  session : ∀ p x, s.mgr.players p = some x → (s.mgr.entries x).status ≠ .login →
    s.NoOther (s.mgr.entries x).gate p (s.mgr.entries x).loginVersion
  kick : ∀ g, ∀ k ∈ s.queue g, s.NoOther g k.playerid k.version
  /-- The handler of a kick that is called waits for it. -/
  caller : ∀ g, ∀ k ∈ s.queue g, ∀ h, k.caller = some h → ∃ n g' x v,
    s.mgr.handlers h = some (.kickGate k.playerid n g' x v) ∧ (s.mgr.entries x).gate = g

theorem start_safe : start.Safe where
  locked := Manager.start_locked
  awaited := (AgentMgr.Reach.start : AgentMgr.Reach Proper _).awaited.2.1
  ascending := (AgentMgr.Reach.start : AgentMgr.Reach Proper _).awaited.2.2
  login := by simp [start]
  one := by simp [start]
  confirmed := by simp [start]
  session := by simp [start, Manager.start]
  kick := by simp [start]
  caller := by simp [start]

/-- Taking a session away from a gateway. -/
theorem NoOther.remove {s : System} {g p v : Nat} (h : s.NoOther g p v) (g' p' : Nat) :
    (s.setPlayer g' p' none).NoOther g p v := by
  unfold NoOther setPlayer at *
  simp only
  by_cases hg : g = g'
  · subst hg
    by_cases hp : p = p'
    · subst hp
      simp
    · simpa [Function.update_of_ne hp] using h
  · simpa [Function.update_of_ne hg] using h

/-- A session of another player or at another gateway. -/
theorem noOther_setPlayer {s : System} {g p g' p' w : Nat} (v : Option Nat)
    (hne : ¬(g = g' ∧ p = p')) : (s.setPlayer g' p' v).NoOther g p w ↔ s.NoOther g p w := by
  unfold NoOther setPlayer
  simp only
  by_cases hg : g = g'
  · subst hg
    have hp : p ≠ p' := fun h => hne ⟨rfl, h⟩
    simp [Function.update_of_ne hp]
  · simp [Function.update_of_ne hg]

theorem noOther_setPlayer_self (s : System) (g p v : Nat) :
    (s.setPlayer g p (some v)).NoOther g p v := by
  right
  simp [setPlayer]

/-- The queue of a gateway after a step of the agent manager. -/
theorem mem_advance {s : System} {m : Manager} {ks : List Kick} {g : Nat} {k : Kick} :
    k ∈ (s.advance m ks).queue g ↔ k ∈ s.queue g ∨ k ∈ ks ∧ k.gate = g := by
  simp [advance]

theorem Safe.unconfirmed_ne {s : System} (hs : s.Safe) {p x : Nat}
    (hx : s.mgr.Unconfirmed p x) : ∀ k y, s.mgr.handlers k = some y → y.holds ≠ some p :=
  hs.locked.free hx.1 (Or.inr ⟨hx.2.1, hx.2.2⟩)

/-- The agent manager makes a step that resumes no handler whose kick is on its way. -/
theorem Safe.advance {s : System} (hs : s.Safe) {e : Event} {m : Manager} {ks : List Kick}
    (hproper : Proper s.mgr e) (hstep : s.mgr.step e = some (m, ks))
    (hblocked : ∀ h, e.resumes = some h → s.blocked h = false) {logins : List Login}
    {answers : List (Nat × Nat × Bool)}
    (hlogin : ∀ l ∈ logins, ∃ x, m.Unconfirmed l.playerid x ∧
      (m.entries x).loginVersion = l.version ∧ (m.entries x).gate = l.gate)
    (hone : (logins.map (·.playerid)).Nodup)
    (hconfirmed : ∀ l ∈ logins, l.confirm = some true → s.NoOther l.gate l.playerid l.version)
    (hsucc : ∀ p x, e.confirms = some (p, true) → s.mgr.players p = some x →
      s.NoOther (s.mgr.entries x).gate p (s.mgr.entries x).loginVersion) :
    ({ s.advance m ks with logins := logins, answers := answers } : System).Safe := by
  have heff := Manager.step_effect hs.locked hstep
  have hguarded := Manager.guarded_step hs.locked hs.awaited hs.ascending hproper hstep
  have hgate : ∀ p x, s.mgr.players p = some x → (m.entries x).gate = (s.mgr.entries x).gate :=
    fun p x hp => heff.gate x (hs.locked.entry p x hp).1
  refine ⟨Manager.step_locked hs.locked (hs.awaited.confirmable hproper) hstep,
    hguarded.awaited, hguarded.ascending, hlogin, hone, hconfirmed, ?_, ?_, ?_⟩
  · intro p x hp hx
    obtain ⟨hp', hversion, hold⟩ := heff.session p x hp hx
    show s.NoOther (m.entries x).gate p (m.entries x).loginVersion
    rw [hgate p x hp', hversion]
    rcases hold with hold | hold
    · exact hs.session p x hp' hold
    · exact hsucc p x hold hp'
  · intro g k hk
    rcases (mem_advance (m := m)).mp hk with hk' | ⟨hk', hg⟩
    · exact hs.kick g k hk'
    · subst hg
      obtain ⟨x, hp, hstatus, hkgate, hversion, -⟩ := heff.kicks k hk'
      have hsession := hs.session k.playerid x hp (by simp [hstatus])
      rw [hkgate, hversion] at hsession
      exact hsession
  · intro g k hk h hcaller
    rcases (mem_advance (m := m)).mp hk with hk' | ⟨hk', hg⟩
    · obtain ⟨n, g', x, v, hh, hg⟩ := hs.caller g k hk' h hcaller
      have hown := hs.locked.owns h _ hh
      refine ⟨n, g', x, v, ?_, ?_⟩
      · apply heff.handlers h _ hh
        intro hresume
        -- the handler is blocked by this very kick
        have hfree := hblocked h hresume
        simp only [blocked, hh, hg, List.any_eq_false] at hfree
        have := hfree k hk'
        simp [hcaller] at this
      · show (m.entries x).gate = g
        rw [hgate _ x hown.1, hg]
    · subst hg
      obtain ⟨x, hp, -, hkgate, -, hcall⟩ := heff.kicks k hk'
      rcases hcall with hnone | ⟨h', n, g', v, hsome, hh⟩
      · rw [hnone] at hcaller
        cases hcaller
      · obtain rfl := Option.some.inj (hcaller.symm.trans hsome)
        refine ⟨n, g', x, v, hh, ?_⟩
        show (m.entries x).gate = k.gate
        rw [hgate _ x hp, hkgate]

theorem step_safe {s s' : System} (hs : s.Safe) {e : Move} (he : Undelayed s e)
    (hstep : s.step e = some s') : s'.Safe := by
  cases e with
  | manager e =>
      -- the logins of other players wait on, and one may be added
      have hother : ∀ m ks, s.mgr.step e = some (m, ks) → (∀ p ok, e.confirms ≠ some (p, ok)) →
          ∀ l ∈ s.logins, ∃ x, m.Unconfirmed l.playerid x ∧
            (m.entries x).loginVersion = l.version ∧ (m.entries x).gate = l.gate := by
        intro m ks hm hc l hl
        have heff := Manager.step_effect hs.locked hm
        obtain ⟨x, hx, hversion, hgate⟩ := hs.login l hl
        obtain ⟨hx', hversion'⟩ := heff.unconfirmed l.playerid x hx (hc _ _) (hc _ _)
        refine ⟨x, hx', hversion'.trans hversion, ?_⟩
        rw [heff.gate x (hs.locked.entry _ x hx.1).1, hgate]
      have hgranted : ∀ m ks l, s.mgr.step e = some (m, ks) → s.granted e = some l →
          (∃ x, m.Unconfirmed l.playerid x ∧ (m.entries x).loginVersion = l.version ∧
            (m.entries x).gate = l.gate) ∧ l.confirm = none ∧
            ∀ l' ∈ s.logins, l'.playerid ≠ l.playerid := by
        intro m ks l hm hl
        have heff := Manager.step_effect hs.locked hm
        unfold granted at hl
        split at hl
        · rename_i h
          cases hh : s.mgr.handlers h with
          | none => simp [hh] at hl
          | some y =>
              cases y with
              | creating p x v =>
                  simp only [hh, Option.some.injEq] at hl
                  subst hl
                  obtain ⟨hx, hversion⟩ := heff.granted h p x v rfl hh
                  have hown := hs.locked.owns h _ hh
                  refine ⟨⟨x, hx, hversion, ?_⟩, rfl, ?_⟩
                  · exact heff.gate x (hs.locked.entry p x hown.1).1
                  · intro l' hl' hp
                    obtain ⟨x', hx', -⟩ := hs.login l' hl'
                    exact hs.unconfirmed_ne hx' h _ hh (congrArg some hp.symm)
              | _ => simp [hh] at hl
        · cases hl
      have hmain : ∀ m ks, s.mgr.step e = some (m, ks) → (∀ p ok, e.confirms ≠ some (p, ok)) →
          Proper s.mgr e → (∀ h, e.resumes = some h → s.blocked h = false) →
          ({ s.advance m ks with logins := (s.granted e).toList ++ s.logins } : System).Safe := by
        intro m ks hm hc hproper hblocked
        apply hs.advance hproper hm hblocked
        · intro l hl
          rcases List.mem_append.mp hl with hl | hl
          · exact (hgranted m ks l hm (Option.mem_toList.mp hl)).1
          · exact hother m ks hm hc l hl
        · cases hl : s.granted e with
          | none => simpa using hs.one
          | some l =>
              simp only [Option.toList_some, List.singleton_append, List.map_cons,
                List.nodup_cons, List.mem_map, not_exists, not_and]
              exact ⟨(hgranted m ks l hm hl).2.2, hs.one⟩
        · intro l hl hl'
          rcases List.mem_append.mp hl with hl | hl
          · rw [(hgranted m ks l hm (Option.mem_toList.mp hl)).2.1] at hl'
            cases hl'
          · exact hs.confirmed l hl hl'
        · intro p x h
          exact absurd h (hc p true)
      cases e with
      | confirmLogin p v ok => cases hstep
      | resume h a =>
          simp only [step, Option.bind_eq_bind] at hstep
          split_ifs at hstep with hb
          simp only [Option.bind_eq_some_iff] at hstep
          obtain ⟨⟨m, ks⟩, hm, hstep⟩ := hstep
          obtain rfl := Option.some.inj hstep
          apply hmain m ks hm (by simp [Event.confirms]) trivial
          intro h' hh'
          obtain rfl := Option.some.inj hh'
          simpa using hb
      | reqlogin p n g =>
          simp only [step, Option.bind_eq_bind, Bool.false_eq_true, if_false,
            Option.bind_eq_some_iff] at hstep
          obtain ⟨⟨m, ks⟩, hm, hstep⟩ := hstep
          obtain rfl := Option.some.inj hstep
          exact hmain m ks hm (by simp [Event.confirms]) trivial (by simp [Event.resumes])
      | reqkick p v =>
          simp only [step, Option.bind_eq_bind, Bool.false_eq_true, if_false,
            Option.bind_eq_some_iff] at hstep
          obtain ⟨⟨m, ks⟩, hm, hstep⟩ := hstep
          obtain rfl := Option.some.inj hstep
          exact hmain m ks hm (by simp [Event.confirms]) trivial (by simp [Event.resumes])
      | shutdown num next =>
          simp only [step, Option.bind_eq_bind, Bool.false_eq_true, if_false,
            Option.bind_eq_some_iff] at hstep
          obtain ⟨⟨m, ks⟩, hm, hstep⟩ := hstep
          obtain rfl := Option.some.inj hstep
          exact hmain m ks hm (by simp [Event.confirms]) trivial (by simp [Event.resumes])
  | sureAgent l connected =>
      simp only [step] at hstep
      by_cases hl : l ∈ s.logins ∧ l.confirm = none
      swap
      · rw [if_neg hl] at hstep
        cases hstep
      rw [if_pos hl] at hstep
      obtain ⟨hmem, hnone⟩ := hl
      obtain ⟨x, hx, hversion, hgate⟩ := hs.login l hmem
      -- the login keeps its place among the players
      have hperm : (({ l with confirm := some connected } :: s.logins.erase l).map
          (·.playerid)).Perm (s.logins.map (·.playerid)) :=
        ((List.perm_cons_erase hmem).map (·.playerid)).symm
      have hlogin : ∀ l' ∈ ({ l with confirm := some connected } :: s.logins.erase l),
          ∃ x, s.mgr.Unconfirmed l'.playerid x ∧
            (s.mgr.entries x).loginVersion = l'.version ∧ (s.mgr.entries x).gate = l'.gate := by
        intro l' hl'
        rcases List.mem_cons.mp hl' with rfl | hl'
        · exact ⟨x, hx, hversion, hgate⟩
        · exact hs.login l' (List.mem_of_mem_erase hl')
      have hone := hperm.nodup_iff.mpr hs.one
      have hothers : ∀ l' ∈ s.logins.erase l, l'.playerid ≠ l.playerid := by
        rw [List.map_cons, List.nodup_cons] at hone
        intro l' hl' hp
        exact hone.1 (List.mem_map.mpr ⟨l', hl', hp⟩)
      cases connected with
      | false =>
          obtain rfl := Option.some.inj hstep
          refine ⟨hs.locked, hs.awaited, hs.ascending, hlogin, hone, ?_, hs.session, hs.kick,
            hs.caller⟩
          intro l' hl' hc
          rcases List.mem_cons.mp hl' with rfl | hl'
          · cases hc
          · exact hs.confirmed l' (List.mem_of_mem_erase hl') hc
      | true =>
          obtain rfl := Option.some.inj hstep
          refine ⟨hs.locked, hs.awaited, hs.ascending, hlogin, hone, ?_, ?_, ?_, hs.caller⟩
          · intro l' hl' hc
            rcases List.mem_cons.mp hl' with rfl | hl'
            · exact noOther_setPlayer_self _ _ _ _
            · exact (noOther_setPlayer _ (fun h => hothers l' hl' h.2)).mpr
                (hs.confirmed l' (List.mem_of_mem_erase hl') hc)
          · intro p y hp hy
            -- the player of the login is still unconfirmed
            have hne : p ≠ l.playerid := by
              rintro rfl
              obtain rfl := Option.some.inj (hp.symm.trans hx.1)
              exact hy hx.2.1
            exact (noOther_setPlayer _ (fun h => hne h.2)).mpr (hs.session p y hp hy)
          · intro g k hk
            by_cases hsame : g = l.gate ∧ k.playerid = l.playerid
            · exfalso
              obtain ⟨rfl, hp⟩ := hsame
              have hcall := he k hk hp
              obtain ⟨h, hh⟩ := Option.ne_none_iff_exists'.mp hcall
              obtain ⟨n, g', y, v, hwait, -⟩ := hs.caller _ k hk h hh
              rw [← hp] at hx
              exact hs.unconfirmed_ne hx h _ hwait rfl
            · exact (noOther_setPlayer _ hsame).mpr (hs.kick g k hk)
  | confirm l =>
      simp only [step] at hstep
      cases hc : l.confirm with
      | none => simp [hc] at hstep
      | some isSucc =>
          simp only [hc, Option.bind_eq_bind] at hstep
          split_ifs at hstep with hmem
          simp only [Option.bind_eq_some_iff] at hstep
          obtain ⟨⟨m, ks⟩, hm, hstep⟩ := hstep
          obtain rfl := Option.some.inj hstep
          obtain ⟨x, hx, hversion, hgate⟩ := hs.login l hmem
          have hproper : Proper s.mgr (.confirmLogin l.playerid l.version isSucc) := by
            have := hs.awaited.login l.playerid x hx
            rwa [hversion] at this
          have hothers : ∀ l' ∈ s.logins.erase l, l'.playerid ≠ l.playerid := by
            have hone := (((List.perm_cons_erase hmem).map (·.playerid)).nodup_iff).mp hs.one
            rw [List.map_cons, List.nodup_cons] at hone
            intro l' hl' hp
            exact hone.1 (List.mem_map.mpr ⟨l', hl', hp⟩)
          apply hs.advance hproper hm (by simp [Event.resumes])
          · intro l' hl'
            have heff := Manager.step_effect hs.locked hm
            obtain ⟨y, hy, hversion', hgate'⟩ := hs.login l' (List.mem_of_mem_erase hl')
            have hne : ∀ ok, (Event.confirmLogin l.playerid l.version isSucc).confirms ≠
                some (l'.playerid, ok) := by
              intro ok h
              simp only [Event.confirms, Option.some.injEq, Prod.mk.injEq] at h
              exact hothers l' hl' h.1.symm
            obtain ⟨hy', hsame⟩ := heff.unconfirmed l'.playerid y hy (hne _) (hne _)
            refine ⟨y, hy', hsame.trans hversion', ?_⟩
            rw [heff.gate y (hs.locked.entry _ y hy.1).1, hgate']
          · exact hs.one.sublist ((List.erase_sublist).map _)
          · intro l' hl' hc'
            exact hs.confirmed l' (List.mem_of_mem_erase hl') hc'
          · intro p y hp hy
            simp only [Event.confirms, Option.some.injEq, Prod.mk.injEq] at hp
            obtain ⟨rfl, rfl⟩ := hp
            obtain rfl := Option.some.inj (hy.symm.trans hx.1)
            rw [hversion, hgate]
            exact hs.confirmed l hmem hc
  | answer g p ok =>
      simp only [step] at hstep
      split_ifs at hstep with hmem hok
      · obtain rfl := Option.some.inj hstep
        exact ⟨hs.locked, hs.awaited, hs.ascending, hs.login, hs.one, hs.confirmed, hs.session,
          hs.kick, hs.caller⟩
      · obtain rfl := Option.some.inj hstep
        exact ⟨hs.locked, hs.awaited, hs.ascending, hs.login, hs.one,
          fun l hl hc => (hs.confirmed l hl hc).remove g p,
          fun q x hq hx => (hs.session q x hq hx).remove g p,
          fun g' k hk => (hs.kick g' k hk).remove g p, hs.caller⟩
  | kick g =>
      simp only [step] at hstep
      cases hq : s.queue g with
      | nil => simp [hq] at hstep
      | cons k ks =>
          simp only [hq, Option.some.injEq] at hstep
          subst hstep
          have hqueue : ∀ g', ∀ k' ∈ Function.update s.queue g ks g', k' ∈ s.queue g' := by
            intro g' k' hk'
            by_cases hg : g' = g
            · subst hg
              rw [Function.update_self] at hk'
              rw [hq]
              exact List.mem_cons_of_mem _ hk'
            · rwa [Function.update_of_ne hg] at hk'
          exact ⟨hs.locked, hs.awaited, hs.ascending, hs.login, hs.one,
            fun l hl hc => NoOther.remove (s := { s with queue := Function.update s.queue g ks })
              (hs.confirmed l hl hc) g k.playerid,
            fun q x hq hx => NoOther.remove (s := { s with queue := Function.update s.queue g ks })
              (hs.session q x hq hx) g k.playerid,
            fun g' k' hk' => NoOther.remove
              (s := { s with queue := Function.update s.queue g ks })
              (hs.kick g' k' (hqueue g' k' hk')) g k.playerid,
            fun g' k' hk' => hs.caller g' k' (hqueue g' k' hk')⟩
  | lose g =>
      simp only [step] at hstep
      cases hq : s.queue g with
      | nil => simp [hq] at hstep
      | cons k ks =>
          simp only [hq, Option.some.injEq] at hstep
          subst hstep
          have hqueue : ∀ g', ∀ k' ∈ Function.update s.queue g ks g', k' ∈ s.queue g' := by
            intro g' k' hk'
            by_cases hg : g' = g
            · subst hg
              rw [Function.update_self] at hk'
              rw [hq]
              exact List.mem_cons_of_mem _ hk'
            · rwa [Function.update_of_ne hg] at hk'
          exact ⟨hs.locked, hs.awaited, hs.ascending, hs.login, hs.one, hs.confirmed, hs.session,
            fun g' k' hk' => hs.kick g' k' (hqueue g' k' hk'),
            fun g' k' hk' => hs.caller g' k' (hqueue g' k' hk')⟩

theorem Reach.safe {s : System} (hr : Reach Undelayed s) : s.Safe := by
  induction hr with
  | start => exact start_safe
  | step hr he hs ih => exact step_safe ih he hs

end System

/-- In runs in which no {lit}`sure_agent` reaches a gateway while a kick of the same player
that {lit}`reqkick` has sent is still on its way there: the session a gateway removes when
it handles a kick has the version the kick was sent for. -/
theorem kick_hits_own {s : System} (hr : System.Reach Undelayed s) {g : Nat} {k : Kick}
    {ks : List Kick} (hq : s.queue g = k :: ks) {v : Nat}
    (hv : s.gateplayers g k.playerid = some v) : v = k.version := by
  have hkick := hr.safe.kick g k (by rw [hq]; exact List.mem_cons_self)
  rcases hkick with h | h
  · rw [h] at hv
    cases hv
  · exact Option.some.inj (hv.symm.trans h)

/-- The system after some steps. -/
def System.after (es : List Move) : System := (System.start.run es).getD .start

/-- A player logs in, and {lit}`reqkick` ends the session. -/
def kickedOut : List Move :=
  [.manager (.reqlogin 7 0 0), .manager (.resume 0 (.agent true)),
    .sureAgent ⟨0, 7, 1, none⟩ true, .confirm ⟨0, 7, 1, some true⟩, .manager (.reqkick 7 1),
    .manager (.resume 2 .done)]

/-- The player logs in again before the kick reaches the gateway. -/
def loggedInAgain : List Move :=
  kickedOut ++ [.manager (.reqlogin 7 0 0), .manager (.resume 3 (.agent true)),
    .sureAgent ⟨0, 7, 2, none⟩ true]

theorem kick_hits_own_one :
    ∃ (s : System) (k : Kick) (ks : List Kick) (v : Nat), s.queue 0 = k :: ks ∧
      s.gateplayers 0 k.playerid = some v ∧ v = k.version := by
  have h0 := System.Reach.step (e := .manager (.reqlogin 7 0 0)) .start
    (show Undelayed _ _ from trivial) rfl
  have h1 := System.Reach.step (e := .manager (.resume 0 (.agent true))) h0 trivial rfl
  have h2 := System.Reach.step (e := .sureAgent ⟨0, 7, 1, none⟩ true) h1
    (fun k hk => by cases hk) rfl
  have h3 := System.Reach.step (e := .confirm ⟨0, 7, 1, some true⟩) h2 trivial rfl
  have h4 := System.Reach.step (e := .manager (.reqkick 7 1)) h3 trivial rfl
  have h5 : System.Reach Undelayed (System.after kickedOut) :=
    System.Reach.step (e := .manager (.resume 2 .done)) h4 trivial rfl
  exact ⟨System.after kickedOut, ⟨0, 7, 1, none⟩, [], 1, rfl, rfl,
    kick_hits_own h5 (g := 0) (k := ⟨0, 7, 1, none⟩) rfl (v := 1) rfl⟩

theorem System.Reach.of_run {ok : System → Move → Prop} {s s' : System}
    (hr : System.Reach ok s) (hok : ∀ s e, ok s e) (es : List Move) (hrun : s.run es = some s') :
    System.Reach ok s' := by
  induction es generalizing s with
  | nil =>
      obtain rfl := Option.some.inj hrun
      exact hr
  | cons e es ih =>
      simp only [System.run, Option.bind_eq_bind, Option.bind_eq_some_iff] at hrun
      obtain ⟨s₁, hs, hrun⟩ := hrun
      exact ih (.step hr (hok s e) hs) hrun

/-- The kick of version 1 is still on its way when the session of version 2 is set up. -/
theorem kick_hits_later :
    ¬ ∀ s : System, System.Reach (fun _ _ => True) s → ∀ g k ks, s.queue g = k :: ks →
      ∀ v, s.gateplayers g k.playerid = some v → v = k.version := by
  intro h
  have hr : System.Reach (fun _ _ => True) (System.after loggedInAgain) :=
    System.Reach.of_run .start (fun _ _ => trivial) loggedInAgain rfl
  have hversion := h _ hr 0 ⟨0, 7, 1, none⟩ [] rfl 2 rfl
  revert hversion
  decide

end BallServer.AgentMgr
