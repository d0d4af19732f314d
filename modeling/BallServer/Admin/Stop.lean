import BallServer.AgentMgr.Agents
import BallServer.Gateway.Service
import Mathlib.Data.List.Dedup

/-!
# Stopping the servers

The command {lit}`stop` of the admin service tells the gateways to refuse new sockets,
empties the match queues and then asks the agent manager, again and again, to kick players
until none is online; then it aborts the nodes.  A gateway that is closing goes on with the
sockets it has, and a login that has been handed to the login service goes on too.

What the match service does with its queues makes no agent and kicks none; it is one step.
A kick that raises half-way is over for the agent manager, but the agent stays as it is and its
data is not saved; the event that answers a kick says whether the kick has completed.  The fields
{lit}`known`, {lit}`kicked` and {lit}`agentsAtAbort` do not exist in the programs.  They record
the players for whom a login has reached the agent manager, the agents whose kick has
completed, and how many agents had been made when the nodes were to be aborted.

Main results:

- Definition {lit}`Servers.step`: the admin service, the gateways, the logins and the agent
  manager.
- Theorem {lit}`stop_loses_nobody`: if every kick completes, no login comes after the last
  count and nobody is being kicked without an entry then, every agent has been kicked at the
  abort.
- Theorem {lit}`stop_loses_somebody`: a login on a socket that was open before the gateways
  closed makes an agent that the abort takes away.
- Theorem {lit}`stop_loses_kicking`: a kick that raises leaves an agent that is not counted.
-/

namespace BallServer.Admin

open BallServer.AgentMgr (Manager Handler Answer)

/-- Where {lit}`stop` is. -/
inductive Stage where
  | notStopping
  /-- {lit}`shutdown_gate`, with the gateways still to be called. -/
  | closing (rest : List Nat)
  /-- {lit}`shutdown_match`. -/
  | matches
  /-- {lit}`shutdown_agent`, about to call {lit}`shutdown`, or asleep before it. -/
  | calling (failCount : Nat)
  /-- {lit}`shutdown_agent`, waiting for a handler of the agent manager. -/
  | waiting (handler failCount : Nat)
  /-- {lit}`shutdown_node`, after nobody was reported online. -/
  | aborting
  /-- {lit}`shutdown_node`, after too many failures. -/
  | gaveUp
deriving DecidableEq, Repr

/-- The servers.  A login that waits in a login service has the gateway it came from. -/
structure Servers where
  stage : Stage
  gates : Nat → Gate.Gateway
  logins : List Nat
  manager : Manager
  known : List Nat
  kicked : Nat → Bool
  agentsAtAbort : Nat

/-- What can happen. -/
inductive Event where
  /-- The command arrives; the gateways in the configuration. -/
  | stop (gates : List Nat)
  /-- The next gateway is called; the call may fail. -/
  | shutdownGate (ok : Bool)
  | shutdownMatch
  /-- {lit}`shutdown` of the agent manager is called. -/
  | callShutdown (next : Option Nat)
  /-- The call raises. -/
  | callFailed
  /-- Anything at a gateway. -/
  | gate (g : Nat) (e : Gate.Event)
  /-- A login service asks the agent manager for an agent, or drops the login. -/
  | reqlogin (k playerid node : Nat)
  | loginFailed (k : Nat)
  /-- Anything at the agent manager but {lit}`reqlogin`; a kick that it answers has completed,
  or has raised. -/
  | manager (e : AgentMgr.Event) (completed : Bool)
deriving DecidableEq, Repr

/-- {lit}`get_online_count`, over the players for whom a login has come. -/
def onlineCount (known : List Nat) (m : Manager) : Nat :=
  (known.dedup.filter fun p => (m.players p).isSome).length

/-- The agent whose kick an event answers. -/
def answered (m : Manager) : AgentMgr.Event → Option Nat
  | .resume h .done =>
      match m.handlers h with
      | some (.kickOld _ _ _ old _) => (m.entries old).agent
      | some (.dropping _ e _) => (m.entries e).agent
      | some (.kicking _ e _) => (m.entries e).agent
      | _ => none
  | _ => none

namespace Servers

/-- A message of a socket without a player goes to a login service. -/
def toLogin (s : Servers) (g : Nat) : Gate.Event → List Nat
  | .message fd _ =>
      match (s.gates g).conns fd with
      | none => []
      | some r => if ((s.gates g).table r).playerid = none then [g] else []
  | _ => []

/-- {lit}`shutdown_agent` with the answer of the agent manager. -/
def counted (s : Servers) (failCount : Nat) : Servers :=
  if onlineCount s.known s.manager = 0 then
    { s with stage := .aborting, agentsAtAbort := s.manager.nextAgent }
  else { s with stage := .calling failCount }

/-- The agents whose kick has completed after an event of the agent manager. -/
def kickedAfter (s : Servers) (e : AgentMgr.Event) (completed : Bool) : Nat → Bool :=
  match answered s.manager e with
  | some a => if completed then Function.update s.kicked a true else s.kicked
  | none => s.kicked

/-- The handler of {lit}`shutdown` that the admin service waits for ends. -/
def returns (s : Servers) : AgentMgr.Event → Option Nat
  | .resume h .done =>
      match s.stage with
      | .waiting h' failCount =>
          if h = h' ∧ s.manager.handlers h = some .sleeping then some failCount else none
      | _ => none
  | _ => none

/-- One event. -/
def step (s : Servers) : Event → Option Servers
  | .stop gates => if s.stage = .notStopping then some { s with stage := .closing gates } else none
  | .shutdownGate ok =>
      match s.stage with
      | .closing [] => some { s with stage := .matches }
      | .closing (g :: rest) =>
          if ok then
            ((s.gates g).step .shutdown).map fun x =>
              { s with stage := .closing rest, gates := Function.update s.gates g x }
          else some { s with stage := .closing rest }
      | _ => none
  | .shutdownMatch => if s.stage = .matches then some { s with stage := .calling 0 } else none
  | .callShutdown next =>
      match s.stage with
      | .calling failCount =>
          (s.manager.step (.shutdown 3 next)).map fun r =>
            { s with manager := r.1, stage := .waiting s.manager.nextHandler failCount }
      | _ => none
  | .callFailed =>
      match s.stage with
      | .calling failCount | .waiting _ failCount =>
          some { s with stage := if failCount + 1 ≥ 5 then .gaveUp else .calling (failCount + 1) }
      | _ => none
  | .gate g e =>
      if e = .shutdown then none
      else
        ((s.gates g).step e).map fun x =>
          { s with gates := Function.update s.gates g x, logins := s.logins ++ s.toLogin g e }
  | .reqlogin k p node =>
      match s.logins[k]? with
      | none => none
      | some g =>
          (s.manager.step (.reqlogin p node g)).map fun r =>
            { s with logins := s.logins.eraseIdx k, manager := r.1, known := p :: s.known }
  | .loginFailed k => some { s with logins := s.logins.eraseIdx k }
  | .manager e completed =>
      match e with
      | .reqlogin _ _ _ => none
      | e =>
          match s.manager.step e with
          | none => none
          | some r =>
              let s' := { s with manager := r.1, kicked := s.kickedAfter e completed }
              match s.returns e with
              | none => some s'
              | some _ => some (s'.counted 0)

/-- A sequence of events. -/
def run (s : Servers) : List Event → Option Servers
  | [] => some s
  | e :: es => do
      let s ← s.step e
      s.run es

/-- The servers when they start. -/
def start : Servers where
  stage := .notStopping
  gates := fun _ => .start
  logins := []
  manager := .start
  known := []
  kicked := fun _ => false
  agentsAtAbort := 0

/-- The states reached by events that meet a condition. -/
inductive Reach (ok : Servers → Event → Prop) : Servers → Prop where
  | start : Reach ok start
  | step {s s' : Servers} {e : Event} (hr : Reach ok s) (he : ok s e)
      (hs : s.step e = some s') : Reach ok s'

/-- A failed confirmation is kicking an agent, whose player has no entry. -/
def Dropping (m : Manager) : Prop :=
  ∃ h p e v, m.handlers h = some (.dropping p e v)

/-- No login comes after the last count; confirmations arrive for logins that have an agent;
every kick that is answered has completed; and no failed confirmation is kicking at the last
count. -/
def Quiet (s : Servers) : Event → Prop
  | .reqlogin _ _ _ => s.stage ≠ .aborting
  | .manager e completed =>
      AgentMgr.Confirmable s.manager e ∧ (answered s.manager e ≠ none → completed = true) ∧
        ((s.returns e).isSome → onlineCount s.known s.manager = 0 → ¬ Dropping s.manager)
  | _ => True

/-- No handler makes or kicks an agent. -/
def Idle (m : Manager) : Prop :=
  ∀ h x, m.handlers h = some x → x.holds = none ∧ ∀ p e v, x ≠ .dropping p e v

/-- Nobody is online, and no agent is left. -/
structure Empty (m : Manager) : Prop where
  players : ∀ p, m.players p = none
  saved : ∀ a p, m.created a = some p → m.saved a = true
  idle : Idle m

/-- What holds in a quiet run. -/
structure Kept (s : Servers) : Prop where
  locked : s.manager.Locked
  filed : s.manager.Filed
  known : ∀ p, s.manager.players p ≠ none → p ∈ s.known
  kicked : ∀ a, s.manager.saved a = true → s.kicked a = true
  aborted : s.stage = .aborting → Empty s.manager ∧ s.manager.nextAgent = s.agentsAtAbort

section Manager

variable {m m' : Manager} {ks : List AgentMgr.Kick}

theorem reqkick_saved (m : Manager) (k p v : Nat) : (m.reqkick k p v).saved = m.saved := by
  unfold AgentMgr.Manager.reqkick
  split
  · rfl
  · split
    · rfl
    · split <;> rfl

theorem shutdownLoop_saved {k num n : Nat} {next : Option Nat}
    (hs : m.shutdownLoop k num n next = some m') : m'.saved = m.saved := by
  cases next with
  | none =>
      obtain rfl := Option.some.inj hs
      rfl
  | some p =>
      simp only [AgentMgr.Manager.shutdownLoop] at hs
      split at hs
      · cases hs
      · split at hs
        · obtain rfl := Option.some.inj hs
          rfl
        · cases hs

/-- A handler is suspended that makes and kicks no agent, or one ends. -/
theorem Empty.setHandler (h : Empty m) (k : Nat) {x : Option Handler}
    (hx : ∀ y, x = some y → y.holds = none ∧ ∀ p e v, y ≠ .dropping p e v) :
    Empty (m.setHandler k x) where
  players := h.players
  saved := h.saved
  idle := by
    intro k' y hy
    simp only [AgentMgr.Manager.setHandler] at hy
    by_cases hk : k' = k
    · subst hk
      rw [Function.update_self] at hy
      exact hx y hy
    · rw [Function.update_of_ne hk] at hy
      exact h.idle k' y hy

theorem Empty.ends (h : Empty m) (k : Nat) : Empty (m.setHandler k none) :=
  h.setHandler k nofun

/-- {lit}`shutdown` falls asleep. -/
theorem Empty.sleeps (h : Empty m) (k : Nat) : Empty (m.setHandler k (some .sleeping)) :=
  h.setHandler k fun y hy => by
    obtain rfl := Option.some.inj hy
    exact ⟨rfl, nofun⟩

/-- A kick is forked; it will find no entry. -/
theorem Empty.forks (h : Empty m) (k p v : Nat) : Empty (m.setHandler k (some (.forked p v))) :=
  h.setHandler k fun y hy => by
    obtain rfl := Option.some.inj hy
    exact ⟨rfl, nofun⟩

/-- A handler that ends was kicking nobody, or nobody is being kicked. -/
theorem Dropping.of_setHandler (k : Nat) (h : Dropping (m.setHandler k none)) : Dropping m := by
  obtain ⟨h', p, e, v, hh⟩ := h
  simp only [AgentMgr.Manager.setHandler] at hh
  by_cases hk : h' = k
  · simp [hk] at hh
  · exact ⟨h', p, e, v, by rwa [Function.update_of_ne hk] at hh⟩

/-- Only the answer to a kick marks its agent. -/
theorem saved_step {e : AgentMgr.Event} (hs : m.step e = some (m', ks)) {a : Nat}
    (ha : m'.saved a = true) : m.saved a = true ∨ answered m e = some a := by
  have hsave : ∀ (x : Manager) (agent : Option Nat), (x.save agent).saved a = true →
      x.saved a = true ∨ agent = some a := by
    intro x agent hx
    cases agent with
    | none => exact .inl hx
    | some b =>
        simp only [AgentMgr.Manager.save, Function.update_apply] at hx
        split at hx
        · next h => exact .inr (h ▸ rfl)
        · exact .inl hx
  cases e with
  | reqlogin p n g =>
      obtain ⟨rfl, -⟩ := Prod.mk.inj (Option.some.inj hs)
      left
      revert ha
      unfold AgentMgr.Manager.reqlogin
      split
      · exact id
      · split <;> exact id
  | confirmLogin p v ok =>
      obtain ⟨rfl, -⟩ := Prod.mk.inj (Option.some.inj hs)
      left
      revert ha
      unfold AgentMgr.Manager.confirmLogin
      dsimp only
      split
      · exact id
      · split <;> exact id
  | reqkick p v =>
      obtain ⟨rfl, -⟩ := Prod.mk.inj (Option.some.inj hs)
      rw [reqkick_saved] at ha
      exact .inl ha
  | shutdown num next =>
      obtain ⟨m₁, hs₁, heq⟩ := Option.map_eq_some_iff.mp hs
      obtain ⟨rfl, -⟩ := Prod.mk.inj heq
      rw [shutdownLoop_saved hs₁] at ha
      exact .inl ha
  | resume h answer =>
      simp only [AgentMgr.Manager.step] at hs
      cases hh : m.handlers h with
      | none => simp [hh] at hs
      | some x =>
          rw [hh] at hs
          cases x with
          | kickOld p node gate old version | dropping p e v | kicking p e v =>
              cases answer <;> simp only [AgentMgr.Manager.resume, reduceCtorEq] at hs
              obtain ⟨rfl, -⟩ := Prod.mk.inj (Option.some.inj hs)
              simpa only [answered, hh] using hsave _ _ ha
          | kickGate | sleeping =>
              cases answer <;> simp only [AgentMgr.Manager.resume, reduceCtorEq] at hs
              obtain ⟨rfl, -⟩ := Prod.mk.inj (Option.some.inj hs)
              exact .inl ha
          | creating p e v =>
              rcases answer with _ | ok | _
              · cases hs
              · cases ok
                all_goals
                  obtain ⟨rfl, -⟩ := Prod.mk.inj (Option.some.inj hs)
                  exact .inl ha
              · cases hs
          | forked p v =>
              cases answer <;> simp only [AgentMgr.Manager.resume, reduceCtorEq] at hs
              obtain ⟨rfl, -⟩ := Prod.mk.inj (Option.some.inj hs)
              rw [reqkick_saved] at ha
              exact .inl ha
          | asking num n p e =>
              cases answer <;> simp only [AgentMgr.Manager.resume, reduceCtorEq] at hs
              obtain ⟨m₁, hs₁, heq⟩ := Option.map_eq_some_iff.mp hs
              obtain ⟨rfl, -⟩ := Prod.mk.inj heq
              left
              unfold AgentMgr.Manager.shutdownNext at hs₁
              split at hs₁
              · dsimp only at hs₁
                split at hs₁
                · obtain rfl := Option.some.inj hs₁
                  exact ha
                · rw [shutdownLoop_saved hs₁] at ha
                  exact ha
              · rw [shutdownLoop_saved hs₁] at ha
                exact ha

theorem Empty.bump (h : Empty m) (n : Nat) : Empty { m with nextHandler := n } :=
  ⟨h.players, h.saved, h.idle⟩

theorem Empty.reqkick (h : Empty m) (k p v : Nat) :
    Empty (m.reqkick k p v) ∧ (m.reqkick k p v).nextAgent = m.nextAgent := by
  simp only [AgentMgr.Manager.reqkick, h.players p]
  exact ⟨h.ends k, rfl⟩

theorem Empty.shutdownLoop (h : Empty m) {k num n : Nat} {next : Option Nat}
    (hs : m.shutdownLoop k num n next = some m') :
    Empty m' ∧ m'.nextAgent = m.nextAgent := by
  cases next with
  | none =>
      obtain rfl := Option.some.inj hs
      exact ⟨h.sleeps k, rfl⟩
  | some q => simp [AgentMgr.Manager.shutdownLoop, h.players q] at hs

/-- Without entries and without a login, no agent is made and nobody enters. -/
theorem Empty.step (h : Empty m) {e : AgentMgr.Event} (he : ∀ p n g, e ≠ .reqlogin p n g)
    (hs : m.step e = some (m', ks)) : Empty m' ∧ m'.nextAgent = m.nextAgent := by
  cases e with
  | reqlogin p n g => exact absurd rfl (he p n g)
  | confirmLogin p v ok =>
      simp only [AgentMgr.Manager.step, Option.some.injEq, Prod.mk.injEq] at hs
      obtain ⟨rfl, -⟩ := hs
      unfold AgentMgr.Manager.confirmLogin
      dsimp only
      rw [h.players p]
      exact ⟨⟨h.players, h.saved, h.idle⟩, rfl⟩
  | reqkick p v =>
      simp only [AgentMgr.Manager.step, Option.some.injEq, Prod.mk.injEq] at hs
      obtain ⟨rfl, -⟩ := hs
      exact (h.bump _).reqkick _ p v
  | shutdown num next =>
      simp only [AgentMgr.Manager.step, Option.map_eq_some_iff, Prod.mk.injEq] at hs
      obtain ⟨m₁, hs, rfl, -⟩ := hs
      exact (h.bump (m.nextHandler + 1)).shutdownLoop hs
  | resume k a =>
      simp only [AgentMgr.Manager.step] at hs
      cases hk : m.handlers k with
      | none => simp [hk] at hs
      | some x =>
          rw [hk] at hs
          obtain ⟨hholds, hdrop⟩ := h.idle k x hk
          cases x with
          | kickOld => cases hholds
          | kickGate => cases hholds
          | creating => cases hholds
          | kicking => cases hholds
          | dropping p e v => exact absurd rfl (hdrop p e v)
          | sleeping =>
              cases a <;> simp only [AgentMgr.Manager.resume, reduceCtorEq] at hs
              obtain ⟨rfl, -⟩ := Prod.mk.inj (Option.some.inj hs)
              exact ⟨h.ends k, rfl⟩
          | forked p v =>
              cases a <;> simp only [AgentMgr.Manager.resume, reduceCtorEq] at hs
              obtain ⟨rfl, -⟩ := Prod.mk.inj (Option.some.inj hs)
              exact h.reqkick k p v
          | asking num n p e =>
              cases a <;> simp only [AgentMgr.Manager.resume, reduceCtorEq] at hs
              obtain ⟨m₁, hs₁, heq⟩ := Option.map_eq_some_iff.mp hs
              obtain ⟨rfl, -⟩ := Prod.mk.inj heq
              have hforked : Empty ({ m.setHandler m.nextHandler
                  (some (.forked p (m.entries e).loginVersion)) with
                    nextHandler := m.nextHandler + 1 } : Manager) :=
                (h.forks _ p _).bump _
              unfold AgentMgr.Manager.shutdownNext at hs₁
              split at hs₁
              · dsimp only at hs₁
                split at hs₁
                · obtain rfl := Option.some.inj hs₁
                  exact ⟨hforked.sleeps k, rfl⟩
                · exact hforked.shutdownLoop hs₁
              · exact h.shutdownLoop hs₁

/-- Nobody is counted when nobody has an entry. -/
theorem players_of_count {known : List Nat} (hknown : ∀ p, m.players p ≠ none → p ∈ known)
    (h0 : onlineCount known m = 0) (p : Nat) : m.players p = none := by
  by_contra hp
  have hmem : p ∈ known.dedup.filter fun q => (m.players q).isSome :=
    List.mem_filter.mpr ⟨List.mem_dedup.mpr (hknown p hp), Option.isSome_iff_ne_none.mpr hp⟩
  rw [List.eq_nil_of_length_eq_zero h0] at hmem
  exact List.not_mem_nil hmem

theorem not_dropping_of_sleeping (hl : m.Locked)
    (hm : ∀ k < m.nextHandler, m.handlers k = none ∨ m.handlers k = some .sleeping) :
    ¬ Dropping m := by
  rintro ⟨k, p, e, v, hk⟩
  rcases hm k (hl.fresh k _ hk) with h | h <;> rw [hk] at h <;> cases h

/-- The count stands for all agents when nobody is being dropped. -/
theorem empty_of_players (hl : m.Locked) (hf : m.Filed) (hp : ∀ p, m.players p = none)
    (hd : ¬ Dropping m) : Empty m where
  players := hp
  saved := by
    intro a p hc
    cases hf.agent a p hc with
    | saved hs => exact hs
    | entry e he hag => simp [hp p] at he
    | dropping h e v hh hag => exact absurd ⟨h, p, e, v, hh⟩ hd
  idle := by
    intro h x hx
    constructor
    · cases hholds : x.holds with
      | none => rfl
      | some p => exact absurd hholds (hl.free_of_none (hp p) h x hx)
    · rintro p e v rfl
      exact hd ⟨h, p, e, v, hx⟩

end Manager

variable {s s' : Servers}

/-- What happens at the agent manager when it is not a login. -/
theorem step_manager {e : AgentMgr.Event} (hne : ∀ p n g, e ≠ .reqlogin p n g)
    {completed : Bool} (hs : s.step (.manager e completed) = some s') :
    ∃ r, s.manager.step e = some r ∧
      s' = match s.returns e with
        | none => { s with manager := r.1, kicked := s.kickedAfter e completed }
        | some _ => ({ s with
            manager := r.1, kicked := s.kickedAfter e completed } : Servers).counted 0 := by
  cases e with
  | reqlogin p n g => exact absurd rfl (hne p n g)
  | confirmLogin | reqkick | shutdown | resume =>
      simp only [step] at hs
      split at hs
      · cases hs
      · next r hm =>
          refine ⟨r, hm, ?_⟩
          split at hs <;> exact (Option.some.inj hs).symm

/-- The handler that ends held nothing. -/
theorem manager_of_returns {e : AgentMgr.Event} {f : Nat} {m' : Manager}
    {ks : List AgentMgr.Kick} (hr : s.returns e = some f)
    (hs : s.manager.step e = some (m', ks)) : ∃ h, m' = s.manager.setHandler h none := by
  unfold returns at hr
  split at hr
  case h_1 h =>
    split at hr
    case h_1 h' failCount hstage =>
      split at hr
      case isTrue hh =>
        simp only [AgentMgr.Manager.step, hh.2, AgentMgr.Manager.resume] at hs
        obtain ⟨rfl, -⟩ := Prod.mk.inj (Option.some.inj hs)
        exact ⟨h, rfl⟩
      case isFalse => cases hr
    case h_2 => cases hr
  case h_2 => cases hr

/-- Everybody who has an entry stays known. -/
theorem Kept.known_of (hk : s.Kept) {e : AgentMgr.Event} {m' : Manager}
    {ks : List AgentMgr.Kick} (hs : s.manager.step e = some (m', ks)) {p : Nat}
    (hp : m'.players p ≠ none) : p ∈ s.known ∨ ∃ node gate, e = .reqlogin p node gate :=
  (AgentMgr.Manager.enters hk.locked hs hp).imp_left (hk.known p)

/-- An agent is marked when its kick has completed. -/
theorem Kept.kicked_of (hk : s.Kept) {e : AgentMgr.Event} {completed : Bool} {m' : Manager}
    {ks : List AgentMgr.Kick} (hok : answered s.manager e ≠ none → completed = true)
    (hs : s.manager.step e = some (m', ks)) {a : Nat} (ha : m'.saved a = true) :
    s.kickedAfter e completed a = true := by
  unfold kickedAfter
  rcases saved_step hs ha with ha | ha
  · cases hans : answered s.manager e with
    | none => exact hk.kicked a ha
    | some b =>
        rw [hok (by simp [hans])]
        by_cases hb : a = b
        · simp [hb]
        · simpa [hb] using hk.kicked a ha
  · rw [ha, hok (by simp [ha])]
    simp

/-- What does not concern the agent manager. -/
theorem Kept.of_same (hk : s.Kept) (hm : s'.manager = s.manager) (hkn : s'.known = s.known)
    (hki : s'.kicked = s.kicked)
    (hst : s'.stage = .aborting → s.stage = .aborting)
    (hag : s'.agentsAtAbort = s.agentsAtAbort) : s'.Kept where
  locked := hm ▸ hk.locked
  filed := hm ▸ hk.filed
  known := by
    rw [hm, hkn]
    exact hk.known
  kicked := by
    rw [hm, hki]
    exact hk.kicked
  aborted := by
    intro h
    rw [hm, hag]
    exact hk.aborted (hst h)

theorem start_kept : start.Kept where
  locked := AgentMgr.Manager.start_locked
  filed := AgentMgr.Manager.start_filed
  known := fun _ hp => absurd rfl hp
  kicked := nofun
  aborted := nofun

/-- The agent manager does something that is not a login. -/
theorem Kept.manager (hk : s.Kept) {e : AgentMgr.Event} {m' : Manager}
    {ks : List AgentMgr.Kick} (hne : ∀ p n g, e ≠ .reqlogin p n g)
    (hok : AgentMgr.Confirmable s.manager e) {completed : Bool}
    (hkick : answered s.manager e ≠ none → completed = true)
    (hs : s.manager.step e = some (m', ks)) :
    ({ s with manager := m', kicked := s.kickedAfter e completed } : Servers).Kept where
  locked := AgentMgr.Manager.step_locked hk.locked hok hs
  filed := AgentMgr.Manager.step_filed hk.locked hk.filed hok hs
  known := by
    intro p hp
    rcases hk.known_of hs hp with hmem | ⟨node, gate, rfl⟩
    · exact hmem
    · exact absurd rfl (hne p node gate)
  kicked := fun _ ha => hk.kicked_of hkick hs ha
  aborted := by
    intro hst
    obtain ⟨hempty, hagents⟩ := hk.aborted hst
    obtain ⟨hempty', hnext⟩ := hempty.step hne hs
    exact ⟨hempty', hnext.trans hagents⟩

/-- The answer of {lit}`shutdown`: when it is 0, nothing is left. -/
theorem Kept.counted (hk : s.Kept) (failCount : Nat)
    (hd : onlineCount s.known s.manager = 0 → ¬ Dropping s.manager) :
    (s.counted failCount).Kept := by
  unfold Servers.counted
  split
  next h0 =>
    refine ⟨hk.locked, hk.filed, hk.known, hk.kicked, fun _ => ⟨?_, rfl⟩⟩
    exact empty_of_players hk.locked hk.filed (players_of_count hk.known h0) (hd h0)
  next => exact ⟨hk.locked, hk.filed, hk.known, hk.kicked, nofun⟩

theorem step_kept (hk : s.Kept) {e : Event} (he : Quiet s e) (hs : s.step e = some s') :
    s'.Kept := by
  cases e with
  | stop gates =>
      simp only [step] at hs
      split at hs
      · obtain rfl := Option.some.inj hs
        exact hk.of_same rfl rfl rfl nofun rfl
      · cases hs
  | shutdownGate ok =>
      simp only [step] at hs
      split at hs
      · obtain rfl := Option.some.inj hs
        exact hk.of_same rfl rfl rfl nofun rfl
      · split at hs
        · obtain ⟨x, -, rfl⟩ := Option.map_eq_some_iff.mp hs
          exact hk.of_same rfl rfl rfl nofun rfl
        · obtain rfl := Option.some.inj hs
          exact hk.of_same rfl rfl rfl nofun rfl
      · cases hs
  | shutdownMatch =>
      simp only [step] at hs
      split at hs
      · obtain rfl := Option.some.inj hs
        exact hk.of_same rfl rfl rfl nofun rfl
      · cases hs
  | callShutdown next =>
      simp only [step] at hs
      split at hs
      · obtain ⟨⟨m', ks⟩, hm, rfl⟩ := Option.map_eq_some_iff.mp hs
        have hmanager := hk.manager (e := .shutdown 3 next) (fun _ _ _ h => by cases h) trivial
          (fun _ => rfl) hm
        exact ⟨hmanager.locked, hmanager.filed, hmanager.known, hmanager.kicked, nofun⟩
      · cases hs
  | callFailed =>
      have hnot : ∀ f : Nat, (if f + 1 ≥ 5 then Stage.gaveUp else .calling (f + 1)) ≠ .aborting := by
        intro f
        split <;> exact nofun
      simp only [step] at hs
      split at hs
      case h_1 f _ | h_2 f _ =>
        obtain rfl := Option.some.inj hs
        exact hk.of_same rfl rfl rfl (fun h => absurd h (hnot f)) rfl
      case h_3 => cases hs
  | gate g e =>
      simp only [step] at hs
      split at hs
      · cases hs
      · obtain ⟨x, -, rfl⟩ := Option.map_eq_some_iff.mp hs
        exact hk.of_same rfl rfl rfl id rfl
  | reqlogin k p node =>
      simp only [step] at hs
      split at hs
      case h_1 => cases hs
      case h_2 g hg =>
        obtain ⟨⟨m', ks⟩, hm, rfl⟩ := Option.map_eq_some_iff.mp hs
        have hok : AgentMgr.Confirmable s.manager (.reqlogin p node g) := trivial
        exact {
          locked := AgentMgr.Manager.step_locked hk.locked hok hm
          filed := AgentMgr.Manager.step_filed hk.locked hk.filed hok hm
          known := by
            intro q hq
            rcases hk.known_of hm hq with hmem | ⟨node', gate, heq⟩
            · exact List.mem_cons_of_mem p hmem
            · injection heq with hpq
              exact hpq ▸ List.mem_cons_self
          kicked := fun a ha => hk.kicked a ((saved_step hm ha).resolve_right nofun)
          aborted := fun h => absurd h he }
  | loginFailed k =>
      obtain rfl := Option.some.inj hs
      exact hk.of_same rfl rfl rfl id rfl
  | manager e completed =>
      obtain ⟨hok, hkick, hdrop⟩ := he
      by_cases hne : ∃ p n g, e = .reqlogin p n g
      · obtain ⟨p, n, g, rfl⟩ := hne
        cases hs
      · have hne : ∀ p n g, e ≠ .reqlogin p n g := fun p n g h => hne ⟨p, n, g, h⟩
        obtain ⟨⟨m', ks⟩, hm, hs⟩ := step_manager hne hs
        have hmanager := hk.manager hne hok hkick hm
        cases hr : s.returns e with
        | none =>
            rw [hr] at hs
            obtain rfl := hs
            exact hmanager
        | some f =>
            rw [hr] at hs hdrop
            obtain rfl := hs
            obtain ⟨h, rfl⟩ := manager_of_returns hr hm
            exact hmanager.counted 0 fun h0 hd => hdrop rfl h0 (hd.of_setHandler h)

/-- Everything is kept in a quiet run. -/
theorem Reach.kept (hr : Reach Quiet s) : s.Kept := by
  induction hr with
  | start => exact start_kept
  | step _ he hs ih => exact step_kept ih he hs

/-- When the nodes are aborted after a quiet run, agentmgr has no entry, the kick of every agent
has completed, and none has been made since. -/
theorem stop_loses_nobody (s : Servers) (hr : Reach Quiet s) (ha : s.stage = .aborting) :
    (∀ p, s.manager.players p = none) ∧
      (∀ a p, s.manager.created a = some p → s.kicked a = true) ∧
      s.manager.nextAgent = s.agentsAtAbort := by
  obtain ⟨hempty, hagents⟩ := hr.kept.aborted ha
  exact ⟨hempty.players, fun a p hc => hr.kept.kicked a (hempty.saved a p hc), hagents⟩

/-- A player who is online when the servers stop is kicked first. -/
theorem stop_loses_nobody_online : ∃ s, Reach Quiet s ∧ s.stage = .aborting ∧
    s.manager.created 0 = some 7 ∧ s.kicked 0 = true := by
  have h₁ : Reach Quiet _ := .step (e := .gate 0 (.connect 1)) .start trivial rfl
  have h₂ := h₁.step (e := .gate 0 (.message 1 0)) trivial rfl
  have h₃ := h₂.step (e := .reqlogin 0 7 0) nofun rfl
  have h₄ := h₃.step (e := .manager (.resume 0 (.agent true)) true) ⟨trivial, fun _ => rfl, nofun⟩ rfl
  have h₅ := h₄.step (e := .manager (.confirmLogin 7 1 true) true) ⟨fun e he => by
    obtain rfl := Option.some.inj he
    exact ⟨rfl, nofun⟩, fun _ => rfl, nofun⟩ rfl
  have h₆ := h₅.step (e := .stop [0]) trivial rfl
  have h₇ := h₆.step (e := .shutdownGate true) trivial rfl
  have h₈ := h₇.step (e := .shutdownGate true) trivial rfl
  have h₉ := h₈.step (e := .shutdownMatch) trivial rfl
  have h₁₀ := h₉.step (e := .callShutdown (some 7)) trivial rfl
  have h₁₁ := h₁₀.step (e := .manager (.resume 2 (.can true none)) true) ⟨trivial, fun _ => rfl, nofun⟩ rfl
  have h₁₂ := h₁₁.step (e := .manager (.resume 3 .done) true) ⟨trivial, fun _ => rfl, nofun⟩ rfl
  have h₁₃ := h₁₂.step (e := .manager (.resume 3 .done) true) ⟨trivial, fun _ => rfl, nofun⟩ rfl
  have h₁₄ := h₁₃.step (e := .manager (.resume 2 .done) true) ⟨trivial, fun _ => rfl, fun _ _ =>
    not_dropping_of_sleeping h₁₃.kept.locked (by decide +kernel)⟩ rfl
  exact ⟨_, h₁₄, rfl, rfl, (stop_loses_nobody _ h₁₄ rfl).2.1 0 7 rfl⟩

/-- A socket is open when the gateways close.  Its login reaches the agent manager after
nobody was counted, and the agent is there when the nodes are aborted. -/
theorem stop_loses_somebody :
    ∃ s, start.run [.gate 0 (.connect 1), .stop [0], .shutdownGate true,
        .gate 0 (.message 1 0), .shutdownGate true, .shutdownMatch, .callShutdown none,
        .manager (.resume 0 .done) true, .reqlogin 0 7 0, .manager (.resume 1 (.agent true)) true] = some s ∧
      s.stage = .aborting ∧
      ¬ ((∀ p, s.manager.players p = none) ∧
        (∀ a p, s.manager.created a = some p → s.kicked a = true) ∧
        s.manager.nextAgent = s.agentsAtAbort) := by
  refine ⟨_, rfl, rfl, ?_⟩
  rintro ⟨hplayers, -⟩
  exact absurd (hplayers 7) nofun

/-- The kick of a player raises half-way; the entry is removed all the same, nobody is counted,
and the agent is taken away by the abort with its data unsaved. -/
theorem stop_loses_kicking :
    ∃ s, start.run [.gate 0 (.connect 1), .gate 0 (.message 1 0), .reqlogin 0 7 0,
        .manager (.resume 0 (.agent true)) true, .manager (.confirmLogin 7 1 true) true, .stop [0],
        .shutdownGate true, .shutdownGate true, .shutdownMatch, .callShutdown (some 7),
        .manager (.resume 2 (.can true none)) true, .manager (.resume 3 .done) true,
        .manager (.resume 3 .done) false, .manager (.resume 2 .done) true] = some s ∧
      s.stage = .aborting ∧
      ¬ ((∀ p, s.manager.players p = none) ∧
        (∀ a p, s.manager.created a = some p → s.kicked a = true) ∧
        s.manager.nextAgent = s.agentsAtAbort) := by
  refine ⟨_, rfl, rfl, ?_⟩
  rintro ⟨-, hkicked, -⟩
  cases hkicked 0 7 rfl

end Servers

end BallServer.Admin
