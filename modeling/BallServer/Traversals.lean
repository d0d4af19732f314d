import BallServer.Agent.Mail
import BallServer.AgentMgr.Agents
import BallServer.Room.Lifecycle
import BallServer.Walk

/-!
# Loops that wait in their body

Three services walk a table with {lit}`pairs` and call another service in the body: the agent
manager asks each agent whether it may be kicked, an agent loads and saves its mails, and a room
writes the state of its players.  Meanwhile other handlers run.

Main results:

- Theorems {lit}`Manager.noNew`, {lit}`Post.noNew`, {lit}`noNew_of_step`: which steps assign no new
  key.
- Theorems {lit}`Manager.asking_next`, {lit}`Post.init_next`, {lit}`Post.saves_follow_walk`: the
  loops go on with the keys that a walk gives them.
- Theorem {lit}`walks_orderly`: walks during which no such message arrives.
- Theorem {lit}`walks_disturbed`: a login during a shutdown, and a mail during a save.
-/

namespace BallServer

/-! ## The agent manager -/

namespace AgentMgr

/-- {lit}`shutdown` is asking an agent. -/
def Manager.Walking (m : Manager) : Prop :=
  ∃ h num n p e, m.handlers h = some (.asking num n p e)

/-- The keys of {lit}`players`. -/
def Manager.keys (m : Manager) (p : Nat) : Bool := (m.players p).isSome

/-- A login arrives only for a player with an entry, and goes on after its kicks only if the
entry is still there. -/
def Manager.Undisturbed (m : Manager) : Event → Prop
  | .reqlogin p _ _ => m.players p ≠ none
  | .resume h .done => ∀ p node gate old version,
      m.handlers h = some (.kickGate p node gate old version) → m.players p ≠ none
  | _ => True

theorem Manager.noNew {m m' : Manager} {e : Event} {ks : List Kick} (he : m.Undisturbed e)
    (h : m.step e = some (m', ks)) : Walk.NoNew Manager.keys m m' := by
  intro q hq
  unfold Manager.keys at hq ⊢
  rw [Option.isSome_iff_ne_none] at hq ⊢
  rcases enters_cases h hq with hold | ⟨node, gate, rfl⟩ | ⟨k, node, gate, old, v, rfl, hk⟩
  · exact hold
  · exact he
  · exact he q node gate old v hk

/-- The players that {lit}`shutdown` does not pass over. -/
def Manager.inGame (m : Manager) (p : Nat) : Bool :=
  (m.players p).any fun e => decide ((m.entries e).status = .game)

/-- The loop goes on with any key that {lit}`next` gives it. -/
theorem Manager.asking_next {m : Manager} {n : Walk.Nodes Nat} (hn : n.live = m.inGame)
    {h num i p e : Nat} (hh : m.handlers h = some (.asking num i p e)) {next : Option Nat}
    (hnext : Walk.next n (some p) = .ok next) (ok : Bool) :
    ∃ m', m.step (.resume h (.can ok next)) = some (m', []) := by
  have hloop : ∀ (m₁ : Manager) (j : Nat), m₁.players = m.players → m₁.entries = m.entries →
      ∃ m', m₁.shutdownLoop h num j next = some m' := by
    intro m₁ j hplayers hentries
    cases next with
    | none => exact ⟨_, rfl⟩
    | some q =>
        have hlive := Walk.live_of_next hnext
        rw [hn] at hlive
        obtain ⟨e', hq, hgame⟩ := (Option.any_eq_true _ _).mp hlive
        refine ⟨m₁.setHandler h (some (.asking num j q e')), ?_⟩
        simp only [shutdownLoop, hplayers, hq, hentries, of_decide_eq_true hgame, if_true]
  have hnextLoop : ∃ m', m.shutdownNext h num i p e ok next = some m' := by
    unfold shutdownNext
    split
    · split
      · exact ⟨_, rfl⟩
      · exact hloop _ _ rfl rfl
    · exact hloop _ _ rfl rfl
  obtain ⟨m', hm'⟩ := hnextLoop
  exact ⟨m', by simp [step, hh, resume, hm']⟩

end AgentMgr

/-! ## The mails of an agent -/

namespace Agent

/-- The coroutine is in the loop of {lit}`mail_init` or in the first loop of {lit}`leave_mail`. -/
def Cont.InWalk : Cont → Prop
  | .initAttachments _ | .saveMails .. => True
  | _ => False

namespace Post

/-- {lit}`mail_init` or {lit}`leave_mail` waits in its loop. -/
def Walking (p : Post) : Prop :=
  ∃ t k, p.tasks.get t = some k ∧ k.agent = p.agent ∧ k.cont.InWalk

/-- The keys of {lit}`s.data.mails`. -/
def keys (p : Post) (mid : Nat) : Bool := (p.mails.get mid).isSome

/-- The mails that an answer puts into the table. -/
def Incoming : Cont → Reply → List Nat
  | .initRows, .mails mids => mids
  | .batchAttachments mid, .attachments _ => [mid]
  | _, _ => []

/-- Mails arrive, and come from mysql, only if they are in the table already. -/
def Undisturbed (p : Post) : PostEvent → Prop
  | .newMail mid => p.keys mid = true
  | .answer t _ => ∀ k r, p.tasks.get t = some k → k.reply = some r →
      ∀ mid ∈ Incoming k.cont r, p.keys mid = true
  | _ => True

variable {p p' : Post}

theorem deleteNext_mails (p : Post) (t : Nat) (kick : Bool) (list i : Nat) :
    (p.deleteNext t kick list i).mails = p.mails := by
  unfold deleteNext
  split <;> rfl

theorem saveNext_mails {t : Nat} {kick : Bool} {visited : List Nat} {next : Option Nat}
    (h : p.saveNext t kick visited next = some p') : p'.mails = p.mails := by
  cases next with
  | none =>
      simp only [saveNext] at h
      split at h
      · cases h
      · obtain rfl := Option.some.inj h
        exact deleteNext_mails ..
  | some mid =>
      simp only [saveNext] at h
      split at h
      · cases h
      · split at h
        · cases h
        · obtain rfl := Option.some.inj h
          rfl

theorem initNext_mails {t : Nat} {next : Option Nat} (h : p.initNext t next = some p') :
    p'.mails = p.mails := by
  cases next with
  | none =>
      obtain rfl := Option.some.inj h
      rfl
  | some mid =>
      simp only [initNext] at h
      split at h
      · cases h
      · obtain rfl := Option.some.inj h
        rfl

theorem noNew_of_mails (h : p'.mails = p.mails) : Walk.NoNew keys p p' := by
  intro mid hmid
  unfold keys at hmid ⊢
  rwa [h] at hmid

/-- A mail that was in the table before. -/
theorem noNew_install {mid : Nat} (as : List AttachItem) (h : p.keys mid = true) :
    Walk.NoNew keys p (p.install mid as) := by
  intro q hq
  simp only [keys, install, Table.get_set] at hq
  split at hq
  next heq => exact heq ▸ h
  next => exact hq

theorem noNew_installs (mids : List Nat) (h : ∀ mid ∈ mids, p.keys mid = true) :
    Walk.NoNew keys p (mids.foldl (fun p mid => p.install mid []) p) := by
  refine List.foldlRecOn (motive := Walk.NoNew keys p) mids _ (fun _ hk => hk) ?_
  intro p₁ h₁ mid hmid q hq
  simp only [keys, install, Table.get_set] at hq
  split at hq
  next heq => exact heq ▸ h mid hmid
  next => exact h₁ q hq

theorem noNew_resume {t : Nat} {next : Option Nat} {c : Cont} {r : Reply}
    (hin : ∀ mid ∈ Incoming c r, p.keys mid = true) (h : p.resume t next c r = some p') :
    Walk.NoNew keys p p' := by
  unfold resume at h
  split at h
  case h_1 mids =>
    have hmails := initNext_mails h
    intro q hq
    refine noNew_installs mids hin q ?_
    unfold keys at hq ⊢
    rwa [hmails] at hq
  case h_2 o as =>
    have hmails := initNext_mails h
    exact noNew_of_mails hmails
  case h_3 | h_4 | h_7 =>
    obtain rfl := Option.some.inj h
    first | rfl | exact noNew_of_mails rfl | exact noNew_of_mails (deleteNext_mails ..)
  case h_5 mid as =>
    obtain rfl := Option.some.inj h
    exact noNew_install as (hin mid (List.mem_singleton.mpr rfl))
  case h_6 kick visited o i =>
    unfold saveAttachments at h
    split at h
    · obtain rfl := Option.some.inj h
      exact noNew_of_mails rfl
    · exact noNew_of_mails (saveNext_mails h)
  case h_8 => cases h

theorem noNew {e : PostEvent} (he : p.Undisturbed e) (h : p.step e = some p') :
    Walk.NoNew keys p p' := by
  cases e with
  | store n =>
      obtain rfl := Option.some.inj h
      exact noNew_of_mails rfl
  | newMail mid =>
      simp only [step] at h
      split at h
      · obtain rfl := Option.some.inj h
        exact noNew_install _ he
      · cases h
  | newBatch mid | mailInit | kick | idle =>
      simp only [step] at h
      split at h
      · obtain rfl := Option.some.inj h
        exact noNew_of_mails rfl
      · cases h
  | mailClaim mid expired addItem =>
      simp only [step] at h
      split at h
      · split at h <;> obtain rfl := Option.some.inj h <;> exact noNew_of_mails rfl
      · cases h
  | mailDelete mid =>
      simp only [step] at h
      split at h
      · split at h <;> obtain rfl := Option.some.inj h
        · intro q hq
          simp only [keys, Table.get_erase] at hq
          split at hq
          · cases hq
          · exact hq
        · exact noNew_of_mails rfl
      · cases h
  | save next =>
      simp only [step] at h
      have hmails := saveNext_mails h
      exact noNew_of_mails hmails
  | execute t mids =>
      simp only [step] at h
      split at h
      · obtain rfl := Option.some.inj h
        exact noNew_of_mails (by unfold execute; split <;> rfl)
      · cases h
  | answer t next =>
      simp only [step] at h
      split at h
      next agent query reply cont hk =>
        split at h
        · exact noNew_resume (he _ reply hk rfl) h
        · obtain rfl := Option.some.inj h
          exact noNew_of_mails rfl
      next => cases h
  | kickSave next =>
      simp only [step] at h
      split at h
      · have hmails := saveNext_mails h
        exact noNew_of_mails hmails
      · cases h
  | login =>
      simp only [step] at h
      split at h
      · obtain rfl := Option.some.inj h
        intro q hq
        simp [keys] at hq
      · cases h

/-- The loop of {lit}`mail_init` goes on with any key that {lit}`next` gives it. -/
theorem init_next {n : Walk.Nodes Nat} (hn : n.live = p.keys) {cur next : Option Nat}
    (hnext : Walk.next n cur = .ok next) {t o : Nat} {query : Query} {as : List AttachItem}
    (ht : p.tasks.get t = some ⟨p.agent, query, some (.attachments as), .initAttachments o⟩) :
    ∃ p', p.step (.answer t next) = some p' := by
  simp only [step, ht, if_true, resume]
  cases next with
  | none => exact ⟨_, rfl⟩
  | some mid =>
      have hlive := Walk.live_of_next hnext
      rw [hn] at hlive
      obtain ⟨o', ho'⟩ := Option.isSome_iff_exists.mp hlive
      refine ⟨((p.setAttachments o ((p.object o).attachments ++ as)).wait t (.attachments mid)
        (.initAttachments o')), ?_⟩
      simp [initNext, setAttachments, ho']

/-- Where the loop is, {lit}`next` gives it a mail that it has not saved yet, or all are saved:
it can go on. -/
theorem saveNext_of_at {n : Walk.Nodes Nat} (hn : n.live = p.keys) {cur : Option Nat}
    {visited : List Nat} (hat : Walk.At n cur visited) {next : Option Nat}
    (hnext : Walk.next n cur = .ok next) (t : Nat) (kick : Bool) :
    ∃ p', p.saveNext t kick visited next = some p' := by
  cases next with
  | none =>
      have hall : p.mails.keys ⊆ visited.toFinset := by
        intro mid hmid
        rw [List.mem_toFinset]
        refine hat.next_none hnext ?_
        rw [hn]
        exact (p.mails.mem_keys mid).mp hmid
      exact ⟨_, if_neg fun h => h.2 hall⟩
  | some mid =>
      have hlive := Walk.live_of_next hnext
      rw [hn] at hlive
      obtain ⟨o, ho⟩ := Option.isSome_iff_exists.mp hlive
      have hfresh := (hat.next_some hnext).1
      exact ⟨p.wait t (.updateRead mid) (.saveMails kick (mid :: visited) o 0), by
        simp [saveNext, ho, hfresh]⟩

/-- So it can after any steps in between that put in no new mail. -/
theorem saves_follow_walk {x₀ : Post × Walk.Nodes Nat} {l : List (Post × Walk.Nodes Nat)}
    (h₀ : x₀.2.live = keys x₀.1)
    (hl : (x₀ :: l).IsChain fun x y =>
      (∃ e, x.1.Undisturbed e ∧ x.1.step e = some y.1) ∧ Walk.Shows keys x y)
    {cur : Option Nat} {visited : List Nat} (hat : Walk.At x₀.2 cur visited)
    {x : Post × Walk.Nodes Nat} (hx : x ∈ x₀ :: l) {next : Option Nat}
    (hnext : Walk.next x.2 cur = .ok next) {t o i : Nat} {query : Query} {kick : Bool}
    (ht : x.1.tasks.get t = some ⟨x.1.agent, query, some .done, .saveMails kick visited o i⟩) :
    ∃ p', x.1.step (.answer t next) = some p' := by
  have hchain := hl.imp fun y z hyz =>
    (⟨noNew hyz.1.choose_spec.1 hyz.1.choose_spec.2, hyz.2⟩ :
      Walk.NoNew keys y.1 z.1 ∧ Walk.Shows keys y z)
  obtain ⟨p', hp'⟩ := saveNext_of_at (Walk.live_of_chain hchain h₀ x hx)
    (hat.of_chain hchain x hx) hnext t kick
  simp only [step, ht, if_true, resume, saveAttachments]
  split
  · exact ⟨_, rfl⟩
  · exact ⟨p', hp'⟩

end Post

end Agent

/-! ## The players of a room -/

namespace RoomService

open Coroutine

/-- The acts of {lit}`start_running` from the answer of {lit}`start_game` to the end of
{lit}`set_players_running`. -/
def Act.runs : Act → Prop
  | .gameStarted | .setPlayersRunning | .setRunning _ | .setLoaded .. => True
  | _ => False

/-- {lit}`set_players_running` waits for redis. -/
def RoomWalking (w : RoomWorld) : Prop := ∃ t p ps, .setLoaded p ps ∈ w.view.pending t

/-- The keys of {lit}`players`. -/
def roomKeys (w : RoomWorld) (p : Nat) : Bool := decide (p ∈ w.shared.room.players)

/-- Only a started game comes to these acts. -/
theorem runs_of_push {t : Nat} {a : Act} {v : Ans} {s : Sys} {c : Code LockName Act}
    (hc : c ∈ (exec t a v s).push) (hact : c.toAct.runs) :
    a.runs ∨ (exec t a v s).state.room.started := by
  have hpush := exec_pushes hc
  have hb := exec_branch t a v s
  cases a with
  | gameStarted | setPlayersRunning | setRunning | setLoaded => exact .inl trivial
  | battleReady source p conv ready =>
      right
      generalize exec t (.battleReady source p conv ready) v s = e at hb hc ⊢
      cases hb with
      | readyStart => simp [startRunning, callScene, Room.started]
      | declined | ready => cases hc
  | removeKicked reason =>
      right
      generalize exec t (.removeKicked reason) v s = e at hb hc ⊢
      cases hb with
      | removeStart => simp [startRunning, callScene, Room.started]
      | removeAbort => rcases pushes_abortRoom hc with h | ⟨_, h⟩ <;> simp [h, Act.runs] at hact
      | removeAlloc =>
          simp only [goOn, List.mem_cons, List.not_mem_nil, or_false] at hc
          rcases hc with rfl | rfl <;> cases hact
      | declined | removeDone => cases hc
  | _ =>
      generalize c.toAct = b at hpush hact
      cases b <;> first | exact False.elim hact | simp [Pushes, AbortPushes] at hpush

variable {w w' : RoomWorld} {s₀ : Sys}

theorem started_of_runs (h : Reach program Arrives (World.init s₀) w) {t : Nat} {b : Act}
    (hb : b ∈ w.view.pending t) (hruns : b.runs) : w.shared.room.started := by
  refine h.view_invariant (fun v => ∀ t b, b ∈ v.pending t → b.runs → v.shared.room.started)
    ?_ ?_ t b hb hruns
  · intro t b hb
    cases hb
  · intro w e v hw hinv he hstep u b hb hruns
    have hv := hw.wf.view_blank
    cases hstep with
    | same => exact hinv u b hb hruns
    | spawn a =>
        rcases (View.mem_pending_create hv).mp hb with hb | ⟨-, rfl⟩
        · exact hinv u b hb hruns
        · have ha := (he _ rfl).isHandler
          cases b <;> first | exact False.elim hruns | cases ha
    | serve t c q s r hq ha =>
        rw [View.shared_answer, serve_room ha]
        exact hinv u b hb hruns
    | env e s henv =>
        change s.room.started
        rw [Room.started, (environment_sameTable henv).1]
        exact hinv u b hb hruns
    | perform t a rest stack ht hr hk hp hf =>
        rw [View.shared_perform]
        have ha : Follows a rest := by
          have hshape := (reach_shape hw (fun _ _ h => h) t).1
          rwa [hp] at hshape
        rcases (View.mem_pending_perform hv ht).mp hb with ⟨rfl, hmem⟩ | ⟨hne, hold⟩ | ⟨-, hfork⟩
        · change _ ∈ View.pendingAfter rest (exec u a (w.view.val u) w.view.shared) at hmem
          rcases View.mem_pendingAfter hmem with ⟨c, hc, rfl⟩ | hrest
          · rcases runs_of_push hc hruns with hr | hstarted
            · exact started_exec ha (hinv u a (by rw [hp]; exact List.mem_cons_self) hr)
            · exact hstarted
          · refine started_exec ha (hinv u b ?_ hruns)
            rw [hp]
            exact List.mem_cons_of_mem _ hrest
        · exact started_exec ha (hinv u b hold hruns)
        · rcases exec_fork t a _ _ hfork with ⟨-, -, -, rfl, -⟩ | ⟨-, rfl⟩ <;> cases hruns

/-- While {lit}`set_players_running` waits nobody enters the table: it is filled by
{lit}`init_room`, before the game. -/
theorem noNew_of_step (h : Reach program Arrives (World.init s₀) w) (hwalk : RoomWalking w)
    {e : RoomEvent} (hstep : Step program w e w') : Walk.NoNew roomKeys w w' := by
  obtain ⟨t, p, ps, hpending⟩ := hwalk
  have hstarted : w.view.shared.room.started := started_of_runs h hpending trivial
  have hview := hstep.view_cases h.wf
  intro q hq
  simp only [roomKeys, decide_eq_true_eq] at hq ⊢
  change q ∈ w'.view.shared.room.players at hq
  change q ∈ w.view.shared.room.players
  generalize w'.view = v at hview hq
  cases hview with
  | same | spawn => exact hq
  | serve u c q' s r hf ha =>
      rwa [View.shared_answer, serve_room ha] at hq
  | env e s henv =>
      change q ∈ s.room.players at hq
      rwa [environment_room henv] at hq
  | perform u a rest stack =>
      rw [View.shared_perform] at hq
      rcases exec_players u a (w.view.val u) w.view.shared with
        hp | ⟨list, n, -, hs, -⟩ | ⟨p', reason, -, -, hp⟩
      · exact hp ▸ hq
      · exact absurd hs hstarted.1
      · have hq : q ∈ (exec u a (w.view.val u) w.view.shared).state.room.players := hq
        rw [hp] at hq
        exact (List.mem_filter.mp hq).1

end RoomService

/-! ## All three -/

/-- In every run, while a shutdown walks {lit}`players`, no key is added and the walk is orderly,
if logins arrive and go on only for players with an entry; the same holds for the loops over the
mails, if only mails arrive that the table has; and for the room without a condition. -/
theorem walks_orderly (s₀ : RoomService.Sys) :
    (Walk.Safe AgentMgr.Manager.keys fun m m' =>
      m.Walking ∧ ∃ e ks, m.Undisturbed e ∧ m.step e = some (m', ks)) ∧
    (Walk.Safe Agent.Post.keys fun p p' =>
      p.Walking ∧ ∃ e, p.Undisturbed e ∧ p.step e = some p') ∧
    Walk.Safe RoomService.roomKeys fun w w' =>
      Coroutine.Reach RoomService.program RoomService.Arrives (Coroutine.World.init s₀) w ∧
        RoomService.RoomWalking w ∧ ∃ e, Coroutine.Step RoomService.program w e w' := by
  refine ⟨Walk.safe_of_noNew ?_, Walk.safe_of_noNew ?_, Walk.safe_of_noNew ?_⟩
  · rintro m m' ⟨-, e, ks, he, h⟩
    exact AgentMgr.Manager.noNew he h
  · rintro p p' ⟨-, e, he, h⟩
    exact Agent.Post.noNew he h
  · rintro w w' ⟨hreach, hwalk, e, h⟩
    exact RoomService.noNew_of_step hreach hwalk h

namespace AgentMgr

/-- Two players log in. -/
def arriving : List Event :=
  [.reqlogin 7 1 5, .resume 0 (.agent true), .confirmLogin 7 1 true, .reqlogin 8 1 5,
    .resume 2 (.agent true), .confirmLogin 8 2 true]

/-- The nodes of the table when nobody else has logged in. -/
def twoNodes (m : Manager) (h : ∀ k, m.keys k = true → k ∈ [7, 8]) : Walk.Nodes Nat where
  order := [7, 8]
  live := m.keys
  nodup := by decide
  has := h

end AgentMgr

/-- A shutdown asks the agent of the first player, which may not be kicked, then that of the second
one, and ends; its walk visits both. -/
theorem walks_orderly_shutdown : ∃ m₁ m₂ m₃ : AgentMgr.Manager,
    AgentMgr.Manager.start.run (AgentMgr.arriving ++ [.shutdown 3 (some 7)]) = some m₁ ∧
    m₁.handlers 4 = some (.asking 3 0 7 0) ∧
    m₁.step (.resume 4 (.can false (some 8))) = some (m₂, []) ∧
    m₂.handlers 4 = some (.asking 3 0 8 1) ∧
    m₂.step (.resume 4 (.can true none)) = some (m₃, []) ∧
    ∃ h₁ h₂ h₃,
      let calls := [(m₁, AgentMgr.twoNodes m₁ h₁), (m₂, AgentMgr.twoNodes m₂ h₂),
        (m₃, AgentMgr.twoNodes m₃ h₃)]
      Walk.Orderly AgentMgr.Manager.keys calls calls ∧
        Walk.walk none (calls.map Prod.snd) = .ok ([7, 8], true) := by
  have hkeys : ∀ m : AgentMgr.Manager, m.players =
      Function.update (Function.update (fun _ => none) 7 (some 0)) 8 (some 1) →
        ∀ k, m.keys k = true → k ∈ [7, 8] := by
    intro m hm k hk
    by_contra hnot
    simp only [List.mem_cons, List.not_mem_nil, or_false, not_or] at hnot
    simp [AgentMgr.Manager.keys, hm, hnot.1, hnot.2] at hk
  refine ⟨_, _, _, rfl, rfl, rfl, rfl, rfl, hkeys _ rfl, hkeys _ rfl, hkeys _ rfl, ?_, ?_⟩
  · refine ((walks_orderly (RoomService.prewarmed fun _ => none)).1 _ _ rfl ?_).2 _ fun _ h => h
    refine .cons_cons ⟨⟨⟨4, 3, 0, 7, 0, rfl⟩, .resume 4 (.can false (some 8)), [], trivial, rfl⟩,
      rfl, rfl, fun _ => rfl⟩ ?_
    exact .cons_cons ⟨⟨⟨4, 3, 0, 8, 1, rfl⟩, .resume 4 (.can true none), [], trivial, rfl⟩,
      rfl, rfl, fun _ => rfl⟩ (.singleton _)
  · rfl

/-- A player logs in while a shutdown is asking the agent of another one, and a mail arrives while
the mails are being saved. -/
theorem walks_disturbed :
    (¬ ∀ m, AgentMgr.Reach (fun _ _ => True) m → m.Walking → ∀ e m' ks,
      m.step e = some (m', ks) → Walk.NoNew AgentMgr.Manager.keys m m') ∧
    ¬ ∀ p, Agent.Post.Reach (fun _ _ => True) p → p.Walking → ∀ e p',
      p.step e = some p' → Walk.NoNew Agent.Post.keys p p' := by
  constructor
  · intro h
    have h₁ : AgentMgr.Reach (fun _ _ => True) _ := .step (e := .reqlogin 7 1 5) .start trivial rfl
    have h₂ := h₁.step (e := .resume 0 (.agent true)) trivial rfl
    have h₃ := h₂.step (e := .confirmLogin 7 1 true) trivial rfl
    have h₄ := h₃.step (e := .shutdown 1 (some 7)) trivial rfl
    have hnew := h _ h₄ ⟨2, 1, 0, 7, 0, rfl⟩ (.reqlogin 8 1 5) _ _ rfl 8 rfl
    cases hnew
  · intro h
    have h₁ : Agent.Post.Reach (fun _ _ => True) _ := .step (e := .store 0) .start trivial rfl
    have h₂ := h₁.step (e := .newMail 0) trivial rfl
    have h₃ := h₂.step (e := .save (some 0)) trivial rfl
    have h₄ := h₃.step (e := .store 0) trivial rfl
    have hnew := h _ h₄ ⟨0, _, rfl, rfl, trivial⟩ (.newMail 1) _ rfl 1 rfl
    cases hnew

end BallServer
