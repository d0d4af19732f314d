import BallServer.BattleGateway.Service
import Mathlib.Data.List.Basic

/-!
# The battle handshake, seen from both sides

Client and gateway exchange {lit}`battle_auth`, its answer and {lit}`battle_ready_ack`
over a KCP connection; the scene sends a snapshot when the game starts or a player comes
back.  A connection belongs to one KCP object of the client and one of the gateway, and
delivers in order.  Calls to the room succeed.

The client repeats {lit}`battle_auth` while it waits, also while it waits for the other
players.  The gateway answers every repetition, and the client starts to wait for a
snapshot whenever such an answer arrives.

The fields {lit}`delivered`, {lit}`used` and {lit}`sent` do not exist in the programs.
They record whether the client has received a snapshot on its connection, for which
connections the gateway has had a KCP object, and on which it has sent a snapshot.

Main results:

- Definition {lit}`Battle.step`: the client, the gateway and the messages between them.
- Theorem {lit}`client_active`: unless the gateway answers a {lit}`battle_auth` after a
  snapshot, a client that has received everything and a snapshot is active.
- Theorem {lit}`client_falls_back`: otherwise it may wait for a snapshot for ever.
-/

namespace BallServer.BattleGateway

/-- {lit}`BattleState`. -/
inductive BattleState where
  | none
  | waitingAuth
  | waitingSnapshot
  | active
deriving DecidableEq, Repr

/-- From the client: {lit}`battle_auth`, with the right token or not, and
{lit}`battle_ready_ack`. -/
inductive Up where
  | battleAuth (tokenOk : Bool)
  | battleReadyAck (readySeq : Nat)
deriving DecidableEq, Repr

/-- From the gateway. -/
inductive Down where
  | battleAuth (code : Nat) (readySeq : Nat)
  | sceneSnapshot
  | frameUpdate
deriving DecidableEq, Repr

/-- The session at the gateway; its KCP object belongs to a connection. -/
structure Side where
  state : SessionState
  kcp : Option Nat
  readySeq : Nat
  hasJoined : Bool
deriving DecidableEq, Repr

/-- {lit}`battle_auth` and {lit}`battle_ready_ack` of the gateway, with the number that
would be drawn, and the answer. -/
def Side.handle (y : Side) (random : Nat) : Up → Side × List Down
  | .battleAuth false => (y, [.battleAuth 1 0])
  | .battleAuth true =>
      match y.state with
      | .waitAuth | .reconnectWait =>
          ({ y with state := .waitReady, readySeq := random }, [.battleAuth 0 random])
      | .waitReady | .active => (y, [.battleAuth 0 y.readySeq])
      | .closed => (y, [])
  | .battleReadyAck seq =>
      if y.state = .waitReady ∧ seq = y.readySeq then
        ({ y with state := .active, hasJoined := true }, [])
      else (y, [])

/-- A message, for a player with this token. -/
def upOf (token : String) : Message → Option Up
  | .battleAuth t => some (.battleAuth (decide (t = token)))
  | .battleReadyAck seq => some (.battleReadyAck seq)
  | .command _ _ => none

/-- A session of the gateway on a connection. -/
def sideOf {κ π : Type} (conn : Nat) (y : Session κ π) : Side :=
  ⟨y.state, y.kcp.map fun _ => conn, y.readySeq, y.hasJoined⟩

/-- {lit}`handle` is what the gateway does with the next message of a session. -/
theorem sideOf_drainRecv {κ δ π : Type} (K : Link κ δ π) (g : Gateway κ π) {x q conn : Nat}
    {k : KcpObject κ π} {p : π} {rest : List π} {msg : Message} {m : Up}
    (hq : (g.session x).player = some q) (hk : (g.session x).kcp = some k)
    (hr : k.ready = p :: rest) (hp : K.unpack p = some msg)
    (hm : upOf (g.player q).token msg = some m) :
    sideOf conn ((g.drainRecv K x 1).session x) =
      ((sideOf conn (g.session x)).handle (K.random g.draws) m).1 := by
  unfold Gateway.drainRecv
  simp only [hk, hr, hp]
  cases msg with
  | battleAuth t =>
      obtain rfl := Option.some.inj hm
      simp only [hq]
      by_cases ht : t = (g.player q).token
      · subst ht
        cases hst : (g.session x).state <;>
          simp [Gateway.Unauthenticated, hst, Gateway.drainRecv, Gateway.battleAuth, Gateway.take,
            Gateway.setSession, sideOf, Side.handle, hk]
      · simp [ht, Gateway.drainRecv, Gateway.take, Gateway.setSession, sideOf, Side.handle, hk]
  | battleReadyAck seq =>
      obtain rfl := Option.some.inj hm
      simp only [hq]
      by_cases hst : (g.session x).state = .waitReady ∧ seq = (g.session x).readySeq
      · simp [hst, Gateway.battleReadyAck, Gateway.take, Gateway.setSession, sideOf, Side.handle, hk]
      · simp [hst, Gateway.drainRecv, Gateway.take, Gateway.setSession, sideOf, Side.handle, hk]
  | command cmd body => cases hm

/-- {lit}`HandleBattleMessage`: the next state of the client. -/
def BattleState.receive (c : BattleState) : Down → BattleState
  | .battleAuth code _ => if code = 0 then .waitingSnapshot else c
  | .sceneSnapshot => .active
  | .frameUpdate => c

/-- What the client sends when it receives a message. -/
def Down.reply : Down → List Up
  | .battleAuth code seq => if code = 0 then [.battleReadyAck seq] else []
  | .sceneSnapshot | .frameUpdate => []

/-- Both sides and the messages on their way, by connection. -/
structure Battle where
  client : BattleState
  token : Bool
  conn : Nat
  up : Nat → List Up
  down : Nat → List Down
  side : Side
  delivered : Bool
  used : Nat → Bool
  sent : Nat → Bool

/-- What can happen. -/
inductive Turn where
  /-- {lit}`StartHandshake`, with the right token or not. -/
  | startHandshake (tokenOk : Bool)
  /-- {lit}`RetryHandshakeOnCurrentTransport`. -/
  | retryHandshake
  /-- The client receives the next message of its connection. -/
  | clientReceive
  /-- The gateway receives the next message of a connection. -/
  | gatewayReceive (n random : Nat)
  /-- The gateway has heard nothing for a while: {lit}`enter_reconnect_wait`. -/
  | timeout
  /-- The session is freed. -/
  | free
  /-- The scene sends a snapshot, when the game starts or on {lit}`battle_resync`. -/
  | sceneSnapshot
  /-- The scene sends something else. -/
  | frameUpdate
deriving DecidableEq, Repr

namespace Battle

/-- The KCP object that takes the messages of a connection; a new one is made only for a
new connection. -/
def linked (b : Battle) (n : Nat) : Option Battle :=
  match b.side.kcp with
  | some k => if k = n then some b else none
  | none =>
      if b.used n = true ∨ b.side.state = .active ∨ b.side.state = .closed then none
      else some { b with
        side := { b.side with kcp := some n }, used := Function.update b.used n true }

/-- The gateway sends messages on a connection. -/
def sendDown (b : Battle) (n : Nat) (l : List Down) : Battle :=
  { b with down := Function.update b.down n (b.down n ++ l) }

/-- The client sends messages. -/
def sendUp (b : Battle) (l : List Up) : Battle :=
  { b with up := Function.update b.up b.conn (b.up b.conn ++ l) }

/-- {lit}`send` of the gateway: only active sessions get messages of the scene. -/
def scene (b : Battle) (m : Down) : Battle :=
  match b.side.kcp with
  | none => b
  | some n =>
      if b.side.state = .active then
        { b.sendDown n [m] with
          sent := Function.update b.sent n (b.sent n || decide (m = Down.sceneSnapshot)) }
      else b

/-- One turn. -/
def step (b : Battle) : Turn → Option Battle
  | .startHandshake tokenOk =>
      some ({ b with
        client := .waitingAuth, token := tokenOk, conn := b.conn + 1, delivered := false }.sendUp
          [.battleAuth tokenOk])
  | .retryHandshake =>
      if b.client = .waitingAuth ∨ b.client = .waitingSnapshot then
        some (b.sendUp [.battleAuth b.token])
      else none
  | .clientReceive =>
      match b.down b.conn with
      | [] => none
      | m :: rest =>
          some ({ b with
            client := b.client.receive m
            down := Function.update b.down b.conn rest
            delivered := b.delivered || decide (m = Down.sceneSnapshot) }.sendUp m.reply)
  | .gatewayReceive n random =>
      match b.up n with
      | [] => none
      | m :: rest =>
          (b.linked n).map fun b =>
            { b with
              up := Function.update b.up n rest
              side := (b.side.handle random m).1 }.sendDown n (b.side.handle random m).2
  | .timeout =>
      if b.side.state = .active then
        some { b with side := { b.side with state := .reconnectWait, kcp := none, readySeq := 0 } }
      else none
  | .free =>
      some { b with side := { b.side with state := .closed, kcp := none, readySeq := 0 } }
  | .sceneSnapshot => some (b.scene .sceneSnapshot)
  | .frameUpdate => some (b.scene .frameUpdate)

/-- A sequence of turns. -/
def run (b : Battle) : List Turn → Option Battle
  | [] => some b
  | t :: ts => do
      let b ← b.step t
      b.run ts

/-- Both sides after {lit}`batch_alloc`. -/
def start : Battle where
  client := .none
  token := false
  conn := 0
  up := fun _ => []
  down := fun _ => []
  side := ⟨.waitAuth, none, 0, false⟩
  delivered := false
  used := fun _ => false
  sent := fun _ => false

/-- The gateway answers no {lit}`battle_auth` on a connection on which it has sent a
snapshot: none that it receives there while the session is active carries the token. -/
def Timely (b : Battle) : Turn → Prop
  | .gatewayReceive n _ =>
      b.side.state = .active → b.sent n = true → (b.up n).head? ≠ some (.battleAuth true)
  | _ => True

instance (b : Battle) : (t : Turn) → Decidable (b.Timely t)
  | .gatewayReceive _ _ => inferInstanceAs (Decidable (_ → _ → _ ≠ _))
  | .startHandshake _ | .retryHandshake | .clientReceive | .timeout | .free | .sceneSnapshot
  | .frameUpdate => .isTrue trivial

/-- The states reached by turns that meet a condition. -/
inductive Reach (ok : Battle → Turn → Prop) : Battle → Prop where
  | start : Reach ok start
  | step {b b' : Battle} {t : Turn} (hr : Reach ok b) (ht : ok b t) (hs : b.step t = some b') :
      Reach ok b'

/-- The client's state when it has received all that is on its way. -/
def final (b : Battle) : BattleState :=
  (b.down b.conn).foldl BattleState.receive b.client

/-- A connection with a snapshot ends with an active client. -/
structure Agreed (b : Battle) : Prop where
  final : b.sent b.conn = true → b.final = .active
  delivered : b.delivered = true → b.sent b.conn = true
  under : ∀ n, Down.sceneSnapshot ∈ b.down n → b.sent n = true
  active : ∀ n, b.sent n = true → b.side.kcp = some n → b.side.state = .active
  used : ∀ n, b.sent n = true → b.used n = true
  kcp : ∀ n, b.side.kcp = some n → b.used n = true
  old : ∀ n, b.used n = true → n ≤ b.conn
  fresh : ∀ n, b.conn < n → b.up n = []

section Turns

variable {b b' : Battle}

theorem Agreed.sendUp (h : b.Agreed) (l : List Up) : (b.sendUp l).Agreed := by
  obtain ⟨hf, hd, hu, ha, hus, hk, ho, hfr⟩ := h
  refine ⟨hf, hd, hu, ha, hus, hk, ho, fun n hn => ?_⟩
  have hne : n ≠ b.conn := fun heq => (lt_irrefl b.conn) (heq ▸ hn)
  simpa [Battle.sendUp, hne] using hfr n hn

theorem Agreed.startHandshake (h : b.Agreed) (tokenOk : Bool) :
    ({ b with client := .waitingAuth, token := tokenOk, conn := b.conn + 1, delivered := false } :
      Battle).Agreed := by
  obtain ⟨hf, hd, hu, ha, hus, hk, ho, hfr⟩ := h
  have hsent : b.sent (b.conn + 1) ≠ true := fun hs => by
    have := ho _ (hus _ hs)
    omega
  exact ⟨fun hs => absurd hs hsent, fun hs => (by cases hs), hu, ha, hus, hk,
    fun n hn => (ho n hn).trans (Nat.le_succ _), fun n hn => hfr n ((Nat.lt_succ_self _).trans hn)⟩

theorem Agreed.clientReceive (h : b.Agreed) {m : Down} {rest : List Down}
    (hm : b.down b.conn = m :: rest) :
    ({ b with
      client := b.client.receive m
      down := Function.update b.down b.conn rest
      delivered := b.delivered || decide (m = Down.sceneSnapshot) } : Battle).Agreed := by
  obtain ⟨hf, hd, hu, ha, hus, hk, ho, hfr⟩ := h
  refine ⟨fun hs => ?_, fun hs => ?_, fun n hn => ?_, ha, hus, hk, ho, hfr⟩
  · have := hf hs
    simpa [Battle.final, hm] using this
  · simp only [Bool.or_eq_true, decide_eq_true_eq] at hs
    rcases hs with hs | rfl
    · exact hd hs
    · exact hu _ (hm ▸ List.mem_cons_self)
  · by_cases hc : n = b.conn
    · subst hc
      simp only [Function.update_self] at hn
      exact hu _ (hm ▸ List.mem_cons_of_mem _ hn)
    · simp only [Function.update_of_ne hc] at hn
      exact hu n hn

/-- The gateway finds or makes the KCP object of a connection; a new one has sent nothing. -/
theorem Agreed.linked (h : b.Agreed) {n : Nat} (hn : n ≤ b.conn) (hl : b.linked n = some b') :
    b'.Agreed ∧ b'.side.kcp = some n ∧ b'.up = b.up ∧
      (b'.sent n = true → b'.side.state = .active ∧ b'.side = b.side) ∧ b'.sent = b.sent := by
  obtain ⟨hf, hd, hu, ha, hus, hk, ho, hfr⟩ := h
  unfold Battle.linked at hl
  split at hl
  · rename_i k hk'
    split at hl
    · subst k
      obtain rfl := Option.some.inj hl
      exact ⟨⟨hf, hd, hu, ha, hus, hk, ho, hfr⟩, hk', rfl, fun hs => ⟨ha n hs hk', rfl⟩, rfl⟩
    · cases hl
  · split at hl
    · cases hl
    · rename_i hnew
      obtain rfl := Option.some.inj hl
      have hsent : b.sent n ≠ true := fun hs => hnew (.inl (hus n hs))
      refine ⟨⟨hf, hd, hu, fun k hs hkk => ?_, fun k hs => ?_, fun k hkk => ?_, fun k hkk => ?_,
        hfr⟩, rfl, rfl, fun hs => absurd hs hsent, rfl⟩
      · obtain rfl := Option.some.inj hkk
        exact absurd hs hsent
      · by_cases hkn : k = n
        · subst hkn
          simp
        · simpa [hkn] using hus k hs
      · obtain rfl := Option.some.inj hkk
        simp
      · by_cases hkn : k = n
        · exact hkn ▸ hn
        · exact ho k (by simpa [hkn] using hkk)

theorem handle_kcp (y : Side) (random : Nat) (m : Up) : (y.handle random m).1.kcp = y.kcp := by
  unfold Side.handle
  repeat' split
  all_goals rfl

/-- An active session stays active, and answers only {lit}`battle_auth`. -/
theorem handle_active {y : Side} (hy : y.state = .active) (random : Nat) {m : Up}
    (hm : m ≠ .battleAuth true) :
    (y.handle random m).1 = y ∧ ∀ r ∈ (y.handle random m).2, ∃ seq, r = .battleAuth 1 seq := by
  unfold Side.handle
  split
  · simp
  · exact absurd rfl hm
  · simp [hy]

theorem handle_answers (y : Side) (random : Nat) (m : Up) :
    Down.sceneSnapshot ∉ (y.handle random m).2 := by
  unfold Side.handle
  repeat' split
  all_goals simp

theorem Agreed.gatewayReceive (h : b.Agreed) {n random : Nat} {m : Up} {rest : List Up}
    (hk' : b.side.kcp = some n) (hm : b.up n = m :: rest)
    (htimely : b.sent n = true → m ≠ .battleAuth true) :
    ({ b with
      up := Function.update b.up n rest
      side := (b.side.handle random m).1 }.sendDown n (b.side.handle random m).2).Agreed := by
  obtain ⟨hf, hd, hu, ha, hus, hk, ho, hfr⟩ := h
  refine ⟨fun hs => ?_, hd, fun k hmem => ?_, fun k hs hkk => ?_, hus, fun k hkk => ?_, ho,
    fun k hkk => ?_⟩
  · -- the answers do not change what the client ends with
    have hold : (b.down b.conn).foldl BattleState.receive b.client = .active := hf hs
    by_cases hn : b.conn = n
    · have hsn : b.sent n = true := hn ▸ hs
      obtain ⟨-, hans⟩ := handle_active (ha n hsn hk') random (htimely hsn)
      have hkeep : ∀ l : List Down, (∀ r ∈ l, ∃ seq, r = .battleAuth 1 seq) →
          l.foldl BattleState.receive .active = .active := by
        intro l hl
        induction l with
        | nil => rfl
        | cons r l ih =>
            obtain ⟨seq, rfl⟩ := hl r List.mem_cons_self
            exact ih fun r hr => hl r (List.mem_cons_of_mem _ hr)
      simp only [Battle.final, Battle.sendDown, hn, Function.update_self, List.foldl_append]
      rw [← hn, hold, hkeep _ hans]
    · simp only [Battle.final, Battle.sendDown, Function.update_of_ne hn]
      exact hold
  · by_cases hkn : k = n
    · subst hkn
      simp only [Battle.sendDown, Function.update_self, List.mem_append] at hmem
      exact hu k (hmem.resolve_right (handle_answers _ _ _))
    · simp only [Battle.sendDown, Function.update_of_ne hkn] at hmem
      exact hu k hmem
  · have hkk : (b.side.handle random m).1.kcp = some k := hkk
    rw [handle_kcp, hk'] at hkk
    obtain rfl := Option.some.inj hkk
    have hact := ha n hs hk'
    rw [show _ = (b.side.handle random m).1 from rfl,
      (handle_active hact random (htimely hs)).1]
    exact hact
  · have hkk : (b.side.handle random m).1.kcp = some k := hkk
    rw [handle_kcp] at hkk
    exact hk k hkk
  · have hne : k ≠ n := by
      rintro rfl
      rw [hfr k hkk] at hm
      cases hm
    simpa [Battle.sendDown, hne] using hfr k hkk

theorem Agreed.scene (h : b.Agreed) (m : Down) (hm : m = .sceneSnapshot ∨ m = .frameUpdate) :
    (b.scene m).Agreed := by
  obtain ⟨hf, hd, hu, ha, hus, hk, ho, hfr⟩ := h
  unfold Battle.scene
  split
  · exact ⟨hf, hd, hu, ha, hus, hk, ho, hfr⟩
  · rename_i n hkn
    split
    · rename_i hact
      have hsent : ∀ k, (Function.update b.sent n (b.sent n || decide (m = Down.sceneSnapshot)) k) = true →
          b.sent k = true ∨ k = n ∧ m = .sceneSnapshot := by
        intro k hs
        by_cases hk : k = n
        · subst hk
          simpa using hs
        · exact .inl (by simpa [hk] using hs)
      have hmono : ∀ k, b.sent k = true →
          Function.update b.sent n (b.sent n || decide (m = Down.sceneSnapshot)) k = true := by
        intro k hs
        by_cases hk : k = n
        · subst hk
          simp [hs]
        · simpa [hk] using hs
      refine ⟨fun hs => ?_, fun hs => hmono _ (hd hs), fun k hmem => ?_, fun k hs hkk => ?_,
        fun k hs => ?_, hk, ho, hfr⟩
      · by_cases hn : b.conn = n
        · have hlast : ∀ c : BattleState, c = .active ∨ m = .sceneSnapshot →
              c.receive m = .active := by
            rintro c (rfl | rfl)
            · rcases hm with rfl | rfl <;> rfl
            · rfl
          simp only [Battle.final, Battle.sendDown, hn, Function.update_self, List.foldl_append,
            List.foldl_cons, List.foldl_nil]
          apply hlast
          rcases hsent _ hs with hs | ⟨-, hs⟩
          · have := hf hs
            rw [Battle.final, hn] at this
            exact .inl this
          · exact .inr hs
        · have hs := (hsent _ hs).resolve_right fun h => hn h.1
          have := hf hs
          simpa [Battle.final, Battle.sendDown, hn] using this
      · by_cases hk : k = n
        · subst hk
          simp only [Battle.sendDown, Function.update_self, List.mem_append,
            List.mem_singleton] at hmem
          rcases hmem with hmem | hmem
          · exact hmono k (hu k hmem)
          · simp [hmem.symm]
        · simp only [Battle.sendDown, Function.update_of_ne hk] at hmem
          exact hmono k (hu k hmem)
      · exact hact
      · rcases hsent k hs with hs | ⟨rfl, -⟩
        · exact hus k hs
        · exact hk k hkn
    · exact ⟨hf, hd, hu, ha, hus, hk, ho, hfr⟩

theorem step_agreed {t : Turn} (h : b.Agreed) (ht : b.Timely t) (hs : b.step t = some b') :
    b'.Agreed := by
  cases t with
  | startHandshake tokenOk =>
      obtain rfl := Option.some.inj hs
      exact (h.startHandshake tokenOk).sendUp _
  | retryHandshake =>
      simp only [step] at hs
      split at hs
      · obtain rfl := Option.some.inj hs
        exact h.sendUp _
      · cases hs
  | clientReceive =>
      simp only [step] at hs
      split at hs
      · cases hs
      · rename_i m rest hm
        obtain rfl := Option.some.inj hs
        exact (h.clientReceive hm).sendUp _
  | gatewayReceive n random =>
      simp only [step] at hs
      split at hs
      · cases hs
      · rename_i m rest hm
        obtain ⟨t, hl, rfl⟩ := Option.map_eq_some_iff.mp hs
        have hn : n ≤ b.conn := by
          by_contra hlt
          rw [h.fresh n (not_le.mp hlt)] at hm
          cases hm
        obtain ⟨ha, hk, hup, hact, hsent⟩ := h.linked hn hl
        refine ha.gatewayReceive hk (hup ▸ hm) fun hs heq => ?_
        obtain ⟨hst, hside⟩ := hact hs
        refine ht (hside ▸ hst) (hsent ▸ hs) ?_
        rw [hm, heq]
        rfl
  | timeout =>
      simp only [step] at hs
      split at hs
      · obtain rfl := Option.some.inj hs
        exact { h with active := fun n _ hk => (by cases hk), kcp := fun n hk => (by cases hk) }
      · cases hs
  | free =>
      obtain rfl := Option.some.inj hs
      exact { h with active := fun n _ hk => (by cases hk), kcp := fun n hk => (by cases hk) }
  | sceneSnapshot =>
      obtain rfl := Option.some.inj hs
      exact h.scene _ (.inl rfl)
  | frameUpdate =>
      obtain rfl := Option.some.inj hs
      exact h.scene _ (.inr rfl)

end Turns

theorem start_agreed : start.Agreed := by
  constructor <;> simp [start]

theorem reach_agreed {b : Battle} (hr : Reach Timely b) : b.Agreed := by
  induction hr with
  | start => exact start_agreed
  | step _ ht hs ih => exact step_agreed ih ht hs

/-- Nothing is on its way on the client's connection, the session is active, and a snapshot
was delivered. -/
structure Settled (b : Battle) : Prop where
  up : b.up b.conn = []
  down : b.down b.conn = []
  side : b.side.state = .active
  delivered : b.delivered = true

/-- A settled client is active, as long as the gateway answers no {lit}`battle_auth` after
a snapshot. -/
theorem client_active (b : Battle) (hr : Reach Timely b) (hs : b.Settled) :
    b.client = .active := by
  have h := reach_agreed hr
  have hfinal := h.final (h.delivered hs.delivered)
  rw [final, hs.down] at hfinal
  exact hfinal

theorem client_active_joined :
    ∃ b, Reach Timely b ∧ b.client = .active ∧ b.side.state = .active :=
  have h₁ : Reach Timely _ := .step (t := .startHandshake true) .start trivial rfl
  have h₂ := h₁.step (t := .gatewayReceive 1 9) (by decide +kernel) rfl
  have h₃ := h₂.step (t := .clientReceive) trivial rfl
  have h₄ := h₃.step (t := .gatewayReceive 1 9) (by decide +kernel) rfl
  have h₅ := h₄.step (t := .sceneSnapshot) trivial rfl
  have h₆ := h₅.step (t := .clientReceive) trivial rfl
  ⟨_, h₆, client_active _ h₆ ⟨rfl, rfl, rfl, rfl⟩, rfl⟩

/-- The client repeats {lit}`battle_auth` while it waits for the other players.  The answer
comes after the snapshot; the gateway ignores the acknowledgement. -/
theorem client_falls_back :
    ∃ b, start.run [.startHandshake true, .gatewayReceive 1 9, .clientReceive, .retryHandshake,
        .gatewayReceive 1 9, .sceneSnapshot, .gatewayReceive 1 9, .clientReceive, .clientReceive,
        .gatewayReceive 1 9] = some b ∧ ¬ (b.Settled → b.client = .active) := by
  refine ⟨_, rfl, fun h => ?_⟩
  cases h ⟨rfl, rfl, rfl, rfl⟩

end Battle

end BallServer.BattleGateway
