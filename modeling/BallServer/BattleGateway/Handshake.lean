import BallServer.BattleGateway.Sessions

/-!
# Only authenticated sessions reach the game

The list {lit}`seen` of a session starts anew with every {lit}`reset_kcp`.  A session that
waits for the third message of the handshake has seen a {lit}`battle_auth` with the token
of its player, for which its number was drawn; an active one has seen the answer after it.

Main results:

- Definition {lit}`Handshaken`: a complete handshake in a list of messages.
- Theorem {lit}`step_proven`: every event preserves what the sessions have seen.
- Theorem {lit}`active_handshaken`: in every run, an active session has completed a
  handshake, and only active sessions send commands, each for its own player.
-/

namespace BallServer.BattleGateway

variable {κ δ π : Type}

/-- A {lit}`battle_auth` with the token, for which the number was drawn. -/
def AuthSeen (K : Link κ δ π) (token : String) (n : Nat) (l : List (π × Option Nat)) : Prop :=
  ∃ p, (p, some n) ∈ l ∧ K.unpack p = some (.battleAuth token)

/-- A {lit}`battle_ready_ack` with the number. -/
def AckSeen (K : Link κ δ π) (n : Nat) (l : List (π × Option Nat)) : Prop :=
  ∃ p d, (p, d) ∈ l ∧ K.unpack p = some (.battleReadyAck n)

/-- The first message of a handshake and later the third one. -/
def Handshaken (K : Link κ δ π) (token : String) (l : List (π × Option Nat)) : Prop :=
  ∃ n l₁ l₂, l = l₁ ++ l₂ ∧ AuthSeen K token n l₁ ∧ AckSeen K n l₂

/-- A session has seen what its state requires. -/
structure SessionOk (K : Link κ δ π) (player : Nat → Player) (y : Session κ π) : Prop where
  owner : ∀ q, y.player = some q → (player q).playerid = y.owner
  ready : y.state = .waitReady →
    ∃ q, y.player = some q ∧ AuthSeen K (player q).token y.readySeq y.seen
  active : y.state = .active → ∃ q, y.player = some q ∧ Handshaken K (player q).token y.seen

section Seen

variable {K : Link κ δ π} {token : String} {n : Nat} {l : List (π × Option Nat)}

/-- What was seen stays seen. -/
theorem AuthSeen.append (h : AuthSeen K token n l) (l' : List (π × Option Nat)) :
    AuthSeen K token n (l ++ l') := by
  obtain ⟨p, hp, hu⟩ := h
  exact ⟨p, List.mem_append_left _ hp, hu⟩

theorem Handshaken.append (h : Handshaken K token l) (l' : List (π × Option Nat)) :
    Handshaken K token (l ++ l') := by
  obtain ⟨n, l₁, l₂, rfl, ha, p, d, hp, hu⟩ := h
  exact ⟨n, l₁, l₂ ++ l', by rw [List.append_assoc], ha, p, d, List.mem_append_left _ hp, hu⟩

/-- A session that is neither waiting for the third message nor active owes nothing. -/
theorem SessionOk.outside {player : Nat → Player} {y : Session κ π}
    (howner : ∀ q, y.player = some q → (player q).playerid = y.owner)
    (hr : y.state ≠ .waitReady) (ha : y.state ≠ .active) : SessionOk K player y :=
  ⟨howner, fun h => absurd h hr, fun h => absurd h ha⟩

end Seen

namespace Gateway

variable {K : Link κ δ π} {g : Gateway κ π} {x : Nat}

/-- What the sessions have seen, and from where commands were sent. -/
structure Proven (K : Link κ δ π) (g : Gateway κ π) : Prop where
  ok : ∀ x, SessionOk K g.player (g.session x)
  lt : ∀ x q, (g.session x).player = some q → q < g.nextPlayer ∧ x < g.nextSession
  sent : ∀ f ∈ g.forwarded, f.session < g.nextSession ∧ f.state = .active ∧
    f.playerid = (g.session f.session).owner

/-- One session is changed, and the players keep their tokens. -/
theorem Proven.change {g' : Gateway κ π} (h : g.Proven K)
    (hother : ∀ y ≠ x, g'.session y = g.session y)
    (hx : SessionOk K g.player (g'.session x)) (howner : (g'.session x).owner = (g.session x).owner)
    (hplayer : ∀ q, (g'.session x).player = some q → (g.session x).player = some q)
    (htoken : ∀ q, (g'.player q).token = (g.player q).token ∧
      (g'.player q).playerid = (g.player q).playerid)
    (hn : g'.nextSession = g.nextSession) (hnp : g'.nextPlayer = g.nextPlayer)
    (hsent : ∀ f ∈ g'.forwarded, f.session < g.nextSession ∧ f.state = .active ∧
      f.playerid = (g.session f.session).owner) : g'.Proven K := by
  have hok : ∀ y, SessionOk K g.player (g'.session y) := by
    intro y
    by_cases hy : y = x
    · exact hy ▸ hx
    · rw [hother y hy]
      exact h.ok y
  constructor
  · intro y
    obtain ⟨ho, hr, ha⟩ := hok y
    refine ⟨fun q hq => (htoken q).2.trans (ho q hq), fun hst => ?_, fun hst => ?_⟩
    · obtain ⟨q, hq, hseen⟩ := hr hst
      exact ⟨q, hq, by rw [(htoken q).1]; exact hseen⟩
    · obtain ⟨q, hq, hseen⟩ := ha hst
      exact ⟨q, hq, by rw [(htoken q).1]; exact hseen⟩
  · intro y q hq
    rw [hnp, hn]
    by_cases hy : y = x
    · subst hy
      exact h.lt y q (hplayer q hq)
    · rw [hother y hy] at hq
      exact h.lt y q hq
  · intro f hf
    obtain ⟨hlt, hst, hid⟩ := hsent f hf
    refine ⟨hn ▸ hlt, hst, ?_⟩
    by_cases hy : f.session = x
    · rw [hid, hy, howner]
    · rw [hother _ hy]
      exact hid

/-- A session changes to one that has what its state asks for. -/
theorem Proven.setSession (h : g.Proven K) {y : Session κ π} (hok : SessionOk K g.player y)
    (howner : y.owner = (g.session x).owner)
    (hplayer : ∀ q, y.player = some q → (g.session x).player = some q) :
    (g.setSession x y).Proven K := by
  have hself : (g.setSession x y).session x = y := Function.update_self ..
  refine h.change (x := x) (fun z hz => Function.update_of_ne hz _ _) ?_ ?_ ?_ (fun _ => ⟨rfl, rfl⟩)
    rfl rfl h.sent
  · rw [hself]
    exact hok
  · rw [hself, howner]
  · rw [hself]
    exact hplayer

/-! ## Receiving -/

/-- The session that has just taken a message. -/
theorem session_take (k : KcpObject κ π) (rest : List π) (p : π) (drawn : Option Nat) :
    (g.take x k rest p drawn).session x = { g.session x with
      kcp := some { k with ready := rest }
      seen := (g.session x).seen ++ [(p, drawn)] } :=
  Function.update_self ..

theorem Proven.take (h : g.Proven K) (k : KcpObject κ π) (rest : List π) (p : π)
    (drawn : Option Nat) : (g.take x k rest p drawn).Proven K := by
  obtain ⟨ho, hr, ha⟩ := h.ok x
  refine h.setSession ⟨ho, fun hst => ?_, fun hst => ?_⟩ rfl fun _ hq => hq
  · obtain ⟨q, hq, hseen⟩ := hr hst
    exact ⟨q, hq, hseen.append _⟩
  · obtain ⟨q, hq, hseen⟩ := ha hst
    exact ⟨q, hq, hseen.append _⟩

/-- The token was right, so the session has the first message of the handshake. -/
theorem Proven.battleAuth (h : g.Proven K) {q : Nat} {p : π}
    (hq : (g.session x).player = some q)
    (hseen : (p, some (K.random g.draws)) ∈ (g.session x).seen)
    (hp : K.unpack p = some (.battleAuth (g.player q).token)) : (g.battleAuth K x).Proven K := by
  have hset : (g.setSession x { g.session x with
      state := .waitReady, readySeq := K.random g.draws }).Proven K := by
    refine h.setSession ⟨(h.ok x).owner, fun _ => ?_, fun hst => ?_⟩ rfl fun _ hq => hq
    · exact ⟨q, hq, p, hseen, hp⟩
    · cases hst
  exact ⟨hset.ok, hset.lt, hset.sent⟩

/-- A session becomes active only with the whole handshake. -/
theorem Proven.battleReadyAck (h : g.Proven K) (q : Nat)
    (hdone : ∃ q, (g.session x).player = some q ∧
      Handshaken K (g.player q).token (g.session x).seen) : (g.battleReadyAck x q).Proven K := by
  have hset : (g.setSession x { g.session x with
      state := .active, hasJoined := true, reconnectDeadline := 0 }).Proven K := by
    refine h.setSession ⟨(h.ok x).owner, fun hst => ?_, fun _ => hdone⟩ rfl fun _ hq => hq
    cases hst
  exact ⟨hset.ok, hset.lt, hset.sent⟩

/-- An active session forwards in the name of its own player. -/
theorem Proven.forward (h : g.Proven K) (hx : x < g.nextSession) {q : Nat}
    (hq : (g.session x).player = some q) (hst : (g.session x).state = .active) (cmd : String) :
    (g.forward x q cmd).Proven K := by
  refine ⟨h.ok, h.lt, fun f hf => ?_⟩
  rcases List.mem_cons.mp hf with rfl | hf
  · exact ⟨hx, hst, (h.ok x).owner q hq⟩
  · exact h.sent f hf

theorem Proven.drainRecv (n : Nat) (h : g.Proven K) (hx : x < g.nextSession) :
    (g.drainRecv K x n).Proven K := by
  induction n generalizing g with
  | zero => exact h
  | succ n ih =>
      unfold Gateway.drainRecv
      split
      · exact h
      · rename_i k hk
        split
        · exact h
        · rename_i p rest hr
          have htake : ∀ drawn, (g.take x k rest p drawn).Proven K := h.take k rest p
          have hself : ∀ drawn, (g.take x k rest p drawn).session x = _ := session_take k rest p
          split
          · exact ih (htake none) hx
          · rename_i token hp
            split
            · exact htake none
            · rename_i q hq
              split
              · rename_i hu
                refine ih ((htake _).battleAuth (q := q) (p := p) ?_ ?_ ?_) hx
                · rw [hself]
                  exact hq
                · rw [hself]
                  exact List.mem_append_right _ List.mem_cons_self
                · rw [hp, hu.1]
                  rfl
              · exact ih (htake none) hx
          · rename_i seq hp
            split
            · rename_i hst
              split
              · exact ih (htake none) hx
              · refine (htake none).battleReadyAck _ ?_
                obtain ⟨q, hq, hseen⟩ := (h.ok x).ready hst.1
                rw [hself]
                exact ⟨q, hq, (g.session x).readySeq, (g.session x).seen, [(p, none)], rfl, hseen,
                  p, none, List.mem_cons_self, hst.2 ▸ hp⟩
            · exact ih (htake none) hx
          · split
            · rename_i hst
              split
              · exact htake none
              · rename_i q hq
                refine ih ((htake none).forward hx ?_ ?_ _) hx
                · rw [hself]
                  exact hq
                · rw [hself]
                  exact hst
            · exact ih (htake none) hx

theorem Proven.drain (h : g.Proven K) (hx : x < g.nextSession) : (g.drain K x).Proven K := by
  unfold Gateway.drain
  split
  · exact h
  · exact h.drainRecv _ hx

theorem Proven.input (h : g.Proven K) (hx : x < g.nextSession) (k : KcpObject κ π) (raw : δ)
    (now : Nat) : (g.input K x k raw now).Proven K := by
  obtain ⟨ho, hr, ha⟩ := h.ok x
  unfold Gateway.input
  split
  · exact h.setSession ⟨ho, hr, ha⟩ rfl fun _ hq => hq
  · refine Proven.drain ?_ hx
    exact h.setSession ⟨ho, hr, ha⟩ rfl fun _ hq => hq

theorem Proven.onUdp {base : Nat} (h : g.Proven K) (ht : Tables base g) (raw : δ) (now : Nat) :
    (g.onUdp K raw now).Proven K := by
  unfold Gateway.onUdp
  split
  · exact h
  · rename_i x hx
    obtain ⟨c, -, hc⟩ := Option.bind_eq_some_iff.mp hx
    have hx := ((ht.sess c x).mp hc).1
    split
    · exact h.input hx _ raw now
    · split <;> first | exact h | exact h.input hx _ raw now

/-! ## Resets -/

/-- A session that is closed has nothing to show. -/
theorem Proven.freeSession (h : g.Proven K) (x : Nat) : (g.freeSession x).Proven K := by
  have hrest : (g.freeSession x).nextSession = g.nextSession ∧
      (g.freeSession x).nextPlayer = g.nextPlayer ∧
      (g.freeSession x).forwarded = g.forwarded ∧
      ∀ q, ((g.freeSession x).player q).token = (g.player q).token ∧
        ((g.freeSession x).player q).playerid = (g.player q).playerid := by
    unfold Gateway.freeSession detach
    split
    · exact ⟨rfl, rfl, rfl, fun _ => ⟨rfl, rfl⟩⟩
    · rename_i q hq
      split
      · refine ⟨rfl, rfl, rfl, fun r => ?_⟩
        by_cases hr : r = q
        · subst hr
          simp [Gateway.setSession]
        · simp [Gateway.setSession, hr]
      · exact ⟨rfl, rfl, rfl, fun _ => ⟨rfl, rfl⟩⟩
  obtain ⟨hn, hnp, hf, htoken⟩ := hrest
  have hself := session_freeSession_self (g := g) (x := x)
  refine h.change (fun y hy => session_freeSession y hy) ?_ ?_ ?_ htoken hn hnp (hf ▸ h.sent)
  · rw [hself]
    exact .outside (fun _ hq => by cases hq) (by simp) (by simp)
  · rw [hself]
    rfl
  · rw [hself]
    intro q hq
    cases hq

theorem Proven.enterReconnectWait (h : g.Proven K) (x now : Nat) :
    (g.enterReconnectWait x now).Proven K := by
  refine h.setSession (.outside (h.ok x).owner ?_ ?_) rfl fun _ hq => hq
  · simp
  · simp

theorem Proven.resume {base : Nat} (h : g.Proven K) (ht : Tables base g) {i : Nat} {y : Handler}
    (hy : g.handlers i = some y) (readyOk : Bool) : (g.resume K i y readyOk).Proven K := by
  have hend : ({ g with handlers := Function.update g.handlers i none } : Gateway κ π).Proven K :=
    ⟨h.ok, h.lt, h.sent⟩
  unfold Gateway.resume
  simp only
  split
  · exact hend.drain (ht.held i y hy)
  · have hfree := hend.freeSession y.session
    unfold Gateway.drain
    rw [session_freeSession_self]
    exact hfree

theorem Proven.checkSession (h : g.Proven K) (x now : Nat) : (g.checkSession x now).Proven K := by
  unfold Gateway.checkSession
  simp only
  split
  · exact h.freeSession x
  · split
    · exact h.enterReconnectWait x now
    · split
      · exact h.freeSession x
      · exact h

theorem Proven.timer (h : g.Proven K) (o : Pairs) (now : Nat) : (g.timer o now).Proven K := by
  refine List.foldlRecOn _ _ h fun g' hg' c _ => ?_
  split
  · exact hg'
  · exact hg'.checkSession _ now

theorem Proven.freeOld (h : g.Proven K) (p : Nat) : (g.freeOld p).Proven K := by
  unfold Gateway.freeOld
  split
  · exact h
  · split
    · exact h
    · exact h.freeSession _

/-- A new session has seen nothing yet. -/
theorem Proven.addSession (h : g.Proven K) (room scene p now : Nat) :
    (g.addSession K room scene p now).Proven K := by
  have hsession : ∀ y ≠ g.nextSession,
      (g.addSession K room scene p now).session y = g.session y := fun y hy =>
    Function.update_of_ne hy _ _
  have hnew : (g.addSession K room scene p now).session g.nextSession =
      ⟨some g.nextPlayer, g.nextConvId, none, .waitAuth, 0, now, false, 0, [], p⟩ :=
    Function.update_self ..
  have hplayer : ∀ q < g.nextPlayer, (g.addSession K room scene p now).player q = g.player q :=
    fun q hq => Function.update_of_ne hq.ne _ _
  have hnewp : (g.addSession K room scene p now).player g.nextPlayer =
      ⟨p, some g.nextSession, K.token g.draws, room, scene⟩ := Function.update_self ..
  constructor
  · intro y
    by_cases hy : y = g.nextSession
    · subst hy
      rw [hnew]
      refine .outside (fun q hq => ?_) (by simp) (by simp)
      obtain rfl := Option.some.inj hq
      rw [hnewp]
    · rw [hsession y hy]
      obtain ⟨ho, hr, ha⟩ := h.ok y
      refine ⟨fun q hq => ?_, fun hst => ?_, fun hst => ?_⟩
      · rw [hplayer q (h.lt y q hq).1]
        exact ho q hq
      · obtain ⟨q, hq, hseen⟩ := hr hst
        exact ⟨q, hq, by rw [hplayer q (h.lt y q hq).1]; exact hseen⟩
      · obtain ⟨q, hq, hseen⟩ := ha hst
        exact ⟨q, hq, by rw [hplayer q (h.lt y q hq).1]; exact hseen⟩
  · intro y q hq
    by_cases hy : y = g.nextSession
    · subst hy
      rw [hnew] at hq
      obtain rfl := Option.some.inj hq
      exact ⟨Nat.lt_succ_self _, Nat.lt_succ_self _⟩
    · rw [hsession y hy] at hq
      obtain ⟨hlt, hy⟩ := h.lt y q hq
      exact ⟨hlt.trans (Nat.lt_succ_self _), hy.trans (Nat.lt_succ_self _)⟩
  · intro f hf
    obtain ⟨hlt, hst, hid⟩ := h.sent f hf
    refine ⟨hlt.trans (Nat.lt_succ_self _), hst, ?_⟩
    rw [hsession _ hlt.ne]
    exact hid

theorem Proven.batchAlloc (ps : List Nat) (h : g.Proven K) (room scene now : Nat) :
    (g.batchAlloc K room scene now ps).Proven K := by
  induction ps generalizing g with
  | nil => exact h
  | cons p ps ih => exact ih ((h.freeOld p).addSession room scene p now)

/-! ## Runs -/

/-- After every event each session has seen what its state requires. -/
theorem step_proven {base : Nat} {g' : Gateway κ π} {e : Event δ} (h : g.Proven K)
    (ht : Tables base g) (hs : g.step K e = some g') : g'.Proven K := by
  cases e with
  | udp raw now =>
      obtain rfl := Option.some.inj hs
      exact h.onUdp ht raw now
  | resume i readyOk =>
      simp only [step] at hs
      split at hs
      · cases hs
      · rename_i y hy
        obtain rfl := Option.some.inj hs
        exact h.resume ht hy readyOk
  | timer o now =>
      obtain rfl := Option.some.inj hs
      exact h.timer o now
  | batchAlloc room scene ps now =>
      obtain rfl := Option.some.inj hs
      exact h.batchAlloc ps room scene now
  | free c =>
      obtain rfl := Option.some.inj hs
      unfold Gateway.free
      split
      · exact h
      · exact h.freeSession _

theorem start_proven (id : Nat) : (start id : Gateway κ π).Proven K where
  ok _ := .outside (by simp [start]) (by simp [start]) (by simp [start])
  lt := by simp [start]
  sent := by simp [start]

/-- So does every run. -/
theorem run_proven {base : Nat} {g' : Gateway κ π} (es : List (Event δ)) (h : g.Proven K)
    (ht : Tables base g) (hs : g.run K es = some g') : g'.Proven K := by
  induction es generalizing g with
  | nil => exact Option.some.inj hs ▸ h
  | cons e es ih =>
      obtain ⟨t, hstep, hrest⟩ := Option.bind_eq_some_iff.mp hs
      exact ih (step_proven h ht hstep) (step_tables ht hstep) hrest

/-- In every run, an active session has seen, since its last {lit}`reset_kcp`, a
{lit}`battle_auth` with the token of its player and later a {lit}`battle_ready_ack` with
the number drawn for it.  A command goes to a scene only from a session that is active at
that moment, under the id of the player it was allocated for. -/
theorem active_handshaken (K : Link κ δ π) (id : Nat) (es : List (Event δ)) (g : Gateway κ π)
    (hs : (start id).run K es = some g) :
    (∀ x, (g.session x).state = .active →
      ∃ q, (g.session x).player = some q ∧ g.players (g.player q).playerid = some q ∧
        Handshaken K (g.player q).token (g.session x).seen) ∧
    ∀ f ∈ g.forwarded, f.state = .active ∧ f.playerid = (g.session f.session).owner := by
  have h := run_proven es (start_proven id) (start_tables id) hs
  have ht := run_tables es (start_tables id) hs
  refine ⟨fun x hst => ?_, fun f hf => (h.sent f hf).2⟩
  obtain ⟨q, hq, hseen⟩ := (h.ok x).active hst
  refine ⟨q, hq, ?_, hseen⟩
  obtain ⟨q', hq', -, -, hcur⟩ := ht.owner x (h.lt x q hq).2 (by simp [hst])
  obtain rfl := Option.some.inj (hq.symm.trans hq')
  exact hcur

theorem active_handshaken_joined :
    ∃ g, (start 1).run Link.plain [.batchAlloc 5 6 [7] 0,
        .udp (1000001, .battleAuth (Link.plain.token 0)) 10,
        .udp (1000001, .battleReadyAck (Link.plain.random 1)) 20,
        .udp (1000001, .command "move" "") 30] = some g ∧
      (g.session 0).state = .active ∧ g.forwarded.length = 1 ∧
      ∃ q, (g.session 0).player = some q ∧ g.players (g.player q).playerid = some q ∧
        Handshaken Link.plain (g.player q).token (g.session 0).seen :=
  have h := active_handshaken Link.plain 1 [.batchAlloc 5 6 [7] 0,
    .udp (1000001, .battleAuth (Link.plain.token 0)) 10,
    .udp (1000001, .battleReadyAck (Link.plain.random 1)) 20,
    .udp (1000001, .command "move" "") 30] _ rfl
  ⟨_, rfl, by decide +kernel, by decide +kernel, h.1 0 (by decide +kernel)⟩

end Gateway

end BallServer.BattleGateway
