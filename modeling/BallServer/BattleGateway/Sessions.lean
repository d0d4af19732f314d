import BallServer.BattleGateway.Service
import Mathlib.Data.Nat.Basic

/-!
# Sessions and players

A session that is not closed is in the table {lit}`sessions` under its number and belongs
to the current entry of its player.  Numbers are given out in order.  A session may be
freed when it is closed already, and then nothing happens to the session its player has
by now.

Main results:

- Structure {lit}`Tables` and theorem {lit}`step_tables`: every event preserves it.
- Theorem {lit}`sessions_players`: the tables agree in every run.
-/

namespace BallServer.BattleGateway

namespace Gateway

variable {κ δ π : Type} {K : Link κ δ π} {base : Nat} {g : Gateway κ π} {x : Nat}

/-- The tables of the sessions and of the players agree. -/
structure Tables (base : Nat) (g : Gateway κ π) : Prop where
  next : g.nextConvId = base + g.nextSession
  conv : ∀ x < g.nextSession, (g.session x).conv = base + x
  sess : ∀ c x, g.sessions.get c = some x ↔
    x < g.nextSession ∧ (g.session x).state ≠ .closed ∧ (g.session x).conv = c
  owner : ∀ x < g.nextSession, (g.session x).state ≠ .closed → ∃ q, (g.session x).player = some q ∧
    q < g.nextPlayer ∧ (g.player q).session = some x ∧ g.players (g.player q).playerid = some q
  current : ∀ p q, g.players p = some q → q < g.nextPlayer ∧ (g.player q).playerid = p ∧
    ∃ x < g.nextSession, (g.player q).session = some x ∧ (g.session x).state ≠ .closed ∧
      (g.session x).player = some q
  closed : ∀ x, (g.session x).state = .closed → (g.session x).player = none
  held : ∀ h y, g.handlers h = some y → y.session < g.nextSession
  handed : ∀ c ∈ g.handed, c < g.nextConvId
  nodup : g.handed.Nodup

/-- No two sessions have one number. -/
theorem Tables.conv_inj (h : Tables base g) {y : Nat} (hx : x < g.nextSession)
    (hy : y < g.nextSession) (heq : (g.session x).conv = (g.session y).conv) : x = y := by
  rw [h.conv x hx, h.conv y hy] at heq
  omega

/-! ## Changes that the tables do not see -/

/-- A session that keeps its player, its number and whether it is closed. -/
def Similar (y y' : Session κ π) : Prop :=
  y'.player = y.player ∧ y'.conv = y.conv ∧ (y'.state = .closed ↔ y.state = .closed)

theorem Similar.refl (y : Session κ π) : Similar y y := ⟨rfl, rfl, Iff.rfl⟩

/-- What sessions become otherwise does not matter to the tables. -/
theorem Tables.similar {g' : Gateway κ π} (h : Tables base g)
    (hsim : ∀ x, Similar (g.session x) (g'.session x)) (hn : g'.nextConvId = g.nextConvId)
    (hns : g'.nextSession = g.nextSession) (hs : g'.sessions = g.sessions)
    (hp : g'.players = g.players) (hpl : g'.player = g.player) (hnp : g'.nextPlayer = g.nextPlayer)
    (hh : ∀ i y, g'.handlers i = some y → y.session < g.nextSession)
    (hd : g'.handed = g.handed) : Tables base g' := by
  constructor
  · rw [hn, hns]
    exact h.next
  · intro x hx
    rw [(hsim x).2.1]
    exact h.conv x (hns ▸ hx)
  · intro c x
    rw [hs, hns, Ne, (hsim x).2.2, (hsim x).2.1]
    exact h.sess c x
  · intro x hx hst
    rw [(hsim x).1, hpl, hnp, hp]
    exact h.owner x (hns ▸ hx) fun hc => hst ((hsim x).2.2.mpr hc)
  · intro p q hpq
    rw [hp] at hpq
    rw [hpl, hnp, hns]
    obtain ⟨hlt, hid, x, hx, hxs, hst, hpl⟩ := h.current p q hpq
    exact ⟨hlt, hid, x, hx, hxs, fun hc => hst ((hsim x).2.2.mp hc), (hsim x).1.trans hpl⟩
  · intro x hx
    rw [(hsim x).1]
    exact h.closed x ((hsim x).2.2.mp hx)
  · intro i y hy
    rw [hns]
    exact hh i y hy
  · rw [hd, hn]
    exact h.handed
  · rw [hd]
    exact h.nodup

/-- One session changes to a similar one. -/
theorem similar_setSession {y : Session κ π} (hy : Similar (g.session x) y) (z : Nat) :
    Similar (g.session z) ((g.setSession x y).session z) := by
  by_cases hz : z = x
  · subst hz
    simpa [setSession] using hy
  · simpa [setSession, hz] using Similar.refl (g.session z)

theorem Tables.setSession (h : Tables base g) {y : Session κ π} (hy : Similar (g.session x) y) :
    Tables base (g.setSession x y) :=
  h.similar (similar_setSession hy) rfl rfl rfl rfl rfl rfl h.held rfl

/-! ## Freeing a session -/

/-- Freeing a session leaves the others alone. -/
theorem session_freeSession (y : Nat) (hy : y ≠ x) :
    (g.freeSession x).session y = g.session y := by
  unfold freeSession detach
  split
  · simp [Gateway.setSession, hy]
  · split <;> simp [Gateway.setSession, hy]

theorem session_freeSession_self : (g.freeSession x).session x =
    { resetKcp (g.session x) with player := none, reconnectDeadline := 0, state := .closed } := by
  unfold freeSession
  simp [Gateway.setSession]

/-- A closed session has no player to let go of. -/
theorem detach_of_closed (h : Tables base g) (hc : (g.session x).state = .closed) :
    g.detach x = g := by
  unfold detach
  rw [h.closed x hc]

/-- The player of a session lets go of it and leaves the table. -/
theorem detach_of_open {q : Nat} (hp : (g.session x).player = some q)
    (hs : (g.player q).session = some x) :
    g.detach x = { g with
      player := Function.update g.player q { g.player q with session := none }
      players := Function.update g.players (g.player q).playerid none } := by
  unfold detach
  rw [hp]
  simp only [hs, if_true]

/-- A session that is freed leaves both tables together. -/
theorem Tables.freeSession (h : Tables base g) (hx : x < g.nextSession) :
    Tables base (g.freeSession x) := by
  have hgets : (g.freeSession x).sessions = g.sessions.erase (g.session x).conv := rfl
  have hnext : (g.freeSession x).nextSession = g.nextSession ∧
      (g.freeSession x).nextConvId = g.nextConvId ∧ (g.freeSession x).nextPlayer = g.nextPlayer ∧
      (g.freeSession x).handlers = g.handlers ∧ (g.freeSession x).handed = g.handed := by
    unfold Gateway.freeSession detach
    split
    · exact ⟨rfl, rfl, rfl, rfl, rfl⟩
    · split <;> exact ⟨rfl, rfl, rfl, rfl, rfl⟩
  obtain ⟨hns, hnc, hnp, hh, hd⟩ := hnext
  have hself := session_freeSession_self (g := g) (x := x)
  have hclosed : ((g.freeSession x).session x).state = .closed := by rw [hself]
  have hconv : ∀ y, ((g.freeSession x).session y).conv = (g.session y).conv := by
    intro y
    by_cases hy : y = x
    · subst hy
      rw [hself]
      rfl
    · rw [session_freeSession y hy]
  -- what is left of the two tables of players
  have hkeep : ∀ q, (∀ q', (g.session x).player = some q' → q ≠ q') →
      (g.freeSession x).player q = g.player q := by
    intro q hq
    unfold Gateway.freeSession detach
    split
    · rfl
    · rename_i q' hq'
      split
      · exact Function.update_of_ne (hq q' hq') _ _
      · rfl
  have hid : ∀ q, ((g.freeSession x).player q).playerid = (g.player q).playerid := by
    intro q
    by_cases hq : ∀ q', (g.session x).player = some q' → q ≠ q'
    · rw [hkeep q hq]
    · push Not at hq
      obtain ⟨q', hq', rfl⟩ := hq
      unfold Gateway.freeSession detach
      rw [hq']
      simp only
      split
      · simp [Gateway.setSession]
      · rfl
  have hplayers : ∀ p q, g.players p = some q → (g.session x).player ≠ some q →
      (g.freeSession x).players p = some q := by
    intro p q hpq hne
    unfold Gateway.freeSession detach
    split
    · exact hpq
    · rename_i q' hq'
      split
      · rename_i hs
        have hp : p ≠ (g.player q').playerid := by
          rintro rfl
          have hst : (g.session x).state ≠ .closed := fun hc => by
            rw [h.closed x hc] at hq'
            cases hq'
          obtain ⟨q'', h₁, -, -, h₂⟩ := h.owner x hx hst
          obtain rfl := Option.some.inj (hq'.symm.trans h₁)
          rw [hpq] at h₂
          exact hne (Option.some.inj h₂ ▸ hq')
        simp [Gateway.setSession, hp, hpq]
      · exact hpq
  have hold : ∀ p q, (g.freeSession x).players p = some q →
      g.players p = some q ∧ (g.session x).player ≠ some q := by
    intro p q hpq
    by_cases hst : (g.session x).state = .closed
    · refine ⟨?_, by rw [h.closed x hst]; simp⟩
      have : (g.freeSession x).players = g.players := by
        simp [Gateway.freeSession, detach_of_closed h hst, Gateway.setSession]
      exact this ▸ hpq
    · obtain ⟨q', hq', -, hs, hcur⟩ := h.owner x hx hst
      have hpl : (g.freeSession x).players =
          Function.update g.players (g.player q').playerid none := by
        simp [Gateway.freeSession, detach_of_open hq' hs, Gateway.setSession]
      rw [hpl] at hpq
      by_cases hp : p = (g.player q').playerid
      · subst hp
        simp at hpq
      · rw [Function.update_of_ne hp] at hpq
        refine ⟨hpq, fun heq => hp ?_⟩
        obtain rfl := Option.some.inj (hq'.symm.trans heq)
        exact (h.current p q' hpq).2.1.symm
  constructor
  · rw [hnc, hns]
    exact h.next
  · intro y hy
    rw [hconv]
    exact h.conv y (hns ▸ hy)
  · intro c y
    rw [hgets, Table.get_erase, hns, hconv]
    by_cases hy : y = x
    · subst hy
      constructor
      · intro hc
        split at hc
        · cases hc
        · exact absurd ((h.sess c y).mp hc).2.2.symm ‹_›
      · exact fun hc => absurd hclosed hc.2.1
    · rw [session_freeSession y hy]
      constructor
      · intro hc
        split at hc
        · cases hc
        · exact (h.sess c y).mp hc
      · intro hc
        rw [if_neg, (h.sess c y).mpr hc]
        rintro rfl
        exact hy (h.conv_inj hc.1 hx hc.2.2)
  · intro y hy hst
    have hyx : y ≠ x := fun heq => hst (heq ▸ hclosed)
    rw [session_freeSession y hyx] at hst ⊢
    obtain ⟨q, hq, hlt, hs, hcur⟩ := h.owner y (hns ▸ hy) hst
    have hne : (g.session x).player ≠ some q := by
      intro hxq
      have hstx : (g.session x).state ≠ .closed := fun hc => by
        rw [h.closed x hc] at hxq
        cases hxq
      obtain ⟨q', hq', -, hs', -⟩ := h.owner x hx hstx
      obtain rfl := Option.some.inj (hxq.symm.trans hq')
      exact hyx (Option.some.inj (hs.symm.trans hs'))
    have hpq : (g.freeSession x).player q = g.player q :=
      hkeep q fun q' hq' heq => hne (heq ▸ hq')
    refine ⟨q, hq, hnp ▸ hlt, hpq ▸ hs, ?_⟩
    rw [hpq]
    exact hplayers _ q hcur hne
  · intro p q hpq
    obtain ⟨hpq, hne⟩ := hold p q hpq
    obtain ⟨hlt, hid', y, hy, hs, hst, hyq⟩ := h.current p q hpq
    have hyx : y ≠ x := fun heq => hne (heq ▸ hyq)
    have hkq : (g.freeSession x).player q = g.player q :=
      hkeep q fun q' hq' heq => hne (heq ▸ hq')
    refine ⟨hnp ▸ hlt, hkq ▸ hid', y, hns ▸ hy, hkq ▸ hs, ?_⟩
    rw [session_freeSession y hyx]
    exact ⟨hst, hyq⟩
  · intro y hc
    by_cases hy : y = x
    · subst hy
      rw [hself]
    · rw [session_freeSession y hy] at hc ⊢
      exact h.closed y hc
  · intro i y hy
    rw [hns]
    exact h.held i y (hh ▸ hy)
  · rw [hd, hnc]
    exact h.handed
  · rw [hd]
    exact h.nodup

/-! ## Receiving -/

theorem Tables.take (h : Tables base g) (k : KcpObject κ π) (rest : List π) (p : π)
    (drawn : Option Nat) : Tables base (g.take x k rest p drawn) :=
  h.setSession ⟨rfl, rfl, Iff.rfl⟩

theorem Tables.battleAuth (h : Tables base g) (hu : Unauthenticated (g.session x)) :
    Tables base (g.battleAuth K x) := by
  refine h.similar (similar_setSession ⟨rfl, rfl, ?_⟩) rfl rfl rfl rfl rfl rfl h.held rfl
  rcases hu with hu | hu <;> simp [hu]

theorem Tables.battleReadyAck (h : Tables base g) (hx : x < g.nextSession)
    (hst : (g.session x).state = .waitReady) (q : Nat) : Tables base (g.battleReadyAck x q) := by
  refine h.similar (similar_setSession ⟨rfl, rfl, by simp [hst]⟩) rfl rfl rfl rfl rfl rfl ?_ rfl
  intro i y hy
  by_cases hi : i = g.nextHandler
  · subst hi
    simp only [Gateway.battleReadyAck, Function.update_self, Option.some.injEq] at hy
    subst hy
    exact hx
  · exact h.held i y (by simpa [Gateway.battleReadyAck, Gateway.setSession, hi] using hy)

/-- Each packet that is read changes the state of its session only. -/
theorem Tables.drainRecv (n : Nat) (h : Tables base g) (hx : x < g.nextSession) :
    Tables base (g.drainRecv K x n) := by
  induction n generalizing g with
  | zero => exact h
  | succ n ih =>
      unfold Gateway.drainRecv
      split
      · exact h
      · rename_i k hk
        split
        · exact h
        · rename_i p rest hr
          have htake : ∀ drawn, Tables base (g.take x k rest p drawn) := h.take k rest p
          have hself : ∀ drawn, (g.take x k rest p drawn).session x = { g.session x with
              kcp := some { k with ready := rest }
              seen := (g.session x).seen ++ [(p, drawn)] } := fun _ => Function.update_self ..
          split
          · exact ih (htake none) hx
          · split
            · exact htake none
            · split
              · rename_i hu
                refine ih ((htake _).battleAuth ?_) hx
                rw [hself]
                exact hu.2
              · exact ih (htake none) hx
          · split
            · rename_i hst
              split
              · exact ih (htake none) hx
              · refine (htake none).battleReadyAck hx ?_ _
                rw [hself]
                exact hst.1
            · exact ih (htake none) hx
          · split
            · split
              · exact htake none
              · refine ih (Tables.similar (htake none) (fun _ => .refl _) rfl rfl rfl rfl rfl rfl
                  (htake none).held rfl) hx
            · exact ih (htake none) hx

theorem Tables.drain (h : Tables base g) (hx : x < g.nextSession) : Tables base (g.drain K x) := by
  unfold Gateway.drain
  split
  · exact h
  · exact h.drainRecv _ hx

theorem Tables.input (h : Tables base g) (hx : x < g.nextSession) (k : KcpObject κ π) (raw : δ)
    (now : Nat) : Tables base (g.input K x k raw now) := by
  unfold Gateway.input
  split
  · exact h.setSession ⟨rfl, rfl, Iff.rfl⟩
  · refine Tables.drain ?_ hx
    exact h.setSession ⟨rfl, rfl, Iff.rfl⟩

theorem Tables.onUdp (h : Tables base g) (raw : δ) (now : Nat) :
    Tables base (g.onUdp K raw now) := by
  unfold Gateway.onUdp
  split
  · exact h
  · rename_i x hx
    obtain ⟨c, -, hc⟩ := Option.bind_eq_some_iff.mp hx
    have hx := ((h.sess c x).mp hc).1
    split
    · exact h.input hx _ raw now
    · split <;> first | exact h | exact h.input hx _ raw now

/-- A handler goes on with a session that may be closed by now. -/
theorem Tables.resume (h : Tables base g) {i : Nat} {y : Handler} (hy : g.handlers i = some y)
    (readyOk : Bool) : Tables base (g.resume K i y readyOk) := by
  have hx := h.held i y hy
  have hend : Tables base { g with handlers := Function.update g.handlers i none } := by
    refine h.similar (fun _ => .refl _) rfl rfl rfl rfl rfl rfl ?_ rfl
    intro j z hz
    by_cases hj : j = i
    · subst hj
      simp at hz
    · exact h.held j z (by simpa [hj] using hz)
  unfold Gateway.resume
  simp only
  split
  · exact hend.drain hx
  · have hfree := hend.freeSession hx
    unfold Gateway.drain
    rw [session_freeSession_self]
    exact hfree

/-! ## The timer and the calls -/

theorem Tables.checkSession (h : Tables base g) (hx : x < g.nextSession)
    (now : Nat) : Tables base (g.checkSession x now) := by
  unfold Gateway.checkSession
  simp only
  split
  · exact h.freeSession hx
  · split
    · rename_i hst
      exact h.setSession ⟨rfl, rfl, by simp [hst.1]⟩
    · split
      · exact h.freeSession hx
      · exact h

theorem Tables.timer (h : Tables base g) (o : Pairs) (now : Nat) : Tables base (g.timer o now) := by
  refine List.foldlRecOn _ _ h fun g' hg' c _ => ?_
  split
  · exact hg'
  · rename_i x hx
    exact hg'.checkSession ((hg'.sess c x).mp hx).1 now

/-- The old session of a player goes before a new one comes. -/
theorem Tables.freeOld (h : Tables base g) (p : Nat) : Tables base (g.freeOld p) := by
  unfold Gateway.freeOld
  split
  · exact h
  · rename_i q hq
    split
    · exact h
    · rename_i x hx
      obtain ⟨-, -, y, hy, hs, -⟩ := h.current p q hq
      obtain rfl := Option.some.inj (hx.symm.trans hs)
      exact h.freeSession hy

/-- Afterwards the player has no entry. -/
theorem players_freeOld (h : Tables base g) (p : Nat) : (g.freeOld p).players p = none := by
  unfold Gateway.freeOld
  split
  · assumption
  · rename_i q hq
    obtain ⟨-, hid, x, -, hs, -, hpl⟩ := h.current p q hq
    rw [hs]
    simp [Gateway.freeSession, detach_of_open hpl hs, Gateway.setSession, hid]

/-- A new session has a number that none had before. -/
theorem Tables.addSession (h : Tables base g) {p : Nat} (hp : g.players p = none)
    (room scene now : Nat) : Tables base (g.addSession K room scene p now) := by
  have hsession : ∀ y ≠ g.nextSession,
      (g.addSession K room scene p now).session y = g.session y := fun y hy =>
    Function.update_of_ne hy _ _
  have hnew : (g.addSession K room scene p now).session g.nextSession =
      ⟨some g.nextPlayer, g.nextConvId, none, .waitAuth, 0, now, false, 0, [], p⟩ :=
    Function.update_self ..
  have hplayer : ∀ q ≠ g.nextPlayer, (g.addSession K room scene p now).player q = g.player q :=
    fun q hq => Function.update_of_ne hq _ _
  have hnewp : (g.addSession K room scene p now).player g.nextPlayer =
      ⟨p, some g.nextSession, K.token g.draws, room, scene⟩ := Function.update_self ..
  have hlt : ∀ y, y < g.nextSession + 1 → y < g.nextSession ∨ y = g.nextSession := fun y hy =>
    Nat.lt_succ_iff_lt_or_eq.mp hy
  have hget : ∀ c, (g.addSession K room scene p now).sessions.get c =
      if c = g.nextConvId then some g.nextSession else g.sessions.get c := fun c =>
    Table.get_set ..
  constructor
  · simp only [Gateway.addSession, h.next]
    omega
  · intro y hy
    rcases hlt y hy with hy | rfl
    · rw [hsession y hy.ne]
      exact h.conv y hy
    · rw [hnew]
      exact h.next
  · intro c y
    rw [hget]
    by_cases hy : y = g.nextSession
    · subst hy
      rw [hnew]
      constructor
      · intro hc
        split at hc
        · exact ⟨Nat.lt_succ_self _, by simp, by simp [*]⟩
        · exact absurd ((h.sess c _).mp hc).1 (lt_irrefl _)
      · rintro ⟨-, -, rfl⟩
        simp
    · rw [hsession y hy]
      constructor
      · intro hc
        split at hc
        · exact absurd (Option.some.inj hc).symm hy
        · obtain ⟨hlt', hst, hcv⟩ := (h.sess c y).mp hc
          exact ⟨hlt'.trans (Nat.lt_succ_self _), hst, hcv⟩
      · rintro ⟨hlt', hst, hcv⟩
        have hlt' : y < g.nextSession := (hlt y hlt').resolve_right hy
        rw [if_neg, (h.sess c y).mpr ⟨hlt', hst, hcv⟩]
        rintro rfl
        rw [h.conv y hlt', h.next] at hcv
        omega
  · intro y hy hst
    rcases hlt y hy with hy | rfl
    · rw [hsession y hy.ne] at hst ⊢
      obtain ⟨q, hq, hql, hs, hcur⟩ := h.owner y hy hst
      rw [show (g.addSession K room scene p now).nextPlayer = g.nextPlayer + 1 from rfl]
      refine ⟨q, hq, hql.trans (Nat.lt_succ_self _), ?_, ?_⟩
      · rw [hplayer q hql.ne]
        exact hs
      · rw [hplayer q hql.ne]
        have hne : (g.player q).playerid ≠ p := by
          rintro rfl
          rw [hp] at hcur
          cases hcur
        simpa [Gateway.addSession, hne] using hcur
    · rw [hnew]
      refine ⟨g.nextPlayer, rfl, Nat.lt_succ_self _, ?_, ?_⟩
      · rw [hnewp]
      · rw [hnewp]
        exact Function.update_self ..
  · intro p' q hpq
    rw [show (g.addSession K room scene p now).nextPlayer = g.nextPlayer + 1 from rfl,
      show (g.addSession K room scene p now).nextSession = g.nextSession + 1 from rfl]
    by_cases hpp : p' = p
    · subst hpp
      obtain rfl : g.nextPlayer = q := by simpa [Gateway.addSession] using hpq
      refine ⟨Nat.lt_succ_self _, ?_, g.nextSession, Nat.lt_succ_self _, ?_, ?_, ?_⟩
      · rw [hnewp]
      · rw [hnewp]
      · rw [hnew]
        simp
      · rw [hnew]
    · have hpq : g.players p' = some q := by simpa [Gateway.addSession, hpp] using hpq
      obtain ⟨hql, hid, y, hy, hs, hst, hyq⟩ := h.current p' q hpq
      refine ⟨hql.trans (Nat.lt_succ_self _), ?_, y, hy.trans (Nat.lt_succ_self _), ?_⟩
      · rw [hplayer q hql.ne]
        exact hid
      · rw [hplayer q hql.ne, hsession y hy.ne]
        exact ⟨hs, hst, hyq⟩
  · intro y hc
    by_cases hy : y = g.nextSession
    · subst hy
      rw [hnew] at hc
      cases hc
    · rw [hsession y hy] at hc ⊢
      exact h.closed y hc
  · exact fun i y hy => (h.held i y hy).trans (Nat.lt_succ_self _)
  · intro c hc
    rcases List.mem_cons.mp hc with rfl | hc
    · exact Nat.lt_succ_self _
    · exact (h.handed c hc).trans (Nat.lt_succ_self _)
  · refine List.nodup_cons.mpr ⟨fun hc => ?_, h.nodup⟩
    exact absurd (h.handed _ hc) (lt_irrefl _)

theorem Tables.batchAlloc (ps : List Nat) (h : Tables base g) (room scene now : Nat) :
    Tables base (g.batchAlloc K room scene now ps) := by
  induction ps generalizing g with
  | nil => exact h
  | cons p ps ih => exact ih ((h.freeOld p).addSession (players_freeOld h p) room scene now)

theorem Tables.free (h : Tables base g) (c : Nat) : Tables base (g.free c) := by
  unfold Gateway.free
  split
  · exact h
  · rename_i x hx
    exact h.freeSession ((h.sess c x).mp hx).1

/-- Every event keeps the tables in step. -/
theorem step_tables {g' : Gateway κ π} {e : Event δ} (h : Tables base g)
    (hs : g.step K e = some g') : Tables base g' := by
  cases e with
  | udp raw now =>
      obtain rfl := Option.some.inj hs
      exact h.onUdp raw now
  | resume i readyOk =>
      simp only [step] at hs
      split at hs
      · cases hs
      · rename_i y hy
        obtain rfl := Option.some.inj hs
        exact h.resume hy readyOk
  | timer o now =>
      obtain rfl := Option.some.inj hs
      exact h.timer o now
  | batchAlloc room scene ps now =>
      obtain rfl := Option.some.inj hs
      exact h.batchAlloc ps room scene now
  | free c =>
      obtain rfl := Option.some.inj hs
      exact h.free c

theorem start_tables (id : Nat) : Tables (id * 1000000 + 1) (start id : Gateway κ π) := by
  constructor <;> simp [start]

/-- So does every run. -/
theorem run_tables {g' : Gateway κ π} (es : List (Event δ)) (h : Tables base g)
    (hs : g.run K es = some g') : Tables base g' := by
  induction es generalizing g with
  | nil => exact Option.some.inj hs ▸ h
  | cons e es ih =>
      obtain ⟨t, ht, hrest⟩ := Option.bind_eq_some_iff.mp hs
      exact ih (step_tables h ht) hrest

/-- The session of a player, as {lit}`players[playerid].session`. -/
def sessionOf (g : Gateway κ π) (p : Nat) : Option Nat :=
  (g.players p).bind fun q => (g.player q).session

/-- {lit}`session` belongs to the table entry {lit}`players[playerid]`. -/
def OwnedBy (g : Gateway κ π) (x p : Nat) : Prop :=
  ∃ q, g.players p = some q ∧ (g.session x).player = some q

/-- The session is in the table {lit}`sessions`. -/
def Listed (g : Gateway κ π) (x : Nat) : Prop :=
  g.sessions.get (g.session x).conv = some x

/-- A player's session is the listed one that belongs to the player. -/
theorem Tables.sessionOf_iff (h : Tables base g) (p : Nat) :
    g.sessionOf p = some x ↔ g.Listed x ∧ g.OwnedBy x p := by
  constructor
  · intro hp
    obtain ⟨q, hq, hs⟩ := Option.bind_eq_some_iff.mp hp
    obtain ⟨-, -, y, hy, hs', hst, hpl⟩ := h.current p q hq
    obtain rfl := Option.some.inj (hs.symm.trans hs')
    exact ⟨(h.sess _ x).mpr ⟨hy, hst, rfl⟩, q, hq, hpl⟩
  · rintro ⟨hl, q, hq, hpl⟩
    obtain ⟨hlt, hst, -⟩ := (h.sess _ x).mp hl
    obtain ⟨q', hq', -, hs, -⟩ := h.owner x hlt hst
    obtain rfl := Option.some.inj (hpl.symm.trans hq')
    exact Option.bind_eq_some_iff.mpr ⟨q, hq, hs⟩

/-- Freeing a session leaves every other one, and its player's entry, as it is. -/
theorem Tables.freeSession_other (h : Tables base g) (hx : x < g.nextSession) {y : Nat}
    (hy : y ≠ x) (hl : g.Listed y) :
    (g.freeSession x).Listed y ∧ (g.freeSession x).session y = g.session y ∧
      ∀ p, g.sessionOf p = some y → (g.freeSession x).sessionOf p = some y := by
  have h' := h.freeSession hx
  have hsame := session_freeSession (g := g) y hy
  have hns : (g.freeSession x).nextSession = g.nextSession := by
    unfold Gateway.freeSession detach
    split
    · rfl
    · split <;> rfl
  obtain ⟨hlt, hst, -⟩ := (h.sess _ y).mp hl
  have hlt' : y < (g.freeSession x).nextSession := hns ▸ hlt
  have hl' : (g.freeSession x).Listed y := (h'.sess _ y).mpr ⟨hlt', hsame ▸ hst, rfl⟩
  refine ⟨hl', hsame, fun p hp => (h'.sessionOf_iff p).mpr ⟨hl', ?_⟩⟩
  obtain ⟨q, hq, hpl⟩ := ((h.sessionOf_iff p).mp hp).2
  obtain ⟨q', hq', -, -, hcur⟩ := h'.owner y hlt' (hsame ▸ hst)
  have hqq : q' = q := Option.some.inj (hq'.symm.trans (hsame ▸ hpl))
  subst hqq
  have hid : ((g.freeSession x).player q').playerid = p := by
    obtain ⟨-, hid, -⟩ := h.current p q' hq
    rw [← hid]
    unfold Gateway.freeSession detach
    split
    · rfl
    · rename_i r hr
      split
      · by_cases hqr : q' = r
        · subst hqr
          simp [Gateway.setSession]
        · simp [Gateway.setSession, hqr]
      · rfl
  exact ⟨q', hid ▸ hcur, hq'⟩

/-- In every run the tables {lit}`sessions` and {lit}`players` agree, no number is handed
out twice, and freeing a session, which may be closed already, leaves all others alone. -/
theorem sessions_players (K : Link κ δ π) (id : Nat) (es : List (Event δ)) (g : Gateway κ π)
    (hs : (start id).run K es = some g) :
    (∀ c x, g.sessions.get c = some x ↔
      x < g.nextSession ∧ (g.session x).state ≠ .closed ∧ (g.session x).conv = c) ∧
    (∀ p x, g.sessionOf p = some x ↔ g.Listed x ∧ g.OwnedBy x p) ∧
    g.handed.Nodup ∧
    ∀ x < g.nextSession, ∀ y ≠ x, g.Listed y →
      (g.freeSession x).Listed y ∧ (g.freeSession x).session y = g.session y ∧
        ∀ p, g.sessionOf p = some y → (g.freeSession x).sessionOf p = some y := by
  have h := run_tables es (start_tables id) hs
  exact ⟨h.sess, fun p x => h.sessionOf_iff p, h.nodup, fun x hx y hy hl =>
    h.freeSession_other hx hy hl⟩

theorem sessions_players_again :
    ∃ g, (start 1).run Link.plain [.batchAlloc 5 6 [7, 7] 0, .free 1000001] = some g ∧
      g.handed.Nodup ∧ (g.sessionOf 7 = some 1 ↔ g.Listed 1 ∧ g.OwnedBy 1 7) :=
  have h := sessions_players Link.plain 1 [.batchAlloc 5 6 [7, 7] 0, .free 1000001] _ rfl
  ⟨_, rfl, h.2.2.1, h.2.1 7 1⟩

end Gateway

end BallServer.BattleGateway
