import BallServer.BattleGateway.Sessions
import Mathlib.Data.List.Range

/-!
# Incarnations of a battle link

A KCP object numbers what it sends from 0 and hands out what it has received in order.
Objects of one conversation have nothing else to tell them apart: when the client replaces
its object, the object of the gateway takes the messages of the new one for those of the
old one.  The client's first messages then count as received, and the later ones continue
the old sequence.

Main results:

- Structure {lit}`Rcv` and definition {lit}`Rcv.receive`: the receiving side of KCP.
- Theorem {lit}`one_incarnation`: when every datagram that a KCP object takes comes from
  the client object that it has heard before, all that is dispatched between two resets
  comes from one client object, in its order.
- Theorem {lit}`incarnations_mix`: otherwise it need not.
-/

namespace BallServer.BattleGateway

/-- The client objects: the conversation each belongs to and the messages it sends. -/
structure Client where
  conv : Nat → Nat
  message : Nat → Nat → Message

/-- A message by the object that sent it and its number. -/
structure Packet where
  origin : Nat
  sn : Nat
deriving DecidableEq, Repr

/-- The receive window. -/
def window : Nat := 128

/-- The receiving side of a KCP object: the next number, and the messages that have
arrived ahead of it. -/
structure Rcv where
  next : Nat
  buf : List Packet
deriving DecidableEq, Repr

namespace Rcv

/-- The number is in the window and has not arrived yet. -/
def Takes (k : Rcv) (sn : Nat) : Prop :=
  k.next ≤ sn ∧ sn < k.next + window ∧ ∀ p ∈ k.buf, p.sn ≠ sn

instance (k : Rcv) (sn : Nat) : Decidable (k.Takes sn) :=
  inferInstanceAs (Decidable (_ ∧ _ ∧ _))

/-- Hand out messages as long as the next one is there. -/
def flush : Nat → Rcv → Rcv × List Packet
  | 0, k => (k, [])
  | n + 1, k =>
      match k.buf.find? fun p => p.sn = k.next with
      | none => (k, [])
      | some p =>
          let r := flush n ⟨k.next + 1, k.buf.filter fun p => p.sn ≠ k.next⟩
          (r.1, p :: r.2)

/-- A datagram arrives. -/
def receive (k : Rcv) (p : Packet) : Rcv × List Packet :=
  if k.Takes p.sn then flush (k.buf.length + 1) { k with buf := p :: k.buf }
  else (k, [])

/-- What is handed out continues the numbering, and comes from the buffer. -/
theorem flush_spec (n : Nat) (k : Rcv) :
    (flush n k).2.map Packet.sn = List.range' k.next (flush n k).2.length ∧
      (flush n k).1.next = k.next + (flush n k).2.length ∧
      (∀ p ∈ (flush n k).2, p ∈ k.buf) ∧ ∀ p ∈ (flush n k).1.buf, p ∈ k.buf := by
  induction n generalizing k with
  | zero => simp [flush]
  | succ n ih =>
      unfold flush
      split
      · simp
      · rename_i p hp
        obtain ⟨hsn, hnext, hmsgs, hbuf⟩ := ih ⟨k.next + 1, k.buf.filter fun p => p.sn ≠ k.next⟩
        have hfirst : p.sn = k.next := by simpa using List.find?_some hp
        refine ⟨?_, ?_, ?_, ?_⟩
        · simp only [List.map_cons, List.length_cons, List.range'_succ, hfirst, hsn]
        · simp only [List.length_cons, hnext]
          omega
        · intro q hq
          rcases List.mem_cons.mp hq with rfl | hq
          · exact List.mem_of_find?_eq_some hp
          · exact (List.mem_filter.mp (hmsgs q hq)).1
        · exact fun q hq => (List.mem_filter.mp (hbuf q hq)).1

theorem receive_spec (k : Rcv) (p : Packet) :
    (k.receive p).2.map Packet.sn = List.range' k.next (k.receive p).2.length ∧
      (k.receive p).1.next = k.next + (k.receive p).2.length ∧
      ∀ q, q ∈ (k.receive p).2 ∨ q ∈ (k.receive p).1.buf → q ∈ k.buf ∨ q = p ∧ k.Takes p.sn := by
  unfold receive
  split
  · rename_i ht
    obtain ⟨hsn, hnext, hmsgs, hbuf⟩ := flush_spec (k.buf.length + 1) { k with buf := p :: k.buf }
    refine ⟨hsn, hnext, fun q hq => ?_⟩
    have hq : q ∈ p :: k.buf := hq.elim (hmsgs q) (hbuf q)
    rcases List.mem_cons.mp hq with rfl | hq
    · exact .inr ⟨rfl, ht⟩
    · exact .inl hq
  · refine ⟨rfl, rfl, fun q hq => ?_⟩
    rcases hq with hq | hq
    · cases hq
    · exact .inl hq

end Rcv

/-- KCP between the gateway and these clients. -/
def Client.link (c : Client) (random : Nat → Nat) (token : Nat → String) :
    Link Rcv Packet Packet where
  getconv p := some (c.conv p.origin)
  create _ := ⟨0, []⟩
  input k p := some (k.receive p)
  unpack p := some (c.message p.origin p.sn)
  random := random
  token := token

/-- What a session has heard: dispatched, complete, and ahead of its turn. -/
def heard (y : Session Rcv Packet) : List Packet :=
  y.seen.map Prod.fst ++
    match y.kcp with
    | none => []
    | some k => k.ready ++ k.kcp.buf

/-- The KCP object of the session, or the one that would be created. -/
def rcvOf (y : Session Rcv Packet) : Rcv :=
  match y.kcp with
  | none => ⟨0, []⟩
  | some k => k.kcp

/-- A datagram that a session takes comes from the client object it has heard. -/
def SameObject (c : Client) (g : Gateway Rcv Packet) : Event Packet → Prop
  | .udp p _ => ∀ x, g.sessions.get (c.conv p.origin) = some x →
      (rcvOf (g.session x)).Takes p.sn → ∀ q ∈ heard (g.session x), q.origin = p.origin
  | _ => True

/-- All that a session has heard comes from one object, and what it has dispatched and
what is complete is the beginning of what that object has sent. -/
structure OneObject (y : Session Rcv Packet) : Prop where
  reset : y.kcp = none → y.seen = []
  one : ∃ o, ∀ q ∈ heard y, q.origin = o
  order : ∀ k, y.kcp = some k →
    (y.seen.map fun e => e.1.sn) ++ k.ready.map Packet.sn = List.range k.kcp.next

theorem OneObject.congr {y y' : Session Rcv Packet} (h : OneObject y) (hk : y'.kcp = y.kcp)
    (hs : y'.seen = y.seen) : OneObject y' := by
  obtain ⟨hr, ho, hord⟩ := h
  refine ⟨fun h => ?_, ?_, fun k h => ?_⟩
  · rw [hs]
    exact hr (hk ▸ h)
  · simpa only [heard, hk, hs] using ho
  · rw [hs]
    exact hord k (hk ▸ h)

/-- After a reset. -/
theorem oneObject_reset {y : Session Rcv Packet} (hk : y.kcp = none) (hs : y.seen = []) :
    OneObject y :=
  ⟨fun _ => hs, ⟨0, by simp [heard, hk, hs]⟩, fun k h => by simp [hk] at h⟩

theorem OneObject.take {y y' : Session Rcv Packet} (h : OneObject y) {k : KcpObject Rcv Packet}
    {p : Packet} {rest : List Packet} {drawn : Option Nat} (hk : y.kcp = some k)
    (hr : k.ready = p :: rest) (hk' : y'.kcp = some { k with ready := rest })
    (hs' : y'.seen = y.seen ++ [(p, drawn)]) : OneObject y' := by
  refine ⟨fun h => by simp [hk'] at h, ?_, fun k' h' => ?_⟩
  · obtain ⟨o, ho⟩ := h.one
    refine ⟨o, fun q hq => ho q ?_⟩
    simpa [heard, hk, hk', hs', hr] using hq
  · obtain rfl := Option.some.inj (h'.symm.trans hk')
    have := h.order k hk
    simpa [hs', hr] using this

/-- Datagrams of the object that was heard before keep this. -/
theorem OneObject.receive {y y' : Session Rcv Packet} (h : OneObject y) {r : List Packet}
    (hready : r = match y.kcp with | none => [] | some k => k.ready) (p : Packet)
    (hp : (rcvOf y).Takes p.sn → ∀ q ∈ heard y, q.origin = p.origin)
    (hk' : y'.kcp = some ⟨((rcvOf y).receive p).1, r ++ ((rcvOf y).receive p).2⟩)
    (hs' : y'.seen = y.seen) : OneObject y' := by
  obtain ⟨hsn, hnext, hfrom⟩ := (rcvOf y).receive_spec p
  refine ⟨fun h => by simp [hk'] at h, ?_, fun k h' => ?_⟩
  · have hheard : ∀ q ∈ heard y', q ∈ heard y ∨ q = p ∧ (rcvOf y).Takes p.sn := by
      intro q hq
      simp only [heard, hk', hs', List.mem_append] at hq
      have hbuf : q ∈ (rcvOf y).buf → q ∈ heard y := by
        intro hq
        cases hk : y.kcp with
        | none => simp [rcvOf, hk] at hq
        | some k =>
            simp only [rcvOf, hk] at hq
            simp [heard, hk, hq]
      rcases hq with hq | (hq | hq) | hq
      · exact .inl (List.mem_append_left _ hq)
      · refine .inl ?_
        cases hk : y.kcp with
        | none => simp [hready, hk] at hq
        | some k =>
            simp only [hready, hk] at hq
            simp [heard, hk, hq]
      · exact (hfrom q (.inl hq)).imp_left hbuf
      · exact (hfrom q (.inr hq)).imp_left hbuf
    by_cases ht : (rcvOf y).Takes p.sn
    · refine ⟨p.origin, fun q hq => ?_⟩
      rcases hheard q hq with hq | ⟨rfl, -⟩
      · exact hp ht q hq
      · rfl
    · obtain ⟨o, ho⟩ := h.one
      exact ⟨o, fun q hq => ho q ((hheard q hq).resolve_right fun h => ht h.2)⟩
  · obtain rfl := Option.some.inj (h'.symm.trans hk')
    have hold : (y.seen.map fun e => e.1.sn) ++ r.map Packet.sn =
        List.range (rcvOf y).next := by
      cases hk : y.kcp with
      | none => simp [hready, rcvOf, hk, h.reset hk]
      | some k =>
          simp only [hready, hk, rcvOf]
          exact h.order k hk
    rw [hs', List.map_append, ← List.append_assoc, hold, hsn, hnext, List.range_eq_range',
      List.range_eq_range', ← List.range'_append_1]
    simp

namespace Gateway

variable {c : Client} {random : Nat → Nat} {token : Nat → String} {g : Gateway Rcv Packet} {x : Nat}

/-- Every session has heard one object. -/
def Unmixed (g : Gateway Rcv Packet) : Prop := ∀ x, OneObject (g.session x)

theorem Unmixed.setSession (h : g.Unmixed) {y : Session Rcv Packet} (hy : OneObject y) :
    (g.setSession x y).Unmixed := by
  intro z
  by_cases hz : z = x
  · subst hz
    simpa [Gateway.setSession] using hy
  · simpa [Gateway.setSession, hz] using h z

theorem Unmixed.drainRecv (n : Nat) (h : g.Unmixed) :
    (g.drainRecv (c.link random token) x n).Unmixed := by
  induction n generalizing g with
  | zero => exact h
  | succ n ih =>
      unfold Gateway.drainRecv
      split
      · exact h
      · rename_i k hk
        split
        · exact h
        · rename_i p rest hr
          have htake : ∀ drawn, (g.take x k rest p drawn).Unmixed := fun drawn =>
            h.setSession ((h x).take hk hr rfl rfl)
          split
          · exact ih (htake none)
          · split
            · exact htake none
            · split
              · exact ih ((htake _).setSession ((htake _ x).congr rfl rfl))
              · exact ih (htake none)
          · split
            · split
              · exact ih (htake none)
              · exact (htake none).setSession ((htake none x).congr rfl rfl)
            · exact ih (htake none)
          · split
            · split
              · exact htake none
              · exact ih (htake none)
            · exact ih (htake none)

theorem Unmixed.drain (h : g.Unmixed) : (g.drain (c.link random token) x).Unmixed := by
  unfold Gateway.drain
  split
  · exact h
  · exact h.drainRecv _

theorem Unmixed.onUdp (h : g.Unmixed) {p : Packet} {now : Nat}
    (hp : SameObject c g (.udp p now)) : (g.onUdp (c.link random token) p now).Unmixed := by
  unfold Gateway.onUdp
  split
  · exact h
  · rename_i x hx
    have hp := hp x hx
    split
    · rename_i k hk
      refine Unmixed.drain (h.setSession ((h x).receive (r := k.ready) (p := p) ?_ hp ?_ rfl))
      · rw [hk]
      · simp only [rcvOf, hk]
        rfl
    · rename_i hk
      have hnew : (g.input (c.link random token) x
          ⟨(c.link random token).create (g.session x).conv, []⟩ p now).Unmixed := by
        refine Unmixed.drain (h.setSession ((h x).receive (r := []) (p := p) ?_ hp ?_ rfl))
        · rw [hk]
        · simp only [rcvOf, hk]
          rfl
      split <;> first | exact h | exact hnew

theorem Unmixed.freeSession (h : g.Unmixed) (x : Nat) : (g.freeSession x).Unmixed := by
  intro y
  by_cases hy : y = x
  · subst hy
    rw [session_freeSession_self]
    exact oneObject_reset rfl rfl
  · rw [session_freeSession y hy]
    exact h y

theorem Unmixed.checkSession (h : g.Unmixed) (x now : Nat) : (g.checkSession x now).Unmixed := by
  unfold Gateway.checkSession
  simp only
  split
  · exact h.freeSession x
  · split
    · exact h.setSession (oneObject_reset rfl rfl)
    · split
      · exact h.freeSession x
      · exact h

theorem Unmixed.freeOld (h : g.Unmixed) (p : Nat) : (g.freeOld p).Unmixed := by
  unfold Gateway.freeOld
  split
  · exact h
  · split
    · exact h
    · exact h.freeSession _

theorem Unmixed.batchAlloc (ps : List Nat) (h : g.Unmixed) (room scene now : Nat) :
    (g.batchAlloc (c.link random token) room scene now ps).Unmixed := by
  induction ps generalizing g with
  | nil => exact h
  | cons p ps ih =>
      refine ih fun y => ?_
      by_cases hy : y = (g.freeOld p).nextSession
      · subst hy
        simp only [Gateway.addSession, Function.update_self]
        exact oneObject_reset rfl rfl
      · simp only [Gateway.addSession, Function.update_of_ne hy]
        exact h.freeOld p y

theorem step_unmixed {g' : Gateway Rcv Packet} {e : Event Packet} (h : g.Unmixed)
    (he : SameObject c g e) (hs : g.step (c.link random token) e = some g') : g'.Unmixed := by
  cases e with
  | udp p now =>
      obtain rfl := Option.some.inj hs
      exact h.onUdp he
  | resume i readyOk =>
      simp only [step] at hs
      split at hs
      · cases hs
      · rename_i y hy
        obtain rfl := Option.some.inj hs
        have hend : ({ g with handlers := Function.update g.handlers i none } :
            Gateway Rcv Packet).Unmixed := h
        unfold Gateway.resume
        simp only
        split
        · exact hend.drain
        · exact (hend.freeSession _).drain
  | timer o now =>
      obtain rfl := Option.some.inj hs
      refine List.foldlRecOn (motive := Unmixed) _ _ h fun g' hg' d _ => ?_
      split
      · exact hg'
      · exact hg'.checkSession _ now
  | batchAlloc room scene ps now =>
      obtain rfl := Option.some.inj hs
      exact h.batchAlloc ps room scene now
  | free d =>
      obtain rfl := Option.some.inj hs
      unfold Gateway.free
      split
      · exact h
      · exact h.freeSession _

section Reachable

variable {κ δ π : Type}

/-- The states reached by events that meet a condition. -/
inductive Reach (K : Link κ δ π) (ok : Gateway κ π → Event δ → Prop) (id : Nat) :
    Gateway κ π → Prop where
  | start : Reach K ok id (start id)
  | step {g g' : Gateway κ π} {e : Event δ} (hr : Reach K ok id g) (he : ok g e)
      (hs : g.step K e = some g') : Reach K ok id g'

end Reachable

/-- As long as every datagram that a KCP object takes comes from the client object it has
heard before, all messages that were dispatched for a session since its last
{lit}`reset_kcp` come from one client object and are the first ones it sent, in order. -/
theorem one_incarnation (c : Client) (random : Nat → Nat) (token : Nat → String) (id : Nat)
    (g : Gateway Rcv Packet) (hr : Reach (c.link random token) (SameObject c) id g) (x : Nat) :
    (∃ o, ∀ e ∈ (g.session x).seen, e.1.origin = o) ∧
      (g.session x).seen.map (fun e => e.1.sn) = List.range (g.session x).seen.length := by
  have h : g.Unmixed := by
    induction hr with
    | start => exact fun _ => oneObject_reset rfl rfl
    | step hr he hs ih => exact step_unmixed ih he hs
  obtain ⟨hreset, ⟨o, ho⟩, hord⟩ := h x
  refine ⟨⟨o, fun e he => ho e.1 (List.mem_append_left _ (List.mem_map_of_mem he))⟩, ?_⟩
  cases hk : (g.session x).kcp with
  | none => simp [hreset hk]
  | some k =>
      have hprefix := congrArg (List.take (g.session x).seen.length) (hord k hk)
      have hle : (g.session x).seen.length ≤ k.kcp.next := by
        have := congrArg List.length (hord k hk)
        simp only [List.length_append, List.length_map, List.length_range] at this
        omega
      rw [List.take_left' (by simp), List.take_range, Nat.min_eq_left hle] at hprefix
      exact hprefix

/-- A client whose first object completes the handshake, and whose second one starts it
again and again. -/
def restarted : Client where
  conv _ := 1000001
  message
    | 0, 1 => .battleReadyAck 2
    | _, _ => .battleAuth "0"

theorem sameObject_udp {p : Packet} {now : Nat} (hx : g.sessions.get (c.conv p.origin) = some x)
    (h : (rcvOf (g.session x)).Takes p.sn → ∀ q ∈ heard (g.session x), q.origin = p.origin) :
    SameObject c g (.udp p now) := by
  intro y hy
  obtain rfl := Option.some.inj (hx.symm.trans hy)
  exact h

theorem one_incarnation_joined :
    ∃ g, Reach (restarted.link Nat.succ toString) (SameObject restarted) 1 g ∧
      (g.session 0).seen.length = 2 ∧
      (g.session 0).seen.map (fun e => e.1.sn) = List.range (g.session 0).seen.length :=
  have h₁ : Reach (restarted.link Nat.succ toString) (SameObject restarted) 1 _ :=
    .step (e := .batchAlloc 5 6 [7] 0) .start trivial rfl
  have h₂ := h₁.step (e := .udp ⟨0, 0⟩ 10) (sameObject_udp (x := 0) rfl (by decide +kernel)) rfl
  have h₃ := h₂.step (e := .udp ⟨0, 1⟩ 20) (sameObject_udp (x := 0) rfl (by decide +kernel)) rfl
  ⟨_, h₃, by decide +kernel, (one_incarnation restarted Nat.succ toString 1 _ h₃ 0).2⟩

/-- The client replaces its object while the gateway keeps its own: the gateway dispatches
messages of both. -/
theorem incarnations_mix :
    ∃ g, (start 1).run (restarted.link Nat.succ toString) [.batchAlloc 5 6 [7] 0, .udp ⟨0, 0⟩ 10,
        .udp ⟨0, 1⟩ 20, .resume 0 true, .udp ⟨1, 0⟩ 30, .udp ⟨1, 1⟩ 40, .udp ⟨1, 2⟩ 50] = some g ∧
      ¬ ∃ o, ∀ e ∈ (g.session 0).seen, e.1.origin = o := by
  refine ⟨_, rfl, ?_⟩
  rintro ⟨o, ho⟩
  have h₀ : 0 = o := ho (⟨0, 0⟩, some 2) (by decide +kernel)
  have h₁ : 1 = o := ho (⟨1, 2⟩, none) (by decide +kernel)
  omega

end Gateway

end BallServer.BattleGateway
