import BallServer.Kcp.Messages

/-!
# A link between two ends

Two control blocks and a network that keeps every datagram it was given: any of them may
arrive at any time, any number of times and in any order, or never.  An end may send,
receive, update and flush whenever it likes.

Main results:

- Structure {lit}`Link` and definition {lit}`Link.step`.
- Structure {lit}`Link.Sound`: what holds of both directions in every state.
- Theorem {lit}`Link.Sound.step`: every event keeps it.
- Theorem {lit}`Link.Reach.sound`: it holds after every run.
-/

namespace BallServer.Kcp

open Arq

/-- The two ends. -/
inductive Side where
  | client
  | gateway
deriving DecidableEq, Repr

namespace Side

def other : Side → Side
  | client => gateway
  | gateway => client

@[simp]
theorem other_other (s : Side) : s.other.other = s := by cases s <;> rfl

@[simp]
theorem other_ne (s : Side) : s.other ≠ s := by cases s <;> decide

theorem eq_or_other (s t : Side) : t = s ∨ t = s.other := by
  cases s <;> cases t <;> decide

end Side

/-- An end: its control block, the messages that {lit}`ikcp_send` has accepted, and those
that {lit}`ikcp_recv` has handed out. -/
structure Endpoint where
  kcp : Kcpcb
  sent : List Bytes
  got : List Bytes

/-- Both ends, and the datagrams that each has output. -/
structure Link where
  ends : Side → Endpoint
  wire : Side → List Bytes

/-- What happens to a link. -/
inductive Event where
  | send (s : Side) (m : Bytes)
  | recv (s : Side) (len : Nat)
  | update (s : Side) (current : UInt32)
  | flush (s : Side)
  | input (s : Side) (d : Bytes)
deriving DecidableEq, Repr

namespace Link

/-- Two ends that have not been used. -/
def start (conv : UInt32) (port : Side → Port) (options : Side → Kcpcb.Options) : Link where
  ends s := ⟨Kcpcb.fresh (port s) conv (options s), [], []⟩
  wire _ := []

/-- An end changes, and outputs datagrams. -/
def set (l : Link) (s : Side) (e : Endpoint) (ds : List Bytes) : Link where
  ends := Function.update l.ends s e
  wire := Function.update l.wire s (l.wire s ++ ds)

/-- One event; a datagram can only arrive if the other end has output it. -/
def step (l : Link) : Event → Option Link
  | .send s m =>
      let e := l.ends s
      let r := e.kcp.send m
      some (l.set s ⟨r.1, if r.2 = some 0 then e.sent ++ [m] else e.sent, e.got⟩ [])
  | .recv s len =>
      let e := l.ends s
      let r := e.kcp.recv len
      some (l.set s ⟨r.1, e.sent, match r.2 with
        | .ok m => e.got ++ [m]
        | .error _ => e.got⟩ [])
  | .update s current =>
      let e := l.ends s
      let r := e.kcp.update current
      some (l.set s ⟨r.1, e.sent, e.got⟩ r.2)
  | .flush s =>
      let e := l.ends s
      let r := e.kcp.flush
      some (l.set s ⟨r.1, e.sent, e.got⟩ r.2)
  | .input s d =>
      let e := l.ends s
      if (l.wire s.other).contains d then some (l.set s ⟨(e.kcp.input d).1, e.sent, e.got⟩ [])
      else none

/-- The states of a link. -/
inductive Reach (l₀ : Link) : Link → Prop
  | start : Reach l₀ l₀
  | step {l l' : Link} (h : Reach l₀ l) (e : Event) (hstep : l.step e = some l') : Reach l₀ l'

/-- Events one after the other; one that cannot happen is left out. -/
def run (l : Link) (es : List Event) : Link := es.foldl (fun l e => (l.step e).getD l) l

theorem Reach.run {l₀ l : Link} (h : Reach l₀ l) (es : List Event) : Reach l₀ (l.run es) := by
  induction es generalizing l with
  | nil => exact h
  | cons e es ih =>
      change Reach l₀ (((l.step e).getD l).run es)
      cases hstep : l.step e with
      | none => exact ih h
      | some l' => exact ih (h.step e hstep)

/-! ## Both directions -/

/-- All segments that an end has output. -/
def packets (l : Link) (s : Side) : Set Packet := {q | ∃ d ∈ l.wire s, q ∈ Packet.parse d}

/-- The direction away from an end. -/
def flow (l : Link) (s : Side) : Flow Frag :=
  Kcp.flow (l.ends s).kcp.core (l.ends s).sent (l.ends s.other).kcp.core (l.ends s.other).got
    (l.packets s) (l.packets s.other)

/-- Fewer than half of all numbers have been used. -/
def Small (l : Link) : Prop := ∀ s, (l.flow s).accepted.length < 2 ^ 31

/-- What holds of a link in every state. -/
structure Sound (l : Link) : Prop where
  flow : ∀ s, (l.flow s).Sound
  wf : ∀ s, (l.ends s).kcp.core.Wf
  conv : ∀ s, (l.ends s).kcp.conv = (l.ends s.other).kcp.conv
  wire : ∀ s, ∀ d ∈ l.wire s, d ≠ [] ∧
    Datagram (Packet.Wf (l.ends s).kcp.conv) (l.ends s).kcp.mtu d
  order : ∀ s, (l.ends s.other).got <+: (l.ends s).sent

section Set

variable (l : Link) (s : Side) (e : Endpoint) (ds : List Bytes)

@[simp]
theorem set_ends : (l.set s e ds).ends s = e := Function.update_self ..

@[simp]
theorem set_ends_other : (l.set s e ds).ends s.other = l.ends s.other :=
  Function.update_of_ne s.other_ne ..

theorem set_packets : (l.set s e ds).packets s =
    l.packets s ∪ {q | ∃ d ∈ ds, q ∈ Packet.parse d} := by
  have hwire : (l.set s e ds).wire s = l.wire s ++ ds := Function.update_self ..
  unfold packets
  rw [hwire]
  ext q
  constructor
  · rintro ⟨d, hd, hq⟩
    exact (List.mem_append.mp hd).imp (fun h => ⟨d, h, hq⟩) fun h => ⟨d, h, hq⟩
  · rintro (⟨d, hd, hq⟩ | ⟨d, hd, hq⟩)
    · exact ⟨d, List.mem_append_left _ hd, hq⟩
    · exact ⟨d, List.mem_append_right _ hd, hq⟩

theorem set_packets_other : (l.set s e ds).packets s.other = l.packets s.other := by
  have hwire : (l.set s e ds).wire s.other = l.wire s.other :=
    Function.update_of_ne s.other_ne ..
  unfold packets
  rw [hwire]

theorem set_flow : (l.set s e ds).flow s = Kcp.flow e.kcp.core e.sent
    (l.ends s.other).kcp.core (l.ends s.other).got
    (l.packets s ∪ {q | ∃ d ∈ ds, q ∈ Packet.parse d}) (l.packets s.other) := by
  unfold flow
  rw [set_ends, set_ends_other, set_packets, set_packets_other]

theorem set_flow_other : (l.set s e ds).flow s.other =
    Kcp.flow (l.ends s.other).kcp.core (l.ends s.other).sent e.kcp.core e.got
      (l.packets s.other) (l.packets s ∪ {q | ∃ d ∈ ds, q ∈ Packet.parse d}) := by
  unfold flow
  rw [Side.other_other, set_ends, set_ends_other, set_packets, set_packets_other]

end Set

/-- What an end may become. -/
structure Allowed (l : Link) (s : Side) (e : Endpoint) (ds : List Bytes) : Prop where
  out : Steps (l.flow s) ((l.set s e ds).flow s)
  back : Steps (l.flow s.other) ((l.set s e ds).flow s.other)
  wf : e.kcp.core.Wf
  conv : e.kcp.conv = (l.ends s).kcp.conv
  mtu : e.kcp.mtu = (l.ends s).kcp.mtu
  wire : ∀ d ∈ ds, d ≠ [] ∧ Datagram (Packet.Wf (l.ends s).kcp.conv) (l.ends s).kcp.mtu d
  sent : (l.ends s).sent <+: e.sent
  got : e.got <+: (l.ends s.other).sent

theorem Sound.set {l : Link} (h : l.Sound) {s : Side} {e : Endpoint} {ds : List Bytes}
    (ha : l.Allowed s e ds) : (l.set s e ds).Sound where
  flow t := by
    rcases s.eq_or_other t with rfl | rfl
    · exact (h.flow _).steps ha.out
    · exact (h.flow _).steps ha.back
  wf t := by
    rcases s.eq_or_other t with rfl | rfl
    · rw [set_ends]
      exact ha.wf
    · rw [set_ends_other]
      exact h.wf _
  conv t := by
    rcases s.eq_or_other t with rfl | rfl
    · rw [set_ends, set_ends_other, ha.conv]
      exact h.conv _
    · rw [Side.other_other, set_ends, set_ends_other, ha.conv]
      exact (h.conv _).symm
  wire t d hd := by
    rcases s.eq_or_other t with rfl | rfl
    · rw [set_ends, ha.conv, ha.mtu]
      have hwire : (l.set t e ds).wire t = l.wire t ++ ds := Function.update_self ..
      rw [hwire] at hd
      exact (List.mem_append.mp hd).elim (h.wire t d) (ha.wire d)
    · rw [set_ends_other]
      have hwire : (l.set s e ds).wire s.other = l.wire s.other :=
        Function.update_of_ne s.other_ne ..
      rw [hwire] at hd
      exact h.wire _ d hd
  order t := by
    rcases s.eq_or_other t with rfl | rfl
    · rw [set_ends, set_ends_other]
      exact (h.order _).trans ha.sent
    · rw [Side.other_other, set_ends, set_ends_other]
      exact ha.got

/-! ## The events -/

section Events

variable {l : Link} (h : l.Sound) (hsmall : l.Small) (s : Side)

theorem no_packets : {q | ∃ d ∈ ([] : List Bytes), q ∈ Packet.parse d} = ∅ := by
  ext q
  exact ⟨fun ⟨d, hd, _⟩ => absurd hd List.not_mem_nil, fun hq => hq.elim⟩

include h in
theorem send_allowed (m : Bytes) : l.Allowed s
    ⟨((l.ends s).kcp.send m).1, if ((l.ends s).kcp.send m).2 = some 0 then
      (l.ends s).sent ++ [m] else (l.ends s).sent, (l.ends s).got⟩ [] := by
  have horder := h.order s.other
  rw [Side.other_other] at horder
  unfold Kcpcb.send
  dsimp only
  split
  · rename_i hlong
    have hcode : ¬ (if (l.ends s).kcp.port = .kcp2k ∧
        Kcpcb.fragCount (l.ends s).kcp.mss.toNat m.length > 255 then none else some (-2 : Int)) =
        some 0 := by
      split <;> simp
    dsimp only
    rw [if_neg hcode]
    refine ⟨?_, ?_, h.wf s, rfl, rfl, fun _ hd => absurd hd List.not_mem_nil, List.prefix_rfl, horder⟩
    · rw [set_flow, no_packets, Set.union_empty]
      exact .refl
    · rw [set_flow_other, no_packets, Set.union_empty]
      unfold flow
      rw [Side.other_other]
  · rename_i hshort
    rw [if_pos rfl]
    have hcount : Kcpcb.fragCount (l.ends s).kcp.mss.toNat m.length ≤ 256 := by
      unfold Kcpcb.tooLong at hshort
      split at hshort
      · have hlt := Nat.not_le.mp (fun hle => hshort (decide_eq_true hle))
        change _ < 128 at hlt
        omega
      · simp only [Bool.or_eq_true, decide_eq_true_eq, not_or] at hshort
        omega
    have hwf := h.wf s
    refine ⟨?_, ?_, ?_, rfl, rfl, fun _ hd => absurd hd List.not_mem_nil, List.prefix_append _ _, horder⟩
    · rw [set_flow, no_packets, Set.union_empty]
      have hstep := Flow.Step.accept (l.flow s) (frags (l.ends s).kcp.mss m)
      convert Relation.ReflTransGen.single hstep using 1
      unfold flow Kcp.flow
      simp only [List.flatMap_append, List.flatMap_singleton, Kcpcb.core, List.map_append]
      rfl
    · rw [set_flow_other, no_packets, Set.union_empty]
      unfold flow
      rw [Side.other_other]
      exact .refl
    · exact { hwf with
        queue := fun seg hseg => (List.mem_append.mp hseg).elim (hwf.queue seg)
          (Kcpcb.fragment_wf hcount) }

include h in
/-- What is ready at an end is the beginning of what it has not handed out. -/
theorem ready_in_order {rest : List Bytes} (hrest : (l.ends s.other).got ++ rest = (l.ends s).sent) :
    (l.ends s.other).kcp.rcvQueue.map Seg.frag <+:
      rest.flatMap (frags (l.ends s).kcp.mss) := by
  have hprefix := (h.flow s).taken_in_order
  unfold flow Kcp.flow at hprefix
  dsimp only at hprefix
  rw [← hrest, List.flatMap_append] at hprefix
  exact (List.prefix_append_right_inj _).mp hprefix

include h hsmall in
theorem recv_allowed (len : Nat) : l.Allowed s
    ⟨((l.ends s).kcp.recv len).1, (l.ends s).sent, match ((l.ends s).kcp.recv len).2 with
      | .ok m => (l.ends s).got ++ [m]
      | .error _ => (l.ends s).got⟩ [] := by
  have horder := h.order s.other
  rw [Side.other_other] at horder
  obtain ⟨rest, hrest⟩ := horder
  have hsent : (l.ends s.other.other).got ++ rest = (l.ends s.other).sent := by
    rw [Side.other_other]
    exact hrest
  have hready := ready_in_order h s.other hsent
  rw [Side.other_other] at hready
  have hacc : ((l.ends s.other).sent.flatMap (frags (l.ends s.other).kcp.mss)).length <
      2 ^ 31 := hsmall s.other
  have hsmallRest : (rest.flatMap (frags (l.ends s.other).kcp.mss)).length < 2 ^ 31 := by
    rw [← hrest, List.flatMap_append, List.length_append] at hacc
    omega
  have hflow := h.flow s.other
  unfold flow at hflow
  rw [Side.other_other] at hflow
  rcases Kcpcb.recv_spec (h.wf s.other).mss_pos hsmallRest hready len with
    ⟨e, hsame, herr⟩ | ⟨m, rest', rfl, hok, hmsg, hcore⟩
  · rw [hsame, herr]
    refine ⟨?_, ?_, h.wf s, rfl, rfl, fun _ hd => absurd hd List.not_mem_nil, List.prefix_rfl,
      ⟨rest, hrest⟩⟩
    · rw [set_flow, no_packets, Set.union_empty]
      exact .refl
    · rw [set_flow_other, no_packets, Set.union_empty]
      unfold flow
      rw [Side.other_other]
  · rw [hok]
    have hfixed : (l.ends s).kcp.core.withReceived ((l.ends s).kcp.recv len).1.core =
        ((l.ends s).kcp.recv len).1.core := by
      rw [hcore]
      rfl
    have hwf := h.wf s
    refine ⟨?_, ?_, ?_, ?_, ?_, fun _ hd => absurd hd List.not_mem_nil, List.prefix_rfl, ?_⟩
    · rw [set_flow, no_packets, Set.union_empty]
      dsimp only
      rw [← hfixed]
      exact .refl
    · rw [set_flow_other, no_packets, Set.union_empty]
      dsimp only
      rw [hcore]
      have htake := Flow.Step.take _ (frags (l.ends s.other).kcp.mss m)
        ((Kcpcb.merge (l.ends s).kcp.rcvQueue).2.map Seg.frag)
        (show (Kcp.flow (l.ends s.other).kcp.core (l.ends s.other).sent (l.ends s).kcp.core
          (l.ends s).got (l.packets s.other) (l.packets s)).ready = _ from hmsg)
      have htaken : Kcp.flow (l.ends s.other).kcp.core (l.ends s.other).sent
          { (l.ends s).kcp.core with rcvQueue := (Kcpcb.merge (l.ends s).kcp.rcvQueue).2 }
          ((l.ends s).got ++ [m]) (l.packets s.other) (l.packets s) =
          { Kcp.flow (l.ends s.other).kcp.core (l.ends s.other).sent (l.ends s).kcp.core
            (l.ends s).got (l.packets s.other) (l.packets s) with
            ready := (Kcpcb.merge (l.ends s).kcp.rcvQueue).2.map Seg.frag
            taken := (l.ends s).got.flatMap (frags (l.ends s.other).kcp.mss) ++
              frags (l.ends s.other).kcp.mss m } := by
        unfold Kcp.flow
        simp only [List.flatMap_append, List.flatMap_singleton]
        rfl
      have hsound := hflow.step htake
      have hone := Relation.ReflTransGen.single htake
      change Flow.Sound { Kcp.flow _ _ _ _ _ _ with
        ready := _, taken := (l.ends s).got.flatMap (frags (l.ends s.other).kcp.mss) ++ _ }
        at hsound
      change Steps _ { Kcp.flow _ _ _ _ _ _ with
        ready := _, taken := (l.ends s).got.flatMap (frags (l.ends s.other).kcp.mss) ++ _ }
        at hone
      rw [← htaken] at hsound hone
      have hmove := flow_moveReadyLoop (c := (l.ends s.other).kcp.core)
        (d := (l.ends s).kcp.core) (l.ends s).kcp.rcvWnd (l.ends s).kcp.rcvNxt
        (l.ends s).kcp.rcvBuf (Kcpcb.merge (l.ends s).kcp.rcvQueue).2 hacc hsound
      unfold flow
      rw [Side.other_other]
      exact hone.trans hmove
    · rw [← hfixed]
      exact { hwf with }
    · exact congrArg Core.conv hfixed.symm
    · exact congrArg Core.mtu hfixed.symm
    · rw [← hrest]
      exact ⟨rest', by simp⟩

include h hsmall in
/-- Both directions of an end that flushes. -/
theorem flushed_allowed {k' : Kcpcb} {ds : List Bytes}
    (hflush : Flushed (l.ends s).kcp.core k'.core ds) :
    l.Allowed s ⟨k', (l.ends s).sent, (l.ends s).got⟩ ds := by
  have horder := h.order s.other
  rw [Side.other_other] at horder
  have hnew : ∀ q ∈ {q | ∃ d ∈ ds, q ∈ Packet.parse d}, ∃ b ∈ ds, q ∈ Packet.parse b :=
    fun _ hq => hq
  have hwf := h.wf s
  have hfixed : k'.core.Wf ∧ k'.conv = (l.ends s).kcp.conv ∧ k'.mtu = (l.ends s).kcp.mtu ∧
      ∀ d ∈ ds, d ≠ [] ∧ Datagram (Packet.Wf (l.ends s).kcp.conv) (l.ends s).kcp.mtu d := by
    generalize hc : k'.core = c' at hflush
    have hconv : k'.conv = c'.conv := congrArg Core.conv hc
    have hmtu : k'.mtu = c'.mtu := congrArg Core.mtu hc
    rw [hconv, hmtu]
    cases hflush with
    | idle => exact ⟨hwf, rfl, rfl, fun _ hd => absurd hd List.not_mem_nil⟩
    | flushed n ds hds =>
        obtain ⟨hnconv, -, hnmtu, -⟩ := Core.iterate_fixed n (l.ends s).kcp.core
        refine ⟨{ hwf.iterate n with }, hnconv, hnmtu, fun d hd => ?_⟩
        obtain ⟨hne, hlength, ps, hps, hwrites⟩ := hds d hd
        refine ⟨hne, hlength, ps, hps, fun p hp => ?_⟩
        have hp := (hwrites p hp).wf (hwf.iterate n)
        rw [hnconv] at hp
        exact hp
  refine ⟨?_, ?_, hfixed.1, hfixed.2.1, hfixed.2.2.1, hfixed.2.2.2, List.prefix_rfl, horder⟩
  · rw [set_flow]
    exact flow_flush_sender hflush hnew hwf (h.flow s) (hsmall s)
  · rw [set_flow_other]
    unfold flow
    rw [Side.other_other]
    exact flow_flush_receiver hflush hnew hwf

include h in
/-- A datagram of an end, segment by segment. -/
theorem wire_packets {d : Bytes} (hd : d ∈ l.wire s.other) :
    ∃ ps, ps ≠ [] ∧ d = Packet.encodeAll ps ∧ (∀ p ∈ ps, p.Wf (l.ends s).kcp.conv) ∧
      ∀ p ∈ ps, p ∈ l.packets s.other := by
  obtain ⟨hne, -, ps, rfl, hps⟩ := h.wire s.other d hd
  rw [← h.conv s] at hps
  refine ⟨ps, ?_, rfl, hps, fun p hp => ⟨_, hd, ?_⟩⟩
  · rintro rfl
    exact hne rfl
  · rw [Packet.parse_encodeAll hps]
    exact hp

include h hsmall in
theorem input_allowed {d : Bytes} (hd : d ∈ l.wire s.other) :
    l.Allowed s ⟨((l.ends s).kcp.input d).1, (l.ends s).sent, (l.ends s).got⟩ [] := by
  have horder := h.order s.other
  rw [Side.other_other] at horder
  obtain ⟨ps, hne, rfl, hps, hpackets⟩ := wire_packets h s hd
  obtain ⟨hcore, -⟩ := Kcpcb.input_core _ hne hps
  obtain ⟨hwf, hmtu, hconv⟩ := Kcpcb.inputAll_wf ⟨false, 0, 0⟩ ps (h.wf s)
  have hother := h.flow s.other
  unfold flow at hother
  rw [Side.other_other] at hother
  obtain ⟨hout, hin⟩ := Kcpcb.inputAll_steps ⟨false, 0, 0⟩ (h.wf s) (h.flow s) hother
    (hsmall s) (hsmall s.other) hpackets
  refine ⟨?_, ?_, ?_, ?_, ?_, fun _ hd => absurd hd List.not_mem_nil, List.prefix_rfl, horder⟩
  · rw [set_flow, no_packets, Set.union_empty, hcore]
    exact hout
  · rw [set_flow_other, no_packets, Set.union_empty, hcore]
    unfold flow
    rw [Side.other_other]
    exact hin
  · rw [hcore]
    exact hwf
  · exact (congrArg Core.conv hcore).trans hconv
  · exact (congrArg Core.mtu hcore).trans hmtu

end Events

/-! ## Runs -/

/-- Numbers are only used up. -/
theorem small_of_set {l : Link} (s : Side) {e : Endpoint} {ds : List Bytes} (hmss : e.kcp.mss = (l.ends s).kcp.mss)
    (hsent : (l.ends s).sent <+: e.sent) (hset : (l.set s e ds).Small) : l.Small := by
  intro t
  rcases s.eq_or_other t with rfl | rfl
  · have hlt := hset t
    rw [set_flow] at hlt
    obtain ⟨more, hmore⟩ := hsent
    change (e.sent.flatMap (frags e.kcp.mss)).length < 2 ^ 31 at hlt
    change ((l.ends t).sent.flatMap (frags (l.ends t).kcp.mss)).length < 2 ^ 31
    rw [← hmore, hmss, List.flatMap_append, List.length_append] at hlt
    omega
  · have hlt := hset s.other
    rw [set_flow_other] at hlt
    exact hlt

/-- The size of the fragments stays. -/
theorem send_mss (k : Kcpcb) (m : Bytes) : (k.send m).1.mss = k.mss := by
  unfold Kcpcb.send
  dsimp only
  split <;> rfl

theorem recv_mss (k : Kcpcb) (len : Nat) : (k.recv len).1.mss = k.mss := by
  unfold Kcpcb.recv
  split
  · rfl
  · split
    · rfl
    · split <;> rfl

theorem flush_mss (k : Kcpcb) : k.flush.1.mss = k.mss := by
  unfold Kcpcb.flush
  split
  · rfl
  · dsimp only
    obtain ⟨n, hn⟩ := Kcpcb.fill_core { k.probeWindow with acklist := [], probe := 0 }
      ({ k.probeWindow with acklist := [], probe := 0 } : Kcpcb).sendWindow
    have hfill := (congrArg Core.mss hn).trans (Core.iterate_fixed n _).2.2.2.1
    refine (congrArg Core.mss (Kcpcb.congest_core _ _ _ _)).trans (hfill.trans ?_)
    exact congrArg Core.mss k.probeWindow_core

theorem update_mss (k : Kcpcb) (current : UInt32) : (k.update current).1.mss = k.mss := by
  have htick : (k.tick current).mss = k.mss := congrArg Core.mss (k.tick_core current)
  unfold Kcpcb.update
  dsimp only
  split
  · exact (flush_mss _).trans htick
  · exact htick

theorem inputLoop_mss (k : Kcpcb) (a : Kcpcb.Acked) (d : Bytes) :
    (k.inputLoop a d).1.mss = k.mss := by
  fun_induction Kcpcb.inputLoop k a d with
  | case1 | case2 | case3 | case4 => rfl
  | case5 k a d p len rest hdecode hconv hlen hcmd r ih =>
      exact ih.trans (Kcpcb.inputSegment_mss k a _)

theorem input_mss (k : Kcpcb) (d : Bytes) : (k.input d).1.mss = k.mss := by
  unfold Kcpcb.input
  split
  · rfl
  · dsimp only
    split
    · exact inputLoop_mss k _ d
    · refine (congrArg Core.mss (Kcpcb.grow_core _ _)).trans ?_
      split
      · exact (congrArg Core.mss (Kcpcb.parseFastack_core _ _)).trans (inputLoop_mss k _ d)
      · exact inputLoop_mss k _ d

/-- What an event makes of a link, by the end it is at. -/
theorem step_cases {l l' : Link} {e : Event} (hstep : l.step e = some l') :
    (∃ s m, l' = l.set s ⟨((l.ends s).kcp.send m).1, if ((l.ends s).kcp.send m).2 = some 0 then
      (l.ends s).sent ++ [m] else (l.ends s).sent, (l.ends s).got⟩ []) ∨
    (∃ s len, l' = l.set s ⟨((l.ends s).kcp.recv len).1, (l.ends s).sent,
      match ((l.ends s).kcp.recv len).2 with
      | .ok m => (l.ends s).got ++ [m]
      | .error _ => (l.ends s).got⟩ []) ∨
    (∃ s current, l' = l.set s ⟨((l.ends s).kcp.update current).1, (l.ends s).sent,
      (l.ends s).got⟩ ((l.ends s).kcp.update current).2) ∨
    (∃ s, l' = l.set s ⟨(l.ends s).kcp.flush.1, (l.ends s).sent, (l.ends s).got⟩
      (l.ends s).kcp.flush.2) ∨
    ∃ s, ∃ d ∈ l.wire s.other, l' = l.set s ⟨((l.ends s).kcp.input d).1, (l.ends s).sent,
      (l.ends s).got⟩ [] := by
  cases e with
  | send s m => exact .inl ⟨s, m, (Option.some.inj hstep).symm⟩
  | recv s len => exact .inr (.inl ⟨s, len, (Option.some.inj hstep).symm⟩)
  | update s current => exact .inr (.inr (.inl ⟨s, current, (Option.some.inj hstep).symm⟩))
  | flush s => exact .inr (.inr (.inr (.inl ⟨s, (Option.some.inj hstep).symm⟩)))
  | input s d =>
      unfold Link.step at hstep
      dsimp only at hstep
      split at hstep
      · rename_i hd
        have hmem : d ∈ l.wire s.other := List.contains_iff_mem.mp hd
        exact .inr (.inr (.inr (.inr ⟨s, d, hmem, (Option.some.inj hstep).symm⟩)))
      · cases hstep

/-- Numbers are only used up by an event. -/
theorem small_of_step {l l' : Link} {e : Event} (hstep : l.step e = some l')
    (hsmall : l'.Small) : l.Small := by
  rcases step_cases hstep with ⟨s, m, rfl⟩ | ⟨s, len, rfl⟩ | ⟨s, current, rfl⟩ | ⟨s, rfl⟩ |
    ⟨s, d, -, rfl⟩
  · refine small_of_set s ?_ ?_ hsmall
    · exact send_mss _ m
    · dsimp only
      split
      · exact List.prefix_append _ _
      · exact List.prefix_rfl
  · refine small_of_set s ?_ ?_ hsmall
    · exact recv_mss _ len
    · exact List.prefix_rfl
  · refine small_of_set s ?_ ?_ hsmall
    · exact update_mss _ current
    · exact List.prefix_rfl
  · refine small_of_set s ?_ ?_ hsmall
    · exact flush_mss _
    · exact List.prefix_rfl
  · refine small_of_set s ?_ ?_ hsmall
    · exact input_mss _ d
    · exact List.prefix_rfl

/-- Every event keeps a link sound. -/
theorem Sound.step {l l' : Link} (h : l.Sound) {e : Event} (hstep : l.step e = some l')
    (hsmall : l.Small) : l'.Sound := by
  rcases step_cases hstep with ⟨s, m, rfl⟩ | ⟨s, len, rfl⟩ | ⟨s, current, rfl⟩ | ⟨s, rfl⟩ |
    ⟨s, d, hd, rfl⟩
  · exact h.set (send_allowed h s m)
  · exact h.set (recv_allowed h hsmall s len)
  · exact h.set (flushed_allowed h hsmall s ((l.ends s).kcp.update_flushed current (h.wf s)))
  · exact h.set (flushed_allowed h hsmall s ((l.ends s).kcp.flush_flushed (h.wf s)))
  · exact h.set (input_allowed h hsmall s hd)

theorem Reach.sound {l₀ l : Link} (h₀ : l₀.Sound) (h : Reach l₀ l) (hsmall : l.Small) :
    l.Sound := by
  induction h with
  | start => exact h₀
  | step _ e hstep ih =>
      have hbefore := small_of_step hstep hsmall
      exact (ih hbefore).step hstep hbefore

end Link

end BallServer.Kcp
