import BallServer.Kcp.Control
import Mathlib.Logic.Function.Iterate

/-!
# The core of a control block

The timers, the windows and the estimates of a control block decide when a segment is sent
again.  What is sent, held, put in order and acknowledged is the core of the control block,
and most functions leave it alone.

Main results:

- Definition {lit}`Kcpcb.core`.
- Theorem {lit}`Kcpcb.fill_core`: a flush gives numbers to some segments that wait.
- Theorem {lit}`Kcpcb.inputLoop_encode`: a datagram is taken segment by segment.
-/

namespace BallServer.Kcp

/-- What stays of a segment in {lit}`snd_buf`. -/
structure Content where
  conv : UInt32
  cmd : UInt32
  frg : UInt32
  sn : UInt32
  data : Bytes
deriving DecidableEq, Repr

def Seg.content (s : Seg) : Content := ⟨s.conv, s.cmd, s.frg, s.sn, s.data⟩

/-- The part of a control block that decides what is delivered. -/
structure Core where
  port : Port
  conv : UInt32
  mtu : UInt32
  mss : UInt32
  rcvWnd : UInt32
  sndNxt : UInt32
  rcvNxt : UInt32
  sndQueue : List Seg
  rcvQueue : List Seg
  sndBuf : List Content
  rcvBuf : List Seg
  acklist : List (UInt32 × UInt32)

namespace Kcpcb

def core (k : Kcpcb) : Core where
  port := k.port
  conv := k.conv
  mtu := k.mtu
  mss := k.mss
  rcvWnd := k.rcvWnd
  sndNxt := k.sndNxt
  rcvNxt := k.rcvNxt
  sndQueue := k.sndQueue
  rcvQueue := k.rcvQueue
  sndBuf := k.sndBuf.map Seg.content
  rcvBuf := k.rcvBuf
  acklist := k.acklist

/-! ## What leaves the core alone -/

@[simp]
theorem shrinkBuf_core (k : Kcpcb) : k.shrinkBuf.core = k.core := rfl

@[simp]
theorem updateAck_core (k : Kcpcb) (rtt : Int32) : (k.updateAck rtt).core = k.core := by
  unfold updateAck
  dsimp only
  split <;> rfl

theorem increase_core (k : Kcpcb) : k.increase.core = k.core := by
  unfold increase
  split <;> rfl

@[simp]
theorem grow_core (k : Kcpcb) (una : UInt32) : (k.grow una).core = k.core := by
  unfold grow
  split
  · dsimp only
    split
    · exact k.increase_core
    · exact k.increase_core
  · rfl

theorem ite_core (c : Prop) [Decidable c] {a b k : Kcpcb} (ha : a.core = k.core)
    (hb : b.core = k.core) : (if c then a else b).core = k.core := by
  split
  · exact ha
  · exact hb

@[simp]
theorem congest_core (k : Kcpcb) (t : Turn) (resent cwnd : UInt32) :
    (k.congest t resent cwnd).core = k.core := by
  have hchange : (if t.change ≠ 0 then k.onChange resent else k).core = k.core :=
    ite_core _ rfl rfl
  have hlost (k : Kcpcb) : (if t.lost then k.onLost cwnd else k).core = k.core :=
    ite_core _ rfl rfl
  exact ite_core _ ((hlost _).trans hchange) ((hlost _).trans hchange)

@[simp]
theorem probeWindow_core (k : Kcpcb) : k.probeWindow.core = k.core := by
  unfold probeWindow
  refine ite_core _ (ite_core _ ?_ (ite_core _ ?_ rfl)) ?_
  · simp only [core]
  · simp only [core]
  · simp only [core]

theorem countFastack_content (port : Port) (sn : UInt32) (buf : List Seg) :
    (countFastack port sn buf).map Seg.content = buf.map Seg.content := by
  induction buf with
  | nil => rfl
  | cons seg buf ih =>
      rw [countFastack]
      split
      · rfl
      · rw [List.map_cons, List.map_cons, ih]
        split <;> rfl

@[simp]
theorem parseFastack_core (k : Kcpcb) (sn : UInt32) : (k.parseFastack sn).core = k.core := by
  unfold parseFastack
  split
  · rfl
  · unfold core
    rw [countFastack_content]

/-! ## Input -/

theorem parseUna_core (k : Kcpcb) (una : UInt32) : (k.parseUna una).core =
    { k.core with sndBuf := k.core.sndBuf.dropWhile fun c => past k.port una c.sn } := by
  unfold parseUna core
  dsimp only
  rw [List.dropWhile_map]
  rfl

/-- The loop of {lit}`ikcp_parse_ack`, on the core. -/
def removeContent (sn : UInt32) : List Content → List Content
  | [] => []
  | c :: buf =>
      if sn = c.sn then buf
      else if itimediff sn c.sn < 0 then c :: buf
      else c :: removeContent sn buf

theorem removeAck_content (sn : UInt32) (buf : List Seg) :
    (removeAck sn buf).map Seg.content = removeContent sn (buf.map Seg.content) := by
  induction buf with
  | nil => rfl
  | cons seg buf ih =>
      have hsn : seg.content.sn = seg.sn := rfl
      rw [removeAck, List.map_cons, removeContent, hsn]
      by_cases heq : sn = seg.sn
      · rw [if_pos heq, if_pos heq]
      · rw [if_neg heq, if_neg heq]
        by_cases hlt : itimediff sn seg.sn < 0
        · rw [if_pos hlt, if_pos hlt, List.map_cons]
        · rw [if_neg hlt, if_neg hlt, List.map_cons, ih]

/-- An acknowledgement removes at most the segment of its number. -/
theorem parseAck_core (k : Kcpcb) (sn : UInt32) : (k.parseAck sn).core = k.core ∨
    (k.parseAck sn).core = { k.core with sndBuf := removeContent sn k.core.sndBuf } := by
  unfold parseAck
  split
  · exact .inl rfl
  · refine .inr ?_
    unfold core
    dsimp only
    rw [removeAck_content]

/-- An acknowledgement does no more to the core than {lit}`ikcp_parse_ack`. -/
theorem inputAck_core (k : Kcpcb) (a : Acked) (p : Packet) : (k.inputAck a p).1.core = k.core ∨
    (k.inputAck a p).1.core =
      { k.core with sndBuf := removeContent p.sn k.core.sndBuf } := by
  unfold inputAck
  dsimp only
  rw [shrinkBuf_core]
  split
  · rw [← updateAck_core k (k.current - p.ts).toInt32]
    exact parseAck_core _ _
  · exact parseAck_core _ _

theorem parseData_conv (k : Kcpcb) (new : Seg) : (k.parseData new).conv = k.conv := by
  unfold parseData
  split <;> rfl

theorem inputPush_conv (k : Kcpcb) (p : Packet) : (k.inputPush p).conv = k.conv := by
  unfold inputPush
  split
  · dsimp only
    split
    · exact parseData_conv _ _
    · rfl
  · rfl

theorem inputSegment_conv (k : Kcpcb) (a : Acked) (p : Packet) :
    (k.inputSegment a p).1.conv = k.conv := by
  unfold inputSegment
  dsimp only
  split
  · rcases inputAck_core _ a p with h | h <;> exact congrArg Core.conv h
  · split
    · exact inputPush_conv _ _
    · split <;> rfl

/-- A run of the loop over segments that are there already. -/
def inputAll (k : Kcpcb) (a : Acked) (ps : List Packet) : Kcpcb × Acked :=
  ps.foldl (fun r p => r.1.inputSegment r.2 p) (k, a)

theorem inputAll_cons (k : Kcpcb) (a : Acked) (p : Packet) (ps : List Packet) :
    k.inputAll a (p :: ps) = (k.inputSegment a p).1.inputAll (k.inputSegment a p).2 ps := rfl

/-- A datagram is taken segment by segment, and none is refused. -/
theorem inputLoop_encode {k : Kcpcb} (a : Acked) {ps : List Packet}
    (h : ∀ p ∈ ps, p.Wf k.conv) :
    k.inputLoop a (Packet.encodeAll ps) = ((k.inputAll a ps).1, (k.inputAll a ps).2, 0) := by
  induction ps generalizing k a with
  | nil =>
      rw [inputLoop]
      rfl
  | cons p ps ih =>
      have hp := h p List.mem_cons_self
      rw [inputLoop]
      split
      · rename_i hnone
        rw [Packet.decode_encodeAll] at hnone
        cases hnone
      · rename_i hsome
        rw [Packet.decode_encodeAll, Option.some.injEq, Prod.mk.injEq, Prod.mk.injEq] at hsome
        obtain ⟨rfl, rfl, rfl⟩ := hsome
        have hconv : ¬ p.conv ≠ k.conv := not_not.mpr hp.conv
        have hlen : ¬ ((p.data ++ Packet.encodeAll ps).length <
            (UInt32.ofNat p.data.length).toNat ∨ (UInt32.ofNat p.data.length).toInt32 < 0) := by
          rw [hp.length_toNat, List.length_append]
          rintro (hshort | hneg)
          · omega
          · have hsign := Int32.lt_iff_toInt_lt.mp hneg
            rw [toInt32_toInt, hp.length_toNat, if_pos hp.length] at hsign
            exact absurd hsign (by simp)
        have hcmd : ¬ (p.cmd ≠ cmdPush ∧ p.cmd ≠ cmdAck ∧ p.cmd ≠ cmdWask ∧ p.cmd ≠ cmdWins) := by
          rintro ⟨h₁, h₂, h₃, h₄⟩
          rcases hp.cmd with h | h | h | h <;> contradiction
        rw [if_neg hconv, if_neg hlen, if_neg hcmd]
        dsimp only
        rw [hp.length_toNat, List.take_left, List.drop_left, inputAll_cons,
          ih _ fun q hq => by
            rw [inputSegment_conv]
            exact h q (List.mem_cons_of_mem _ hq)]

end Kcpcb

/-! ## Output -/

namespace Core

/-- The first segment that waits gets the next number. -/
def number (c : Core) : Core :=
  match c.sndQueue with
  | [] => c
  | seg :: queue =>
      { c with
        sndNxt := c.sndNxt + 1
        sndQueue := queue
        sndBuf := c.sndBuf ++ [⟨c.conv, cmdPush.toUInt32, seg.frg, c.sndNxt, seg.data⟩] }

/-- What holds of one end by itself. -/
structure Wf (c : Core) : Prop where
  mtu : c.mtu.toNat = c.mss.toNat + overhead
  mtu_lt : c.mtu.toNat < 2 ^ 31
  mss_pos : 0 < c.mss.toNat
  queue : ∀ seg ∈ c.sndQueue, seg.frg.toNat < 256 ∧ seg.data.length ≤ c.mss.toNat
  buf : ∀ x ∈ c.sndBuf, x.conv = c.conv ∧ x.cmd = cmdPush.toUInt32 ∧ x.frg.toNat < 256 ∧
    x.data.length ≤ c.mss.toNat

theorem Wf.number {c : Core} (h : c.Wf) : c.number.Wf := by
  unfold Core.number
  split
  · exact h
  · rename_i seg queue hqueue
    obtain ⟨hfrg, hdata⟩ := h.queue seg (hqueue ▸ List.mem_cons_self)
    exact { h with
      queue := fun x hx => h.queue x (hqueue ▸ List.mem_cons_of_mem _ hx)
      buf := by
        intro x hx
        rcases List.mem_append.mp hx with hold | hnew
        · exact h.buf x hold
        · rw [List.mem_singleton.mp hnew]
          exact ⟨rfl, rfl, hfrg, hdata⟩ }

/-- What a flush may write: acknowledgements, probes and what is held. -/
structure Writes (c : Core) (acks : List (UInt32 × UInt32)) (p : Packet) : Prop where
  conv : p.conv = c.conv
  una : p.una = c.rcvNxt
  kind : (p.cmd = cmdAck ∧ p.data = [] ∧ ∃ a ∈ acks, a.1 = p.sn) ∨
    ((p.cmd = cmdWask ∨ p.cmd = cmdWins) ∧ p.data = []) ∨
    p.cmd = cmdPush ∧ ∃ x ∈ c.sndBuf, x.frg = p.frg.toUInt32 ∧ x.sn = p.sn ∧ x.data = p.data

theorem Writes.length {c : Core} {acks : List (UInt32 × UInt32)} {p : Packet}
    (h : c.Writes acks p) (hwf : c.Wf) : overhead + p.data.length ≤ c.mtu.toNat := by
  rw [hwf.mtu, Nat.add_comm]
  refine Nat.add_le_add_right ?_ _
  rcases h.kind with ⟨-, hdata, -⟩ | ⟨-, hdata⟩ | ⟨-, x, hx, -, -, hdata⟩
  · simp [hdata]
  · simp [hdata]
  · rw [← hdata]
    exact (hwf.buf x hx).2.2.2

theorem Writes.wf {c : Core} {acks : List (UInt32 × UInt32)} {p : Packet}
    (h : c.Writes acks p) (hwf : c.Wf) : p.Wf c.conv where
  conv := h.conv
  length := by
    have hlength := h.length hwf
    have hmtu := hwf.mtu_lt
    omega
  cmd := by
    rcases h.kind with ⟨hcmd, -⟩ | ⟨hcmd | hcmd, -⟩ | ⟨hcmd, -⟩
    · exact .inr (.inl hcmd)
    · exact .inr (.inr (.inl hcmd))
    · exact .inr (.inr (.inr hcmd))
    · exact .inl hcmd

end Core

/-- A datagram of segments of one kind, not longer than the mtu. -/
def Datagram (P : Packet → Prop) (mtu : UInt32) (d : Bytes) : Prop :=
  d.length ≤ mtu.toNat ∧ ∃ ps, d = Packet.encodeAll ps ∧ ∀ p ∈ ps, P p

namespace Kcpcb

/-- The buffer and all datagrams consist of segments of one kind. -/
structure Out.Holds (P : Packet → Prop) (mtu : UInt32) (o : Out) : Prop where
  buffer : Datagram P mtu o.buffer
  datagrams : ∀ d ∈ o.datagrams, d ≠ [] ∧ Datagram P mtu d

theorem empty_datagram (P : Packet → Prop) (mtu : UInt32) : Datagram P mtu [] :=
  ⟨Nat.zero_le _, [], rfl, fun _ hp => nomatch hp⟩

namespace Out.Holds

variable {P : Packet → Prop} {mtu : UInt32} {o : Out}

theorem output (h : o.Holds P mtu) (port : Port) (hne : o.buffer ≠ []) :
    (o.output port).Holds P mtu := by
  unfold Out.output
  split
  · exact h
  · refine ⟨empty_datagram P mtu, fun d hd => ?_⟩
    rcases List.mem_append.mp hd with hold | hnew
    · exact h.datagrams d hold
    · rw [List.mem_singleton.mp hnew]
      exact ⟨hne, h.buffer⟩

theorem output_buffer (o : Out) (port : Port) : (o.output port).buffer = [] := by
  unfold Out.output
  split
  · rename_i hempty
    exact hempty.2
  · rfl

theorem append {o : Out} (h : o.Holds P mtu) {p : Packet} (hp : P p)
    (hfits : o.buffer.length + (overhead + p.data.length) ≤ mtu.toNat) :
    Out.Holds P mtu { o with buffer := o.buffer ++ p.encode } := by
  obtain ⟨-, ps, hbuffer, hps⟩ := h.buffer
  refine ⟨⟨?_, ps ++ [p], ?_, ?_⟩, h.datagrams⟩
  · rw [List.length_append, Packet.encode_length]
    exact hfits
  · change o.buffer ++ p.encode = _
    rw [hbuffer, Packet.encodeAll, Packet.encodeAll, List.flatMap_append, List.flatMap_singleton]
  · intro q hq
    rcases List.mem_append.mp hq with hold | hnew
    · exact hps q hold
    · rw [List.mem_singleton.mp hnew]
      exact hp

theorem write (h : o.Holds P mtu) (port : Port) {p : Packet} (hp : P p)
    (hlength : overhead + p.data.length ≤ mtu.toNat) : (o.write port mtu p).Holds P mtu := by
  unfold Out.write
  dsimp only
  split
  · rename_i hfull
    have hne : o.buffer ≠ [] := by
      intro hempty
      rw [hempty, List.length_nil, Nat.zero_add] at hfull
      exact absurd hlength (Nat.not_le.mpr hfull)
    refine (h.output port hne).append hp ?_
    rw [output_buffer]
    simpa using hlength
  · rename_i hfits
    exact h.append hp (Nat.not_lt.mp hfits)

end Out.Holds

theorem fillLoop_core (k : Kcpcb) (limit nxt : UInt32) (queue buf : List Seg) :
    ∃ n, ({ k with
        sndNxt := (k.fillLoop limit nxt queue buf).1
        sndQueue := (k.fillLoop limit nxt queue buf).2.1
        sndBuf := (k.fillLoop limit nxt queue buf).2.2 } : Kcpcb).core =
      Core.number^[n] ({ k with sndNxt := nxt, sndQueue := queue, sndBuf := buf } : Kcpcb).core := by
  induction queue generalizing nxt buf with
  | nil => exact ⟨0, rfl⟩
  | cons seg queue ih =>
      rw [fillLoop]
      split
      · obtain ⟨n, hn⟩ := ih (nxt + 1) (buf ++ [k.numberSeg seg nxt])
        refine ⟨n + 1, hn.trans ?_⟩
        rw [Function.iterate_succ_apply]
        refine congrArg _ ?_
        unfold core
        simp only [List.map_append]
        rfl
      · exact ⟨0, rfl⟩

theorem fill_core (k : Kcpcb) (cwnd : UInt32) :
    ∃ n, (k.fill cwnd).core = Core.number^[n] k.core :=
  k.fillLoop_core _ _ _ _

end Kcpcb

end BallServer.Kcp
