import BallServer.Kcp.Link

/-!
# What a link delivers

Main results:

- Theorem {lit}`Link.start_sound`: a link is sound at the start, whatever its settings.
- Theorem {lit}`Link.received_in_order`: what an end has received is what the other one has
  sent, in order.
- Theorem {lit}`Link.datagrams_accepted`: no end refuses a datagram of the other one.
-/

namespace BallServer.Kcp

open Arq

namespace Kcpcb

theorem setNodelay_core (k : Kcpcb) (nodelay interval resend nc : Int32) :
    (k.setNodelay nodelay interval resend nc).core = k.core := by
  unfold setNodelay
  dsimp only
  split <;> rfl

/-- A mtu that is accepted is a small positive number. -/
theorem mtu_bounds {mtu : Int32} (h : ¬ mtu < 50) :
    50 ≤ mtu.toUInt32.toNat ∧ mtu.toUInt32.toNat < 2 ^ 31 := by
  have hle : (50 : Int) ≤ mtu.toInt := by
    have hnot := mt Int32.lt_iff_toInt_lt.mpr h
    exact Int.not_lt.mp hnot
  have hsign := toInt32_toInt mtu.toUInt32
  rw [Int32.toInt32_toUInt32] at hsign
  have hlt := mtu.toUInt32.toNat_lt
  split at hsign <;> omega

/-- A control block that has not been used. -/
structure Unused (k : Kcpcb) : Prop where
  wf : k.core.Wf
  sndNxt : k.sndNxt = 0
  rcvNxt : k.rcvNxt = 0
  sndQueue : k.sndQueue = []
  rcvQueue : k.rcvQueue = []
  sndBuf : k.sndBuf = []
  rcvBuf : k.rcvBuf = []
  acklist : k.acklist = []

theorem create_unused (port : Port) (conv : UInt32) : (create port conv).Unused where
  wf := by
    have hnone {α : Type} {P : α → Prop} : ∀ x ∈ ([] : List α), P x :=
      fun _ hx => absurd hx List.not_mem_nil
    cases port with
    | ikcp =>
        exact ⟨rfl, show (1400 : UInt32).toNat < 2 ^ 31 by decide,
          show 0 < (1400 - 24 : UInt32).toNat by decide, hnone, hnone⟩
    | kcp2k =>
        exact ⟨rfl, show (1200 : UInt32).toNat < 2 ^ 31 by decide,
          show 0 < (1200 - 24 : UInt32).toNat by decide, hnone, hnone⟩
  sndNxt := rfl
  rcvNxt := rfl
  sndQueue := rfl
  rcvQueue := rfl
  sndBuf := rfl
  rcvBuf := rfl
  acklist := rfl

theorem Unused.of_core {k k' : Kcpcb} (h : k.Unused) (hcore : k'.core = k.core) :
    k'.Unused where
  wf := hcore ▸ h.wf
  sndNxt := (congrArg Core.sndNxt hcore).trans h.sndNxt
  rcvNxt := (congrArg Core.rcvNxt hcore).trans h.rcvNxt
  sndQueue := (congrArg Core.sndQueue hcore).trans h.sndQueue
  rcvQueue := (congrArg Core.rcvQueue hcore).trans h.rcvQueue
  sndBuf := by
    have hbuf : k'.sndBuf.map Seg.content = k.sndBuf.map Seg.content :=
      congrArg Core.sndBuf hcore
    rw [h.sndBuf] at hbuf
    exact List.map_eq_nil_iff.mp hbuf
  rcvBuf := (congrArg Core.rcvBuf hcore).trans h.rcvBuf
  acklist := (congrArg Core.acklist hcore).trans h.acklist

theorem Unused.setmtu {k : Kcpcb} (h : k.Unused) (mtu : Int32) : (k.setmtu mtu).Unused := by
  unfold Kcpcb.setmtu
  split
  · exact h
  · rename_i hmtu
    obtain ⟨hlow, hhigh⟩ := mtu_bounds hmtu
    have hsub : (mtu.toUInt32 - 24).toNat = mtu.toUInt32.toNat - 24 := by
      rw [UInt32.toNat_sub]
      change (2 ^ 32 - 24 + mtu.toUInt32.toNat) % 2 ^ 32 = _
      omega
    have hcore : ({ k with mtu := mtu.toUInt32, mss := mtu.toUInt32 - 24 } : Kcpcb).core.Wf := {
      mtu := by
        change mtu.toUInt32.toNat = (mtu.toUInt32 - 24).toNat + 24
        omega
      mtu_lt := hhigh
      mss_pos := by
        change 0 < (mtu.toUInt32 - 24).toNat
        omega
      queue := by
        intro x hx
        change x ∈ k.sndQueue at hx
        rw [h.sndQueue] at hx
        exact absurd hx List.not_mem_nil
      buf := by
        intro x hx
        change x ∈ k.sndBuf.map Seg.content at hx
        rw [h.sndBuf] at hx
        exact absurd hx List.not_mem_nil }
    exact { h with wf := hcore }

/-- A control block with any settings has not been used. -/
theorem fresh_unused (port : Port) (conv : UInt32) (o : Options) :
    (fresh port conv o).Unused := by
  have hset := (create_unused port conv).of_core
    ((create port conv).setNodelay_core o.nodelay o.interval o.resend o.nc)
  have hwnd : (((create port conv).setNodelay o.nodelay o.interval o.resend o.nc).wndsize
      o.sndwnd o.rcvwnd).Unused := { hset with wf := { hset.wf with } }
  exact (hwnd.setmtu o.mtu).of_core rfl

theorem fresh_conv (port : Port) (conv : UInt32) (o : Options) :
    (fresh port conv o).conv = conv := by
  have hset := congrArg Core.conv
    ((create port conv).setNodelay_core o.nodelay o.interval o.resend o.nc)
  unfold fresh Kcpcb.setmtu
  split <;> exact hset

end Kcpcb

namespace Link

variable {conv : UInt32} {port : Side → Port} {options : Side → Kcpcb.Options} {l : Link}

/-- A link is sound at the start. -/
theorem start_sound : (start conv port options).Sound where
  flow s := by
    have hout := Kcpcb.fresh_unused (port s) conv (options s)
    have hin := Kcpcb.fresh_unused (port s.other) conv (options s.other)
    have hpackets (t : Side) : (start conv port options).packets t = ∅ := no_packets
    have hflow : (start conv port options).flow s = Flow.start := by
      unfold flow Kcp.flow
      rw [hpackets, hpackets]
      simp only [start, Kcpcb.core, hout.sndNxt, hout.sndQueue, hout.sndBuf, hin.rcvNxt,
        hin.rcvQueue, hin.rcvBuf, hin.acklist, List.map_nil, List.flatMap_nil,
        Set.mem_empty_iff_false, List.not_mem_nil, false_and, exists_false, or_self]
      rfl
    rw [hflow]
    exact Flow.start_sound
  wf s := (Kcpcb.fresh_unused (port s) conv (options s)).wf
  conv s := (Kcpcb.fresh_conv ..).trans (Kcpcb.fresh_conv ..).symm
  wire s d hd := absurd hd List.not_mem_nil
  order s := List.prefix_rfl

/-- What an end has received is what the other one has sent, in order. -/
theorem received_in_order (h : Reach (start conv port options) l) (hsmall : l.Small) (s : Side) :
    (l.ends s.other).got <+: (l.ends s).sent :=
  (h.sound start_sound hsmall).order s

/-- A word, in a datagram of the client. -/
def wordData : Bytes :=
  [7, 0, 0, 0, 81, 0, 128, 0, 0, 0, 0, 0, 0, 0, 0, 0, 0, 0, 0, 0, 2, 0, 0, 0, 104, 105]

/-- The client says a word, the gateway hears it and says so. -/
def word : Link :=
  (start 7 (fun s => if s = .client then .kcp2k else .ikcp)
      fun _ => ⟨1, 10, 2, 1, 128, 128, 1200, 10⟩).run
    [.send .client [104, 105], .update .client 0,
      .input .gateway wordData, .recv .gateway 100, .update .gateway 0,
      .input .client [7, 0, 0, 0, 82, 0, 128, 0, 0, 0, 0, 0, 0, 0, 0, 0, 1, 0, 0, 0, 0, 0, 0, 0]]

theorem word_small : word.Small := by
  intro s
  change ((word.ends s).sent.flatMap (frags (word.ends s).kcp.mss)).length < 2 ^ 31
  cases s <;> decide +kernel

theorem received_in_order_word :
    (word.ends .gateway).got = [[104, 105]] ∧
      (word.ends .gateway).got <+: (word.ends .client).sent :=
  ⟨by decide +kernel, received_in_order (Reach.start.run _) word_small .client⟩

/-- No end refuses a datagram of the other one, and none is longer than the mtu. -/
theorem datagrams_accepted (h : Reach (start conv port options) l) (hsmall : l.Small) (s : Side)
    {d : Bytes} (hd : d ∈ l.wire s.other) :
    ((l.ends s).kcp.input d).2 = 0 ∧ d.length ≤ (l.ends s.other).kcp.mtu.toNat := by
  have hsound := h.sound start_sound hsmall
  obtain ⟨ps, hne, rfl, hps, -⟩ := wire_packets hsound s hd
  exact ⟨(Kcpcb.input_core _ hne hps).2, (hsound.wire _ _ hd).2.1⟩

theorem datagrams_accepted_word :
    ((word.ends .gateway).kcp.input wordData).2 = 0 ∧
      wordData.length ≤ (word.ends .client).kcp.mtu.toNat :=
  datagrams_accepted (Reach.start.run _) word_small .gateway (by decide +kernel)

end Link

end BallServer.Kcp
