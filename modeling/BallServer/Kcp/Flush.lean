import BallServer.Kcp.Core

/-!
# What a flush does

Main results:

- Relation {lit}`Flushed`: segments that wait get numbers, and only acknowledgements, probes
  and held segments are written, in datagrams that are not longer than the mtu.
- Theorems {lit}`Kcpcb.flush_flushed` and {lit}`Kcpcb.update_flushed`.
-/

namespace BallServer.Kcp

/-- What a flush does to the core, and its datagrams. -/
inductive Flushed (c : Core) : Core → List Bytes → Prop
  | idle : Flushed c c []
  | flushed (n : Nat) (ds : List Bytes)
      (hds : ∀ d ∈ ds, d ≠ [] ∧ Datagram ((Core.number^[n] c).Writes c.acklist) c.mtu d) :
      Flushed c { Core.number^[n] c with acklist := [] } ds

namespace Core

theorem number_fixed (c : Core) : c.number.conv = c.conv ∧ c.number.rcvNxt = c.rcvNxt ∧
    c.number.mtu = c.mtu ∧ c.number.mss = c.mss ∧ c.number.port = c.port ∧
    c.number.acklist = c.acklist := by
  unfold number
  split <;> exact ⟨rfl, rfl, rfl, rfl, rfl, rfl⟩

theorem iterate_fixed (n : Nat) (c : Core) : (number^[n] c).conv = c.conv ∧
    (number^[n] c).rcvNxt = c.rcvNxt ∧ (number^[n] c).mtu = c.mtu ∧
    (number^[n] c).mss = c.mss ∧ (number^[n] c).port = c.port ∧
    (number^[n] c).acklist = c.acklist := by
  induction n generalizing c with
  | zero => exact ⟨rfl, rfl, rfl, rfl, rfl, rfl⟩
  | succ n ih =>
      rw [Function.iterate_succ_apply]
      obtain ⟨h₁, h₂, h₃, h₄, h₅, h₆⟩ := ih c.number
      obtain ⟨g₁, g₂, g₃, g₄, g₅, g₆⟩ := c.number_fixed
      exact ⟨h₁.trans g₁, h₂.trans g₂, h₃.trans g₃, h₄.trans g₄, h₅.trans g₅, h₆.trans g₆⟩

/-- Numbers do not change the receiving half. -/
theorem iterate_received (n : Nat) (c : Core) : (number^[n] c).rcvWnd = c.rcvWnd ∧
    (number^[n] c).rcvNxt = c.rcvNxt ∧ (number^[n] c).rcvBuf = c.rcvBuf ∧
    (number^[n] c).rcvQueue = c.rcvQueue := by
  induction n generalizing c with
  | zero => exact ⟨rfl, rfl, rfl, rfl⟩
  | succ n ih =>
      have hone : c.number.rcvWnd = c.rcvWnd ∧ c.number.rcvNxt = c.rcvNxt ∧
          c.number.rcvBuf = c.rcvBuf ∧ c.number.rcvQueue = c.rcvQueue := by
        unfold number
        split <;> exact ⟨rfl, rfl, rfl, rfl⟩
      rw [Function.iterate_succ_apply]
      obtain ⟨h₁, h₂, h₃, h₄⟩ := ih c.number
      exact ⟨h₁.trans hone.1, h₂.trans hone.2.1, h₃.trans hone.2.2.1, h₄.trans hone.2.2.2⟩

theorem Wf.iterate {c : Core} (h : c.Wf) (n : Nat) : (Core.number^[n] c).Wf := by
  induction n generalizing c with
  | zero => exact h
  | succ n ih =>
      rw [Function.iterate_succ_apply]
      exact ih h.number

end Core

namespace Kcpcb

open Kcp.Core

section Writing

variable {c : Core} {acks : List (UInt32 × UInt32)} {k : Kcpcb} {o : Out}

/-- A control segment is one that a flush may write. -/
theorem control_writes (hconv : k.conv = c.conv) (huna : k.rcvNxt = c.rcvNxt) {cmd : UInt8}
    {a : UInt32 × UInt32}
    (hcmd : cmd = cmdAck ∧ a ∈ acks ∨ cmd = cmdWask ∨ cmd = cmdWins) :
    c.Writes acks (k.control cmd a) where
  conv := hconv
  una := huna
  kind := by
    rcases hcmd with ⟨hack, ha⟩ | hprobe
    · exact .inl ⟨hack, rfl, a, ha, rfl⟩
    · exact .inr (.inl ⟨hprobe, rfl⟩)

/-- So is a segment that is held. -/
theorem packet_writes (hwf : c.Wf) {seg : Seg} (hseg : seg.content ∈ c.sndBuf)
    (huna : seg.una = c.rcvNxt) : c.Writes acks seg.packet := by
  obtain ⟨hconv, hcmd, hfrg, -⟩ := hwf.buf _ hseg
  change seg.conv = c.conv at hconv
  change seg.cmd = cmdPush.toUInt32 at hcmd
  change seg.frg.toNat < 256 at hfrg
  refine ⟨hconv, huna, .inr (.inr ⟨?_, seg.content, hseg, ?_, rfl, rfl⟩)⟩
  · change seg.cmd.toUInt8 = cmdPush
    rw [hcmd]
    rfl
  · apply UInt32.toNat_inj.mp
    change seg.frg.toNat = seg.frg.toUInt8.toUInt32.toNat
    rw [UInt8.toNat_toUInt32, UInt32.toNat_toUInt8, Nat.mod_eq_of_lt hfrg]

/-- Segments that may be written, one after the other. -/
theorem Out.Holds.writes (hwf : c.Wf) (h : o.Holds (c.Writes acks) c.mtu) (port : Port)
    {p : Packet} (hp : c.Writes acks p) :
    (o.write port c.mtu p).Holds (c.Writes acks) c.mtu :=
  h.write port hp (hp.length hwf)

theorem Out.Holds.foldl (hwf : c.Wf) (h : o.Holds (c.Writes acks) c.mtu) (port : Port)
    (f : UInt32 × UInt32 → Packet) {l : List (UInt32 × UInt32)}
    (hl : ∀ a ∈ l, c.Writes acks (f a)) :
    (l.foldl (fun o a => o.write port c.mtu (f a)) o).Holds (c.Writes acks) c.mtu := by
  induction l generalizing o with
  | nil => exact h
  | cons a l ih =>
      exact ih (h.writes hwf port (hl a List.mem_cons_self))
        fun b hb => hl b (List.mem_cons_of_mem _ hb)

end Writing

section Turns

variable {c : Core} {acks : List (UInt32 × UInt32)} {k : Kcpcb} {t : Turn}

theorem transmit_done (k : Kcpcb) (t : Turn) (seg : Seg) :
    (k.transmit t seg).done.map Seg.content = t.done.map Seg.content ++ [seg.content] := by
  unfold transmit
  simp only [List.map_append, List.map_cons, List.map_nil]
  rfl

theorem transmit_out (hwf : c.Wf) (hmtu : k.mtu = c.mtu) (huna : k.rcvNxt = c.rcvNxt)
    (ht : t.out.Holds (c.Writes acks) c.mtu) {seg : Seg} (hseg : seg.content ∈ c.sndBuf) :
    (k.transmit t seg).out.Holds (c.Writes acks) c.mtu := by
  unfold transmit
  dsimp only
  rw [hmtu]
  exact ht.writes hwf k.port (packet_writes hwf hseg huna)

/-- One turn: the segment stays what it is, and at most it is written. -/
theorem flushSeg_spec (hwf : c.Wf) (hmtu : k.mtu = c.mtu) (huna : k.rcvNxt = c.rcvNxt)
    (resent rtomin : UInt32) (ht : t.out.Holds (c.Writes acks) c.mtu) {seg : Seg}
    (hseg : seg.content ∈ c.sndBuf) :
    (k.flushSeg resent rtomin t seg).done.map Seg.content =
        t.done.map Seg.content ++ [seg.content] ∧
      (k.flushSeg resent rtomin t seg).out.Holds (c.Writes acks) c.mtu := by
  have hsent (s : Seg) (hs : s.content = seg.content) :
      (k.transmit t s).done.map Seg.content = t.done.map Seg.content ++ [seg.content] ∧
        (k.transmit t s).out.Holds (c.Writes acks) c.mtu :=
    ⟨by rw [transmit_done, hs], transmit_out hwf hmtu huna ht (hs ▸ hseg)⟩
  unfold flushSeg
  split
  · exact hsent _ rfl
  · split
    · exact hsent _ rfl
    · split
      · exact hsent _ rfl
      · exact ⟨by simp, ht⟩

theorem foldl_flushSeg (hwf : c.Wf) (hmtu : k.mtu = c.mtu) (huna : k.rcvNxt = c.rcvNxt)
    (resent rtomin : UInt32) (ht : t.out.Holds (c.Writes acks) c.mtu) {buf : List Seg}
    (hbuf : ∀ seg ∈ buf, seg.content ∈ c.sndBuf) :
    (buf.foldl (k.flushSeg resent rtomin) t).done.map Seg.content =
        t.done.map Seg.content ++ buf.map Seg.content ∧
      (buf.foldl (k.flushSeg resent rtomin) t).out.Holds (c.Writes acks) c.mtu := by
  induction buf generalizing t with
  | nil => exact ⟨by simp, ht⟩
  | cons seg buf ih =>
      obtain ⟨hdone, hout⟩ := flushSeg_spec hwf hmtu huna resent rtomin ht
        (hbuf seg List.mem_cons_self)
      obtain ⟨hdone', hout'⟩ := ih hout fun x hx => hbuf x (List.mem_cons_of_mem _ hx)
      exact ⟨by rw [List.foldl_cons, hdone', hdone, List.append_assoc]; rfl, hout'⟩

end Turns

/-- The acknowledgements and the probes of a flush. -/
theorem flushProbes_holds {c : Core} (k : Kcpcb) {o : Out} (hwf : c.Wf) (hmtu : k.mtu = c.mtu)
    (hconv : k.conv = c.conv) (huna : k.rcvNxt = c.rcvNxt) {acks : List (UInt32 × UInt32)}
    (ho : o.Holds (c.Writes acks) c.mtu) :
    (k.flushProbes o).Holds (c.Writes acks) c.mtu := by
  have hask (o : Out) (ho : o.Holds (c.Writes acks) c.mtu) :=
    ho.writes hwf k.port (control_writes (a := k.acklist.getLast?.getD (0, 0)) hconv huna
      (.inr (.inl rfl)))
  have htell (o : Out) (ho : o.Holds (c.Writes acks) c.mtu) :=
    ho.writes hwf k.port (control_writes (a := k.acklist.getLast?.getD (0, 0)) hconv huna
      (.inr (.inr rfl)))
  unfold flushProbes
  rw [hmtu]
  dsimp only
  split <;> split
  · exact htell _ (hask _ ho)
  · exact htell _ ho
  · exact hask _ ho
  · exact ho

/-- The datagrams of a buffer that is flushed. -/
theorem Out.Holds.all {P : Packet → Prop} {mtu : UInt32} {o : Out} (h : o.Holds P mtu) :
    ∀ d ∈ (if o.buffer = [] then o.datagrams else o.datagrams ++ [o.buffer]),
      d ≠ [] ∧ Datagram P mtu d := by
  intro d hd
  split at hd
  · exact h.datagrams d hd
  · rename_i hne
    rcases List.mem_append.mp hd with hold | hnew
    · exact h.datagrams d hold
    · rw [List.mem_singleton.mp hnew]
      exact ⟨hne, h.buffer⟩

/-- A flush gives numbers, and writes only what it may. -/
theorem flush_flushed (k : Kcpcb) (hwf : k.core.Wf) :
    Flushed k.core k.flush.1.core k.flush.2 := by
  by_cases hupdated : k.updated = true
  · unfold flush
    rw [if_neg (by simp [hupdated])]
    dsimp only
    obtain ⟨n, hn⟩ := fill_core { k.probeWindow with acklist := [], probe := 0 }
      ({ k.probeWindow with acklist := [], probe := 0 } : Kcpcb).sendWindow
    have hcore : k.probeWindow.core = k.core := k.probeWindow_core
    have hcleared : ({ k.probeWindow with acklist := [], probe := 0 } : Kcpcb).core =
        { k.core with acklist := [] } := by
      rw [← hcore]
      rfl
    rw [hcleared] at hn
    have hiter (m : Nat) (c : Core) : Core.number^[m] { c with acklist := [] } =
        { Core.number^[m] c with acklist := [] } := by
      induction m generalizing c with
      | zero => rfl
      | succ m ih =>
          rw [Function.iterate_succ_apply, Function.iterate_succ_apply, ← ih]
          refine congrArg _ ?_
          unfold Core.number
          dsimp only
          split <;> rfl
    rw [hiter] at hn
    generalize hfill : Kcpcb.fill { k.probeWindow with acklist := [], probe := 0 }
      (Kcpcb.sendWindow { k.probeWindow with acklist := [], probe := 0 }) = k' at hn
    obtain ⟨hconv, huna, hmtu, -⟩ := Core.iterate_fixed n k.core
    have hwf' := hwf.iterate n
    have hconv₁ : k.conv = (Core.number^[n] k.core).conv := hconv.symm
    have huna₁ : k.rcvNxt = (Core.number^[n] k.core).rcvNxt := huna.symm
    have hmtu₁ : k.mtu = (Core.number^[n] k.core).mtu := hmtu.symm
    have hempty : Out.Holds ((Core.number^[n] k.core).Writes k.acklist)
        (Core.number^[n] k.core).mtu ⟨[], []⟩ :=
      ⟨empty_datagram _ _, fun _ hd => nomatch hd⟩
    have hacks : k.flushAcks.Holds ((Core.number^[n] k.core).Writes k.acklist)
        (Core.number^[n] k.core).mtu := by
      unfold flushAcks
      rw [hmtu₁]
      exact hempty.foldl hwf' k.port _ fun a ha =>
        control_writes hconv₁ huna₁ (.inl ⟨rfl, ha⟩)
    have hprobes : (k.probeWindow.flushProbes k.flushAcks).Holds
        ((Core.number^[n] k.core).Writes k.acklist) (Core.number^[n] k.core).mtu :=
      flushProbes_holds _ hwf' ((congrArg Core.mtu hcore).trans hmtu₁)
        ((congrArg Core.conv hcore).trans hconv₁) ((congrArg Core.rcvNxt hcore).trans huna₁) hacks
    have hbuf : k'.sndBuf.map Seg.content = (Core.number^[n] k.core).sndBuf :=
      congrArg Core.sndBuf hn
    obtain ⟨hdone, hout⟩ := foldl_flushSeg (t := ⟨[], k.probeWindow.flushProbes k.flushAcks,
        false, 0⟩) hwf' (congrArg Core.mtu hn) (congrArg Core.rcvNxt hn)
      (if k'.fastresend > 0 then k'.fastresend.toUInt32 else 0xffffffff)
      (if k'.nodelay = 0 then k'.rtoShift else 0) hprobes
      (fun seg hseg => hbuf ▸ List.mem_map_of_mem hseg)
    rw [congest_core]
    have hsame (buf : List Seg) (heq : buf.map Seg.content = k'.sndBuf.map Seg.content) :
        ({ k' with sndBuf := buf } : Kcpcb).core = k'.core := by
      unfold core
      rw [heq]
    rw [hsame _ hdone, hn]
    refine .flushed n _ ?_
    rw [← hmtu]
    exact hout.all
  · unfold flush
    rw [if_pos (by simp [hupdated])]
    exact .idle

theorem tick_core (k : Kcpcb) (current : UInt32) : (k.tick current).core = k.core := by
  unfold tick
  dsimp only
  split <;> split <;> rfl

/-- So does an update. -/
theorem update_flushed (k : Kcpcb) (current : UInt32) (hwf : k.core.Wf) :
    Flushed k.core (k.update current).1.core (k.update current).2 := by
  have hcore := k.tick_core current
  have hflush (k' : Kcpcb) (hk' : k'.core = k.core) :
      Flushed k.core k'.flush.1.core k'.flush.2 := by
    have h := k'.flush_flushed (by rw [hk']; exact hwf)
    rw [hk'] at h
    exact h
  unfold update
  dsimp only
  split
  · refine hflush _ ?_
    rw [← hcore]
    rfl
  · rw [hcore]
    exact .idle

end Kcpcb

end BallServer.Kcp
