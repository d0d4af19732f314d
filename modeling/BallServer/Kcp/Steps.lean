import BallServer.Arq.Flow
import BallServer.Kcp.Flush
import Mathlib.Data.List.TakeWhile

/-!
# KCP is an automatic repeat request

One direction of a link between two control blocks, as a {lit}`Flow` of fragments: the
numbers are those of the segments, and the window, the timers and the bytes are gone.  What
a control block does is a sequence of steps of the flow.

Main results:

- Definition {lit}`flow`.
- Theorems {lit}`flow_flush_sender`, {lit}`flow_flush_receiver`, {lit}`flow_input_sender`,
  {lit}`flow_input_receiver` and {lit}`flow_moveReady`: each function is a run of the flow.
-/

namespace BallServer.Kcp

open Arq
open Kcpcb (past removeContent)

/-- What is numbered: a part of a message, and how many parts of it follow. -/
abbrev Frag := UInt32 × Bytes

def Seg.frag (s : Seg) : Frag := (s.frg, s.data)
def Seg.item (s : Seg) : Nat × Frag := (s.sn.toNat, s.frag)
def Content.item (x : Content) : Nat × Frag := (x.sn.toNat, x.frg, x.data)
def Packet.item (p : Packet) : Nat × Frag := (p.sn.toNat, p.frg.toUInt32, p.data)

/-- The fragments of a message. -/
def frags (mss : UInt32) (m : Bytes) : List Frag :=
  (Kcpcb.fragment mss.toNat (Kcpcb.fragCount mss.toNat m.length) m).map Seg.frag

/-- The direction from one end to another, where {lit}`xs` and {lit}`ys` are all segments
that the two ends have output. -/
def flow (c : Core) (sent : List Bytes) (d : Core) (got : List Bytes) (xs ys : Set Packet) :
    Flow Frag where
  accepted := sent.flatMap (frags c.mss)
  waiting := c.sndQueue.map Seg.frag
  numbered := c.sndNxt.toNat
  held := c.sndBuf.map Content.item
  data := {p | ∃ q ∈ xs, q.cmd = cmdPush ∧ q.item = p}
  early := d.rcvBuf.map Seg.item
  next := d.rcvNxt.toNat
  ready := d.rcvQueue.map Seg.frag
  taken := got.flatMap (frags c.mss)
  acks := {n | (∃ a ∈ d.acklist, a.1.toNat = n) ∨ ∃ q ∈ ys, q.cmd = cmdAck ∧ q.sn.toNat = n}
  unas := {n | ∃ q ∈ ys, q.una.toNat = n}

/-- Steps of the flow. -/
abbrev Steps : Flow Frag → Flow Frag → Prop := Relation.ReflTransGen Flow.Step

section Sender

variable {c d : Core} {sent got : List Bytes} {xs ys : Set Packet}

/-! ## Sending -/

theorem toNat_succ {x : UInt32} (h : x.toNat < 2 ^ 31) : (x + 1).toNat = x.toNat + 1 := by
  rw [UInt32.toNat_add]
  change (x.toNat + 1) % 2 ^ 32 = _
  exact Nat.mod_eq_of_lt (by omega)

/-- A segment gets its number. -/
theorem flow_number (h : (flow c sent d got xs ys).Sound)
    (hsmall : (sent.flatMap (frags c.mss)).length < 2 ^ 31) :
    Steps (flow c sent d got xs ys) (flow c.number sent d got xs ys) := by
  unfold Core.number
  split
  · exact .refl
  · rename_i seg queue hqueue
    have hwaiting : (flow c sent d got xs ys).waiting = seg.frag :: queue.map Seg.frag := by
      change c.sndQueue.map Seg.frag = _
      rw [hqueue, List.map_cons]
    have hlt : c.sndNxt.toNat < (sent.flatMap (frags c.mss)).length :=
      (List.getElem?_eq_some_iff.mp (h.getElem_numbered hwaiting).1).1
    have hstep := Flow.Step.number _ _ _ hwaiting
    convert Relation.ReflTransGen.single hstep using 1
    unfold flow
    simp only [List.map_append, List.map_cons, List.map_nil, toNat_succ (hlt.trans hsmall)]
    rfl

theorem flow_iterate (n : Nat) (h : (flow c sent d got xs ys).Sound)
    (hsmall : (sent.flatMap (frags c.mss)).length < 2 ^ 31) :
    Steps (flow c sent d got xs ys) (flow (Core.number^[n] c) sent d got xs ys) := by
  induction n generalizing c with
  | zero => exact .refl
  | succ n ih =>
      rw [Function.iterate_succ_apply]
      have hfirst := flow_number h hsmall
      have hmss : c.number.mss = c.mss := c.number_fixed.2.2.2.1
      exact hfirst.trans (ih (h.steps hfirst) (by rw [hmss]; exact hsmall))

/-- What a flush means for what it sends. -/
theorem flow_flush_sender {c' : Core} {ds : List Bytes} (hflush : Flushed c c' ds)
    {new : Set Packet} (hnew : ∀ q ∈ new, ∃ b ∈ ds, q ∈ Packet.parse b) (hwf : c.Wf)
    (h : (flow c sent d got xs ys).Sound)
    (hsmall : (sent.flatMap (frags c.mss)).length < 2 ^ 31) :
    Steps (flow c sent d got xs ys) (flow c' sent d got (xs ∪ new) ys) := by
  cases hflush with
  | idle =>
      have hnone : new = ∅ := by
        ext q
        exact ⟨fun hq => by obtain ⟨b, hb, -⟩ := hnew q hq; exact (nomatch hb), fun hq => hq.elim⟩
      rw [hnone, Set.union_empty]
  | flushed n ds hds =>
      have hsteps := flow_iterate n h hsmall
      refine hsteps.tail ?_
      refine Flow.Step.transmit _ {p | ∃ q ∈ xs ∪ new, q.cmd = cmdPush ∧ q.item = p} ?_
      rintro p ⟨q, hq | hq, hcmd, rfl⟩
      · exact .inl ⟨q, hq, hcmd, rfl⟩
      · obtain ⟨b, hb, hqb⟩ := hnew q hq
        obtain ⟨-, -, ps, rfl, hps⟩ := hds b hb
        rw [Packet.parse_encodeAll fun p hp => (hps p hp).wf (hwf.iterate n)] at hqb
        rcases (hps q hqb).kind with ⟨hack, -⟩ | ⟨hprobe | hprobe, -⟩ | ⟨-, x, hx, hfrg, hsn, hdata⟩
        · rw [hcmd] at hack
          cases hack
        · rw [hcmd] at hprobe
          cases hprobe
        · rw [hcmd] at hprobe
          cases hprobe
        · refine .inr (List.mem_map.mpr ⟨x, hx, ?_⟩)
          rw [Content.item, Packet.item, hfrg, hsn, hdata]

/-- What a flush means for what it acknowledges. -/
theorem flow_flush_receiver {d' : Core} {ds : List Bytes} (hflush : Flushed d d' ds)
    {new : Set Packet} (hnew : ∀ q ∈ new, ∃ b ∈ ds, q ∈ Packet.parse b) (hwf : d.Wf) :
    Steps (flow c sent d got xs ys) (flow c sent d' got xs (ys ∪ new)) := by
  cases hflush with
  | idle =>
      have hnone : new = ∅ := by
        ext q
        exact ⟨fun hq => by obtain ⟨b, hb, -⟩ := hnew q hq; exact (nomatch hb), fun hq => hq.elim⟩
      rw [hnone, Set.union_empty]
  | flushed n ds hds =>
      have hwrites : ∀ q ∈ new, (Core.number^[n] d).Writes d.acklist q := by
        intro q hq
        obtain ⟨b, hb, hqb⟩ := hnew q hq
        obtain ⟨-, -, ps, rfl, hps⟩ := hds b hb
        rw [Packet.parse_encodeAll fun p hp => (hps p hp).wf (hwf.iterate n)] at hqb
        exact hps q hqb
      have hrcv : (flow c sent { Core.number^[n] d with acklist := [] } got xs (ys ∪ new)) =
          { flow c sent d got xs ys with
            acks := {m | ∃ q ∈ ys ∪ new, q.cmd = cmdAck ∧ q.sn.toNat = m}
            unas := {m | ∃ q ∈ ys ∪ new, q.una.toNat = m} } := by
        obtain ⟨-, -, hbuf⟩ := Core.iterate_received n d
        unfold flow
        simp only [hbuf.1, hbuf.2, (Core.iterate_fixed n d).2.1, List.not_mem_nil, false_and,
          exists_false, false_or]
      rw [hrcv]
      refine Relation.ReflTransGen.tail (.single (Flow.Step.acknowledge _
        {m | ∃ q ∈ ys ∪ new, q.cmd = cmdAck ∧ q.sn.toNat = m} ?_)) (Flow.Step.tell _ _ ?_)
      · rintro m ⟨q, hq | hq, hcmd, rfl⟩
        · exact .inl (.inr ⟨q, hq, hcmd, rfl⟩)
        · refine .inl (.inl ?_)
          rcases (hwrites q hq).kind with ⟨-, -, a, ha, hsn⟩ | ⟨hprobe | hprobe, -⟩ | ⟨hpush, -⟩
          · exact ⟨a, ha, congrArg UInt32.toNat hsn⟩
          · rw [hcmd] at hprobe
            cases hprobe
          · rw [hcmd] at hprobe
            cases hprobe
          · rw [hcmd] at hpush
            cases hpush
      · rintro m ⟨q, hq | hq, rfl⟩
        · exact .inl ⟨q, hq, rfl⟩
        · refine .inr (le_of_eq ?_)
          rw [(hwrites q hq).una, (Core.iterate_fixed n d).2.1]
          rfl

/-! ## Acknowledgements that arrive -/

theorem past_lt {port : Port} {una sn : UInt32} (huna : una.toNat < 2 ^ 31)
    (hsn : sn.toNat < 2 ^ 31) (h : past port una sn = true) : sn.toNat < una.toNat := by
  cases port with
  | ikcp => exact (itimediff_pos_iff huna hsn.le).mp (of_decide_eq_true h)
  | kcp2k => exact UInt32.lt_iff_toNat_lt.mp (of_decide_eq_true h)

theorem mem_removeContent {sn : UInt32} {buf : List Content} {x : Content}
    (h : x ∈ removeContent sn buf) : x ∈ buf := by
  induction buf with
  | nil => exact h
  | cons y buf ih =>
      rw [removeContent] at h
      split at h
      · exact List.mem_cons_of_mem _ h
      · split at h
        · exact h
        · rcases List.mem_cons.mp h with rfl | htail
          · exact List.mem_cons_self
          · exact List.mem_cons_of_mem _ (ih htail)

/-- Only the segment with the number is removed. -/
theorem mem_or_removed {sn : UInt32} {buf : List Content} {x : Content} (h : x ∈ buf) :
    x ∈ removeContent sn buf ∨ x.sn = sn := by
  induction buf with
  | nil => exact nomatch h
  | cons y buf ih =>
      rw [removeContent]
      split
      · rename_i heq
        rcases List.mem_cons.mp h with rfl | htail
        · exact .inr heq.symm
        · exact .inl htail
      · split
        · exact .inl h
        · rcases List.mem_cons.mp h with rfl | htail
          · exact .inl List.mem_cons_self
          · exact (ih htail).imp (List.mem_cons_of_mem _) id

/-- Segments are removed that the other end has acknowledged. -/
theorem flow_forget {buf : List Content} (hsub : ∀ x ∈ buf, x ∈ c.sndBuf)
    (hgone : ∀ x ∈ c.sndBuf, x ∈ buf ∨ (∃ q ∈ ys, q.cmd = cmdAck ∧ q.sn = x.sn) ∨
      ∃ q ∈ ys, x.sn.toNat < q.una.toNat) :
    Flow.Step (flow c sent d got xs ys) (flow { c with sndBuf := buf } sent d got xs ys) := by
  refine Flow.Step.forget _ (buf.map Content.item) ?_ ?_
  · intro p hp
    obtain ⟨x, hx, rfl⟩ := List.mem_map.mp hp
    exact List.mem_map_of_mem (hsub x hx)
  · intro p hp
    obtain ⟨x, hx, rfl⟩ := List.mem_map.mp hp
    rcases hgone x hx with hstay | ⟨q, hq, hcmd, hsn⟩ | ⟨q, hq, hlt⟩
    · exact .inl (List.mem_map_of_mem hstay)
    · exact .inr (.inl (.inr ⟨q, hq, hcmd, congrArg UInt32.toNat hsn⟩))
    · exact .inr (.inr ⟨q.una.toNat, ⟨q, hq, rfl⟩, hlt⟩)

/-- A segment that arrives has been told that what is below its {lit}`una` has arrived. -/
theorem flow_parseUna (h : (flow c sent d got xs ys).Sound)
    (hsmall : (sent.flatMap (frags c.mss)).length < 2 ^ 31) {q : Packet} (hq : q ∈ ys) :
    Flow.Step (flow c sent d got xs ys)
      (flow { c with sndBuf := c.sndBuf.dropWhile fun x => past c.port q.una x.sn }
        sent d got xs ys) := by
  have huna : q.una.toNat < 2 ^ 31 :=
    ((h.unas q.una.toNat ⟨q, hq, rfl⟩).trans (h.next_le.trans h.numbered_le)).trans_lt hsmall
  refine flow_forget (fun x hx => (List.dropWhile_sublist _).subset hx) fun x hx => ?_
  have hsn : x.sn.toNat < 2 ^ 31 :=
    ((h.held _ (List.mem_map_of_mem hx)).1.trans_le h.numbered_le).trans hsmall
  rw [← List.takeWhile_append_dropWhile (p := fun x => past c.port q.una x.sn)
    (l := c.sndBuf)] at hx
  rcases List.mem_append.mp hx with htaken | hdropped
  · exact .inr (.inr ⟨q, hq, past_lt huna hsn
      (List.mem_takeWhile_imp (p := fun x : Content => past c.port q.una x.sn) htaken)⟩)
  · exact .inl hdropped

/-- So has the segment of an acknowledgement. -/
theorem flow_removeContent {q : Packet} (hq : q ∈ ys) (hcmd : q.cmd = cmdAck) :
    Flow.Step (flow c sent d got xs ys)
      (flow { c with sndBuf := removeContent q.sn c.sndBuf } sent d got xs ys) :=
  flow_forget (fun _ hx => mem_removeContent hx) fun _ hx =>
    (mem_or_removed hx).imp id fun hsn => .inl ⟨q, hq, hcmd, hsn.symm⟩

/-- The flow depends only on the sending half of one end and the receiving half of the
other. -/
theorem flow_congr {c' d' : Core} (hmss : c'.mss = c.mss) (hnxt : c'.sndNxt = c.sndNxt)
    (hqueue : c'.sndQueue = c.sndQueue) (hbuf : c'.sndBuf = c.sndBuf)
    (hrnxt : d'.rcvNxt = d.rcvNxt) (hrqueue : d'.rcvQueue = d.rcvQueue)
    (hrbuf : d'.rcvBuf = d.rcvBuf) (hacks : d'.acklist = d.acklist) :
    flow c' sent d' got xs ys = flow c sent d got xs ys := by
  unfold flow
  rw [hmss, hnxt, hqueue, hbuf, hrnxt, hrqueue, hrbuf, hacks]

/-! ## Data that arrives -/

/-- What is next is handed to the queue. -/
theorem flow_moveReadyLoop (rcvWnd : UInt32) (nxt : UInt32) (buf queue : List Seg)
    (hsmall : (sent.flatMap (frags c.mss)).length < 2 ^ 31)
    (h : (flow c sent { d with rcvNxt := nxt, rcvBuf := buf, rcvQueue := queue }
      got xs ys).Sound) :
    Steps (flow c sent { d with rcvNxt := nxt, rcvBuf := buf, rcvQueue := queue } got xs ys)
      (flow c sent { d with
        rcvNxt := (Kcpcb.moveReadyLoop rcvWnd nxt buf queue).1
        rcvBuf := (Kcpcb.moveReadyLoop rcvWnd nxt buf queue).2.1
        rcvQueue := (Kcpcb.moveReadyLoop rcvWnd nxt buf queue).2.2 } got xs ys) := by
  induction buf generalizing nxt queue with
  | nil => exact .refl
  | cons seg buf ih =>
      rw [Kcpcb.moveReadyLoop]
      split
      · rename_i hmove
        have hitem : (nxt.toNat, seg.frag) = seg.item := by rw [Seg.item, hmove.1]
        have hmem : (nxt.toNat, seg.frag) ∈ (seg :: buf).map Seg.item := by
          rw [hitem]
          exact List.mem_map_of_mem List.mem_cons_self
        have hlt : nxt.toNat < 2 ^ 31 :=
          ((h.early _ hmem).1.trans_le h.numbered_le).trans hsmall
        have hstep := Flow.Step.release (flow c sent
            { d with rcvNxt := nxt, rcvBuf := seg :: buf, rcvQueue := queue } got xs ys)
          seg.frag (buf.map Seg.item) hmem
          (fun p hp => List.mem_cons_of_mem _ hp) (fun p hp hne => by
            rcases List.mem_cons.mp hp with rfl | htail
            · exact absurd (congrArg UInt32.toNat hmove.1) hne
            · exact htail)
        have hnext : flow c sent
            { d with rcvNxt := nxt + 1, rcvBuf := buf, rcvQueue := queue ++ [seg] } got xs ys =
            { flow c sent { d with rcvNxt := nxt, rcvBuf := seg :: buf, rcvQueue := queue }
                got xs ys with
              early := buf.map Seg.item
              next := nxt.toNat + 1
              ready := queue.map Seg.frag ++ [seg.frag] } := by
          unfold flow
          simp only [List.map_append, List.map_cons, List.map_nil, toNat_succ hlt]
        have hsteps := Relation.ReflTransGen.single hstep
        have hsound := h.step hstep
        change Steps _ { flow c sent _ got xs ys with
          early := _, next := nxt.toNat + 1, ready := queue.map Seg.frag ++ [seg.frag] } at hsteps
        rw [← hnext] at hsteps
        refine hsteps.trans (ih _ _ ?_)
        rw [hnext]
        exact hsound
      · exact .refl

theorem mem_insertBack (new : Seg) (buf : List Seg) :
    (∀ x ∈ buf, x ∈ Kcpcb.insertBack new buf) ∧
      (∀ x ∈ Kcpcb.insertBack new buf, x ∈ buf ∨ x = new) ∧
      ∃ x ∈ Kcpcb.insertBack new buf, x.sn = new.sn := by
  induction buf with
  | nil =>
      exact ⟨fun x hx => absurd hx List.not_mem_nil, fun x hx => .inr (List.mem_singleton.mp hx),
        new, List.mem_singleton.mpr rfl, rfl⟩
  | cons seg buf ih =>
      obtain ⟨hkeep, hnew, x, hx, hsn⟩ := ih
      rw [Kcpcb.insertBack]
      split
      · rename_i heq
        exact ⟨fun y hy => hy, fun y hy => .inl hy, seg, List.mem_cons_self, heq⟩
      · split
        · refine ⟨fun y hy => List.mem_cons_of_mem _ hy, fun y hy => ?_,
            new, List.mem_cons_self, rfl⟩
          rcases List.mem_cons.mp hy with rfl | htail
          · exact .inr rfl
          · exact .inl htail
        · refine ⟨fun y hy => ?_, fun y hy => ?_, x, List.mem_cons_of_mem _ hx, hsn⟩
          · rcases List.mem_cons.mp hy with rfl | htail
            · exact List.mem_cons_self
            · exact List.mem_cons_of_mem _ (hkeep y htail)
          · rcases List.mem_cons.mp hy with rfl | htail
            · exact .inl List.mem_cons_self
            · exact (hnew y htail).imp (List.mem_cons_of_mem _) id

end Sender

/-- A segment with data: it is put in order, and acknowledged. -/
theorem flow_inputPush {c : Core} {k : Kcpcb} {sent got : List Bytes} {xs ys : Set Packet}
    (h : (flow c sent k.core got xs ys).Sound)
    (hsmall : (sent.flatMap (frags c.mss)).length < 2 ^ 31) {q : Packet} (hq : q ∈ xs)
    (hcmd : q.cmd = cmdPush) :
    Steps (flow c sent k.core got xs ys) (flow c sent (k.inputPush q).core got xs ys) := by
  have hdata : q.item ∈ (flow c sent k.core got xs ys).data := ⟨q, hq, hcmd, rfl⟩
  have hsn : q.sn.toNat < 2 ^ 31 := ((h.data _ hdata).1.trans_le h.numbered_le).trans hsmall
  have hnxt : k.rcvNxt.toNat < 2 ^ 31 := (h.next_le.trans h.numbered_le).trans_lt hsmall
  -- an acknowledgement of what has arrived is the last step in either case
  have hack {k' : Kcpcb} (hsteps : Steps (flow c sent k.core got xs ys)
      (flow c sent { k'.core with acklist := k.acklist } got xs ys))
      (hacks : k'.acklist = k.acklist ++ [(q.sn, q.ts)])
      (harrived : (flow c sent { k'.core with acklist := k.acklist } got xs ys).Arrived
        q.sn.toNat) : Steps (flow c sent k.core got xs ys) (flow c sent k'.core got xs ys) := by
    refine hsteps.tail (Flow.Step.acknowledge _ _ ?_)
    rintro n (⟨a, ha, rfl⟩ | hpacket)
    · change a ∈ k'.acklist at ha
      rw [hacks] at ha
      rcases List.mem_append.mp ha with hold | hnew
      · exact .inl (.inl ⟨a, hold, rfl⟩)
      · rw [List.mem_singleton.mp hnew]
        exact .inr harrived
    · exact .inl (.inr hpacket)
  unfold Kcpcb.inputPush
  split
  · rename_i hwindow
    dsimp only
    split
    · rename_i hnew
      unfold Kcpcb.parseData
      have hguard : ¬ (itimediff q.seg.sn ((k.ackPush q.sn q.ts).rcvNxt +
          (k.ackPush q.sn q.ts).rcvWnd) ≥ 0 ∨
          itimediff q.seg.sn (k.ackPush q.sn q.ts).rcvNxt < 0) := by
        rintro (hfar | hold)
        · exact absurd hwindow (not_lt.mpr hfar)
        · exact absurd hold (not_lt.mpr hnew)
      rw [if_neg hguard]
      obtain ⟨hkeep, hmem, x, hx, hxsn⟩ := mem_insertBack q.seg
        k.rcvBuf.reverse
      have harrive := Flow.Step.arrive (flow c sent k.core got xs ys)
        (((Kcpcb.insertBack q.seg k.rcvBuf.reverse).reverse).map Seg.item)
        (fun p hp => by
          obtain ⟨y, hy, rfl⟩ := List.mem_map.mp hp
          exact List.mem_map_of_mem
            (List.mem_reverse.mpr (hkeep y (List.mem_reverse.mpr hy))))
        (fun p hp => by
          obtain ⟨y, hy, rfl⟩ := List.mem_map.mp hp
          rcases hmem y (List.mem_reverse.mp hy) with hold | rfl
          · exact .inl (List.mem_map_of_mem (List.mem_reverse.mp hold))
          · exact .inr hdata)
      have harrived : (flow c sent { k.core with
          rcvBuf := (Kcpcb.insertBack q.seg k.rcvBuf.reverse).reverse } got xs ys).Sound :=
        h.step harrive
      have hsteps := flow_moveReadyLoop k.rcvWnd k.rcvNxt
        (Kcpcb.insertBack q.seg k.rcvBuf.reverse).reverse k.rcvQueue hsmall harrived
      have hall := Relation.ReflTransGen.head harrive hsteps
      exact hack hall rfl (Flow.arrived_of_steps hsteps (.inr ⟨x.item,
        List.mem_map_of_mem (List.mem_reverse.mpr hx), congrArg UInt32.toNat hxsn⟩))
    · rename_i hold
      refine hack .refl rfl (.inl ?_)
      exact Nat.lt_of_not_le fun hle => hold ((itimediff_nonneg_iff hsn hnxt.le).mpr hle)
  · exact .refl

/-! ## Input -/

/-- The receiving half of a core is replaced. -/
def Core.withReceived (c r : Core) : Core :=
  { c with rcvNxt := r.rcvNxt, rcvQueue := r.rcvQueue, rcvBuf := r.rcvBuf, acklist := r.acklist }

namespace Kcpcb

/-- Data that arrives changes only the receiving half. -/
theorem inputPush_core (k : Kcpcb) (q : Packet) :
    (k.inputPush q).core = k.core.withReceived (k.inputPush q).core := by
  unfold inputPush
  split
  · dsimp only
    split
    · unfold parseData
      split <;> rfl
    · rfl
  · rfl

/-- The start of one turn of the loop of {lit}`ikcp_input`. -/
def inputUna (k : Kcpcb) (q : Packet) : Kcpcb :=
  (({ k with rmtWnd := q.wnd.toUInt32 } : Kcpcb).parseUna q.una).shrinkBuf

theorem inputUna_core (k : Kcpcb) (q : Packet) : (k.inputUna q).core =
    { k.core with sndBuf := k.core.sndBuf.dropWhile fun x => past k.core.port q.una x.sn } := by
  unfold inputUna
  rw [shrinkBuf_core, parseUna_core]
  rfl

theorem inputSegment_eq (k : Kcpcb) (a : Acked) (q : Packet) : k.inputSegment a q =
    if q.cmd = cmdAck then (k.inputUna q).inputAck a q
    else if q.cmd = cmdPush then ((k.inputUna q).inputPush q, a)
    else if q.cmd = cmdWask then
      ({ k.inputUna q with probe := (k.inputUna q).probe ||| askTell }, a)
    else (k.inputUna q, a) := rfl

section Input

variable {c d : Core} {k : Kcpcb} {sent got sent' got' : List Bytes} {xs ys : Set Packet}
  {q : Packet}

/-- One segment that arrives, for what the end sends. -/
theorem inputSegment_sender (a : Acked) (h : (flow k.core sent d got xs ys).Sound)
    (hsmall : (sent.flatMap (frags k.mss)).length < 2 ^ 31) (hq : q ∈ ys) :
    Steps (flow k.core sent d got xs ys)
      (flow (k.inputSegment a q).1.core sent d got xs ys) := by
  have huna := flow_parseUna h hsmall hq
  rw [← inputUna_core] at huna
  have hfirst := Relation.ReflTransGen.single huna
  rw [inputSegment_eq]
  split
  · rename_i hcmd
    rcases inputAck_core (k.inputUna q) a q with hsame | hremoved
    · rw [hsame]
      exact hfirst
    · rw [hremoved]
      exact hfirst.tail (flow_removeContent hq hcmd)
  · split
    · dsimp only
      rw [inputPush_core]
      exact hfirst
    · split <;> exact hfirst

/-- One segment that arrives, for what the end receives. -/
theorem inputSegment_receiver (a : Acked) (h : (flow c sent k.core got xs ys).Sound)
    (hsmall : (sent.flatMap (frags c.mss)).length < 2 ^ 31) (hq : q ∈ xs) :
    Steps (flow c sent k.core got xs ys)
      (flow c sent (k.inputSegment a q).1.core got xs ys) := by
  have hsame : flow c sent (k.inputUna q).core got xs ys = flow c sent k.core got xs ys := by
    rw [inputUna_core]
    exact flow_congr rfl rfl rfl rfl rfl rfl rfl rfl
  rw [inputSegment_eq]
  split
  · rw [← hsame]
    rcases inputAck_core (k.inputUna q) a q with hack | hack
    · rw [hack]
    · rw [hack]
      exact .refl
  · split
    · rename_i hcmd
      rw [← hsame] at h ⊢
      exact flow_inputPush h hsmall hq hcmd
    · rw [← hsame]
      split <;> exact .refl

theorem inputSegment_mss (k : Kcpcb) (a : Acked) (q : Packet) :
    (k.inputSegment a q).1.mss = k.mss := by
  have huna : (k.inputUna q).core.mss = k.core.mss := by rw [inputUna_core]
  rw [inputSegment_eq]
  split
  · rcases inputAck_core (k.inputUna q) a q with hack | hack <;>
      exact (congrArg Core.mss hack).trans huna
  · split
    · exact (congrArg Core.mss ((k.inputUna q).inputPush_core q)).trans huna
    · split <;> exact huna

/-- The sending half of one end by itself after a segment has arrived. -/
theorem inputSegment_wf (a : Acked) (q : Packet) (h : k.core.Wf) :
    (k.inputSegment a q).1.core.Wf ∧ (k.inputSegment a q).1.core.mtu = k.core.mtu := by
  have huna : (k.inputUna q).core.Wf ∧ (k.inputUna q).core.mtu = k.core.mtu := by
    rw [inputUna_core]
    exact ⟨{ h with buf := fun x hx => h.buf x ((List.dropWhile_sublist _).subset hx) }, rfl⟩
  obtain ⟨hwf, hmtu⟩ := huna
  rw [inputSegment_eq]
  split
  · rcases inputAck_core (k.inputUna q) a q with hack | hack
    · rw [hack]
      exact ⟨hwf, hmtu⟩
    · rw [hack]
      exact ⟨{ hwf with buf := fun x hx => hwf.buf x (mem_removeContent hx) }, hmtu⟩
  · split
    · dsimp only
      rw [inputPush_core]
      exact ⟨{ hwf with }, hmtu⟩
    · split <;> exact ⟨hwf, hmtu⟩

theorem inputAll_wf (a : Acked) (ps : List Packet) (h : k.core.Wf) :
    (k.inputAll a ps).1.core.Wf ∧ (k.inputAll a ps).1.core.mtu = k.core.mtu ∧
      (k.inputAll a ps).1.conv = k.conv := by
  induction ps generalizing k a with
  | nil => exact ⟨h, rfl, rfl⟩
  | cons p ps ih =>
      rw [inputAll_cons]
      obtain ⟨hwf, hmtu⟩ := inputSegment_wf a p h
      obtain ⟨hwf', hmtu', hconv'⟩ := ih (k.inputSegment a p).2 hwf
      exact ⟨hwf', hmtu'.trans hmtu, hconv'.trans (inputSegment_conv _ _ _)⟩

/-- A datagram is a run of both directions. -/
theorem inputAll_steps (a : Acked) {ps : List Packet} (hwf : k.core.Wf)
    (h : (flow k.core sent d got xs ys).Sound) (h' : (flow d sent' k.core got' ys xs).Sound)
    (hsmall : (sent.flatMap (frags k.mss)).length < 2 ^ 31)
    (hsmall' : (sent'.flatMap (frags d.mss)).length < 2 ^ 31) (hps : ∀ p ∈ ps, p ∈ ys) :
    Steps (flow k.core sent d got xs ys) (flow (k.inputAll a ps).1.core sent d got xs ys) ∧
      Steps (flow d sent' k.core got' ys xs)
        (flow d sent' (k.inputAll a ps).1.core got' ys xs) := by
  induction ps generalizing k a with
  | nil => exact ⟨.refl, .refl⟩
  | cons p ps ih =>
      have hp := hps p List.mem_cons_self
      have hout := inputSegment_sender a h hsmall hp
      have hin := inputSegment_receiver a h' hsmall' hp
      rw [inputAll_cons]
      obtain ⟨hout', hin'⟩ := ih (k.inputSegment a p).2 (inputSegment_wf a p hwf).1
        (h.steps hout) (h'.steps hin) (by rw [inputSegment_mss]; exact hsmall) fun q hq => hps q (List.mem_cons_of_mem _ hq)
      exact ⟨hout.trans hout', hin.trans hin'⟩

end Input

/-- A genuine datagram is accepted, and taken segment by segment. -/
theorem input_core (k : Kcpcb) {ps : List Packet} (hne : ps ≠ [])
    (hps : ∀ p ∈ ps, p.Wf k.conv) :
    (k.input (Packet.encodeAll ps)).1.core = (k.inputAll ⟨false, 0, 0⟩ ps).1.core ∧
      (k.input (Packet.encodeAll ps)).2 = 0 := by
  have hlength : ¬ (Packet.encodeAll ps).length < overhead := by
    obtain ⟨p, qs, rfl⟩ := List.exists_cons_of_ne_nil hne
    rw [Packet.encodeAll_cons, List.length_append, Packet.header_length]
    omega
  unfold input
  rw [if_neg hlength, inputLoop_encode _ hps]
  dsimp only
  rw [if_neg (by decide)]
  refine ⟨?_, rfl⟩
  rw [grow_core]
  split
  · exact parseFastack_core _ _
  · rfl

end Kcpcb

end BallServer.Kcp
