import BallServer.Kcp.Delivery
import Mathlib.Data.List.Perm.Subperm

/-!
# The receive window

Whatever bytes an end is given, it keeps no more than a window of segments in
{lit}`rcv_buf` and no more than a window in {lit}`rcv_queue`: a segment is kept only if its
number is within the window, and only once.  The numbers may wrap around.

Main results:

- Structure {lit}`Windowed`: {lit}`rcv_buf` is in order, within the window, and what is
  next is not left in it.
- Theorem {lit}`Kcpcb.Reach.windowed`: it holds whatever is called with whatever bytes.
- Theorem {lit}`Kcpcb.fresh_reach_bounded`: what an end holds is bounded.
-/

namespace BallServer.Kcp

/-- How far a number is ahead of the next one. -/
def ahead (nxt : UInt32) (seg : Seg) : Nat := (seg.sn - nxt).toNat

/-- The numbers are in the window, in order. -/
structure InOrder (nxt wnd : UInt32) (buf : List Seg) : Prop where
  sorted : buf.Pairwise fun x y => ahead nxt x < ahead nxt y
  within : ∀ x ∈ buf, ahead nxt x < wnd.toNat

/-- What holds of the receiving half of an end. -/
structure Windowed (c : Core) : Prop where
  wnd : c.rcvWnd.toNat < 2 ^ 31
  order : InOrder c.rcvNxt c.rcvWnd c.rcvBuf
  queue : c.rcvQueue.length ≤ c.rcvWnd.toNat
  moved : (∀ x ∈ c.rcvBuf, x.sn ≠ c.rcvNxt) ∨ c.rcvQueue.length = c.rcvWnd.toNat

/-- The difference of two numbers that are not far ahead. -/
theorem itimediff_ahead {nxt a b : UInt32} (ha : (a - nxt).toNat < 2 ^ 31)
    (hb : (b - nxt).toNat ≤ 2 ^ 31) :
    itimediff a b = ((a - nxt).toNat : Int) - (b - nxt).toNat := by
  have hdiff : a - b = (a - nxt) - (b - nxt) := by
    apply UInt32.toBitVec_inj.mp
    simp only [UInt32.toBitVec_sub]
    bv_omega
  have hcongr : itimediff a b = itimediff (a - nxt) (b - nxt) := by
    unfold itimediff
    rw [hdiff]
  rw [hcongr]
  exact itimediff_of_near (by omega) (by omega)

theorem itimediff_self_nonneg_iff {a nxt : UInt32} :
    0 ≤ itimediff a nxt ↔ (a - nxt).toNat < 2 ^ 31 := by
  have hlt := (a - nxt).toNat_lt
  rw [itimediff, toInt32_toInt]
  split <;> omega

theorem sub_self_toNat (nxt : UInt32) : (nxt - nxt).toNat = 0 := by
  rw [UInt32.sub_self]
  rfl

theorem add_sub_toNat (nxt wnd : UInt32) : (nxt + wnd - nxt).toNat = wnd.toNat := by
  congr 1
  apply UInt32.toBitVec_inj.mp
  simp only [UInt32.toBitVec_sub, UInt32.toBitVec_add]
  bv_omega

/-- Only what is within the window is kept. -/
theorem within_window {sn nxt wnd : UInt32} (hwnd : wnd.toNat < 2 ^ 31)
    (hfar : itimediff sn (nxt + wnd) < 0) (hold : 0 ≤ itimediff sn nxt) :
    (sn - nxt).toNat < wnd.toNat := by
  have hnear := itimediff_self_nonneg_iff.mp hold
  have hend : (nxt + wnd - nxt).toNat ≤ 2 ^ 31 := by
    rw [add_sub_toNat]
    exact hwnd.le
  have hdiff := itimediff_ahead hnear hend
  rw [add_sub_toNat] at hdiff
  omega

/-- The next number moves on. -/
theorem ahead_succ {nxt : UInt32} {seg : Seg} (h : 0 < ahead nxt seg) :
    ahead (nxt + 1) seg = ahead nxt seg - 1 := by
  have hsub : seg.sn - (nxt + 1) = (seg.sn - nxt) - 1 := by
    apply UInt32.toBitVec_inj.mp
    simp only [UInt32.toBitVec_sub, UInt32.toBitVec_add]
    bv_omega
  unfold ahead at h ⊢
  rw [hsub, UInt32.toNat_sub]
  have hlt := (seg.sn - nxt).toNat_lt
  change (2 ^ 32 - 1 + (seg.sn - nxt).toNat) % 2 ^ 32 = _
  omega

theorem ahead_eq_zero {nxt : UInt32} {seg : Seg} : ahead nxt seg = 0 ↔ seg.sn = nxt := by
  constructor
  · intro h
    have hzero : seg.sn - nxt = 0 := UInt32.toNat_inj.mp h
    have hback := congrArg (· + nxt) hzero
    simpa using hback
  · rintro h
    rw [ahead, h]
    exact sub_self_toNat nxt

namespace Kcpcb

/-- The loop leaves nothing that is next, unless the queue is full. -/
theorem moveReadyLoop_inOrder {wnd : UInt32} {nxt : UInt32} {buf queue : List Seg}
    (h : InOrder nxt wnd buf) (hqueue : queue.length ≤ wnd.toNat) :
    InOrder (moveReadyLoop wnd nxt buf queue).1 wnd (moveReadyLoop wnd nxt buf queue).2.1 ∧
      (moveReadyLoop wnd nxt buf queue).2.2.length ≤ wnd.toNat ∧
      ((∀ x ∈ (moveReadyLoop wnd nxt buf queue).2.1,
          x.sn ≠ (moveReadyLoop wnd nxt buf queue).1) ∨
        (moveReadyLoop wnd nxt buf queue).2.2.length = wnd.toNat) := by
  induction buf generalizing nxt queue with
  | nil => exact ⟨h, hqueue, .inl fun x hx => absurd hx List.not_mem_nil⟩
  | cons seg buf ih =>
      obtain ⟨hfirst, hrest⟩ := List.pairwise_cons.mp h.sorted
      rw [moveReadyLoop]
      split
      · rename_i hmove
        have hzero : ahead nxt seg = 0 := ahead_eq_zero.mpr hmove.1
        have hpos (x : Seg) (hx : x ∈ buf) : 0 < ahead nxt x := hzero ▸ hfirst x hx
        refine ih ⟨?_, fun x hx => ?_⟩ (by rw [List.length_append]; exact hmove.2)
        · refine hrest.imp_of_mem fun {x y} hx hy hlt => ?_
          have hxpos := hpos x hx
          rw [ahead_succ hxpos, ahead_succ (hpos y hy)]
          omega
        · have hwithin := h.within x (List.mem_cons_of_mem _ hx)
          rw [ahead_succ (hpos x hx)]
          omega
      · rename_i hstay
        refine ⟨h, hqueue, ?_⟩
        by_cases hsn : seg.sn = nxt
        · exact .inr (le_antisymm hqueue (Nat.not_lt.mp fun hlt => hstay ⟨hsn, hlt⟩))
        · refine .inl fun x hx hxsn => ?_
          rcases List.mem_cons.mp hx with rfl | htail
          · exact hsn hxsn
          · exact absurd (hfirst x htail) (by rw [ahead_eq_zero.mpr hxsn]; omega)

/-- A segment is put where it belongs, or it is there already. -/
theorem insertBack_sorted {nxt wnd : UInt32} (hwnd : wnd.toNat < 2 ^ 31) {new : Seg}
    (hnew : ahead nxt new < wnd.toNat) {buf : List Seg}
    (hsorted : buf.Pairwise fun x y => ahead nxt y < ahead nxt x)
    (hwithin : ∀ x ∈ buf, ahead nxt x < wnd.toNat) :
    (insertBack new buf).Pairwise fun x y => ahead nxt y < ahead nxt x := by
  induction buf with
  | nil => exact List.pairwise_singleton _ _
  | cons seg buf ih =>
      obtain ⟨hfirst, hrest⟩ := List.pairwise_cons.mp hsorted
      have hseg := hwithin seg List.mem_cons_self
      have hdiff : itimediff new.sn seg.sn = (ahead nxt new : Int) - ahead nxt seg :=
        itimediff_ahead (hnew.trans hwnd) (hseg.trans hwnd).le
      rw [insertBack]
      split
      · exact hsorted
      · rename_i hne
        split
        · rename_i hlater
          have hlt : ahead nxt seg < ahead nxt new := by omega
          refine List.pairwise_cons.mpr ⟨fun x hx => ?_, hsorted⟩
          rcases List.mem_cons.mp hx with rfl | htail
          · exact hlt
          · exact (hfirst x htail).trans hlt
        · rename_i hnot
          refine List.pairwise_cons.mpr ⟨fun x hx => ?_,
            ih hrest fun x hx => hwithin x (List.mem_cons_of_mem _ hx)⟩
          rcases (mem_insertBack new buf).2.1 x hx with hold | rfl
          · exact hfirst x hold
          · have hdistinct : ahead nxt x ≠ ahead nxt seg := by
              intro heq
              have hsub : x.sn - nxt = seg.sn - nxt := UInt32.toNat_inj.mp heq
              have hback := congrArg (· + nxt) hsub
              exact hne (by simpa using hback.symm)
            omega

theorem insert_inOrder {nxt wnd : UInt32} (hwnd : wnd.toNat < 2 ^ 31) {buf : List Seg}
    (h : InOrder nxt wnd buf) {new : Seg} (hnew : ahead nxt new < wnd.toNat) :
    InOrder nxt wnd (insertBack new buf.reverse).reverse where
  sorted := List.pairwise_reverse.mpr (insertBack_sorted hwnd hnew
    (List.pairwise_reverse.mpr h.sorted) fun x hx => h.within x (List.mem_reverse.mp hx))
  within x hx := by
    rcases (mem_insertBack _ _).2.1 x (List.mem_reverse.mp hx) with hold | rfl
    · exact h.within x (List.mem_reverse.mp hold)
    · exact hnew

/-! ## Calls -/

theorem windowed_congr {c d : Core} (h : Windowed c) (hwnd : d.rcvWnd = c.rcvWnd)
    (hnxt : d.rcvNxt = c.rcvNxt) (hbuf : d.rcvBuf = c.rcvBuf) (hqueue : d.rcvQueue = c.rcvQueue) :
    Windowed d := by
  obtain ⟨h₁, h₂, h₃, h₄⟩ := h
  rw [← hwnd] at h₁ h₂ h₃ h₄
  rw [← hnxt, ← hbuf] at h₂ h₄
  rw [← hqueue] at h₃ h₄
  exact ⟨h₁, h₂, h₃, h₄⟩

theorem moveReady_windowed {k : Kcpcb} (hwnd : k.rcvWnd.toNat < 2 ^ 31)
    (horder : InOrder k.rcvNxt k.rcvWnd k.rcvBuf)
    (hqueue : k.rcvQueue.length ≤ k.rcvWnd.toNat) : Windowed k.moveReady.core :=
  let h := moveReadyLoop_inOrder horder hqueue
  ⟨hwnd, h.1, h.2.1, h.2.2⟩

theorem inputPush_windowed {k : Kcpcb} (h : Windowed k.core) (q : Packet) :
    Windowed (k.inputPush q).core := by
  unfold inputPush
  split
  · rename_i hfar
    dsimp only
    have hack : Windowed (k.ackPush q.sn q.ts).core := windowed_congr h rfl rfl rfl rfl
    split
    · rename_i hold
      unfold parseData
      split
      · exact hack
      · exact moveReady_windowed h.wnd
          (insert_inOrder h.wnd h.order (within_window h.wnd hfar hold)) h.queue
    · exact hack
  · exact h

theorem inputSegment_windowed {k : Kcpcb} (h : Windowed k.core) (a : Acked) (q : Packet) :
    Windowed (k.inputSegment a q).1.core := by
  have huna : Windowed (k.inputUna q).core := by
    rw [inputUna_core]
    exact windowed_congr h rfl rfl rfl rfl
  rw [inputSegment_eq]
  split
  · rcases inputAck_core (k.inputUna q) a q with hack | hack
    · rw [hack]
      exact huna
    · rw [hack]
      exact windowed_congr huna rfl rfl rfl rfl
  · split
    · exact inputPush_windowed huna q
    · split
      · exact huna
      · exact huna

theorem inputLoop_windowed {k : Kcpcb} (h : Windowed k.core) (a : Acked) (d : Bytes) :
    Windowed (k.inputLoop a d).1.core := by
  fun_induction inputLoop k a d with
  | case1 | case2 | case3 | case4 => exact h
  | case5 k a d p len rest hdecode hconv hlen hcmd r ih =>
      exact ih (inputSegment_windowed h a _)

theorem input_windowed {k : Kcpcb} (h : Windowed k.core) (d : Bytes) :
    Windowed (k.input d).1.core := by
  have hloop := inputLoop_windowed h ⟨false, 0, 0⟩ d
  unfold input
  split
  · exact h
  · dsimp only
    split
    · exact hloop
    · rw [grow_core]
      split
      · rw [parseFastack_core]
        exact hloop
      · exact hloop

theorem merge_length (queue : List Seg) : (merge queue).2.length ≤ queue.length := by
  induction queue with
  | nil => exact le_rfl
  | cons seg queue ih =>
      rw [merge]
      split
      · exact Nat.le_succ _
      · exact ih.trans (Nat.le_succ _)

theorem recv_windowed {k : Kcpcb} (h : Windowed k.core) (len : Nat) :
    Windowed (k.recv len).1.core := by
  unfold recv
  split
  · exact h
  · split
    · exact h
    · split
      · exact h
      · exact windowed_congr (moveReady_windowed (k := { k with rcvQueue := (merge k.rcvQueue).2 })
          h.wnd h.order ((merge_length _).trans h.queue)) rfl rfl rfl rfl

theorem send_windowed {k : Kcpcb} (h : Windowed k.core) (m : Bytes) :
    Windowed (k.send m).1.core := by
  unfold send
  dsimp only
  split
  · exact h
  · exact windowed_congr h rfl rfl rfl rfl

theorem flushed_windowed {c c' : Core} {ds : List Bytes} (hflush : Flushed c c' ds)
    (h : Windowed c) : Windowed c' := by
  cases hflush with
  | idle => exact h
  | flushed n =>
      obtain ⟨hwnd, hnxt, hbuf, hqueue⟩ := Core.iterate_received n c
      exact windowed_congr h hwnd hnxt hbuf hqueue

theorem fresh_windowed (port : Port) (conv : UInt32) (o : Options) :
    Windowed (fresh port conv o).core := by
  have hunused := fresh_unused port conv o
  have hcreate : (create port conv).core.rcvWnd = 128 := rfl
  have hset : ((create port conv).setNodelay o.nodelay o.interval o.resend o.nc).rcvWnd = 128 :=
    congrArg Core.rcvWnd (setNodelay_core _ _ _ _ _)
  have hport : ((create port conv).setNodelay o.nodelay o.interval o.resend o.nc).port = port :=
    congrArg Core.port (setNodelay_core _ _ _ _ _)
  have hwnd : (fresh port conv o).rcvWnd.toNat < 2 ^ 31 := by
    have hbound : (((create port conv).setNodelay o.nodelay o.interval o.resend o.nc).wndsize
        o.sndwnd o.rcvwnd).rcvWnd.toNat < 2 ^ 31 := by
      unfold wndsize
      dsimp only
      split
      · rename_i hpos
        have hsign := toInt32_toInt o.rcvwnd.toUInt32
        rw [Int32.toInt32_toUInt32] at hsign
        have hpos' : 0 < o.rcvwnd.toInt := Int32.lt_iff_toInt_lt.mp hpos
        have hlt := o.rcvwnd.toUInt32.toNat_lt
        have hsmall : o.rcvwnd.toUInt32.toNat < 2 ^ 31 := by
          split at hsign <;> omega
        rw [hport]
        unfold Port.max
        split <;> split
        · exact hsmall
        · decide
        · exact hsmall
        · decide
      · rw [hset]
        decide
    unfold fresh setmtu
    split <;> exact hbound
  refine ⟨hwnd, ⟨?_, ?_⟩, ?_, .inl ?_⟩
  · change (fresh port conv o).rcvBuf.Pairwise _
    rw [hunused.rcvBuf]
    exact List.Pairwise.nil
  · intro x hx
    change x ∈ (fresh port conv o).rcvBuf at hx
    rw [hunused.rcvBuf] at hx
    exact absurd hx List.not_mem_nil
  · change (fresh port conv o).rcvQueue.length ≤ _
    rw [hunused.rcvQueue]
    exact Nat.zero_le _
  · intro x hx
    change x ∈ (fresh port conv o).rcvBuf at hx
    rw [hunused.rcvBuf] at hx
    exact absurd hx List.not_mem_nil

theorem inputLoop_wf {k : Kcpcb} (h : k.core.Wf) (a : Acked) (d : Bytes) :
    (k.inputLoop a d).1.core.Wf := by
  fun_induction inputLoop k a d with
  | case1 | case2 | case3 | case4 => exact h
  | case5 k a d p len rest hdecode hconv hlen hcmd r ih =>
      exact ih (inputSegment_wf a _ h).1

theorem input_wf {k : Kcpcb} (h : k.core.Wf) (d : Bytes) : (k.input d).1.core.Wf := by
  have hloop := inputLoop_wf h ⟨false, 0, 0⟩ d
  unfold input
  split
  · exact h
  · dsimp only
    split
    · exact hloop
    · rw [grow_core]
      split
      · rw [parseFastack_core]
        exact hloop
      · exact hloop

theorem send_wf {k : Kcpcb} (h : k.core.Wf) (m : Bytes) : (k.send m).1.core.Wf := by
  unfold send
  dsimp only
  split
  · exact h
  · rename_i hshort
    have hcount : fragCount k.mss.toNat m.length ≤ 256 := by
      unfold tooLong at hshort
      split at hshort
      · have hlt := Nat.not_le.mp (fun hle => hshort (decide_eq_true hle))
        change _ < 128 at hlt
        omega
      · simp only [Bool.or_eq_true, decide_eq_true_eq, not_or] at hshort
        omega
    exact { h with
      queue := fun seg hseg => (List.mem_append.mp hseg).elim (h.queue seg)
        (fragment_wf hcount) }

theorem recv_wf {k : Kcpcb} (h : k.core.Wf) (len : Nat) : (k.recv len).1.core.Wf := by
  unfold recv
  split
  · exact h
  · split
    · exact h
    · split
      · exact h
      · exact { h with }

theorem flushed_wf {c c' : Core} {ds : List Bytes} (hflush : Flushed c c' ds) (h : c.Wf) :
    c'.Wf := by
  cases hflush with
  | idle => exact h
  | flushed n => exact { h.iterate n with }

/-- The states of one end, whatever is called and whatever bytes it is given. -/
inductive Reach (k₀ : Kcpcb) : Kcpcb → Prop
  | start : Reach k₀ k₀
  | send {k : Kcpcb} (h : Reach k₀ k) (m : Bytes) : Reach k₀ (k.send m).1
  | recv {k : Kcpcb} (h : Reach k₀ k) (len : Nat) : Reach k₀ (k.recv len).1
  | input {k : Kcpcb} (h : Reach k₀ k) (d : Bytes) : Reach k₀ (k.input d).1
  | flush {k : Kcpcb} (h : Reach k₀ k) : Reach k₀ k.flush.1
  | update {k : Kcpcb} (h : Reach k₀ k) (current : UInt32) : Reach k₀ (k.update current).1

theorem Reach.windowed {k₀ k : Kcpcb} (hwf : k₀.core.Wf) (h₀ : Windowed k₀.core)
    (h : Reach k₀ k) : k.core.Wf ∧ Windowed k.core := by
  induction h with
  | start => exact ⟨hwf, h₀⟩
  | send _ m ih => exact ⟨send_wf ih.1 m, send_windowed ih.2 m⟩
  | recv _ len ih => exact ⟨recv_wf ih.1 len, recv_windowed ih.2 len⟩
  | input _ d ih => exact ⟨input_wf ih.1 d, input_windowed ih.2 d⟩
  | @flush k _ ih =>
      have hflush := k.flush_flushed ih.1
      exact ⟨flushed_wf hflush ih.1, flushed_windowed hflush ih.2⟩
  | @update k _ current ih =>
      have hflush := k.update_flushed current ih.1
      exact ⟨flushed_wf hflush ih.1, flushed_windowed hflush ih.2⟩

end Kcpcb

/-- There is at most one segment for each place in the window. -/
theorem InOrder.length_le {nxt wnd : UInt32} {buf : List Seg} (h : InOrder nxt wnd buf) :
    buf.length ≤ wnd.toNat := by
  have hnodup : (buf.map (ahead nxt)).Nodup := by
    rw [List.Nodup, List.pairwise_map]
    exact h.sorted.imp fun hlt => hlt.ne
  have hsub : buf.map (ahead nxt) ⊆ List.range wnd.toNat := by
    intro n hn
    obtain ⟨x, hx, rfl⟩ := List.mem_map.mp hn
    exact List.mem_range.mpr (h.within x hx)
  have hle := (List.Nodup.subperm hnodup hsub).length_le
  rwa [List.length_map, List.length_range] at hle

/-- Whatever is called and whatever bytes arrive, an end never holds more than its window. -/
theorem Kcpcb.fresh_reach_bounded {port : Port} {conv : UInt32} {o : Kcpcb.Options} {k : Kcpcb}
    (h : Kcpcb.Reach (Kcpcb.fresh port conv o) k) :
    k.rcvBuf.length ≤ k.rcvWnd.toNat ∧ k.rcvQueue.length ≤ k.rcvWnd.toNat ∧
      (k.rcvBuf.map Seg.sn).Nodup := by
  obtain ⟨-, hw⟩ := h.windowed (Kcpcb.fresh_unused port conv o).wf
    (Kcpcb.fresh_windowed port conv o)
  refine ⟨hw.order.length_le, hw.queue, ?_⟩
  rw [List.Nodup, List.pairwise_map]
  refine hw.order.sorted.imp fun {x y} hlt heq => ?_
  rw [ahead, ahead, heq] at hlt
  exact absurd hlt (Nat.lt_irrefl _)

theorem Kcpcb.fresh_reach_bounded_push :
    let k := ((Kcpcb.fresh .ikcp 7 ⟨1, 10, 2, 1, 128, 128, 1200, 10⟩).input
      [7, 0, 0, 0, 81, 0, 128, 0, 0, 0, 0, 0, 1, 0, 0, 0, 0, 0, 0, 0, 1, 0, 0, 0, 104]).1
    k.rcvBuf.length = 1 ∧ k.rcvBuf.length ≤ k.rcvWnd.toNat ∧
      k.rcvQueue.length ≤ k.rcvWnd.toNat ∧ (k.rcvBuf.map Seg.sn).Nodup :=
  ⟨by decide +kernel, Kcpcb.fresh_reach_bounded (Kcpcb.Reach.start.input _)⟩

end BallServer.Kcp
