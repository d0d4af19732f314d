import BallServer.Kcp.Window

/-!
# Nothing is lost

A sender gives up a segment only when the other end has it.  So when it has nothing to send
any more, the other end has everything, and hands it out.

Main results:

- Definition {lit}`Link.recvAll`: an end asks for messages again and again.
- Theorem {lit}`Kcpcb.recv_ok`: a message that is there is handed out.
- Theorem {lit}`Link.nothing_lost`: when an end has nothing to send any more, the other end
  hands out all that was sent.
-/

namespace BallServer.Kcp

open Arq

namespace Kcpcb

/-- A message that is there as a whole is handed out if the buffer is large enough. -/
theorem recv_ok {k : Kcpcb} {mss : UInt32} (hmss : 0 < mss.toNat) {m : Bytes}
    {tail : List Frag} (hlt : (frags mss m).length < 2 ^ 31)
    (hqueue : k.rcvQueue.map Seg.frag = frags mss m ++ tail) {len : Nat} (hlen : m.length ≤ len) :
    (k.recv len).2 = .ok m := by
  obtain ⟨x, xs, hx, hcount⟩ := frags_head hmss hlt
  obtain ⟨hmsg, -⟩ := merge_frags hmss hlt hqueue
  rw [hx, List.cons_append] at hqueue
  obtain ⟨seg, segs, hsegs⟩ : ∃ seg segs, k.rcvQueue = seg :: segs :=
    List.exists_cons_of_ne_nil (by rintro hnil; rw [hnil] at hqueue; exact nomatch hqueue)
  have hlength : k.rcvQueue.length = (frags mss m).length + tail.length := by
    rw [← List.length_map Seg.frag, hqueue, hx]
    simp only [List.length_cons, List.length_append]
    omega
  have hfrg : seg.frg = x.1 := by
    rw [hsegs, List.map_cons] at hqueue
    exact congrArg Prod.fst (List.cons.inj hqueue).1
  have hpeek : k.peeksize = some m.length := by
    unfold peeksize
    rw [hsegs] at hmsg hlength ⊢
    dsimp only
    split
    · rename_i hzero
      rw [merge, if_pos hzero] at hmsg
      rw [← hmsg]
    · rw [if_neg (by rw [hlength, hfrg, hcount]; omega), hmsg]
  unfold recv
  rw [if_neg (by rw [hsegs]; exact List.cons_ne_nil _ _), hpeek]
  dsimp only
  rw [if_neg (Nat.not_lt.mpr hlen)]
  exact congrArg Except.ok hmsg

end Kcpcb

namespace Link

variable {conv : UInt32} {port : Side → Port} {options : Side → Kcpcb.Options} {l : Link}

/-- Each end of a link is in a state of its own. -/
theorem reach_end (h : Reach (start conv port options) l) (s : Side) :
    Kcpcb.Reach (Kcpcb.fresh (port s) conv (options s)) (l.ends s).kcp := by
  induction h with
  | start => exact .start
  | step _ e hstep ih =>
      have hset {l l' : Link} {t : Side} {e : Endpoint} {ds : List Bytes}
          (hl : l' = l.set t e ds) (hs : t = s → Kcpcb.Reach (Kcpcb.fresh (port s) conv (options s))
            e.kcp) (hold : Kcpcb.Reach (Kcpcb.fresh (port s) conv (options s)) (l.ends s).kcp) :
          Kcpcb.Reach (Kcpcb.fresh (port s) conv (options s)) (l'.ends s).kcp := by
        rw [hl]
        rcases t.eq_or_other s with rfl | rfl
        · rw [set_ends]
          exact hs rfl
        · rw [set_ends_other]
          exact hold
      rcases step_cases hstep with ⟨t, m, hl⟩ | ⟨t, len, hl⟩ | ⟨t, current, hl⟩ | ⟨t, hl⟩ |
        ⟨t, d, -, hl⟩
      · exact hset hl (fun ht => ht ▸ (ht ▸ ih).send m) ih
      · exact hset hl (fun ht => ht ▸ (ht ▸ ih).recv len) ih
      · exact hset hl (fun ht => ht ▸ (ht ▸ ih).update current) ih
      · exact hset hl (fun ht => ht ▸ (ht ▸ ih).flush) ih
      · exact hset hl (fun ht => ht ▸ (ht ▸ ih).input d) ih

theorem prefix_append_of_length {α : Type} {a b c : List α} (h : a <+: b ++ c)
    (hlen : b.length ≤ a.length) : ∃ tail, a = b ++ tail := by
  obtain ⟨tail, htail⟩ := List.prefix_of_prefix_length_le (List.prefix_append b c) h hlen
  exact ⟨tail, htail.symm⟩

/-- When the sender holds nothing any more, the next message is at the other end as a
whole. -/
theorem next_ready (h : l.Sound) {s : Side}
    (hwindow : Windowed (l.ends s.other).kcp.core) (hqueue : (l.ends s).kcp.sndQueue = [])
    (hbuf : (l.ends s).kcp.sndBuf = []) {m : Bytes} {rest : List Bytes}
    (hrest : (l.ends s.other).got ++ m :: rest = (l.ends s).sent)
    (hfit : (frags (l.ends s).kcp.mss m).length ≤ (l.ends s.other).kcp.rcvWnd.toNat) :
    ∃ tail, (l.ends s.other).kcp.rcvQueue.map Seg.frag =
      frags (l.ends s).kcp.mss m ++ tail := by
  have hflow := h.flow s
  have hready := ready_in_order h s hrest
  rw [List.flatMap_cons] at hready
  have hwaiting : (l.flow s).waiting = [] := by
    change (l.ends s).kcp.sndQueue.map Seg.frag = []
    rw [hqueue, List.map_nil]
  have hheld : (l.flow s).held = [] := by
    change ((l.ends s).kcp.sndBuf.map Seg.content).map Content.item = []
    rw [hbuf, List.map_nil, List.map_nil]
  obtain ⟨hall, harrived⟩ := hflow.arrived_of_idle hwaiting hheld
  refine prefix_append_of_length hready ?_
  by_cases hnext : (l.flow s).next < (l.flow s).accepted.length
  · -- the next fragment has arrived but was not moved, so the queue is full
    rcases harrived _ hnext with hlt | ⟨p, hp, heq⟩
    · exact absurd hlt (Nat.lt_irrefl _)
    · obtain ⟨x, hx, rfl⟩ := List.mem_map.mp hp
      have hsn : x.sn = (l.ends s.other).kcp.rcvNxt := UInt32.toNat_inj.mp heq
      rcases hwindow.moved with hnone | hfull
      · exact absurd hsn (hnone x hx)
      · rw [List.length_map]
        exact hfit.trans hfull.ge
  · have hlast : (l.flow s).next = (l.flow s).accepted.length :=
      le_antisymm (hflow.next_le.trans hflow.numbered_le) (Nat.not_lt.mp hnext)
    have hreleased := hflow.released
    rw [hlast, List.take_length] at hreleased
    have hlength := congrArg List.length hreleased
    change ((l.ends s.other).got.flatMap (frags (l.ends s).kcp.mss) ++
      (l.ends s.other).kcp.rcvQueue.map Seg.frag).length =
      ((l.ends s).sent.flatMap (frags (l.ends s).kcp.mss)).length at hlength
    rw [← hrest, List.flatMap_append, List.flatMap_cons, List.length_append, List.length_append,
      List.length_append] at hlength
    omega

/-- An end asks for a message. -/
def received (l : Link) (s : Side) (len : Nat) : Link :=
  let e := l.ends s
  let r := e.kcp.recv len
  l.set s ⟨r.1, e.sent, match r.2 with
    | .ok m => e.got ++ [m]
    | .error _ => e.got⟩ []

theorem step_recv (l : Link) (s : Side) (len : Nat) :
    l.step (.recv s len) = some (l.received s len) := rfl

/-- An end asks for messages again and again. -/
def recvAll (s : Side) (len : Nat) : Nat → Link → Link
  | 0, l => l
  | n + 1, l => recvAll s len n (l.received s len)

theorem recv_rcvWnd (k : Kcpcb) (len : Nat) : (k.recv len).1.rcvWnd = k.rcvWnd := by
  unfold Kcpcb.recv
  split
  · rfl
  · split
    · rfl
    · split <;> rfl

/-- Asking for a message uses up no numbers. -/
theorem small_received (hsmall : l.Small) (s : Side) (len : Nat) : (l.received s len).Small := by
  intro t
  unfold received
  rcases s.eq_or_other t with rfl | rfl
  · rw [set_flow]
    change ((l.ends t).sent.flatMap (frags ((l.ends t).kcp.recv len).1.mss)).length < 2 ^ 31
    rw [recv_mss]
    exact hsmall t
  · rw [set_flow_other]
    exact hsmall s.other

theorem received_other (l : Link) (s : Side) (len : Nat) :
    (l.received s.other len).ends s = l.ends s := by
  have hother := set_ends_other l s.other
  rw [Side.other_other] at hother
  exact hother _ _

theorem received_self {s : Side} {len : Nat} {m : Bytes}
    (hok : ((l.ends s).kcp.recv len).2 = .ok m) :
    (l.received s len).ends s =
      ⟨((l.ends s).kcp.recv len).1, (l.ends s).sent, (l.ends s).got ++ [m]⟩ := by
  unfold received
  rw [set_ends, hok]

/-- The loop at an end whose sender is done. -/
theorem recvAll_spec {s : Side} (h : l.Sound) (hsmall : l.Small)
    (hwindow : Windowed (l.ends s.other).kcp.core) (hqueue : (l.ends s).kcp.sndQueue = [])
    (hbuf : (l.ends s).kcp.sndBuf = []) {rest : List Bytes}
    (hrest : (l.ends s.other).got ++ rest = (l.ends s).sent) {len : Nat}
    (hfit : ∀ m ∈ rest, m.length ≤ len ∧
      (frags (l.ends s).kcp.mss m).length ≤ (l.ends s.other).kcp.rcvWnd.toNat) :
    ((l.recvAll s.other len rest.length).ends s.other).got = (l.ends s).sent := by
  induction rest generalizing l with
  | nil =>
      rw [← hrest, List.append_nil]
      rfl
  | cons m rest ih =>
      obtain ⟨hlen, hwnd⟩ := hfit m List.mem_cons_self
      obtain ⟨tail, htail⟩ := next_ready h hwindow hqueue hbuf hrest hwnd
      have hlt : (frags (l.ends s).kcp.mss m).length < 2 ^ 31 := hwnd.trans_lt hwindow.wnd
      have hok := Kcpcb.recv_ok (h.wf s).mss_pos hlt htail hlen
      have hsound := h.step (step_recv l s.other len) hsmall
      have hsame := received_other l s len
      have hend := received_self hok
      rw [List.length_cons, recvAll, ← hsame]
      refine ih hsound (small_received hsmall s.other len) ?_ ?_ ?_ ?_ ?_
      · rw [hend]
        exact Kcpcb.recv_windowed hwindow len
      · rw [hsame]
        exact hqueue
      · rw [hsame]
        exact hbuf
      · rw [hend, hsame, ← hrest, List.append_assoc]
        rfl
      · rw [hend, hsame, recv_rcvWnd]
        exact fun m hm => hfit m (List.mem_cons_of_mem _ hm)

/-- When an end has nothing to send any more, the other end hands out all that was sent. -/
theorem nothing_lost (h : Reach (start conv port options) l) (hsmall : l.Small) {s : Side}
    (hqueue : (l.ends s).kcp.sndQueue = []) (hbuf : (l.ends s).kcp.sndBuf = []) {len : Nat}
    (hfit : ∀ m ∈ (l.ends s).sent, m.length ≤ len ∧
      (frags (l.ends s).kcp.mss m).length ≤ (l.ends s.other).kcp.rcvWnd.toNat) :
    ∃ n, ((l.recvAll s.other len n).ends s.other).got = (l.ends s).sent := by
  have hsound := h.sound start_sound hsmall
  obtain ⟨rest, hrest⟩ := hsound.order s
  obtain ⟨-, hwindow⟩ := (reach_end h s.other).windowed (Kcpcb.fresh_unused ..).wf
    (Kcpcb.fresh_windowed ..)
  refine ⟨rest.length, recvAll_spec hsound hsmall hwindow hqueue hbuf hrest fun m hm => ?_⟩
  exact hfit m (hrest ▸ List.mem_append_right _ hm)

theorem nothing_lost_word :
    ∃ n, ((word.recvAll .gateway 100 n).ends .gateway).got = [[104, 105]] := by
  have hsent : (word.ends .client).sent = [[104, 105]] := by decide +kernel
  have hqueue : (word.ends .client).kcp.sndQueue = [] := by decide +kernel
  have hbuf : (word.ends .client).kcp.sndBuf = [] := by decide +kernel
  have hfit : ∀ m ∈ (word.ends .client).sent, m.length ≤ 100 ∧
      (frags (word.ends .client).kcp.mss m).length ≤ (word.ends .gateway).kcp.rcvWnd.toNat := by
    rw [hsent]
    decide +kernel
  obtain ⟨n, hn⟩ := nothing_lost (Reach.start.run _) word_small hqueue hbuf hfit
  exact ⟨n, hn.trans hsent⟩

end Link

end BallServer.Kcp
