import BallServer.Kcp.Steps

/-!
# Messages and fragments

A message is cut into fragments that count down to zero, and the fragments of one message
are put together again when all are there.

Main results:

- Theorem {lit}`Kcpcb.merge_frags`: a message is put together as it was.
- Theorem {lit}`Kcpcb.recv_spec`: what {lit}`ikcp_recv` hands out is the next message.
-/

namespace BallServer.Kcp

open Arq

namespace Kcpcb

theorem fragCount_pos (mss len : Nat) (hmss : 0 < mss) : 0 < fragCount mss len := by
  unfold fragCount
  split
  · exact Nat.one_pos
  · exact Nat.div_pos (by omega) hmss

/-- There are enough fragments for the whole message. -/
theorem length_le_fragCount (mss len : Nat) (hmss : 0 < mss) :
    len ≤ mss * fragCount mss len := by
  unfold fragCount
  split
  · omega
  · have hdiv := Nat.div_add_mod (len + mss - 1) mss
    have hmod := Nat.mod_lt (len + mss - 1) hmss
    omega

theorem fragment_length (mss n : Nat) (m : Bytes) : (fragment mss n m).length = n := by
  induction n generalizing m with
  | zero => rfl
  | succ n ih => rw [fragment, List.length_cons, ih]

/-- Fragments fit into a segment. -/
theorem fragment_wf {mss n : Nat} {m : Bytes} (hn : n ≤ 256) {seg : Seg}
    (h : seg ∈ fragment mss n m) : seg.frg.toNat < 256 ∧ seg.data.length ≤ mss := by
  induction n generalizing m with
  | zero => exact nomatch h
  | succ n ih =>
      rw [fragment] at h
      rcases List.mem_cons.mp h with rfl | htail
      · constructor
        · change (UInt32.ofNat n).toNat < 256
          rw [UInt32.toNat_ofNat']
          omega
        · exact List.length_take_le _ _
      · exact ih (by omega) htail

/-- The fragments of a message, with anything behind them, are merged to the message. -/
theorem merge_fragment {mss n : Nat} {m : Bytes} (hn : 0 < n) (hlt : n < 2 ^ 31)
    (hlen : m.length ≤ mss * n) {queue : List Seg} {tail : List Frag}
    (h : queue.map Seg.frag = (fragment mss n m).map Seg.frag ++ tail) :
    (merge queue).1 = m ∧ (merge queue).2.map Seg.frag = tail := by
  induction n generalizing m queue with
  | zero => exact absurd hn (Nat.lt_irrefl 0)
  | succ n ih =>
      rw [fragment, List.map_cons, List.cons_append] at h
      obtain ⟨seg, rest, rfl⟩ : ∃ seg rest, queue = seg :: rest :=
        List.exists_cons_of_ne_nil (by rintro rfl; exact nomatch h)
      rw [List.map_cons, List.cons.injEq] at h
      obtain ⟨hseg, hrest⟩ := h
      have hfrg : seg.frg = UInt32.ofNat n := congrArg Prod.fst hseg
      have hdata : seg.data = m.take mss := congrArg Prod.snd hseg
      have htoNat : (UInt32.ofNat n).toNat = n := by
        rw [UInt32.toNat_ofNat']
        exact Nat.mod_eq_of_lt (by omega)
      rw [merge]
      cases n with
      | zero =>
          rw [if_pos (by rw [hfrg]; rfl)]
          refine ⟨?_, hrest⟩
          rw [hdata, List.take_of_length_le (by simpa using hlen)]
      | succ n =>
          have hne : ¬ seg.frg = 0 := by
            intro hzero
            have := congrArg UInt32.toNat (hfrg.symm.trans hzero)
            rw [htoNat] at this
            exact absurd this (Nat.succ_ne_zero n)
          rw [if_neg hne]
          have hdrop : (m.drop mss).length ≤ mss * (n + 1) := by
            rw [List.length_drop]
            have hmul : mss * (n + 1 + 1) = mss * (n + 1) + mss := Nat.mul_succ _ _
            omega
          obtain ⟨hmsg, htail⟩ := ih (Nat.succ_pos n) (by omega) hdrop hrest
          refine ⟨?_, htail⟩
          rw [hmsg, hdata, List.take_append_drop]

/-- A message is put together as it was. -/
theorem merge_frags {mss : UInt32} (hmss : 0 < mss.toNat) {m : Bytes} {queue : List Seg}
    {tail : List Frag} (hlt : (frags mss m).length < 2 ^ 31)
    (h : queue.map Seg.frag = frags mss m ++ tail) :
    (merge queue).1 = m ∧ (merge queue).2.map Seg.frag = tail := by
  refine merge_fragment (fragCount_pos _ _ hmss) ?_ (length_le_fragCount _ _ hmss) h
  rw [frags, List.length_map, fragment_length] at hlt
  exact hlt

/-- The first fragment of a message counts the others. -/
theorem frags_head {mss : UInt32} (hmss : 0 < mss.toNat) {m : Bytes}
    (hlt : (frags mss m).length < 2 ^ 31) :
    ∃ x rest, frags mss m = x :: rest ∧ x.1.toNat + 1 = (frags mss m).length := by
  have hpos := fragCount_pos mss.toNat m.length hmss
  unfold frags at hlt ⊢
  rw [List.length_map, fragment_length] at hlt ⊢
  obtain ⟨n, hn⟩ := Nat.exists_eq_succ_of_ne_zero hpos.ne'
  rw [hn] at hlt ⊢
  refine ⟨_, _, by rw [fragment, List.map_cons], ?_⟩
  change (UInt32.ofNat n).toNat + 1 = n + 1
  rw [UInt32.toNat_ofNat', Nat.mod_eq_of_lt (by omega)]

/-- When the queue is the beginning of what follows, {lit}`ikcp_recv` either leaves it
alone or hands out the next message. -/
theorem recv_spec {k : Kcpcb} {mss : UInt32} (hmss : 0 < mss.toNat) {rest : List Bytes}
    (hsmall : (rest.flatMap (frags mss)).length < 2 ^ 31)
    (hqueue : k.rcvQueue.map Seg.frag <+: rest.flatMap (frags mss)) (len : Nat) :
    (∃ e, (k.recv len).1 = k ∧ (k.recv len).2 = .error e) ∨
    ∃ m rest', rest = m :: rest' ∧ (k.recv len).2 = .ok m ∧
      k.rcvQueue.map Seg.frag = frags mss m ++ (merge k.rcvQueue).2.map Seg.frag ∧
      (k.recv len).1.core = (moveReady { k with rcvQueue := (merge k.rcvQueue).2 }).core := by
  unfold recv
  split
  · exact .inl ⟨_, rfl, rfl⟩
  · rename_i hne
    split
    · exact .inl ⟨_, rfl, rfl⟩
    · rename_i size hsize
      split
      · exact .inl ⟨_, rfl, rfl⟩
      · refine .inr ?_
        obtain ⟨tail, htail⟩ := hqueue
        obtain ⟨seg, segs, hsegs⟩ := List.exists_cons_of_ne_nil hne
        cases rest with
        | nil =>
            rw [hsegs] at htail
            exact nomatch htail
        | cons m rest' =>
            rw [List.flatMap_cons] at htail hsmall
            have hlt : (frags mss m).length < 2 ^ 31 := by
              rw [List.length_append] at hsmall
              omega
            obtain ⟨x, xs, hx, hcount⟩ := frags_head hmss hlt
            -- the first segment is the first fragment, so the queue has the whole message
            have hfirst : seg.frag = x := by
              rw [hsegs, hx, List.map_cons, List.cons_append, List.cons_append] at htail
              exact (List.cons.inj htail).1
            have hfrg : seg.frg = x.1 := congrArg Prod.fst hfirst
            have hlong : (frags mss m).length ≤ k.rcvQueue.length := by
              rw [← hcount, ← hfrg]
              unfold peeksize at hsize
              rw [hsegs] at hsize ⊢
              dsimp only at hsize
              split at hsize
              · rename_i hzero
                rw [hzero, List.length_cons]
                exact Nat.succ_le_succ (Nat.zero_le _)
              · split at hsize
                · cases hsize
                · rename_i hmany
                  exact Nat.not_lt.mp hmany
            have hsplit : k.rcvQueue.map Seg.frag =
                frags mss m ++ (k.rcvQueue.map Seg.frag).drop (frags mss m).length := by
              have htake := congrArg (List.take (frags mss m).length) htail
              rw [List.take_left, List.take_append_of_le_length
                (by rw [List.length_map]; exact hlong)] at htake
              calc k.rcvQueue.map Seg.frag
                  = (k.rcvQueue.map Seg.frag).take (frags mss m).length ++
                      (k.rcvQueue.map Seg.frag).drop (frags mss m).length :=
                    (List.take_append_drop _ _).symm
                _ = frags mss m ++ (k.rcvQueue.map Seg.frag).drop (frags mss m).length := by
                    rw [htake]
            obtain ⟨hmsg, hdrop⟩ := merge_frags hmss hlt hsplit
            refine ⟨m, rest', rfl, ?_, ?_, ?_⟩
            · exact congrArg Except.ok hmsg
            · rw [hdrop]
              exact hsplit
            · rfl

end Kcpcb

end BallServer.Kcp
