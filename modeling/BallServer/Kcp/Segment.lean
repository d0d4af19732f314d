import Mathlib.Algebra.Ring.Int.Defs
import Mathlib.Algebra.Ring.Nat

/-!
# Segments of KCP

A datagram is a sequence of segments: a header of 24 bytes, little endian, and the data.
Numbers and times are 32 bit wide and wrap around; {lit}`_itimediff` compares two of them
by the sign of their difference.

The gateway uses {lit}`ikcp.c` and the client {lit}`Kcp.cs`, which differ in some
comparisons.

Main results:

- Theorem {lit}`itimediff_nonneg_iff`: the comparison, for numbers below {lit}`2 ^ 31`.
- Theorem {lit}`Packet.parse_encodeAll`: a datagram is read back as it was written.
-/

namespace BallServer.Kcp

/-- Bytes of a datagram or a message. -/
abbrev Bytes := List UInt8

/-- The two implementations. -/
inductive Port where
  | ikcp
  | kcp2k
deriving DecidableEq, Repr

/-! ## Numbers that wrap around -/

/-- {lit}`_itimediff`. -/
def itimediff (later earlier : UInt32) : Int := (later - earlier).toInt32.toInt

theorem toInt32_toInt (x : UInt32) :
    x.toInt32.toInt = if x.toNat < 2 ^ 31 then (x.toNat : Int) else x.toNat - 2 ^ 32 := by
  have hdef : x.toInt32.toInt = x.toBitVec.toInt := rfl
  rw [hdef, BitVec.toInt_eq_toNat_cond, UInt32.toNat_toBitVec]
  split <;> split <;> omega

/-- Numbers that are less than half of the range apart compare as numbers do. -/
theorem itimediff_of_near {a b : UInt32} (hlow : b.toNat ≤ a.toNat + 2 ^ 31)
    (hhigh : a.toNat < b.toNat + 2 ^ 31) : itimediff a b = (a.toNat : Int) - b.toNat := by
  have ha := a.toNat_lt
  have hb := b.toNat_lt
  have hsub : (a - b).toNat = (2 ^ 32 - b.toNat + a.toNat) % 2 ^ 32 := UInt32.toNat_sub a b
  rw [itimediff, toInt32_toInt, hsub]
  split <;> omega

theorem itimediff_nonneg_iff {a b : UInt32} (ha : a.toNat < 2 ^ 31) (hb : b.toNat ≤ 2 ^ 31) :
    0 ≤ itimediff a b ↔ b.toNat ≤ a.toNat := by
  rw [itimediff_of_near (by omega) (by omega)]
  omega

theorem itimediff_pos_iff {a b : UInt32} (ha : a.toNat < 2 ^ 31) (hb : b.toNat ≤ 2 ^ 31) :
    0 < itimediff a b ↔ b.toNat < a.toNat := by
  rw [itimediff_of_near (by omega) (by omega)]
  omega

/-- {lit}`_imax_`, and {lit}`Math.Max` of two {lit}`int`. -/
def Port.max : Port → UInt32 → UInt32 → UInt32
  | .ikcp, a, b => if a ≥ b then a else b
  | .kcp2k, a, b => if a.toInt32 ≥ b.toInt32 then a else b

/-- {lit}`_imin_`. -/
def imin (a b : UInt32) : UInt32 := if a ≤ b then a else b

/-- {lit}`_ibound_`, and {lit}`Clamp` of {lit}`int`. -/
def Port.bound : Port → UInt32 → UInt32 → UInt32 → UInt32
  | .ikcp, lower, middle, upper => imin (Port.ikcp.max lower middle) upper
  | .kcp2k, lower, middle, upper =>
      if middle.toInt32 < lower.toInt32 then lower
      else if middle.toInt32 > upper.toInt32 then upper
      else middle

/-! ## Bytes -/

/-- {lit}`ikcp_encode16u`. -/
def encode16u (w : UInt16) : Bytes := [w.toUInt8, (w >>> 8).toUInt8]

/-- {lit}`ikcp_encode32u`. -/
def encode32u (l : UInt32) : Bytes :=
  [l.toUInt8, (l >>> 8).toUInt8, (l >>> 16).toUInt8, (l >>> 24).toUInt8]

/-- {lit}`ikcp_decode8u`; there are no bytes behind the last one. -/
def decode8u : Bytes → Option (UInt8 × Bytes)
  | a :: rest => some (a, rest)
  | _ => none

/-- {lit}`ikcp_decode16u`. -/
def decode16u : Bytes → Option (UInt16 × Bytes)
  | a :: b :: rest => some (a.toUInt16 + b.toUInt16 <<< 8, rest)
  | _ => none

/-- {lit}`ikcp_decode32u`. -/
def decode32u : Bytes → Option (UInt32 × Bytes)
  | a :: b :: c :: d :: rest =>
      some (a.toUInt32 + (b.toUInt32 + (c.toUInt32 + d.toUInt32 <<< 8) <<< 8) <<< 8, rest)
  | _ => none

theorem decode8u_cons (a : UInt8) (rest : Bytes) : decode8u (a :: rest) = some (a, rest) := rfl

theorem decode16u_encode16u (w : UInt16) (rest : Bytes) :
    decode16u (encode16u w ++ rest) = some (w, rest) := by
  have hw := w.toNat_lt
  refine congrArg (fun x => some (x, rest)) (UInt16.toNat_inj.mp ?_)
  simp only [UInt16.toNat_add, UInt8.toNat_toUInt16, UInt16.toNat_shiftLeft,
    UInt16.toNat_toUInt8, UInt16.toNat_shiftRight, UInt16.toNat_ofNat, Nat.shiftRight_eq_div_pow,
    Nat.shiftLeft_eq, Nat.reduceMod, Nat.reducePow]
  omega

theorem decode32u_encode32u (l : UInt32) (rest : Bytes) :
    decode32u (encode32u l ++ rest) = some (l, rest) := by
  have hl := l.toNat_lt
  refine congrArg (fun x => some (x, rest)) (UInt32.toNat_inj.mp ?_)
  simp only [UInt32.toNat_add, UInt8.toNat_toUInt32, UInt32.toNat_shiftLeft,
    UInt32.toNat_toUInt8, UInt32.toNat_shiftRight, UInt32.toNat_ofNat, Nat.shiftRight_eq_div_pow,
    Nat.shiftLeft_eq, Nat.reduceMod, Nat.reducePow]
  omega

theorem decode8u_length {data rest : Bytes} {a : UInt8} (h : decode8u data = some (a, rest)) :
    data.length = 1 + rest.length := by
  unfold decode8u at h
  split at h
  · cases h
    exact Nat.add_comm _ _
  · cases h

theorem decode16u_length {data rest : Bytes} {w : UInt16}
    (h : decode16u data = some (w, rest)) : data.length = 2 + rest.length := by
  unfold decode16u at h
  split at h
  · rw [Option.some.injEq, Prod.mk.injEq] at h
    rw [← h.2]
    simp only [List.length_cons]
    omega
  · cases h

theorem decode32u_length {data rest : Bytes} {l : UInt32}
    (h : decode32u data = some (l, rest)) : data.length = 4 + rest.length := by
  unfold decode32u at h
  split at h
  · rw [Option.some.injEq, Prod.mk.injEq] at h
    rw [← h.2]
    simp only [List.length_cons]
    omega
  · cases h

/-! ## Segments -/

def cmdPush : UInt8 := 81
def cmdAck : UInt8 := 82
def cmdWask : UInt8 := 83
def cmdWins : UInt8 := 84

/-- {lit}`IKCP_OVERHEAD`. -/
def overhead : Nat := 24

/-- What a datagram has of a segment: the header as it is written, and the data. -/
structure Packet where
  conv : UInt32
  cmd : UInt8
  frg : UInt8
  wnd : UInt16
  ts : UInt32
  sn : UInt32
  una : UInt32
  data : Bytes
deriving DecidableEq, Repr

/-- {lit}`IKCPSEG`. -/
structure Seg where
  conv : UInt32
  cmd : UInt32
  frg : UInt32
  wnd : UInt32
  ts : UInt32
  sn : UInt32
  una : UInt32
  resendts : UInt32
  rto : UInt32
  fastack : UInt32
  xmit : UInt32
  data : Bytes
deriving DecidableEq, Repr

/-- What of a segment is written: some fields are narrower than in memory. -/
def Seg.packet (s : Seg) : Packet where
  conv := s.conv
  cmd := s.cmd.toUInt8
  frg := s.frg.toUInt8
  wnd := s.wnd.toUInt16
  ts := s.ts
  sn := s.sn
  una := s.una
  data := s.data

namespace Packet

/-- {lit}`ikcp_encode_seg`. -/
def header (p : Packet) : Bytes :=
  encode32u p.conv ++ [p.cmd, p.frg] ++ encode16u p.wnd ++ encode32u p.ts ++
    encode32u p.sn ++ encode32u p.una ++ encode32u (UInt32.ofNat p.data.length)

/-- A segment in a datagram. -/
def encode (p : Packet) : Bytes := p.header ++ p.data

/-- The reads at the start of the loop of {lit}`ikcp_input`: the header, its length field,
and what is behind it.  The data is not read yet. -/
def decode (data : Bytes) : Option (Packet × UInt32 × Bytes) := do
  let (conv, data) ← decode32u data
  let (cmd, data) ← decode8u data
  let (frg, data) ← decode8u data
  let (wnd, data) ← decode16u data
  let (ts, data) ← decode32u data
  let (sn, data) ← decode32u data
  let (una, data) ← decode32u data
  let (len, data) ← decode32u data
  pure (⟨conv, cmd, frg, wnd, ts, sn, una, []⟩, len, data)

@[simp]
theorem header_length (p : Packet) : p.header.length = overhead := rfl

@[simp]
theorem encode_length (p : Packet) : p.encode.length = overhead + p.data.length := by
  rw [encode, List.length_append, header_length]

/-- A header is read back as it was written. -/
theorem decode_encode (p : Packet) (rest : Bytes) :
    decode (p.header ++ rest) =
      some ({ p with data := [] }, UInt32.ofNat p.data.length, rest) := by
  simp only [decode, header, List.append_assoc, List.cons_append, List.nil_append,
    decode32u_encode32u, decode16u_encode16u, decode8u_cons, Option.bind_eq_bind,
    Option.bind_some, Option.pure_def]

/-- What is read is the header. -/
theorem decode_length {data rest : Bytes} {p : Packet} {len : UInt32}
    (h : decode data = some (p, len, rest)) : data.length = overhead + rest.length := by
  simp only [decode, Option.bind_eq_bind, Option.bind_eq_some_iff, Prod.exists,
    Option.pure_def, Option.some.injEq, Prod.mk.injEq] at h
  obtain ⟨_, d₁, h₁, _, d₂, h₂, _, d₃, h₃, _, d₄, h₄, _, d₅, h₅, _, d₆, h₆, _, d₇, h₇, _, d₈, h₈,
    -, -, rfl⟩ := h
  have e₁ := decode32u_length h₁
  have e₂ := decode8u_length h₂
  have e₃ := decode8u_length h₃
  have e₄ := decode16u_length h₄
  have e₅ := decode32u_length h₅
  have e₆ := decode32u_length h₆
  have e₇ := decode32u_length h₇
  have e₈ := decode32u_length h₈
  simp only [overhead]
  omega

/-- All segments of a datagram. -/
def parse (data : Bytes) : List Packet :=
  match _hdecode : decode data with
  | none => []
  | some (p, len, rest) =>
      { p with data := rest.take len.toNat } :: parse (rest.drop len.toNat)
termination_by data.length
decreasing_by
  have hlength := decode_length _hdecode
  simp only [List.length_drop, overhead] at *
  omega

/-- A segment that {lit}`ikcp_input` takes. -/
structure Wf (conv : UInt32) (p : Packet) : Prop where
  conv : p.conv = conv
  length : p.data.length < 2 ^ 31
  cmd : p.cmd = cmdPush ∨ p.cmd = cmdAck ∨ p.cmd = cmdWask ∨ p.cmd = cmdWins

/-- Segments one after the other. -/
def encodeAll (ps : List Packet) : Bytes := ps.flatMap encode

theorem encodeAll_cons (p : Packet) (ps : List Packet) :
    encodeAll (p :: ps) = p.header ++ (p.data ++ encodeAll ps) := by
  rw [encodeAll, List.flatMap_cons, encode, List.append_assoc, encodeAll]

theorem decode_encodeAll (p : Packet) (ps : List Packet) :
    decode (encodeAll (p :: ps)) =
      some ({ p with data := [] }, UInt32.ofNat p.data.length, p.data ++ encodeAll ps) := by
  rw [encodeAll_cons, decode_encode]

theorem Wf.length_toNat {conv : UInt32} {p : Packet} (h : p.Wf conv) :
    (UInt32.ofNat p.data.length).toNat = p.data.length := by
  have hlength := h.length
  rw [UInt32.toNat_ofNat']
  exact Nat.mod_eq_of_lt (by omega)

/-- A datagram is read back segment by segment. -/
theorem parse_encodeAll {conv : UInt32} {ps : List Packet} (h : ∀ p ∈ ps, p.Wf conv) :
    parse (encodeAll ps) = ps := by
  induction ps with
  | nil =>
      rw [parse]
      rfl
  | cons p ps ih =>
      have hp := h p List.mem_cons_self
      rw [parse]
      split
      · rename_i hnone
        rw [decode_encodeAll] at hnone
        cases hnone
      · rename_i hsome
        rw [decode_encodeAll, Option.some.injEq, Prod.mk.injEq, Prod.mk.injEq] at hsome
        obtain ⟨rfl, rfl, rfl⟩ := hsome
        rw [hp.length_toNat, List.take_left, List.drop_left,
          ih fun q hq => h q (List.mem_cons_of_mem _ hq)]

end Packet

end BallServer.Kcp
