import BallServer.Framing.Format
import BallServer.Gateway.Service

/-!
# Packets

The gateway packs a message with the length of its content and the length of its name in
front.  The client cuts the bytes it has received into packets again.

Main results:

- Theorem {lit}`packets_readable`: the client reads back what the gateway has packed.
-/

namespace BallServer.Lobby

open BallServer.Gate (Buff)

/-- A message: the name of the command and the encoded body. -/
structure Msg where
  cmd : Buff
  body : Buff
deriving DecidableEq, Repr

/-- Two bytes, the higher one first. -/
def u16 (n : Nat) : Buff :=
  [UInt8.ofNat (n / 256), UInt8.ofNat n]

/-- The content of a packet without its first length. -/
def Msg.content (m : Msg) : Buff :=
  u16 m.cmd.length ++ (m.cmd ++ m.body)

/-- The length of the content fits into two bytes. -/
def Msg.Fits (m : Msg) : Prop :=
  m.body.length + m.cmd.length + 2 < 65536

instance (m : Msg) : Decidable m.Fits :=
  inferInstanceAs (Decidable (_ < _))

/-- The packet of a message. -/
def Msg.packet (m : Msg) : Buff :=
  u16 (m.body.length + m.cmd.length + 2) ++ m.content

/-- {lit}`proto_pack` of an encoded message; {lit}`string.pack` raises when a length does
not fit. -/
def protoPack (m : Msg) : Option Buff :=
  if m.Fits then some m.packet else none

/-- {lit}`ProcessAccumBuffer`: the message in the content of a packet. -/
def parseContent : Buff → Option Msg
  | hi :: lo :: rest =>
      let nameLen := hi.toNat * 256 + lo.toNat
      if rest.length < nameLen then none else some ⟨rest.take nameLen, rest.drop nameLen⟩
  | _ => none

/-- {lit}`ProcessAccumBuffer`: one pass of its loop. -/
def nextPacket : Buff → Option (Option Msg × Buff)
  | hi :: lo :: rest =>
      let contentLen := hi.toNat * 256 + lo.toNat
      if rest.length < contentLen then none
      else some (parseContent (rest.take contentLen), rest.drop contentLen)
  | _ => none

theorem nextPacket_shorter {l : Buff} {x : Option Msg} {r : Buff}
    (h : nextPacket l = some (x, r)) : r.length < l.length := by
  unfold nextPacket at h
  split at h
  · dsimp only at h
    split at h
    · cases h
    · obtain ⟨-, rfl⟩ := Prod.mk.inj (Option.some.inj h)
      simp only [List.length_drop, List.length_cons]
      omega
  · cases h

/-- The packets of the lobby. -/
def packets : Framing.Format Msg UInt8 where
  write := Msg.packet
  next := nextPacket
  next_shorter := nextPacket_shorter

@[simp]
theorem packets_write (m : Msg) : packets.write m = m.packet :=
  rfl

theorem u16_back {n : Nat} (h : n < 65536) :
    (UInt8.ofNat (n / 256)).toNat * 256 + (UInt8.ofNat n).toNat = n := by
  simp only [UInt8.toNat_ofNat']
  omega

theorem content_length (m : Msg) : m.content.length = m.body.length + m.cmd.length + 2 := by
  simp only [Msg.content, u16, List.length_append, List.length_cons, List.length_nil]
  omega

theorem parseContent_content {m : Msg} (h : m.Fits) : parseContent m.content = some m := by
  have hname : m.cmd.length < 65536 := by
    unfold Msg.Fits at h
    omega
  simp only [Msg.content, u16, List.cons_append, List.nil_append, parseContent]
  rw [u16_back hname, if_neg (by simp)]
  simp

theorem nextPacket_packet {m : Msg} (h : m.Fits) (r : Buff) :
    nextPacket (m.packet ++ r) = some (some m, r) := by
  simp only [Msg.packet, u16, List.cons_append, List.nil_append, nextPacket]
  rw [u16_back h, ← content_length, if_neg (by simp)]
  simp [parseContent_content h]

/-- The client waits until a packet is complete. -/
theorem nextPacket_waits {m : Msg} (h : m.Fits) {l : Buff} (hl : l <+: m.packet)
    (hne : l ≠ m.packet) : nextPacket l = none := by
  obtain ⟨r, hr⟩ := hl
  have hshort : l.length < m.packet.length := by
    have hpos : r ≠ [] := by
      rintro rfl
      exact hne (by simpa using hr)
    have := List.length_pos_of_ne_nil hpos
    rw [← hr, List.length_append]
    omega
  simp only [Msg.packet, u16, List.cons_append, List.nil_append] at hr hshort
  cases l with
  | nil => rfl
  | cons hi l =>
      cases l with
      | nil => rfl
      | cons lo rest =>
          simp only [List.cons_append, List.cons.injEq] at hr
          obtain ⟨rfl, rfl, -⟩ := hr
          simp only [List.length_cons, content_length] at hshort
          simp only [nextPacket]
          rw [u16_back h, if_pos (by omega)]

/-- What is packed is read back. -/
theorem packets_readable {m : Msg} (h : m.Fits) : packets.Readable m :=
  ⟨nextPacket_packet h, fun _ hl hne => nextPacket_waits h hl hne⟩

end BallServer.Lobby
