import BallServer.Lobby.Decoded

/-!
# Messages of a battle

A battle message is not framed; it only has the length of its name in front.  The battle
gateway packs and reads it in Lua and {lit}`BattlePacketCodec` in C#.

Main results:

- Theorem {lit}`tryDecode_of_splits`: the client reads a message that is well formed.
- Theorem {lit}`tryDecode_of_not_splits`: it refuses any other one.
- Theorem {lit}`codecs_agree`: both codecs write and read the same messages.
-/

namespace BallServer.BattleGateway

open BallServer.Gate (Buff Proto)
open BallServer.Lobby

/-! ## Writing -/

/-- The end of {lit}`proto_pack`: {lit}`string.pack` raises if the length of the name does
not fit into two bytes. -/
def packName (cmd body : Buff) : Option Buff :=
  if cmd.length < 65536 then some (u16 cmd.length ++ (cmd ++ body)) else none

/-- {lit}`proto_pack` of the battle gateway. -/
def protoPack {M : Type} (P : Proto M) (cmd : Buff) (msg : M) : Option Buff := do
  let map ← P.protoMap cmd
  let protoType ← map.res.or map.notify
  let body ← P.encode protoType msg
  packName cmd body

/-- {lit}`BattlePacketCodec.Encode`; a message that is {lit}`null` has no body. -/
def encode (cmd : Option String) (message : Option Buff) : Except String Buff :=
  match cmd with
  | none => .error "battle packet cmd is empty"
  | some cmd =>
      if cmd = "" then .error "battle packet cmd is empty"
      else
        let nameBytes := name cmd
        if nameBytes.length > 65535 then .error "battle packet cmd is too long"
        else .ok (u16 nameBytes.length ++ (nameBytes ++ message.getD []))

/-! ## Reading -/

/-- What {lit}`TryDecode` does: an exception, {lit}`false` and an error, or {lit}`true`, a
command and a body. -/
inductive Decoded where
  | raised
  | refused (error : String)
  | decoded (cmd : String) (body : Buff)
deriving DecidableEq, Repr

/-- A range of an array; outside of it the copy raises. -/
def slice (buffer : Buff) (offset count : Int) : Option Buff :=
  if 0 ≤ offset ∧ 0 ≤ count ∧ offset + count ≤ buffer.length then
    some ((buffer.drop offset.toNat).take count.toNat)
  else none

/-- {lit}`BattlePacketCodec.TryDecode`. -/
def tryDecode (T : Text) (buffer : Option Buff) (length : Int) : Decoded :=
  match buffer with
  | none => .refused "buffer is null"
  | some buffer =>
      if length < 2 then .refused "packet too short"
      else
        match buffer[0]?, buffer[1]? with
        | some hi, some lo =>
            let nameLength : Int := (hi.toNat <<< 8 ||| lo.toNat : Nat)
            let bodyLength := length - 2 - nameLength
            if nameLength ≤ 0 ∨ bodyLength < 0 then .refused "invalid packet lengths"
            else
              match slice buffer 2 nameLength with
              | none => .raised
              | some cmd =>
                  if bodyLength > 0 then
                    match slice buffer (2 + nameLength) bodyLength with
                    | none => .raised
                    | some body => .decoded (T.getString cmd) body
                  else .decoded (T.getString cmd) []
        | _, _ => .raised

/-- Two bytes put together. -/
theorem shift_or (hi lo : UInt8) : hi.toNat <<< 8 ||| lo.toNat = hi.toNat * 256 + lo.toNat := by
  have hlo : lo.toNat < 2 ^ 8 := lo.toNat_lt
  rw [← Nat.shiftLeft_add_eq_or_of_lt hlo, Nat.shiftLeft_eq]

theorem slice_middle (l m r : Buff) {offset count : Int} (hoffset : offset = l.length)
    (hcount : count = m.length) : slice (l ++ (m ++ r)) offset count = some m := by
  subst hoffset hcount
  unfold slice
  rw [if_pos (by simp only [List.length_append]; omega)]
  simp

/-- The client reads a message that is well formed, whatever stands behind it in its
buffer. -/
theorem tryDecode_of_splits (T : Text) {b cmd body : Buff} (h : Splits b cmd body)
    (rest : Buff) :
    tryDecode T (some (b ++ rest)) b.length = .decoded (T.getString cmd) body := by
  have hlen := h.length
  obtain ⟨hpos, hlt, rfl⟩ := h
  have hback := u16_back hlt
  have hcmd : slice (u16 cmd.length ++ (cmd ++ body) ++ rest) 2 cmd.length = some cmd := by
    rw [List.append_assoc, List.append_assoc]
    exact slice_middle _ _ _ rfl rfl
  have hbody : slice (u16 cmd.length ++ (cmd ++ body) ++ rest) (2 + cmd.length) body.length =
      some body := by
    rw [← List.append_assoc, List.append_assoc]
    exact slice_middle _ _ _ (by simp [u16_length]) rfl
  have hlength : ((2 + cmd.length + body.length : Nat) : Int) - 2 - cmd.length =
      body.length := by
    omega
  unfold tryDecode
  dsimp only
  rw [hlen, if_neg (by omega)]
  rw [show (u16 cmd.length ++ (cmd ++ body) ++ rest)[0]? = some (UInt8.ofNat (cmd.length / 256))
      from rfl,
    show (u16 cmd.length ++ (cmd ++ body) ++ rest)[1]? = some (UInt8.ofNat cmd.length) from rfl]
  simp only [shift_or, hback, hlength]
  rw [if_neg (by omega), hcmd]
  dsimp only
  by_cases hempty : body.length = 0
  · rw [if_neg (by omega), List.length_eq_zero_iff.mp hempty]
  · rw [if_pos (by omega), hbody]

/-- The client refuses any other message, and without a look behind it. -/
theorem tryDecode_of_not_splits (T : Text) {b : Buff} (h : ∀ cmd body, ¬ Splits b cmd body) :
    ∃ error, ∀ rest, tryDecode T (some (b ++ rest)) b.length = .refused error := by
  by_cases hshort : (b.length : Int) < 2
  · exact ⟨"packet too short", fun rest => by simp only [tryDecode, if_pos hshort]⟩
  · obtain ⟨hi, lo, l, rfl⟩ : ∃ hi lo l, b = hi :: lo :: l := by
      cases b with
      | nil => simp at hshort
      | cons hi l =>
          cases l with
          | nil => simp at hshort
          | cons lo l => exact ⟨hi, lo, l, rfl⟩
    refine ⟨"invalid packet lengths", fun rest => ?_⟩
    simp only [tryDecode, if_neg hshort, List.cons_append, List.getElem?_cons_zero,
      List.getElem?_cons_succ, shift_or]
    rw [if_pos]
    by_contra hok
    simp only [List.length_cons] at hok
    exact h _ _ (splits_of_bytes (by omega) (by omega))

/-! ## Both codecs -/

theorem encode_eq_packName {cmd : String} (hpos : 1 ≤ (name cmd).length)
    (hlt : (name cmd).length < 65536) (body : Buff) :
    encode (some cmd) (some body) = .ok (u16 (name cmd).length ++ (name cmd ++ body)) := by
  have hne : cmd ≠ "" := by
    rintro rfl
    exact absurd hpos (by decide)
  simp only [encode, if_neg hne, Option.getD_some]
  rw [if_neg (by omega)]

/-- Both codecs accept the messages that have a name with its length in front, split them
in the same way and never raise or read behind the message; for a name that fits they write
the same bytes and read back what they have written. -/
theorem codecs_agree (T : Text) :
    (∀ b : Buff,
      (∀ cmd body, Splits b cmd body →
        protoUnpack b = .read cmd body ∧
          ∀ rest, tryDecode T (some (b ++ rest)) b.length = .decoded (T.getString cmd) body) ∧
      ((∀ cmd body, ¬ Splits b cmd body) →
        protoUnpack b = .refused ∧
          ∃ error, ∀ rest, tryDecode T (some (b ++ rest)) b.length = .refused error)) ∧
    ∀ (cmd : String) (body : Buff), (∀ c ∈ cmd.toList, c.val ≤ 127) →
      1 ≤ cmd.toList.length → cmd.toList.length ≤ 65535 →
        ∃ packet, encode (some cmd) (some body) = .ok packet ∧
          (∀ (M : Type) (P : Proto M) (msg : M),
            (P.protoMap (name cmd)).bind (fun map => (map.res.or map.notify).bind
              fun ty => P.encode ty msg) = some body →
            protoPack P (name cmd) msg = some packet) ∧
          protoUnpack packet = .read (name cmd) body ∧
          tryDecode T (some packet) packet.length = .decoded cmd body := by
  constructor
  · intro b
    refine ⟨fun cmd body h => ⟨protoUnpack_of_splits h, tryDecode_of_splits T h⟩, fun h => ?_⟩
    exact ⟨protoUnpack_of_not_splits h, tryDecode_of_not_splits T h⟩
  · intro cmd body hascii hpos hle
    rw [← name_length_of_ascii hascii] at hpos hle
    have hlt : (name cmd).length < 65536 := by omega
    have hsplits : Splits (u16 (name cmd).length ++ (name cmd ++ body)) (name cmd) body :=
      ⟨hpos, hlt, rfl⟩
    refine ⟨_, encode_eq_packName hpos hlt body, ?_, protoUnpack_of_splits hsplits, ?_⟩
    · intro M P msg hbody
      obtain ⟨map, hmap, hrest⟩ := Option.bind_eq_some_iff.mp hbody
      obtain ⟨ty, hty, hencoded⟩ := Option.bind_eq_some_iff.mp hrest
      simp only [protoPack, hmap, hty, hencoded, Option.bind_eq_bind, Option.bind_some, packName,
        if_pos hlt]
    · have hread := tryDecode_of_splits T hsplits []
      rw [List.append_nil, T.getString_name] at hread
      exact hread

/-- The message a player is ready with, and three bytes that are too short for their name. -/
theorem codecs_agree_ready :
    (∃ packet, encode (some "battle_ready") (some [8, 1]) = .ok packet ∧
      protoUnpack packet = .read (name "battle_ready") [8, 1]) ∧
    protoUnpack [0, 2, 98] = .refused := by
  obtain ⟨hbytes, hnames⟩ := codecs_agree ⟨fun _ => "\uFFFD"⟩
  obtain ⟨packet, hencode, -, hread, -⟩ :=
    hnames "battle_ready" [8, 1] (by simp) (by decide) (by decide)
  refine ⟨⟨packet, hencode, hread⟩, ((hbytes [0, 2, 98]).2 ?_).1⟩
  rintro cmd body ⟨-, -, heq⟩
  have hlen := congrArg List.length heq
  simp only [u16, List.cons_append, List.nil_append, List.cons.injEq] at heq
  have hcmd : cmd.length < 256 := by
    simp only [List.length_append, u16_length, List.length_cons, List.length_nil] at hlen
    omega
  have hlow := congrArg UInt8.toNat heq.2.1
  rw [UInt8.toNat_ofNat'] at hlow
  have htwo : (2 : UInt8).toNat = 2 := rfl
  simp only [List.length_append, u16_length, List.length_cons, List.length_nil] at hlen
  omega

end BallServer.BattleGateway
