import BallServer.Lobby.Unpacked

/-!
# What the gateways read

Both gateways take a message apart with {lit}`string.unpack`, which raises when the bytes
run out; the client copies ranges out of its arrays, which raises when a range leaves the
array.  The client keeps names as texts.

Main results:

- Definition {lit}`Text.getString`: the text of some bytes.
- Theorem {lit}`protoUnpack_of_splits`: a message that is well formed is read.
- Theorem {lit}`protoUnpack_of_not_splits`: any other is refused, without an error.
-/

namespace BallServer.Lobby

open BallServer.Gate (Buff Proto)

/-! ## Texts -/

/-- How {lit}`Encoding.UTF8` replaces bytes that are not the encoding of a text. -/
structure Text where
  replaced : Buff → String

/-- {lit}`Encoding.UTF8.GetString`. -/
def Text.getString (T : Text) (b : Buff) : String :=
  (String.fromUTF8? ⟨b.toArray⟩).getD (T.replaced b)

/-- What {lit}`GetBytes` has encoded is decoded. -/
theorem Text.getString_name (T : Text) (s : String) : T.getString (name s) = s := by
  have hbytes : (⟨(name s).toArray⟩ : ByteArray) = s.toByteArray := by
    simp [name]
  have hvalid : String.fromUTF8? s.toByteArray = some s := by
    unfold String.fromUTF8?
    rw [dif_pos s.isValidUTF8]
    rfl
  rw [getString, hbytes, hvalid]
  rfl

/-- A text of ASCII characters has one byte for each of them. -/
theorem name_length_of_ascii {s : String} (h : ∀ c ∈ s.toList, c.val ≤ 127) :
    (name s).length = s.toList.length := by
  have hsize : ∀ l : List Char, (∀ c ∈ l, c.val ≤ 127) → l.utf8Encode.size = l.length := by
    intro l hl
    induction l with
    | nil => rfl
    | cons c l ih =>
        have hc : c.utf8Size = 1 := Char.utf8Size_eq_one_iff.mpr (hl c List.mem_cons_self)
        rw [List.utf8Encode_cons, ByteArray.size_append,
          ih fun d hd => hl d (List.mem_cons_of_mem _ hd)]
        simp [List.utf8Encode_singleton, hc, Nat.add_comm]
  have hs := hsize s.toList h
  rw [← String.toByteArray_ofList, String.ofList_toList] at hs
  exact hs

/-! ## Numbers and strings in a message -/

/-- {lit}`string.unpack(">I2", ...)`: a number of two bytes and the rest. -/
def readU16 : Buff → Option (Nat × Buff)
  | hi :: lo :: rest => some (hi.toNat * 256 + lo.toNat, rest)
  | _ => none

/-- {lit}`string.unpack("> cn", ...)`: a string of {lit}`n` bytes and the rest. -/
def readStr (n : Nat) (l : Buff) : Option (Buff × Buff) :=
  if l.length < n then none else some (l.take n, l.drop n)

theorem readU16_u16 {n : Nat} (h : n < 65536) (l : Buff) : readU16 (u16 n ++ l) = some (n, l) := by
  simp only [u16, List.cons_append, List.nil_append, readU16, u16_back h]

theorem readStr_append (l r : Buff) : readStr l.length (l ++ r) = some (l, r) := by
  unfold readStr
  rw [if_neg (by simp)]
  simp

/-- Any two bytes are a number. -/
theorem u16_of_bytes (hi lo : UInt8) : u16 (hi.toNat * 256 + lo.toNat) = [hi, lo] := by
  have hhi := hi.toNat_lt
  have hlo := lo.toNat_lt
  have hdiv : (hi.toNat * 256 + lo.toNat) / 256 = hi.toNat := by omega
  have hmod : UInt8.ofNat (hi.toNat * 256 + lo.toNat) = lo := by
    apply UInt8.toNat_inj.mp
    rw [UInt8.toNat_ofNat']
    omega
  rw [u16, hdiv, hmod, UInt8.ofNat_toNat]

/-- What becomes of a message. -/
inductive Reading (N : Type) where
  | raised
  | refused
  | read (cmd : N) (body : Buff)
deriving DecidableEq, Repr

/-- {lit}`proto_unpack` of both gateways, up to the table of the commands. -/
def protoUnpack (buff : Buff) : Reading Buff :=
  let len := buff.length
  if len ≤ 2 then .refused
  else
    -- the first call of string.unpack stands in a pcall, the second one does not
    match readU16 buff >>= fun x => (readStr (len - 2) x.2).map fun y => (x.1, y.1) with
    | none => .refused
    | some (namelen, other) =>
        if namelen ≤ 0 ∨ other.length = 0 then .refused
        else
          let bodylen : Int := len - 2 - namelen
          if bodylen < 0 then .refused
          else
            match readStr namelen other >>= fun x =>
              (readStr bodylen.toNat x.2).map fun y => (x.1, y.1) with
            | none => .raised
            | some (cmd, bodybuff) => .read cmd bodybuff

/-- A message with the length of its name in front. -/
def Splits (b cmd body : Buff) : Prop :=
  1 ≤ cmd.length ∧ cmd.length < 65536 ∧ b = u16 cmd.length ++ (cmd ++ body)

theorem u16_length (n : Nat) : (u16 n).length = 2 :=
  rfl

theorem Splits.length {b cmd body : Buff} (h : Splits b cmd body) :
    b.length = 2 + cmd.length + body.length := by
  obtain ⟨-, -, rfl⟩ := h
  simp only [List.length_append, u16_length]
  omega

/-- A message can be split in one way. -/
theorem Splits.unique {b cmd cmd' body body' : Buff} (h : Splits b cmd body)
    (h' : Splits b cmd' body') : cmd = cmd' ∧ body = body' := by
  obtain ⟨-, hlt, rfl⟩ := h
  obtain ⟨-, hlt', heq⟩ := h'
  have hread := readU16_u16 hlt (cmd ++ body)
  rw [heq, readU16_u16 hlt'] at hread
  obtain ⟨hlen, hrest⟩ := Prod.mk.inj (Option.some.inj hread)
  obtain ⟨hcmd, hbody⟩ := List.append_inj hrest hlen
  exact ⟨hcmd.symm, hbody.symm⟩

/-- Bytes whose first two give a length that is not zero and is there can be split. -/
theorem splits_of_bytes {hi lo : UInt8} {rest : Buff}
    (hpos : 1 ≤ hi.toNat * 256 + lo.toNat) (hle : hi.toNat * 256 + lo.toNat ≤ rest.length) :
    Splits (hi :: lo :: rest) (rest.take (hi.toNat * 256 + lo.toNat))
      (rest.drop (hi.toNat * 256 + lo.toNat)) := by
  have hlen : (rest.take (hi.toNat * 256 + lo.toNat)).length = hi.toNat * 256 + lo.toNat :=
    List.length_take_of_le hle
  have hhi := hi.toNat_lt
  have hlo := lo.toNat_lt
  refine ⟨by omega, by omega, ?_⟩
  rw [hlen, u16_of_bytes, List.take_append_drop]
  rfl

theorem protoUnpack_of_splits {b cmd body : Buff} (h : Splits b cmd body) :
    protoUnpack b = .read cmd body := by
  have hlen := h.length
  obtain ⟨hpos, hlt, hb⟩ := h
  have hother : readStr (b.length - 2) (cmd ++ body) = some (cmd ++ body, []) := by
    have hall := readStr_append (cmd ++ body) []
    rw [List.append_nil, List.length_append] at hall
    rw [hlen, show 2 + cmd.length + body.length - 2 = cmd.length + body.length by omega]
    exact hall
  have hbody : readStr body.length body = some (body, []) := by
    simpa using readStr_append body []
  have hbodylen : ((b.length : Int) - 2 - cmd.length).toNat = body.length := by omega
  unfold protoUnpack
  rw [if_neg (by omega)]
  simp only [hother, hb ▸ readU16_u16 hlt (cmd ++ body), Option.bind_eq_bind, Option.bind_some,
    Option.map_some]
  rw [if_neg (by simp only [List.length_append]; omega), if_neg (by omega), hbodylen]
  simp only [readStr_append, hbody, Option.bind_some, Option.map_some]

theorem protoUnpack_of_not_splits {b : Buff} (h : ∀ cmd body, ¬ Splits b cmd body) :
    protoUnpack b = .refused := by
  unfold protoUnpack
  by_cases hshort : b.length ≤ 2
  · rw [if_pos hshort]
  · rw [if_neg hshort]
    obtain ⟨hi, lo, rest, rfl⟩ : ∃ hi lo rest, b = hi :: lo :: rest := by
      cases b with
      | nil => simp at hshort
      | cons hi l =>
          cases l with
          | nil => simp at hshort
          | cons lo rest => exact ⟨hi, lo, rest, rfl⟩
    have hother : readStr ((hi :: lo :: rest).length - 2) rest = some (rest, []) := by
      simpa using readStr_append rest []
    simp only [readU16, hother, Option.bind_eq_bind, Option.bind_some, Option.map_some]
    by_cases hzero : hi.toNat * 256 + lo.toNat ≤ 0 ∨ rest.length = 0
    · rw [if_pos hzero]
    · rw [if_neg hzero, if_pos]
      by_contra hle
      simp only [List.length_cons] at hle
      exact h _ _ (splits_of_bytes (by omega) (by omega))

/-- A message with a name is read, however long it is, and nothing else is. -/
theorem protoUnpack_eq_read_iff {b cmd body : Buff} :
    protoUnpack b = .read cmd body ↔ Splits b cmd body := by
  refine ⟨fun h => ?_, protoUnpack_of_splits⟩
  by_cases hsplits : ∃ cmd' body', Splits b cmd' body'
  · obtain ⟨cmd', body', hsplits⟩ := hsplits
    rw [protoUnpack_of_splits hsplits] at h
    obtain ⟨rfl, rfl⟩ := Reading.read.inj h
    exact hsplits
  · rw [protoUnpack_of_not_splits fun cmd' body' h' => hsplits ⟨cmd', body', h'⟩] at h
    cases h

end BallServer.Lobby
