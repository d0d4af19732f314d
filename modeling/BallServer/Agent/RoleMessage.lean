import Mathlib.Data.List.Basic
import Mathlib.Logic.Function.Basic

/-!
# The wire format of the base data

{lit}`pb.encode` writes the fields of a {lit}`role_message` that differ from their defaults,
each as a key and a variable-length integer of 64 bits, in the order of {lit}`pairs`.
{lit}`pb.decode` reads keys and values until the end, takes the low 32 bits of a value and has
the defaults for the fields that are missing.

Main results:

- Definitions {lit}`encode` and {lit}`decode`.
- Theorem {lit}`decode_encode`: the fields come back, whatever their order.
-/

namespace BallServer.Agent.RoleMessage

/-- The fields of {lit}`role_message`. -/
inductive Field where
  | coin
  | level
  | exp
  | vip_level
  | last_login_time
  | rank_score
deriving DecidableEq, Repr

/-- The number of a field in the message. -/
def Field.id : Field → Nat
  | .coin => 1
  | .level => 2
  | .exp => 3
  | .vip_level => 4
  | .last_login_time => 5
  | .rank_score => 6

/-- The field with a number. -/
def fieldOf : Nat → Option Field
  | 1 => some .coin
  | 2 => some .level
  | 3 => some .exp
  | 4 => some .vip_level
  | 5 => some .last_login_time
  | 6 => some .rank_score
  | _ => none

/-- The default of a field. -/
def Field.default : Field → BitVec 32
  | .level => 1
  | .rank_score => 1000
  | _ => 0

/-- {lit}`s.data.base_info`; every field is an {lit}`int32`. -/
abbrev BaseInfo := Field → BitVec 32

/-- {lit}`_pbcV_encode`, seven bits to a byte. -/
def varint (n : Nat) : List Nat :=
  if n < 128 then [n] else (n % 128 + 128) :: varint (n / 128)
decreasing_by omega

/-- {lit}`_pbcV_decode`: the number and the bytes after it. -/
def readVarint : List Nat → Option (Nat × List Nat)
  | [] => none
  | b :: bytes =>
      if b < 128 then some (b, bytes)
      else do
        let (n, rest) ← readVarint bytes
        some (b % 128 + 128 * n, rest)

/-- {lit}`pbc_wmessage_integer`: a field of type {lit}`int32` as the 64 bits of a Lua
integer. -/
def encodeField (f : Field) (v : BitVec 32) : List Nat :=
  if v = f.default then [] else varint (f.id * 8) ++ varint (v.signExtend 64).toNat

/-- {lit}`pb.encode` with the fields in some order. -/
def encode (order : List Field) (b : BaseInfo) : List Nat :=
  order.flatMap fun f => encodeField f (b f)

/-- The number in some bytes, the low ones first. -/
def little (bytes : List Nat) : Nat :=
  bytes.foldr (fun b n => b + 256 * n) 0

/-- {lit}`wiretype_decode`: what a field of type {lit}`int32` takes for a value of this wire
type, and the bytes after the value.  For bytes with a length it is their place in a message
of this size, since the two share memory. -/
def readValue (size : Nat) : Nat → List Nat → Option (Nat × List Nat)
  | 0, bytes => readVarint bytes
  | 1, bytes => if bytes.length < 8 then none else some (little (bytes.take 4), bytes.drop 8)
  | 2, bytes => do
      let (n, rest) ← readVarint bytes
      if rest.length < n then none else some (size - rest.length, rest.drop n)
  | 5, bytes => if bytes.length < 4 then none else some (little (bytes.take 4), bytes.drop 4)
  | _, _ => none

/-- {lit}`pbc_decode` of at most so many values of a message of this size; a field that is not
known is skipped. -/
def decodeFrom (size : Nat) (b : BaseInfo) : Nat → List Nat → Option BaseInfo
  | _, [] => some b
  | 0, _ :: _ => none
  | fuel + 1, bytes => do
      let (key, rest) ← readVarint bytes
      if key < 4294967296 then
        let (n, rest) ← readValue size (key % 8) rest
        match fieldOf (key / 8) with
        | some f => decodeFrom size (Function.update b f (BitVec.ofNat 32 n)) fuel rest
        | none => decodeFrom size b fuel rest
      else none

/-- {lit}`pb.decode`. -/
def decode (bytes : List Nat) : Option BaseInfo :=
  decodeFrom bytes.length Field.default bytes.length bytes

theorem readVarint_varint (n : Nat) (rest : List Nat) :
    readVarint (varint n ++ rest) = some (n, rest) := by
  induction n using varint.induct with
  | case1 n h =>
      unfold varint
      simp [h, readVarint]
  | case2 n h ih =>
      have hbyte : ¬ n % 128 + 128 < 128 := by omega
      have hsum : (n % 128 + 128) % 128 + 128 * (n / 128) = n := by omega
      unfold varint
      simp only [h, if_false, List.cons_append, readVarint, hbyte, ih, Option.bind_eq_bind,
        Option.bind_some, hsum]

theorem fieldOf_id (f : Field) : fieldOf (f.id * 8 / 8) = some f := by
  cases f <;> rfl

theorem key_lt (f : Field) : f.id * 8 < 4294967296 := by
  cases f <;> decide

theorem varint_ne_nil (n : Nat) : varint n ≠ [] := by
  unfold varint
  split <;> exact List.cons_ne_nil _ _

/-- The low bits of a value that was extended by its sign are the value. -/
theorem ofNat_signExtend (v : BitVec 32) : BitVec.ofNat 32 (v.signExtend 64).toNat = v := by
  have hlt := v.isLt
  refine BitVec.eq_of_toNat_eq ?_
  rw [BitVec.toNat_ofNat, BitVec.toNat_signExtend, BitVec.toNat_setWidth]
  split <;> omega

/-- A field that is written is read back. -/
theorem decodeFrom_field (size : Nat) {b : BaseInfo} {f : Field} {v : BitVec 32}
    (hv : v ≠ f.default) (fuel : Nat) (rest : List Nat) :
    decodeFrom size b (fuel + 1) (encodeField f v ++ rest) =
      decodeFrom size (Function.update b f v) fuel rest := by
  have hkey : f.id * 8 % 8 = 0 := Nat.mul_mod_left ..
  obtain ⟨x, xs, hx⟩ := List.exists_cons_of_ne_nil (varint_ne_nil (f.id * 8))
  have hread := readVarint_varint (f.id * 8) (varint (v.signExtend 64).toNat ++ rest)
  simp only [encodeField, hv, if_false, List.append_assoc]
  rw [hx, List.cons_append] at hread ⊢
  simp only [decodeFrom, hread, Option.bind_eq_bind, Option.bind_some, key_lt, if_true, hkey,
    readValue, readVarint_varint, fieldOf_id, ofNat_signExtend]

/-- The fields of a list are read back over what there is. -/
theorem decodeFrom_encode (size : Nat) (b : BaseInfo) (order : List Field) (b₀ : BaseInfo)
    (fuel : Nat) (hfuel : (encode order b).length ≤ fuel) :
    decodeFrom size b₀ fuel (encode order b) =
      some fun f => if f ∈ order ∧ b f ≠ f.default then b f else b₀ f := by
  induction order generalizing b₀ fuel with
  | nil =>
      cases fuel <;> simp [encode, decodeFrom]
  | cons g order ih =>
      have hcons : encode (g :: order) b = encodeField g (b g) ++ encode order b :=
        List.flatMap_cons
      by_cases hg : b g = g.default
      · have hnil : encodeField g (b g) = [] := by simp [encodeField, hg]
        rw [hcons, hnil, List.nil_append] at hfuel ⊢
        rw [ih b₀ fuel hfuel]
        congr 1
        funext f
        by_cases hfg : f = g <;> simp [hfg, hg]
      · have hlen : 0 < (encodeField g (b g)).length := by
          simp only [encodeField, hg, if_false, List.length_append]
          exact Nat.add_pos_left (List.length_pos_of_ne_nil (varint_ne_nil _)) _
        rw [hcons, List.length_append] at hfuel
        obtain ⟨n, rfl⟩ := Nat.exists_eq_succ_of_ne_zero (n := fuel) (by omega)
        rw [hcons, decodeFrom_field size hg, ih _ n (by omega)]
        congr 1
        funext f
        by_cases hfg : f = g
        · subst hfg
          by_cases hf : f ∈ order <;> simp [hf, hg]
        · simp [hfg]

/-- The base data comes back from its encoding. -/
theorem decode_encode (order : List Field) (horder : ∀ f, f ∈ order) (b : BaseInfo) :
    decode (encode order b) = some b := by
  rw [decode, decodeFrom_encode _ b order _ _ (Nat.le_refl _)]
  congr 1
  funext f
  by_cases hf : b f = f.default <;> simp [horder f, hf]

end BallServer.Agent.RoleMessage
