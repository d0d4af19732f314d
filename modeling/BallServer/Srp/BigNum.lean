import Mathlib.Data.Nat.Digits.Lemmas
import Mathlib.Data.Int.ModEq

/-!
# Numbers of any size

Natural numbers as big-endian bytes without leading zeros, and powers by squaring modulo a
number.

Main results:

- Theorem {lit}`BigNum.bin2bn_bn2bin`: the bytes of a number read as that number.
- Theorem {lit}`BigNum.modExp_cast`: {lit}`modExp` is the power, modulo the number.
-/

namespace BallServer.BigNum

/-- {lit}`BN_bn2bin`. -/
def bn2bin (n : Nat) : List UInt8 := (Nat.digits 256 n).reverse.map UInt8.ofNat

/-- {lit}`BN_num_bytes`. -/
def numBytes (n : Nat) : Nat := (bn2bin n).length

/-- {lit}`BN_bin2bn`. -/
def bin2bn (d : List UInt8) : Nat := Nat.ofDigits 256 (d.reverse.map UInt8.toNat)

theorem bin2bn_bn2bin (n : Nat) : bin2bn (bn2bin n) = n := by
  have hdigits : ((Nat.digits 256 n).map UInt8.ofNat).map UInt8.toNat = Nat.digits 256 n := by
    rw [List.map_map]
    refine (List.map_congr_left fun d hd => ?_).trans (List.map_id _)
    have hlt : d < 256 := Nat.digits_lt_base (by decide) hd
    exact (UInt8.toNat_ofNat' ..).trans (Nat.mod_eq_of_lt hlt)
  unfold bin2bn bn2bin
  rw [← List.map_reverse, List.reverse_reverse, hdigits, Nat.ofDigits_digits]

theorem numBytes_mono {m n : Nat} (h : m ≤ n) : numBytes m ≤ numBytes n := by
  unfold numBytes bn2bin
  simp only [List.length_map, List.length_reverse]
  exact Nat.le_length_digits_le 256 m n h

/-- Squaring, for a base below the modulus. -/
def modPow (n : Nat) (a e : Nat) : Nat :=
  if e = 0 then 1 % n
  else
    let r := modPow n (a * a % n) (e / 2)
    if e % 2 = 1 then r * a % n else r
termination_by e
decreasing_by omega

theorem modPow_eq (n a e : Nat) : modPow n a e = a ^ e % n := by
  fun_induction modPow n a e with
  | case1 a => rw [pow_zero]
  | case2 a e hne r hodd ih =>
      have hsplit : a ^ e = (a * a) ^ (e / 2) * a := by
        rw [← pow_two, ← pow_mul, ← pow_succ]
        congr 1
        omega
      have hr : r = (a * a % n) ^ (e / 2) % n := ih
      rw [hr, ← Nat.pow_mod, hsplit, Nat.mod_mul_mod]
  | case3 a e hne r heven ih =>
      have hsplit : a ^ e = (a * a) ^ (e / 2) := by
        rw [← pow_two, ← pow_mul]
        congr 1
        omega
      have hr : r = (a * a % n) ^ (e / 2) % n := ih
      rw [hr, ← Nat.pow_mod, hsplit]

/-- {lit}`BN_mod_exp`; a negative base is reduced first. -/
def modExp (a : Int) (e n : Nat) : Nat := modPow n (a % n).toNat e

theorem modExp_lt {n : Nat} (hn : 0 < n) (a : Int) (e : Nat) : modExp a e n < n := by
  unfold modExp
  rw [modPow_eq]
  exact Nat.mod_lt _ hn

/-- The power, modulo the number. -/
theorem modExp_modEq {n : Nat} (hn : 0 < n) (a : Int) (e : Nat) :
    (modExp a e n : Int) ≡ a ^ e [ZMOD n] := by
  have hbase : ((a % n).toNat : Int) = a % n :=
    Int.toNat_of_nonneg (Int.emod_nonneg a (by omega))
  unfold modExp
  rw [modPow_eq]
  push_cast
  rw [hbase]
  exact (Int.mod_modEq _ _).trans ((Int.mod_modEq a n).pow e)

/-- Powers of numbers that are equal modulo the number are the same. -/
theorem modExp_congr {n : Nat} (hn : 0 < n) {a a' : Int} {e e' : Nat}
    (h : a ^ e ≡ a' ^ e' [ZMOD n]) : modExp a e n = modExp a' e' n := by
  have hmod := ((modExp_modEq hn a e).trans h).trans (modExp_modEq hn a' e').symm
  have hlt := modExp_lt hn a e
  have hlt' := modExp_lt hn a' e'
  unfold Int.ModEq at hmod
  rw [Int.emod_eq_of_lt (by omega) (by omega), Int.emod_eq_of_lt (by omega) (by omega)] at hmod
  exact_mod_cast hmod

end BallServer.BigNum
