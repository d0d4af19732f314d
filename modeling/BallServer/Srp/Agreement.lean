import BallServer.Srp.Protocol

/-!
# Both ends of a login derive one key

The client raises {lit}`B - k g^x` to {lit}`a + u x`, the server {lit}`A v^u` to {lit}`b`.
With the right password both are {lit}`g` to {lit}`b (a + u x)`, so the digests that they
show each other are the same.

Main results:

- Theorem {lit}`Params.secret_eq`: the two secrets are one number.
- Theorem {lit}`Params.honest_exchange`: with the right password the server makes a session,
  and if the client answers, each accepts the other.
-/

namespace BallServer.Srp

open BigNum

/-- Each end accepts the digest that it has itself. -/
theorem SRPVerifier.verify_own (ver : SRPVerifier) (h : ver.M.length = ver.hashLength) :
    ver.verify ver.M = ({ ver with authenticated := true }, some ver.hAMK) := by
  unfold verify
  rw [if_neg (not_not.mpr h), if_pos rfl]

theorem SRPUser.verify_own (usr : SRPUser) (h : usr.hAMK.length = usr.params.alg.length) :
    (usr.verify usr.hAMK).2 = true := by
  unfold verify
  rw [if_neg (not_not.mpr h), if_pos rfl]

namespace Params

variable (p : Params)

/-- The public value of the server is {lit}`kv + g^b`, modulo the modulus. -/
theorem publicB_modEq (hN : 0 < p.ng.N) (k v b : Nat) :
    (p.publicB k v b : Int) ≡ k * v + (p.ng.g : Int) ^ b [ZMOD p.ng.N] := by
  have hgb := modExp_modEq hN p.ng.g b
  unfold publicB
  dsimp only
  split
  · push_cast
    refine (Int.mod_modEq _ _).trans ?_
    exact (Int.mod_modEq _ _).add hgb
  · push_cast
    exact hgb.add_left _

/-- What the client computes from the value of the server is what the server computes from
that of the client. -/
theorem secret_eq (hN : 0 < p.ng.N) (k x u a b : Nat) :
    modExp ((p.publicB k (modExp p.ng.g x p.ng.N) b : Int) - k * modExp p.ng.g x p.ng.N)
        (a + u * x) p.ng.N =
      modExp (modExp p.ng.g a p.ng.N * modExp (modExp p.ng.g x p.ng.N) u p.ng.N) b p.ng.N := by
  have hv := modExp_modEq hN p.ng.g x
  have hA := modExp_modEq hN p.ng.g a
  have hvu := (modExp_modEq hN (modExp p.ng.g x p.ng.N) u).trans (hv.pow u)
  have hB := p.publicB_modEq hN k (modExp p.ng.g x p.ng.N) b
  have hclient : (p.publicB k (modExp p.ng.g x p.ng.N) b : Int) - k * modExp p.ng.g x p.ng.N ≡
      (p.ng.g : Int) ^ b [ZMOD p.ng.N] := by
    have hsub := hB.sub_right (k * modExp p.ng.g x p.ng.N : Int)
    rwa [add_sub_cancel_left] at hsub
  apply modExp_congr hN
  calc ((p.publicB k (modExp p.ng.g x p.ng.N) b : Int) - k * modExp p.ng.g x p.ng.N) ^ (a + u * x)
      ≡ ((p.ng.g : Int) ^ b) ^ (a + u * x) [ZMOD p.ng.N] := hclient.pow _
    _ = ((p.ng.g : Int) ^ a * ((p.ng.g : Int) ^ x) ^ u) ^ b := by ring
    _ ≡ (modExp p.ng.g a p.ng.N * modExp (modExp p.ng.g x p.ng.N) u p.ng.N) ^ b [ZMOD p.ng.N] :=
        ((hA.mul hvu).pow b).symm

/-! ## An honest exchange -/

variable {p}

/-- A power of a generator is not a multiple of the modulus. -/
theorem modExp_ne_zero (hN : 1 < p.ng.N) (hg : p.ng.g.Coprime p.ng.N) (a : Nat) :
    modExp p.ng.g a p.ng.N % p.ng.N ≠ 0 := by
  intro hzero
  have hmod := modExp_modEq (by omega : 0 < p.ng.N) p.ng.g a
  have hdvd : (p.ng.N : Int) ∣ (p.ng.g : Int) ^ a := by
    have hcast : (p.ng.N : Int) ∣ modExp p.ng.g a p.ng.N :=
      Int.natCast_dvd_natCast.mpr (Nat.dvd_of_mod_eq_zero hzero)
    have hrem : (p.ng.g : Int) ^ a % p.ng.N = 0 :=
      Eq.trans hmod.symm (Int.emod_eq_zero_of_dvd hcast)
    exact Int.dvd_of_emod_eq_zero hrem
  have hone := Nat.eq_one_of_dvd_coprimes (hg.pow_left a) (by exact_mod_cast hdvd) dvd_rfl
  omega

/-- Numbers that are not longer than the modulus are hashed. -/
theorem hNn_eq_some (n₁ n₂ : Nat) (h₁ : numBytes n₁ ≤ numBytes p.ng.N)
    (h₂ : p.rfc5054 → numBytes n₂ ≤ numBytes p.ng.N) : ∃ u, p.hNn n₁ n₂ = some u := by
  unfold hNn HashAlgorithm.hNnRfc5054
  split
  · rename_i hrfc
    have hle := h₂ hrfc
    rw [if_neg (by omega)]
    exact ⟨_, rfl⟩
  · exact ⟨_, rfl⟩

theorem calculateM_eq_some (hlen : numBytes p.ng.g ≤ numBytes p.ng.N) (username : Bytes)
    (s A B : Nat) (K : Bytes) :
    ∃ M, p.alg.calculateM p.ng username s A B K p.rfc5054 = some M := by
  unfold HashAlgorithm.calculateM
  rw [if_neg (by omega)]
  exact ⟨_, rfl⟩

theorem calculateM_length {username : Bytes} {s A B : Nat} {K M : Bytes}
    (h : p.alg.calculateM p.ng username s A B K p.rfc5054 = some M) :
    M.length = p.alg.length := by
  unfold HashAlgorithm.calculateM at h
  split at h
  · cases h
  · cases h
    exact p.alg.hash_length _

theorem publicB_lt (hN : 0 < p.ng.N) (hrfc : p.rfc5054) (k v b : Nat) :
    p.publicB k v b < p.ng.N := by
  unfold publicB
  rw [if_pos hrfc]
  exact Nat.mod_lt _ hN

/-- A client that derives the secret of the server shows the digests that the server has. -/
theorem processChallenge_of_secret (usr : SRPUser) {s B u x k S : Nat} {M : Bytes}
    (hx : usr.params.alg.calculateX s usr.username usr.password usr.params.noUsernameInX = x)
    (hk : usr.params.hNn usr.params.ng.N usr.params.ng.g = some k)
    (hu : usr.params.hNn usr.A B = some u)
    (hsecret : modExp ((B : Int) - k * modExp usr.params.ng.g x usr.params.ng.N) (usr.a + u * x)
      usr.params.ng.N = S)
    (hM : usr.params.alg.calculateM usr.params.ng usr.username s usr.A B
      (usr.params.alg.hashNum S) usr.params.rfc5054 = some M) :
    usr.processChallenge (bn2bin s) (bn2bin B) =
      if B = 0 ∨ u = 0 then (usr, .error "invalid server public key B")
      else ({ usr with
        S := S, sessionKey := usr.params.alg.hashNum S, M := M,
        hAMK := usr.params.alg.calculateHAMK usr.A M (usr.params.alg.hashNum S) }, .ok M) := by
  unfold SRPUser.processChallenge SRPUser.answered
  simp only [bin2bn_bn2bin, hx, hk, hu, hsecret, hM, Option.getD_some]

/-- With the right password the server makes a session, and unless the client finds that the
public value or the scrambler is zero, each end accepts the other and both have one key. -/
theorem honest_exchange (hN : 1 < p.ng.N) (hg : p.ng.g.Coprime p.ng.N)
    (hlen : numBytes p.ng.g ≤ numBytes p.ng.N) (hname : p.noUsernameInX = false)
    (username password : Bytes) (s a b : Nat) :
    let account := p.createVerifier username password s
    let client := p.createClient username password a
    ∃ ver B, p.createSession username account.1 account.2 client.2 b = .ok (ver, B) ∧
      let answer := client.1.processChallenge account.1 B
      ((∃ e, answer.2 = .error e) ∧ (bin2bn B = 0 ∨ p.hNn client.1.A (bin2bn B) = some 0) ∨
        ∃ M, answer.2 = .ok M ∧
          ver.verify M = ({ ver with authenticated := true }, some ver.hAMK) ∧
          (answer.1.verify ver.hAMK).2 = true ∧ answer.1.sessionKey = ver.sessionKey) := by
  have hpos : 0 < p.ng.N := by omega
  dsimp only [createVerifier]
  generalize hx : p.alg.calculateX s (cString username) password false = x
  obtain ⟨k, hk⟩ := p.hNn_eq_some p.ng.N p.ng.g le_rfl fun _ => hlen
  obtain ⟨u, hu⟩ := p.hNn_eq_some (modExp p.ng.g a p.ng.N)
    (p.publicB k (modExp p.ng.g x p.ng.N) b) (numBytes_mono (modExp_lt hpos p.ng.g a).le)
    fun hrfc => numBytes_mono (publicB_lt hpos hrfc ..).le
  have hsecret := p.secret_eq hpos k x u a b
  generalize hB : p.publicB k (modExp p.ng.g x p.ng.N) b = B at hu hsecret
  generalize hS : modExp (modExp p.ng.g a p.ng.N * modExp (modExp p.ng.g x p.ng.N) u p.ng.N) b
    p.ng.N = S at hsecret
  obtain ⟨M, hM⟩ := p.calculateM_eq_some hlen (cString username) s (modExp p.ng.g a p.ng.N) B
    (p.alg.hashNum S)
  have hsession : p.createSession username (bn2bin s) (bn2bin (modExp p.ng.g x p.ng.N))
      (bn2bin (modExp p.ng.g a p.ng.N)) b = .ok ({
        hashLength := p.alg.length, username := cString username, bytesB := bn2bin B,
        authenticated := false, M := M,
        hAMK := p.alg.calculateHAMK (modExp p.ng.g a p.ng.N) M (p.alg.hashNum S),
        sessionKey := p.alg.hashNum S }, bn2bin B) := by
    unfold createSession verifierNew
    simp only [bin2bn_bn2bin, if_neg (modExp_ne_zero hN hg a), hk, hB, hu, hS, hM]
  have hxClient : p.alg.calculateX s (cString username) password p.noUsernameInX = x := by
    rw [hname]
    exact hx
  have hanswer := processChallenge_of_secret (p.createClient username password a).1 hxClient hk hu
    hsecret hM
  refine ⟨_, _, hsession, ?_⟩
  rw [hanswer]
  split
  · rename_i hzero
    have hscrambler : p.hNn (p.createClient username password a).1.A B = some u := hu
    rw [bin2bn_bn2bin, hscrambler]
    exact .inl ⟨⟨_, rfl⟩, hzero.imp id fun hzero => congrArg some hzero⟩
  · have hverify : M.length = p.alg.length := calculateM_length hM
    have hshown := SRPUser.verify_own { (p.createClient username password a).1 with
      S := S, sessionKey := p.alg.hashNum S, M := M,
      hAMK := p.alg.calculateHAMK (modExp p.ng.g a p.ng.N) M (p.alg.hashNum S) }
      (p.alg.hash_length _)
    exact .inr ⟨M, rfl, SRPVerifier.verify_own _ hverify, hshown, rfl⟩

/-- A digest of one byte: the sum of the bytes. -/
def sumHash : HashAlgorithm where
  hash d := [d.foldl (· + ·) 0]
  length := 1
  hash_length _ := rfl

/-- A modulus of one byte. -/
def small : Params := ⟨sumHash, ⟨227, 2⟩, true, false⟩

theorem honest_exchange_small :
    ∃ ver B, small.createSession [97] (small.createVerifier [97] [112] 9).1
        (small.createVerifier [97] [112] 9).2 (small.createClient [97] [112] 3).2 4 =
          .ok (ver, B) ∧
      let answer := (small.createClient [97] [112] 3).1.processChallenge
        (small.createVerifier [97] [112] 9).1 B
      ((∃ e, answer.2 = .error e) ∧
          (bin2bn B = 0 ∨ small.hNn (small.createClient [97] [112] 3).1.A (bin2bn B) = some 0) ∨
        ∃ M, answer.2 = .ok M ∧
          ver.verify M = ({ ver with authenticated := true }, some ver.hAMK) ∧
          (answer.1.verify ver.hAMK).2 = true ∧ answer.1.sessionKey = ver.sessionKey) :=
  honest_exchange (by decide) (by decide +kernel) (by decide +kernel) rfl [97] [112] 9 3 4

end Params

end BallServer.Srp
