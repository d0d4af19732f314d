import BallServer.Srp.BigNum

/-!
# The SRP library

The functions of {lit}`srp.c` on numbers and bytes, and the functions of {lit}`lua-srp.c`
that the login service and its clients call.  What a hash function computes is a parameter,
and the random numbers are arguments.

Main results:

- Definitions {lit}`Params.createVerifier`, {lit}`Params.createSession` and
  {lit}`SRPVerifier.verify`: what the login service calls.
- Definitions {lit}`Params.createClient`, {lit}`SRPUser.processChallenge` and
  {lit}`SRPUser.verify`: what its clients call.
-/

namespace BallServer.Srp

open BigNum

/-- Bytes, as in a string of Lua. -/
abbrev Bytes := List UInt8

/-- A hash function of OpenSSL: all its digests are of one length. -/
structure HashAlgorithm where
  hash : Bytes → Bytes
  length : Nat
  hash_length : ∀ d, (hash d).length = length

/-- {lit}`NGConstant`. -/
structure NGConstant where
  N : Nat
  g : Nat
deriving DecidableEq, Repr

/-- {lit}`lsrp_params`. -/
structure Params where
  alg : HashAlgorithm
  ng : NGConstant
  rfc5054 : Bool
  noUsernameInX : Bool

/-- What C sees of a string: it ends at the first zero. -/
def cString (d : Bytes) : Bytes := d.takeWhile (· ≠ 0)

/-- Bytes with zeros in front of them. -/
def padded (len : Nat) (n : Nat) : Bytes :=
  List.replicate (len - numBytes n) 0 ++ bn2bin n

namespace HashAlgorithm

variable (alg : HashAlgorithm)

/-- {lit}`H_nn_orig`. -/
def hNnOrig (n₁ n₂ : Nat) : Nat := bin2bn (alg.hash (bn2bin n₁ ++ bn2bin n₂))

/-- {lit}`H_nn_rfc5054`; a number that is longer than the modulus is refused. -/
def hNnRfc5054 (N n₁ n₂ : Nat) : Option Nat :=
  let len := numBytes N
  if numBytes n₁ > len ∨ numBytes n₂ > len then none
  else some (bin2bn (alg.hash (padded len n₁ ++ padded len n₂)))

/-- {lit}`H_ns`. -/
def hNs (n : Nat) (bytes : Bytes) : Nat := bin2bn (alg.hash (bn2bin n ++ bytes))

/-- {lit}`calculate_x`; 58 is the colon. -/
def calculateX (salt : Nat) (username password : Bytes) (noUsernameInX : Bool) : Nat :=
  let name := if noUsernameInX then [] else username
  alg.hNs salt (alg.hash (name ++ [58] ++ password))

/-- {lit}`hash_num_pad`. -/
def hashNumPad (n padding : Nat) : Bytes := alg.hash (List.replicate padding 0 ++ bn2bin n)

/-- {lit}`hash_num`. -/
def hashNum (n : Nat) : Bytes := alg.hashNumPad n 0

/-- {lit}`calculate_M`; it fails if the generator is longer than the modulus. -/
def calculateM (ng : NGConstant) (username : Bytes) (s A B : Nat) (K : Bytes) (rfc5054 : Bool) :
    Option Bytes :=
  if rfc5054 ∧ numBytes ng.N < numBytes ng.g then none
  else
    let padding := if rfc5054 then numBytes ng.N - numBytes ng.g else 0
    let hXor := (alg.hashNum ng.N).zipWith (· ^^^ ·) (alg.hashNumPad ng.g padding)
    some (alg.hash (hXor ++ alg.hash username ++ bn2bin s ++ bn2bin A ++ bn2bin B ++ K))

/-- {lit}`calculate_H_AMK`. -/
def calculateHAMK (A : Nat) (M K : Bytes) : Bytes := alg.hash (bn2bin A ++ M ++ K)

end HashAlgorithm

/-- {lit}`struct SRPVerifier`. -/
structure SRPVerifier where
  hashLength : Nat
  username : Bytes
  bytesB : Bytes
  authenticated : Bool
  M : Bytes
  hAMK : Bytes
  sessionKey : Bytes
deriving DecidableEq, Repr

/-- {lit}`struct SRPUser`; its digests are not set before the challenge. -/
structure SRPUser where
  params : Params
  a : Nat
  A : Nat
  S : Nat
  username : Bytes
  password : Bytes
  authenticated : Bool
  M : Bytes
  hAMK : Bytes
  sessionKey : Bytes

/-! ## The server -/

/-- {lit}`srp_verifier_verify_session`, below the check of the length in
{lit}`l_verifier_verify`. -/
def SRPVerifier.verify (ver : SRPVerifier) (M : Bytes) : SRPVerifier × Option Bytes :=
  if M.length ≠ ver.hashLength then (ver, none)
  else if ver.M = M then ({ ver with authenticated := true }, some ver.hAMK)
  else (ver, none)

namespace Params

variable (p : Params)

/-- The multiplier, and the scrambler of two public values. -/
def hNn (n₁ n₂ : Nat) : Option Nat :=
  if p.rfc5054 then p.alg.hNnRfc5054 p.ng.N n₁ n₂ else some (p.alg.hNnOrig n₁ n₂)

/-- {lit}`l_create_verifier` over {lit}`srp_create_salted_verification_key`; the name is
always part of {lit}`x`. -/
def createVerifier (username password : Bytes) (s : Nat) : Bytes × Bytes :=
  let x := p.alg.calculateX s (cString username) password false
  (bn2bin s, bn2bin (modExp p.ng.g x p.ng.N))

/-- The public value of the server, {lit}`kv + g^b`. -/
def publicB (k v b : Nat) : Nat :=
  let gb := modExp p.ng.g b p.ng.N
  if p.rfc5054 then (k * v % p.ng.N + gb) % p.ng.N else k * v + gb

/-- {lit}`srp_verifier_new`; {lit}`none` is the null pointer. -/
def verifierNew (username bytesS bytesV bytesA : Bytes) (b : Nat) :
    Option (SRPVerifier × Bytes) :=
  let s := bin2bn bytesS
  let v := bin2bn bytesV
  let A := bin2bn bytesA
  if A % p.ng.N = 0 then none
  else
    match p.hNn p.ng.N p.ng.g with
    | none => none
    | some k =>
        let B := p.publicB k v b
        match p.hNn A B with
        | none => none
        | some u =>
            let S := modExp (A * modExp v u p.ng.N) b p.ng.N
            let K := p.alg.hashNum S
            match p.alg.calculateM p.ng (cString username) s A B K p.rfc5054 with
            | none => none
            | some M =>
                some ({ hashLength := p.alg.length, username := cString username,
                        bytesB := bn2bin B, authenticated := false, M := M,
                        hAMK := p.alg.calculateHAMK A M K, sessionKey := K }, bn2bin B)

/-- {lit}`l_create_session`. -/
def createSession (username salt verifier A : Bytes) (b : Nat) :
    Except String (SRPVerifier × Bytes) :=
  match p.verifierNew username salt verifier A b with
  | none => .error "failed to create server session"
  | some session => .ok session

/-! ## The client -/

/-- {lit}`l_create_client`: {lit}`srp_user_new` and {lit}`srp_user_start_authentication`. -/
def createClient (username password : Bytes) (a : Nat) : SRPUser × Bytes :=
  let A := modExp p.ng.g a p.ng.N
  ({ params := p, a := a, A := A, S := 0, username := cString username, password := password,
     authenticated := false, M := [], hAMK := [], sessionKey := [] }, bn2bin A)

end Params

namespace SRPUser

variable (usr : SRPUser)

/-- What the challenge leaves in a client that answers it. -/
def answered (s B u x k : Nat) : SRPUser :=
  let p := usr.params
  let S := modExp (B - k * modExp p.ng.g x p.ng.N) (usr.a + u * x) p.ng.N
  let K := p.alg.hashNum S
  let M := (p.alg.calculateM p.ng usr.username s usr.A B K p.rfc5054).getD usr.M
  { usr with S := S, sessionKey := K, M := M, hAMK := p.alg.calculateHAMK usr.A M K }

/-- {lit}`l_user_process_challenge` over {lit}`srp_user_process_challenge`. -/
def processChallenge (bytesS bytesB : Bytes) : SRPUser × Except String Bytes :=
  let p := usr.params
  let s := bin2bn bytesS
  let B := bin2bn bytesB
  let refused : SRPUser × Except String Bytes := (usr, .error "invalid server public key B")
  match p.hNn usr.A B with
  | none => refused
  | some u =>
      let x := p.alg.calculateX s usr.username usr.password p.noUsernameInX
      match p.hNn p.ng.N p.ng.g with
      | none => refused
      | some k =>
          if B = 0 ∨ u = 0 then refused
          else
            let usr := usr.answered s B u x k
            (usr, .ok usr.M)

/-- {lit}`l_user_verify` over {lit}`srp_user_verify_session`. -/
def verify (hAMK : Bytes) : SRPUser × Bool :=
  if hAMK.length ≠ usr.params.alg.length then (usr, false)
  else
    let usr := if usr.hAMK = hAMK then { usr with authenticated := true } else usr
    (usr, usr.authenticated)

end SRPUser

end BallServer.Srp
