import BallServer.Lobby.Chunks

/-!
# What the client sends

{lit}`NetworkManager.Send` writes both lengths of a frame with two bytes, whatever they
are, and the content in full.

Main results:

- Theorem {lit}`send_eq`: when it writes something, and what.
- Theorem {lit}`readAsOne_iff`: which frames are read as they were meant.
- Theorem {lit}`send_read_iff`: when the gateway reads what the client sends.
-/

namespace BallServer.Lobby

open BallServer.Gate (Buff)

/-- The length of the longest array. -/
def arrayMax : Nat :=
  2147483647

/-- An {lit}`int` of 32 bits. -/
def wrap32 (n : Int) : Int :=
  Int.bmod n (2 * (arrayMax + 1))

/-- {lit}`NetworkManager.Send`: the bytes it writes, if any.  Whatever raises is caught
before the write. -/
def send (isConnected : Bool) (cmd : String) (body : Buff) : Option Buff :=
  if isConnected = false then none
  -- no array is so long: GetBytes or ToByteArray raises
  else if arrayMax < (name cmd).length ∨ arrayMax < body.length then none
  else
    let contentLen := wrap32 (2 + (name cmd).length + body.length)
    let size := wrap32 (2 + contentLen)
    -- new raises for a negative size, and the stores of the four bytes for one below 4
    if size < 4 then none
    else
      some (u16 contentLen.toNat ++ (u16 (name cmd).length ++ (name cmd ++ body)))

/-- Some bytes are one frame with this name and body, for the client's decoder and for the
gateway's, whatever follows. -/
def ReadAsOne (T : Text) (bytes : Buff) (cmd : String) (body : Buff) : Prop :=
  ∀ rest, ∃ content, takeFromBuffer (bytes ++ rest) = some (content, rest) ∧
    wellFormed T content = some (cmd, body) ∧ protoUnpack content = .read (name cmd) body

theorem wrap32_of_lt {n : Int} (h : 0 ≤ n) (hlt : n ≤ arrayMax) : wrap32 n = n := by
  unfold wrap32 arrayMax at *
  exact Int.bmod_eq_of_le (by omega) (by omega)

/-- Something is written if the whole packet fits into an array. -/
theorem send_eq (isConnected : Bool) (cmd : String) (body : Buff) :
    send isConnected cmd body =
      if isConnected = true ∧ 4 + (name cmd).length + body.length ≤ arrayMax then
        some (u16 (2 + (name cmd).length + body.length) ++
          (u16 (name cmd).length ++ (name cmd ++ body)))
      else none := by
  unfold send
  cases isConnected with
  | false => simp
  | true =>
      rw [if_neg (show ¬ true = false by decide)]
      by_cases hfits : 4 + (name cmd).length + body.length ≤ arrayMax
      · have hcontent : wrap32 (2 + (name cmd).length + body.length) =
            (2 + (name cmd).length + body.length : Nat) := by
          rw [wrap32_of_lt (by omega) (by omega)]
          omega
        have hsize : wrap32 (2 + (2 + (name cmd).length + body.length : Nat)) =
            (4 + (name cmd).length + body.length : Nat) := by
          rw [wrap32_of_lt (by omega) (by omega)]
          omega
        have harrays : ¬ (arrayMax < (name cmd).length ∨ arrayMax < body.length) := by omega
        have hsent : true = true ∧ 4 + (name cmd).length + body.length ≤ arrayMax := ⟨rfl, hfits⟩
        rw [if_neg harrays, if_pos hsent]
        simp only [hcontent, hsize, Int.toNat_natCast]
        rw [if_neg (by omega)]
      · rw [if_neg (show ¬ (true = true ∧ _) from fun h => hfits h.2)]
        by_cases harrays : arrayMax < (name cmd).length ∨ arrayMax < body.length
        · rw [if_pos harrays]
        · rw [if_neg harrays]
          dsimp only
          rw [if_pos]
          unfold wrap32
          rw [Int.add_bmod_bmod]
          unfold arrayMax at *
          have hbmod := Int.bmod_def (2 + (2 + (name cmd).length + body.length)) 4294967296
          rw [show 2 * (2147483647 + 1) = 4294967296 from rfl, hbmod]
          split_ifs <;> omega

/-- A frame is read as it was meant if its name is not empty and its length fits into two
bytes. -/
theorem readAsOne_iff (T : Text) (cmd : String) (body : Buff) :
    ReadAsOne T (u16 (2 + (name cmd).length + body.length) ++
        (u16 (name cmd).length ++ (name cmd ++ body))) cmd body ↔
      1 ≤ (name cmd).length ∧ 2 + (name cmd).length + body.length ≤ 65535 := by
  have hlen : (u16 (name cmd).length ++ (name cmd ++ body)).length =
      2 + (name cmd).length + body.length := by
    simp only [List.length_append, u16_length]
    omega
  constructor
  · intro h
    obtain ⟨content, htake, -, hread⟩ := h []
    have hsplits := protoUnpack_eq_read_iff.mp hread
    refine ⟨hsplits.1, ?_⟩
    -- the decoder takes as many bytes as two bytes can say
    rw [List.append_nil, u16, List.cons_append, List.cons_append, List.nil_append,
      takeFromBuffer_cons] at htake
    split_ifs at htake with hlt
    obtain ⟨hcontent, -⟩ := Prod.mk.inj (Option.some.inj htake)
    have hlength := hsplits.length
    rw [← hcontent, List.length_take_of_le (by omega)] at hlength
    simp only [UInt8.toNat_ofNat'] at hlength
    omega
  · rintro ⟨hpos, hle⟩ rest
    have hsplits : Splits (u16 (name cmd).length ++ (name cmd ++ body)) (name cmd) body :=
      ⟨hpos, by omega, rfl⟩
    have hparse := parseContent_content (m := ⟨name cmd, body⟩) (by
      simp only [Msg.Fits]
      omega)
    refine ⟨_, ?_, ?_, protoUnpack_of_splits hsplits⟩
    · rw [← hlen]
      exact takeFromBuffer_frame (by omega) rest
    · rw [wellFormed]
      simp only [Msg.content] at hparse
      rw [hparse, Option.map_some, T.getString_name]

/-- When every packet that is written is read as it was meant: the client is not connected,
or the name is not empty and the content fits into two bytes, or the packet is too long for
an array. -/
theorem send_read_iff (T : Text) (isConnected : Bool) (cmd : String) (body : Buff) :
    (∀ bytes, send isConnected cmd body = some bytes → ReadAsOne T bytes cmd body) ↔
      isConnected = false ∨
        (cmd ≠ "" ∧ 2 + (name cmd).length + body.length ≤ 65535) ∨
          arrayMax < 4 + (name cmd).length + body.length := by
  have hempty : cmd ≠ "" ↔ 1 ≤ (name cmd).length := by
    constructor
    · intro hne
      by_contra hzero
      refine hne ?_
      have hnil : name cmd = name "" := List.length_eq_zero_iff.mp (by omega)
      rw [← T.getString_name cmd, hnil, T.getString_name]
    · rintro hpos rfl
      exact absurd hpos (by decide)
  rw [send_eq, hempty]
  by_cases hsent : isConnected = true ∧ 4 + (name cmd).length + body.length ≤ arrayMax
  · rw [if_pos hsent]
    simp only [Option.some.injEq, forall_eq', readAsOne_iff, hsent.1, Bool.true_eq_false, false_or]
    omega
  · rw [if_neg hsent]
    constructor
    · intro _
      cases isConnected with
      | false => exact .inl rfl
      | true =>
          refine .inr (.inr ?_)
          by_contra hle
          exact hsent ⟨rfl, by omega⟩
    · rintro _ _ h
      cases h

/-- A message of 65536 bytes is written, and read as another one. -/
theorem send_long_misread :
    ¬ ∀ bytes, send true "register" (List.replicate 65536 0) = some bytes →
      ReadAsOne ⟨fun _ => "\uFFFD"⟩ bytes "register" (List.replicate 65536 0) := by
  intro h
  have hname : (name "register").length = 8 := by decide
  have hsend := send_eq true "register" (List.replicate 65536 0)
  rw [if_pos ⟨rfl, by rw [hname, List.length_replicate]; decide⟩] at hsend
  obtain ⟨-, hle⟩ := (readAsOne_iff _ _ _).mp (h _ hsend)
  rw [hname, List.length_replicate] at hle
  omega

end BallServer.Lobby
