import BallServer.Lobby.Decoded

/-!
# Frames that arrive in pieces

A frame has the length of its content in front.  The client keeps what it has received in
an array, which grows, and moves the rest to the front of the array when it has taken a
frame; the test client keeps a string.

Main results:

- Theorem {lit}`takeFrame_spec`: one frame is taken out of the array.
- Theorem {lit}`process_spec`: all complete frames are.
- Theorem {lit}`recvLoop_eq`: the client receives what the test client does.
- Theorem {lit}`frames_survive_chunks`: however the stream is cut, every frame arrives.
-/

namespace BallServer.Lobby

open BallServer.Gate (Buff)

/-! ## The test client -/

/-- {lit}`take_from_buffer`: the content and the new {lit}`recv_buffer`. -/
def takeFromBuffer (recvBuffer : Buff) : Option (Buff × Buff) :=
  if recvBuffer.length < 2 then none
  else
    match readU16 recvBuffer with
    | none => none
    | some (contentLen, _) =>
        if recvBuffer.length < 2 + contentLen then none
        else some ((recvBuffer.drop 2).take contentLen, recvBuffer.drop (2 + contentLen))

theorem drop_two_add (hi lo : UInt8) (rest : Buff) (n : Nat) :
    (hi :: lo :: rest).drop (2 + n) = rest.drop n := by
  rw [Nat.add_comm]
  rfl

theorem takeFromBuffer_cons (hi lo : UInt8) (rest : Buff) :
    takeFromBuffer (hi :: lo :: rest) =
      if rest.length < hi.toNat * 256 + lo.toNat then none
      else some (rest.take (hi.toNat * 256 + lo.toNat), rest.drop (hi.toNat * 256 + lo.toNat)) := by
  unfold takeFromBuffer
  rw [if_neg (by simp)]
  simp only [readU16, drop_two_add, List.length_cons, List.drop_succ_cons, List.drop_zero]
  by_cases hlt : rest.length < hi.toNat * 256 + lo.toNat
  · rw [if_pos hlt, if_pos (by omega)]
  · rw [if_neg hlt, if_neg (by omega)]

theorem takeFromBuffer_short {l : Buff} (h : l.length < 2) : takeFromBuffer l = none := by
  unfold takeFromBuffer
  rw [if_pos h]

theorem takeFromBuffer_shorter {l c r : Buff} (h : takeFromBuffer l = some (c, r)) :
    r.length < l.length := by
  cases l with
  | nil => cases h
  | cons hi l =>
      cases l with
      | nil => cases h
      | cons lo rest =>
          rw [takeFromBuffer_cons] at h
          split_ifs at h with hlt
          obtain ⟨-, rfl⟩ := Prod.mk.inj (Option.some.inj h)
          simp only [List.length_drop, List.length_cons]
          omega

/-- The frames of a connection. -/
def frames : Framing.Format Buff UInt8 where
  write c := u16 c.length ++ c
  next l := (takeFromBuffer l).map fun x => (some x.1, x.2)
  next_shorter h := by
    obtain ⟨x, hx, heq⟩ := Option.map_eq_some_iff.mp h
    obtain ⟨-, rfl⟩ := Prod.mk.inj heq
    exact takeFromBuffer_shorter hx

theorem frames_next_none {l : Buff} : frames.next l = none ↔ takeFromBuffer l = none :=
  Option.map_eq_none_iff

theorem takeFromBuffer_frame {c : Buff} (h : c.length ≤ 65535) (r : Buff) :
    takeFromBuffer (u16 c.length ++ c ++ r) = some (c, r) := by
  simp only [u16, List.cons_append, List.nil_append]
  rw [takeFromBuffer_cons, u16_back (by omega), if_neg (by simp)]
  simp

/-- A frame is taken when it is complete. -/
theorem frames_readable {c : Buff} (h : c.length ≤ 65535) : frames.Readable c where
  back r := by
    have hback := takeFromBuffer_frame h r
    simp only [frames, hback, Option.map_some]
  waits l hl hne := by
    refine frames_next_none.mpr ?_
    obtain ⟨r, hr⟩ := hl
    have hpos : r ≠ [] := by
      rintro rfl
      exact hne (by simpa using hr)
    have hlen := congrArg List.length hr
    have hlt := List.length_pos_of_ne_nil hpos
    simp only [frames, List.length_append, u16_length] at hlen
    by_cases hshort : l.length < 2
    · exact takeFromBuffer_short hshort
    · cases l with
      | nil => simp at hshort
      | cons hi l =>
          cases l with
          | nil => simp at hshort
          | cons lo rest =>
              simp only [frames, u16, List.cons_append, List.nil_append, List.cons.injEq] at hr
              obtain ⟨rfl, rfl, -⟩ := hr
              rw [takeFromBuffer_cons, u16_back (by omega), if_pos]
              simp only [List.length_cons] at hlen
              omega

/-! ## The array of the client -/

/-- {lit}`Array.Copy`, which raises when a range leaves its array. -/
def arrayCopy (src : Buff) (i : Nat) (dst : Buff) (j n : Nat) : Option Buff :=
  if i + n ≤ src.length ∧ j + n ≤ dst.length then
    some (dst.take j ++ ((src.drop i).take n ++ dst.drop (j + n)))
  else none

/-- {lit}`_accumBuf` and {lit}`_accumLen`. -/
structure Accum where
  buf : Buff
  len : Nat

namespace Accum

/-- What has been received and not used. -/
def data (a : Accum) : Buff :=
  a.buf.take a.len

/-- The array is long enough. -/
def Fits (a : Accum) : Prop :=
  a.len ≤ a.buf.length

/-- {lit}`RecvLoop`: append what was read, in a longer array if necessary. -/
def append (a : Accum) (recvBuf : Buff) (readLen : Nat) : Option Accum := do
  let accumBuf ←
    (if a.len + readLen > a.buf.length then
      arrayCopy a.buf 0 (List.replicate ((a.len + readLen) * 2) 0) 0 a.len
    else some a.buf)
  let accumBuf ← arrayCopy recvBuf 0 accumBuf a.len readLen
  some ⟨accumBuf, a.len + readLen⟩

/-- {lit}`ProcessAccumBuffer`: copy the content of a frame and move the rest to the
front. -/
def cut (a : Accum) (contentLen : Nat) : Option (Buff × Accum) := do
  let content ← arrayCopy a.buf 2 (List.replicate contentLen 0) 0 contentLen
  let consumed := 2 + contentLen
  let len := a.len - consumed
  let buf ← (if len > 0 then arrayCopy a.buf consumed a.buf 0 len else some a.buf)
  some (content, ⟨buf, len⟩)

/-- The first half of a turn of {lit}`ProcessAccumBuffer`: the content of a frame and the
array after it; {lit}`none` inside when the loop ends. -/
def takeFrame (a : Accum) : Option (Option (Buff × Accum)) :=
  if a.len < 2 then some none
  else
    match a.buf[0]?, a.buf[1]? with
    | some hi, some lo =>
        let contentLen := hi.toNat <<< 8 ||| lo.toNat
        if a.len < 2 + contentLen then some none
        else (a.cut contentLen).map some
    | _, _ => none

/-- {lit}`ProcessAccumBuffer`, at most so many turns: the messages for the queue and the
array. -/
def processFrom (T : Text) : Nat → Accum → Option (List (String × Buff) × Accum)
  | 0, a => some ([], a)
  | n + 1, a => do
      match ← a.takeFrame with
      | none => some ([], a)
      | some (content, a) =>
          let (msgs, a) ← processFrom T n a
          match parseContent content with
          | none => some (msgs, a)
          | some m => some ((T.getString m.cmd, m.body) :: msgs, a)

/-- {lit}`ProcessAccumBuffer`: every turn takes at least two bytes. -/
def process (T : Text) (a : Accum) : Option (List (String × Buff) × Accum) :=
  a.processFrom T a.len

end Accum

/-- {lit}`_stream.Read`: what arrives overwrites the beginning of {lit}`_recvBuf`. -/
def readInto (recvBuf chunk : Buff) : Buff :=
  chunk ++ recvBuf.drop chunk.length

/-- {lit}`RecvLoop` over what its calls of {lit}`Read` return.  An empty read ends it. -/
def recvLoop (T : Text) : List Buff → Buff → Accum → Option (List (String × Buff) × Accum)
  | [], _, a => some ([], a)
  | [] :: _, _, a => some ([], a)
  | chunk :: chunks, recvBuf, a => do
      let recvBuf := readInto recvBuf chunk
      let a ← a.append recvBuf chunk.length
      let (msgs, a) ← a.process T
      let (more, a) ← recvLoop T chunks recvBuf a
      some (msgs ++ more, a)

/-! ## The array holds the string -/

theorem arrayCopy_length {src dst d : Buff} {i j n : Nat}
    (h : arrayCopy src i dst j n = some d) : d.length = dst.length := by
  unfold arrayCopy at h
  split_ifs at h with hin
  obtain rfl := Option.some.inj h
  simp only [List.length_append, List.length_take, List.length_drop]
  omega

/-- A copy to the front of an array. -/
theorem arrayCopy_front (src : Buff) (i : Nat) (dst : Buff) (n : Nat) (hsrc : i + n ≤ src.length)
    (hdst : n ≤ dst.length) :
    ∃ d, arrayCopy src i dst 0 n = some d ∧ d.take n = (src.drop i).take n ∧
      d.length = dst.length := by
  have hcopy : arrayCopy src i dst 0 n =
      some ((src.drop i).take n ++ dst.drop (0 + n)) := by
    unfold arrayCopy
    rw [if_pos (by omega)]
    rfl
  refine ⟨_, hcopy, ?_, arrayCopy_length hcopy⟩
  rw [List.take_append_of_le_length (by simp only [List.length_take, List.length_drop]; omega),
    List.take_take, Nat.min_self]

/-- What was read stands behind what was there. -/
theorem append_spec {a : Accum} (ha : a.Fits) (recvBuf chunk : Buff) :
    ∃ a', a.append (readInto recvBuf chunk) chunk.length = some a' ∧
      a'.data = a.data ++ chunk ∧ a'.Fits := by
  obtain ⟨buf, hbuf, htake, hroom⟩ : ∃ buf,
      (if a.len + chunk.length > a.buf.length then
        arrayCopy a.buf 0 (List.replicate ((a.len + chunk.length) * 2) 0) 0 a.len
      else some a.buf) = some buf ∧ buf.take a.len = a.data ∧
        a.len + chunk.length ≤ buf.length := by
    by_cases hgrow : a.len + chunk.length > a.buf.length
    · obtain ⟨d, hd, htake, hlen⟩ := arrayCopy_front a.buf 0
        (List.replicate ((a.len + chunk.length) * 2) 0) a.len
        (by unfold Accum.Fits at ha; omega) (by rw [List.length_replicate]; omega)
      refine ⟨d, by rw [if_pos hgrow, hd], htake, ?_⟩
      rw [hlen, List.length_replicate]
      omega
    · exact ⟨a.buf, by rw [if_neg hgrow], rfl, by omega⟩
  have hcopy : arrayCopy (readInto recvBuf chunk) 0 buf a.len chunk.length =
      some (a.data ++ (chunk ++ buf.drop (a.len + chunk.length))) := by
    unfold arrayCopy
    rw [if_pos ⟨by simp [readInto], hroom⟩, htake]
    simp [readInto]
  refine ⟨⟨a.data ++ (chunk ++ buf.drop (a.len + chunk.length)), a.len + chunk.length⟩,
    ?_, ?_, ?_⟩
  · simp only [Accum.append, hbuf, hcopy, Option.bind_eq_bind, Option.bind_some]
  · have hlen : a.data.length = a.len := List.length_take_of_le ha
    have hwhole : (a.data ++ chunk).length = a.len + chunk.length := by
      rw [List.length_append, hlen]
    simp only [Accum.data] at hwhole ⊢
    rw [← List.append_assoc, ← hwhole, List.take_left]
  · have := arrayCopy_length hcopy
    simp only [Accum.Fits]
    omega

/-- The frame is cut off the front of the array. -/
theorem cut_spec {a : Accum} (ha : a.Fits) {k : Nat} (hk : 2 + k ≤ a.len) :
    ∃ a', a.cut k = some ((a.data.drop 2).take k, a') ∧ a'.data = a.data.drop (2 + k) ∧
      a'.Fits := by
  unfold Accum.Fits at ha
  obtain ⟨c, hc, htake, hclen⟩ := arrayCopy_front a.buf 2
    (List.replicate k 0) k (by omega) (by simp)
  have hcontent : c = (a.data.drop 2).take k := by
    rw [List.length_replicate] at hclen
    rw [← hclen, List.take_length, hclen] at htake
    rw [htake, Accum.data, List.drop_take, List.take_take, Nat.min_eq_left (by omega)]
  by_cases hleft : a.len - (2 + k) > 0
  · obtain ⟨d, hd, hdtake, hdlen⟩ := arrayCopy_front a.buf (2 + k)
      a.buf (a.len - (2 + k)) (by omega) (by omega)
    refine ⟨⟨d, a.len - (2 + k)⟩, ?_, ?_, ?_⟩
    · simp only [Accum.cut, hc, Option.bind_eq_bind, Option.bind_some, if_pos hleft, hd, hcontent]
    · rw [Accum.data, hdtake, Accum.data, List.drop_take]
    · simp only [Accum.Fits]
      omega
  · refine ⟨⟨a.buf, a.len - (2 + k)⟩, ?_, ?_, ?_⟩
    · simp only [Accum.cut, hc, Option.bind_eq_bind, Option.bind_some, if_neg hleft, hcontent]
    · have hzero : a.len - (2 + k) = 0 := by omega
      rw [Accum.data, hzero, List.take_zero, eq_comm, List.drop_eq_nil_iff, Accum.data,
        List.length_take]
      omega
    · simp only [Accum.Fits]
      omega

/-- One turn takes the frame that {lit}`take_from_buffer` takes, and raises nothing. -/
theorem takeFrame_spec {a : Accum} (ha : a.Fits) :
    match takeFromBuffer a.data with
    | none => a.takeFrame = some none
    | some (c, r) => ∃ a', a.takeFrame = some (some (c, a')) ∧ a'.data = r ∧ a'.Fits := by
  have hlen : a.data.length = a.len := List.length_take_of_le ha
  by_cases hshort : a.len < 2
  · rw [takeFromBuffer_short (by omega)]
    simp only [Accum.takeFrame, if_pos hshort]
  · obtain ⟨hi, lo, rest, hdata⟩ : ∃ hi lo rest, a.data = hi :: lo :: rest := by
      cases hb : a.data with
      | nil => simp only [hb, List.length_nil] at hlen; omega
      | cons hi l =>
          cases l with
          | nil => simp only [hb, List.length_cons, List.length_nil] at hlen; omega
          | cons lo rest => exact ⟨hi, lo, rest, rfl⟩
    have hbytes : a.buf[0]? = some hi ∧ a.buf[1]? = some lo := by
      have h0 := congrArg (·[0]?) hdata
      have h1 := congrArg (·[1]?) hdata
      simp only [Accum.data, List.getElem?_take, List.getElem?_cons_zero,
        List.getElem?_cons_succ] at h0 h1
      rw [if_pos (by omega)] at h0 h1
      exact ⟨h0, h1⟩
    have hlow : lo.toNat < 2 ^ 8 := lo.toNat_lt
    have hor : hi.toNat <<< 8 ||| lo.toNat = hi.toNat * 256 + lo.toNat := by
      rw [← Nat.shiftLeft_add_eq_or_of_lt hlow, Nat.shiftLeft_eq]
    have hturn : a.takeFrame = if a.len < 2 + (hi.toNat * 256 + lo.toNat) then some none
        else (a.cut (hi.toNat * 256 + lo.toNat)).map some := by
      unfold Accum.takeFrame
      rw [if_neg hshort]
      simp only [hbytes.1, hbytes.2, hor]
    have hrest : rest.length + 2 = a.len := by
      rw [← hlen, hdata]
      rfl
    rw [hdata, takeFromBuffer_cons]
    by_cases hwait : rest.length < hi.toNat * 256 + lo.toNat
    · rw [if_pos hwait]
      dsimp only
      rw [hturn, if_pos (by omega)]
    · rw [if_neg hwait]
      dsimp only
      obtain ⟨a', hcut, hdata', ha'⟩ :=
        cut_spec ha (k := hi.toNat * 256 + lo.toNat) (by omega)
      rw [hdata, drop_two_add] at hdata'
      rw [hdata] at hcut
      refine ⟨a', ?_, hdata', ha'⟩
      rw [hturn, if_neg (by omega), hcut]
      rfl

/-- The message of a content, if it is well formed. -/
def wellFormed (T : Text) (content : Buff) : Option (String × Buff) :=
  (parseContent content).map fun m => (T.getString m.cmd, m.body)

/-- The loop queues the messages of the frames that {lit}`take_from_buffer` takes. -/
theorem processFrom_spec (T : Text) (n : Nat) {a : Accum} (ha : a.Fits) :
    ∃ a', a.processFrom T n =
        some ((frames.drainFrom n a.data).1.filterMap (wellFormed T), a') ∧
      a'.data = (frames.drainFrom n a.data).2 ∧ a'.Fits := by
  induction n generalizing a with
  | zero => exact ⟨a, rfl, rfl, ha⟩
  | succ n ih =>
      have hturn := takeFrame_spec ha
      cases htake : takeFromBuffer a.data with
      | none =>
          rw [htake] at hturn
          rw [frames.drainFrom_of_none (frames_next_none.mpr htake)]
          refine ⟨a, ?_, rfl, ha⟩
          simp only [Accum.processFrom, hturn, Option.bind_eq_bind, Option.bind_some,
            List.filterMap_nil]
      | some x =>
          obtain ⟨c, r⟩ := x
          rw [htake] at hturn
          obtain ⟨a₁, hframe, hdata, ha₁⟩ := hturn
          obtain ⟨a', hrest, hdata', ha'⟩ := ih ha₁
          have hnext : frames.next a.data = some (some c, r) := by
            simp only [frames, htake, Option.map_some]
          rw [hdata] at hrest hdata'
          rw [Framing.Format.drainFrom, hnext]
          refine ⟨a', ?_, hdata', ha'⟩
          simp only [Accum.processFrom, hframe, hrest, Option.bind_eq_bind, Option.bind_some,
            Option.toList_some, List.singleton_append, List.filterMap_cons, wellFormed]
          cases parseContent c <;> rfl

theorem process_spec (T : Text) {a : Accum} (ha : a.Fits) :
    ∃ a', a.process T = some ((frames.drain a.data).1.filterMap (wellFormed T), a') ∧
      a'.data = (frames.drain a.data).2 ∧ a'.Fits := by
  have hlen : a.data.length = a.len := List.length_take_of_le ha
  have h := processFrom_spec T a.len ha
  rw [← hlen] at h
  rw [Accum.process, ← hlen]
  exact h

/-- The client takes the frames of the test client and queues those that are well
formed. -/
theorem recvLoop_eq (T : Text) {chunks : List Buff} (hne : ∀ c ∈ chunks, c ≠ [])
    (recvBuf : Buff) {a : Accum} (ha : a.Fits) :
    ∃ a', recvLoop T chunks recvBuf a =
        some ((frames.receive chunks a.data).1.filterMap (wellFormed T), a') ∧
      a'.data = (frames.receive chunks a.data).2 ∧ a'.Fits := by
  induction chunks generalizing recvBuf a with
  | nil => exact ⟨a, rfl, rfl, ha⟩
  | cons chunk chunks ih =>
      have hchunk : chunk ≠ [] := hne chunk List.mem_cons_self
      obtain ⟨a₁, happend, hdata₁, ha₁⟩ := append_spec ha recvBuf chunk
      obtain ⟨a₂, hprocess, hdata₂, ha₂⟩ := process_spec T ha₁
      obtain ⟨a', hrest, hdata', ha'⟩ :=
        ih (fun c hc => hne c (List.mem_cons_of_mem _ hc)) (readInto recvBuf chunk) ha₂
      rw [hdata₁] at hprocess hdata₂
      rw [hdata₂] at hrest hdata'
      refine ⟨a', ?_, hdata', ha'⟩
      obtain ⟨b, chunk, rfl⟩ := List.exists_cons_of_ne_nil hchunk
      rw [recvLoop, happend]
      simp only [Option.bind_eq_bind, Option.bind_some, hprocess, hrest,
        Framing.Format.receive, List.filterMap_append]
      intro h
      cases h

/-- A new connection. -/
def Accum.start : Accum where
  buf := List.replicate 131072 0
  len := 0

/-- {lit}`take_from_buffer` after each piece until it returns {lit}`nil`: what it has
returned and {lit}`recv_buffer`. -/
def recvPackages (chunks : List Buff) : List Buff × Buff :=
  frames.receive chunks []

/-- However a stream of frames is cut, both clients take the frames that have arrived
completely, in order; the client leaves out what is malformed.  What they keep is the part
of the stream that they have not used, and no complete frame is in it. -/
theorem frames_survive_chunks (T : Text) (contents : List Buff)
    (hfits : ∀ c ∈ contents, c.length ≤ 65535) (arrived coming : List Buff)
    (hne : ∀ c ∈ arrived, c ≠ [])
    (hcut : (arrived ++ coming).flatten = frames.writes contents) (recvBuf : Buff) :
    ∃ taken rest a, contents = taken ++ rest ∧
      recvPackages arrived = (taken, a.data) ∧
      recvLoop T arrived recvBuf .start = some (taken.filterMap (wellFormed T), a) ∧
      a.data ++ coming.flatten = frames.writes rest ∧
      takeFromBuffer a.data = none ∧
      (coming = [] → taken = contents ∧ a.data = []) := by
  have hstart : Accum.start.Fits := Nat.zero_le _
  have hdata : Accum.start.data = [] := rfl
  have hread : ∀ c ∈ contents, frames.Readable c := fun c hc => frames_readable (hfits c hc)
  obtain ⟨a, hloop, ha, -⟩ := recvLoop_eq T hne recvBuf hstart
  rw [hdata] at hloop ha
  have hstream : [] ++ (arrived.flatten ++ coming.flatten) = frames.writes contents := by
    rw [← hcut, List.flatten_append, List.nil_append]
  obtain ⟨rest, hrest, hleft⟩ := frames.receive_writes hread hstream
  have hnext : frames.next a.data = none := ha ▸ frames.next_receive (frames.next_nil)
  refine ⟨_, rest, a, hrest, by rw [recvPackages, ha], hloop, by rw [ha]; exact hleft,
    frames_next_none.mp hnext, ?_⟩
  rintro rfl
  rw [List.flatten_nil, List.append_nil, ← ha] at hleft
  have hempty : rest = [] := by
    refine frames.writes_eq_nil (fun c hc => hread c ?_) (hleft ▸ hnext)
    rw [hrest]
    exact List.mem_append_right _ hc
  rw [hempty, List.append_nil] at hrest
  exact ⟨hrest.symm, by rw [hleft, hempty]; rfl⟩

/-- A malformed frame between two others, cut inside a length. -/
theorem frames_survive_three :
    ∃ a, recvLoop ⟨fun _ => "\uFFFD"⟩ [[0], [4, 0, 1, 97, 7, 0, 1, 9, 0], [3, 0, 1, 98]]
        (List.replicate 65536 0) .start = some ([[0, 1, 97, 7], [9], [0, 1, 98]].filterMap
          (wellFormed ⟨fun _ => "\uFFFD"⟩), a) ∧ a.data = [] := by
  obtain ⟨taken, rest, a, -, -, hloop, -, -, hall⟩ :=
    frames_survive_chunks ⟨fun _ => "\uFFFD"⟩ [[0, 1, 97, 7], [9], [0, 1, 98]] (by decide)
      [[0], [4, 0, 1, 97, 7, 0, 1, 9, 0], [3, 0, 1, 98]] [] (by decide) (by decide)
      (List.replicate 65536 0)
  obtain ⟨rfl, hdata⟩ := hall rfl
  exact ⟨a, hloop, hdata⟩

end BallServer.Lobby
