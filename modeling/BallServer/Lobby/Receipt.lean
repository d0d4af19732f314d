import BallServer.Lobby.Attempts

/-!
# Messages across reconnects

The client counts what it dispatches and names the count when it reconnects; the gateway
sends again what has a higher number.  The counts agree as long as nothing is left in the
client's queue when it asks.  The first attempt to reconnect is made from the loop of
{lit}`Update` that comes before the messages are taken, so what was received with the loss
of the connection is left there.

Main results:

- Theorem {lit}`received_once`: what the handlers have got is a beginning of what was sent.
- Theorem {lit}`received_twice`: a message that waits in the queue is dispatched twice.
-/

namespace BallServer.Lobby

open BallServer.Gate (Buff ABuff GatePlayer)

/-! ## What a message counts for -/

@[simp]
theorem Session.counted_append (ms ns : List Msg) :
    counted (ms ++ ns) = counted ms ++ counted ns :=
  List.filter_append ..

theorem Session.counted_of_mem {m : Msg} (h : m.cmd ∈ uncounted) : counted [m] = [] := by
  simp [counted, h]

theorem Session.counted_of_notMem {m : Msg} (h : m.cmd ∉ uncounted) : counted [m] = [m] := by
  simp [counted, h]

theorem Session.counted_eq_self {ms : List Msg} (h : ∀ m ∈ ms, m.cmd ∉ uncounted) :
    counted ms = ms := by
  simpa [counted] using h

/-- A successful answer to {lit}`login_second`. -/
def IsReply (B : Bodies) (m : Msg) : Prop :=
  m.cmd = name "login_second" ∧ B.loginSecond m.body ≠ none

instance (B : Bodies) (m : Msg) : Decidable (IsReply B m) :=
  inferInstanceAs (Decidable (_ ∧ _))

theorem IsReply.uncounted {B : Bodies} {m : Msg} (h : IsReply B m) : m.cmd ∈ uncounted := by
  rw [h.1]
  simp [Lobby.uncounted]

/-- No counted message comes before the login reply. -/
def Opens (B : Bodies) : List Msg → Prop
  | [] => True
  | m :: ms => IsReply B m ∨ m.cmd ∈ uncounted ∧ Opens B ms

theorem Opens.append {B : Bodies} {ms ns : List Msg} (hm : Opens B ms) (hn : Opens B ns) :
    Opens B (ms ++ ns) := by
  induction ms with
  | nil => exact hn
  | cons m ms ih => exact hm.imp id fun h => ⟨h.1, ih h.2⟩

theorem Opens.append_of_reply {B : Bodies} {ms ns : List Msg} (hm : Opens B ms)
    (hr : ∃ m ∈ ms, IsReply B m) : Opens B (ms ++ ns) := by
  induction ms with
  | nil => simp at hr
  | cons m ms ih =>
      rcases hm with hm | ⟨hu, hm⟩
      · exact .inl hm
      · obtain ⟨r, hr, hreply⟩ := hr
        rcases List.mem_cons.mp hr with rfl | hr
        · exact .inl hreply
        · exact .inr ⟨hu, ih hm ⟨r, hr, hreply⟩⟩

theorem Opens.left {B : Bodies} {ms ns : List Msg} (h : Opens B (ms ++ ns)) : Opens B ms := by
  induction ms with
  | nil => trivial
  | cons m ms ih => exact h.imp id fun h => ⟨h.1, ih h.2⟩

/-- How many successful answers there are. -/
def replies (B : Bodies) (ms : List Msg) : Nat :=
  ms.countP (IsReply B ·)

@[simp]
theorem replies_append (B : Bodies) (ms ns : List Msg) :
    replies B (ms ++ ns) = replies B ms + replies B ns :=
  List.countP_append ..

theorem replies_of_not {B : Bodies} {ms : List Msg} (h : ∀ m ∈ ms, ¬ IsReply B m) :
    replies B ms = 0 := by
  simpa [replies, List.countP_eq_zero] using h

/-! ## The agreement of the counts -/

namespace Session

variable {B : Bodies}

/-- The client takes what arrives on its connection. -/
def Listens (l : Session) : Prop :=
  l.client.reading = true ∧ l.client.isConnected = true

/-- The messages the client still gets on its connection are {lit}`rest`. -/
structure Delivers (B : Bodies) (l : Session) (rest : List Msg) : Prop where
  cache : l.player.msgcache = Gate.number 0 (l.sent.map Msg.packet)
  seq : l.player.sendSeq = l.sent.length
  fits : ∀ m ∈ l.sent, m.Fits
  counts : ∀ m ∈ l.sent, m.cmd ∉ uncounted
  rest_fits : ∀ m ∈ rest, m.Fits
  stream : l.Listens → l.client.accumBuf ++ l.wire l.client.connectionEpoch = packets.writes rest
  gone : ¬ l.Listens → rest = []
  received : l.received ++ counted (l.client.msgQueue ++ rest) <+: l.sent
  live : l.Listens → l.player.conn = some l.client.connectionEpoch →
    l.received ++ counted (l.client.msgQueue ++ rest) = l.sent
  replies : replies B (l.client.msgQueue ++ rest) + l.begun.toNat ≤ l.replied.toNat
  login : l.client.isLoggedIn = true → l.begun = true ∧ l.client.lastAck = l.received.length
  routed : l.client.Routed
  opens : l.begun = false → l.received = [] ∧ Opens B (l.client.msgQueue ++ rest) ∧
    l.client.connectionEpoch = 0 ∧ ∀ n, l.requests n = none
  waits : l.begun = false → l.replied = true → l.Listens → l.player.conn = some 0 →
    ∃ m ∈ l.client.msgQueue ++ rest, IsReply B m
  silent : l.replied = false → l.sent = []
  request : ∀ k, l.Listens → l.requests l.client.connectionEpoch = some k →
    counted (l.client.msgQueue ++ rest) = [] ∧ k = l.received.length ∧
      l.player.conn ≠ some l.client.connectionEpoch
  fresh : ∀ n, l.client.connectionEpoch < n →
    l.wire n = [] ∧ l.requests n = none ∧ l.player.conn ≠ some n

/-- The cache does not overflow, nothing is sent before the login reply or cannot be packed,
and no counted message waits in the queue when the client asks. -/
def Orderly (l : Session) : Event → Prop
  | .send m => l.player.msgcache.length < 500 ∧ m.Fits ∧ m.cmd ∉ uncounted ∧ l.replied = true
  | e => l.client.Asks e → counted l.client.msgQueue = []

section Steps

variable {l : Session} {rest : List Msg}

/-- Writing to the client's connection or an older one does not touch the next ones. -/
theorem Delivers.fresh_write (h : l.Delivers B rest) {n k : Nat} (bytes : Buff)
    (hn : n ≤ l.client.connectionEpoch) (hk : l.client.connectionEpoch < k) :
    (l.write n bytes).wire k = [] := by
  have hne : k ≠ n := by omega
  simpa [write, hne] using (h.fresh k hk).1

/-- Messages written to the client's connection come after those still to be read. -/
theorem Delivers.stream_write (h : l.Delivers B rest) (hl : l.Listens) (ms : List Msg) :
    l.client.accumBuf ++ (l.wire l.client.connectionEpoch ++ packets.writes ms) =
      packets.writes (rest ++ ms) := by
  rw [← List.append_assoc, h.stream hl]
  simp [Framing.Format.writes]

/-- Messages that are no login reply leave the count of replies alone. -/
theorem Delivers.replies_add (h : l.Delivers B rest) {ms : List Msg}
    (hms : ∀ m ∈ ms, ¬ IsReply B m) :
    Lobby.replies B (l.client.msgQueue ++ (rest ++ ms)) + l.begun.toNat ≤ l.replied.toNat := by
  rw [← List.append_assoc, replies_append, replies_of_not hms]
  exact h.replies

/-- A login reply that is on its way stays so. -/
theorem Delivers.waits_add (h : l.Delivers B rest) (hb : l.begun = false)
    (hr : l.replied = true) (hl : l.Listens) (hp : l.player.conn = some 0) (ms : List Msg) :
    ∃ m ∈ l.client.msgQueue ++ (rest ++ ms), IsReply B m := by
  obtain ⟨x, hx, hreply⟩ := h.waits hb hr hl hp
  refine ⟨x, ?_, hreply⟩
  rw [← List.append_assoc]
  exact List.mem_append_left _ hx

/-- Bytes written to a connection the client does not read. -/
theorem Delivers.write_other (h : l.Delivers B rest) {n : Nat} (bytes : Buff)
    (hn : n < l.client.connectionEpoch ∨ n = l.client.connectionEpoch ∧ ¬ l.Listens) :
    (l.write n bytes).Delivers B rest := by
  have hle : n ≤ l.client.connectionEpoch := by omega
  refine { h with
    stream := fun hl => ?_
    fresh := fun k hk => ⟨h.fresh_write bytes hle hk, (h.fresh k hk).2⟩ }
  have hne : l.client.connectionEpoch ≠ n := by
    rcases hn with hn | ⟨-, hn⟩
    · omega
    · exact absurd hl hn
  simpa [write, hne] using h.stream hl

/-- An uncounted message written to the client's connection. -/
theorem Delivers.write_uncounted (h : l.Delivers B rest) (hl : l.Listens) {m : Msg}
    (hfits : m.Fits) (hu : m.cmd ∈ uncounted) (hm : ¬ IsReply B m) :
    (l.write l.client.connectionEpoch m.packet).Delivers B (rest ++ [m]) := by
  have hc : counted (l.client.msgQueue ++ (rest ++ [m])) = counted (l.client.msgQueue ++ rest) := by
    rw [← List.append_assoc, counted_append, counted_of_mem hu, List.append_nil]
  refine { h with
    rest_fits := fun x hx => ?_
    stream := fun _ => ?_
    gone := fun hn => absurd hl hn
    received := hc ▸ h.received
    live := fun hl hp => hc ▸ h.live hl hp
    replies := h.replies_add (by simpa using hm)
    opens := fun hb => ?_
    waits := fun hb hr hl hp => h.waits_add hb hr hl hp [m]
    request := fun k hl hk => hc ▸ h.request k hl hk
    fresh := fun k hk => ⟨h.fresh_write _ le_rfl hk, (h.fresh k hk).2⟩ }
  · rcases List.mem_append.mp hx with hx | hx
    · exact h.rest_fits x hx
    · exact List.mem_singleton.mp hx ▸ hfits
  · simpa [write] using h.stream_write hl [m]
  · obtain ⟨hr, ho, hrest⟩ := h.opens hb
    refine ⟨hr, ?_, hrest⟩
    rw [← List.append_assoc]
    exact ho.append (.inr ⟨hu, trivial⟩)

/-- An uncounted message written to any connection. -/
theorem Delivers.sendByFd (h : l.Delivers B rest) {n : Nat} {m : Msg}
    (hn : n ≤ l.client.connectionEpoch) (hfits : m.Fits) (hu : m.cmd ∈ uncounted)
    (hm : ¬ IsReply B m) : ∃ rest', (l.write n m.packet).Delivers B rest' := by
  by_cases hl : n = l.client.connectionEpoch ∧ l.Listens
  · obtain ⟨rfl, hl⟩ := hl
    exact ⟨_, h.write_uncounted hl hfits hu hm⟩
  · exact ⟨rest, h.write_other _ (by
      rcases hn.lt_or_eq with hn | hn
      · exact .inl hn
      · exact .inr ⟨hn, fun hl' => hl ⟨hn, hl'⟩⟩)⟩

/-- {lit}`send` numbers the message after the last one. -/
theorem Delivers.kept (h : l.Delivers B rest) (m : Msg) (hroom : l.player.msgcache.length < 500) :
    (keep l.player m.packet).msgcache = Gate.number 0 ((l.sent ++ [m]).map Msg.packet) ∧
      (keep l.player m.packet).sendSeq = (l.sent ++ [m]).length := by
  have hshort : ¬ 500 < (l.player.msgcache ++ [(⟨l.player.sendSeq + 1, m.packet⟩ : ABuff)]).length := by
    simp only [List.length_append, List.length_singleton]
    omega
  refine ⟨?_, by simp [keep, h.seq]⟩
  simp only [keep, hshort, and_false, if_false]
  rw [List.map_append, List.map_singleton, Gate.number_concat, h.cache, h.seq, List.length_map]
  simp

theorem Delivers.send (h : l.Delivers B rest) {m : Msg} (ho : l.Orderly (.send m)) :
    ∃ rest', (l.send m).Delivers B rest' := by
  obtain ⟨hroom, hfits, hcounts, hreplied⟩ := ho
  obtain ⟨hcache, hseq⟩ := h.kept m hroom
  have hm : ¬ IsReply B m := fun hr => hcounts hr.uncounted
  have hsentFits : ∀ x ∈ l.sent ++ [m], x.Fits := by
    simpa [or_imp, forall_and] using ⟨h.fits, hfits⟩
  have hsentCounts : ∀ x ∈ l.sent ++ [m], x.cmd ∉ uncounted := by
    simpa [or_imp, forall_and] using ⟨h.counts, hcounts⟩
  have hconn : (keep l.player m.packet).conn = l.player.conn := rfl
  -- the message is kept but does not reach the client on this connection
  have haside : ¬ (l.Listens ∧ l.player.conn = some l.client.connectionEpoch) →
      ({ l with player := keep l.player m.packet, sent := l.sent ++ [m] } : Session).Delivers B
        rest := fun hno =>
    { h with
      cache := hcache
      seq := hseq
      fits := hsentFits
      counts := hsentCounts
      received := h.received.trans (List.prefix_append _ _)
      live := fun hl hp => absurd ⟨hl, hconn ▸ hp⟩ hno
      silent := fun hr => absurd (hreplied.symm.trans hr) nofun }
  have hpack : protoPack m = some m.packet := if_pos hfits
  simp only [Session.send, hpack]
  cases hp : l.player.conn with
  | none => exact ⟨rest, haside (by simp [hp])⟩
  | some n =>
      have hn : n ≤ l.client.connectionEpoch := by
        by_contra hlt
        exact (h.fresh n (not_le.mp hlt)).2.2 hp
      by_cases hl : n = l.client.connectionEpoch ∧ l.Listens
      · obtain ⟨rfl, hl⟩ := hl
        have hlive := h.live hl hp
        have hall : l.received ++ counted (l.client.msgQueue ++ (rest ++ [m])) = l.sent ++ [m] := by
          rw [← List.append_assoc, counted_append, counted_of_notMem hcounts, ← List.append_assoc,
            hlive]
        refine ⟨rest ++ [m], { h with
          cache := hcache
          seq := hseq
          fits := hsentFits
          counts := hsentCounts
          rest_fits := ?_
          stream := fun _ => ?_
          gone := fun hn => absurd hl hn
          received := hall ▸ List.prefix_refl _
          live := fun _ _ => hall
          replies := h.replies_add (by simpa using hm)
          opens := fun hb => ?_
          waits := fun hb hr hl hp => h.waits_add hb hr hl hp [m]
          silent := fun hr => absurd (hreplied.symm.trans hr) nofun
          request := fun k _ hk => absurd hp (h.request k hl hk).2.2
          fresh := fun k hk => ⟨h.fresh_write _ le_rfl hk, (h.fresh k hk).2⟩ }⟩
        · simpa [or_imp, forall_and] using ⟨h.rest_fits, hfits⟩
        · simpa [write] using h.stream_write hl [m]
        · obtain ⟨hr, ho, hzero, hnone⟩ := h.opens hb
          refine ⟨hr, ?_, hzero, hnone⟩
          rw [← List.append_assoc]
          exact ho.append_of_reply (h.waits hb hreplied hl (hzero ▸ hp))
      · have hno : ¬ (l.Listens ∧ l.player.conn = some l.client.connectionEpoch) := by
          rintro ⟨hl', hp'⟩
          exact hl ⟨Option.some.inj (hp.symm.trans hp'), hl'⟩
        refine ⟨rest, (haside hno).write_other _ ?_⟩
        rcases hn.lt_or_eq with hn | hn
        · exact .inl hn
        · exact .inr ⟨hn, fun hl' => hl ⟨hn, hl'⟩⟩

theorem Delivers.loginReply (h : l.Delivers B rest) {body : Buff} (hreplied : l.replied = false)
    (hreply : IsReply B ⟨name "login_second", body⟩)
    (hfits : Msg.Fits ⟨name "login_second", body⟩) :
    (∃ rest', (({ l with replied := true } : Session).write 0
      (Msg.packet ⟨name "login_second", body⟩)).Delivers B rest') ∧
      (l.player.conn ≠ some 0 → ({ l with replied := true } : Session).Delivers B rest) := by
  have hzero : Lobby.replies B (l.client.msgQueue ++ rest) = 0 ∧ l.begun = false := by
    have := h.replies
    rw [hreplied] at this
    cases hb : l.begun <;> simp_all
  obtain ⟨hnone, hbegun⟩ := hzero
  obtain ⟨hr, ho, hepoch, hreq⟩ := h.opens hbegun
  have hsent := h.silent hreplied
  have hone : Lobby.replies B [⟨name "login_second", body⟩] = 1 := by
    simp [Lobby.replies, hreply]
  have hopens : Opens B [⟨name "login_second", body⟩] := .inl hreply
  -- nobody reads the answer
  have hlost : ¬ (l.Listens ∧ l.player.conn = some 0) →
      ({ l with replied := true } : Session).Delivers B rest := fun hno =>
    { h with
      replies := by
        change Lobby.replies B (l.client.msgQueue ++ rest) + l.begun.toNat ≤ _
        rw [hnone, hbegun]
        exact Nat.zero_le _
      waits := fun _ _ hl hp => absurd ⟨hl, hp⟩ hno
      silent := fun hr => (by cases hr) }
  refine ⟨?_, fun hp => hlost fun hl => hp hl.2⟩
  by_cases hl : l.Listens
  · have hcount : counted (l.client.msgQueue ++ (rest ++ [⟨name "login_second", body⟩])) =
        counted (l.client.msgQueue ++ rest) := by
      rw [← List.append_assoc, counted_append, counted_of_mem hreply.uncounted, List.append_nil]
    refine ⟨rest ++ [⟨name "login_second", body⟩], { h with
      rest_fits := ?_
      stream := fun _ => ?_
      gone := fun hn => absurd hl hn
      received := hcount ▸ h.received
      live := fun hl hp => hcount ▸ h.live hl hp
      replies := ?_
      opens := fun hb => ⟨hr, ?_, hepoch, hreq⟩
      waits := fun _ _ _ _ => ⟨_, by simp, hreply⟩
      silent := fun hr => (by cases hr)
      request := fun k _ hk => absurd (hreq l.client.connectionEpoch) (by
        rw [show l.requests l.client.connectionEpoch = some k from hk]
        exact nofun)
      fresh := fun k hk => ⟨h.fresh_write _ (Nat.zero_le _) hk, (h.fresh k hk).2⟩ }⟩
    · simpa [or_imp, forall_and] using ⟨h.rest_fits, hfits⟩
    · simpa [write, hepoch] using h.stream_write hl [⟨name "login_second", body⟩]
    · change Lobby.replies B (l.client.msgQueue ++ (rest ++ _)) + l.begun.toNat ≤ 1
      rw [← List.append_assoc, replies_append, hnone, hone, hbegun]
      exact le_refl 1
    · rw [← List.append_assoc]
      exact ho.append hopens
  · exact ⟨rest, (hlost fun hno => hl hno.1).write_other _ (.inr ⟨hepoch.symm, hl⟩)⟩

theorem Delivers.gateDisconnect (h : l.Delivers B rest) :
    ({ l with player := { l.player with conn := none } } : Session).Delivers B rest :=
  { h with
    live := fun _ hp => (by cases hp)
    waits := fun _ _ _ hp => (by cases hp)
    request := fun k hl hk => ⟨(h.request k hl hk).1, (h.request k hl hk).2.1, nofun⟩
    fresh := fun k hk => ⟨(h.fresh k hk).1, (h.fresh k hk).2.1, nofun⟩ }

theorem number_cons (n : Nat) (b : Buff) (bs : List Buff) :
    Gate.number n (b :: bs) = ⟨n + 1, b⟩ :: Gate.number (n + 1) bs := by
  simp [Gate.number, List.mapIdx_cons, Nat.add_comm, Nat.add_left_comm]

theorem number_buff (n : Nat) (bs : List Buff) :
    (Gate.number n bs).flatMap ABuff.buff = bs.flatten := by
  induction bs generalizing n with
  | nil => rfl
  | cons b bs ih => rw [number_cons, List.flatMap_cons, ih, List.flatten_cons]

/-- The messages after an acknowledged one. -/
theorem number_filter (n j : Nat) (bs : List Buff) :
    (Gate.number n bs).filter (fun m => ((n + j : Nat) : Int) < m.sendSeq) =
      Gate.number (n + j) (bs.drop j) := by
  induction bs generalizing n j with
  | nil => simp [Gate.number]
  | cons b bs ih =>
      rw [number_cons]
      cases j with
      | zero =>
          rw [List.drop_zero, Nat.add_zero, ← number_cons]
          refine List.filter_eq_self.mpr fun m hm => ?_
          have hseq : m.sendSeq ∈ (Gate.number n (b :: bs)).map ABuff.sendSeq :=
            List.mem_map_of_mem hm
          rw [Gate.number_map_sendSeq] at hseq
          have := List.mem_range'_1.mp hseq
          simp only [decide_eq_true_eq]
          omega
      | succ j =>
          have hacked : ¬ ((n + (j + 1) : Nat) : Int) < (n + 1 : Nat) := by omega
          rw [List.filter_cons, if_neg (mt of_decide_eq_true hacked), List.drop_succ_cons]
          have := ih (n + 1) j
          rwa [show n + 1 + j = n + (j + 1) by omega] at this

/-- What is sent again is what was sent after the acknowledged message. -/
theorem Delivers.replayed (h : l.Delivers B rest) (k : Nat) :
    (replay l.player k).flatMap ABuff.buff = packets.writes (l.sent.drop k) := by
  have := number_filter 0 k (l.sent.map Msg.packet)
  rw [Nat.zero_add] at this
  rw [replay, h.cache, this, number_buff, ← List.map_drop, Framing.Format.writes,
    List.flatMap_def]
  rfl

theorem Delivers.gateReconnect (h : l.Delivers B rest) {n k : Nat} (known : Bool)
    (hk : l.requests n = some k) :
    ∃ rest', (l.gateReconnect B n known k).Delivers B rest' := by
  have hbegun : l.begun = true := by
    by_contra hb
    have := (h.opens (Bool.eq_false_iff.mpr hb)).2.2.2 n
    rw [hk] at this
    cases this
  have hn : n ≤ l.client.connectionEpoch := by
    by_contra hlt
    have := (h.fresh n (not_le.mp hlt)).2.1
    rw [hk] at this
    cases this
  have hasked : ∀ j, Function.update l.requests n none j ≠ none → j ≠ n ∧ l.requests j ≠ none := by
    intro j hj
    by_cases hjn : j = n
    · subst hjn
      simp at hj
    · exact ⟨hjn, by simpa [hjn] using hj⟩
  have hrequests : ({ l with requests := Function.update l.requests n none } :
      Session).Delivers B rest :=
    { h with
      opens := fun hb => absurd hbegun (by rw [show l.begun = false from hb]; decide)
      request := fun j hl hj => h.request j hl (by
        have := (hasked _ (by rw [show Function.update l.requests n none _ = some j from hj]; exact nofun)).1
        simpa [this] using hj)
      fresh := fun j hj => ⟨(h.fresh j hj).1, by
        by_cases hjn : j = n
        · simp [hjn]
        · simpa [hjn] using (h.fresh j hj).2.1, (h.fresh j hj).2.2⟩ }
  have hrc : ∀ code, Msg.cmd ⟨name "reconnect", B.reconnectRes code⟩ ∈ uncounted ∧
      ¬ IsReply B ⟨name "reconnect", B.reconnectRes code⟩ :=
    fun code => ⟨by simp [uncounted], fun hr =>
      (by decide : name "reconnect" ≠ name "login_second") hr.1⟩
  unfold Session.gateReconnect
  dsimp only
  split
  · rename_i hok
    by_cases hl : n = l.client.connectionEpoch ∧ l.Listens
    · obtain ⟨rfl, hl⟩ := hl
      obtain ⟨hempty, hack, hconn⟩ := h.request k hl hk
      have hsent : l.received ++ l.sent.drop k = l.sent := by
        have hpre := h.received
        rw [hempty, List.append_nil] at hpre
        obtain ⟨tail, htail⟩ := hpre
        rw [hack, ← htail, List.drop_left]
      have hdrop : ∀ m ∈ l.sent.drop k, m.Fits ∧ m.cmd ∉ uncounted := fun m hm =>
        ⟨h.fits m (List.mem_of_mem_drop hm), h.counts m (List.mem_of_mem_drop hm)⟩
      have hcount : counted (l.client.msgQueue ++
          (rest ++ ⟨name "reconnect", B.reconnectRes 0⟩ :: l.sent.drop k)) = l.sent.drop k := by
        rw [← List.append_assoc, counted_append, hempty, List.nil_append]
        rw [← List.singleton_append, counted_append, counted_of_mem (hrc 0).1, List.nil_append,
          counted_eq_self fun m hm => (hdrop m hm).2]
      refine ⟨rest ++ ⟨name "reconnect", B.reconnectRes 0⟩ :: l.sent.drop k, { hrequests with
        rest_fits := fun m hm => ?_
        stream := fun _ => ?_
        gone := fun hn => absurd hl hn
        received := ?_
        live := fun _ _ => ?_
        replies := h.replies_add fun m hm => ?_
        opens := fun hb => absurd hbegun (by rw [show l.begun = false from hb]; decide)
        waits := fun hb => absurd hbegun (by rw [show l.begun = false from hb]; decide)
        request := fun j _ hj => ?_
        fresh := fun j hj => ⟨hrequests.fresh_write _ le_rfl hj, (hrequests.fresh j hj).2.1, ?_⟩ }⟩
      · rcases List.mem_append.mp hm with hm | hm
        · exact h.rest_fits m hm
        · rcases List.mem_cons.mp hm with rfl | hm
          · exact B.reconnect_fits 0
          · exact (hdrop m hm).1
      · simpa [write, h.replayed] using h.stream_write hl (⟨name "reconnect", B.reconnectRes 0⟩ :: l.sent.drop k)
      · exact ⟨[], (List.append_nil _).trans ((congrArg (l.received ++ ·) hcount).trans hsent)⟩
      · exact (congrArg (l.received ++ ·) hcount).trans hsent
      · rcases List.mem_cons.mp hm with rfl | hm
        · exact (hrc 0).2
        · exact fun hr => (hdrop m hm).2 hr.uncounted
      · simp [write] at hj
      · intro hp
        have hj : l.client.connectionEpoch < j := hj
        obtain rfl := Option.some.inj hp
        exact lt_irrefl _ hj
    · have hcut : n < l.client.connectionEpoch ∨ n = l.client.connectionEpoch ∧ ¬ l.Listens := by
        rcases hn.lt_or_eq with hn | hn
        · exact .inl hn
        · exact .inr ⟨hn, fun hl' => hl ⟨hn, hl'⟩⟩
      have hbound : ({ l with
          requests := Function.update l.requests n none
          player := { l.player with conn := some n } } : Session).Delivers B rest :=
        { hrequests with
          live := fun hl' hp => absurd (Option.some.inj hp) fun he => hl ⟨he, hl'⟩
          waits := fun hb => absurd hbegun (by rw [show l.begun = false from hb]; decide)
          request := fun j hl' hj =>
            ⟨(hrequests.request j hl' hj).1, (hrequests.request j hl' hj).2.1, fun hp =>
              hl ⟨Option.some.inj hp, hl'⟩⟩
          fresh := fun j hj => ⟨(hrequests.fresh j hj).1, (hrequests.fresh j hj).2.1, fun hp => by
            have hj : l.client.connectionEpoch < j := hj
            have := Option.some.inj hp
            omega⟩ }
      exact ⟨rest, hbound.write_other _ hcut⟩
  · exact hrequests.sendByFd hn (B.reconnect_fits 1) (hrc 1).1 (hrc 1).2

/-- The receive thread moves messages from the connection to the queue. -/
theorem Delivers.receive (h : l.Delivers B rest) (hl : l.Listens) (count : Nat) :
    ∃ rest', ({ l with
      client := l.client.receive ((l.wire l.client.connectionEpoch).take count)
      wire := Function.update l.wire l.client.connectionEpoch
        ((l.wire l.client.connectionEpoch).drop count) } : Session).Delivers B rest' := by
  have hstream := h.stream hl
  rw [← List.take_append_drop count (l.wire l.client.connectionEpoch), ← List.append_assoc]
    at hstream
  obtain ⟨rest', hrest, hleft⟩ := packets.drain_writes
    (fun m hm => packets_readable (h.rest_fits m hm)) hstream
  have hqueue : (l.client.receive ((l.wire l.client.connectionEpoch).take count)).msgQueue ++
      rest' = l.client.msgQueue ++ rest := by
    rw [Client.receive, List.append_assoc]
    exact congrArg (l.client.msgQueue ++ ·) hrest.symm
  refine ⟨rest', { h with
    rest_fits := fun m hm => h.rest_fits m (hrest ▸ List.mem_append_right _ hm)
    stream := fun _ => ?_
    gone := fun hn => absurd hl hn
    received := hqueue ▸ h.received
    live := fun hl hp => hqueue ▸ h.live hl hp
    replies := hqueue ▸ h.replies
    opens := fun hb => hqueue ▸ h.opens hb
    waits := fun hb hr hl hp => hqueue ▸ h.waits hb hr hl hp
    request := fun k hl hk => hqueue ▸ h.request k hl hk
    fresh := fun k hk => ⟨?_, (h.fresh k hk).2⟩ }⟩
  · simpa [Client.receive] using hleft
  · have hk : l.client.connectionEpoch < k := hk
    have hne : k ≠ l.client.connectionEpoch := by omega
    simpa [hne] using (h.fresh k hk).1

/-- The client no longer reads its connection; what is left there is lost for it. -/
theorem Delivers.unheard (h : l.Delivers B rest) {c : Client} (hf : l.client.Follows c)
    (hdeaf : ¬ (c.reading = true ∧ c.isConnected = true))
    (hepoch : c.connectionEpoch = l.client.connectionEpoch ∨
      c.connectionEpoch = l.client.connectionEpoch + 1 ∧ l.client.isLoggedIn = true) :
    ({ l with client := c } : Session).Delivers B [] := by
  have hsplit := List.append_nil l.client.msgQueue
  have hrec : l.received ++ counted (c.msgQueue ++ []) <+: l.sent := by
    rw [hf.queue, hsplit]
    refine List.IsPrefix.trans ?_ h.received
    rw [counted_append, ← List.append_assoc]
    exact List.prefix_append _ _
  refine { h with
    rest_fits := nofun
    stream := fun hl => absurd hl hdeaf
    gone := fun _ => rfl
    received := hrec
    live := fun hl => absurd hl hdeaf
    replies := ?_
    login := fun hc => ?_
    routed := hf.routine
    opens := fun hb => ?_
    waits := fun _ _ hl => absurd hl hdeaf
    request := fun k hl => absurd hl hdeaf
    fresh := fun k hk => h.fresh k ?_ }
  · have := h.replies
    rw [replies_append] at this
    change Lobby.replies B (c.msgQueue ++ []) + l.begun.toNat ≤ l.replied.toNat
    rw [hf.queue, hsplit]
    omega
  · obtain ⟨hlogin, hack⟩ := hf.loggedIn hc
    exact ⟨(h.login hlogin).1, hack.trans (h.login hlogin).2⟩
  · obtain ⟨hr, ho, hzero, hnone⟩ := h.opens hb
    refine ⟨hr, ?_, ?_, hnone⟩
    · rw [hf.queue, hsplit]
      exact ho.left
    · rcases hepoch with he | ⟨-, hlogin⟩
      · exact he.trans hzero
      · have hb : l.begun = false := hb
        exact absurd (h.login hlogin).1 (by rw [hb]; decide)
  · have hk : c.connectionEpoch < k := hk
    rcases hepoch with he | ⟨he, -⟩ <;> omega

/-- The client goes on with its connection. -/
theorem Delivers.stays (h : l.Delivers B rest) {c : Client} (hf : l.client.Follows c)
    (hepoch : c.connectionEpoch = l.client.connectionEpoch)
    (hreading : c.reading = l.client.reading) (hconn : c.isConnected = l.client.isConnected)
    (hbuf : c.accumBuf = l.client.accumBuf) :
    ({ l with client := c } : Session).Delivers B rest := by
  have hlistens : ({ l with client := c } : Session).Listens ↔ l.Listens := by
    simp [Listens, hreading, hconn]
  have hreceived : ({ l with client := c } : Session).received = l.received := rfl
  exact { h with
    stream := fun hl => by simpa [hbuf, hepoch] using h.stream (hlistens.mp hl)
    gone := fun hn => h.gone fun hl => hn (hlistens.mpr hl)
    received := by simpa [hf.queue, hreceived] using h.received
    live := fun hl hp => by
      simpa [hf.queue, hreceived] using h.live (hlistens.mp hl) (hepoch ▸ hp)
    replies := by simpa [hf.queue] using h.replies
    login := fun hc => by
      simpa [(hf.loggedIn hc).2, hreceived] using h.login (hf.loggedIn hc).1
    routed := hf.routine
    opens := fun hb => by simpa [hf.queue, hepoch, hreceived] using h.opens hb
    waits := fun hb hr hl hp => by simpa [hf.queue] using h.waits hb hr (hlistens.mp hl) hp
    request := fun k hl hk => by
      simpa [hf.queue, hepoch, hreceived] using h.request k (hlistens.mp hl) (hepoch ▸ hk)
    fresh := fun k hk => h.fresh k (hepoch ▸ hk) }

/-- The main thread acts on the connection; if it asks, no counted message waits. -/
theorem Delivers.act (h : l.Delivers B rest) {r : Client × Option Nat} (ha : l.client.Acts r)
    (hasks : ∀ k, r.2 = some k → counted l.client.msgQueue = []) :
    ∃ rest', (l.act r).Delivers B rest' := by
  cases ha with
  | @keep c hf hepoch hreading hconn hbuf =>
      exact ⟨rest, h.stays hf hepoch hreading hconn hbuf⟩
  | @lose c hf hconn hepoch =>
      exact ⟨[], h.unheard hf (fun hl => absurd (hconn.symm.trans hl.2) nofun) hepoch⟩
  | @ask c hf hlogin hepoch hreading hbuf =>
      have hempty := hasks _ rfl
      -- the old connection is left before the new one is used
      have h' : ({ l with client := { c with isConnected := false } } : Session).Delivers B [] :=
        h.unheard ⟨hf.queue, hf.loggedIn, hf.routine⟩ (fun hl => absurd hl.2 nofun)
          (.inr ⟨hepoch, hlogin⟩)
      have hnew := h.fresh c.connectionEpoch (by omega)
      have hbegun := h.login hlogin
      have hnotbegun : l.begun ≠ false := by simp [hbegun.1]
      have hcount : counted (c.msgQueue ++ []) = [] := by
        rw [List.append_nil, hf.queue, hempty]
      refine ⟨[], { h' with
        stream := fun _ => ?_
        gone := fun _ => rfl
        live := fun _ hp => absurd hp hnew.2.2
        opens := fun hb => absurd hb hnotbegun
        waits := fun hb => absurd hb hnotbegun
        request := fun k _ hk => ⟨hcount, ?_, hnew.2.2⟩
        fresh := fun k hk => ⟨(h'.fresh k hk).1, ?_, (h'.fresh k hk).2.2⟩ }⟩
      · change c.accumBuf ++ l.wire c.connectionEpoch = []
        rw [hbuf, hnew.1]
        rfl
      · simp only [Session.act, Function.update_self, Option.some.injEq] at hk
        exact hk.symm.trans hbegun.2
      · have hk : c.connectionEpoch < k := hk
        have hne : k ≠ c.connectionEpoch := by omega
        simpa [Session.act, hne] using (h'.fresh k hk).2.1

theorem dispatch_of_not_reply {c : Client} {m : Msg} (hm : ¬ IsReply B m) :
    (c.dispatch B m).isLoggedIn = c.isLoggedIn ∧
      (c.dispatch B m).lastAck = (c.onRawMessage m).lastAck ∧
      (c.dispatch B m).reconnectRoutine = c.reconnectRoutine ∧
      (c.dispatch B m).connectionEpoch = c.connectionEpoch ∧
      (c.dispatch B m).reading = c.reading ∧ (c.dispatch B m).isConnected = c.isConnected ∧
      (c.dispatch B m).accumBuf = c.accumBuf ∧ (c.dispatch B m).msgQueue = c.msgQueue := by
  have hraw : (c.onRawMessage m).isLoggedIn = c.isLoggedIn ∧
      (c.onRawMessage m).reconnectRoutine = c.reconnectRoutine ∧
      (c.onRawMessage m).connectionEpoch = c.connectionEpoch ∧
      (c.onRawMessage m).reading = c.reading ∧ (c.onRawMessage m).isConnected = c.isConnected ∧
      (c.onRawMessage m).accumBuf = c.accumBuf ∧ (c.onRawMessage m).msgQueue = c.msgQueue := by
    unfold Client.onRawMessage
    split <;> exact ⟨rfl, rfl, rfl, rfl, rfl, rfl, rfl⟩
  unfold Client.dispatch
  generalize c.onRawMessage m = d at *
  obtain ⟨h₁, h₂, h₃, h₄, h₅, h₆, h₇⟩ := hraw
  dsimp only
  split
  · rename_i hcmd
    cases hb : B.loginSecond m.body with
    | none => exact ⟨h₁, rfl, h₂, h₃, h₄, h₅, h₆, h₇⟩
    | some t => exact absurd ⟨hcmd, by simp [hb]⟩ hm
  · split
    · unfold Client.onReconnectRes
      split <;> exact ⟨h₁, rfl, h₂, h₃, h₄, h₅, h₆, h₇⟩
    · exact ⟨h₁, rfl, h₂, h₃, h₄, h₅, h₆, h₇⟩

theorem dispatch_of_reply {c : Client} {m : Msg} (hm : IsReply B m) :
    ∃ hasToken, c.dispatch B m = c.beginAuthenticatedSession hasToken := by
  obtain ⟨hcmd, hbody⟩ := hm
  obtain ⟨hasToken, ht⟩ := Option.ne_none_iff_exists'.mp hbody
  have hraw : c.onRawMessage m = c :=
    if_neg fun h => h.2 (by simp [hcmd, uncounted])
  exact ⟨hasToken, by simp [Client.dispatch, hraw, hcmd, ht]⟩

/-- The login reply is dispatched. -/
theorem Delivers.dispatchReply (h : l.Delivers B rest) {m : Msg} {ms : List Msg}
    (hq : l.client.msgQueue = m :: ms) (hm : IsReply B m) : (l.dispatch B m ms).Delivers B rest := by
  have hcons : l.client.msgQueue ++ rest = [m] ++ (ms ++ rest) := by rw [hq]; rfl
  have hcount : counted (l.client.msgQueue ++ rest) = counted (ms ++ rest) := by
    rw [hcons, counted_append, counted_of_mem hm.uncounted, List.nil_append]
  have hone : Lobby.replies B [m] = 1 := by simp [Lobby.replies, hm]
  have hreplies := h.replies
  rw [hcons, replies_append, hone] at hreplies
  have hbegun : l.begun = false := by
    have := Bool.toNat_le l.replied
    cases hb : l.begun with
    | false => rfl
    | true =>
        rw [hb, Bool.toNat_true] at hreplies
        omega
  obtain ⟨hr, -, -, hnone⟩ := h.opens hbegun
  obtain ⟨t, ht⟩ := dispatch_of_reply (c := { l.client with msgQueue := ms }) hm
  have hl' : l.dispatch B m ms = { l with
      client := ({ l.client with msgQueue := ms } : Client).beginAuthenticatedSession t
      begun := true } := by
    have hm' : m.cmd = name "login_second" ∧ B.loginSecond m.body ≠ none := hm
    simp [Session.dispatch, ht, hbegun, hm']
  rw [hl']
  refine { h with
    received := ?_
    live := fun hl hp => ?_
    replies := ?_
    login := fun _ => ⟨rfl, ?_⟩
    routed := fun hroutine => absurd rfl hroutine
    opens := fun hb => (by cases hb)
    waits := fun hb => (by cases hb)
    request := fun k _ hk => ?_ }
  · have := h.received
    rwa [hcount] at this
  · have := h.live hl hp
    rwa [hcount] at this
  · change Lobby.replies B (ms ++ rest) + 1 ≤ l.replied.toNat
    omega
  · change 0 = l.received.length
    rw [hr]
    rfl
  · have hk : l.requests l.client.connectionEpoch = some k := hk
    rw [hnone] at hk
    cases hk

/-- Any other message is dispatched. -/
theorem Delivers.dispatchOther (h : l.Delivers B rest) {m : Msg} {ms : List Msg}
    (hq : l.client.msgQueue = m :: ms) (hm : ¬ IsReply B m) :
    (l.dispatch B m ms).Delivers B rest := by
  have hcons : l.client.msgQueue ++ rest = [m] ++ (ms ++ rest) := by rw [hq]; rfl
  have hcount : counted (l.client.msgQueue ++ rest) = counted [m] ++ counted (ms ++ rest) := by
    rw [hcons, counted_append]
  obtain ⟨hlogin, hack, hroutine, hepoch, hreading, hconn, hbuf, hqueue⟩ :=
    dispatch_of_not_reply (c := { l.client with msgQueue := ms }) hm
  generalize hc : ({ l.client with msgQueue := ms } : Client).dispatch B m = c at *
  replace hlogin : c.isLoggedIn = l.client.isLoggedIn := hlogin
  replace hroutine : c.reconnectRoutine = l.client.reconnectRoutine := hroutine
  replace hepoch : c.connectionEpoch = l.client.connectionEpoch := hepoch
  replace hreading : c.reading = l.client.reading := hreading
  replace hconn : c.isConnected = l.client.isConnected := hconn
  replace hbuf : c.accumBuf = l.client.accumBuf := hbuf
  replace hqueue : c.msgQueue = ms := hqueue
  have hl' : l.dispatch B m ms = { l with
      client := c
      dispatched := if l.begun then l.dispatched ++ [m] else l.dispatched } := by
    have hm' : ¬ (m.cmd = name "login_second" ∧ B.loginSecond m.body ≠ none) := hm
    simp only [Session.dispatch, hc, hm', decide_false, Bool.or_false]
  have hopens : l.begun = false → counted [m] = [] ∧ Opens B (ms ++ rest) := fun hb => by
    have ho := (h.opens hb).2.1
    rw [hcons] at ho
    obtain ⟨hu, ho⟩ := ho.resolve_left hm
    exact ⟨counted_of_mem hu, ho⟩
  have hreceived : ({ l with
      client := c
      dispatched := if l.begun then l.dispatched ++ [m] else l.dispatched } : Session).received =
        l.received ++ counted [m] := by
    cases hb : l.begun with
    | true => simp [Session.received]
    | false => simp [Session.received, (hopens hb).1]
  have hlistens : ({ l with
      client := c
      dispatched := if l.begun then l.dispatched ++ [m] else l.dispatched } : Session).Listens ↔
        l.Listens := by
    simp [Listens, hreading, hconn]
  rw [hl']
  exact { h with
    stream := fun hl => by simpa [hbuf, hepoch] using h.stream (hlistens.mp hl)
    gone := fun hn => h.gone fun hl => hn (hlistens.mpr hl)
    received := by
      have := h.received
      rwa [hcount, ← List.append_assoc, ← hreceived, ← hqueue] at this
    live := fun hl hp => by
      have := h.live (hlistens.mp hl) (hepoch ▸ hp)
      rwa [hcount, ← List.append_assoc, ← hreceived, ← hqueue] at this
    replies := by
      have := h.replies
      rw [hcons, replies_append, ← hqueue] at this
      exact (Nat.add_le_add_right (Nat.le_add_left _ _) _).trans this
    login := fun hin => by
      obtain ⟨hb, hcounted⟩ := h.login (hlogin ▸ hin)
      refine ⟨hb, ?_⟩
      rw [hreceived]
      change c.lastAck = _
      rw [hack, List.length_append]
      have hin' : l.client.isLoggedIn = true := hlogin ▸ hin
      unfold Client.onRawMessage
      by_cases hu : m.cmd ∈ uncounted
      · rw [if_neg fun h => h.2 hu, counted_of_mem hu]
        simpa using hcounted
      · rw [if_pos ⟨hin', hu⟩, counted_of_notMem hu]
        simpa using hcounted
    routed := fun hr => by
      rw [hlogin]
      exact h.routed (hroutine ▸ hr)
    opens := fun hb => by
      obtain ⟨hr, -, hzero, hnone⟩ := h.opens hb
      refine ⟨?_, ?_, hepoch.trans hzero, hnone⟩
      · rw [hreceived, hr, (hopens hb).1]
        rfl
      · change Opens B (c.msgQueue ++ rest)
        rw [hqueue]
        exact (hopens hb).2
    waits := fun hb hr hl hp => by
      obtain ⟨x, hx, hreply⟩ := h.waits hb hr (hlistens.mp hl) hp
      rw [hcons, ← hqueue] at hx
      rcases List.mem_append.mp hx with hx | hx
      · exact absurd (List.mem_singleton.mp hx ▸ hreply) hm
      · exact ⟨x, hx, hreply⟩
    request := fun k hl hk => by
      obtain ⟨hempty, hk', hp⟩ := h.request k (hlistens.mp hl) (hepoch ▸ hk)
      rw [hcount] at hempty
      obtain ⟨hone, hempty⟩ := List.append_eq_nil_iff.mp hempty
      refine ⟨hqueue ▸ hempty, ?_, hepoch ▸ hp⟩
      rw [hreceived, hone, List.append_nil]
      exact hk'
    fresh := fun k hk => h.fresh k (hepoch ▸ hk) }

theorem Delivers.phase (h : l.Delivers B rest) (p : Phase) :
    ({ l with phase := p } : Session).Delivers B rest :=
  { h with }

theorem step_delivers {l' : Session} {e : Event} (h : l.Delivers B rest) (ho : l.Orderly e)
    (hs : l.step B e = some l') : ∃ rest', l'.Delivers B rest' := by
  cases e with
  | send m =>
      obtain rfl := Option.some.inj hs
      exact h.send ho
  | loginReply body =>
      simp only [step] at hs
      split at hs
      · cases hs
      · rename_i hno
        simp only [not_or, Bool.not_eq_true, not_not] at hno
        obtain ⟨hreplied, hbody, hfits⟩ := hno
        obtain ⟨hwritten, hlost⟩ := h.loginReply hreplied ⟨rfl, hbody⟩ hfits
        split at hs
        · obtain rfl := Option.some.inj hs
          exact hwritten
        · rename_i hp
          obtain rfl := Option.some.inj hs
          exact ⟨rest, hlost hp⟩
  | sendByFd n m =>
      simp only [step] at hs
      split at hs
      · cases hs
      · rename_i hno
        simp only [not_or, not_lt, not_not] at hno
        obtain ⟨hn, hu, hfits, hm⟩ := hno
        obtain rfl := Option.some.inj hs
        exact h.sendByFd hn hfits hu hm
  | gateDisconnect n =>
      simp only [step] at hs
      split at hs
      · obtain rfl := Option.some.inj hs
        exact ⟨rest, h.gateDisconnect⟩
      · obtain rfl := Option.some.inj hs
        exact ⟨rest, h⟩
  | gateReconnect n known =>
      simp only [step] at hs
      split at hs
      · cases hs
      · rename_i k hk
        obtain rfl := Option.some.inj hs
        exact h.gateReconnect known hk
  | receive count =>
      simp only [step] at hs
      split at hs
      · rename_i hok
        obtain rfl := Option.some.inj hs
        exact h.receive ⟨hok.1, hok.2.1⟩ count
      · cases hs
  | receiveEnd connected =>
      simp only [step] at hs
      split at hs
      · obtain rfl := Option.some.inj hs
        exact ⟨[], h.unheard ⟨rfl, fun hc => ⟨hc, rfl⟩, h.routed⟩ (fun hl => nomatch hl.1)
          (.inl rfl)⟩
      · cases hs
  | update =>
      simp only [step] at hs
      split at hs
      · obtain rfl := Option.some.inj hs
        exact ⟨rest, h.phase _⟩
      · cases hs
  | change connectOk sendOk =>
      simp only [step] at hs
      split at hs
      · rename_i connected changes _ hqueue
        obtain rfl := Option.some.inj hs
        -- taking the change off its queue touches nothing the counts depend on
        have htaken : ({ l with client := { l.client with connQueue := changes } } :
            Session).Delivers B rest := { h with }
        refine htaken.act (Client.onConnectionChanged_acts htaken.routed connected connectOk sendOk)
          fun k hk => ho ?_
        obtain ⟨rfl, hpreserve, hroutine⟩ := Client.onConnectionChanged_asks hk
        exact ⟨by rw [hqueue]; rfl, hpreserve, hroutine⟩
      · cases hs
  | changed =>
      simp only [step] at hs
      split at hs
      · obtain rfl := Option.some.inj hs
        exact ⟨rest, h.phase _⟩
      · cases hs
  | dispatch =>
      simp only [step] at hs
      split at hs
      · rename_i m ms _ hq
        obtain rfl := Option.some.inj hs
        by_cases hm : IsReply B m
        · exact ⟨rest, h.dispatchReply hq hm⟩
        · exact ⟨rest, h.dispatchOther hq hm⟩
      · cases hs
  | updated =>
      simp only [step] at hs
      split at hs
      · obtain rfl := Option.some.inj hs
        exact ⟨rest, h.phase _⟩
      · cases hs
  | resume connectOk sendOk deadline =>
      simp only [step] at hs
      split at hs
      · obtain rfl := Option.some.inj hs
        exact h.act (Client.resume_acts h.routed connectOk sendOk deadline) fun k hk =>
          ho (Client.resume_asks hk)
      · cases hs

end Steps

theorem start_delivers : start.Delivers B [] := by
  constructor <;> simp [start, Session.received, counted, Lobby.replies, Opens, Client.Routed,
    Gate.number, Listens]
  exact fun n hn => hn.ne

theorem reach_delivers {l : Session} (hr : Reach B Orderly l) : ∃ rest, l.Delivers B rest := by
  induction hr with
  | start => exact ⟨[], start_delivers⟩
  | step _ ho hs ih =>
      obtain ⟨rest, h⟩ := ih
      exact step_delivers h ho hs

/-- In an orderly run the handlers have got a beginning of what was sent, in the order of
the numbers, and the client has counted it. -/
theorem received_once (l : Session) (hr : Reach B Orderly l) :
    l.received <+: l.sent ∧
      l.player.msgcache = Gate.number 0 (l.sent.map Msg.packet) ∧
      (l.client.isLoggedIn = true → l.client.lastAck = l.received.length) := by
  obtain ⟨rest, h⟩ := reach_delivers hr
  exact ⟨(List.prefix_append _ _).trans h.received, h.cache, fun hl => (h.login hl).2⟩

/-- Bodies of one byte. -/
def plainBodies : Bodies where
  loginSecond body := if body = [0] then some true else none
  reconnectRes code := [UInt8.ofNat code]
  reconnectCode body := body.headD 0 |>.toNat
  reconnect_fits code := by
    have hname : (name "reconnect").length = 9 := by decide
    simp [Msg.Fits, hname]

/-- A message is dispatched, another one is kept while the connection is down, and the client
asks with an empty queue. -/
theorem received_once_replayed :
    ∃ l : Session, l.received = [⟨name "mail_notify", [1]⟩, ⟨name "mail_notify", [2]⟩] ∧
      l.received <+: l.sent := by
  have h₁ : Reach plainBodies Orderly _ :=
    .step (e := .loginReply [0]) .start (fun h => h.elim) rfl
  have h₂ := h₁.step (e := .receive 17) (fun h => h.elim) rfl
  have h₃ := h₂.step (e := .update) (fun h => h.elim) rfl
  have h₄ := h₃.step (e := .changed) (fun h => h.elim) rfl
  have h₅ := h₄.step (e := .dispatch) (fun h => h.elim) rfl
  have h₆ := h₅.step (e := .send ⟨name "mail_notify", [1]⟩)
    ⟨by decide +kernel, by decide +kernel, by decide +kernel, rfl⟩ rfl
  have h₇ := h₆.step (e := .receive 16) (fun h => h.elim) rfl
  have h₈ := h₇.step (e := .dispatch) (fun h => h.elim) rfl
  have h₉ := h₈.step (e := .updated) (fun h => h.elim) rfl
  have h₁₀ := h₉.step (e := .receiveEnd false) (fun h => h.elim) rfl
  have h₁₁ := h₁₀.step (e := .gateDisconnect 0) (fun h => h.elim) rfl
  have h₁₂ := h₁₁.step (e := .send ⟨name "mail_notify", [2]⟩)
    ⟨by decide +kernel, by decide +kernel, by decide +kernel, rfl⟩ rfl
  have h₁₃ := h₁₂.step (e := .update) (fun h => h.elim) rfl
  have h₁₄ := h₁₃.step (e := .change true true) (fun _ => rfl) rfl
  have h₁₅ := h₁₄.step (e := .change true true) (fun _ => rfl) rfl
  have h₁₆ := h₁₅.step (e := .gateReconnect 1 true) (fun h => h.elim) rfl
  have h₁₇ := h₁₆.step (e := .receive 30) (fun h => h.elim) rfl
  have h₁₈ := h₁₇.step (e := .changed) (fun h => h.elim) rfl
  have h₁₉ := h₁₈.step (e := .dispatch) (fun h => h.elim) rfl
  have h₂₀ := h₁₉.step (e := .dispatch) (fun h => h.elim) rfl
  exact ⟨_, by decide +kernel, (received_once _ h₂₀).1⟩

/-- The connection is lost after a message has been received and before it is dispatched.
The client asks before it takes the message from its queue, and gets it again. -/
theorem received_twice :
    ∃ l : Session, start.run plainBodies [.loginReply [0], .receive 17, .update, .changed,
        .dispatch, .updated, .send ⟨name "mail_notify", [1]⟩, .receive 16, .receiveEnd false,
        .gateDisconnect 0, .update, .change true true, .change true true, .changed, .dispatch,
        .updated, .gateReconnect 1 true, .receive 30, .update, .changed, .dispatch,
        .dispatch] = some l ∧
      l.player.msgcache.length ≤ 500 ∧ ¬ (l.received <+: l.sent) := by
  refine ⟨_, rfl, ?_⟩
  decide +kernel

end Session

end BallServer.Lobby
