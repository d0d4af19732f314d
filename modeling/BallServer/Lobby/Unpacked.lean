import BallServer.Lobby.Client
import BallServer.Gateway.Replay

/-!
# Messages that cannot be packed

{lit}`proto_pack` raises for an unknown command, for a message its library does not encode
and for a content that is too long.  {lit}`send` has taken the number by then, and nothing
takes it back.

Main results:

- Theorem {lit}`run_numbers`: how many numbers a run takes.
- Theorem {lit}`kept_replay`: what a reconnect sends again while every message is packed.
- Theorem {lit}`unpacked_changes_nothing_iff`: a number is lost with every such message.
- Theorem {lit}`unpacked_repeats`: after it, a reconnect repeats a message.
-/

namespace BallServer.Gate

open Lobby (Msg protoPack name)

/-- An entry of {lit}`proto_map`. -/
structure ProtoTypes where
  res : Option Buff
  notify : Option Buff
deriving DecidableEq, Repr

/-- The table read from the protocol files and the library that encodes a message.  An
encoding that raises is {lit}`none`. -/
structure Proto (M : Type) where
  protoMap : Buff → Option ProtoTypes
  encode : Buff → M → Option Buff

/-- {lit}`proto_pack`. -/
def Proto.pack {M : Type} (P : Proto M) (cmd : Buff) (msg : M) : Option Buff := do
  let map ← P.protoMap cmd
  let protoType ← map.res.or map.notify
  let body ← P.encode protoType msg
  protoPack ⟨cmd, body⟩

namespace Gateway

/-- The number of the last message to a player and the cached messages. -/
def numbers (g : Gateway) (p : Nat) : Option (Nat × List ABuff) :=
  (g.players p).map fun x => (x.sendSeq, x.msgcache)

/-! ## The numbers taken in a run -/

theorem send_unpacked (g : Gateway) (h p : Nat) :
    (g.send h p none).numbers p = (g.numbers p).map fun x => (x.1 + 1, x.2) := by
  unfold send numbers
  cases hx : g.players p with
  | none => simp [hx]
  | some x => simp

theorem send_unpacked_player {g : Gateway} {h p q : Nat} {x' : GatePlayer}
    (hx' : (g.send h q none).players p = some x') :
    ∃ x, g.players p = some x ∧ x'.sendSeq = x.sendSeq + if q = p then 1 else 0 := by
  unfold send at hx'
  cases hx : g.players q with
  | none =>
      rw [hx] at hx'
      have hne : q ≠ p := by
        rintro rfl
        exact absurd (hx.symm.trans hx') (by simp)
      exact ⟨x', hx', by simp [hne]⟩
  | some x =>
      simp only [hx, setPlayer_players] at hx'
      by_cases hp : p = q
      · subst hp
        simp only [if_true, Option.some.injEq] at hx'
        subst hx'
        exact ⟨x, hx, by simp⟩
      · rw [if_neg hp] at hx'
        exact ⟨x', hx', by simp [Ne.symm hp]⟩

/-- An event takes a number for each message to the player, packed or not. -/
theorem step_numbers {g g' : Gateway} {e : Event} (hs : g.step e = some g') {p : Nat}
    (hold : ¬ e.logsIn p) {x' : GatePlayer} (hx' : g'.players p = some x') :
    ∃ x, g.players p = some x ∧
      x'.sendSeq = x.sendSeq + (sentTo p [e]).length + [e].count (.send p none) := by
  by_cases he : e.Packed
  · obtain ⟨hnew, -⟩ | ⟨x, hx, hgrown⟩ := step_grown hs he hx'
    · exact absurd hnew hold
    · have hcount : [e].count (.send p none) = 0 :=
        List.count_eq_zero.mpr fun hmem => he p (List.mem_singleton.mp hmem).symm
      have hsent : (sentTo p [e]).length = (e.sentTo p).toList.length := by
        simp only [sentTo, List.filterMap_cons, List.filterMap_nil]
        cases e.sentTo p <;> rfl
      exact ⟨x, hx, by rw [hcount, hsent]; exact hgrown.sendSeq⟩
  · obtain ⟨q, rfl⟩ : ∃ q, e = .send q none := by
      simpa [Event.Packed] using he
    obtain rfl := Option.some.inj hs
    obtain ⟨x, hx, hseq⟩ := send_unpacked_player hx'
    refine ⟨x, hx, ?_⟩
    rw [hseq]
    by_cases hq : q = p <;> simp [sentTo, Event.sentTo, hq]

/-- A run takes as many numbers of a player as messages were sent to it. -/
theorem run_numbers {g g' : Gateway} {es : List Event} {p : Nat} (h : g.run es = some g')
    (hold : ∀ e ∈ es, ¬ e.logsIn p) {x' : GatePlayer} (hx' : g'.players p = some x') :
    ∃ x, g.players p = some x ∧
      x'.sendSeq = x.sendSeq + (sentTo p es).length + es.count (.send p none) := by
  induction es generalizing g with
  | nil =>
      obtain rfl := Option.some.inj h
      exact ⟨x', hx', rfl⟩
  | cons e es ih =>
      obtain ⟨g₁, hs, hrun⟩ := run_cons.mp h
      obtain ⟨x₁, hx₁, hrest⟩ := ih hrun fun e he => hold e (List.mem_cons_of_mem _ he)
      obtain ⟨x, hx, hfirst⟩ := step_numbers hs (hold e List.mem_cons_self) hx₁
      refine ⟨x, hx, ?_⟩
      have hsent : (sentTo p (e :: es)).length = (sentTo p [e]).length + (sentTo p es).length := by
        rw [← List.length_append, sentTo, sentTo, sentTo, ← List.filterMap_append]
        rfl
      have hcount : (e :: es).count (.send p none) =
          [e].count (.send p none) + es.count (.send p none) := by
        rw [← List.count_append, List.singleton_append]
      omega

end Gateway

/-! ## What a reconnect sends again -/

/-- The gateplayer has numbered the messages {lit}`bs`, each with its place. -/
structure GatePlayer.Kept (x : GatePlayer) (bs : List Buff) : Prop where
  complete : x.Complete
  seq : x.sendSeq = bs.length
  cache : x.msgcache <:+ number 0 bs

theorem Grown.kept {x x' : GatePlayer} {s : Option Buff} (h : Grown x x' s) {bs : List Buff}
    (hx : x.Kept bs) : x'.Kept (bs ++ s.toList) := by
  have hpush : ∀ b, x.msgcache ++ [⟨x.sendSeq + 1, b⟩] <:+ number 0 (bs ++ [b]) := by
    intro b
    obtain ⟨t, ht⟩ := hx.cache
    refine ⟨t, ?_⟩
    rw [number_concat, ← ht, hx.seq, List.append_assoc, Nat.zero_add]
  refine ⟨h.complete hx.complete, ?_, ?_⟩
  · rw [h.sendSeq, hx.seq, List.length_append]
  · cases h with
    | same _ hcache =>
        rw [hcache]
        simpa using hx.cache
    | push b _ hcache =>
        rw [hcache]
        exact hpush b
    | trim b _ _ hcache =>
        rw [hcache]
        exact (List.drop_suffix _ _).trans (hpush b)

/-- While every message is packed the gateplayer keeps their places. -/
theorem Gateway.run_kept {g g' : Gateway} {es : List Event} {p : Nat} (h : g.run es = some g')
    (hold : ∀ e ∈ es, ¬ e.logsIn p) (hpacked : ∀ e ∈ es, e.Packed) {x x' : GatePlayer}
    (hx : g.players p = some x) (hx' : g'.players p = some x') {bs : List Buff}
    (hkept : x.Kept bs) : x'.Kept (bs ++ sentTo p es) := by
  induction es generalizing g x bs with
  | nil =>
      obtain rfl := Option.some.inj h
      obtain rfl := Option.some.inj (hx.symm.trans hx')
      simpa [sentTo] using hkept
  | cons e es ih =>
      obtain ⟨g₁, hs, hrun⟩ := run_cons.mp h
      have hold' : ∀ e ∈ es, ¬ e.logsIn p := fun e he => hold e (List.mem_cons_of_mem _ he)
      obtain ⟨x₁, hx₁, -⟩ := run_numbers hrun hold' hx'
      have hstep : x₁.Kept (bs ++ (e.sentTo p).toList) := by
        obtain ⟨hnew, -⟩ | ⟨y, hy, hgrown⟩ :=
          step_grown hs (hpacked e List.mem_cons_self) hx₁
        · exact absurd hnew (hold e List.mem_cons_self)
        · obtain rfl := Option.some.inj (hx.symm.trans hy)
          exact hgrown.kept hkept
      have hrest := ih hrun hold' (fun e he => hpacked e (List.mem_cons_of_mem _ he)) hx₁ hstep
      have hsent : sentTo p (e :: es) = (e.sentTo p).toList ++ sentTo p es := by
        simp only [sentTo, List.filterMap_cons]
        cases e.sentTo p <;> rfl
      rwa [hsent, ← List.append_assoc]

theorem number_filter (bs : List Buff) (k : Nat) :
    (number 0 bs).filter (fun m => (k : Int) < m.sendSeq) = (number 0 bs).drop k := by
  induction bs using List.reverseRecOn with
  | nil => simp [number]
  | append_singleton bs b ih =>
      have hlength : (number 0 bs).length = bs.length := by simp [number]
      rw [number_concat, List.filter_append, ih]
      by_cases hk : k ≤ bs.length
      · rw [List.drop_append_of_le_length (hlength ▸ hk)]
        have hlast : k < bs.length + 1 := by omega
        simp [hlast]
      · have hlast : ¬ k < bs.length + 1 := by omega
        have hall : (number 0 bs ++ [(⟨0 + bs.length + 1, b⟩ : ABuff)]).length ≤ k := by
          simp only [List.length_append, hlength, List.length_singleton]
          omega
        rw [List.drop_eq_nil_of_le hall, List.drop_eq_nil_of_le (by omega)]
        simp [hlast]

/-- A client that has counted {lit}`k` messages, not more than 500 ago, is sent the ones after
the {lit}`k`th. -/
theorem GatePlayer.Kept.replay {x : GatePlayer} {bs : List Buff} (h : x.Kept bs) {k : Nat}
    (hlow : bs.length ≤ k + 500) :
    x.msgcache.filter (fun m => (k : Int) < m.sendSeq) = (number 0 bs).drop k := by
  obtain ⟨t, ht⟩ := h.cache
  have hold : t.filter (fun m => (k : Int) < m.sendSeq) = [] := by
    rw [List.filter_eq_nil_iff]
    intro m hm
    obtain ⟨i, hi, rfl⟩ := List.mem_iff_getElem.mp hm
    have hplace : (t[i]).sendSeq = i + 1 := by
      have hget : (number 0 bs)[i]? = some t[i] := by
        rw [← ht, List.getElem?_append_left hi, List.getElem?_eq_getElem hi]
      simp only [number, List.getElem?_mapIdx, Option.map_eq_some_iff] at hget
      obtain ⟨b, -, hb⟩ := hget
      rw [← hb]
      simp
    have hlength : t.length + x.msgcache.length = bs.length := by
      rw [← List.length_append, ht]
      simp [number]
    have henough := h.complete.enough
    rw [h.seq] at henough
    simp only [decide_eq_true_eq, hplace]
    omega
  rw [← number_filter, ← ht, List.filter_append, hold, List.nil_append]

/-- A message that cannot be packed leaves the number and the cache of its player alone
exactly when the player has no gateplayer.  In a run the last number stays the count of the
messages the client can receive exactly when every message to the player was packed; then a
client that asks with its count is sent the messages it has not counted. -/
theorem unpacked_changes_nothing_iff {M : Type} (P : Proto M) :
    (∀ (g g' : Gateway) (p : Nat) (cmd : Buff) (msg : M),
      g.step (.send p (P.pack cmd msg)) = some g' →
      ((P.pack cmd msg = none → g'.numbers p = g.numbers p) ↔
        P.pack cmd msg ≠ none ∨ g.players p = none)) ∧
    ∀ (g g' : Gateway) (es : List Event) (p : Nat) (x x' : GatePlayer),
      g.run es = some g' → (∀ e ∈ es, ¬ e.logsIn p) →
      g.players p = some x → g'.players p = some x' →
      (x'.sendSeq = x.sendSeq + (sentTo p es).length ↔ .send p none ∉ es) ∧
      ((∀ e ∈ es, e.Packed) → x.sendSeq = 0 → x.msgcache = [] →
        ∀ k : Nat, (sentTo p es).length ≤ k + 500 →
          x'.msgcache.filter (fun m => (k : Int) < m.sendSeq) =
            (number 0 (sentTo p es)).drop k) := by
  refine ⟨?_, ?_⟩
  · intro g g' p cmd msg hs
    obtain rfl := Option.some.inj hs
    cases hpack : P.pack cmd msg with
    | some b => simp
    | none =>
        rw [Gateway.send_unpacked]
        cases hx : g.players p with
        | none => simp [Gateway.numbers, hx]
        | some x => simp [Gateway.numbers, hx]
  · intro g g' es p x x' hrun hold hx hx'
    obtain ⟨y, hy, hseq⟩ := Gateway.run_numbers hrun hold hx'
    obtain rfl := Option.some.inj (hx.symm.trans hy)
    refine ⟨?_, ?_⟩
    · rw [hseq, ← List.count_eq_zero]
      omega
    · intro hpacked hzero hnil k hk
      have hnew : x.Kept [] :=
        ⟨GatePlayer.complete_new hzero hnil, hzero, by rw [hnil]; exact List.nil_suffix⟩
      exact (Gateway.run_kept hrun hold hpacked hx hx' hnew).replay hk

/-- The table with one notice; the body is the message. -/
def mailProto : Proto Buff where
  protoMap cmd := if cmd = name "mail_notify" then some ⟨none, some (name "MailNotify")⟩ else none
  encode _ body := some body

/-- A new gateplayer is sent one message, which gets number 1. -/
theorem unpacked_changes_nothing_one :
    ∃ x' : GatePlayer, x'.sendSeq = 1 ∧
      x'.msgcache.filter (fun m => ((0 : Nat) : Int) < m.sendSeq) = [⟨1, [5]⟩] := by
  have h := (unpacked_changes_nothing_iff mailProto).2
    (Gateway.start.setPlayer 7 (some ⟨7, 20, none, 99, [], 0, 0, 1⟩)) _ [.send 7 (some [5])] 7
    ⟨7, 20, none, 99, [], 0, 0, 1⟩ _ rfl (by simp [Event.logsIn]) rfl rfl
  exact ⟨_, h.1.mpr (by simp), h.2 (by simp [Event.Packed]) rfl rfl 0 (by decide)⟩

/-- A content of more than 65535 bytes. -/
def longBody : Buff :=
  List.replicate 65536 0

theorem longBody_unpacked : mailProto.pack (name "mail_notify") longBody = none := by
  have hfits : ¬ (⟨name "mail_notify", longBody⟩ : Msg).Fits := by
    have hlength : longBody.length = 65536 := List.length_replicate
    simp only [Msg.Fits, hlength]
    omega
  have hpack : protoPack ⟨name "mail_notify", longBody⟩ = none := if_neg hfits
  simpa [Proto.pack, mailProto] using hpack

/-- The first message to a player is too long and the second one is packed.  The client has
received one message; when it asks with that count it is sent the same message again. -/
theorem unpacked_repeats :
    mailProto.pack (name "mail_notify") longBody = none ∧
    ∃ (g g' g'' : Gateway) (b : Buff),
      Gateway.start.run [.connect 3, .sureAgent 3 7 20 1 99, .resume 0 (.confirmed true)] =
        some g ∧
      g.step (.send 7 (mailProto.pack (name "mail_notify") longBody)) = some g' ∧
      g.numbers 7 = some (0, []) ∧ g'.numbers 7 = some (1, []) ∧
      g'.run [.send 7 (mailProto.pack (name "mail_notify") [5]), .disconnect 3, .connect 4,
        .reconnect 4 7 99 1] = some g'' ∧
      numbered (packets 3 g''.out) = [⟨2, b⟩] ∧ numbered (packets 4 g''.out) = [⟨2, b⟩] := by
  refine ⟨longBody_unpacked, ?_⟩
  rw [longBody_unpacked]
  exact ⟨_, _, _, (Msg.packet ⟨name "mail_notify", [5]⟩), rfl, rfl, rfl, rfl, rfl,
    by decide +kernel, by decide +kernel⟩

end BallServer.Gate
