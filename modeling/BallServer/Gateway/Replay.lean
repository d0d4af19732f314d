import BallServer.Gateway.Tables
import Mathlib.Data.List.Range

/-!
# Reconnecting

A message to a player is numbered, kept and, if the player is online, written.  After a
reconnect the client has the messages it had not acknowledged, and the later ones, in
order.

Main results:

- Theorem {lit}`Reach.complete`: the cache holds the latest messages.
- Theorem {lit}`Linked.steps`: what is written to a socket while it stays bound.
- Theorem {lit}`reconnect_replays`: nothing is lost and nothing comes twice.
-/

namespace BallServer.Gate

/-- The cache holds consecutive messages up to the last one, and 500 of them unless there
are fewer. -/
structure GatePlayer.Complete (x : GatePlayer) : Prop where
  length : x.msgcache.length ≤ x.sendSeq
  seqs : x.msgcache.map (·.sendSeq) =
    List.range' (x.sendSeq - x.msgcache.length + 1) x.msgcache.length
  enough : min 500 x.sendSeq ≤ x.msgcache.length

/-- Messages with consecutive numbers after {lit}`n`. -/
def number (n : Nat) (bs : List Buff) : List ABuff :=
  bs.mapIdx fun i b => ⟨n + i + 1, b⟩

theorem number_concat (n : Nat) (bs : List Buff) (b : Buff) :
    number n (bs ++ [b]) = number n bs ++ [⟨n + bs.length + 1, b⟩] := by
  simp [number, List.mapIdx_append]

theorem number_map_sendSeq (n : Nat) (bs : List Buff) :
    (number n bs).map (·.sendSeq) = List.range' (n + 1) bs.length := by
  apply List.ext_getElem
  · simp [number]
  · intro i h₁ h₂
    simp [number]
    omega

/-! ## The cache -/

namespace GatePlayer

theorem Complete.of_eq {x x' : GatePlayer} (hx : x.Complete) (hseq : x'.sendSeq = x.sendSeq)
    (hcache : x'.msgcache = x.msgcache) : x'.Complete := by
  obtain ⟨hlength, hseqs, henough⟩ := hx
  exact ⟨by rw [hseq, hcache]; exact hlength, by rw [hseq, hcache]; exact hseqs,
    by rw [hseq, hcache]; exact henough⟩

theorem complete_new {x : GatePlayer} (hseq : x.sendSeq = 0) (hcache : x.msgcache = []) :
    x.Complete := by
  constructor <;> simp [hseq, hcache]

/-- A message is appended. -/
theorem Complete.push {x x' : GatePlayer} (hx : x.Complete) {b : Buff}
    (hseq : x'.sendSeq = x.sendSeq + 1)
    (hcache : x'.msgcache = x.msgcache ++ [⟨x.sendSeq + 1, b⟩]) : x'.Complete := by
  have hlength := hx.length
  have henough := hx.enough
  have hn : x'.msgcache.length = x.msgcache.length + 1 := by simp [hcache]
  refine ⟨by omega, ?_, by omega⟩
  have hstart : x'.sendSeq - x'.msgcache.length = x.sendSeq - x.msgcache.length := by omega
  rw [hstart, hn, hcache, List.map_append, hx.seqs, List.range'_1_concat]
  simp only [List.map_cons, List.map_nil]
  congr 2
  omega

/-- The first message is removed from a cache with more than 500. -/
theorem Complete.trim {x x' : GatePlayer} (hx : x.Complete) (hfull : 500 < x.msgcache.length)
    (hseq : x'.sendSeq = x.sendSeq) (hcache : x'.msgcache = x.msgcache.drop 1) :
    x'.Complete := by
  have hlength := hx.length
  have hn : x'.msgcache.length = x.msgcache.length - 1 := by simp [hcache]
  refine ⟨by omega, ?_, by omega⟩
  have hstart : x'.sendSeq - x'.msgcache.length + 1 = x.sendSeq - x.msgcache.length + 1 + 1 := by
    omega
  rw [hstart, hn, hcache, List.map_drop, hx.seqs]
  simp [List.tail_range']

/-- The messages after an acknowledgement that the cache still covers. -/
theorem Complete.unacknowledged {x : GatePlayer} (hx : x.Complete) {k : Int}
    (hlow : (x.sendSeq : Int) - 500 ≤ k) (hhigh : k ≤ x.sendSeq) :
    (x.msgcache.filter (fun m => k < m.sendSeq)).map (·.sendSeq) =
      List.range' (k.toNat + 1) (x.sendSeq - k.toNat) := by
  have hlength := hx.length
  have henough := hx.enough
  set n := x.msgcache.length with hn
  have hfilter : (x.msgcache.filter (fun m => k < m.sendSeq)).map (·.sendSeq) =
      (x.msgcache.map (·.sendSeq)).filter (fun i : Nat => decide (k < (i : Int))) := by
    rw [List.filter_map]
    rfl
  have hsplit : List.range' (x.sendSeq - n + 1) n =
      List.range' (x.sendSeq - n + 1) (k.toNat - (x.sendSeq - n)) ++
        List.range' (k.toNat + 1) (x.sendSeq - k.toNat) := by
    have h₁ : k.toNat + 1 = x.sendSeq - n + 1 + (k.toNat - (x.sendSeq - n)) := by omega
    have h₂ : n = k.toNat - (x.sendSeq - n) + (x.sendSeq - k.toNat) := by omega
    rw [h₁, List.range'_append_1, ← h₂]
  rw [hfilter, hx.seqs, hsplit, List.filter_append, List.filter_eq_nil_iff.mpr,
    List.filter_eq_self.mpr, List.nil_append]
  · intro i hi
    have := List.mem_range'_1.mp hi
    simp only [decide_eq_true_eq]
    omega
  · intro i hi
    have := List.mem_range'_1.mp hi
    simp only [decide_eq_true_eq]
    omega

end GatePlayer

/-! ## One event -/

/-- The message an event sends to a player. -/
def Event.sentTo (p : Nat) : Event → Option Buff
  | .send q (some b) => if q = p then some b else none
  | _ => none

/-- The messages a sequence of events sends to a player. -/
def sentTo (p : Nat) (es : List Event) : List Buff :=
  es.filterMap (Event.sentTo p)

/-- The message of the event, if it sends one, can be packed. -/
def Event.Packed (e : Event) : Prop :=
  ∀ p, e ≠ .send p none

/-- The packets written to a socket. -/
def packets (fd : Nat) (as : List Action) : List Packet :=
  as.filterMap fun
    | .write fd' packet => if fd' = fd then some packet else none
    | _ => none

/-- The cached messages among some packets. -/
def numbered (ps : List Packet) : List ABuff :=
  ps.filterMap fun
    | .numbered m => some m
    | _ => none

@[simp]
theorem packets_append (fd : Nat) (as bs : List Action) :
    packets fd (as ++ bs) = packets fd as ++ packets fd bs :=
  List.filterMap_append

@[simp]
theorem numbered_append (ps qs : List Packet) :
    numbered (ps ++ qs) = numbered ps ++ numbered qs :=
  List.filterMap_append

theorem numbered_map (ms : List ABuff) : numbered (ms.map .numbered) = ms := by
  induction ms with
  | nil => rfl
  | cons m ms ih =>
      exact congrArg (m :: ·) ih

theorem packets_map (fd : Nat) (ms : List ABuff) :
    packets fd (ms.map fun m => .write fd (.numbered m)) = ms.map .numbered := by
  induction ms with
  | nil => rfl
  | cons m ms ih =>
      simp only [packets, List.map_cons, List.filterMap_cons, if_true] at ih ⊢
      rw [ih]

theorem packets_map_ne {fd fd' : Nat} (h : fd' ≠ fd) (ms : List ABuff) :
    packets fd (ms.map fun m => .write fd' (.numbered m)) = [] := by
  simp [packets, h]

namespace Gateway

/-- The gateplayer that a {lit}`reconnect` binds to the socket. -/
def accepts (g : Gateway) (fd p token : Nat) : Option GatePlayer :=
  match g.conns fd, g.players p with
  | some r, some x =>
      if x.conn = none ∧ (g.table r).playerid = none ∧ token = x.token then some x else none
  | _, _ => none

/-- The packets an event writes to a socket. -/
def written (g : Gateway) (fd : Nat) : Event → List Packet
  | .reconnect fd' p token k =>
      if fd' = fd then
        match g.accepts fd p token with
        | some x => .reconnect 0 :: (x.msgcache.filter (fun m => k < m.sendSeq)).map .numbered
        | none => [.reconnect 1]
      else []
  | .sendByFd fd' buf => if fd' = fd then [.direct buf] else []
  | .send p (some b) =>
      match g.players p with
      | some ⟨_, _, some r, _, _, n, _, _⟩ =>
          if (g.table r).fd = fd then [.numbered ⟨n + 1, b⟩] else []
      | _ => []
  | _ => []

theorem processReconnect_out (g : Gateway) (fd p token : Nat) (k : Int) :
    (g.processReconnect fd p token k).out = g.out ++
      match g.accepts fd p token with
      | some x => .write fd (.reconnect 0) ::
          (x.msgcache.filter (fun m => k < m.sendSeq)).map (fun m => .write fd (.numbered m))
      | none => [.write fd (.reconnect 1)] := by
  unfold processReconnect accepts
  cases g.conns fd with
  | none => rfl
  | some r =>
      cases g.players p with
      | none => rfl
      | some x =>
          by_cases hc : x.conn = none
          · by_cases ho : (g.table r).playerid = none
            · by_cases ht : token = x.token
              · simp [hc, ho, ht]
              · simp [hc, ho, ht]
            · simp [hc, ho]
          · simp [hc]

/-- Something is added to the log; the packets in it are known. -/
def Adds (g g' : Gateway) (w : Nat → List Packet) : Prop :=
  ∃ new, g'.out = g.out ++ new ∧ ∀ fd, packets fd new = w fd

theorem Adds.nothing {g g' : Gateway} (h : g'.out = g.out) : Adds g g' fun _ => [] :=
  ⟨[], by simpa using h, fun _ => rfl⟩

theorem Adds.other {g g' : Gateway} (a : Action) (h : g'.out = g.out ++ [a])
    (ha : ∀ fd, packets fd [a] = []) : Adds g g' fun _ => [] :=
  ⟨[a], h, ha⟩

theorem Adds.write {g g' : Gateway} (fd' : Nat) (pk : Packet)
    (h : g'.out = g.out ++ [.write fd' pk]) :
    Adds g g' fun fd => if fd' = fd then [pk] else [] := by
  refine ⟨_, h, fun fd => ?_⟩
  simp only [packets, List.filterMap_cons, List.filterMap_nil]
  split <;> simp_all

theorem processConnect_adds (g : Gateway) (fd : Nat) :
    Adds g (g.processConnect fd) fun _ => [] := by
  unfold processConnect
  split
  · exact .other (.close fd) rfl fun _ => rfl
  · exact .nothing rfl

theorem processMsg_adds (g : Gateway) (fd loginid : Nat) :
    Adds g (g.processMsg fd loginid) fun _ => [] := by
  unfold processMsg
  split
  · exact .nothing rfl
  · split
    · exact .other (.toLogin _ fd) rfl fun _ => rfl
    · split
      · exact .nothing rfl
      · rename_i x _
        exact .other (.toAgent x.agent) rfl fun _ => rfl

theorem processReconnect_adds (g : Gateway) (fd p token : Nat) (k : Int) :
    Adds g (g.processReconnect fd p token k)
      fun fd' => g.written fd' (.reconnect fd p token k) := by
  refine ⟨_, processReconnect_out g fd p token k, fun fd' => ?_⟩
  simp only [written]
  by_cases hfd : fd = fd'
  · subst hfd
    rw [if_pos rfl]
    cases g.accepts fd p token with
    | none => simp [packets]
    | some x =>
        refine Eq.trans ?_ (congrArg (Packet.reconnect 0 :: ·) (packets_map fd _))
        simp [packets]
  · rw [if_neg hfd]
    cases g.accepts fd p token with
    | none => simp [packets, hfd]
    | some x =>
        refine Eq.trans ?_ (packets_map_ne hfd (x.msgcache.filter (fun m => k < m.sendSeq)))
        simp [packets, hfd]

theorem disconnect_adds (g : Gateway) (h fd : Nat) :
    Adds g (g.disconnect h fd) fun _ => [] := by
  unfold Gateway.disconnect
  split
  · exact .nothing rfl
  · split
    · exact .other (.close fd) rfl fun _ => rfl
    · split
      · exact .other (.indexNil _) rfl fun _ => rfl
      · exact .other (.close fd) rfl fun _ => rfl

theorem send_adds (g : Gateway) (h p : Nat) (pack : Option Buff) :
    Adds g (g.send h p pack) fun fd => g.written fd (.send p pack) := by
  unfold send
  cases hx : g.players p with
  | none =>
      have : (fun fd => g.written fd (.send p pack)) = fun _ => [] := by
        funext fd
        cases pack <;> simp [written, hx]
      rw [this]
      exact .nothing rfl
  | some x =>
      cases pack with
      | none => exact .nothing rfl
      | some b =>
          obtain ⟨_, _, conn, _, _, n, _, _⟩ := x
          cases conn with
          | none =>
              simp only [sendBuff, written, hx]
              split <;> exact .nothing rfl
          | some r =>
              simp only [written, hx]
              exact .write (g.table r).fd _ rfl

theorem sureAgent_adds (g : Gateway) (h fd p a v token : Nat) :
    Adds g (g.sureAgent h fd p a v token) fun _ => [] := by
  unfold sureAgent
  split <;> exact .nothing rfl

theorem kick_adds (g : Gateway) (p : Nat) : Adds g (g.kick p) fun _ => [] := by
  unfold kick
  split
  · exact .nothing rfl
  · split
    · exact .nothing rfl
    · rename_i r _
      exact .other (.close (g.table r).fd) rfl fun _ => rfl

theorem resume_adds {g g' : Gateway} {h : Nat} {x : Handler} {a : Answer}
    (hs : g.resume h x a = some g') : Adds g g' fun _ => [] := by
  cases x with
  | confirmLost fd p =>
      cases a <;> simp only [resume, Option.some.injEq, reduceCtorEq] at hs <;> subst hs
      · exact .other (.sured fd p none) rfl fun _ => rfl
      · exact .nothing rfl
  | confirm fd p token =>
      rcases a with ⟨_ | _⟩ | _ | _ <;>
        simp only [resume, Option.some.injEq, reduceCtorEq] at hs <;> subst hs
      · exact ⟨[.close fd, .sured fd p none], by simp, fun _ => rfl⟩
      · exact .other (.sured fd p token) rfl fun _ => rfl
      · exact .nothing rfl
  | timer p ver v =>
      cases a <;> simp only [resume, Option.some.injEq, reduceCtorEq] at hs
      subst hs
      exact .nothing (timeout_out g h p ver v)
  | reqkick p v =>
      cases a <;> simp only [resume, Option.some.injEq, reduceCtorEq] at hs <;> subst hs
      · exact .nothing rfl
      · exact .nothing rfl

/-- An event only adds to the log, and the packets it adds are known. -/
theorem step_adds {g g' : Gateway} {e : Event} (hs : g.step e = some g') :
    Adds g g' fun fd => g.written fd e := by
  cases e with
  | connect fd =>
      simp only [step] at hs
      split at hs
      · cases hs
      · obtain rfl := Option.some.inj hs
        exact processConnect_adds g fd
  | message fd loginid =>
      obtain rfl := Option.some.inj hs
      exact processMsg_adds g fd loginid
  | reconnect fd p token k =>
      obtain rfl := Option.some.inj hs
      exact processReconnect_adds g fd p token k
  | disconnect fd =>
      obtain rfl := Option.some.inj hs
      exact disconnect_adds { g with nextHandler := g.nextHandler + 1 } _ fd
  | sendByFd fd buf =>
      obtain rfl := Option.some.inj hs
      exact .write fd (.direct buf) rfl
  | send p pack =>
      obtain rfl := Option.some.inj hs
      exact send_adds { g with nextHandler := g.nextHandler + 1 } _ p pack
  | sureAgent fd p a v token =>
      obtain rfl := Option.some.inj hs
      exact sureAgent_adds { g with nextHandler := g.nextHandler + 1 } _ fd p a v token
  | kick p =>
      obtain rfl := Option.some.inj hs
      exact kick_adds g p
  | shutdown =>
      obtain rfl := Option.some.inj hs
      exact .nothing rfl
  | resume h a =>
      simp only [step] at hs
      split at hs
      · cases hs
      · exact resume_adds hs

end Gateway

/-- What an event does to the numbers and the cache of a gateplayer that stays. -/
inductive Grown (x x' : GatePlayer) : Option Buff → Prop where
  | same (hseq : x'.sendSeq = x.sendSeq) (hcache : x'.msgcache = x.msgcache) : Grown x x' none
  | push (b : Buff) (hseq : x'.sendSeq = x.sendSeq + 1)
      (hcache : x'.msgcache = x.msgcache ++ [⟨x.sendSeq + 1, b⟩]) : Grown x x' (some b)
  | trim (b : Buff) (hfull : 500 < (x.msgcache ++ [(⟨x.sendSeq + 1, b⟩ : ABuff)]).length)
      (hseq : x'.sendSeq = x.sendSeq + 1)
      (hcache : x'.msgcache = (x.msgcache ++ [(⟨x.sendSeq + 1, b⟩ : ABuff)]).drop 1) :
      Grown x x' (some b)

theorem Grown.complete {x x' : GatePlayer} {s : Option Buff} (h : Grown x x' s)
    (hx : x.Complete) : x'.Complete := by
  cases h with
  | same hseq hcache => exact hx.of_eq hseq hcache
  | push b hseq hcache => exact hx.push hseq hcache
  | trim b hfull hseq hcache =>
      have hpush : ({ x with
          sendSeq := x.sendSeq + 1
          msgcache := x.msgcache ++ [⟨x.sendSeq + 1, b⟩] } : GatePlayer).Complete :=
        hx.push rfl rfl
      exact hpush.trim hfull hseq hcache

theorem Grown.sendSeq {x x' : GatePlayer} {s : Option Buff} (h : Grown x x' s) :
    x'.sendSeq = x.sendSeq + s.toList.length := by
  cases h with
  | same hseq _ => exact hseq
  | push _ hseq _ => exact hseq
  | trim _ _ hseq _ => exact hseq

/-- The event enters the player. -/
def Event.logsIn (p : Nat) : Event → Prop
  | .sureAgent _ q _ _ _ => q = p
  | _ => False

namespace Gateway

theorem send_grown {g : Gateway} {h p q : Nat} {b : Buff} {x' : GatePlayer}
    (hx' : (g.send h p (some b)).players q = some x') :
    ∃ x, g.players q = some x ∧ Grown x x' ((Event.send p (some b)).sentTo q) := by
  unfold send at hx'
  cases hx : g.players p with
  | none =>
      rw [hx] at hx'
      have hne : p ≠ q := by
        rintro rfl
        exact absurd (hx.symm.trans hx') (by simp)
      simp only [Event.sentTo, if_neg hne]
      exact ⟨x', hx', .same rfl rfl⟩
  | some x =>
      simp only [hx, sendBuff] at hx'
      by_cases hpq : q = p
      · subst hpq
        simp only [Event.sentTo, if_true]
        refine ⟨x, hx, ?_⟩
        split at hx'
        · split at hx' <;>
          · simp only [setHandler_players, setPlayer_players, if_true, Option.some.injEq] at hx'
            subst hx'
            exact .push b rfl rfl
        · simp only [emit_players, setPlayer_players, if_true, Option.some.injEq] at hx'
          subst hx'
          by_cases hfull : 500 < (x.msgcache ++ [(⟨x.sendSeq + 1, b⟩ : ABuff)]).length
          · exact .trim b hfull rfl (if_pos hfull)
          · exact .push b rfl (if_neg hfull)
      · simp only [Event.sentTo, if_neg (Ne.symm hpq)]
        refine ⟨x', ?_, .same rfl rfl⟩
        split at hx'
        · split at hx' <;> simpa [hpq] using hx'
        · simpa [hpq] using hx'

/-- The numbers and the cache of a player are unchanged. -/
def Steady (g g' : Gateway) (p : Nat) : Prop :=
  ∀ x', g'.players p = some x' →
    ∃ x, g.players p = some x ∧ x'.sendSeq = x.sendSeq ∧ x'.msgcache = x.msgcache

theorem Steady.of_eq {g g' : Gateway} {p : Nat} (h : g'.players p = g.players p) :
    Steady g g' p :=
  fun x' hx' => ⟨x', h ▸ hx', rfl, rfl⟩

/-- A gateplayer is replaced by one with the same numbers, or removed. -/
theorem Steady.set {g g' : Gateway} {p q : Nat} {v : Option GatePlayer}
    (h : g'.players p = if p = q then v else g.players p)
    (hv : ∀ x', v = some x' → ∃ x, g.players q = some x ∧ x'.sendSeq = x.sendSeq ∧
      x'.msgcache = x.msgcache) : Steady g g' p := by
  intro x' hx'
  rw [h] at hx'
  split at hx'
  · subst q
    exact hv x' hx'
  · exact ⟨x', hx', rfl, rfl⟩

theorem processReconnect_steady (g : Gateway) (fd q token : Nat) (k : Int) (p : Nat) :
    Steady g (g.processReconnect fd q token k) p := by
  unfold processReconnect
  split
  · exact .of_eq rfl
  · split
    · exact .of_eq rfl
    · rename_i x hx
      split
      · exact .of_eq rfl
      · split
        · exact .of_eq rfl
        · split
          · exact .of_eq rfl
          · refine .set (bind_players _ _ _ _ _ _ _) ?_
            rintro _ ⟨⟩
            exact ⟨x, hx, rfl, rfl⟩

theorem disconnect_steady (g : Gateway) (h fd p : Nat) : Steady g (g.disconnect h fd) p := by
  unfold Gateway.disconnect
  split
  · exact .of_eq rfl
  · split
    · exact .of_eq rfl
    · split
      · exact .of_eq rfl
      · rename_i x hx
        refine .set (setPlayer_players _ _ _ _) ?_
        rintro _ ⟨⟩
        exact ⟨x, hx, rfl, rfl⟩

theorem kick_steady (g : Gateway) (q p : Nat) : Steady g (g.kick q) p := by
  unfold kick
  split
  · exact .of_eq rfl
  · split <;> exact .set (setPlayer_players _ _ _ _) (by simp)

theorem resume_steady {g g' : Gateway} {h : Nat} {x : Handler} {a : Answer}
    (hs : g.resume h x a = some g') (p : Nat) : Steady g g' p := by
  cases x with
  | confirmLost fd q =>
      cases a <;> simp only [resume, Option.some.injEq, reduceCtorEq] at hs <;> subst hs
      · exact .of_eq rfl
      · exact .of_eq rfl
  | confirm fd q token =>
      rcases a with ⟨_ | _⟩ | _ | _ <;>
        simp only [resume, Option.some.injEq, reduceCtorEq] at hs <;> subst hs
      · exact .set (setPlayer_players _ _ _ _) (by simp)
      · exact .of_eq rfl
      · exact .of_eq rfl
  | timer q ver v =>
      cases a <;> simp only [resume, Option.some.injEq, reduceCtorEq] at hs
      subst hs
      exact .of_eq (timeout_players g h q ver v p)
  | reqkick q v =>
      cases a <;> simp only [resume, Option.some.injEq, reduceCtorEq] at hs <;> subst hs
      · exact .of_eq rfl
      · exact .of_eq rfl

/-- A gateplayer after an event is new, or the numbers and the cache have grown by the
message sent. -/
theorem step_grown {g g' : Gateway} {e : Event} (hs : g.step e = some g') (he : e.Packed)
    {p : Nat} {x' : GatePlayer} (hx' : g'.players p = some x') :
    (e.logsIn p ∧ x'.sendSeq = 0 ∧ x'.msgcache = []) ∨
      ∃ x, g.players p = some x ∧ Grown x x' (e.sentTo p) := by
  have hsteady : Steady g g' p → e.sentTo p = none →
      ∃ x, g.players p = some x ∧ Grown x x' (e.sentTo p) := by
    intro h hn
    obtain ⟨x, hx, hseq, hcache⟩ := h x' hx'
    exact ⟨x, hx, hn ▸ .same hseq hcache⟩
  cases e with
  | connect fd =>
      simp only [step] at hs
      split at hs
      · cases hs
      · obtain rfl := Option.some.inj hs
        refine .inr (hsteady (.of_eq ?_) rfl)
        unfold processConnect
        split <;> rfl
  | message fd loginid =>
      obtain rfl := Option.some.inj hs
      refine .inr (hsteady (.of_eq ?_) rfl)
      unfold processMsg
      split
      · rfl
      · split
        · rfl
        · split <;> rfl
  | reconnect fd q token k =>
      obtain rfl := Option.some.inj hs
      exact .inr (hsteady (processReconnect_steady g fd q token k p) rfl)
  | disconnect fd =>
      obtain rfl := Option.some.inj hs
      exact .inr (hsteady (disconnect_steady { g with nextHandler := _ } _ fd p) rfl)
  | sendByFd fd buf =>
      obtain rfl := Option.some.inj hs
      exact .inr (hsteady (.of_eq rfl) rfl)
  | send q pack =>
      obtain rfl := Option.some.inj hs
      cases pack with
      | none => exact absurd rfl (he q)
      | some b => exact .inr (send_grown (g := { g with nextHandler := g.nextHandler + 1 }) hx')
  | sureAgent fd q a v token =>
      obtain rfl := Option.some.inj hs
      by_cases hq : q = p
      · subst hq
        unfold sureAgent at hx'
        split at hx'
        · exact .inr ⟨x', hx', .same rfl rfl⟩
        · simp only [setHandler_players, setPlayer_players, if_true, Option.some.injEq] at hx'
          subst hx'
          exact .inl ⟨rfl, rfl, rfl⟩
      · refine .inr (hsteady (.of_eq ?_) rfl)
        unfold sureAgent
        split
        · rfl
        · simp [Ne.symm hq]
  | kick q =>
      obtain rfl := Option.some.inj hs
      exact .inr (hsteady (kick_steady g q p) rfl)
  | shutdown =>
      obtain rfl := Option.some.inj hs
      exact .inr (hsteady (.of_eq rfl) rfl)
  | resume h a =>
      simp only [step] at hs
      split at hs
      · cases hs
      · exact .inr (hsteady (resume_steady hs p) rfl)

end Gateway

/-- While every message can be packed, all caches are complete. -/
theorem Reach.complete {g : Gateway} (hr : Reach (fun _ e => e.Packed) g) {p : Nat}
    {x : GatePlayer} (hx : g.players p = some x) : x.Complete := by
  induction hr generalizing x with
  | start => cases hx
  | step _ he hs ih =>
      rcases Gateway.step_grown hs he hx with ⟨-, hseq, hcache⟩ | ⟨x, hx, hgrown⟩
      · exact GatePlayer.complete_new hseq hcache
      · exact hgrown.complete (ih hx)

/-! ## A bound socket -/

/-- A run from one state to another whose events meet a condition. -/
inductive Steps (ok : Gateway → Event → Prop) (g : Gateway) : List Event → Gateway → Prop where
  | nil : Steps ok g [] g
  | snoc {es : List Event} {e : Event} {g₁ g₂ : Gateway} (h : Steps ok g es g₁) (he : ok g₁ e)
      (hs : g₁.step e = some g₂) : Steps ok g (es ++ [e]) g₂

/-- The event is harmless, its message can be packed, the player does not log in anew and
the login service does not write to the socket. -/
structure Plain (fd p : Nat) (g : Gateway) (e : Event) : Prop where
  harmless : g.Harmless e
  packed : e.Packed
  old : ¬ e.logsIn p
  undirected : ∀ buf, e ≠ .sendByFd fd buf

/-- The socket has the conn table, and the player is bound to it. -/
structure Linked (g : Gateway) (fd r p : Nat) : Prop where
  conns : g.conns fd = some r
  bound : g.tables.bound p = some (some r)

namespace Linked

variable {g g' : Gateway} {fd r p : Nat} {e : Event}

/-- The player stays bound as long as the socket has its conn table. -/
theorem step (hl : Linked g fd r p) (hf : g.tables.Filed) (ha : g.tables.Agrees)
    (he : g.Harmless e) (hold : ¬ e.logsIn p) (hs : g.step e = some g')
    (hconns : g'.conns fd = some r) : Linked g' fd r p := by
  obtain ⟨hc, hb⟩ := hl
  have hfd := hf.fd fd r hc
  have hconns' : g'.tables.conns fd = some r := hconns
  refine ⟨hconns, ?_⟩
  cases Gateway.step_effect hs with
  | keep _ _ h => exact h ▸ hb
  | accept fd' _ h => exact h ▸ hb
  | enter fd' r' q _ _ _ _ h =>
      have hq : p ≠ q := fun hq => hold hq.symm
      rw [h, Tables.enter_bound, if_neg hq]
      exact hb
  | rebind fd' r' q _ _ _ _ hfree h =>
      have hq : p ≠ q := by
        rintro rfl
        exact absurd (hb.symm.trans hfree) (by simp)
      rw [h, Tables.enter_bound, if_neg hq]
      exact hb
  | lose fd' _ _ _ h => exact h ▸ hb
  | leave fd' r' q hr' ho h =>
      rw [h] at hconns' ⊢
      rw [Tables.free_bound]
      split
      · -- the player would be the one whose socket is closed
        subst p
        have := ha.conn fd' r' q hr' ho
        have := hf.fd fd' r' hr'
        grind
      · exact hb
  | forget q hfree h =>
      have hq : p ≠ q := by
        rintro rfl
        exact absurd (hb.symm.trans hfree) (by simp)
      rw [h, Tables.free_bound, if_neg hq]
      exact hb
  | evict q r' hb' h =>
      rw [h] at hconns' ⊢
      rw [Tables.free_bound]
      split
      · subst p
        grind
      · exact hb
  | refuse k fd' q token hh h =>
      rw [h] at hconns' ⊢
      rw [Tables.free_bound]
      split
      · subst p
        have := Gateway.here_iff.mp (he fd' q token hh).2 r hb
        grind
      · exact hb

/-- What an event writes to the socket: its message, if it is for the player, and refusals
of a {lit}`reconnect`. -/
theorem written (hl : Linked g fd r p) (hf : g.tables.Filed) (ha : g.tables.Agrees)
    (hdir : ∀ buf, e ≠ .sendByFd fd buf)
    {x : GatePlayer} (hx : g.players p = some x) :
    numbered (g.written fd e) = number x.sendSeq (e.sentTo p).toList ∧
      ∀ pk ∈ g.written fd e, pk = .reconnect 1 ∨ ∃ m, pk = .numbered m := by
  obtain ⟨hc, hb⟩ := hl
  obtain ⟨hfd, ho⟩ := ha.player p r hb
  cases e with
  | reconnect fd' q token k =>
      simp only [Gateway.written, Event.sentTo]
      split
      · have hrefused : g.accepts fd q token = none := by
          have ho' : (g.table r).playerid = some p := ho
          unfold Gateway.accepts
          split <;> simp_all
        rw [hrefused]
        exact ⟨rfl, by simp⟩
      · exact ⟨rfl, by simp⟩
  | sendByFd fd' buf =>
      have hne : fd' ≠ fd := by
        rintro rfl
        exact hdir buf rfl
      simp only [Gateway.written, if_neg hne]
      exact ⟨rfl, by simp⟩
  | send q pack =>
      cases pack with
      | none => exact ⟨rfl, by simp [Gateway.written]⟩
      | some b =>
          by_cases hq : q = p
          · subst hq
            obtain ⟨y, hy, hr⟩ := Gateway.tables_bound.mp hb
            obtain rfl := Option.some.inj (hx.symm.trans hy)
            obtain ⟨_, _, _, _, _, n, _, _⟩ := x
            subst hr
            have hfd' : (g.table r).fd = fd := hf.fd fd r hc
            simp only [Gateway.written, hx, if_pos hfd', Event.sentTo, if_true]
            exact ⟨rfl, by simp⟩
          · have hnone : g.written fd (.send q (some b)) = [] := by
              cases hy : g.players q with
              | none => simp [Gateway.written, hy]
              | some y =>
                  obtain ⟨_, _, conn, _, _, n, _, _⟩ := y
                  cases conn with
                  | none => simp [Gateway.written, hy]
                  | some r' =>
                      have hb' := ha.player q r' (Gateway.tables_bound.mpr ⟨_, hy, rfl⟩)
                      have hne : (g.table r').fd ≠ fd := by
                        intro h
                        have hr' : g.conns fd = some r' := h ▸ hb'.1
                        obtain rfl := Option.some.inj (hr'.symm.trans hc)
                        exact hq (Option.some.inj (hb'.2.symm.trans ho))
                      simp [Gateway.written, hy, hne]
            rw [hnone, Event.sentTo, if_neg hq]
            exact ⟨rfl, by simp⟩
  | _ => exact ⟨rfl, by simp [Gateway.written]⟩

theorem next_le (hs : g.step e = some g') : g.nextTable ≤ g'.nextTable := by
  have hgoal : g.tables.next ≤ g'.tables.next := by
    cases Gateway.step_effect hs with
    | accept fd' _ h =>
        rw [h, Tables.accept_next]
        exact Nat.le_succ _
    | keep _ _ h => exact h ▸ le_rfl
    | enter _ _ _ _ _ _ _ h => exact h ▸ le_rfl
    | rebind _ _ _ _ _ _ _ _ h => exact h ▸ le_rfl
    | lose _ _ _ _ h => exact h ▸ le_rfl
    | leave _ _ _ _ _ h => exact h ▸ le_rfl
    | forget _ _ h => exact h ▸ le_rfl
    | evict _ _ _ h => exact h ▸ le_rfl
    | refuse _ _ _ _ _ h => exact h ▸ le_rfl
  exact hgoal

/-- The conn table of a socket was there before an event, unless it is new. -/
theorem conns_of_step (hs : g.step e = some g') (hr : r < g.nextTable)
    (hc : g'.conns fd = some r) : g.conns fd = some r := by
  have hc' : g'.tables.conns fd = some r := hc
  have hr' : r < g.tables.next := hr
  have hgoal : g.tables.conns fd = some r := by
    cases Gateway.step_effect hs with
    | keep _ _ h => exact h ▸ hc'
    | accept fd' _ h => rw [h] at hc'; grind
    | enter _ _ _ _ _ _ _ h => rw [h] at hc'; exact hc'
    | rebind _ _ _ _ _ _ _ _ h => rw [h] at hc'; exact hc'
    | lose _ _ _ _ h => rw [h] at hc'; grind
    | leave _ _ _ _ _ h => rw [h] at hc'; grind
    | forget _ _ h => rw [h] at hc'; exact hc'
    | evict _ _ _ h => rw [h] at hc'; grind
    | refuse _ _ _ _ _ h => rw [h] at hc'; grind
  exact hgoal

theorem steps_next_le {ok : Gateway → Event → Prop} {es : List Event} (h : Steps ok g es g') :
    g.nextTable ≤ g'.nextTable := by
  induction h with
  | nil => exact le_rfl
  | snoc _ _ hs ih => exact ih.trans (next_le hs)

/-- What is written to a socket while it stays bound to a player. -/
theorem steps {g₁ g₂ : Gateway} {es : List Event} (hl : Linked g₁ fd r p)
    (hr : Reach Gateway.Harmless g₁) {x₁ : GatePlayer} (hx₁ : g₁.players p = some x₁)
    (h : Steps (Plain fd p) g₁ es g₂) (hopen : g₂.conns fd = some r) :
    Linked g₂ fd r p ∧ Reach Gateway.Harmless g₂ ∧
      ∃ x₂ tail, g₂.players p = some x₂ ∧ g₂.out = g₁.out ++ tail ∧
        x₂.sendSeq = x₁.sendSeq + (sentTo p es).length ∧
        numbered (packets fd tail) = number x₁.sendSeq (sentTo p es) ∧
        ∀ pk ∈ packets fd tail, pk = .reconnect 1 ∨ ∃ m, pk = .numbered m := by
  induction h with
  | nil => exact ⟨hl, hr, x₁, [], hx₁, by simp, rfl, rfl, by simp [packets]⟩
  | @snoc es e g₂ g₃ hsteps he hs ih =>
      have hfresh : r < g₂.nextTable :=
        (hr.agrees.1.fresh fd r hl.conns).trans_le (steps_next_le hsteps)
      obtain ⟨hl₂, hr₂, x₂, tail, hx₂, htail, hseq, hnum, hall⟩ :=
        ih (conns_of_step hs hfresh hopen)
      obtain ⟨hf, ha, -⟩ := hr₂.agrees
      have ha := Gateway.agrees_iff.mp ha
      have hl₃ := hl₂.step hf ha he.harmless he.old hs hopen
      obtain ⟨x₃, hx₃, -⟩ := Gateway.tables_bound.mp hl₃.bound
      have hgrown : Grown x₂ x₃ (e.sentTo p) := by
        rcases Gateway.step_grown hs he.packed hx₃ with ⟨hold, -⟩ | ⟨x, hx, hgrown⟩
        · exact absurd hold he.old
        · obtain rfl := Option.some.inj (hx₂.symm.trans hx)
          exact hgrown
      obtain ⟨new, hnew, hpackets⟩ := Gateway.step_adds hs
      obtain ⟨hwritten, hwall⟩ := hl₂.written hf ha he.undirected hx₂
      have hsent : sentTo p (es ++ [e]) = sentTo p es ++ (e.sentTo p).toList := by
        simp only [sentTo, List.filterMap_append, List.filterMap_cons, List.filterMap_nil]
        cases e.sentTo p <;> rfl
      refine ⟨hl₃, .step hr₂ he.harmless hs, x₃, tail ++ new, hx₃, ?_, ?_, ?_, ?_⟩
      · rw [hnew, htail, List.append_assoc]
      · rw [hgrown.sendSeq, hseq, hsent, List.length_append]
        omega
      · rw [packets_append, numbered_append, hnum, hpackets, hwritten, hsent, hseq]
        cases e.sentTo p with
        | none => simp [number]
        | some b =>
            rw [Option.toList_some, number_concat]
            rfl
      · intro pk hpk
        rw [packets_append, List.mem_append, hpackets] at hpk
        exact hpk.elim (hall pk) (hwall pk)

end Linked

/-! ## The replay -/

theorem Reach.mono {ok ok' : Gateway → Event → Prop} (h : ∀ g e, ok g e → ok' g e)
    {g : Gateway} (hr : Reach ok g) : Reach ok' g := by
  induction hr with
  | start => exact .start
  | step _ he hs ih => exact .step ih (h _ _ he) hs

theorem Gateway.processReconnect_of_accepts {g : Gateway} {fd p token : Nat} {x : GatePlayer}
    (h : g.accepts fd p token = some x) (k : Int) :
    ∃ r, g.conns fd = some r ∧ g.players p = some x ∧
      g.processReconnect fd p token k = g.bind fd r p x k := by
  unfold accepts at h
  split at h
  · rename_i r y hr hy
    split at h
    · rename_i hfree
      obtain rfl := Option.some.inj h
      obtain ⟨hc, ho, ht⟩ := hfree
      refine ⟨r, hr, hy, ?_⟩
      simp [processReconnect, hr, hy, hc, ho, ht]
    · cases h
  · cases h

/-- The player reconnects on the socket, and its cache still covers what it has not
acknowledged. -/
structure Reconnects (g₀ g₁ : Gateway) (fd p : Nat) (k : Int) (x₀ : GatePlayer) : Prop where
  player : g₀.players p = some x₀
  step : ∃ token, g₀.step (.reconnect fd p token k) = some g₁
  reply : ∃ rest, g₁.out = g₀.out ++ .write fd (.reconnect 0) :: rest
  low : (x₀.sendSeq : Int) - 500 ≤ k
  high : k ≤ x₀.sendSeq

/-- What {lit}`process_reconnect` has done when it replies with code 0. -/
theorem Reconnects.linked {g₀ g₁ : Gateway} {fd p : Nat} {k : Int} {x₀ : GatePlayer}
    (h : Reconnects g₀ g₁ fd p k x₀) : ∃ r, Linked g₁ fd r p ∧
      g₁.players p = some { x₀ with conn := some r } ∧
      g₁.out = g₀.out ++ .write fd (.reconnect 0) ::
        (x₀.msgcache.filter (fun m => k < m.sendSeq)).map (fun m => .write fd (.numbered m)) := by
  obtain ⟨token, hs⟩ := h.step
  obtain ⟨rest, hreply⟩ := h.reply
  obtain rfl := Option.some.inj hs
  have hout := Gateway.processReconnect_out g₀ fd p token k
  cases hacc : g₀.accepts fd p token with
  | none =>
      rw [hacc, hreply] at hout
      simp at hout
  | some x =>
      obtain ⟨r, hr, hx, hbind⟩ := Gateway.processReconnect_of_accepts hacc k
      obtain rfl := Option.some.inj (h.player.symm.trans hx)
      have hbound := Gateway.bind_tables g₀ fd r p x₀ k
      rw [hbind]
      refine ⟨r, ⟨hr, ?_⟩, by simp, rfl⟩
      rw [hbound, Tables.enter_bound, if_pos rfl]

/-- Every cache holds consecutive messages up to the last one and at least the last 500.
After a reconnect that the cache covers, the cached messages written to the socket are, as
long as it stays open, those after the acknowledged one, in order and each once; nothing
else is written to it but refusals of further reconnects. -/
theorem reconnect_replays :
    (∀ g, Reach (fun _ e => e.Packed) g → ∀ p x, g.players p = some x → x.Complete) ∧
    ∀ g₀ g₁ g₂ fd p k x₀ es r, Reach (fun g e => g.Harmless e ∧ e.Packed) g₀ →
      Reconnects g₀ g₁ fd p k x₀ → Steps (Plain fd p) g₁ es g₂ →
      g₁.conns fd = some r → g₂.conns fd = some r →
      ∃ x₂ tail, g₂.players p = some x₂ ∧
        g₂.out = g₀.out ++ .write fd (.reconnect 0) :: tail ∧
        (numbered (packets fd tail)).map (·.sendSeq) =
          List.range' (k.toNat + 1) (x₂.sendSeq - k.toNat) ∧
        numbered (packets fd tail) = x₀.msgcache.filter (fun m => k < m.sendSeq) ++
          number x₀.sendSeq (sentTo p es) ∧
        ∀ pk ∈ packets fd tail, pk = .reconnect 1 ∨ ∃ m, pk = .numbered m := by
  refine ⟨fun g hr p x hx => hr.complete hx, ?_⟩
  intro g₀ g₁ g₂ fd p k x₀ es r hr h hsteps hopen₁ hopen₂
  have hcomplete : x₀.Complete := (hr.mono fun _ _ he => he.2).complete h.player
  have hharmless : Reach Gateway.Harmless g₀ := hr.mono fun _ _ he => he.1
  obtain ⟨r', hl, hx₁, hout⟩ := h.linked
  obtain rfl := Option.some.inj (hopen₁.symm.trans hl.conns)
  obtain ⟨token, hs⟩ := h.step
  obtain ⟨-, -, x₂, tail, hx₂, htail, hseq, hnum, hall⟩ :=
    hl.steps (.step (e := .reconnect fd p token k) hharmless trivial hs) hx₁ hsteps hopen₂
  set replay := x₀.msgcache.filter (fun m => k < m.sendSeq) with hreplay
  have hnumbered : numbered (packets fd (replay.map (fun m => .write fd (.numbered m)) ++ tail)) =
      replay ++ number x₀.sendSeq (sentTo p es) := by
    rw [packets_append, packets_map, numbered_append, numbered_map, hnum]
  refine ⟨x₂, replay.map (fun m => .write fd (.numbered m)) ++ tail, hx₂, ?_, ?_, hnumbered, ?_⟩
  · rw [htail, hout, List.append_assoc, List.cons_append]
  · have hk : k.toNat ≤ x₀.sendSeq := Int.toNat_le.mpr h.high
    have hnext : x₀.sendSeq + 1 = k.toNat + 1 + (x₀.sendSeq - k.toNat) := by omega
    have hlast : x₂.sendSeq - k.toNat = x₀.sendSeq - k.toNat + (sentTo p es).length := by
      have : x₂.sendSeq = x₀.sendSeq + (sentTo p es).length := hseq
      omega
    rw [hnumbered, List.map_append, hcomplete.unacknowledged h.low h.high, number_map_sendSeq,
      hnext, List.range'_append_1, hlast]
  · intro pk hpk
    rw [packets_append, packets_map, List.mem_append] at hpk
    rcases hpk with hpk | hpk
    · obtain ⟨m, -, rfl⟩ := List.mem_map.mp hpk
      exact .inr ⟨m, rfl⟩
    · exact hall pk hpk

/-- Three messages, the second sent offline, with the first acknowledged. -/
theorem reconnect_replays_two : ∃ (g₀ g₂ : Gateway) (x₂ : GatePlayer) (tail : List Action),
    g₂.players 7 = some x₂ ∧ x₂.Complete ∧ g₂.out = g₀.out ++ .write 4 (.reconnect 0) :: tail ∧
    (numbered (packets 4 tail)).map (·.sendSeq) = [2, 3] := by
  have hsend : ∀ p b, (Event.send p (some b)).Packed := by
    intro p b q h
    cases h
  have hother : ∀ e : Event, (∀ p pack, e ≠ .send p pack) → e.Packed := fun e h p => h p none
  have hmine : (Gateway.start.processConnect 3).Mine 3 7 := by
    intro r q hc hq
    obtain rfl := Option.some.inj hc
    cases hq
  have hhere : (Gateway.start.processConnect 3).Here 3 7 := by
    intro x r hx
    cases hx
  have h₁ : Reach (fun g e => g.Harmless e ∧ e.Packed) _ :=
    .step (e := .connect 3) .start ⟨trivial, hother _ nofun⟩ rfl
  have h₂ := Reach.step (e := .sureAgent 3 7 20 1 99) h₁
    ⟨fun _ => ⟨hmine, hhere⟩, hother _ nofun⟩ rfl
  have h₃ := Reach.step (e := .resume 0 (.confirmed true)) h₂ ⟨trivial, hother _ nofun⟩ rfl
  have h₄ := Reach.step (e := .send 7 (some [1])) h₃ ⟨trivial, hsend _ _⟩ rfl
  have h₅ := Reach.step (e := .disconnect 3) h₄ ⟨trivial, hother _ nofun⟩ rfl
  have h₆ := Reach.step (e := .send 7 (some [2])) h₅ ⟨trivial, hsend _ _⟩ rfl
  have h₇ := Reach.step (e := .connect 4) h₆ ⟨trivial, hother _ nofun⟩ rfl
  have h₈ := Reach.step (e := .reconnect 4 7 99 1) h₇ ⟨trivial, hother _ nofun⟩ rfl
  have h₉ := Reach.step (e := .send 7 (some [3])) h₈ ⟨trivial, hsend _ _⟩ rfl
  obtain ⟨x₂, tail, hx₂, hout, hseqs, -⟩ := reconnect_replays.2 _ _ _ 4 7 1 _
    [.send 7 (some [3])] 1 h₇ ⟨rfl, ⟨99, rfl⟩, ⟨_, rfl⟩, by decide, by decide⟩
    (.snoc (e := .send 7 (some [3])) .nil ⟨trivial, hsend _ _, id, nofun⟩ rfl) rfl rfl
  have hx : x₂.sendSeq = 3 := by
    obtain rfl := Option.some.inj hx₂
    rfl
  rw [hx] at hseqs
  exact ⟨_, _, x₂, tail, hx₂, reconnect_replays.1 _ (h₉.mono fun _ _ he => he.2) 7 x₂ hx₂, hout,
    hseqs⟩

end BallServer.Gate
