import BallServer.Agent.FriendSymmetry
import Mathlib.Logic.Relation

/-!
# Limits of friendship

A player has at most fifty friends and at most twenty requests to answer.  A transaction
counts the rows of both players and writes later.  The counts are still good then: it has
locked both players, only a transaction that has locked a player gives it a new row, and
everything else deletes rows.

A transaction locks the smaller player first.  So one that waits while it has locked
somebody waits for a larger player, and a chain of waiting transactions never comes back.

Main results:

- Theorem {lit}`Friends.step_effect`: what a step does to the table and to the handlers.
- Theorem {lit}`friends_limited`: in every run the limits hold and no transactions wait for
  each other in a cycle.
-/

namespace BallServer.Agent.Friend

/-- The number of rows of a player with a status. -/
def number (rows : List Row) (playerid status : Nat) : Nat :=
  count (rowsOf rows playerid) status

/-- No player has more than 50 friends or 20 requests to answer. -/
def Limited (rows : List Row) : Prop :=
  ∀ p, number rows p 1 ≤ 50 ∧ number rows p 0 ≤ 20

/-! ## Counting -/

theorem number_append (rows rows' : List Row) (p st : Nat) :
    number (rows ++ rows') p st = number rows p st + number rows' p st := by
  simp [number, count, rowsOf]

theorem number_singleton (r : Row) (p st : Nat) :
    number [r] p st = if r.playerid = p ∧ r.status = st then 1 else 0 := by
  unfold number count rowsOf
  by_cases hp : r.playerid = p <;> by_cases hst : r.status = st <;> simp [hp, hst]

theorem number_sublist {rows rows' : List Row} (h : rows'.Sublist rows) (p st : Nat) :
    number rows' p st ≤ number rows p st :=
  ((h.filter _).filter _).length_le

theorem deleteKey_sublist (rows : List Row) (p q : Nat) : (deleteKey rows p q).Sublist rows :=
  List.filter_sublist

/-- The new row counts, the one it replaces does not. -/
theorem number_replaceRow_le (rows : List Row) (r : Row) (p st : Nat) :
    number (replaceRow rows r) p st ≤
      number rows p st + if r.playerid = p ∧ r.status = st then 1 else 0 := by
  unfold replaceRow
  rw [number_append, number_singleton]
  exact Nat.add_le_add_right (number_sublist (deleteKey_sublist _ _ _) p st) _

/-- A row that is replaced by an equal one counts once. -/
theorem number_replaceRow_self_le (rows : List Row) (r : Row) (p st : Nat) :
    number (replaceRow (replaceRow rows r) r) p st ≤
      number rows p st + if r.playerid = p ∧ r.status = st then 1 else 0 := by
  have hdelete : deleteKey (replaceRow rows r) r.playerid r.friendid =
      deleteKey (deleteKey rows r.playerid r.friendid) r.playerid r.friendid := by
    simp [replaceRow, deleteKey]
  rw [replaceRow, hdelete, number_append, number_singleton]
  refine Nat.add_le_add_right (number_sublist ?_ p st) _
  exact (deleteKey_sublist _ _ _).trans (deleteKey_sublist _ _ _)

/-- A friendship counts once for each of the two players, and as a friendship only. -/
theorem number_accepted_le (rows : List Row) (a b p st : Nat) :
    number (Write.accepted.apply rows a b) p st ≤
      number rows p st + if (p = a ∨ p = b) ∧ st = 1 then 1 else 0 := by
  unfold Write.apply
  by_cases hab : a = b
  · subst hab
    have h := number_replaceRow_self_le rows ⟨a, a, 1⟩ p st
    grind
  · have h₁ := number_replaceRow_le rows ⟨a, b, 1⟩ p st
    have h₂ := number_replaceRow_le (replaceRow rows ⟨a, b, 1⟩) ⟨b, a, 1⟩ p st
    grind

/-- A request counts for its target. -/
theorem number_pending (rows : List Row) (a b p st : Nat) :
    number (Write.pending.apply rows a b) p st =
      number rows p st + if p = b ∧ st = 0 then 1 else 0 := by
  unfold Write.apply
  rw [number_append, number_singleton]
  grind

/-! ## What a step does -/

/-- The write a transaction has decided on. -/
def Handler.Decides (x : Handler) (selfRows targetRows : List Row) (w : Write) : Prop :=
  decideAdd x.self x.target selfRows targetRows = .ok w ∨
    decideAccept x.self x.target selfRows targetRows = .ok w

/-- How a handler goes on. -/
inductive Goes (s : Friends) (h : Nat) (x : Handler) : Handler → Prop where
  | begins (hst : x.stage = .beginning) : Goes s h x { x with stage := .lockingFirst }
  | locksFirst (hst : x.stage = .lockingFirst) (hfree : s.lockedBy h x.first = false) :
      Goes s h x { x with stage := .lockingSecond, locks := x.first :: x.locks }
  | locksSecond (hst : x.stage = .lockingSecond) (hfree : s.lockedBy h x.second = false) :
      Goes s h x { x with stage := .readingFirst, locks := x.second :: x.locks }
  | readsFirst (hst : x.stage = .readingFirst) :
      Goes s h x { x with
        stage := .readingSecond (rowsOf s.rows x.first)
        read := x.first :: x.read }
  | decides {firstRows : List Row} {w : Write} (hst : x.stage = .readingSecond firstRows)
      (hw : x.Decides (if x.first = x.self then firstRows else rowsOf s.rows x.second)
        (if x.first = x.self then rowsOf s.rows x.second else firstRows) w) :
      Goes s h x { x with stage := .writing w, read := x.second :: x.read }
  | writes {w : Write} (hst : x.stage = .writing w) : Goes s h x { x with stage := .committing w }
  | loses {w : Write} (hst : x.stage = .committing w) :
      Goes s h x { x with stage := .abandoned (some w) }
  | rollsBack (err : String) (read : List Nat) :
      Goes s h x { x with stage := .rollingBack err, read := read }
  | abandons (read : List Nat) : Goes s h x { x with stage := .abandoned none, read := read }

namespace Friends

/-- What a step does to the table and to the handlers. -/
inductive Effect (s s' : Friends) : Prop where
  /-- The copies of the agents change, or a request is refused. -/
  | idle (hrows : s'.rows = s.rows) (hhandlers : s'.handlers = s.handlers)
      (hcalls : s.calls ≤ s'.calls)
  /-- A request is taken up. -/
  | starts (x : Handler) (hlocks : x.locks = [])
      (hst : x.stage = .beginning ∨ x.stage = .deleting) (hrows : s'.rows = s.rows)
      (hhandlers : s'.handlers = Function.update s.handlers s.calls (some x))
      (hcalls : s.calls < s'.calls)
  | goes (h : Nat) (x x' : Handler) (hh : s.handlers h = some x) (hgoes : Goes s h x x')
      (hrows : s'.rows = s.rows) (hhandlers : s'.handlers = Function.update s.handlers h (some x'))
      (hcalls : s'.calls = s.calls)
  | commits (h : Nat) (x : Handler) (w : Write) (hh : s.handlers h = some x)
      (hst : x.stage = .committing w ∨ x.stage = .abandoned (some w))
      (hrows : s'.rows = w.apply s.rows x.self x.target)
      (hhandlers : s'.handlers = Function.update s.handlers h none) (hcalls : s'.calls = s.calls)
  /-- A request is over, and it may have deleted rows. -/
  | ends (h : Nat) (hrows : s'.rows.Sublist s.rows)
      (hhandlers : s'.handlers = Function.update s.handlers h none) (hcalls : s'.calls = s.calls)

variable {s s' : Friends}

/-- The copies of the agents and the messages do not matter. -/
theorem Effect.of_same {s₁ s₂ : Friends} (h : Effect s s₁) (hsame : Same s₁ s₂) :
    Effect s s₂ := by
  obtain ⟨hr, hh, hc⟩ := hsame
  cases h with
  | idle hrows hhandlers hcalls =>
      exact .idle (hr.trans hrows) (hh.trans hhandlers) (hc ▸ hcalls)
  | starts x hlocks hst hrows hhandlers hcalls =>
      exact .starts x hlocks hst (hr.trans hrows) (hh.trans hhandlers) (hc ▸ hcalls)
  | goes h x x' hx hgoes hrows hhandlers hcalls =>
      exact .goes h x x' hx hgoes (hr.trans hrows) (hh.trans hhandlers) (hc.trans hcalls)
  | commits h x w hx hst hrows hhandlers hcalls =>
      exact .commits h x w hx hst (hr.trans hrows) (hh.trans hhandlers) (hc.trans hcalls)
  | ends h hrows hhandlers hcalls =>
      exact .ends h (hr ▸ hrows) (hh.trans hhandlers) (hc.trans hcalls)

theorem effect_goOn {h : Nat} {x x' : Handler} (hh : s.handlers h = some x)
    (hgoes : Goes s h x x') : Effect s (s.goOn h x') :=
  .goes h x x' hh hgoes rfl rfl rfl

theorem effect_ended (h : Nat) : Effect s (s.ended h) :=
  .ends h (List.Sublist.refl _) rfl rfl

/-- The rows are read. -/
theorem decided_effect {h : Nat} {x : Handler} {firstRows : List Row}
    (hh : s.handlers h = some x) (hst : x.stage = .readingSecond firstRows) :
    Effect s (s.decided h x firstRows) := by
  unfold decided
  dsimp only
  split
  · split
    next w hw => exact effect_goOn hh (.decides hst (.inl hw))
    next err hw => exact effect_goOn hh (.rollsBack err _)
  · split
    next w hw => exact effect_goOn hh (.decides hst (.inr hw))
    next err hw => exact effect_goOn hh (.rollsBack err _)
    next => exact (effect_goOn hh (.abandons _)).of_same (same_fails ..)

/-- A statement succeeds. -/
theorem executed_effect {h : Nat} {x : Handler} {online : Bool} (hh : s.handlers h = some x)
    (he : s.executed h x online = some s') : Effect s s' := by
  unfold executed at he
  cases hst : x.stage with
  | beginning =>
      simp only [hst, Option.some.injEq] at he
      subst he
      exact effect_goOn hh (.begins hst)
  | lockingFirst =>
      simp only [hst] at he
      split at he
      next => cases he
      next hfree =>
        obtain rfl := Option.some.inj he
        exact effect_goOn hh (.locksFirst hst (by simpa using hfree))
  | lockingSecond =>
      simp only [hst] at he
      split at he
      next => cases he
      next hfree =>
        obtain rfl := Option.some.inj he
        exact effect_goOn hh (.locksSecond hst (by simpa using hfree))
  | readingFirst =>
      simp only [hst, Option.some.injEq] at he
      subst he
      exact effect_goOn hh (.readsFirst hst)
  | readingSecond firstRows =>
      simp only [hst, Option.some.injEq] at he
      subst he
      exact decided_effect hh hst
  | writing w =>
      cases w with
      | accepted =>
          simp only [hst, Option.some.injEq] at he
          subst he
          exact effect_goOn hh (.writes hst)
      | pending =>
          simp only [hst] at he
          split at he
          · obtain rfl := Option.some.inj he
            exact effect_goOn hh (.rollsBack _ _)
          · obtain rfl := Option.some.inj he
            exact effect_goOn hh (.writes hst)
  | committing w =>
      simp only [hst, Option.some.injEq] at he
      subst he
      refine Effect.of_same ?_ (same_succeeds ..)
      exact .commits h x w hh (.inl hst) rfl rfl rfl
  | rollingBack err =>
      simp only [hst, Option.some.injEq] at he
      subst he
      exact (effect_ended h).of_same (same_fails ..)
  | deleting =>
      simp only [hst] at he
      split at he
      · split at he
        next => cases he
        next =>
          obtain rfl := Option.some.inj he
          refine Effect.of_same (Effect.of_same ?_ (same_notify x false online))
            (same_reply h 0 _)
          exact .ends h ((deleteKey_sublist _ _ _).trans (deleteKey_sublist _ _ _)) rfl rfl
      · split at he
        next => cases he
        next =>
          obtain rfl := Option.some.inj he
          refine Effect.of_same ?_ (same_reply h 0 _)
          exact .ends h (deleteKey_sublist _ _ _) rfl rfl
  | abandoned w => simp [hst] at he

/-- A statement fails. -/
theorem failed_effect {h : Nat} {x : Handler} (hh : s.handlers h = some x)
    (he : s.failed h x = some s') : Effect s s' := by
  unfold failed at he
  cases hst : x.stage with
  | beginning =>
      simp only [hst, Option.some.injEq] at he
      subst he
      exact (effect_ended h).of_same (same_fails ..)
  | deleting =>
      simp only [hst, Option.some.injEq] at he
      subst he
      exact (effect_ended h).of_same (same_fails ..)
  | committing w =>
      simp only [hst, Option.some.injEq] at he
      subst he
      exact (effect_goOn hh (.loses hst)).of_same (same_fails ..)
  | rollingBack err =>
      simp only [hst, Option.some.injEq] at he
      subst he
      exact (effect_goOn hh (.abandons _)).of_same (same_fails ..)
  | abandoned w => simp [hst] at he
  | _ =>
      simp only [hst, Option.some.injEq] at he
      subst he
      exact effect_goOn hh (.rollsBack _ _)

/-- A request is refused from the copy in memory, or taken up. -/
theorem call_effect (op : Op) (self target : Nat) :
    Effect s (({ s with calls := s.calls + 1 } : Friends).call s.calls op self target) := by
  have hlt : s.calls < s.calls + 1 := Nat.lt_succ_self _
  unfold call
  cases op with
  | add =>
      dsimp only
      split
      · exact .idle rfl rfl (Nat.le_succ _)
      · split
        · exact .idle rfl rfl (Nat.le_succ _)
        · exact .starts ⟨.add, self, target, .beginning, [], []⟩ rfl (.inl rfl) rfl rfl hlt
  | accept =>
      dsimp only
      split
      · exact .idle rfl rfl (Nat.le_succ _)
      · exact .starts ⟨.accept, self, target, .beginning, [], []⟩ rfl (.inl rfl) rfl rfl hlt
  | delete =>
      dsimp only
      split
      · exact .idle rfl rfl (Nat.le_succ _)
      · exact .starts ⟨.delete, self, target, .deleting, [], []⟩ rfl (.inr rfl) rfl rfl hlt
  | reject =>
      dsimp only
      split
      · exact .idle rfl rfl (Nat.le_succ _)
      · exact .starts ⟨.reject, self, target, .deleting, [], []⟩ rfl (.inr rfl) rfl rfl hlt

/-- What a step does. -/
theorem step_effect {e : Event} (h : s.step e = some s') : Effect s s' := by
  cases e with
  | call op self target =>
      obtain rfl := Option.some.inj h
      exact call_effect op self target
  | answer k ok online =>
      simp only [step] at h
      split at h
      next => cases h
      next x hx =>
        cases ok with
        | true => exact executed_effect hx h
        | false => exact failed_effect hx h
  | settle k commit =>
      simp only [step] at h
      split at h
      next op self target w locks read hx =>
        split at h
        next w =>
          obtain rfl := Option.some.inj h
          exact .commits k _ w hx (.inr rfl) rfl rfl rfl
        next =>
          obtain rfl := Option.some.inj h
          exact effect_ended k
      next => cases h
  | deliver i =>
      simp only [step] at h
      split at h
      next => cases h
      next m _ =>
        obtain rfl := Option.some.inj h
        refine Effect.of_same ?_ (same_notified m)
        exact .idle rfl rfl (Nat.le_refl _)
  | load p =>
      obtain rfl := Option.some.inj h
      exact .idle rfl rfl (Nat.le_refl _)

end Friends

/-! ## What a transaction has counted -/

/-- The players that are locked have no new rows. -/
def NoMore (rows rows' : List Row) (locks : List Nat) : Prop :=
  ∀ p ∈ locks, ∀ st, number rows' p st ≤ number rows p st

/-- There is room for what a transaction is about to write. -/
def Room (rows : List Row) (x : Handler) : Write → Prop
  | .accepted => number rows x.self 1 < 50 ∧ number rows x.target 1 < 50
  | .pending => number rows x.target 0 < 20

/-- What a handler has locked and counted. -/
def Counted (rows : List Row) (x : Handler) : Prop :=
  match x.stage with
  | .beginning => x.locks = []
  | .lockingFirst => x.locks = []
  | .lockingSecond => x.locks = [x.first]
  | .readingFirst => x.Both
  | .readingSecond firstRows =>
      x.Both ∧ ∀ st, number rows x.first st ≤ count firstRows st
  | .writing w => x.Both ∧ Room rows x w
  | .committing w => x.Both ∧ Room rows x w
  | .abandoned (some w) => x.Both ∧ Room rows x w
  | _ => True

theorem Room.mono {rows rows' : List Row} {x : Handler} {w : Write} (h : Room rows x w)
    (hboth : x.Both) (hmore : NoMore rows rows' x.locks) : Room rows' x w := by
  cases w with
  | accepted =>
      exact ⟨Nat.lt_of_le_of_lt (hmore _ hboth.1 1) h.1,
        Nat.lt_of_le_of_lt (hmore _ hboth.2 1) h.2⟩
  | pending => exact Nat.lt_of_le_of_lt (hmore _ hboth.2 0) h

theorem first_mem_locks {x : Handler} (h : x.Both) : x.first ∈ x.locks := by
  rcases first_second x with ⟨hf, -⟩ | ⟨hf, -⟩
  · exact hf ▸ h.1
  · exact hf ▸ h.2

theorem Counted.mono {rows rows' : List Row} {x : Handler} (h : Counted rows x)
    (hmore : NoMore rows rows' x.locks) : Counted rows' x := by
  unfold Counted at h ⊢
  split at h
  · exact h
  · exact h
  · exact h
  · exact h
  · exact ⟨h.1, fun st => Nat.le_trans (hmore _ (first_mem_locks h.1) st) (h.2 st)⟩
  · exact ⟨h.1, h.2.mono h.1 hmore⟩
  · exact ⟨h.1, h.2.mono h.1 hmore⟩
  · exact ⟨h.1, h.2.mono h.1 hmore⟩
  · trivial

/-- A write is decided on only if the rows that were read leave room for it. -/
theorem decideAdd_room {self target : Nat} {selfRows targetRows : List Row} {w : Write}
    (h : decideAdd self target selfRows targetRows = .ok w) :
    match w with
    | .accepted => count selfRows 1 < 50 ∧ count targetRows 1 < 50
    | .pending => count targetRows 0 < 20 := by
  unfold decideAdd at h
  split at h
  next => cases h
  next =>
    split at h
    next =>
      split at h
      next => cases h
      next hself =>
        split at h
        next => cases h
        next htarget =>
          cases h
          exact ⟨Nat.lt_of_not_le hself, Nat.lt_of_not_le htarget⟩
    next =>
      split at h
      next => cases h
      next =>
        split at h
        next => cases h
        next =>
          split at h
          next => cases h
          next hcapacity =>
            cases h
            unfold checkTargetCapacity at hcapacity
            split at hcapacity
            next => cases hcapacity
            next =>
              split at hcapacity
              next => cases hcapacity
              next htarget => exact Nat.lt_of_not_le htarget

theorem decideAccept_room {self target : Nat} {selfRows targetRows : List Row} {w : Write}
    (h : decideAccept self target selfRows targetRows = .ok w) :
    count selfRows 1 < 50 ∧ count targetRows 1 < 50 := by
  unfold decideAccept at h
  split at h
  next => cases h
  next =>
    split at h
    next => cases h
    next =>
      split at h
      next => cases h
      next hself =>
        split at h
        next => cases h
        next htarget => exact ⟨Nat.lt_of_not_le hself, Nat.lt_of_not_le htarget⟩

/-- The rows that were read, first or second, have as many rows of the players as the table
has now. -/
theorem Handler.Decides.room {rows firstRows : List Row} {x : Handler} {w : Write}
    (h : x.Decides (if x.first = x.self then firstRows else rowsOf rows x.second)
      (if x.first = x.self then rowsOf rows x.second else firstRows) w)
    (hfirst : ∀ st, number rows x.first st ≤ count firstRows st) : Room rows x w := by
  have hself : ∀ st, number rows x.self st ≤
      count (if x.first = x.self then firstRows else rowsOf rows x.second) st := by
    intro st
    split
    next hf => exact hf ▸ hfirst st
    next hf =>
      rcases first_second x with ⟨hf', -⟩ | ⟨-, hs⟩
      · exact absurd hf' hf
      · rw [hs]
        exact Nat.le_refl _
  have htarget : ∀ st, number rows x.target st ≤
      count (if x.first = x.self then rowsOf rows x.second else firstRows) st := by
    intro st
    rcases first_second x with ⟨hf, hs⟩ | ⟨hf, hs⟩
    · rw [if_pos hf, hs]
      exact Nat.le_refl _
    · split
      next hsame =>
        rw [hs, ← hsame, hf]
        exact Nat.le_refl _
      next => exact hf ▸ hfirst st
  rcases h with h | h
  · have hroom := decideAdd_room h
    cases w with
    | accepted =>
        exact ⟨Nat.lt_of_le_of_lt (hself 1) hroom.1, Nat.lt_of_le_of_lt (htarget 1) hroom.2⟩
    | pending => exact Nat.lt_of_le_of_lt (htarget 0) hroom
  · have hroom := decideAccept_room h
    obtain rfl := decideAccept_accepted h
    exact ⟨Nat.lt_of_le_of_lt (hself 1) hroom.1, Nat.lt_of_le_of_lt (htarget 1) hroom.2⟩

/-- A write keeps the limits when there is room for it. -/
theorem Limited.apply {rows : List Row} (h : Limited rows) {x : Handler} {w : Write}
    (hroom : Room rows x w) : Limited (w.apply rows x.self x.target) := by
  intro p
  have hp := h p
  cases w with
  | accepted =>
      have h₁ := number_accepted_le rows x.self x.target p 1
      have h₀ := number_accepted_le rows x.self x.target p 0
      have hself := hroom.1
      have htarget := hroom.2
      grind
  | pending =>
      have h₁ := number_pending rows x.self x.target p 1
      have h₀ := number_pending rows x.self x.target p 0
      have htarget : number rows x.target 0 < 20 := hroom
      grind

/-- Other players get new rows. -/
theorem noMore_apply {rows : List Row} {a b : Nat} {locks : List Nat} (w : Write)
    (ha : a ∉ locks) (hb : b ∉ locks) : NoMore rows (w.apply rows a b) locks := by
  intro p hp st
  have hpa : p ≠ a := fun h => ha (h ▸ hp)
  have hpb : p ≠ b := fun h => hb (h ▸ hp)
  cases w with
  | accepted => simpa [hpa, hpb] using number_accepted_le rows a b p st
  | pending =>
      rw [number_pending, if_neg fun h => hpb h.1]
      exact Nat.le_refl _

namespace Friends

/-! ## Every run -/

/-- What holds in every run. -/
structure Fits (s : Friends) : Prop where
  limited : Limited s.rows
  fresh : ∀ h x, s.handlers h = some x → h < s.calls
  locks : ∀ h k x y p, s.handlers h = some x → s.handlers k = some y → p ∈ x.locks →
    p ∈ y.locks → h = k
  counted : ∀ h x, s.handlers h = some x → Counted s.rows x

theorem start_fits {rows : List Row} (h : Limited rows) : (start rows).Fits := by
  refine ⟨h, fun k x hk => ?_, fun k _ x _ _ hk => ?_, fun k x hk => ?_⟩ <;> cases hk

variable {s s' : Friends}

/-- Nobody else has locked a player that is free. -/
theorem Fits.not_locked (hs : s.Fits) {h p : Nat} (hfree : s.lockedBy h p = false) :
    ∀ k y, k ≠ h → s.handlers k = some y → p ∉ y.locks := by
  intro k y hkh hk hp
  have hany := List.any_eq_false.mp hfree k (List.mem_range.mpr (hs.fresh k y hk))
  simp [hkh, hk, hp] at hany

/-- A handler that goes on has counted what it relies on, and has locked what was free. -/
theorem Fits.goes (hs : s.Fits) {h : Nat} {x x' : Handler} (hh : s.handlers h = some x)
    (hgoes : Goes s h x x') :
    Counted s.rows x' ∧ ∀ p ∈ x'.locks, ∀ k y, k ≠ h → s.handlers k = some y → p ∉ y.locks := by
  have hcounted := hs.counted h x hh
  have hmine : ∀ p ∈ x.locks, ∀ k y, k ≠ h → s.handlers k = some y → p ∉ y.locks :=
    fun p hp k y hkh hk hpk => hkh (hs.locks k h y x p hk hh hpk hp)
  cases hgoes with
  | begins hst =>
      simp only [Counted, hst] at hcounted
      exact ⟨hcounted, hmine⟩
  | locksFirst hst hfree =>
      simp only [Counted, hst] at hcounted
      refine ⟨?_, List.forall_mem_cons.mpr ⟨hs.not_locked hfree, hmine⟩⟩
      simp only [Counted, hcounted]
      rfl
  | locksSecond hst hfree =>
      simp only [Counted, hst] at hcounted
      refine ⟨?_, List.forall_mem_cons.mpr ⟨hs.not_locked hfree, hmine⟩⟩
      refine both_of_locks (List.mem_cons_of_mem _ ?_) (List.mem_cons_self ..)
      rw [hcounted]
      exact List.mem_singleton.mpr rfl
  | readsFirst hst =>
      simp only [Counted, hst] at hcounted
      exact ⟨⟨hcounted, fun st => Nat.le_refl _⟩, hmine⟩
  | decides hst hw =>
      simp only [Counted, hst] at hcounted
      exact ⟨⟨hcounted.1, hw.room hcounted.2⟩, hmine⟩
  | writes hst =>
      simp only [Counted, hst] at hcounted
      exact ⟨hcounted, hmine⟩
  | loses hst =>
      simp only [Counted, hst] at hcounted
      exact ⟨hcounted, hmine⟩
  | rollsBack err read => exact ⟨trivial, hmine⟩
  | abandons read => exact ⟨trivial, hmine⟩

/-- What was counted when the handlers change in one place. -/
theorem Fits.update (hs : s.Fits) {h : Nat} {x : Handler} (hrows : s'.rows = s.rows)
    (hhandlers : s'.handlers = Function.update s.handlers h (some x)) (hlt : h < s'.calls)
    (hcalls : s.calls ≤ s'.calls) (hcounted : Counted s.rows x)
    (hlocks : ∀ p ∈ x.locks, ∀ k y, k ≠ h → s.handlers k = some y → p ∉ y.locks) :
    s'.Fits := by
  have hcases : ∀ k y, s'.handlers k = some y →
      k = h ∧ y = x ∨ k ≠ h ∧ s.handlers k = some y := by
    intro k y hk
    rw [hhandlers, Function.update_apply] at hk
    split at hk
    next hkh => exact .inl ⟨hkh, (Option.some.inj hk).symm⟩
    next hkh => exact .inr ⟨hkh, hk⟩
  refine ⟨?_, fun k y hk => ?_, fun k j y z p hk hj hy hz => ?_, fun k y hk => ?_⟩
  · rw [hrows]
    exact hs.limited
  · rcases hcases k y hk with ⟨rfl, -⟩ | ⟨-, hk⟩
    · exact hlt
    · exact Nat.lt_of_lt_of_le (hs.fresh k y hk) hcalls
  · rcases hcases k y hk with ⟨rfl, rfl⟩ | ⟨hkh, hk'⟩
    · rcases hcases j z hj with ⟨rfl, -⟩ | ⟨hjh, hj'⟩
      · rfl
      · exact absurd hz (hlocks p hy j z hjh hj')
    · rcases hcases j z hj with ⟨rfl, rfl⟩ | ⟨hjh, hj'⟩
      · exact absurd hy (hlocks p hz k y hkh hk')
      · exact hs.locks k j y z p hk' hj' hy hz
  · rw [hrows]
    rcases hcases k y hk with ⟨-, rfl⟩ | ⟨-, hk⟩
    · exact hcounted
    · exact hs.counted k y hk

/-- A handler is over, and the table changes. -/
theorem Fits.ended (hs : s.Fits) {h : Nat} (hlimited : Limited s'.rows)
    (hhandlers : s'.handlers = Function.update s.handlers h none) (hcalls : s'.calls = s.calls)
    (hmore : ∀ k y, k ≠ h → s.handlers k = some y → NoMore s.rows s'.rows y.locks) :
    s'.Fits := by
  have hcases : ∀ k y, s'.handlers k = some y → k ≠ h ∧ s.handlers k = some y := by
    intro k y hk
    rw [hhandlers, Function.update_apply] at hk
    split at hk
    next => cases hk
    next hkh => exact ⟨hkh, hk⟩
  refine ⟨hlimited, fun k y hk => ?_, fun k j y z p hk hj => ?_, fun k y hk => ?_⟩
  · rw [hcalls]
    exact hs.fresh k y (hcases k y hk).2
  · exact hs.locks k j y z p (hcases k y hk).2 (hcases j z hj).2
  · obtain ⟨hkh, hk⟩ := hcases k y hk
    exact (hs.counted k y hk).mono (hmore k y hkh hk)

/-- One step. -/
theorem Fits.effect (hs : s.Fits) (he : Effect s s') : s'.Fits := by
  cases he with
  | idle hrows hhandlers hcalls =>
      refine ⟨?_, fun k x hk => ?_, ?_, ?_⟩
      · rw [hrows]
        exact hs.limited
      · rw [hhandlers] at hk
        exact Nat.lt_of_lt_of_le (hs.fresh k x hk) hcalls
      · rw [hhandlers]
        exact hs.locks
      · rw [hhandlers, hrows]
        exact hs.counted
  | starts x hlocks hst hrows hhandlers hcalls =>
      refine hs.update hrows hhandlers hcalls (Nat.le_of_lt hcalls) ?_ ?_
      · rcases hst with hst | hst
        · simpa only [Counted, hst] using hlocks
        · simp only [Counted, hst]
      · rw [hlocks]
        exact List.forall_mem_nil _
  | goes h x x' hh hgoes hrows hhandlers hcalls =>
      obtain ⟨hcounted, hlocks⟩ := hs.goes hh hgoes
      refine hs.update hrows hhandlers ?_ (Nat.le_of_eq hcalls.symm) hcounted hlocks
      rw [hcalls]
      exact hs.fresh h x hh
  | commits h x w hh hst hrows hhandlers hcalls =>
      have hcounted : x.Both ∧ Room s.rows x w := by
        have hown := hs.counted h x hh
        rcases hst with hst | hst
        · simpa only [Counted, hst] using hown
        · simpa only [Counted, hst] using hown
      obtain ⟨hboth, hroom⟩ := hcounted
      refine hs.ended ?_ hhandlers hcalls fun k y hkh hk => ?_
      · rw [hrows]
        exact hs.limited.apply hroom
      · rw [hrows]
        refine noMore_apply w ?_ ?_
        · exact fun hp => hkh (hs.locks k h y x _ hk hh hp hboth.1)
        · exact fun hp => hkh (hs.locks k h y x _ hk hh hp hboth.2)
  | ends h hrows hhandlers hcalls =>
      refine hs.ended (fun p => ?_) hhandlers hcalls fun k y _ _ p _ st => number_sublist hrows p st
      have hp := hs.limited p
      exact ⟨Nat.le_trans (number_sublist hrows p 1) hp.1,
        Nat.le_trans (number_sublist hrows p 0) hp.2⟩

theorem Reach.fits {rows : List Row} {ok : Friends → Event → Prop} (hrows : Limited rows)
    (hr : Reach rows ok s) : s.Fits := by
  induction hr with
  | start => exact start_fits hrows
  | step _ _ hs ih => exact ih.effect (step_effect hs)

/-! ## Waiting transactions -/

/-- The player a handler wants to lock. -/
def wants (x : Handler) : Option Nat :=
  match x.stage with
  | .lockingFirst => some x.first
  | .lockingSecond => some x.second
  | _ => none

/-- A transaction wants to lock a player that another one has locked. -/
def WaitsFor (s : Friends) (h k : Nat) : Prop :=
  h ≠ k ∧ ∃ x y p, s.handlers h = some x ∧ s.handlers k = some y ∧ wants x = some p ∧ p ∈ y.locks

/-- The player a handler waits for, or 0. -/
def wanted (s : Friends) (h : Nat) : Nat :=
  ((s.handlers h).bind wants).getD 0

theorem first_le_second (x : Handler) : x.first ≤ x.second := by
  unfold Handler.first Handler.second
  split <;> omega

/-- A transaction that waits and has locked somebody has locked its first player only. -/
theorem eq_first_of_mem {rows : List Row} {x : Handler} (hx : Counted rows x) {p q : Nat}
    (hwants : wants x = some p) (hq : q ∈ x.locks) : q = x.first ∧ p = x.second := by
  unfold wants at hwants
  split at hwants
  next hst =>
    simp only [Counted, hst] at hx
    rw [hx] at hq
    cases hq
  next hst =>
    simp only [Counted, hst] at hx
    rw [hx, List.mem_singleton] at hq
    exact ⟨hq, (Option.some.inj hwants).symm⟩
  next => cases hwants

/-- The transaction one waits for waits for a larger player, if it waits. -/
theorem Fits.wanted_lt (hs : s.Fits) {h k j : Nat} (hk : s.WaitsFor h k) (hj : s.WaitsFor k j) :
    s.wanted h < s.wanted k := by
  obtain ⟨-, x, y, p, hx, hy, hp, hlock⟩ := hk
  obtain ⟨hne, y', z, q, hy', hz, hq, hlock'⟩ := hj
  obtain rfl := Option.some.inj (hy.symm.trans hy')
  obtain ⟨hfirst, hsecond⟩ := eq_first_of_mem (hs.counted k y hy) hq hlock
  have hwh : s.wanted h = p := by simp [wanted, hx, hp]
  have hwk : s.wanted k = q := by simp [wanted, hy, hq]
  rw [hwh, hwk]
  -- it does not wait for a player it has locked itself
  have hpq : p ≠ q := by
    rintro rfl
    exact hne (hs.locks k j y z p hy hz hlock hlock')
  have hle := first_le_second y
  omega

/-- Along a chain of waiting transactions the players they wait for grow. -/
theorem Fits.wanted_lt_of_chain (hs : s.Fits) {h k j : Nat}
    (hchain : Relation.TransGen s.WaitsFor h k) (hj : s.WaitsFor k j) :
    s.wanted h < s.wanted k := by
  induction hchain generalizing j with
  | single hk => exact hs.wanted_lt hk hj
  | tail _ hstep ih => exact Nat.lt_trans (ih hstep) (hs.wanted_lt hstep hj)

/-- No transaction waits for itself, through whatever others. -/
theorem Fits.no_cycle (hs : s.Fits) (h : Nat) : ¬ Relation.TransGen s.WaitsFor h h := by
  intro hcycle
  obtain ⟨k, hk, -⟩ := Relation.TransGen.head'_iff.mp hcycle
  exact Nat.lt_irrefl _ (hs.wanted_lt_of_chain hcycle hk)

end Friends

/-- In every run that starts from a table within the limits no player ever has more than 50
friends or 20 requests to answer, and no transactions wait for each other in a cycle. -/
theorem friends_limited (rows : List Row) (hrows : Limited rows) (s : Friends)
    (hr : Friends.Reach rows (fun _ _ => True) s) :
    Limited s.rows ∧ ∀ h, ¬ Relation.TransGen s.WaitsFor h h :=
  ⟨(hr.fits hrows).limited, (hr.fits hrows).no_cycle⟩

/-- Players 1 and 2 ask each other at the same time.  The second transaction waits for the lock
on player 1 that the first one holds; when it has it, it finds the request and accepts. -/
theorem friends_limited_asked : ∃ s s' : Friends,
    (Friends.Reach [] (fun _ _ => True) s ∧ s.WaitsFor 1 0 ∧ Limited s.rows ∧
      ∀ h, ¬ Relation.TransGen s.WaitsFor h h) ∧
    Friends.Reach [] (fun _ _ => True) s' ∧ s'.rows = [⟨2, 1, 1⟩, ⟨1, 2, 1⟩] ∧ Limited s'.rows := by
  have hempty : Limited [] := fun p => ⟨Nat.zero_le _, Nat.zero_le _⟩
  have h₁ : Friends.Reach [] (fun _ _ => True) _ :=
    .step (e := .call .add 1 2) .start trivial rfl
  have h₂ := h₁.step (e := .call .add 2 1) trivial rfl
  have h₃ := h₂.step (e := .answer 0 true true) trivial rfl
  have h₄ := h₃.step (e := .answer 1 true true) trivial rfl
  have h₅ := h₄.step (e := .answer 0 true true) trivial rfl
  have h₆ := h₅.step (e := .answer 0 true true) trivial rfl
  have h₇ := h₆.step (e := .answer 0 true true) trivial rfl
  have h₈ := h₇.step (e := .answer 0 true true) trivial rfl
  have h₉ := h₈.step (e := .answer 0 true true) trivial rfl
  have h₁₀ := h₉.step (e := .answer 0 true true) trivial rfl
  have h₁₁ := h₁₀.step (e := .answer 1 true true) trivial rfl
  have h₁₂ := h₁₁.step (e := .answer 1 true true) trivial rfl
  have h₁₃ := h₁₂.step (e := .answer 1 true true) trivial rfl
  have h₁₄ := h₁₃.step (e := .answer 1 true true) trivial rfl
  have h₁₅ := h₁₄.step (e := .answer 1 true true) trivial rfl
  have h₁₆ := h₁₅.step (e := .answer 1 true true) trivial rfl
  refine ⟨_, _, ⟨h₉, ⟨by decide, _, _, 1, rfl, rfl, rfl, by decide⟩, friends_limited [] hempty _ h₉⟩,
    h₁₆, by decide +kernel, (friends_limited [] hempty _ h₁₆).1⟩

end BallServer.Agent.Friend
