import BallServer.Agent.Friend

/-!
# Symmetry of friendship

What a transaction has found stays true until it commits, because it has locked both players
and only transactions make friends.

Main results:

- Theorem {lit}`Friends.step_inv`: what holds in a steady run.
- Theorem {lit}`friends_symmetric`: friendship is symmetric if no rejection deletes a friend
  row.
- Theorem {lit}`friends_asymmetric`: a rejection deletes one half of a new friendship.
-/

namespace BallServer.Agent.Friend

/-- Friendship is symmetric, and no request waits beside one half of a friendship. -/
def Symmetric (rows : List Row) : Prop :=
  (∀ a b, ⟨a, b, 1⟩ ∈ rows ↔ ⟨b, a, 1⟩ ∈ rows) ∧
    ∀ a b, ¬ (⟨a, b, 0⟩ ∈ rows ∧ ⟨b, a, 1⟩ ∈ rows)

/-! ## What the statements do to the table -/

@[simp] theorem mem_deleteKey {rows : List Row} {p q : Nat} {r : Row} :
    r ∈ deleteKey rows p q ↔ r ∈ rows ∧ ¬ (r.playerid = p ∧ r.friendid = q) := by
  simp [deleteKey, imp_iff_not_or]

theorem mem_accepted {rows : List Row} {a b : Nat} {r : Row} :
    r ∈ Write.accepted.apply rows a b ↔
      r ∈ rows ∧ ¬ (r.playerid = a ∧ r.friendid = b) ∧ ¬ (r.playerid = b ∧ r.friendid = a) ∨
        r = ⟨a, b, 1⟩ ∨ r = ⟨b, a, 1⟩ := by
  simp only [Write.apply, replaceRow, List.mem_append, List.mem_singleton, mem_deleteKey]
  constructor
  · rintro (⟨⟨hrow, hab⟩ | rfl, hba⟩ | rfl)
    · exact .inl ⟨hrow, hab, hba⟩
    · exact .inr (.inl rfl)
    · exact .inr (.inr rfl)
  · rintro (⟨hrow, hab, hba⟩ | rfl | rfl)
    · exact .inl ⟨.inl ⟨hrow, hab⟩, hba⟩
    · by_cases hsame : a = b
      · subst hsame
        exact .inr rfl
      · exact .inl ⟨.inr rfl, fun h => hsame h.1⟩
    · exact .inr rfl

theorem mem_pending {rows : List Row} {a b : Nat} {r : Row} :
    r ∈ Write.pending.apply rows a b ↔ r ∈ rows ∨ r = ⟨b, a, 0⟩ := by
  simp [Write.apply]

theorem Symmetric.accepted {rows : List Row} (h : Symmetric rows) (a b : Nat) :
    Symmetric (Write.accepted.apply rows a b) := by
  obtain ⟨hsym, hpend⟩ := h
  constructor
  · intro p q
    have := hsym p q
    simp only [mem_accepted, Row.mk.injEq]
    grind
  · intro p q
    have := hpend p q
    simp only [mem_accepted, Row.mk.injEq]
    grind

theorem Symmetric.pending {rows : List Row} (h : Symmetric rows) {a b : Nat}
    (hnot : ⟨a, b, 1⟩ ∉ rows) : Symmetric (Write.pending.apply rows a b) := by
  obtain ⟨hsym, hpend⟩ := h
  constructor
  · intro p q
    simpa [mem_pending] using hsym p q
  · intro p q
    have := hpend p q
    simp only [mem_pending, Row.mk.injEq]
    grind

/-- Both halves go. -/
theorem Symmetric.deletes {rows : List Row} (h : Symmetric rows) (a b : Nat) :
    Symmetric (deleteKey (deleteKey rows a b) b a) := by
  obtain ⟨hsym, hpend⟩ := h
  constructor
  · intro p q
    have := hsym p q
    simp only [mem_deleteKey]
    grind
  · intro p q
    have := hpend p q
    simp only [mem_deleteKey]
    grind

/-- A row goes that is no half of a friendship. -/
theorem Symmetric.rejects {rows : List Row} (h : Symmetric rows) {a b : Nat}
    (hnot : ⟨a, b, 1⟩ ∉ rows) : Symmetric (deleteKey rows a b) := by
  obtain ⟨hsym, hpend⟩ := h
  have hnot' : (⟨b, a, 1⟩ : Row) ∉ rows := fun hba => hnot ((hsym a b).mpr hba)
  constructor
  · intro p q
    have := hsym p q
    simp only [mem_deleteKey]
    grind
  · intro p q
    have := hpend p q
    simp only [mem_deleteKey]
    grind

/-! ## What a transaction has found -/

/-- No new friend row of a player that is locked. -/
def NoNew (rows rows' : List Row) (locks : List Nat) : Prop :=
  ∀ p q, p ∈ locks → ⟨p, q, 1⟩ ∈ rows' → ⟨p, q, 1⟩ ∈ rows

theorem NoNew.refl (rows : List Row) (locks : List Nat) : NoNew rows rows locks :=
  fun _ _ _ h => h

theorem noNew_deleteKey (rows : List Row) (p q : Nat) (locks : List Nat) :
    NoNew rows (deleteKey rows p q) locks :=
  fun _ _ _ h => (mem_deleteKey.mp h).1

/-- Other players become friends. -/
theorem noNew_apply {rows : List Row} {a b : Nat} {locks : List Nat} (w : Write)
    (ha : a ∉ locks) (hb : b ∉ locks) : NoNew rows (w.apply rows a b) locks := by
  intro p q hp h
  cases w with
  | accepted =>
      rcases mem_accepted.mp h with h | h | h
      · exact h.1
      · cases h
        exact absurd hp ha
      · cases h
        exact absurd hp hb
  | pending =>
      rcases mem_pending.mp h with h | h
      · exact h
      · cases h

/-- The transaction has locked both players. -/
def Handler.Both (x : Handler) : Prop :=
  x.self ∈ x.locks ∧ x.target ∈ x.locks

/-- What a write relies on. -/
def Finds (rows : List Row) (x : Handler) : Write → Prop
  | .accepted => x.Both
  | .pending => x.Both ∧ ⟨x.self, x.target, 1⟩ ∉ rows

/-- What a handler has locked and found. -/
def Own (rows : List Row) (x : Handler) : Prop :=
  match x.stage with
  | .lockingSecond => x.first ∈ x.locks
  | .readingFirst => x.Both
  | .readingSecond firstRows =>
      x.Both ∧ (⟨x.first, x.second, 1⟩ ∈ rows → ⟨x.first, x.second, 1⟩ ∈ firstRows)
  | .writing w => Finds rows x w
  | .committing w => Finds rows x w
  | .abandoned (some w) => Finds rows x w
  | .deleting => x.op = .delete ∨ x.op = .reject
  | _ => True

theorem first_second (x : Handler) :
    x.first = x.self ∧ x.second = x.target ∨ x.first = x.target ∧ x.second = x.self := by
  unfold Handler.first Handler.second
  split
  · exact .inr ⟨rfl, rfl⟩
  · exact .inl ⟨rfl, rfl⟩

theorem both_of_locks {x : Handler} (hfirst : x.first ∈ x.locks) (hsecond : x.second ∈ x.locks) :
    x.Both := by
  rcases first_second x with ⟨h₁, h₂⟩ | ⟨h₁, h₂⟩
  · exact ⟨h₁ ▸ hfirst, h₂ ▸ hsecond⟩
  · exact ⟨h₂ ▸ hsecond, h₁ ▸ hfirst⟩

theorem Finds.mono {rows rows' : List Row} {x : Handler} {w : Write} (h : Finds rows x w)
    (hnew : NoNew rows rows' x.locks) : Finds rows' x w := by
  cases w with
  | accepted => exact h
  | pending => exact ⟨h.1, fun hrow => h.2 (hnew _ _ h.1.1 hrow)⟩

theorem Own.mono {rows rows' : List Row} {x : Handler} (h : Own rows x)
    (hnew : NoNew rows rows' x.locks) : Own rows' x := by
  unfold Own at h ⊢
  split at h
  · exact h
  · exact h
  · refine ⟨h.1, fun hrow => h.2 (hnew _ _ ?_ hrow)⟩
    rcases first_second x with ⟨hf, -⟩ | ⟨hf, -⟩
    · exact hf ▸ h.1.1
    · exact hf ▸ h.1.2
  · exact h.mono hnew
  · exact h.mono hnew
  · exact h.mono hnew
  · exact h
  · trivial

theorem hasRow_eq_true {rows : List Row} {r : Row} (h : r ∈ rows) :
    hasRow rows r.friendid r.status = true :=
  List.any_eq_true.mpr ⟨r, h, by simp⟩

theorem mem_rowsOf {rows : List Row} {r : Row} : r ∈ rowsOf rows r.playerid ↔ r ∈ rows := by
  simp [rowsOf]

/-- A request is inserted only if the rows of the player show no friendship. -/
theorem decideAdd_pending {self target : Nat} {selfRows targetRows : List Row}
    (h : decideAdd self target selfRows targetRows = .ok .pending) :
    hasRow selfRows target 1 = false := by
  unfold decideAdd at h
  split at h
  next => cases h
  next hnot =>
    rw [Bool.or_eq_true, not_or] at hnot
    simpa using hnot.1

theorem decideAccept_accepted {self target : Nat} {selfRows targetRows : List Row} {w : Write}
    (h : decideAccept self target selfRows targetRows = .ok w) : w = .accepted := by
  unfold decideAccept at h
  repeat' split at h
  all_goals cases h
  rfl

namespace Friends

/-! ## A steady run -/

/-- What holds in a steady run. -/
structure Inv (s : Friends) : Prop where
  symmetric : Symmetric s.rows
  fresh : ∀ h x, s.handlers h = some x → h < s.calls
  locks : ∀ h k x y p, s.handlers h = some x → s.handlers k = some y → p ∈ x.locks →
    p ∈ y.locks → h = k
  own : ∀ h x, s.handlers h = some x → Own s.rows x

theorem start_inv {rows : List Row} (h : Symmetric rows) : (start rows).Inv := by
  refine ⟨h, fun k x hk => ?_, fun k _ x _ _ hk => ?_, fun k x hk => ?_⟩ <;> cases hk

variable {s s' : Friends}

/-- The copies of the agents do not matter. -/
structure Same (s s' : Friends) : Prop where
  rows : s'.rows = s.rows
  handlers : s'.handlers = s.handlers
  calls : s'.calls = s.calls

theorem Inv.of_same (hs : s.Inv) (h : Same s s') : s'.Inv := by
  obtain ⟨hrows, hhandlers, hcalls⟩ := h
  refine ⟨?_, ?_, ?_, ?_⟩
  · rw [hrows]
    exact hs.symmetric
  · rw [hhandlers, hcalls]
    exact hs.fresh
  · rw [hhandlers]
    exact hs.locks
  · rw [hhandlers, hrows]
    exact hs.own

theorem same_notify (x : Handler) (auto online : Bool) : Same s (s.notify x auto online) := by
  cases online <;> exact ⟨rfl, rfl, rfl⟩

theorem same_reply (h code : Nat) (msg : String) : Same s (s.reply h code msg) :=
  ⟨rfl, rfl, rfl⟩

theorem same_fails (h : Nat) (x : Handler) (err : String) : Same s (s.fails h x err) := by
  unfold fails
  split <;> exact ⟨rfl, rfl, rfl⟩

theorem same_succeeds (h : Nat) (x : Handler) (w : Write) (online : Bool) :
    Same s (s.succeeds h x w online) := by
  unfold succeeds
  split <;> cases online <;> exact ⟨rfl, rfl, rfl⟩

theorem same_notified (m : Notify) : Same s (s.notified m) := by
  unfold notified
  repeat' split
  all_goals exact ⟨rfl, rfl, rfl⟩

theorem not_locked (hs : s.Inv) {h p : Nat} (hfree : s.lockedBy h p = false) :
    ∀ k y, k ≠ h → s.handlers k = some y → p ∉ y.locks := by
  intro k y hkh hk hp
  have hany := List.any_eq_false.mp hfree k (List.mem_range.mpr (hs.fresh k y hk))
  simp [hkh, hk, hp] at hany

/-- A handler goes on. -/
theorem Inv.goOn (hs : s.Inv) {h : Nat} {x : Handler} (hlt : h < s.calls)
    (hlocks : ∀ p ∈ x.locks, ∀ k y, k ≠ h → s.handlers k = some y → p ∉ y.locks)
    (hown : Own s.rows x) : (s.goOn h x).Inv := by
  have hcases : ∀ k y, (s.goOn h x).handlers k = some y →
      k = h ∧ y = x ∨ k ≠ h ∧ s.handlers k = some y := by
    intro k y hk
    by_cases hkh : k = h
    · subst hkh
      have hself : Function.update s.handlers k (some x) k = some y := hk
      rw [Function.update_self] at hself
      exact .inl ⟨rfl, (Option.some.inj hself).symm⟩
    · exact .inr ⟨hkh, (Function.update_of_ne hkh ..).symm.trans hk⟩
  refine ⟨hs.symmetric, fun k y hk => ?_, fun k j y z p hk hj hy hz => ?_, fun k y hk => ?_⟩
  · rcases hcases k y hk with ⟨rfl, -⟩ | ⟨-, hk⟩
    · exact hlt
    · exact hs.fresh k y hk
  · rcases hcases k y hk with ⟨rfl, rfl⟩ | ⟨hkh, hk'⟩
    · rcases hcases j z hj with ⟨rfl, -⟩ | ⟨hjh, hj'⟩
      · rfl
      · exact absurd hz (hlocks p hy j z hjh hj')
    · rcases hcases j z hj with ⟨rfl, rfl⟩ | ⟨hjh, hj'⟩
      · exact absurd hy (hlocks p hz k y hkh hk')
      · exact hs.locks k j y z p hk' hj' hy hz
  · rcases hcases k y hk with ⟨-, rfl⟩ | ⟨-, hk⟩
    · exact hown
    · exact hs.own k y hk

/-- A handler goes on with the locks it has. -/
theorem Inv.stays (hs : s.Inv) {h : Nat} {x x' : Handler} (hh : s.handlers h = some x)
    (hlocks : x'.locks = x.locks) (hown : Own s.rows x') : (s.goOn h x').Inv := by
  refine hs.goOn (hs.fresh h x hh) (fun p hp k y hkh hk hpk => hkh ?_) hown
  exact hs.locks k h y x p hk hh hpk (hlocks ▸ hp)

/-- A handler is over, and the table changes. -/
theorem Inv.ended (hs : s.Inv) {h : Nat} {rows : List Row} (hsym : Symmetric rows)
    (hnew : ∀ k y, k ≠ h → s.handlers k = some y → NoNew s.rows rows y.locks) :
    (({ s with rows := rows } : Friends).ended h).Inv := by
  have hcases : ∀ k y, (({ s with rows := rows } : Friends).ended h).handlers k = some y →
      k ≠ h ∧ s.handlers k = some y := by
    intro k y hk
    by_cases hkh : k = h
    · subst hkh
      have hself : Function.update s.handlers k none k = some y := hk
      rw [Function.update_self] at hself
      cases hself
    · exact ⟨hkh, (Function.update_of_ne hkh ..).symm.trans hk⟩
  refine ⟨hsym, fun k y hk => hs.fresh k y (hcases k y hk).2, fun k j y z p hk hj => ?_,
    fun k y hk => ?_⟩
  · exact hs.locks k j y z p (hcases k y hk).2 (hcases j z hj).2
  · obtain ⟨hkh, hk⟩ := hcases k y hk
    exact (hs.own k y hk).mono (hnew k y hkh hk)

theorem Inv.ends (hs : s.Inv) (h : Nat) : (s.ended h).Inv :=
  hs.ended hs.symmetric fun _ _ _ _ => .refl _ _

/-- A transaction commits what it has written. -/
theorem Inv.commits (hs : s.Inv) {h : Nat} {x : Handler} {w : Write} (hh : s.handlers h = some x)
    (hfinds : Finds s.rows x w) :
    (({ s with rows := w.apply s.rows x.self x.target } : Friends).ended h).Inv := by
  have hboth : x.Both := by
    cases w with
    | accepted => exact hfinds
    | pending => exact hfinds.1
  refine hs.ended ?_ fun k y hkh hk => noNew_apply w ?_ ?_
  · cases w with
    | accepted => exact hs.symmetric.accepted _ _
    | pending => exact hs.symmetric.pending hfinds.2
  · exact fun hp => hkh (hs.locks k h y x _ hk hh hp hboth.1)
  · exact fun hp => hkh (hs.locks k h y x _ hk hh hp hboth.2)

/-- The rows are read. -/
theorem Inv.decided (hs : s.Inv) {h : Nat} {x : Handler} {firstRows : List Row}
    (hh : s.handlers h = some x) (hst : x.stage = .readingSecond firstRows) :
    (s.decided h x firstRows).Inv := by
  have hown := hs.own h x hh
  simp only [Own, hst] at hown
  obtain ⟨hboth, hfirst⟩ := hown
  -- the rows of the player, read first or second, show all friends it has now
  have hself : ∀ {rows : List Row}, rows = (if x.first = x.self then firstRows
      else rowsOf s.rows x.second) → hasRow rows x.target 1 = false →
      ⟨x.self, x.target, 1⟩ ∉ s.rows := by
    rintro rows rfl hno hrow
    have hmem : ∀ {l : List Row}, ⟨x.self, x.target, 1⟩ ∈ l → hasRow l x.target 1 = true :=
      fun h => hasRow_eq_true h
    rcases first_second x with ⟨hf, hsec⟩ | ⟨hf, hsec⟩
    · rw [if_pos hf] at hno
      rw [hf, hsec] at hfirst
      rw [hmem (hfirst hrow)] at hno
      cases hno
    · by_cases hsame : x.first = x.self
      · rw [if_pos hsame] at hno
        have hsec' : x.second = x.target := hsec.trans (hsame.symm.trans hf)
        rw [hsame, hsec'] at hfirst
        rw [hmem (hfirst hrow)] at hno
        cases hno
      · rw [if_neg hsame, hsec] at hno
        rw [hmem (mem_rowsOf.mpr hrow)] at hno
        cases hno
  unfold Friends.decided
  dsimp only
  split
  · split
    next w hw =>
      refine hs.stays hh rfl ?_
      cases w with
      | accepted => exact hboth
      | pending => exact ⟨hboth, hself rfl (decideAdd_pending hw)⟩
    next => exact hs.stays hh rfl trivial
  · split
    next w hw =>
      obtain rfl := decideAccept_accepted hw
      exact hs.stays hh rfl hboth
    next => exact hs.stays hh rfl trivial
    next =>
      refine Inv.of_same ?_ (same_fails ..)
      exact hs.stays hh rfl trivial

theorem Inv.executed (hs : s.Inv) {h : Nat} {x : Handler} {online : Bool}
    (hh : s.handlers h = some x)
    (hreject : x.op = .reject → x.stage = .deleting → ⟨x.self, x.target, 1⟩ ∉ s.rows)
    (he : s.executed h x online = some s') : s'.Inv := by
  have hown := hs.own h x hh
  have hlt := hs.fresh h x hh
  have hmine : ∀ p ∈ x.locks, ∀ k y, k ≠ h → s.handlers k = some y → p ∉ y.locks :=
    fun p hp k y hkh hk hpk => hkh (hs.locks k h y x p hk hh hpk hp)
  unfold Friends.executed at he
  cases hst : x.stage with
  | beginning =>
      simp only [hst, Option.some.injEq] at he
      subst he
      exact hs.stays hh rfl trivial
  | lockingFirst =>
      simp only [hst] at he
      split at he
      next => cases he
      next hfree =>
        obtain rfl := Option.some.inj he
        refine hs.goOn hlt ?_ (List.mem_cons_self ..)
        exact List.forall_mem_cons.mpr ⟨not_locked hs (by simpa using hfree), hmine⟩
  | lockingSecond =>
      simp only [hst] at he
      simp only [Own, hst] at hown
      split at he
      next => cases he
      next hfree =>
        obtain rfl := Option.some.inj he
        refine hs.goOn hlt ?_ ?_
        · exact List.forall_mem_cons.mpr ⟨not_locked hs (by simpa using hfree), hmine⟩
        · exact both_of_locks (List.mem_cons_of_mem _ hown) (List.mem_cons_self ..)
  | readingFirst =>
      simp only [hst, Option.some.injEq] at he
      simp only [Own, hst] at hown
      subst he
      exact hs.stays hh rfl ⟨hown, fun hrow => mem_rowsOf.mpr hrow⟩
  | readingSecond firstRows =>
      simp only [hst, Option.some.injEq] at he
      subst he
      exact hs.decided hh hst
  | writing w =>
      simp only [Own, hst] at hown
      cases w with
      | accepted =>
          simp only [hst, Option.some.injEq] at he
          subst he
          exact hs.stays hh rfl hown
      | pending =>
          simp only [hst] at he
          split at he
          · obtain rfl := Option.some.inj he
            exact hs.stays hh rfl trivial
          · obtain rfl := Option.some.inj he
            exact hs.stays hh rfl hown
  | committing w =>
      simp only [hst, Option.some.injEq] at he
      simp only [Own, hst] at hown
      subst he
      exact (hs.commits hh hown).of_same (same_succeeds ..)
  | rollingBack err =>
      simp only [hst, Option.some.injEq] at he
      subst he
      exact (hs.ends h).of_same (same_fails ..)
  | deleting =>
      simp only [hst] at he
      simp only [Own, hst] at hown
      rcases hown with hop | hop <;> simp only [hop] at he
      · split at he
        next => cases he
        next =>
          obtain rfl := Option.some.inj he
          refine Inv.of_same (Inv.of_same ?_ (same_notify x false online)) (same_reply h 0 _)
          refine hs.ended (hs.symmetric.deletes _ _) fun k y _ _ a b _ hrow => ?_
          exact (mem_deleteKey.mp (mem_deleteKey.mp hrow).1).1
      · split at he
        next => cases he
        next =>
          obtain rfl := Option.some.inj he
          refine Inv.of_same ?_ (same_reply h 0 _)
          refine hs.ended (hs.symmetric.rejects (hreject hop hst)) fun k y _ _ => ?_
          exact noNew_deleteKey _ _ _ _
  | abandoned w =>
      simp [hst] at he

theorem Inv.failed (hs : s.Inv) {h : Nat} {x : Handler} (hh : s.handlers h = some x)
    (he : s.failed h x = some s') : s'.Inv := by
  have hown := hs.own h x hh
  unfold Friends.failed at he
  cases hst : x.stage with
  | beginning =>
      simp only [hst, Option.some.injEq] at he
      subst he
      exact (hs.ends h).of_same (same_fails ..)
  | deleting =>
      simp only [hst, Option.some.injEq] at he
      subst he
      exact (hs.ends h).of_same (same_fails ..)
  | committing w =>
      simp only [hst, Option.some.injEq] at he
      simp only [Own, hst] at hown
      subst he
      refine Inv.of_same ?_ (same_fails ..)
      exact hs.stays hh rfl hown
  | rollingBack err =>
      simp only [hst, Option.some.injEq] at he
      subst he
      refine Inv.of_same ?_ (same_fails ..)
      exact hs.stays hh rfl trivial
  | abandoned w => simp [hst] at he
  | _ =>
      simp only [hst, Option.some.injEq] at he
      subst he
      exact hs.stays hh rfl trivial

theorem Inv.call (hs : s.Inv) {h : Nat} (hlt : h < s.calls) (op : Op) (self target : Nat) :
    (s.call h op self target).Inv := by
  have hnew : ∀ (s' : Friends) (stage : Stage), Same s s' → Own s.rows ⟨op, self, target, stage, [], []⟩ →
      (s'.goOn h ⟨op, self, target, stage, [], []⟩).Inv := by
    intro s' stage hsame hown
    refine (hs.of_same hsame).goOn (hsame.calls ▸ hlt) (List.forall_mem_nil _) ?_
    rw [hsame.rows]
    exact hown
  unfold Friends.call
  cases op with
  | add =>
      dsimp only
      split
      · exact hs.of_same ⟨rfl, rfl, rfl⟩
      · split
        · exact hs.of_same ⟨rfl, rfl, rfl⟩
        · exact hnew s .beginning ⟨rfl, rfl, rfl⟩ trivial
  | accept =>
      dsimp only
      split
      · exact hs.of_same ⟨rfl, rfl, rfl⟩
      · exact hnew _ .beginning ⟨rfl, rfl, rfl⟩ trivial
  | delete =>
      dsimp only
      split
      · exact hs.of_same ⟨rfl, rfl, rfl⟩
      · exact hnew _ .deleting ⟨rfl, rfl, rfl⟩ (.inl rfl)
  | reject =>
      dsimp only
      split
      · exact hs.of_same ⟨rfl, rfl, rfl⟩
      · exact hnew _ .deleting ⟨rfl, rfl, rfl⟩ (.inr rfl)

theorem step_inv {e : Event} (hs : s.Inv) (he : s.Steady e) (h : s.step e = some s') : s'.Inv := by
  cases e with
  | call op self target =>
      obtain rfl := Option.some.inj h
      have hnext : ({ s with calls := s.calls + 1 } : Friends).Inv :=
        ⟨hs.symmetric, fun k x hk => Nat.lt_succ_of_lt (hs.fresh k x hk), hs.locks, hs.own⟩
      exact hnext.call (Nat.lt_succ_self _) op self target
  | answer k ok online =>
      simp only [step] at h
      split at h
      next => cases h
      next x hx =>
        cases ok with
        | true => exact hs.executed hx (he k x online rfl hx) h
        | false => exact hs.failed hx h
  | settle k commit =>
      simp only [step] at h
      split at h
      next op self target w locks read hx =>
        have hown := hs.own k _ hx
        split at h
        next w =>
          obtain rfl := Option.some.inj h
          exact hs.commits hx hown
        next =>
          obtain rfl := Option.some.inj h
          exact hs.ends k
      next => cases h
  | deliver i =>
      simp only [step] at h
      split at h
      next => cases h
      next m _ =>
        obtain rfl := Option.some.inj h
        refine Inv.of_same ?_ (same_notified m)
        exact hs.of_same ⟨rfl, rfl, rfl⟩
  | load p =>
      obtain rfl := Option.some.inj h
      exact hs.of_same ⟨rfl, rfl, rfl⟩

theorem Reach.inv {rows : List Row} (hrows : Symmetric rows) (hr : Reach rows Steady s) : s.Inv := by
  induction hr with
  | start => exact start_inv hrows
  | step _ he hs ih => exact step_inv ih he hs

end Friends

/-- Friendship is symmetric in a steady run, whatever transactions are open. -/
theorem friends_symmetric (rows : List Row) (hrows : Symmetric rows) (s : Friends)
    (hr : Friends.Reach rows Friends.Steady s) : Symmetric s.rows :=
  (hr.inv hrows).symmetric

/-- The rows of the examples: the second player has asked the first one. -/
def asked : List Row := [⟨1, 2, 0⟩]

theorem asked_symmetric : Symmetric asked := by
  constructor <;> intro a b <;> simp [asked]

/-- Answers to requests that reject nothing. -/
theorem steady_answer {s : Friends} {h : Nat} {ok online : Bool}
    (hop : (s.handlers h).all (fun x => x.op ≠ .reject) = true) :
    Friends.Steady s (.answer h ok online) := by
  intro h' x online' he hx hreject _
  cases he
  rw [hx] at hop
  exact absurd hreject (of_decide_eq_true hop)

/-- The first player accepts the second one and asks a third one at the same time, so that one of
the two transactions waits for the locks of the other; the third player rejects the request. -/
theorem friends_symmetric_accept : ∃ s, Friends.Reach asked Friends.Steady s ∧
    s.rows = [⟨1, 2, 1⟩, ⟨2, 1, 1⟩] ∧ Symmetric s.rows := by
  have h₁ : Friends.Reach asked Friends.Steady _ :=
    .step (e := .load 1) .start (fun _ _ _ h => by cases h) rfl
  have h₂ := h₁.step (e := .call .accept 1 2) (fun _ _ _ h => by cases h) rfl
  have h₃ := h₂.step (e := .call .add 1 3) (fun _ _ _ h => by cases h) rfl
  have h₄ := h₃.step (e := .answer 0 true false) (steady_answer (by decide)) rfl
  have h₅ := h₄.step (e := .answer 1 true false) (steady_answer (by decide)) rfl
  have h₆ := h₅.step (e := .answer 0 true false) (steady_answer (by decide)) rfl
  have h₇ := h₆.step (e := .answer 0 true false) (steady_answer (by decide)) rfl
  have h₈ := h₇.step (e := .answer 0 true false) (steady_answer (by decide)) rfl
  have h₉ := h₈.step (e := .answer 0 true false) (steady_answer (by decide)) rfl
  have h₁₀ := h₉.step (e := .answer 0 true false) (steady_answer (by decide)) rfl
  have h₁₁ := h₁₀.step (e := .answer 0 true false) (steady_answer (by decide)) rfl
  -- the lock of the first player is free again
  have h₁₂ := h₁₁.step (e := .answer 1 true false) (steady_answer (by decide)) rfl
  have h₁₃ := h₁₂.step (e := .answer 1 true false) (steady_answer (by decide)) rfl
  have h₁₄ := h₁₃.step (e := .answer 1 true false) (steady_answer (by decide)) rfl
  have h₁₅ := h₁₄.step (e := .answer 1 true false) (steady_answer (by decide)) rfl
  have h₁₆ := h₁₅.step (e := .answer 1 true false) (steady_answer (by decide)) rfl
  have h₁₇ := h₁₆.step (e := .answer 1 true false) (steady_answer (by decide)) rfl
  have h₁₈ := h₁₇.step (e := .load 3) (fun _ _ _ h => by cases h) rfl
  have h₁₉ := h₁₈.step (e := .call .reject 3 1) (fun _ _ _ h => by cases h) rfl
  have h₂₀ := h₁₉.step (e := .answer 2 true false) (fun _ _ _ h hx _ _ => by
    cases h
    cases hx
    decide) rfl
  exact ⟨_, h₂₀, by decide, friends_symmetric asked asked_symmetric _ h₂₀⟩

/-- The first player asks for the friendship, which accepts the request, and rejects it at the
same time; the rejection deletes a half of the friendship. -/
theorem friends_asymmetric : ¬ ∀ (rows : List Row) (s : Friends), Symmetric rows →
    Friends.Reach rows (fun _ _ => True) s → (∀ h < s.calls, s.handlers h = none) →
    Symmetric s.rows := by
  intro hall
  have h₁ : Friends.Reach asked (fun _ _ => True) _ := .step (e := .load 1) .start trivial rfl
  have h₂ := h₁.step (e := .call .add 1 2) trivial rfl
  have h₃ := h₂.step (e := .call .reject 1 2) trivial rfl
  have h₄ := h₃.step (e := .answer 0 true false) trivial rfl
  have h₅ := h₄.step (e := .answer 0 true false) trivial rfl
  have h₆ := h₅.step (e := .answer 0 true false) trivial rfl
  have h₇ := h₆.step (e := .answer 0 true false) trivial rfl
  have h₈ := h₇.step (e := .answer 0 true false) trivial rfl
  have h₉ := h₈.step (e := .answer 0 true false) trivial rfl
  have h₁₀ := h₉.step (e := .answer 0 true false) trivial rfl
  have h₁₁ := h₁₀.step (e := .answer 1 true false) trivial rfl
  have hsym := (hall _ _ asked_symmetric h₁₁ (by decide +kernel)).1 1 2
  exact absurd hsym (by decide +kernel)

end BallServer.Agent.Friend
