import BallServer.Agent.FriendOnline
import BallServer.Agent.FriendSymmetry

/-!
# Friend lists in memory

A table of an agent agrees with the rows, or somebody is going to write it.  The last one to
write it has to write what the rows say, and that is a condition on the turn: the code never
compares the two.

Main results:

- Definition {lit}`Online.Kept`: the last writer of a table tells what the rows say, and nobody
  who has to tell something finds an agent that does not listen yet.
- Theorem {lit}`Online.step_tracked`: one turn.
- Theorem {lit}`Online.Tracked.converged`: when nothing runs, the tables of every player with the
  status {lit}`GAME` have what the rows have.
-/

namespace BallServer.Agent.Friend

open AgentMgr (Status)

/-! ## What the statements do to the rows -/

theorem has_eq_true {rows : List Row} {p q : Nat} {k : Part} :
    has rows p q k = true ↔ ⟨p, q, k.status⟩ ∈ rows :=
  decide_eq_true_iff

theorem has_deleteKey {rows : List Row} {a b p q : Nat} {k : Part} :
    has (deleteKey rows a b) p q k = if p = a ∧ q = b then false else has rows p q k := by
  rw [Bool.eq_iff_iff, has_eq_true, mem_deleteKey]
  by_cases hpq : p = a ∧ q = b <;> simp [hpq, has_eq_true]

theorem has_replaceRow {rows : List Row} {a b p q : Nat} {k : Part} :
    has (replaceRow rows ⟨a, b, 1⟩) p q k =
      if p = a ∧ q = b then decide (k = .friends) else has rows p q k := by
  rw [Bool.eq_iff_iff, has_eq_true]
  cases k <;> by_cases hpq : p = a ∧ q = b <;>
    simp [replaceRow, hpq, has_eq_true, Part.status]

theorem has_accepted {rows : List Row} {a b p q : Nat} {k : Part} :
    has (Write.accepted.apply rows a b) p q k =
      if (p = a ∧ q = b) ∨ (p = b ∧ q = a) then decide (k = .friends) else has rows p q k := by
  rw [Write.apply, has_replaceRow, has_replaceRow]
  split_ifs <;> tauto

theorem has_pending {rows : List Row} {a b p q : Nat} {k : Part} :
    has (Write.pending.apply rows a b) p q k =
      (has rows p q k || (decide (k = .pending) && (p = b && q = a))) := by
  rw [Bool.eq_iff_iff, has_eq_true, Bool.or_eq_true, has_eq_true]
  cases k <;> simp [Write.apply, Part.status]

/-- The rows have no other status. -/
def Statuses (rows : List Row) : Prop :=
  ∀ r ∈ rows, r.status ≤ 1

theorem statuses_deleteKey {rows : List Row} (h : Statuses rows) (p q : Nat) :
    Statuses (deleteKey rows p q) :=
  fun _ hr => h _ (mem_deleteKey.mp hr).1

theorem statuses_apply {rows : List Row} (h : Statuses rows) (a b : Nat) (w : Write) :
    Statuses (w.apply rows a b) := by
  intro r hr
  cases w with
  | accepted =>
      rcases mem_accepted.mp hr with h' | rfl | rfl
      · exact h r h'.1
      · exact Nat.le_refl 1
      · exact Nat.le_refl 1
  | pending =>
      rcases mem_pending.mp hr with h' | rfl
      · exact h r h'
      · exact Nat.zero_le 1

/-- An agent reads what the rows have. -/
theorem has_load {rows : List Row} (h : Statuses rows) (p q : Nat) :
    has rows p q .friends = hasRow (rowsOf rows p) q 1 ∧
      has rows p q .pending =
        (rowsOf rows p).any fun r => r.friendid = q && r.status ≠ 1 := by
  constructor
  · rw [Bool.eq_iff_iff, has_eq_true]
    simp only [hasRow, rowsOf, List.any_eq_true, List.mem_filter, Bool.and_eq_true,
      decide_eq_true_eq, Part.status]
    constructor
    · exact fun hr => ⟨_, ⟨hr, rfl⟩, rfl, rfl⟩
    · rintro ⟨⟨p', q', st⟩, ⟨hr, rfl⟩, rfl, rfl⟩
      exact hr
  · rw [Bool.eq_iff_iff, has_eq_true]
    simp only [rowsOf, List.any_eq_true, List.mem_filter, Bool.and_eq_true, decide_eq_true_eq,
      Part.status]
    constructor
    · exact fun hr => ⟨_, ⟨hr, rfl⟩, rfl, by simp⟩
    · rintro ⟨⟨p', q', st⟩, ⟨hr, rfl⟩, rfl, hst⟩
      have hle := h _ hr
      obtain rfl : st = 0 := by
        dsimp only at hst hle
        omega
      exact hr

/-- What the row of a player and its target is after the statement that changes it. -/
def Request.leaves (x : Request) (k : Part) : Bool :=
  match x.wait with
  | .committing _ => decide (k = .friends)
  | _ => false

/-- The operations whose requests have a transaction, and what it writes. -/
def Request.Fits (x : Request) : Prop :=
  match x.wait with
  | .writing w => x.op = .add ∨ x.op = .accept ∧ w = .accepted
  | .committing w => x.op = .add ∨ x.op = .accept ∧ w = .accepted
  | .committed w => x.op = .add ∨ x.op = .accept ∧ w = .accepted
  | .deleting => x.op = .delete ∨ x.op = .reject
  | .deleted => x.op = .delete ∨ x.op = .reject
  | .asking _ => True
  | .abandoned => True
  | _ => x.op = .add ∨ x.op = .accept

namespace Online

/-- What is written about a player is what the rows say, or somebody else is going to write
it. -/
def Right (s : Online) (w : Writer) (a q : Nat) (e : Effect) : Prop :=
  ∀ p k b, s.current p = some a → e k = some b → has s.rows p q k = b ∨ s.Else p a q k w

/-- A statement changes the rows as its agent and the agent of its target expect. -/
def Changes (s : Online) (h : Nat) (x : Request) : Prop :=
  -- the player has not logged in again, or for its new agent nothing changes
  (x.wait = .committing .pending ∨ ∀ a, s.current x.self = some a → a = x.agent ∨
    ∀ k, has s.rows x.self x.target k = x.leaves k ∨
      s.Else x.self a x.target k (.request h)) ∧
  -- the agent still has what the request has written into its tables
  (∀ k b, s.current x.self = some x.agent → x.op.early k = some b →
    s.copy x.agent k x.target = b ∨ s.Else x.self x.agent x.target k (.request h)) ∧
  -- a rejection deletes no friend, and a deletion no request
  (x.wait = .deleting → ∀ k, x.op.early k = none →
    (s.current x.self = some x.agent → has s.rows x.self x.target k = false ∨
      s.Else x.self x.agent x.target k (.request h)) ∧
    (x.op = .delete → ∀ a, s.current x.target = some a → has s.rows x.target x.self k = false ∨
      s.Else x.target a x.self k (.request h)))

/-- The condition on a turn. -/
def Kept (s : Online) : Turn → Prop
  | .execute h _ => ∀ x, s.requests h = some x →
      x.wait = .deleting ∨ (∃ w, x.wait = .committing w) → s.Changes h x
  | .resume h => ∀ x, s.requests h = some x → s.Right (.request h) x.agent x.target x.own
  -- the agent that has to be told has the status {lit}`GAME`, or there is nothing new
  | .getPlayer h => ∀ x a k, s.requests h = some x → x.owes = some a →
      s.current x.target = some a → (x.owed k).isSome →
        s.players x.target = some ⟨some a, .game⟩ ∨
          s.copy a k x.self = has s.rows x.target x.self k ∨
          s.Else x.target a x.self k (.request h)
  | .deliver m => ∀ n, s.notes m = some n → s.Right (.note m) n.agent n.playerid n.cmd.effect
  | _ => True

/-- A table of an agent has what the rows have, or somebody is going to write it. -/
def Settled (s : Online) (p a q : Nat) (k : Part) : Prop :=
  s.copy a k q = has s.rows p q k ∨ ∃ w, s.Writes p a q k w

/-- What holds in every state. -/
structure Tracked (s : Online) : Prop where
  fresh_agent : ∀ p a, s.current p = some a → a < s.clock
  owner : ∀ p a, s.current p = some a → s.agents a = some p
  fits : ∀ h x, s.requests h = some x → x.Fits
  statuses : Statuses s.rows
  settled : ∀ p a q k, s.current p = some a → s.Settled p a q k

variable {s s' : Online}

/-! ## Small facts -/

theorem put_copy (a q a' q' : Nat) (e : Effect) (k : Part) :
    (s.put a q e).copy a' k q' =
      if a' = a ∧ q' = q then (e k).getD (s.copy a' k q') else s.copy a' k q' := by
  unfold put
  by_cases ha : a' = a
  · subst ha
    by_cases hq : q' = q <;> simp [hq]
  · simp [ha]

/-- Whose agent is current is told by the entries. -/
theorem current_congr (h : s'.players = s.players) (p : Nat) : s'.current p = s.current p := by
  unfold current
  rw [h]

/-- A turn that leaves the entries, and of the tables and the rows all but what somebody is
going to write. -/
theorem Tracked.of_effect (hs : s.Tracked) (hplayers : s'.players = s.players)
    (hagents : s'.agents = s.agents) (hclock : s.clock ≤ s'.clock)
    (hfits : ∀ h x, s'.requests h = some x → x.Fits) (hstatuses : Statuses s'.rows)
    (hsettled : ∀ p a q k, s.current p = some a → s.Settled p a q k → s'.Settled p a q k) :
    s'.Tracked where
  fresh_agent := fun p a hp => by
    rw [current_congr hplayers] at hp
    exact Nat.lt_of_lt_of_le (hs.fresh_agent p a hp) hclock
  owner := fun p a hp => by
    rw [current_congr hplayers] at hp
    rw [hagents]
    exact hs.owner p a hp
  fits := hfits
  statuses := hstatuses
  settled := fun p a q k hp => by
    rw [current_congr hplayers] at hp
    exact hsettled p a q k hp (hs.settled p a q k hp)

/-- A turn that changes no more than the entries. -/
theorem Tracked.setPlayer (hs : s.Tracked) (p : Nat) (e : Option Entry)
    (he : ∀ a, (s.setPlayer p e).current p = some a → s.current p = some a) :
    (s.setPlayer p e).Tracked := by
  have hcurrent : ∀ p' a, (s.setPlayer p e).current p' = some a → s.current p' = some a := by
    intro p' a h
    by_cases hp : p' = p
    · subst hp
      exact he a h
    · simpa [current, Online.setPlayer, hp] using h
  exact ⟨fun p' a h => hs.fresh_agent p' a (hcurrent p' a h),
    fun p' a h => hs.owner p' a (hcurrent p' a h), hs.fits, hs.statuses,
    fun p' a q k h => hs.settled p' a q k (hcurrent p' a h)⟩

/-- The requests with one of them replaced. -/
theorem Tracked.fits_update (hs : s.Tracked) {h : Nat} {y : Request} (hy : y.Fits) (h' : Nat)
    (x : Request) (hx : Function.update s.requests h (some y) h' = some x) : x.Fits := by
  by_cases hh : h' = h
  · subst hh
    rw [Function.update_self] at hx
    exact Option.some.inj hx ▸ hy
  · rw [Function.update_of_ne hh] at hx
    exact hs.fits h' x hx

/-- The requests without one of them. -/
theorem Tracked.fits_erase (hs : s.Tracked) {h : Nat} (h' : Nat) (x : Request)
    (hx : Function.update s.requests h none h' = some x) : x.Fits := by
  by_cases hh : h' = h
  · subst hh
    rw [Function.update_self] at hx
    cases hx
  · rw [Function.update_of_ne hh] at hx
    exact hs.fits h' x hx

/-- What the others are going to write they write still. -/
theorem Writes.update {h p a q : Nat} {k : Part} {y : Option Request} {w : Writer}
    (hw : s.Writes p a q k w) (hne : w ≠ .request h)
    (hrequests : s'.requests = Function.update s.requests h y) (hnotes : s'.notes = s.notes) :
    s'.Writes p a q k w := by
  cases w with
  | note m =>
      obtain ⟨n, hn, h⟩ := hw
      exact ⟨n, hnotes ▸ hn, h⟩
  | request h' =>
      have hh : h' ≠ h := fun hh => hne (congrArg _ hh)
      obtain ⟨x, hx, h⟩ := hw
      exact ⟨x, by rw [hrequests, Function.update_of_ne hh, hx], h⟩

/-- A table about which nothing has changed but what one of its writers does. -/
theorem Settled.of_others {p a q : Nat} {k : Part} {w₀ : Writer} (h : s.Settled p a q k)
    (hcopy : s'.copy a k q = s.copy a k q) (hrow : has s'.rows p q k = has s.rows p q k)
    (hothers : ∀ w, w ≠ w₀ → s.Writes p a q k w → s'.Writes p a q k w)
    (hself : s.Writes p a q k w₀ → s'.Settled p a q k) : s'.Settled p a q k := by
  rcases h with h | ⟨w, hw⟩
  · exact .inl (hcopy.trans (h.trans hrow.symm))
  · by_cases hne : w = w₀
    · exact hself (hne ▸ hw)
    · exact .inr ⟨w, hothers w hne hw⟩

/-- The others are going to write it. -/
theorem Else.settled {p a q : Nat} {k : Part} {w₀ : Writer} (h : s.Else p a q k w₀)
    (hothers : ∀ w, w ≠ w₀ → s.Writes p a q k w → s'.Writes p a q k w) : s'.Settled p a q k := by
  obtain ⟨w, hne, hw⟩ := h
  exact .inr ⟨w, hothers w hne hw⟩

/-! ## The manager -/

theorem tracked_init {rows : List Row} (h : Statuses rows) : (init rows).Tracked where
  fresh_agent := by simp [current, init]
  owner := by simp [current, init]
  fits := by simp [init]
  statuses := h
  settled := by simp [current, init]

/-- A new agent reads its rows. -/
theorem Tracked.load (hs : s.Tracked) (p : Nat) (status : Status)
    (copy : Nat → Part → Nat → Bool) (hold : ∀ a, a ≠ s.clock → copy a = s.copy a)
    (hnew : ∀ q k, copy s.clock k q = has s.rows p q k) :
    (({ s with
      copy := copy
      agents := Function.update s.agents s.clock (some p)
      clock := s.clock + 1 } : Online).setPlayer p (some ⟨some s.clock, status⟩)).Tracked := by
  set s' := ({ s with
    copy := copy
    agents := Function.update s.agents s.clock (some p)
    clock := s.clock + 1 } : Online).setPlayer p (some ⟨some s.clock, status⟩) with hs'
  have hself : ∀ a, s'.current p = some a → a = s.clock := by
    intro a h
    cases status <;> simp [hs', current, Online.setPlayer] at h <;> exact h.symm
  have hother : ∀ p', p' ≠ p → s'.current p' = s.current p' := by
    intro p' hp
    simp [hs', current, Online.setPlayer, hp]
  have hwrites : ∀ p' a q k w, s.Writes p' a q k w → s'.Writes p' a q k w := by
    intro p' a q k w h
    cases w <;> exact h
  refine ⟨fun p' a h => ?_, fun p' a h => ?_, hs.fits, hs.statuses, fun p' a q k h => ?_⟩
  · by_cases hp : p' = p
    · subst hp
      rw [hself a h]
      exact Nat.lt_succ_self _
    · rw [hother p' hp] at h
      exact Nat.lt_succ_of_lt (hs.fresh_agent p' a h)
  · change Function.update s.agents s.clock (some p) a = some p'
    by_cases hp : p' = p
    · subst hp
      rw [hself a h, Function.update_self]
    · rw [hother p' hp] at h
      rw [Function.update_of_ne (Nat.ne_of_lt (hs.fresh_agent p' a h))]
      exact hs.owner p' a h
  · by_cases hp : p' = p
    · subst hp
      rw [hself a h]
      exact .inl (hnew q k)
    · rw [hother p' hp] at h
      have hne : a ≠ s.clock := Nat.ne_of_lt (hs.fresh_agent p' a h)
      rcases hs.settled p' a q k h with hset | ⟨w, hw⟩
      · refine .inl ?_
        change copy a k q = _
        rw [hold a hne]
        exact hset
      · exact .inr ⟨w, hwrites p' a q k w hw⟩

/-- An agent that the manager does not know any more gets {lit}`kick`. -/
theorem Tracked.kick (hs : s.Tracked) {a p : Nat} (ha : s.agents a = some p)
    (hp : s.current p ≠ some a) :
    ({ s with agents := Function.update s.agents a none } : Online).Tracked where
  fresh_agent := hs.fresh_agent
  owner := fun p' a' h => by
    have hp' : s.agents a' = some p' := hs.owner p' a' h
    have hne : a' ≠ a := by
      rintro rfl
      obtain rfl : p = p' := Option.some.inj (ha.symm.trans hp')
      exact hp h
    exact (Function.update_of_ne hne _ _).trans hp'
  fits := hs.fits
  statuses := hs.statuses
  settled := fun p' a' q k h => by
    rcases hs.settled p' a' q k h with hset | ⟨w, hw⟩
    · exact .inl hset
    · exact .inr ⟨w, by cases w <;> exact hw⟩

/-! ## Requests up to the database -/

/-- A request begins. -/
theorem Tracked.start (hs : s.Tracked) (hfresh : s.Fresh) {a : Nat} {x : Request}
    (hself : s.agents a = some x.self) (hagent : x.agent = a) (hfits : x.Fits)
    (hown : x.own = x.op.early) : ((s.put a x.target x.op.early).start x).Tracked := by
  subst hagent
  refine hs.of_effect rfl rfl (Nat.le_succ _) (hs.fits_update hfits) hs.statuses
    fun p a q k hp hset => ?_
  have hothers : ∀ w, w ≠ .request s.clock → s.Writes p a q k w →
      ((s.put x.agent x.target x.op.early).start x).Writes p a q k w :=
    fun w hne hw => hw.update hne rfl rfl
  have hnone : ¬ s.Writes p a q k (.request s.clock) := by
    rintro ⟨y, hy, -⟩
    rw [hfresh.request _ (Nat.le_refl _)] at hy
    cases hy
  by_cases hwrites : a = x.agent ∧ q = x.target ∧ (x.op.early k).isSome
  · obtain ⟨rfl, rfl, hsome⟩ := hwrites
    exact .inr ⟨.request s.clock, x, Function.update_self _ _ _,
      .inl ⟨rfl, Option.some.inj (hself.symm.trans (hs.owner p _ hp)), rfl, by
        rw [hown]
        exact hsome⟩⟩
  · refine hset.of_others ?_ rfl hothers fun h => absurd h hnone
    change (s.put x.agent x.target x.op.early).copy a k q = _
    rw [put_copy]
    split_ifs with h
    · have hk : x.op.early k = none := by
        by_contra hk
        exact hwrites ⟨h.1, h.2, Option.isSome_iff_ne_none.mpr hk⟩
      rw [hk, Option.getD_none]
    · rfl

theorem Tracked.call (hs : s.Tracked) (hfresh : s.Fresh) {a : Nat} (op : Op) {self : Nat}
    (target : Nat)
    (hself : s.agents a = some self) : (s.call a op self target).Tracked := by
  unfold Online.call
  cases op with
  | add =>
      dsimp only
      split
      · exact hs
      · exact hs.start hfresh (x := ⟨.add, a, self, target, .beginning, [], [], none⟩) hself rfl
          (.inl rfl) rfl
  | accept =>
      dsimp only
      split
      · exact hs
      · exact hs.start hfresh (x := ⟨.accept, a, self, target, .beginning, [], [], none⟩) hself rfl
          (.inr rfl) rfl
  | delete =>
      dsimp only
      split
      · exact hs
      · exact hs.start hfresh (x := ⟨.delete, a, self, target, .deleting, [], [], none⟩) hself rfl
          (.inl rfl) rfl
  | reject =>
      dsimp only
      split
      · exact hs
      · exact hs.start hfresh (x := ⟨.reject, a, self, target, .deleting, [], [], none⟩) hself rfl
          (.inr rfl) rfl

/-- A request that goes on and has as much to write as before. -/
structure Goes (x y : Request) : Prop where
  fits : y.Fits
  agent : y.agent = x.agent
  self : y.self = x.self
  target : y.target = x.target
  owes : y.owes = x.owes
  own : ∀ k, (x.own k).isSome → (y.own k).isSome
  owed : ∀ k, (x.owed k).isSome → (y.owed k).isSome

/-- Its writes go on. -/
theorem Goes.writes {x y : Request} {h : Nat} (hgoes : Goes x y) (hx : s.requests h = some x)
    (hy : s'.requests h = some y) {p a q : Nat} {k : Part}
    (hw : s.Writes p a q k (.request h)) : s'.Writes p a q k (.request h) := by
  obtain ⟨z, hz, hw⟩ := hw
  obtain rfl : x = z := Option.some.inj (hx.symm.trans hz)
  refine ⟨y, hy, ?_⟩
  rw [hgoes.agent, hgoes.self, hgoes.target, hgoes.owes]
  rcases hw with ⟨h₁, h₂, h₃, h₄⟩ | ⟨h₁, h₂, h₃, h₄⟩
  · exact .inl ⟨h₁, h₂, h₃, hgoes.own k h₄⟩
  · exact .inr ⟨h₁, h₂, h₃, hgoes.owed k h₄⟩

theorem Tracked.goOn (hs : s.Tracked) {h : Nat} {x y : Request} (hx : s.requests h = some x)
    (hgoes : Goes x y) : (s.goOn h y).Tracked := by
  refine hs.of_effect rfl rfl (Nat.le_refl _) (hs.fits_update hgoes.fits) hs.statuses
    fun p a q k _ hset => ?_
  exact hset.of_others rfl rfl (fun w hne hw => hw.update hne rfl rfl)
    fun hw => .inr ⟨_, hgoes.writes hx (Function.update_self _ _ _) hw⟩

/-- The database is not done with the table, and the transaction may be rolled back. -/
theorem goes_of {x : Request} {wait : Wait} {locks read : List Nat}
    (hfits : ({ x with wait := wait, locks := locks, read := read } : Request).Fits)
    (hown : ∀ k, (x.own k).isSome →
      (({ x with wait := wait, locks := locks, read := read } : Request).own k).isSome)
    (howed : x.owed = .nothing) :
    Goes x { x with wait := wait, locks := locks, read := read } where
  fits := hfits
  agent := rfl
  self := rfl
  target := rfl
  owes := rfl
  own := hown
  owed := fun k h => by
    rw [howed] at h
    cases h

/-- A request without a statement that changes the table, up to its answer. -/
theorem decided_goes {op : Op} {agent self target : Nat} {locks read : List Nat}
    {owes : Option Nat} {firstRows : List Row} (hop : op = .add ∨ op = .accept) :
    Goes ⟨op, agent, self, target, .readingSecond firstRows, locks, read, owes⟩
      (s.decided ⟨op, agent, self, target, .readingSecond firstRows, locks, read, owes⟩
        firstRows) := by
  unfold decided
  rcases hop with rfl | rfl
  · dsimp only
    split
    · refine goes_of ?_ (fun k h => h) rfl
      exact .inl rfl
    · refine goes_of ?_ (fun k h => h) rfl
      exact .inl rfl
  · dsimp only
    split
    next w hw =>
      obtain rfl := decideAccept_accepted hw
      refine goes_of ?_ (fun k h => h) rfl
      exact .inr ⟨rfl, rfl⟩
    next =>
      refine goes_of ?_ (fun k h => h) rfl
      exact .inr rfl
    next =>
      refine goes_of ?_ (fun k _ => ?_) rfl
      · exact .inr rfl
      · cases k <;> rfl

/-- The statements that leave the table as it is. -/
theorem advance_goes {h : Nat} {x y : Request} {found : Bool} (hfits : x.Fits)
    (hy : s.advance h x found = some y) : Goes x y := by
  obtain ⟨op, agent, self, target, wait, locks, read, owes⟩ := x
  cases wait with
  | beginning =>
      obtain rfl := Option.some.inj hy
      exact goes_of hfits (fun k h => h) rfl
  | lockingFirst =>
      unfold advance at hy
      dsimp only at hy
      split_ifs at hy
      · obtain rfl := Option.some.inj hy
        exact goes_of hfits (fun k h => h) rfl
      · obtain rfl := Option.some.inj hy
        exact goes_of hfits (fun k h => h) rfl
  | lockingSecond =>
      unfold advance at hy
      dsimp only at hy
      split_ifs at hy
      · obtain rfl := Option.some.inj hy
        exact goes_of hfits (fun k h => h) rfl
      · obtain rfl := Option.some.inj hy
        exact goes_of hfits (fun k h => h) rfl
  | readingFirst =>
      obtain rfl := Option.some.inj hy
      exact goes_of hfits (fun k h => h) rfl
  | readingSecond firstRows =>
      obtain rfl := Option.some.inj hy
      exact decided_goes hfits
  | writing w =>
      cases w with
      | accepted =>
          obtain rfl := Option.some.inj hy
          exact goes_of hfits (fun k h => h) rfl
      | pending =>
          have hop : op = .add := by
            rcases hfits with h | h
            · exact h
            · cases h.2
          unfold advance at hy
          dsimp only at hy
          split_ifs at hy
          · obtain rfl := Option.some.inj hy
            refine goes_of ?_ (fun k h => h) rfl
            exact .inl hop
          · obtain rfl := Option.some.inj hy
            refine goes_of ?_ (fun k h => h) rfl
            exact .inl hop
  | rollingBack =>
      obtain rfl := Option.some.inj hy
      refine goes_of hfits (fun k h => ?_) rfl
      rcases hfits with rfl | rfl
      · cases h
      · cases k <;> rfl
  | committing | committed | rolledBack | leaving | deleting | deleted | asking | abandoned =>
      cases hy

/-! ## The statements that change the table -/

/-- A request that waits for the database writes what it has written too early. -/
theorem Writes.early {h p a q : Nat} {k : Part} {x : Request}
    (hw : s.Writes p a q k (.request h)) (hx : s.requests h = some x)
    (hwait : x.wait = .deleting ∨ ∃ w, x.wait = .committing w) :
    x.agent = a ∧ x.self = p ∧ x.target = q ∧ (x.op.early k).isSome := by
  obtain ⟨z, hz, hw⟩ := hw
  obtain rfl : x = z := Option.some.inj (hx.symm.trans hz)
  unfold Request.own Request.owed at hw
  rcases hwait with hwait | ⟨w, hwait⟩
  · rw [hwait] at hw
    exact hw.resolve_right fun ⟨_, _, _, h⟩ => by cases h
  · rw [hwait] at hw
    exact hw.resolve_right fun ⟨_, _, _, h⟩ => by cases h

/-- A transaction commits. -/
theorem Tracked.commit (hs : s.Tracked) {h : Nat} {x : Request} {w : Write}
    (hx : s.requests h = some x) (hwait : x.wait = .committing w) (hchanges : s.Changes h x) :
    (({ s with rows := w.apply s.rows x.self x.target } : Online).goOn h
      { x with wait := .committed w, locks := [], read := [],
               owes := s.current x.target }).Tracked := by
  set y : Request := { x with wait := .committed w, locks := [], read := [],
                              owes := s.current x.target } with hy
  set s' := ({ s with rows := w.apply s.rows x.self x.target } : Online).goOn h y with hs'
  have hfits : x.op = .add ∨ x.op = .accept ∧ w = .accepted := by
    have := hs.fits h x hx
    unfold Request.Fits at this
    rwa [hwait] at this
  have hself : s'.requests h = some y := Function.update_self _ _ _
  refine hs.of_effect rfl rfl (Nat.le_refl _) (hs.fits_update hfits)
    (statuses_apply hs.statuses _ _ w) fun p a q k hp hset => ?_
  have hothers : ∀ v, v ≠ .request h → s.Writes p a q k v → s'.Writes p a q k v :=
    fun v hne hv => hv.update hne rfl rfl
  have hearly : s.Writes p a q k (.request h) →
      x.agent = a ∧ x.self = p ∧ x.target = q ∧ x.op = .accept ∧ w = .accepted := by
    intro hv
    obtain ⟨h₁, h₂, h₃, h₄⟩ := hv.early hx (.inr ⟨w, hwait⟩)
    refine ⟨h₁, h₂, h₃, hfits.resolve_left fun hop => ?_⟩
    rw [hop] at h₄
    cases h₄
  by_cases htarget : p = x.target ∧ q = x.self
  · by_cases howed : ((x.cmd w).effect k).isSome
    · exact .inr ⟨.request h, y, hself,
        .inr ⟨(congrArg s.current htarget.1).symm.trans hp, htarget.1.symm, htarget.2.symm, howed⟩⟩
    · -- only a request leaves one of the two tables
      have hadd : w = .pending ∧ k = .friends := by
        unfold Request.cmd at howed
        rcases hfits with hop | ⟨hop, rfl⟩
        · rw [hop] at howed
          cases w <;> cases k <;> simp_all [Cmd.effect, Effect.befriend, Effect.ask]
        · rw [hop] at howed
          cases k <;> simp_all [Cmd.effect, Effect.befriend]
      obtain ⟨rfl, rfl⟩ := hadd
      refine hset.of_others rfl ?_ hothers fun hv => ?_
      · change has (Write.pending.apply s.rows x.self x.target) p q .friends = _
        rw [has_pending]
        simp
      · exact absurd (hearly hv).2.2.2.2 (by decide)
  by_cases hown : p = x.self ∧ q = x.target
  · obtain ⟨rfl, rfl⟩ := hown
    cases w with
    | pending =>
        refine hset.of_others rfl ?_ hothers fun hv => ?_
        · change has (Write.pending.apply s.rows x.self x.target) _ _ _ = _
          rw [has_pending]
          simp [htarget]
        · exact absurd (hearly hv).2.2.2.2 (by decide)
    | accepted =>
        have hgone : has s'.rows x.self x.target k = decide (k = .friends) := by
          change has (Write.accepted.apply s.rows x.self x.target) _ _ _ = _
          rw [has_accepted, if_pos (.inl ⟨rfl, rfl⟩)]
        by_cases hagent : a = x.agent
        swap
        · have hchange := (hchanges.1.resolve_left (by rw [hwait]; decide) a hp).resolve_left hagent
          rcases hchange k with hsame | helse
          · rw [Request.leaves, hwait] at hsame
            exact hset.of_others rfl (hgone.trans hsame.symm) hothers
              fun hv => absurd (hearly hv).1.symm hagent
          · exact helse.settled hothers
        subst hagent
        rcases hfits with hop | ⟨hop, -⟩
        · refine .inr ⟨.request h, y, hself, .inl ⟨rfl, rfl, rfl, ?_⟩⟩
          rw [show y.own = .befriend from if_pos hop]
          cases k <;> rfl
        · have hwritten : x.op.early k = some (decide (k = .friends)) := by
            rw [hop]
            cases k <;> rfl
          rcases hchanges.2.1 k _ hp hwritten with hcopy | helse
          · exact .inl (hcopy.trans hgone.symm)
          · exact helse.settled hothers
  · refine hset.of_others rfl ?_ hothers fun hv => ?_
    · change has (w.apply s.rows x.self x.target) p q k = _
      cases w with
      | accepted => rw [has_accepted, if_neg (not_or.mpr ⟨hown, htarget⟩)]
      | pending =>
          rw [has_pending]
          simp [htarget]
    · obtain ⟨-, h₁, h₂, -⟩ := hearly hv
      exact absurd ⟨h₁.symm, h₂.symm⟩ hown

/-- A row is deleted. -/
theorem Tracked.delete (hs : s.Tracked) {h : Nat} {x : Request} {rows : List Row}
    (hx : s.requests h = some x) (hwait : x.wait = .deleting) (hchanges : s.Changes h x)
    (hrows : rows = if x.op = .delete then
      deleteKey (deleteKey s.rows x.target x.self) x.self x.target
      else deleteKey s.rows x.self x.target) :
    (({ s with rows := rows } : Online).goOn h
      { x with wait := .deleted, locks := [], read := [],
               owes := s.current x.target }).Tracked := by
  set y : Request := { x with wait := .deleted, locks := [], read := [],
                              owes := s.current x.target } with hy
  set s' := ({ s with rows := rows } : Online).goOn h y with hs'
  have hfits : x.op = .delete ∨ x.op = .reject := by
    have := hs.fits h x hx
    unfold Request.Fits at this
    rwa [hwait] at this
  have hself : s'.requests h = some y := Function.update_self _ _ _
  have hstatuses : Statuses rows := by
    rw [hrows]
    split_ifs
    · exact statuses_deleteKey (statuses_deleteKey hs.statuses _ _) _ _
    · exact statuses_deleteKey hs.statuses _ _
  refine hs.of_effect rfl rfl (Nat.le_refl _) (hs.fits_update hfits) hstatuses
    fun p a q k hp hset => ?_
  have hothers : ∀ v, v ≠ .request h → s.Writes p a q k v → s'.Writes p a q k v :=
    fun v hne hv => hv.update hne rfl rfl
  have hearly : s.Writes p a q k (.request h) →
      x.agent = a ∧ x.self = p ∧ x.target = q ∧ (x.op.early k).isSome :=
    fun hv => hv.early hx (.inl hwait)
  by_cases hown : p = x.self ∧ q = x.target
  · obtain ⟨rfl, rfl⟩ := hown
    have hgone : has rows x.self x.target k = false := by
      rw [hrows]
      split_ifs <;> simp [has_deleteKey]
    by_cases hagent : a = x.agent
    swap
    · have hchange := (hchanges.1.resolve_left (by rw [hwait]; simp) a hp).resolve_left hagent
      rcases hchange k with hsame | helse
      · rw [Request.leaves, hwait] at hsame
        exact hset.of_others rfl (hgone.trans hsame.symm) hothers
          fun hv => absurd (hearly hv).1.symm hagent
      · exact helse.settled hothers
    subst hagent
    cases hk : x.op.early k with
    | some b =>
        have hb : b = false := by
          rcases hfits with hop | hop <;> rw [hop] at hk <;> cases k <;>
            simp [Op.early, Effect.forget, Effect.decline] at hk <;> exact hk
        rcases hchanges.2.1 k b hp hk with hcopy | helse
        · exact .inl (hcopy.trans (hb.trans hgone.symm))
        · exact helse.settled hothers
    | none =>
        rcases (hchanges.2.2 hwait k hk).1 hp with hno | helse
        · refine hset.of_others rfl (hgone.trans hno.symm) hothers fun hv => ?_
          have := (hearly hv).2.2.2
          rw [hk] at this
          cases this
        · exact helse.settled hothers
  have hstays : s.Writes p a q k (.request h) → s'.Settled p a q k := by
    intro hv
    obtain ⟨-, h₁, h₂, -⟩ := hearly hv
    exact absurd ⟨h₁.symm, h₂.symm⟩ hown
  by_cases htarget : x.op = .delete ∧ p = x.target ∧ q = x.self
  · obtain ⟨hop, rfl, rfl⟩ := htarget
    have hgone : has rows x.target x.self k = false := by
      rw [hrows, if_pos hop]
      simp [has_deleteKey]
    cases k with
    | friends =>
        refine .inr ⟨.request h, y, hself, .inr ⟨hp, rfl, rfl, ?_⟩⟩
        rw [show y.owed = .forget from if_pos hop]
        rfl
    | pending =>
        have hk : x.op.early .pending = none := by
          rw [hop]
          rfl
        rcases (hchanges.2.2 hwait .pending hk).2 hop a hp with hno | helse
        · exact hset.of_others rfl (hgone.trans hno.symm) hothers hstays
        · exact helse.settled hothers
  · refine hset.of_others rfl ?_ hothers hstays
    change has rows p q k = _
    rw [hrows]
    split_ifs with hop
    · have hnot : ¬ (p = x.target ∧ q = x.self) := fun h => htarget ⟨hop, h⟩
      rw [has_deleteKey, has_deleteKey, if_neg hown, if_neg hnot]
    · rw [has_deleteKey, if_neg hown]

theorem Tracked.executed (hs : s.Tracked) {h : Nat} {x : Request} {found : Bool}
    (hx : s.requests h = some x)
    (hkept : x.wait = .deleting ∨ (∃ w, x.wait = .committing w) → s.Changes h x)
    (hstep : s.executed h x found = some s') : s'.Tracked := by
  unfold Online.executed at hstep
  split at hstep
  next rows wait hchanged =>
    obtain rfl := Option.some.inj hstep
    unfold changed at hchanged
    split at hchanged
    next w hwait =>
      cases hchanged
      exact hs.commit hx hwait (hkept (.inr ⟨w, hwait⟩))
    next hwait =>
      split at hchanged
      next hop =>
        split_ifs at hchanged
        cases hchanged
        exact hs.delete hx hwait (hkept (.inl hwait)) (if_pos hop).symm
      next hop =>
        split_ifs at hchanged
        cases hchanged
        exact hs.delete hx hwait (hkept (.inl hwait)) (if_neg hop).symm
    next => cases hchanged
  next =>
    obtain ⟨y, hy, rfl⟩ := Option.map_eq_some_iff.mp hstep
    exact hs.goOn hx (advance_goes (hs.fits h x hx) hy)

/-! ## Answers and notifications -/

/-- The last writer of a table tells what the rows say. -/
theorem Settled.writes {p a q a' q' : Nat} {k : Part} {e : Effect} {w₀ : Writer}
    (hset : s.Settled p a q k) (hp : s.current p = some a) (hright : s.Right w₀ a' q' e)
    (hcopy : s'.copy a k q = (s.put a' q' e).copy a k q) (hrows : s'.rows = s.rows)
    (hothers : ∀ w, w ≠ w₀ → s.Writes p a q k w → s'.Writes p a q k w)
    (hself : ¬ (a = a' ∧ q = q' ∧ (e k).isSome) → s.Writes p a q k w₀ →
      s'.Settled p a q k) : s'.Settled p a q k := by
  rw [put_copy] at hcopy
  by_cases hwrites : a = a' ∧ q = q' ∧ (e k).isSome
  · obtain ⟨rfl, rfl, hsome⟩ := hwrites
    obtain ⟨b, hb⟩ := Option.isSome_iff_exists.mp hsome
    rcases hright p k b hp hb with hrow | helse
    · refine .inl (hcopy.trans ?_)
      rw [if_pos ⟨rfl, rfl⟩, hb, Option.getD_some, hrows, hrow]
    · exact helse.settled hothers
  · refine hset.of_others ?_ (by rw [hrows]) hothers (hself hwrites)
    rw [hcopy]
    split_ifs with h
    · have hk : e k = none := by
        by_contra hk
        exact hwrites ⟨h.1, h.2, Option.isSome_iff_ne_none.mpr hk⟩
      rw [hk, Option.getD_none]
    · rfl

/-- An agent goes on with an answer. -/
theorem Tracked.answer (hs : s.Tracked) {h : Nat} {x : Request} {y : Option Request}
    (hx : s.requests h = some x) (hright : s.Right (.request h) x.agent x.target x.own)
    (hfits : ∀ z, y = some z → z.Fits)
    (howed : ∀ k, (x.owed k).isSome → ∃ z, y = some z ∧ z.self = x.self ∧ z.target = x.target ∧
      z.owes = x.owes ∧ (z.owed k).isSome) :
    ({ s.put x.agent x.target x.own with
      requests := Function.update s.requests h y } : Online).Tracked := by
  refine hs.of_effect rfl rfl (Nat.le_refl _) (fun h' z hz => ?_) hs.statuses
    fun p a q k hp hset => ?_
  · cases y with
    | none => exact hs.fits_erase h' z hz
    | some y => exact hs.fits_update (hfits y rfl) h' z hz
  · refine hset.writes hp hright rfl rfl (fun w hne hw => hw.update hne rfl rfl)
      fun hnot hw => ?_
    obtain ⟨z, hz, hw⟩ := hw
    obtain rfl : x = z := Option.some.inj (hx.symm.trans hz)
    rcases hw with ⟨h₁, -, h₃, h₄⟩ | ⟨h₁, h₂, h₃, h₄⟩
    · exact absurd ⟨h₁.symm, h₃.symm, h₄⟩ hnot
    · obtain ⟨z, rfl, hzself, hztarget, hzowes, hzowed⟩ := howed k h₄
      exact .inr ⟨.request h, z, Function.update_self _ _ _,
        .inr ⟨hzowes.trans h₁, hztarget.trans h₂, hzself.trans h₃, hzowed⟩⟩

theorem Tracked.resumed (hs : s.Tracked) {h : Nat} {x : Request} (hx : s.requests h = some x)
    (hright : s.Right (.request h) x.agent x.target x.own)
    (hstep : s.resumed h x = some s') : s'.Tracked := by
  unfold Online.resumed at hstep
  dsimp only at hstep
  split at hstep
  next w hwait =>
    obtain rfl := Option.some.inj hstep
    refine hs.answer (y := some { x with wait := .asking (x.cmd w) }) hx hright ?_ fun k hk => ?_
    · rintro z ⟨⟩
      exact trivial
    · refine ⟨_, rfl, rfl, rfl, rfl, ?_⟩
      unfold Request.owed at hk
      rwa [hwait] at hk
  next hwait =>
    obtain rfl := Option.some.inj hstep
    refine hs.answer (y := none) hx hright (fun z hz => by cases hz) fun k hk => ?_
    unfold Request.owed at hk
    rw [hwait] at hk
    cases hk
  next hwait =>
    obtain rfl := Option.some.inj hstep
    refine hs.answer (y := some { x with wait := .abandoned }) hx hright ?_ fun k hk => ?_
    · rintro z ⟨⟩
      exact trivial
    · unfold Request.owed at hk
      rw [hwait] at hk
      cases hk
  next hwait =>
    split_ifs at hstep with hop
    · obtain rfl := Option.some.inj hstep
      refine hs.answer (y := some { x with wait := .asking .friendDelete }) hx hright ?_
        fun k hk => ?_
      · rintro z ⟨⟩
        exact trivial
      · refine ⟨_, rfl, rfl, rfl, rfl, ?_⟩
        unfold Request.owed at hk
        rw [hwait] at hk
        dsimp only at hk
        rwa [if_pos hop] at hk
    · obtain rfl := Option.some.inj hstep
      refine hs.answer (y := none) hx hright (fun z hz => by cases hz) fun k hk => ?_
      unfold Request.owed at hk
      rw [hwait] at hk
      dsimp only at hk
      rw [if_neg hop] at hk
      cases hk
  next => cases hstep

/-- The target is told, if the manager knows its agent. -/
theorem Tracked.notify (hs : s.Tracked) (hfresh : s.Fresh) {h : Nat} {x : Request} {cmd : Cmd}
    (hx : s.requests h = some x) (hwait : x.wait = .asking cmd)
    (hkept : ∀ a k, x.owes = some a → s.current x.target = some a → (x.owed k).isSome →
      s.players x.target = some ⟨some a, .game⟩ ∨
        s.copy a k x.self = has s.rows x.target x.self k ∨
        s.Else x.target a x.self k (.request h)) :
    (s.notify h x cmd).Tracked := by
  have howed : x.owed = cmd.effect := by
    unfold Request.owed
    rw [hwait]
  have hown : x.own = .nothing := by
    unfold Request.own
    rw [hwait]
  have howes : ∀ p a q k, s.Writes p a q k (.request h) →
      x.owes = some a ∧ x.target = p ∧ x.self = q ∧ (cmd.effect k).isSome := by
    rintro p a q k ⟨z, hz, hw⟩
    obtain rfl : x = z := Option.some.inj (hx.symm.trans hz)
    rw [hown, howed] at hw
    rcases hw with ⟨-, -, -, h₄⟩ | hw
    · cases h₄
    · exact hw
  unfold Online.notify
  split
  next a' hplayer =>
    refine hs.of_effect rfl rfl (Nat.le_succ _) (fun h' z hz => hs.fits_erase h' z hz) hs.statuses
      fun p a q k hp hset => ?_
    have hothers : ∀ w, w ≠ .request h → s.Writes p a q k w →
        ((s.send ⟨a', cmd, x.self⟩).ended h).Writes p a q k w := by
      intro w hne hw
      cases w with
      | note m =>
          obtain ⟨n, hn, hw⟩ := hw
          have hm : m ≠ s.clock := by
            rintro rfl
            rw [hfresh.note _ (Nat.le_refl _)] at hn
            cases hn
          exact ⟨n, (Function.update_of_ne hm _ _).trans hn, hw⟩
      | request h' =>
          have hh : h' ≠ h := fun hh => hne (congrArg _ hh)
          obtain ⟨z, hz, hw⟩ := hw
          exact ⟨z, (Function.update_of_ne hh _ _).trans hz, hw⟩
    refine hset.of_others rfl rfl hothers fun hw => ?_
    obtain ⟨h₁, rfl, rfl, h₄⟩ := howes p a q k hw
    rcases hkept a k h₁ hp (howed ▸ h₄) with hgame | hsame | helse
    · rw [hplayer] at hgame
      cases hgame
      exact .inr ⟨.note s.clock, _, Function.update_self _ _ _, rfl, rfl, h₄⟩
    · exact .inl hsame
    · exact helse.settled hothers
  next hplayer =>
    refine hs.of_effect rfl rfl (Nat.le_refl _) (fun h' z hz => hs.fits_erase h' z hz) hs.statuses
      fun p a q k hp hset => ?_
    have hothers : ∀ w, w ≠ .request h → s.Writes p a q k w → (s.ended h).Writes p a q k w :=
      fun w hne hw => hw.update hne rfl rfl
    refine hset.of_others rfl rfl hothers fun hw => ?_
    obtain ⟨h₁, rfl, rfl, h₄⟩ := howes p a q k hw
    rcases hkept a k h₁ hp (howed ▸ h₄) with hgame | hsame | helse
    · exact absurd hgame (hplayer a)
    · exact .inl hsame
    · exact helse.settled hothers

/-- A notification arrives. -/
theorem Tracked.deliver (hs : s.Tracked) {m : Nat} {n : Note} (hn : s.notes m = some n)
    (hright : s.Right (.note m) n.agent n.playerid n.cmd.effect) :
    (({ s with notes := Function.update s.notes m none } : Online).put n.agent n.playerid
      n.cmd.effect).Tracked := by
  refine hs.of_effect rfl rfl (Nat.le_refl _) hs.fits hs.statuses fun p a q k hp hset => ?_
  refine hset.writes hp hright rfl rfl (fun w hne hw => ?_) fun hnot hw => ?_
  · cases w with
    | request h => exact hw
    | note m' =>
        have hm : m' ≠ m := fun hm => hne (congrArg _ hm)
        obtain ⟨z, hz, hw⟩ := hw
        exact ⟨z, (Function.update_of_ne hm _ _).trans hz, hw⟩
  · obtain ⟨z, hz, h₁, h₂, h₃⟩ := hw
    obtain rfl : n = z := Option.some.inj (hn.symm.trans hz)
    exact absurd ⟨h₁.symm, h₂.symm, h₃⟩ hnot

/-- A transaction that has no request any more ends. -/
theorem Tracked.settle (hs : s.Tracked) {h : Nat} {x : Request} (hx : s.requests h = some x)
    (hover : x.Over) : (s.ended h).Tracked := by
  refine hs.of_effect rfl rfl (Nat.le_refl _) (fun h' z hz => hs.fits_erase h' z hz) hs.statuses
    fun p a q k hp hset => ?_
  refine hset.of_others rfl rfl (fun w hne hw => hw.update hne rfl rfl) fun hw => ?_
  obtain ⟨z, hz, hw⟩ := hw
  obtain rfl : x = z := Option.some.inj (hx.symm.trans hz)
  have hwait : x.wait = .abandoned := hover
  unfold Request.own Request.owed at hw
  rw [hwait] at hw
  rcases hw with ⟨-, -, -, h₄⟩ | ⟨-, -, -, h₄⟩
  · cases h₄
  · cases h₄

/-! ## Runs -/

theorem step_tracked {e : Turn} (hs : s.Tracked) (hfresh : s.Fresh) (hkept : s.Kept e)
    (hstep : s.step e = some s') : s'.Tracked := by
  cases e with
  | reqlogin p =>
      simp only [step] at hstep
      split at hstep
      · cases hstep
      · obtain rfl := Option.some.inj hstep
        exact hs.setPlayer p _ fun a h => by simp [current, Online.setPlayer] at h
  | load p =>
      simp only [step] at hstep
      split at hstep
      next status hplayer =>
        obtain rfl := Option.some.inj hstep
        refine hs.load p status _ (fun a ha => Function.update_of_ne ha _ _) fun q k => ?_
        rw [Function.update_self]
        have hrows := has_load hs.statuses p q
        cases k with
        | friends => exact hrows.1.symm
        | pending => exact hrows.2.symm
      next => cases hstep
  | confirmLogin p isSucc =>
      simp only [step] at hstep
      split at hstep
      next agent hplayer =>
        obtain rfl := Option.some.inj hstep
        refine hs.setPlayer p _ fun a h => ?_
        cases isSucc with
        | true => simpa [current, Online.setPlayer, hplayer] using h
        | false => simp [current, Online.setPlayer] at h
      next =>
        obtain rfl := Option.some.inj hstep
        exact hs.setPlayer p _ fun a h => by simp [current, Online.setPlayer] at h
      next => cases hstep
  | logout p =>
      simp only [step] at hstep
      split at hstep
      next agent hplayer =>
        obtain rfl := Option.some.inj hstep
        exact hs.setPlayer p _ fun a h => by simp [current, Online.setPlayer] at h
      next => cases hstep
  | kicked p =>
      simp only [step] at hstep
      split at hstep
      next agent hplayer =>
        split_ifs at hstep
        obtain rfl := Option.some.inj hstep
        exact hs.setPlayer p _ fun a h => by simp [current, Online.setPlayer] at h
      next => cases hstep
  | kick a =>
      simp only [step] at hstep
      split at hstep
      next p ha =>
        split_ifs at hstep with hp
        obtain rfl := Option.some.inj hstep
        exact hs.kick ha hp
      next => cases hstep
  | call op a target =>
      simp only [step] at hstep
      split at hstep
      next self hself =>
        obtain rfl := Option.some.inj hstep
        exact hs.call hfresh op target hself
      next => cases hstep
  | execute h found =>
      simp only [step] at hstep
      split at hstep
      next x hx => exact hs.executed hx (hkept x hx) hstep
      next => cases hstep
  | resume h =>
      simp only [step] at hstep
      split at hstep
      next x hx => exact hs.resumed hx (hkept x hx) hstep
      next => cases hstep
  | getPlayer h =>
      simp only [step] at hstep
      split at hstep
      next hx =>
        obtain rfl := Option.some.inj hstep
        exact hs.notify hfresh hx rfl fun a k => hkept _ a k hx
      next => cases hstep
  | deliver m =>
      simp only [step] at hstep
      split at hstep
      next n hn =>
        obtain rfl := Option.some.inj hstep
        exact hs.deliver hn (hkept n hn)
      next => cases hstep
  | settle h =>
      simp only [step] at hstep
      split at hstep
      next x hx =>
        split_ifs at hstep with hover
        obtain rfl := Option.some.inj hstep
        exact hs.settle hx hover
      next => cases hstep

theorem Reach.tracked {rows : List Row} (hrows : Statuses rows) (hr : Reach rows Kept s) :
    s.Tracked := by
  induction hr with
  | init => exact tracked_init hrows
  | step hr hkept hstep ih => exact step_tracked ih hr.fresh hkept hstep

/-- The tables of every player with the status {lit}`GAME` have what the rows have. -/
def Converged (s : Online) : Prop :=
  ∀ p a, s.players p = some ⟨some a, .game⟩ → ∀ q,
    (s.copy a .friends q = true ↔ ⟨p, q, 1⟩ ∈ s.rows) ∧
      (s.copy a .pending q = true ↔ ⟨p, q, 0⟩ ∈ s.rows)

/-- Nobody writes anything when nothing runs. -/
theorem Quiet.not_writes (hquiet : s.Quiet) {p a q : Nat} {k : Part} (w : Writer) :
    ¬ s.Writes p a q k w := by
  cases w with
  | note m =>
      rintro ⟨n, hn, -⟩
      rw [hquiet.2 m] at hn
      cases hn
  | request h =>
      rintro ⟨x, hx, hw⟩
      have hwait : x.wait = .abandoned := hquiet.1 h x hx
      unfold Request.own Request.owed at hw
      rw [hwait] at hw
      rcases hw with ⟨-, -, -, h₄⟩ | ⟨-, -, -, h₄⟩
      · cases h₄
      · cases h₄

theorem Tracked.converged (hs : s.Tracked) (hquiet : s.Quiet) : s.Converged := by
  intro p a hplayer q
  have hcurrent : s.current p = some a := by
    unfold current
    rw [hplayer]
  have hcopy : ∀ k, s.copy a k q = has s.rows p q k := fun k =>
    (hs.settled p a q k hcurrent).resolve_right fun ⟨w, hw⟩ => hquiet.not_writes w hw
  rw [hcopy, hcopy, has_eq_true, has_eq_true]
  exact ⟨Iff.rfl, Iff.rfl⟩

end Online

end BallServer.Agent.Friend
