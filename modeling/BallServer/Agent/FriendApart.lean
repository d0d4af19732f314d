import BallServer.Agent.FriendConverges

/-!
# Requests that keep apart

The agents of two players ask about each other one at a time: a request of the agent that a
player has begins when no request about the two players runs and no notification about one of
them is on its way to the agent of the other.  A new agent reads its rows when no request of an
older agent of its player runs.  An agent that had read its rows before a request changed them
has the status {lit}`GAME` when the manager is asked whom to tell.

Requests about other players may run between any two turns, and so may logins and logouts.

Main results:

- Definition {lit}`Online.Apart`: the condition on a turn.
- Definition {lit}`Online.Orderly`: what holds between such turns.
- Theorem {lit}`Online.kept_of_apart`: such a turn keeps every table right, or in the care of
  somebody who is going to write it.
-/

namespace BallServer.Agent.Friend

/-! ## The table -/

/-- A key has one row, a friendship has both its rows, and nobody has a row with himself. -/
structure Friendly (rows : List Row) : Prop where
  statuses : Statuses rows
  one : ∀ p q, has rows p q .friends = true → has rows p q .pending = false
  both : ∀ p q, has rows p q .friends = true → has rows q p .friends = true
  others : ∀ p k, has rows p p k = false

variable {rows rows' : List Row} {p q : Nat}

/-- Who has asked is no friend. -/
theorem Friendly.not_friends (hr : Friendly rows) (h : has rows p q .pending = true) :
    has rows p q .friends = false := by
  cases hfriends : has rows p q .friends with
  | false => rfl
  | true =>
      rw [hr.one p q hfriends] at h
      cases h

theorem Friendly.accepted (hr : Friendly rows) (hne : p ≠ q) :
    Friendly (Write.accepted.apply rows p q) where
  statuses := statuses_apply hr.statuses p q .accepted
  one := fun a b h => by
    rw [has_accepted] at h ⊢
    by_cases hab : (a = p ∧ b = q) ∨ (a = q ∧ b = p)
    · rw [if_pos hab]
      rfl
    · rw [if_neg hab] at h ⊢
      exact hr.one a b h
  both := fun a b h => by
    rw [has_accepted] at h ⊢
    by_cases hab : (a = p ∧ b = q) ∨ (a = q ∧ b = p)
    · rw [if_pos (by tauto)]
      rfl
    · rw [if_neg hab] at h
      rw [if_neg (by tauto)]
      exact hr.both a b h
  others := fun a k => by
    rw [has_accepted, if_neg]
    · exact hr.others a k
    · rintro (⟨rfl, rfl⟩ | ⟨rfl, rfl⟩)
      · exact hne rfl
      · exact hne rfl

theorem Friendly.pending (hr : Friendly rows) (hne : p ≠ q)
    (hnew : ∀ k, has rows q p k = false) : Friendly (Write.pending.apply rows p q) where
  statuses := statuses_apply hr.statuses p q .pending
  one := fun a b h => by
    rw [has_pending] at h ⊢
    have hfriends : has rows a b .friends = true := by simpa using h
    have hkey : ¬ (a = q ∧ b = p) := by
      rintro ⟨rfl, rfl⟩
      rw [hnew] at hfriends
      cases hfriends
    rw [hr.one a b hfriends]
    simpa using hkey
  both := fun a b h => by
    rw [has_pending] at h ⊢
    have hfriends : has rows a b .friends = true := by simpa using h
    rw [hr.both a b hfriends]
    rfl
  others := fun a k => by
    rw [has_pending, hr.others a k, Bool.false_or]
    simpa using fun _ (hq : a = q) (hp : a = p) => hne (hp.symm.trans hq)

theorem Friendly.delete (hr : Friendly rows) (p q : Nat) :
    Friendly (deleteKey (deleteKey rows q p) p q) where
  statuses := statuses_deleteKey (statuses_deleteKey hr.statuses q p) p q
  one := fun a b h => by
    rw [has_deleteKey, has_deleteKey] at h ⊢
    split_ifs at h ⊢
    exact hr.one a b h
  both := fun a b h => by
    rw [has_deleteKey, has_deleteKey] at h ⊢
    split_ifs at h with h₁ h₂
    rw [if_neg (by tauto), if_neg (by tauto)]
    exact hr.both a b h
  others := fun a k => by
    rw [has_deleteKey, has_deleteKey, hr.others a k, ite_self, ite_self]

/-- Who has asked has no half of a friendship. -/
theorem Friendly.reject (hr : Friendly rows) (h : has rows p q .pending = true) :
    Friendly (deleteKey rows p q) where
  statuses := statuses_deleteKey hr.statuses p q
  one := fun a b hab => by
    rw [has_deleteKey] at hab ⊢
    split_ifs at hab ⊢
    exact hr.one a b hab
  both := fun a b hab => by
    rw [has_deleteKey] at hab ⊢
    split_ifs at hab with hkey
    have hfriends := hr.both a b hab
    rw [if_neg, hfriends]
    rintro ⟨rfl, rfl⟩
    rw [hr.not_friends h] at hfriends
    cases hfriends
  others := fun a k => by
    rw [has_deleteKey, hr.others a k, ite_self]

/-! ## Requests -/

/-- The table in which an agent looks for the target of a request. -/
def Op.found : Op → Option Part
  | .add => none
  | .accept => some .pending
  | .delete => some .friends
  | .reject => some .pending

namespace Request

/-- A request is about two players. -/
def About (x : Request) (p q : Nat) : Prop :=
  x.self = p ∧ x.target = q ∨ x.self = q ∧ x.target = p

instance (x : Request) (p q : Nat) : Decidable (x.About p q) :=
  inferInstanceAs (Decidable (_ ∨ _))

/-- The statement that changes the rows has not been executed. -/
def Open (x : Request) : Prop :=
  match x.wait with
  | .committed _ => False
  | .deleted => False
  | .asking _ => False
  | .abandoned => False
  | _ => True

/-- The rows of its two players are as a request expects. -/
structure Agrees (x : Request) (rows : List Row) : Prop where
  found : x.Open → ∀ k, x.op.found = some k → has rows x.self x.target k = true
  new : x.wait = .committing .pending → ∀ k, has rows x.target x.self k = false
  accepted : x.wait = .committed .accepted → has rows x.self x.target .friends = true
  owed : ∀ k b, x.owed k = some b → has rows x.target x.self k = b

variable {x y : Request}

theorem Open.not_over (h : x.Open) : ¬ x.Over := by
  intro hover
  unfold Open at h
  rw [hover] at h
  exact h

/-- A request that has changed nothing owes nothing. -/
theorem Open.owed (h : x.Open) : x.owed = .nothing := by
  obtain ⟨op, agent, self, target, wait, locks, read, owes⟩ := x
  cases wait with
  | committed | deleted | asking => exact h.elim
  | _ => rfl

theorem Agrees.congr (ha : x.Agrees rows)
    (hself : ∀ k, has rows' x.self x.target k = has rows x.self x.target k)
    (htarget : ∀ k, has rows' x.target x.self k = has rows x.target x.self k) :
    x.Agrees rows' where
  found := fun hopen k hk => (hself k).trans (ha.found hopen k hk)
  new := fun hwait k => (htarget k).trans (ha.new hwait k)
  accepted := fun hwait => (hself _).trans (ha.accepted hwait)
  owed := fun k b hb => (htarget k).trans (ha.owed k b hb)

/-- A request whose agent has looked into its table. -/
theorem agrees_of_found (hwait : x.wait = .beginning ∨ x.wait = .deleting)
    (hfound : ∀ k, x.op.found = some k → has rows x.self x.target k = true) : x.Agrees rows where
  found := fun _ => hfound
  new := fun h => by rcases hwait with hwait | hwait <;> rw [hwait] at h <;> cases h
  accepted := fun h => by rcases hwait with hwait | hwait <;> rw [hwait] at h <;> cases h
  owed := fun k b hb => by
    have hopen : x.Open := by
      unfold Open
      rcases hwait with hwait | hwait <;> rw [hwait] <;> trivial
    rw [hopen.owed] at hb
    cases hb

/-- A request whose statement has been executed. -/
theorem agrees_of_done (hdone : ¬ x.Open)
    (haccepted : x.wait = .committed .accepted → has rows x.self x.target .friends = true)
    (howed : ∀ k b, x.owed k = some b → has rows x.target x.self k = b) : x.Agrees rows where
  found := fun hopen => absurd hopen hdone
  new := fun hwait => by
    refine absurd ?_ hdone
    unfold Open
    rw [hwait]
    trivial
  accepted := haccepted
  owed := howed

/-- What the answer lets a request write about its target. -/
theorem Agrees.own (ha : x.Agrees rows) (hr : Friendly rows)
    (hwait : (∃ w, x.wait = .committed w) ∨ x.wait = .rolledBack ∨ x.wait = .leaving ∨
      x.wait = .deleted) {k : Part} {b : Bool} (hb : x.own k = some b) :
    has rows x.self x.target k = b := by
  obtain ⟨op, agent, self, target, wait, locks, read, owes⟩ := x
  -- what is put back was there before the request
  have hrestore : op = .accept → Open ⟨op, agent, self, target, wait, locks, read, owes⟩ →
      Effect.restore k = some b → has rows self target k = b := by
    rintro rfl hopen hb
    have hpending := ha.found hopen .pending rfl
    cases k with
    | friends =>
        cases hb
        exact hr.not_friends hpending
    | pending =>
        cases hb
        exact hpending
  rcases hwait with ⟨w, rfl⟩ | rfl | rfl | rfl
  · cases w with
    | pending => cases hb
    | accepted =>
        have hfriends := ha.accepted rfl
        unfold Request.own at hb
        dsimp only at hb
        split_ifs at hb
        · cases k with
          | friends =>
              cases hb
              exact hfriends
          | pending =>
              cases hb
              exact hr.one _ _ hfriends
        · cases hb
  · unfold Request.own at hb
    dsimp only at hb
    split_ifs at hb with hop
    · exact hrestore hop trivial hb
    · cases hb
  · unfold Request.own at hb
    dsimp only at hb
    split_ifs at hb with hop
    · exact hrestore hop trivial hb
    · cases hb
  · cases hb

end Request

namespace Online

/-! ## The condition -/

/-- A request about two players runs. -/
def running (s : Online) (p q : Nat) : Bool :=
  (List.range s.clock).any fun h => (s.requests h).any fun x => !x.Over && x.About p q

/-- A request of a player runs. -/
def asking (s : Online) (p : Nat) : Bool :=
  (List.range s.clock).any fun h => (s.requests h).any fun x => !x.Over && x.self = p

/-- A notification about a player is on its way to the agent of another. -/
def told (s : Online) (p q : Nat) : Bool :=
  (List.range s.clock).any fun m =>
    (s.notes m).any fun n => n.playerid = q && s.current p = some n.agent

/-- The agent of a player has read its rows, and the manager has not confirmed the login. -/
def entering (s : Online) (p : Nat) : Bool :=
  match s.players p with
  | some ⟨some _, .login⟩ => true
  | _ => false

/-- The condition on a turn. -/
def Apart (s : Online) : Turn → Prop
  | .call _ a target => (s.agents a).all fun self =>
      s.current self = some a && !s.running self target && !s.told self target &&
        !s.told target self
  | .load p => !s.asking p
  -- an agent that had read its rows before they were changed can be told
  | .getPlayer h => (s.requests h).all fun x =>
      !(s.current x.target = x.owes && s.entering x.target)
  | _ => True

instance (s : Online) (e : Turn) : Decidable (s.Apart e) := by
  cases e <;> unfold Apart <;> infer_instance

/-- What holds of a request that runs. -/
structure Lone (s : Online) (h : Nat) (x : Request) : Prop where
  other : x.self ≠ x.target
  numbered : x.agent < s.clock
  owner : ∀ p, s.current p = some x.agent → p = x.self
  agent : ∀ a, s.current x.self = some a → a = x.agent
  alone : ∀ h' y, s.requests h' = some y → ¬ y.Over → y.About x.self x.target → h' = h
  untold : ∀ m n, s.notes m = some n →
    ¬ (n.playerid = x.target ∧ s.current x.self = some n.agent) ∧
      ¬ (n.playerid = x.self ∧ s.current x.target = some n.agent)
  agrees : x.Agrees s.rows
  early : x.Open → s.current x.self = some x.agent → ∀ k b, x.op.early k = some b →
    s.copy x.agent k x.target = b

/-- What holds between turns that meet the condition. -/
structure Orderly (s : Online) : Prop where
  table : Friendly s.rows
  lone : ∀ h x, s.requests h = some x → ¬ x.Over → s.Lone h x
  numbered : ∀ m n, s.notes m = some n → n.agent < s.clock
  note : ∀ m n p, s.notes m = some n → s.current p = some n.agent →
    ∀ k b, n.cmd.effect k = some b → has s.rows p n.playerid k = b

variable {s s' : Online}

theorem Fresh.request_lt (hf : s.Fresh) {h : Nat} {x : Request} (hx : s.requests h = some x) :
    h < s.clock := by
  by_contra hh
  rw [hf.request h (Nat.le_of_not_lt hh)] at hx
  cases hx

theorem Fresh.note_lt (hf : s.Fresh) {m : Nat} {n : Note} (hn : s.notes m = some n) :
    m < s.clock := by
  by_contra hm
  rw [hf.note m (Nat.le_of_not_lt hm)] at hn
  cases hn

/-- Nothing about two players runs. -/
theorem not_about (hf : s.Fresh) {p q : Nat} (hrunning : s.running p q = false) {h : Nat}
    {x : Request} (hx : s.requests h = some x) (hover : ¬ x.Over) : ¬ x.About p q := by
  intro habout
  have : s.running p q = true := by
    refine List.any_eq_true.mpr ⟨h, List.mem_range.mpr (hf.request_lt hx), ?_⟩
    rw [hx]
    simp [hover, habout]
  rw [hrunning] at this
  cases this

theorem not_asking (hf : s.Fresh) {p : Nat} (hasking : s.asking p = false) {h : Nat}
    {x : Request} (hx : s.requests h = some x) (hover : ¬ x.Over) : x.self ≠ p := by
  intro hself
  have : s.asking p = true := by
    refine List.any_eq_true.mpr ⟨h, List.mem_range.mpr (hf.request_lt hx), ?_⟩
    rw [hx]
    simp [hover, hself]
  rw [hasking] at this
  cases this

theorem not_told (hf : s.Fresh) {p q : Nat} (htold : s.told p q = false) {m : Nat} {n : Note}
    (hn : s.notes m = some n) : ¬ (n.playerid = q ∧ s.current p = some n.agent) := by
  rintro ⟨hq, hp⟩
  have : s.told p q = true := by
    refine List.any_eq_true.mpr ⟨m, List.mem_range.mpr (hf.note_lt hn), ?_⟩
    rw [hn]
    simp [hq, hp]
  rw [htold] at this
  cases this

/-- An agent is the agent of one player. -/
theorem Tracked.inj (ht : s.Tracked) {a p q : Nat} (hp : s.current p = some a)
    (hq : s.current q = some a) : p = q :=
  Option.some.inj ((ht.owner p a hp).symm.trans (ht.owner q a hq))

/-- The table of an agent has what the rows have, when nothing about the two players is under
way. -/
theorem Tracked.copy_eq (ht : s.Tracked) (hf : s.Fresh) {p a q : Nat}
    (hcurrent : s.current p = some a) (hrunning : s.running p q = false)
    (htold : s.told p q = false) (k : Part) : s.copy a k q = has s.rows p q k := by
  refine (ht.settled p a q k hcurrent).resolve_right ?_
  rintro ⟨w, hw⟩
  cases w with
  | note m =>
      obtain ⟨n, hn, ha, hq, -⟩ := hw
      exact not_told hf htold hn ⟨hq, ha ▸ hcurrent⟩
  | request h =>
      obtain ⟨x, hx, hw⟩ := hw
      have hover : ¬ x.Over := by
        intro hover
        have hwait : x.wait = .abandoned := hover
        unfold Request.own Request.owed at hw
        rw [hwait] at hw
        rcases hw with ⟨-, -, -, hw⟩ | ⟨-, -, -, hw⟩
        · cases hw
        · cases hw
      refine not_about hf hrunning hx hover ?_
      rcases hw with ⟨-, hp, hq, -⟩ | ⟨-, hp, hq, -⟩
      · exact .inl ⟨hp, hq⟩
      · exact .inr ⟨hq, hp⟩

/-! ## The condition suffices -/

/-- A turn that meets the condition keeps every table right, or in the care of somebody who is
going to write it. -/
theorem kept_of_apart (ht : s.Tracked) (ho : s.Orderly) {e : Turn} (hapart : s.Apart e)
    (hstep : s.step e = some s') : s.Kept e := by
  cases e with
  | execute h found =>
      intro x hx hwait
      have hopen : x.Open := by
        unfold Request.Open
        rcases hwait with hwait | ⟨w, hwait⟩ <;> rw [hwait] <;> trivial
      have hl := ho.lone h x hx hopen.not_over
      refine ⟨.inr fun a ha => .inl (hl.agent a ha),
        fun k b hp hb => .inl (hl.early hopen hp k b hb), fun hdeleting k hk => ?_⟩
      have hfits := ht.fits h x hx
      unfold Request.Fits at hfits
      rw [hdeleting] at hfits
      have hfound := hl.agrees.found hopen
      rcases hfits with hop | hop
      · rw [hop] at hk hfound
        have hfriends := hfound .friends rfl
        cases k with
        | friends => cases hk
        | pending =>
            exact ⟨fun _ => .inl (ho.table.one _ _ hfriends),
              fun _ a _ => .inl (ho.table.one _ _ (ho.table.both _ _ hfriends))⟩
      · rw [hop] at hk hfound
        have hpending := hfound .pending rfl
        cases k with
        | pending => cases hk
        | friends =>
            refine ⟨fun _ => .inl (ho.table.not_friends hpending), fun hdelete => ?_⟩
            rw [hop] at hdelete
            cases hdelete
  | resume h =>
      intro x hx p k b hp hb
      simp only [step, hx] at hstep
      have hwait : (∃ w, x.wait = .committed w) ∨ x.wait = .rolledBack ∨ x.wait = .leaving ∨
          x.wait = .deleted := by
        unfold Online.resumed at hstep
        dsimp only at hstep
        split at hstep
        next w hw => exact .inl ⟨w, hw⟩
        next hw => exact .inr (.inl hw)
        next hw => exact .inr (.inr (.inl hw))
        next hw => exact .inr (.inr (.inr hw))
        next => cases hstep
      have hover : ¬ x.Over := by
        intro hover
        have : x.wait = .abandoned := hover
        rw [this] at hwait
        rcases hwait with ⟨w, hw⟩ | hw | hw | hw <;> cases hw
      have hl := ho.lone h x hx hover
      obtain rfl := hl.owner p hp
      exact .inl (hl.agrees.own ho.table hwait hb)
  | getPlayer h =>
      intro x a k hx howes hcurrent _
      left
      have hentering : s.entering x.target = false := by
        simpa [Apart, hx, howes, hcurrent] using hapart
      unfold entering at hentering
      unfold current at hcurrent
      split at hcurrent
      next b hplayer =>
        rw [hplayer, hcurrent] at hentering
        cases hentering
      next b hplayer => rw [hplayer, hcurrent]
      next => cases hcurrent
  | deliver m =>
      intro n hn p k b hp hb
      exact .inl (ho.note m n p hn hp k b hb)
  | _ => trivial

end Online

end BallServer.Agent.Friend
