import BallServer.Agent.FriendApart

/-!
# Runs of requests that keep apart

Every turn that meets the condition keeps the order of the requests: a request changes rows and
tables at most where they are about its two players, and of these no other request and no
notification is under way.

Main results:

- Theorem {lit}`Online.Orderly.goes`: a request goes on, and the others find what they expect.
- Theorem {lit}`Online.step_orderly`: one turn.
- Theorem {lit}`friends_converge`: when nothing runs, the tables have what the rows have.
- Theorem {lit}`friends_diverge`: a player is asked between reading the rows and the status
  {lit}`GAME`.
-/

namespace BallServer.Agent.Friend

open AgentMgr (Status)

namespace Online

variable {s s' : Online} {rows : List Row}

/-! ## Between the turns -/

/-- A request about which nothing has changed. -/
theorem Lone.keeps {h : Nat} {x : Request} (hl : s.Lone h x)
    (hcurrent : ∀ p a, a < s.clock → s'.current p = some a → s.current p = some a)
    (hself : ∀ a, s'.current x.self = some a → s.current x.self = some a)
    (hrequests : ∀ h' y, s'.requests h' = some y → ¬ y.Over → y.About x.self x.target →
      ∃ z, s.requests h' = some z ∧ ¬ z.Over ∧ z.About x.self x.target)
    (hnotes : ∀ m n, s'.notes m = some n → n.agent < s.clock ∧
      ¬ (n.playerid = x.target ∧ s.current x.self = some n.agent) ∧
        ¬ (n.playerid = x.self ∧ s.current x.target = some n.agent))
    (hclock : s.clock ≤ s'.clock)
    (hrows : ∀ k, has s'.rows x.self x.target k = has s.rows x.self x.target k ∧
      has s'.rows x.target x.self k = has s.rows x.target x.self k)
    (hcopy : s.current x.self = some x.agent → ∀ k,
      s'.copy x.agent k x.target = s.copy x.agent k x.target) : s'.Lone h x where
  other := hl.other
  numbered := Nat.lt_of_lt_of_le hl.numbered hclock
  owner := fun p hp => hl.owner p (hcurrent p _ hl.numbered hp)
  agent := fun a ha => hl.agent a (hself a ha)
  alone := fun h' y hy hover habout => by
    obtain ⟨z, hz, hzover, hzabout⟩ := hrequests h' y hy hover habout
    exact hl.alone h' z hz hzover hzabout
  untold := fun m n hn => by
    obtain ⟨hlt, h₁, h₂⟩ := hnotes m n hn
    exact ⟨fun hw => h₁ ⟨hw.1, hcurrent _ _ hlt hw.2⟩,
      fun hw => h₂ ⟨hw.1, hcurrent _ _ hlt hw.2⟩⟩
  agrees := hl.agrees.congr (fun k => (hrows k).1) fun k => (hrows k).2
  early := fun hopen hp k b hb => by
    have hold := hcurrent _ _ hl.numbered hp
    exact (hcopy hold k).trans (hl.early hopen hold k b hb)

theorem Orderly.untold (ho : s.Orderly) {h : Nat} {x : Request} (hl : s.Lone h x) (m : Nat)
    (n : Note) (hn : s.notes m = some n) : n.agent < s.clock ∧
      ¬ (n.playerid = x.target ∧ s.current x.self = some n.agent) ∧
        ¬ (n.playerid = x.self ∧ s.current x.target = some n.agent) :=
  ⟨ho.numbered m n hn, hl.untold m n hn⟩

theorem orderly_init (hr : Friendly rows) : (init rows).Orderly where
  table := hr
  lone := fun h x hx => by cases hx
  numbered := fun m n hn => by cases hn
  note := fun m n p hn => by cases hn

/-- A turn of the manager at which no new agent comes. -/
theorem Orderly.manager (ho : s.Orderly) (hrows : s'.rows = s.rows)
    (hrequests : s'.requests = s.requests) (hnotes : s'.notes = s.notes)
    (hcopy : s'.copy = s.copy) (hclock : s'.clock = s.clock)
    (hcurrent : ∀ p a, s'.current p = some a → s.current p = some a) : s'.Orderly where
  table := hrows ▸ ho.table
  lone := fun h x hx hover => by
    rw [hrequests] at hx
    have hl := ho.lone h x hx hover
    refine hl.keeps (fun p a _ => hcurrent p a) (hcurrent _) (fun h' y hy hover habout => ?_)
      (fun m n hn => ?_) (Nat.le_of_eq hclock.symm) (fun k => ?_) fun _ k => ?_
    · exact ⟨y, hrequests ▸ hy, hover, habout⟩
    · exact ho.untold hl m n (hnotes ▸ hn)
    · rw [hrows]
      exact ⟨rfl, rfl⟩
    · rw [hcopy]
  numbered := fun m n hn => by
    rw [hclock]
    exact ho.numbered m n (hnotes ▸ hn)
  note := fun m n p hn hp k b hb => by
    rw [hrows]
    exact ho.note m n p (hnotes ▸ hn) (hcurrent p _ hp) k b hb

theorem Orderly.setPlayer (ho : s.Orderly) (p : Nat) (e : Option Entry)
    (he : ∀ a, (s.setPlayer p e).current p = some a → s.current p = some a) :
    (s.setPlayer p e).Orderly := by
  refine ho.manager rfl rfl rfl rfl rfl fun p' a h => ?_
  by_cases hp : p' = p
  · subst hp
    exact he a h
  · simpa [current, Online.setPlayer, hp] using h

/-- A new agent reads its rows, and no request of its player runs. -/
theorem Orderly.load (ho : s.Orderly) (hfresh : s.Fresh) (p : Nat) (status : Status)
    (hasking : s.asking p = false) (copy : Nat → Part → Nat → Bool)
    (hold : ∀ a, a ≠ s.clock → copy a = s.copy a) :
    (({ s with
      copy := copy
      agents := Function.update s.agents s.clock (some p)
      clock := s.clock + 1 } : Online).setPlayer p (some ⟨some s.clock, status⟩)).Orderly := by
  set s' := ({ s with
    copy := copy
    agents := Function.update s.agents s.clock (some p)
    clock := s.clock + 1 } : Online).setPlayer p (some ⟨some s.clock, status⟩) with hs'
  have hnew : ∀ a, s'.current p = some a → a = s.clock := by
    intro a h
    cases status <;> simp [hs', current, Online.setPlayer] at h <;> exact h.symm
  have hother : ∀ p', p' ≠ p → s'.current p' = s.current p' := by
    intro p' hp
    simp [hs', current, Online.setPlayer, hp]
  have hcurrent : ∀ p' a, a < s.clock → s'.current p' = some a → s.current p' = some a := by
    intro p' a ha h
    by_cases hp : p' = p
    · subst hp
      exact absurd (hnew a h) (Nat.ne_of_lt ha)
    · exact hother p' hp ▸ h
  refine ⟨ho.table, fun h x hx hover => ?_, fun m n hn => ?_, fun m n p' hn hp => ?_⟩
  · have hl := ho.lone h x hx hover
    refine hl.keeps hcurrent (fun a ha => ?_) (fun h' y hy hover habout => ⟨y, hy, hover, habout⟩)
      (ho.untold hl) (Nat.le_succ _) (fun _ => ⟨rfl, rfl⟩) fun _ k => ?_
    · exact hother _ (not_asking hfresh hasking hx hover) ▸ ha
    · exact congrFun (congrFun (hold _ (Nat.ne_of_lt hl.numbered)) k) _
  · exact Nat.lt_succ_of_lt (ho.numbered m n hn)
  · exact ho.note m n p' hn (hcurrent p' _ (ho.numbered m n hn) hp)

/-- A new request, which has written what it writes too early. -/
theorem Orderly.start (ho : s.Orderly) (ht : s.Tracked) (hfresh : s.Fresh) {x : Request}
    (hother : x.self ≠ x.target) (hcurrent : s.current x.self = some x.agent)
    (hrunning : s.running x.self x.target = false) (hself : s.told x.self x.target = false)
    (htarget : s.told x.target x.self = false) (hagrees : x.Agrees s.rows) :
    ((s.put x.agent x.target x.op.early).start x).Orderly := by
  set s' := (s.put x.agent x.target x.op.early).start x with hs'
  have hrequest : ∀ h, s'.requests h = if h = s.clock then some x else s.requests h := fun h => by
    simp only [hs', Online.start, Online.put, Function.update_apply]
  have hnotes : ∀ m n, s.notes m = some n →
      ¬ (n.playerid = x.target ∧ s.current x.self = some n.agent) ∧
        ¬ (n.playerid = x.self ∧ s.current x.target = some n.agent) := fun m n hn =>
    ⟨not_told hfresh hself hn, not_told hfresh htarget hn⟩
  refine ⟨ho.table, fun h z hz hover => ?_, fun m n hn => ?_, ho.note⟩
  · rw [hrequest] at hz
    split_ifs at hz with hh
    · obtain rfl := Option.some.inj hz
      refine ⟨hother, Nat.lt_succ_of_lt (ht.fresh_agent _ _ hcurrent),
        fun p hp => ht.inj hp hcurrent, fun a ha => ?_, fun h' y hy hover habout => ?_, hnotes,
        hagrees, fun _ _ k b hb => ?_⟩
      · exact Option.some.inj (ha.symm.trans hcurrent)
      · rw [hrequest] at hy
        split_ifs at hy with hh'
        · exact hh'.trans hh.symm
        · exact absurd habout (not_about hfresh hrunning hy hover)
      · refine (put_copy (s := s) x.agent x.target x.agent x.target x.op.early k).trans ?_
        rw [if_pos ⟨rfl, rfl⟩, hb, Option.getD_some]
    · have hl := ho.lone h z hz hover
      have hnot := not_about hfresh hrunning hz hover
      refine hl.keeps (fun _ _ _ hp => hp) (fun _ hp => hp) (fun h' y hy hover habout => ?_)
        (ho.untold hl) (Nat.le_succ _) (fun _ => ⟨rfl, rfl⟩) fun hp k => ?_
      · rw [hrequest] at hy
        split_ifs at hy with hh'
        · obtain rfl := Option.some.inj hy
          refine absurd ?_ hnot
          rcases habout with ⟨h₁, h₂⟩ | ⟨h₁, h₂⟩
          · exact .inl ⟨h₁.symm, h₂.symm⟩
          · exact .inr ⟨h₂.symm, h₁.symm⟩
        · exact ⟨y, hy, hover, habout⟩
      · refine (put_copy (s := s) x.agent x.target z.agent z.target x.op.early k).trans ?_
        rw [if_neg]
        rintro ⟨hagent, htarget⟩
        exact hnot (.inl ⟨ht.inj hp (hagent ▸ hcurrent), htarget⟩)
  · exact Nat.lt_succ_of_lt (ho.numbered m n hn)

/-- A request goes on or is over.  The rows and the tables change at most where it is about its
two players. -/
theorem Orderly.goes (ho : s.Orderly) {h : Nat} {x : Request} {y : Option Request}
    {rows : List Row} {copy : Nat → Part → Nat → Bool} (hx : s.requests h = some x)
    (hover : ¬ x.Over) (htable : Friendly rows)
    (hrows : ∀ p q k, ¬ x.About p q → has rows p q k = has s.rows p q k)
    (hcopy : ∀ a k q, ¬ (a = x.agent ∧ q = x.target) → copy a k q = s.copy a k q)
    (hy : ∀ z, y = some z → ¬ z.Over → z.agent = x.agent ∧ z.self = x.self ∧
      z.target = x.target ∧ z.Agrees rows ∧ (z.Open → s.current x.self = some x.agent →
        ∀ k b, z.op.early k = some b → copy x.agent k x.target = b)) :
    ({ s with
      rows := rows
      copy := copy
      requests := Function.update s.requests h y } : Online).Orderly := by
  set s' : Online := { s with
    rows := rows
    copy := copy
    requests := Function.update s.requests h y } with hs'
  have hl := ho.lone h x hx hover
  have hrequest : ∀ h', s'.requests h' = if h' = h then y else s.requests h' := fun h' => by
    simp only [hs', Function.update_apply]
  have hback : ∀ h' z, s'.requests h' = some z → ¬ z.Over → ∃ z', s.requests h' = some z' ∧
      ¬ z'.Over ∧ z'.self = z.self ∧ z'.target = z.target := by
    intro h' z hz hzover
    rw [hrequest] at hz
    split_ifs at hz with hh
    · obtain ⟨-, hself, htarget, -⟩ := hy z hz hzover
      exact ⟨x, hh ▸ hx, hover, hself.symm, htarget.symm⟩
    · exact ⟨z, hz, hzover, rfl, rfl⟩
  have habouts : ∀ h' z p q, s'.requests h' = some z → ¬ z.Over → z.About p q →
      ∃ z', s.requests h' = some z' ∧ ¬ z'.Over ∧ z'.About p q := by
    intro h' z p q hz hzover habout
    obtain ⟨z', hz', hzover', hself, htarget⟩ := hback h' z hz hzover
    refine ⟨z', hz', hzover', ?_⟩
    unfold Request.About
    rw [hself, htarget]
    exact habout
  refine ⟨htable, fun h' z hz hzover => ?_, ho.numbered, fun m n p hn hp k b hb => ?_⟩
  · have hz' := hz
    rw [hrequest] at hz
    split_ifs at hz with hh
    · subst hh
      obtain ⟨hagent, hself, htarget, hagrees, hearly⟩ := hy z hz hzover
      refine ⟨?_, ?_, ?_, ?_, fun h₁ z₁ hz₁ hover₁ habout => ?_, ?_, hagrees, fun hopen hp => ?_⟩
      · rw [hself, htarget]
        exact hl.other
      · rw [hagent]
        exact hl.numbered
      · rw [hagent, hself]
        exact hl.owner
      · rw [hagent, hself]
        exact hl.agent
      · obtain ⟨z₂, hz₂, hover₂, habout₂⟩ := habouts h₁ z₁ _ _ hz₁ hover₁ habout
        rw [hself, htarget] at habout₂
        exact hl.alone h₁ z₂ hz₂ hover₂ habout₂
      · rw [hself, htarget]
        exact hl.untold
      · rw [hself, hagent] at hp
        rw [hagent, htarget]
        exact hearly hopen hp
    · have hlz := ho.lone h' z hz hzover
      have hnot : ¬ z.About x.self x.target := fun habout =>
        hh (hl.alone h' z hz hzover habout)
      refine hlz.keeps (fun _ _ _ hp => hp) (fun _ hp => hp)
        (fun h₁ z₁ hz₁ hover₁ habout => habouts h₁ z₁ _ _ hz₁ hover₁ habout) (ho.untold hlz)
        (Nat.le_refl _) (fun k => ⟨hrows _ _ k ?_, hrows _ _ k ?_⟩) fun hp k => hcopy _ k _ ?_
      · rintro (⟨h₁, h₂⟩ | ⟨h₁, h₂⟩)
        · exact hnot (.inl ⟨h₁.symm, h₂.symm⟩)
        · exact hnot (.inr ⟨h₂.symm, h₁.symm⟩)
      · rintro (⟨h₁, h₂⟩ | ⟨h₁, h₂⟩)
        · exact hnot (.inr ⟨h₂.symm, h₁.symm⟩)
        · exact hnot (.inl ⟨h₁.symm, h₂.symm⟩)
      · rintro ⟨hagent, htarget⟩
        exact hnot (.inl ⟨hl.owner _ (hagent ▸ hp), htarget⟩)
  · refine (hrows p n.playerid k ?_).trans (ho.note m n p hn hp k b hb)
    rintro (⟨hself, htarget⟩ | ⟨hself, htarget⟩)
    · exact (hl.untold m n hn).1 ⟨htarget.symm, hself ▸ hp⟩
    · exact (hl.untold m n hn).2 ⟨hself.symm, htarget ▸ hp⟩

/-- A request is over. -/
theorem Orderly.ended (ho : s.Orderly) (h : Nat) : (s.ended h).Orderly where
  table := ho.table
  lone := fun h' x hx hover => by
    have hsub : ∀ h' y, (s.ended h).requests h' = some y → s.requests h' = some y := by
      intro h' y hy
      simp only [Online.ended, Function.update_apply] at hy
      split_ifs at hy
      exact hy
    have hl := ho.lone h' x (hsub h' x hx) hover
    exact hl.keeps (fun _ _ _ hp => hp) (fun _ hp => hp)
      (fun h₁ y hy hover habout => ⟨y, hsub h₁ y hy, hover, habout⟩) (ho.untold hl)
      (Nat.le_refl _) (fun _ => ⟨rfl, rfl⟩) fun _ _ => rfl
  numbered := ho.numbered
  note := ho.note

/-! ## The statements -/

/-- A statement that leaves the table as it is takes a request on. -/
structure Follows (s : Online) (x y : Request) : Prop where
  op : y.op = x.op
  agent : y.agent = x.agent
  self : y.self = x.self
  target : y.target = x.target
  before : x.Open
  after : y.Open
  new : y.wait = .committing .pending → hasKey s.rows x.target x.self = false

theorem hasKey_of_has {k : Part} (h : has rows p q k = true) : hasKey rows p q = true :=
  List.any_eq_true.mpr ⟨_, has_eq_true.mp h, by simp⟩

/-- What a request expects it expects still. -/
theorem Follows.agrees {x y : Request} (hf : s.Follows x y) (ha : x.Agrees s.rows) :
    y.Agrees s.rows where
  found := fun _ k hk => by
    rw [hf.self, hf.target]
    exact ha.found hf.before k (hf.op ▸ hk)
  new := fun hwait k => by
    rw [hf.self, hf.target]
    cases hhas : has s.rows x.target x.self k with
    | false => rfl
    | true =>
        have hkey := hf.new hwait
        rw [hasKey_of_has hhas] at hkey
        cases hkey
  accepted := fun hwait => by
    have hopen := hf.after
    unfold Request.Open at hopen
    rw [hwait] at hopen
    exact hopen.elim
  owed := fun k b hb => by
    rw [hf.after.owed] at hb
    cases hb

theorem decided_follows {op : Op} {agent self target : Nat} {locks read : List Nat}
    {owes : Option Nat} {firstRows : List Row} :
    s.Follows ⟨op, agent, self, target, .readingSecond firstRows, locks, read, owes⟩
      (s.decided ⟨op, agent, self, target, .readingSecond firstRows, locks, read, owes⟩
        firstRows) := by
  unfold decided
  dsimp only
  split
  · split
    · exact ⟨rfl, rfl, rfl, rfl, trivial, trivial, nofun⟩
    · exact ⟨rfl, rfl, rfl, rfl, trivial, trivial, nofun⟩
  · split
    · exact ⟨rfl, rfl, rfl, rfl, trivial, trivial, nofun⟩
    · exact ⟨rfl, rfl, rfl, rfl, trivial, trivial, nofun⟩
    · exact ⟨rfl, rfl, rfl, rfl, trivial, trivial, nofun⟩

theorem advance_follows {h : Nat} {x y : Request} {found : Bool}
    (hy : s.advance h x found = some y) : s.Follows x y := by
  obtain ⟨op, agent, self, target, wait, locks, read, owes⟩ := x
  cases wait with
  | beginning | readingFirst | rollingBack =>
      obtain rfl := Option.some.inj hy
      exact ⟨rfl, rfl, rfl, rfl, trivial, trivial, nofun⟩
  | lockingFirst | lockingSecond =>
      unfold advance at hy
      dsimp only at hy
      split_ifs at hy
      · obtain rfl := Option.some.inj hy
        exact ⟨rfl, rfl, rfl, rfl, trivial, trivial, nofun⟩
      · obtain rfl := Option.some.inj hy
        exact ⟨rfl, rfl, rfl, rfl, trivial, trivial, nofun⟩
  | readingSecond firstRows =>
      obtain rfl := Option.some.inj hy
      exact decided_follows
  | writing w =>
      cases w with
      | accepted =>
          obtain rfl := Option.some.inj hy
          exact ⟨rfl, rfl, rfl, rfl, trivial, trivial, nofun⟩
      | pending =>
          unfold advance at hy
          dsimp only at hy
          split_ifs at hy with hkey
          · obtain rfl := Option.some.inj hy
            exact ⟨rfl, rfl, rfl, rfl, trivial, trivial, nofun⟩
          · obtain rfl := Option.some.inj hy
            exact ⟨rfl, rfl, rfl, rfl, trivial, trivial, fun _ => by simpa using hkey⟩
  | committing | committed | rolledBack | leaving | deleting | deleted | asking | abandoned =>
      cases hy

/-- A commit. -/
theorem Orderly.commit (ho : s.Orderly) (ht : s.Tracked) {h : Nat} {x : Request} {w : Write}
    (hx : s.requests h = some x) (hwait : x.wait = .committing w) (locks read : List Nat)
    (owes : Option Nat) :
    (({ s with rows := w.apply s.rows x.self x.target } : Online).goOn h
      { x with wait := .committed w, locks := locks, read := read, owes := owes }).Orderly := by
  have hopen : x.Open := by
    unfold Request.Open
    rw [hwait]
    trivial
  have hl := ho.lone h x hx hopen.not_over
  have hfits := ht.fits h x hx
  unfold Request.Fits at hfits
  rw [hwait] at hfits
  cases w with
  | accepted =>
      have hfriends : ∀ k, has (Write.accepted.apply s.rows x.self x.target) x.target x.self k =
          decide (k = .friends) := fun k => by
        rw [has_accepted, if_pos (.inr ⟨rfl, rfl⟩)]
      refine ho.goes hx hopen.not_over (ho.table.accepted hl.other) (fun p q k hnot => ?_)
        (fun _ _ _ _ => rfl) fun z hz _ => ?_
      · rw [has_accepted, if_neg]
        rintro (⟨rfl, rfl⟩ | ⟨rfl, rfl⟩)
        · exact hnot (.inl ⟨rfl, rfl⟩)
        · exact hnot (.inr ⟨rfl, rfl⟩)
      · obtain rfl := Option.some.inj hz
        refine ⟨rfl, rfl, rfl, Request.agrees_of_done id (fun _ => ?_) fun k b hb => ?_, False.elim⟩
        · dsimp only
          rw [has_accepted, if_pos (.inl ⟨rfl, rfl⟩)]
          rfl
        · dsimp only
          rw [hfriends]
          have hcmd : Effect.befriend k = some b := by
            rcases hfits with hop | ⟨hop, -⟩ <;>
              simpa [Request.owed, Request.cmd, hop, Cmd.effect] using hb
          cases k <;> cases hcmd <;> rfl
  | pending =>
      have hop : x.op = .add := hfits.resolve_right fun h => by cases h.2
      refine ho.goes hx hopen.not_over (ho.table.pending hl.other (hl.agrees.new hwait))
        (fun p q k hnot => ?_) (fun _ _ _ _ => rfl) fun z hz _ => ?_
      · rw [has_pending]
        have hkey : ¬ (p = x.target ∧ q = x.self) := fun hkey =>
          hnot (.inr ⟨hkey.2.symm, hkey.1.symm⟩)
        simpa using fun _ hp hq => absurd ⟨hp, hq⟩ hkey
      · obtain rfl := Option.some.inj hz
        refine ⟨rfl, rfl, rfl, Request.agrees_of_done id (fun hw => by cases hw) fun k b hb => ?_,
          False.elim⟩
        dsimp only
        have hcmd : Effect.ask k = some b := by
          simpa [Request.owed, Request.cmd, hop, Cmd.effect] using hb
        cases k with
        | friends => cases hcmd
        | pending =>
            cases hcmd
            rw [has_pending]
            simp

/-- A deletion. -/
theorem Orderly.delete (ho : s.Orderly) {h : Nat} {x : Request}
    (hx : s.requests h = some x) (hwait : x.wait = .deleting) (hop : x.op = .delete)
    (locks read : List Nat) (owes : Option Nat) :
    (({ s with rows := deleteKey (deleteKey s.rows x.target x.self) x.self x.target } :
      Online).goOn h
      { x with wait := .deleted, locks := locks, read := read, owes := owes }).Orderly := by
  have hopen : x.Open := by
    unfold Request.Open
    rw [hwait]
    trivial
  refine ho.goes hx hopen.not_over (ho.table.delete x.self x.target) (fun p q k hnot => ?_)
    (fun _ _ _ _ => rfl) fun z hz _ => ?_
  · rw [has_deleteKey, has_deleteKey, if_neg, if_neg]
    · rintro ⟨rfl, rfl⟩
      exact hnot (.inr ⟨rfl, rfl⟩)
    · rintro ⟨rfl, rfl⟩
      exact hnot (.inl ⟨rfl, rfl⟩)
  · obtain rfl := Option.some.inj hz
    refine ⟨rfl, rfl, rfl, Request.agrees_of_done id (fun hw => by cases hw) fun k b hb => ?_,
      False.elim⟩
    dsimp only
    have hforget : Effect.forget k = some b := by
      simpa [Request.owed, hop] using hb
    rw [has_deleteKey, has_deleteKey, if_pos (⟨rfl, rfl⟩ : x.target = x.target ∧ _), ite_self]
    cases k with
    | friends =>
        cases hforget
        rfl
    | pending => cases hforget

/-- A rejection. -/
theorem Orderly.reject (ho : s.Orderly) {h : Nat} {x : Request}
    (hx : s.requests h = some x) (hwait : x.wait = .deleting) (hop : x.op = .reject)
    (locks read : List Nat) (owes : Option Nat) :
    (({ s with rows := deleteKey s.rows x.self x.target } : Online).goOn h
      { x with wait := .deleted, locks := locks, read := read, owes := owes }).Orderly := by
  have hopen : x.Open := by
    unfold Request.Open
    rw [hwait]
    trivial
  have hl := ho.lone h x hx hopen.not_over
  have hpending := hl.agrees.found hopen .pending (by rw [hop]; rfl)
  refine ho.goes hx hopen.not_over (ho.table.reject hpending) (fun p q k hnot => ?_)
    (fun _ _ _ _ => rfl) fun z hz _ => ?_
  · rw [has_deleteKey, if_neg]
    rintro ⟨rfl, rfl⟩
    exact hnot (.inl ⟨rfl, rfl⟩)
  · obtain rfl := Option.some.inj hz
    refine ⟨rfl, rfl, rfl, Request.agrees_of_done id (fun hw => by cases hw) fun k b hb => ?_,
      False.elim⟩
    simp [Request.owed, hop, Effect.nothing] at hb

theorem Orderly.executed (ho : s.Orderly) (ht : s.Tracked) {h : Nat} {x : Request} {found : Bool}
    (hx : s.requests h = some x) (hstep : s.executed h x found = some s') : s'.Orderly := by
  unfold Online.executed at hstep
  split at hstep
  next rows wait hchanged =>
    obtain rfl := Option.some.inj hstep
    unfold changed at hchanged
    split at hchanged
    next w hwait =>
      cases hchanged
      exact ho.commit ht hx hwait _ _ _
    next hwait =>
      have hfits := ht.fits h x hx
      unfold Request.Fits at hfits
      rw [hwait] at hfits
      split at hchanged
      next hop =>
        split_ifs at hchanged
        cases hchanged
        exact ho.delete hx hwait hop _ _ _
      next hop =>
        split_ifs at hchanged
        cases hchanged
        exact ho.reject hx hwait (hfits.resolve_left hop) _ _ _
    next => cases hchanged
  next =>
    obtain ⟨y, hy, rfl⟩ := Option.map_eq_some_iff.mp hstep
    have hfollows := advance_follows hy
    have hover := hfollows.before.not_over
    have hl := ho.lone h x hx hover
    refine ho.goes (y := some y) hx hover ho.table (fun _ _ _ _ => rfl) (fun _ _ _ _ => rfl)
      fun z hz _ => ?_
    obtain rfl := Option.some.inj hz
    refine ⟨hfollows.agent, hfollows.self, hfollows.target, hfollows.agrees hl.agrees,
      fun _ hp k b hb => ?_⟩
    exact hl.early hfollows.before hp k b (hfollows.op ▸ hb)

/-! ## Answers and notifications -/

/-- The answer to a request that has nothing to expect any more. -/
theorem Orderly.answer (ho : s.Orderly) {h : Nat} {x : Request} {y : Option Request}
    (hx : s.requests h = some x) (hover : ¬ x.Over)
    (hy : ∀ z, y = some z → ¬ z.Over → z.agent = x.agent ∧ z.self = x.self ∧
      z.target = x.target ∧ (∃ cmd, z.wait = .asking cmd) ∧ z.owed = x.owed) :
    ({ s.put x.agent x.target x.own with
      requests := Function.update s.requests h y } : Online).Orderly := by
  have hl := ho.lone h x hx hover
  refine ho.goes hx hover ho.table (fun _ _ _ _ => rfl) (fun a k q hnot => ?_)
    fun z hz hzover => ?_
  · exact (put_copy (s := s) x.agent x.target a q x.own k).trans (if_neg hnot)
  · obtain ⟨hagent, hself, htarget, ⟨cmd, hwait⟩, howed⟩ := hy z hz hzover
    have hopen : ¬ z.Open := by
      unfold Request.Open
      rw [hwait]
      exact id
    refine ⟨hagent, hself, htarget, Request.agrees_of_done hopen (fun h => ?_) fun k b hb => ?_,
      fun h => (hopen h).elim⟩
    · rw [hwait] at h
      cases h
    · rw [hself, htarget]
      exact hl.agrees.owed k b (howed ▸ hb)

theorem Orderly.resumed (ho : s.Orderly) {h : Nat} {x : Request} (hx : s.requests h = some x)
    (hstep : s.resumed h x = some s') : s'.Orderly := by
  unfold Online.resumed at hstep
  dsimp only at hstep
  have hover : ∀ wait, x.wait = wait → wait ≠ .abandoned → ¬ x.Over := fun wait hwait hne hover =>
    hne (hwait.symm.trans hover)
  split at hstep
  next w hwait =>
    obtain rfl := Option.some.inj hstep
    refine ho.answer (y := some _) hx (hover _ hwait nofun) fun z hz _ => ?_
    obtain rfl := Option.some.inj hz
    refine ⟨rfl, rfl, rfl, ⟨_, rfl⟩, ?_⟩
    unfold Request.owed
    rw [hwait]
  next hwait =>
    obtain rfl := Option.some.inj hstep
    exact ho.answer (y := none) hx (hover _ hwait nofun) fun z hz => by cases hz
  next hwait =>
    obtain rfl := Option.some.inj hstep
    refine ho.answer (y := some _) hx (hover _ hwait nofun) fun z hz hnot => ?_
    obtain rfl := Option.some.inj hz
    exact absurd rfl hnot
  next hwait =>
    split_ifs at hstep with hop
    · obtain rfl := Option.some.inj hstep
      refine ho.answer (y := some _) hx (hover _ hwait nofun) fun z hz _ => ?_
      obtain rfl := Option.some.inj hz
      refine ⟨rfl, rfl, rfl, ⟨_, rfl⟩, ?_⟩
      unfold Request.owed
      rw [hwait]
      exact (if_pos hop).symm
    · obtain rfl := Option.some.inj hstep
      exact ho.answer (y := none) hx (hover _ hwait nofun) fun z hz => by cases hz
  next => cases hstep

/-- A notification that says what the rows say, about players of whom no request runs. -/
theorem Orderly.send (ho : s.Orderly) {n : Note} {p : Nat} (hlt : n.agent < s.clock)
    (howner : ∀ p', s.current p' = some n.agent → p' = p)
    (hnone : ∀ h x, s.requests h = some x → ¬ x.Over → ¬ x.About p n.playerid)
    (hright : ∀ k b, n.cmd.effect k = some b → has s.rows p n.playerid k = b) :
    (s.send n).Orderly := by
  have hnote : ∀ m z, (s.send n).notes m = some z → z = n ∨ s.notes m = some z := by
    intro m z hz
    simp only [Online.send, Function.update_apply] at hz
    split_ifs at hz
    · exact .inl (Option.some.inj hz).symm
    · exact .inr hz
  refine ⟨ho.table, fun h x hx hover => ?_, fun m z hz => ?_, fun m z p' hz hp => ?_⟩
  · have hl := ho.lone h x hx hover
    refine hl.keeps (fun _ _ _ hp => hp) (fun _ hp => hp)
      (fun h' y hy hover habout => ⟨y, hy, hover, habout⟩) (fun m z hz => ?_) (Nat.le_succ _)
      (fun _ => ⟨rfl, rfl⟩) fun _ _ => rfl
    rcases hnote m z hz with rfl | hz
    · have hnot := hnone h x hx hover
      refine ⟨hlt, fun hw => hnot (.inl ⟨howner _ hw.2, hw.1.symm⟩),
        fun hw => hnot (.inr ⟨hw.1.symm, howner _ hw.2⟩)⟩
    · exact ho.untold hl m z hz
  · rcases hnote m z hz with rfl | hz
    · exact Nat.lt_succ_of_lt hlt
    · exact Nat.lt_succ_of_lt (ho.numbered m z hz)
  · rcases hnote m z hz with rfl | hz
    · obtain rfl := howner p' hp
      exact hright
    · exact ho.note m z p' hz hp

theorem Orderly.notify (ho : s.Orderly) (ht : s.Tracked) {h : Nat} {x : Request} {cmd : Cmd}
    (hx : s.requests h = some x) (hwait : x.wait = .asking cmd) : (s.notify h x cmd).Orderly := by
  unfold Online.notify
  split
  next a hplayer =>
    have hcurrent : s.current x.target = some a := by
      unfold current
      rw [hplayer]
    have hover : ¬ x.Over := by
      intro hover
      have : x.wait = .abandoned := hover
      rw [hwait] at this
      cases this
    have hl := ho.lone h x hx hover
    refine (ho.ended h).send (n := ⟨a, cmd, x.self⟩) (ht.fresh_agent _ _ hcurrent)
      (fun p hp => ht.inj hp hcurrent) (fun h' y hy hover' habout => ?_) fun k b hb => ?_
    · simp only [Online.ended, Function.update_apply] at hy
      split_ifs at hy with hh
      refine hh (hl.alone h' y hy hover' ?_)
      rcases habout with ⟨h₁, h₂⟩ | ⟨h₁, h₂⟩
      · exact .inr ⟨h₁, h₂⟩
      · exact .inl ⟨h₁, h₂⟩
    · refine hl.agrees.owed k b ?_
      unfold Request.owed
      rw [hwait]
      exact hb
  next => exact ho.ended h

/-- A notification is delivered. -/
theorem Orderly.deliver (ho : s.Orderly) {m : Nat} {n : Note} (hn : s.notes m = some n) :
    (({ s with notes := Function.update s.notes m none } : Online).put n.agent n.playerid
      n.cmd.effect).Orderly := by
  have hsub : ∀ m' z, Function.update s.notes m none m' = some z → s.notes m' = some z := by
    intro m' z hz
    rw [Function.update_apply] at hz
    split_ifs at hz
    exact hz
  refine ⟨ho.table, fun h x hx hover => ?_, fun m' z hz => ho.numbered m' z (hsub m' z hz),
    fun m' z p hz => ho.note m' z p (hsub m' z hz)⟩
  have hl := ho.lone h x hx hover
  refine hl.keeps (fun _ _ _ hp => hp) (fun _ hp => hp)
    (fun h' y hy hover habout => ⟨y, hy, hover, habout⟩)
    (fun m' z hz => ho.untold hl m' z (hsub m' z hz)) (Nat.le_refl _) (fun _ => ⟨rfl, rfl⟩)
    fun hp k => ?_
  refine (put_copy n.agent n.playerid x.agent x.target n.cmd.effect k).trans (if_neg ?_)
  rintro ⟨hagent, htarget⟩
  exact (hl.untold m n hn).1 ⟨htarget.symm, hagent ▸ hp⟩

theorem Orderly.call (ho : s.Orderly) (ht : s.Tracked) (hfresh : s.Fresh) {a : Nat} (op : Op)
    {self target : Nat} (hcurrent : s.current self = some a)
    (hrunning : s.running self target = false) (hself : s.told self target = false)
    (htarget : s.told target self = false) : (s.call a op self target).Orderly := by
  have hcopy := ht.copy_eq hfresh hcurrent hrunning hself
  have hother : ∀ k, s.copy a k target = true → self ≠ target := by
    rintro k hk rfl
    rw [hcopy, ho.table.others] at hk
    cases hk
  unfold Online.call
  cases op with
  | add =>
      dsimp only
      split
      next => exact ho
      next hnot =>
        refine ho.start (x := ⟨.add, a, self, target, .beginning, [], [], none⟩) ht hfresh ?_
          hcurrent hrunning hself htarget (Request.agrees_of_found (.inl rfl) nofun)
        exact fun h => hnot (.inl h.symm)
  | accept =>
      dsimp only
      split
      next => exact ho
      next hnot =>
        have hfound : s.copy a .pending target = true := by simpa using hnot
        refine ho.start (x := ⟨.accept, a, self, target, .beginning, [], [], none⟩) ht hfresh
          (hother _ hfound) hcurrent hrunning hself htarget
          (Request.agrees_of_found (.inl rfl) fun k hk => ?_)
        cases hk
        exact (hcopy _).symm.trans hfound
  | delete =>
      dsimp only
      split
      next => exact ho
      next hnot =>
        have hfound : s.copy a .friends target = true := by simpa using hnot
        refine ho.start (x := ⟨.delete, a, self, target, .deleting, [], [], none⟩) ht hfresh
          (hother _ hfound) hcurrent hrunning hself htarget
          (Request.agrees_of_found (.inr rfl) fun k hk => ?_)
        cases hk
        exact (hcopy _).symm.trans hfound
  | reject =>
      dsimp only
      split
      next => exact ho
      next hnot =>
        have hfound : s.copy a .pending target = true := by simpa using hnot
        refine ho.start (x := ⟨.reject, a, self, target, .deleting, [], [], none⟩) ht hfresh
          (hother _ hfound) hcurrent hrunning hself htarget
          (Request.agrees_of_found (.inr rfl) fun k hk => ?_)
        cases hk
        exact (hcopy _).symm.trans hfound

/-! ## Runs -/

theorem step_orderly {e : Turn} (ho : s.Orderly) (ht : s.Tracked) (hfresh : s.Fresh)
    (hapart : s.Apart e) (hstep : s.step e = some s') : s'.Orderly := by
  cases e with
  | reqlogin p =>
      simp only [step] at hstep
      split at hstep
      next => cases hstep
      next hnone =>
        cases hstep
        refine ho.setPlayer p _ fun a h => ?_
        simp [current, Online.setPlayer] at h
  | load p =>
      simp only [step] at hstep
      split at hstep
      next =>
        cases hstep
        have hasking : s.asking p = false := by simpa [Apart] using hapart
        exact ho.load hfresh p _ hasking _ fun a ha => Function.update_of_ne ha _ _
      next => cases hstep
  | confirmLogin p isSucc =>
      simp only [step] at hstep
      split at hstep
      next agent hplayer =>
        cases hstep
        refine ho.setPlayer p _ fun a h => ?_
        cases isSucc with
        | false => simp [current, Online.setPlayer] at h
        | true => simpa [current, Online.setPlayer, hplayer] using h
      next =>
        cases hstep
        refine ho.setPlayer p _ fun a h => ?_
        simp [current, Online.setPlayer] at h
      next => cases hstep
  | logout p =>
      simp only [step] at hstep
      split at hstep
      next =>
        cases hstep
        refine ho.setPlayer p _ fun a h => ?_
        simp [current, Online.setPlayer] at h
      next => cases hstep
  | kick a =>
      simp only [step] at hstep
      split at hstep
      · split_ifs at hstep
        cases hstep
        exact ho.manager rfl rfl rfl rfl rfl fun _ _ h => h
      · cases hstep
  | kicked p =>
      simp only [step] at hstep
      split at hstep
      · split_ifs at hstep
        cases hstep
        refine ho.setPlayer p _ fun a h => ?_
        simp [current, Online.setPlayer] at h
      · cases hstep
  | call op a target =>
      simp only [step] at hstep
      split at hstep
      next self hself =>
        cases hstep
        simp only [Apart, hself, Option.all_some, Bool.and_eq_true, Bool.not_eq_true',
          decide_eq_true_eq] at hapart
        obtain ⟨⟨⟨hcurrent, hrunning⟩, h₁⟩, h₂⟩ := hapart
        exact ho.call ht hfresh op hcurrent hrunning h₁ h₂
      next => cases hstep
  | execute h found =>
      simp only [step] at hstep
      split at hstep
      next x hx => exact ho.executed ht hx hstep
      next => cases hstep
  | resume h =>
      simp only [step] at hstep
      split at hstep
      next x hx => exact ho.resumed hx hstep
      next => cases hstep
  | getPlayer h =>
      simp only [step] at hstep
      split at hstep
      next hx =>
        cases hstep
        exact ho.notify ht hx rfl
      next => cases hstep
  | deliver m =>
      simp only [step] at hstep
      split at hstep
      next n hn =>
        cases hstep
        exact ho.deliver hn
      next => cases hstep
  | settle h =>
      simp only [step] at hstep
      split at hstep
      next x hx =>
        split_ifs at hstep
        cases hstep
        exact ho.ended h
      next => cases hstep

theorem Reach.orderly (hrows : Friendly rows) (hr : Reach rows Apart s) :
    s.Tracked ∧ s.Orderly := by
  induction hr with
  | init => exact ⟨tracked_init hrows.statuses, orderly_init hrows⟩
  | step hr hapart hstep ih =>
      obtain ⟨ht, ho⟩ := ih
      exact ⟨step_tracked ht hr.fresh (kept_of_apart ht ho hapart hstep) hstep,
        step_orderly ho ht hr.fresh hapart hstep⟩

/-- Turns that meet the condition, one after the other. -/
def play (s : Online) : List Turn → Option Online
  | [] => some s
  | e :: es => if s.Apart e then (s.step e).bind fun s' => s'.play es else none

theorem Reach.play {es : List Turn} (hr : Reach rows Apart s) (hplay : s.play es = some s') :
    Reach rows Apart s' := by
  induction es generalizing s with
  | nil => exact Option.some.inj hplay ▸ hr
  | cons e es ih =>
      rw [Online.play] at hplay
      split_ifs at hplay with hapart
      obtain ⟨t, ht, hplay⟩ := Option.bind_eq_some_iff.mp hplay
      exact ih (hr.step hapart ht) hplay

/-- Nothing has one of the numbers that have been given. -/
def quiet (s : Online) : Bool :=
  (List.range s.clock).all fun h => (s.requests h).isNone && (s.notes h).isNone

theorem Fresh.quiet (hf : s.Fresh) (h : s.quiet = true) : s.Quiet := by
  have hnone : ∀ h', h' < s.clock → s.requests h' = none ∧ s.notes h' = none := fun h' hh => by
    simpa using List.all_eq_true.mp h h' (List.mem_range.mpr hh)
  refine ⟨fun h' x hx => ?_, fun m => ?_⟩
  · rw [(hnone h' (hf.request_lt hx)).1] at hx
    cases hx
  · by_cases hm : m < s.clock
    · exact (hnone m hm).2
    · exact hf.note m (Nat.le_of_not_lt hm)

end Online

/-- Player 2 accepts player 1, who asks player 3 at the same time and waits for the lock; player 3
logs in meanwhile.  In the end player 1 deletes player 2. -/
def meeting : List Turn :=
  [.reqlogin 1, .load 1, .confirmLogin 1 true, .reqlogin 2, .load 2, .confirmLogin 2 true,
    .call .accept 1 1, .call .add 0 3, .execute 2 true, .execute 3 true, .execute 2 true,
    .reqlogin 3, .load 3, .execute 2 true, .execute 2 true, .execute 2 true, .execute 2 true,
    .execute 2 true, .execute 3 true, .resume 2, .execute 3 true, .execute 3 true, .getPlayer 2,
    .execute 3 true, .execute 3 true, .execute 3 true, .deliver 5, .resume 3,
    .confirmLogin 3 true, .getPlayer 3, .call .delete 0 2, .execute 7 true, .deliver 6, .resume 7,
    .getPlayer 7, .deliver 8]

end BallServer.Agent.Friend
