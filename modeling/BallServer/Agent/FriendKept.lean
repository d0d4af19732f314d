import BallServer.Agent.FriendConverges

/-!
# The condition is exact

A turn that does not meet the condition leaves a table wrong, and nobody is going to write it.
Players do not ask themselves.

Main results:

- Theorem {lit}`Online.tracked_iff_kept`: a turn keeps every table right, or in the care of
  somebody who is going to write it, if and only if it meets the condition.
-/

namespace BallServer.Agent.Friend

namespace Online

variable {s s' : Online}

/-! ## Who writes after a turn -/

/-- What is written after a request has gone on was written before, or the request writes it. -/
theorem Writes.of_update {h p a q : Nat} {k : Part} {y : Option Request} {w : Writer}
    (hw : s'.Writes p a q k w)
    (hrequests : s'.requests = Function.update s.requests h y) (hnotes : s'.notes = s.notes) :
    w ≠ .request h ∧ s.Writes p a q k w ∨
      ∃ z, y = some z ∧ (z.agent = a ∧ z.self = p ∧ z.target = q ∧ (z.own k).isSome ∨
        z.owes = some a ∧ z.target = p ∧ z.self = q ∧ (z.owed k).isSome) := by
  cases w with
  | note m =>
      obtain ⟨n, hn, hw⟩ := hw
      exact .inl ⟨Writer.noConfusion, n, hnotes ▸ hn, hw⟩
  | request h' =>
      obtain ⟨z, hz, hw⟩ := hw
      rw [hrequests] at hz
      by_cases hh : h' = h
      · subst hh
        rw [Function.update_self] at hz
        exact .inr ⟨z, hz, hw⟩
      · rw [Function.update_of_ne hh] at hz
        exact .inl ⟨fun hne => hh (Writer.request.inj hne), z, hz, hw⟩

/-- A table is right after a turn, or somebody else writes it. -/
theorem Settled.or_else {p a q : Nat} {k : Part} {w₀ : Writer} (h : s'.Settled p a q k)
    (hback : ∀ w, s'.Writes p a q k w → w ≠ w₀ ∧ s.Writes p a q k w) :
    s'.copy a k q = has s'.rows p q k ∨ s.Else p a q k w₀ := by
  rcases h with h | ⟨w, hw⟩
  · exact .inl h
  · exact .inr ⟨w, hback w hw⟩

/-- A table that a request does not write is right before it goes on, or somebody else writes
it. -/
theorem Settled.before {p a q : Nat} {k : Part} {w₀ : Writer} (h : s.Settled p a q k)
    (hnot : ¬ s.Writes p a q k w₀) : s.copy a k q = has s.rows p q k ∨ s.Else p a q k w₀ := by
  rcases h with h | ⟨w, hw⟩
  · exact .inl h
  · refine .inr ⟨w, ?_, hw⟩
    rintro rfl
    exact hnot hw

/-! ## Turns -/

theorem right_of_deliver {m : Nat} {n : Note} (hn : s.notes m = some n)
    (hs' : (({ s with notes := Function.update s.notes m none } : Online).put n.agent n.playerid
      n.cmd.effect).Tracked) : s.Right (.note m) n.agent n.playerid n.cmd.effect := by
  intro p k b hp hb
  have hset := hs'.settled p n.agent n.playerid k hp
  have hback : ∀ w, (({ s with notes := Function.update s.notes m none } : Online).put n.agent
      n.playerid n.cmd.effect).Writes p n.agent n.playerid k w →
      w ≠ .note m ∧ s.Writes p n.agent n.playerid k w := by
    intro w hw
    cases w with
    | request h => exact ⟨Writer.noConfusion, hw⟩
    | note m' =>
        obtain ⟨z, hz, hw⟩ := hw
        change Function.update s.notes m none m' = some z at hz
        by_cases hm : m' = m
        · subst hm
          rw [Function.update_self] at hz
          cases hz
        · rw [Function.update_of_ne hm] at hz
          exact ⟨fun hne => hm (Writer.note.inj hne), z, hz, hw⟩
  refine (hset.or_else hback).imp_left fun hcopy => ?_
  rw [put_copy, if_pos ⟨rfl, rfl⟩, hb, Option.getD_some] at hcopy
  exact hcopy.symm

theorem right_of_answer {h : Nat} {x : Request} {y : Option Request}
    (hne : x.self ≠ x.target)
    (hy : ∀ z, y = some z → z.own = .nothing ∧ z.self = x.self ∧ z.target = x.target)
    (hs' : ({ s.put x.agent x.target x.own with
      requests := Function.update s.requests h y } : Online).Tracked) :
    s.Right (.request h) x.agent x.target x.own := by
  intro p k b hp hb
  have hset := hs'.settled p x.agent x.target k hp
  refine (hset.or_else fun w hw => ?_).imp_left fun hcopy => ?_
  · rcases hw.of_update (s := s) rfl rfl with hw | ⟨z, hz, hw⟩
    · exact hw
    · obtain ⟨hown, hself, htarget⟩ := hy z hz
      rcases hw with ⟨-, -, -, hw⟩ | ⟨-, -, hw, -⟩
      · rw [hown] at hw
        cases hw
      · exact absurd (hself.symm.trans hw) hne
  · have hput := put_copy (s := s) x.agent x.target x.agent x.target x.own k
    rw [if_pos ⟨rfl, rfl⟩, hb, Option.getD_some] at hput
    exact hcopy.symm.trans hput

theorem right_of_resumed {h : Nat} {x : Request} (hne : x.self ≠ x.target)
    (hstep : s.resumed h x = some s') (hs' : s'.Tracked) :
    s.Right (.request h) x.agent x.target x.own := by
  unfold Online.resumed at hstep
  dsimp only at hstep
  split at hstep
  · obtain rfl := Option.some.inj hstep
    exact right_of_answer (y := some _) hne (fun z hz => by cases hz; exact ⟨rfl, rfl, rfl⟩) hs'
  · obtain rfl := Option.some.inj hstep
    exact right_of_answer (y := none) hne (fun z hz => by cases hz) hs'
  · obtain rfl := Option.some.inj hstep
    exact right_of_answer (y := some _) hne (fun z hz => by cases hz; exact ⟨rfl, rfl, rfl⟩) hs'
  · split_ifs at hstep
    · obtain rfl := Option.some.inj hstep
      exact right_of_answer (y := some _) hne (fun z hz => by cases hz; exact ⟨rfl, rfl, rfl⟩) hs'
    · obtain rfl := Option.some.inj hstep
      exact right_of_answer (y := none) hne (fun z hz => by cases hz) hs'
  · cases hstep

theorem told_of_notify {h a : Nat} {x : Request} {cmd : Cmd} {k : Part}
    (hcurrent : s.current x.target = some a) (hs' : (s.notify h x cmd).Tracked) :
    s.players x.target = some ⟨some a, .game⟩ ∨
      s.copy a k x.self = has s.rows x.target x.self k ∨
      s.Else x.target a x.self k (.request h) := by
  unfold Online.notify at hs'
  split at hs'
  next a' hplayer =>
    have : s.current x.target = some a' := by
      unfold current
      rw [hplayer]
    obtain rfl : a = a' := Option.some.inj (hcurrent.symm.trans this)
    exact .inl hplayer
  next =>
    refine .inr ((hs'.settled x.target a x.self k hcurrent).or_else fun w hw => ?_)
    rcases hw.of_update (s := s) rfl rfl with hw | ⟨z, hz, -⟩
    · exact hw
    · cases hz

/-- The tables that a statement changes are right before it, or as the request has written them. -/
theorem changes_of_tracked {h : Nat} {x y : Request} {rows : List Row} (hs : s.Tracked)
    (hx : s.requests h = some x) (hne : x.self ≠ x.target)
    (hwait : x.wait = .deleting ∨ x.wait = .committing .accepted)
    (hs' : (({ s with rows := rows } : Online).goOn h y).Tracked)
    (hleaves : ∀ k, has rows x.self x.target k = x.leaves k)
    (hgone : x.op = .delete → ∀ k, has rows x.target x.self k = false)
    (hy : y.agent = x.agent ∧ y.self = x.self ∧ y.target = x.target)
    (hyown : ∀ k, (x.op.early k).isSome ∨ x.wait = .deleting → y.own k = none)
    (hyowed : x.op = .delete → y.owed .pending = none)
    (hearly : ∀ k b, x.op.early k = some b → x.leaves k = b) : s.Changes h x := by
  obtain ⟨hyagent, hyself, hytarget⟩ := hy
  have hbefore : ∀ p a q k, s.current p = some a →
      ¬ (x.agent = a ∧ x.self = p ∧ x.target = q ∧ (x.op.early k).isSome) →
      s.copy a k q = has s.rows p q k ∨ s.Else p a q k (.request h) :=
    fun p a q k hp hnot => (hs.settled p a q k hp).before fun hw =>
      hnot (hw.early hx (hwait.imp_right fun hwait => ⟨_, hwait⟩))
  have hafter : ∀ p a q k, s.current p = some a →
      ¬ (y.agent = a ∧ y.self = p ∧ y.target = q ∧ (y.own k).isSome) →
      ¬ (y.target = p ∧ y.self = q ∧ (y.owed k).isSome) →
      s.copy a k q = has rows p q k ∨ s.Else p a q k (.request h) := by
    intro p a q k hp hnotown hnotowed
    refine (hs'.settled p a q k hp).or_else fun w hw => ?_
    rcases hw.of_update (s := s) rfl rfl with hw | ⟨z, hz, hw⟩
    · exact hw
    · cases hz
      rcases hw with hw | hw
      · exact absurd hw hnotown
      · exact absurd hw.2 hnotowed
  have hrow : ∀ a k, s.current x.self = some a →
      ¬ (y.agent = a ∧ y.self = x.self ∧ y.target = x.target ∧ (y.own k).isSome) →
      s.copy a k x.target = x.leaves k ∨ s.Else x.self a x.target k (.request h) := by
    intro a k ha hnot
    rw [← hleaves k]
    exact hafter _ a _ k ha hnot fun hw => hne (hytarget.symm.trans hw.1).symm
  refine ⟨.inr fun a ha => ?_, fun k b hp hk => ?_, fun hdeleting k hk => ⟨fun hp => ?_, ?_⟩⟩
  · by_cases hagent : a = x.agent
    · exact .inl hagent
    · refine .inr fun k => ?_
      rcases hrow a k ha fun hw => hagent (hw.1.symm.trans hyagent) with hcopy | helse
      · refine (hbefore _ a _ k ha fun hw => hagent hw.1.symm).imp_left fun hsame => ?_
        exact hsame.symm.trans hcopy
      · exact .inr helse
  · rw [← hearly k b hk]
    refine hrow _ k hp fun hw => ?_
    rw [hyown k (.inl (by rw [hk]; rfl))] at hw
    cases hw.2.2.2
  · have hnot : ¬ (y.own k).isSome := by
      rw [hyown k (.inr hdeleting)]
      exact Bool.false_ne_true
    rcases hrow _ k hp fun hw => hnot hw.2.2.2 with hcopy | helse
    · refine (hbefore _ _ _ k hp fun hw => ?_).imp_left fun hsame => ?_
      · rw [hk] at hw
        cases hw.2.2.2
      · rw [Request.leaves, hdeleting] at hcopy
        exact hsame.symm.trans hcopy
    · exact .inr helse
  · intro hop a ha
    obtain rfl : k = .pending := by
      rw [hop] at hk
      cases k with
      | friends => cases hk
      | pending => rfl
    have hnot : ¬ (y.owed .pending).isSome := by
      rw [hyowed hop]
      exact Bool.false_ne_true
    rcases hafter _ a _ .pending ha (fun hw => hne (hyself.symm.trans hw.2.1))
      fun hw => hnot hw.2.2 with hcopy | helse
    · refine (hbefore _ a _ .pending ha fun hw => hne hw.2.1).imp_left fun hsame => ?_
      exact hsame.symm.trans (hcopy.trans (hgone hop .pending))
    · exact .inr helse

theorem changes_of_executed {h : Nat} {x : Request} {found : Bool} (hs : s.Tracked)
    (hx : s.requests h = some x) (hne : x.self ≠ x.target)
    (hwait : x.wait = .deleting ∨ ∃ w, x.wait = .committing w)
    (hstep : s.executed h x found = some s') (hs' : s'.Tracked) : s.Changes h x := by
  have hfits := hs.fits h x hx
  unfold Request.Fits at hfits
  unfold Online.executed changed at hstep
  rcases hwait with hwait | ⟨w, hwait⟩
  · rw [hwait] at hfits hstep
    dsimp only at hstep
    have hleaves : ∀ k, x.leaves k = false := fun k => by rw [Request.leaves, hwait]
    have hadvance : s.advance h x found = none := by rw [advance, hwait]
    rcases hfits with hop | hop
    · rw [hop] at hstep
      dsimp only at hstep
      split_ifs at hstep
      · rw [hadvance] at hstep
        cases hstep
      · obtain rfl := Option.some.inj hstep
        refine changes_of_tracked hs hx hne (.inl hwait) hs' (fun k => ?_) (fun _ k => ?_)
          ⟨rfl, rfl, rfl⟩ (fun k _ => rfl) (fun _ => rfl) (fun k b hk => ?_)
        · rw [hleaves, has_deleteKey, if_pos ⟨rfl, rfl⟩]
        · rw [has_deleteKey]
          split_ifs
          · rfl
          · rw [has_deleteKey, if_pos ⟨rfl, rfl⟩]
        · rw [hleaves]
          rw [hop] at hk
          cases k <;> cases hk
          rfl
    · rw [hop] at hstep
      dsimp only at hstep
      split_ifs at hstep
      · rw [hadvance] at hstep
        cases hstep
      · obtain rfl := Option.some.inj hstep
        refine changes_of_tracked hs hx hne (.inl hwait) hs' (fun k => ?_)
          (fun hdelete => by rw [hop] at hdelete; cases hdelete)
          ⟨rfl, rfl, rfl⟩ (fun k _ => rfl)
          (fun hdelete => by rw [hop] at hdelete; cases hdelete) (fun k b hk => ?_)
        · rw [hleaves, has_deleteKey, if_pos ⟨rfl, rfl⟩]
        · rw [hleaves]
          rw [hop] at hk
          cases k <;> cases hk
          rfl
  · rw [hwait] at hfits hstep
    cases w with
    | pending =>
        have hop : x.op = .add := hfits.resolve_right fun h => by cases h.2
        refine ⟨.inl hwait, fun k b _ hk => ?_, fun hdeleting => ?_⟩
        · rw [hop] at hk
          cases hk
        · rw [hwait] at hdeleting
          cases hdeleting
    | accepted =>
        obtain rfl := Option.some.inj hstep
        have hleaves : ∀ k, x.leaves k = decide (k = .friends) := fun k => by
          rw [Request.leaves, hwait]
        have hnot : x.op ≠ .delete := by
          rcases hfits with hop | ⟨hop, -⟩ <;> rw [hop] <;> decide
        refine changes_of_tracked hs hx hne (.inr hwait) hs' (fun k => ?_)
          (fun hdelete => absurd hdelete hnot) ⟨rfl, rfl, rfl⟩ (fun k hk => ?_)
          (fun hdelete => absurd hdelete hnot) (fun k b hk => ?_)
        · rw [hleaves, has_accepted, if_pos (.inl ⟨rfl, rfl⟩)]
        · have hsome : (x.op.early k).isSome := hk.resolve_right fun hdeleting => by
            rw [hwait] at hdeleting
            cases hdeleting
          rcases hfits with hop | ⟨hop, -⟩
          · rw [hop] at hsome
            cases hsome
          · rw [Request.own]
            dsimp only
            rw [if_neg (by rw [hop]; decide)]
            rfl
        · rw [hleaves]
          rcases hfits with hop | ⟨hop, -⟩
          · rw [hop] at hk
            cases hk
          · rw [hop] at hk
            cases k <;> cases hk <;> rfl

/-- A turn of players who ask others than themselves leaves every table right, or to somebody who
is going to write it, if and only if it meets the condition. -/
theorem tracked_iff_kept {e : Turn} (hs : s.Tracked) (hfresh : s.Fresh)
    (hother : ∀ h x, s.requests h = some x → x.self ≠ x.target)
    (hstep : s.step e = some s') : s'.Tracked ↔ s.Kept e := by
  refine ⟨fun hs' => ?_, fun hkept => step_tracked hs hfresh hkept hstep⟩
  cases e with
  | execute h found =>
      intro x hx hwait
      simp only [step, hx] at hstep
      exact changes_of_executed hs hx (hother h x hx) hwait hstep hs'
  | resume h =>
      intro x hx
      simp only [step, hx] at hstep
      exact right_of_resumed (hother h x hx) hstep hs'
  | getPlayer h =>
      intro x a k hx _ hcurrent hsome
      simp only [step, hx] at hstep
      split at hstep
      next heq =>
        cases heq
        obtain rfl := Option.some.inj hstep
        exact told_of_notify hcurrent hs'
      next => cases hstep
  | deliver m =>
      intro n hn
      simp only [step, hn] at hstep
      obtain rfl := Option.some.inj hstep
      exact right_of_deliver hn hs'
  | _ => trivial

end Online

end BallServer.Agent.Friend
