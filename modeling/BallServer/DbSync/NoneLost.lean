import BallServer.DbSync.WriteBack
import Mathlib.Data.List.Nodup

/-!
# Nothing dirty is lost

The dirty set and the snapshot of the round together never lose a player before it is written
back.  A player whose value changes while the round writes an old one comes back into the
dirty set, if its save goes on.

Main results:

- Structure {lit}`Store.Held`: the two sets in any run; structure {lit}`Store.Current`: what
  the syncs have written in a steady one.
- Theorem {lit}`write_back_loses_none`.
- Theorem {lit}`write_back_loses_one`: a save is cut off after its write.
-/

namespace BallServer.DbSync

namespace Store

variable {F V : Type} {s s' : Store F V}

/-! ## The two sets -/

/-- What the round knows of the two sets. -/
def RoundHeld (s : Store F V) : Prop :=
  match s.round with
  | .moving => s.snapshot = []
  | .emptying => s.snapshot = []
  | .removing p _ => s.owed p = true → p ∈ s.dirty
  | .adding p todo => ∀ q ∈ s.snapshot, q = p ∨ q ∈ todo ∨ q ∈ s.dirty
  | .deleting => ∀ q ∈ s.snapshot, q ∈ s.dirty
  | _ => True

/-- What holds of the two sets in any run. -/
structure Held (s : Store F V) : Prop where
  kept : s.Kept
  round : s.RoundHeld

/-- The two sets stay, or the dirty set grows, and fewer players are owed a sync. -/
structure Grows (s s' : Store F V) : Prop where
  dirty : ∀ p ∈ s.dirty, p ∈ s'.dirty
  snapshot : s'.snapshot = s.snapshot
  owed : ∀ p, s'.owed p = true → s.owed p = true ∨ p ∈ s'.dirty

theorem Grows.kept (h : Grows s s') (hs : s.Kept) : s'.Kept := by
  intro p hp
  rcases h.owed p hp with hp | hp
  · exact (hs p hp).imp (h.dirty p) (h.snapshot ▸ ·)
  · exact .inl hp

theorem Grows.held (h : Grows s s') (hround : s'.round = s.round) (hs : s.Held) : s'.Held := by
  refine ⟨h.kept hs.kept, ?_⟩
  have hr := hs.round
  unfold RoundHeld at hr ⊢
  rw [hround, h.snapshot]
  split at hr
  · exact hr
  · exact hr
  · intro howed
    rcases h.owed _ howed with howed | hd
    · exact h.dirty _ (hr howed)
    · exact hd
  · exact fun q hq => (hr q hq).imp_right (Or.imp_right (h.dirty q))
  · exact fun q hq => h.dirty q (hr q hq)
  · trivial

theorem grows_refl (s : Store F V) : Grows s s :=
  ⟨fun _ => id, rfl, fun _ => .inl⟩

theorem grows_synced (s : Store F V) (p : Nat) : Grows s (s.synced p) := by
  refine ⟨fun _ => id, rfl, fun q hq => .inl ?_⟩
  by_cases hqp : q = p
  · subst hqp
    have hself : Function.update s.owed q false q = true := hq
    rw [Function.update_self] at hself
    cases hself
  · exact (Function.update_of_ne hqp ..).symm.trans hq

theorem grows_addDirty (s : Store F V) (p : Nat) : Grows s (s.addDirty p) := by
  refine ⟨fun q hq => List.mem_cons_of_mem _ hq, rfl, fun q hq => ?_⟩
  by_cases hqp : q = p
  · exact .inr (hqp ▸ List.mem_cons_self ..)
  · exact .inl ((Function.update_of_ne hqp ..).symm.trans hq)

/-- The round goes on to a stage that knows nothing. -/
theorem Held.free {x : Round F V} (hs : s.Kept) (hx : ({ s with round := x } : Store F V).RoundHeld) :
    ({ s with round := x } : Store F V).Held :=
  ⟨hs, hx⟩

theorem held_nextPlayer (todo : List Nat) :
    ({ s with round := nextPlayer todo } : Store F V).RoundHeld := by
  cases todo <;> trivial

theorem held_nextBack {todo : List Nat} (h : ∀ q ∈ s.snapshot, q ∈ todo ∨ q ∈ s.dirty) :
    ({ s with round := nextBack todo } : Store F V).RoundHeld := by
  cases todo with
  | nil =>
      intro q hq
      exact (h q hq).resolve_left List.not_mem_nil
  | cons p todo =>
      intro q hq
      rcases h q hq with hq | hq
      · exact (List.mem_cons.mp hq).imp_right .inl
      · exact .inr (.inr hq)

theorem grows_putBack (s : Store F V) (p : Nat) (a : Answer) : Grows s (s.putBack p a) := by
  unfold putBack
  split
  · exact ⟨fun q hq => List.mem_cons_of_mem _ hq, rfl, fun _ => .inl⟩
  · exact grows_refl s

theorem start_held (redis : Nat → List (F × V)) (mysql : Nat → F → Option V) :
    (start redis mysql).Held :=
  ⟨nofun, trivial⟩

/-! ## What the syncs have written -/

/-- The player will be synced again. -/
def Covered (s : Store F V) (p : Nat) : Prop :=
  p ∈ s.dirty ∨ s.Between p

/-- A sync with what is still to be written has written the current value so far. -/
def Follows (s : Store F V) (p : Nat) (rest : List (F × V)) : Prop :=
  (∀ x ∈ rest, x ∈ s.redis p) ∧ ∀ x ∈ s.redis p, x ∈ rest ∨ s.mysql p x.1 = some x.2

/-- What the round has written. -/
def RoundCurrent (s : Store F V) : Prop :=
  match s.round with
  | .syncing p _ (.updating rest) => s.Covered p ∨ s.Follows p rest
  | .removing p _ => s.Covered p ∨ s.InSync p
  | _ => True

/-- What holds of the values in a steady run. -/
structure Current (s : Store F V) : Prop where
  keys : ∀ p, ((s.redis p).map Prod.fst).Nodup
  lost : s.NoneLost
  agents : ∀ p rest, s.agents p = .syncing (.updating rest) → ∀ x ∈ rest, x ∈ s.redis p
  round : s.RoundCurrent

/-- A row is written: with a field of the current value, or of a player that will be synced
again. -/
structure Writes (s s' : Store F V) (p : Nat) : Prop where
  redis : s'.redis = s.redis
  dirty : s'.dirty = s.dirty
  snapshot : s'.snapshot = s.snapshot
  agents : s'.agents = s.agents
  right : ∀ q, ∀ y ∈ s.redis q, s.mysql q y.1 = some y.2 →
    s'.mysql q y.1 = some y.2 ∨ q = p ∧ s.Covered p

theorem writes_refl (s : Store F V) (p : Nat) : Writes s s p :=
  ⟨rfl, rfl, rfl, rfl, fun _ _ _ h => .inl h⟩

/-- Such a write keeps what holds of the values, but for what the round has written. -/
theorem Writes.keeps {p : Nat} (h : Writes s s' p) (hs : s.Current) :
    (∀ q, ((s'.redis q).map Prod.fst).Nodup) ∧ s'.NoneLost ∧
      (∀ q rest, s'.agents q = .syncing (.updating rest) → ∀ x ∈ rest, x ∈ s'.redis q) ∧
      (∀ q, s.Covered q → s'.Covered q) ∧
      (∀ q rest, s.Covered q ∨ s.Follows q rest → s'.Covered q ∨ s'.Follows q rest) ∧
      (∀ q, s.Covered q ∨ s.InSync q → s'.Covered q ∨ s'.InSync q) := by
  have hcovered : ∀ q, s.Covered q → s'.Covered q := by
    intro q hq
    unfold Covered Between at hq ⊢
    rwa [h.dirty, h.agents]
  have hsync : ∀ q, s.InSync q → s'.Covered q ∨ s'.InSync q := by
    intro q hq
    by_cases hc : s'.Covered q
    · exact .inl hc
    · refine .inr fun y hy => ?_
      rw [h.redis] at hy
      rcases h.right q y hy (hq y hy) with hy | ⟨rfl, hp⟩
      · exact hy
      · exact absurd (hcovered _ hp) hc
  refine ⟨?_, fun q hq => ?_, ?_, hcovered, fun q rest hq => ?_, fun q hq => ?_⟩
  · rw [h.redis]
    exact hs.keys
  · by_cases hin : s.InSync q
    · rcases hsync q hin with (hd | hb) | hin
      · exact .inl hd
      · exact .inr (.inr hb)
      · exact absurd hin hq
    · rcases hs.lost q hin with hd | hd | hb
      · exact .inl (h.dirty ▸ hd)
      · exact .inr (.inl (h.snapshot ▸ hd))
      · refine .inr (.inr ?_)
        unfold Between at hb ⊢
        rwa [h.agents]
  · rw [h.redis, h.agents]
    exact hs.agents
  · by_cases hc : s'.Covered q
    · exact .inl hc
    · rcases hq with hq | ⟨hrest, hdone⟩
      · exact .inl (hcovered q hq)
      · refine .inr ⟨fun x hx => h.redis ▸ hrest x hx, fun y hy => ?_⟩
        rw [h.redis] at hy
        refine (hdone y hy).imp_right fun hm => ?_
        rcases h.right q y hy hm with hm | ⟨rfl, hp⟩
        · exact hm
        · exact absurd (hcovered _ hp) hc
  · rcases hq with hq | hq
    · exact .inl (hcovered q hq)
    · exact hsync q hq

/-- More players are covered, and values and rows stay. -/
theorem Current.covers (hs : s.Current) (hredis : s'.redis = s.redis) (hmysql : s'.mysql = s.mysql)
    (hsnapshot : s'.snapshot = s.snapshot) (hround : s'.round = s.round)
    (hcovered : ∀ q, s.Covered q → s'.Covered q)
    (hagents : ∀ q rest, s'.agents q = .syncing (.updating rest) → ∀ x ∈ rest, x ∈ s'.redis q) :
    s'.Current := by
  refine ⟨?_, fun q hq => ?_, hagents, ?_⟩
  · rw [hredis]
    exact hs.keys
  · unfold InSync at hq
    rw [hredis, hmysql] at hq
    rcases hs.lost q hq with hd | hd | hb
    · exact (hcovered q (.inl hd)).imp_right .inr
    · exact .inr (.inl (hsnapshot ▸ hd))
    · exact (hcovered q (.inr hb)).imp_right .inr
  · have hr := hs.round
    unfold RoundCurrent at hr ⊢
    rw [hround]
    split at hr
    · unfold Follows at hr ⊢
      rw [hredis, hmysql]
      exact hr.imp_left (hcovered _)
    · unfold InSync at hr ⊢
      rw [hredis, hmysql]
      exact hr.imp_left (hcovered _)
    · trivial

/-- The round comes to a stage in which it has written nothing. -/
theorem Current.free (hs : s.Current) {x : Round F V}
    (hx : ({ s with round := x } : Store F V).RoundCurrent) :
    ({ s with round := x } : Store F V).Current :=
  ⟨hs.keys, hs.lost, hs.agents, hx⟩

theorem current_nextPlayer (todo : List Nat) :
    ({ s with round := nextPlayer todo } : Store F V).RoundCurrent := by
  cases todo <;> trivial

theorem current_nextBack (todo : List Nat) :
    ({ s with round := nextBack todo } : Store F V).RoundCurrent := by
  cases todo <;> trivial

/-- The two sets change, and no player that needs one of them is lost. -/
theorem Current.sets (hs : s.Current) {x : Round F V} {dirty snapshot : List Nat}
    (hlost : ∀ p, ¬ s.InSync p → p ∈ dirty ∨ p ∈ snapshot ∨ s.Between p)
    (hx : ({ s with round := x, dirty := dirty, snapshot := snapshot } : Store F V).RoundCurrent) :
    ({ s with round := x, dirty := dirty, snapshot := snapshot } : Store F V).Current :=
  ⟨hs.keys, hlost, hs.agents, hx⟩

/-- An agent saves: the player is covered until it is in the dirty set. -/
theorem Current.saves (hs : s.Current) {p : Nat} {value : List (F × V)}
    (hkeys : (value.map Prod.fst).Nodup) :
    (({ s with redis := Function.update s.redis p value } : Store F V).setAgent p .written).Current := by
  have hbetween : ∀ q, q = p ∨ s.Between q →
      (({ s with redis := Function.update s.redis p value } : Store F V).setAgent p
        .written).Between q := by
    rintro q hq
    by_cases hqp : q = p
    · exact .inl (hqp ▸ Function.update_self ..)
    · have hb := hq.resolve_left hqp
      unfold Between at hb ⊢
      simpa [setAgent, hqp] using hb
  have hredis : ∀ q, q ≠ p → (({ s with redis := Function.update s.redis p value } :
      Store F V).setAgent p .written).redis q = s.redis q := fun q hq => Function.update_of_ne hq ..
  refine ⟨fun q => ?_, fun q hq => ?_, fun q rest hq => ?_, ?_⟩
  · by_cases hqp : q = p
    · subst hqp
      simpa [setAgent] using hkeys
    · rw [hredis q hqp]
      exact hs.keys q
  · by_cases hqp : q = p
    · exact .inr (.inr (hbetween q (.inl hqp)))
    · unfold InSync at hq
      rw [hredis q hqp] at hq
      exact (hs.lost q hq).imp_right (Or.imp_right fun hb => hbetween q (.inr hb))
  · by_cases hqp : q = p
    · subst hqp
      have hself : Function.update s.agents q .written q = .syncing (.updating rest) := hq
      rw [Function.update_self] at hself
      cases hself
    · rw [hredis q hqp]
      exact hs.agents q rest ((Function.update_of_ne hqp ..).symm.trans hq)
  · have hr := hs.round
    have hround : (({ s with redis := Function.update s.redis p value } : Store F V).setAgent p
        .written).round = s.round := rfl
    unfold RoundCurrent at hr ⊢
    rw [hround]
    split at hr
    · rename_i q _ rest _
      by_cases hqp : q = p
      · exact .inl (.inr (hbetween q (.inl hqp)))
      · unfold Follows at hr ⊢
        rw [hredis q hqp]
        exact hr.imp_left (Or.imp_right fun hb => hbetween q (.inr hb))
    · rename_i q _ _
      by_cases hqp : q = p
      · exact .inl (.inr (hbetween q (.inl hqp)))
      · unfold InSync at hr ⊢
        rw [hredis q hqp]
        exact hr.imp_left (Or.imp_right fun hb => hbetween q (.inr hb))
    · trivial

/-- An agent goes on without a sync of its own; if it was between its write and the dirty set,
it still is, or the player is dirty. -/
theorem Current.agent (hs : s.Current) {p : Nat} {x : Agent F V}
    (hx : ∀ rest, x = .syncing (.updating rest) → ∀ y ∈ rest, y ∈ s.redis p)
    (hcovered : s.Between p → p ∈ s.dirty ∨ x = .written ∨ x = .expiring) :
    (s.setAgent p x).Current := by
  refine hs.covers rfl rfl rfl rfl (fun q hq => ?_) fun q rest hq => ?_
  · rcases hq with hd | hb
    · exact .inl hd
    · by_cases hqp : q = p
      · subst hqp
        refine (hcovered hb).imp_right fun hx => ?_
        unfold Between
        simpa [setAgent] using hx
      · refine .inr ?_
        unfold Between at hb ⊢
        simpa [setAgent, hqp] using hb
  · by_cases hqp : q = p
    · subst hqp
      have hself : Function.update s.agents q x q = .syncing (.updating rest) := hq
      rw [Function.update_self] at hself
      exact hx rest hself
    · exact hs.agents q rest ((Function.update_of_ne hqp ..).symm.trans hq)

/-! ## Answers -/

variable [DecidableEq F]

/-- What a sync of a player does with an answer. -/
inductive Answered (s : Store F V) (p : Nat) : Sync F V → Store F V → Sync F V ⊕ Bool → Prop where
  | reads : Answered s p .getting s (.inl (.updating (s.redis p)))
  | fails (sync : Sync F V) : Answered s p sync s (.inr false)
  | writesAndFails (x : F × V) (rest : List (F × V)) :
      Answered s p (.updating (x :: rest)) (s.writeRow p x) (.inr false)
  | writes (x : F × V) (rest : List (F × V)) :
      Answered s p (.updating (x :: rest)) (s.writeRow p x) (.inl (.updating rest))
  | succeeds (x : F × V) :
      Answered s p (.updating [x]) ((s.writeRow p x).synced p) (.inr true)
  | nothing : Answered s p (.updating []) (s.synced p) (.inr true)

theorem answerSync_answered (s : Store F V) (p : Nat) (sync : Sync F V) (a : Answer) :
    Answered s p sync (s.answerSync p sync a).1 (s.answerSync p sync a).2 := by
  cases sync with
  | getting =>
      cases a with
      | ok =>
          simp only [answerSync]
          split
          · exact .fails _
          · exact .reads
      | failed _ => exact .fails _
  | updating rest =>
      cases rest with
      | nil => exact .nothing
      | cons x rest =>
          cases a with
          | ok =>
              simp only [answerSync, queryRow, Answer.Executed, if_true]
              split
              next h =>
                subst h
                exact .succeeds x
              next => exact .writes x rest
          | failed executed =>
              cases executed with
              | true => exact .writesAndFails x rest
              | false => exact .fails _

theorem Answered.grows {p : Nat} {sync : Sync F V} {r : Sync F V ⊕ Bool}
    (h : Answered s p sync s' r) :
    Grows s s' ∧ s'.round = s.round ∧ s'.agents = s.agents ∧ s'.redis = s.redis ∧
      (r = .inr true → s'.owed p = false) := by
  cases h with
  | reads => exact ⟨grows_refl s, rfl, rfl, rfl, nofun⟩
  | fails => exact ⟨grows_refl s, rfl, rfl, rfl, nofun⟩
  | writesAndFails x rest => exact ⟨⟨fun _ => id, rfl, fun _ => .inl⟩, rfl, rfl, rfl, nofun⟩
  | writes x rest => exact ⟨⟨fun _ => id, rfl, fun _ => .inl⟩, rfl, rfl, rfl, nofun⟩
  | succeeds x =>
      have hgrows := grows_synced (s.writeRow p x) p
      exact ⟨⟨hgrows.dirty, hgrows.snapshot, hgrows.owed⟩, rfl, rfl, rfl,
        fun _ => Function.update_self ..⟩
  | nothing => exact ⟨grows_synced s p, rfl, rfl, rfl, fun _ => Function.update_self ..⟩

omit [DecidableEq F] in
/-- The dirty set becomes the snapshot. -/
theorem Kept.moved {a : Answer} (hs : s.Kept) (hempty : s.snapshot = []) : (s.moved a).Kept := by
  unfold Store.moved
  split
  · intro p hp
    rcases hs p hp with hd | hd
    · exact .inr hd
    · rw [hempty] at hd
      cases hd
  · exact hs

omit [DecidableEq F] in
/-- The snapshot is deleted when its players are dirty again. -/
theorem Kept.emptied {a : Answer} (hs : s.Kept) (hdirty : ∀ p ∈ s.snapshot, p ∈ s.dirty) :
    (s.emptied a).Kept := by
  unfold Store.emptied
  split
  · intro p hp
    exact .inl ((hs p hp).elim id (hdirty p))
  · exact hs

omit [DecidableEq F] in
/-- A player leaves the snapshot when it is not owed or dirty again. -/
theorem Kept.removed {p : Nat} {a : Answer} (hs : s.Kept)
    (hdirty : s.owed p = true → p ∈ s.dirty) : (s.removed p a).Kept := by
  unfold Store.removed
  split
  · intro q hq
    by_cases hqp : q = p
    · exact .inl (hqp ▸ hdirty (hqp ▸ hq))
    · refine (hs q hq).imp_right fun h => ?_
      simpa [hqp] using h
  · exact hs

theorem Held.answerRound {a : Answer} (hs : s.Held) (h : s.answerRound a = some s') : s'.Held := by
  have hround := hs.round
  unfold Store.answerRound at h
  cases hr : s.round with
  | idle => simp [hr] at h
  | checking =>
      simp only [hr] at h
      split at h
      · obtain rfl := Option.some.inj h
        split
        next hempty => exact .free hs.kept hempty
        next => exact .free hs.kept trivial
      · obtain rfl := Option.some.inj h
        exact .free hs.kept trivial
  | moving =>
      simp only [hr] at h
      simp only [RoundHeld, hr] at hround
      split at h
      · obtain rfl := Option.some.inj h
        exact .free hs.kept trivial
      · have hkept : (s.moved a).Kept := by
          unfold moved
          split
          · intro p hp
            rcases hs.kept p hp with hd | hd
            · exact .inr hd
            · rw [hround] at hd
              cases hd
          · exact hs.kept
        obtain rfl := Option.some.inj h
        refine .free hkept ?_
        split <;> trivial
  | reading =>
      simp only [hr] at h
      split at h
      · obtain rfl := Option.some.inj h
        split
        next hempty => exact .free hs.kept hempty
        next => exact .free hs.kept (held_nextPlayer _)
      · obtain rfl := Option.some.inj h
        exact .free hs.kept trivial
  | emptying =>
      simp only [hr] at h
      simp only [RoundHeld, hr] at hround
      obtain rfl := Option.some.inj h
      refine .free (hs.kept.emptied fun p hp => ?_) trivial
      rw [hround] at hp
      cases hp
  | syncing p todo sync =>
      simp only [hr] at h
      have hans := answerSync_answered s p sync a
      obtain ⟨hgrows, -, -, -, howed⟩ := hans.grows
      split at h <;> rename_i heq <;> obtain rfl := Option.some.inj h <;>
        simp only [heq] at hgrows howed
      · exact .free (hgrows.kept hs.kept) trivial
      · refine .free (hgrows.kept hs.kept) fun howed' => ?_
        rw [show _ = _ from howed trivial] at howed'
        cases howed'
      · exact .free (hgrows.kept hs.kept) (held_nextPlayer _)
  | removing p todo =>
      simp only [hr] at h
      simp only [RoundHeld, hr] at hround
      obtain rfl := Option.some.inj h
      refine .free (hs.kept.removed hround) ?_
      split
      · exact held_nextPlayer _
      · trivial
  | remaining =>
      simp only [hr] at h
      split at h
      · obtain rfl := Option.some.inj h
        exact .free hs.kept (held_nextBack fun q hq => .inl hq)
      · obtain rfl := Option.some.inj h
        exact .free hs.kept trivial
  | adding p todo =>
      simp only [hr] at h
      simp only [RoundHeld, hr] at hround
      have hgrows := grows_putBack s p a
      obtain rfl := Option.some.inj h
      refine .free (hgrows.kept hs.kept) ?_
      cases a with
      | ok =>
          refine held_nextBack fun q hq => ?_
          rcases hround q hq with rfl | hq | hq
          · exact .inr (List.mem_cons_self ..)
          · exact .inl hq
          · exact .inr (List.mem_cons_of_mem _ hq)
      | failed executed => trivial
  | deleting =>
      simp only [hr] at h
      simp only [RoundHeld, hr] at hround
      obtain rfl := Option.some.inj h
      exact .free (hs.kept.emptied hround) trivial

theorem step_held {e : Event F V} (hs : s.Held) (h : s.step e = some s') : s'.Held := by
  cases e with
  | save p fields =>
      simp only [step] at h
      split at h
      · split at h
        · cases h
        · obtain rfl := Option.some.inj h
          exact ⟨hs.kept, hs.round⟩
      · cases h
  | expire p a =>
      simp only [step] at h
      split at h
      · obtain rfl := Option.some.inj h
        exact ⟨hs.kept, hs.round⟩
      · cases h
  | sadd p a =>
      simp only [step] at h
      split at h
      · obtain rfl := Option.some.inj h
        cases hex : a.Executed with
        | true =>
            have hheld := (grows_addDirty s p).held rfl hs
            exact ⟨hheld.kept, hheld.round⟩
        | false => exact ⟨hs.kept, hs.round⟩
      · cases h
  | ask p =>
      simp only [step] at h
      split at h
      · obtain rfl := Option.some.inj h
        exact ⟨hs.kept, hs.round⟩
      · cases h
  | answer p a =>
      simp only [step] at h
      split at h
      · rename_i sync _
        obtain ⟨hgrows, hround, -⟩ := (answerSync_answered s p sync a).grows
        have hheld := hgrows.held hround hs
        split at h <;> rename_i heq <;> obtain rfl := Option.some.inj h <;>
          simp only [heq] at hheld
        · exact ⟨hheld.kept, hheld.round⟩
        · exact ⟨hheld.kept, hheld.round⟩
      · cases h
  | tick =>
      simp only [step] at h
      split at h
      · obtain rfl := Option.some.inj h
        exact .free hs.kept trivial
      · cases h
  | round a => exact hs.answerRound h

theorem Reach.held {ok : Store F V → Event F V → Prop} (hr : Reach ok s) : s.Held := by
  induction hr with
  | start redis mysql => exact start_held redis mysql
  | step _ _ hs ih => exact step_held ih hs

/-- A row that is written with the current field is right, and right ones stay right. -/
theorem writeRow_mysql (hkeys : ∀ p, ((s.redis p).map Prod.fst).Nodup) {p q : Nat} {x y : F × V}
    (hx : x ∈ s.redis p) (hy : y ∈ s.redis q)
    (h : s.mysql q y.1 = some y.2 ∨ q = p ∧ y = x) : (s.writeRow p x).mysql q y.1 = some y.2 := by
  by_cases hqp : q = p
  · subst hqp
    by_cases hyx : y.1 = x.1
    · obtain rfl := List.inj_on_of_nodup_map (hkeys q) hy hx hyx
      simp [writeRow]
    · have hold : s.mysql q y.1 = some y.2 := by
        rcases h with h | ⟨-, rfl⟩
        · exact h
        · exact absurd rfl hyx
      simpa [writeRow, hyx] using hold
  · rcases h with h | ⟨heq, -⟩
    · simpa [writeRow, hqp] using h
    · exact absurd heq hqp

/-- The other player's rows stay. -/
theorem writeRow_other {p q : Nat} (x : F × V) (hqp : q ≠ p) :
    (s.writeRow p x).mysql q = s.mysql q :=
  Function.update_of_ne hqp ..

theorem writes_row (hs : s.Current) {p : Nat} {x : F × V}
    (hx : s.Covered p ∨ x ∈ s.redis p) : Writes s (s.writeRow p x) p := by
  refine ⟨rfl, rfl, rfl, rfl, fun q y hy h => ?_⟩
  rcases hx with hc | hx
  · by_cases hqp : q = p
    · exact .inr ⟨hqp, hc⟩
    · exact .inl (by rw [writeRow_other x hqp, h])
  · exact .inl (writeRow_mysql hs.keys hx hy (.inl h))

/-- A sync that follows the value goes on following it, and in the end has written it. -/
theorem Answered.follows {p : Nat} {sync : Sync F V} {r : Sync F V ⊕ Bool} (hs : s.Current)
    (h : Answered s p sync s' r)
    (hpre : ∀ rest, sync = .updating rest → s.Covered p ∨ s.Follows p rest) :
    Writes s s' p ∧ (∀ rest, r = .inl (.updating rest) → s'.Covered p ∨ s'.Follows p rest) ∧
      (r = .inr true → s'.Covered p ∨ s'.InSync p) := by
  have hwrites : ∀ x rest, sync = .updating (x :: rest) → Writes s (s.writeRow p x) p := by
    intro x rest hsync
    exact writes_row hs ((hpre _ hsync).imp_right fun hf => hf.1 x (List.mem_cons_self ..))
  have hnext : ∀ x rest, sync = .updating (x :: rest) →
      (s.writeRow p x).Covered p ∨ (s.writeRow p x).Follows p rest := by
    intro x rest hsync
    rcases hpre _ hsync with hc | ⟨hrest, hdone⟩
    · exact .inl (((hwrites x rest hsync).keeps hs).2.2.2.1 p hc)
    · have hx := hrest x (List.mem_cons_self ..)
      refine .inr ⟨fun y hy => hrest y (List.mem_cons_of_mem _ hy), fun y hy => ?_⟩
      rcases hdone y hy with hmem | hm
      · rcases List.mem_cons.mp hmem with rfl | hmem
        · exact .inr (writeRow_mysql hs.keys hx hy (.inr ⟨rfl, rfl⟩))
        · exact .inl hmem
      · exact .inr (writeRow_mysql hs.keys hx hy (.inl hm))
  cases h with
  | reads =>
      refine ⟨writes_refl s p, fun rest hr => ?_, nofun⟩
      cases hr
      exact .inr ⟨fun _ => id, fun x hx => .inl hx⟩
  | fails => exact ⟨writes_refl s p, nofun, nofun⟩
  | writesAndFails x rest => exact ⟨hwrites x rest rfl, nofun, nofun⟩
  | writes x rest =>
      refine ⟨hwrites x rest rfl, fun rest' hr => ?_, nofun⟩
      cases hr
      exact hnext x rest rfl
  | succeeds x =>
      have hw := hwrites x [] rfl
      refine ⟨⟨hw.redis, hw.dirty, hw.snapshot, hw.agents, hw.right⟩, nofun, fun _ => ?_⟩
      refine (hnext x [] rfl).imp_right fun hf y hy => ?_
      exact (hf.2 y hy).resolve_left List.not_mem_nil
  | nothing =>
      refine ⟨⟨rfl, rfl, rfl, rfl, fun _ _ _ h => .inl h⟩, nofun, fun _ => ?_⟩
      refine (hpre [] rfl).imp_right fun hf y hy => ?_
      exact (hf.2 y hy).resolve_left List.not_mem_nil

/-- A sync of fields of the current value writes them only. -/
theorem Answered.current {p : Nat} {sync : Sync F V} {r : Sync F V ⊕ Bool} (hs : s.Current)
    (h : Answered s p sync s' r)
    (hpre : ∀ rest, sync = .updating rest → ∀ x ∈ rest, x ∈ s.redis p) :
    Writes s s' p ∧ ∀ rest, r = .inl (.updating rest) → ∀ x ∈ rest, x ∈ s'.redis p := by
  cases h with
  | reads =>
      refine ⟨writes_refl s p, fun rest hr => ?_⟩
      cases hr
      exact fun _ => id
  | fails => exact ⟨writes_refl s p, nofun⟩
  | writesAndFails x rest =>
      exact ⟨writes_row hs (.inr (hpre _ rfl x (List.mem_cons_self ..))), nofun⟩
  | writes x rest =>
      refine ⟨writes_row hs (.inr (hpre _ rfl x (List.mem_cons_self ..))), fun rest' hr => ?_⟩
      cases hr
      exact fun y hy => hpre _ rfl y (List.mem_cons_of_mem _ hy)
  | succeeds x =>
      have hw := writes_row hs (.inr (hpre _ rfl x (List.mem_cons_self ..)))
      exact ⟨⟨hw.redis, hw.dirty, hw.snapshot, hw.agents, hw.right⟩, nofun⟩
  | nothing => exact ⟨⟨rfl, rfl, rfl, rfl, fun _ _ _ h => .inl h⟩, nofun⟩

theorem Current.answerRound {a : Answer} (hs : s.Current) (hheld : s.Held)
    (h : s.answerRound a = some s') : s'.Current := by
  have hround := hs.round
  have hsets := hheld.round
  unfold Store.answerRound at h
  cases hr : s.round with
  | idle => simp [hr] at h
  | checking =>
      simp only [hr] at h
      split at h
      · obtain rfl := Option.some.inj h
        refine hs.free ?_
        split <;> trivial
      · obtain rfl := Option.some.inj h
        exact hs.free trivial
  | moving =>
      simp only [hr] at h
      simp only [RoundHeld, hr] at hsets
      split at h
      · obtain rfl := Option.some.inj h
        exact hs.free trivial
      · obtain rfl := Option.some.inj h
        have hx : (if a = .ok then Round.reading else .idle : Round F V) = .reading ∨
            (if a = .ok then Round.reading else .idle : Round F V) = .idle := by
          split <;> simp
        unfold moved
        split
        · refine hs.sets (fun p hp => ?_) ?_
          · rcases hs.lost p hp with hd | hd | hb
            · exact .inr (.inl hd)
            · rw [hsets] at hd
              cases hd
            · exact .inr (.inr hb)
          · rcases hx with hx | hx <;> rw [hx] <;> trivial
        · refine hs.free ?_
          rcases hx with hx | hx <;> rw [hx] <;> trivial
  | reading =>
      simp only [hr] at h
      split at h
      · obtain rfl := Option.some.inj h
        refine hs.free ?_
        split
        · trivial
        · exact current_nextPlayer _
      · obtain rfl := Option.some.inj h
        exact hs.free trivial
  | emptying =>
      simp only [hr] at h
      simp only [RoundHeld, hr] at hsets
      obtain rfl := Option.some.inj h
      unfold emptied
      split
      · exact hs.sets (fun p hp => hsets ▸ hs.lost p hp) trivial
      · exact hs.free trivial
  | syncing p todo sync =>
      simp only [hr] at h
      have hpre : ∀ rest, sync = .updating rest → s.Covered p ∨ s.Follows p rest := by
        rintro rest rfl
        simpa only [RoundCurrent, hr] using hround
      obtain ⟨hw, hfollows, hdone⟩ := (answerSync_answered s p sync a).follows hs hpre
      obtain ⟨hkeys, hlost, hagents, -, -, -⟩ := hw.keeps hs
      split at h <;> rename_i heq <;> obtain rfl := Option.some.inj h <;>
        simp only [heq] at hfollows hdone hkeys hlost hagents
      · refine ⟨hkeys, hlost, hagents, ?_⟩
        rename_i sync'
        cases sync' with
        | getting => trivial
        | updating rest => exact hfollows rest rfl
      · exact ⟨hkeys, hlost, hagents, hdone trivial⟩
      · exact ⟨hkeys, hlost, hagents, current_nextPlayer _⟩
  | removing p todo =>
      simp only [hr] at h
      simp only [RoundCurrent, hr] at hround
      obtain rfl := Option.some.inj h
      have hx : ∀ s : Store F V, ({ s with round := if a = .ok then nextPlayer todo else .idle } :
          Store F V).RoundCurrent := by
        intro s
        split
        · exact current_nextPlayer _
        · trivial
      unfold removed
      split
      · refine hs.sets (fun q hq => ?_) (hx _)
        by_cases hqp : q = p
        · subst hqp
          rcases hround with (hd | hb) | hin
          · exact .inl hd
          · exact .inr (.inr hb)
          · exact absurd hin hq
        · refine (hs.lost q hq).imp_right (Or.imp_left fun hmem => ?_)
          simpa [hqp] using hmem
      · exact hs.free (hx _)
  | remaining =>
      simp only [hr] at h
      split at h
      · obtain rfl := Option.some.inj h
        exact hs.free (current_nextBack _)
      · obtain rfl := Option.some.inj h
        exact hs.free trivial
  | adding p todo =>
      simp only [hr] at h
      obtain rfl := Option.some.inj h
      have hx : ∀ s : Store F V, ({ s with round := if a = .ok then nextBack todo else .idle } :
          Store F V).RoundCurrent := by
        intro s
        split
        · exact current_nextBack _
        · trivial
      unfold putBack
      split
      · exact hs.sets (fun q hq => (hs.lost q hq).imp_left (List.mem_cons_of_mem _)) (hx _)
      · exact hs.free (hx _)
  | deleting =>
      simp only [hr] at h
      simp only [RoundHeld, hr] at hsets
      obtain rfl := Option.some.inj h
      unfold emptied
      split
      · refine hs.sets (fun q hq => ?_) trivial
        rcases hs.lost q hq with hd | hd | hb
        · exact .inl hd
        · exact .inl (hsets q hd)
        · exact .inr (.inr hb)
      · exact hs.free trivial

theorem merge_keys {old fields : List (F × V)} (hold : (old.map Prod.fst).Nodup)
    (hfields : (fields.map Prod.fst).Nodup) : ((merge old fields).map Prod.fst).Nodup := by
  unfold merge
  rw [List.map_append, List.nodup_append]
  refine ⟨hold.sublist (List.filter_sublist.map _), hfields, fun f hf g hg heq => ?_⟩
  subst heq
  obtain ⟨x, hx, rfl⟩ := List.mem_map.mp hf
  obtain ⟨y, hy, hyx⟩ := List.mem_map.mp hg
  have hnone := (List.mem_filter.mp hx).2
  simp only [Bool.not_eq_true', List.any_eq_false, decide_eq_true_eq] at hnone
  exact hnone y hy hyx

theorem step_current {e : Event F V} (hs : s.Current) (hheld : s.Held) (he : s.Steady e)
    (h : s.step e = some s') : s'.Current := by
  cases e with
  | save p fields =>
      simp only [step] at h
      split at h
      · split at h
        next => cases h
        next hfields =>
          obtain rfl := Option.some.inj h
          rw [not_or, not_not] at hfields
          exact hs.saves (merge_keys (hs.keys p) hfields.2)
      · cases h
  | expire p a =>
      simp only [step] at h
      split at h
      · obtain rfl := Option.some.inj h
        obtain rfl : a = .ok := he
        exact hs.agent nofun fun _ => .inr (.inr rfl)
      · cases h
  | sadd p a =>
      simp only [step] at h
      split at h
      · obtain rfl := Option.some.inj h
        have hex : a.Executed = true := he
        rw [if_pos hex]
        have hdirty : (s.addDirty p).Current := by
          refine hs.covers rfl rfl rfl rfl (fun q hq => ?_) hs.agents
          exact hq.imp_left (List.mem_cons_of_mem _)
        exact hdirty.agent nofun fun _ => .inl (List.mem_cons_self ..)
      · cases h
  | ask p =>
      simp only [step] at h
      split at h
      next hidle =>
        obtain rfl := Option.some.inj h
        refine hs.agent nofun fun hb => ?_
        rcases hb with hb | hb <;> cases hidle.symm.trans hb
      next => cases h
  | answer p a =>
      simp only [step] at h
      split at h
      next sync hsync =>
        have hpre : ∀ rest, sync = .updating rest → ∀ x ∈ rest, x ∈ s.redis p := by
          rintro rest rfl
          exact hs.agents p rest hsync
        have hans := answerSync_answered s p sync a
        obtain ⟨hw, hnext⟩ := hans.current hs hpre
        obtain ⟨-, hround, hagents, -, -⟩ := hans.grows
        obtain ⟨hkeys, hlost, hagents', -, hfollows, hdone⟩ := hw.keeps hs
        have hcurrent : (s.answerSync p sync a).1.Current := by
          refine ⟨hkeys, hlost, hagents', ?_⟩
          have hr := hs.round
          unfold RoundCurrent at hr ⊢
          rw [hround]
          split at hr
          · exact hfollows _ _ hr
          · exact hdone _ hr
          · trivial
        have hno : ¬ (s.answerSync p sync a).1.Between p := by
          unfold Between
          rw [hagents, hsync]
          simp
        split at h <;> rename_i heq <;> obtain rfl := Option.some.inj h <;>
          simp only [heq] at hcurrent hno hnext
        · refine hcurrent.agent (fun rest hr => ?_) fun hb => absurd hb hno
          obtain rfl := Agent.syncing.inj hr
          exact hnext rest rfl
        · exact hcurrent.agent nofun fun hb => absurd hb hno
      next => cases h
  | tick =>
      simp only [step] at h
      split at h
      · obtain rfl := Option.some.inj h
        exact hs.free trivial
      · cases h
  | round a => exact hs.answerRound hheld h

theorem Reach.current (hr : Reach Steady s) : s.Current := by
  induction hr with
  | start redis mysql hkeys hsync =>
      refine ⟨hkeys, fun p hp => absurd (hsync p) hp, ?_, trivial⟩
      intro p rest h
      cases h
  | step hr he hs ih => exact step_current ih hr.held he hs

theorem Reach.mono {ok ok' : Store F V → Event F V → Prop} (hok : ∀ s e, ok s e → ok' s e)
    (hr : Reach ok s) : Reach ok' s := by
  induction hr with
  | start redis mysql hkeys hsync => exact .start redis mysql hkeys hsync
  | step _ he hs ih => exact ih.step (hok _ _ he) hs

/-- In any run a player that was put into the dirty set stays in one of the two sets until a
sync of it has succeeded; in a steady one a player whose value differs from its rows is in one
of them, or its agent is between its write and the dirty set. -/
theorem write_back_loses_none {F V : Type} [DecidableEq F] (s : Store F V) :
    (Reach (fun _ _ => True) s → s.Kept) ∧ (Reach Steady s → s.NoneLost) :=
  ⟨fun hr => hr.held.kept, fun hr => hr.current.lost⟩

/-- A player saves and is put into the dirty set. -/
theorem write_back_loses_none_saved : ∃ s : Store Unit Nat, Reach (fun _ _ => True) s ∧
    Reach Steady s ∧ s.owed 1 = true ∧ ¬ s.InSync 1 ∧ s.Kept ∧ s.NoneLost := by
  have h₀ : Reach Steady (start (fun _ => []) fun _ _ => none : Store Unit Nat) :=
    .start _ _ (fun _ => List.nodup_nil) fun _ => List.forall_mem_nil _
  have h₁ := h₀.step (e := .save 1 [((), 7)]) trivial rfl
  have h₂ := h₁.step (e := .expire 1 .ok) rfl rfl
  have h₃ := h₂.step (e := .sadd 1 .ok) rfl rfl
  have hany := h₃.mono fun _ _ _ => trivial
  refine ⟨_, hany, h₃, rfl, fun h => ?_, (write_back_loses_none _).1 hany,
    (write_back_loses_none _).2 h₃⟩
  cases h ((), 7) (List.mem_cons_self ..)

/-- The value is written, its time to live cannot be set, and nobody knows that the player is
dirty. -/
theorem write_back_loses_one :
    ¬ ∀ s : Store Unit Nat, Reach (fun _ _ => True) s → s.Kept ∧ s.NoneLost := by
  intro hall
  have h₀ : Reach (fun _ _ => True) (start (fun _ => []) fun _ _ => none : Store Unit Nat) :=
    .start _ _ (fun _ => List.nodup_nil) fun _ => List.forall_mem_nil _
  have h₁ := h₀.step (e := .save 1 [((), 7)]) trivial rfl
  have h₂ := h₁.step (e := .expire 1 (.failed false)) trivial rfl
  rcases (hall _ h₂).2 1 (fun h => by cases h ((), 7) (List.mem_cons_self ..)) with
    hd | hd | hb | hb
  · cases hd
  · cases hd
  · cases hb
  · cases hb

end Store

end BallServer.DbSync
