import BallServer.RoomMgr.Pool

/-!
# A room is lent once

An entry is idle only until it is reserved or removed.  A reserved entry belongs to one
{lit}`create_room`, and an entry that was given away belongs to none.

Main results:

- Structure {lit}`Owned` and theorem {lit}`step_owned`: every event preserves it.
-/

namespace BallServer.RoomMgr

namespace Pool

variable {s s' : Pool} {c e m : Nat}

/-! ## Who holds an entry -/

/-- An idle entry is in nobody's hands, a reserved one in those of one coroutine. -/
structure Owned (s : Pool) : Prop where
  pool_lt : ∀ m, ∀ e ∈ s.roomPool m, e < s.nextEntry
  idle_lt : ∀ e, s.Idle e → e < s.nextEntry
  held : ∀ c m e, s.coroutines c = some (.init m e) → e < s.nextEntry ∧ ¬ s.Idle e
  apart : ∀ c c' m m' e, s.coroutines c = some (.init m e) →
    s.coroutines c' = some (.init m' e) → c = c'
  given : ∀ c e, (c, e) ∈ s.returned → e < s.nextEntry ∧ ¬ s.Idle e ∧
    ∀ c' m, s.coroutines c' ≠ some (.init m e)
  nodup : (s.returned.map Prod.snd).Nodup
  closed : ∀ e ∈ s.shrunk, e < s.nextEntry ∧ ¬ s.Idle e ∧
    (∀ c m, s.coroutines c ≠ some (.init m e)) ∧ ∀ c, (c, e) ∉ s.returned

/-- No entry changes hands, and entries become idle only when they are made. -/
structure Keeps (s s' : Pool) : Prop where
  le : s.nextEntry ≤ s'.nextEntry
  pool : ∀ m, ∀ e ∈ s'.roomPool m, e ∈ s.roomPool m ∨ s.nextEntry ≤ e ∧ e < s'.nextEntry
  idle : ∀ e, s'.Idle e → s.Idle e ∨ s.nextEntry ≤ e ∧ e < s'.nextEntry
  init : ∀ c m e, s'.coroutines c = some (.init m e) → s.coroutines c = some (.init m e)
  returned : s'.returned = s.returned
  shrunk : ∀ e ∈ s'.shrunk, e ∈ s.shrunk ∨ s.Idle e ∧ ¬ s'.Idle e

theorem Keeps.refl (s : Pool) : s.Keeps s :=
  ⟨le_rfl, fun _ _ h => .inl h, fun _ h => .inl h, fun _ _ _ h => h, rfl, fun _ h => .inl h⟩

/-- Changes in which no entry changes hands. -/
theorem Owned.keeps (h : s.Owned) (hk : s.Keeps s') : s'.Owned := by
  have hle := hk.le
  have hidle : ∀ e, e < s.nextEntry → ¬ s.Idle e → ¬ s'.Idle e := by
    intro e he hs hs'
    rcases hk.idle e hs' with hi | hi
    · exact hs hi
    · omega
  constructor
  · intro m e he
    rcases hk.pool m e he with hp | hp
    · exact (h.pool_lt m e hp).trans_le hle
    · exact hp.2
  · intro e he
    rcases hk.idle e he with hi | hi
    · exact (h.idle_lt e hi).trans_le hle
    · exact hi.2
  · intro c m e hc
    obtain ⟨hlt, hi⟩ := h.held c m e (hk.init c m e hc)
    exact ⟨hlt.trans_le hle, hidle e hlt hi⟩
  · intro c c' m m' e hc hc'
    exact h.apart c c' m m' e (hk.init c m e hc) (hk.init c' m' e hc')
  · intro c e hce
    rw [hk.returned] at hce
    obtain ⟨hlt, hi, hn⟩ := h.given c e hce
    exact ⟨hlt.trans_le hle, hidle e hlt hi, fun c' m hc' => hn c' m (hk.init c' m e hc')⟩
  · rw [hk.returned]
    exact h.nodup
  · intro e he
    rw [hk.returned]
    rcases hk.shrunk e he with hs | ⟨hi, hi'⟩
    · obtain ⟨hlt, hi, hn, hr⟩ := h.closed e hs
      exact ⟨hlt.trans_le hle, hidle e hlt hi, fun c m hc => hn c m (hk.init c m e hc), hr⟩
    · refine ⟨(h.idle_lt e hi).trans_le hle, hi', fun c m hc => ?_, fun c hc => ?_⟩
      · exact (h.held c m e (hk.init c m e hc)).2 hi
      · exact (h.given c e hc).2.1 hi

/-- The state of one entry changes. -/
theorem idle_setState {state : PoolState} (d : Nat) :
    (s.setState e state).Idle d ↔ if d = e then state = .idle else s.Idle d := by
  unfold Idle setState
  by_cases h : d = e
  · subst h
    simp
  · simp [h]

theorem mem_without {key : String × Nat} {l : List Nat} (h : e ∈ s.without key l) : e ∈ l :=
  (List.mem_filter.mp h).1

/-- A coroutine that holds no entry. -/
theorem keeps_setCoroutine {x : Option Coroutine} (hx : ∀ m e, x ≠ some (.init m e)) :
    s.Keeps (s.setCoroutine c x) := by
  refine { Keeps.refl s with init := ?_ }
  intro c' m e h
  by_cases hc : c' = c
  · subst hc
    simp only [setCoroutine, Function.update_self] at h
    exact absurd h (hx m e)
  · simpa [setCoroutine, hc] using h

theorem keeps_startRefillPool (s : Pool) (m : Nat) : s.Keeps (s.startRefillPool m) := by
  unfold startRefillPool
  split
  · exact .refl s
  · refine { Keeps.refl s with init := ?_ }
    intro c' m' e h
    by_cases hc : c' = s.nextCoroutine
    · subst hc
      simp at h
    · simpa [hc] using h

theorem keeps_endRefill (s : Pool) (c m : Nat) : s.Keeps (s.endRefill c m) :=
  { keeps_setCoroutine (s := s) (c := c) (x := none) (by simp) with }

theorem keeps_refillLoop (s : Pool) (c m : Nat) : s.Keeps (s.refillLoop c m) := by
  unfold refillLoop
  split
  · split
    · exact keeps_endRefill s c m
    · exact keeps_setCoroutine (by simp)
  · exact keeps_endRefill s c m

/-- An entry that is removed is not idle, and the others are as before. -/
theorem removePoolRoom_idle {d : Nat} (h : (s.removePoolRoom e).Idle d) : s.Idle d ∧ d ≠ e := by
  have h : (s.setState e .dead).Idle d := h
  rw [idle_setState] at h
  split at h
  · cases h
  · exact ⟨h, ‹_›⟩

theorem removePoolRoom_pool (m : Nat) :
    ((s.removePoolRoom e).roomPool m).Sublist (s.roomPool m) := by
  by_cases hm : m = (s.entries e).modeId
  · subst hm
    simp [removePoolRoom, without]
  · simp [removePoolRoom, setState, hm]

theorem keeps_removePoolRoom (s : Pool) (e : Nat) : s.Keeps (s.removePoolRoom e) :=
  { Keeps.refl s with
    pool := fun m _ hd => .inl ((removePoolRoom_pool m).subset hd)
    idle := fun _ hd => .inl (removePoolRoom_idle hd).1
    shrunk := fun _ hd => .inl hd }

/-- An idle entry that is closed is in nobody's hands and will not be. -/
theorem Owned.closeIdleRoom (h : s.Owned) (hi : s.Idle e) : (s.closeIdleRoom e).Owned := by
  refine h.keeps { keeps_removePoolRoom s e with shrunk := ?_ }
  intro d hd
  rcases List.mem_cons.mp hd with rfl | hd
  · exact .inr ⟨hi, fun hd => (removePoolRoom_idle hd).2 rfl⟩
  · exact .inl hd

/-- Each turn closes an idle entry or leaves all as it is. -/
theorem Owned.shrinkLoop {now : Nat} (es : List Nat) (n : Nat) (h : s.Owned) :
    (shrinkLoop now es n s).Owned := by
  induction es generalizing n s with
  | nil => exact h
  | cons e es ih =>
      unfold Pool.shrinkLoop
      split
      · exact h
      · split
        · exact ih _ (h.closeIdleRoom ‹_ ∧ _›.1)
        · exact ih _ h

theorem Owned.shrinkPool (h : s.Owned) (o : Pairs) (now m : Nat) :
    (s.shrinkPool o now m).Owned := by
  unfold Pool.shrinkPool
  split
  · exact h
  · exact h.shrinkLoop _ _

theorem Owned.maintainPool (h : s.Owned) (o : Pairs) (now : Nat) : (s.maintainPool o now).Owned :=
  List.foldlRecOn _ _ h fun _ hs m _ => (hs.keeps (keeps_startRefillPool _ m)).shrinkPool o now m

/-- A room that has closed leaves its pool, and nobody gets it. -/
theorem Owned.roomClosed (h : s.Owned) (key : String × Nat) (ms : List Nat) :
    (s.roomClosed key ms).Owned := by
  induction ms with
  | nil => exact h
  | cons m ms ih =>
      unfold Pool.roomClosed
      split
      · exact (h.keeps (keeps_removePoolRoom s _)).keeps (keeps_startRefillPool _ _)
      · exact ih

theorem keeps_addEntry (s : Pool) (x : Entry) : s.Keeps (s.addEntry x) where
  le := Nat.le_succ _
  pool m d hd := by
    by_cases hm : m = x.modeId
    · subst hm
      simp only [addEntry, Function.update_self, List.mem_cons] at hd
      rcases hd with rfl | hd
      · exact .inr ⟨le_rfl, Nat.lt_succ_self _⟩
      · exact .inl (mem_without hd)
    · simp only [addEntry, Function.update_of_ne hm] at hd
      exact .inl hd
  idle d hd := by
    by_cases hn : d = s.nextEntry
    · subst hn
      exact .inr ⟨le_rfl, Nat.lt_succ_self _⟩
    · simp only [Idle, addEntry, Function.update_of_ne hn] at hd
      exact .inl hd
  init _ _ _ h := h
  returned := rfl
  shrunk _ h := .inl h

/-! ## Reserving and giving away -/

/-- What {lit}`find_idle_room` finds is an idle entry of the pool. -/
theorem findIdleRoom_spec {o : Pairs} (h : s.findIdleRoom o m = some e) :
    e ∈ s.roomPool m ∧ s.Idle e := by
  refine ⟨(o.perm _).mem_iff.mp (List.mem_of_find?_eq_some h), ?_⟩
  simpa using List.find?_some h

/-- An idle entry is reserved for one coroutine. -/
theorem Owned.reserve (h : s.Owned) (hi : s.Idle e) (c m : Nat) :
    ((s.setState e .reserved).setCoroutine c (some (.init m e))).Owned := by
  have hidle : ∀ d, ((s.setState e .reserved).setCoroutine c (some (.init m e))).Idle d →
      s.Idle d ∧ d ≠ e := by
    intro d hd
    have hd : (s.setState e .reserved).Idle d := hd
    rw [idle_setState] at hd
    split at hd
    · cases hd
    · exact ⟨hd, ‹_›⟩
  have hco : ∀ c' m' d, ((s.setState e .reserved).setCoroutine c (some (.init m e))).coroutines c' =
      some (.init m' d) → c' = c ∧ d = e ∨ s.coroutines c' = some (.init m' d) := by
    intro c' m' d hd
    by_cases hc : c' = c
    · subst hc
      simp only [setCoroutine, Function.update_self, Option.some.injEq, Coroutine.init.injEq] at hd
      exact .inl ⟨rfl, hd.2.symm⟩
    · simp only [setCoroutine, Function.update_of_ne hc] at hd
      exact .inr hd
  have hfree : ∀ c' m', s.coroutines c' ≠ some (.init m' e) := fun c' m' hc' =>
    (h.held c' m' e hc').2 hi
  constructor
  · exact h.pool_lt
  · exact fun d hd => h.idle_lt d (hidle d hd).1
  · intro c' m' d hd
    rcases hco c' m' d hd with ⟨-, rfl⟩ | hd
    · exact ⟨h.idle_lt d hi, fun hd => (hidle d hd).2 rfl⟩
    · exact ⟨(h.held c' m' d hd).1, fun hd' => (h.held c' m' d hd).2 (hidle d hd').1⟩
  · intro c₁ c₂ m₁ m₂ d h₁ h₂
    rcases hco c₁ m₁ d h₁ with ⟨hc₁, hd₁⟩ | hs₁ <;> rcases hco c₂ m₂ d h₂ with ⟨hc₂, hd₂⟩ | hs₂
    · rw [hc₁, hc₂]
    · exact absurd (hd₁ ▸ hs₂) (hfree c₂ m₂)
    · exact absurd (hd₂ ▸ hs₁) (hfree c₁ m₁)
    · exact h.apart c₁ c₂ m₁ m₂ d hs₁ hs₂
  · intro c' d hd
    obtain ⟨hlt, hn, hfree'⟩ := h.given c' d hd
    refine ⟨hlt, fun hd' => hn (hidle d hd').1, fun c₂ m₂ h₂ => ?_⟩
    rcases hco c₂ m₂ d h₂ with ⟨-, rfl⟩ | h₂
    · exact hn hi
    · exact hfree' c₂ m₂ h₂
  · exact h.nodup
  · intro d hd
    obtain ⟨hlt, hn, hfree', hr⟩ := h.closed d hd
    refine ⟨hlt, fun hd' => hn (hidle d hd').1, fun c₂ m₂ h₂ => ?_, hr⟩
    rcases hco c₂ m₂ d h₂ with ⟨-, rfl⟩ | h₂
    · exact hn hi
    · exact hfree' c₂ m₂ h₂

/-- A reserved entry becomes busy and is returned once. -/
theorem Owned.giveAway (h : s.Owned) (hc : s.coroutines c = some (.init m e)) :
    ({ (s.setState e .busy).setCoroutine c none with returned := (c, e) :: s.returned }).Owned := by
  obtain ⟨hlt, hn⟩ := h.held c m e hc
  have hk : s.Keeps ((s.setState e .busy).setCoroutine c none) := by
    have hset : s.Keeps (s.setState e .busy) :=
      { Keeps.refl s with
        idle := fun d hd => by
          rw [idle_setState] at hd
          split at hd
          · cases hd
          · exact .inl hd
        shrunk := fun _ hd => .inl hd }
    exact { hset with init := (keeps_setCoroutine (s := s.setState e .busy) (by simp)).init }
  have h' := h.keeps hk
  have hother : ∀ c' m', ((s.setState e .busy).setCoroutine c none).coroutines c' ≠
      some (.init m' e) := by
    intro c' m' hc'
    obtain rfl := h.apart c' c m' m e (hk.init c' m' e hc') hc
    simp [setCoroutine] at hc'
  have hbusy : ¬ ((s.setState e .busy).setCoroutine c none).Idle e := by
    intro hd
    have hd : (s.setState e .busy).Idle e := hd
    rw [idle_setState, if_pos rfl] at hd
    cases hd
  refine { h' with given := ?_, nodup := ?_, closed := ?_ }
  · intro c' d hd
    rcases List.mem_cons.mp hd with heq | hd
    · obtain ⟨rfl, rfl⟩ := Prod.mk.inj heq
      exact ⟨hlt, hbusy, hother⟩
    · exact h'.given c' d hd
  · rw [List.map_cons, List.nodup_cons]
    refine ⟨fun hd => ?_, h'.nodup⟩
    obtain ⟨⟨c', d⟩, hmem, hde⟩ := List.mem_map.mp hd
    obtain rfl : d = e := hde
    exact (h.given c' d hmem).2.2 c m hc
  · intro d hd
    obtain ⟨hlt', hn', hfree, hr⟩ := h'.closed d hd
    refine ⟨hlt', hn', hfree, fun c' hc' => ?_⟩
    rcases List.mem_cons.mp hc' with heq | hmem
    · obtain ⟨-, rfl⟩ := Prod.mk.inj heq
      exact (h.closed d hd).2.2.1 c m hc
    · exact hr c' hmem

/-- Every event keeps each entry in at most one pair of hands. -/
theorem step_owned {ev : Event} (h : s.Owned) (hs : s.step ev = some s') : s'.Owned := by
  cases ev with
  | createRoom o m =>
      obtain rfl := Option.some.inj hs
      have hnext : ({ s with nextCoroutine := s.nextCoroutine + 1 } : Pool).Owned := { h with }
      unfold createRoom
      split
      · exact hnext.keeps (keeps_startRefillPool _ m)
      · rename_i e he
        exact hnext.reserve (findIdleRoom_spec he).2 _ m
  | roomClosed o node room =>
      obtain rfl := Option.some.inj hs
      exact h.roomClosed _ _
  | maintain o now =>
      obtain rfl := Option.some.inj hs
      exact h.maintainPool o now
  | resume c a =>
      simp only [step] at hs
      split at hs
      · cases hs
      · rename_i x hx
        unfold resume at hs
        split at hs <;> first | (obtain rfl := Option.some.inj hs) | cases hs
        · exact h.keeps (keeps_refillLoop s c _)
        · exact h.keeps (keeps_endRefill s c _)
        · exact Owned.keeps (s := { s with nextNodeIdx := s.nextNodeIdx + 1 }) { h with }
            (keeps_setCoroutine (by simp))
        · exact h.keeps (keeps_endRefill s c _)
        · exact Owned.keeps (s := { s with started := _ :: s.started }) { h with }
            (keeps_setCoroutine (by simp))
        · exact h.keeps (keeps_setCoroutine (by simp))
        · exact (h.keeps (keeps_addEntry s _)).keeps (keeps_refillLoop _ c _)
        · exact h.keeps (keeps_endRefill s c _)
        · exact (h.keeps (keeps_removePoolRoom s _)).keeps (keeps_setCoroutine (by simp))
        · exact (h.giveAway hx).keeps (keeps_startRefillPool _ _)
        · exact (h.keeps (keeps_setCoroutine (by simp))).keeps (keeps_startRefillPool _ _)

end Pool

end BallServer.RoomMgr
