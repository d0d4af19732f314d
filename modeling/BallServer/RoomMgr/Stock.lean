import BallServer.RoomMgr.Lending

/-!
# One refill coroutine a mode

The idle rooms of a mode are counted before every creation, and only the one refill
coroutine of the mode adds to them, so the count it decided by is still an upper bound
when the room is ready.

Main results:

- Theorem {lit}`step_flags`: the flag of a mode says whether its refill coroutine runs.
- Theorem {lit}`step_stock`: the bound on the idle rooms of a mode.
-/

namespace BallServer.RoomMgr

/-- The mode for which a coroutine has counted too few idle rooms. -/
def Coroutine.creates : Coroutine → Option Nat
  | .incr mode | .newservice mode _ _ | .prewarm mode _ _ _ => some mode
  | .forked _ | .aborting _ | .init _ _ | .dropping _ => none

/-- Only a refill coroutine makes rooms. -/
theorem Coroutine.refills_of_creates {x : Coroutine} {m : Nat} (h : x.creates = some m) :
    x.refills = some m := by
  cases x <;> first | exact h | cases h

namespace Pool

variable {s s' : Pool} {c e m : Nat}

/-! ## The flags -/

/-- The mode for which a coroutine refills. -/
def refillOf (s : Pool) (c : Nat) : Option Nat :=
  (s.coroutines c).bind Coroutine.refills

/-- The flag of a mode says whether its one refill coroutine runs. -/
structure Flags (s : Pool) : Prop where
  fresh : ∀ c x, s.coroutines c = some x → c < s.nextCoroutine
  flag : ∀ m, s.refillRunning m = true ↔ ∃ c, s.refillOf c = some m
  one : ∀ c c' m, s.refillOf c = some m → s.refillOf c' = some m → c = c'

/-- A coroutine that goes on changes what it refills, and no other one. -/
theorem refillOf_setCoroutine (x : Option Coroutine) (c' : Nat) :
    (s.setCoroutine c x).refillOf c' =
      if c' = c then x.bind Coroutine.refills else s.refillOf c' := by
  by_cases h : c' = c
  · subst h
    simp [refillOf, setCoroutine]
  · simp [refillOf, setCoroutine, h]

/-- Only coroutines and flags count. -/
theorem Flags.congr (h : s.Flags) (hco : s'.coroutines = s.coroutines)
    (hflag : s'.refillRunning = s.refillRunning) (hnext : s.nextCoroutine ≤ s'.nextCoroutine) :
    s'.Flags := by
  have hof : s'.refillOf = s.refillOf := by
    funext c
    simp [refillOf, hco]
  refine ⟨fun c x hx => ?_, fun m => ?_, fun c c' m => ?_⟩
  · exact (h.fresh c x (hco ▸ hx)).trans_le hnext
  · rw [hflag, hof]
    exact h.flag m
  · rw [hof]
    exact h.one c c' m

/-- A refill coroutine goes on with the same mode. -/
theorem Flags.setCoroutine (h : s.Flags) (hc : c < s.nextCoroutine) {x : Option Coroutine}
    (hx : x.bind Coroutine.refills = s.refillOf c) : (s.setCoroutine c x).Flags := by
  have hof : (s.setCoroutine c x).refillOf = s.refillOf := by
    funext c'
    rw [refillOf_setCoroutine]
    split
    · rename_i heq
      rw [hx, heq]
    · rfl
  refine ⟨fun c' y hy => ?_, fun m => ?_, fun c₁ c₂ m => ?_⟩
  · by_cases heq : c' = c
    · exact heq ▸ hc
    · exact h.fresh c' y (by simpa [Pool.setCoroutine, heq] using hy)
  · rw [hof]
    exact h.flag m
  · rw [hof]
    exact h.one c₁ c₂ m

/-- A coroutine is started only where no flag is set, and sets it. -/
theorem Flags.startRefillPool (h : s.Flags) (m : Nat) : (s.startRefillPool m).Flags := by
  unfold Pool.startRefillPool
  split
  · exact h
  · rename_i hoff
    have hnone : ∀ c, s.refillOf c ≠ some m := fun c hc => hoff ((h.flag m).mpr ⟨c, hc⟩)
    have hof : ∀ c, ({ s with
        refillRunning := Function.update s.refillRunning m true
        coroutines := Function.update s.coroutines s.nextCoroutine (some (.forked m))
        nextCoroutine := s.nextCoroutine + 1 } : Pool).refillOf c =
        if c = s.nextCoroutine then some m else s.refillOf c := by
      intro c
      exact refillOf_setCoroutine (s := s) (c := s.nextCoroutine) (some (.forked m)) c
    have hfresh : ∀ c m', s.refillOf c = some m' → c ≠ s.nextCoroutine := by
      rintro c m' hc rfl
      cases hx : s.coroutines s.nextCoroutine with
      | none => simp [refillOf, hx] at hc
      | some x => exact absurd (h.fresh _ x hx) (lt_irrefl _)
    refine ⟨fun c x hx => ?_, fun m' => ?_, fun c c' m' hc hc' => ?_⟩
    · by_cases heq : c = s.nextCoroutine
      · exact heq ▸ Nat.lt_succ_self _
      · have hx : s.coroutines c = some x := by simpa [heq] using hx
        exact (h.fresh c x hx).trans (Nat.lt_succ_self _)
    · by_cases hm : m' = m
      · subst hm
        simp only [Function.update_self, true_iff]
        exact ⟨s.nextCoroutine, by rw [hof, if_pos rfl]⟩
      · simp only [Function.update_of_ne hm]
        rw [h.flag m']
        constructor
        · rintro ⟨c, hc⟩
          exact ⟨c, by rw [hof, if_neg (hfresh c m' hc), hc]⟩
        · rintro ⟨c, hc⟩
          rw [hof] at hc
          split at hc
          · exact absurd (Option.some.inj hc).symm hm
          · exact ⟨c, hc⟩
    · rw [hof] at hc hc'
      split at hc <;> split at hc'
      · rw [‹c = _›, ‹c' = _›]
      · exact absurd hc' (Option.some.inj hc ▸ hnone c')
      · exact absurd hc (Option.some.inj hc' ▸ hnone c)
      · exact h.one c c' m' hc hc'

/-- The coroutine that ends was the only one of its mode. -/
theorem Flags.endRefill (h : s.Flags) (hc : s.refillOf c = some m) : (s.endRefill c m).Flags := by
  have hof : ∀ c', (s.endRefill c m).refillOf c' = if c' = c then none else s.refillOf c' :=
    fun c' => refillOf_setCoroutine (s := s) (c := c) none c'
  refine ⟨fun c' x hx => ?_, fun m' => ?_, fun c₁ c₂ m' h₁ h₂ => ?_⟩
  · by_cases heq : c' = c
    · subst heq
      simp [Pool.endRefill, Pool.setCoroutine] at hx
    · exact h.fresh c' x (by simpa [Pool.endRefill, Pool.setCoroutine, heq] using hx)
  · by_cases hm : m' = m
    · subst hm
      simp only [Pool.endRefill, Function.update_self, Bool.false_eq_true, false_iff]
      rintro ⟨c', hc'⟩
      have hc' : (s.endRefill c m').refillOf c' = some m' := hc'
      rw [hof] at hc'
      split at hc'
      · cases hc'
      · exact ‹¬ c' = c› (h.one c' c m' hc' hc)
    · have hflag : (s.endRefill c m).refillRunning m' = s.refillRunning m' :=
        Function.update_of_ne hm _ _
      rw [hflag, h.flag m']
      constructor
      · rintro ⟨c', hc'⟩
        refine ⟨c', ?_⟩
        rw [hof, if_neg, hc']
        rintro rfl
        rw [hc] at hc'
        exact hm (Option.some.inj hc').symm
      · rintro ⟨c', hc'⟩
        rw [hof] at hc'
        split at hc'
        · cases hc'
        · exact ⟨c', hc'⟩
  · rw [hof] at h₁ h₂
    split at h₁
    · cases h₁
    · split at h₂
      · cases h₂
      · exact h.one c₁ c₂ m' h₁ h₂

theorem lt_of_refillOf (h : s.Flags) (hc : s.refillOf c = some m) : c < s.nextCoroutine := by
  cases hx : s.coroutines c with
  | none => simp [refillOf, hx] at hc
  | some x => exact h.fresh c x hx

/-- The head of the loop waits for a room number, or ends. -/
theorem Flags.refillLoop (h : s.Flags) (hc : s.refillOf c = some m) : (s.refillLoop c m).Flags := by
  unfold Pool.refillLoop
  split
  · split
    · exact h.endRefill hc
    · exact h.setCoroutine (lt_of_refillOf h hc) hc.symm
  · exact h.endRefill hc

/-! ## Removing rooms -/

/-- The coroutines run as before, and no pool has more idle rooms. -/
structure Lower (s s' : Pool) : Prop where
  coroutines : s'.coroutines = s.coroutines
  running : s'.refillRunning = s.refillRunning
  next : s'.nextCoroutine = s.nextCoroutine
  count : ∀ m, s'.countIdle m ≤ s.countIdle m

theorem Lower.refl (s : Pool) : s.Lower s := ⟨rfl, rfl, rfl, fun _ => le_rfl⟩

theorem Lower.trans {s'' : Pool} (h : s.Lower s') (h' : s'.Lower s'') : s.Lower s'' :=
  ⟨h'.coroutines.trans h.coroutines, h'.running.trans h.running, h'.next.trans h.next,
    fun m => (h'.count m).trans (h.count m)⟩

/-- Removing rooms touches neither flags nor coroutines. -/
theorem Flags.lower (h : s.Flags) (hl : s.Lower s') : s'.Flags :=
  h.congr hl.coroutines hl.running hl.next.ge

/-- Fewer rooms in a pool and fewer idle ones among them. -/
theorem countIdle_le (hsub : (s'.roomPool m).Sublist (s.roomPool m))
    (hidle : ∀ e ∈ s'.roomPool m, s'.Idle e → s.Idle e) : s'.countIdle m ≤ s.countIdle m := by
  unfold countIdle
  calc
    (s'.roomPool m).countP (fun e => decide (s'.Idle e)) ≤
        (s'.roomPool m).countP (fun e => decide (s.Idle e)) := by
      apply List.countP_mono_left
      intro e he hi
      exact decide_eq_true (hidle e he (of_decide_eq_true hi))
    _ ≤ (s.roomPool m).countP (fun e => decide (s.Idle e)) := hsub.countP_le

/-- A room that is removed is idle no more. -/
theorem lower_removePoolRoom (s : Pool) (e : Nat) : s.Lower (s.removePoolRoom e) :=
  ⟨rfl, rfl, rfl, fun m =>
    countIdle_le (removePoolRoom_pool m) fun _ _ hd => (removePoolRoom_idle hd).1⟩

theorem lower_setState {state : PoolState} (hstate : state ≠ .idle) :
    s.Lower (s.setState e state) := by
  refine ⟨rfl, rfl, rfl, fun m => countIdle_le (.refl _) fun d _ hd => ?_⟩
  rw [idle_setState] at hd
  split at hd
  · exact absurd hd hstate
  · exact hd

/-- Shrinking closes idle rooms only. -/
theorem lower_shrinkLoop {now : Nat} (es : List Nat) (n : Nat) (s : Pool) :
    s.Lower (shrinkLoop now es n s) := by
  induction es generalizing n s with
  | nil => exact .refl s
  | cons e es ih =>
      unfold shrinkLoop
      split
      · exact .refl s
      · split
        · have hclose : s.Lower (s.closeIdleRoom e) := { lower_removePoolRoom s e with }
          exact hclose.trans (ih _ _)
        · exact ih _ _

theorem lower_shrinkPool (s : Pool) (o : Pairs) (now m : Nat) : s.Lower (s.shrinkPool o now m) := by
  unfold shrinkPool
  split
  · exact .refl s
  · exact lower_shrinkLoop _ _ s

/-! ## The bound -/

/-- The mode for which a coroutine is making a room. -/
def createsFor (s : Pool) (c : Nat) : Option Nat :=
  (s.coroutines c).bind Coroutine.creates

/-- No mode has too many idle rooms, also when the room in the making is ready. -/
structure Stock (s : Pool) : Prop where
  le : ∀ m, s.countIdle m ≤ poolMinIdle
  room : ∀ c m, s.createsFor c = some m → s.countIdle m < poolMinIdle

/-- Fewer idle rooms keep within the bound. -/
theorem Stock.lower (h : s.Stock) (hl : s.Lower s') : s'.Stock := by
  refine ⟨fun m => (hl.count m).trans (h.le m), fun c m hc => ?_⟩
  exact (hl.count m).trans_lt (h.room c m (by simpa [createsFor, hl.coroutines] using hc))

/-- A coroutine that goes on changes what it makes, and no other one. -/
theorem createsFor_setCoroutine (x : Option Coroutine) (c' : Nat) :
    (s.setCoroutine c x).createsFor c' =
      if c' = c then x.bind Coroutine.creates else s.createsFor c' := by
  by_cases h : c' = c
  · subst h
    simp [createsFor, setCoroutine]
  · simp [createsFor, setCoroutine, h]

/-- A coroutine goes on with a count that it may rely on. -/
theorem stock_setCoroutine (hle : ∀ m, s.countIdle m ≤ poolMinIdle)
    (hroom : ∀ c' m, c' ≠ c → s.createsFor c' = some m → s.countIdle m < poolMinIdle)
    {x : Option Coroutine}
    (hx : ∀ m, x.bind Coroutine.creates = some m → s.countIdle m < poolMinIdle) :
    (s.setCoroutine c x).Stock := by
  refine ⟨hle, fun c' m hc' => ?_⟩
  rw [createsFor_setCoroutine] at hc'
  split at hc'
  · exact hx m hc'
  · exact hroom c' m ‹_› hc'

/-- A coroutine may start to make a room while one is missing. -/
theorem Stock.setCoroutine (h : s.Stock) {x : Option Coroutine}
    (hx : ∀ m, x.bind Coroutine.creates = some m → s.countIdle m < poolMinIdle) :
    (s.setCoroutine c x).Stock :=
  stock_setCoroutine h.le (fun c' m _ => h.room c' m) hx

/-- The head of the loop looks at the bound before each room. -/
theorem stock_refillLoop (hle : ∀ m, s.countIdle m ≤ poolMinIdle)
    (hroom : ∀ c' m, c' ≠ c → s.createsFor c' = some m → s.countIdle m < poolMinIdle) :
    (s.refillLoop c m).Stock := by
  have hend : (s.endRefill c m).Stock :=
    ⟨hle, (stock_setCoroutine (x := none) hle hroom (by simp)).room⟩
  unfold refillLoop
  split
  · split
    · exact hend
    · refine stock_setCoroutine hle hroom fun m' hm' => ?_
      obtain rfl := Option.some.inj hm'
      assumption
  · exact hend

theorem Stock.startRefillPool (h : s.Stock) (m : Nat) : (s.startRefillPool m).Stock := by
  unfold Pool.startRefillPool
  split
  · exact h
  · exact ⟨h.le, (h.setCoroutine (c := s.nextCoroutine) (x := some (.forked m)) (by simp
      [Coroutine.creates])).room⟩

theorem Stock.endRefill (h : s.Stock) (c m : Nat) : (s.endRefill c m).Stock :=
  ⟨h.le, (h.setCoroutine (c := c) (x := none) (by simp)).room⟩

/-- A new entry adds one idle room, to its own mode. -/
theorem countIdle_addEntry (h : s.Owned) (x : Entry) (m : Nat) :
    (s.addEntry x).countIdle m ≤ s.countIdle m + if m = x.modeId then 1 else 0 := by
  have hold : ∀ m, ∀ d ∈ s.roomPool m, (s.addEntry x).Idle d → s.Idle d := by
    intro m d hd hi
    have hne : d ≠ s.nextEntry := (h.pool_lt m d hd).ne
    simpa only [Idle, addEntry, Function.update_of_ne hne] using hi
  have hcount : ∀ l : List Nat, l.Sublist (s.roomPool m) →
      l.countP (fun e => decide ((s.addEntry x).Idle e)) ≤ s.countIdle m := by
    intro l hl
    calc
      l.countP (fun e => decide ((s.addEntry x).Idle e)) ≤
          l.countP (fun e => decide (s.Idle e)) := by
        apply List.countP_mono_left
        intro d hd hi
        exact decide_eq_true (hold m d (hl.subset hd) (of_decide_eq_true hi))
      _ ≤ s.countIdle m := hl.countP_le
  by_cases hm : m = x.modeId
  · subst hm
    have hpool : (s.addEntry x).roomPool x.modeId =
        s.nextEntry :: s.without x.key (s.roomPool x.modeId) := Function.update_self ..
    have := hcount (s.without x.key (s.roomPool x.modeId)) List.filter_sublist
    rw [if_pos rfl, countIdle, hpool, List.countP_cons]
    split <;> omega
  · have hpool : (s.addEntry x).roomPool m = s.roomPool m := Function.update_of_ne hm ..
    have := hcount (s.roomPool m) (.refl _)
    rw [if_neg hm, countIdle, hpool]
    exact this

/-! ## One event -/

theorem refillOf_eq {x : Coroutine} (hx : s.coroutines c = some x) : s.refillOf c = x.refills := by
  simp [refillOf, hx]

theorem flags_maintainPool (h : s.Flags) (o : Pairs) (now : Nat) : (s.maintainPool o now).Flags :=
  List.foldlRecOn _ _ h fun _ hs m _ => (hs.startRefillPool m).lower (lower_shrinkPool _ o now m)

theorem flags_roomClosed (h : s.Flags) (key : String × Nat) (ms : List Nat) :
    (s.roomClosed key ms).Flags := by
  induction ms with
  | nil => exact h
  | cons m ms ih =>
      unfold roomClosed
      split
      · exact (h.lower (lower_removePoolRoom s _)).startRefillPool _
      · exact ih

/-- Every event keeps one coroutine behind each flag. -/
theorem step_flags {ev : Event} (h : s.Flags) (hs : s.step ev = some s') : s'.Flags := by
  cases ev with
  | createRoom o m =>
      obtain rfl := Option.some.inj hs
      have hnext : ({ s with nextCoroutine := s.nextCoroutine + 1 } : Pool).Flags :=
        h.congr rfl rfl (Nat.le_succ _)
      have hnone : s.refillOf s.nextCoroutine = none := by
        cases hx : s.refillOf s.nextCoroutine with
        | none => rfl
        | some m' => exact absurd (lt_of_refillOf h hx) (lt_irrefl _)
      unfold createRoom
      split
      · exact hnext.startRefillPool m
      · exact (hnext.lower (lower_setState (by simp))).setCoroutine (Nat.lt_succ_self _) hnone.symm
  | roomClosed o node room =>
      obtain rfl := Option.some.inj hs
      exact flags_roomClosed h _ _
  | maintain o now =>
      obtain rfl := Option.some.inj hs
      exact flags_maintainPool h o now
  | resume c a =>
      simp only [step] at hs
      split at hs
      · cases hs
      · rename_i x hx
        have hc := h.fresh c x hx
        have hof := refillOf_eq hx
        unfold resume at hs
        split at hs <;> first | (obtain rfl := Option.some.inj hs) | cases hs
        · exact h.refillLoop hof
        · exact h.endRefill hof
        · refine Flags.setCoroutine (s := { s with nextNodeIdx := s.nextNodeIdx + 1 }) ?_ hc ?_
          · exact h.congr rfl rfl le_rfl
          · exact hof.symm
        · exact h.endRefill hof
        · refine Flags.setCoroutine (s := { s with started := _ :: s.started }) ?_ hc ?_
          · exact h.congr rfl rfl le_rfl
          · exact hof.symm
        · exact h.setCoroutine hc (x := some _) hof.symm
        · exact Flags.refillLoop (h.congr rfl rfl le_rfl) hof
        · exact h.endRefill hof
        · exact (h.lower (lower_removePoolRoom s _)).setCoroutine hc (x := some _) hof.symm
        · rename_i m e
          have hbusy : (s.setState e .busy).Flags := h.lower (lower_setState (by simp))
          have hend := hbusy.setCoroutine (c := c) (x := none) hc hof.symm
          refine Flags.startRefillPool ?_ m
          exact hend.congr rfl rfl le_rfl
        · exact (h.setCoroutine (x := none) hc hof.symm).startRefillPool _

theorem stock_maintainPool (h : s.Stock) (o : Pairs) (now : Nat) : (s.maintainPool o now).Stock :=
  List.foldlRecOn _ _ h fun _ hs m _ => (hs.startRefillPool m).lower (lower_shrinkPool _ o now m)

theorem stock_roomClosed (h : s.Stock) (key : String × Nat) (ms : List Nat) :
    (s.roomClosed key ms).Stock := by
  induction ms with
  | nil => exact h
  | cons m ms ih =>
      unfold roomClosed
      split
      · exact (h.lower (lower_removePoolRoom s _)).startRefillPool _
      · exact ih

/-- A new room is counted in, and the coroutine that made it counts again. -/
theorem stock_added (h : s.Stock) (hf : s.Flags) (ho : s.Owned) (x : Entry)
    (hc : s.createsFor c = some x.modeId) : ((s.addEntry x).refillLoop c x.modeId).Stock := by
  have hcount := countIdle_addEntry ho x
  refine stock_refillLoop (fun m => ?_) fun c' m hne hc' => ?_
  · have := hcount m
    have hm := h.le m
    split at this
    · subst m
      have := h.room c _ hc
      omega
    · omega
  · have hother : m ≠ x.modeId := by
      rintro rfl
      refine hne (hf.one c' c x.modeId ?_ ?_)
      · obtain ⟨y, hy, hcr⟩ := Option.bind_eq_some_iff.mp hc'
        exact Option.bind_eq_some_iff.mpr ⟨y, hy, Coroutine.refills_of_creates hcr⟩
      · obtain ⟨y, hy, hcr⟩ := Option.bind_eq_some_iff.mp hc
        exact Option.bind_eq_some_iff.mpr ⟨y, hy, Coroutine.refills_of_creates hcr⟩
    have := hcount m
    rw [if_neg hother] at this
    exact this.trans_lt (h.room c' m hc')

theorem createsFor_eq {x : Coroutine} (hx : s.coroutines c = some x) :
    s.createsFor c = x.creates := by
  simp [createsFor, hx]

/-- Every event keeps the bound: the room in the making has its place, since no second coroutine
of its mode makes one. -/
theorem step_stock {ev : Event} (h : s.Stock) (hf : s.Flags) (ho : s.Owned)
    (hs : s.step ev = some s') : s'.Stock := by
  cases ev with
  | createRoom o m =>
      obtain rfl := Option.some.inj hs
      have hnext : ({ s with nextCoroutine := s.nextCoroutine + 1 } : Pool).Stock := ⟨h.le, h.room⟩
      unfold createRoom
      split
      · exact hnext.startRefillPool m
      · exact (hnext.lower (lower_setState (by simp))).setCoroutine (by simp [Coroutine.creates])
  | roomClosed o node room =>
      obtain rfl := Option.some.inj hs
      exact stock_roomClosed h _ _
  | maintain o now =>
      obtain rfl := Option.some.inj hs
      exact stock_maintainPool h o now
  | resume c a =>
      simp only [step] at hs
      split at hs
      · cases hs
      · rename_i x hx
        have hof := createsFor_eq hx
        have hroom : ∀ m, x.creates = some m → s.countIdle m < poolMinIdle := fun m hm =>
          h.room c m (hof.trans hm)
        unfold resume at hs
        split at hs <;> first | (obtain rfl := Option.some.inj hs) | cases hs
        · exact stock_refillLoop h.le fun c' m _ => h.room c' m
        · exact h.endRefill _ _
        · exact stock_setCoroutine (s := { s with nextNodeIdx := s.nextNodeIdx + 1 }) h.le
            (fun c' m _ => h.room c' m) hroom
        · exact h.endRefill _ _
        · exact stock_setCoroutine (s := { s with started := _ :: s.started }) h.le
            (fun c' m _ => h.room c' m) hroom
        · exact h.setCoroutine (by simp [Coroutine.creates])
        · exact stock_added h hf ho _ hof
        · exact h.endRefill _ _
        · exact (h.lower (lower_removePoolRoom s _)).setCoroutine (by simp [Coroutine.creates])
        · rename_i m e
          have hbusy : (s.setState e .busy).Stock := h.lower (lower_setState (by simp))
          have hend := hbusy.setCoroutine (c := c) (x := none) (by simp)
          refine Stock.startRefillPool ?_ m
          exact ⟨hend.le, hend.room⟩
        · exact (h.setCoroutine (by simp)).startRefillPool _

end Pool

end BallServer.RoomMgr
