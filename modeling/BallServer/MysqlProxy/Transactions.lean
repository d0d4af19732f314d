import BallServer.MysqlProxy.Slots

/-!
# Transactions on a slot

A transaction of the pool is one transaction of mysql as long as its slot keeps its
connection and mysql does not roll it back on its own.  {lit}`query_on_slot` connects a
slot again under a live transaction, whose later statements are then executed one by one.

Main results:

- Definition {lit}`Pool.Steady`: no client commits a transaction that mysql has dropped, and a
  {lit}`COMMIT` or {lit}`ROLLBACK` that fails leaves none open.
- Theorem {lit}`commits_one`: then a commit that succeeds has committed every statement of
  the transaction that succeeded, and a free slot has no transaction open.
- Theorem {lit}`commits_none`: after a lost connection a commit succeeds without them.
-/

namespace BallServer.MysqlProxy

namespace Pool

/-- The open transaction on the connection of a slot. -/
def openOn (p : Pool) (s : Nat) : Option DbTx :=
  p.opened (p.pool s).db

/-- A client does not commit a transaction that mysql has dropped, and a {lit}`COMMIT` or
{lit}`ROLLBACK` that fails leaves no transaction open. -/
def Steady (p : Pool) : Event → Prop
  | .call job => p.Alone (.call job) ∧
      ∀ t, job = .finish t true → p.txs t ≠ none → p.broken t = false
  | .answer h a => ∀ t commit s, p.handlers h = some (.querying (.finish t commit) s) →
      a = .error false → p.openOn s = none
  | _ => True

theorem Steady.alone {p : Pool} {e : Event} (h : p.Steady e) : p.Alone e := by
  cases e with
  | call job => exact h.1
  | _ => trivial

/-- The database transaction holds all statements of {lit}`txId` that succeeded. -/
def Whole (p : Pool) (t : Nat) (d : Option DbTx) : Prop :=
  ∃ x, d = some x ∧ ∀ e ∈ p.stmts t, e = some x

/-- What holds in a steady run. -/
structure Sound (p : Pool) : Prop where
  conns : ∀ s s', p.Has s → p.Has s' → (p.pool s).db = (p.pool s').db → s = s'
  fresh : ∀ s, p.Has s → (p.pool s).db < p.nextConn
  unopened : ∀ c, p.nextConn ≤ c → p.opened c = none
  named : ∀ t, p.txSeq < t → p.stmts t = [] ∧ p.broken t = false
  stray : ∀ s, p.Has s → (∀ t, p.txs t ≠ some s) →
    (∀ h t commit, p.handlers h ≠ some (.querying (.finish t commit) s)) → p.openOn s = none
  live : ∀ t s, p.txs t = some s →
    (p.broken t = true ∧ p.openOn s = none) ∨ p.broken t = false ∧ p.Whole t (p.openOn s)
  reconnects : ∀ h job s, p.handlers h = some (.reconnecting job s) → p.openOn s = none
  finishes : ∀ h t s, p.handlers h = some (.querying (.finish t true) s) →
    p.Whole t (p.openOn s)
  asked : ∀ h t commit s, p.handlers h = some (.querying (.finish t commit) s) → t ∈ p.ended
  commits : ∀ c ∈ p.commits, c.1 ∈ p.ended ∧ p.Whole c.1 c.2

theorem start_sound (size : Nat) : (start size).Sound where
  conns := fun _ _ _ _ h => h
  fresh := fun _ hs => Nat.lt_succ_of_le hs.2
  unopened := fun _ _ => rfl
  named := fun _ _ => ⟨rfl, rfl⟩
  stray := fun _ _ _ _ => rfl
  live := nofun
  reconnects := nofun
  finishes := nofun
  asked := nofun
  commits := nofun

variable {p p' : Pool}

theorem openOn_close (conn s : Nat) :
    (p.close conn).openOn s = if (p.pool s).db = conn then none else p.openOn s := by
  simp only [openOn, close, Function.update_apply]

/-- A handler goes on that leaves no transaction open without an owner. -/
theorem Sound.setHandler (hp : p.Sound) {h : Nat} {x : Option Handler}
    (hold : ∀ t commit s, p.handlers h = some (.querying (.finish t commit) s) →
      p.openOn s = none)
    (hnew : ∀ t commit s, x ≠ some (.querying (.finish t commit) s))
    (hrec : ∀ job s, x = some (.reconnecting job s) → p.openOn s = none) :
    (p.setHandler h x).Sound := by
  have hreconnects := hp.reconnects
  have hfinishes := hp.finishes
  have hasked := hp.asked
  refine ⟨hp.conns, hp.fresh, hp.unopened, hp.named, ?_, hp.live, ?_, ?_, ?_, hp.commits⟩
  · intro s hs htx hno
    by_cases hends : ∃ t commit, p.handlers h = some (.querying (.finish t commit) s)
    · obtain ⟨t, commit, hh⟩ := hends
      exact hold t commit s hh
    · refine hp.stray s hs htx fun k t commit hk => hno k t commit ?_
      have hkh : k ≠ h := by
        rintro rfl
        exact hends ⟨t, commit, hk⟩
      simpa [Pool.setHandler, hkh] using hk
  all_goals
    simp only [Pool.setHandler]
    grind [Function.update_apply, Whole, openOn]

/-- A slot changes its state. -/
theorem Sound.setState (hp : p.Sound) (s : Nat) (x : SlotState) : (p.setState s x).Sound := by
  have hdb : ∀ s', ((p.setState s x).pool s').db = (p.pool s').db := by
    intro s'
    by_cases hss : s' = s <;> simp [Pool.setState, hss]
  have hopen : ∀ s', (p.setState s x).openOn s' = p.openOn s' := by
    intro s'
    simp only [openOn, hdb]
    rfl
  refine ⟨?_, ?_, hp.unopened, hp.named, ?_, ?_, ?_, ?_, hp.asked, hp.commits⟩ <;>
    simp only [hdb, hopen]
  · exact hp.conns
  · exact hp.fresh
  · exact hp.stray
  · exact hp.live
  · exact hp.reconnects
  · exact hp.finishes

/-- A connection loses its transaction, and a handler on it goes on; a live transaction of
the pool that was begun there is broken. -/
theorem Sound.close (hp : p.Sound) (hheld : p.Held) {conn h : Nat} {x : Option Handler}
    {broken : Nat → Bool}
    (hbroken : ∀ t, broken t = true →
      p.broken t = true ∨ ∃ s, p.txs t = some s ∧ (p.pool s).db = conn)
    (hkept : ∀ t, p.broken t = true → broken t = true)
    (hlive : ∀ t s, p.txs t = some s → (p.pool s).db = conn → broken t = true)
    (hfin : ∀ k t s, k ≠ h → p.handlers k = some (.querying (.finish t true) s) →
      (p.pool s).db ≠ conn)
    (hold : ∀ t commit s, p.handlers h = some (.querying (.finish t commit) s) →
      (p.pool s).db = conn)
    (hnew : ∀ t commit s, x ≠ some (.querying (.finish t commit) s))
    (hrec : ∀ job s, x = some (.reconnecting job s) → (p.pool s).db = conn) :
    (({ p.close conn with broken := broken } : Pool).setHandler h x).Sound := by
  have hopen : ∀ s, (({ p.close conn with broken := broken } : Pool).setHandler h x).openOn s =
      if (p.pool s).db = conn then none else p.openOn s :=
    fun s => openOn_close (p := p) conn s
  have hself : (({ p.close conn with broken := broken } : Pool).setHandler h x).handlers h = x :=
    Function.update_self ..
  have hother : ∀ k y, k ≠ h →
      (({ p.close conn with broken := broken } : Pool).setHandler h x).handlers k = y →
      p.handlers k = y := by
    intro k y hkh hk
    exact (Function.update_of_ne hkh _ _).symm.trans hk
  refine ⟨hp.conns, hp.fresh, ?_, ?_, ?_, ?_, ?_, ?_, ?_, hp.commits⟩
  · intro c hc
    by_cases heq : c = conn
    · rw [heq]
      exact Function.update_self ..
    · exact (Function.update_of_ne heq _ _).trans (hp.unopened c hc)
  · intro t ht
    refine ⟨(hp.named t ht).1, ?_⟩
    refine Bool.eq_false_iff.mpr fun hb => ?_
    rcases hbroken t hb with hb | ⟨s, htx, -⟩
    · rw [(hp.named t ht).2] at hb
      cases hb
    · exact absurd (hheld.live t s htx).2.2 (Nat.not_le.mpr ht)
  · intro s hs htx hno
    rw [hopen s]
    split
    next => rfl
    next hdb =>
      refine hp.stray s hs htx fun k t commit hk => ?_
      by_cases hkh : k = h
      · subst hkh
        exact hdb (hold t commit s hk)
      · exact hno k t commit ((Function.update_of_ne hkh _ _).trans hk)
  · intro t s ht
    rw [hopen s]
    split
    next hdb => exact .inl ⟨hlive t s ht hdb, rfl⟩
    next hdb =>
      rcases hp.live t s ht with ⟨hb, hnone⟩ | ⟨hb, hwhole⟩
      · exact .inl ⟨hkept t hb, hnone⟩
      · refine .inr ⟨?_, hwhole⟩
        refine Bool.eq_false_iff.mpr fun hb' => ?_
        rcases hbroken t hb' with hb' | ⟨s', htx, hdb'⟩
        · rw [hb] at hb'
          cases hb'
        · obtain rfl := Option.some.inj (ht.symm.trans htx)
          exact hdb hdb'
  · intro k job s hk
    rw [hopen s]
    split
    next => rfl
    next hdb =>
      by_cases hkh : k = h
      · subst hkh
        exact absurd (hrec job s (hself.symm.trans hk)) hdb
      · exact hp.reconnects k job s (hother k _ hkh hk)
  · intro k t s hk
    by_cases hkh : k = h
    · subst hkh
      exact absurd (hself.symm.trans hk) (hnew t true s)
    · have hk' := hother k _ hkh hk
      rw [hopen s, if_neg (hfin k t s hkh hk')]
      exact hp.finishes k t s hk'
  · intro k t commit s hk
    by_cases hkh : k = h
    · subst hkh
      exact absurd (hself.symm.trans hk) (hnew t commit s)
    · exact hp.asked k t commit s (hother k _ hkh hk)

/-- A handler asks to end its transaction, which mysql has not dropped if it commits. -/
theorem Sound.asks (hp : p.Sound) (hheld : p.Held) {h t s : Nat} {commit : Bool} (ht : p.txs t = some s)
    (hidle : ∀ x, p.handlers h = some x → x.slot = none)
    (hcommit : commit = true → p.broken t = false) :
    (({ p with txs := Function.update p.txs t none, ended := t :: p.ended } :
      Pool).setHandler h (some (.querying (.finish t commit) s))).Sound := by
  have hreconnects := hp.reconnects
  have hfinishes := hp.finishes
  have hasked := hp.asked
  have hcommits := hp.commits
  have hlive := hp.live
  have honce := hheld.once
  refine ⟨hp.conns, hp.fresh, hp.unopened, hp.named, ?_, ?_, ?_, ?_, ?_, ?_⟩
  · intro s' hs' htx hno
    have hss : s' ≠ s := by
      rintro rfl
      exact hno h t commit (Function.update_self ..)
    refine hp.stray s' hs' (fun t' ht' => ?_) fun k t' c hk => hno k t' c ?_
    · have htt : t' ≠ t := by
        rintro rfl
        exact hss (Option.some.inj (ht'.symm.trans ht))
      exact htx t' (by simpa [Pool.setHandler, htt] using ht')
    · have hkh : k ≠ h := by
        rintro rfl
        cases hidle _ hk
      simpa [Pool.setHandler, hkh] using hk
  all_goals
    simp only [Pool.setHandler]
    grind [Function.update_apply, Whole, openOn]

/-! ## Steps -/

/-- A slot takes a new connection in place of one that has no transaction open. -/
theorem Sound.replaces (hp : p.Sound) {s : Nat} (hopen : p.openOn s = none) :
    ({ p with
      pool := Function.update p.pool s { p.pool s with db := p.nextConn }
      nextConn := p.nextConn + 1 } : Pool).Sound := by
  have hnext := hp.unopened p.nextConn (Nat.le_refl _)
  have hsame : ∀ s', ({ p with
      pool := Function.update p.pool s { p.pool s with db := p.nextConn }
      nextConn := p.nextConn + 1 } : Pool).openOn s' = p.openOn s' := by
    intro s'
    by_cases hss : s' = s
    · subst hss
      rw [hopen]
      simpa only [openOn, Function.update_self] using hnext
    · simp only [openOn, Function.update_of_ne hss]
  have hdb : ∀ s', (Function.update p.pool s { p.pool s with db := p.nextConn } s').db =
      if s' = s then p.nextConn else (p.pool s').db := by
    intro s'
    by_cases hss : s' = s <;> simp [hss]
  have hconns := hp.conns
  have hfresh := hp.fresh
  refine ⟨?_, ?_, ?_, hp.named, ?_, ?_, ?_, ?_, hp.asked, hp.commits⟩
  · intro s₁ s₂ h₁ h₂
    have := hfresh s₁ h₁
    have := hfresh s₂ h₂
    simp only [hdb]
    grind [Has]
  · intro s₁ h₁
    have := hfresh s₁ h₁
    simp only [hdb]
    grind
  · exact fun c hc => hp.unopened c (Nat.le_of_succ_le hc)
  all_goals simp only [hsame]
  · exact hp.stray
  · exact hp.live
  · exact hp.reconnects
  · exact hp.finishes

/-- {lit}`begin` has its transaction. -/
theorem Sound.begins (hp : p.Sound) (hheld : p.Held) {h s : Nat}
    (hh : p.handlers h = some (.querying .begin s)) :
    ((p.executed (p.pool s).db .begin).returned h s true .begin).Sound := by
  have hs := (hheld.works h _ s hh rfl).1
  have hnotx := hheld.notInTx h _ s hh rfl (fun _ _ h => by cases h)
  have hopen : ∀ s', p.Has s' →
      ((p.executed (p.pool s).db .begin).returned h s true .begin).openOn s' =
        if s' = s then some ⟨(p.pool s).db, p.nextDbTx⟩ else p.openOn s' := by
    intro s' hs'
    by_cases hss : s' = s
    · simp [openOn, executed, returned, Pool.setHandler, hss]
    · have hne : (p.pool s').db ≠ (p.pool s).db := fun h => hss (hp.conns s' s hs' hs h)
      simp [openOn, executed, returned, Pool.setHandler, hss, hne]
  have hcases : ∀ k y, ((p.executed (p.pool s).db .begin).returned h s true .begin).handlers k =
      some y → k ≠ h ∧ p.handlers k = some y := by
    intro k y hk
    by_cases hkh : k = h
    · subst hkh
      exact absurd ((Function.update_self ..).symm.trans hk) (fun h => by cases h)
    · exact ⟨hkh, (Function.update_of_ne hkh _ _).symm.trans hk⟩
  have hnew := hp.named (p.txSeq + 1) (Nat.lt_succ_self _)
  refine ⟨hp.conns, hp.fresh, ?_, ?_, ?_, ?_, ?_, ?_, ?_, hp.commits⟩
  · intro c hc
    have hne : c ≠ (p.pool s).db := fun heq => absurd (hp.fresh s hs) (Nat.not_lt.mpr (heq ▸ hc))
    exact (Function.update_of_ne hne _ _).trans (hp.unopened c hc)
  · exact fun t ht => hp.named t (Nat.lt_of_succ_lt ht)
  · intro s' hs' htx hno
    have hss : s' ≠ s := by
      rintro rfl
      exact htx (p.txSeq + 1) (Function.update_self ..)
    rw [hopen s' hs', if_neg hss]
    refine hp.stray s' hs' (fun t ht => htx t ?_) fun k t commit hk => hno k t commit ?_
    · have hne : t ≠ p.txSeq + 1 := by
        have := (hheld.live t s' ht).2.2
        omega
      exact (Function.update_of_ne hne _ _).trans ht
    · have hkh : k ≠ h := by
        rintro rfl
        cases hh.symm.trans hk
      exact (Function.update_of_ne hkh _ _).trans hk
  · intro t s' ht
    by_cases hnt : t = p.txSeq + 1
    · subst hnt
      have hself : Function.update p.txs (p.txSeq + 1) (some s) (p.txSeq + 1) = some s' := ht
      rw [Function.update_self] at hself
      obtain rfl := Option.some.inj hself
      rw [hopen _ hs, if_pos rfl]
      exact .inr ⟨hnew.2, _, rfl, fun e he => absurd (hnew.1 ▸ he) List.not_mem_nil⟩
    · have ht' : p.txs t = some s' := (Function.update_of_ne hnt _ _).symm.trans ht
      have hss : s' ≠ s := by
        rintro rfl
        exact hnotx t ht'
      rw [hopen _ (hheld.live t s' ht').1, if_neg hss]
      exact hp.live t s' ht'
  · intro k job s' hk
    obtain ⟨hkh, hk'⟩ := hcases k _ hk
    have hss : s' ≠ s := by
      rintro rfl
      exact hkh (hheld.alone k _ h _ s' hk' hh rfl rfl)
    rw [hopen _ (hheld.works k _ s' hk' rfl).1, if_neg hss]
    exact hp.reconnects k job s' hk'
  · intro k t s' hk
    obtain ⟨hkh, hk'⟩ := hcases k _ hk
    have hss : s' ≠ s := by
      rintro rfl
      exact hkh (hheld.alone k _ h _ s' hk' hh rfl rfl)
    rw [hopen _ (hheld.works k _ s' hk' rfl).1, if_neg hss]
    exact hp.finishes k t s' hk'
  · intro k t commit s' hk
    exact hp.asked k t commit s' (hcases k _ hk).2

/-- Mysql executes a statement of a transaction. -/
theorem Sound.states (hp : p.Sound) (hheld : p.Held) {t s : Nat} (sql : String)
    (ht : p.txs t = some s) :
    (p.executed (p.pool s).db (.queryTx t sql)).Sound := by
  have hstmts : ∀ t', (p.executed (p.pool s).db (.queryTx t sql)).stmts t' =
      if t' = t then p.openOn s :: p.stmts t else p.stmts t' := fun t' => Function.update_apply ..
  have hend : t ∉ p.ended := ((hheld.begun t).mp (by simp [ht])).2
  have hother : ∀ t' d, t' ∈ p.ended → p.Whole t' d →
      (p.executed (p.pool s).db (.queryTx t sql)).Whole t' d := by
    intro t' d hended hd
    have hne : t' ≠ t := fun heq => hend (heq ▸ hended)
    rwa [Whole, hstmts, if_neg hne]
  refine ⟨hp.conns, hp.fresh, hp.unopened, ?_, hp.stray, ?_, hp.reconnects, ?_, hp.asked, ?_⟩
  · intro t' ht'
    have hne : t' ≠ t := by
      rintro rfl
      exact absurd (hheld.live t' s ht).2.2 (Nat.not_le.mpr ht')
    rw [hstmts, if_neg hne]
    exact hp.named t' ht'
  · intro t' s' ht'
    refine (hp.live t' s' ht').imp_right fun ⟨hb, x, hx, hall⟩ => ⟨hb, x, hx, ?_⟩
    rw [hstmts]
    split
    next heq =>
      subst heq
      obtain rfl := Option.some.inj (ht.symm.trans ht')
      exact List.forall_mem_cons.mpr ⟨hx, hall⟩
    next => exact hall
  · exact fun k t' s' hk => hother t' _ (hp.asked k t' true s' hk) (hp.finishes k t' s' hk)
  · exact fun c hc => ⟨(hp.commits c hc).1, hother c.1 _ (hp.commits c hc).1 (hp.commits c hc).2⟩

/-- A commit succeeds. -/
theorem Sound.records (hp : p.Sound) {t : Nat} {d : Option DbTx} (ht : t ∈ p.ended)
    (hd : p.Whole t d) : ({ p with commits := (t, d) :: p.commits } : Pool).Sound :=
  { hp with commits := List.forall_mem_cons.mpr ⟨⟨ht, hd⟩, hp.commits⟩ }

/-- The request of a handler returns without success. -/
theorem returned_false (h s : Nat) (job : Job) :
    p.returned h s false job = p.setHandler h none ∨
      p.returned h s false job = (p.setHandler h none).setState s .free := by
  cases job with
  | queryTx t sql => exact .inl rfl
  | _ => exact .inr rfl

/-- A handler returns that leaves no transaction open without an owner. -/
theorem Sound.returns (hp : p.Sound) {h s : Nat} (job : Job)
    (hold : ∀ t commit s, p.handlers h = some (.querying (.finish t commit) s) →
      p.openOn s = none) : (p.returned h s false job).Sound := by
  have hnone := hp.setHandler (x := none) hold nofun nofun
  rcases returned_false (p := p) h s job with hret | hret <;> rw [hret]
  · exact hnone
  · exact hnone.setState s .free

/-- The query of a handler fails, and mysql has rolled back. -/
theorem Sound.breaks (hp : p.Sound) (hheld : p.Held) {h s : Nat} {job : Job} {x : Option Handler}
    (hh : p.handlers h = some (.querying job s))
    (hx : x = none ∨ x = some (.reconnecting job s)) :
    (((p.close (p.pool s).db).breaks job).setHandler h x).Sound := by
  have hs := (hheld.works h _ s hh rfl).1
  have hslot : ∀ s', p.Has s' → (p.pool s').db = (p.pool s).db → s' = s :=
    fun s' hs' => hp.conns s' s hs' hs
  have hfin : ∀ k t s', k ≠ h → p.handlers k = some (.querying (.finish t true) s') →
      (p.pool s').db ≠ (p.pool s).db := by
    intro k t s' hkh hk hdb
    obtain rfl := hslot s' (hheld.works k _ s' hk rfl).1 hdb
    exact hkh (hheld.alone k _ h _ s' hk hh rfl rfl)
  have hold : ∀ t commit s', p.handlers h = some (.querying (.finish t commit) s') →
      (p.pool s').db = (p.pool s).db := by
    intro t commit s' hk
    cases hh.symm.trans hk
    rfl
  have hnew : ∀ t commit s', x ≠ some (.querying (.finish t commit) s') := by
    rintro t commit s' rfl
    rcases hx with hx | hx <;> cases hx
  have hrec : ∀ job s', x = some (.reconnecting job s') → (p.pool s').db = (p.pool s).db := by
    rintro job s' rfl
    rcases hx with hx | hx <;> cases hx
    rfl
  by_cases hq : ∃ t sql, job = .queryTx t sql
  · obtain ⟨t, sql, rfl⟩ := hq
    have ht := hheld.inTx h _ t sql s hh rfl rfl
    have hbroken : ∀ t', Function.update p.broken t true t' = true →
        p.broken t' = true ∨ ∃ s', p.txs t' = some s' ∧ (p.pool s').db = (p.pool s).db := by
      intro t' hb
      by_cases htt : t' = t
      · exact .inr ⟨s, htt ▸ ht, rfl⟩
      · exact .inl ((Function.update_of_ne htt _ _).symm.trans hb)
    have hkept : ∀ t', p.broken t' = true → Function.update p.broken t true t' = true := by
      intro t' hb
      by_cases htt : t' = t
      · rw [htt, Function.update_self]
      · rw [Function.update_of_ne htt, hb]
    refine hp.close hheld hbroken hkept ?_ hfin hold hnew hrec
    intro t' s' ht' hdb
    obtain rfl := hslot s' (hheld.live t' s' ht').1 hdb
    obtain rfl := hheld.once t t' s' ht ht'
    exact Function.update_self ..
  · have hnotx := hheld.notInTx h _ s hh rfl fun t sql heq => hq ⟨t, sql, heq⟩
    have hsame : (p.close (p.pool s).db).breaks job = { p.close (p.pool s).db with
        broken := p.broken } := by
      cases job with
      | queryTx t sql => exact absurd ⟨t, sql, rfl⟩ hq
      | _ => rfl
    rw [hsame]
    refine hp.close hheld (fun _ => .inl) (fun _ => id) ?_ hfin hold hnew hrec
    intro t' s' ht' hdb
    obtain rfl := hslot s' (hheld.live t' s' ht').1 hdb
    exact absurd ht' (hnotx t')

/-- A handler ends its transaction. -/
theorem Sound.ends (hp : p.Sound) (hheld : p.Held) {h t s : Nat} {commit : Bool}
    (hh : p.handlers h = some (.querying (.finish t commit) s)) :
    ((p.executed (p.pool s).db (.finish t commit)).returned h s true (.finish t commit)).Sound := by
  have hclosed := hp.breaks hheld (x := none) hh (.inl rfl)
  cases commit with
  | false => exact hclosed.setState s .free
  | true =>
      have hwhole := hp.finishes h t s hh
      have hended := hp.asked h t true s hh
      exact (hclosed.setState s .free).records hended hwhole

theorem Sound.answer (hp : p.Sound) (hheld : p.Held) {h s : Nat} {job : Job} {a : Answer}
    (hh : p.handlers h = some (.querying job s)) (he : p.Steady (.answer h a)) :
    (p.answer h s job a).Sound := by
  cases a with
  | ok =>
      cases job with
      | query sql =>
          refine (hp.setHandler (x := none) ?_ nofun nofun).setState s .free
          intro t commit s' hk
          cases hh.symm.trans hk
      | begin => exact hp.begins hheld hh
      | queryTx t sql =>
          have ht := hheld.inTx h _ t sql s hh rfl rfl
          refine (hp.states hheld sql ht).setHandler (x := none) ?_ nofun nofun
          intro t' commit s' hk
          cases hh.symm.trans hk
      | finish t commit => exact hp.ends hheld hh
  | error abort =>
      cases abort with
      | true =>
          have hclosed := hp.breaks hheld (x := none) hh (.inl rfl)
          simp only [Pool.answer, if_true]
          rcases returned_false (p := (p.close (p.pool s).db).breaks job) h s job with hret | hret
          · exact hret ▸ hclosed
          · exact hret ▸ hclosed.setState s .free
      | false =>
          refine hp.returns job fun t commit s' hk => ?_
          exact he t commit s' hk rfl
  | raised => exact hp.breaks hheld (x := some (.reconnecting job s)) hh (.inr rfl)

theorem Sound.lost (hp : p.Sound) (hheld : p.Held) {conn : Nat}
    (hunused : ∀ h, h < p.nextHandler → p.uses conn h = false) : (p.lost conn).Sound := by
  -- a handler that does not exist stays out of the way
  have hsame : (p.lost conn).setHandler p.nextHandler none = p.lost conn := by
    have hnone : p.handlers p.nextHandler = none := by
      by_contra hsome
      obtain ⟨x, hx⟩ := Option.ne_none_iff_exists'.mp hsome
      exact absurd (hheld.fresh _ x hx) (Nat.lt_irrefl _)
    have hupdate : Function.update p.handlers p.nextHandler none = p.handlers := by
      rw [← hnone, Function.update_eq_self]
    simp only [Pool.setHandler, Pool.lost, Pool.close, hupdate]
  have hused : ∀ k t commit s, p.handlers k = some (.querying (.finish t commit) s) →
      (p.pool s).db ≠ conn := by
    intro k t commit s hk hdb
    have huses := hunused k (hheld.fresh k _ hk)
    simp [uses, hk, Handler.slot, hdb] at huses
  rw [← hsame]
  refine hp.close hheld ?_ ?_ ?_ (fun k t s _ => hused k t true s) ?_
    (fun _ _ _ h => by cases h) (fun _ _ h => by cases h)
  · intro t hb
    rcases Bool.or_eq_true_iff.mp hb with hb | hb
    · exact .inl hb
    · rw [Option.any_eq_true] at hb
      obtain ⟨s, hs, hdb⟩ := hb
      exact .inr ⟨s, hs, of_decide_eq_true hdb⟩
  · intro t hb
    rw [hb, Bool.true_or]
  · intro t s ht hdb
    simp [ht, hdb]
  · intro t commit s hk
    exact absurd (hheld.fresh _ _ hk) (Nat.lt_irrefl _)

theorem Sound.acquires (hp : p.Sound) (hheld : p.Held) {h : Nat} {j : Job} (hjob : j.tx = none)
    (hidle : ∀ x, p.handlers h = some x → x.slot = none) :
    (p.acquireSlot h j (wanted j)).Sound := by
  have hold : ∀ t commit s, p.handlers h = some (.querying (.finish t commit) s) →
      p.openOn s = none := by
    intro t commit s hk
    cases hidle _ hk
  have hrr : ∀ r, ({ p with rr := r } : Pool).Sound := fun r => { hp with }
  rcases acquireSlot_cases hheld.size h j (wanted j) with ⟨r, hr⟩ | ⟨r, s, hs, hfree, hr⟩
  · rw [hr]
    exact (hrr r).setHandler (x := some (.asleep j)) hold nofun nofun
  · rw [hr]
    refine ((hrr r).setHandler (x := some (.querying j s)) hold ?_ nofun).setState s (wanted j)
    rintro t commit s' heq
    cases heq
    cases hjob

theorem Sound.call (hp : p.Sound) (hheld : p.Held) {h : Nat} {job : Job}
    (hnone : p.handlers h = none)
    (hcommit : ∀ t, job = .finish t true → p.txs t ≠ none → p.broken t = false) :
    (p.call h job).Sound := by
  have hidle : ∀ x, p.handlers h = some x → x.slot = none := by
    intro x hx
    cases hnone.symm.trans hx
  cases job with
  | query sql =>
      simp only [Pool.call]
      split
      · exact hp
      · exact hp.acquires hheld (j := .query sql) rfl hidle
  | begin => exact hp.acquires hheld (j := .begin) rfl hidle
  | queryTx t sql =>
      simp only [Pool.call]
      split
      · exact hp
      · split
        · exact hp
        · refine hp.setHandler ?_ (fun _ _ _ h => by cases h) (fun _ _ h => by cases h)
          intro t commit s hk
          cases hnone.symm.trans hk
  | finish t commit =>
      simp only [Pool.call]
      split
      · exact hp
      · rename_i s hs
        refine hp.asks hheld hs hidle fun hc => ?_
        subst hc
        exact hcommit t rfl (by simp [hs])

theorem step_sound {e : Event} (hp : p.Sound) (hheld : p.Held) (he : p.Steady e)
    (hs : p.step e = some p') : p'.Sound := by
  cases e with
  | call job =>
      obtain rfl := Option.some.inj hs
      have hnext : ({ p with nextHandler := p.nextHandler + 1 } : Pool).Sound := { hp with }
      have hheld' : ({ p with nextHandler := p.nextHandler + 1 } : Pool).Held :=
        hheld.of_same ⟨rfl, fun _ => rfl, rfl, rfl, Nat.le_succ _, rfl, rfl, rfl⟩
      refine hnext.call hheld' ?_ he.2
      by_contra hsome
      obtain ⟨x, hx⟩ := Option.ne_none_iff_exists'.mp hsome
      exact absurd (hheld.fresh _ x hx) (Nat.lt_irrefl _)
  | wake h =>
      simp only [step] at hs
      split at hs
      · rename_i job hh
        obtain rfl := Option.some.inj hs
        refine hp.acquires hheld (hheld.waits h job hh) fun x hx => ?_
        obtain rfl := Option.some.inj (hh.symm.trans hx)
        rfl
      · cases hs
  | answer h a =>
      simp only [step] at hs
      split at hs
      · rename_i job s hh
        obtain rfl := Option.some.inj hs
        exact hp.answer hheld hh he
      · cases hs
  | reconnected h ok =>
      simp only [step] at hs
      split at hs
      · rename_i job s hh
        have hopen := hp.reconnects h job s hh
        have hold : ∀ t commit s', p.handlers h ≠ some (.querying (.finish t commit) s') := by
          intro t commit s' hk
          cases hh.symm.trans hk
        cases ok with
        | true =>
            obtain rfl := Option.some.inj hs
            refine (hp.replaces hopen).returns job fun t commit s' hk => ?_
            exact absurd hk (hold t commit s')
        | false =>
            obtain rfl := Option.some.inj hs
            exact hp.returns job fun t commit s' hk => absurd hk (hold t commit s')
      · cases hs
  | lost conn =>
      simp only [step] at hs
      split at hs
      · cases hs
      · rename_i hno
        obtain rfl := Option.some.inj hs
        simp only [List.any_eq_true, List.mem_range, not_exists, not_and,
          Bool.not_eq_true] at hno
        exact hp.lost hheld hno

theorem Reach.sound {size : Nat} (hsize : 0 < size) (hr : Reach size Steady p) : p.Sound := by
  induction hr with
  | start => exact start_sound size
  | step hr he hs ih => exact step_sound ih (hr.held hsize fun _ _ => Steady.alone) he hs

/-- A commit that succeeds has committed all statements that succeeded, in one transaction of
mysql, and a slot that is {lit}`FREE` has no transaction open. -/
def OneTransaction (p : Pool) : Prop :=
  (∀ c ∈ p.commits, p.Whole c.1 c.2) ∧
    ∀ s, p.Has s → (p.pool s).state = .free → p.openOn s = none

/-- A transaction of the pool is one of mysql in a steady run. -/
theorem commits_one (size : Nat) (hsize : 0 < size) (p : Pool) (hr : Reach size Steady p) :
    p.OneTransaction := by
  have hp := hr.sound hsize
  have hheld := hr.held hsize fun _ _ => Steady.alone
  refine ⟨fun c hc => (hp.commits c hc).2, fun s hs hfree => ?_⟩
  refine hp.stray s hs (fun t ht => ?_) fun h t commit hh => ?_
  · have hstate := (hheld.live t s ht).2.1
    rw [hfree] at hstate
    cases hstate
  · have hstate := (hheld.works h _ s hh rfl).2
    rw [hfree] at hstate
    exact wanted_ne_free _ hstate.symm

/-- No handle is in use while no request runs. -/
theorem alone_of_idle (hp : p.Held) (hnone : ∀ h < p.nextHandler, p.handlers h = none)
    (job : Job) : p.Alone (.call job) := by
  intro t _ h x hh
  rw [hnone h (hp.fresh h x hh)] at hh
  cases hh

/-- A transaction with one statement is committed. -/
theorem commits_one_insert : ∃ p, Reach 1 Steady p ∧ p.commits = [(1, some ⟨1, 0⟩)] ∧
    p.stmts 1 = [some ⟨1, 0⟩] ∧ p.OneTransaction := by
  have h₁ : Reach 1 Steady _ := .step (e := .call .begin) .start ⟨nofun, nofun⟩ rfl
  have h₂ := h₁.step (e := .answer 0 .ok) nofun rfl
  have h₃ := h₂.step (e := .call (.queryTx 1 "insert into mail"))
    ⟨alone_of_idle (h₂.held Nat.one_pos fun _ _ => Steady.alone) (by decide +kernel) _, nofun⟩ rfl
  have h₄ := h₃.step (e := .answer 1 .ok) nofun rfl
  have h₅ := h₄.step (e := .call (.finish 1 true))
    ⟨alone_of_idle (h₄.held Nat.one_pos fun _ _ => Steady.alone) (by decide +kernel) _,
      fun _ _ _ => rfl⟩ rfl
  have h₆ := h₅.step (e := .answer 2 .ok) nofun rfl
  exact ⟨_, h₆, rfl, rfl, commits_one 1 Nat.one_pos _ h₆⟩

/-- A lost connection is replaced, and the commit succeeds without the first statement. -/
theorem commits_none : ¬ ∀ size p, 0 < size → Reach size Alone p → p.OneTransaction := by
  intro hall
  have hidle : ∀ p, Reach 1 Alone p → (∀ h < p.nextHandler, p.handlers h = none) →
      ∀ job, p.Alone (.call job) :=
    fun _ hr hnone => alone_of_idle (hr.held Nat.one_pos fun _ _ h => h) hnone
  have h₁ : Reach 1 Alone _ := .step (e := .call .begin) .start nofun rfl
  have h₂ := h₁.step (e := .answer 0 .ok) trivial rfl
  have h₃ := h₂.step (e := .call (.queryTx 1 "insert into mail"))
    (hidle _ h₂ (by decide +kernel) _) rfl
  have h₄ := h₃.step (e := .answer 1 .ok) trivial rfl
  have h₅ := h₄.step (e := .call (.queryTx 1 "insert into mail_attachment"))
    (hidle _ h₄ (by decide +kernel) _) rfl
  have h₆ := h₅.step (e := .answer 2 .raised) trivial rfl
  have h₇ := h₆.step (e := .reconnected 2 true) trivial rfl
  have h₈ := h₇.step (e := .call (.finish 1 true)) (hidle _ h₇ (by decide +kernel) _) rfl
  have h₉ := h₈.step (e := .answer 3 .ok) trivial rfl
  obtain ⟨d, hd, -⟩ := (hall 1 _ Nat.one_pos h₉).1 (1, none) (by decide)
  cases hd

end Pool

end BallServer.MysqlProxy
