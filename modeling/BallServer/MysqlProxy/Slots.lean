import BallServer.MysqlProxy.Pool

/-!
# Who holds a slot

A slot is held by the request that runs on it or by the transaction that was begun on it.

Main results:

- Structure {lit}`Pool.Held`: the invariant.
- Theorem {lit}`slots_held_once`: every slot has one user, and it is free exactly when it has
  none.
-/

namespace BallServer.MysqlProxy

namespace Pool

/-- The slots of the pool. -/
def Has (p : Pool) (s : Nat) : Prop :=
  1 ≤ s ∧ s ≤ p.size

/-- Every slot has one user. -/
structure Held (p : Pool) : Prop where
  size : 0 < p.size
  fresh : ∀ h x, p.handlers h = some x → h < p.nextHandler
  works : ∀ h x s, p.handlers h = some x → x.slot = some s →
    p.Has s ∧ (p.pool s).state = wanted x.job
  alone : ∀ h x h' x' s, p.handlers h = some x → p.handlers h' = some x' →
    x.slot = some s → x'.slot = some s → h = h'
  waits : ∀ h job, p.handlers h = some (.asleep job) → job.tx = none
  live : ∀ t s, p.txs t = some s → p.Has s ∧ (p.pool s).state = .tx ∧ t ≤ p.txSeq
  once : ∀ t t' s, p.txs t = some s → p.txs t' = some s → t = t'
  inTx : ∀ h x t sql s, p.handlers h = some x → x.job = .queryTx t sql → x.slot = some s →
    p.txs t = some s
  notInTx : ∀ h x s, p.handlers h = some x → x.slot = some s →
    (∀ t sql, x.job ≠ .queryTx t sql) → ∀ t, p.txs t ≠ some s
  user : ∀ s, p.Has s → (p.pool s).state ≠ .free →
    (∃ h x, p.handlers h = some x ∧ x.slot = some s) ∨ ∃ t, p.txs t = some s
  begun : ∀ t, p.txs t ≠ none ↔ t ∈ p.begun ∧ t ∉ p.ended
  numbered : ∀ t ∈ p.begun, t ≤ p.txSeq
  done : ∀ t ∈ p.ended, t ∈ p.begun

theorem start_held {size : Nat} (h : 0 < size) : (start size).Held := by
  constructor <;> simp [start, h]

variable {p p' : Pool}

/-- The invariant does not look at connections and at what mysql does. -/
structure Same (p p' : Pool) : Prop where
  size : p'.size = p.size
  state : ∀ s, (p'.pool s).state = (p.pool s).state
  txs : p'.txs = p.txs
  handlers : p'.handlers = p.handlers
  nextHandler : p.nextHandler ≤ p'.nextHandler
  txSeq : p'.txSeq = p.txSeq
  begun : p'.begun = p.begun
  ended : p'.ended = p.ended

theorem Held.of_same (hp : p.Held) (h : Same p p') : p'.Held where
  size := h.size ▸ hp.size
  fresh := by
    intro k x hk
    rw [h.handlers] at hk
    exact Nat.lt_of_lt_of_le (hp.fresh k x hk) h.nextHandler
  works := by
    intro k x s hk hs
    rw [h.handlers] at hk
    have := hp.works k x s hk hs
    rwa [h.state, Has, h.size]
  alone := by
    rw [h.handlers]
    exact hp.alone
  waits := by
    rw [h.handlers]
    exact hp.waits
  live := by
    intro t s ht
    rw [h.txs] at ht
    have := hp.live t s ht
    rwa [h.state, Has, h.size, h.txSeq]
  once := by
    rw [h.txs]
    exact hp.once
  inTx := by
    rw [h.handlers, h.txs]
    exact hp.inTx
  notInTx := by
    rw [h.handlers, h.txs]
    exact hp.notInTx
  user := by
    intro s hs hne
    rw [h.state] at hne
    rw [Has, h.size] at hs
    rw [h.handlers, h.txs]
    exact hp.user s hs hne
  begun := by
    rw [h.txs, h.begun, h.ended]
    exact hp.begun
  numbered := by
    rw [h.begun, h.txSeq]
    exact hp.numbered
  done := by
    rw [h.begun, h.ended]
    exact hp.done

/-! ## Acquiring a slot -/

theorem acquireFrom_cases (hsize : 0 < p.size) (x : SlotState) (k : Nat) :
    (∃ r, p.acquireFrom x k = ({ p with rr := r }, none)) ∨
      ∃ r s, p.Has s ∧ (p.pool s).state = .free ∧
        p.acquireFrom x k = (({ p with rr := r } : Pool).setState s x, some s) := by
  induction k generalizing p with
  | zero => exact .inl ⟨p.rr, rfl⟩
  | succ k ih =>
      have hlt := Nat.mod_lt p.rr hsize
      unfold acquireFrom
      dsimp only
      split
      next hfree => exact .inr ⟨_, _, ⟨Nat.le_add_left _ _, hlt⟩, hfree, rfl⟩
      next => exact ih (p := { p with rr := p.rr % p.size + 1 }) hsize

theorem acquireSlot_cases (hsize : 0 < p.size) (h : Nat) (job : Job) (x : SlotState) :
    (∃ r, p.acquireSlot h job x =
      ({ p with rr := r } : Pool).setHandler h (some (.asleep job))) ∨
      ∃ r s, p.Has s ∧ (p.pool s).state = .free ∧ p.acquireSlot h job x =
        (({ p with rr := r } : Pool).setState s x).setHandler h (some (.querying job s)) := by
  unfold acquireSlot
  rcases acquireFrom_cases hsize x p.size with ⟨r, hr⟩ | ⟨r, s, hs, hfree, hr⟩
  · exact .inl ⟨r, by rw [hr]⟩
  · exact .inr ⟨r, s, hs, hfree, by rw [hr]⟩

/-- The handler is new or asleep. -/
def Idle (p : Pool) (h : Nat) : Prop :=
  h < p.nextHandler ∧ ∀ x, p.handlers h = some x → x.slot = none

/-- Who works on a slot goes on when another handler changes. -/
theorem worker_of_update {h s : Nat} {y : Option Handler}
    (hidle : ∀ x, p.handlers h = some x → x.slot ≠ some s)
    (hw : ∃ k x, p.handlers k = some x ∧ x.slot = some s) :
    ∃ k x, Function.update p.handlers h y k = some x ∧ x.slot = some s := by
  obtain ⟨k, x, hk, hx⟩ := hw
  refine ⟨k, x, ?_, hx⟩
  rw [Function.update_of_ne]
  · exact hk
  · rintro rfl
    exact hidle x hk hx

theorem Held.sleeps (hp : p.Held) {h : Nat} (hh : p.Idle h) {job : Job} (hjob : job.tx = none) :
    (p.setHandler h (some (.asleep job))).Held := by
  obtain ⟨hlt, hidle⟩ := hh
  have := hp.fresh
  have := hp.works
  have := hp.alone
  have := hp.waits
  have := hp.inTx
  have := hp.notInTx
  refine ⟨hp.size, ?_, ?_, ?_, ?_, hp.live, hp.once, ?_, ?_, fun s hs hne => ?_, hp.begun,
    hp.numbered, hp.done⟩
  case refine_7 =>
    exact (hp.user s hs hne).imp_left (worker_of_update fun x hx => by simp [hidle x hx])
  all_goals
    simp only [setHandler]
    grind [Function.update_apply, Handler.slot, Has]

theorem wanted_ne_free (job : Job) : wanted job ≠ .free := by
  cases job <;> exact nofun

theorem Held.takes (hp : p.Held) {h : Nat} (hh : p.Idle h) {job : Job} (hjob : job.tx = none)
    {s : Nat} (hs : p.Has s) (hfree : (p.pool s).state = .free) :
    ((p.setState s (wanted job)).setHandler h (some (.querying job s))).Held := by
  obtain ⟨hlt, hidle⟩ := hh
  have := hp.fresh
  have := hp.works
  have := hp.alone
  have := hp.waits
  have := hp.live
  have := hp.inTx
  have := hp.notInTx
  have hnew : (Handler.querying job s).slot = some s := rfl
  have hjob' : (Handler.querying job s).job = job := rfl
  have hno : ∀ t sql, job ≠ .queryTx t sql := by
    rintro t sql rfl
    cases hjob
  have := wanted_ne_free
  refine ⟨hp.size, ?_, ?_, ?_, ?_, ?_, hp.once, ?_, ?_, fun s' hs' hne => ?_, hp.begun,
    hp.numbered, hp.done⟩
  case refine_8 =>
    by_cases hss : s' = s
    · exact .inl ⟨h, _, Function.update_self .., hss ▸ rfl⟩
    · simp only [setHandler, setState, Function.update_of_ne hss] at hne
      exact (hp.user s' hs' hne).imp_left (worker_of_update fun x hx => by simp [hidle x hx])
  all_goals
    simp only [setHandler, setState]
    grind [Function.update_apply, Has]

/-- A transaction whose handle nobody uses has a slot on which nobody works. -/
theorem Held.unused (hp : p.Held) {t s : Nat} (ht : p.txs t = some s)
    (halone : ∀ k x, p.handlers k = some x → x.job.tx ≠ some t) :
    ∀ k x, p.handlers k = some x → x.slot ≠ some s := by
  intro k x hk hs
  by_cases hq : ∃ t' sql, x.job = .queryTx t' sql
  · obtain ⟨t', sql, hq⟩ := hq
    have heq := hp.once t t' s ht (hp.inTx k x t' sql s hk hq hs)
    exact halone k x hk (by rw [hq, heq]; rfl)
  · exact hp.notInTx k x s hk hs (fun t' sql h => hq ⟨t', sql, h⟩) t ht

theorem Held.queriesTx (hp : p.Held) {h : Nat} (hh : p.Idle h) {t s : Nat} (sql : String)
    (ht : p.txs t = some s) (hunused : ∀ k x, p.handlers k = some x → x.slot ≠ some s) :
    (p.setHandler h (some (.querying (.queryTx t sql) s))).Held := by
  obtain ⟨hlt, hidle⟩ := hh
  have := hp.fresh
  have := hp.works
  have := hp.alone
  have := hp.waits
  have := hp.inTx
  have := hp.notInTx
  have hnew : (Handler.querying (.queryTx t sql) s).slot = some s := rfl
  have hjob : (Handler.querying (.queryTx t sql) s).job = .queryTx t sql := rfl
  have hwanted : wanted (.queryTx t sql) = .tx := rfl
  have hlive := hp.live t s ht
  refine ⟨hp.size, ?_, ?_, ?_, ?_, hp.live, hp.once, ?_, ?_, fun s' hs' hne => ?_, hp.begun,
    hp.numbered, hp.done⟩
  case refine_7 =>
    exact (hp.user s' hs' hne).imp_left (worker_of_update fun x hx => by simp [hidle x hx])
  all_goals
    simp only [setHandler]
    grind [Function.update_apply, Has]

theorem Held.finishes (hp : p.Held) {h : Nat} (hh : p.Idle h) {t s : Nat} (commit : Bool)
    (ht : p.txs t = some s) (hunused : ∀ k x, p.handlers k = some x → x.slot ≠ some s) :
    (({ p with txs := Function.update p.txs t none, ended := t :: p.ended } : Pool).setHandler h
      (some (.querying (.finish t commit) s))).Held := by
  obtain ⟨hlt, hidle⟩ := hh
  have := hp.fresh
  have := hp.works
  have := hp.alone
  have := hp.waits
  have := hp.live
  have := hp.once
  have := hp.inTx
  have := hp.notInTx
  have := hp.done
  have := hp.begun
  have hnew : (Handler.querying (.finish t commit) s).slot = some s := rfl
  have hjob : (Handler.querying (.finish t commit) s).job = .finish t commit := rfl
  have hwanted : wanted (.finish t commit) = .tx := rfl
  refine ⟨hp.size, ?_, ?_, ?_, ?_, ?_, ?_, ?_, ?_, fun s' hs' hne => ?_, ?_, hp.numbered, ?_⟩
  case refine_9 =>
    by_cases hss : s' = s
    · exact .inl ⟨h, _, Function.update_self .., hss ▸ rfl⟩
    · rcases hp.user s' hs' hne with hw | ⟨t', ht'⟩
      · exact .inl (worker_of_update (fun x hx => by simp [hidle x hx]) hw)
      · refine .inr ⟨t', ?_⟩
        have htt : t' ≠ t := by
          rintro rfl
          exact hss (Option.some.inj (ht'.symm.trans ht))
        simpa [setHandler, htt] using ht'
  all_goals
    simp only [setHandler]
    grind [Function.update_apply, Has]

/-- A request is over that does not belong to a transaction. -/
theorem Held.released (hp : p.Held) {h s : Nat} {x : Handler} (hh : p.handlers h = some x)
    (hs : x.slot = some s) (hno : ∀ t sql, x.job ≠ .queryTx t sql) :
    ((p.releaseSlot s).setHandler h none).Held := by
  have := hp.fresh
  have hworks := hp.works
  have halone := hp.alone
  have := hp.waits
  have hlive := hp.live
  have := hp.inTx
  have := hp.notInTx
  have hnotx := hp.notInTx h x s hh hs hno
  refine ⟨hp.size, ?_, ?_, ?_, ?_, ?_, hp.once, ?_, ?_, fun s' hs' hne => ?_, hp.begun,
    hp.numbered, hp.done⟩
  case refine_8 =>
    simp only [setHandler, releaseSlot, setState] at hne
    have hss : s' ≠ s := by
      rintro rfl
      simp at hne
    rw [Function.update_of_ne hss] at hne
    refine (hp.user s' hs' hne).imp_left (worker_of_update fun y hy => ?_)
    obtain rfl := Option.some.inj (hh.symm.trans hy)
    rw [hs]
    exact fun heq => hss (Option.some.inj heq).symm
  all_goals
    simp only [setHandler, releaseSlot, setState]
    grind [Function.update_apply, Has]

/-- A statement of a transaction is over. -/
theorem Held.queriedTx (hp : p.Held) {h s t : Nat} {x : Handler} {sql : String}
    (hh : p.handlers h = some x) (hs : x.slot = some s) (hjob : x.job = .queryTx t sql) :
    (p.setHandler h none).Held := by
  have := hp.fresh
  have := hp.works
  have := hp.alone
  have := hp.waits
  have := hp.inTx
  have := hp.notInTx
  have ht := hp.inTx h x t sql s hh hjob hs
  refine ⟨hp.size, ?_, ?_, ?_, ?_, hp.live, hp.once, ?_, ?_, fun s' hs' hne => ?_, hp.begun,
    hp.numbered, hp.done⟩
  case refine_7 =>
    by_cases hss : s' = s
    · exact .inr ⟨t, hss ▸ ht⟩
    · refine (hp.user s' hs' hne).imp_left (worker_of_update fun y hy => ?_)
      obtain rfl := Option.some.inj (hh.symm.trans hy)
      rw [hs]
      exact fun heq => hss (Option.some.inj heq).symm
  all_goals
    simp only [setHandler]
    grind [Function.update_apply, Has]

/-- {lit}`begin` has its transaction. -/
theorem Held.begins (hp : p.Held) {h s : Nat} {x : Handler} (hh : p.handlers h = some x)
    (hs : x.slot = some s) (hjob : x.job = .begin) :
    (({ p with
      txSeq := p.txSeq + 1
      txs := Function.update p.txs (p.txSeq + 1) (some s)
      begun := (p.txSeq + 1) :: p.begun } : Pool).setHandler h none).Held := by
  have := hp.fresh
  have := hp.works
  have := hp.alone
  have := hp.waits
  have := hp.live
  have := hp.once
  have := hp.inTx
  have := hp.notInTx
  have := hp.begun
  have := hp.numbered
  have := hp.done
  have hnotx := hp.notInTx h x s hh hs (by simp [hjob])
  have hstate := hp.works h x s hh hs
  rw [hjob, wanted] at hstate
  · refine ⟨hp.size, ?_, ?_, ?_, ?_, ?_, ?_, ?_, ?_, fun s' hs' hne => ?_, ?_, ?_, ?_⟩
    case refine_9 =>
      by_cases hss : s' = s
      · exact .inr ⟨p.txSeq + 1, by simp [setHandler, hss]⟩
      · rcases hp.user s' hs' hne with hw | ⟨t, ht⟩
        · refine .inl (worker_of_update (fun y hy => ?_) hw)
          obtain rfl := Option.some.inj (hh.symm.trans hy)
          rw [hs]
          exact fun heq => hss (Option.some.inj heq).symm
        · have htt : t ≠ p.txSeq + 1 := by
            have := (hp.live t s' ht).2.2
            omega
          exact .inr ⟨t, by simpa [setHandler, htt] using ht⟩
    all_goals
      simp only [setHandler]
      grind [Function.update_apply, Has]
  · exact nofun

/-- A handler waits for something else on its slot. -/
theorem Held.reconnects (hp : p.Held) {h s : Nat} {job : Job}
    (hh : p.handlers h = some (.querying job s)) :
    (p.setHandler h (some (.reconnecting job s))).Held := by
  have := hp.fresh
  have := hp.works
  have := hp.alone
  have := hp.waits
  have := hp.inTx
  have := hp.notInTx
  have hslot : (Handler.querying job s).slot = some s := rfl
  have hslot' : (Handler.reconnecting job s).slot = some s := rfl
  have hjob : (Handler.querying job s).job = job := rfl
  have hjob' : (Handler.reconnecting job s).job = job := rfl
  refine ⟨hp.size, ?_, ?_, ?_, ?_, hp.live, hp.once, ?_, ?_, fun s' hs' hne => ?_, hp.begun,
    hp.numbered, hp.done⟩
  case refine_7 =>
    by_cases hss : s' = s
    · exact .inl ⟨h, _, Function.update_self .., hss ▸ rfl⟩
    · refine (hp.user s' hs' hne).imp_left (worker_of_update fun y hy => ?_)
      obtain rfl := Option.some.inj (hh.symm.trans hy)
      exact fun heq => hss (Option.some.inj heq).symm
  all_goals
    simp only [setHandler]
    grind [Function.update_apply, Has]

/-! ## Steps -/

theorem Held.returned (hp : p.Held) {h s : Nat} {x : Handler} (hh : p.handlers h = some x)
    (hs : x.slot = some s) (succeeded : Bool) : (p.returned h s succeeded x.job).Held := by
  cases hjob : x.job with
  | query sql => exact hp.released hh hs (by simp [hjob])
  | begin =>
      cases succeeded with
      | true => exact hp.begins hh hs hjob
      | false => exact hp.released hh hs (by simp [hjob])
  | queryTx t sql => exact hp.queriedTx hh hs hjob
  | finish t commit => exact hp.released hh hs (by simp [hjob])

theorem same_executed (conn : Nat) (job : Job) : Same p (p.executed conn job) := by
  cases job with
  | finish t commit => cases commit <;> exact ⟨rfl, fun _ => rfl, rfl, rfl, Nat.le_refl _, rfl, rfl, rfl⟩
  | _ => exact ⟨rfl, fun _ => rfl, rfl, rfl, Nat.le_refl _, rfl, rfl, rfl⟩

theorem same_breaks (conn : Nat) (job : Job) : Same p ((p.close conn).breaks job) := by
  cases job <;> exact ⟨rfl, fun _ => rfl, rfl, rfl, Nat.le_refl _, rfl, rfl, rfl⟩

theorem Held.answer (hp : p.Held) {h s : Nat} {job : Job}
    (hh : p.handlers h = some (.querying job s)) (a : Answer) : (p.answer h s job a).Held := by
  cases a with
  | ok =>
      have hsame := same_executed (p := p) (p.pool s).db job
      have hh' := hsame.handlers ▸ hh
      exact (hp.of_same hsame).returned hh' rfl true
  | error abort =>
      cases abort with
      | true =>
          have hsame := same_breaks (p := p) (p.pool s).db job
          have hh' := hsame.handlers ▸ hh
          exact (hp.of_same hsame).returned hh' rfl false
      | false => exact hp.returned hh rfl false
  | raised =>
      have hsame := same_breaks (p := p) (p.pool s).db job
      have hh' := hsame.handlers ▸ hh
      exact (hp.of_same hsame).reconnects hh'

theorem Held.acquires (hp : p.Held) {h : Nat} (hh : p.Idle h) {job : Job} (hjob : job.tx = none) :
    (p.acquireSlot h job (wanted job)).Held := by
  have hrr : ∀ r, ({ p with rr := r } : Pool).Held := fun r =>
    hp.of_same ⟨rfl, fun _ => rfl, rfl, rfl, Nat.le_refl _, rfl, rfl, rfl⟩
  rcases acquireSlot_cases hp.size h job (wanted job) with ⟨r, hr⟩ | ⟨r, s, hs, hfree, hr⟩
  · rw [hr]
    exact (hrr r).sleeps hh hjob
  · rw [hr]
    exact (hrr r).takes hh hjob hs hfree

theorem Held.call (hp : p.Held) {h : Nat} (hh : p.Idle h) {job : Job}
    (halone : ∀ t, job.tx = some t → ∀ k x, p.handlers k = some x → x.job.tx ≠ some t) :
    (p.call h job).Held := by
  cases job with
  | query sql =>
      simp only [Pool.call]
      split
      · exact hp
      · have hjob : (Job.query sql).tx = none := rfl
        exact hp.acquires hh hjob
  | begin =>
      have hjob : Job.begin.tx = none := rfl
      exact hp.acquires hh hjob
  | queryTx t sql =>
      simp only [Pool.call]
      split
      · exact hp
      · split
        · exact hp
        · rename_i s hs
          exact hp.queriesTx hh sql hs (hp.unused hs (halone t rfl))
  | finish t commit =>
      simp only [Pool.call]
      split
      · exact hp
      · rename_i s hs
        exact hp.finishes hh commit hs (hp.unused hs (halone t rfl))

theorem step_held {e : Event} (hp : p.Held) (he : p.Alone e) (hs : p.step e = some p') :
    p'.Held := by
  cases e with
  | call job =>
      obtain rfl := Option.some.inj hs
      have hnext : ({ p with nextHandler := p.nextHandler + 1 } : Pool).Held :=
        hp.of_same ⟨rfl, fun _ => rfl, rfl, rfl, Nat.le_succ _, rfl, rfl, rfl⟩
      refine hnext.call ⟨Nat.lt_succ_self _, fun x hx => ?_⟩ he
      exact absurd (hp.fresh _ x hx) (Nat.lt_irrefl _)
  | wake h =>
      simp only [step] at hs
      split at hs
      · rename_i job hh
        obtain rfl := Option.some.inj hs
        refine hp.acquires ⟨hp.fresh h _ hh, fun x hx => ?_⟩ (hp.waits h job hh)
        obtain rfl := Option.some.inj (hh.symm.trans hx)
        rfl
      · cases hs
  | answer h a =>
      simp only [step] at hs
      split at hs
      · rename_i job s hh
        obtain rfl := Option.some.inj hs
        exact hp.answer hh a
      · cases hs
  | reconnected h ok =>
      simp only [step] at hs
      split at hs
      · rename_i job s hh
        cases ok with
        | true =>
            obtain rfl := Option.some.inj hs
            have hsame : Same p ({ p with
                pool := Function.update p.pool s { p.pool s with db := p.nextConn }
                nextConn := p.nextConn + 1 } : Pool) := by
              refine ⟨rfl, fun s' => ?_, rfl, rfl, Nat.le_refl _, rfl, rfl, rfl⟩
              by_cases hss : s' = s <;> simp [hss]
            exact (hp.of_same hsame).returned (x := .reconnecting job s) hh rfl false
        | false =>
            obtain rfl := Option.some.inj hs
            exact hp.returned (x := .reconnecting job s) hh rfl false
      · cases hs
  | lost conn =>
      simp only [step] at hs
      split at hs
      · cases hs
      · obtain rfl := Option.some.inj hs
        exact hp.of_same ⟨rfl, fun _ => rfl, rfl, rfl, Nat.le_refl _, rfl, rfl, rfl⟩

theorem Reach.held {size : Nat} {ok : Pool → Event → Prop} (hsize : 0 < size)
    (hok : ∀ p e, ok p e → p.Alone e) (hr : Reach size ok p) : p.Held := by
  induction hr with
  | start => exact start_held hsize
  | step _ he hs ih => exact step_held ih (hok _ _ he) hs

/-- A slot never has two users: the requests that run have slots of their own, the live
transactions have slots in {lit}`TX` of their own, a slot is {lit}`FREE` exactly when no
request and no live transaction holds it, and all are when everything is over. -/
theorem slots_held_once (size : Nat) (hsize : 0 < size) (p : Pool) (hr : Reach size Alone p) :
    (∀ h x h' x' s, p.handlers h = some x → p.handlers h' = some x' →
      x.slot = some s → x'.slot = some s → h = h') ∧
    ((∀ t, p.txs t ≠ none ↔ t ∈ p.begun ∧ t ∉ p.ended) ∧
      (∀ t s, p.txs t = some s → p.Has s ∧ (p.pool s).state = .tx) ∧
      ∀ t t' s, p.txs t = some s → p.txs t' = some s → t = t') ∧
    (∀ s, p.Has s → ((p.pool s).state = .free ↔
      (∀ h x, p.handlers h = some x → x.slot ≠ some s) ∧ ∀ t, p.txs t ≠ some s)) ∧
    ((∀ h, p.handlers h = none) → (∀ t ∈ p.begun, t ∈ p.ended) →
      ∀ s, p.Has s → (p.pool s).state = .free) := by
  have hp : p.Held := Reach.held hsize (fun _ _ h => h) hr
  have hfree : ∀ s, p.Has s → ((p.pool s).state = .free ↔
      (∀ h x, p.handlers h = some x → x.slot ≠ some s) ∧ ∀ t, p.txs t ≠ some s) := by
    intro s hs
    constructor
    · intro hfree
      constructor
      · intro h x hh hx
        exact wanted_ne_free x.job ((hp.works h x s hh hx).2.symm.trans hfree)
      · intro t ht
        have := (hp.live t s ht).2.1
        rw [hfree] at this
        cases this
    · rintro ⟨hno, hnotx⟩
      by_contra hne
      rcases hp.user s hs hne with ⟨h, x, hh, hx⟩ | ⟨t, ht⟩
      · exact hno h x hh hx
      · exact hnotx t ht
  refine ⟨hp.alone, ⟨hp.begun, fun t s ht => ?_, hp.once⟩, hfree, fun hnone hover s hs => ?_⟩
  · obtain ⟨hhas, hstate, -⟩ := hp.live t s ht
    exact ⟨hhas, hstate⟩
  · refine (hfree s hs).mpr ⟨fun h x hh => ?_, fun t ht => ?_⟩
    · rw [hnone h] at hh
      cases hh
    · have hlive := (hp.begun t).mp (by simp [ht])
      exact hlive.2 (hover t hlive.1)

/-- A transaction runs while a query waits for the only slot. -/
theorem slots_held_once_waiting : ∃ p, Reach 1 Alone p ∧ p.txs 1 = some 1 ∧
    p.handlers 1 = some (.asleep (.query "select 1")) ∧ (p.pool 1).state = .tx := by
  have h₁ : Reach 1 Alone _ := .step (e := .call .begin) .start nofun rfl
  have h₂ := h₁.step (e := .answer 0 .ok) trivial rfl
  have h₃ := h₂.step (e := .call (.query "select 1")) nofun rfl
  exact ⟨_, h₃, rfl, rfl, ((slots_held_once 1 Nat.one_pos _ h₃).2.1.2.1 1 1 rfl).2⟩

end Pool

end BallServer.MysqlProxy
