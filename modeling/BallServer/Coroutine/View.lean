import BallServer.Coroutine.Machine

/-!
# What a world looks like between two atomic stretches of code

Most invariants of a coroutine program speak only of the shared state, of the
acts every coroutine still has to run, of the requests in flight and of the
values that come back.  This module collects these in a {lit}`View`.  Resuming,
locking, queueing and waking leave the view as it is; only a new handler, an
executed act, an answer and the surroundings change it.

Main results:

- Structure {lit}`World.Wf`: facts about running, suspended and queued
  coroutines that hold in every run; theorem {lit}`Reach.wf`.
- Theorem {lit}`Step.view_cases`: every transition leaves the view unchanged or
  changes it in one of four ways.
- Theorem {lit}`Reach.view_invariant`: the induction rule on views, with one
  obligation for each of the four.
- Theorems {lit}`View.mem_pending_perform` and {lit}`View.mem_pending_create`: where
  the acts that are pending after a change come from.
-/

namespace Coroutine

section View

variable {σ L A Q R C E : Type}

/-! ## Well-formed worlds -/

/-- Facts about running, suspended and queued coroutines. -/
structure World.Wf [Inhabited R] (w : World σ L A Q R) : Prop where
  running : ∀ t, w.running = some t → t < w.fresh ∧ (w.co t).status = .active
  blank : ∀ t, w.fresh ≤ t → w.co t = Co.blank
  queued : ∀ l u, u ∈ (w.lock l).queue → (w.co u).status = .waiting l
  nodup : ∀ l, (w.lock l).queue.Nodup

section Wf

variable [Inhabited R] {w w' : World σ L A Q R}

theorem World.Wf.init (s : σ) : (World.init s : World σ L A Q R).Wf where
  running := by simp [World.init]
  blank := by simp [World.init]
  queued := by simp [World.init, Lock.free]
  nodup := by simp [World.init, Lock.free]

/-- A queued coroutine exists. -/
theorem World.Wf.lt_of_queued (hw : w.Wf) {l : L} {u : Nat}
    (hu : u ∈ (w.lock l).queue) : u < w.fresh := by
  by_contra hge
  have hs := hw.queued l u hu
  rw [hw.blank u (by omega)] at hs
  cases hs

/-- The running coroutine waits for no lock. -/
theorem World.Wf.not_queued (hw : w.Wf) {t : Nat} (hr : w.running = some t) (l : L) :
    t ∉ (w.lock l).queue := by
  intro hq
  have hs := hw.queued l t hq
  rw [(hw.running t hr).2] at hs
  cases hs

/-- Changing one existing coroutine keeps a world well formed, as long as a
queued coroutine stays queued and only a live one runs. -/
theorem World.Wf.update (hw : w.Wf) {t : Nat} {c : Co L A Q R} {s : σ} {r : Option Nat}
    (ht : t < w.fresh)
    (hq : ∀ l, t ∈ (w.lock l).queue → c.status = .waiting l)
    (hr : r = none ∨ r = some t ∧ c.status = .active ∨ r = w.running ∧ r ≠ some t) :
    World.Wf { w with shared := s, co := Function.update w.co t c, running := r } where
  running u hu := by
    rcases hr with rfl | ⟨rfl, hc⟩ | ⟨rfl, hne⟩
    · cases hu
    · cases hu
      exact ⟨ht, by simpa using hc⟩
    · have hut : u ≠ t := fun h => hne (h ▸ hu)
      simpa [hut] using hw.running u hu
  blank u hu := by
    have hut : u ≠ t := by
      simp only at hu
      omega
    simpa [hut] using hw.blank u hu
  queued l u hu := by
    by_cases hut : u = t
    · subst hut
      simpa using hq l hu
    · simpa [hut] using hw.queued l u hu
  nodup := hw.nodup

theorem World.Wf.create (hw : w.Wf) (a : A) : (w.create a).Wf where
  running t ht := by
    have := hw.running t ht
    have hne : t ≠ w.fresh := by omega
    simpa [World.create, hne] using ⟨by omega, this.2⟩
  blank t ht := by
    simp only [World.create] at ht ⊢
    rw [Function.update_of_ne (by omega)]
    exact hw.blank t (by omega)
  queued l u hu := by
    have hne : u ≠ w.fresh := (hw.lt_of_queued hu).ne
    simpa [World.create, hne] using hw.queued l u hu
  nodup := hw.nodup

theorem World.Wf.createFork (hw : w.Wf) (f : Option A) : (w.createFork f).Wf := by
  cases f with
  | none => exact hw
  | some a => exact hw.create a

theorem World.Wf.perform (hw : w.Wf) {t : Nat} (hr : w.running = some t)
    (rest : List (Frame L A)) (e : Effect σ L A Q R) : (w.perform t rest e).Wf := by
  refine World.Wf.createFork ?_ _
  have hact := hw.running t hr
  refine hw.update hact.1 (fun l hl => (hw.not_queued hr l hl).elim) ?_
  cases ho : e.outcome with
  | ret v => exact .inr (.inl ⟨rfl, by simp [Co.after, ho, hact.2]⟩)
  | call q => exact .inl rfl
  | raise => exact .inr (.inl ⟨rfl, by simp [Co.after, ho, hact.2]⟩)

/-- Changing only who owns a lock keeps a world well formed. -/
theorem World.Wf.setOwner [DecidableEq L] (hw : w.Wf) (l : L) (k : Lock)
    (hq : k.queue = (w.lock l).queue) :
    World.Wf { w with lock := Function.update w.lock l k } where
  running := hw.running
  blank := hw.blank
  queued m u hu := by
    by_cases hm : m = l
    · subst hm
      exact hw.queued m u (by simpa [hq] using hu)
    · exact hw.queued m u (by simpa [hm] using hu)
  nodup m := by
    by_cases hm : m = l
    · subst hm
      simpa [hq] using hw.nodup m
    · simpa [hm] using hw.nodup m

theorem World.Wf.enter [DecidableEq L] (hw : w.Wf) {t : Nat} (hr : w.running = some t)
    (l : L) (a : A) (rest : List (Frame L A)) : (w.enter t l a rest).Wf := by
  have hact := hw.running t hr
  have h₁ := hw.setOwner l
    { w.lock l with owner := some t, ref := (w.lock l).ref + 1 } rfl
  have h₂ := h₁.update (s := w.shared) (r := some t)
    (c := { w.co t with stack := .code (.act a) :: .leave l :: rest }) hact.1
    (fun m hm => (h₁.not_queued hr m hm).elim) (.inr (.inl ⟨rfl, hact.2⟩))
  simpa [World.enter, hr] using h₂

theorem World.Wf.block [DecidableEq L] (hw : w.Wf) {t : Nat} (hr : w.running = some t)
    (l : L) (a : A) (rest : List (Frame L A)) : (w.block t l a rest).Wf where
  running u hu := by cases hu
  blank u hu := by
    have hne : u ≠ t := by
      have := (hw.running t hr).1
      simp only [World.block] at hu
      omega
    simpa [World.block, hne] using hw.blank u hu
  queued m u hu := by
    by_cases hut : u = t
    · subst hut
      by_cases hm : m = l
      · simp [World.block, hm]
      · exact (hw.not_queued hr m (by simpa [World.block, hm] using hu)).elim
    · have hold : u ∈ (w.lock m).queue := by
        by_cases hm : m = l
        · subst hm
          simpa [World.block, hut] using hu
        · simpa [World.block, hm] using hu
      simpa [World.block, hut] using hw.queued m u hold
  nodup m := by
    by_cases hm : m = l
    · subst hm
      simpa [World.block, List.nodup_append] using
        ⟨hw.nodup m, fun u hu h => hw.not_queued hr m (h ▸ hu)⟩
    · simpa [World.block, hm] using hw.nodup m

theorem World.Wf.exit [DecidableEq L] (hw : w.Wf) {t : Nat} (hr : w.running = some t)
    (l : L) (rest : List (Frame L A)) : (w.exit t l rest).Wf := by
  have hact := hw.running t hr
  have h₁ : World.Wf { w with
      co := Function.update w.co t { w.co t with stack := rest } } := by
    have := hw.update (s := w.shared) (r := some t) (c := { w.co t with stack := rest })
      hact.1 (fun m hm => (hw.not_queued hr m hm).elim) (.inr (.inl ⟨rfl, hact.2⟩))
    simpa [hr] using this
  simp only [World.exit]
  split
  · split
    · rename_i hq
      exact h₁.setOwner l Lock.free (by simpa [Lock.free] using hq.symm)
    · rename_i u queue hq
      have hu : u ∈ (w.lock l).queue := by simp [hq]
      have hut : u ≠ t := fun h => hw.not_queued hr l (h ▸ hu)
      have hnd := hw.nodup l
      rw [hq] at hnd
      refine ⟨?_, ?_, ?_, ?_⟩
      · intro v hv
        have hvt : v = t := by
          simp only [hr] at hv
          exact (Option.some.inj hv).symm
        subst hvt
        simpa [Ne.symm hut] using hact
      · intro v hv
        have hvu : v ≠ u := by
          have := hw.lt_of_queued hu
          simp only at hv
          omega
        simpa [hvu] using h₁.blank v hv
      · intro m v hv
        have hvu : v ≠ u := by
          rintro rfl
          by_cases hm : m = l
          · subst hm
            simp only [Function.update_self] at hv
            exact (List.nodup_cons.mp hnd).1 hv
          · have := hw.queued m v (by simpa [hm] using hv)
            rw [hw.queued l v hu] at this
            cases this
            exact hm rfl
        have hold : v ∈ (w.lock m).queue := by
          by_cases hm : m = l
          · subst hm
            simp only [Function.update_self] at hv
            simp [hq, hv]
          · simpa [hm] using hv
        simpa [hvu] using h₁.queued m v hold
      · intro m
        by_cases hm : m = l
        · subst hm
          simpa using (List.nodup_cons.mp hnd).2
        · simpa [hm] using hw.nodup m
  · exact h₁.setOwner l _ rfl

theorem World.Wf.wake (hw : w.Wf) {t : Nat} (v : R)
    (hs : (w.co t).status = .runnable ∨ ∃ r, (w.co t).status = .answered r) :
    (w.wake t v).Wf := by
  have ht : t < w.fresh := by
    by_contra hge
    rw [hw.blank t (by omega)] at hs
    rcases hs with hs | ⟨r, hs⟩ <;> cases hs
  refine hw.update (s := w.shared) ht (fun l hl => ?_) (.inr (.inl ⟨rfl, rfl⟩))
  rw [hw.queued l t hl] at hs
  rcases hs with hs | ⟨r, hs⟩ <;> cases hs

theorem World.Wf.answer (hw : w.Wf) {t : Nat} {q : Q} (s : σ) (r : R)
    (hs : (w.co t).status = .calling q) : (w.answer t s r).Wf := by
  have ht : t < w.fresh := by
    by_contra hge
    rw [hw.blank t (by omega)] at hs
    cases hs
  refine hw.update ht (fun l hl => ?_) (.inr (.inr ⟨rfl, fun hr => ?_⟩))
  · rw [hw.queued l t hl] at hs
    cases hs
  · rw [(hw.running t hr).2] at hs
    cases hs

variable [DecidableEq L] {P : Program σ L A Q R C E}

/-- Every transition keeps a world well formed. -/
theorem World.Wf.step {e : Event A C E} (hw : w.Wf) (h : Step P w e w') : w'.Wf := by
  cases h with
  | spawn a idle => exact hw.create a
  | woken t idle hs => exact hw.wake _ (.inl hs)
  | returned t r idle hs => exact hw.wake r (.inr ⟨r, hs⟩)
  | finish t hr hk => exact ⟨fun u hu => (nomatch hu), hw.blank, hw.queued, hw.nodup⟩
  | perform t a rest hr hk => exact hw.perform hr rest _
  | enter t l a rest hr hk hl => exact hw.enter hr l a rest
  | block t l a rest hr hk hl => exact hw.block hr l a rest
  | grant t l a rest hr hk => exact hw.enter hr l a rest
  | exit t l rest hr hk => exact hw.exit hr l rest
  | serve t c q s r hs ha => exact hw.answer s r hs
  | env e s he => exact ⟨hw.running, hw.blank, hw.queued, hw.nodup⟩

/-- Every world of a run is well formed. -/
theorem Reach.wf {ok : Guard σ L A Q R C E} {s : σ} (h : Reach P ok (World.init s) w) :
    w.Wf :=
  h.invariant World.Wf (.init s) fun _ _ _ hw _ hs => hw.step hs

end Wf

/-! ## Views -/

/-- The act of a piece of code, with or without a lock around it. -/
def Code.toAct : Code L A → A
  | .act a => a
  | .locked _ a => a

/-- The act a stack entry still stands for. -/
def Frame.toAct : Frame L A → Option A
  | .code c => some c.toAct
  | .granted _ a => some a
  | .leave _ => none

/-- What the coroutines still have to do and what they are waiting for. -/
structure View (σ A Q R : Type) where
  shared : σ
  /-- The acts a coroutine still has to run, next one first. -/
  pending : Nat → List A
  /-- The request of a coroutine that has not been answered yet. -/
  flight : Nat → Option Q
  /-- The value the next act of a coroutine will be given. -/
  val : Nat → R
  /-- Whether an error has ended a coroutine. -/
  raised : Nat → Bool
  fresh : Nat

/-- The request a coroutine is suspended on. -/
def Status.request : Status L Q R → Option Q
  | .calling q => some q
  | _ => none

/-- The value on its way to a coroutine, {lit}`v` when none is. -/
def Status.result (v : R) : Status L Q R → R
  | .answered r => r
  | _ => v

/-- The view of a world. -/
def World.view (w : World σ L A Q R) : View σ A Q R where
  shared := w.shared
  pending t := (w.co t).stack.filterMap Frame.toAct
  flight t := (w.co t).status.request
  val t := (w.co t).status.result (w.co t).val
  raised t := (w.co t).raised
  fresh := w.fresh

namespace View

/-- What a coroutine has to do after an act with effect {lit}`e`. -/
def pendingAfter (rest : List A) (e : Effect σ L A Q R) : List A :=
  match e.outcome with
  | .raise => []
  | _ => e.push.map Code.toAct ++ rest

/-- What a coroutine waits for after an act. -/
def flightAfter : Outcome Q R → Option Q
  | .call q => some q
  | _ => none

theorem flightAfter_eq_some {o : Outcome Q R} {q : Q} :
    flightAfter o = some q ↔ o = .call q := by
  cases o <;> simp [flightAfter]

/-- The value of a coroutine after an act. -/
def valAfter (v : R) : Outcome Q R → R
  | .ret r => r
  | _ => v

/-- Whether an act has ended its coroutine by an error. -/
def raisedAfter (b : Bool) : Outcome Q R → Bool
  | .raise => true
  | _ => b

/-- A new coroutine is to run {lit}`a`. -/
def create [Inhabited R] (v : View σ A Q R) (a : A) : View σ A Q R where
  shared := v.shared
  pending := Function.update v.pending v.fresh [a]
  flight := Function.update v.flight v.fresh none
  val := Function.update v.val v.fresh default
  raised := Function.update v.raised v.fresh false
  fresh := v.fresh + 1

/-- Create the coroutine an act forks, if it forks one. -/
def createFork [Inhabited R] (v : View σ A Q R) : Option A → View σ A Q R
  | none => v
  | some a => v.create a

/-- Coroutine {lit}`t` has executed an act with effect {lit}`e`, before its fork. -/
def execute (v : View σ A Q R) (t : Nat) (rest : List A) (e : Effect σ L A Q R) :
    View σ A Q R where
  shared := e.state
  pending := Function.update v.pending t (pendingAfter rest e)
  flight := Function.update v.flight t (flightAfter e.outcome)
  val := Function.update v.val t (valAfter (v.val t) e.outcome)
  raised := Function.update v.raised t (raisedAfter (v.raised t) e.outcome)
  fresh := v.fresh

/-- Coroutine {lit}`t` has executed an act with effect {lit}`e`. -/
def perform [Inhabited R] (v : View σ A Q R) (t : Nat) (rest : List A)
    (e : Effect σ L A Q R) : View σ A Q R :=
  (v.execute t rest e).createFork e.fork

/-- The request of coroutine {lit}`t` has been answered. -/
def answer (v : View σ A Q R) (t : Nat) (s : σ) (r : R) : View σ A Q R :=
  { v with
    shared := s
    flight := Function.update v.flight t none
    val := Function.update v.val t r }

end View

@[simp] theorem Code.toAct_act (a : A) : (Code.act a : Code L A).toAct = a := rfl

@[simp] theorem Code.toAct_locked (l : L) (a : A) : (Code.locked l a).toAct = a := rfl

@[simp] theorem Frame.toAct_code (c : Code L A) : (Frame.code c).toAct = some c.toAct := rfl

@[simp] theorem Frame.toAct_granted (l : L) (a : A) :
    (Frame.granted l a).toAct = some a := rfl

@[simp] theorem Frame.toAct_leave (l : L) : (Frame.leave l : Frame L A).toAct = none := rfl

theorem filterMap_toAct_push (cs : List (Code L A)) (rest : List (Frame L A)) :
    (cs.map Frame.code ++ rest).filterMap Frame.toAct =
      cs.map Code.toAct ++ rest.filterMap Frame.toAct := by
  induction cs with
  | nil => rfl
  | cons c cs ih => simp [ih]

/-- Releasing locks is not an act. -/
theorem filterMap_toAct_leaves (stack : List (Frame L A)) :
    (stack.filter Frame.isLeave).filterMap Frame.toAct = [] := by
  simp only [List.filterMap_eq_nil_iff, List.mem_filter]
  rintro f ⟨-, hf⟩
  cases f with
  | leave l => rfl
  | _ => cases hf

@[simp] theorem Co.after_status (c : Co L A Q R) (rest : List (Frame L A))
    (e : Effect σ L A Q R) (hc : c.status = .active) :
    (c.after rest e).status.request = View.flightAfter e.outcome := by
  cases ho : e.outcome <;> simp [Co.after, ho, hc, Status.request, View.flightAfter]

theorem Co.after_val (c : Co L A Q R) (rest : List (Frame L A)) (e : Effect σ L A Q R)
    (hc : c.status = .active) :
    (c.after rest e).status.result (c.after rest e).val =
      View.valAfter (c.status.result c.val) e.outcome := by
  cases ho : e.outcome <;> simp [Co.after, ho, hc, Status.result, View.valAfter]

theorem Co.after_raised (c : Co L A Q R) (rest : List (Frame L A))
    (e : Effect σ L A Q R) :
    (c.after rest e).raised = View.raisedAfter c.raised e.outcome := by
  cases ho : e.outcome <;> simp [Co.after, ho, View.raisedAfter]

theorem Co.after_pending (c : Co L A Q R) (rest : List (Frame L A))
    (e : Effect σ L A Q R) :
    (c.after rest e).stack.filterMap Frame.toAct =
      View.pendingAfter (rest.filterMap Frame.toAct) e := by
  cases ho : e.outcome with
  | ret v => simpa [Co.after, ho, View.pendingAfter] using filterMap_toAct_push e.push rest
  | call q => simpa [Co.after, ho, View.pendingAfter] using filterMap_toAct_push e.push rest
  | raise => simpa [Co.after, ho, View.pendingAfter] using filterMap_toAct_leaves rest

section Transitions

variable [Inhabited R] {w w' : World σ L A Q R}

theorem World.view_create (w : World σ L A Q R) (a : A) :
    (w.create a).view = w.view.create a := by
  simp only [World.view, World.create, View.create, View.mk.injEq, true_and, and_true]
  refine ⟨?_, ?_, ?_, ?_⟩ <;> funext u <;> by_cases h : u = w.fresh <;>
    simp [h, Co.start, Status.request, Status.result]

theorem World.view_createFork (w : World σ L A Q R) (f : Option A) :
    (w.createFork f).view = w.view.createFork f := by
  cases f with
  | none => rfl
  | some a => exact w.view_create a

theorem World.view_perform (w : World σ L A Q R) {t : Nat} (rest : List (Frame L A))
    (e : Effect σ L A Q R) (ht : (w.co t).status = .active) :
    (w.perform t rest e).view = w.view.perform t (rest.filterMap Frame.toAct) e := by
  rw [World.perform, World.view_createFork, View.perform]
  congr 1
  simp only [World.view, View.execute, View.mk.injEq, true_and, and_true]
  refine ⟨?_, ?_, ?_, ?_⟩ <;> funext u <;> by_cases h : u = t
  · subst h
    simpa using Co.after_pending _ rest e
  · simp [h]
  · subst h
    simpa using Co.after_status _ rest e ht
  · simp [h]
  · subst h
    simpa using Co.after_val _ rest e ht
  · simp [h]
  · subst h
    simpa using Co.after_raised _ rest e
  · simp [h]

omit [Inhabited R] in
/-- Replacing a coroutine by one with the same pending acts, request and value
does not show. -/
theorem World.view_update (w : World σ L A Q R) (t : Nat) (c : Co L A Q R)
    (lock : L → Lock) (running : Option Nat)
    (hp : c.stack.filterMap Frame.toAct = (w.co t).stack.filterMap Frame.toAct)
    (hf : c.status.request = (w.co t).status.request)
    (hv : c.status.result c.val = (w.co t).status.result (w.co t).val)
    (hx : c.raised = (w.co t).raised) :
    World.view { w with
      co := Function.update w.co t c, lock := lock, running := running } = w.view := by
  simp only [World.view, View.mk.injEq, true_and, and_true]
  refine ⟨?_, ?_, ?_, ?_⟩ <;> funext u <;> by_cases h : u = t
  · subst h
    simpa using hp
  · simp [h]
  · subst h
    simpa using hf
  · simp [h]
  · subst h
    simpa using hv
  · simp [h]
  · subst h
    simpa using hx
  · simp [h]

omit [Inhabited R] in
theorem World.view_wake (w : World σ L A Q R) (t : Nat) (v : R)
    (hf : (w.co t).status.request = none)
    (hv : (w.co t).status.result (w.co t).val = v) : (w.wake t v).view = w.view :=
  w.view_update t _ w.lock (some t) rfl hf.symm hv.symm rfl

omit [Inhabited R] in
theorem World.view_answer (w : World σ L A Q R) (t : Nat) (s : σ) (r : R) :
    (w.answer t s r).view = w.view.answer t s r := by
  simp only [World.view, World.answer, View.answer, View.mk.injEq, true_and, and_true]
  refine ⟨?_, ?_, ?_, ?_⟩ <;> funext u <;> by_cases h : u = t
  · subst h
    simp
  · simp [h]
  · subst h
    simp [Status.request]
  · simp [h]
  · subst h
    simp [Status.result]
  · simp [h]
  · subst h
    simp
  · simp [h]

variable [DecidableEq L] {P : Program σ L A Q R C E}

omit [Inhabited R] in
theorem World.view_enter (w : World σ L A Q R) {t : Nat} {l : L} {a : A} {f : Frame L A}
    {rest : List (Frame L A)} (hk : (w.co t).stack = f :: rest) (hf : f.toAct = some a) :
    (w.enter t l a rest).view = w.view :=
  w.view_update t _ _ w.running (by simp [hk, hf, List.filterMap_cons]) rfl rfl rfl

omit [Inhabited R] in
theorem World.view_block (w : World σ L A Q R) {t : Nat} {l : L} {a : A}
    {rest : List (Frame L A)} (hk : (w.co t).stack = .code (.locked l a) :: rest)
    (ht : (w.co t).status = .active) : (w.block t l a rest).view = w.view :=
  w.view_update t _ _ none (by simp [hk]) (by simp [ht, Status.request])
    (by simp [ht, Status.result]) rfl

theorem World.view_exit (w : World σ L A Q R) {t : Nat} {l : L} {rest : List (Frame L A)}
    (hw : w.Wf) (hk : (w.co t).stack = .leave l :: rest) :
    (w.exit t l rest).view = w.view := by
  have h₁ := w.view_update t { w.co t with stack := rest } w.lock w.running
    (by simp [hk, List.filterMap_cons]) rfl rfl rfl
  simp only [World.exit]
  split
  · split
    · exact h₁
    · rename_i u queue hq
      have hu := hw.queued l u (by simp [hq])
      refine Eq.trans ?_ h₁
      let w₁ : World σ L A Q R :=
        { w with co := Function.update w.co t { w.co t with stack := rest } }
      have hs : (w₁.co u).status = .waiting l := by
        by_cases hut : u = t
        · subst hut
          simpa [w₁] using hu
        · simpa [w₁, hut] using hu
      exact w₁.view_update u { w₁.co u with status := .runnable } _ w.running rfl
        (by simp [hs, Status.request]) (by simp [hs, Status.result]) rfl
  · exact h₁

/-- How a transition changes the view of a well-formed world. -/
inductive View.Step (P : Program σ L A Q R C E) (w : World σ L A Q R) :
    Event A C E → View σ A Q R → Prop where
  /-- Scheduling and locking do not show. -/
  | same (e : Event A C E) : View.Step P w e w.view
  | spawn (a : A) (idle : w.running = none) : View.Step P w (.spawn a) (w.view.create a)
  | perform (t : Nat) (a : A) (rest : List A) (stack : List (Frame L A))
      (ht : t < w.view.fresh) (hr : w.running = some t)
      (hk : (w.co t).stack = .code (.act a) :: stack)
      (hp : w.view.pending t = a :: rest) (hf : w.view.flight t = none) :
      View.Step P w .tick
        (w.view.perform t rest (P.exec t a (w.view.val t) w.view.shared))
  | serve (t : Nat) (c : C) (q : Q) (s : σ) (r : R) (hq : w.view.flight t = some q)
      (ha : P.serve t q c w.view.shared = some (s, r)) :
      View.Step P w (.serve t c) (w.view.answer t s r)
  | env (e : E) (s : σ) (he : P.env e w.view.shared = some s) :
      View.Step P w (.env e) { w.view with shared := s }

/-- Every transition leaves the view unchanged or changes it in one of the four
ways of {name}`View.Step`. -/
theorem Step.view_cases {e : Event A C E} (hw : w.Wf) (h : Step P w e w') :
    View.Step P w e w'.view := by
  cases h with
  | spawn a idle => exact w.view_create a ▸ .spawn a idle
  | woken t idle hs =>
      exact w.view_wake t (w.co t).val (by simp [hs, Status.request])
        (by simp [hs, Status.result]) ▸ .same _
  | returned t r idle hs =>
      exact w.view_wake t r (by simp [hs, Status.request]) (by simp [hs, Status.result]) ▸
        .same _
  | finish t hr hk => exact .same _
  | perform t a rest hr hk =>
      have ht := (hw.running t hr).2
      have hval : w.view.val t = (w.co t).val := by simp [World.view, ht, Status.result]
      rw [w.view_perform rest _ ht, ← hval]
      exact .perform t a _ rest (hw.running t hr).1 hr hk (by simp [World.view, hk])
        (by simp [World.view, ht, Status.request])
  | enter t l a rest hr hk hl => exact w.view_enter hk rfl ▸ .same _
  | block t l a rest hr hk hl => exact w.view_block hk (hw.running t hr).2 ▸ .same _
  | grant t l a rest hr hk => exact w.view_enter hk rfl ▸ .same _
  | exit t l rest hr hk => exact w.view_exit hw hk ▸ .same _
  | serve t c q s r hs ha =>
      exact w.view_answer t s r ▸ .serve t c q s r (by simp [World.view, hs, Status.request]) ha
  | env e s he => exact .env e s he

/-- The induction rule on views.  The world in which a transition happens is one
of the run, so facts about all worlds of a run may be used. -/
theorem Reach.view_invariant {ok : Guard σ L A Q R C E} {s : σ}
    (Inv : View σ A Q R → Prop) (h : Reach P ok (World.init s) w)
    (h₀ : Inv (World.init s : World σ L A Q R).view)
    (hstep : ∀ w e v, Reach P ok (World.init s) w → Inv w.view → ok w e →
      View.Step P w e v → Inv v) : Inv w.view := by
  induction h with
  | refl => exact h₀
  | step hw hok hs ih => exact hstep _ _ _ hw ih hok (hs.view_cases hw.wf)

end Transitions

/-! ## What is pending after a change -/

section Pending

variable [Inhabited R]

/-- Coroutines that do not exist yet have nothing to do. -/
structure View.Blank (v : View σ A Q R) : Prop where
  pending : ∀ t, v.fresh ≤ t → v.pending t = []
  flight : ∀ t, v.fresh ≤ t → v.flight t = none
  raised : ∀ t, v.fresh ≤ t → v.raised t = false

theorem World.Wf.view_blank {w : World σ L A Q R} (hw : w.Wf) : w.view.Blank where
  pending t ht := by
    simp only [World.view]
    rw [hw.blank t ht]
    rfl
  flight t ht := by
    simp only [World.view]
    rw [hw.blank t ht]
    rfl
  raised t ht := by
    simp only [World.view]
    rw [hw.blank t ht]
    rfl

namespace View

variable {v : View σ A Q R} {a b : A} {rest : List A} {t u : Nat}

theorem mem_pending_create (hv : v.Blank) :
    b ∈ (v.create a).pending u ↔ b ∈ v.pending u ∨ u = v.fresh ∧ b = a := by
  by_cases hu : u = v.fresh
  · subst hu
    simp [create, hv.pending v.fresh le_rfl]
  · simp [create, hu]

theorem flight_create (hv : v.Blank) : (v.create a).flight u = v.flight u := by
  by_cases hu : u = v.fresh
  · subst hu
    simp [create, hv.flight v.fresh le_rfl]
  · simp [create, hu]

theorem val_create_of_ne (hu : u ≠ v.fresh) : (v.create a).val u = v.val u := by
  simp [create, hu]

omit [Inhabited R] in
theorem Blank.execute (hv : v.Blank) (ht : t < v.fresh) (e : Effect σ L A Q R) :
    (v.execute t rest e).Blank where
  pending u hu := by
    have hut : u ≠ t := by
      have : v.fresh ≤ u := hu
      omega
    simpa [View.execute, hut] using hv.pending u hu
  flight u hu := by
    have hut : u ≠ t := by
      have : v.fresh ≤ u := hu
      omega
    simpa [View.execute, hut] using hv.flight u hu
  raised u hu := by
    have hut : u ≠ t := by
      have : v.fresh ≤ u := hu
      omega
    simpa [View.execute, hut] using hv.raised u hu

omit [Inhabited R] in
/-- What a coroutine has to do after an act, it has been left by the act or it had
to do before. -/
theorem mem_pendingAfter {e : Effect σ L A Q R} (h : b ∈ pendingAfter rest e) :
    (∃ c ∈ e.push, c.toAct = b) ∨ b ∈ rest := by
  cases ho : e.outcome with
  | raise => simp [pendingAfter, ho] at h
  | ret v => simpa [pendingAfter, ho] using h
  | call q => simpa [pendingAfter, ho] using h

/-- What is pending after an act: what it has pushed, what was pending before,
and the act it has forked. -/
theorem mem_pending_perform (hv : v.Blank) (ht : t < v.fresh) {e : Effect σ L A Q R} :
    b ∈ (v.perform t rest e).pending u ↔
      u = t ∧ b ∈ pendingAfter rest e ∨ u ≠ t ∧ b ∈ v.pending u ∨
        u = v.fresh ∧ e.fork = some b := by
  have hx : (v.execute t rest e).Blank := hv.execute ht e
  have hbase : b ∈ (v.execute t rest e).pending u ↔
      u = t ∧ b ∈ pendingAfter rest e ∨ u ≠ t ∧ b ∈ v.pending u := by
    by_cases hu : u = t
    · subst hu
      simp [execute]
    · simp [execute, hu]
  rw [perform]
  cases hf : e.fork with
  | none => simpa [createFork] using hbase
  | some c =>
      rw [createFork, mem_pending_create hx, hbase]
      simp [execute, or_assoc, eq_comm]

/-- An act that does not raise leaves what it pushes to be done. -/
theorem pushed_perform (hv : v.Blank) (ht : t < v.fresh) {e : Effect σ L A Q R}
    (he : e.outcome ≠ .raise) {c : Code L A} (hc : c ∈ e.push) :
    c.toAct ∈ (v.perform t rest e).pending t := by
  rw [mem_pending_perform hv ht]
  refine .inl ⟨rfl, ?_⟩
  have hmem : c.toAct ∈ e.push.map Code.toAct := List.mem_map_of_mem hc
  cases ho : e.outcome with
  | raise => exact (he ho).elim
  | ret x => simp [pendingAfter, ho, hmem]
  | call q => simp [pendingAfter, ho, hmem]

/-- An act that does not raise leaves everything else that is pending. -/
theorem kept_perform (hv : v.Blank) (ht : t < v.fresh) {e : Effect σ L A Q R}
    (he : e.outcome ≠ .raise) (hb : b ∈ v.pending u) (hne : u ≠ t ∨ b ∈ rest) :
    b ∈ (v.perform t rest e).pending u := by
  rw [mem_pending_perform hv ht]
  by_cases hut : u = t
  · have hrest : b ∈ rest := hne.resolve_left fun h => h hut
    refine .inl ⟨hut, ?_⟩
    cases ho : e.outcome with
    | raise => exact (he ho).elim
    | ret x => simp [pendingAfter, ho, hrest]
    | call q => simp [pendingAfter, ho, hrest]
  · exact .inr (.inl ⟨hut, hb⟩)

omit [Inhabited R] in
/-- A pending act is the one that is executed now or another one. -/
theorem pending_cases (hp : v.pending t = a :: rest) (hb : b ∈ v.pending u) :
    (u ≠ t ∨ b ∈ rest) ∨ u = t ∧ b = a := by
  by_cases hut : u = t
  · subst hut
    rw [hp] at hb
    rcases List.mem_cons.mp hb with h | h
    · exact .inr ⟨rfl, h⟩
    · exact .inl (.inr h)
  · exact .inl (.inl hut)

theorem flight_perform (hv : v.Blank) (ht : t < v.fresh) (e : Effect σ L A Q R) :
    (v.perform t rest e).flight u = if u = t then flightAfter e.outcome else v.flight u := by
  have hx : (v.execute t rest e).Blank := hv.execute ht e
  have hbase : (v.execute t rest e).flight u =
      if u = t then flightAfter e.outcome else v.flight u := by
    simp [execute, Function.update_apply]
  rw [perform]
  cases hf : e.fork with
  | none => exact hbase
  | some c => rw [createFork, flight_create hx, hbase]

theorem val_perform (hu : u ≠ v.fresh) (e : Effect σ L A Q R) :
    (v.perform t rest e).val u =
      if u = t then valAfter (v.val t) e.outcome else v.val u := by
  have hbase : (v.execute t rest e).val u =
      if u = t then valAfter (v.val t) e.outcome else v.val u := by
    simp [execute, Function.update_apply]
  rw [perform]
  cases hf : e.fork with
  | none => exact hbase
  | some c => rw [createFork, val_create_of_ne (by simpa [execute] using hu), hbase]

@[simp] theorem shared_perform (e : Effect σ L A Q R) :
    (v.perform t rest e).shared = e.state := by
  rw [perform]
  cases e.fork <;> rfl

@[simp] theorem shared_create : (v.create a).shared = v.shared := rfl

omit [Inhabited R] in
@[simp] theorem shared_answer (s : σ) (r : R) : (v.answer t s r).shared = s := rfl

omit [Inhabited R] in
@[simp] theorem pending_answer (s : σ) (r : R) : (v.answer t s r).pending = v.pending := rfl

end View

end Pending

end View

end Coroutine
