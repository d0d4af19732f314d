import BallServer.Coroutine.View

/-!
# Mutual exclusion and order of the locks

A lock is owned by the coroutine that has a {lit}`leave` frame for it on its
stack, or by one that has just been handed the lock and has not been resumed
yet.  Acts that only ever run under a lock can therefore never be pending in two
coroutines at once.

Main results:

- Structure {lit}`World.Locked`: owners, entry counts and queues agree with the
  stacks; theorem {lit}`Reach.locked`.
- Structure {lit}`Program.Critical`: which acts run under which lock.
- Theorem {lit}`Reach.owner_of_pending`: a coroutine with a critical act pending
  owns the lock; theorem {lit}`Reach.critical_unique`: so there is only one.
-/

namespace Coroutine

section Lock

variable {σ L A Q R C E : Type} [DecidableEq L]

/-- The frame releases the lock {lit}`l`. -/
def Frame.isLeaveOf (l : L) : Frame L A → Bool
  | .leave m => decide (m = l)
  | _ => false

/-- How often a stack still has to leave a lock. -/
def leaveCount (l : L) (stack : List (Frame L A)) : Nat :=
  stack.countP (Frame.isLeaveOf l)

@[simp] theorem leaveCount_nil (l : L) : leaveCount l ([] : List (Frame L A)) = 0 := rfl

@[simp] theorem leaveCount_code (l : L) (c : Code L A) (stack : List (Frame L A)) :
    leaveCount l (.code c :: stack) = leaveCount l stack := by
  simp [leaveCount, Frame.isLeaveOf]

@[simp] theorem leaveCount_granted (l m : L) (a : A) (stack : List (Frame L A)) :
    leaveCount l (.granted m a :: stack) = leaveCount l stack := by
  simp [leaveCount, Frame.isLeaveOf]

@[simp] theorem leaveCount_leave (l m : L) (stack : List (Frame L A)) :
    leaveCount l (.leave m :: stack) = leaveCount l stack + if m = l then 1 else 0 := by
  simp [leaveCount, Frame.isLeaveOf, List.countP_cons]

theorem leaveCount_push (l : L) (cs : List (Code L A)) (rest : List (Frame L A)) :
    leaveCount l (cs.map Frame.code ++ rest) = leaveCount l rest := by
  induction cs with
  | nil => rfl
  | cons c cs ih => simpa using ih

theorem leaveCount_leaves (l : L) (stack : List (Frame L A)) :
    leaveCount l (stack.filter Frame.isLeave) = leaveCount l stack := by
  induction stack with
  | nil => rfl
  | cons f stack ih => cases f <;> simp [List.filter_cons, Frame.isLeave, ih]

theorem leaveCount_pos {l : L} {stack : List (Frame L A)} :
    0 < leaveCount l stack ↔ .leave l ∈ stack := by
  rw [leaveCount, List.countP_pos_iff]
  constructor
  · rintro ⟨f, hf, hl⟩
    cases f with
    | leave m =>
        have hm : m = l := by simpa [Frame.isLeaveOf] using hl
        exact hm ▸ hf
    | _ => cases hl
  · intro h
    exact ⟨_, h, by simp [Frame.isLeaveOf]⟩

theorem leaveCount_after (l : L) (c : Co L A Q R) (rest : List (Frame L A))
    (e : Effect σ L A Q R) : leaveCount l (c.after rest e).stack = leaveCount l rest := by
  cases ho : e.outcome with
  | ret v => simpa [Co.after, ho] using leaveCount_push l e.push rest
  | call q => simpa [Co.after, ho] using leaveCount_push l e.push rest
  | raise => simpa [Co.after, ho] using leaveCount_leaves l rest

/-! ## Owners, counts and queues -/

/-- Owners, entry counts and queues agree with the stacks. -/
structure World.Locked (w : World σ L A Q R) : Prop where
  count : ∀ l t, leaveCount l (w.co t).stack =
    if (w.lock l).owner = some t then (w.lock l).ref else 0
  free : ∀ l, (w.lock l).owner = none → (w.lock l).ref = 0 ∧ (w.lock l).queue = []
  granted : ∀ t l a, .granted l a ∈ (w.co t).stack →
    (∃ rest, (w.co t).stack = .granted l a :: rest) ∧
      ((w.co t).status = .waiting l ∨ (w.lock l).owner = some t)
  single : ∀ t l a rest, (w.co t).stack = .granted l a :: rest → ∀ m b, .granted m b ∉ rest
  waiting : ∀ t l, (w.co t).status = .waiting l →
    t ∈ (w.lock l).queue ∧ ∃ a rest, (w.co t).stack = .granted l a :: rest
  handed : ∀ t l, (w.lock l).owner = some t → (w.lock l).ref = 0 →
    (w.co t).status ≠ .waiting l ∧ ∃ a rest, (w.co t).stack = .granted l a :: rest

namespace World.Locked

variable {w w' : World σ L A Q R} {t u : Nat} {l : L} {a : A} {rest : List (Frame L A)}

/-- Only a granted frame on top is one at all. -/
theorem not_granted (hl : w.Locked) {f : Frame L A} (hk : (w.co t).stack = f :: rest)
    (hf : ∀ m b, f ≠ .granted m b) (m : L) (b : A) : .granted m b ∉ rest := by
  intro h
  obtain ⟨⟨rest', hr⟩, -⟩ := hl.granted t m b (by simp [hk, h])
  rw [hk] at hr
  cases hr
  exact hf m b rfl

/-- A coroutine with a {lit}`leave` frame owns the lock. -/
theorem owner_of_leave (hl : w.Locked) (h : .leave l ∈ (w.co t).stack) :
    (w.lock l).owner = some t := by
  have hpos : 0 < leaveCount l (w.co t).stack := leaveCount_pos.mpr h
  rw [hl.count] at hpos
  by_contra hne
  simp [hne] at hpos

variable [Inhabited R]

theorem init (s : σ) : (World.init s : World σ L A Q R).Locked where
  count l t := by simp [World.init, Co.blank, Lock.free]
  free l _ := by simp [World.init, Lock.free]
  granted t l a h := by simp [World.init, Co.blank] at h
  single t l a rest h := by simp [World.init, Co.blank] at h
  waiting t l h := by simp [World.init, Co.blank] at h
  handed t l h := by simp [World.init, Lock.free] at h

omit [Inhabited R] in
/-- Changing one coroutine, as long as it holds and awaits the same locks. -/
theorem update (hl : w.Locked) {c : Co L A Q R} {s : σ} {r : Option Nat}
    (hcount : ∀ m, leaveCount m c.stack = leaveCount m (w.co t).stack)
    (hgranted : ∀ m b, .granted m b ∈ c.stack →
      c.stack = (w.co t).stack ∧ (w.co t).status ≠ .waiting m)
    (hwaiting : ∀ m, c.status ≠ .waiting m)
    (hhanded : ∀ m b, .granted m b ∈ (w.co t).stack → c.stack = (w.co t).stack) :
    World.Locked { w with shared := s, co := Function.update w.co t c, running := r } where
  count m u := by
    by_cases hu : u = t
    · subst hu
      simpa [hcount] using hl.count m u
    · simpa [hu] using hl.count m u
  free := hl.free
  granted u m b h := by
    by_cases hu : u = t
    · subst hu
      simp only [Function.update_self] at h ⊢
      obtain ⟨hs, hne⟩ := hgranted m b h
      obtain ⟨htop, hst⟩ := hl.granted u m b (hs ▸ h)
      exact ⟨hs ▸ htop, .inr (hst.resolve_left hne)⟩
    · simpa [hu] using hl.granted u m b (by simpa [hu] using h)
  single u m b rest h := by
    by_cases hu : u = t
    · subst hu
      simp only [Function.update_self] at h
      have hs := (hgranted m b (by simp [h])).1
      exact hl.single u m b rest (hs ▸ h)
    · exact hl.single u m b rest (by simpa [hu] using h)
  waiting u m h := by
    by_cases hu : u = t
    · subst hu
      exact (hwaiting m (by simpa using h)).elim
    · simpa [hu] using hl.waiting u m (by simpa [hu] using h)
  handed u m ho hr := by
    obtain ⟨hne, b, rest, hs⟩ := hl.handed u m ho hr
    by_cases hu : u = t
    · subst hu
      simp only [Function.update_self]
      exact ⟨hwaiting m, b, rest, (hhanded m b (by simp [hs])).trans hs⟩
    · simpa [hu] using ⟨hne, b, rest, hs⟩

theorem create (hl : w.Locked) (hw : w.Wf) (a : A) : (w.create a).Locked := by
  have hblank := hw.blank w.fresh le_rfl
  have h := hl.update (t := w.fresh) (c := Co.start a) (s := w.shared) (r := w.running)
    (fun m => by simp [Co.start, hblank, Co.blank])
    (fun m b h => by simp [Co.start] at h)
    (fun m => by simp [Co.start])
    (fun m b h => by simp [hblank, Co.blank] at h)
  exact ⟨h.count, h.free, h.granted, h.single, h.waiting, h.handed⟩

theorem createFork (hl : w.Locked) (hw : w.Wf) (f : Option A) : (w.createFork f).Locked := by
  cases f with
  | none => exact hl
  | some a => exact hl.create hw a

omit [Inhabited R] in
theorem after (hl : w.Locked) (hw : (w.co t).status = .active)
    (hk : (w.co t).stack = .code (.act a) :: rest) (e : Effect σ L A Q R) (s : σ)
    (r : Option Nat) :
    World.Locked { w with
      shared := s, co := Function.update w.co t ((w.co t).after rest e), running := r } := by
  have hnone : ∀ m b, .granted m b ∉ rest := hl.not_granted hk (fun m b h => nomatch h)
  have hnew : ∀ m b, .granted m b ∉ ((w.co t).after rest e).stack := by
    intro m b
    cases ho : e.outcome <;> simp [Co.after, ho, hnone]
  refine hl.update ?_ ?_ ?_ ?_
  · intro m
    simp [leaveCount_after, hk]
  · intro m b h
    exact (hnew m b h).elim
  · intro m
    cases ho : e.outcome <;> simp [Co.after, ho, hw]
  · intro m b h
    simp [hk, hnone] at h

theorem perform (hl : w.Locked) (hw : w.Wf) (hr : w.running = some t)
    (hk : (w.co t).stack = .code (.act a) :: rest) (e : Effect σ L A Q R) :
    (w.perform t rest e).Locked := by
  have hact := hw.running t hr
  refine createFork (hl.after hact.2 hk e e.state _) ?_ e.fork
  have h := hw.update (t := t) (c := (w.co t).after rest e) (s := e.state)
    (r := if e.outcome.runs then some t else none) hact.1
    (fun m hm => (hw.not_queued hr m hm).elim) ?_
  · exact h
  · cases ho : e.outcome <;> simp [Co.after, Outcome.runs, ho, hact.2]

omit [Inhabited R] in
/-- The running coroutine enters a lock that is free or its own. -/
theorem enter (hl : w.Locked) {f : Frame L A} (hact : (w.co t).status = .active)
    (hk : (w.co t).stack = f :: rest)
    (hf : f = .code (.locked l a) ∧ ((w.lock l).owner = none ∨ (w.lock l).owner = some t) ∨
      f = .granted l a) : (w.enter t l a rest).Locked := by
  have hown : (w.lock l).owner = none ∨ (w.lock l).owner = some t := by
    rcases hf with ⟨-, h⟩ | rfl
    · exact h
    · have := (hl.granted t l a (by simp [hk])).2
      rw [hact] at this
      exact .inr (this.resolve_left (by simp))
  have hrest : ∀ m b, .granted m b ∉ rest := by
    rcases hf with ⟨rfl, -⟩ | rfl
    · exact hl.not_granted hk (fun m b h => nomatch h)
    · exact hl.single t l a rest hk
  have hcnt : ∀ m, leaveCount m (w.co t).stack = leaveCount m rest := by
    intro m
    rcases hf with ⟨rfl, -⟩ | rfl <;> simp [hk]
  have hother : ∀ u, u ≠ t → (w.lock l).owner ≠ some u := by
    intro u hu h
    rcases hown with h' | h' <;> rw [h'] at h
    · cases h
    · exact hu (Option.some.inj h).symm
  constructor
  case count =>
    intro m u
    have h := hl.count m u
    by_cases hu : u = t
    · subst hu
      by_cases hm : m = l
      · subst hm
        rw [hcnt] at h
        rcases hown with ho | ho
        · have := (hl.free m ho).1
          simp [World.enter, h, ho, this]
        · simp [World.enter, h, ho]
      · rw [hcnt] at h
        have hlm : l ≠ m := fun e => hm e.symm
        simpa [World.enter, hm, hlm] using h
    · by_cases hm : m = l
      · subst hm
        have htu : t ≠ u := fun e => hu e.symm
        simpa [World.enter, hu, hother u hu, htu] using h
      · simpa [World.enter, hu, hm] using h
  case free =>
    intro m h
    by_cases hm : m = l
    · subst hm
      simp [World.enter] at h
    · simpa [World.enter, hm] using hl.free m (by simpa [World.enter, hm] using h)
  case granted =>
    intro u m b h
    by_cases hu : u = t
    · subst hu
      simp [World.enter, hrest] at h
    · obtain ⟨htop, hst⟩ := hl.granted u m b (by simpa [World.enter, hu] using h)
      refine ⟨by simpa [World.enter, hu] using htop, ?_⟩
      by_cases hm : m = l
      · subst hm
        exact .inl (by simpa [World.enter, hu] using hst.resolve_right (hother u hu))
      · simpa [World.enter, hu, hm] using hst
  case single =>
    intro u m b rest' h
    by_cases hu : u = t
    · subst hu
      simp [World.enter] at h
    · exact hl.single u m b rest' (by simpa [World.enter, hu] using h)
  case waiting =>
    intro u m h
    by_cases hu : u = t
    · subst hu
      simp [World.enter, hact] at h
    · obtain ⟨hq, hs⟩ := hl.waiting u m (by simpa [World.enter, hu] using h)
      refine ⟨?_, by simpa [World.enter, hu] using hs⟩
      by_cases hm : m = l
      · subst hm
        simpa [World.enter] using hq
      · simpa [World.enter, hm] using hq
  case handed =>
    intro u m ho hr
    by_cases hm : m = l
    · subst hm
      simp [World.enter] at hr
    · have hold := hl.handed u m (by simpa [World.enter, hm] using ho)
        (by simpa [World.enter, hm] using hr)
      by_cases hu : u = t
      · subst hu
        obtain ⟨-, b, rest', hs⟩ := hold
        rw [hk] at hs
        cases hs
        rcases hf with ⟨h, -⟩ | h <;> cases h
        exact (hm rfl).elim
      · simpa [World.enter, hu] using hold

omit [Inhabited R] in
/-- The running coroutine queues for a lock that another one owns. -/
theorem block (hl : w.Locked) (hact : (w.co t).status = .active)
    (hk : (w.co t).stack = .code (.locked l a) :: rest)
    (hown : ¬((w.lock l).owner = none ∨ (w.lock l).owner = some t)) :
    (w.block t l a rest).Locked := by
  have hrest : ∀ m b, .granted m b ∉ rest := hl.not_granted hk (fun m b h => nomatch h)
  have hlock : ∀ m, ((w.block t l a rest).lock m).owner = (w.lock m).owner ∧
      ((w.block t l a rest).lock m).ref = (w.lock m).ref := by
    intro m
    by_cases hm : m = l
    · subst hm
      simp [World.block]
    · simp [World.block, hm]
  constructor
  case count =>
    intro m u
    rw [(hlock m).1, (hlock m).2, ← hl.count m u]
    by_cases hu : u = t
    · subst hu
      simp [World.block, hk]
    · simp [World.block, hu]
  case free =>
    intro m h
    rw [(hlock m).1] at h
    by_cases hm : m = l
    · subst hm
      exact (hown (.inl h)).elim
    · simpa [World.block, hm] using hl.free m h
  case granted =>
    intro u m b h
    by_cases hu : u = t
    · subst hu
      have hmb : m = l ∧ b = a := by simpa [World.block, hrest] using h
      obtain ⟨rfl, rfl⟩ := hmb
      exact ⟨⟨rest, by simp [World.block]⟩, .inl (by simp [World.block])⟩
    · rw [(hlock m).1]
      simpa [World.block, hu] using hl.granted u m b (by simpa [World.block, hu] using h)
  case single =>
    intro u m b rest' h
    by_cases hu : u = t
    · subst hu
      simp only [World.block, Function.update_self, List.cons.injEq] at h
      exact h.2 ▸ hrest
    · exact hl.single u m b rest' (by simpa [World.block, hu] using h)
  case waiting =>
    intro u m h
    by_cases hu : u = t
    · subst hu
      have hm : l = m := by simpa [World.block] using h
      subst hm
      exact ⟨by simp [World.block], a, rest, by simp [World.block]⟩
    · obtain ⟨hq, hs⟩ := hl.waiting u m (by simpa [World.block, hu] using h)
      refine ⟨?_, by simpa [World.block, hu] using hs⟩
      by_cases hm : m = l
      · subst hm
        simp [World.block, hq]
      · simpa [World.block, hm] using hq
  case handed =>
    intro u m ho hr
    rw [(hlock m).1] at ho
    rw [(hlock m).2] at hr
    have hold := hl.handed u m ho hr
    by_cases hu : u = t
    · subst hu
      obtain ⟨-, b, rest', hs⟩ := hold
      rw [hk] at hs
      cases hs
    · simpa [World.block, hu] using hold

/-- The running coroutine leaves a lock. -/
theorem exit (hl : w.Locked) (hw : w.Wf) (hr : w.running = some t)
    (hk : (w.co t).stack = .leave l :: rest) : (w.exit t l rest).Locked := by
  have hact := (hw.running t hr).2
  have hrest : ∀ m b, .granted m b ∉ rest := hl.not_granted hk (fun m b h => nomatch h)
  have hown : (w.lock l).owner = some t := hl.owner_of_leave (by simp [hk])
  have href : (w.lock l).ref = leaveCount l rest + 1 := by
    have h := hl.count l t
    rw [hk] at h
    simpa [hown] using h.symm
  have hcnt : ∀ m, m ≠ l → leaveCount m (w.co t).stack = leaveCount m rest := by
    intro m hm
    have hlm : l ≠ m := fun e => hm e.symm
    simp [hk, hlm]
  have hother : ∀ u, u ≠ t → leaveCount l (w.co u).stack = 0 := by
    intro u hu
    have htu : t ≠ u := fun e => hu e.symm
    rw [hl.count]
    simp [hown, htu]
  have hnot : ∀ u m b, .granted m b ∈ (w.co u).stack → u ≠ t := by
    rintro u m b h rfl
    simp [hk, hrest] at h
  by_cases hone : (w.lock l).ref ≤ 1
  · have hzero : leaveCount l rest = 0 := by omega
    cases hq : (w.lock l).queue with
    | nil =>
        have he : w.exit t l rest = { w with
            co := Function.update w.co t { w.co t with stack := rest },
            lock := Function.update w.lock l Lock.free } := by
          simp [World.exit, hone, hq]
        rw [he]
        constructor
        case count =>
          intro m u
          by_cases hm : m = l
          · subst hm
            by_cases hu : u = t
            · subst hu
              simp [hzero, Lock.free]
            · simp [hu, hother u hu, Lock.free]
          · by_cases hu : u = t
            · subst hu
              simpa [hm, hcnt m hm] using hl.count m u
            · simpa [hm, hu] using hl.count m u
        case free =>
          intro m h
          by_cases hm : m = l
          · subst hm
            simp [Lock.free]
          · simpa [hm] using hl.free m (by simpa [hm] using h)
        case granted =>
          intro u m b h
          by_cases hu : u = t
          · subst hu
            simp [hrest] at h
          · obtain ⟨htop, hst⟩ := hl.granted u m b (by simpa [hu] using h)
            refine ⟨by simpa [hu] using htop, ?_⟩
            by_cases hm : m = l
            · subst hm
              rcases hst with hst | hst
              · have := (hl.waiting u m hst).1
                simp [hq] at this
              · rw [hown] at hst
                exact (hu (Option.some.inj hst).symm).elim
            · simpa [hu, hm] using hst
        case single =>
          intro u m b rest' h
          by_cases hu : u = t
          · subst hu
            simp only [Function.update_self] at h
            exact (hrest m b (by simp [h])).elim
          · exact hl.single u m b rest' (by simpa [hu] using h)
        case waiting =>
          intro u m h
          by_cases hu : u = t
          · subst hu
            simp [hact] at h
          · obtain ⟨hmem, hs⟩ := hl.waiting u m (by simpa [hu] using h)
            by_cases hm : m = l
            · subst hm
              simp [hq] at hmem
            · simpa [hu, hm] using And.intro hmem hs
        case handed =>
          intro u m ho h0
          by_cases hm : m = l
          · subst hm
            simp [Lock.free] at ho
          · obtain ⟨hne, b, rest', hs⟩ := hl.handed u m (by simpa [hm] using ho)
              (by simpa [hm] using h0)
            have hu : u ≠ t := hnot u m b (by simp [hs])
            simpa [hu] using And.intro hne ⟨b, rest', hs⟩
    | cons u queue =>
        have hmem : u ∈ (w.lock l).queue := by simp [hq]
        have hut : u ≠ t := fun h => hw.not_queued hr l (h ▸ hmem)
        have hwait := hw.queued l u hmem
        obtain ⟨-, a, rest₁, hs₁⟩ := hl.waiting u l hwait
        have hnd := hw.nodup l
        rw [hq] at hnd
        have hex : w.exit t l rest = { w with
            co := Function.update
              (Function.update w.co t { w.co t with stack := rest }) u
              { w.co u with status := .runnable },
            lock := Function.update w.lock l
              { owner := some u, ref := 0, queue := queue } } := by
          simp [World.exit, hone, hq, hut]
        rw [hex]
        constructor
        case count =>
          intro m v
          by_cases hm : m = l
          · subst hm
            have h0 : leaveCount m (w.co v).stack = 0 ∨ v = t := by
              by_cases hv : v = t
              · exact .inr hv
              · exact .inl (hother v hv)
            by_cases hv : v = u
            · subst hv
              simp [hother v hut]
            · have huv : u ≠ v := fun e => hv e.symm
              by_cases hvt : v = t
              · subst hvt
                simp [hv, huv, hzero]
              · simp [hv, hvt, huv, hother v hvt]
          · by_cases hv : v = u
            · subst hv
              simpa [hm] using hl.count m v
            · by_cases hvt : v = t
              · subst hvt
                simpa [hm, hv, hcnt m hm] using hl.count m v
              · simpa [hm, hv, hvt] using hl.count m v
        case free =>
          intro m h
          by_cases hm : m = l
          · subst hm
            simp at h
          · simpa [hm] using hl.free m (by simpa [hm] using h)
        case granted =>
          intro v m b h
          by_cases hv : v = u
          · subst hv
            simp only [Function.update_self] at h ⊢
            obtain ⟨htop, -⟩ := hl.granted v m b h
            have hml : m = l ∧ b = a := by
              obtain ⟨rest', hs'⟩ := htop
              rw [hs₁] at hs'
              simp only [List.cons.injEq, Frame.granted.injEq] at hs'
              exact ⟨hs'.1.1.symm, hs'.1.2.symm⟩
            obtain ⟨rfl, rfl⟩ := hml
            exact ⟨htop, .inr (by simp)⟩
          · by_cases hvt : v = t
            · subst hvt
              simp [hv, hrest] at h
            · obtain ⟨htop, hst⟩ := hl.granted v m b (by simpa [hv, hvt] using h)
              refine ⟨by simpa [hv, hvt] using htop, ?_⟩
              by_cases hm : m = l
              · subst hm
                rcases hst with hst | hst
                · exact .inl (by simpa [hv, hvt] using hst)
                · rw [hown] at hst
                  exact (hvt (Option.some.inj hst).symm).elim
              · simpa [hv, hvt, hm] using hst
        case single =>
          intro v m b rest' h
          by_cases hv : v = u
          · subst hv
            exact hl.single v m b rest' (by simpa using h)
          · by_cases hvt : v = t
            · subst hvt
              simp only [ne_eq, hv, not_false_eq_true, Function.update_of_ne,
                Function.update_self] at h
              exact (hrest m b (by simp [h])).elim
            · exact hl.single v m b rest' (by simpa [hv, hvt] using h)
        case waiting =>
          intro v m h
          by_cases hv : v = u
          · subst hv
            simp at h
          · by_cases hvt : v = t
            · subst hvt
              simp [hv, hact] at h
            · obtain ⟨hin, hs⟩ := hl.waiting v m (by simpa [hv, hvt] using h)
              by_cases hm : m = l
              · subst hm
                have : v ∈ queue := by simpa [hq, hv] using hin
                simpa [hv, hvt] using And.intro this hs
              · simpa [hv, hvt, hm] using And.intro hin hs
        case handed =>
          intro v m ho h0
          by_cases hm : m = l
          · subst hm
            have hv : u = v := by simpa using ho
            subst hv
            exact ⟨by simp, a, rest₁, by simpa using hs₁⟩
          · obtain ⟨hne, b, rest', hs⟩ := hl.handed v m (by simpa [hm] using ho)
              (by simpa [hm] using h0)
            by_cases hv : v = u
            · subst hv
              exact ⟨by simp, b, rest', by simpa using hs⟩
            · have hvt : v ≠ t := hnot v m b (by simp [hs])
              simpa [hv, hvt] using And.intro hne ⟨b, rest', hs⟩
  · have hex : w.exit t l rest = { w with
        co := Function.update w.co t { w.co t with stack := rest },
        lock := Function.update w.lock l
          { w.lock l with ref := (w.lock l).ref - 1 } } := by
      simp [World.exit, hone]
    have hlock : ∀ m, ((w.exit t l rest).lock m).owner = (w.lock m).owner ∧
        ((w.exit t l rest).lock m).queue = (w.lock m).queue := by
      intro m
      rw [hex]
      by_cases hm : m = l
      · subst hm
        simp
      · simp [hm]
    constructor
    case count =>
      intro m u
      rw [(hlock m).1, hex]
      by_cases hm : m = l
      · subst hm
        by_cases hu : u = t
        · subst hu
          simp [hown, href]
        · have htu : t ≠ u := fun e => hu e.symm
          simp [hu, hown, htu, hother u hu]
      · by_cases hu : u = t
        · subst hu
          simpa [hm, hcnt m hm] using hl.count m u
        · simpa [hm, hu] using hl.count m u
    case free =>
      intro m h
      rw [(hlock m).1] at h
      rw [(hlock m).2]
      by_cases hm : m = l
      · subst hm
        rw [hown] at h
        cases h
      · rw [hex]
        simpa [hm] using hl.free m h
    case granted =>
      intro u m b h
      rw [(hlock m).1]
      rw [hex] at h ⊢
      by_cases hu : u = t
      · subst hu
        simp [hrest] at h
      · simpa [hu] using hl.granted u m b (by simpa [hu] using h)
    case single =>
      intro u m b rest' h
      rw [hex] at h
      by_cases hu : u = t
      · subst hu
        simp only [Function.update_self] at h
        exact (hrest m b (by simp [h])).elim
      · exact hl.single u m b rest' (by simpa [hu] using h)
    case waiting =>
      intro u m h
      rw [(hlock m).2]
      rw [hex] at h ⊢
      by_cases hu : u = t
      · subst hu
        simp [hact] at h
      · simpa [hu] using hl.waiting u m (by simpa [hu] using h)
    case handed =>
      intro u m ho h0
      rw [(hlock m).1] at ho
      by_cases hm : m = l
      · subst hm
        rw [hex] at h0
        simp only [Function.update_self] at h0
        omega
      · rw [hex] at h0 ⊢
        obtain ⟨hne, b, rest', hs⟩ := hl.handed u m ho (by simpa [hm] using h0)
        have hu : u ≠ t := hnot u m b (by simp [hs])
        simpa [hu] using And.intro hne ⟨b, rest', hs⟩

omit [Inhabited R] in
theorem wake (hl : w.Locked) (v : R) (hs : ∀ m, (w.co t).status ≠ .waiting m) :
    (w.wake t v).Locked :=
  hl.update (s := w.shared) (fun _ => rfl) (fun m _ _ => ⟨rfl, hs m⟩) (fun m => by simp)
    (fun _ _ _ => rfl)

omit [Inhabited R] in
theorem answer (hl : w.Locked) (s : σ) (r : R) (hs : ∀ m, (w.co t).status ≠ .waiting m) :
    (w.answer t s r).Locked :=
  hl.update (fun _ => rfl) (fun m _ _ => ⟨rfl, hs m⟩) (fun m => by simp) (fun _ _ _ => rfl)

variable {P : Program σ L A Q R C E}

/-- Every transition keeps locks and stacks in agreement. -/
theorem step {e : Event A C E} (hl : w.Locked) (hw : w.Wf) (h : Step P w e w') :
    w'.Locked := by
  cases h with
  | spawn a idle => exact hl.create hw a
  | woken t idle hs => exact hl.wake _ (by simp [hs])
  | returned t r idle hs => exact hl.wake _ (by simp [hs])
  | finish t hr hk => exact ⟨hl.count, hl.free, hl.granted, hl.single, hl.waiting, hl.handed⟩
  | perform t a rest hr hk => exact hl.perform hw hr hk _
  | enter t l a rest hr hk ho => exact hl.enter (hw.running t hr).2 hk (.inl ⟨rfl, ho⟩)
  | block t l a rest hr hk ho => exact hl.block (hw.running t hr).2 hk ho
  | grant t l a rest hr hk => exact hl.enter (hw.running t hr).2 hk (.inr rfl)
  | exit t l rest hr hk => exact hl.exit hw hr hk
  | serve t c q s r hs ha => exact hl.answer s r (by simp [hs])
  | env e s he => exact ⟨hl.count, hl.free, hl.granted, hl.single, hl.waiting, hl.handed⟩

end World.Locked

/-- In every world of a run locks and stacks agree. -/
theorem Reach.locked [Inhabited R] {P : Program σ L A Q R C E} {ok : Guard σ L A Q R C E}
    {w : World σ L A Q R} {s : σ} (h : Reach P ok (World.init s) w) : w.Locked := by
  induction h with
  | refl => exact .init s
  | step hw _ hs ih => exact ih.step hw.wf hs

/-! ## Acts that run under a lock -/

/-- Which acts run under which lock: an act hands its lock on to the acts it
pushes, and a {lit}`locked` call enters the lock of its act. -/
structure Program.Critical (P : Program σ L A Q R C E) (crit : A → Option L)
    (entry : A → Prop) : Prop where
  act : ∀ t a v s b, .act b ∈ (P.exec t a v s).push → crit b = none ∨ crit b = crit a
  locked : ∀ t a v s l b, .locked l b ∈ (P.exec t a v s).push → crit b = some l ∧ entry b
  fork : ∀ t a v s b, (P.exec t a v s).fork = some b → crit b = none

/-- Below a critical act its lock is left. -/
def Guarded (crit : A → Option L) (entry : A → Prop) : List (Frame L A) → Prop
  | [] => True
  | .code (.act a) :: rest =>
      (∀ l, crit a = some l → .leave l ∈ rest) ∧ Guarded crit entry rest
  | .code (.locked l a) :: rest => (crit a = some l ∧ entry a) ∧ Guarded crit entry rest
  | .granted l a :: rest => (crit a = some l ∧ entry a) ∧ Guarded crit entry rest
  | .leave _ :: rest => Guarded crit entry rest

section Critical

variable {crit : A → Option L} {entry : A → Prop} {P : Program σ L A Q R C E}

omit [DecidableEq L] in
theorem Guarded.push {a : A} {rest : List (Frame L A)} {cs : List (Code L A)}
    (hrest : Guarded crit entry rest) (ha : ∀ l, crit a = some l → .leave l ∈ rest)
    (hact : ∀ b, .act b ∈ cs → crit b = none ∨ crit b = crit a)
    (hlocked : ∀ l b, .locked l b ∈ cs → crit b = some l ∧ entry b) :
    Guarded crit entry (cs.map Frame.code ++ rest) := by
  induction cs with
  | nil => exact hrest
  | cons c cs ih =>
      have htail := ih (fun b hb => hact b (by simp [hb])) (fun l b hb => hlocked l b (by simp [hb]))
      cases c with
      | act b =>
          refine ⟨fun l hl => ?_, htail⟩
          rcases hact b (by simp) with h | h
          · rw [h] at hl
            cases hl
          · exact List.mem_append_right _ (ha l (h ▸ hl))
      | locked l b => exact ⟨hlocked l b (by simp), htail⟩

omit [DecidableEq L] in
theorem Guarded.leaves (stack : List (Frame L A)) :
    Guarded crit entry (stack.filter Frame.isLeave) := by
  induction stack with
  | nil => trivial
  | cons f stack ih => cases f <;> simpa [List.filter_cons, Frame.isLeave, Guarded] using ih

omit [DecidableEq L] in
/-- A pending critical act that no {lit}`locked` call starts has its lock below
it. -/
theorem Guarded.leave_mem {stack : List (Frame L A)} {a : A} {l : L}
    (h : Guarded crit entry stack) (ha : a ∈ stack.filterMap Frame.toAct)
    (hc : crit a = some l) (he : ¬entry a) : .leave l ∈ stack := by
  induction stack with
  | nil => simp at ha
  | cons f stack ih =>
      match f, h with
      | .code (.act b), h =>
          rcases List.mem_cons.mp ha with rfl | ha
          · exact List.mem_cons_of_mem _ (h.1 l hc)
          · exact List.mem_cons_of_mem _ (ih h.2 ha)
      | .code (.locked m b), h =>
          rcases List.mem_cons.mp ha with rfl | ha
          · exact (he h.1.2).elim
          · exact List.mem_cons_of_mem _ (ih h.2 ha)
      | .granted m b, h =>
          rcases List.mem_cons.mp ha with rfl | ha
          · exact (he h.1.2).elim
          · exact List.mem_cons_of_mem _ (ih h.2 ha)
      | .leave m, h =>
          exact List.mem_cons_of_mem _ (ih h ha)

variable [Inhabited R] {ok : Guard σ L A Q R C E} {w : World σ L A Q R} {s : σ}

omit [DecidableEq L] in
theorem World.guarded_createFork {w : World σ L A Q R} {f : Option A}
    (h : ∀ t, Guarded crit entry (w.co t).stack) (hf : ∀ a, f = some a → crit a = none)
    (t : Nat) : Guarded crit entry ((w.createFork f).co t).stack := by
  cases f with
  | none => exact h t
  | some a =>
      by_cases ht : t = w.fresh
      · subst ht
        simp [World.createFork, World.create, Co.start, Guarded, hf a rfl]
      · simpa [World.createFork, World.create, ht] using h t

theorem Reach.guarded (hP : P.Critical crit entry) (h : Reach P ok (World.init s) w)
    (hok : ∀ w a, ok w (.spawn a) → crit a = none) (t : Nat) :
    Guarded crit entry (w.co t).stack := by
  induction h generalizing t with
  | refl => trivial
  | @step w w' e hw he hs ih =>
      have hupdate : ∀ (u : Nat) (c : Co L A Q R), Guarded crit entry c.stack →
          ∀ v, Guarded crit entry (Function.update w.co u c v).stack := by
        intro u c hc v
        by_cases hv : v = u
        · subst hv
          simpa using hc
        · simpa [hv] using ih v
      cases hs with
      | spawn a idle =>
          exact World.guarded_createFork (f := some a) ih
            (fun b hb => by cases hb; exact hok w a he) t
      | woken u idle hs => exact hupdate u { w.co u with status := .active } (ih u) t
      | returned u r idle hs => exact hupdate u { w.co u with status := .active, val := r } (ih u) t
      | finish u hr hk => exact ih t
      | perform u a rest hr hk =>
          have hu := ih u
          rw [hk] at hu
          refine World.guarded_createFork (fun v => ?_) (hP.fork u a _ _) t
          refine hupdate u _ ?_ v
          have hpush : Guarded crit entry
              ((P.exec u a (w.co u).val w.shared).push.map Frame.code ++ rest) :=
            hu.2.push hu.1 (hP.act u a _ _) (hP.locked u a _ _)
          cases ho : (P.exec u a (w.co u).val w.shared).outcome with
          | ret x => simpa [Co.after, ho] using hpush
          | call q => simpa [Co.after, ho] using hpush
          | raise => simpa [Co.after, ho] using Guarded.leaves rest
      | enter u l a rest hr hk ho =>
          have hu := ih u
          rw [hk] at hu
          have hnew : Guarded crit entry (.code (.act a) :: .leave l :: rest) := by
            refine ⟨fun m hm => ?_, hu.2⟩
            rw [hu.1.1] at hm
            cases hm
            simp
          exact hupdate u { w.co u with stack := .code (.act a) :: .leave l :: rest } hnew t
      | block u l a rest hr hk ho =>
          have hu := ih u
          rw [hk] at hu
          have hnew : Guarded crit entry (.granted l a :: rest) := ⟨hu.1, hu.2⟩
          exact hupdate u { w.co u with stack := .granted l a :: rest, status := .waiting l }
            hnew t
      | grant u l a rest hr hk =>
          have hu := ih u
          rw [hk] at hu
          have hnew : Guarded crit entry (.code (.act a) :: .leave l :: rest) := by
            refine ⟨fun m hm => ?_, hu.2⟩
            rw [hu.1.1] at hm
            cases hm
            simp
          exact hupdate u { w.co u with stack := .code (.act a) :: .leave l :: rest } hnew t
      | exit u l rest hr hk =>
          have hu := ih u
          rw [hk] at hu
          have hone := hupdate u { w.co u with stack := rest } hu
          simp only [World.exit]
          split
          · split
            · exact hone t
            · rename_i v queue hq
              by_cases hv : t = v
              · subst hv
                simpa using hone t
              · simpa [hv] using hone t
          · exact hone t
      | serve u c q s r hs ha => exact hupdate u { w.co u with status := .answered r } (ih u) t
      | env e s hs => exact ih t

/-- A coroutine with a critical act pending owns its lock. -/
theorem Reach.owner_of_pending (hP : P.Critical crit entry)
    (h : Reach P ok (World.init s) w) (hok : ∀ w a, ok w (.spawn a) → crit a = none)
    {t : Nat} {a : A} {l : L} (ha : a ∈ w.view.pending t) (hc : crit a = some l)
    (he : ¬entry a) : (w.lock l).owner = some t :=
  h.locked.owner_of_leave ((h.guarded hP hok t).leave_mem ha hc he)

/-- The running coroutine owns the lock of its act. -/
theorem Reach.owner_of_running (hP : P.Critical crit entry)
    (h : Reach P ok (World.init s) w) (hok : ∀ w a, ok w (.spawn a) → crit a = none)
    {t : Nat} {a : A} {l : L} {rest : List (Frame L A)}
    (hk : (w.co t).stack = .code (.act a) :: rest) (hc : crit a = some l) :
    (w.lock l).owner = some t := by
  have hg := h.guarded hP hok t
  rw [hk] at hg
  exact h.locked.owner_of_leave (by simp [hk, hg.1 l hc])

/-- Critical acts of one lock are pending in one coroutine only. -/
theorem Reach.critical_unique (hP : P.Critical crit entry)
    (h : Reach P ok (World.init s) w) (hok : ∀ w a, ok w (.spawn a) → crit a = none)
    {t u : Nat} {a b : A} {l : L} (ha : a ∈ w.view.pending t) (hb : b ∈ w.view.pending u)
    (hca : crit a = some l) (hcb : crit b = some l) (hea : ¬entry a) (heb : ¬entry b) :
    t = u := by
  have ht := h.owner_of_pending hP hok ha hca hea
  rw [h.owner_of_pending hP hok hb hcb heb] at ht
  exact (Option.some.inj ht).symm

end Critical

end Lock

end Coroutine
