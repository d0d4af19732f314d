import BallServer.Coroutine.View

/-!
# Counting what remains to be done

Give every act a weight {lit}`f` and every request a weight {lit}`g`.  The load of
a view is the total weight of all acts that are pending and all requests in
flight.  An invariant that bounds a load by one says that an action happens at
most once, whichever coroutine comes to it first.

Main results:

- Definition {lit}`View.load`.
- Theorems {lit}`View.load_perform`, {lit}`View.load_create` and
  {lit}`View.load_answer`: how a change of the view moves the load.
- Theorem {lit}`View.weight_le_load`: a bound on the load bounds every act.
- Theorem {lit}`Reach.potential`: a potential of the shared state plus the load never
  grows when no act can make it grow.
-/

namespace Coroutine

open Finset

namespace View

variable {σ L A Q R : Type} [Inhabited R]

/-- The weight of what one coroutine has to do and is waiting for. -/
def weight (f : A → Nat) (g : Q → Nat) (pending : List A) (flight : Option Q) : Nat :=
  (pending.map f).sum + (flight.map g).getD 0

@[simp] theorem weight_nil_none (f : A → Nat) (g : Q → Nat) : weight f g [] none = 0 := rfl

@[simp] theorem weight_cons (f : A → Nat) (g : Q → Nat) (a : A) (l : List A)
    (q : Option Q) : weight f g (a :: l) q = f a + weight f g l q := by
  simp [weight, Nat.add_assoc]

@[simp] theorem weight_some (f : A → Nat) (g : Q → Nat) (l : List A) (q : Q) :
    weight f g l (some q) = weight f g l none + g q := by
  simp [weight]

/-- The total weight of all pending acts and of all requests in flight. -/
def load (v : View σ A Q R) (f : A → Nat) (g : Q → Nat) : Nat :=
  ∑ t ∈ range v.fresh, weight f g (v.pending t) (v.flight t)

variable {v : View σ A Q R} {f f' : A → Nat} {g g' : Q → Nat} {t u : Nat}

omit [Inhabited R] in
/-- Splitting off one coroutine. -/
theorem load_eq_add (v : View σ A Q R) (f : A → Nat) (g : Q → Nat) (ht : t < v.fresh) :
    v.load f g = weight f g (v.pending t) (v.flight t) +
      ∑ u ∈ (range v.fresh).erase t, weight f g (v.pending u) (v.flight u) := by
  rw [load, ← Finset.add_sum_erase _ _ (mem_range.mpr ht)]

omit [Inhabited R] in
/-- Two views that differ in one coroutine. -/
theorem load_update (f : A → Nat) (g : Q → Nat) (v v' : View σ A Q R)
    (hfresh : v'.fresh = v.fresh) (ht : t < v.fresh)
    (hp : ∀ u, u ≠ t → v'.pending u = v.pending u)
    (hf : ∀ u, u ≠ t → v'.flight u = v.flight u) :
    v'.load f g + weight f g (v.pending t) (v.flight t) =
      v.load f g + weight f g (v'.pending t) (v'.flight t) := by
  have hsum : ∑ u ∈ (range v.fresh).erase t, weight f g (v'.pending u) (v'.flight u) =
      ∑ u ∈ (range v.fresh).erase t, weight f g (v.pending u) (v.flight u) := by
    refine sum_congr rfl fun u hu => ?_
    have hne : u ≠ t := (mem_erase.mp hu).1
    rw [hp u hne, hf u hne]
  rw [load_eq_add v f g ht, load_eq_add v' f g (hfresh ▸ ht), hfresh, hsum]
  omega

/-- A new coroutine brings the weight of its act. -/
theorem load_create (v : View σ A Q R) (f : A → Nat) (g : Q → Nat) (a : A) :
    (v.create a).load f g = v.load f g + f a := by
  have hfresh : (v.create a).fresh = v.fresh + 1 := rfl
  rw [load, hfresh, sum_range_succ, load]
  congr 1
  · refine sum_congr rfl fun u hu => ?_
    have hne : u ≠ v.fresh := (mem_range.mp hu).ne
    simp [create, hne]
  · simp [create]

/-- An act takes its own weight away and brings those of what it pushes, of its
request and of its fork. -/
theorem load_perform (f : A → Nat) (g : Q → Nat) {a : A} {rest : List A}
    (e : Effect σ L A Q R) (ht : t < v.fresh) (hp : v.pending t = a :: rest)
    (hf : v.flight t = none) :
    (v.perform t rest e).load f g + weight f g (a :: rest) none =
      v.load f g + weight f g (pendingAfter rest e) (flightAfter e.outcome) +
        (e.fork.map f).getD 0 := by
  have hexec : (v.execute t rest e).load f g + weight f g (v.pending t) (v.flight t) =
      v.load f g + weight f g (pendingAfter rest e) (flightAfter e.outcome) := by
    have h := load_update f g v (v.execute t rest e) rfl ht
      (fun u hu => by simp [execute, hu]) (fun u hu => by simp [execute, hu])
    simpa [execute] using h
  rw [hp, hf] at hexec
  rw [perform]
  cases e.fork with
  | none => simpa [createFork] using hexec
  | some b =>
      rw [createFork, load_create]
      simp only [Option.map_some, Option.getD_some]
      omega

omit [Inhabited R] in
/-- An answer takes the weight of its request away. -/
theorem load_answer (f : A → Nat) (g : Q → Nat) {q : Q} (hq : v.flight t = some q)
    (ht : t < v.fresh) (s : σ) (r : R) : (v.answer t s r).load f g + g q = v.load f g := by
  have h := load_update f g v (v.answer t s r) rfl ht
    (fun u _ => rfl) (fun u hu => by simp [answer, hu])
  have hflight : (v.answer t s r).flight t = none := by simp [answer]
  rw [hq, weight_some, hflight, pending_answer] at h
  omega

omit [Inhabited R] in
theorem weight_mem_le {a : A} {l : List A} (q : Option Q) (ha : a ∈ l) :
    f a ≤ weight f g l q := by
  have := List.le_sum_of_mem (List.mem_map_of_mem (f := f) ha)
  rw [weight]
  omega

omit [Inhabited R] in
theorem coroutine_le_load (hv : v.Blank) (t : Nat) :
    weight f g (v.pending t) (v.flight t) ≤ v.load f g := by
  by_cases ht : t < v.fresh
  · rw [load_eq_add v f g ht]
    omega
  · simp [hv.pending t (by omega), hv.flight t (by omega)]

omit [Inhabited R] in
/-- A pending act is part of the load. -/
theorem weight_le_load (hv : v.Blank) {a : A} (ha : a ∈ v.pending t) :
    f a ≤ v.load f g :=
  (weight_mem_le _ ha).trans (coroutine_le_load hv t)

omit [Inhabited R] in
/-- Two coroutines together are part of the load. -/
theorem coroutine_add_le_load (hv : v.Blank) (hne : t ≠ u) :
    weight f g (v.pending t) (v.flight t) + weight f g (v.pending u) (v.flight u) ≤
      v.load f g := by
  by_cases ht : t < v.fresh
  · rw [load_eq_add v f g ht]
    by_cases hu : u < v.fresh
    · have hmem : u ∈ (range v.fresh).erase t := mem_erase.mpr ⟨hne.symm, mem_range.mpr hu⟩
      have := Finset.single_le_sum
        (f := fun u => weight f g (v.pending u) (v.flight u)) (fun _ _ => Nat.zero_le _) hmem
      omega
    · simp [hv.pending u (by omega), hv.flight u (by omega)]
  · have := coroutine_le_load (f := f) (g := g) hv u
    simpa [hv.pending t (by omega), hv.flight t (by omega)] using this

end View

/-! ## Potentials -/

section Potential

variable {σ L A Q R C E : Type} [Inhabited R] [DecidableEq L]

/-- The load an act brings along: what it pushes, what it asks for and what it
forks. -/
def Effect.load (f : A → Nat) (g : Q → Nat) (e : Effect σ L A Q R) : Nat :=
  (e.push.map fun c => f c.toAct).sum + ((View.flightAfter e.outcome).map g).getD 0 +
    (e.fork.map f).getD 0

omit [Inhabited R] [DecidableEq L] in
/-- After an error nothing of the coroutine remains. -/
theorem View.weight_pendingAfter_le (f : A → Nat) (g : Q → Nat) (rest : List A)
    (e : Effect σ L A Q R) :
    weight f g (pendingAfter rest e) (flightAfter e.outcome) + (e.fork.map f).getD 0 ≤
      e.load f g + weight f g rest none := by
  cases ho : e.outcome <;>
    simp [pendingAfter, flightAfter, weight, Effect.load, ho, Function.comp_def] <;> omega

variable {P : Program σ L A Q R C E} {ok : Guard σ L A Q R C E} {s₀ : σ} {w : World σ L A Q R}

/-- A potential of the shared state plus the load never grows: messages bring no
load, no act brings more than it takes away, and neither answers nor the
surroundings raise the potential. -/
theorem Reach.potential (φ : σ → Nat) (f : A → Nat) (g : Q → Nat)
    (h : Reach P ok (World.init s₀) w) (hspawn : ∀ w a, ok w (.spawn a) → f a = 0)
    (hexec : ∀ w t a rest, Reach P ok (World.init s₀) w → w.view.pending t = a :: rest →
      φ (P.exec t a (w.view.val t) w.view.shared).state +
        (P.exec t a (w.view.val t) w.view.shared).load f g ≤ φ w.view.shared + f a)
    (hserve : ∀ w t q c s r, Reach P ok (World.init s₀) w → w.view.flight t = some q →
      P.serve t q c w.view.shared = some (s, r) → φ s ≤ φ w.view.shared + g q)
    (henv : ∀ w e s, Reach P ok (World.init s₀) w → P.env e w.view.shared = some s →
      φ s ≤ φ w.view.shared) :
    φ w.view.shared + w.view.load f g ≤ φ s₀ := by
  refine h.view_invariant (fun v => φ v.shared + v.load f g ≤ φ s₀) ?_ ?_
  · simp [View.load, World.view, World.init]
  · intro w e v hw hinv hok hstep
    cases hstep with
    | same => exact hinv
    | spawn a =>
        rw [View.shared_create, View.load_create, hspawn w a hok]
        exact hinv
    | perform t a rest stack ht hr hk hp hf =>
        have hload := View.load_perform f g (P.exec t a (w.view.val t) w.view.shared) ht hp hf
        have hafter := View.weight_pendingAfter_le f g rest
          (P.exec t a (w.view.val t) w.view.shared)
        have hpot := hexec w t a rest hw hp
        rw [View.shared_perform]
        rw [View.weight_cons] at hload
        omega
    | serve t c q s r hq ha =>
        have ht : t < w.view.fresh := by
          by_contra hge
          rw [hw.wf.view_blank.flight t (by omega)] at hq
          cases hq
        have hload := View.load_answer f g hq ht s r
        have hpot := hserve w t q c s r hw hq ha
        rw [View.shared_answer]
        omega
    | env e s he =>
        have hpot := henv w e s hw he
        have hload : View.load { w.view with shared := s } f g = w.view.load f g := rfl
        rw [hload]
        exact le_trans (Nat.add_le_add_right hpot _) hinv

end Potential

end Coroutine
