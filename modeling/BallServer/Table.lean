import Mathlib.Data.Finset.Sort
import Mathlib.Data.List.Perm.Basic
import Mathlib.Data.List.Sort

/-!
# Lua tables as finite maps

A table that is indexed by numbers is a finite map.  A loop over {lit}`pairs` visits its
keys in some order; a list that is sorted by a number that tells its elements apart does
not depend on the order it was collected in.

Main results:

- Structure {lit}`Table` with {lit}`set` and {lit}`erase`.
- Theorem {lit}`sortBy_eq_of_perm`: sorting forgets the order of the input.
- Theorem {lit}`foldl_rel_of_perm`: so does a loop whose turns can be swapped.
- Theorem {lit}`existsUnique_turn`: what a loop only loses it loses in one turn.
-/

namespace BallServer

/-- A finite map from numbers. -/
structure Table (α : Type) where
  get : Nat → Option α
  keys : Finset Nat
  mem_keys : ∀ k, k ∈ keys ↔ (get k).isSome

namespace Table

variable {α : Type}

/-- The empty table. -/
def empty : Table α where
  get := fun _ => none
  keys := ∅
  mem_keys := by simp

/-- {lit}`t[k] = v`. -/
def set (t : Table α) (k : Nat) (v : α) : Table α where
  get := Function.update t.get k (some v)
  keys := insert k t.keys
  mem_keys i := by
    by_cases h : i = k
    · subst h
      simp
    · simp [h, t.mem_keys]

/-- {lit}`t[k] = nil`. -/
def erase (t : Table α) (k : Nat) : Table α where
  get := Function.update t.get k none
  keys := t.keys.erase k
  mem_keys i := by
    by_cases h : i = k
    · subst h
      simp
    · simp [h, t.mem_keys]

@[simp] theorem get_empty (i : Nat) : (empty : Table α).get i = none := rfl

@[simp] theorem keys_empty : (empty : Table α).keys = ∅ := rfl

@[simp] theorem get_set (t : Table α) (k i : Nat) (v : α) :
    (t.set k v).get i = if i = k then some v else t.get i := by
  simp [set, Function.update_apply]

@[simp] theorem get_erase (t : Table α) (k i : Nat) :
    (t.erase k).get i = if i = k then none else t.get i := by
  simp [erase, Function.update_apply]

@[simp] theorem keys_set (t : Table α) (k : Nat) (v : α) : (t.set k v).keys = insert k t.keys :=
  rfl

@[simp] theorem keys_erase (t : Table α) (k : Nat) : (t.erase k).keys = t.keys.erase k := rfl

theorem mem_keys_iff {t : Table α} {k : Nat} : k ∈ t.keys ↔ ∃ v, t.get k = some v := by
  rw [t.mem_keys, Option.isSome_iff_exists]

theorem get_eq_none {t : Table α} {k : Nat} (hk : k ∉ t.keys) : t.get k = none := by
  rw [t.mem_keys] at hk
  simpa using hk

theorem ext_get {t t' : Table α} (h : ∀ k, t.get k = t'.get k) : t = t' := by
  obtain ⟨get, keys, hk⟩ := t
  obtain ⟨get', keys', hk'⟩ := t'
  obtain rfl : get = get' := funext h
  have : keys = keys' := by
    ext k
    rw [hk, hk']
  subst this
  rfl

end Table

/-! ## Sorting -/

section Sorting

variable {α : Type} (key : α → Nat)

/-- {lit}`table.sort` by a number. -/
def sortBy (l : List α) : List α :=
  l.mergeSort fun a b => decide (key a ≤ key b)

theorem sortBy_perm (l : List α) : (sortBy key l).Perm l :=
  List.mergeSort_perm l _

theorem mem_sortBy {l : List α} {a : α} : a ∈ sortBy key l ↔ a ∈ l :=
  (sortBy_perm key l).mem_iff

theorem sortBy_pairwise (l : List α) : (sortBy key l).Pairwise fun a b => key a ≤ key b := by
  have h : (l.mergeSort fun a b => decide (key a ≤ key b)).Pairwise
      fun a b => decide (key a ≤ key b) = true := by
    apply List.pairwise_mergeSort
    · intro a b c hab hbc
      simp only [decide_eq_true_eq] at *
      omega
    · intro a b
      simp only [Bool.or_eq_true, decide_eq_true_eq]
      omega
  exact h.imp of_decide_eq_true

theorem sortBy_eq_of_perm {l l' : List α} (h : l.Perm l')
    (hkey : ∀ a ∈ l, ∀ b ∈ l, key a = key b → a = b) : sortBy key l = sortBy key l' := by
  have hperm : (sortBy key l).Perm (sortBy key l') :=
    (sortBy_perm key l).trans (h.trans (sortBy_perm key l').symm)
  refine hperm.eq_of_pairwise ?_ (sortBy_pairwise key l) (sortBy_pairwise key l')
  intro a b ha hb hab hba
  have ha := (mem_sortBy key).mp ha
  have hb := h.mem_iff.mpr ((mem_sortBy key).mp hb)
  exact hkey a ha b hb (Nat.le_antisymm hab hba)

/-- Sorted numbers. -/
theorem sortBy_id_eq {l l' : List Nat} (h : l.Perm l') : sortBy id l = sortBy id l' :=
  sortBy_eq_of_perm id h fun _ _ _ _ heq => heq

end Sorting

/-! ## Loops in any order -/

section Loops

variable {σ α : Type} {R : σ → σ → Prop} {f : σ → α → σ}

/-- Two runs of a loop whose body respects a relation. -/
theorem foldl_rel {g : σ → α → σ} {l : List α}
    (hstep : ∀ a ∈ l, ∀ s s', R s s' → R (f s a) (g s' a)) {s s' : σ} (h : R s s') :
    R (l.foldl f s) (l.foldl g s') := by
  induction l generalizing s s' with
  | nil => exact h
  | cons a l ih =>
      exact ih (fun b hb => hstep b (List.mem_cons_of_mem a hb)) (hstep a (by simp) s s' h)

/-- Two runs of a loop in different orders, when the turns of the loop can be swapped. -/
theorem foldl_rel_of_perm {l l' : List α} (hp : l.Perm l') (hrefl : ∀ s, R s s)
    (htrans : ∀ s₁ s₂ s₃, R s₁ s₂ → R s₂ s₃ → R s₁ s₃)
    (hstep : ∀ a ∈ l, ∀ s s', R s s' → R (f s a) (f s' a))
    (hswap : ∀ a ∈ l, ∀ b ∈ l, ∀ s s', R s s' → R (f (f s a) b) (f (f s' b) a)) {s s' : σ}
    (h : R s s') : R (l.foldl f s) (l'.foldl f s') := by
  induction hp generalizing s s' with
  | nil => exact h
  | cons a hp ih =>
      exact ih (fun b hb => hstep b (List.mem_cons_of_mem a hb))
        (fun b hb c hc => hswap b (List.mem_cons_of_mem a hb) c (List.mem_cons_of_mem a hc))
        (hstep a (by simp) s s' h)
  | swap a b l =>
      refine foldl_rel (fun c hc => hstep c ?_) (hswap b (by simp) a (by simp) s s' h)
      exact List.mem_cons_of_mem b (List.mem_cons_of_mem a hc)
  | trans hp _ ih ih' =>
      refine htrans _ _ _ (ih hstep hswap h) (ih' (fun a ha => hstep a (hp.mem_iff.mpr ha))
        (fun a ha b hb => hswap a (hp.mem_iff.mpr ha) b (hp.mem_iff.mpr hb)) (hrefl s'))

end Loops

/-! ## Loops that lose something -/

section Turns

variable {σ α : Type} [DecidableEq α] {P : σ → Prop}

omit [DecidableEq α] in
/-- What holds after a loop that never gains it held before. -/
theorem foldl_gains {g : σ → α → σ} (hP : ∀ s a, P (g s a) → P s) (l : List α) (s : σ)
    (h : P (l.foldl g s)) : P s := by
  induction l generalizing s with
  | nil => exact h
  | cons a l ih => exact hP s a (ih (g s a) h)

/-- What is lost in a turn is lost after the loop. -/
theorem lost_of_turn {g : σ → α → σ} (hP : ∀ s a, P (g s a) → P s) {l : List α} {s : σ} {a : α}
    (ha : a ∈ l) (hlost : ¬ P (g ((l.takeWhile (· ≠ a)).foldl g s) a)) : ¬ P (l.foldl g s) := by
  induction l generalizing s with
  | nil => cases ha
  | cons b l ih =>
      by_cases hab : a = b
      · subst hab
        rw [List.takeWhile_cons_of_neg (by simp), List.foldl_nil] at hlost
        exact fun h => hlost (foldl_gains hP l _ h)
      · rw [List.takeWhile_cons_of_pos (by simpa using Ne.symm hab), List.foldl_cons] at hlost
        exact ih (List.mem_of_ne_of_mem hab ha) hlost

/-- What a loop loses and never gains it loses in exactly one turn. -/
theorem existsUnique_turn {g : σ → α → σ} (hP : ∀ s a, P (g s a) → P s) {l : List α}
    (hl : l.Nodup) {s : σ} (hs : P s) (hlost : ¬ P (l.foldl g s)) :
    ∃! a, a ∈ l ∧ P ((l.takeWhile (· ≠ a)).foldl g s) ∧
      ¬ P (g ((l.takeWhile (· ≠ a)).foldl g s) a) := by
  induction l generalizing s with
  | nil => exact absurd hs hlost
  | cons b l ih =>
      obtain ⟨hb, hl⟩ := List.nodup_cons.mp hl
      have hlater : ∀ {a}, a ≠ b →
          ((b :: l).takeWhile (· ≠ a)).foldl g s = (l.takeWhile (· ≠ a)).foldl g (g s b) := by
        intro a ha
        rw [List.takeWhile_cons_of_pos (by simpa using ha.symm), List.foldl_cons]
      have hfirst : ((b :: l).takeWhile (· ≠ b)).foldl g s = s := by
        rw [List.takeWhile_cons_of_neg (by simp), List.foldl_nil]
      by_cases hturn : P (g s b)
      · -- it is lost later
        obtain ⟨a, ⟨hal, ha⟩, huniq⟩ := ih hl hturn hlost
        have hab : a ≠ b := fun h => hb (h ▸ hal)
        refine ⟨a, ⟨List.mem_cons_of_mem b hal, ?_⟩, ?_⟩
        · rw [hlater hab]
          exact ha
        · rintro a' ⟨hal', ha'⟩
          by_cases hab' : a' = b
          · subst hab'
            rw [hfirst] at ha'
            exact absurd hturn ha'.2
          · rw [hlater hab'] at ha'
            exact huniq a' ⟨List.mem_of_ne_of_mem hab' hal', ha'⟩
      · -- it is lost in the first turn
        refine ⟨b, ⟨List.mem_cons_self, ?_⟩, ?_⟩
        · rw [hfirst]
          exact ⟨hs, hturn⟩
        · rintro a' ⟨-, ha', -⟩
          by_contra hab'
          rw [hlater hab'] at ha'
          exact hturn (foldl_gains hP _ _ ha')

end Turns

end BallServer
