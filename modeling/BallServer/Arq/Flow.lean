import Mathlib.Data.List.Infix
import Mathlib.Logic.Relation
import Mathlib.Data.Set.Insert

/-!
# Automatic repeat request

A sender numbers its items and holds each until it is told that the item has arrived; a
receiver puts the items that arrive in order.  Between them is a network that may lose,
repeat and reorder whatever was given to it: all that is ever sent stays in it, and any of
it can arrive at any time.

The model is one direction of such a link, for items of any type and for windows and
timers of any kind: a step may send again whatever is held, and may forget whatever the
network says has arrived.

Main results:

- Structure {lit}`Flow` and relation {lit}`Flow.Step`: one direction of a link.
- Theorem {lit}`Flow.Sound.step`: what every step keeps.
- Theorem {lit}`Flow.Sound.taken_in_order`: what is handed out is what was given, in order.
- Theorem {lit}`Flow.Sound.arrived_of_idle`: when the sender holds nothing, all has arrived.
-/

namespace BallServer.Arq

/-- One direction of a link.  {lit}`data`, {lit}`acks` and {lit}`unas` are what the
network has ever been given: numbered items, numbers that have arrived, and numbers below
which all has arrived. -/
structure Flow (α : Type) where
  accepted : List α
  waiting : List α
  numbered : Nat
  held : List (Nat × α)
  data : Set (Nat × α)
  early : List (Nat × α)
  next : Nat
  ready : List α
  taken : List α
  acks : Set Nat
  unas : Set Nat

namespace Flow

variable {α : Type}

/-- A link that has not been used. -/
def start : Flow α where
  accepted := []
  waiting := []
  numbered := 0
  held := []
  data := ∅
  early := []
  next := 0
  ready := []
  taken := []
  acks := ∅
  unas := ∅

/-- The item of this number is at the receiver, or was. -/
def Arrived (f : Flow α) (n : Nat) : Prop := n < f.next ∨ ∃ p ∈ f.early, p.1 = n

/-- One step of a direction. -/
inductive Step : Flow α → Flow α → Prop
  | accept (f : Flow α) (xs : List α) :
      Step f { f with accepted := f.accepted ++ xs, waiting := f.waiting ++ xs }
  | number (f : Flow α) (a : α) (w : List α) (hw : f.waiting = a :: w) :
      Step f { f with
        waiting := w
        numbered := f.numbered + 1
        held := f.held ++ [(f.numbered, a)] }
  | transmit (f : Flow α) (data : Set (Nat × α))
      (hdata : ∀ p ∈ data, p ∈ f.data ∨ p ∈ f.held) : Step f { f with data := data }
  | forget (f : Flow α) (held : List (Nat × α)) (hsub : ∀ p ∈ held, p ∈ f.held)
      (hgone : ∀ p ∈ f.held, p ∈ held ∨ p.1 ∈ f.acks ∨ ∃ u ∈ f.unas, p.1 < u) :
      Step f { f with held := held }
  | arrive (f : Flow α) (early : List (Nat × α)) (hkeep : ∀ p ∈ f.early, p ∈ early)
      (hnew : ∀ p ∈ early, p ∈ f.early ∨ p ∈ f.data) : Step f { f with early := early }
  | release (f : Flow α) (a : α) (early : List (Nat × α)) (ha : (f.next, a) ∈ f.early)
      (hsub : ∀ p ∈ early, p ∈ f.early) (hkeep : ∀ p ∈ f.early, p.1 ≠ f.next → p ∈ early) :
      Step f { f with early := early, next := f.next + 1, ready := f.ready ++ [a] }
  | take (f : Flow α) (xs rest : List α) (hready : f.ready = xs ++ rest) :
      Step f { f with ready := rest, taken := f.taken ++ xs }
  | acknowledge (f : Flow α) (acks : Set Nat) (hacks : ∀ n ∈ acks, n ∈ f.acks ∨ f.Arrived n) :
      Step f { f with acks := acks }
  | tell (f : Flow α) (unas : Set Nat) (hunas : ∀ u ∈ unas, u ∈ f.unas ∨ u ≤ f.next) :
      Step f { f with unas := unas }

/-- What holds of a direction in every state. -/
structure Sound (f : Flow α) : Prop where
  numbered_le : f.numbered ≤ f.accepted.length
  waiting : f.waiting = f.accepted.drop f.numbered
  held : ∀ p ∈ f.held, p.1 < f.numbered ∧ f.accepted[p.1]? = some p.2
  data : ∀ p ∈ f.data, p.1 < f.numbered ∧ f.accepted[p.1]? = some p.2
  early : ∀ p ∈ f.early, p.1 < f.numbered ∧ f.accepted[p.1]? = some p.2
  next_le : f.next ≤ f.numbered
  released : f.taken ++ f.ready = f.accepted.take f.next
  acks : ∀ n ∈ f.acks, f.Arrived n
  unas : ∀ u ∈ f.unas, u ≤ f.next
  kept : ∀ n < f.numbered, (∃ p ∈ f.held, p.1 = n) ∨ f.Arrived n

theorem start_sound : (start : Flow α).Sound where
  numbered_le := le_rfl
  waiting := rfl
  held _ hp := nomatch hp
  data _ hp := hp.elim
  early _ hp := nomatch hp
  next_le := le_rfl
  released := rfl
  acks _ hn := hn.elim
  unas _ hu := hu.elim
  kept n hn := absurd hn (Nat.not_lt_zero n)

/-- An item that has arrived stays so. -/
theorem Step.arrived {f g : Flow α} (h : Step f g) {n : Nat} (hn : f.Arrived n) :
    g.Arrived n := by
  cases h with
  | accept | number | transmit | forget | take | acknowledge | tell => exact hn
  | arrive early hkeep hnew =>
      exact hn.imp id fun ⟨p, hp, heq⟩ => ⟨p, hkeep p hp, heq⟩
  | release a early ha hsub hkeep =>
      rcases hn with hlt | ⟨p, hp, heq⟩
      · exact .inl (Nat.lt_succ_of_lt hlt)
      · by_cases hnext : p.1 = f.next
        · exact .inl (by change n < f.next + 1; omega)
        · exact .inr ⟨p, hkeep p hp hnext, heq⟩

/-- Also in a run. -/
theorem arrived_of_steps {f g : Flow α} (h : Relation.ReflTransGen Step f g) {n : Nat}
    (hn : f.Arrived n) : g.Arrived n := by
  induction h with
  | refl => exact hn
  | tail _ hlast ih => exact hlast.arrived ih

namespace Sound

variable {f g : Flow α}

theorem getElem_append (h : f.Sound) (xs : List α) {p : Nat × α}
    (hp : p.1 < f.numbered ∧ f.accepted[p.1]? = some p.2) :
    p.1 < f.numbered ∧ (f.accepted ++ xs)[p.1]? = some p.2 :=
  ⟨hp.1, by rw [List.getElem?_append_left (hp.1.trans_le h.numbered_le)]; exact hp.2⟩

/-- The first item that waits is the next one of the accepted. -/
theorem getElem_numbered (h : f.Sound) {a : α} {w : List α} (hw : f.waiting = a :: w) :
    f.accepted[f.numbered]? = some a ∧ w = f.accepted.drop (f.numbered + 1) := by
  have hdrop : f.accepted.drop f.numbered = a :: w := h.waiting.symm.trans hw
  constructor
  · have hhead := congrArg List.head? hdrop
    simpa [List.head?_drop] using hhead
  · have htail := congrArg List.tail hdrop
    simpa [List.tail_drop] using htail.symm

theorem accept (h : f.Sound) (xs : List α) :
    Sound { f with accepted := f.accepted ++ xs, waiting := f.waiting ++ xs } := by
  exact { h with
    numbered_le := by
      rw [List.length_append]
      exact h.numbered_le.trans (Nat.le_add_right _ _)
    waiting := by rw [List.drop_append_of_le_length h.numbered_le, h.waiting]
    held := fun p hp => h.getElem_append xs (h.held p hp)
    data := fun p hp => h.getElem_append xs (h.data p hp)
    early := fun p hp => h.getElem_append xs (h.early p hp)
    released := by
      rw [List.take_append_of_le_length (h.next_le.trans h.numbered_le), h.released] }

theorem number (h : f.Sound) {a : α} {w : List α} (hw : f.waiting = a :: w) :
    Sound { f with
      waiting := w
      numbered := f.numbered + 1
      held := f.held ++ [(f.numbered, a)] } := by
  obtain ⟨hget, hdrop⟩ := h.getElem_numbered hw
  have hlt : f.numbered < f.accepted.length := (List.getElem?_eq_some_iff.mp hget).1
  have hup : ∀ {p : Nat × α}, p.1 < f.numbered ∧ f.accepted[p.1]? = some p.2 →
      p.1 < f.numbered + 1 ∧ f.accepted[p.1]? = some p.2 :=
    fun hp => ⟨Nat.lt_succ_of_lt hp.1, hp.2⟩
  exact { h with
    numbered_le := hlt
    waiting := hdrop
    held := by
      intro p hp
      rcases List.mem_append.mp hp with hold | hnew
      · exact hup (h.held p hold)
      · rw [List.mem_singleton.mp hnew]
        exact ⟨Nat.lt_succ_self _, hget⟩
    data := fun p hp => hup (h.data p hp)
    early := fun p hp => hup (h.early p hp)
    next_le := h.next_le.trans (Nat.le_succ _)
    kept := by
      intro n hn
      rcases Nat.lt_succ_iff_lt_or_eq.mp hn with hold | rfl
      · exact (h.kept n hold).imp
          (fun ⟨p, hp, heq⟩ => ⟨p, List.mem_append_left _ hp, heq⟩) id
      · exact .inl ⟨(f.numbered, a), by simp, rfl⟩ }

theorem forget (h : f.Sound) {held : List (Nat × α)} (hsub : ∀ p ∈ held, p ∈ f.held)
    (hgone : ∀ p ∈ f.held, p ∈ held ∨ p.1 ∈ f.acks ∨ ∃ u ∈ f.unas, p.1 < u) :
    Sound { f with held := held } := by
  exact { h with
    held := fun p hp => h.held p (hsub p hp)
    kept := by
      intro n hn
      rcases h.kept n hn with ⟨p, hp, rfl⟩ | harrived
      · rcases hgone p hp with hstay | hack | ⟨u, hu, hlt⟩
        · exact .inl ⟨p, hstay, rfl⟩
        · exact .inr (h.acks p.1 hack)
        · exact .inr (.inl (hlt.trans_le (h.unas u hu)))
      · exact .inr harrived }

theorem release (h : f.Sound) {a : α} {early : List (Nat × α)} (ha : (f.next, a) ∈ f.early)
    (hsub : ∀ p ∈ early, p ∈ f.early) (hkeep : ∀ p ∈ f.early, p.1 ≠ f.next → p ∈ early) :
    Sound { f with early := early, next := f.next + 1, ready := f.ready ++ [a] } := by
  have hgrow {n : Nat} : f.Arrived n →
      Arrived { f with early := early, next := f.next + 1, ready := f.ready ++ [a] } n :=
    (Step.release f a early ha hsub hkeep).arrived
  obtain ⟨hlt, hget⟩ := h.early _ ha
  exact { h with
    early := fun p hp => h.early p (hsub p hp)
    next_le := hlt
    released := by
      change f.taken ++ (f.ready ++ [a]) = f.accepted.take (f.next + 1)
      rw [← List.append_assoc, h.released, List.take_add_one, hget]
      rfl
    acks := fun n hn => hgrow (h.acks n hn)
    unas := fun u hu => (h.unas u hu).trans (Nat.le_succ _)
    kept := fun n hn => (h.kept n hn).imp id hgrow }

/-- Every step keeps a direction sound. -/
theorem step (h : f.Sound) (hstep : Step f g) : g.Sound := by
  have harrived {n : Nat} : f.Arrived n → g.Arrived n := hstep.arrived
  cases hstep with
  | accept xs => exact h.accept xs
  | number a w hw => exact h.number hw
  | transmit data hdata =>
      exact { h with data := fun p hp => (hdata p hp).elim (h.data p) (h.held p) }
  | forget held hsub hgone => exact h.forget hsub hgone
  | arrive early hkeep hnew =>
      exact { h with
        early := fun p hp => (hnew p hp).elim (h.early p) (h.data p)
        acks := fun n hn => harrived (h.acks n hn)
        kept := fun n hn => (h.kept n hn).imp id harrived }
  | release a early ha hsub hkeep => exact h.release ha hsub hkeep
  | take xs rest hready =>
      exact { h with
        released := by
          change (f.taken ++ xs) ++ rest = f.accepted.take f.next
          rw [List.append_assoc, ← hready, h.released] }
  | acknowledge acks hacks =>
      exact { h with acks := fun n hn => (hacks n hn).elim (h.acks n) id }
  | tell unas hunas => exact { h with unas := fun u hu => (hunas u hu).elim (h.unas u) id }

/-- So does every run. -/
theorem steps (h : f.Sound) (hsteps : Relation.ReflTransGen Step f g) : g.Sound := by
  induction hsteps with
  | refl => exact h
  | tail _ hlast ih => exact ih.step hlast

/-- What is handed out is what was given, in order. -/
theorem taken_in_order (h : f.Sound) : f.taken ++ f.ready <+: f.accepted :=
  h.released ▸ List.take_prefix _ _

/-- When the sender holds nothing, all that was given is at the receiver. -/
theorem arrived_of_idle (h : f.Sound) (hwaiting : f.waiting = []) (hheld : f.held = []) :
    f.numbered = f.accepted.length ∧ ∀ n < f.accepted.length, f.Arrived n := by
  have hall : f.numbered = f.accepted.length := by
    have hnone : f.accepted.drop f.numbered = [] := h.waiting.symm.trans hwaiting
    exact le_antisymm h.numbered_le (List.drop_eq_nil_iff.mp hnone)
  refine ⟨hall, fun n hn => ?_⟩
  rcases h.kept n (hall ▸ hn) with ⟨p, hp, -⟩ | harrived
  · rw [hheld] at hp
    exact nomatch hp
  · exact harrived

end Sound

end Flow

end BallServer.Arq
