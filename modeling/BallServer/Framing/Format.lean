import Mathlib.Data.List.Basic

/-!
# Frames in a stream

A receiver keeps what it has read and not used in a buffer and takes complete frames off
its front.  However the stream is cut into reads, it takes the frames that were written.

Main results:

- Theorem {lit}`Format.drain_writes`: what is taken off a beginning of a written stream.
- Theorem {lit}`Format.receive_writes`: what is taken off a stream that comes in pieces.
-/

namespace BallServer.Framing

variable {α β : Type}

/-- How a frame is written, and how the next one is taken off a buffer: not yet, or with
what it stands for, if anything, and the rest of the buffer. -/
structure Format (α β : Type) where
  write : α → List β
  next : List β → Option (Option α × List β)
  next_shorter : ∀ {l x r}, next l = some (x, r) → r.length < l.length

namespace Format

variable (F : Format α β)

/-- A frame is read back, and not before it is complete. -/
structure Readable (a : α) : Prop where
  back : ∀ r, F.next (F.write a ++ r) = some (some a, r)
  waits : ∀ l, l <+: F.write a → l ≠ F.write a → F.next l = none

/-- Some frames, one after the other. -/
def writes (as : List α) : List β :=
  as.flatMap F.write

/-- Take frames off a buffer, at most so many times. -/
def drainFrom : Nat → List β → List α × List β
  | 0, l => ([], l)
  | n + 1, l =>
      match F.next l with
      | none => ([], l)
      | some (x, r) => (x.toList ++ (drainFrom n r).1, (drainFrom n r).2)

/-- Take all complete frames off a buffer; each shortens it. -/
def drain (l : List β) : List α × List β :=
  F.drainFrom l.length l

@[simp]
theorem writes_nil : F.writes [] = [] :=
  rfl

@[simp]
theorem writes_cons (a : α) (as : List α) : F.writes (a :: as) = F.write a ++ F.writes as :=
  rfl

@[simp]
theorem writes_append (as bs : List α) : F.writes (as ++ bs) = F.writes as ++ F.writes bs := by
  simp [writes]

theorem next_nil : F.next [] = none := by
  cases h : F.next [] with
  | none => rfl
  | some p => exact absurd (F.next_shorter h) (Nat.not_lt_zero _)

theorem drainFrom_of_none {l : List β} (h : F.next l = none) (n : Nat) :
    F.drainFrom n l = ([], l) := by
  cases n with
  | zero => rfl
  | succ n => simp [drainFrom, h]

/-- The beginning of a written stream, taken apart: the frames that are complete in it and
the beginning of the rest. -/
theorem drainFrom_writes {as : List α} (has : ∀ a ∈ as, F.Readable a) {l : List β}
    (hl : l <+: F.writes as) {n : Nat} (hn : l.length ≤ n) :
    ∃ bs, as = (F.drainFrom n l).1 ++ bs ∧
      l = F.writes (F.drainFrom n l).1 ++ (F.drainFrom n l).2 := by
  induction as generalizing l n with
  | nil =>
      obtain rfl := List.prefix_nil.mp hl
      rw [F.drainFrom_of_none F.next_nil]
      exact ⟨[], rfl, rfl⟩
  | cons a as ih =>
      have ha : F.Readable a := has a List.mem_cons_self
      rw [writes_cons] at hl
      by_cases hwhole : F.write a <+: l
      · obtain ⟨r, rfl⟩ := hwhole
        have hback := ha.back r
        have hr : r <+: F.writes as := (List.prefix_append_right_inj _).mp hl
        obtain ⟨n, rfl⟩ : ∃ m, n = m + 1 := by
          have := F.next_shorter hback
          exact ⟨n - 1, by omega⟩
        have hlen : r.length ≤ n := by
          have := F.next_shorter hback
          omega
        obtain ⟨bs, has', hr'⟩ := ih (fun b hb => has b (List.mem_cons_of_mem _ hb)) hr hlen
        refine ⟨bs, ?_, ?_⟩
        · rw [drainFrom, hback]
          simpa using has'
        · rw [drainFrom, hback]
          simpa using hr'
      · have hpart : l <+: F.write a :=
          (List.prefix_or_prefix_of_prefix hl (List.prefix_append _ _)).resolve_right hwhole
        have hne : l ≠ F.write a := by
          rintro rfl
          exact hwhole (List.prefix_refl _)
        rw [F.drainFrom_of_none (ha.waits l hpart hne)]
        exact ⟨a :: as, rfl, rfl⟩

/-- A buffer and what is still to come, after the complete frames are taken off. -/
theorem drain_writes {as : List α} (has : ∀ a ∈ as, F.Readable a) {l r : List β}
    (hl : l ++ r = F.writes as) :
    ∃ bs, as = (F.drain l).1 ++ bs ∧ (F.drain l).2 ++ r = F.writes bs := by
  obtain ⟨bs, has', hl'⟩ := F.drainFrom_writes has ⟨r, hl⟩ (Nat.le_refl _)
  refine ⟨bs, has', ?_⟩
  have hcut : F.writes (F.drain l).1 ++ ((F.drain l).2 ++ r) =
      F.writes (F.drain l).1 ++ F.writes bs := by
    rw [← List.append_assoc, ← writes_append]
    exact (congrArg (· ++ r) hl'.symm).trans (hl.trans (congrArg F.writes has'))
  exact List.append_cancel_left hcut

/-! ## A stream in pieces -/

/-- What is taken off when pieces arrive one after the other, and what is left. -/
def receive : List (List β) → List β → List α × List β
  | [], l => ([], l)
  | c :: cs, l => ((F.drain (l ++ c)).1 ++ (receive cs (F.drain (l ++ c)).2).1,
      (receive cs (F.drain (l ++ c)).2).2)

theorem next_drainFrom {n : Nat} {l : List β} (hn : l.length ≤ n) :
    F.next (F.drainFrom n l).2 = none := by
  induction n generalizing l with
  | zero =>
      obtain rfl := List.length_eq_zero_iff.mp (Nat.le_zero.mp hn)
      exact F.next_nil
  | succ n ih =>
      rw [drainFrom]
      cases h : F.next l with
      | none => exact h
      | some p =>
          have := F.next_shorter (show F.next l = some (p.1, p.2) from h)
          exact ih (by omega)

/-- No complete frame is left. -/
theorem next_receive {cs : List (List β)} {l : List β} (hl : F.next l = none) :
    F.next (F.receive cs l).2 = none := by
  induction cs generalizing l with
  | nil => exact hl
  | cons c cs ih => exact ih (F.next_drainFrom (Nat.le_refl _))

/-- However a stream is cut into pieces, the frames that have arrived are taken off, and
the beginning of the others is left. -/
theorem receive_writes {as : List α} (has : ∀ a ∈ as, F.Readable a) {cs : List (List β)}
    {l r : List β} (h : l ++ (cs.flatten ++ r) = F.writes as) :
    ∃ bs, as = (F.receive cs l).1 ++ bs ∧ (F.receive cs l).2 ++ r = F.writes bs := by
  induction cs generalizing l as with
  | nil => exact ⟨as, rfl, h⟩
  | cons c cs ih =>
      rw [List.flatten_cons, List.append_assoc, ← List.append_assoc] at h
      obtain ⟨bs, has', hrest⟩ := F.drain_writes has h
      have hbs : ∀ b ∈ bs, F.Readable b := fun b hb =>
        has b (has' ▸ List.mem_append_right _ hb)
      obtain ⟨ds, hbs', hend⟩ := ih hbs hrest
      refine ⟨ds, ?_, hend⟩
      rw [receive, List.append_assoc, ← hbs']
      exact has'

theorem writes_eq_nil {as : List α} (has : ∀ a ∈ as, F.Readable a)
    (h : F.next (F.writes as) = none) : as = [] := by
  cases as with
  | nil => rfl
  | cons a as =>
      rw [writes_cons, (has a List.mem_cons_self).back] at h
      cases h

end Format

end BallServer.Framing
