import Mathlib.Data.List.Basic

/-!
# A replica that is told of changes

A primary sends snapshots of its state and, whenever the state changes, a message of what
has changed.  They wait in a queue, and who takes them from there passes them on to a replica
while the replica is connected.  A replica that has had a snapshot and everything after it is
where the primary was when the message was sent.

What the messages are and how a replica takes them is a parameter.

Main results:

- Definition {lit}`Channel`: the queue and what was passed on.
- Theorems {lit}`Channel.told_send`, {lit}`Channel.told_handle` and
  {lit}`Channel.told_reconnect`: messages are never put in another order.
- Theorems {lit}`Mirrored.send`, {lit}`Mirrored.handle` and {lit}`Mirrored.reconnect`: every
  step keeps the replica a mirror.
-/

namespace BallServer.Replica

variable {μ σ : Type}

/-- What was sent, with the state of the primary at the time.  A change of which this replica
is not told is an update without a message. -/
inductive Entry (μ σ : Type) where
  | snapshot (m : μ) (state : σ)
  | update (m : Option μ) (state : σ)

/-- The state of the primary. -/
def Entry.state : Entry μ σ → σ
  | .snapshot _ s => s
  | .update _ s => s

/-- The message that was sent, if there was one. -/
def Entry.msg : Entry μ σ → Option μ
  | .snapshot m _ => some m
  | .update m _ => m

/-- A message that was passed on, with the state of the primary when it was sent, and whether
a snapshot and everything after it was passed on too. -/
structure Passed (μ σ : Type) where
  msg : μ
  state : σ
  synced : Bool

/-- The queue, and what was passed on since the replica was connected. -/
structure Channel (μ σ : Type) where
  queue : List (Entry μ σ)
  connected : Bool
  passed : List (Passed μ σ)
  synced : Bool

namespace Channel

/-- Nothing was sent. -/
def empty : Channel μ σ := ⟨[], false, [], false⟩

/-- The primary sends. -/
def send (c : Channel μ σ) (e : Entry μ σ) : Channel μ σ :=
  { c with queue := c.queue ++ [e] }

/-- A message is passed on, or lost. -/
def pass (c : Channel μ σ) (m : μ) (s : σ) (synced : Bool) : Channel μ σ :=
  if c.connected then { c with passed := c.passed ++ [⟨m, s, synced⟩], synced := synced }
  else { c with synced := false }

/-- The first of the queue is taken from it. -/
def handle (c : Channel μ σ) : Channel μ σ :=
  match c.queue with
  | [] => c
  | .snapshot m s :: rest => { c with queue := rest }.pass m s true
  | .update (some m) s :: rest => { c with queue := rest }.pass m s c.synced
  | .update none _ :: rest => { c with queue := rest, synced := false }

/-- The replica is connected anew, or not at all. -/
def reconnect (c : Channel μ σ) (b : Bool) : Channel μ σ :=
  { c with connected := b, passed := [], synced := false }

/-- What was passed on, and what waits behind it. -/
def told (c : Channel μ σ) : List μ := c.passed.map (·.msg) ++ c.queue.filterMap Entry.msg

theorem told_send (c : Channel μ σ) (e : Entry μ σ) :
    (c.send e).told = c.told ++ e.msg.toList := by
  unfold told send
  rw [List.filterMap_append, List.append_assoc]
  cases hmsg : e.msg <;> simp [hmsg]

theorem told_pass (c : Channel μ σ) (m : μ) (s : σ) (synced : Bool) :
    (c.pass m s synced).told.Sublist
      (c.passed.map (·.msg) ++ m :: c.queue.filterMap Entry.msg) := by
  unfold pass told
  split
  · simp
  · exact (List.sublist_cons_self ..).append_left _

/-- Messages are lost, but none is passed on before an earlier one. -/
theorem told_handle (c : Channel μ σ) : c.handle.told.Sublist c.told := by
  unfold handle
  split
  · exact List.Sublist.refl _
  · rename_i m s rest hqueue
    have htold : c.told = c.passed.map (·.msg) ++ m :: rest.filterMap Entry.msg := by
      unfold told
      rw [hqueue]
      rfl
    rw [htold]
    exact told_pass { c with queue := rest } m s true
  · rename_i m s rest hqueue
    have htold : c.told = c.passed.map (·.msg) ++ m :: rest.filterMap Entry.msg := by
      unfold told
      rw [hqueue]
      rfl
    rw [htold]
    exact told_pass { c with queue := rest } m s c.synced
  · rename_i s rest hqueue
    have htold : c.told = c.passed.map (·.msg) ++ rest.filterMap Entry.msg := by
      unfold told
      rw [hqueue]
      rfl
    rw [htold]
    exact List.Sublist.refl _

theorem told_reconnect (c : Channel μ σ) (b : Bool) : (c.reconnect b).told.Sublist c.told :=
  List.sublist_append_right _ _

end Channel

variable (apply : σ → μ → σ)

/-- The replica takes what was passed on, message by message. -/
def replay (known : σ) (l : List (Passed μ σ)) : σ := l.foldl (fun s x => apply s x.msg) known

theorem replay_concat (known : σ) (l : List (Passed μ σ)) (x : Passed μ σ) :
    replay apply known (l ++ [x]) = apply (replay apply known l) x.msg := by
  unfold replay
  rw [List.foldl_append]
  rfl

/-- A snapshot is all there is to know; the message of an update leads from the state before it
to the state after it. -/
def Entry.Leads (before : σ) : Entry μ σ → Prop
  | .snapshot m s => ∀ known, apply known m = s
  | .update m s => ∀ m' ∈ m, apply before m' = s

/-- A queue that leads from one state to another. -/
def Tells : σ → List (Entry μ σ) → σ → Prop
  | first, [], last => first = last
  | first, e :: rest, last => e.Leads apply first ∧ Tells e.state rest last

variable {apply}

theorem Tells.concat {first last : σ} {l : List (Entry μ σ)} {e : Entry μ σ}
    (h : Tells apply first l last) (he : e.Leads apply last) :
    Tells apply first (l ++ [e]) e.state := by
  induction l generalizing first with
  | nil =>
      obtain rfl : first = last := h
      exact ⟨he, rfl⟩
  | cons e₀ l ih => exact ⟨h.1, ih h.2⟩

variable (apply)

/-- After a message that was passed on in sync the replica is where the primary was; and what
waits leads a replica that is in sync to where the primary is now. -/
structure Mirrored (c : Channel μ σ) (now : σ) : Prop where
  entries : ∀ l x, l ++ [x] <+: c.passed → x.synced = true →
    ∀ known, replay apply known (l ++ [x]) = x.state
  queued : ∃ first, Tells apply first c.queue now ∧
    (c.synced = true → ∀ known, replay apply known c.passed = first)

variable {apply} {c : Channel μ σ} {now : σ}

theorem Mirrored.empty : Mirrored apply .empty now where
  entries l x hl := absurd (List.prefix_nil.mp hl) (by simp)
  queued := ⟨now, rfl, fun h => absurd h Bool.false_ne_true⟩

theorem Mirrored.send (h : Mirrored apply c now) {e : Entry μ σ} (he : e.Leads apply now) :
    Mirrored apply (c.send e) e.state where
  entries := h.entries
  queued := by
    obtain ⟨first, htells, hsynced⟩ := h.queued
    exact ⟨first, htells.concat he, hsynced⟩

/-- What follows is kept if the replica is where the primary was after a message that is passed
on in sync. -/
theorem Mirrored.pass {m : μ} {s : σ} {synced : Bool}
    (hentries : ∀ l x, l ++ [x] <+: c.passed → x.synced = true →
      ∀ known, replay apply known (l ++ [x]) = x.state)
    (htells : Tells apply s c.queue now)
    (hm : synced = true → ∀ known, apply (replay apply known c.passed) m = s) :
    Mirrored apply (c.pass m s synced) now := by
  have hlast (hsynced : synced = true) (known : σ) :
      replay apply known (c.passed ++ [⟨m, s, synced⟩]) = s := by
    rw [replay_concat]
    exact hm hsynced known
  unfold Channel.pass
  split
  · refine ⟨fun l x hl hx known => ?_, s, htells, hlast⟩
    rcases List.prefix_concat_iff.mp hl with heq | hold
    · obtain ⟨rfl, hsame⟩ := List.append_inj' heq rfl
      obtain rfl := List.singleton_inj.mp hsame
      exact hlast hx known
    · exact hentries l x hold hx known
  · exact ⟨hentries, s, htells, fun hsynced => absurd hsynced Bool.false_ne_true⟩

theorem Mirrored.handle (h : Mirrored apply c now) : Mirrored apply c.handle now := by
  obtain ⟨first, htells, hsynced⟩ := h.queued
  unfold Channel.handle
  split
  · exact h
  · rename_i m s rest hqueue
    rw [hqueue] at htells
    exact Mirrored.pass h.entries htells.2 fun _ known => htells.1 _
  · rename_i m s rest hqueue
    rw [hqueue] at htells
    refine Mirrored.pass h.entries htells.2 fun hin known => ?_
    rw [hsynced hin known]
    exact htells.1 m rfl
  · rename_i s rest hqueue
    rw [hqueue] at htells
    exact ⟨h.entries, s, htells.2, fun hin => absurd hin Bool.false_ne_true⟩

theorem Mirrored.reconnect (h : Mirrored apply c now) (b : Bool) :
    Mirrored apply (c.reconnect b) now where
  entries l x hl := absurd (List.prefix_nil.mp hl) (by simp)
  queued := by
    obtain ⟨first, htells, -⟩ := h.queued
    exact ⟨first, htells, fun hin => absurd hin Bool.false_ne_true⟩

end BallServer.Replica
