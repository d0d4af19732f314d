import Mathlib.Data.List.Nodup
import Mathlib.Data.List.Infix

/-!
# Walking a table that changes

A walk asks for the next key after the one it is at.  The keys of a table have an order, that of
the nodes that hold them.  A key that loses its value keeps its node.  Only when a new key is
assigned the nodes may be arranged anew.

A walk whose body waits sees the table as it is at each call.

Main results:

- Structure {lit}`Nodes`: a table with its nodes.
- Definitions {lit}`next`, {lit}`walk`: one call and a whole walk.
- Theorem {lit}`walk_visits`: while the nodes stay as they are, a walk meets no error and visits
  what stays exactly once.
- Theorems {lit}`At.next_some`, {lit}`At.of_chain`: where a walk is between two of its calls.
- Theorems {lit}`orderly_of_chain`, {lit}`safe_of_noNew`: the same for runs whose steps assign no
  new key.
-/

namespace BallServer.Walk

/-- The nodes of a table and the keys that have a value. -/
structure Nodes (κ : Type) where
  order : List κ
  live : κ → Bool
  nodup : order.Nodup
  has : ∀ k, live k = true → k ∈ order

variable {κ : Type} [DecidableEq κ]

/-- The key after this one, or the first one.  A key without a node is an error. -/
def next (n : Nodes κ) : Option κ → Except String (Option κ)
  | none => .ok (n.order.find? n.live)
  | some k =>
      if k ∈ n.order then .ok ((n.order.drop (n.order.idxOf k + 1)).find? n.live)
      else .error "invalid key to 'next'"

/-- What a walk has visited after some calls, and whether it is over.  It is at a key, or at the
beginning; each call sees the table as it is then. -/
def walk : Option κ → List (Nodes κ) → Except String (List κ × Bool)
  | _, [] => .ok ([], false)
  | cur, n :: rest =>
      match next n cur with
      | .error err => .error err
      | .ok none => .ok ([], true)
      | .ok (some k) => (walk (some k) rest).map fun r => (k :: r.1, r.2)

/-- The part of the order a walk has still before it. -/
def ahead (order : List κ) : Option κ → List κ
  | none => order
  | some k => order.drop (order.idxOf k + 1)

theorem next_eq {n : Nodes κ} {cur : Option κ} (h : ∀ k, cur = some k → k ∈ n.order) :
    next n cur = .ok ((ahead n.order cur).find? n.live) := by
  cases cur with
  | none => rfl
  | some k => exact if_pos (h k rfl)

/-- The next key has a value. -/
theorem live_of_next {n : Nodes κ} {cur : Option κ} {k : κ} (h : next n cur = .ok (some k)) :
    n.live k = true := by
  cases cur with
  | none => exact List.find?_some (Except.ok.inj h)
  | some c =>
      simp only [next] at h
      split at h
      · exact List.find?_some (Except.ok.inj h)
      · cases h

/-- The next key is ahead, what it leaves behind has no value, and what is ahead of it stays. -/
theorem ahead_of_find {order : List κ} (hnodup : order.Nodup) {cur : Option κ} {p : κ → Bool}
    {k : κ} (h : (ahead order cur).find? p = some k) :
    k ∈ order ∧ ∃ skipped, ahead order cur = skipped ++ k :: ahead order (some k) ∧
      ∀ j ∈ skipped, p j = false := by
  obtain ⟨hk, skipped, rest, heq, hskipped⟩ := List.find?_eq_some_iff_append.mp h
  have hsuffix : ahead order cur <:+ order := by
    cases cur with
    | none => exact List.suffix_refl _
    | some c => exact List.drop_suffix _ _
  obtain ⟨before, hbefore⟩ := hsuffix
  rw [heq, ← List.append_assoc] at hbefore
  have hin : k ∈ order := by
    rw [← hbefore]
    simp
  -- the node of the key is the only one
  have hnot : k ∉ before ++ skipped := by
    rw [← hbefore] at hnodup
    exact fun hmem => (List.nodup_append.mp hnodup).2.2 k hmem k List.mem_cons_self rfl
  have hahead : ahead order (some k) = rest := by
    have hidx : order.idxOf k = (before ++ skipped).length := by
      rw [← hbefore, List.idxOf_append_of_notMem hnot, List.idxOf_cons_self, Nat.add_zero]
    simp only [ahead]
    rw [hidx, ← hbefore, List.drop_append]
    simp
  exact ⟨hin, skipped, hahead ▸ heq, fun j hj => by simpa using hskipped j hj⟩

/-- While the nodes stay as they are: no call raises an error; no key is visited twice; a visited
key has had a value; when the walk is over it has visited every key that has had a value at all of
its calls; and it is over after at most as many calls as there are nodes, and one. -/
theorem walk_visits {order : List κ} (hnodup : order.Nodup) (tables : List (Nodes κ))
    (horder : ∀ n ∈ tables, n.order = order) (cur : Option κ)
    (hcur : ∀ k, cur = some k → k ∈ order) :
    ∃ visited ended, walk cur tables = .ok (visited, ended) ∧
      visited.Sublist (ahead order cur) ∧
      (∀ k ∈ visited, ∃ n ∈ tables, n.live k = true) ∧
      (ended = true → ∀ k ∈ ahead order cur, (∀ n ∈ tables, n.live k = true) → k ∈ visited) ∧
      ((ahead order cur).length < tables.length → ended = true) := by
  induction tables generalizing cur with
  | nil => exact ⟨[], false, rfl, List.nil_sublist _, by simp, by simp, by simp⟩
  | cons n rest ih =>
      obtain rfl := horder n List.mem_cons_self
      unfold walk
      rw [next_eq hcur]
      cases hfind : (ahead n.order cur).find? n.live with
      | none =>
          refine ⟨[], true, rfl, List.nil_sublist _, by simp, fun _ k hk hlive => ?_, fun _ => rfl⟩
          exact absurd (hlive n List.mem_cons_self) (List.find?_eq_none.mp hfind k hk)
      | some k =>
          obtain ⟨hk, skipped, heq, hskipped⟩ := ahead_of_find hnodup hfind
          obtain ⟨visited, ended, hwalk, hsub, hvisited, hall, hends⟩ :=
            ih (fun n hn => horder n (List.mem_cons_of_mem _ hn)) (some k)
              fun j hj => Option.some.inj hj ▸ hk
          refine ⟨k :: visited, ended, by simp [hwalk, Except.map], ?_, ?_, ?_, ?_⟩
          · rw [heq]
            exact (hsub.cons_cons k).trans (List.sublist_append_right _ _)
          · intro j hj
            rcases List.mem_cons.mp hj with rfl | hj
            · exact ⟨n, List.mem_cons_self, List.find?_some hfind⟩
            · obtain ⟨n', hmem, hj⟩ := hvisited j hj
              exact ⟨n', List.mem_cons_of_mem _ hmem, hj⟩
          · intro hended j hj hstays
            rw [heq] at hj
            rcases List.mem_append.mp hj with hj | hj
            · have hdead := hskipped j hj
              rw [hstays n List.mem_cons_self] at hdead
              cases hdead
            · rcases List.mem_cons.mp hj with rfl | hj
              · exact List.mem_cons_self
              · exact List.mem_cons_of_mem _ (hall hended j hj fun n' hmem =>
                  hstays n' (List.mem_cons_of_mem _ hmem))
          · intro hlt
            apply hends
            have hlength := congrArg List.length heq
            simp only [List.length_append, List.length_cons] at hlength hlt
            omega

/-! ## A walk in the middle -/

/-- Where a walk is: what it has visited is not ahead of it, and it has visited what has a value
and is not ahead. -/
structure At (n : Nodes κ) (cur : Option κ) (visited : List κ) : Prop where
  mem_order : ∀ k, cur = some k → k ∈ n.order
  behind : ∀ k ∈ visited, k ∉ ahead n.order cur
  complete : ∀ k, n.live k = true → k ∉ ahead n.order cur → k ∈ visited

theorem At.start (n : Nodes κ) : At n none [] where
  mem_order := by simp
  behind := by simp
  complete k hk hnot := absurd (n.has k hk) hnot

/-- Keys may lose their values. -/
theorem At.keep {n n' : Nodes κ} {cur : Option κ} {visited : List κ} (h : At n cur visited)
    (horder : n'.order = n.order) (hlive : ∀ k, n'.live k = true → n.live k = true) :
    At n' cur visited where
  mem_order k hk := horder ▸ h.mem_order k hk
  behind k hk := horder ▸ h.behind k hk
  complete k hk hnot := h.complete k (hlive k hk) (horder ▸ hnot)

/-- A key that is not visited yet, and the place after it. -/
theorem At.next_some {n : Nodes κ} {cur : Option κ} {visited : List κ} (h : At n cur visited)
    {k : κ} (hk : next n cur = .ok (some k)) : k ∉ visited ∧ At n (some k) (k :: visited) := by
  rw [next_eq h.mem_order] at hk
  have hfind := Except.ok.inj hk
  obtain ⟨hin, skipped, heq, hskipped⟩ := ahead_of_find n.nodup hfind
  have hahead : k ∈ ahead n.order cur := by simp [heq]
  -- the node of the key is not ahead of itself
  have hnot : k ∉ ahead n.order (some k) := by
    have hnodup : (ahead n.order cur).Nodup := by
      cases cur with
      | none => exact n.nodup
      | some c => exact n.nodup.sublist (List.drop_sublist _ _)
    rw [heq] at hnodup
    exact (List.nodup_cons.mp (List.nodup_append.mp hnodup).2.1).1
  refine ⟨fun hmem => h.behind k hmem hahead, ?_, ?_, ?_⟩
  · rintro j hj
    exact Option.some.inj hj ▸ hin
  · intro j hj hmem
    rcases List.mem_cons.mp hj with rfl | hj
    · exact hnot hmem
    · refine h.behind j hj ?_
      rw [heq]
      exact List.mem_append_right _ (List.mem_cons_of_mem _ hmem)
  · intro j hj hnotahead
    by_cases hcur : j ∈ ahead n.order cur
    · rw [heq] at hcur
      rcases List.mem_append.mp hcur with hj' | hj'
      · have hdead := hskipped j hj'
        rw [hj] at hdead
        cases hdead
      · rcases List.mem_cons.mp hj' with rfl | hj'
        · exact List.mem_cons_self
        · exact absurd hj' hnotahead
    · exact List.mem_cons_of_mem _ (h.complete j hj hcur)

/-- At the end everything that has a value is visited. -/
theorem At.next_none {n : Nodes κ} {cur : Option κ} {visited : List κ} (h : At n cur visited)
    (hk : next n cur = .ok none) {k : κ} (hlive : n.live k = true) : k ∈ visited := by
  rw [next_eq h.mem_order] at hk
  have hfind := Except.ok.inj hk
  exact h.complete k hlive fun hmem => List.find?_eq_none.mp hfind k hmem hlive

/-! ## Walks during a run -/

section Runs

variable {σ : Type}

/-- A step that gives no value to a key that has none. -/
def NoNew (keys : σ → κ → Bool) (s s' : σ) : Prop := ∀ k, keys s' k = true → keys s k = true

/-- Two states of a run, with the nodes of the table that is walked: the nodes show the keys of
the table, and only a new key arranges them anew. -/
def Shows (keys : σ → κ → Bool) (x y : σ × Nodes κ) : Prop :=
  x.2.live = keys x.1 ∧ y.2.live = keys y.1 ∧ (NoNew keys x.1 y.1 → y.2.order = x.2.order)

/-- A walk whose calls happen in some of these states: no call raises an error, nothing is visited
twice or without having a value, the walk ends, and then it has visited whatever has had a value
in all the states. -/
def Orderly (keys : σ → κ → Bool) (states calls : List (σ × Nodes κ)) : Prop :=
  ∃ visited ended, walk none (calls.map Prod.snd) = .ok (visited, ended) ∧ visited.Nodup ∧
    (∀ k ∈ visited, ∃ x ∈ calls, x.2.live k = true) ∧
    (ended = true → ∀ k, (∀ x ∈ states, keys x.1 k = true) → k ∈ visited) ∧
    ((∀ x ∈ states, x.2.order.length < calls.length) → ended = true)

variable {keys : σ → κ → Bool}

omit [DecidableEq κ] in
/-- While no new key is assigned the nodes stay. -/
theorem order_of_chain {x₀ : σ × Nodes κ} {l : List (σ × Nodes κ)}
    (h : (x₀ :: l).IsChain fun x y => NoNew keys x.1 y.1 ∧ Shows keys x y) :
    ∀ x ∈ x₀ :: l, x.2.order = x₀.2.order := by
  induction l generalizing x₀ with
  | nil =>
      intro x hx
      rw [List.mem_singleton.mp hx]
  | cons x₁ l ih =>
      obtain ⟨⟨hnew, -, -, horder⟩, hrest⟩ := List.isChain_cons_cons.mp h
      intro x hx
      rcases List.mem_cons.mp hx with rfl | hx
      · rfl
      · exact (ih hrest x hx).trans (horder hnew)

omit [DecidableEq κ] in
theorem live_of_chain {x₀ : σ × Nodes κ} {l : List (σ × Nodes κ)}
    (h : (x₀ :: l).IsChain fun x y => NoNew keys x.1 y.1 ∧ Shows keys x y)
    (h₀ : x₀.2.live = keys x₀.1) : ∀ x ∈ x₀ :: l, x.2.live = keys x.1 := by
  induction l generalizing x₀ with
  | nil =>
      intro x hx
      rwa [List.mem_singleton.mp hx]
  | cons x₁ l ih =>
      obtain ⟨⟨-, -, h₁, -⟩, hrest⟩ := List.isChain_cons_cons.mp h
      intro x hx
      rcases List.mem_cons.mp hx with rfl | hx
      · exact h₀
      · exact ih hrest h₁ x hx

/-- The rule for runs: without new keys walks are orderly. -/
theorem orderly_of_chain {x₀ : σ × Nodes κ} {l : List (σ × Nodes κ)}
    (h : (x₀ :: l).IsChain fun x y => NoNew keys x.1 y.1 ∧ Shows keys x y)
    (h₀ : x₀.2.live = keys x₀.1) {calls : List (σ × Nodes κ)} (hcalls : ∀ x ∈ calls, x ∈ x₀ :: l) :
    Orderly keys (x₀ :: l) calls := by
  have horder := order_of_chain h
  have hlive := live_of_chain h h₀
  obtain ⟨visited, ended, hwalk, hsub, hvisited, hall, hends⟩ :=
    walk_visits x₀.2.nodup (calls.map Prod.snd) (fun n hn => by
      obtain ⟨x, hx, rfl⟩ := List.mem_map.mp hn
      exact horder x (hcalls x hx)) none (by simp)
  refine ⟨visited, ended, hwalk, hsub.nodup x₀.2.nodup, fun k hk => ?_, fun hended k hk => ?_,
    fun hlt => hends ?_⟩
  · obtain ⟨n, hn, hk⟩ := hvisited k hk
    obtain ⟨x, hx, rfl⟩ := List.mem_map.mp hn
    exact ⟨x, hx, hk⟩
  · refine hall hended k (x₀.2.has k ?_) fun n hn => ?_
    · rw [h₀]
      exact hk x₀ List.mem_cons_self
    · obtain ⟨x, hx, rfl⟩ := List.mem_map.mp hn
      rw [hlive x (hcalls x hx)]
      exact hk x (hcalls x hx)
  · have hlt := hlt x₀ List.mem_cons_self
    simpa [ahead] using hlt

/-- A walk keeps its place between two calls. -/
theorem At.of_chain {x₀ : σ × Nodes κ} {l : List (σ × Nodes κ)}
    (h : (x₀ :: l).IsChain fun x y => NoNew keys x.1 y.1 ∧ Shows keys x y) {cur : Option κ}
    {visited : List κ} (h₀ : At x₀.2 cur visited) : ∀ x ∈ x₀ :: l, At x.2 cur visited := by
  induction l generalizing x₀ with
  | nil =>
      intro x hx
      rwa [List.mem_singleton.mp hx]
  | cons x₁ l ih =>
      obtain ⟨⟨hnew, hlive, hlive', horder⟩, hrest⟩ := List.isChain_cons_cons.mp h
      intro x hx
      rcases List.mem_cons.mp hx with rfl | hx
      · exact h₀
      · refine ih hrest (h₀.keep (horder hnew) fun k hk => ?_) x hx
        rw [hlive]
        rw [hlive'] at hk
        exact hnew k hk

/-- Walks during any run of such steps: no step assigns a new key, and every walk is orderly. -/
def Safe (keys : σ → κ → Bool) (R : σ → σ → Prop) : Prop :=
  ∀ (x₀ : σ × Nodes κ) (l : List (σ × Nodes κ)), x₀.2.live = keys x₀.1 →
    (x₀ :: l).IsChain (fun x y => R x.1 y.1 ∧ Shows keys x y) →
      (x₀ :: l).IsChain (fun x y => NoNew keys x.1 y.1) ∧
        ∀ calls : List (σ × Nodes κ), (∀ x ∈ calls, x ∈ x₀ :: l) → Orderly keys (x₀ :: l) calls

/-- It is enough to look at one step. -/
theorem safe_of_noNew {R : σ → σ → Prop} (h : ∀ s s', R s s' → NoNew keys s s') : Safe keys R := by
  intro x₀ l h₀ hl
  have hchain := hl.imp fun x y hxy =>
    (⟨h x.1 y.1 hxy.1, hxy.2⟩ : NoNew keys x.1 y.1 ∧ Shows keys x y)
  exact ⟨hchain.imp fun _ _ hxy => hxy.1, fun _ hcalls => orderly_of_chain hchain h₀ hcalls⟩

end Runs

end BallServer.Walk
