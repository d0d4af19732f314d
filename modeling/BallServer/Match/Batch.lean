import BallServer.Match.Service
import Mathlib.Algebra.Order.Group.Abs
import Mathlib.Algebra.Order.Group.Int
import Mathlib.Data.List.Nodup

/-!
# Collecting a batch

{lit}`collect_batch` looks at the head of a queue, and from its waiting time at how many
segments around it.  Records are only read; what it writes is the removal of queue entries
whose record belongs somewhere else.

Main results:

- Structure {lit}`Spec` and theorem {lit}`Spec.bind`: what a function of the service does
  to the queues and returns.
- Theorem {lit}`searchSegments_spec`: the loop over the segments.
- Theorem {lit}`collect_batch_forms_match`: a batch is a match, and there is one when the
  queues hold enough players.
-/

namespace BallServer.MatchService

/-- What {lit}`load_player_state` returns for a player. -/
def Service.load (s : Service) (p : Nat) : PlayerState :=
  loadPlayerState p (s.records p)

/-- The members of a queue in its order. -/
def Service.members (s : Service) (mode segment : Number) : List Nat :=
  (s.queues (some mode, some segment)).map Prod.fst

/-! ## Cleaning the queues -/

/-- Entries were removed from queues of redis; the record of each belongs somewhere else. -/
structure Cleaned (s s' : Service) : Prop where
  records : s'.records = s.records
  now : s'.now = s.now
  queues : ∀ key, ∃ keep : Nat × Int → Bool, s'.queues key = (s.queues key).filter keep ∧
    ∀ e ∈ s.queues key, keep e = false →
      ∃ mode segment, key = (some mode, some segment) ∧ ¬ Waiting (s.load e.1) mode segment

theorem Cleaned.of_eq {s s' : Service} (hrecords : s'.records = s.records) (hnow : s'.now = s.now)
    (hqueues : s'.queues = s.queues) : Cleaned s s' :=
  ⟨hrecords, hnow, fun key => ⟨fun _ => true, by rw [hqueues, List.filter_true], by simp⟩⟩

theorem Cleaned.refl (s : Service) : Cleaned s s :=
  .of_eq rfl rfl rfl

theorem Cleaned.load {s s' : Service} (h : Cleaned s s') (p : Nat) : s'.load p = s.load p := by
  unfold Service.load
  rw [h.records]

theorem Cleaned.trans {s₁ s₂ s₃ : Service} (h : Cleaned s₁ s₂) (h' : Cleaned s₂ s₃) :
    Cleaned s₁ s₃ := by
  refine ⟨h'.records.trans h.records, h'.now.trans h.now, fun key => ?_⟩
  obtain ⟨keep, hkeep, hstale⟩ := h.queues key
  obtain ⟨keep', hkeep', hstale'⟩ := h'.queues key
  refine ⟨fun e => keep' e && keep e, by rw [hkeep', hkeep, List.filter_filter], ?_⟩
  intro e he hdrop
  cases hk : keep e with
  | false => exact hstale e he hk
  | true =>
      have he' : e ∈ s₂.queues key := by
        rw [hkeep]
        exact List.mem_filter.mpr ⟨he, hk⟩
      obtain ⟨mode, segment, hkey, hwait⟩ := hstale' e he' (by simpa [hk] using hdrop)
      exact ⟨mode, segment, hkey, h.load e.1 ▸ hwait⟩

/-- Every member of the queue waits in it. -/
def Fresh (s : Service) (mode segment : Number) : Prop :=
  ∀ p ∈ s.members mode segment, Waiting (s.load p) mode segment

/-- A queue without a stale entry is left as it is. -/
theorem Cleaned.members {s s' : Service} (h : Cleaned s s') {mode segment : Number}
    (hf : Fresh s mode segment) : s'.members mode segment = s.members mode segment := by
  obtain ⟨keep, hkeep, hstale⟩ := h.queues (some mode, some segment)
  have hall : (s.queues (some mode, some segment)).filter keep =
      s.queues (some mode, some segment) := by
    rw [List.filter_eq_self]
    intro e he
    by_contra hdrop
    obtain ⟨mode', segment', hkey, hwait⟩ := hstale e he (by simpa using hdrop)
    obtain ⟨rfl, rfl⟩ : mode = mode' ∧ segment = segment' := by simpa using hkey
    exact hwait (hf e.1 (List.mem_map_of_mem he))
  unfold Service.members
  rw [hkeep, hall]

theorem Cleaned.fresh {s s' : Service} (h : Cleaned s s') {mode segment : Number}
    (hf : Fresh s mode segment) : Fresh s' mode segment := by
  intro p hp
  rw [h.members hf] at hp
  rw [h.load]
  exact hf p hp

/-! ## Functions of the service -/

/-- The state a function leaves. -/
def after {α : Type} : EStateM.Result Unit Service α → Service
  | .ok _ s => s
  | .error _ s => s

/-- From the state the function only cleans the queues, what it returns meets {lit}`P`, and
under the condition {lit}`T` it returns when no redis command fails. -/
structure Spec {α : Type} (f : Run α) (s : Service) (T : Prop) (P : α → Prop) : Prop where
  cleaned : Cleaned s (after (f s))
  ok : ∀ a s', f s = .ok a s' → P a
  total : T → s.fault = none → ∃ a s', f s = .ok a s' ∧ s'.fault = none

section Spec

variable {α β : Type} {s : Service} {T : Prop}

theorem Spec.mono {f : Run α} {P Q : α → Prop} (h : Spec f s T P) (hPQ : ∀ a, P a → Q a) :
    Spec f s T Q :=
  ⟨h.cleaned, fun a s' hf => hPQ a (h.ok a s' hf), h.total⟩

theorem Spec.pure {P : α → Prop} {a : α} (h : P a) : Spec (pure a) s T P where
  cleaned := .refl s
  ok b s' hb := by
    obtain ⟨rfl, -⟩ : a = b ∧ s = s' := by simpa [Pure.pure, EStateM.pure] using hb
    exact h
  total _ hs := ⟨a, s, rfl, hs⟩

/-- What follows a function starts in the state that one leaves. -/
theorem Spec.bind {f : Run α} {g : α → Run β} {P : α → Prop} {Q : β → Prop} (h : Spec f s T P)
    (hg : ∀ a s', Cleaned s s' → P a → Spec (g a) s' T Q) : Spec (f >>= g) s T Q := by
  have hrun : (f >>= g) s = match f s with
      | .ok a s' => g a s'
      | .error e s' => .error e s' := by
    change EStateM.bind f g s = _
    unfold EStateM.bind
    cases f s <;> rfl
  have hclean := h.cleaned
  cases hf : f s with
  | ok a s' =>
      rw [hf] at hclean
      have hga := hg a s' hclean (h.ok a s' hf)
      refine ⟨?_, ?_, ?_⟩
      · rw [hrun, hf]
        exact hclean.trans hga.cleaned
      · intro b s'' hb
        rw [hrun, hf] at hb
        exact hga.ok b s'' hb
      · intro hT hs
        obtain ⟨a', s₁, hok, hfault⟩ := h.total hT hs
        obtain ⟨rfl, rfl⟩ : a = a' ∧ s' = s₁ := by simpa [hf] using hok
        rw [hrun, hf]
        exact hga.total hT hfault
  | error e s' =>
      rw [hf] at hclean
      refine ⟨?_, ?_, ?_⟩
      · rw [hrun, hf]
        exact hclean
      · intro b s'' hb
        rw [hrun, hf] at hb
        cases hb
      · intro hT hs
        obtain ⟨a', s₁, hok, -⟩ := h.total hT hs
        rw [hf] at hok
        cases hok

/-- A redis command; a failing one leaves redis as it is. -/
theorem Spec.command {f : Service → α × Service} {P : α → Prop}
    (hP : ∀ n, P (f { s with fault := n }).1)
    (hclean : ∀ n, Cleaned s (f { s with fault := n }).2)
    (hfault : ∀ n, (f { s with fault := n }).2.fault = n) : Spec (command f) s T P := by
  have hs : ({ s with fault := s.fault } : Service) = s := rfl
  refine ⟨?_, ?_, ?_⟩
  · unfold MatchService.command
    cases hf : s.fault with
    | none => exact hs ▸ hclean s.fault
    | some n =>
        cases n with
        | zero => exact .of_eq rfl rfl rfl
        | succ n => exact hclean (some n)
  · intro a s' ha
    unfold MatchService.command at ha
    cases hf : s.fault with
    | none =>
        rw [hf] at ha
        obtain ⟨rfl, -⟩ : (f s).1 = a ∧ (f s).2 = s' := by simpa using ha
        exact hs ▸ hP s.fault
    | some n =>
        rw [hf] at ha
        cases n with
        | zero => cases ha
        | succ n =>
            obtain ⟨rfl, -⟩ : (f { s with fault := some n }).1 = a ∧
              (f { s with fault := some n }).2 = s' := by simpa using ha
            exact hP (some n)
  · intro _ hnone
    refine ⟨(f s).1, (f s).2, by simp [MatchService.command, hnone], ?_⟩
    have hcalm : ({ s with fault := none } : Service) = s := by rw [← hnone]
    have hleft := hfault none
    rwa [hcalm] at hleft

end Spec

/-! ## Fetching -/

variable {s : Service} {T : Prop}

theorem loadState_spec (p : Nat) : Spec (loadState p) s T fun info => info = s.load p := by
  have hget : Spec (getRecord p) s T fun raw => raw = s.records p :=
    .command (fun _ => rfl) (fun _ => .of_eq rfl rfl rfl) fun _ => rfl
  refine hget.bind fun raw s' _ hraw => .pure ?_
  rw [hraw]
  rfl

theorem zrange_spec (mode segment : Number) (limit : Nat) :
    Spec (zrange (some mode, some segment) (some limit)) s T fun raw =>
      raw = (s.members mode segment).take limit :=
  .command (fun _ => rfl) (fun _ => .of_eq rfl rfl rfl) fun _ => rfl

/-- {lit}`zrem` of a member whose record belongs somewhere else. -/
theorem zrem_spec {mode segment : Number} {p : Nat} (hp : ¬ Waiting (s.load p) mode segment) :
    Spec (zrem (some mode, some segment) p) s T fun _ => True := by
  refine .command (fun _ => trivial) (fun n => ⟨rfl, rfl, fun key => ?_⟩) fun _ => rfl
  by_cases hkey : key = (some mode, some segment)
  · subst hkey
    refine ⟨fun e => decide (e.1 ≠ p), by simp [dropEntry], fun e _ he => ?_⟩
    have he : e.1 = p := by simpa using he
    exact ⟨mode, segment, rfl, he ▸ hp⟩
  · exact ⟨fun _ => true, by simp [hkey], by simp⟩

theorem keepValid_spec (mode segment : Number) (raw : List Nat) :
    Spec (keepValid mode segment raw) s T fun ret =>
      ret = (raw.map s.load).filter (Waiting · mode segment) := by
  induction raw generalizing s with
  | nil => exact .pure rfl
  | cons p raw ih =>
      unfold keepValid
      refine (loadState_spec p).bind fun info s₁ h₁ hinfo => ?_
      have hload : s₁.load = s.load := funext h₁.load
      split
      · rename_i hwait
        refine ih.bind fun ret s₂ _ hret => .pure ?_
        rw [hret, hload, List.map_cons, List.filter_cons_of_pos (by simpa [← hinfo] using hwait),
          hinfo]
      · rename_i hwait
        have hstale : ¬ Waiting (s₁.load p) mode segment := by
          rw [hload, ← hinfo]
          exact hwait
        refine (zrem_spec hstale).bind fun _ s₂ h₂ _ => ih.mono fun ret hret => ?_
        have hload₂ : s₂.load = s.load := (funext h₂.load).trans hload
        rw [hret, hload₂, List.map_cons, List.filter_cons_of_neg (by simpa [← hinfo] using hwait)]

theorem fetchVaildFromSegment_spec (mode segment : Number) (limit : Nat) :
    Spec (fetchVaildFromSegment mode segment limit) s T fun ret =>
      ret = (((s.members mode segment).take limit).map s.load).filter (Waiting · mode segment) := by
  refine (zrange_spec mode segment limit).bind fun raw s₁ h₁ hraw => ?_
  have hload : s₁.load = s.load := funext h₁.load
  refine (keepValid_spec mode segment raw).bind fun ret s₂ _ hret => ?_
  rw [hload, hraw] at hret
  dsimp only
  split
  · have hsrem : Spec (srem mode (some segment)) s₂ T fun _ => True :=
      .command (fun _ => trivial) (fun _ => .of_eq rfl rfl rfl) fun _ => rfl
    exact hsrem.bind fun _ _ _ _ => .pure hret
  · exact .pure hret

/-! ## Filling the batch -/

/-- The ids of a batch. -/
def ids (batch : List PlayerState) : List Nat :=
  batch.map PlayerState.playerid

/-- A batch that is not full yet takes the players it does not have. -/
theorem addUnused_spec {need : Nat} {batch : List PlayerState} (list : List PlayerState)
    (hnodup : (ids batch).Nodup) (hlt : batch.length < need) :
    (ids (addUnused need batch list).1).Nodup ∧ batch <+: (addUnused need batch list).1 ∧
      (∀ x ∈ (addUnused need batch list).1, x ∈ batch ∨ x ∈ list) ∧
      ((addUnused need batch list).2 = true → (addUnused need batch list).1.length = need) ∧
      ((addUnused need batch list).2 = false → (addUnused need batch list).1.length < need ∧
        ∀ x ∈ list, x.playerid ∈ ids (addUnused need batch list).1) := by
  induction list generalizing batch with
  | nil => simp [addUnused, hnodup, hlt]
  | cons info list ih =>
      unfold addUnused
      split
      · rename_i hused
        obtain ⟨h₁, h₂, h₃, h₄, h₅⟩ := ih hnodup hlt
        refine ⟨h₁, h₂, fun x hx => ?_, h₄, fun hfull => ?_⟩
        · exact (h₃ x hx).imp id (List.mem_cons_of_mem _)
        · obtain ⟨hshort, hall⟩ := h₅ hfull
          refine ⟨hshort, fun x hx => ?_⟩
          rcases List.mem_cons.mp hx with rfl | hx
          · exact (h₂.map PlayerState.playerid).subset hused
          · exact hall x hx
      · rename_i hunused
        have hnodup' : (ids (batch ++ [info])).Nodup := by
          simp only [ids, List.map_append, List.map_cons, List.map_nil]
          exact List.nodup_append'.mpr ⟨hnodup, List.nodup_singleton _,
            List.disjoint_singleton.mpr hunused⟩
        split
        · rename_i hfull
          refine ⟨hnodup', List.prefix_append _ _, fun x hx => ?_, fun _ => ?_, by simp⟩
          · rcases List.mem_append.mp hx with hx | hx
            · exact .inl hx
            · exact .inr (List.mem_singleton.mp hx ▸ List.mem_cons_self)
          · simp only [List.length_append, List.length_singleton]
            omega
        · rename_i hshort
          have hlt' : (batch ++ [info]).length < need := by
            simp only [List.length_append, List.length_singleton]
            omega
          obtain ⟨h₁, h₂, h₃, h₄, h₅⟩ := ih hnodup' hlt'
          refine ⟨h₁, (List.prefix_append _ _).trans h₂, fun x hx => ?_, h₄, fun hfull => ?_⟩
          · rcases h₃ x hx with hx | hx
            · rcases List.mem_append.mp hx with hx | hx
              · exact .inl hx
              · exact .inr (List.mem_singleton.mp hx ▸ List.mem_cons_self)
            · exact .inr (List.mem_cons_of_mem _ hx)
          · obtain ⟨hless, hall⟩ := h₅ hfull
            refine ⟨hless, fun x hx => ?_⟩
            rcases List.mem_cons.mp hx with rfl | hx
            · refine (h₂.map PlayerState.playerid).subset ?_
              simp
            · exact hall x hx

/-- What the loop over the segments returns: nothing, or a full batch of players that wait in
one of the segments. -/
structure Found (s : Service) (mode : Number) (need : Nat) (batch : List PlayerState)
    (gs : List Number) (r : List PlayerState) : Prop where
  full : r ≠ [] → r.length = need ∧ (ids r).Nodup ∧ batch <+: r ∧
    ∀ x ∈ r, x ∈ batch ∨ x = s.load x.playerid ∧ ∃ g ∈ gs, Waiting x mode g
  /-- Without a batch, the segments without stale entries hold less players than needed. -/
  short : r = [] → ∃ all : List Nat, all.length < need ∧ ids batch ⊆ all ∧
    ∀ g ∈ gs, Fresh s mode g → (s.members mode g).Nodup → s.members mode g ⊆ all

theorem load_playerid (s : Service) (p : Nat) : (s.load p).playerid = p := by
  unfold Service.load
  cases s.records p <;> rfl

/-- The fetched part of a queue without stale entries. -/
theorem fetched_fresh {mode segment : Number} (hf : Fresh s mode segment) (n : Nat) :
    (((s.members mode segment).take n).map s.load).filter (Waiting · mode segment) =
      ((s.members mode segment).take n).map s.load := by
  rw [List.filter_eq_self]
  intro x hx
  obtain ⟨p, hp, rfl⟩ := List.mem_map.mp hx
  simpa using hf p (List.mem_of_mem_take hp)

/-- A queue from which twice the needed number has been fetched in vain has been fetched
whole. -/
theorem members_subset_of_short {need : Nat} {all members : List Nat} (hnodup : members.Nodup)
    (hlt : all.length < need) (hsub : members.take (need * 2) ⊆ all) : members ⊆ all := by
  have hle : (members.take (need * 2)).length ≤ all.length :=
    ((hnodup.sublist (List.take_sublist _ _)).subperm hsub).length_le
  rw [List.length_take] at hle
  have hshort : members.length ≤ need * 2 := by omega
  rwa [List.take_of_length_le hshort] at hsub

theorem searchSegments_spec (mode : Number) (need : Nat) (gs : List Number)
    {batch : List PlayerState} (hnodup : (ids batch).Nodup) (hlt : batch.length < need) :
    Spec (searchSegments mode need batch gs) s T (Found s mode need batch gs) := by
  induction gs generalizing batch s with
  | nil =>
      refine .pure ⟨fun h => absurd rfl h, fun _ => ⟨ids batch, ?_, fun _ h => h, by simp⟩⟩
      simpa [ids] using hlt
  | cons g gs ih =>
      unfold searchSegments
      refine (fetchVaildFromSegment_spec mode g (need * 2)).bind fun list s₁ hclean hlist => ?_
      obtain ⟨hids, hstarts, hmem, hfull, hshort⟩ :=
        addUnused_spec list hnodup hlt
      have hwaits : ∀ x ∈ list, x = s.load x.playerid ∧ Waiting x mode g := by
        intro x hx
        rw [hlist] at hx
        obtain ⟨hx, hw⟩ := List.mem_filter.mp hx
        obtain ⟨p, -, rfl⟩ := List.mem_map.mp hx
        exact ⟨by rw [load_playerid], by simpa using hw⟩
      dsimp only
      split
      · rename_i hdone
        refine .pure ⟨fun _ => ⟨hfull hdone, hids, hstarts, fun x hx => ?_⟩, fun hnil => ?_⟩
        · refine (hmem x hx).imp id fun hx => ?_
          exact ⟨(hwaits x hx).1, g, List.mem_cons_self, (hwaits x hx).2⟩
        · have := hfull hdone
          rw [hnil] at this
          simp only [List.length_nil] at this
          omega
      · rename_i hmore
        obtain ⟨hless, hall⟩ := hshort (by simpa using hmore)
        refine (ih hids hless).mono fun r hr => ⟨fun hne => ?_, fun hnil => ?_⟩
        · obtain ⟨hlen, hnd, hpre, hx⟩ := hr.full hne
          refine ⟨hlen, hnd, hstarts.trans hpre, fun x hxr => ?_⟩
          rcases hx x hxr with hx | ⟨hload, g', hg', hw⟩
          · refine (hmem x hx).imp id fun hx => ?_
            exact ⟨(hwaits x hx).1, g, List.mem_cons_self, (hwaits x hx).2⟩
          · exact .inr ⟨hclean.load _ ▸ hload, g', List.mem_cons_of_mem _ hg', hw⟩
        · obtain ⟨all, hlen, hsub, hgs⟩ := hr.short hnil
          refine ⟨all, hlen, fun p hp => hsub ?_, fun g' hg' hf hnd => ?_⟩
          · exact (hstarts.map PlayerState.playerid).subset hp
          · rcases List.mem_cons.mp hg' with rfl | hg'
            · refine members_subset_of_short hnd hlen fun p hp => hsub ?_
              have hin : s.load p ∈ list := by
                rw [hlist, fetched_fresh hf]
                exact List.mem_map_of_mem hp
              have := hall (s.load p) hin
              rwa [load_playerid] at this
            · have hmembers := hclean.members hf
              have := hgs g' hg' (hclean.fresh hf) (hmembers ▸ hnd)
              rwa [hmembers] at this

/-- Cleaning before the loop makes no difference. -/
theorem Found.of_cleaned {s s' : Service} {mode : Number} {need : Nat} {batch r : List PlayerState}
    {gs : List Number} (h : Found s' mode need batch gs r) (hclean : Cleaned s s') :
    Found s mode need batch gs r := by
  refine ⟨fun hne => ?_, fun hnil => ?_⟩
  · obtain ⟨hlen, hnd, hpre, hx⟩ := h.full hne
    refine ⟨hlen, hnd, hpre, fun x hxr => (hx x hxr).imp id fun hx => ?_⟩
    exact ⟨hclean.load _ ▸ hx.1, hx.2⟩
  · obtain ⟨all, hlen, hsub, hgs⟩ := h.short hnil
    refine ⟨all, hlen, hsub, fun g hg hf hnd => ?_⟩
    have hmembers := hclean.members hf
    have hall := hgs g hg (hclean.fresh hf) (hmembers ▸ hnd)
    rwa [hmembers] at hall

/-! ## The batch -/

theorem mem_searchOrder {center g : Number} {expand : Nat} :
    g ∈ searchOrder center expand ↔ g = center ∨ ∃ i < expand,
      g = maxZero (Number.shift center (-(i + 1 : Nat))) ∨
        g = Number.shift center (i + 1 : Nat) := by
  simp [searchOrder]

theorem Number.value_shift (x : Number) (d : Int) : (Number.shift x d).value = x.value + d := by
  cases x <;> rfl

theorem Number.shift_zero (x : Number) : Number.shift x 0 = x := by
  cases x <;> simp [Number.shift]

theorem value_maxZero (x : Number) : (maxZero x).value = max x.value 0 := by
  unfold maxZero
  split
  · simp only [Number.value_int]
    omega
  · omega

/-- The segments of the search are within the distance. -/
theorem searchOrder_distance {center g : Number} {expand : Nat} (hc : 0 ≤ center.value)
    (hg : g ∈ searchOrder center expand) : |g.value - center.value| ≤ expand := by
  rw [abs_le]
  rcases mem_searchOrder.mp hg with rfl | ⟨i, hi, rfl | rfl⟩
  · omega
  · rw [value_maxZero, Number.value_shift]
    omega
  · rw [Number.value_shift]
    omega

/-- Every segment within the distance that is not negative is searched. -/
theorem shift_mem_searchOrder {center : Number} {expand : Nat} {i : Int} (hi : |i| ≤ expand)
    (hnonneg : 0 ≤ center.value + i) : Number.shift center i ∈ searchOrder center expand := by
  rw [abs_le] at hi
  rw [mem_searchOrder]
  rcases lt_trichotomy i 0 with hneg | rfl | hpos
  · refine .inr ⟨i.natAbs - 1, by omega, .inl ?_⟩
    have hback : -((i.natAbs - 1 + 1 : Nat) : Int) = i := by omega
    rw [hback, maxZero, Number.value_shift, if_neg (by omega)]
  · exact .inl (Number.shift_zero center)
  · refine .inr ⟨i.natAbs - 1, by omega, .inr ?_⟩
    have hforth : ((i.natAbs - 1 + 1 : Nat) : Int) = i := by omega
    rw [hforth]

/-- The oldest player of a queue waits in it since a time. -/
structure Head (s : Service) (mode center : Number) (head : Nat) (enter : Number) : Prop where
  first : (s.members mode center).head? = some head
  enter : (s.load head).queueEnterMs = some enter

theorem collectBatch_spec (s : Service) (mode center : Number) (cfg : Config)
    (hneed : 2 ≤ cfg.playerNum) :
    Spec (collectBatch mode center cfg) s (∃ head enter, Head s mode center head enter) fun r =>
      (r ≠ [] → ∃ head enter, Head s mode center head enter ∧
        Waiting (s.load head) mode center ∧ Found s mode cfg.playerNum [s.load head]
          (searchOrder center (calExpandSegment s.now enter.value cfg)) r) ∧
      ∀ head enter, Head s mode center head enter → Waiting (s.load head) mode center →
        Found s mode cfg.playerNum [s.load head]
          (searchOrder center (calExpandSegment s.now enter.value cfg)) r := by
  unfold collectBatch
  refine (fetchVaildFromSegment_spec mode center 1).bind fun list s₁ hclean hlist => ?_
  cases hmembers : s.members mode center with
  | nil =>
      rw [hmembers] at hlist
      obtain rfl : list = [] := hlist
      refine .pure ⟨fun h => absurd rfl h, fun head enter h => ?_⟩
      have := h.first
      rw [hmembers] at this
      cases this
  | cons head rest =>
      have hhead : ∀ {head' enter}, Head s mode center head' enter → head' = head := by
        intro head' enter h
        have := h.first
        rw [hmembers] at this
        exact (Option.some.inj this).symm
      by_cases hwait : Waiting (s.load head) mode center
      · obtain rfl : list = [s.load head] := by
          rw [hlist, hmembers]
          simp [hwait]
        dsimp only
        cases henter : (s.load head).queueEnterMs with
        | none =>
            -- the arithmetic raises
            refine ⟨.refl s₁, fun a s' h => (by cases h), ?_⟩
            rintro ⟨head', enter, h⟩
            obtain rfl := hhead h
            have := h.enter
            rw [henter] at this
            cases this
        | some enter =>
            have hread : Spec (get : Run Service) s₁
                (∃ head enter, Head s mode center head enter) fun x => x = s₁ := by
              refine ⟨.refl s₁, fun a s' h => ?_, fun _ hs => ⟨s₁, s₁, rfl, hs⟩⟩
              cases h
              rfl
            refine hread.bind fun x s₂ hclean₂ hx => ?_
            have hnodup : (ids [s.load head]).Nodup := List.nodup_singleton _
            have hnow : x.now = s.now := by rw [hx, hclean.now]
            have hshort : [s.load head].length < cfg.playerNum := by
              rw [List.length_singleton]
              omega
            refine (searchSegments_spec mode cfg.playerNum _ hnodup hshort).mono fun r hr => ?_
            have hfound := hr.of_cleaned (hclean.trans hclean₂)
            rw [hnow] at hfound
            have hthis : Head s mode center head enter := ⟨by rw [hmembers]; rfl, henter⟩
            refine ⟨fun _ => ⟨head, enter, hthis, hwait, hfound⟩, fun head' enter' h _ => ?_⟩
            obtain rfl := hhead h
            obtain rfl : enter' = enter := Option.some.inj (h.enter.symm.trans henter)
            exact hfound
      · obtain rfl : list = [] := by
          rw [hlist, hmembers]
          simp [hwait]
        refine .pure ⟨fun h => absurd rfl h, fun head' enter h hw => ?_⟩
        obtain rfl := hhead h
        exact absurd hw hwait

/-- The distance to which {lit}`collect_batch` looks: the waiting time in intervals, rounded
down, at most {lit}`max_expand_segment` and not less than 0. -/
def expandFor (now enter : Int) (cfg : Config) : Int :=
  max 0 (min cfg.maxExpandSegment ((now - enter) / cfg.expandIntervalMs))

theorem calExpandSegment_eq (now enter : Int) (cfg : Config) :
    (calExpandSegment now enter cfg : Int) = expandFor now enter cfg := by
  unfold calExpandSegment expandFor
  omega

/-- From every content of redis, a batch is a match: as many players as the mode needs, all
different and with the head of the centre queue among them, each matching in the mode with a
segment within the distance.  Only stale entries are removed from the queues.  If the head
waits since some time, no queue of a segment within the distance that is not negative has a
stale entry, and together these queues hold enough players, there is a batch. -/
theorem collect_batch_forms_match (s : Service) (mode center : Number) (cfg : Config)
    (hneed : 2 ≤ cfg.playerNum) (hcenter : 0 ≤ center.value) :
    Cleaned s (after (collectBatch mode center cfg s)) ∧
    (∀ batch s', collectBatch mode center cfg s = .ok batch s' → batch ≠ [] →
      batch.length = cfg.playerNum ∧ (ids batch).Nodup ∧
      ∃ head enter, Head s mode center head enter ∧ s.load head ∈ batch ∧
        ∀ x ∈ batch, x = s.load x.playerid ∧ ∃ segment, Waiting x mode segment ∧
          |segment.value - center.value| ≤ expandFor s.now enter.value cfg) ∧
    ∀ head enter, Head s mode center head enter → s.fault = none →
      (∀ i, |i| ≤ expandFor s.now enter.value cfg → 0 ≤ center.value + i →
        Fresh s mode (Number.shift center i) ∧ (s.members mode (Number.shift center i)).Nodup) →
      ∀ ps : List Nat, ps.Nodup → cfg.playerNum ≤ ps.length →
        (∀ p ∈ ps, ∃ i, |i| ≤ expandFor s.now enter.value cfg ∧ 0 ≤ center.value + i ∧
          p ∈ s.members mode (Number.shift center i)) →
        ∃ batch s', collectBatch mode center cfg s = .ok batch s' ∧ batch ≠ [] := by
  have hspec := collectBatch_spec s mode center cfg hneed
  refine ⟨hspec.cleaned, ?_, ?_⟩
  · intro batch s' hrun hne
    obtain ⟨head, enter, hhead, hwait, hfound⟩ := (hspec.ok batch s' hrun).1 hne
    obtain ⟨hlen, hnodup, hstarts, hx⟩ := hfound.full hne
    have hmem : s.load head ∈ batch := hstarts.subset (List.mem_singleton.mpr rfl)
    refine ⟨hlen, hnodup, head, enter, hhead, hmem, fun x hxb => ?_⟩
    rw [← calExpandSegment_eq]
    rcases hx x hxb with hx | ⟨hload, g, hg, hw⟩
    · obtain rfl := List.mem_singleton.mp hx
      refine ⟨by rw [load_playerid], center, hwait, ?_⟩
      rw [sub_self, abs_zero]
      exact Int.natCast_nonneg _
    · exact ⟨hload, g, hw, searchOrder_distance hcenter hg⟩
  · intro head enter hhead hcalm hqueues ps hps hlen hin
    obtain ⟨batch, s', hrun, -⟩ := hspec.total ⟨head, enter, hhead⟩ hcalm
    refine ⟨batch, s', hrun, fun hnil => ?_⟩
    rw [← calExpandSegment_eq] at hqueues hin
    have hwait : Waiting (s.load head) mode center := by
      have hfresh := (hqueues 0 (by simp) (by simpa using hcenter)).1
      rw [Number.shift_zero] at hfresh
      exact hfresh head (List.mem_of_mem_head? hhead.first)
    obtain ⟨all, hall, -, hgs⟩ :=
      ((hspec.ok batch s' hrun).2 head enter hhead hwait).short hnil
    have hsub : ps ⊆ all := by
      intro p hp
      obtain ⟨i, hi, hnonneg, hmem⟩ := hin p hp
      obtain ⟨hfresh, hnodup⟩ := hqueues i hi hnonneg
      exact hgs _ (shift_mem_searchOrder hi hnonneg) hfresh hnodup hmem
    have := (hps.subperm hsub).length_le
    omega

/-- The record of a player who waits in mode 1. -/
def waitingSince (segment enter : Int) : StoredState where
  state := .matching
  modeId := some 1
  segmentId := some segment
  queueEnterMs := some enter

/-- Players 1 and 2 wait in a queue each, player 1 since a time. -/
def twoWaiting (segment : Int) (enter : Int) : Service where
  records p :=
    if p = 1 then some (waitingSince 0 enter)
    else if p = 2 then some (waitingSince segment 0)
    else none
  queues key :=
    if key = (some (.int 1), some (.int 0)) then
      if segment = 0 then [(1, 0), (2, 0)] else [(1, 0)]
    else if key = (some (.int 1), some (.int segment)) then [(2, 0)]
    else []
  active _ := []
  allocVersion := 0
  allocRecords _ := none
  shuttingDown := false
  now := 5000
  fault := none
  sent := []

/-- The batch of a run that returns. -/
def returned : EStateM.Result Unit Service (List PlayerState) → Option (List Nat)
  | .ok batch _ => some (ids batch)
  | .error _ _ => none

/-- Player 1 has waited for one interval, and player 2 is in the next segment. -/
theorem collect_batch_forms_match_two : ∃ batch s',
    collectBatch (.int 1) (.int 0) ⟨2, 100, 5000, 1⟩ (twoWaiting 1 0) = .ok batch s' ∧
      ids batch = [1, 2] ∧ batch.length = 2 := by
  have h := (collect_batch_forms_match (twoWaiting 1 0) (.int 1) (.int 0) ⟨2, 100, 5000, 1⟩
    le_rfl le_rfl).2.1
  have hids : returned (collectBatch (.int 1) (.int 0) ⟨2, 100, 5000, 1⟩ (twoWaiting 1 0)) =
      some [1, 2] := by decide +kernel
  cases hrun : collectBatch (.int 1) (.int 0) ⟨2, 100, 5000, 1⟩ (twoWaiting 1 0) with
  | error e s' =>
      rw [hrun] at hids
      cases hids
  | ok batch s' =>
      rw [hrun] at hids
      have hids : ids batch = [1, 2] := Option.some.inj hids
      have hne : batch ≠ [] := by
        rintro rfl
        cases hids
      exact ⟨batch, s', rfl, hids, (h batch s' hrun hne).1⟩

/-- The head has entered its queue two intervals later than now, yet the batch is formed with
a player at distance 0, which is more than -2.  And a player in the queue of segment -1, at
distance 1 from the centre, is not found. -/
theorem collect_batch_clamps :
    (returned (collectBatch (.int 1) (.int 0) ⟨2, 100, 5000, 1⟩ (twoWaiting 0 15000)) =
        some [1, 2] ∧
      min 1 (((twoWaiting 0 15000).now - 15000) / 5000) < |(0 : Int) - 0|) ∧
    returned (collectBatch (.int 1) (.int 0) ⟨2, 100, 5000, 1⟩ (twoWaiting (-1) 0)) = some [] ∧
      (twoWaiting (-1) 0).members (.int 1) (.int 0) = [1] ∧
      (twoWaiting (-1) 0).members (.int 1) (.int (-1)) = [2] ∧
      Fresh (twoWaiting (-1) 0) (.int 1) (.int 0) ∧
      Fresh (twoWaiting (-1) 0) (.int 1) (.int (-1)) ∧
      |(-1 : Int) - 0| ≤ min 1 (((twoWaiting (-1) 0).now - 0) / 5000) := by
  have hcentre : (twoWaiting (-1) 0).members (.int 1) (.int 0) = [1] := by decide +kernel
  have hlower : (twoWaiting (-1) 0).members (.int 1) (.int (-1)) = [2] := by decide +kernel
  refine ⟨⟨by decide +kernel, by decide⟩, by decide +kernel, hcentre, hlower, ?_, ?_, by decide⟩
  · intro p hp
    rw [hcentre, List.mem_singleton] at hp
    subst hp
    decide
  · intro p hp
    rw [hlower, List.mem_singleton] at hp
    subst hp
    decide

end BallServer.MatchService
