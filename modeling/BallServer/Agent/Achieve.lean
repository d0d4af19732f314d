import BallServer.Agent.Data
import Mathlib.Tactic.Ring

/-!
# Achievements

An achievement is done once and paid once, as long as the agent finds its records again.
They live in memory, as JSON texts in a hash of Redis and as rows of a table, and an agent
that starts loads what a former one has saved.

Main results:

- Definition {lit}`Session.step`: what can happen to the achievements of a player, over all
  agents the player ever has.
- Structure {lit}`Advances`: what achievements that make progress can do.
- Theorem {lit}`Session.achievements_once`: what is done and paid in a run in which every
  reload finds the records the agent had in memory.
-/

namespace BallServer.Agent.Data

open Dirty (Achieve)

namespace Player

variable {cfg : Config} {s s' s'' : Player}

/-! ## Progress -/

/-- {lit}`is_done` of an achievement that may have no record. -/
def done (s : Player) (aid : Nat) : Bool :=
  match s.achieves.get aid with
  | none => false
  | some a => a.isDone

/-- {lit}`claim_time` of an achievement that may have no record. -/
def claimTimeOf (s : Player) (aid : Nat) : Option String :=
  (s.achieves.get aid).bind (·.claimTime)

/-- {lit}`progress` of an achievement that may have no record. -/
def progressOf (s : Player) (aid : Nat) : Int :=
  match s.achieves.get aid with
  | none => 0
  | some a => a.progress

/-- What is not done is short of its target. -/
def Short (cfg : Config) (s : Player) : Prop :=
  ∀ aid c a, cfg.achieveList aid = some c → s.achieves.get aid = some a → a.isDone = false →
    a.progress < c.target

/-- The numbers of the achievements that were done for the first time. -/
def firedIds (l : List AchieveInfo) : List Nat :=
  l.map (·.achieveId)

/-- Achievements made progress, and {lit}`new` became done: each once, with its target reached
and a message if there is a gateway to send it to. -/
structure Advances (cfg : Config) (s s' : Player) (new : List AchieveInfo) : Prop where
  fired : s'.fired = s.fired ++ new
  sent : s'.sent = s.sent ++ if s.gate then new else []
  gate : s'.gate = s.gate
  baseInfo : s'.baseInfo = s.baseInfo
  nodup : (firedIds new).Nodup
  done_iff : ∀ aid, s'.done aid = true ↔ s.done aid = true ∨ aid ∈ firedIds new
  undone : ∀ aid ∈ firedIds new, s.done aid = false
  reached : ∀ i ∈ new, ∃ c, cfg.achieveList i.achieveId = some c ∧ c.target ≤ i.progress
  claims : ∀ aid, s'.claimTimeOf aid = s.claimTimeOf aid
  short : s.Short cfg → s'.Short cfg

/-- Nothing happens to the achievements. -/
theorem Advances.of_same (hfired : s'.fired = s.fired) (hsent : s'.sent = s.sent)
    (hgate : s'.gate = s.gate) (hbase : s'.baseInfo = s.baseInfo)
    (hachieves : s'.achieves = s.achieves) : Advances cfg s s' [] := by
  have hdone : ∀ aid, s'.done aid = s.done aid := fun aid => by simp only [done, hachieves]
  refine ⟨by simp [hfired], by simp [hsent], hgate, hbase, List.nodup_nil, fun aid => ?_, ?_, ?_,
    fun aid => ?_, fun hs => ?_⟩
  · simp [hdone, firedIds]
  · simp [firedIds]
  · simp
  · simp only [claimTimeOf, hachieves]
  · unfold Short
    rw [hachieves]
    exact hs

theorem Advances.refl (cfg : Config) (s : Player) : Advances cfg s s [] :=
  .of_same rfl rfl rfl rfl rfl

theorem Advances.trans {new new' : List AchieveInfo} (h : Advances cfg s s' new)
    (h' : Advances cfg s' s'' new') : Advances cfg s s'' (new ++ new') where
  fired := by rw [h'.fired, h.fired, List.append_assoc]
  sent := by
    rw [h'.sent, h.sent, h.gate, List.append_assoc]
    cases s.gate <;> rfl
  gate := h'.gate.trans h.gate
  baseInfo := h'.baseInfo.trans h.baseInfo
  nodup := by
    rw [firedIds, List.map_append]
    refine h.nodup.append h'.nodup fun aid hnew hnew' => ?_
    -- what is done already is not done again
    have hdone := (h.done_iff aid).mpr (.inr hnew)
    rw [h'.undone aid hnew'] at hdone
    cases hdone
  done_iff aid := by
    rw [h'.done_iff, h.done_iff, firedIds, firedIds, firedIds, List.map_append, List.mem_append,
      or_assoc]
  undone aid haid := by
    rw [firedIds, List.map_append, List.mem_append] at haid
    rcases haid with haid | haid
    · exact h.undone aid haid
    · by_contra hdone
      have hdone' := (h.done_iff aid).mpr (.inl (by simpa using hdone))
      rw [h'.undone aid haid] at hdone'
      cases hdone'
  reached i hi := (List.mem_append.mp hi).elim (h.reached i) (h'.reached i)
  claims aid := (h'.claims aid).trans (h.claims aid)
  short := h'.short ∘ h.short

/-- Flags play no part. -/
theorem advances_setDirty (s : Player) (m : Kick.Module) (b : Bool) :
    Advances cfg s (s.setDirty m b) [] :=
  .of_same rfl rfl rfl rfl rfl

theorem getD_achieve (s : Player) (aid : Nat) : (s.achieves.get aid).getD achieve =
    ⟨s.progressOf aid, s.done aid, s.claimTimeOf aid⟩ := by
  unfold progressOf done claimTimeOf
  cases s.achieves.get aid <;> rfl

/-- What one call of {lit}`achieve_progress` does to the records. -/
theorem achieveProgress_get (s : Player) (aid : Nat) (delta : Int) {c : AchieveConfig}
    (hc : cfg.achieveList aid = some c) (i : Nat) :
    (s.achieveProgress cfg aid delta).achieves.get i = if i = aid then
      some ⟨s.progressOf aid + delta,
        s.done aid || decide (c.target ≤ s.progressOf aid + delta), s.claimTimeOf aid⟩
      else s.achieves.get i := by
  unfold achieveProgress
  simp only [hc, getD_achieve]
  split
  next h => simp [h.1]
  next h =>
    cases hdone : s.done aid
    · have hnot : ¬c.target ≤ s.progressOf aid + delta := fun hle => h ⟨hle, hdone⟩
      simp [hnot]
    · simp

/-- What one call of {lit}`achieve_progress` reports. -/
def newsOf (c : AchieveConfig) (s : Player) (aid : Nat) (delta : Int) : List AchieveInfo :=
  if c.target ≤ s.progressOf aid + delta ∧ s.done aid = false then
    [⟨aid, s.progressOf aid + delta, true, s.claimTimeOf aid⟩]
  else []

theorem achieveProgress_news (s : Player) (aid : Nat) (delta : Int) {c : AchieveConfig}
    (hc : cfg.achieveList aid = some c) :
    (s.achieveProgress cfg aid delta).fired = s.fired ++ newsOf c s aid delta ∧
      (s.achieveProgress cfg aid delta).sent =
        s.sent ++ if s.gate then newsOf c s aid delta else [] := by
  unfold achieveProgress newsOf
  simp only [hc, getD_achieve]
  split
  next h =>
    refine ⟨rfl, ?_⟩
    cases s.gate <;> simp
  next h => simp

theorem achieveProgress_advances (cfg : Config) (s : Player) (aid : Nat) (delta : Int) :
    ∃ new, Advances cfg s (s.achieveProgress cfg aid delta) new := by
  cases hc : cfg.achieveList aid with
  | none =>
      have hsame : s.achieveProgress cfg aid delta = s := by
        unfold achieveProgress
        rw [hc]
      rw [hsame]
      exact ⟨[], .refl cfg s⟩
  | some c =>
      have hget := achieveProgress_get s aid delta hc
      have hsame := achieveProgress_same cfg s aid delta
      obtain ⟨hfired, hsent⟩ := achieveProgress_news s aid delta hc
      have hclaims : ∀ i, (s.achieveProgress cfg aid delta).claimTimeOf i = s.claimTimeOf i := by
        intro i
        rw [claimTimeOf, hget]
        split
        next h =>
          subst h
          rfl
        next => rfl
      have hshort : s.Short cfg → (s.achieveProgress cfg aid delta).Short cfg := by
        intro hs i c' a hc' ha hundone
        rw [hget] at ha
        split at ha
        next h =>
          subst h
          obtain rfl := Option.some.inj (hc.symm.trans hc')
          obtain rfl := Option.some.inj ha
          simp only [Bool.or_eq_false_iff, decide_eq_false_iff_not, not_le] at hundone
          exact hundone.2
        next => exact hs i c' a hc' ha hundone
      have hdone : ∀ i, (s.achieveProgress cfg aid delta).done i =
          if i = aid then s.done aid || decide (c.target ≤ s.progressOf aid + delta)
          else s.done i := by
        intro i
        by_cases hi : i = aid
        · subst hi
          simp [done, hget]
        · simp [done, hget, hi]
      refine ⟨newsOf c s aid delta, hfired, hsent, hsame.gate, hsame.baseInfo, ?_, fun i => ?_,
        fun i hi => ?_, fun i hi => ?_, hclaims, hshort⟩
      · unfold newsOf
        split
        · exact List.nodup_singleton _
        · exact List.nodup_nil
      · rw [hdone]
        by_cases hi : i = aid
        · subst hi
          cases hold : s.done i <;> simp [newsOf, firedIds, hold]
        · have hnot : i ∉ firedIds (newsOf c s aid delta) := by
            unfold newsOf firedIds
            split <;> simp [hi]
          simp [hi, hnot]
      · unfold newsOf firedIds at hi
        split at hi
        next h =>
          rw [List.map_cons, List.map_nil, List.mem_singleton] at hi
          rw [hi]
          exact h.2
        next => cases hi
      · unfold newsOf at hi
        split at hi
        next h =>
          rw [List.mem_singleton.mp hi]
          exact ⟨c, hc, h.1⟩
        next => cases hi

theorem foldl_achieveProgress_advances (cfg : Config) (delta : Int) (aids : List Nat)
    (s : Player) :
    ∃ new, Advances cfg s (aids.foldl (fun s aid => s.achieveProgress cfg aid delta) s) new := by
  induction aids generalizing s with
  | nil => exact ⟨[], .refl cfg s⟩
  | cons aid aids ih =>
      obtain ⟨new, h⟩ := achieveProgress_advances cfg s aid delta
      obtain ⟨new', h'⟩ := ih (s.achieveProgress cfg aid delta)
      exact ⟨new ++ new', h.trans h'⟩

theorem achieveTrigger_advances (cfg : Config) (s : Player) (event : String) (delta : Int) :
    ∃ new, Advances cfg s (s.achieveTrigger cfg event delta) new := by
  unfold achieveTrigger
  split
  · exact ⟨[], .refl cfg s⟩
  · obtain ⟨new, h⟩ := foldl_achieveProgress_advances cfg delta _ (s.setDirty .achieves true)
    exact ⟨[] ++ new, (advances_setDirty s .achieves true).trans h⟩

/-- A trigger moves every achievement as often as the event lists it. -/
theorem achieveTrigger_progress (cfg : Config) (s : Player) (event : String) (delta : Int)
    {i : Nat} {c : AchieveConfig} (hc : cfg.achieveList i = some c) :
    (s.achieveTrigger cfg event delta).progressOf i =
      s.progressOf i + ((cfg.eventList event).getD []).count i * delta := by
  have hstep : ∀ (s : Player) aid, (s.achieveProgress cfg aid delta).progressOf i =
      s.progressOf i + if aid = i then delta else 0 := by
    intro s aid
    cases haid : cfg.achieveList aid with
    | none =>
        have hne : aid ≠ i := by
          rintro rfl
          rw [hc] at haid
          cases haid
        have hsame : s.achieveProgress cfg aid delta = s := by
          unfold achieveProgress
          rw [haid]
        rw [hsame, if_neg hne, add_zero]
    | some c' =>
        rw [progressOf, achieveProgress_get s aid delta haid]
        by_cases hi : i = aid
        · subst hi
          simp
        · simp [progressOf, hi, Ne.symm hi]
  have hfold : ∀ (aids : List Nat) (s : Player),
      (aids.foldl (fun s aid => s.achieveProgress cfg aid delta) s).progressOf i =
        s.progressOf i + aids.count i * delta := by
    intro aids
    induction aids with
    | nil => simp
    | cons aid aids ih =>
        intro s
        rw [List.foldl_cons, ih, hstep, List.count_cons]
        by_cases hi : aid = i
        · simp only [hi, if_true, beq_self_eq_true]
          push_cast
          ring
        · simp [hi]
  unfold achieveTrigger
  split
  next hnone => simp [hnone]
  next aids hsome =>
    rw [hsome, hfold]
    rfl

/-! ## Claims -/

/-- What a claim that is granted has found, and what it does. -/
theorem achieveClaim_spec (cfg : Config) (s : Player) (aid : Nat) (now : String) :
    ((s.achieveClaim cfg aid now).2 ≠ none ∧ (s.achieveClaim cfg aid now).1 = s) ∨
      ∃ c, cfg.achieveList aid = some c ∧ s.done aid = true ∧ s.claimTimeOf aid = none ∧
        (s.achieveClaim cfg aid now).2 = none ∧
        (s.achieveClaim cfg aid now).1.baseInfo.coin = s.baseInfo.coin + c.rewardCoin ∧
        (∀ i, (s.achieveClaim cfg aid now).1.claimTimeOf i =
          if i = aid then some now else s.claimTimeOf i) ∧
        (∀ i c', cfg.achieveList i = some c' → (s.achieveClaim cfg aid now).1.progressOf i =
          s.progressOf i + ((cfg.eventList "earn_coin").getD []).count i * c.rewardCoin) ∧
        ∃ s₁ new, Advances cfg s₁ (s.achieveClaim cfg aid now).1 new ∧ s₁.fired = s.fired ∧
          s₁.sent = s.sent ∧ s₁.gate = s.gate ∧ s₁.done = s.done ∧
          (s.Short cfg → s₁.Short cfg) := by
  unfold achieveClaim
  cases hc : cfg.achieveList aid with
  | none => exact .inl ⟨by simp, rfl⟩
  | some c =>
      simp only
      cases ha : s.achieves.get aid with
      | none => exact .inl ⟨by simp, rfl⟩
      | some a =>
          simp only
          split
          next => exact .inl ⟨by simp, rfl⟩
          next hdone =>
            split
            next => exact .inl ⟨by simp, rfl⟩
            next hclaim =>
              have hdone : a.isDone = true := by simpa using hdone
              have hclaim : a.claimTime = none := by simpa using hclaim
              set s₁ : Player := { s with
                baseInfo := { s.baseInfo with coin := s.baseInfo.coin + c.rewardCoin }
                achieves := s.achieves.set aid { a with claimTime := some now } } with hs₁
              obtain ⟨new, h⟩ := achieveTrigger_advances cfg (s₁.setDirty .achieves true)
                "earn_coin" c.rewardCoin
              have hend := h.trans (advances_setDirty _ .base_info true)
              have hstart := (advances_setDirty s₁ .achieves true).trans hend
              refine .inr ⟨c, rfl, ?_, ?_, rfl, ?_, fun i => ?_, fun i c' hc' => ?_, s₁,
                [] ++ (new ++ []), hstart, rfl, rfl, rfl, ?_, ?_⟩
              · simpa only [done, ha] using hdone
              · simp [claimTimeOf, ha, hclaim]
              · rw [hstart.baseInfo]
              · rw [hstart.claims]
                by_cases hi : i = aid
                · subst hi
                  simp [claimTimeOf, hs₁]
                · simp [claimTimeOf, hs₁, hi]
              · have hprogress := achieveTrigger_progress cfg (s₁.setDirty .achieves true)
                  "earn_coin" c.rewardCoin hc'
                refine Eq.trans ?_ (hprogress.trans ?_)
                · rfl
                · congr 1
                  by_cases hi : i = aid
                  · subst hi
                    simp [progressOf, hs₁, ha]
                  · simp [progressOf, hs₁, hi]
              · funext i
                by_cases hi : i = aid
                · subst hi
                  simp [done, hs₁, ha]
                · simp [done, hs₁, hi]
              · intro hshort i c' b hc' hb hundone
                simp only [hs₁, Table.get_set] at hb
                split at hb
                next hi =>
                  obtain rfl := Option.some.inj hb
                  rw [hdone] at hundone
                  cases hundone
                next => exact hshort i c' b hc' hb hundone

end Player

/-! ## Sessions -/

/-- A record as a JSON text of the hash or a row of the table; an achievement that was not
claimed has no key for it, or NULL. -/
structure Row where
  achieveId : Nat
  progress : Int
  isDone : Int
  claimTime : Option String
deriving DecidableEq, Repr

/-- {lit}`cjson.encode` of a record. -/
def encode (aid : Nat) (a : Achieve) : Row :=
  ⟨aid, a.progress, if a.isDone then 1 else 0, a.claimTime⟩

/-- {lit}`cjson.decode`, and the loop that reads the rows. -/
def decode (r : Row) : Achieve :=
  ⟨r.progress, decide (r.isDone ≠ 0), r.claimTime⟩

theorem decode_encode (aid : Nat) (a : Achieve) : decode (encode aid a) = a := by
  obtain ⟨progress, isDone, claimTime⟩ := a
  cases isDone <;> rfl

/-- Every value of a table is turned into another one. -/
def mapTable {α β : Type} (f : Nat → α → β) (t : Table α) : Table β where
  get k := (t.get k).map (f k)
  keys := t.keys
  mem_keys k := by rw [t.mem_keys, Option.isSome_map]

/-- {lit}`hmset`: the fields of the second table are written over the first one. -/
def overlay {α : Type} (t t' : Table α) : Table α where
  get k := (t'.get k).or (t.get k)
  keys := t.keys ∪ t'.keys
  mem_keys k := by
    rw [Finset.mem_union, t.mem_keys, t'.mem_keys, Option.isSome_or]
    simp [or_comm]

/-- The data of a player in the agent of the moment, in the hash of Redis and in the table
{lit}`achievement`, and for every claim that was granted the coins it brought. -/
structure Session where
  player : Player
  cache : Table Row
  rows : Table Row
  claimed : List (Nat × Int)

/-- What can happen: the functions of the agent, a save that goes to Redis or, if that fails,
writes some rows, a write of {lit}`dbsync`, the end of the hash, a new agent that loads the
records and visits the configuration in some order, and its first message. -/
inductive Op where
  | trigger (event : String) (delta : Int)
  | progress (aid : Nat) (delta : Int)
  | claim (aid : Nat) (now : String)
  | saveRedis
  | saveSql (written : List Nat)
  | flush (written : List Nat)
  | expire
  | reload (fresh : Player) (order : List Nat)
  | gateKnown

namespace Session

/-- The records {lit}`achieve_init` finds: those of the hash, or without one those of the
table. -/
def load (t : Session) : Table Achieve :=
  mapTable (fun _ => decode) (if t.cache.keys.Nonempty then t.cache else t.rows)

/-- {lit}`save_achieve` when Redis takes the records. -/
def saveRedis (t : Session) : Session :=
  { t with cache := overlay t.cache (mapTable encode t.player.achieves) }

/-- Rows of some achievements are replaced. -/
def writeRows (from_ : Table Row) (written : List Nat) (rows : Table Row) : Table Row :=
  written.foldl (fun rows aid =>
    match from_.get aid with
    | none => rows
    | some r => rows.set aid r) rows

/-- {lit}`save_achieve` when Redis fails: the hash is deleted, and rows are written until one
of them fails. -/
def saveSql (written : List Nat) (t : Session) : Session :=
  if t.player.achieves.keys.Nonempty then
    { t with
      cache := .empty
      rows := writeRows (mapTable encode t.player.achieves) written t.rows }
  else t

/-- {lit}`achieve_init` for an achievement that may be new: its progress is that of its event,
and only {lit}`earn_coin` has a handler. -/
def addNew (cfg : Config) (s : Player) (aid : Nat) : Player :=
  match cfg.achieveList aid with
  | none => s
  | some c =>
      if (s.achieves.get aid).isNone ∧ c.event = "earn_coin" then
        (s.achieveProgress cfg aid s.baseInfo.coin).setDirty .achieves true
      else s

/-- {lit}`achieve_init` of a new agent. -/
def reload (cfg : Config) (fresh : Player) (order : List Nat) (t : Session) : Session :=
  { t with
    player := order.foldl (addNew cfg) { fresh with
      achieves := t.load
      sent := t.player.sent
      fired := t.player.fired }
    cache := if t.cache.keys.Nonempty then t.cache else mapTable encode t.load }

/-- {lit}`achieve_claim`, and what it has paid. -/
def claim (cfg : Config) (aid : Nat) (now : String) (t : Session) : Session :=
  let (s, refusal) := t.player.achieveClaim cfg aid now
  { t with
    player := s
    claimed :=
      if refusal = none then t.claimed ++ [(aid, s.baseInfo.coin - t.player.baseInfo.coin)]
      else t.claimed }

/-- One step. -/
def step (cfg : Config) (t : Session) : Op → Session
  | .trigger event delta => { t with player := t.player.achieveTrigger cfg event delta }
  | .progress aid delta => { t with player := t.player.achieveProgress cfg aid delta }
  | .claim aid now => t.claim cfg aid now
  | .saveRedis => t.saveRedis
  | .saveSql written => t.saveSql written
  | .flush written => { t with rows := writeRows t.cache written t.rows }
  | .expire => { t with cache := .empty }
  | .reload fresh order => t.reload cfg fresh order
  | .gateKnown => { t with player := { t.player with gate := true } }

/-- A sequence of steps. -/
def run (cfg : Config) (t : Session) (ops : List Op) : Session :=
  ops.foldl (step cfg) t

/-- A player whose log begins. -/
def start (s : Player) (cache rows : Table Row) : Session where
  player := { s with
    sent := []
    fired := [] }
  cache := cache
  rows := rows
  claimed := []

/-- A reload finds the records as they are in memory. -/
def Finds (t : Session) : Op → Prop
  | .reload _ _ => ∀ aid, t.load.get aid = t.player.achieves.get aid
  | _ => True

/-- Every reload of the run does. -/
def Remembers (cfg : Config) (t : Session) : List Op → Prop
  | [] => True
  | op :: ops => t.Finds op ∧ (t.step cfg op).Remembers cfg ops

variable {cfg : Config} {t : Session}

/-! ## What a save brings back -/

/-- What Redis has taken is found again. -/
theorem saveRedis_load (hkeys : t.cache.keys ⊆ t.player.achieves.keys)
    (hsome : t.player.achieves.keys.Nonempty) (aid : Nat) :
    t.saveRedis.load.get aid = t.player.achieves.get aid := by
  have hne : t.saveRedis.cache.keys.Nonempty := hsome.mono Finset.subset_union_right
  have hget : t.saveRedis.load.get aid = (t.saveRedis.cache.get aid).map decode := by
    unfold load
    rw [if_pos hne]
    rfl
  rw [hget]
  show (((t.player.achieves.get aid).map (encode aid)).or (t.cache.get aid)).map decode = _
  cases ha : t.player.achieves.get aid with
  | none =>
      have hnot : aid ∉ t.cache.keys := by
        intro hin
        have hin := (t.player.achieves.mem_keys aid).mp (hkeys hin)
        rw [ha] at hin
        cases hin
      rw [Table.get_eq_none hnot]
      rfl
  | some a => simp [decode_encode]

theorem writeRows_get (from_ rows : Table Row) (written : List Nat) (aid : Nat) :
    (writeRows from_ written rows).get aid =
      if aid ∈ written then (from_.get aid).or (rows.get aid) else rows.get aid := by
  induction written generalizing rows with
  | nil => rfl
  | cons i written ih =>
      have hcons : writeRows from_ (i :: written) rows = writeRows from_ written
          (match from_.get i with
          | none => rows
          | some r => rows.set i r) := rfl
      rw [hcons, ih]
      by_cases hi : aid = i
      · subst hi
        cases hfrom : from_.get aid with
        | none => simp
        | some r => simp
      · cases hfrom : from_.get i with
        | none => simp [hi]
        | some r => simp [hi]

/-- Rows that have all been written are found again. -/
theorem writeRows_load {from_ rows : Table Row} {s : Player} {written : List Nat}
    (hfrom : ∀ aid, from_.get aid = (s.achieves.get aid).map (encode aid))
    (hkeys : rows.keys ⊆ s.achieves.keys) (hall : ∀ aid ∈ s.achieves.keys, aid ∈ written)
    (aid : Nat) : ((writeRows from_ written rows).get aid).map decode = s.achieves.get aid := by
  rw [writeRows_get, hfrom]
  cases ha : s.achieves.get aid with
  | none =>
      have hnot : aid ∉ rows.keys := by
        intro hin
        have hin := (s.achieves.mem_keys aid).mp (hkeys hin)
        rw [ha] at hin
        cases hin
      rw [Table.get_eq_none hnot]
      simp
  | some a =>
      have hin : aid ∈ s.achieves.keys := by
        rw [s.achieves.mem_keys, ha]
        rfl
      simp [hall aid hin, decode_encode]

/-- What the table has taken is found again. -/
theorem saveSql_load {written : List Nat} (hkeys : t.rows.keys ⊆ t.player.achieves.keys)
    (hsome : t.player.achieves.keys.Nonempty) (hall : ∀ aid ∈ t.player.achieves.keys, aid ∈ written)
    (aid : Nat) : (t.saveSql written).load.get aid = t.player.achieves.get aid := by
  have hget : (t.saveSql written).load.get aid =
      ((writeRows (mapTable encode t.player.achieves) written t.rows).get aid).map decode := by
    unfold load saveSql
    rw [if_pos hsome]
    simp [mapTable]
  rw [hget]
  exact writeRows_load (fun _ => rfl) hkeys hall aid

/-- What Redis has taken and {lit}`dbsync` has written is found again when the hash has ended. -/
theorem flushed_load (cfg : Config) {written : List Nat}
    (hcache : t.cache.keys ⊆ t.player.achieves.keys)
    (hkeys : t.rows.keys ⊆ t.player.achieves.keys)
    (hall : ∀ aid ∈ t.player.achieves.keys, aid ∈ written) (aid : Nat) :
    ((t.saveRedis.step cfg (.flush written)).step cfg .expire).load.get aid =
      t.player.achieves.get aid := by
  have hget : ((t.saveRedis.step cfg (.flush written)).step cfg .expire).load.get aid =
      ((writeRows t.saveRedis.cache written t.rows).get aid).map decode := by
    unfold load
    rw [if_neg (by simp [step])]
    rfl
  rw [hget]
  refine writeRows_load (fun k => ?_) hkeys hall aid
  -- the fields of the hash are those of the records
  show ((t.player.achieves.get k).map (encode k)).or (t.cache.get k) = _
  cases ha : t.player.achieves.get k with
  | none =>
      have hnot : k ∉ t.cache.keys := by
        intro hin
        have hin := (t.player.achieves.mem_keys k).mp (hcache hin)
        rw [ha] at hin
        cases hin
      rw [Table.get_eq_none hnot]
      rfl
  | some a => rfl

/-- What has been saved is found by the next agent, whether the hash lasts, {lit}`dbsync` has
written it before the hash ends, or Redis has failed. -/
theorem saved_load (cfg : Config) {written : List Nat}
    (hcache : t.cache.keys ⊆ t.player.achieves.keys)
    (hkeys : t.rows.keys ⊆ t.player.achieves.keys) (hsome : t.player.achieves.keys.Nonempty)
    (hall : ∀ aid ∈ t.player.achieves.keys, aid ∈ written) (fresh : Player) (order : List Nat) :
    t.saveRedis.Finds (.reload fresh order) ∧
      ((t.saveRedis.step cfg (.flush written)).step cfg .expire).Finds (.reload fresh order) ∧
      (t.saveSql written).Finds (.reload fresh order) := by
  refine ⟨saveRedis_load hcache hsome, flushed_load cfg hcache hkeys hall, fun aid => ?_⟩
  have hplayer : (t.saveSql written).player = t.player := by
    unfold saveSql
    split <;> rfl
  rw [hplayer]
  exact saveSql_load hkeys hsome hall aid

/-! ## Once -/

open Player

/-- What has been done and paid since the log began, with {lit}`s` as it was then. -/
structure Paid (cfg : Config) (s : Player) (t : Session) : Prop where
  short : t.player.Short cfg
  fired_once : (firedIds t.player.fired).Nodup
  done_iff : ∀ aid, t.player.done aid = true ↔
    s.done aid = true ∨ aid ∈ firedIds t.player.fired
  undone : ∀ aid ∈ firedIds t.player.fired, s.done aid = false
  reached : ∀ i ∈ t.player.fired, ∃ c, cfg.achieveList i.achieveId = some c ∧
    c.target ≤ i.progress
  paid_once : (t.claimed.map Prod.fst).Nodup
  paid_iff : ∀ aid, (t.player.claimTimeOf aid).isSome ↔
    (s.claimTimeOf aid).isSome ∨ aid ∈ t.claimed.map Prod.fst
  unpaid : ∀ aid ∈ t.claimed.map Prod.fst, s.claimTimeOf aid = none
  reward : ∀ k ∈ t.claimed, t.player.done k.1 = true ∧
    ∃ c, cfg.achieveList k.1 = some c ∧ k.2 = c.rewardCoin

/-- What becomes done is new in the log. -/
theorem Paid.log {s s₁ s' : Player} {new : List AchieveInfo} (h : Paid cfg s t)
    (ha : Advances cfg s₁ s' new) (hfired : s₁.fired = t.player.fired)
    (hdone : s₁.done = t.player.done) :
    (firedIds s'.fired).Nodup ∧
      (∀ aid, s'.done aid = true ↔ s.done aid = true ∨ aid ∈ firedIds s'.fired) ∧
      (∀ aid ∈ firedIds s'.fired, s.done aid = false) ∧
      ∀ i ∈ s'.fired, ∃ c, cfg.achieveList i.achieveId = some c ∧ c.target ≤ i.progress := by
  have hids : firedIds s'.fired = firedIds t.player.fired ++ firedIds new := by
    rw [ha.fired, hfired, firedIds, List.map_append]
    rfl
  have hundone : ∀ aid ∈ firedIds new, t.player.done aid = false :=
    fun aid haid => hdone ▸ ha.undone aid haid
  rw [hids]
  refine ⟨?_, fun aid => ?_, fun aid haid => ?_, fun i hi => ?_⟩
  · refine h.fired_once.append ha.nodup fun aid hold hnew => ?_
    have hdone := (h.done_iff aid).mpr (.inr hold)
    rw [hundone aid hnew] at hdone
    cases hdone
  · rw [ha.done_iff, hdone, h.done_iff, List.mem_append, or_assoc]
  · rcases List.mem_append.mp haid with haid | haid
    · exact h.undone aid haid
    · by_contra hdone
      have hold := (h.done_iff aid).mpr (.inl (by simpa using hdone))
      rw [hundone aid haid] at hold
      cases hold
  · rw [ha.fired, hfired, List.mem_append] at hi
    exact hi.elim (h.reached i) (ha.reached i)

/-- Achievements make progress. -/
theorem Paid.advance {s s' : Player} {new : List AchieveInfo} (h : Paid cfg s t)
    (ha : Advances cfg t.player s' new) (cache rows : Table Row) :
    Paid cfg s ⟨s', cache, rows, t.claimed⟩ := by
  obtain ⟨honce, hiff, hundone, hreached⟩ := h.log ha rfl rfl
  refine ⟨ha.short h.short, honce, hiff, hundone, hreached, h.paid_once, fun aid => ?_, h.unpaid,
    fun k hk => ?_⟩
  · rw [ha.claims]
    exact h.paid_iff aid
  · exact ⟨(ha.done_iff _).mpr (.inl (h.reward k hk).1), (h.reward k hk).2⟩

/-- The records are found again. -/
theorem Paid.found {s s' : Player} (h : Paid cfg s t)
    (hget : ∀ aid, s'.achieves.get aid = t.player.achieves.get aid)
    (hfired : s'.fired = t.player.fired) : Paid cfg s { t with player := s' } := by
  have hdone : s'.done = t.player.done := by
    funext aid
    simp only [done, hget]
  have hclaims : s'.claimTimeOf = t.player.claimTimeOf := by
    funext aid
    simp only [claimTimeOf, hget]
  refine ⟨fun aid c a hc ha => h.short aid c a hc (hget aid ▸ ha), ?_, ?_, ?_, ?_, h.paid_once, ?_,
    h.unpaid, ?_⟩
  · exact hfired ▸ h.fired_once
  · rw [hdone, hfired]
    exact h.done_iff
  · rw [hfired]
    exact h.undone
  · rw [hfired]
    exact h.reached
  · rw [hclaims]
    exact h.paid_iff
  · rw [hdone]
    exact h.reward

theorem addNew_advances (cfg : Config) (order : List Nat) (s : Player) :
    ∃ new, Advances cfg s (order.foldl (addNew cfg) s) new := by
  induction order generalizing s with
  | nil => exact ⟨[], .refl cfg s⟩
  | cons aid order ih =>
      have hstep : ∃ new, Advances cfg s (addNew cfg s aid) new := by
        unfold addNew
        split
        · exact ⟨[], .refl cfg s⟩
        · split
          · obtain ⟨new, h⟩ := achieveProgress_advances cfg s aid s.baseInfo.coin
            exact ⟨new ++ [], h.trans (advances_setDirty _ .achieves true)⟩
          · exact ⟨[], .refl cfg s⟩
      obtain ⟨new, h⟩ := hstep
      obtain ⟨new', h'⟩ := ih (addNew cfg s aid)
      exact ⟨new ++ new', h.trans h'⟩

/-- A claim pays once. -/
theorem Paid.claim {s : Player} (h : Paid cfg s t) (aid : Nat) (now : String) :
    Paid cfg s (t.claim cfg aid now) := by
  rcases achieveClaim_spec cfg t.player aid now with ⟨hrefused, hsame⟩ |
    ⟨c, hc, hdone, hnone, hgranted, hcoin, hclaims, -, s₁, new, ha, hfired, -, -, hdone₁, hshort⟩
  · have hsession : t.claim cfg aid now = t := by
      unfold Session.claim
      simp only [hsame, if_neg hrefused]
    rw [hsession]
    exact h
  · have hsession : t.claim cfg aid now = ⟨(t.player.achieveClaim cfg aid now).1, t.cache, t.rows,
        t.claimed ++ [(aid, c.rewardCoin)]⟩ := by
      unfold Session.claim
      simp only [hgranted, if_true, hcoin, add_sub_cancel_left]
    have hnew : aid ∉ t.claimed.map Prod.fst := by
      intro hin
      have hpaid := (h.paid_iff aid).mpr (.inr hin)
      rw [hnone] at hpaid
      cases hpaid
    rw [hsession]
    have hids : (t.claimed ++ [(aid, c.rewardCoin)]).map Prod.fst =
        t.claimed.map Prod.fst ++ [aid] := by simp
    obtain ⟨honce, hiff, hundone, hreached⟩ := h.log ha hfired hdone₁
    refine ⟨ha.short (hshort h.short), honce, hiff, hundone, hreached, ?_, fun i => ?_,
      fun i hi => ?_, fun k hk => ?_⟩
    · rw [hids]
      exact h.paid_once.append (List.nodup_singleton _) (by simpa using hnew)
    · rw [hclaims, hids, List.mem_append, List.mem_singleton]
      by_cases hi : i = aid
      · simp [hi]
      · rw [if_neg hi, h.paid_iff]
        simp [hi]
    · rw [hids, List.mem_append, List.mem_singleton] at hi
      rcases hi with hi | rfl
      · exact h.unpaid i hi
      · have hnot := mt (fun hold => (h.paid_iff i).mpr (.inl hold)) (by simp [hnone])
        simpa using hnot
    · rcases List.mem_append.mp hk with hk | hk
      · obtain ⟨hold, hreward⟩ := h.reward k hk
        exact ⟨(ha.done_iff _).mpr (.inl (hdone₁ ▸ hold)), hreward⟩
      · rw [List.mem_singleton.mp hk]
        exact ⟨(ha.done_iff _).mpr (.inl (hdone₁ ▸ hdone)), c, hc, rfl⟩

theorem Paid.step {s : Player} (h : Paid cfg s t) {op : Op} (hop : t.Finds op) :
    Paid cfg s (t.step cfg op) := by
  have hstore : ∀ cache rows, Paid cfg s ⟨t.player, cache, rows, t.claimed⟩ := fun cache rows =>
    h.advance (.refl cfg t.player) cache rows
  cases op with
  | trigger event delta =>
      obtain ⟨new, ha⟩ := achieveTrigger_advances cfg t.player event delta
      exact h.advance ha t.cache t.rows
  | progress aid delta =>
      obtain ⟨new, ha⟩ := achieveProgress_advances cfg t.player aid delta
      exact h.advance ha t.cache t.rows
  | claim aid now => exact h.claim aid now
  | saveRedis => exact hstore _ _
  | saveSql written =>
      show Paid cfg s (t.saveSql written)
      unfold saveSql
      split
      · exact hstore _ _
      · exact h
  | flush written => exact hstore _ _
  | expire => exact hstore _ _
  | reload fresh order =>
      have hfound : Paid cfg s { t with player := { fresh with
          achieves := t.load
          sent := t.player.sent
          fired := t.player.fired } } := h.found hop rfl
      obtain ⟨new, ha⟩ := addNew_advances cfg order { fresh with
        achieves := t.load
        sent := t.player.sent
        fired := t.player.fired }
      exact hfound.advance ha _ t.rows
  | gateKnown => exact h.found (fun _ => rfl) rfl

theorem Paid.run {s : Player} (h : Paid cfg s t) {ops : List Op} (hops : t.Remembers cfg ops) :
    Paid cfg s (t.run cfg ops) := by
  induction ops generalizing t with
  | nil => exact h
  | cons op ops ih => exact ih (h.step hops.1) hops.2

/-- What becomes done in a step is new in the log, and is sent if there is a gateway. -/
theorem step_news {op : Op} (hop : t.Finds op) :
    ∃ new, (t.step cfg op).player.fired = t.player.fired ++ new ∧
      (t.step cfg op).player.sent =
        t.player.sent ++ (if (t.step cfg op).player.gate then new else []) ∧
      ∀ aid, aid ∈ firedIds new ↔
        t.player.done aid = false ∧ (t.step cfg op).player.done aid = true := by
  have hadvance : ∀ {s s' : Player} {new : List AchieveInfo}, Advances cfg s s' new →
      s.fired = t.player.fired → s.sent = t.player.sent → s.done = t.player.done →
      ∃ new, s'.fired = t.player.fired ++ new ∧
        s'.sent = t.player.sent ++ (if s'.gate then new else []) ∧
        ∀ aid, aid ∈ firedIds new ↔ t.player.done aid = false ∧ s'.done aid = true := by
    intro s s' new ha hfired hsent hdone
    refine ⟨new, hfired ▸ ha.fired, ?_, fun aid => ?_⟩
    · rw [ha.gate, ← hsent]
      exact ha.sent
    · rw [← hdone, ha.done_iff]
      constructor
      · exact fun h => ⟨ha.undone aid h, .inr h⟩
      · rintro ⟨hundone, hold | hnew⟩
        · rw [hundone] at hold
          cases hold
        · exact hnew
  have hstay : ∀ {s' : Player}, s' = t.player → ∃ new, s'.fired = t.player.fired ++ new ∧
        s'.sent = t.player.sent ++ (if s'.gate then new else []) ∧
        ∀ aid, aid ∈ firedIds new ↔ t.player.done aid = false ∧ s'.done aid = true := by
    rintro s' rfl
    exact hadvance (.refl cfg t.player) rfl rfl rfl
  cases op with
  | trigger event delta =>
      obtain ⟨new, ha⟩ := achieveTrigger_advances cfg t.player event delta
      exact hadvance ha rfl rfl rfl
  | progress aid delta =>
      obtain ⟨new, ha⟩ := achieveProgress_advances cfg t.player aid delta
      exact hadvance ha rfl rfl rfl
  | claim aid now =>
      rcases achieveClaim_spec cfg t.player aid now with ⟨-, hsame⟩ |
        ⟨-, -, -, -, -, -, -, -, s₁, new, ha, hfired, hsent, -, hdone, -⟩
      · exact hstay hsame
      · exact hadvance ha hfired hsent hdone
  | saveRedis => exact hstay rfl
  | saveSql written =>
      refine hstay ?_
      show (t.saveSql written).player = t.player
      unfold saveSql
      split <;> rfl
  | flush written => exact hstay rfl
  | expire => exact hstay rfl
  | reload fresh order =>
      obtain ⟨new, ha⟩ := addNew_advances cfg order { fresh with
        achieves := t.load
        sent := t.player.sent
        fired := t.player.fired }
      refine hadvance ha rfl rfl ?_
      funext aid
      have hget : t.load.get aid = t.player.achieves.get aid := hop aid
      simp only [done, hget]
  | gateKnown =>
      have hsame : (t.step cfg .gateKnown).player.done = t.player.done := rfl
      refine ⟨[], by simp [Session.step], by simp [Session.step], fun aid => ?_⟩
      rw [hsame]
      simp [firedIds]

/-- A granted claim pays the reward and moves the achievements of {lit}`earn_coin` by it. -/
theorem claim_earns (cfg : Config) {s : Player} {aid : Nat} {now : String}
    (h : (s.achieveClaim cfg aid now).2 = none) :
    ∃ c, cfg.achieveList aid = some c ∧
      (s.achieveClaim cfg aid now).1.baseInfo.coin = s.baseInfo.coin + c.rewardCoin ∧
      ∀ i c', cfg.achieveList i = some c' → (s.achieveClaim cfg aid now).1.progressOf i =
        s.progressOf i + ((cfg.eventList "earn_coin").getD []).count i * c.rewardCoin := by
  rcases achieveClaim_spec cfg s aid now with ⟨hrefused, -⟩ |
    ⟨c, hc, -, -, -, hcoin, -, hprogress, -⟩
  · exact absurd h hrefused
  · exact ⟨c, hc, hcoin, hprogress⟩

/-- {lit}`reward_coin` of an achievement. -/
def rewardOf (cfg : Config) (aid : Nat) : Int :=
  match cfg.achieveList aid with
  | none => 0
  | some c => c.rewardCoin

theorem start_paid {s : Player} (hs : s.Short cfg) (cache rows : Table Row) :
    Paid cfg s (start s cache rows) where
  short := hs
  fired_once := List.nodup_nil
  done_iff aid := by
    have hfired : aid ∉ firedIds (start s cache rows).player.fired := List.not_mem_nil
    exact ⟨.inl, fun h => h.resolve_right hfired⟩
  undone := by simp [firedIds, start]
  reached := by simp [start]
  paid_once := List.nodup_nil
  paid_iff aid := by
    have hclaimed : aid ∉ (start s cache rows).claimed.map Prod.fst := List.not_mem_nil
    exact ⟨.inl, fun h => h.resolve_right hclaimed⟩
  unpaid := by simp [start]
  reward := by simp [start]

/-- In a run in which every reload finds the records that were in memory, each achievement
becomes done once at most, when its target is reached and with a message if there is a gateway,
and is paid once at most, when it is done; a claim brings its reward, and moves every
achievement by it as often as {lit}`earn_coin` lists it; a claim that is refused changes nothing. -/
theorem achievements_once (cfg : Config) {s : Player} (hs : s.Short cfg) (cache rows : Table Row)
    {ops : List Op} (hops : (start s cache rows).Remembers cfg ops) :
    let t := (start s cache rows).run cfg ops
    ((firedIds t.player.fired).Nodup ∧ (∀ aid, t.player.done aid = true ↔
        s.done aid = true ∨ aid ∈ firedIds t.player.fired) ∧
      (∀ aid ∈ firedIds t.player.fired, s.done aid = false) ∧ t.player.Short cfg ∧
      ∀ i ∈ t.player.fired, ∃ c, cfg.achieveList i.achieveId = some c ∧ c.target ≤ i.progress) ∧
    (∀ op, t.Finds op → ∃ new, (t.step cfg op).player.fired = t.player.fired ++ new ∧
      (t.step cfg op).player.sent =
        t.player.sent ++ (if (t.step cfg op).player.gate then new else []) ∧
      ∀ aid, aid ∈ firedIds new ↔
        t.player.done aid = false ∧ (t.step cfg op).player.done aid = true) ∧
    ((t.claimed.map Prod.fst).Nodup ∧
      (∀ aid ∈ t.claimed.map Prod.fst, t.player.done aid = true ∧ s.claimTimeOf aid = none) ∧
      (t.claimed.map Prod.snd).sum = (t.claimed.map fun k => rewardOf cfg k.1).sum) ∧
    ∀ aid now, ((t.player.achieveClaim cfg aid now).2 = none →
        (t.player.achieveClaim cfg aid now).1.baseInfo.coin =
          t.player.baseInfo.coin + rewardOf cfg aid ∧
        ∀ i c, cfg.achieveList i = some c →
          (t.player.achieveClaim cfg aid now).1.progressOf i = t.player.progressOf i +
            ((cfg.eventList "earn_coin").getD []).count i * rewardOf cfg aid) ∧
      ((t.player.achieveClaim cfg aid now).2 ≠ none →
        (t.player.achieveClaim cfg aid now).1 = t.player) := by
  have h := (start_paid hs cache rows).run hops
  intro t
  refine ⟨⟨h.fired_once, h.done_iff, h.undone, h.short, h.reached⟩, fun op hop => step_news hop,
    ⟨h.paid_once, fun aid haid => ?_, ?_⟩, fun aid now => ⟨fun hgranted => ?_, fun hrefused => ?_⟩⟩
  · obtain ⟨k, hk, rfl⟩ := List.mem_map.mp haid
    exact ⟨(h.reward k hk).1, h.unpaid _ haid⟩
  · congr 1
    refine List.map_congr_left fun k hk => ?_
    obtain ⟨-, c, hc, hreward⟩ := h.reward k hk
    rw [hreward, rewardOf, hc]
  · obtain ⟨c', hc', hcoin, hprogress⟩ := claim_earns cfg hgranted
    refine ⟨by rw [hcoin, rewardOf, hc'], fun i c hc => ?_⟩
    rw [hprogress i c hc, rewardOf, hc']
  · rcases achieveClaim_spec cfg t.player aid now with ⟨-, hsame⟩ | ⟨_, -, -, -, hgranted, -⟩
    · exact hsame
    · exact absurd hgranted hrefused

/-- A player who has not done anything. -/
def beginner : Player where
  baseInfo := ⟨0, 1, 0, 0, 0, 0⟩
  achieves := .empty
  items := .empty
  mails := .empty
  dirty := fun _ => false
  gate := false
  sent := []
  fired := []

/-- A first achievement is done, claimed and saved, the hash ends after {lit}`dbsync` has written
it, and the next agent loads it and refuses a second claim. -/
theorem achievements_once_beginner :
    let ops : List Op := [.gateKnown, .trigger "earn_coin" 1, .claim 1 "2025-01-01 00:00:00",
      .saveRedis, .flush [1, 2, 3], .expire, .reload beginner [1, 2, 3],
      .claim 1 "2025-01-02 00:00:00"]
    let t := (start beginner .empty .empty).run config ops
    (t.claimed.map Prod.fst).Nodup ∧
      (∀ aid ∈ t.claimed.map Prod.fst, t.player.done aid = true ∧
        beginner.claimTimeOf aid = none) ∧
      (t.claimed.map Prod.snd).sum = (t.claimed.map fun k => rewardOf config k.1).sum := by
  have hops : (start beginner .empty .empty).Remembers config [.gateKnown, .trigger "earn_coin" 1,
      .claim 1 "2025-01-01 00:00:00", .saveRedis, .flush [1, 2, 3], .expire,
      .reload beginner [1, 2, 3], .claim 1 "2025-01-02 00:00:00"] :=
    ⟨trivial, trivial, trivial, trivial, trivial, trivial,
      (saved_load config (by decide) (by decide) (by decide) (by decide) _ _).2.1, trivial, trivial⟩
  have hshort : beginner.Short config := by rintro aid c a - ⟨⟩
  exact (achievements_once config hshort .empty .empty hops).2.2.1

/-- What was not saved is done and paid again. -/
theorem achievements_twice :
    let t := (start beginner .empty .empty).run config [.trigger "earn_coin" 1,
      .claim 1 "2025-01-01 00:00:00", .reload beginner [1, 2, 3], .trigger "earn_coin" 1,
      .claim 1 "2025-01-01 00:01:00"]
    ¬(firedIds t.player.fired).Nodup ∧ ¬(t.claimed.map Prod.fst).Nodup := by
  decide

end Session

end BallServer.Agent.Data
