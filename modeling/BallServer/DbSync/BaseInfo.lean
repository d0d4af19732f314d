import BallServer.Agent.RoleMessage
import BallServer.DbSync.WriteBack

/-!
# Saving and loading the base data

{lit}`save_base_data` writes the base data of a player to redis, or to mysql when that
fails.  {lit}`s.init` loads it from redis, or from mysql when the key is gone, and
{lit}`dbsync` copies what redis holds to mysql.  Any number of such copies may be on their
way.  A key expires after its value has been written back, since it lives longer than the
rounds of {lit}`dbsync` take.

The fields {lit}`saved` and {lit}`loads` do not exist in the programs.  They record what the
last save has stored, once it has returned {lit}`true`, and for each load what was stored
then and what was loaded.

Main results:

- Definition {lit}`Player.step`: one player in its agent, redis, mysql and {lit}`dbsync`.
- Theorem {lit}`load_saved`: the next load gives what was saved if the fallback finds no
  other value in redis and no old copy reaches mysql without one.
- Theorem {lit}`load_stale`: after a fallback the old value is loaded.
-/

namespace BallServer.DbSync

open BallServer.Agent.RoleMessage

namespace BaseInfo

/-- The bytes of a message. -/
abbrev Bytes := List Nat

/-- What the agent waits for. -/
inductive Stage where
  | off
  /-- The query of {lit}`load_base_info`. -/
  | querying
  /-- {lit}`set` after that query. -/
  | backfilling (data : Bytes)
  | idle
  /-- The query of a save whose {lit}`set` has failed. -/
  | falling (b : BaseInfo) (data : Bytes)
  | expiring (b : BaseInfo)
  | adding (b : BaseInfo)

/-- One player. -/
structure Player where
  redis : Option Bytes
  mysql : Bytes
  syncs : Nat → Option Bytes
  agent : Stage
  saved : Option BaseInfo
  loads : List (Option BaseInfo × Option BaseInfo)

/-- What can happen. -/
inductive Event where
  /-- {lit}`s.init` up to the answer of redis. -/
  | init
  | query
  | backfill
  | exit
  /-- {lit}`save_base_data` up to the answer to {lit}`set`, with the fields in an order. -/
  | save (b : BaseInfo) (order : List Field) (a : Answer)
  | fallback (a : Answer)
  | expire (a : Answer)
  | sadd (a : Answer)
  /-- {lit}`dbsync` reads the value. -/
  | get (i : Nat)
  | update (i : Nat) (executed : Bool)
  | expired

/-- All fields; a table has each of them. -/
def allFields : List Field :=
  [.coin, .level, .exp, .vip_level, .last_login_time, .rank_score]

/-- What a load reads. -/
def Player.view (s : Player) : Bytes :=
  s.redis.getD s.mysql

/-- One event. -/
def Player.step (s : Player) : Event → Option Player
  | .init =>
      match s.agent with
      | .off =>
          match s.redis with
          | some data => some { s with loads := (s.saved, decode data) :: s.loads, agent := .idle }
          | none => some { s with agent := .querying }
      | _ => none
  | .query =>
      match s.agent with
      | .querying =>
          some { s with
            loads := (s.saved, decode s.mysql) :: s.loads
            agent := .backfilling s.mysql }
      | _ => none
  | .backfill =>
      match s.agent with
      | .backfilling data => some { s with redis := some data, agent := .idle }
      | _ => none
  | .exit =>
      match s.agent with
      | .idle => some { s with agent := .off }
      | _ => none
  | .save b order a =>
      match s.agent with
      | .idle =>
          if allFields.all fun f => order.contains f then
            let data := encode order b
            some { s with
              redis := if a.Executed then some data else s.redis
              saved := none
              agent := if a = .ok then .expiring b else .falling b data }
          else none
      | _ => none
  | .fallback a =>
      match s.agent with
      | .falling b data =>
          some { s with
            mysql := if a.Executed then data else s.mysql
            saved := if a = .ok then some b else none
            agent := .idle }
      | _ => none
  | .expire a =>
      match s.agent with
      | .expiring b => some { s with agent := if a = .ok then .adding b else .idle }
      | _ => none
  | .sadd a =>
      match s.agent with
      | .adding b => some { s with saved := if a = .ok then some b else none, agent := .idle }
      | _ => none
  | .get i =>
      match s.syncs i, s.redis with
      | none, some data => some { s with syncs := Function.update s.syncs i (some data) }
      | _, _ => none
  | .update i executed =>
      match s.syncs i with
      | some data =>
          some { s with
            mysql := if executed then data else s.mysql
            syncs := Function.update s.syncs i none }
      | none => none
  | .expired => if s.redis = some s.mysql then some { s with redis := none } else none

/-- A player that is not in redis. -/
def start (data : Bytes) : Player :=
  ⟨none, data, fun _ => none, .off, none, []⟩

/-- The states reached from such a player by events that meet a condition. -/
inductive Reach (data : Bytes) (ok : Player → Event → Prop) : Player → Prop where
  | start : Reach data ok (start data)
  | step {s s' : Player} {e : Event} (hr : Reach data ok s) (he : ok s e)
      (hs : s.step e = some s') : Reach data ok s'

/-- The fallback finds no other value in redis, and no copy of an old value reaches mysql when
redis has none. -/
def Steady (s : Player) : Event → Prop
  | .fallback a => ∀ b data, s.agent = .falling b data → a = .ok →
      s.redis = none ∨ s.redis = some data
  | .update i executed => ∀ data, s.syncs i = some data → executed = true → s.redis = none →
      data = s.mysql
  | _ => True

/-- Every load gives what was saved before, and the next one will. -/
def LoadsSaved (s : Player) : Prop :=
  (∀ x ∈ s.loads, ∀ b, x.1 = some b → x.2 = some b) ∧
    ∀ b, s.saved = some b → decode s.view = some b

/-- What the agent relies on. -/
def Own (s : Player) : Prop :=
  match s.agent with
  | .querying => s.redis = none
  | .backfilling data => s.redis = none ∧ data = s.mysql
  | .falling b data => decode data = some b
  | .expiring b => decode s.view = some b
  | .adding b => decode s.view = some b
  | _ => True

/-- What holds in a steady run. -/
structure Inv (s : Player) : Prop where
  loads : ∀ x ∈ s.loads, ∀ b, x.1 = some b → x.2 = some b
  saved : ∀ b, s.saved = some b → decode s.view = some b
  own : Own s

theorem mem_of_all {order : List Field} (h : (allFields.all fun f => order.contains f) = true)
    (f : Field) : f ∈ order := by
  have hmem : f ∈ allFields := by cases f <;> decide
  simpa using List.all_eq_true.mp h f hmem

/-- A copy of {lit}`dbsync` leaves what a load reads. -/
theorem view_update {s : Player} {i : Nat} {executed : Bool} {data : Bytes}
    (he : Steady s (.update i executed)) (hi : s.syncs i = some data) :
    (s.redis.getD (if executed then data else s.mysql)) = s.view := by
  cases executed with
  | false => rfl
  | true =>
      unfold Player.view
      cases hr : s.redis with
      | some d => rfl
      | none => exact he data hi rfl hr

/-- A load asks redis. -/
theorem inv_init {s s' : Player} (hs : Inv s) (h : s.step .init = some s') :
    Inv s' := by
  obtain ⟨hloads, hsaved, hown⟩ := hs
  simp only [Player.step] at h
  split at h
  · split at h
    next data hr =>
      obtain rfl := Option.some.inj h
      refine ⟨List.forall_mem_cons.mpr ⟨fun b hb => ?_, hloads⟩, hsaved, trivial⟩
      simpa [Player.view, hr] using hsaved b hb
    next hr =>
      obtain rfl := Option.some.inj h
      exact ⟨hloads, hsaved, hr⟩
  · cases h

/-- A load asks mysql. -/
theorem inv_query {s s' : Player} (hs : Inv s) (h : s.step .query = some s') :
    Inv s' := by
  obtain ⟨hloads, hsaved, hown⟩ := hs
  simp only [Player.step] at h
  split at h
  next hagent =>
    obtain rfl := Option.some.inj h
    simp only [Own, hagent] at hown
    refine ⟨List.forall_mem_cons.mpr ⟨fun b hb => ?_, hloads⟩, hsaved, hown, rfl⟩
    simpa [Player.view, hown] using hsaved b hb
  next => cases h

/-- The value of mysql goes to redis. -/
theorem inv_backfill {s s' : Player} (hs : Inv s) (h : s.step .backfill = some s') :
    Inv s' := by
  obtain ⟨hloads, hsaved, hown⟩ := hs
  simp only [Player.step] at h
  split at h
  next data hagent =>
    obtain rfl := Option.some.inj h
    simp only [Own, hagent] at hown
    obtain ⟨hr, rfl⟩ := hown
    refine ⟨hloads, fun b hb => ?_, trivial⟩
    simpa [Player.view, hr] using hsaved b hb
  next => cases h

/-- A value that is saved can be decoded. -/
theorem inv_save {s s' : Player} {b : BaseInfo} {order : List Field} {a : Answer} (hs : Inv s)
    (h : s.step (.save b order a) = some s') : Inv s' := by
  obtain ⟨hloads, hsaved, hown⟩ := hs
  simp only [Player.step] at h
  split at h
  · split at h
    next hall =>
      obtain rfl := Option.some.inj h
      have hdata := decode_encode order (mem_of_all hall) b
      refine ⟨hloads, nofun, ?_⟩
      cases a with
      | ok => simpa [Own, Player.view, Answer.Executed] using hdata
      | failed executed => simpa [Own] using hdata
    next => cases h
  · cases h

/-- The fallback stores what the next load reads. -/
theorem inv_fallback {s s' : Player} {a : Answer} (hs : Inv s) (he : Steady s (.fallback a))
    (h : s.step (.fallback a) = some s') : Inv s' := by
  obtain ⟨hloads, hsaved, hown⟩ := hs
  simp only [Player.step] at h
  split at h
  next b data hagent =>
    obtain rfl := Option.some.inj h
    simp only [Own, hagent] at hown
    refine ⟨hloads, fun b' hb' => ?_, trivial⟩
    cases a with
    | ok =>
        obtain rfl : b = b' := by simpa using hb'
        rcases he b data hagent rfl with hr | hr
        · simpa [Player.view, hr, Answer.Executed] using hown
        · simpa [Player.view, hr] using hown
    | failed executed => simp at hb'
  next => cases h

/-- The value is saved when the dirty set has the player. -/
theorem inv_sadd {s s' : Player} {a : Answer} (hs : Inv s)
    (h : s.step (.sadd a) = some s') : Inv s' := by
  obtain ⟨hloads, hsaved, hown⟩ := hs
  simp only [Player.step] at h
  split at h
  next b hagent =>
    obtain rfl := Option.some.inj h
    simp only [Own, hagent] at hown
    refine ⟨hloads, fun b' hb' => ?_, trivial⟩
    cases a with
    | ok =>
        obtain rfl : b = b' := by simpa using hb'
        exact hown
    | failed executed => simp at hb'
  next => cases h

/-- A copy of {lit}`dbsync` is what a load reads, or redis has the value. -/
theorem inv_update {s s' : Player} {i : Nat} {executed : Bool} (hs : Inv s)
    (he : Steady s (.update i executed)) (h : s.step (.update i executed) = some s') : Inv s' := by
  obtain ⟨hloads, hsaved, hown⟩ := hs
  simp only [Player.step] at h
  split at h
  next data hi =>
    obtain rfl := Option.some.inj h
    have hview := view_update he hi
    refine ⟨hloads, fun b hb => ?_, ?_⟩
    · unfold Player.view
      exact hview ▸ hsaved b hb
    · unfold Own at hown ⊢
      dsimp only
      split at hown
      · exact hown
      · refine ⟨hown.1, ?_⟩
        have hmysql := hview
        simp only [Player.view, hown.1, Option.getD_none] at hmysql
        rw [hmysql]
        exact hown.2
      · exact hown
      · unfold Player.view
        exact hview ▸ hown
      · unfold Player.view
        exact hview ▸ hown
      · trivial
  next => cases h

/-- Redis forgets what mysql has. -/
theorem inv_expired {s s' : Player} (hs : Inv s) (h : s.step .expired = some s') :
    Inv s' := by
  obtain ⟨hloads, hsaved, hown⟩ := hs
  simp only [Player.step] at h
  split at h
  next hr =>
    obtain rfl := Option.some.inj h
    have hview : ({ s with redis := none } : Player).view = s.view := by
      simp [Player.view, hr]
    refine ⟨hloads, fun b hb => hview ▸ hsaved b hb, ?_⟩
    unfold Own at hown ⊢
    dsimp only
    split at hown
    · rfl
    · exact ⟨rfl, hown.2⟩
    · exact hown
    · exact hview ▸ hown
    · exact hview ▸ hown
    · trivial
  next => cases h

theorem step_inv {s s' : Player} {e : Event} (hs : Inv s) (he : Steady s e)
    (h : s.step e = some s') : Inv s' := by
  cases e with
  | init => exact inv_init hs h
  | query => exact inv_query hs h
  | backfill => exact inv_backfill hs h
  | exit =>
      obtain ⟨hloads, hsaved, hown⟩ := hs
      simp only [Player.step] at h
      split at h
      · obtain rfl := Option.some.inj h
        exact ⟨hloads, hsaved, trivial⟩
      · cases h
  | save b order a => exact inv_save hs h
  | fallback a => exact inv_fallback hs he h
  | expire a =>
      obtain ⟨hloads, hsaved, hown⟩ := hs
      simp only [Player.step] at h
      split at h
      next b hagent =>
        obtain rfl := Option.some.inj h
        simp only [Own, hagent] at hown
        refine ⟨hloads, hsaved, ?_⟩
        cases a with
        | ok => exact hown
        | failed executed => trivial
      next => cases h
  | sadd a => exact inv_sadd hs h
  | get i =>
      obtain ⟨hloads, hsaved, hown⟩ := hs
      simp only [Player.step] at h
      split at h
      · obtain rfl := Option.some.inj h
        exact ⟨hloads, hsaved, hown⟩
      · cases h
  | update i executed => exact inv_update hs he h
  | expired => exact inv_expired hs h

/-- What was saved is what the next load gives in a steady run. -/
theorem load_saved (data : Bytes) (s : Player) (hr : Reach data Steady s) : LoadsSaved s := by
  have hs : Inv s := by
    induction hr with
    | start => exact ⟨List.forall_mem_nil _, nofun, trivial⟩
    | step _ he hs ih => exact step_inv ih he hs
  exact ⟨hs.loads, hs.saved⟩

/-- The fields with one coin. -/
def oneCoin : BaseInfo := Function.update Field.default .coin 1

/-- A save is loaded by the next agent. -/
theorem load_saved_one : ∃ s, Reach [] Steady s ∧ s.loads.length = 2 ∧ s.saved = some oneCoin ∧
    LoadsSaved s := by
  have h₁ : Reach [] Steady _ := .step (e := .init) .start trivial rfl
  have h₂ := h₁.step (e := .query) trivial rfl
  have h₃ := h₂.step (e := .backfill) trivial rfl
  have h₄ := h₃.step (e := .save oneCoin allFields .ok) trivial rfl
  have h₅ := h₄.step (e := .expire .ok) trivial rfl
  have h₆ := h₅.step (e := .sadd .ok) trivial rfl
  have h₇ := h₆.step (e := .exit) trivial rfl
  have h₈ := h₇.step (e := .init) trivial rfl
  exact ⟨_, h₈, rfl, rfl, load_saved [] _ h₈⟩

/-- Redis keeps the old value when the fallback has saved the new one in mysql. -/
theorem load_stale : ¬ ∀ (data : Bytes) (s : Player), Reach data (fun _ _ => True) s →
    LoadsSaved s := by
  intro hall
  have h₁ : Reach [] (fun _ _ => True) _ := .step (e := .init) .start trivial rfl
  have h₂ := h₁.step (e := .query) trivial rfl
  have h₃ := h₂.step (e := .backfill) trivial rfl
  have h₄ := h₃.step (e := .save oneCoin allFields (.failed false)) trivial rfl
  have h₅ := h₄.step (e := .fallback .ok) trivial rfl
  have hview : decode [] = some oneCoin := (hall [] _ h₅).2 oneCoin rfl
  have hcoin : Field.default .coin = oneCoin .coin :=
    congrFun (Option.some.inj hview) .coin
  exact absurd hcoin (by decide)

end BaseInfo

end BallServer.DbSync
