import BallServer.Agent.Dirty

/-!
# What an agent does to its player's data

The base information, the achievements, the bag and the mails of a player in memory, and
the functions of the agent that change the first two.  A handler runs to its end before the
next one; how a save goes comes with the call of {lit}`save_base_data`, and one that raises
ends the handler.

The field {lit}`sent` records the {lit}`achieve_notify` messages sent to the gateway, and
{lit}`fired` what was done for the first time, with or without a gateway to tell it to.

Main results:

- Definitions {lit}`achieveTrigger`, {lit}`addCoin` and {lit}`addExp`.
- Definitions {lit}`itemConfig` and {lit}`achieveConfig`: the tables of the repository.
-/

namespace BallServer.Agent.Data

open Dirty (BaseInfo Achieve AttachItem Mail)

/-- An entry of {lit}`ITEM_CONFIG`. -/
structure ItemConfig where
  name : String
  type : String
  effect : String
  value : Int
  maxStack : Nat
deriving DecidableEq, Repr

/-- An entry of {lit}`ACHIEVE_CONFIG.achieve_list`. -/
structure AchieveConfig where
  event : String
  target : Int
  rewardCoin : Int
deriving DecidableEq, Repr

/-- {lit}`ITEM_CONFIG` and {lit}`ACHIEVE_CONFIG`. -/
structure Config where
  items : Nat → Option ItemConfig
  achieveList : Nat → Option AchieveConfig
  eventList : String → Option (List Nat)

/-- {lit}`item_config.lua`. -/
def itemConfig : Nat → Option ItemConfig
  | 1001 => some ⟨"小型经验宝石", "consumable", "add_exp", 10, 99⟩
  | 1002 => some ⟨"大型经验宝石", "consumable", "add_exp", 50, 99⟩
  | 2001 => some ⟨"金币袋", "consumable", "add_coin", 100, 99⟩
  | 3001 => some ⟨"红宝石", "material", "none", 0, 999⟩
  | _ => none

/-- {lit}`achieve_config.lua`. -/
def achieveConfig : Nat → Option AchieveConfig
  | 1 => some ⟨"earn_coin", 1, 10⟩
  | 2 => some ⟨"earn_coin", 10, 50⟩
  | 3 => some ⟨"earn_coin", 100, 200⟩
  | _ => none

/-- The configuration of the repository. -/
def config : Config where
  items := itemConfig
  achieveList := achieveConfig
  eventList event := if event = "earn_coin" then some [1, 2, 3] else none

/-- The {lit}`achieveinfo` of an {lit}`achieve_notify`. -/
structure AchieveInfo where
  achieveId : Nat
  progress : Int
  isDone : Bool
  claimTime : Option String
deriving DecidableEq, Repr

/-- {lit}`s.data`, {lit}`s.dirty` and {lit}`s.gate` of an agent. -/
structure Player where
  baseInfo : BaseInfo
  achieves : Table Achieve
  items : Table Int
  mails : Table Mail
  dirty : Kick.Module → Bool
  gate : Bool
  sent : List AchieveInfo
  fired : List AchieveInfo

namespace Player

variable (cfg : Config) (s : Player)

/-- Write a flag. -/
def setDirty (m : Kick.Module) (b : Bool) : Player :=
  { s with dirty := Function.update s.dirty m b }

/-! ## Achievements -/

/-- {lit}`achieve`. -/
def achieve : Achieve :=
  ⟨0, false, none⟩

/-- {lit}`achieve_progress`. -/
def achieveProgress (aid : Nat) (delta : Int) : Player :=
  match cfg.achieveList aid with
  | none => s
  | some c =>
      let a := (s.achieves.get aid).getD achieve
      let progress := a.progress + delta
      if c.target ≤ progress ∧ a.isDone = false then
        let info : AchieveInfo := ⟨aid, progress, true, a.claimTime⟩
        { s with
          achieves := s.achieves.set aid ⟨progress, true, a.claimTime⟩
          -- the gate is not known before the first message to the agent
          sent := if s.gate then s.sent ++ [info] else s.sent
          fired := s.fired ++ [info] }
      else { s with achieves := s.achieves.set aid ⟨progress, a.isDone, a.claimTime⟩ }

/-- {lit}`achieve_trigger`. -/
def achieveTrigger (event : String) (delta : Int) : Player :=
  match cfg.eventList event with
  | none => s
  | some aids =>
      aids.foldl (fun s aid => s.achieveProgress cfg aid delta) (s.setDirty .achieves true)

/-! ## Base information -/

/-- What follows a call of {lit}`save_base_data`: {lit}`none` stands for a handler that has
ended with the error of the save. -/
def savedBase : Dirty.Result → Player × Option Unit
  | .saved => (s.setDirty .base_info false, some ())
  | .failed => (s.setDirty .base_info true, some ())
  | .raised => (s, none)

/-- {lit}`add_coin`. -/
def addCoin (count : Int) (r : Dirty.Result) : Player × Option Unit :=
  let s := { s with baseInfo := { s.baseInfo with coin := s.baseInfo.coin + count } }
  ((s.achieveTrigger cfg "earn_coin" count).setDirty .base_info true).savedBase r

/-- {lit}`add_rank_score`. -/
def addRankScore (count : Int) : Player :=
  let b := s.baseInfo
  let score := if b.rankScore + count < 0 then 0 else b.rankScore + count
  { s with baseInfo := { b with rankScore := score } }.setDirty .base_info true

/-- {lit}`set_level`. -/
def setLevel : Player :=
  { s with baseInfo := Dirty.setLevel s.baseInfo }.setDirty .base_info true

/-- {lit}`add_exp`. -/
def addExp (count : Int) : Player :=
  let b := s.baseInfo
  let exp := if b.exp + count < 0 then 0 else b.exp + count
  ({ s with baseInfo := { b with exp := exp } } : Player).setLevel.setDirty .base_info true

/-- {lit}`achieve_claim`: the text of a refusal. -/
def achieveClaim (aid : Nat) (now : String) : Player × Option String :=
  match cfg.achieveList aid with
  | none => (s, some "成就不存在")
  | some c =>
      match s.achieves.get aid with
      | none => (s, some "成就未完成")
      | some a =>
          if a.isDone = false then (s, some "成就未完成")
          else if a.claimTime ≠ none then (s, some "已经领取过")
          else
            let s := ({ s with
              baseInfo := { s.baseInfo with coin := s.baseInfo.coin + c.rewardCoin }
              achieves := s.achieves.set aid { a with claimTime := some now } } : Player)
            (((s.setDirty .achieves true).achieveTrigger cfg "earn_coin" c.rewardCoin).setDirty
              .base_info true, none)

/-! ## Frames -/

@[simp] theorem setDirty_baseInfo (m : Kick.Module) (b : Bool) :
    (s.setDirty m b).baseInfo = s.baseInfo := rfl

@[simp] theorem setDirty_achieves (m : Kick.Module) (b : Bool) :
    (s.setDirty m b).achieves = s.achieves := rfl

@[simp] theorem setDirty_items (m : Kick.Module) (b : Bool) :
    (s.setDirty m b).items = s.items := rfl

@[simp] theorem setDirty_mails (m : Kick.Module) (b : Bool) :
    (s.setDirty m b).mails = s.mails := rfl

@[simp] theorem setDirty_gate (m : Kick.Module) (b : Bool) :
    (s.setDirty m b).gate = s.gate := rfl

@[simp] theorem setDirty_sent (m : Kick.Module) (b : Bool) :
    (s.setDirty m b).sent = s.sent := rfl

@[simp] theorem setDirty_fired (m : Kick.Module) (b : Bool) :
    (s.setDirty m b).fired = s.fired := rfl

@[simp] theorem savedBase_baseInfo (r : Dirty.Result) :
    (s.savedBase r).1.baseInfo = s.baseInfo := by
  cases r <;> rfl

@[simp] theorem savedBase_achieves (r : Dirty.Result) :
    (s.savedBase r).1.achieves = s.achieves := by
  cases r <;> rfl

@[simp] theorem savedBase_items (r : Dirty.Result) :
    (s.savedBase r).1.items = s.items := by
  cases r <;> rfl

@[simp] theorem savedBase_mails (r : Dirty.Result) :
    (s.savedBase r).1.mails = s.mails := by
  cases r <;> rfl

@[simp] theorem savedBase_gate (r : Dirty.Result) :
    (s.savedBase r).1.gate = s.gate := by
  cases r <;> rfl

@[simp] theorem savedBase_sent (r : Dirty.Result) :
    (s.savedBase r).1.sent = s.sent := by
  cases r <;> rfl

/-- An achievement that makes progress leaves all but the achievements alone. -/
structure SameButAchieves (s s' : Player) : Prop where
  baseInfo : s'.baseInfo = s.baseInfo
  items : s'.items = s.items
  mails : s'.mails = s.mails
  gate : s'.gate = s.gate

theorem SameButAchieves.refl (s : Player) : SameButAchieves s s :=
  ⟨rfl, rfl, rfl, rfl⟩

/-- One change after another. -/
theorem SameButAchieves.trans {s₁ s₂ s₃ : Player} (h : SameButAchieves s₁ s₂)
    (h' : SameButAchieves s₂ s₃) : SameButAchieves s₁ s₃ where
  baseInfo := h'.baseInfo.trans h.baseInfo
  items := h'.items.trans h.items
  mails := h'.mails.trans h.mails
  gate := h'.gate.trans h.gate

/-- Progress changes achievements only. -/
theorem achieveProgress_same (aid : Nat) (delta : Int) :
    SameButAchieves s (s.achieveProgress cfg aid delta) := by
  unfold achieveProgress
  split
  · exact .refl s
  · dsimp only
    split
    · exact ⟨rfl, rfl, rfl, rfl⟩
    · exact ⟨rfl, rfl, rfl, rfl⟩

theorem foldl_achieveProgress_same (delta : Int) (aids : List Nat) :
    SameButAchieves s (aids.foldl (fun s aid => s.achieveProgress cfg aid delta) s) := by
  induction aids generalizing s with
  | nil => exact .refl s
  | cons aid aids ih => exact (achieveProgress_same cfg s aid delta).trans (ih _)

/-- So does a trigger, whatever achievements it moves. -/
theorem achieveTrigger_same (event : String) (delta : Int) :
    SameButAchieves s (s.achieveTrigger cfg event delta) := by
  unfold achieveTrigger
  split
  · exact .refl s
  · have hflag : SameButAchieves s (s.setDirty .achieves true) := ⟨rfl, rfl, rfl, rfl⟩
    exact hflag.trans (foldl_achieveProgress_same cfg _ delta _)

/-- The coins are added, saved or not. -/
@[simp] theorem addCoin_baseInfo (count : Int) (r : Dirty.Result) :
    (s.addCoin cfg count r).1.baseInfo =
      { s.baseInfo with coin := s.baseInfo.coin + count } := by
  simp [addCoin, (achieveTrigger_same cfg _ _ _).baseInfo]

@[simp] theorem addCoin_items (count : Int) (r : Dirty.Result) :
    (s.addCoin cfg count r).1.items = s.items := by
  simp [addCoin, (achieveTrigger_same cfg _ _ _).items]

@[simp] theorem addCoin_mails (count : Int) (r : Dirty.Result) :
    (s.addCoin cfg count r).1.mails = s.mails := by
  simp [addCoin, (achieveTrigger_same cfg _ _ _).mails]

end Player

end BallServer.Agent.Data
