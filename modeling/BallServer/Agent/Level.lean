import BallServer.Agent.Bag
import BallServer.Agent.DailyReward
import Mathlib.Algebra.Field.Rat
import Mathlib.Data.Int.Cast.Lemmas
import Mathlib.Tactic.NormNum

/-!
# Level and experience

The level of a player is computed from its experience by {lit}`set_level`, which
{lit}`add_exp` of the agent calls.  The effect of an experience gem writes the experience
directly.

Main results:

- Definition {lit}`baseStep`: the operations that change the base information.
- Theorem {lit}`baseStep_levelled`: all but the effect of a gem keep the relation.
- Theorem {lit}`level_follows_iff`: a run keeps it exactly when no gem is used in it.
-/

namespace BallServer.Agent.Data

open Dirty (BaseInfo)

/-- The level is that of the experience, and nothing is negative. -/
structure Levelled (b : BaseInfo) : Prop where
  level : b.level = (b.exp : Rat) / 10 + 1
  exp : 0 ≤ b.exp
  rankScore : 0 ≤ b.rankScore

/-- An operation that changes the base information, with the result of the save in
{lit}`add_coin`. -/
inductive BaseOp where
  /-- {lit}`battle_result`. -/
  | battleResult (scoreDelta exp coin : Int) (r : Dirty.Result)
  /-- {lit}`work`. -/
  | work (r : Dirty.Result)
  | addCoin (count : Int) (r : Dirty.Result)
  | addRankScore (count : Int)
  | addExp (count : Int)
  | useItem (itemId : Nat) (count : Int) (r : Dirty.Result)
  | mailClaim (mid now : Nat)
  | achieveClaim (aid : Nat) (now : String)
  /-- {lit}`first_login_day`, sent by the agent manager. -/
  | firstLoginDay (now : Int) (r : Dirty.Result)
  /-- What {lit}`s.init` does after it has loaded the data. -/
  | login (now : Int) (r : Dirty.Result)
deriving DecidableEq

namespace Player

variable (cfg : Config) (s : Player)

/-- {lit}`battle_result`, up to its message to the gateway. -/
def battleResult (scoreDelta exp coin : Int) (r : Dirty.Result) : Player :=
  let s := if scoreDelta ≠ 0 then s.addRankScore scoreDelta else s
  let s := if exp ≠ 0 then s.addExp exp else s
  if coin ≠ 0 then (s.addCoin cfg coin r).1 else s

/-- Write {lit}`last_login_time`. -/
def setLastLogin (now : Int) : Player :=
  { s with baseInfo := { s.baseInfo with lastLoginTime := now } }

/-- {lit}`s.resp.first_login_day`. -/
def firstLoginDay (now : Int) (r : Dirty.Result) : Player :=
  match s.addCoin cfg 1 r with
  | (s, some ()) => s.setLastLogin now
  | (s, none) => s

/-- {lit}`s.init` from the comparison of the days on. -/
def login (now : Int) (r : Dirty.Result) : Player :=
  let lastDay := getDay s.baseInfo.lastLoginTime
  let s := s.setLastLogin now
  if getDay now > lastDay then (s.addCoin cfg 1 r).1 else s

/-- One operation. -/
def baseStep : BaseOp → Player
  | .battleResult scoreDelta exp coin r => s.battleResult cfg scoreDelta exp coin r
  | .work r => (s.addCoin cfg 2 r).1
  | .addCoin count r => (s.addCoin cfg count r).1
  | .addRankScore count => s.addRankScore count
  | .addExp count => s.addExp count
  | .useItem itemId count r => (s.useItem cfg itemId count r).1
  | .mailClaim mid now => (s.mailClaim cfg mid now).1
  | .achieveClaim aid now => (s.achieveClaim cfg aid now).1
  | .firstLoginDay now r => s.firstLoginDay cfg now r
  | .login now r => s.login cfg now r

/-- A sequence of operations. -/
def baseRun : Player → List BaseOp → Player
  | s, [] => s
  | s, op :: ops => baseRun (s.baseStep cfg op) ops

/-- The operation uses gems: the bag has them, and their effect is not 0. -/
def UsesGem : BaseOp → Prop
  | .useItem itemId count _ => 0 < count ∧ ∃ c i, cfg.items itemId = some c ∧
      s.items.get itemId = some i ∧ count ≤ i ∧ c.type = "consumable" ∧
      c.effect = "add_exp" ∧ c.value ≠ 0
  | _ => False

/-! ## One operation -/

variable {cfg s}

theorem Levelled.of_eq {b b' : BaseInfo} (h : Levelled b) (hlevel : b'.level = b.level)
    (hexp : b'.exp = b.exp) (hscore : b'.rankScore = b.rankScore) : Levelled b' :=
  ⟨by rw [hlevel, hexp, h.level], hexp ▸ h.exp, hscore ▸ h.rankScore⟩

theorem addCoin_levelled (cfg : Config) (h : Levelled s.baseInfo) (count : Int) (r : Dirty.Result) :
    Levelled (s.addCoin cfg count r).1.baseInfo := by
  rw [addCoin_baseInfo]
  exact Levelled.of_eq h rfl rfl rfl

theorem addRankScore_levelled (h : Levelled s.baseInfo) (count : Int) :
    Levelled (s.addRankScore count).baseInfo := by
  refine ⟨h.level, h.exp, ?_⟩
  simp only [addRankScore, setDirty_baseInfo]
  split <;> omega

theorem addExp_levelled (h : Levelled s.baseInfo) (count : Int) :
    Levelled (s.addExp count).baseInfo := by
  refine ⟨rfl, ?_, h.rankScore⟩
  simp only [addExp, setLevel, Dirty.setLevel, setDirty_baseInfo]
  split <;> omega

theorem battleResult_levelled (h : Levelled s.baseInfo) (scoreDelta exp coin : Int)
    (r : Dirty.Result) : Levelled (s.battleResult cfg scoreDelta exp coin r).baseInfo := by
  have hscore : Levelled (if scoreDelta ≠ 0 then s.addRankScore scoreDelta else s).baseInfo := by
    split
    · exact addRankScore_levelled h scoreDelta
    · exact h
  have hexp : Levelled (if exp ≠ 0 then
      (if scoreDelta ≠ 0 then s.addRankScore scoreDelta else s).addExp exp
      else if scoreDelta ≠ 0 then s.addRankScore scoreDelta else s).baseInfo := by
    split
    · exact addExp_levelled hscore exp
    · exact hscore
  unfold battleResult
  dsimp only
  split
  · exact addCoin_levelled cfg hexp coin r
  · exact hexp

theorem firstLoginDay_levelled (h : Levelled s.baseInfo) (now : Int) (r : Dirty.Result) :
    Levelled (s.firstLoginDay cfg now r).baseInfo := by
  have hcoin := addCoin_levelled cfg h 1 r
  unfold firstLoginDay
  split
  · rename_i heq
    rw [heq] at hcoin
    exact Levelled.of_eq hcoin rfl rfl rfl
  · rename_i heq
    rw [heq] at hcoin
    exact hcoin

theorem login_levelled (h : Levelled s.baseInfo) (now : Int) (r : Dirty.Result) :
    Levelled (s.login cfg now r).baseInfo := by
  have hset : Levelled (s.setLastLogin now).baseInfo := Levelled.of_eq h rfl rfl rfl
  unfold login
  dsimp only
  split
  · exact addCoin_levelled cfg hset 1 r
  · exact hset

theorem achieveClaim_levelled (h : Levelled s.baseInfo) (aid : Nat) (now : String) :
    Levelled (s.achieveClaim cfg aid now).1.baseInfo := by
  unfold achieveClaim
  split
  · exact h
  · split
    · exact h
    · split
      · exact h
      · split
        · exact h
        · rw [setDirty_baseInfo, (achieveTrigger_same cfg _ _ _).baseInfo]
          exact Levelled.of_eq h rfl rfl rfl

theorem mailClaim_baseInfo (cfg : Config) (s : Player) (mid now : Nat) :
    (s.mailClaim cfg mid now).1.baseInfo = s.baseInfo := by
  unfold mailClaim
  cases s.mails.get mid with
  | none => rfl
  | some m =>
      have hm := (claimAttachments_same cfg s m now).baseInfo
      dsimp only
      split <;> exact hm

/-- What {lit}`use_item` does to the base information: nothing, coins, or the experience of
gems without their level. -/
theorem useItem_baseInfo (cfg : Config) (s : Player) (itemId : Nat) (n : Int) (r : Dirty.Result) :
    ((s.useItem cfg itemId n r).1.baseInfo.exp = s.baseInfo.exp ∧
      ¬ s.UsesGem cfg (.useItem itemId n r) ∨
    ∃ c, s.UsesGem cfg (.useItem itemId n r) ∧ c ≠ 0 ∧
      (s.useItem cfg itemId n r).1.baseInfo.exp = s.baseInfo.exp + c) ∧
    (s.useItem cfg itemId n r).1.baseInfo.level = s.baseInfo.level ∧
    (s.useItem cfg itemId n r).1.baseInfo.rankScore = s.baseInfo.rankScore := by
  unfold useItem
  split
  · rename_i hn
    exact ⟨.inl ⟨rfl, fun h => absurd h.1 (by omega)⟩, rfl, rfl⟩
  · rename_i hn
    cases hc : cfg.items itemId with
    | none =>
        refine ⟨.inl ⟨rfl, ?_⟩, rfl, rfl⟩
        rintro ⟨-, c, i, hc', -⟩
        rw [hc] at hc'
        cases hc'
    | some c =>
        cases hi : s.items.get itemId with
        | none =>
            refine ⟨.inl ⟨rfl, ?_⟩, rfl, rfl⟩
            rintro ⟨-, c, i, -, hi', -⟩
            rw [hi] at hi'
            cases hi'
        | some i =>
            have hgem : s.UsesGem cfg (.useItem itemId n r) → n ≤ i ∧ c.type = "consumable" ∧
                c.effect = "add_exp" ∧ c.value ≠ 0 := by
              rintro ⟨-, c', i', hc', hi', hrest⟩
              obtain rfl := Option.some.inj (hc.symm.trans hc')
              obtain rfl := Option.some.inj (hi.symm.trans hi')
              exact hrest
            dsimp only
            split
            · exact ⟨.inl ⟨rfl, fun h => absurd (hgem h).1 (by omega)⟩, rfl, rfl⟩
            · rename_i hle
              split
              · rename_i htype
                exact ⟨.inl ⟨rfl, fun h => htype (hgem h).2.1⟩, rfl, rfl⟩
              · rename_i htype
                by_cases hexp : c.effect = "add_exp"
                · -- a gem
                  simp only [effectHandler, hexp, if_true, setDirty_baseInfo, and_self, and_true]
                  by_cases hvalue : c.value = 0
                  · exact .inl ⟨by simp [hvalue], fun h => (hgem h).2.2.2 hvalue⟩
                  · refine .inr ⟨c.value * n, ⟨by omega, c, i, hc, hi, by omega,
                      not_not.mp htype, hexp, hvalue⟩, ?_, rfl⟩
                    exact mul_ne_zero hvalue (by omega)
                · have hno : ¬ s.UsesGem cfg (.useItem itemId n r) := fun h => hexp (hgem h).2.2.1
                  by_cases hcoin : c.effect = "add_coin"
                  · have heffect : ∀ s' : Player, s'.effectHandler cfg c.effect n c.value r =
                        some (s'.addCoin cfg (c.value * n) r) := by
                      intro s'
                      simp [effectHandler, hcoin]
                    simp only [heffect]
                    rcases hadd : addCoin cfg { s with items := s.items.set itemId (i - n) }
                      (c.value * n) r with ⟨s₁, o⟩
                    have hbase : s₁.baseInfo =
                        { s.baseInfo with coin := s.baseInfo.coin + c.value * n } := by
                      have := addCoin_baseInfo cfg { s with items := s.items.set itemId (i - n) }
                        (c.value * n) r
                      rwa [hadd] at this
                    have hkeep : s₁.baseInfo.exp = s.baseInfo.exp ∧
                        s₁.baseInfo.level = s.baseInfo.level ∧
                        s₁.baseInfo.rankScore = s.baseInfo.rankScore := by
                      rw [hbase]
                      exact ⟨rfl, rfl, rfl⟩
                    cases o with
                    | none => exact ⟨.inl ⟨hkeep.1, hno⟩, hkeep.2⟩
                    | some _ => exact ⟨.inl ⟨hkeep.1, hno⟩, hkeep.2⟩
                  · have heffect : ∀ s' : Player, s'.effectHandler cfg c.effect n c.value r =
                        none := by
                      intro s'
                      simp [effectHandler, hexp, hcoin]
                    rw [heffect]
                    exact ⟨.inl ⟨rfl, hno⟩, rfl, rfl⟩

theorem useItem_levelled_iff (h : Levelled s.baseInfo) (itemId : Nat) (n : Int)
    (r : Dirty.Result) : Levelled (s.useItem cfg itemId n r).1.baseInfo ↔
      ¬ s.UsesGem cfg (.useItem itemId n r) := by
  obtain ⟨hexp, hlevel, hscore⟩ := useItem_baseInfo cfg s itemId n r
  rcases hexp with ⟨hexp, hno⟩ | ⟨c, hgem, hc, hexp⟩
  · exact iff_of_true (Levelled.of_eq h hlevel hexp hscore) hno
  · refine iff_of_false (fun h' => hc ?_) (not_not.mpr hgem)
    have heq := h'.level
    rw [hlevel, h.level, hexp] at heq
    have hdiv : (s.baseInfo.exp : Rat) / 10 = ((s.baseInfo.exp + c : Int) : Rat) / 10 :=
      add_right_cancel heq
    have hcast : (s.baseInfo.exp : Rat) = ((s.baseInfo.exp + c : Int) : Rat) :=
      (div_left_inj' (show (10 : Rat) ≠ 0 by norm_num)).mp hdiv
    have hint : s.baseInfo.exp = s.baseInfo.exp + c := Int.cast_injective hcast
    omega

/-- An operation keeps the relation unless it uses gems. -/
theorem baseStep_levelled (h : Levelled s.baseInfo) (op : BaseOp) :
    Levelled (s.baseStep cfg op).baseInfo ↔ ¬ s.UsesGem cfg op := by
  cases op with
  | battleResult d e c r => exact iff_of_true (battleResult_levelled h d e c r) id
  | work r => exact iff_of_true (addCoin_levelled cfg h 2 r) id
  | addCoin n r => exact iff_of_true (addCoin_levelled cfg h n r) id
  | addRankScore n => exact iff_of_true (addRankScore_levelled h n) id
  | addExp n => exact iff_of_true (addExp_levelled h n) id
  | useItem i n r => exact useItem_levelled_iff h i n r
  | mailClaim mid now => exact iff_of_true ((mailClaim_baseInfo cfg s mid now).symm ▸ h) id
  | achieveClaim aid now => exact iff_of_true (achieveClaim_levelled h aid now) id
  | firstLoginDay now r => exact iff_of_true (firstLoginDay_levelled h now r) id
  | login now r => exact iff_of_true (login_levelled h now r) id

/-! ## Sequences -/

/-- The relation holds at the start and after each operation. -/
def AlwaysLevelled (cfg : Config) : Player → List BaseOp → Prop
  | s, [] => Levelled s.baseInfo
  | s, op :: ops => Levelled s.baseInfo ∧ AlwaysLevelled cfg (s.baseStep cfg op) ops

/-- No operation of the sequence uses gems. -/
def GemFree (cfg : Config) : Player → List BaseOp → Prop
  | _, [] => True
  | s, op :: ops => ¬ s.UsesGem cfg op ∧ GemFree cfg (s.baseStep cfg op) ops

theorem AlwaysLevelled.head {ops : List BaseOp} (h : AlwaysLevelled cfg s ops) :
    Levelled s.baseInfo := by
  cases ops with
  | nil => exact h
  | cons => exact h.1

/-- From a player whose level is that of the experience, it stays so through a sequence of
operations exactly when none of them uses gems. -/
theorem level_follows_iff (cfg : Config) (s : Player) (ops : List BaseOp)
    (h : Levelled s.baseInfo) : s.AlwaysLevelled cfg ops ↔ s.GemFree cfg ops := by
  induction ops generalizing s with
  | nil => exact iff_of_true h trivial
  | cons op ops ih =>
      constructor
      · rintro ⟨-, hrest⟩
        have hstep := hrest.head
        exact ⟨(baseStep_levelled h op).mp hstep, (ih _ hstep).mp hrest⟩
      · rintro ⟨hop, hrest⟩
        have hstep := (baseStep_levelled h op).mpr hop
        exact ⟨h, (ih _ hstep).mpr hrest⟩

/-- A player who loses experience and coins in a battle and is paid for the day. -/
theorem level_follows_battle :
    Levelled collector.baseInfo ∧
      collector.AlwaysLevelled config
        [.battleResult (-5) (-8) 20 .saved, .useItem 3001 1 .saved, .firstLoginDay 7 .failed] := by
  have h : Levelled collector.baseInfo := ⟨by norm_num [collector], le_rfl, le_rfl⟩
  refine ⟨h, (level_follows_iff config collector _ h).mpr ⟨id, ?_, id, trivial⟩⟩
  rintro ⟨-, c, i, -, hi, -⟩
  cases hi

/-- One of 98 gems is used: the experience is 10, the level is still 1. -/
theorem level_left_behind :
    Levelled collector.baseInfo ∧
    (collector.useItem config 1001 1 .saved).2 = some ⟨0, "使用成功"⟩ ∧
    (collector.baseStep config (.useItem 1001 1 .saved)).baseInfo.exp = 10 ∧
    (collector.baseStep config (.useItem 1001 1 .saved)).baseInfo.level = 1 ∧
    ¬ Levelled (collector.baseStep config (.useItem 1001 1 .saved)).baseInfo := by
  have h : Levelled collector.baseInfo := ⟨by norm_num [collector], le_rfl, le_rfl⟩
  have hgem : collector.UsesGem config (.useItem 1001 1 .saved) :=
    ⟨by decide, _, 98, rfl, rfl, by decide, rfl, rfl, by decide⟩
  refine ⟨h, ?_, ?_, rfl, fun h' => (baseStep_levelled h _).mp h' hgem⟩
  · decide +kernel
  · decide +kernel

end Player

end BallServer.Agent.Data
