import BallServer.Agent.Data
import Mathlib.Algebra.BigOperators.Group.List.Basic
import Mathlib.Algebra.Order.BigOperators.Group.List

/-!
# The bag

Items are added to the bag and taken from it by the agent, used by the client, and granted
by the attachments of a mail.  A claim that meets a refused item takes back what it has
granted before.

Main results:

- Definitions {lit}`addItem`, {lit}`subItem`, {lit}`useItem` and {lit}`claimAttachments`.
- Theorem {lit}`grantLoop_spec`: the loop of a claim grants everything or nothing.
- Theorem {lit}`bag_in_range`: the counts stay between 0 and the capacity.
- Theorem {lit}`mailClaim_agrees`: the model of the dirty flags has the same bag after a claim.
-/

namespace BallServer.Agent.Data

open Dirty (BaseInfo Achieve AttachItem Mail)

namespace Player

variable (cfg : Config) (s : Player)

/-- {lit}`sub_item`. -/
def subItem (itemId : Nat) (count : Int) : Player × Bool :=
  match cfg.items itemId, s.items.get itemId with
  | some _, some c =>
      if c < count then (s, false)
      else ({ s with items := s.items.set itemId (c - count) }.setDirty .items true, true)
  | _, _ => (s, false)

/-- {lit}`add_item`, with the text of its refusal.  An item that is new is put into the bag
before its capacity is checked. -/
def addItem (itemId : Nat) (count : Int) : Player × Option String :=
  match cfg.items itemId with
  | none => (s, some "物品不存在")
  | some c =>
      let i := (s.items.get itemId).getD 0
      if i + count > c.maxStack then
        ({ s with items := s.items.set itemId i }, some (c.name ++ "超出收纳容量"))
      else ({ s with items := s.items.set itemId (i + count) }.setDirty .items true, none)

/-- {lit}`effect_handlers`: what the effect does, if it has a handler.  Both handlers return
{lit}`true`. -/
def effectHandler (effect : String) (count value : Int) (r : Dirty.Result) :
    Option (Player × Option Unit) :=
  if effect = "add_exp" then
    some ({ s with
      baseInfo := { s.baseInfo with exp := s.baseInfo.exp + value * count } }.setDirty
        .base_info true, some ())
  else if effect = "add_coin" then some (s.addCoin cfg (value * count) r)
  else none

/-- The answer to {lit}`use_item`. -/
structure UseReply where
  code : Nat
  msg : String
deriving DecidableEq, Repr

/-- {lit}`use_item`.  There is no answer when the save in {lit}`add_coin` raises. -/
def useItem (itemId : Nat) (count : Int) (r : Dirty.Result) : Player × Option UseReply :=
  if count ≤ 0 then (s, some ⟨1, "使用数量必须大于0"⟩)
  else
    match cfg.items itemId with
    | none => (s, some ⟨1, "物品不存在"⟩)
    | some c =>
        match s.items.get itemId with
        | none => (s, some ⟨1, "物品数量不足"⟩)
        | some i =>
            if count > i then (s, some ⟨1, "物品数量不足"⟩)
            else if c.type ≠ "consumable" then (s, some ⟨1, "物品不可使用"⟩)
            else
              let s' := { s with items := s.items.set itemId (i - count) }
              match s'.effectHandler cfg c.effect count c.value r with
              | some (s', some ()) => (s'.setDirty .items true, some ⟨0, "使用成功"⟩)
              | some (s', none) => (s', none)
              | none =>
                  ({ s' with items := s'.items.set itemId (i - count + count) },
                    some ⟨1, "物品效果未知，使用失败"⟩)

/-! ## Claims -/

/-- {lit}`rollback_grant` for each that was granted. -/
def rollback (granted : List AttachItem) : Player :=
  granted.foldl (fun s a => (s.subItem cfg a.itemId a.count).1) s

/-- What the loop of {lit}`claim_attachments` leaves: the attachments with their flags, those
that were granted, and the refusal that has ended it. -/
structure Claimed where
  player : Player
  attachments : List AttachItem
  granted : List AttachItem
  err : Option String

/-- The loop of {lit}`claim_attachments` up to its end or the first refusal. -/
def grantLoop : Player → List AttachItem → Claimed
  | s, [] => ⟨s, [], [], none⟩
  | s, a :: as =>
      if a.isClaimed then
        let r := grantLoop s as
        { r with attachments := a :: r.attachments }
      else
        match s.addItem cfg a.itemId a.count with
        | (s, some err) => ⟨s, a :: as, [], some err⟩
        | (s, none) =>
            let r := grantLoop s as
            { r with
              attachments := { a with isClaimed := true } :: r.attachments
              granted := a :: r.granted }

/-- {lit}`claim_attachments`: the attachments it leaves, and the text of a refusal.  What was
granted before a refusal gets its flag back. -/
def claimAttachments (m : Mail) (now : Nat) : Player × List AttachItem × Option String :=
  if m.isExpired now then (s, m.attachments, some "邮件过期")
  else
    let r := grantLoop cfg s m.attachments
    match r.err with
    | some err => (r.player.rollback cfg r.granted, m.attachments, some err)
    | none =>
        if r.granted = [] then (r.player, r.attachments, some "没有可领取的附件")
        else (r.player, r.attachments, none)

/-- {lit}`mail_claim`: the text of a refusal. -/
def mailClaim (mid now : Nat) : Player × Option String :=
  match s.mails.get mid with
  | none => (s, some "邮件不存在")
  | some m =>
      match s.claimAttachments cfg m now with
      | (s, as, err) =>
          let s := { s with mails := s.mails.set mid { m with attachments := as } }
          if err = none then (s.setDirty .mails true, none) else (s, err)

/-! ## Counts -/

/-- The count of an item; an item that is not in the bag counts 0. -/
def count (k : Nat) : Int :=
  (s.items.get k).getD 0

/-- The counts are between 0 and the capacity. -/
def InRange : Prop :=
  ∀ k i, s.items.get k = some i → 0 ≤ i ∧ ∀ c, cfg.items k = some c → i ≤ c.maxStack

/-- The counts are as they were; an item that was not in the bag may be there with count 0. -/
def SameCounts (s s' : Player) : Prop :=
  ∀ k, s'.items.get k = s.items.get k ∨ s.items.get k = none ∧ s'.items.get k = some 0

variable {cfg s} {s' : Player} {k itemId : Nat} {n : Int}

theorem SameCounts.count (h : SameCounts s s') (k : Nat) : s'.count k = s.count k := by
  rcases h k with hk | ⟨hk, hk'⟩
  · simp [Player.count, hk]
  · simp [Player.count, hk, hk']

theorem SameCounts.of_eq (h : s'.items = s.items) : SameCounts s s' :=
  fun _ => .inl (by rw [h])

theorem SameCounts.inRange (h : SameCounts s s') (hs : s.InRange cfg) : s'.InRange cfg := by
  intro k i hi
  rcases h k with hk | ⟨-, hk⟩
  · exact hs k i (hk ▸ hi)
  · obtain rfl := Option.some.inj (hk.symm.trans hi)
    exact ⟨le_rfl, fun c _ => Int.natCast_nonneg _⟩

theorem InRange.count_nonneg (h : s.InRange cfg) (k : Nat) : 0 ≤ s.count k := by
  cases hk : s.items.get k with
  | none => simp [Player.count, hk]
  | some i => simpa [Player.count, hk] using (h k i hk).1

/-- One count is written. -/
theorem InRange.set (h : s.InRange cfg) {i : Int} (hi : 0 ≤ i)
    (hmax : ∀ c, cfg.items itemId = some c → i ≤ c.maxStack)
    (hset : s'.items = s.items.set itemId i) : s'.InRange cfg := by
  intro k j hj
  rw [hset, Table.get_set] at hj
  split at hj
  · rename_i hk
    obtain rfl := Option.some.inj hj
    exact ⟨hi, fun c hc => hmax c (hk ▸ hc)⟩
  · exact h k j hj

theorem count_of_set (itemId : Nat) {i : Int} (hset : s'.items = s.items.set itemId i) (k : Nat) :
    s'.count k = if k = itemId then i else s.count k := by
  unfold Player.count
  rw [hset, Table.get_set]
  split <;> rfl

/-! ## Single operations -/

/-- {lit}`add_item` adds the count and stays in the range. -/
theorem addItem_added (h : (s.addItem cfg itemId n).2 = none) :
    (∀ k, (s.addItem cfg itemId n).1.count k = s.count k + if k = itemId then n else 0) ∧
      (cfg.items itemId).isSome ∧
      (s.InRange cfg → 0 < n → (s.addItem cfg itemId n).1.InRange cfg) := by
  unfold addItem at h ⊢
  cases hc : cfg.items itemId with
  | none => simp [hc] at h
  | some c =>
      simp only [hc] at h ⊢
      split at h
      · cases h
      · rename_i hfits
        rw [if_neg hfits]
        refine ⟨fun k => ?_, rfl, fun hs hn => ?_⟩
        · rw [count_of_set itemId rfl]
          by_cases hk : k = itemId
          · subst hk
            simp [Player.count]
          · simp [hk]
        · have hold := hs.count_nonneg itemId
          refine hs.set (i := (s.items.get itemId).getD 0 + n) ?_ ?_ rfl
          · simp only [Player.count] at hold
            omega
          · intro c' hc'
            obtain rfl := Option.some.inj (hc.symm.trans hc')
            omega

/-- A refused {lit}`add_item` leaves the counts. -/
theorem addItem_refused {err : String} (h : (s.addItem cfg itemId n).2 = some err) :
    SameCounts s (s.addItem cfg itemId n).1 := by
  unfold addItem at h ⊢
  cases hc : cfg.items itemId with
  | none => exact .of_eq rfl
  | some c =>
      simp only [hc] at h ⊢
      split at h
      · rename_i hfull
        rw [if_pos hfull]
        intro k
        simp only [Table.get_set]
        by_cases hk : k = itemId
        · subst hk
          cases hg : s.items.get k with
          | none => exact .inr ⟨rfl, by simp⟩
          | some i => exact .inl (by simp)
        · exact .inl (by simp [hk])
      · cases h

/-- {lit}`sub_item` takes the count and stays in the range. -/
theorem subItem_taken (h : (s.subItem cfg itemId n).2 = true) :
    (∀ k, (s.subItem cfg itemId n).1.count k = s.count k - if k = itemId then n else 0) ∧
      (s.InRange cfg → 0 < n → (s.subItem cfg itemId n).1.InRange cfg) := by
  unfold subItem at h ⊢
  split at h
  · rename_i c i hc hi
    split at h
    · cases h
    · rename_i hle
      simp only [if_neg hle]
      refine ⟨fun k => ?_, fun hs hn => ?_⟩
      · rw [count_of_set itemId rfl]
        by_cases hk : k = itemId
        · subst hk
          simp [Player.count, hi]
        · simp [hk]
      · refine hs.set (i := i - n) (by omega) (fun c' hc' => ?_) rfl
        have := (hs itemId i hi).2 c' hc'
        omega
  · cases h

theorem subItem_refused (h : (s.subItem cfg itemId n).2 = false) :
    (s.subItem cfg itemId n).1 = s := by
  unfold subItem at h ⊢
  split at h
  · split at h
    · rename_i hlt
      simp only [if_pos hlt]
    · cases h
  · rfl

/-- {lit}`sub_item` takes what is there. -/
theorem subItem_takes (hc : (cfg.items itemId).isSome) (hn : 0 < n) (hle : n ≤ s.count itemId) :
    (s.subItem cfg itemId n).2 = true := by
  obtain ⟨c, hc⟩ := Option.isSome_iff_exists.mp hc
  unfold subItem
  cases hi : s.items.get itemId with
  | none =>
      simp only [Player.count, hi, Option.getD_none] at hle
      omega
  | some i =>
      have hlt : ¬ i < n := by
        simp only [Player.count, hi, Option.getD_some] at hle
        omega
      simp [hc, hlt]

theorem effectHandler_items {effect : String} {value : Int} {r : Dirty.Result}
    {x : Player × Option Unit} (h : s.effectHandler cfg effect n value r = some x) :
    x.1.items = s.items ∧ x.1.mails = s.mails := by
  unfold effectHandler at h
  split at h
  · obtain rfl := Option.some.inj h
    exact ⟨rfl, rfl⟩
  · split at h
    · obtain rfl := Option.some.inj h
      simp
    · cases h

/-- What {lit}`use_item` does to the bag: it takes the count, or refuses. -/
theorem useItem_cases (cfg : Config) (s : Player) (itemId : Nat) (n : Int) (r : Dirty.Result) :
    (∃ i, 0 < n ∧ n ≤ i ∧ s.items.get itemId = some i ∧
      (s.useItem cfg itemId n r).1.items = s.items.set itemId (i - n) ∧
      ∀ y, (s.useItem cfg itemId n r).2 = some y → y.code = 0) ∨
    (SameCounts s (s.useItem cfg itemId n r).1 ∧
      ∃ y, (s.useItem cfg itemId n r).2 = some y ∧ y.code = 1) := by
  unfold useItem
  split
  · exact .inr ⟨.of_eq rfl, _, rfl, rfl⟩
  · rename_i hn
    cases hc : cfg.items itemId with
    | none => exact .inr ⟨.of_eq rfl, _, rfl, rfl⟩
    | some c =>
        cases hi : s.items.get itemId with
        | none => exact .inr ⟨.of_eq rfl, _, rfl, rfl⟩
        | some i =>
            dsimp only
            split
            · exact .inr ⟨.of_eq rfl, _, rfl, rfl⟩
            · rename_i hle
              split
              · exact .inr ⟨.of_eq rfl, _, rfl, rfl⟩
              · split
                · rename_i s' heffect
                  have hitems := (effectHandler_items heffect).1
                  exact .inl ⟨i, by omega, by omega, rfl, hitems, by simp⟩
                · rename_i s' heffect
                  have hitems := (effectHandler_items heffect).1
                  exact .inl ⟨i, by omega, by omega, rfl, hitems, by simp⟩
                · refine .inr ⟨fun k => .inl ?_, _, rfl, rfl⟩
                  by_cases hk : k = itemId
                  · subst hk
                    simp [hi]
                  · simp [hk]

/-! ## A claim -/

/-- The sum of the counts of an item among some attachments. -/
def total (k : Nat) (as : List AttachItem) : Int :=
  as.foldr (fun a n => (if k = a.itemId then a.count else 0) + n) 0

@[simp]
theorem total_nil (k : Nat) : total k [] = 0 :=
  rfl

@[simp]
theorem total_cons (k : Nat) (a : AttachItem) (as : List AttachItem) :
    total k (a :: as) = (if k = a.itemId then a.count else 0) + total k as :=
  rfl

theorem total_nonneg {as : List AttachItem} (h : ∀ a ∈ as, 0 < a.count) (k : Nat) :
    0 ≤ total k as := by
  induction as with
  | nil => exact le_rfl
  | cons a as ih =>
      rw [total_cons]
      have hrest := ih fun b hb => h b (List.mem_cons_of_mem _ hb)
      have ha := h a List.mem_cons_self
      split
      · omega
      · omega

/-- The loop adds what it has granted; without a refusal that is everything unclaimed. -/
theorem grantLoop_spec (cfg : Config) (s : Player) (as : List AttachItem) :
    (∀ k, (grantLoop cfg s as).player.count k =
      s.count k + total k (grantLoop cfg s as).granted) ∧
    (∀ a ∈ (grantLoop cfg s as).granted, a ∈ as ∧ (cfg.items a.itemId).isSome) ∧
    (s.InRange cfg → (∀ a ∈ as, 0 < a.count) → (grantLoop cfg s as).player.InRange cfg) ∧
    ((grantLoop cfg s as).err = none →
      (grantLoop cfg s as).attachments = as.map (fun a => { a with isClaimed := true }) ∧
      (grantLoop cfg s as).granted = as.filter (!·.isClaimed)) := by
  induction as generalizing s with
  | nil => simp [grantLoop]
  | cons a as ih =>
      unfold grantLoop
      by_cases hclaimed : a.isClaimed = true
      · obtain ⟨hcount, hgranted, hrange, hall⟩ := ih s
        have ha : ({ a with isClaimed := true } : AttachItem) = a := by rw [← hclaimed]
        simp only [hclaimed, if_true]
        refine ⟨hcount, fun b hb => ?_, fun hs hpos => ?_, fun herr => ?_⟩
        · exact ⟨List.mem_cons_of_mem _ (hgranted b hb).1, (hgranted b hb).2⟩
        · exact hrange hs fun b hb => hpos b (List.mem_cons_of_mem _ hb)
        · obtain ⟨hatt, hgr⟩ := hall herr
          simp [hatt, hgr, ha, hclaimed]
      · simp only [hclaimed, if_false, Bool.false_eq_true]
        rcases hadd : s.addItem cfg a.itemId a.count with ⟨s₁, err⟩
        cases err with
        | some err =>
            have hsame : SameCounts s (s.addItem cfg a.itemId a.count).1 :=
              addItem_refused (by rw [hadd])
            rw [hadd] at hsame
            refine ⟨fun k => by simpa using hsame.count k, by simp, fun hs _ => ?_, by simp⟩
            exact hsame.inRange hs
        | none =>
            obtain ⟨hstep, hknown, hkeeps⟩ := addItem_added (s := s) (congrArg Prod.snd hadd)
            rw [hadd] at hstep hkeeps
            obtain ⟨hcount, hgranted, hrange, hall⟩ := ih s₁
            refine ⟨fun k => ?_, fun b hb => ?_, fun hs hpos => ?_, fun herr => ?_⟩
            · dsimp only
              rw [hcount, hstep, total_cons, Int.add_assoc]
            · rcases List.mem_cons.mp hb with rfl | hb
              · exact ⟨List.mem_cons_self, hknown⟩
              · exact ⟨List.mem_cons_of_mem _ (hgranted b hb).1, (hgranted b hb).2⟩
            · exact hrange (hkeeps hs (hpos a List.mem_cons_self))
                fun b hb => hpos b (List.mem_cons_of_mem _ hb)
            · obtain ⟨hatt, hgr⟩ := hall herr
              simp [hatt, hgr, hclaimed]

/-- The roll-back takes back all that is there. -/
theorem rollback_count {granted : List AttachItem} (hpos : ∀ a ∈ granted, 0 < a.count)
    (hknown : ∀ a ∈ granted, (cfg.items a.itemId).isSome)
    (hthere : ∀ k, total k granted ≤ s.count k) (k : Nat) :
    (s.rollback cfg granted).count k = s.count k - total k granted := by
  induction granted generalizing s with
  | nil => simp [rollback]
  | cons a as ih =>
      have hposTail : ∀ b ∈ as, 0 < b.count := fun b hb => hpos b (List.mem_cons_of_mem _ hb)
      have htake : (s.subItem cfg a.itemId a.count).2 = true := by
        refine subItem_takes (hknown a List.mem_cons_self) (hpos a List.mem_cons_self) ?_
        have hhere := hthere a.itemId
        have hrest := total_nonneg hposTail a.itemId
        rw [total_cons, if_pos rfl] at hhere
        omega
      have hstep := (subItem_taken htake).1
      have hrest : (rollback cfg (s.subItem cfg a.itemId a.count).1 as).count k =
          (s.subItem cfg a.itemId a.count).1.count k - total k as := by
        refine ih hposTail (fun b hb => hknown b (List.mem_cons_of_mem _ hb)) fun j => ?_
        have := hthere j
        rw [total_cons] at this
        rw [hstep]
        omega
      change (rollback cfg (s.subItem cfg a.itemId a.count).1 as).count k = _
      rw [hrest, hstep, total_cons, Int.sub_sub]

/-- What is in the bag stays there, with whatever count. -/
def Keeps (s s' : Player) : Prop :=
  ∀ k, (s.items.get k).isSome → (s'.items.get k).isSome

theorem Keeps.refl (s : Player) : Keeps s s :=
  fun _ h => h

theorem Keeps.trans {s₁ s₂ s₃ : Player} (h : Keeps s₁ s₂) (h' : Keeps s₂ s₃) : Keeps s₁ s₃ :=
  fun k hk => h' k (h k hk)

theorem Keeps.of_set {i : Int} (h : s'.items = s.items.set itemId i) : Keeps s s' := by
  intro k hk
  rw [h, Table.get_set]
  split
  · rfl
  · exact hk

theorem addItem_keeps (cfg : Config) (s : Player) (itemId : Nat) (n : Int) :
    Keeps s (s.addItem cfg itemId n).1 := by
  unfold addItem
  split
  · exact .refl s
  · dsimp only
    split <;> exact .of_set rfl

theorem subItem_keeps (cfg : Config) (s : Player) (itemId : Nat) (n : Int) :
    Keeps s (s.subItem cfg itemId n).1 := by
  unfold subItem
  split
  · split
    · exact .refl s
    · exact .of_set rfl
  · exact .refl s

theorem grantLoop_keeps (cfg : Config) (s : Player) (as : List AttachItem) :
    Keeps s (grantLoop cfg s as).player := by
  induction as generalizing s with
  | nil => exact .refl s
  | cons a as ih =>
      unfold grantLoop
      split
      · exact ih s
      · have hadd := addItem_keeps cfg s a.itemId a.count
        split
        · rename_i s₁ err heq
          rw [heq] at hadd
          exact hadd
        · rename_i s₁ heq
          rw [heq] at hadd
          exact hadd.trans (ih s₁)

theorem rollback_keeps (cfg : Config) (s : Player) (granted : List AttachItem) :
    Keeps s (s.rollback cfg granted) := by
  induction granted generalizing s with
  | nil => exact .refl s
  | cons a as ih => exact (subItem_keeps cfg s a.itemId a.count).trans (ih _)

/-- The same counts, and nothing is gone. -/
theorem SameCounts.of_count (hcount : ∀ k, s'.count k = s.count k) (hkeeps : Keeps s s') :
    SameCounts s s' := by
  intro k
  have hk := hcount k
  have hkeep := hkeeps k
  unfold Player.count at hk
  cases hg : s.items.get k with
  | none =>
      cases hg' : s'.items.get k with
      | none => exact .inl rfl
      | some i => exact .inr ⟨rfl, by simpa [hg, hg'] using hk⟩
  | some i =>
      obtain ⟨j, hj⟩ := Option.isSome_iff_exists.mp (hkeep (by simp [hg]))
      refine .inl ?_
      simp only [hg, hj, Option.getD_some] at hk
      rw [hj, hk]

/-- A claim grants all that is unclaimed, or nothing. -/
theorem claimAttachments_spec (hs : s.InRange cfg) {m : Mail}
    (hpos : ∀ a ∈ m.attachments, 0 < a.count) (now : Nat) {s' : Player} {as : List AttachItem}
    {err : Option String} (h : s.claimAttachments cfg m now = (s', as, err)) :
    s'.InRange cfg ∧
    (err = none → as = m.attachments.map (fun a => { a with isClaimed := true }) ∧
      ∀ k, s'.count k = s.count k + total k (m.attachments.filter (!·.isClaimed))) ∧
    (err ≠ none → as = m.attachments ∧ SameCounts s s') := by
  unfold claimAttachments at h
  split at h
  · obtain ⟨rfl, rfl, rfl⟩ := by simpa using h
    exact ⟨hs, by simp, fun _ => ⟨rfl, .of_eq rfl⟩⟩
  · obtain ⟨hcount, hgranted, hrange, hall⟩ := grantLoop_spec cfg s m.attachments
    have hkeeps := grantLoop_keeps cfg s m.attachments
    dsimp only at h
    split at h
    · -- a refusal; what was granted is taken back
      rename_i e herr
      obtain ⟨rfl, rfl, rfl⟩ := by simpa using h
      have hposG : ∀ a ∈ (grantLoop cfg s m.attachments).granted, 0 < a.count :=
        fun a ha => hpos a (hgranted a ha).1
      have hsame : SameCounts s (rollback cfg (grantLoop cfg s m.attachments).player
          (grantLoop cfg s m.attachments).granted) := by
        refine .of_count (fun k => ?_) (hkeeps.trans (rollback_keeps cfg _ _))
        rw [rollback_count hposG (fun a ha => (hgranted a ha).2), hcount]
        · omega
        · intro j
          rw [hcount]
          have := hs.count_nonneg j
          omega
      exact ⟨hsame.inRange hs, by simp, fun _ => ⟨rfl, hsame⟩⟩
    · rename_i herr
      obtain ⟨hatt, hgr⟩ := hall herr
      split at h
      · rename_i hnone
        obtain ⟨rfl, rfl, rfl⟩ := by simpa using h
        have hsame : SameCounts s (grantLoop cfg s m.attachments).player :=
          .of_count (fun k => by rw [hcount, hnone, total_nil, Int.add_zero]) hkeeps
        refine ⟨hrange hs hpos, by simp, fun _ => ⟨?_, hsame⟩⟩
        -- everything was claimed already
        rw [hatt]
        refine (List.map_congr_left fun a ha => ?_).trans (List.map_id _)
        have hclaimed : a.isClaimed = true := by
          by_contra hno
          have : a ∈ m.attachments.filter (!·.isClaimed) :=
            List.mem_filter.mpr ⟨ha, by simpa using hno⟩
          rw [← hgr, hnone] at this
          exact List.not_mem_nil this
        change ({ a with isClaimed := true } : AttachItem) = a
        rw [← hclaimed]
      · obtain ⟨rfl, rfl, rfl⟩ := by simpa using h
        exact ⟨hrange hs hpos, fun _ => ⟨hatt, fun k => by rw [hcount, hgr]⟩, by simp⟩

/-! ## Sequences -/

/-- An operation on the bag. -/
inductive BagOp where
  | addItem (itemId : Nat) (count : Int)
  | subItem (itemId : Nat) (count : Int)
  | useItem (itemId : Nat) (count : Int) (r : Dirty.Result)
  | mailClaim (mid now : Nat)
deriving DecidableEq

/-- The player after an operation, and whether it succeeded, unless it has raised. -/
def bagStep (cfg : Config) (s : Player) : BagOp → Player × Option Bool
  | .addItem k n => ((s.addItem cfg k n).1, some (s.addItem cfg k n).2.isNone)
  | .subItem k n => ((s.subItem cfg k n).1, some (s.subItem cfg k n).2)
  | .useItem k n r => ((s.useItem cfg k n r).1, (s.useItem cfg k n r).2.map (·.code == 0))
  | .mailClaim mid now => ((s.mailClaim cfg mid now).1, some (s.mailClaim cfg mid now).2.isNone)

/-- A sequence of operations. -/
def bagRun (cfg : Config) (s : Player) : List BagOp → Player
  | [] => s
  | op :: ops => bagRun cfg (s.bagStep cfg op).1 ops

/-- The count of an operation is positive. -/
def BagOp.Positive : BagOp → Prop
  | .addItem _ n | .subItem _ n | .useItem _ n _ => 0 < n
  | .mailClaim _ _ => True

/-- The items an operation may change; a claim those that are unclaimed in its mail. -/
def BagOp.Touches (s : Player) (k : Nat) : BagOp → Prop
  | .addItem i _ | .subItem i _ | .useItem i _ _ => k = i
  | .mailClaim mid _ => ∃ m, s.mails.get mid = some m ∧
      ∃ a ∈ m.attachments, a.isClaimed = false ∧ a.itemId = k

/-- The counts of all attachments are positive. -/
def PositiveMails (s : Player) : Prop :=
  ∀ mid m, s.mails.get mid = some m → ∀ a ∈ m.attachments, 0 < a.count

theorem total_eq_zero {as : List AttachItem} (h : ∀ a ∈ as, a.itemId ≠ k) : total k as = 0 := by
  induction as with
  | nil => rfl
  | cons a as ih =>
      rw [total_cons, if_neg (h a List.mem_cons_self).symm,
        ih fun b hb => h b (List.mem_cons_of_mem _ hb)]
      rfl

theorem mailClaim_spec (hs : s.InRange cfg) (hm : s.PositiveMails) (mid now : Nat) :
    (s.mailClaim cfg mid now).1.InRange cfg ∧
    ((s.mailClaim cfg mid now).2 ≠ none → SameCounts s (s.mailClaim cfg mid now).1) ∧
    (∀ k, ¬ BagOp.Touches s k (.mailClaim mid now) →
      (s.mailClaim cfg mid now).1.count k = s.count k) := by
  unfold mailClaim
  cases hget : s.mails.get mid with
  | none => exact ⟨hs, fun _ => .of_eq rfl, fun _ _ => rfl⟩
  | some m =>
      rcases hclaim : s.claimAttachments cfg m now with ⟨s₁, as, err⟩
      obtain ⟨hrange, hdone, hrefused⟩ := claimAttachments_spec hs (hm mid m hget) now hclaim
      simp only [hclaim]
      cases err with
      | none =>
          refine ⟨hrange, by simp, fun k hk => ?_⟩
          have hzero : total k (m.attachments.filter (!·.isClaimed)) = 0 := by
            refine total_eq_zero fun a ha hitem => hk ⟨m, hget, a, ?_⟩
            obtain ⟨hmem, hun⟩ := List.mem_filter.mp ha
            exact ⟨hmem, by simpa using hun, hitem⟩
          have := (hdone rfl).2 k
          rw [hzero, Int.add_zero] at this
          exact this
      | some e =>
          have hsame := (hrefused (by simp)).2
          exact ⟨hrange, fun _ => hsame, fun k _ => hsame.count k⟩

/-- The bag may differ, mails and base information do not. -/
structure SameButItems (s s' : Player) : Prop where
  mails : s'.mails = s.mails
  baseInfo : s'.baseInfo = s.baseInfo

theorem SameButItems.refl (s : Player) : SameButItems s s :=
  ⟨rfl, rfl⟩

theorem SameButItems.trans {s s' s'' : Player} (h : SameButItems s s') (h' : SameButItems s' s'') :
    SameButItems s s'' :=
  ⟨h'.mails.trans h.mails, h'.baseInfo.trans h.baseInfo⟩

theorem addItem_same (cfg : Config) (s : Player) (itemId : Nat) (n : Int) :
    SameButItems s (s.addItem cfg itemId n).1 := by
  unfold addItem
  split
  · exact .refl s
  · dsimp only
    split <;> exact ⟨rfl, rfl⟩

theorem subItem_same (cfg : Config) (s : Player) (itemId : Nat) (n : Int) :
    SameButItems s (s.subItem cfg itemId n).1 := by
  unfold subItem
  split
  · split <;> exact ⟨rfl, rfl⟩
  · exact .refl s

theorem grantLoop_same (cfg : Config) (s : Player) (as : List AttachItem) :
    SameButItems s (grantLoop cfg s as).player := by
  induction as generalizing s with
  | nil => exact .refl s
  | cons a as ih =>
      unfold grantLoop
      split
      · exact ih s
      · have hadd := addItem_same cfg s a.itemId a.count
        split
        · rename_i s₁ err heq
          rw [heq] at hadd
          exact hadd
        · rename_i s₁ heq
          rw [heq] at hadd
          exact hadd.trans (ih s₁)

theorem rollback_same (cfg : Config) (s : Player) (granted : List AttachItem) :
    SameButItems s (s.rollback cfg granted) := by
  induction granted generalizing s with
  | nil => exact .refl s
  | cons a as ih => exact (subItem_same cfg s a.itemId a.count).trans (ih _)

theorem claimAttachments_same (cfg : Config) (s : Player) (m : Mail) (now : Nat) :
    SameButItems s (s.claimAttachments cfg m now).1 := by
  unfold claimAttachments
  split
  · exact .refl s
  · dsimp only
    split
    · exact (grantLoop_same cfg _ _).trans (rollback_same cfg _ _)
    · split <;> exact grantLoop_same cfg _ _

theorem useItem_mails (cfg : Config) (s : Player) (itemId : Nat) (n : Int) (r : Dirty.Result) :
    (s.useItem cfg itemId n r).1.mails = s.mails := by
  unfold useItem
  split
  · rfl
  · split
    · rfl
    · split
      · rfl
      · split
        · rfl
        · split
          · rfl
          · dsimp only
            split
            · rename_i heffect
              exact (effectHandler_items heffect).2
            · rename_i heffect
              exact (effectHandler_items heffect).2
            · rfl

theorem mailClaim_positive (hs : s.InRange cfg) (hm : s.PositiveMails) (mid now : Nat) :
    (s.mailClaim cfg mid now).1.PositiveMails := by
  unfold mailClaim
  cases hget : s.mails.get mid with
  | none => exact hm
  | some m =>
      rcases hclaim : s.claimAttachments cfg m now with ⟨s₁, as, err⟩
      obtain ⟨-, hdone, hrefused⟩ := claimAttachments_spec hs (hm mid m hget) now hclaim
      have hmails : s₁.mails = s.mails := by
        have := (claimAttachments_same cfg s m now).mails
        rwa [hclaim] at this
      have hpos : ∀ a ∈ as, 0 < a.count := by
        by_cases herr : err = none
        · rw [(hdone herr).1]
          intro a ha
          obtain ⟨b, hb, rfl⟩ := List.mem_map.mp ha
          exact hm mid m hget b hb
        · rw [(hrefused herr).1]
          exact hm mid m hget
      have hset : ∀ s' : Player, s'.mails = s₁.mails.set mid { m with attachments := as } →
          s'.PositiveMails := by
        intro s' hs' i m' hm'
        rw [hs', hmails, Table.get_set] at hm'
        split at hm'
        · obtain rfl := Option.some.inj hm'
          exact hpos
        · exact hm i m' hm'
      simp only [hclaim]
      split <;> exact hset _ rfl

/-- What one operation does. -/
theorem bagStep_spec (hs : s.InRange cfg) (hm : s.PositiveMails) {op : BagOp}
    (hop : op.Positive) :
    (s.bagStep cfg op).1.InRange cfg ∧ (s.bagStep cfg op).1.PositiveMails ∧
      ((s.bagStep cfg op).2 = some false → SameCounts s (s.bagStep cfg op).1) ∧
      ∀ k, ¬ op.Touches s k → (s.bagStep cfg op).1.count k = s.count k := by
  cases op with
  | addItem i n =>
      have hmails : (s.addItem cfg i n).1.PositiveMails := by
        unfold PositiveMails
        rw [(addItem_same ..).mails]
        exact hm
      cases herr : (s.addItem cfg i n).2 with
      | none =>
          obtain ⟨hcount, -, hrange⟩ := addItem_added herr
          refine ⟨hrange hs hop, hmails, by simp [bagStep, herr], fun k hk => ?_⟩
          have hne : k ≠ i := hk
          simp [bagStep, hcount, hne]
      | some err =>
          have hsame := addItem_refused herr
          exact ⟨hsame.inRange hs, hmails, fun _ => hsame, fun k _ => hsame.count k⟩
  | subItem i n =>
      have hmails : (s.subItem cfg i n).1.PositiveMails := by
        unfold PositiveMails
        rw [(subItem_same ..).mails]
        exact hm
      cases hok : (s.subItem cfg i n).2 with
      | true =>
          obtain ⟨hcount, hrange⟩ := subItem_taken hok
          refine ⟨hrange hs hop, hmails, by simp [bagStep, hok], fun k hk => ?_⟩
          have hne : k ≠ i := hk
          simp [bagStep, hcount, hne]
      | false =>
          have hsame : SameCounts s (s.subItem cfg i n).1 := by
            rw [subItem_refused hok]
            exact .of_eq rfl
          exact ⟨hsame.inRange hs, hmails, fun _ => hsame, fun k _ => hsame.count k⟩
  | useItem i n r =>
      have hmails : (s.useItem cfg i n r).1.PositiveMails := by
        unfold PositiveMails
        rw [useItem_mails]
        exact hm
      rcases useItem_cases cfg s i n r with
        ⟨c, hn, hle, hi, hset, hcode⟩ | ⟨hsame, y, hy, hcode⟩
      · refine ⟨hs.set (i := c - n) (by omega) (fun x hx => ?_) hset, hmails, ?_, ?_⟩
        · have := (hs i c hi).2 x hx
          omega
        · intro hfail
          simp only [bagStep, Option.map_eq_some_iff] at hfail
          obtain ⟨y, hy, hne⟩ := hfail
          rw [hcode y hy] at hne
          cases hne
        · intro k hk
          have hne : k ≠ i := hk
          exact (count_of_set i hset k).trans (if_neg hne)
      · exact ⟨hsame.inRange hs, hmails, fun _ => hsame, fun k _ => hsame.count k⟩
  | mailClaim mid now =>
      obtain ⟨hrange, hfail, hother⟩ := mailClaim_spec hs hm mid now
      refine ⟨hrange, mailClaim_positive hs hm mid now, fun h => hfail ?_, hother⟩
      intro hnone
      simp [bagStep, hnone] at h

theorem bagRun_spec (ops : List BagOp) (hs : s.InRange cfg) (hm : s.PositiveMails)
    (hops : ∀ op ∈ ops, op.Positive) :
    (s.bagRun cfg ops).InRange cfg ∧ (s.bagRun cfg ops).PositiveMails := by
  induction ops generalizing s with
  | nil => exact ⟨hs, hm⟩
  | cons op ops ih =>
      obtain ⟨hs', hm', -, -⟩ := bagStep_spec hs hm (hops op List.mem_cons_self)
      exact ih hs' hm' fun o ho => hops o (List.mem_cons_of_mem _ ho)

/-- A claim grants every unclaimed attachment, or leaves all counts and flags.  In any
sequence of operations with positive counts the counts stay between 0 and the capacity, no
other item changes, and what fails leaves the counts. -/
theorem bag_in_range (cfg : Config) (s : Player) (hs : s.InRange cfg) (hm : s.PositiveMails) :
    (∀ (m : Mail) (now : Nat) (s' : Player) (as : List AttachItem) (err : Option String),
      (∀ a ∈ m.attachments, 0 < a.count) → s.claimAttachments cfg m now = (s', as, err) →
      (err = none → as = m.attachments.map (fun a => { a with isClaimed := true }) ∧
        ∀ k, s'.count k = s.count k + total k (m.attachments.filter (!·.isClaimed))) ∧
      (err ≠ none → as = m.attachments ∧ SameCounts s s')) ∧
    ∀ (ops : List BagOp) (op : BagOp), (∀ o ∈ ops, o.Positive) → op.Positive →
      (s.bagRun cfg ops).InRange cfg ∧
      (((s.bagRun cfg ops).bagStep cfg op).2 = some false →
        SameCounts (s.bagRun cfg ops) ((s.bagRun cfg ops).bagStep cfg op).1) ∧
      ∀ k, ¬ op.Touches (s.bagRun cfg ops) k →
        ((s.bagRun cfg ops).bagStep cfg op).1.count k = (s.bagRun cfg ops).count k := by
  refine ⟨?_, ?_⟩
  · intro m now s' as err hpos h
    exact (claimAttachments_spec hs hpos now h).2
  · intro ops op hops hop
    obtain ⟨hs', hm'⟩ := bagRun_spec ops hs hm hops
    obtain ⟨-, -, hfail, hother⟩ := bagStep_spec hs' hm' hop
    exact ⟨hs', hfail, hother⟩

/-- A player with 98 gems and one mail with 2 more, after a coin bag that is full. -/
def collector : Player where
  baseInfo := ⟨0, 1, 0, 0, 0, 0⟩
  achieves := .empty
  items := Table.empty.set 1001 98
  mails := Table.empty.set 5 ⟨false, none, [⟨1, 2001, 99, false⟩, ⟨2, 1001, 2, false⟩]⟩
  dirty := fun _ => false
  gate := true
  sent := []
  fired := []

/-- The gems do not fit, so the coin bags are taken back. -/
theorem bag_in_range_collector :
    (collector.bagRun config [.mailClaim 5 0]).InRange config ∧
    (collector.mailClaim config 5 0).2 = some "小型经验宝石超出收纳容量" ∧
    SameCounts collector (collector.bagStep config (.mailClaim 5 0)).1 := by
  have hs : collector.InRange config := by
    intro k i hi
    have hk : k = 1001 ∧ i = 98 := by
      simp only [collector, Table.get_set, Table.get_empty] at hi
      split at hi
      · exact ⟨‹_›, (Option.some.inj hi).symm⟩
      · cases hi
    obtain ⟨rfl, rfl⟩ := hk
    refine ⟨by decide, fun c hc => ?_⟩
    obtain rfl := Option.some.inj hc
    decide
  have hm : collector.PositiveMails := by
    intro mid m hmid
    simp only [collector, Table.get_set, Table.get_empty] at hmid
    split at hmid
    · obtain rfl := Option.some.inj hmid
      simp
    · cases hmid
  have h := (bag_in_range config collector hs hm).2
  have hrefused : (collector.mailClaim config 5 0).2 = some "小型经验宝石超出收纳容量" := by
    decide +kernel
  refine ⟨(h [.mailClaim 5 0] (.mailClaim 5 0) (by simp [BagOp.Positive]) trivial).1, hrefused, ?_⟩
  exact (h [] (.mailClaim 5 0) (by simp) trivial).2.1 (by
    change some (collector.mailClaim config 5 0).2.isNone = some false
    rw [hrefused]
    rfl)

end Player

/-! ## The bag of the flags -/

/-- The configuration as far as the flags depend on it. -/
def Config.forFlags (cfg : Config) : Dirty.Config where
  maxStack := fun itemId => (cfg.items itemId).map (·.maxStack)
  target := fun aid => (cfg.achieveList aid).map (·.target)
  eventList := cfg.eventList

namespace Player

variable {cfg : Config} {s : Player} {itemId : Nat} {n : Int}

/-- A value that is there may be written again. -/
theorem set_same {α : Type} {t : Table α} {k : Nat} {v : α} (h : t.get k = some v) :
    t.set k v = t := by
  refine Table.ext_get fun i => ?_
  rw [Table.get_set]
  split_ifs with hi
  · rw [hi, h]
  · rfl

theorem addToBag_eq : Dirty.addToBag cfg.forFlags s.items itemId n =
    ((s.addItem cfg itemId n).1.items, (s.addItem cfg itemId n).2.isNone) := by
  have hmax : cfg.forFlags.maxStack itemId =
    (cfg.items itemId).map fun c => (c.maxStack : Int) := rfl
  unfold Dirty.addToBag addItem
  rw [hmax]
  cases hc : cfg.items itemId with
  | none => rfl
  | some c =>
      simp only [Option.map_some]
      cases hget : s.items.get itemId with
      | none =>
          simp only [Option.getD_none, zero_add]
          split_ifs <;> rfl
      | some i =>
          simp only [Option.getD_some]
          split_ifs
          · simp only [Option.isNone_some, set_same hget]
          · rfl

theorem subFromBag_eq : Dirty.subFromBag cfg.forFlags s.items itemId n =
    if (s.subItem cfg itemId n).2 then some (s.subItem cfg itemId n).1.items else none := by
  have hmax : cfg.forFlags.maxStack itemId =
    (cfg.items itemId).map fun c => (c.maxStack : Int) := rfl
  unfold Dirty.subFromBag subItem
  rw [hmax]
  cases cfg.items itemId with
  | none => rfl
  | some c =>
      simp only [Option.map_some]
      cases s.items.get itemId with
      | none => rfl
      | some i =>
          by_cases hlt : i < n
          · simp only [if_pos hlt, Bool.false_eq_true, if_false]
          · simp only [if_neg hlt, if_true]
            rfl

theorem grantAll_eq (as : List AttachItem) :
    Dirty.grantAll cfg.forFlags s.items as =
      ⟨(grantLoop cfg s as).player.items, (grantLoop cfg s as).attachments,
        (grantLoop cfg s as).granted, (grantLoop cfg s as).err.isSome⟩ := by
  induction as generalizing s with
  | nil => rfl
  | cons a as ih =>
      unfold Dirty.grantAll grantLoop
      rw [addToBag_eq]
      split_ifs with hclaimed hadded
      · rw [ih]
      · rcases hadd : s.addItem cfg a.itemId a.count with ⟨s₁, err⟩
        rw [hadd] at hadded
        obtain rfl : err = none := Option.isNone_iff_eq_none.mp hadded
        simp only [ih]
      · rcases hadd : s.addItem cfg a.itemId a.count with ⟨s₁, err⟩
        rw [hadd] at hadded
        cases err with
        | none => exact absurd rfl hadded
        | some err => rfl

theorem rollback_eq (granted : List AttachItem) :
    Dirty.rollback cfg.forFlags s.items granted = (s.rollback cfg granted).items := by
  induction granted generalizing s with
  | nil => rfl
  | cons a granted ih =>
      have hstep : (Dirty.subFromBag cfg.forFlags s.items a.itemId a.count).getD s.items =
          (s.subItem cfg a.itemId a.count).1.items := by
        rw [subFromBag_eq]
        split_ifs with htaken
        · rfl
        · rw [subItem_refused (by simpa using htaken)]
          rfl
      unfold Dirty.rollback rollback
      rw [List.foldl_cons, List.foldl_cons, hstep]
      exact ih

/-- A loop that has granted nothing and met no refusal has changed nothing. -/
theorem grantLoop_nothing (as : List AttachItem) (hgranted : (grantLoop cfg s as).granted = [])
    (herr : (grantLoop cfg s as).err = none) :
    (grantLoop cfg s as).player = s ∧ (grantLoop cfg s as).attachments = as := by
  induction as generalizing s with
  | nil => exact ⟨rfl, rfl⟩
  | cons a as ih =>
      unfold grantLoop at hgranted herr ⊢
      split_ifs at hgranted herr ⊢ with hclaimed
      · obtain ⟨hplayer, has⟩ := ih hgranted herr
        exact ⟨hplayer, congrArg (a :: ·) has⟩
      · rcases hadd : s.addItem cfg a.itemId a.count with ⟨s₁, err⟩
        rw [hadd] at hgranted herr
        cases err with
        | none => cases hgranted
        | some err => cases herr

theorem claimBag_data (d : Dirty.Player) (r : Dirty.Grants) (bag : Table Int) :
    (Dirty.claimBag d r bag).data = Function.update d.data .items bag := by
  unfold Dirty.claimBag
  split <;> rfl

/-- A claim leaves the same bag and the same mails in the model of the flags. -/
theorem mailClaim_agrees {d : Dirty.Player} (hitems : d.data .items = s.items)
    (hmails : d.data .mails = s.mails) (mid now : Nat) :
    (Dirty.mailClaim cfg.forFlags d mid now).data .items = (s.mailClaim cfg mid now).1.items ∧
      (Dirty.mailClaim cfg.forFlags d mid now).data .mails = (s.mailClaim cfg mid now).1.mails := by
  unfold Dirty.mailClaim mailClaim
  rw [hmails]
  cases hm : s.mails.get mid with
  | none => exact ⟨hitems, hmails⟩
  | some m =>
      have hsame : s.mails = s.mails.set mid { m with attachments := m.attachments } :=
        (set_same hm).symm
      by_cases hexpired : m.isExpired now = true
      · simp only [claimAttachments, if_pos hexpired]
        exact ⟨hitems, hmails.trans hsame⟩
      · simp only [claimAttachments, if_neg hexpired, hitems, grantAll_eq]
        cases herr : (grantLoop cfg s m.attachments).err with
        | some err =>
            simp only [Option.isSome_some, if_true, claimBag_data, reduceCtorEq, if_false]
            refine ⟨?_, ?_⟩
            · rw [Function.update_self, rollback_eq]
            · rw [Function.update_of_ne (by decide), hmails, (rollback_same ..).mails,
                (grantLoop_same ..).mails]
              exact hsame
        | none =>
            simp only [Option.isSome_none, Bool.false_eq_true, if_false]
            by_cases hgranted : (grantLoop cfg s m.attachments).granted = []
            · obtain ⟨hplayer, has⟩ := grantLoop_nothing m.attachments hgranted herr
              simp only [if_pos hgranted, reduceCtorEq, if_false, hplayer, has]
              exact ⟨hitems, hmails.trans hsame⟩
            · simp only [if_neg hgranted, if_true, Dirty.markDirty, Dirty.write, claimBag_data]
              refine ⟨?_, ?_⟩
              · rw [Function.update_of_ne (by decide), Function.update_self]
                rfl
              · rw [Function.update_self, Function.update_of_ne (by decide), hmails]
                simp only [setDirty, (grantLoop_same cfg s m.attachments).mails]

end Player

end BallServer.Agent.Data
