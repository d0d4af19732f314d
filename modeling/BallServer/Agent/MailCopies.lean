import BallServer.Agent.Mail

/-!
# Copies of attachments

What is claimed in memory is written to mysql later, so the same attachment can be loaded
as unclaimed after it was claimed.  The condition {lit}`Careful` asks that a copy that is
installed as unclaimed is of an attachment that neither mysql nor the agent has as claimed,
and that what the agent has claimed is not lost before it is written.

Main results:

- Theorem {lit}`claimAttachments_eq`: a claim grants what was unclaimed, or nothing.
- Theorem {lit}`Paid.install`, {lit}`Paid.append` and {lit}`Paid.claim`: careful changes in
  memory keep the invariant.
- Theorem {lit}`TaskOk.answered`: so do the queries.
-/

namespace BallServer.Agent

/-- The rows of the attachments that are not claimed. -/
def unclaimed (as : List AttachItem) : List Nat :=
  (as.filter fun a => a.isClaimed = false).map (·.id)

theorem unclaimed_nodup {as : List AttachItem} (h : (as.map (·.id)).Nodup) :
    (unclaimed as).Nodup :=
  h.sublist (List.filter_sublist.map _)

theorem mem_unclaimed {as : List AttachItem} {r : Nat} :
    r ∈ unclaimed as ↔ ∃ a ∈ as, a.isClaimed = false ∧ a.id = r := by
  simp [unclaimed, and_assoc]

/-- A claim that succeeds grants what was unclaimed. -/
theorem grantAll_eq {addItem : Nat → Bool} {i : Nat} {as as' : List AttachItem}
    {granted : List Nat} (h : grantAll addItem i as = some (as', granted)) :
    as' = as.map (fun a => { a with isClaimed := true }) ∧ granted = unclaimed as := by
  induction as generalizing i as' granted with
  | nil =>
      obtain ⟨rfl, rfl⟩ := Prod.mk.inj (Option.some.inj h)
      exact ⟨rfl, rfl⟩
  | cons a as ih =>
      simp only [grantAll] at h
      split at h
      · rename_i ha
        obtain ⟨⟨cs, gs⟩, hr, hcs⟩ := Option.map_eq_some_iff.mp h
        obtain ⟨rfl, rfl⟩ := ih hr
        obtain ⟨rfl, rfl⟩ := Prod.mk.inj hcs
        exact ⟨by rw [List.map_cons, ← ha], by simp [unclaimed, ha]⟩
      · rename_i ha
        split at h
        · obtain ⟨⟨cs, gs⟩, hr, hcs⟩ := Option.map_eq_some_iff.mp h
          obtain ⟨rfl, rfl⟩ := ih hr
          obtain ⟨rfl, rfl⟩ := Prod.mk.inj hcs
          exact ⟨rfl, by simp [unclaimed, ha]⟩
        · cases h

theorem claimAttachments_eq {expired : Bool} {addItem : Nat → Bool} {as as' : List AttachItem}
    {granted : List Nat} (h : claimAttachments expired addItem as = some (as', granted)) :
    as' = as.map (fun a => { a with isClaimed := true }) ∧ granted = unclaimed as := by
  unfold claimAttachments at h
  split at h
  · cases h
  · split at h
    · cases h
    · rename_i cs gs hr
      split at h
      · cases h
      · obtain ⟨rfl, rfl⟩ := Prod.mk.inj (Option.some.inj h)
        exact grantAll_eq hr

/-- A coroutine of {lit}`leave_mail`. -/
def Cont.IsSave : Cont → Prop
  | .saveMails _ _ _ _ | .saveDeleted _ _ _ => True
  | _ => False

namespace Post

/-! ## The condition -/

/-- Neither mysql nor the agent has the attachment as claimed or its mail as deleted. -/
def Unclaimed (p : Post) (mid id : Nat) : Prop :=
  mid ∈ p.stored ∧ p.isClaimed id = false ∧ mid ∉ p.list p.deletedMailsId ∧
    ∀ o, p.mails.get mid = some o → ∀ b ∈ (p.object o).attachments, b.id = id →
      b.isClaimed = false

/-- What the agent has claimed of a mail is claimed in mysql or in what takes its place. -/
def Replaceable (p : Post) (mid : Nat) (as : List AttachItem) : Prop :=
  ∀ o, p.mails.get mid = some o → ∀ b ∈ (p.object o).attachments, b.isClaimed = true →
    p.isClaimed b.id = true ∨ ∃ a ∈ as, a.id = b.id ∧ a.isClaimed = true

/-- A mail with these attachments may be installed. -/
def Installable (p : Post) (mid : Nat) (as : List AttachItem) : Prop :=
  (∀ a ∈ as, a.isClaimed = false → p.Unclaimed mid a.id) ∧ p.Replaceable mid as

/-- What a coroutine finds when its answer arrives. -/
def CarefulReply (p : Post) : Cont → Reply → Prop
  | .initRows, .mails mids => ∀ mid ∈ mids, p.Replaceable mid []
  | .initAttachments o, .attachments as =>
      p.mails.get (p.object o).mailId = some o → ∀ a ∈ as, a.isClaimed = false →
        p.Unclaimed (p.object o).mailId a.id ∧ ∀ b ∈ (p.object o).attachments, b.id ≠ a.id
  | .batchAttachments mid, .attachments as => p.Installable mid as
  | .saveDeleted _ list i, .done =>
      (p.list list)[i]? = none → p.deletedMailsId = list ∨ p.list p.deletedMailsId = []
  | _, _ => True

/-- The condition on an event: a mail that is installed is as mysql and the agent have it, an
update with the flag 0 does not come after one with the flag 1, and a save that ends finds
the table of deleted mails it has gone through. -/
def Careful (p : Post) : PostEvent → Prop
  | .newMail mid => p.Installable mid ((p.attachments mid).map fun r => ⟨r, false⟩)
  | .answer t _ => ∀ k r, p.tasks.get t = some k → k.agent = p.agent → k.reply = some r →
      p.CarefulReply k.cont r
  | .execute t _ => ∀ k id, p.tasks.get t = some k → k.query = .updateClaimed id false →
      p.isClaimed id = false
  | _ => True

/-! ## The invariant -/

/-- A claimed attachment is not lost: its mail is gone from mysql, it is claimed there, the
agent has it as claimed, or the agent will delete the mail. -/
def Settled (p : Post) (mid r : Nat) : Prop :=
  mid ∉ p.stored ∨ p.isClaimed r = true ∨
    (∃ o, p.mails.get mid = some o ∧ ∃ a ∈ (p.object o).attachments, a.id = r ∧
      a.isClaimed = true) ∨
    mid ∈ p.list p.deletedMailsId

/-- What an object has claimed is claimed in mysql. -/
def SavedObject (p : Post) (o : Nat) : Prop :=
  ∀ a ∈ (p.object o).attachments, a.isClaimed = true → p.isClaimed a.id = true

/-- So is everything the agent has. -/
def AllSaved (p : Post) : Prop :=
  ∀ mid o, p.mails.get mid = some o → p.SavedObject o

/-- How far the kick has saved the mails. -/
def KickSaved (p : Post) (k : MailTask) : Prop :=
  match k.cont with
  | .saveMails _ visited o i =>
      (∀ mid ∈ visited, ∀ o', p.mails.get mid = some o' → o' ≠ o → p.SavedObject o') ∧
        ∀ j < i, ∀ a, (p.object o).attachments[j]? = some a → a.isClaimed = true →
          p.isClaimed a.id = true ∨ k.reply = none ∧ k.query = .updateClaimed a.id true
  | .saveDeleted _ _ _ => p.AllSaved
  | _ => True

/-- The coroutine of a kick. -/
def Kicks : Cont → Prop
  | .saveMails kick _ _ _ | .saveDeleted kick _ _ => kick = true
  | _ => False

/-- A coroutine of the agent. -/
structure TaskOk (p : Post) (k : MailTask) : Prop where
  mails : ∀ mids, k.reply = some (.mails mids) → ∀ mid ∈ mids, mid < p.nextMail
  attachments : ∀ mid as, k.query = .attachments mid → k.reply = some (.attachments as) →
    (as.map (·.id)).Nodup ∧ ∀ a ∈ as, a.id ∈ p.attachments mid
  init : ∀ o, k.cont = .initAttachments o →
    k.query = .attachments (p.object o).mailId ∧ o < p.nextObject
  batch : ∀ mid, k.cont = .batchMail mid ∨ k.cont = .batchAttachments mid → mid < p.nextMail
  load : ∀ mid, k.cont = .batchAttachments mid → k.query = .attachments mid
  deletes : ∀ kick l i, k.cont = .saveDeleted kick l i → l < p.nextList ∧
    i ≤ (p.list l).length ∧ ∀ j < i, ∀ mid, (p.list l)[j]? = some mid →
      mid ∉ p.stored ∨ k.reply = none ∧ k.query = .delete mid
  quiet : (p.phase = .normal ∨ p.phase = .waiting) ∨ k.cont.IsSave
  kicks : Kicks k.cont → (p.phase = .kicked ∨ p.phase = .saving) ∧ p.KickSaved k

/-- No attachment has been granted twice, nor will be. -/
structure Paid (p : Post) : Prop where
  owned : ∀ o, ∀ a ∈ (p.object o).attachments, a.id ∈ p.attachments (p.object o).mailId
  named : ∀ mid o, p.mails.get mid = some o →
    (p.object o).mailId = mid ∧ o < p.nextObject ∧ mid < p.nextMail
  rows : ∀ mid, (p.attachments mid).Nodup
  disjoint : ∀ m m' r, r ∈ p.attachments m → r ∈ p.attachments m' → m = m'
  ids : ∀ m, ∀ r ∈ p.attachments m, r < p.nextId
  new : ∀ m, p.nextMail ≤ m → p.attachments m = [] ∧ m ∉ p.stored
  listed : ∀ l, ∀ m ∈ p.list l, m < p.nextMail
  current : p.deletedMailsId < p.nextList
  once : p.granted.Nodup
  free : ∀ mid o, p.mails.get mid = some o → ∀ a ∈ (p.object o).attachments,
    a.isClaimed = false → a.id ∉ p.granted
  single : ∀ mid o, p.mails.get mid = some o → (unclaimed (p.object o).attachments).Nodup
  safe : ∀ r ∈ p.granted, ∃ mid, r ∈ p.attachments mid ∧ p.Settled mid r
  saved : p.phase = .kicked → p.AllSaved ∧ ∀ mid ∈ p.list p.deletedMailsId, mid ∉ p.stored
  tasks : ∀ t k, p.tasks.get t = some k → k.agent ≤ p.agent ∧ (k.agent = p.agent → p.TaskOk k)

/-- What a coroutine relies on stays when the rest moves on. -/
theorem TaskOk.transfer {p p' : Post} {k : MailTask} (h : p.TaskOk k)
    (hmail : p.nextMail ≤ p'.nextMail)
    (hatt : ∀ mid, p.attachments mid ⊆ p'.attachments mid)
    (hobj : ∀ o < p.nextObject, (p'.object o).mailId = (p.object o).mailId)
    (hnext : p.nextObject ≤ p'.nextObject) (hlists : p.nextList ≤ p'.nextList)
    (hlist : ∀ l < p.nextList, p.list l <+: p'.list l)
    (hstored : ∀ l, ∀ m ∈ p.list l, m ∉ p.stored → m ∉ p'.stored)
    (hquiet : p.phase = .normal ∨ p.phase = .waiting → p'.phase = .normal ∨ p'.phase = .waiting)
    (hfrozen : p.phase = .kicked ∨ p.phase = .saving →
      (p'.phase = .kicked ∨ p'.phase = .saving) ∧ p'.mails = p.mails ∧ p'.object = p.object ∧
        ∀ r, p.isClaimed r = true → p'.isClaimed r = true) : p'.TaskOk k where
  mails mids hr mid hm := (h.mails mids hr mid hm).trans_le hmail
  attachments mid as hq hr :=
    ⟨(h.attachments mid as hq hr).1, fun a ha => hatt mid ((h.attachments mid as hq hr).2 a ha)⟩
  init o hc := by
    obtain ⟨hq, ho⟩ := h.init o hc
    exact ⟨by rw [hq, hobj o ho], ho.trans_le hnext⟩
  batch mid hc := (h.batch mid hc).trans_le hmail
  load := h.load
  deletes kick l i hc := by
    obtain ⟨hl, hi, hgone⟩ := h.deletes kick l i hc
    obtain ⟨tail, htail⟩ := hlist l hl
    refine ⟨hl.trans_le hlists, ?_, fun j hj mid hmid => ?_⟩
    · rw [← htail, List.length_append]
      omega
    · rw [← htail, List.getElem?_append_left (hj.trans_le hi)] at hmid
      exact (hgone j hj mid hmid).imp (hstored l mid (List.mem_of_getElem? hmid)) id
  quiet := h.quiet.imp hquiet id
  kicks hc := by
    obtain ⟨hp, hs⟩ := h.kicks hc
    obtain ⟨hp', hmails, hobject, hmono⟩ := hfrozen hp
    refine ⟨hp', ?_⟩
    have hsaved : ∀ o, p.SavedObject o → p'.SavedObject o := by
      intro o ho a ha hclaimed
      rw [hobject] at ha
      exact hmono _ (ho a ha hclaimed)
    unfold KickSaved at hs ⊢
    split
    · rename_i visited o i hcont
      simp only [hcont] at hs
      refine ⟨fun mid hm o' ho' hne => hsaved o' (hs.1 mid hm o' (hmails ▸ ho') hne),
        fun j hj a ha hclaimed => ?_⟩
      rw [hobject] at ha
      exact (hs.2 j hj a ha hclaimed).imp (hmono _) id
    · rename_i hcont
      simp only [hcont] at hs
      exact fun mid o ho => hsaved o (hs mid o (hmails ▸ ho))
    · trivial

section Changes

variable {p : Post}

/-- An attachment that may be installed as unclaimed was never granted. -/
theorem Paid.not_granted (h : p.Paid) {mid r : Nat} (hr : r ∈ p.attachments mid)
    (hu : p.Unclaimed mid r) : r ∉ p.granted := by
  obtain ⟨hstored, hclaimed, hlist, hmem⟩ := hu
  intro hg
  obtain ⟨mid', hr', hs⟩ := h.safe r hg
  obtain rfl := h.disjoint _ _ _ hr hr'
  rcases hs with hs | hs | ⟨o, ho, a, ha, rfl, hs⟩ | hs
  · exact hs hstored
  · rw [hclaimed] at hs
    cases hs
  · rw [hmem o ho a ha rfl] at hs
    cases hs
  · exact hlist hs

/-- A coroutine waits for another query. -/
theorem Paid.setTask (h : p.Paid) (t : Nat) {k : MailTask} (hagent : k.agent ≤ p.agent)
    (hk : k.agent = p.agent → p.TaskOk k) : ({ p with tasks := p.tasks.set t k } : Post).Paid :=
  { h with
    tasks := fun t' k' ht => by
      rw [Table.get_set] at ht
      split at ht
      · obtain rfl := Option.some.inj ht
        exact ⟨hagent, fun ha => { hk ha with }⟩
      · exact ⟨(h.tasks t' k' ht).1, fun ha => { (h.tasks t' k' ht).2 ha with }⟩ }

theorem Paid.finish (h : p.Paid) (t : Nat) : (p.finish t).Paid :=
  { h with
    tasks := fun t' k' ht => by
      rw [Post.finish, Table.get_erase] at ht
      split at ht
      · cases ht
      · exact ⟨(h.tasks t' k' ht).1, fun ha => { (h.tasks t' k' ht).2 ha with }⟩ }

theorem Paid.nextTask (h : p.Paid) (n : Nat) : ({ p with nextTask := n } : Post).Paid :=
  { h with
    tasks := fun t' k' ht => ⟨(h.tasks t' k' ht).1, fun ha => { (h.tasks t' k' ht).2 ha with }⟩ }

/-- A coroutine that is not of a kick asks mysql for something. -/
theorem taskOk_load {query : Query} {cont : Cont} (hphase : p.phase = .normal ∨ p.phase = .waiting)
    (hinit : ∀ o, cont = .initAttachments o →
      query = .attachments (p.object o).mailId ∧ o < p.nextObject)
    (hbatch : ∀ mid, cont = .batchMail mid ∨ cont = .batchAttachments mid → mid < p.nextMail)
    (hload : ∀ mid, cont = .batchAttachments mid → query = .attachments mid)
    (hsave : ¬ cont.IsSave) : p.TaskOk ⟨p.agent, query, none, cont⟩ where
  mails := nofun
  attachments := nofun
  init := hinit
  batch := hbatch
  load := hload
  deletes kick l i hc := by
    have hc : cont = .saveDeleted kick l i := hc
    subst hc
    exact absurd trivial hsave
  quiet := .inl hphase
  kicks hc := by
    cases cont with
    | saveMails => exact absurd trivial hsave
    | saveDeleted => exact absurd trivial hsave
    | _ => cases hc

/-- A new object takes its place in the table. -/
theorem Paid.install (h : p.Paid) (hphase : p.phase = .normal ∨ p.phase = .waiting) {mid : Nat}
    (hmid : mid < p.nextMail) {as : List AttachItem} (hids : (as.map (·.id)).Nodup)
    (hof : ∀ a ∈ as, a.id ∈ p.attachments mid) (hi : p.Installable mid as) :
    (p.install mid as).Paid := by
  have hobj : ∀ o < p.nextObject, (p.install mid as).object o = p.object o := fun o ho => by
    simp [Post.install, ho.ne]
  have hnew : (p.install mid as).object p.nextObject = ⟨mid, as⟩ := by simp [Post.install]
  have hget : ∀ m, (p.install mid as).mails.get m =
      if m = mid then some p.nextObject else p.mails.get m := fun m => by simp [Post.install]
  have hnot : ¬ (p.phase = .kicked ∨ p.phase = .saving) := by
    rcases hphase with hp | hp <;> simp [hp]
  refine { h with
    owned := fun o a ha => ?_
    named := fun m o ho => ?_
    free := fun m o ho a ha hc => ?_
    single := fun m o ho => ?_
    safe := fun r hr => ?_
    saved := fun hp => absurd (.inl hp) hnot
    tasks := fun t k hk => ⟨(h.tasks t k hk).1, fun hagent =>
      ((h.tasks t k hk).2 hagent).transfer le_rfl (fun _ => List.Subset.refl _)
        (fun o ho => by rw [hobj o ho]) (Nat.le_succ _) le_rfl (fun _ _ => List.prefix_refl _)
        (fun _ _ _ => id) id fun hp => absurd hp hnot⟩ }
  · by_cases ho : o = p.nextObject
    · subst ho
      rw [hnew] at ha ⊢
      exact hof a ha
    · have heq : (p.install mid as).object o = p.object o := by simp [Post.install, ho]
      rw [heq] at ha ⊢
      exact h.owned o a ha
  · rw [hget] at ho
    split at ho
    · obtain rfl := Option.some.inj ho
      subst m
      exact ⟨by rw [hnew], Nat.lt_succ_self _, hmid⟩
    · obtain ⟨hm, ho', hold⟩ := h.named m o ho
      exact ⟨by rw [hobj o ho', hm], ho'.trans (Nat.lt_succ_self _), hold⟩
  · rw [hget] at ho
    split at ho
    · obtain rfl := Option.some.inj ho
      rw [hnew] at ha
      exact h.not_granted (hof a ha) (hi.1 a ha hc)
    · rw [hobj o (h.named m o ho).2.1] at ha
      exact h.free m o ho a ha hc
  · rw [hget] at ho
    split at ho
    · obtain rfl := Option.some.inj ho
      rw [hnew]
      exact unclaimed_nodup hids
    · rw [hobj o (h.named m o ho).2.1]
      exact h.single m o ho
  · obtain ⟨m, hm, hs⟩ := h.safe r hr
    refine ⟨m, hm, ?_⟩
    rcases hs with hs | hs | ⟨o, ho, b, hb, rfl, hc⟩ | hs
    · exact .inl hs
    · exact .inr (.inl hs)
    · by_cases hmm : m = mid
      · subst hmm
        rcases hi.2 o ho b hb hc with hs | ⟨a, ha, hid, hc⟩
        · exact .inr (.inl hs)
        · exact .inr (.inr (.inl ⟨p.nextObject, by simp [hget], a, by simpa [hnew] using ha, hid,
            hc⟩))
      · exact .inr (.inr (.inl ⟨o, by simp [hget, hmm, ho], b, by
          rw [hobj o (h.named m o ho).2.1]
          exact hb, rfl, hc⟩))
    · exact .inr (.inr (.inr hs))

/-- Attachments are appended to an object, which may still be in the table. -/
theorem Paid.append (h : p.Paid) (hphase : p.phase = .normal ∨ p.phase = .waiting) {o : Nat}
    {as : List AttachItem} (hids : (as.map (·.id)).Nodup)
    (hof : ∀ a ∈ as, a.id ∈ p.attachments (p.object o).mailId)
    (hi : p.mails.get (p.object o).mailId = some o → ∀ a ∈ as, a.isClaimed = false →
      p.Unclaimed (p.object o).mailId a.id ∧ ∀ b ∈ (p.object o).attachments, b.id ≠ a.id) :
    (p.setAttachments o ((p.object o).attachments ++ as)).Paid := by
  set p' := p.setAttachments o ((p.object o).attachments ++ as) with hp'
  have hother : ∀ o', o' ≠ o → p'.object o' = p.object o' := fun o' ho => by
    simp [hp', setAttachments, ho]
  have hself : p'.object o = ⟨(p.object o).mailId, (p.object o).attachments ++ as⟩ := by
    simp [hp', setAttachments]
  have hmailId : ∀ o', (p'.object o').mailId = (p.object o').mailId := fun o' => by
    by_cases ho : o' = o
    · subst ho
      rw [hself]
    · rw [hother o' ho]
  have hnot : ¬ (p.phase = .kicked ∨ p.phase = .saving) := by
    rcases hphase with hp | hp <;> simp [hp]
  refine { h with
    owned := fun o' a ha => ?_
    named := fun m o' ho => by rw [hmailId]; exact h.named m o' ho
    free := fun m o' ho a ha hc => ?_
    single := fun m o' ho => ?_
    safe := fun r hr => ?_
    saved := fun hp => absurd (.inl hp) hnot
    tasks := fun t k hk => ⟨(h.tasks t k hk).1, fun hagent =>
      ((h.tasks t k hk).2 hagent).transfer le_rfl (fun _ => List.Subset.refl _)
        (fun o' _ => hmailId o') le_rfl le_rfl (fun _ _ => List.prefix_refl _)
        (fun _ _ _ => id) id fun hp => absurd hp hnot⟩ }
  · by_cases ho : o' = o
    · subst ho
      rw [hself] at ha ⊢
      exact (List.mem_append.mp ha).elim (h.owned o' a) (hof a)
    · rw [hother o' ho] at ha ⊢
      exact h.owned o' a ha
  · by_cases hoo : o' = o
    · subst hoo
      rw [hself] at ha
      rcases List.mem_append.mp ha with ha | ha
      · exact h.free m o' ho a ha hc
      · have hm := (h.named m o' ho).1
        exact h.not_granted (hof a ha) (hi (hm ▸ ho) a ha hc).1
    · rw [hother o' hoo] at ha
      exact h.free m o' ho a ha hc
  · by_cases hoo : o' = o
    · subst hoo
      have hm := (h.named m o' ho).1
      have happ : unclaimed ((p.object o').attachments ++ as) =
          unclaimed (p.object o').attachments ++ unclaimed as := by
        simp [unclaimed]
      rw [hself, happ]
      refine List.nodup_append.mpr ⟨h.single m o' ho, unclaimed_nodup hids, ?_⟩
      intro r hr r' hr' heq
      subst heq
      obtain ⟨b, hb, -, rfl⟩ := mem_unclaimed.mp hr
      obtain ⟨a, ha, hc, hid⟩ := mem_unclaimed.mp hr'
      exact (hi (hm ▸ ho) a ha hc).2 b hb hid.symm
    · rw [hother o' hoo]
      exact h.single m o' ho
  · obtain ⟨m, hm, hs⟩ := h.safe r hr
    refine ⟨m, hm, hs.imp id (Or.imp id (Or.imp ?_ id))⟩
    rintro ⟨o', ho, b, hb, hid, hc⟩
    refine ⟨o', ho, b, ?_, hid, hc⟩
    by_cases hoo : o' = o
    · subst hoo
      rw [hself]
      exact List.mem_append_left _ hb
    · rw [hother o' hoo]
      exact hb

/-- A claim grants the unclaimed attachments of a mail. -/
theorem Paid.claim (h : p.Paid) (hphase : p.phase = .normal) {mid o : Nat}
    (ho : p.mails.get mid = some o) :
    ({ p.setAttachments o ((p.object o).attachments.map fun a => { a with isClaimed := true }) with
      granted := p.granted ++ unclaimed (p.object o).attachments } : Post).Paid := by
  set as := (p.object o).attachments.map fun a => ({ a with isClaimed := true } : AttachItem)
    with has
  set p' := p.setAttachments o as with hp'
  have hother : ∀ o', o' ≠ o → p'.object o' = p.object o' := fun o' ho => by
    simp [hp', setAttachments, ho]
  have hself : p'.object o = ⟨(p.object o).mailId, as⟩ := by simp [hp', setAttachments]
  have hmailId : ∀ o', (p'.object o').mailId = (p.object o').mailId := fun o' => by
    by_cases hoo : o' = o
    · subst hoo
      rw [hself]
    · rw [hother o' hoo]
  have hall : ∀ a ∈ as, a.isClaimed = true := by
    intro a ha
    obtain ⟨b, -, rfl⟩ := List.mem_map.mp ha
    rfl
  have hid : ∀ a ∈ as, ∃ b ∈ (p.object o).attachments, b.id = a.id := by
    intro a ha
    obtain ⟨b, hb, rfl⟩ := List.mem_map.mp ha
    exact ⟨b, hb, rfl⟩
  have hback : ∀ b ∈ (p.object o).attachments, ∃ a ∈ as, a.id = b.id ∧ a.isClaimed = true :=
    fun b hb => ⟨_, List.mem_map_of_mem hb, rfl, rfl⟩
  refine { h with
    owned := fun o' a ha => ?_
    named := fun m o' ho => ⟨(hmailId o').trans (h.named m o' ho).1, (h.named m o' ho).2⟩
    once := ?_
    free := fun m o' ho' a ha hc => ?_
    single := fun m o' ho' => ?_
    safe := fun r hr => ?_
    saved := fun hp => absurd (hphase.symm.trans hp) nofun
    tasks := fun t k hk => ⟨(h.tasks t k hk).1, fun hagent =>
      ((h.tasks t k hk).2 hagent).transfer le_rfl (fun _ => List.Subset.refl _)
        (fun o' _ => hmailId o') le_rfl le_rfl (fun _ _ => List.prefix_refl _)
        (fun _ _ _ => id) id fun hp => by simp [hphase] at hp⟩ }
  · have ha : a ∈ (p'.object o').attachments := ha
    change a.id ∈ p.attachments (p'.object o').mailId
    by_cases hoo : o' = o
    · subst hoo
      rw [hself] at ha ⊢
      obtain ⟨b, hb, hbid⟩ := hid a ha
      exact hbid ▸ h.owned o' b hb
    · rw [hother o' hoo] at ha ⊢
      exact h.owned o' a ha
  · refine List.nodup_append.mpr ⟨h.once, h.single mid o ho, ?_⟩
    intro r hr r' hr' heq
    subst heq
    obtain ⟨a, ha, hc, rfl⟩ := mem_unclaimed.mp hr'
    exact h.free mid o ho a ha hc hr
  · have ha : a ∈ (p'.object o').attachments := ha
    have ho' : p.mails.get m = some o' := ho'
    by_cases hoo : o' = o
    · subst hoo
      rw [hself] at ha
      rw [hall a ha] at hc
      cases hc
    · rw [hother o' hoo] at ha
      refine fun hr => (List.mem_append.mp hr).elim (h.free m o' ho' a ha hc) fun hr => ?_
      obtain ⟨b, hb, -, hbid⟩ := mem_unclaimed.mp hr
      have hmid := h.owned o b hb
      have hm := h.owned o' a ha
      rw [(h.named mid o ho).1, hbid] at hmid
      rw [(h.named m o' ho').1] at hm
      obtain rfl := h.disjoint _ _ _ hm hmid
      exact hoo (Option.some.inj (ho'.symm.trans ho))
  · change (unclaimed (p'.object o').attachments).Nodup
    have ho' : p.mails.get m = some o' := ho'
    by_cases hoo : o' = o
    · subst hoo
      have hnone : unclaimed as = [] := by
        refine List.eq_nil_iff_forall_not_mem.mpr fun r hr => ?_
        obtain ⟨a, ha, hc, -⟩ := mem_unclaimed.mp hr
        rw [hall a ha] at hc
        cases hc
      rw [hself, hnone]
      exact List.nodup_nil
    · rw [hother o' hoo]
      exact h.single m o' ho'
  · rcases List.mem_append.mp hr with hr | hr
    · obtain ⟨m, hm, hs⟩ := h.safe r hr
      refine ⟨m, hm, hs.imp id (Or.imp id (Or.imp ?_ id))⟩
      rintro ⟨o', ho', b, hb, hbid, hc⟩
      by_cases hoo : o' = o
      · subst hoo
        obtain ⟨a, ha, haid, hac⟩ := hback b hb
        refine ⟨o', ho', a, ?_, haid.trans hbid, hac⟩
        change a ∈ (p'.object o').attachments
        rw [hself]
        exact ha
      · refine ⟨o', ho', b, ?_, hbid, hc⟩
        change b ∈ (p'.object o').attachments
        rw [hother o' hoo]
        exact hb
    · obtain ⟨b, hb, -, rfl⟩ := mem_unclaimed.mp hr
      obtain ⟨a, ha, haid, hac⟩ := hback b hb
      refine ⟨mid, ?_, .inr (.inr (.inl ⟨o, ho, a, ?_, haid, hac⟩))⟩
      · have := h.owned o b hb
        rwa [(h.named mid o ho).1] at this
      · change a ∈ (p'.object o).attachments
        rw [hself]
        exact ha

/-- A mail is deleted in memory. -/
theorem Paid.mailDelete (h : p.Paid) (hphase : p.phase = .normal) {mid o : Nat}
    (ho : p.mails.get mid = some o) :
    ({ p with
      mails := p.mails.erase mid
      list := Function.update p.list p.deletedMailsId (p.list p.deletedMailsId ++ [mid]) } :
        Post).Paid := by
  have hget : ∀ m o', (p.mails.erase mid).get m = some o' → p.mails.get m = some o' := by
    intro m o' hm
    rw [Table.get_erase] at hm
    split at hm
    · cases hm
    · exact hm
  have hlist : ∀ l, p.list l <+: Function.update p.list p.deletedMailsId
      (p.list p.deletedMailsId ++ [mid]) l := by
    intro l
    by_cases hl : l = p.deletedMailsId
    · subst hl
      rw [Function.update_self]
      exact List.prefix_append _ _
    · rw [Function.update_of_ne hl]
  refine { h with
    named := fun m o' ho' => h.named m o' (hget m o' ho')
    listed := fun l m hm => ?_
    free := fun m o' ho' => h.free m o' (hget m o' ho')
    single := fun m o' ho' => h.single m o' (hget m o' ho')
    safe := fun r hr => ?_
    saved := fun hp => absurd (hphase.symm.trans hp) nofun
    tasks := fun t k hk => ⟨(h.tasks t k hk).1, fun hagent =>
      ((h.tasks t k hk).2 hagent).transfer le_rfl (fun _ => List.Subset.refl _)
        (fun _ _ => rfl) le_rfl le_rfl (fun l _ => hlist l) (fun _ _ _ => id) id
        fun hp => by simp [hphase] at hp⟩ }
  · change m ∈ Function.update p.list p.deletedMailsId (p.list p.deletedMailsId ++ [mid]) l at hm
    by_cases hl : l = p.deletedMailsId
    · subst hl
      rw [Function.update_self, List.mem_append, List.mem_singleton] at hm
      exact hm.elim (h.listed _ m) fun heq => heq ▸ (h.named mid o ho).2.2
    · rw [Function.update_of_ne hl] at hm
      exact h.listed l m hm
  · obtain ⟨m, hm, hs⟩ := h.safe r hr
    refine ⟨m, hm, ?_⟩
    rcases hs with hs | hs | ⟨o', ho', hs⟩ | hs
    · exact .inl hs
    · exact .inr (.inl hs)
    · by_cases hmm : m = mid
      · refine .inr (.inr (.inr ?_))
        simp [hmm]
      · exact .inr (.inr (.inl ⟨o', by simpa [hmm] using ho', hs⟩))
    · exact .inr (.inr (.inr ((hlist _).subset hs)))

/-- A mail is stored for the player. -/
theorem Paid.store (h : p.Paid) (n : Nat) :
    ({ p with
      stored := insert p.nextMail p.stored
      attachments := Function.update p.attachments p.nextMail (List.range' p.nextId n)
      nextMail := p.nextMail + 1
      nextId := p.nextId + n } : Post).Paid := by
  set att := Function.update p.attachments p.nextMail (List.range' p.nextId n) with hatt
  have hnone := (h.new p.nextMail le_rfl).1
  have hold : ∀ m, p.attachments m ⊆ att m := by
    intro m r hr
    by_cases hm : m = p.nextMail
    · subst hm
      rw [hnone] at hr
      cases hr
    · simpa [hatt, hm] using hr
  have hcase : ∀ m r, r ∈ att m → r ∈ p.attachments m ∨
      m = p.nextMail ∧ p.nextId ≤ r ∧ r < p.nextId + n := by
    intro m r hr
    by_cases hm : m = p.nextMail
    · subst hm
      rw [hatt, Function.update_self] at hr
      have := List.mem_range'_1.mp hr
      exact .inr ⟨rfl, this.1, this.2⟩
    · exact .inl (by simpa [hatt, hm] using hr)
  refine { h with
    owned := fun o a ha => hold _ (h.owned o a ha)
    named := fun m o ho => ⟨(h.named m o ho).1, (h.named m o ho).2.1,
      (h.named m o ho).2.2.trans (Nat.lt_succ_self _)⟩
    rows := fun m => ?_
    disjoint := fun m m' r hr hr' => ?_
    ids := fun m r hr => ?_
    new := fun m hm => ?_
    listed := fun l m hm => (h.listed l m hm).trans (Nat.lt_succ_self _)
    safe := fun r hr => ?_
    saved := fun hp => ⟨(h.saved hp).1, fun m hm => ?_⟩
    tasks := fun t k hk => ⟨(h.tasks t k hk).1, fun hagent =>
      ((h.tasks t k hk).2 hagent).transfer (Nat.le_succ _) hold (fun _ _ => rfl) le_rfl le_rfl
        (fun _ _ => List.prefix_refl _) (fun l m hm hno => ?_) id
        fun hp => ⟨hp, rfl, rfl, fun _ => id⟩⟩ }
  · change (att m).Nodup
    by_cases hm : m = p.nextMail
    · subst hm
      rw [hatt, Function.update_self]
      exact List.nodup_range'
    · simpa [hatt, hm] using h.rows m
  · rcases hcase m r hr with hr | ⟨rfl, hlow, -⟩
    · rcases hcase m' r hr' with hr' | ⟨-, hlow, -⟩
      · exact h.disjoint m m' r hr hr'
      · exact absurd (h.ids m r hr) (not_lt.mpr hlow)
    · rcases hcase m' r hr' with hr' | ⟨rfl, -, -⟩
      · exact absurd (h.ids m' r hr') (not_lt.mpr hlow)
      · rfl
  · change r < p.nextId + n
    rcases hcase m r hr with hr | ⟨-, -, hlt⟩
    · exact (h.ids m r hr).trans_le (Nat.le_add_right _ _)
    · exact hlt
  · have hm : p.nextMail + 1 ≤ m := hm
    have hne : m ≠ p.nextMail := by omega
    obtain ⟨hnil, hst⟩ := h.new m (by omega)
    exact ⟨by simpa [hatt, hne] using hnil, by simpa [hne] using hst⟩
  · obtain ⟨m, hm, hs⟩ := h.safe r hr
    refine ⟨m, hold m hm, hs.imp (fun hno => ?_) id⟩
    have hne : m ≠ p.nextMail := by
      rintro rfl
      rw [hnone] at hm
      cases hm
    simpa [hne] using hno
  · have hne : m ≠ p.nextMail := (h.listed _ m hm).ne
    simpa [hne] using (h.saved hp).2 m hm
  · have hne : m ≠ p.nextMail := (h.listed l m hm).ne
    simpa [hne] using hno

/-- Flags are set in mysql. -/
theorem Paid.flags (h : p.Paid) {f : Nat → Bool} (hf : ∀ r, p.isClaimed r = true → f r = true) :
    ({ p with isClaimed := f } : Post).Paid :=
  { h with
    safe := fun r hr => by
      obtain ⟨m, hm, hs⟩ := h.safe r hr
      exact ⟨m, hm, hs.imp id (Or.imp (hf r) id)⟩
    saved := fun hp => ⟨fun m o ho a ha hc => hf _ ((h.saved hp).1 m o ho a ha hc),
      (h.saved hp).2⟩
    tasks := fun t k hk => ⟨(h.tasks t k hk).1, fun hagent =>
      ((h.tasks t k hk).2 hagent).transfer le_rfl (fun _ => List.Subset.refl _) (fun _ _ => rfl)
        le_rfl le_rfl (fun _ _ => List.prefix_refl _) (fun _ _ _ => id) id
        fun hp => ⟨hp, rfl, rfl, hf⟩⟩ }

/-- A mail is deleted in mysql. -/
theorem Paid.unstore (h : p.Paid) (mid : Nat) :
    ({ p with stored := p.stored.erase mid } : Post).Paid :=
  have hgone : ∀ m, m ∉ p.stored → m ∉ p.stored.erase mid := fun m hm hin =>
    hm (Finset.mem_of_mem_erase hin)
  { h with
    new := fun m hm => ⟨(h.new m hm).1, hgone m (h.new m hm).2⟩
    safe := fun r hr => by
      obtain ⟨m, hm, hs⟩ := h.safe r hr
      exact ⟨m, hm, hs.imp (hgone m) id⟩
    saved := fun hp => ⟨(h.saved hp).1, fun m hm => hgone m ((h.saved hp).2 m hm)⟩
    tasks := fun t k hk => ⟨(h.tasks t k hk).1, fun hagent =>
      ((h.tasks t k hk).2 hagent).transfer le_rfl (fun _ => List.Subset.refl _) (fun _ _ => rfl)
        le_rfl le_rfl (fun _ _ => List.prefix_refl _) (fun _ m _ => hgone m) id
        fun hp => ⟨hp, rfl, rfl, fun _ => id⟩⟩ }

/-- Mysql executes a query; a flag 0 is not written over a flag 1. -/
theorem Paid.execute (h : p.Paid) {query : Query}
    (hzero : ∀ id, query = .updateClaimed id false → p.isClaimed id = false) :
    (p.execute query).Paid ∧ ∀ r, p.isClaimed r = true → (p.execute query).isClaimed r = true := by
  cases query with
  | updateClaimed id b =>
      have hmono : ∀ r, p.isClaimed r = true → Function.update p.isClaimed id b r = true := by
        intro r hr
        by_cases hrid : r = id
        · subst hrid
          cases b with
          | true => simp
          | false =>
              rw [hzero r rfl] at hr
              cases hr
        · simpa [hrid] using hr
      exact ⟨h.flags hmono, hmono⟩
  | delete mid => exact ⟨h.unstore mid, fun _ => id⟩
  | mails | mail mid | attachments mid | updateRead mid => exact ⟨h, fun _ => id⟩

/-- The answer of mysql, for a coroutine of the agent. -/
theorem TaskOk.answered (h : p.Paid) {k : MailTask} (hk : p.TaskOk k)
    (hzero : ∀ id, k.query = .updateClaimed id false → p.isClaimed id = false) (mids : List Nat) :
    (p.execute k.query).TaskOk { k with reply := some (p.reply mids k.query) } := by
  have hmono := (h.execute hzero).2
  have hfix : (p.execute k.query).nextMail = p.nextMail ∧
      (p.execute k.query).attachments = p.attachments ∧
      (p.execute k.query).object = p.object ∧ (p.execute k.query).mails = p.mails ∧
      (p.execute k.query).nextObject = p.nextObject ∧ (p.execute k.query).list = p.list ∧
      (p.execute k.query).nextList = p.nextList ∧ (p.execute k.query).phase = p.phase := by
    cases k.query <;> exact ⟨rfl, rfl, rfl, rfl, rfl, rfl, rfl, rfl⟩
  obtain ⟨hmail, hatt, hobject, hmails, hnext, hlist, hlists, hphase⟩ := hfix
  have hdone : ∀ id, k.query = .updateClaimed id true →
      (p.execute k.query).isClaimed id = true := by
    intro id hq
    simp [hq, Post.execute]
  have hgone : ∀ m, m ∉ p.stored → m ∉ (p.execute k.query).stored := by
    intro m hm
    cases hq : k.query with
    | delete mid => exact fun hin => hm (Finset.mem_of_mem_erase hin)
    | _ => exact hm
  refine {
    mails := fun ms hr m hm => ?_
    attachments := fun mid as hq hr => ?_
    init := fun o hc => ?_
    batch := fun mid hc => hmail ▸ hk.batch mid hc
    load := hk.load
    deletes := fun kick l i hc => ?_
    quiet := hphase ▸ hk.quiet
    kicks := fun hc => ?_ }
  · rw [hmail]
    have hr : p.reply mids k.query = .mails ms := Option.some.inj hr
    cases hq : k.query with
    | mails =>
        rw [hq] at hr
        obtain rfl := Reply.mails.inj hr
        by_contra hlt
        exact (h.new m (not_lt.mp hlt)).2 (by simpa using (List.mem_filter.mp hm).2)
    | _ =>
        rw [hq] at hr
        cases hr
  · have hq : k.query = .attachments mid := hq
    have hr : p.reply mids k.query = .attachments as := Option.some.inj hr
    rw [hq] at hr
    have has := Reply.attachments.inj hr
    rw [hatt]
    split at has
    · subst has
      refine ⟨?_, fun a ha => ?_⟩
      · have hids : ((p.attachments mid).map fun r => (⟨r, p.isClaimed r⟩ : AttachItem)).map
            (·.id) = p.attachments mid := by
          rw [List.map_map]
          exact List.map_id _
        rw [hids]
        exact h.rows mid
      · obtain ⟨r, hr, rfl⟩ := List.mem_map.mp ha
        exact hr
    · subst has
      exact ⟨List.nodup_nil, fun a ha => (by cases ha)⟩
  · rw [hobject, hnext]
    exact hk.init o hc
  · obtain ⟨hl, hi, hrest⟩ := hk.deletes kick l i hc
    rw [hlist, hlists]
    refine ⟨hl, hi, fun j hj m hm => .inl ?_⟩
    rcases hrest j hj m hm with hno | ⟨-, hq⟩
    · exact hgone m hno
    · rw [hq]
      exact Finset.notMem_erase m p.stored
  · rw [hphase]
    obtain ⟨hp, hs⟩ := hk.kicks hc
    refine ⟨hp, ?_⟩
    have hsaved : ∀ o, p.SavedObject o → (p.execute k.query).SavedObject o := by
      intro o ho a ha hclaimed
      rw [hobject] at ha
      exact hmono _ (ho a ha hclaimed)
    unfold KickSaved at hs ⊢
    split
    · rename_i kick visited o i hcont
      have hcont : k.cont = .saveMails kick visited o i := hcont
      simp only [hcont] at hs
      refine ⟨fun m hm o' ho' hne => hsaved o' (hs.1 m hm o' (hmails ▸ ho') hne),
        fun j hj a ha hclaimed => .inl ?_⟩
      rw [hobject] at ha
      rcases hs.2 j hj a ha hclaimed with hyes | ⟨-, hq⟩
      · exact hmono _ hyes
      · exact hdone _ hq
    · rename_i kick l i hcont
      have hcont : k.cont = .saveDeleted kick l i := hcont
      simp only [hcont] at hs
      exact fun m o ho => hsaved o (hs m o (hmails ▸ ho))
    · trivial

end Changes

end Post

end BallServer.Agent
