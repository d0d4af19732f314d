import BallServer.Agent.MailCopies

/-!
# Attachments are granted once

In a careful run no attachment is granted twice: a kick writes all flags before the next
login reads them, and the coroutines that load keep to what memory and mysql have.

Main results:

- Theorem {lit}`Paid.saveAttachments`: a kick has saved what it has gone through.
- Theorem {lit}`granted_once`: no attachment is granted twice.
- Theorem {lit}`granted_twice`: the object of a {lit}`new_mail` that comes after the mail was
  loaded and claimed brings the attachment back.
-/

namespace BallServer.Agent

namespace Post

section Changes

variable {p : Post}

/-! ## Saving -/

/-- {lit}`leave_mail` goes on in a table of deleted mails; at its end the table is empty. -/
theorem Paid.deleteNext (h : p.Paid) (t : Nat) {kick : Bool} {l i : Nat} (hl : l < p.nextList)
    (hi : i ≤ (p.list l).length)
    (hgone : ∀ j < i, ∀ m, (p.list l)[j]? = some m → m ∉ p.stored)
    (hkick : kick = true → (p.phase = .kicked ∨ p.phase = .saving) ∧ p.AllSaved)
    (hend : (p.list l)[i]? = none → p.deletedMailsId = l ∨ p.list p.deletedMailsId = []) :
    (p.deleteNext t kick l i).Paid := by
  unfold Post.deleteNext
  cases hm : (p.list l)[i]? with
  | some mid =>
      refine h.setTask t le_rfl fun _ => {
        mails := nofun
        attachments := nofun
        init := nofun
        batch := fun _ hc => (by rcases hc with hc | hc <;> cases hc)
        load := nofun
        deletes := fun kick' l' i' hc => ?_
        quiet := .inr trivial
        kicks := fun hc => ?_ }
      · obtain ⟨-, rfl, rfl⟩ := Cont.saveDeleted.inj hc
        have hlt : i < (p.list l).length := (List.getElem?_eq_some_iff.mp hm).1
        refine ⟨hl, hlt, fun j hj m hjm => ?_⟩
        rcases Nat.lt_succ_iff_lt_or_eq.mp hj with hj | rfl
        · exact .inl (hgone j hj m hjm)
        · obtain rfl := Option.some.inj (hm.symm.trans hjm)
          exact .inr ⟨rfl, rfl⟩
      · exact hkick hc
  | none =>
      have hf := h.finish t
      -- every mail of the table has been deleted in mysql
      have hempty : ∀ m ∈ p.list p.deletedMailsId, m ∉ p.stored := by
        intro m hmem
        rcases hend hm with heq | hnil
        · rw [heq] at hmem
          obtain ⟨j, hj, hjm⟩ := List.mem_iff_getElem.mp hmem
          have hji : j < i := by
            have := List.getElem?_eq_none_iff.mp hm
            omega
          exact hgone j hji m (by rw [List.getElem?_eq_getElem hj, hjm])
        · rw [hnil] at hmem
          cases hmem
      have hother : ∀ l' < p.nextList, p.list l' <+: Function.update p.list p.nextList [] l' := by
        intro l' hl'
        rw [Function.update_of_ne hl'.ne]
      have hphase : p.phase = .normal ∨ p.phase = .waiting →
          (if kick then KickPhase.kicked else p.phase) = .normal ∨
            (if kick then KickPhase.kicked else p.phase) = .waiting := by
        intro hp
        cases kick with
        | false => exact hp
        | true => rcases (hkick rfl).1 with hp' | hp' <;> simp [hp'] at hp
      refine { hf with
        listed := fun l' m hmem => ?_
        current := Nat.lt_succ_self _
        safe := fun r hr => ?_
        saved := fun hp => ⟨?_, fun m hmem => ?_⟩
        tasks := fun t' k hk => ⟨(hf.tasks t' k hk).1, fun hagent =>
          ((hf.tasks t' k hk).2 hagent).transfer le_rfl (fun _ => List.Subset.refl _)
            (fun _ _ => rfl) le_rfl (Nat.le_succ _) hother (fun _ _ _ => id) hphase
            fun hp => ⟨?_, rfl, rfl, fun _ => id⟩⟩ }
      · change m ∈ Function.update p.list p.nextList [] l' at hmem
        by_cases hl' : l' = p.nextList
        · subst hl'
          rw [Function.update_self] at hmem
          cases hmem
        · rw [Function.update_of_ne hl'] at hmem
          exact h.listed l' m hmem
      · obtain ⟨m, hmr, hs⟩ := h.safe r hr
        refine ⟨m, hmr, ?_⟩
        rcases hs with hs | hs | hs | hs
        · exact .inl hs
        · exact .inr (.inl hs)
        · exact .inr (.inr (.inl hs))
        · exact .inl (hempty m hs)
      · cases kick with
        | true => exact (hkick rfl).2
        | false => exact (h.saved hp).1
      · change m ∈ Function.update p.list p.nextList [] p.nextList at hmem
        rw [Function.update_self] at hmem
        cases hmem
      · cases kick with
        | true => exact .inl rfl
        | false => exact hp

/-- {lit}`leave_mail` goes on to a mail. -/
theorem Paid.saveNext (h : p.Paid) (t : Nat) {kick : Bool} {visited : List Nat}
    {next : Option Nat} {p' : Post}
    (hkick : kick = true → (p.phase = .kicked ∨ p.phase = .saving) ∧
      ∀ mid ∈ visited, ∀ o, p.mails.get mid = some o → p.SavedObject o)
    (hs : p.saveNext t kick visited next = some p') : p'.Paid := by
  unfold Post.saveNext at hs
  split at hs
  · split at hs
    · cases hs
    · rename_i hall
      obtain rfl := Option.some.inj hs
      refine h.deleteNext t h.current (Nat.zero_le _) nofun (fun hk => ?_) fun _ => .inl rfl
      obtain ⟨hphase, hvisited⟩ := hkick hk
      refine ⟨hphase, fun mid o ho => hvisited mid ?_ o ho⟩
      have hkeys : p.mails.keys ⊆ visited.toFinset := by
        by_contra hno
        exact hall ⟨hk, hno⟩
      simpa using hkeys (Table.mem_keys_iff.mpr ⟨o, ho⟩)
  · rename_i mid
    split at hs
    · cases hs
    · rename_i o ho
      split at hs
      · cases hs
      · obtain rfl := Option.some.inj hs
        refine h.setTask t le_rfl fun _ => {
          mails := nofun
          attachments := nofun
          init := nofun
          batch := fun _ hc => (by rcases hc with hc | hc <;> cases hc)
          load := nofun
          deletes := nofun
          quiet := .inr trivial
          kicks := fun hc => ?_ }
        obtain ⟨hphase, hvisited⟩ := hkick hc
        refine ⟨hphase, fun m hm o' ho' hne => ?_, nofun⟩
        rcases List.mem_cons.mp hm with rfl | hm
        · exact absurd (Option.some.inj (ho'.symm.trans ho)) hne
        · exact hvisited m hm o' ho'

/-- {lit}`leave_mail` goes on in the attachments of a mail. -/
theorem Paid.saveAttachments (h : p.Paid) (t : Nat) {kick : Bool} {visited : List Nat} {o i : Nat}
    {next : Option Nat} {p' : Post}
    (hkick : kick = true → (p.phase = .kicked ∨ p.phase = .saving) ∧
      (∀ mid ∈ visited, ∀ o', p.mails.get mid = some o' → o' ≠ o → p.SavedObject o') ∧
        ∀ j < i, ∀ a, (p.object o).attachments[j]? = some a → a.isClaimed = true →
          p.isClaimed a.id = true)
    (hs : p.saveAttachments t kick visited o i next = some p') : p'.Paid := by
  unfold Post.saveAttachments at hs
  cases ha : (p.object o).attachments[i]? with
  | some a =>
      rw [ha] at hs
      obtain rfl := Option.some.inj hs
      refine h.setTask t le_rfl fun _ => {
        mails := nofun
        attachments := nofun
        init := nofun
        batch := fun _ hc => (by rcases hc with hc | hc <;> cases hc)
        load := nofun
        deletes := nofun
        quiet := .inr trivial
        kicks := fun hc => ?_ }
      obtain ⟨hphase, hvisited, hbefore⟩ := hkick hc
      refine ⟨hphase, hvisited, fun j hj b hb hclaimed => ?_⟩
      rcases Nat.lt_succ_iff_lt_or_eq.mp hj with hj | rfl
      · exact .inl (hbefore j hj b hb hclaimed)
      · obtain rfl := Option.some.inj (ha.symm.trans hb)
        exact .inr ⟨rfl, by rw [hclaimed]⟩
  | none =>
      rw [ha] at hs
      refine h.saveNext t (fun hk => ?_) hs
      obtain ⟨hphase, hvisited, hbefore⟩ := hkick hk
      have hsaved : p.SavedObject o := by
        intro a hmem hclaimed
        obtain ⟨j, hj, hja⟩ := List.mem_iff_getElem.mp hmem
        have hji : j < i := by
          have := List.getElem?_eq_none_iff.mp ha
          omega
        exact hbefore j hji a (by rw [List.getElem?_eq_getElem hj, hja]) hclaimed
      refine ⟨hphase, fun mid hm o' ho' => ?_⟩
      by_cases heq : o' = o
      · exact heq ▸ hsaved
      · exact hvisited mid hm o' ho' heq

/-! ## Loading -/

theorem Paid.initNext (h : p.Paid) (hphase : p.phase = .normal ∨ p.phase = .waiting) (t : Nat)
    {next : Option Nat} {p' : Post} (hs : p.initNext t next = some p') : p'.Paid := by
  unfold Post.initNext at hs
  split at hs
  · obtain rfl := Option.some.inj hs
    exact h.finish t
  · split at hs
    · cases hs
    · rename_i o ho
      obtain rfl := Option.some.inj hs
      obtain ⟨hm, hlt, -⟩ := h.named _ o ho
      refine h.setTask t le_rfl fun _ => taskOk_load hphase (fun o' hc => ?_)
        (fun _ hc => (by rcases hc with hc | hc <;> cases hc)) nofun id
      obtain rfl := Cont.initAttachments.inj hc
      exact ⟨by rw [hm], hlt⟩

/-- {lit}`mail_init` makes an object for every mail. -/
theorem Paid.addMails (h : p.Paid) (hphase : p.phase = .normal ∨ p.phase = .waiting)
    {mids : List Nat} (hold : ∀ mid ∈ mids, mid < p.nextMail)
    (hr : ∀ mid ∈ mids, p.Replaceable mid []) :
    (mids.foldl (fun p mid => p.install mid []) p).Paid ∧
      (mids.foldl (fun p mid => p.install mid []) p).phase = p.phase := by
  induction mids generalizing p with
  | nil => exact ⟨h, rfl⟩
  | cons mid mids ih =>
      have hfirst : (p.install mid []).Paid :=
        h.install hphase (hold mid List.mem_cons_self) List.nodup_nil (List.forall_mem_nil _)
          ⟨List.forall_mem_nil _, hr mid List.mem_cons_self⟩
      refine ih hfirst hphase (fun m hm => hold m (List.mem_cons_of_mem _ hm)) fun m hm o ho b hb hc => ?_
      simp only [Post.install, Table.get_set] at ho hb
      split at ho
      · obtain rfl := Option.some.inj ho
        simp at hb
      · have hne : o ≠ p.nextObject := (h.named m o ho).2.1.ne
        rw [Function.update_of_ne hne] at hb
        exact (hr m (List.mem_cons_of_mem _ hm) o ho b hb hc).imp id fun ha => by simp at ha

/-- A coroutine of the agent goes on with its answer. -/
theorem Paid.resume (h : p.Paid) (t : Nat) {k : MailTask} (hk : p.TaskOk k) {r : Reply}
    (hreply : k.reply = some r) (hcare : p.CarefulReply k.cont r) {next : Option Nat} {p' : Post}
    (hs : p.resume t next k.cont r = some p') : p'.Paid := by
  have hload : ¬ k.cont.IsSave → p.phase = .normal ∨ p.phase = .waiting := fun hno =>
    hk.quiet.resolve_right hno
  cases hcont : k.cont with
  | initRows =>
      rw [hcont] at hs hcare hload
      cases r with
      | mails mids =>
          obtain ⟨hadd, hphase⟩ := h.addMails (hload id) (hk.mails mids hreply) hcare
          exact hadd.initNext (hphase ▸ hload id) t hs
      | _ => cases hs
  | initAttachments o =>
      rw [hcont] at hs hcare hload
      cases r with
      | attachments as =>
          obtain ⟨hquery, -⟩ := hk.init o hcont
          obtain ⟨hids, hof⟩ := hk.attachments _ as hquery hreply
          exact (h.append (hload id) hids hof hcare).initNext (hload id) t hs
      | _ => cases hs
  | batchMail mid =>
      rw [hcont] at hs hload
      cases r with
      | found b =>
          cases b with
          | false =>
              obtain rfl := Option.some.inj hs
              exact h.finish t
          | true =>
              obtain rfl := Option.some.inj hs
              refine h.setTask t le_rfl fun _ => taskOk_load (hload id) nofun (fun m hm => ?_)
                (fun m hm => ?_) id
              · rcases hm with hm | hm
                · cases hm
                · exact Cont.batchAttachments.inj hm ▸ hk.batch mid (.inl hcont)
              · rw [Cont.batchAttachments.inj hm]
      | _ => cases hs
  | batchAttachments mid =>
      rw [hcont] at hs hcare hload
      cases r with
      | attachments as =>
          obtain rfl := Option.some.inj hs
          obtain ⟨hids, hof⟩ := hk.attachments mid as (hk.load mid hcont) hreply
          exact (h.install (hload id) (hk.batch mid (.inr hcont)) hids hof hcare).finish t
      | _ => cases hs
  | saveMails kick visited o i =>
      rw [hcont] at hs
      cases r with
      | done =>
          refine h.saveAttachments t (fun hkick => ?_) hs
          have hsome : k.reply ≠ none := by simp [hreply]
          obtain ⟨hp, hsaved⟩ := hk.kicks (by rw [hcont]; exact hkick)
          simp only [KickSaved, hcont] at hsaved
          exact ⟨hp, hsaved.1, fun j hj a ha hclaimed =>
            (hsaved.2 j hj a ha hclaimed).resolve_right fun hno => hsome hno.1⟩
      | _ => cases hs
  | saveDeleted kick l i =>
      rw [hcont] at hs hcare
      cases r with
      | done =>
          obtain rfl := Option.some.inj hs
          obtain ⟨hl, hi, hgone⟩ := hk.deletes kick l i hcont
          have hsome : k.reply ≠ none := by simp [hreply]
          refine h.deleteNext t hl hi (fun j hj m hm =>
            (hgone j hj m hm).resolve_right fun hno => hsome hno.1) (fun hkick => ?_) hcare
          obtain ⟨hp, hsaved⟩ := hk.kicks (by rw [hcont]; exact hkick)
          simp only [KickSaved, hcont] at hsaved
          exact ⟨hp, hsaved⟩
      | _ => cases hs

/-- The next agent starts without mails; what was claimed is in mysql. -/
theorem Paid.login (h : p.Paid) (hphase : p.phase = .kicked) :
    ({ p with
      agent := p.agent + 1
      phase := .normal
      mails := .empty
      deletedMailsId := p.nextList
      list := Function.update p.list p.nextList []
      nextList := p.nextList + 1 } : Post).Paid := by
  obtain ⟨hall, hgone⟩ := h.saved hphase
  refine { h with
    named := fun mid o ho => (by cases ho)
    listed := fun l m hm => ?_
    current := Nat.lt_succ_self _
    free := fun mid o ho => (by cases ho)
    single := fun mid o ho => (by cases ho)
    safe := fun r hr => ?_
    saved := fun hp => (by cases hp)
    tasks := fun t k hk => ?_ }
  · change m ∈ Function.update p.list p.nextList [] l at hm
    by_cases hl : l = p.nextList
    · subst hl
      rw [Function.update_self] at hm
      cases hm
    · rw [Function.update_of_ne hl] at hm
      exact h.listed l m hm
  · obtain ⟨m, hm, hs⟩ := h.safe r hr
    refine ⟨m, hm, ?_⟩
    rcases hs with hs | hs | ⟨o, ho, a, ha, rfl, hc⟩ | hs
    · exact .inl hs
    · exact .inr (.inl hs)
    · exact .inr (.inl (hall m o ho a ha hc))
    · exact .inl (hgone m hs)
  · have hle := (h.tasks t k hk).1
    refine ⟨Nat.le_succ_of_le hle, fun hagent => ?_⟩
    have hagent : k.agent = p.agent + 1 := hagent
    omega

/-- The kick goes on to the next phase, before its save has ended. -/
theorem Paid.setPhase (h : p.Paid) {phase : KickPhase} (hnot : phase ≠ .kicked)
    (hquiet : phase = .normal ∨ phase = .waiting ∨ ∀ t k, p.tasks.get t = some k →
      k.agent = p.agent → k.cont.IsSave)
    (hno : ¬ (p.phase = .kicked ∨ p.phase = .saving)) : ({ p with phase := phase } : Post).Paid :=
  { h with
    saved := fun hp => absurd hp hnot
    tasks := fun t k hk => ⟨(h.tasks t k hk).1, fun hagent =>
      have hok := (h.tasks t k hk).2 hagent
      { hok with
        quiet := by
          rcases hquiet with hp | hp | hsave
          · exact .inl (.inl hp)
          · exact .inl (.inr hp)
          · exact .inr (hsave t k hk hagent)
        kicks := fun hc => absurd (hok.kicks hc).1 hno }⟩ }

theorem step_paid {p' : Post} {e : PostEvent} (h : p.Paid) (he : p.Careful e)
    (hs : p.step e = some p') : p'.Paid := by
  cases e with
  | store n =>
      obtain rfl := Option.some.inj hs
      exact h.store n
  | newMail mid =>
      simp only [step] at hs
      split at hs
      · rename_i hok
        obtain rfl := Option.some.inj hs
        refine h.install (.inl hok.1) hok.2 ?_ (fun a ha => ?_) he
        · rw [List.map_map]
          exact (List.map_id (p.attachments mid)).symm ▸ h.rows mid
        · obtain ⟨r, hr, rfl⟩ := List.mem_map.mp ha
          exact hr
      · cases hs
  | newBatch mid =>
      simp only [step] at hs
      split at hs
      · rename_i hok
        obtain rfl := Option.some.inj hs
        have hbatch : p.TaskOk ⟨p.agent, .mail mid, none, .batchMail mid⟩ :=
          taskOk_load (.inl hok.1) nofun (fun m hm => by
            rcases hm with hm | hm
            · exact Cont.batchMail.inj hm ▸ hok.2
            · cases hm) nofun id
        exact (h.setTask p.nextTask le_rfl fun _ => hbatch).nextTask _
      · cases hs
  | mailInit =>
      simp only [step] at hs
      split at hs
      · rename_i hok
        obtain rfl := Option.some.inj hs
        have hinit : p.TaskOk ⟨p.agent, .mails, none, .initRows⟩ :=
          taskOk_load (.inl hok) nofun (fun m hm => (by rcases hm with hm | hm <;> cases hm))
            nofun id
        exact (h.setTask p.nextTask le_rfl fun _ => hinit).nextTask _
      · cases hs
  | mailClaim mid expired addItem =>
      simp only [step] at hs
      split at hs
      · rename_i o hphase ho
        split at hs
        · obtain rfl := Option.some.inj hs
          exact h
        · rename_i as granted hclaim
          obtain ⟨rfl, rfl⟩ := claimAttachments_eq hclaim
          obtain rfl := Option.some.inj hs
          exact h.claim hphase ho
      · cases hs
  | mailDelete mid =>
      simp only [step] at hs
      split at hs
      · rename_i o hphase ho
        split at hs
        · obtain rfl := Option.some.inj hs
          exact h.mailDelete hphase ho
        · obtain rfl := Option.some.inj hs
          exact h
      · cases hs
  | save next =>
      have hs : ({ p with nextTask := p.nextTask + 1 } : Post).saveNext p.nextTask false [] next =
          some p' := hs
      exact (h.nextTask (p.nextTask + 1)).saveNext _ (fun hk => (by cases hk)) hs
  | execute t mids =>
      simp only [step] at hs
      split at hs
      · rename_i agent query cont hk
        obtain rfl := Option.some.inj hs
        obtain ⟨hle, hok⟩ := h.tasks t _ hk
        have hzero : ∀ id, query = .updateClaimed id false → p.isClaimed id = false :=
          fun id hq => he _ id hk hq
        have hsame : (p.execute query).agent = p.agent ∧ (p.execute query).tasks = p.tasks := by
          cases query <;> exact ⟨rfl, rfl⟩
        rw [← hsame.2]
        exact (h.execute hzero).1.setTask t (hsame.1 ▸ hle) fun hagent =>
          (hok (hagent.trans hsame.1)).answered h hzero mids
      · cases hs
  | answer t next =>
      simp only [step] at hs
      split at hs
      · rename_i agent query reply cont hk
        split at hs
        · rename_i hagent
          exact h.resume t ((h.tasks t _ hk).2 hagent) rfl (he _ _ hk hagent rfl) hs
        · obtain rfl := Option.some.inj hs
          exact h.finish t
      · cases hs
  | kick =>
      simp only [step] at hs
      split at hs
      · rename_i hphase
        obtain rfl := Option.some.inj hs
        exact h.setPhase nofun (.inr (.inl rfl)) (by simp [hphase])
      · cases hs
  | idle =>
      simp only [step] at hs
      split at hs
      · rename_i hok
        obtain rfl := Option.some.inj hs
        refine h.setPhase nofun (.inr (.inr fun t k hk hagent => ?_)) (by simp [hok.1])
        exact absurd hagent (hok.2 t (Table.mem_keys_iff.mpr ⟨k, hk⟩) k hk)
      · cases hs
  | kickSave next =>
      simp only [step] at hs
      split at hs
      · rename_i hphase
        have hsaving : ({ p with nextTask := p.nextTask + 1, phase := .saving } : Post).Paid :=
          (h.setPhase (fun hp : KickPhase.saving = _ => nomatch hp) (.inr (.inr fun t k hk hagent =>
            ((h.tasks t k hk).2 hagent).quiet.resolve_left (by simp [hphase])))
            (by simp [hphase])).nextTask _
        exact hsaving.saveNext _ (fun _ => ⟨.inr rfl, fun _ hm => (by cases hm)⟩) hs
      · cases hs
  | login =>
      simp only [step] at hs
      split at hs
      · rename_i hphase
        obtain rfl := Option.some.inj hs
        exact h.login hphase
      · cases hs

end Changes

theorem start_paid : start.Paid := by
  constructor <;> simp [start]

theorem reach_paid {p : Post} (hr : Reach Careful p) : p.Paid := by
  induction hr with
  | start => exact start_paid
  | step _ he hs ih => exact step_paid ih he hs

/-- In a careful run no attachment is granted twice, and the agent has none as unclaimed that
was granted. -/
theorem granted_once (p : Post) (hr : Reach Careful p) :
    p.granted.Nodup ∧ ∀ mid o, p.mails.get mid = some o → ∀ a ∈ (p.object o).attachments,
      a.id ∈ p.granted → a.isClaimed = true := by
  have h := reach_paid hr
  refine ⟨h.once, fun mid o ho a ha hg => ?_⟩
  by_contra hc
  exact h.free mid o ho a ha (Bool.eq_false_iff.mpr hc) hg

theorem careful_answer {p : Post} {t : Nat} {next : Option Nat} {k : MailTask} {r : Reply}
    (hk : p.tasks.get t = some k) (hr : k.reply = some r) (hc : p.CarefulReply k.cont r) :
    p.Careful (.answer t next) := by
  intro k' r' hk' _ hr'
  obtain rfl := Option.some.inj (hk.symm.trans hk')
  obtain rfl := Option.some.inj (hr.symm.trans hr')
  exact hc

theorem careful_execute {p : Post} {t : Nat} {mids : List Nat} {k : MailTask}
    (hk : p.tasks.get t = some k) (hq : ∀ id, k.query ≠ .updateClaimed id false) :
    p.Careful (.execute t mids) := by
  intro k' id hk' hq'
  obtain rfl := Option.some.inj (hk.symm.trans hk')
  exact absurd hq' (hq id)

/-- A mail is loaded when the player logs in, claimed, and the player is kicked and logs in
again. -/
theorem granted_once_again : ∃ p, Reach Careful p ∧ p.agent = 1 ∧ p.granted = [0] ∧
    p.granted.Nodup := by
  have h₁ : Reach Careful _ := .step (e := .store 1) .start trivial rfl
  have h₂ := h₁.step (e := .mailInit) trivial rfl
  have h₃ := h₂.step (e := .execute 0 [0]) (careful_execute rfl fun _ => nofun) rfl
  have h₄ := h₃.step (e := .answer 0 (some 0))
    (careful_answer rfl rfl fun _ _ _ ho => (by cases ho)) rfl
  have h₅ := h₄.step (e := .execute 0 []) (careful_execute rfl fun _ => nofun) rfl
  have h₆ := h₅.step (e := .answer 0 none) (careful_answer rfl rfl fun _ a ha _ => by
    obtain rfl := List.mem_singleton.mp ha
    refine ⟨⟨by decide, rfl, nofun, fun o ho b hb => ?_⟩, nofun⟩
    obtain rfl := Option.some.inj ho
    cases hb) rfl
  have h₇ := h₆.step (e := .mailClaim 0 false fun _ => true) trivial rfl
  have h₈ := h₇.step (e := .kick) trivial rfl
  have h₉ := h₈.step (e := .idle) trivial rfl
  have h₁₀ := h₉.step (e := .kickSave (some 0)) trivial rfl
  have h₁₁ := h₁₀.step (e := .execute 1 []) (careful_execute rfl fun _ => nofun) rfl
  have h₁₂ := h₁₁.step (e := .answer 1 none) (careful_answer rfl rfl trivial) rfl
  have h₁₃ := h₁₂.step (e := .execute 1 []) (careful_execute rfl fun _ => nofun) rfl
  have h₁₄ := h₁₃.step (e := .answer 1 none) (careful_answer rfl rfl trivial) rfl
  have h₁₅ := h₁₄.step (e := .login) trivial rfl
  have h₁₆ := h₁₅.step (e := .mailInit) trivial rfl
  exact ⟨_, h₁₆, rfl, rfl, (granted_once _ h₁₆).1⟩

/-- A mail is sent while the player logs in: {lit}`mail_init` has loaded it, the client claims
it, and then the object comes with {lit}`new_mail`. -/
theorem granted_twice :
    ∃ p, start.run [.store 1, .mailInit, .execute 0 [0], .answer 0 (some 0), .execute 0 [],
        .answer 0 none, .mailClaim 0 false (fun _ => true), .newMail 0,
        .mailClaim 0 false (fun _ => true)] = some p ∧ ¬ p.granted.Nodup := by
  refine ⟨_, rfl, ?_⟩
  decide

end Post

end BallServer.Agent
