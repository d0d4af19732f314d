import BallServer.Scene.Views

/-!
# Acknowledged inputs

A client numbers its inputs and drops its prediction of an input when a frame acknowledges
the number.  The scene accepts an input with a larger number than the last one, keeps its
split and spit until the next frame and reports the last number at the end of the frame.

A history follows a run and writes down, for every table of a player, the inputs that were
accepted and the commands that {lit}`process_commands` has passed on.

Main results:

- Theorem {lit}`History.step_scene`: a history runs as the scene does.
- Theorem {lit}`inputs_acked`: what has been executed when a number is acknowledged.
-/

namespace BallServer.Ball

/-- What a split or spit is asked for, without the directions of the cells. -/
structure Command (K : Type) where
  kind : ActionKind
  targetX : K
  targetY : K
  seq : Int
  moving : Bool

/-- The command of a pending action. -/
def Action.command {K : Type} (a : Action K) : Command K :=
  ⟨a.kind, a.targetX, a.targetY, a.seq, a.moving⟩

namespace Scene

variable {K : Type} [Field K] [LinearOrder K]

/-- The commands of an input: a split before a spit. -/
def Input.commands (m : Input K) : List (Command K) :=
  (if m.split then [⟨.split, m.targetX, m.targetY, m.inputSeq, m.moving⟩] else []) ++
    (if m.spit then [⟨.spit, m.targetX, m.targetY, m.inputSeq, m.moving⟩] else [])

/-- The table of the player whose input {lit}`input_frame` accepts. -/
def accepts (s : Scene K) (p : Nat) (m : Input K) : Option Nat :=
  match s.players.get p with
  | none => none
  | some r => if m.inputSeq ≤ (s.tables r).lastInputSeq then none else some r

/-- The number {lit}`broadcast_frame_update` sends to a player. -/
def ack (s : Scene K) (p : Nat) : Option Int :=
  (s.players.get p).map fun r => (s.tables r).lastInputSeq

/-! ## Commands that are passed on -/

/-- A command is written down for the table of its player. -/
def record (log : Nat → List (Command K)) (r : Nat) (c : Command K) : Nat → List (Command K) :=
  Function.update log r (log r ++ [c])

omit [Field K] [LinearOrder K] in
theorem record_apply (log : Nat → List (Command K)) (r : Nat) (c : Command K) (t : Nat) :
    record log r c t = if t = r then log t ++ [c] else log t := by
  unfold record
  by_cases h : t = r
  · subst h
    simp
  · simp [h]

section Logged

variable [FloorRing K] [Sqrt K]

/-- {lit}`process_commands` for one action, written down. -/
def runActionLogged (o : Order) (r : Nat) (sl : Scene K × (Nat → List (Command K)))
    (a : Action K × Nat) : Scene K × (Nat → List (Command K)) :=
  (runAction o r sl.1 a, record sl.2 r a.1.command)

/-- {lit}`process_commands` for one player, written down. -/
def runActionsLogged (o : Order) (sl : Scene K × (Nat → List (Command K))) (r : Nat) :
    Scene K × (Nat → List (Command K)) :=
  let sl := (sl.1.tables r).pendingActions.zipIdx.foldl (runActionLogged o r) sl
  (sl.1.setTable r { sl.1.tables r with pendingActions := [] }, sl.2)

/-- {lit}`process_commands`, written down. -/
def processCommandsLogged (o : Order) (sl : Scene K × (Nat → List (Command K))) :
    Scene K × (Nat → List (Command K)) :=
  (sl.1.sortedPlayers o .commands).foldl (runActionsLogged o) sl

variable {s : Scene K} {log : Nat → List (Command K)}

omit [FloorRing K] in
theorem foldl_runActionLogged (o : Order) (r : Nat) (l : List (Action K × Nat)) (s : Scene K)
    (log : Nat → List (Command K)) :
    (l.foldl (runActionLogged o r) (s, log)).1 = l.foldl (runAction o r) s ∧
      ∀ t, (l.foldl (runActionLogged o r) (s, log)).2 t =
        log t ++ if t = r then l.map fun a => a.1.command else [] := by
  induction l generalizing s log with
  | nil => exact ⟨rfl, fun t => by simp⟩
  | cons a l ih =>
      obtain ⟨hscene, hlog⟩ := ih (runAction o r s a) (record log r a.1.command)
      refine ⟨hscene, fun t => (hlog t).trans ?_⟩
      rw [record_apply]
      by_cases h : t = r
      · simp [h]
      · simp [h]

omit [FloorRing K] in
/-- One player: its pending actions are passed on in order, and none is left. -/
theorem runActionsLogged_spec (o : Order) (r : Nat) (s : Scene K)
    (log : Nat → List (Command K)) :
    (runActionsLogged o (s, log) r).1 = runActions o s r ∧
      (runActionsLogged o (s, log) r).1.inputs.2 =
        Function.update s.inputs.2 r ((s.tables r).lastInputSeq, []) ∧
      ∀ t, (runActionsLogged o (s, log) r).2 t =
        log t ++ if t = r then (s.tables r).pendingActions.map Action.command else [] := by
  obtain ⟨hscene, hlog⟩ :=
    foldl_runActionLogged o r (s.tables r).pendingActions.zipIdx s log
  refine ⟨?_, ?_, fun t => (hlog t).trans ?_⟩
  · unfold runActionsLogged runActions
    simp only [hscene]
  · have hinputs : ((s.tables r).pendingActions.zipIdx.foldl (runAction o r) s).inputs =
        s.inputs :=
      foldl_view (fun s₂ a => aside_inputs (runAction_aside o r s₂ a)) _ s
    unfold runActionsLogged
    simp only [hscene]
    rw [← hinputs]
    have hseq :
        (((s.tables r).pendingActions.zipIdx.foldl (runAction o r) s).tables r).lastInputSeq =
          (s.tables r).lastInputSeq :=
      congrArg Prod.fst (congrFun (congrArg Prod.snd hinputs) r)
    funext t
    by_cases h : t = r
    · subst h
      simp [inputs, setTable, hseq]
    · simp [inputs, setTable, h]
  · have hmap : (s.tables r).pendingActions.zipIdx.map (fun a => a.1.command) =
        (s.tables r).pendingActions.map Action.command := by
      rw [show (fun a : Action K × Nat => a.1.command) = Action.command ∘ Prod.fst from rfl,
        ← List.map_map, List.zipIdx_map_fst]
    rw [hmap]

omit [FloorRing K] in
/-- The loop over the players: those it has come to have no pending actions, and what they had
was passed on. -/
theorem foldl_runActionsLogged (o : Order) (l : List Nat) (s : Scene K)
    (log : Nat → List (Command K)) :
    (l.foldl (runActionsLogged o) (s, log)).1 = l.foldl (runActions o) s ∧
      (∀ t, (l.foldl (runActionsLogged o) (s, log)).1.inputs.2 t =
        ((s.tables t).lastInputSeq, if t ∈ l then [] else (s.tables t).pendingActions)) ∧
      ∀ t, (l.foldl (runActionsLogged o) (s, log)).2 t =
        log t ++ if t ∈ l then (s.tables t).pendingActions.map Action.command else [] := by
  induction l generalizing s log with
  | nil => exact ⟨rfl, fun t => by simp [inputs], fun t => by simp⟩
  | cons r l ih =>
      obtain ⟨hscene, hinputs, hlog⟩ := runActionsLogged_spec o r s log
      have hrest := ih (runActionsLogged o (s, log) r).1 (runActionsLogged o (s, log) r).2
      simp only [Prod.mk.eta] at hrest
      have htable : ∀ t, ((runActionsLogged o (s, log) r).1.tables t).lastInputSeq =
          (s.tables t).lastInputSeq ∧
          ((runActionsLogged o (s, log) r).1.tables t).pendingActions =
            if t = r then [] else (s.tables t).pendingActions := by
        intro t
        have ht := congrFun hinputs t
        by_cases h : t = r
        · subst h
          simpa [inputs] using ht
        · simpa [inputs, h] using ht
      refine ⟨?_, fun t => (hrest.2.1 t).trans ?_, fun t => (hrest.2.2 t).trans ?_⟩
      · rw [List.foldl_cons, List.foldl_cons, hrest.1, hscene]
      · rw [(htable t).1, (htable t).2]
        by_cases h : t = r <;> by_cases hl : t ∈ l <;> simp [h, hl]
      · rw [hlog, (htable t).2]
        by_cases h : t = r
        · subst h
          by_cases hl : t ∈ l <;> simp [hl]
        · by_cases hl : t ∈ l <;> simp [h, hl]

end Logged

end Scene

/-! ## Histories -/

open Scene

/-- A run of the scene with the inputs that were accepted and the commands that were passed
on, both by the table of the player. -/
structure History (K : Type) [Field K] [LinearOrder K] where
  scene : Scene K
  accepted : Nat → List (Input K)
  executed : Nat → List (Command K)

namespace History

variable {K : Type} [Field K] [LinearOrder K] [FloorRing K] [Sqrt K]

/-- One event. -/
def step (h : History K) (e : Event K) : History K :=
  match e with
  | .frame o d =>
      if h.scene.gameStarted = false then h
      else
        let sl := processCommandsLogged o (beforeCommands o d h.scene, h.executed)
        { h with
          scene := flushPendingEnters o (afterCommands o d sl.1)
          executed := sl.2 }
  | .input o p m =>
      match accepts h.scene p m with
      | none => { h with scene := h.scene.inputFrame o p m }
      | some r =>
          { h with
            scene := h.scene.inputFrame o p m
            accepted := Function.update h.accepted r (h.accepted r ++ [m]) }
  | e => { h with scene := h.scene.step e }

/-- A history when the service starts. -/
def start [IsStrictOrderedRing K] : History K where
  scene := Scene.start
  accepted := fun _ => []
  executed := fun _ => []

/-- A history of a sequence of events. -/
def run [IsStrictOrderedRing K] (es : List (Event K)) : History K :=
  es.foldl step start

variable {h : History K}

omit [FloorRing K] in
theorem processCommandsLogged_fst (o : Order) (s : Scene K) (log : Nat → List (Command K)) :
    (processCommandsLogged o (s, log)).1 = processCommands o s :=
  (foldl_runActionsLogged o _ s log).1

/-- A history runs as the scene does. -/
theorem step_scene (h : History K) (e : Event K) : (h.step e).scene = h.scene.step e := by
  cases e with
  | frame o d =>
      simp only [step, Scene.step]
      by_cases hstarted : h.scene.gameStarted = false
      · rw [if_pos hstarted, update_not_started o d hstarted]
      · rw [if_neg hstarted, update_eq o d (by simpa using hstarted)]
        simp only [processCommandsLogged_fst]
        rfl
  | input o p m =>
      simp only [step, Scene.step]
      split <;> rfl
  | batchAdd infos => rfl
  | kick p => rfl
  | online p b => rfl
  | startGame => rfl

theorem run_scene [IsStrictOrderedRing K] (es : List (Event K)) :
    (run es).scene = Scene.run Scene.start es := by
  unfold run Scene.run
  have hfold : ∀ (l : List (Event K)) (h : History K),
      (l.foldl step h).scene = l.foldl Scene.step h.scene := by
    intro l
    induction l with
    | nil => exact fun _ => rfl
    | cons e l ih => exact fun h => (ih (h.step e)).trans (by rw [List.foldl_cons, step_scene])
  exact hfold es start

/-! ## What was accepted was executed or waits -/

/-- What was accepted has been executed or waits, its numbers increase, and tables that are
not given out yet have neither. -/
structure Faithful (h : History K) : Prop where
  commands : ∀ r, (h.accepted r).flatMap Input.commands =
    h.executed r ++ (h.scene.inputs.2 r).2.map Action.command
  sorted : ∀ r, ((h.accepted r).map (·.inputSeq)).Pairwise (· < ·)
  le_last : ∀ r, ∀ m ∈ h.accepted r, m.inputSeq ≤ (h.scene.inputs.2 r).1
  fresh : ∀ r, h.scene.inputs.1 ≤ r → h.accepted r = []

omit [Sqrt K] in
theorem start_faithful [IsStrictOrderedRing K] : (start : History K).Faithful where
  commands _ := rfl
  sorted _ := List.Pairwise.nil
  le_last _ _ hm := by cases hm
  fresh _ _ := rfl

omit [FloorRing K] [Sqrt K] in
/-- A table that is not given out yet has no commands. -/
theorem Faithful.fresh_executed (hh : h.Faithful) {r : Nat} (hr : h.scene.inputs.1 ≤ r) :
    h.executed r = [] := by
  have hcommands := hh.commands r
  rw [hh.fresh r hr] at hcommands
  exact (List.append_eq_nil_iff.mp hcommands.symm).1

omit [FloorRing K] [Sqrt K] in
/-- An event that leaves the inputs alone. -/
theorem Faithful.of_inputs (hh : h.Faithful) {s : Scene K} (hs : s.inputs = h.scene.inputs) :
    ({ h with scene := s } : History K).Faithful := by
  obtain ⟨hcommands, hsorted, hle, hfresh⟩ := hh
  refine ⟨?_, hsorted, ?_, ?_⟩
  · simpa only [hs] using hcommands
  · simpa only [hs] using hle
  · simpa only [hs] using hfresh

omit [FloorRing K] [Sqrt K] in
/-- A new player gets a new table. -/
theorem Faithful.addPlayer (hh : h.Faithful) (info : Nat × Nat × (Fin 1001 × Fin 1001)) :
    ({ h with scene := h.scene.addPlayer info } : History K).Faithful := by
  have hnew : (h.scene.addPlayer info).inputs =
      (h.scene.nextTable + 1, Function.update h.scene.inputs.2 h.scene.nextTable (0, [])) := by
    refine Prod.ext rfl (funext fun t => ?_)
    by_cases ht : t = h.scene.nextTable
    · subst ht
      simp [inputs, Scene.addPlayer, newCell]
    · simp [inputs, Scene.addPlayer, newCell, ht]
  have hother : ∀ r, r ≠ h.scene.nextTable → Function.update h.scene.inputs.2 h.scene.nextTable
      ((0, []) : Int × List (Action K)) r = h.scene.inputs.2 r := fun r hr =>
    Function.update_of_ne hr ..
  have haccepted := hh.fresh h.scene.nextTable le_rfl
  have hexecuted := hh.fresh_executed (r := h.scene.nextTable) le_rfl
  refine ⟨fun r => ?_, hh.sorted, fun r m hm => ?_, fun r hr => ?_⟩
  · simp only [hnew]
    by_cases hr : r = h.scene.nextTable
    · subst hr
      simp [haccepted, hexecuted]
    · rw [hother r hr]
      exact hh.commands r
  · simp only [hnew]
    by_cases hr : r = h.scene.nextTable
    · subst hr
      rw [haccepted] at hm
      cases hm
    · rw [hother r hr]
      exact hh.le_last r m hm
  · simp only [hnew] at hr
    exact hh.fresh r ((Nat.le_succ _).trans hr)

omit [FloorRing K] in
theorem foldl_turnCell_inputs (m : Input K) (l : List Nat) (s : Scene K) :
    (l.foldl (turnCell m) s).inputs = s.inputs := by
  refine foldl_view (fun s₁ c => ?_) l s
  simp only [turnCell]
  split <;> rfl

omit [FloorRing K] [Sqrt K] in
/-- The actions of an input are its commands. -/
theorem inputActions_map (s : Scene K) (r : Nat) (m : Input K) :
    ((if m.split then [s.inputAction r m .split] else []) ++
      (if m.spit then [s.inputAction r m .spit] else [])).map Action.command = m.commands := by
  unfold Input.commands
  cases m.split <;> cases m.spit <;> rfl

omit [FloorRing K] in
/-- What {lit}`input_frame` does to the inputs of the player that sent it. -/
theorem inputFrame_inputs (o : Order) {s : Scene K} {p r : Nat} {m : Input K}
    (hr : s.players.get p = some r) (hseq : (s.tables r).lastInputSeq < m.inputSeq) :
    ∃ actions, actions.map Action.command = m.commands ∧
      (s.inputFrame o p m).inputs =
        (s.nextTable, Function.update s.inputs.2 r
          (m.inputSeq, (s.tables r).pendingActions ++ actions)) := by
  -- whatever turning the cells does
  have hset : ∀ s₁ : Scene K, s₁.inputs = s.inputs → ∃ actions,
      actions.map Action.command = m.commands ∧
      (s₁.setTable r { s₁.tables r with
        moving := m.moving
        pendingActions := (s₁.tables r).pendingActions ++
          ((if m.split then [s₁.inputAction r m .split] else []) ++
            (if m.spit then [s₁.inputAction r m .spit] else []))
        lastInputSeq := m.inputSeq }).inputs =
        (s.nextTable, Function.update s.inputs.2 r
          (m.inputSeq, (s.tables r).pendingActions ++ actions)) := by
    intro s₁ hs₁
    refine ⟨_, inputActions_map s₁ r m, ?_⟩
    have hnext : s₁.nextTable = s.nextTable := congrArg Prod.fst hs₁
    have htable : ∀ t, ((s₁.tables t).lastInputSeq, (s₁.tables t).pendingActions) =
        ((s.tables t).lastInputSeq, (s.tables t).pendingActions) :=
      fun t => congrFun (congrArg Prod.snd hs₁) t
    refine Prod.ext hnext (funext fun t => ?_)
    by_cases ht : t = r
    · subst ht
      have hactions : (s₁.tables t).pendingActions = (s.tables t).pendingActions :=
        congrArg Prod.snd (htable t)
      simp [inputs, setTable, hactions]
    · simpa [inputs, setTable, ht] using htable t
  unfold inputFrame
  simp only [hr, if_neg (not_le.mpr hseq)]
  split
  · refine hset _ ((foldl_turnCell_inputs m _ _).trans ?_)
    exact setTable_inputs s r rfl rfl
  · exact hset s rfl

section Steps

variable [IsStrictOrderedRing K] [LawfulSqrt K]

omit [IsStrictOrderedRing K] [LawfulSqrt K] in
/-- An input. -/
theorem Faithful.input (hh : h.Faithful) (hs : h.scene.Live) (o : Order) (p : Nat)
    (m : Input K) : (h.step (.input o p m)).Faithful := by
  simp only [step]
  unfold accepts
  cases hr : h.scene.players.get p with
  | none =>
      have hsame : h.scene.inputFrame o p m = h.scene := by simp only [inputFrame, hr]
      simp only [hsame]
      exact hh
  | some r =>
      simp only
      by_cases hseq : m.inputSeq ≤ (h.scene.tables r).lastInputSeq
      · have hsame : h.scene.inputFrame o p m = h.scene := by
          simp only [inputFrame, hr, if_pos hseq]
        simp only [if_pos hseq, hsame]
        exact hh
      · simp only [if_neg hseq]
        obtain ⟨actions, hactions, hinputs⟩ := inputFrame_inputs o hr (not_le.mp hseq)
        have hlt : r < h.scene.inputs.1 := hs.lt p r hr
        refine ⟨fun t => ?_, fun t => ?_, fun t m' hm => ?_, fun t ht => ?_⟩
        · simp only [hinputs]
          by_cases ht : t = r
          · subst ht
            have hold := hh.commands t
            simp only [Function.update_self, List.flatMap_append, List.map_append, hactions, hold,
              List.flatMap_singleton, List.append_assoc]
            rfl
          · simp only [Function.update_of_ne ht]
            exact hh.commands t
        · by_cases ht : t = r
          · subst ht
            simp only [Function.update_self, List.map_append, List.map_singleton]
            rw [List.pairwise_append]
            refine ⟨hh.sorted t, List.pairwise_singleton _ _, fun a ha b hb => ?_⟩
            obtain ⟨m₀, hm₀, rfl⟩ := List.mem_map.mp ha
            rw [List.mem_singleton.mp hb]
            exact (hh.le_last t m₀ hm₀).trans_lt (not_le.mp hseq)
          · simp only [Function.update_of_ne ht]
            exact hh.sorted t
        · simp only [hinputs]
          by_cases ht : t = r
          · subst ht
            simp only [Function.update_self, List.mem_append, List.mem_singleton] at hm ⊢
            rcases hm with hm | rfl
            · exact (hh.le_last t m' hm).trans (not_le.mp hseq).le
            · exact le_rfl
          · simp only [Function.update_of_ne ht] at hm ⊢
            exact hh.le_last t m' hm
        · simp only [hinputs] at ht
          have hne : t ≠ r := by
            rintro rfl
            exact absurd hlt (not_lt.mpr ht)
          simp only [Function.update_of_ne hne]
          exact hh.fresh t ht

/-- A frame: the pending actions of all players are passed on. -/
theorem frame_spec (hs : h.scene.Live) (o : Order) (d : Draws)
    (hstarted : h.scene.gameStarted = true) :
    (h.step (.frame o d)).scene.inputs.1 = h.scene.inputs.1 ∧
      ∀ t, (broadcast o d h.scene).inputs.2 t = (h.step (.frame o d)).scene.inputs.2 t ∧
        ((∃ p, (broadcast o d h.scene).players.get p = some t) ∧
            (h.step (.frame o d)).scene.inputs.2 t = ((h.scene.inputs.2 t).1, []) ∧
            (h.step (.frame o d)).executed t =
              h.executed t ++ (h.scene.inputs.2 t).2.map Action.command ∨
          (¬ ∃ p, (broadcast o d h.scene).players.get p = some t) ∧
            (h.step (.frame o d)).scene.inputs.2 t = h.scene.inputs.2 t ∧
            (h.step (.frame o d)).executed t = h.executed t) := by
  have hbefore := beforeCommands_inputs o d h.scene
  obtain ⟨hfst, hinputs, hlog⟩ := foldl_runActionsLogged o
    ((beforeCommands o d h.scene).sortedPlayers o .commands) (beforeCommands o d h.scene) h.executed
  have hcommands : processCommands o (beforeCommands o d h.scene) =
      (processCommandsLogged o (beforeCommands o d h.scene, h.executed)).1 :=
    (processCommandsLogged_fst o _ _).symm
  have hscene : (h.step (.frame o d)).scene.inputs = (broadcast o d h.scene).inputs := by
    rw [step_scene]
    simp only [Scene.step]
    rw [update_eq o d hstarted]
    exact aside_inputs (flushPendingEnters_aside o _)
  have hexecuted : (h.step (.frame o d)).executed =
      (processCommandsLogged o (beforeCommands o d h.scene, h.executed)).2 := by
    simp [step, hstarted]
  have hbroadcast : (broadcast o d h.scene).inputs =
      (processCommandsLogged o (beforeCommands o d h.scene, h.executed)).1.inputs := by
    rw [← hcommands]
    exact afterCommands_inputs o d _
  have hnext : (processCommands o (beforeCommands o d h.scene)).nextTable =
      (beforeCommands o d h.scene).nextTable := by
    refine foldl_view (v := nextTable) (fun s₁ r => ?_) _ _
    exact foldl_view (v := nextTable)
      (fun s₂ a => congrArg Prod.fst (aside_inputs (runAction_aside o r s₂ a))) _ s₁
  refine ⟨?_, fun t => ⟨by rw [hscene], ?_⟩⟩
  · rw [hscene, hbroadcast, ← hcommands]
    exact hnext.trans (congrArg Prod.fst hbefore)
  · rw [hscene, hbroadcast, hexecuted, broadcast_players o d hs]
    have htable : h.scene.inputs.2 t = ((beforeCommands o d h.scene).tables t |>.lastInputSeq,
        ((beforeCommands o d h.scene).tables t).pendingActions) :=
      (congrFun (congrArg Prod.snd hbefore) t).symm
    have hin := hinputs t
    have hout := hlog t
    rw [htable]
    by_cases hmem : ∃ p, (beforeCommands o d h.scene).players.get p = some t
    · have hl : t ∈ (beforeCommands o d h.scene).sortedPlayers o .commands :=
        mem_sortedPlayers.mpr hmem
      rw [if_pos hl] at hin hout
      exact .inl ⟨hmem, hin, hout⟩
    · have hl : t ∉ (beforeCommands o d h.scene).sortedPlayers o .commands :=
        fun h => hmem (mem_sortedPlayers.mp h)
      rw [if_neg hl] at hin hout
      exact .inr ⟨hmem, hin, hout.trans (List.append_nil _)⟩

theorem Faithful.frame (hh : h.Faithful) (hs : h.scene.Live) (o : Order) (d : Draws) :
    (h.step (.frame o d)).Faithful := by
  by_cases hstarted : h.scene.gameStarted = true
  · obtain ⟨hnext, htables⟩ := frame_spec hs o d hstarted
    have haccepted : (h.step (.frame o d)).accepted = h.accepted := by
      simp [step, hstarted]
    refine ⟨fun t => ?_, fun t => ?_, fun t m hm => ?_, fun t ht => ?_⟩
    · rw [haccepted, hh.commands t]
      rcases (htables t).2 with ⟨-, hinputs, hexecuted⟩ | ⟨-, hinputs, hexecuted⟩
      · rw [hinputs, hexecuted]
        simp
      · rw [hinputs, hexecuted]
    · rw [haccepted]
      exact hh.sorted t
    · rw [haccepted] at hm
      rcases (htables t).2 with ⟨-, hinputs, -⟩ | ⟨-, hinputs, -⟩
      · rw [hinputs]
        exact hh.le_last t m hm
      · rw [hinputs]
        exact hh.le_last t m hm
    · rw [hnext] at ht
      rw [haccepted]
      exact hh.fresh t ht
  · have hsame : h.step (.frame o d) = h := by simp [step, hstarted]
    rw [hsame]
    exact hh

theorem Faithful.step (hh : h.Faithful) (hs : h.scene.Live) (e : Event K) :
    (h.step e).Faithful := by
  cases e with
  | frame o d => exact hh.frame hs o d
  | input o p m => exact hh.input hs o p m
  | batchAdd infos =>
      simp only [History.step, Scene.step, batchAddPlayer]
      split
      · exact hh
      · have hfold : ∀ (l : List (Nat × Nat × (Fin 1001 × Fin 1001))) (s : Scene K),
            ({ h with scene := s } : History K).Faithful →
              ({ h with scene := l.foldl Scene.addPlayer s } : History K).Faithful := by
          intro l
          induction l with
          | nil => exact fun _ hs => hs
          | cons i l ih => exact fun s hs => ih (s.addPlayer i) (hs.addPlayer i)
        exact hfold infos h.scene hh
  | kick p =>
      refine hh.of_inputs ?_
      simp only [Scene.step, kickPlayer]
      repeat' split
      all_goals rfl
  | online p b =>
      refine hh.of_inputs ?_
      simp only [Scene.step, battleOnline]
      split
      · rfl
      · exact setTable_inputs _ _ rfl rfl
  | startGame => exact hh.of_inputs rfl

theorem run_faithful (es : List (Event K)) : (run es : History K).Faithful := by
  have hall : (run es : History K).Faithful ∧ (run es : History K).scene.Live := by
    refine List.foldlRecOn (motive := fun h : History K => h.Faithful ∧ h.scene.Live) es
      History.step ⟨start_faithful, start_live⟩ fun h₁ hh e _ => ⟨hh.1.step hh.2 e, ?_⟩
    rw [step_scene]
    exact (step_live hh.2 e).1
  exact hall.1

end Steps

end History

/-- In every run the accepted numbers of a player increase.  When a frame acknowledges a
number, the commands passed on for the player since it entered are those of the accepted
inputs up to this number, each once and in order.  An input that is not accepted changes
nothing. -/
theorem inputs_acked {K : Type} [Field K] [LinearOrder K] [IsStrictOrderedRing K] [FloorRing K]
    [Sqrt K] [LawfulSqrt K] (es : List (Event K)) :
    let h := History.run es
    h.scene = Scene.run Scene.start es ∧
      (∀ r, ((h.accepted r).map (·.inputSeq)).Pairwise (· < ·)) ∧
      (∀ o d, h.scene.gameStarted = true → ∀ p r k,
        (broadcast o d h.scene).players.get p = some r →
          (broadcast o d h.scene).ack p = some k →
            (h.step (.frame o d)).executed r =
              ((h.accepted r).filter (·.inputSeq ≤ k)).flatMap Input.commands) ∧
      ∀ o p m, accepts h.scene p m = none → h.step (.input o p m) = h := by
  intro h
  have hh : h.Faithful := History.run_faithful es
  have hlive : h.scene.Live := by
    rw [History.run_scene es]
    exact (run_live es).1
  refine ⟨History.run_scene es, hh.sorted, fun o d hstarted p r k hr hk => ?_,
    fun o p m hnone => ?_⟩
  · obtain ⟨hbroadcast, htable⟩ := (History.frame_spec hlive o d hstarted).2 r
    have htable := htable.resolve_right fun hno => hno.1 ⟨p, hr⟩
    have hlast : k = (h.scene.inputs.2 r).1 := by
      simp only [Scene.ack, hr, Option.map_some, Option.some.injEq] at hk
      rw [← hk]
      exact congrArg Prod.fst (hbroadcast.trans htable.2.1)
    -- all inputs that were accepted have a number up to the last one
    have hall : (h.accepted r).filter (·.inputSeq ≤ k) = h.accepted r := by
      rw [List.filter_eq_self]
      intro m hm
      rw [decide_eq_true_eq, hlast]
      exact hh.le_last r m hm
    rw [hall, htable.2.2, hh.commands r]
  · simp only [History.step, hnone]
    unfold accepts at hnone
    unfold inputFrame
    cases hp : h.scene.players.get p with
    | none => rfl
    | some r =>
        rw [hp] at hnone
        by_cases hseq : m.inputSeq ≤ (h.scene.tables r).lastInputSeq
        · simp only [if_pos hseq]
        · simp only [if_neg hseq, reduceCtorEq] at hnone

/-- A player enters and splits; the next frame acknowledges the input. -/
theorem inputs_acked_real :
    let es : List (Event ℝ) := [.batchAdd [(7, 1, (3, 4))], .startGame,
      .frame .ascending ⟨fun _ => (0, 0), none⟩,
      .input .ascending 7 ⟨5, 5, true, 1, true, false⟩]
    let h := History.run es
    h.scene = Scene.run Scene.start es ∧
      (∀ r, ((h.accepted r).map (·.inputSeq)).Pairwise (· < ·)) ∧
      (∀ o d, h.scene.gameStarted = true → ∀ p r k,
        (broadcast o d h.scene).players.get p = some r →
          (broadcast o d h.scene).ack p = some k →
            (h.step (.frame o d)).executed r =
              ((h.accepted r).filter (·.inputSeq ≤ k)).flatMap Input.commands) ∧
      ∀ o p m, accepts h.scene p m = none → h.step (.input o p m) = h :=
  inputs_acked _

end BallServer.Ball
