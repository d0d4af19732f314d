import BallServer.Predict.Twins
import BallServer.Predict.Agreement

/-!
# Reconciling twice

A frame that comes a second time puts the cells back to the same places and repeats the same
inputs.  Boosts, last directions, numbers and keys are not put back, and the second replay
goes another way where it uses them.

Main results:

- Theorem {lit}`replay_follows`: what a replay keeps, and what becomes of the boosts.
- Definition {lit}`Clean`: the replay never uses what is not put back.
- Theorem {lit}`replay_twin`: two replays side by side.
- Theorem {lit}`reconcile_again`: when the second application of a frame changes nothing.
-/

namespace BallServer.Ball

namespace Predict

variable {K : Type} [Field K] [LinearOrder K] [IsStrictOrderedRing K] [Sqrt K] [LawfulSqrt K]
  [Power K]

/-! ## What a replay keeps -/

/-- The own cells that the server knows. -/
def serverCells (s : View K) : List (CellView K) :=
  s.owned.filter fun v => !v.isPredicted

/-- The predicted spores. -/
def predictedSpores (s : View K) : List (SporeView K) :=
  s.spores.filter fun x => x.isPredicted

/-- Powers of a number below one shrink. -/
class ShrinkingPower (K : Type) [Field K] [LinearOrder K] [Power K] : Prop where
  nonneg : ∀ x y : K, 0 < x → 0 ≤ Power.pow x y
  lt_one : ∀ x y : K, 0 < x → x < 1 → 0 < y → Power.pow x y < 1

instance : ShrinkingPower ℝ where
  nonneg _ y hx := Real.rpow_nonneg hx.le y
  lt_one _ _ hx hlt hy := Real.rpow_lt_one hx.le hlt hy

/-- What {lit}`AdvanceCellBoost` makes of a boost. -/
def decay (dt : K) (b : K × K) : K × K :=
  if |b.1| < boostStopEpsilon ∧ |b.2| < boostStopEpsilon then (0, 0)
  else (stopSmall (b.1 * Power.pow (85 / 100) (getServerTickUnits dt)),
    stopSmall (b.2 * Power.pow (85 / 100) (getServerTickUnits dt)))

omit [IsStrictOrderedRing K] [LawfulSqrt K] in
theorem advance_boosts (v : CellView K) (dt targetX targetY : K) (moving : Bool) :
    ((v.advance dt targetX targetY moving).boostVx, (v.advance dt targetX targetY moving).boostVy) =
      decay dt (v.boostVx, v.boostVy) := by
  have hfollow : (v.follow dt targetX targetY moving).boostVx = v.boostVx ∧
      (v.follow dt targetX targetY moving).boostVy = v.boostVy := by
    unfold CellView.follow
    dsimp only
    split_ifs <;> exact ⟨rfl, rfl⟩
  have htick : ∀ w : CellView K, ((w.clampInside.tickProtected dt).boostVx,
      (w.clampInside.tickProtected dt).boostVy) = (w.boostVx, w.boostVy) := by
    intro w
    unfold CellView.tickProtected CellView.clampInside
    dsimp only
    split_ifs <;> rfl
  unfold CellView.advance
  rw [htick]
  unfold CellView.advanceBoost decay
  rw [hfollow.1, hfollow.2]
  split_ifs <;> rfl

/-- A state that a replay may reach; {lit}`f` is what has become of the boosts. -/
structure Follows (f : K × K → K × K) (s s' : View K) : Prop where
  wf : s'.Wf
  fixed : View.Fixed s s'
  cells : List.Forall₂ (fun v w => Stays v w ∧
    (w.boostVx, w.boostVy) = f (v.boostVx, v.boostVy)) (serverCells s) (serverCells s')

omit [Field K] [LinearOrder K] [IsStrictOrderedRing K] [Sqrt K] [LawfulSqrt K] [Power K] in
theorem Follows.refl {s : View K} (hs : s.Wf) : Follows id s s :=
  ⟨hs, .refl s, List.forall₂_same.mpr fun v _ => ⟨.refl v, rfl⟩⟩

theorem forall₂_comp {α β γ : Type} {R : α → β → Prop} {S : β → γ → Prop} {T : α → γ → Prop}
    (hT : ∀ a b c, R a b → S b c → T a c) {l : List α} {l' : List β} {l'' : List γ}
    (h : List.Forall₂ R l l') (h' : List.Forall₂ S l' l'') : List.Forall₂ T l l'' := by
  induction h generalizing l'' with
  | nil =>
      cases h'
      exact .nil
  | cons hab _ ih =>
      cases h' with
      | cons hbc h' => exact .cons (hT _ _ _ hab hbc) (ih h')

omit [Field K] [LinearOrder K] [IsStrictOrderedRing K] [Sqrt K] [LawfulSqrt K] [Power K] in
theorem Follows.trans {f g : K × K → K × K} {s s' s'' : View K} (h : Follows f s s')
    (h' : Follows g s' s'') : Follows (fun b => g (f b)) s s'' :=
  ⟨h'.wf, h.fixed.trans h'.fixed, forall₂_comp (fun _ _ _ hab hbc =>
    ⟨hab.1.trans hbc.1, by rw [hbc.2, hab.2]⟩) h.cells h'.cells⟩

theorem forall₂_filter {α β : Type} {R : α → β → Prop} {p : α → Bool} {q : β → Bool}
    (hpq : ∀ a b, R a b → q b = p a) {l : List α} {l' : List β} (h : List.Forall₂ R l l') :
    List.Forall₂ R (l.filter p) (l'.filter q) := by
  induction h with
  | nil => exact .nil
  | cons hab _ ih =>
      rw [List.filter_cons, List.filter_cons, hpq _ _ hab]
      split_ifs
      · exact .cons hab ih
      · exact ih

omit [Field K] [LinearOrder K] [IsStrictOrderedRing K] [Sqrt K] [LawfulSqrt K] [Power K] in
/-- The server's cells after a step that leaves them and adds predicted ones. -/
theorem serverCells_of_owned {R : CellView K → CellView K → Prop}
    (hR : ∀ v w, R v w → w.isPredicted = v.isPredicted) {s s' : View K} {l : List (CellView K)}
    (new : List (CellView K)) (howned : s'.owned = l ++ new) (hl : List.Forall₂ R s.owned l)
    (hnew : ∀ w ∈ new, w.isPredicted = true) :
    List.Forall₂ R (serverCells s) (serverCells s') := by
  have hnone : new.filter (fun v => !v.isPredicted) = [] := by
    rw [List.filter_eq_nil_iff]
    intro w hw
    simp [hnew w hw]
  unfold serverCells
  rw [howned, List.filter_append, hnone, List.append_nil]
  exact forall₂_filter (fun v w h => by rw [hR v w h]) hl

omit [Field K] [LinearOrder K] [IsStrictOrderedRing K] [Sqrt K] [LawfulSqrt K] [Power K] in
/-- A step that holds the cells. -/
theorem follows_of_holds {s s' : View K} (hwf : s'.Wf) (hfixed : View.Fixed s s')
    {l : List (CellView K)} (new : List (CellView K)) (howned : s'.owned = l ++ new)
    (hl : List.Forall₂ Holds s.owned l) (hnew : ∀ w ∈ new, w.isPredicted = true) :
    Follows id s s' :=
  ⟨hwf, hfixed, (serverCells_of_owned (fun _ _ h => h.isPredicted) new howned hl hnew).imp
    fun _ _ h => ⟨h.toStays, h.boosts⟩⟩

omit [IsStrictOrderedRing K] [LawfulSqrt K] [Power K] in
theorem applyControl_follows {s : View K} (hs : s.Wf) (input : PendingInput K) :
    Follows id s (s.applyControl input.targetX input.targetY input.moving) := by
  obtain ⟨howned, hwf⟩ := owned_applyControl hs input
  refine follows_of_holds hwf ?_ [] (by rw [howned, List.append_nil]) ?_ (by simp)
  · unfold View.applyControl
    split_ifs
    · exact ⟨rfl, rfl, rfl, rfl, rfl, rfl, le_rfl, le_rfl, le_rfl⟩
    · exact .refl s
  · rw [List.forall₂_map_right_iff]
    refine List.forall₂_same.mpr fun v _ => ?_
    unfold controlled
    split_ifs
    · exact turn_holds v _ _
    · exact .refl v

omit [IsStrictOrderedRing K] [LawfulSqrt K] [Power K] in
theorem predictSplitAction_follows {s : View K} (hs : s.Wf) (input : PendingInput K) :
    Follows id s (s.predictSplitAction input).1 := by
  obtain ⟨-, howned, hwf, hfixed, -⟩ := predictSplitAction_eq s input hs
  obtain ⟨hholds, hnew⟩ := splitViews_holds s input s.owned.length 0 s.owned
  exact follows_of_holds hwf hfixed _ howned hholds hnew

omit [IsStrictOrderedRing K] [LawfulSqrt K] [Power K] in
theorem predictSpitAction_follows {s : View K} (hs : s.Wf) (input : PendingInput K) :
    Follows id s (s.predictSpitAction input).1 := by
  obtain ⟨-, howned, -, hwf, hfixed⟩ := predictSpitAction_eq s input hs
  obtain ⟨hholds, -⟩ := spitViews_holds s input 0 s.owned
  exact follows_of_holds hwf hfixed [] (by rw [howned, List.append_nil]) hholds (by simp)

omit [IsStrictOrderedRing K] [LawfulSqrt K] [Power K] in
theorem predictActions_follows {s : View K} (hs : s.Wf) (input : PendingInput K) :
    Follows id s (s.predictActions input).1 := by
  have hsplit : Follows id s (if input.split then s.predictSplitAction input else (s, [])).1 := by
    split_ifs
    · exact predictSplitAction_follows hs input
    · exact .refl hs
  have hspit : Follows id (if input.split then s.predictSplitAction input else (s, [])).1
      (s.predictActions input).1 := by
    unfold View.predictActions
    dsimp only
    by_cases hspit : input.spit = true
    · rw [if_pos hspit]
      exact predictSpitAction_follows hsplit.wf input
    · rw [if_neg hspit]
      exact .refl hsplit.wf
  exact hsplit.trans hspit

omit [IsStrictOrderedRing K] [LawfulSqrt K] in
/-- {lit}`SimulateLocalPredictionSegment`, if time passes. -/
theorem simulateSegment_eq {s : View K} (hs : s.Wf) {startTime endTime : K}
    (hpasses : ¬ endTime - startTime ≤ 0) (targetX targetY : K) (moving : Bool) :
    let s' := s.simulateSegment startTime endTime targetX targetY moving
    s'.owned = resolveCollisions (s.owned.map fun v =>
        v.advance (endTime - startTime) targetX targetY moving) ∧
      s'.Wf ∧ View.Fixed s s' ∧ s'.spores = s.spores.map (fun x =>
        if x.isPredicted then x.advance (endTime - startTime) else x) ∧
      List.Forall₂ (fun v w => Stays v w ∧ (w.boostVx, w.boostVy) =
        decay (endTime - startTime) (v.boostVx, v.boostVy)) s.owned s'.owned := by
  intro s'
  have hstays : List.Forall₂ (fun v w => Stays v w ∧ (w.boostVx, w.boostVy) =
      decay (endTime - startTime) (v.boostVx, v.boostVy)) s.owned
        (resolveCollisions (s.owned.map fun v =>
          v.advance (endTime - startTime) targetX targetY moving)) := by
    have hheld := resolveCollisions_holds (s.owned.map fun v =>
      v.advance (endTime - startTime) targetX targetY moving)
    rw [List.forall₂_map_left_iff] at hheld
    refine hheld.imp fun v w h => ⟨(advance_stays v _ _ _ _).trans h.toStays, ?_⟩
    rw [h.boosts, advance_boosts]
  have hkeeps := hstays.imp fun _ _ h => h.1.toKeeps
  have hs' : s' = (s.store (resolveCollisions (s.owned.map fun v =>
      v.advance (endTime - startTime) targetX targetY moving))).advancePredictedSpores
        (endTime - startTime) := if_neg hpasses
  have hno : s.Children [] := ⟨by simp, by simp, by simp, .nil, by simp⟩
  have howned : s'.owned = resolveCollisions (s.owned.map fun v =>
      v.advance (endTime - startTime) targetX targetY moving) := by
    have hcells : s'.cells = (s.store (resolveCollisions (s.owned.map fun v =>
        v.advance (endTime - startTime) targetX targetY moving))).cells ++ [] := by
      rw [hs', List.append_nil]
      rfl
    have hme : s'.myPlayerId = s.myPlayerId := by
      rw [hs']
      rfl
    rw [(View.owned_store_put hs hkeeps hno hcells hme).1, List.append_nil]
  refine ⟨howned, ?_, ?_, by rw [hs']; rfl, howned ▸ hstays⟩
  · rw [hs']
    refine View.store_wf hs hkeeps rfl rfl rfl rfl ?_
    intro x hx
    obtain ⟨y, hy, rfl⟩ := List.mem_map.mp hx
    have := hs.sporeId y hy
    split_ifs <;> exact this
  · rw [hs']
    exact ⟨rfl, rfl, rfl, rfl, rfl, rfl, le_rfl, le_rfl, le_rfl⟩

/-- What a segment makes of a boost. -/
def segmentDecay (startTime endTime : K) (b : K × K) : K × K :=
  if endTime - startTime ≤ 0 then b else decay (endTime - startTime) b

/-- What a replay makes of the boost of a server's cell. -/
def replayDecay (latency receiveTime baseTime : K) :
    List (PendingInput K) → K → K × K → K × K
  | [], currentTime, b => segmentDecay currentTime receiveTime b
  | input :: inputs, currentTime, b =>
      let applyTime := clamp (input.sentAt + latency) baseTime receiveTime
      replayDecay latency receiveTime baseTime inputs applyTime
        (segmentDecay currentTime applyTime b)

/-- Each component has become smaller, or is gone. -/
def Shrinks (b b' : K × K) : Prop :=
  (b'.1 = 0 ∨ |b'.1| < |b.1|) ∧ (b'.2 = 0 ∨ |b'.2| < |b.2|)

/-- No component has grown. -/
def Within (b b' : K × K) : Prop :=
  |b'.1| ≤ |b.1| ∧ |b'.2| ≤ |b.2|

omit [Sqrt K] [LawfulSqrt K] [Power K] in
theorem Shrinks.within {b b' : K × K} (h : Shrinks b b') : Within b b' := by
  obtain ⟨h1, h2⟩ := h
  constructor
  · rcases h1 with h1 | h1
    · rw [h1, abs_zero]
      exact abs_nonneg _
    · exact h1.le
  · rcases h2 with h2 | h2
    · rw [h2, abs_zero]
      exact abs_nonneg _
    · exact h2.le

omit [IsStrictOrderedRing K] [Sqrt K] [LawfulSqrt K] [Power K] in
theorem Within.trans {b b' b'' : K × K} (h : Within b b') (h' : Within b' b'') : Within b b'' :=
  ⟨h'.1.trans h.1, h'.2.trans h.2⟩

omit [Sqrt K] [LawfulSqrt K] [Power K] in
theorem Shrinks.within_trans {b b' b'' : K × K} (h : Shrinks b b') (h' : Within b' b'') :
    Shrinks b b'' := by
  have hcomponent : ∀ x y z : K, y = 0 ∨ |y| < |x| → |z| ≤ |y| → z = 0 ∨ |z| < |x| := by
    rintro x y z (rfl | hlt) hle
    · rw [abs_zero] at hle
      exact .inl (abs_nonpos_iff.mp hle)
    · exact .inr (hle.trans_lt hlt)
  exact ⟨hcomponent _ _ _ h.1 h'.1, hcomponent _ _ _ h.2 h'.2⟩

section Shrinking

variable [ShrinkingPower K]

omit [Sqrt K] [LawfulSqrt K] in
theorem decay_shrinks {dt : K} (hdt : 0 < dt) (b : K × K) : Shrinks b (decay dt b) := by
  have hticks : 0 < getServerTickUnits dt := by
    unfold getServerTickUnits serverTickSeconds
    positivity
  have hbase : (0 : K) < 85 / 100 ∧ (85 / 100 : K) < 1 := by norm_num
  have hnonneg := ShrinkingPower.nonneg (85 / 100 : K) (getServerTickUnits dt) hbase.1
  have hlt := ShrinkingPower.lt_one (85 / 100 : K) (getServerTickUnits dt) hbase.1 hbase.2 hticks
  have hcomponent : ∀ x : K,
      stopSmall (x * Power.pow (85 / 100) (getServerTickUnits dt)) = 0 ∨
        |stopSmall (x * Power.pow (85 / 100) (getServerTickUnits dt))| < |x| := by
    intro x
    unfold stopSmall
    split_ifs with hsmall
    · exact .inl rfl
    · by_cases hx : x = 0
      · rw [hx, zero_mul]
        exact .inl rfl
      · right
        rw [abs_mul, abs_of_nonneg hnonneg]
        exact mul_lt_of_lt_one_right (abs_pos.mpr hx) hlt
  unfold decay
  split_ifs
  · exact ⟨.inl rfl, .inl rfl⟩
  · exact ⟨hcomponent b.1, hcomponent b.2⟩

omit [Sqrt K] [LawfulSqrt K] in
theorem segmentDecay_within (startTime endTime : K) (b : K × K) :
    Within b (segmentDecay startTime endTime b) := by
  unfold segmentDecay
  split_ifs with hstop
  · exact ⟨le_rfl, le_rfl⟩
  · exact (decay_shrinks (not_le.mp hstop) b).within

omit [Sqrt K] [LawfulSqrt K] in
theorem replayDecay_within (latency baseTime : K) {receiveTime : K}
    (inputs : List (PendingInput K)) (currentTime : K) (b : K × K) :
    Within b (replayDecay latency receiveTime baseTime inputs currentTime b) := by
  induction inputs generalizing currentTime b with
  | nil => exact segmentDecay_within currentTime receiveTime b
  | cons input inputs ih => exact (segmentDecay_within _ _ b).trans (ih _ _)

omit [Sqrt K] [LawfulSqrt K] in
/-- If time passes in a replay, a boost becomes smaller or is gone. -/
theorem replayDecay_shrinks (latency baseTime : K) {receiveTime : K}
    (inputs : List (PendingInput K)) {currentTime : K} (hpasses : currentTime < receiveTime)
    (b : K × K) : Shrinks b (replayDecay latency receiveTime baseTime inputs currentTime b) := by
  induction inputs generalizing currentTime b with
  | nil =>
      have hdt : ¬ receiveTime - currentTime ≤ 0 := not_le.mpr (sub_pos.mpr hpasses)
      rw [replayDecay, segmentDecay, if_neg hdt]
      exact decay_shrinks (sub_pos.mpr hpasses) b
  | cons input inputs ih =>
      rw [replayDecay]
      unfold segmentDecay
      split_ifs with hstop
      · exact ih ((sub_nonpos.mp hstop).trans_lt hpasses) b
      · exact (decay_shrinks (not_le.mp hstop) b).within_trans (replayDecay_within _ _ _ _ _)

end Shrinking

omit [IsStrictOrderedRing K] [LawfulSqrt K] in
theorem simulateSegment_follows {s : View K} (hs : s.Wf) (startTime endTime targetX targetY : K)
    (moving : Bool) : Follows (segmentDecay startTime endTime) s
      (s.simulateSegment startTime endTime targetX targetY moving) := by
  by_cases hpasses : endTime - startTime ≤ 0
  · have hdecay : segmentDecay startTime endTime = id := by
      funext b
      exact if_pos hpasses
    unfold View.simulateSegment
    dsimp only
    rw [if_pos hpasses, hdecay]
    exact .refl hs
  · have hdecay : segmentDecay startTime endTime = decay (endTime - startTime) := by
      funext b
      exact if_neg hpasses
    obtain ⟨-, hwf, hfixed, -, hstays⟩ := simulateSegment_eq hs hpasses targetX targetY moving
    rw [hdecay]
    refine ⟨hwf, hfixed, ?_⟩
    exact serverCells_of_owned (fun _ _ h => h.1.isPredicted) [] (List.append_nil _).symm hstays
      (by simp)

omit [IsStrictOrderedRing K] [LawfulSqrt K] in
/-- A replay, as a whole. -/
theorem replay_follows (latency receiveTime baseTime : K) (inputs : List (PendingInput K))
    {s : View K} (hs : s.Wf) (currentTime targetX targetY : K) (moving : Bool) :
    Follows (replayDecay latency receiveTime baseTime inputs currentTime) s
      (View.replay latency receiveTime baseTime inputs s currentTime targetX targetY
        moving) := by
  induction inputs generalizing s currentTime targetX targetY moving with
  | nil =>
      have h := simulateSegment_follows hs currentTime receiveTime targetX targetY moving
      rw [View.replay]
      refine ⟨⟨h.wf.nodup, h.wf.cellId, h.wf.sortKey, h.wf.stableKey, h.wf.sporeId⟩, ?_, h.cells⟩
      exact h.fixed.trans ⟨rfl, rfl, rfl, rfl, rfl, rfl, le_rfl, le_rfl, le_rfl⟩
  | cons input inputs ih =>
      rw [View.replay]
      have hsegment := simulateSegment_follows hs currentTime
        (clamp (input.sentAt + latency) baseTime receiveTime) targetX targetY moving
      have hcontrol := applyControl_follows hsegment.wf input
      have hactions := predictActions_follows hcontrol.wf input
      exact ((hsegment.trans hcontrol).trans hactions).trans (ih hactions.wf _ _ _ _)

/-! ## The condition -/

/-- Time does not pass, or no two cells coincide when they are pushed apart after it. -/
def SegmentApart (s : View K) (startTime endTime targetX targetY : K) (moving : Bool) : Prop :=
  endTime - startTime ≤ 0 ∨ CollisionsApart (s.owned.map fun v =>
    v.advance (endTime - startTime) targetX targetY moving)

/-- No step of a replay uses a number, a key or a last direction that is not put back. -/
def ReplayClean (latency receiveTime baseTime : K) :
    List (PendingInput K) → View K → K → K → K → Bool → Prop
  | [], s, currentTime, targetX, targetY, moving =>
      SegmentApart s currentTime receiveTime targetX targetY moving
  | input :: inputs, s, currentTime, targetX, targetY, moving =>
      let applyTime := clamp (input.sentAt + latency) baseTime receiveTime
      let s' := (s.simulateSegment currentTime applyTime targetX targetY moving).applyControl
        input.targetX input.targetY input.moving
      SegmentApart s currentTime applyTime targetX targetY moving ∧ ActionsDirected s' input ∧
        ReplayClean latency receiveTime baseTime inputs (s'.predictActions input).1 applyTime
          input.targetX input.targetY input.moving

/-- The replay spans no time, or it starts with dead boosts; and it never uses what is not put
back. -/
def Clean (s : View K) (cells : List (CellInfo K)) (receiveTime : K) (ack : Int) : Prop :=
  s.myPlayerId = 0 ∨
    (receiveTime = s.baseTime receiveTime ∨
      ∀ v ∈ (s.start cells).owned, Dead (v.boostVx, v.boostVy)) ∧
    ReplayClean s.estimatedOneWayLatencySeconds receiveTime (s.baseTime receiveTime)
      (s.unseenInputs ack) (s.start cells) (s.baseTime receiveTime) s.authoritativeTargetX
      s.authoritativeTargetY s.authoritativeMoving

/-! ## States side by side -/

variable {m m' : Memory K} {passes : Prop} {all : List (PendingInput K)}

/-- A state in two replays. -/
structure Twin (m m' : Memory K) (passes : Prop) (all : List (PendingInput K)) (s s' : View K) :
    Prop where
  wf : s.Wf
  wf' : s'.Wf
  fresh : ∀ input ∈ all, ∀ key, s.nextLocalStableKey ≤ key → input.cellDirs key = none
  fresh' : ∀ input ∈ all, ∀ key, s'.nextLocalStableKey ≤ key → input.cellDirs key = none
  cells : List.Forall₂ (TwinCell m m' passes all) s.owned s'.owned
  spores : List.Forall₂ TwinSpore (predictedSpores s) (predictedSpores s')

omit [IsStrictOrderedRing K] [Sqrt K] [LawfulSqrt K] [Power K] in
/-- Twins stay twins if the steps of both sides keep their cells and spores twins. -/
theorem Twin.step {f g : K × K → K × K} {s s' t t' : View K} (h : Twin m m' passes all s s')
    (hs : Follows f s t) (hs' : Follows g s' t')
    (hcells : List.Forall₂ (TwinCell m m' passes all) t.owned t'.owned)
    (hspores : List.Forall₂ TwinSpore (predictedSpores t) (predictedSpores t')) :
    Twin m m' passes all t t' :=
  ⟨hs.wf, hs'.wf, fun input hi key hkey => h.fresh input hi key (hs.fixed.stableKey.trans hkey),
    fun input hi key hkey => h.fresh' input hi key (hs'.fixed.stableKey.trans hkey), hcells,
    hspores⟩

omit [IsStrictOrderedRing K] [LawfulSqrt K] [Power K] in
theorem applyControl_twin {s s' : View K} (h : Twin m m' passes all s s')
    (input : PendingInput K) :
    Twin m m' passes all (s.applyControl input.targetX input.targetY input.moving)
      (s'.applyControl input.targetX input.targetY input.moving) := by
  refine h.step (applyControl_follows h.wf input) (applyControl_follows h.wf' input) ?_ ?_
  · rw [(owned_applyControl h.wf input).1, (owned_applyControl h.wf' input).1,
      List.forall₂_map_left_iff, List.forall₂_map_right_iff]
    refine h.cells.imp fun v v' hv => ?_
    unfold controlled
    split_ifs
    · exact hv.turn _ _
    · exact hv
  · unfold View.applyControl
    split_ifs <;> exact h.spores

omit [IsStrictOrderedRing K] [LawfulSqrt K] [Power K] in
theorem predictSplitAction_twin {s s' : View K} (h : Twin m m' passes all s s')
    {input : PendingInput K} (hinput : input ∈ all)
    (hdirected : ∀ v ∈ splitters viewBody (16 - s.owned.length) s.owned, v.isPredicted = false →
      Directed input v) :
    Twin m m' passes all (s.predictSplitAction input).1 (s'.predictSplitAction input).1 := by
  obtain ⟨-, howned, -, -, hspores⟩ := predictSplitAction_eq s input h.wf
  obtain ⟨-, howned', -, -, hspores'⟩ := predictSplitAction_eq s' input h.wf'
  obtain ⟨hcells, hchildren⟩ := splitViews_twin hinput h.fresh h.fresh' h.cells s.owned.length 0
    hdirected
  refine h.step (predictSplitAction_follows h.wf input) (predictSplitAction_follows h.wf' input)
    ?_ ?_
  · rw [howned, howned', ← h.cells.length_eq]
    exact List.rel_append hcells hchildren
  · unfold predictedSpores
    rw [hspores, hspores']
    exact h.spores

omit [IsStrictOrderedRing K] [LawfulSqrt K] [Power K] in
theorem predictSpitAction_twin {s s' : View K} (h : Twin m m' passes all s s')
    {input : PendingInput K} (hinput : input ∈ all)
    (hdirected : ∀ v ∈ s.owned, (viewBody v).Spits → v.isPredicted = false → Directed input v) :
    Twin m m' passes all (s.predictSpitAction input).1 (s'.predictSpitAction input).1 := by
  obtain ⟨-, howned, hspores, -, -⟩ := predictSpitAction_eq s input h.wf
  obtain ⟨-, howned', hspores', -, -⟩ := predictSpitAction_eq s' input h.wf'
  obtain ⟨hcells, hnew⟩ := spitViews_twin s s' hinput h.cells 0 hdirected
  obtain ⟨-, hpredicted⟩ := spitViews_holds s input 0 s.owned
  obtain ⟨-, hpredicted'⟩ := spitViews_holds s' input 0 s'.owned
  refine h.step (predictSpitAction_follows h.wf input) (predictSpitAction_follows h.wf' input)
    ?_ ?_
  · rw [howned, howned']
    exact hcells
  · unfold predictedSpores
    rw [hspores, hspores', List.filter_append, List.filter_append,
      List.filter_eq_self.mpr hpredicted, List.filter_eq_self.mpr hpredicted']
    exact List.rel_append h.spores hnew

open Classical in
omit [IsStrictOrderedRing K] [LawfulSqrt K] [Power K] in
/-- Where a server's cell was before the split. -/
theorem split_server {s : View K} (hs : s.Wf) (input : PendingInput K) {v' : CellView K}
    (hv' : v' ∈ (if input.split then s.predictSplitAction input else (s, [])).1.owned)
    (hserver : v'.isPredicted = false) :
    ∃ v ∈ s.owned, Stays v v' ∧ viewBody v' =
      if v ∈ splits input viewBody s.owned then (viewBody v).half else viewBody v := by
  by_cases hsplit : input.split = true
  · rw [if_pos hsplit] at hv'
    obtain ⟨-, howned, -, -, -⟩ := predictSplitAction_eq s input hs
    obtain ⟨hholds, hnew⟩ := splitViews_holds s input s.owned.length 0 s.owned
    obtain ⟨hbodies, -⟩ := splitViews_spec s input s.owned.length 0 s.owned
    have hnodup : s.owned.Nodup := (View.owned_nodup hs).of_map
    rw [Nat.add_zero, splitList_halves _ _ _ hnodup] at hbodies
    rw [howned, List.mem_append] at hv'
    rcases hv' with hv' | hv'
    · have hmap := List.forall₂_eq_eq_eq ▸ hbodies.symm
      rw [List.forall₂_map_left_iff, List.forall₂_map_right_iff] at hmap
      obtain ⟨v, hv, hhold, hbody⟩ := forall₂_right (forall₂_and hholds hmap) hv'
      refine ⟨v, hv, hhold.toStays, hbody.symm.trans ?_⟩
      rw [splits, room, if_pos hsplit]
    · rw [hnew v' hv'] at hserver
      cases hserver
  · rw [if_neg hsplit] at hv'
    refine ⟨v', hv', .refl v', ?_⟩
    rw [if_neg]
    exact fun hmem => hsplit (mem_splits.mp hmem).1

omit [IsStrictOrderedRing K] [LawfulSqrt K] [Power K] in
theorem predictActions_twin {s s' : View K} (h : Twin m m' passes all s s')
    {input : PendingInput K} (hinput : input ∈ all) (hdirected : ActionsDirected s input) :
    Twin m m' passes all (s.predictActions input).1 (s'.predictActions input).1 := by
  classical
  have hsplit : Twin m m' passes all
      (if input.split then s.predictSplitAction input else (s, [])).1
      (if input.split then s'.predictSplitAction input else (s', [])).1 := by
    by_cases hsplit : input.split = true
    · rw [if_pos hsplit, if_pos hsplit]
      refine predictSplitAction_twin h hinput fun v hv hserver => ?_
      exact hdirected v (mem_of_mem_splitters hv) hserver (.inl ⟨hsplit, hv⟩)
    · rw [if_neg hsplit, if_neg hsplit]
      exact h
  unfold View.predictActions
  dsimp only
  by_cases hspit : input.spit = true
  · rw [if_pos hspit, if_pos hspit]
    refine predictSpitAction_twin hsplit hinput fun v' hv' hspits hserver => ?_
    obtain ⟨v, hv, hstay, hbody⟩ := split_server h.wf input hv' hserver
    have hserver' : v.isPredicted = false := hstay.isPredicted.symm.trans hserver
    have hplace : v'.renderX = v.renderX ∧ v'.renderY = v.renderY := by
      split_ifs at hbody
      all_goals exact ⟨congrArg Body.x hbody, congrArg Body.y hbody⟩
    have hdir : Directed input v := by
      by_cases hmem : v ∈ splits input viewBody s.owned
      · exact hdirected v hv hserver' (.inl (mem_splits.mp hmem))
      · rw [if_neg hmem] at hbody
        exact hdirected v hv hserver' (.inr ⟨hspit, hbody ▸ hspits⟩)
    unfold Directed at hdir ⊢
    rw [hplace.1, hplace.2, hstay.stableKey]
    exact hdir
  · rw [if_neg hspit, if_neg hspit]
    exact hsplit

omit [IsStrictOrderedRing K] [Sqrt K] [LawfulSqrt K] in
theorem TwinSpore.advance {w w' : SporeView K} (h : TwinSpore w w') (dt : K) :
    TwinSpore (w.advance dt) (w'.advance dt) := by
  unfold SporeView.advance
  dsimp only
  rw [h.x, h.y, h.vx, h.vy]
  exact ⟨rfl, rfl, rfl, rfl, h.isPredicted, h.seq⟩

omit [LawfulSqrt K] in
theorem simulateSegment_twin {s s' : View K} (h : Twin m m' passes all s s')
    {startTime endTime targetX targetY : K} {moving : Bool}
    (hpasses : ¬ endTime - startTime ≤ 0 → passes)
    (hapart : SegmentApart s startTime endTime targetX targetY moving) :
    Twin m m' passes all (s.simulateSegment startTime endTime targetX targetY moving)
      (s'.simulateSegment startTime endTime targetX targetY moving) := by
  by_cases hstop : endTime - startTime ≤ 0
  · unfold View.simulateSegment
    dsimp only
    rw [if_pos hstop, if_pos hstop]
    exact h
  · obtain ⟨howned, -, -, hspores, -⟩ := simulateSegment_eq h.wf hstop targetX targetY moving
    obtain ⟨howned', -, -, hspores', -⟩ := simulateSegment_eq h.wf' hstop targetX targetY moving
    refine h.step (simulateSegment_follows h.wf _ _ _ _ _)
      (simulateSegment_follows h.wf' _ _ _ _ _) ?_ ?_
    · rw [howned, howned']
      refine resolveCollisions_twin ?_ (hapart.resolve_left hstop)
      rw [List.forall₂_map_left_iff, List.forall₂_map_right_iff]
      exact h.cells.imp fun v v' hv => hv.advance (hpasses hstop) _ _ _ _
    · have hfilter : ∀ l : List (SporeView K),
          (l.map fun x => if x.isPredicted then x.advance (endTime - startTime) else x).filter
            (fun x => x.isPredicted) =
          (l.filter fun x => x.isPredicted).map fun x => x.advance (endTime - startTime) := by
        intro l
        induction l with
        | nil => rfl
        | cons x l ih =>
            rw [List.map_cons, List.filter_cons, List.filter_cons, ih]
            by_cases hx : x.isPredicted = true
            · have hx' : (x.advance (endTime - startTime)).isPredicted = true := hx
              simp [hx, hx']
            · simp [hx]
      unfold predictedSpores
      rw [hspores, hspores', hfilter, hfilter, List.forall₂_map_left_iff,
        List.forall₂_map_right_iff]
      exact h.spores.imp fun w w' hw => hw.advance _

omit [Field K] [IsStrictOrderedRing K] [Sqrt K] [LawfulSqrt K] [Power K] in
theorem clamp_self (value low : K) : clamp value low low = low := by
  unfold clamp
  split_ifs with hlow hhigh
  · rfl
  · rfl
  · exact le_antisymm (not_lt.mp hhigh) (not_lt.mp hlow)

omit [LawfulSqrt K] in
/-- Two replays side by side. -/
theorem replay_twin (latency receiveTime baseTime : K) {inputs : List (PendingInput K)}
    (hinputs : ∀ input ∈ inputs, input ∈ all) {s s' : View K}
    {currentTime targetX targetY : K} {moving : Bool}
    (h : Twin m m' (receiveTime ≠ baseTime) all s s')
    (htime : receiveTime = baseTime → currentTime = baseTime)
    (hclean : ReplayClean latency receiveTime baseTime inputs s currentTime targetX targetY
      moving) :
    Twin m m' (receiveTime ≠ baseTime) all
      (View.replay latency receiveTime baseTime inputs s currentTime targetX targetY moving)
      (View.replay latency receiveTime baseTime inputs s' currentTime targetX targetY moving) := by
  induction inputs generalizing s s' currentTime targetX targetY moving with
  | nil =>
      rw [View.replay, View.replay]
      have hpasses : ¬ receiveTime - currentTime ≤ 0 → receiveTime ≠ baseTime := by
        rintro hstop heq
        rw [htime heq, heq, sub_self] at hstop
        exact hstop le_rfl
      have hsegment := simulateSegment_twin h hpasses hclean
      exact ⟨⟨hsegment.wf.nodup, hsegment.wf.cellId, hsegment.wf.sortKey, hsegment.wf.stableKey,
        hsegment.wf.sporeId⟩, ⟨hsegment.wf'.nodup, hsegment.wf'.cellId, hsegment.wf'.sortKey,
        hsegment.wf'.stableKey, hsegment.wf'.sporeId⟩, hsegment.fresh, hsegment.fresh',
        hsegment.cells, hsegment.spores⟩
  | cons input inputs ih =>
      obtain ⟨hapart, hdirected, hrest⟩ := hclean
      rw [View.replay, View.replay]
      have hsegment := simulateSegment_twin h (by
        rintro hstop heq
        rw [htime heq, heq, clamp_self, sub_self] at hstop
        exact hstop le_rfl) hapart
      have hactions := predictActions_twin (applyControl_twin hsegment input)
        (hinputs input List.mem_cons_self) hdirected
      refine ih (fun i hi => hinputs i (List.mem_cons_of_mem _ hi)) hactions ?_ hrest
      intro heq
      rw [heq, clamp_self]

/-! ## The same frame twice -/

/-- The state of a client in a game: no input has stored a direction for a key that is still
free. -/
structure Playing (s : View K) : Prop where
  wf : s.Wf
  negative : s.nextPredictedCellId < 0
  fresh : ∀ input ∈ s.pendingInputs, ∀ key, s.nextLocalStableKey ≤ key →
    input.cellDirs key = none

/-- A cell and what has become of it, up to the number of a predicted cell. -/
structure SameCell (v v' : CellView K) : Prop where
  isPredicted : v'.isPredicted = v.isPredicted
  seq : v'.predictedActionSeq = v.predictedActionSeq
  number : v.isPredicted = false → v'.cellId = v.cellId
  x : v'.renderX = v.renderX
  y : v'.renderY = v.renderY
  size : v'.size = v.size
  boosts : (v'.boostVx, v'.boostVy) = (v.boostVx, v.boostVy)
  dirs : (v'.lastDirX, v'.lastDirY) = (v.lastDirX, v.lastDirY)

/-- The own cells and the predicted spores have not changed. -/
structure Unchanged (s s' : View K) : Prop where
  cells : List.Forall₂ SameCell s.owned s'.owned
  spores : List.Forall₂ TwinSpore (predictedSpores s) (predictedSpores s')

/-- What a client remembers of its cells. -/
def remembered (s : View K) : Memory K where
  dir id := ((s.viewOf id).lastDirX, (s.viewOf id).lastDirY)
  boost id := ((s.viewOf id).boostVx, (s.viewOf id).boostVy)

theorem forall₂_imp_left {α β : Type} {R S : α → β → Prop} {l : List α} {l' : List β}
    (h : List.Forall₂ R l l') (himp : ∀ a ∈ l, ∀ b, R a b → S a b) : List.Forall₂ S l l' := by
  induction h with
  | nil => exact .nil
  | cons hab _ ih =>
      exact .cons (himp _ List.mem_cons_self _ hab)
        (ih fun a ha b hr => himp a (List.mem_cons_of_mem _ ha) b hr)

section Frames

variable {s : View K} {cells : List (CellInfo K)}

omit [IsStrictOrderedRing K] [Sqrt K] [LawfulSqrt K] [Power K] in
theorem serverCells_start (hs : Playing s) (hcells : View.Proper cells) :
    serverCells (s.start cells) = (View.ownInfos cells s.myPlayerId).map s.startCell := by
  obtain ⟨-, -, howned, -⟩ := View.start_spec hs.wf hcells hs.negative
  unfold serverCells
  rw [howned, List.filter_eq_self]
  intro v hv
  obtain ⟨info, -, rfl⟩ := List.mem_map.mp hv
  rfl

omit [IsStrictOrderedRing K] [Sqrt K] [LawfulSqrt K] [Power K] in
theorem startCell_cellId (s : View K) (info : CellInfo K) :
    (s.startCell info).cellId = info.cellId :=
  View.viewOf_cellId s info.cellId

omit [IsStrictOrderedRing K] [Sqrt K] [LawfulSqrt K] [Power K] in
theorem startCell_stableKey {info : CellInfo K} (hinfo : 0 < info.cellId) :
    (s.startCell info).stableKey ≠ 0 := by
  change (if (s.viewOf info.cellId).stableKey = 0 then info.cellId
    else (s.viewOf info.cellId).stableKey) ≠ 0
  split_ifs with hzero
  · omega
  · exact hzero

omit [IsStrictOrderedRing K] [Sqrt K] [LawfulSqrt K] [Power K] in
/-- Two starts with the same keys are twins. -/
theorem start_twin {s' : View K} (hs : Playing s) (hs' : Playing s')
    (hcells : View.Proper cells) (hme : s'.myPlayerId = s.myPlayerId)
    (hall : ∀ input ∈ all, input ∈ s.pendingInputs ∧ input ∈ s'.pendingInputs)
    (hkeys : ∀ info ∈ View.ownInfos cells s.myPlayerId,
      (s'.startCell info).stableKey = (s.startCell info).stableKey)
    (hdead : passes → ∀ info ∈ View.ownInfos cells s.myPlayerId,
      Dead ((remembered s).boost info.cellId) ∧ Dead ((remembered s').boost info.cellId)) :
    Twin (remembered s) (remembered s') passes all (s.start cells) (s'.start cells) := by
  obtain ⟨hwf, hfixed, howned, hspores⟩ := View.start_spec hs.wf hcells hs.negative
  obtain ⟨hwf', hfixed', howned', hspores'⟩ := View.start_spec hs'.wf hcells hs'.negative
  refine ⟨hwf, hwf', ?_, ?_, ?_, ?_⟩
  · exact fun input hi key hkey =>
      hs.fresh input (hall input hi).1 key (hfixed.stableKey.trans hkey)
  · exact fun input hi key hkey =>
      hs'.fresh input (hall input hi).2 key (hfixed'.stableKey.trans hkey)
  · rw [howned, howned', hme, List.forall₂_map_left_iff, List.forall₂_map_right_iff]
    refine List.forall₂_same.mpr fun info hinfo => ?_
    exact {
      isPredicted := rfl
      seq := rfl
      x := rfl
      y := rfl
      size := rfl
      timer := rfl
      number := fun _ => ⟨by rw [startCell_cellId, startCell_cellId], hkeys info hinfo⟩
      dirs := .inr ⟨rfl, by rw [startCell_cellId]; rfl, by rw [startCell_cellId]; rfl⟩
      boosts := .inr ⟨rfl, by rw [startCell_cellId]; rfl, by rw [startCell_cellId]; rfl⟩
      dead := fun hpasses _ => hdead hpasses info hinfo
      fresh := fun hborn => absurd hborn Bool.false_ne_true }
  · unfold predictedSpores
    rw [hspores, hspores']
    exact .nil

omit [IsStrictOrderedRing K] [LawfulSqrt K] in
/-- A frame puts the cells back and repeats the inputs. -/
theorem applyUpdate_eq (hs : Playing s) (hcells : View.Proper cells) (hme : s.myPlayerId ≠ 0)
    (receiveTime : K) (ack : Int) :
    s.applyUpdate cells receiveTime ack = View.replay s.estimatedOneWayLatencySeconds receiveTime
      (s.baseTime receiveTime) (s.unseenInputs ack) (s.start cells) (s.baseTime receiveTime)
      s.authoritativeTargetX s.authoritativeTargetY s.authoritativeMoving := by
  obtain ⟨-, hfixed, -, -⟩ := View.applyCellList_spec hs.wf hcells hs.negative
  unfold View.applyUpdate View.reconcileLocalPrediction
  rw [if_neg (by rw [hfixed.myPlayerId]; exact hme)]
  unfold View.baseTime View.unseenInputs
  rw [hfixed.latency, hfixed.pendingInputs, hfixed.targetX, hfixed.targetY, hfixed.moving]
  rfl

omit [Field K] [LinearOrder K] [IsStrictOrderedRing K] [Sqrt K] [LawfulSqrt K] [Power K] in
theorem mem_unseenInputs {ack : Int} {input : PendingInput K} (h : input ∈ s.unseenInputs ack) :
    input ∈ s.pendingInputs :=
  (List.mem_filter.mp h).1

omit [IsStrictOrderedRing K] [LawfulSqrt K] in
/-- The client after a frame. -/
theorem applyUpdate_follows (hs : Playing s) (hcells : View.Proper cells)
    (hme : s.myPlayerId ≠ 0) (receiveTime : K) (ack : Int) :
    Follows (replayDecay s.estimatedOneWayLatencySeconds receiveTime (s.baseTime receiveTime)
        (s.unseenInputs ack) (s.baseTime receiveTime)) (s.start cells)
        (s.applyUpdate cells receiveTime ack) ∧
      View.Fixed s (s.applyUpdate cells receiveTime ack) ∧
      Playing (s.applyUpdate cells receiveTime ack) := by
  obtain ⟨hwf, hfixed, -, -⟩ := View.start_spec hs.wf hcells hs.negative
  have hfollows := replay_follows s.estimatedOneWayLatencySeconds receiveTime
    (s.baseTime receiveTime) (s.unseenInputs ack) hwf (s.baseTime receiveTime)
    s.authoritativeTargetX s.authoritativeTargetY s.authoritativeMoving
  rw [← applyUpdate_eq hs hcells hme] at hfollows
  have hall := hfixed.trans hfollows.fixed
  refine ⟨hfollows, hall, hfollows.wf, hall.cellId.trans_lt hs.negative, ?_⟩
  intro input hi key hkey
  rw [hall.pendingInputs] at hi
  exact hs.fresh input hi key (hall.stableKey.trans hkey)

omit [IsStrictOrderedRing K] [LawfulSqrt K] in
/-- A cell of the server after a frame. -/
theorem viewOf_applyUpdate (hs : Playing s) (hcells : View.Proper cells)
    (hme : s.myPlayerId ≠ 0) (receiveTime : K) (ack : Int) {info : CellInfo K}
    (hinfo : info ∈ View.ownInfos cells s.myPlayerId) :
    (s.applyUpdate cells receiveTime ack).viewOf info.cellId ∈
        (s.applyUpdate cells receiveTime ack).owned ∧
      Stays (s.startCell info) ((s.applyUpdate cells receiveTime ack).viewOf info.cellId) ∧
      (remembered (s.applyUpdate cells receiveTime ack)).boost info.cellId =
        replayDecay s.estimatedOneWayLatencySeconds receiveTime (s.baseTime receiveTime)
          (s.unseenInputs ack) (s.baseTime receiveTime) ((remembered s).boost info.cellId) := by
  obtain ⟨hfollows, -, -⟩ := applyUpdate_follows hs hcells hme receiveTime ack
  have hstays := hfollows.cells
  rw [serverCells_start hs hcells, List.forall₂_map_left_iff] at hstays
  obtain ⟨w, hw, hstay, hboost⟩ := forall₂_right hstays.flip hinfo
  have hown := (List.mem_filter.mp hw).1
  have hid : w.cellId = info.cellId := hstay.cellId.trans (startCell_cellId s info)
  have hview := View.viewOf_eq hfollows.wf.nodup (View.mem_owned.mp hown).1
  rw [hid] at hview
  unfold remembered
  dsimp only
  rw [hview]
  exact ⟨hown, hstay, hboost⟩

omit [Field K] [LinearOrder K] [IsStrictOrderedRing K] [Sqrt K] [LawfulSqrt K] [Power K] in
/-- Taking over a cell twice is taking it over once. -/
theorem applyInfo_applyInfo (v : CellView K) {info : CellInfo K} (hinfo : 0 < info.cellId) :
    (v.applyInfo info false).applyInfo info false = v.applyInfo info false := by
  have hne : info.cellId ≠ 0 := by omega
  unfold CellView.applyInfo
  by_cases hzero : v.stableKey = 0 <;> simp [hzero, hne]

omit [IsStrictOrderedRing K] [LawfulSqrt K] in
/-- If the client does not know its player, it only takes over the list. -/
theorem unchanged_of_unknown (hs : Playing s) (hcells : View.Proper cells)
    (hme : s.myPlayerId = 0) (receiveTime : K) (ack : Int) :
    Unchanged (s.applyUpdate cells receiveTime ack)
      ((s.applyUpdate cells receiveTime ack).applyUpdate cells receiveTime ack) := by
  obtain ⟨hwf, hfixed, hnext, hmem⟩ := View.applyCellList_spec hs.wf hcells hs.negative
  have hfirst : s.applyUpdate cells receiveTime ack = s.applyCellList cells false :=
    if_pos (hfixed.myPlayerId.trans hme)
  obtain ⟨t, ht⟩ : ∃ t, t = s.applyCellList cells false := ⟨_, rfl⟩
  rw [hfirst]
  rw [← ht] at hwf hfixed hnext hmem ⊢
  have hneg : t.nextPredictedCellId < 0 := hnext ▸ hs.negative
  obtain ⟨-, hfixed', -, -⟩ := View.applyCellList_spec hwf hcells hneg
  have hsecond : t.applyUpdate cells receiveTime ack = t.applyCellList cells false :=
    if_pos (hfixed'.myPlayerId.trans (hfixed.myPlayerId.trans hme))
  have howned : t.owned = (View.ownInfos cells s.myPlayerId).map fun info =>
      (s.viewOf info.cellId).applyInfo info false := by
    rw [ht]
    exact View.applyCellList_owned hs.wf hcells hs.negative
  have howned' : (t.applyCellList cells false).owned = t.owned := by
    rw [View.applyCellList_owned hwf hcells hneg, howned, hfixed.myPlayerId]
    apply List.map_congr_left
    intro info hinfo
    obtain ⟨hview, -⟩ := (hmem _).mpr ⟨info, hinfo, rfl⟩
    have heq := View.viewOf_eq hwf.nodup hview
    have hid : ((s.viewOf info.cellId).applyInfo info false).cellId = info.cellId :=
      View.viewOf_cellId s info.cellId
    rw [hid] at heq
    rw [heq]
    exact applyInfo_applyInfo _ (hcells.positive info (View.mem_ownInfos.mp hinfo).1)
  rw [hsecond]
  refine ⟨?_, ?_⟩
  · rw [howned']
    exact List.forall₂_same.mpr fun v _ => ⟨rfl, rfl, fun _ => rfl, rfl, rfl, rfl, rfl, rfl⟩
  · have hspores : (t.applyCellList cells false).spores = t.spores :=
      (View.foldl_applyInfo false hcells.nodup hwf.nodup).2.2.1
    unfold predictedSpores
    rw [hspores]
    exact List.forall₂_same.mpr fun x _ => ⟨rfl, rfl, rfl, rfl, rfl, rfl⟩

omit [LawfulSqrt K] in
/-- A clean replay changes nothing when it is repeated. -/
theorem unchanged_of_clean (hs : Playing s) (hcells : View.Proper cells) {receiveTime : K}
    {ack : Int} (hclean : Clean s cells receiveTime ack) :
    Unchanged (s.applyUpdate cells receiveTime ack)
      ((s.applyUpdate cells receiveTime ack).applyUpdate cells receiveTime ack) := by
  by_cases hme : s.myPlayerId = 0
  · exact unchanged_of_unknown hs hcells hme receiveTime ack
  obtain ⟨hboosts, hreplay⟩ := hclean.resolve_left hme
  obtain ⟨hfollows, hfixed, hplaying⟩ := applyUpdate_follows hs hcells hme receiveTime ack
  have hview : ∀ info ∈ View.ownInfos cells s.myPlayerId, _ := fun _ hinfo =>
    viewOf_applyUpdate hs hcells hme receiveTime ack hinfo
  have hfirst := applyUpdate_eq hs hcells hme receiveTime ack
  obtain ⟨t, ht⟩ : ∃ t, t = s.applyUpdate cells receiveTime ack := ⟨_, rfl⟩
  rw [← ht] at hfollows hfixed hplaying hview hfirst ⊢
  have hme' : t.myPlayerId ≠ 0 := by
    rw [hfixed.myPlayerId]
    exact hme
  have hbase : t.baseTime receiveTime = s.baseTime receiveTime := by
    unfold View.baseTime
    rw [hfixed.latency]
  have hunseen : t.unseenInputs ack = s.unseenInputs ack := by
    unfold View.unseenInputs
    rw [hfixed.pendingInputs]
  have hsecond := applyUpdate_eq hplaying hcells hme' receiveTime ack
  rw [hfixed.latency, hbase, hunseen, hfixed.targetX, hfixed.targetY, hfixed.moving] at hsecond
  -- dead boosts stay dead in the first replay
  have hdead : receiveTime ≠ s.baseTime receiveTime →
      ∀ info ∈ View.ownInfos cells s.myPlayerId, Dead ((remembered s).boost info.cellId) := by
    intro hpasses info hinfo
    obtain ⟨-, -, howned, -⟩ := View.start_spec hs.wf hcells hs.negative
    have := hboosts.resolve_left hpasses (s.startCell info)
    rw [howned] at this
    exact this (List.mem_map_of_mem hinfo)
  have hself : Twin (remembered s) (remembered s) (receiveTime ≠ s.baseTime receiveTime)
      (s.unseenInputs ack) t t := by
    rw [hfirst]
    refine replay_twin _ _ _ (fun _ hi => hi) ?_ (fun _ => rfl) hreplay
    exact start_twin hs hs hcells rfl (fun i hi => ⟨mem_unseenInputs hi, mem_unseenInputs hi⟩)
      (fun _ _ => rfl) fun hpasses info hinfo =>
        ⟨hdead hpasses info hinfo, hdead hpasses info hinfo⟩
  have hdead' : receiveTime ≠ s.baseTime receiveTime →
      ∀ info ∈ View.ownInfos cells s.myPlayerId, Dead ((remembered t).boost info.cellId) := by
    intro hpasses info hinfo
    obtain ⟨hown, hstay, -⟩ := hview info hinfo
    have htwin := List.forall₂_same.mp hself.cells _ hown
    exact (htwin.dead hpasses hstay.isPredicted).1
  have hkeys : ∀ info ∈ View.ownInfos cells s.myPlayerId,
      (t.startCell info).stableKey = (s.startCell info).stableKey := by
    intro info hinfo
    obtain ⟨-, hstay, -⟩ := hview info hinfo
    have hne := startCell_stableKey (s := s) (hcells.positive info (View.mem_ownInfos.mp hinfo).1)
    change (if (t.viewOf info.cellId).stableKey = 0 then info.cellId
      else (t.viewOf info.cellId).stableKey) = _
    rw [hstay.stableKey, if_neg hne]
  have htwin : Twin (remembered s) (remembered t) (receiveTime ≠ s.baseTime receiveTime)
      (s.unseenInputs ack) t (t.applyUpdate cells receiveTime ack) := by
    rw [hsecond]
    nth_rewrite 2 [hfirst]
    refine replay_twin _ _ _ (fun _ hi => hi) ?_ (fun _ => rfl) hreplay
    refine start_twin hs hplaying hcells hfixed.myPlayerId (fun i hi => ⟨mem_unseenInputs hi, ?_⟩)
      hkeys fun hpasses info hinfo => ⟨hdead hpasses info hinfo, hdead' hpasses info hinfo⟩
    rw [hfixed.pendingInputs]
    exact mem_unseenInputs hi
  refine ⟨forall₂_imp_left htwin.cells fun v hv v' h => ?_, htwin.spores⟩
  -- what a cell has not taken from the replay it still remembers
  have hmemory : t.viewOf v.cellId = v :=
    View.viewOf_eq hfollows.wf.nodup (View.mem_owned.mp hv).1
  refine ⟨h.isPredicted, h.seq, fun hserver => (h.number hserver).1, h.x, h.y, h.size, ?_, ?_⟩
  · rcases h.boosts with hboost | ⟨-, -, hboost⟩
    · exact hboost
    · rw [hboost, remembered]
      dsimp only
      rw [hmemory]
  · rcases h.dirs with hdir | ⟨-, -, hdir⟩
    · exact hdir
    · rw [hdir, remembered]
      dsimp only
      rw [hmemory]

omit [LawfulSqrt K] in
/-- If nothing changes although time passes, the replay has left no boost. -/
theorem boosts_gone [ShrinkingPower K] (hs : Playing s) (hcells : View.Proper cells)
    (hme : s.myPlayerId ≠ 0) {receiveTime : K} {ack : Int}
    (hpasses : s.baseTime receiveTime < receiveTime)
    (h : Unchanged (s.applyUpdate cells receiveTime ack)
      ((s.applyUpdate cells receiveTime ack).applyUpdate cells receiveTime ack))
    {info : CellInfo K} (hinfo : info ∈ View.ownInfos cells s.myPlayerId) :
    replayDecay s.estimatedOneWayLatencySeconds receiveTime (s.baseTime receiveTime)
      (s.unseenInputs ack) (s.baseTime receiveTime) ((remembered s).boost info.cellId) =
        (0, 0) := by
  obtain ⟨hfollows, hfixed, hplaying⟩ := applyUpdate_follows hs hcells hme receiveTime ack
  obtain ⟨hown, hstay, hboost⟩ := viewOf_applyUpdate hs hcells hme receiveTime ack hinfo
  obtain ⟨t, ht⟩ : ∃ t, t = s.applyUpdate cells receiveTime ack := ⟨_, rfl⟩
  rw [← ht] at hfollows hfixed hplaying hown hstay hboost h
  have hme' : t.myPlayerId ≠ 0 := by
    rw [hfixed.myPlayerId]
    exact hme
  have hinfo' : info ∈ View.ownInfos cells t.myPlayerId := by
    rw [hfixed.myPlayerId]
    exact hinfo
  obtain ⟨hfollows', -, -⟩ := applyUpdate_follows hplaying hcells hme' receiveTime ack
  obtain ⟨-, -, hboost'⟩ := viewOf_applyUpdate hplaying hcells hme' receiveTime ack hinfo'
  -- the cell after the second frame is the one that belongs to the cell after the first
  obtain ⟨w, hw, hsame⟩ := forall₂_right h.cells.flip hown
  have hserver : (t.viewOf info.cellId).isPredicted = false := hstay.isPredicted
  have hid : w.cellId = info.cellId :=
    (hsame.number hserver).trans (View.viewOf_cellId t info.cellId)
  have hview := View.viewOf_eq hfollows'.wf.nodup (View.mem_owned.mp hw).1
  rw [hid] at hview
  have hfix : replayDecay t.estimatedOneWayLatencySeconds receiveTime (t.baseTime receiveTime)
      (t.unseenInputs ack) (t.baseTime receiveTime) ((remembered t).boost info.cellId) =
        (remembered t).boost info.cellId := by
    rw [← hboost', remembered, remembered]
    dsimp only
    rw [hview]
    exact hsame.boosts
  have hbase : t.baseTime receiveTime = s.baseTime receiveTime := by
    unfold View.baseTime
    rw [hfixed.latency]
  have hshrinks := replayDecay_shrinks t.estimatedOneWayLatencySeconds (t.baseTime receiveTime)
    (t.unseenInputs ack) (hbase ▸ hpasses) ((remembered t).boost info.cellId)
  rw [hfix] at hshrinks
  rw [← hboost]
  exact Prod.ext (hshrinks.1.resolve_right (lt_irrefl _)) (hshrinks.2.resolve_right (lt_irrefl _))

omit [LawfulSqrt K] in
/-- A frame that comes a second time, with the same time of arrival, changes nothing if its
replay is clean; and it changes something if time passes and a boost outlasts the replay. -/
theorem reconcile_again [ShrinkingPower K] (hs : Playing s) (hcells : View.Proper cells)
    (receiveTime : K) (ack : Int) :
    (Clean s cells receiveTime ack → Unchanged (s.applyUpdate cells receiveTime ack)
      ((s.applyUpdate cells receiveTime ack).applyUpdate cells receiveTime ack)) ∧
    (Unchanged (s.applyUpdate cells receiveTime ack)
        ((s.applyUpdate cells receiveTime ack).applyUpdate cells receiveTime ack) →
      s.myPlayerId = 0 ∨ receiveTime ≤ s.baseTime receiveTime ∨
        ∀ info ∈ View.ownInfos cells s.myPlayerId,
          replayDecay s.estimatedOneWayLatencySeconds receiveTime (s.baseTime receiveTime)
            (s.unseenInputs ack) (s.baseTime receiveTime) ((remembered s).boost info.cellId) =
              (0, 0)) := by
  refine ⟨fun hclean => unchanged_of_clean hs hcells hclean, fun h => ?_⟩
  by_cases hme : s.myPlayerId = 0
  · exact .inl hme
  · rcases le_or_gt receiveTime (s.baseTime receiveTime) with hstop | hpasses
    · exact .inr (.inl hstop)
    · exact .inr (.inr fun info hinfo => boosts_gone hs hcells hme hpasses h hinfo)

end Frames

/-! ## A cell with a boost -/

omit [IsStrictOrderedRing K] [LawfulSqrt K] in
/-- One own cell, and no input to repeat. -/
theorem applyUpdate_single {s : View K} {cells : List (CellInfo K)} {info : CellInfo K}
    (hs : Playing s) (hcells : View.Proper cells) (hme : s.myPlayerId ≠ 0)
    (hinfo : View.ownInfos cells s.myPlayerId = [info]) (hpending : s.pendingInputs = [])
    {receiveTime : K} (ack : Int) (hpasses : ¬ receiveTime - s.baseTime receiveTime ≤ 0) :
    (s.applyUpdate cells receiveTime ack).owned =
      [(s.startCell info).advance (receiveTime - s.baseTime receiveTime) s.authoritativeTargetX
        s.authoritativeTargetY s.authoritativeMoving] := by
  obtain ⟨hwf, -, howned, -⟩ := View.start_spec hs.wf hcells hs.negative
  have hunseen : s.unseenInputs ack = [] := by
    unfold View.unseenInputs
    rw [hpending]
    rfl
  rw [applyUpdate_eq hs hcells hme, hunseen, View.replay]
  refine (simulateSegment_eq hwf hpasses _ _ _).1.trans ?_
  rw [howned, hinfo]
  rfl

/-- A client with one cell that has a boost to the right, a tick away from the server. -/
noncomputable def boostedView (b : ℝ) : View ℝ :=
  { pairView 2 with
    cells := [{ looking 1 1 100 1 0 with boostVx := b }]
    estimatedOneWayLatencySeconds := 1 / 20 }

/-- The frame that names this cell. -/
noncomputable def boostedFrame : List (CellInfo ℝ) :=
  [⟨1, 7, 100, 100, 3, 0⟩]

theorem boostedFrame_proper : View.Proper boostedFrame :=
  ⟨by simp [boostedFrame], by simp [boostedFrame]⟩

theorem boostedView_playing (b : ℝ) : Playing (boostedView b) := by
  refine ⟨⟨?_, ?_, ?_, ?_, ?_⟩, ?_, ?_⟩ <;> simp [boostedView, pairView, looking]

theorem boostedFrame_infos : View.ownInfos boostedFrame 7 = [⟨1, 7, 100, 100, 3, 0⟩] := by
  simp [View.ownInfos, boostedFrame]

theorem boosted_baseTime {s : View ℝ} (h : s.estimatedOneWayLatencySeconds = 1 / 20) :
    s.baseTime 1 = 19 / 20 := by
  unfold View.baseTime
  rw [h]
  norm_num

/-- Without a boost the frame may come again. -/
theorem reconcile_again_still :
    Unchanged ((boostedView 0).applyUpdate boostedFrame 1 3)
      (((boostedView 0).applyUpdate boostedFrame 1 3).applyUpdate boostedFrame 1 3) := by
  have hplaying := boostedView_playing 0
  obtain ⟨-, -, howned, -⟩ :=
    View.start_spec hplaying.wf boostedFrame_proper hplaying.negative
  have hinfos : View.ownInfos boostedFrame (boostedView 0).myPlayerId =
      [⟨1, 7, 100, 100, 3, 0⟩] := boostedFrame_infos
  rw [hinfos] at howned
  refine (reconcile_again hplaying boostedFrame_proper 1 3).1
    (.inr ⟨.inr ?_, .inr (.inl ?_)⟩)
  · rw [howned]
    intro v hv
    obtain rfl := List.mem_singleton.mp hv
    have hboost : ((boostedView 0).viewOf 1).boostVx = 0 ∧
        ((boostedView 0).viewOf 1).boostVy = 0 := ⟨rfl, rfl⟩
    change Dead (((boostedView 0).viewOf 1).boostVx, ((boostedView 0).viewOf 1).boostVy)
    rw [hboost.1, hboost.2]
    norm_num [Dead, boostStopEpsilon]
  · rw [howned]
    rfl

theorem decay_live {b : ℝ} (hb : 1 ≤ b) : decay (1 / 20) (b, 0) = (b * (85 / 100), 0) := by
  have hticks : getServerTickUnits (1 / 20 : ℝ) = 1 := by
    norm_num [getServerTickUnits, serverTickSeconds]
  have hlive : ¬ (|b| < boostStopEpsilon ∧ |(0 : ℝ)| < boostStopEpsilon) := by
    rintro ⟨hsmall, -⟩
    rw [abs_of_nonneg (by linarith), boostStopEpsilon] at hsmall
    linarith
  have hkeep : ¬ |b * (85 / 100)| < boostStopEpsilon := by
    rw [abs_of_nonneg (by linarith), boostStopEpsilon]
    linarith
  unfold decay stopSmall
  rw [if_neg hlive, hticks, LawfulPower.pow_one, if_neg hkeep, zero_mul]
  norm_num

/-- A boost decays once more when the frame comes again. -/
theorem reconcile_differs :
    ¬ ∀ (s : View ℝ) (cells : List (CellInfo ℝ)) (receiveTime : ℝ) (ack : Int), Playing s →
      View.Proper cells → Unchanged (s.applyUpdate cells receiveTime ack)
        ((s.applyUpdate cells receiveTime ack).applyUpdate cells receiveTime ack) := by
  intro h
  have hplaying := boostedView_playing 10
  have hme : (boostedView 10).myPlayerId ≠ 0 := by decide
  obtain ⟨-, hfixed, hplaying'⟩ := applyUpdate_follows hplaying boostedFrame_proper hme 1 3
  have hinfos : View.ownInfos boostedFrame (boostedView 10).myPlayerId =
      [⟨1, 7, 100, 100, 3, 0⟩] := boostedFrame_infos
  obtain ⟨hown, -, -⟩ := viewOf_applyUpdate hplaying boostedFrame_proper hme 1 3
    (hinfos ▸ List.mem_singleton_self _)
  have hcells := (h (boostedView 10) boostedFrame 1 3 hplaying boostedFrame_proper).cells
  obtain ⟨t, ht⟩ : ∃ t, t = (boostedView 10).applyUpdate boostedFrame 1 3 := ⟨_, rfl⟩
  have hbase : (boostedView 10).baseTime 1 = 19 / 20 := boosted_baseTime rfl
  have hfirst : t.owned = _ := ht ▸ applyUpdate_single hplaying boostedFrame_proper hme
    boostedFrame_infos rfl 3 (by rw [hbase]; norm_num)
  rw [← ht] at hfixed hplaying' hown hcells
  have hbase' : t.baseTime 1 = 19 / 20 := boosted_baseTime hfixed.latency
  have hsecond := applyUpdate_single hplaying' boostedFrame_proper
    (by rw [hfixed.myPlayerId]; exact hme) (by rw [hfixed.myPlayerId]; exact boostedFrame_infos)
    hfixed.pendingInputs 3 (by rw [hbase']; norm_num)
  rw [hfirst, List.mem_singleton] at hown
  rw [hfirst, hsecond, List.forall₂_cons] at hcells
  have hboosts := hcells.1.boosts
  rw [advance_boosts, advance_boosts, hbase, hbase'] at hboosts
  have hdt : (1 : ℝ) - 19 / 20 = 1 / 20 := by norm_num
  have hstart : (((boostedView 10).startCell ⟨1, 7, 100, 100, 3, 0⟩).boostVx,
      ((boostedView 10).startCell ⟨1, 7, 100, 100, 3, 0⟩).boostVy) = ((10 : ℝ), 0) := rfl
  have hnext : ((t.startCell ⟨1, 7, 100, 100, 3, 0⟩).boostVx,
      (t.startCell ⟨1, 7, 100, 100, 3, 0⟩).boostVy) = ((10 : ℝ) * (85 / 100), 0) := by
    change ((t.viewOf 1).boostVx, (t.viewOf 1).boostVy) = _
    rw [hown, advance_boosts, hbase, hdt, hstart, decay_live (by norm_num)]
  rw [hstart, hnext, hdt, decay_live (by norm_num), decay_live (by norm_num)] at hboosts
  have := congrArg Prod.fst hboosts
  norm_num at this

end Predict

end BallServer.Ball
