import BallServer.Predict.View

/-!
# The cells of other players

The client draws the cells of other players a little in the past, between the states that it
was told.  It keeps the last eight of them, and a state replaces one of the same tick.

Main results:

- Definition {lit}`interpolate`: the line through some states.
- Theorem {lit}`trySample_eq`: what is drawn lies on the line through the states kept.
- Theorem {lit}`sample_arrivals`: and on the line through everything the client was ever told,
  from the oldest state kept on.
-/

namespace BallServer.Ball.Remote

/-- {lit}`RemoteCellState`. -/
structure RemoteCellState (K : Type) where
  tick : Int
  x : K
  y : K
  size : K
  protectedTimerTicks : K
deriving DecidableEq

variable {K : Type}

/-- What is drawn of a state. -/
def RemoteCellState.values (a : RemoteCellState K) : K × K × K × K :=
  (a.x, a.y, a.size, a.protectedTimerTicks)

/-- {lit}`REMOTE_MAX_BUFFER_STATES`. -/
def remoteMaxBufferStates : Nat := 8

/-- {lit}`BufferRemoteCellState`. -/
def bufferRemoteCellState (states : List (RemoteCellState K)) (state : RemoteCellState K) :
    List (RemoteCellState K) :=
  if states.getLast?.map (·.tick) = some state.tick then states.dropLast ++ [state]
  else (states ++ [state]).drop ((states ++ [state]).length - remoteMaxBufferStates)

section Sample

variable [Field K] [LinearOrder K]

/-- {lit}`Mathf.Lerp`. -/
def lerp (a b t : K) : K := a + (b - a) * clamp t 0 1

/-- The loop of {lit}`TrySampleRemoteCellState`, after a state. -/
def sampleFrom (latest : K × K × K × K) (renderTick : K) :
    RemoteCellState K → List (RemoteCellState K) → K × K × K × K
  | _, [] => latest
  | prev, next :: states =>
      if renderTick > next.tick then sampleFrom latest renderTick next states
      else
        let span := max (1 / 10000) ((next.tick - prev.tick : Int) : K)
        let t := clamp ((renderTick - prev.tick) / span) 0 1
        (lerp prev.x next.x t, lerp prev.y next.y t, lerp prev.size next.size t,
          lerp prev.protectedTimerTicks next.protectedTimerTicks t)

/-- {lit}`TrySampleRemoteCellState`. -/
def trySampleRemoteCellState (v : CellView K) (states : List (RemoteCellState K))
    (renderTick : K) : (K × K × K × K) × Bool :=
  match states with
  | [] => ((v.serverX, v.serverY, v.size, v.protectedTimerTicks), false)
  | first :: rest =>
      let last := (first :: rest).getLast (List.cons_ne_nil first rest)
      if rest.length = 0 ∨ renderTick ≤ first.tick then (first.values, true)
      else if renderTick ≥ last.tick then (last.values, true)
      else (sampleFrom last.values renderTick first rest, true)

/-! ## The line through some states -/

/-- A point between two values. -/
def between (a b : RemoteCellState K) (t : K) (u v : K) : K :=
  u + (v - u) * ((t - a.tick) / (b.tick - a.tick))

/-- The line through some states, in the order of their ticks; before the first and after the
last it is level. -/
def interpolate : RemoteCellState K → List (RemoteCellState K) → K → K × K × K × K
  | a, [], _ => a.values
  | a, b :: rest, t =>
      if t ≤ a.tick then a.values
      else if t ≤ b.tick then
        (between a b t a.x b.x, between a b t a.y b.y, between a b t a.size b.size,
          between a b t a.protectedTimerTicks b.protectedTimerTicks)
      else interpolate b rest t

/-- States in the order of their ticks. -/
def Ordered (states : List (RemoteCellState K)) : Prop :=
  states.Pairwise fun a b => a.tick < b.tick

variable [IsStrictOrderedRing K] {a b : RemoteCellState K} {rest : List (RemoteCellState K)} {t : K}

omit [IsStrictOrderedRing K] in
theorem interpolate_before (ht : t ≤ a.tick) : interpolate a rest t = a.values := by
  cases rest with
  | nil => rfl
  | cons b rest => exact if_pos ht

theorem between_end (hab : a.tick < b.tick) (u v : K) : between a b b.tick u v = v := by
  have hlt : (a.tick : K) < b.tick := Int.cast_lt.mpr hab
  unfold between
  rw [div_self (sub_ne_zero.mpr hlt.ne'), mul_one, add_sub_cancel]

/-- From its second state on the first one does not matter. -/
theorem interpolate_cons (hab : a.tick < b.tick) (ht : (b.tick : K) ≤ t) :
    interpolate a (b :: rest) t = interpolate b rest t := by
  have hlt : (a.tick : K) < b.tick := Int.cast_lt.mpr hab
  rw [interpolate, if_neg (not_le.mpr (hlt.trans_le ht))]
  split
  · rename_i hle
    obtain rfl := le_antisymm hle ht
    rw [interpolate_before le_rfl]
    simp only [between_end hab]
    rfl
  · rfl

/-- The oldest states do not matter for what comes after them. -/
theorem interpolate_suffix {h₀ first : RemoteCellState K} {hs : List (RemoteCellState K)}
    (hordered : Ordered (h₀ :: hs)) (hsuffix : first :: rest <:+ h₀ :: hs)
    (ht : (first.tick : K) ≤ t) : interpolate h₀ hs t = interpolate first rest t := by
  induction hs generalizing h₀ with
  | nil =>
      rcases List.suffix_cons_iff.mp hsuffix with heq | hnil
      · obtain ⟨rfl, rfl⟩ := List.cons.inj heq
        rfl
      · exact absurd (List.suffix_nil.mp hnil) (List.cons_ne_nil _ _)
  | cons b hs ih =>
      rcases List.suffix_cons_iff.mp hsuffix with heq | htail
      · obtain ⟨rfl, rfl⟩ := List.cons.inj heq
        rfl
      · obtain ⟨hfirst, htailOrdered⟩ := List.pairwise_cons.mp hordered
        have hmem : first ∈ b :: hs := htail.subset List.mem_cons_self
        have hle : b.tick ≤ first.tick := by
          rcases List.mem_cons.mp hmem with rfl | hin
          · exact le_rfl
          · exact ((List.pairwise_cons.mp htailOrdered).1 first hin).le
        have hle' : (b.tick : K) ≤ first.tick := Int.cast_le.mpr hle
        rw [interpolate_cons (hfirst b List.mem_cons_self) (hle'.trans ht)]
        exact ih htailOrdered htail

/-- After the last state the line is level. -/
theorem interpolate_after (hordered : Ordered (a :: rest))
    (ht : (((a :: rest).getLast (List.cons_ne_nil a rest)).tick : K) ≤ t) :
    interpolate a rest t = ((a :: rest).getLast (List.cons_ne_nil a rest)).values := by
  have hsuffix : [(a :: rest).getLast (List.cons_ne_nil a rest)] <:+ a :: rest :=
    ⟨_, List.dropLast_append_getLast _⟩
  exact interpolate_suffix hordered hsuffix ht

/-! ## What is drawn -/

omit [IsStrictOrderedRing K] in
theorem clamp_unit {x : K} (h₀ : 0 ≤ x) (h₁ : x ≤ 1) : clamp x 0 1 = x := by
  unfold clamp
  rw [if_neg (not_lt.mpr h₀), if_neg (not_lt.mpr h₁)]

/-- Between two states the loop draws a point between them. -/
theorem lerp_eq (hab : a.tick < b.tick) (ht : (a.tick : K) ≤ t) (ht' : t ≤ b.tick) (u v : K) :
    lerp u v (clamp ((t - a.tick) / max (1 / 10000) ((b.tick - a.tick : Int) : K)) 0 1) =
      between a b t u v := by
  have hspan : (1 : K) ≤ ((b.tick - a.tick : Int) : K) := by
    have hone : (1 : Int) ≤ b.tick - a.tick := by omega
    exact_mod_cast hone
  have hmax : max (1 / 10000) ((b.tick - a.tick : Int) : K) = b.tick - a.tick := by
    rw [max_eq_right (le_trans (by norm_num) hspan), Int.cast_sub]
  have hpos : (0 : K) < b.tick - a.tick := by
    rw [← Int.cast_sub]
    linarith
  have hratio : 0 ≤ (t - a.tick) / (b.tick - a.tick : K) := div_nonneg (by linarith) hpos.le
  have hratio' : (t - a.tick) / (b.tick - a.tick : K) ≤ 1 := (div_le_one hpos).mpr (by linarith)
  unfold lerp between
  rw [hmax, clamp_unit hratio hratio', clamp_unit hratio hratio']

theorem sampleFrom_eq (latest : K × K × K × K) (hordered : Ordered (a :: rest))
    (ht : (a.tick : K) < t)
    (hlast : t < ((a :: rest).getLast (List.cons_ne_nil a rest)).tick) :
    sampleFrom latest t a rest = interpolate a rest t := by
  induction rest generalizing a with
  | nil => exact absurd hlast (not_lt.mpr ht.le)
  | cons b rest ih =>
      obtain ⟨hfirst, htail⟩ := List.pairwise_cons.mp hordered
      have hab := hfirst b List.mem_cons_self
      rw [sampleFrom, interpolate, if_neg (not_le.mpr ht)]
      by_cases hb : t ≤ b.tick
      · rw [if_neg (not_lt.mpr hb), if_pos hb]
        simp only [lerp_eq hab ht.le hb]
      · rw [if_pos (not_le.mp hb), if_neg hb]
        exact ih htail (not_le.mp hb) hlast

/-- What is drawn lies on the line through the states. -/
theorem trySample_eq (v : CellView K) (hordered : Ordered (a :: rest)) (t : K) :
    trySampleRemoteCellState v (a :: rest) t = (interpolate a rest t, true) := by
  unfold trySampleRemoteCellState
  dsimp only
  split
  · rename_i hfirst
    rcases hfirst with hnone | hbefore
    · rw [List.length_eq_zero_iff.mp hnone]
      rfl
    · rw [interpolate_before hbefore]
  · rename_i hfirst
    obtain ⟨-, hafter⟩ := not_or.mp hfirst
    split
    · rename_i hlast
      rw [interpolate_after hordered hlast]
    · rename_i hlast
      rw [sampleFrom_eq _ hordered (not_le.mp hafter) (not_le.mp hlast)]

end Sample

/-! ## What is kept -/

/-- A state that replaces one of the same tick, where nothing is forgotten. -/
def record (history : List (RemoteCellState K)) (state : RemoteCellState K) :
    List (RemoteCellState K) :=
  if history.getLast?.map (·.tick) = some state.tick then history.dropLast ++ [state]
  else history ++ [state]

/-- The last eight states are kept. -/
theorem buffer_drop (history : List (RemoteCellState K)) (state : RemoteCellState K) :
    bufferRemoteCellState (history.drop (history.length - remoteMaxBufferStates)) state =
      (record history state).drop ((record history state).length - remoteMaxBufferStates) := by
  rcases List.eq_nil_or_concat' history with rfl | ⟨older, last, rfl⟩
  · rfl
  · have hlast : ((older ++ [last]).drop ((older ++ [last]).length -
        remoteMaxBufferStates)).getLast? = some last := by
      rw [List.getLast?_drop, if_neg, List.getLast?_concat]
      simp only [List.length_append, List.length_singleton, remoteMaxBufferStates]
      omega
    have hdrop : (older ++ [last]).drop ((older ++ [last]).length - remoteMaxBufferStates) =
        older.drop ((older ++ [last]).length - remoteMaxBufferStates) ++ [last] := by
      apply List.drop_append_of_le_length
      simp only [List.length_append, List.length_singleton, remoteMaxBufferStates]
      omega
    unfold bufferRemoteCellState record
    rw [hlast, List.getLast?_concat, Option.map_some]
    by_cases hsame : last.tick = state.tick
    · rw [if_pos (congrArg some hsame), if_pos (congrArg some hsame), hdrop, List.dropLast_concat,
        List.dropLast_concat, List.drop_append_of_le_length]
      · simp only [List.length_append, List.length_singleton]
      · simp only [List.length_append, List.length_singleton, remoteMaxBufferStates]
        omega
    · rw [if_neg fun h => hsame (Option.some.inj h), if_neg fun h => hsame (Option.some.inj h)]
      generalize older ++ [last] = history
      rw [← List.drop_append_of_le_length (by omega), List.drop_drop]
      congr 1
      simp only [List.length_append, List.length_drop, List.length_singleton,
        remoteMaxBufferStates]
      omega

theorem record_ordered {history : List (RemoteCellState K)} {state : RemoteCellState K}
    (h : Ordered history) (hlater : ∀ a ∈ history, a.tick ≤ state.tick) :
    Ordered (record history state) := by
  unfold record
  split
  · rename_i hsame
    rcases List.eq_nil_or_concat' history with rfl | ⟨older, last, rfl⟩
    · cases hsame
    · rw [List.getLast?_concat] at hsame
      have hsame : last.tick = state.tick := Option.some.inj hsame
      obtain ⟨holder, -, hbelow⟩ := List.pairwise_append.mp h
      rw [List.dropLast_concat]
      refine List.pairwise_append.mpr ⟨holder, List.pairwise_singleton _ _, fun a ha b hb => ?_⟩
      obtain rfl := List.mem_singleton.mp hb
      rw [← hsame]
      exact hbelow a ha last (List.mem_singleton_self last)
  · rename_i hother
    refine List.pairwise_append.mpr ⟨h, List.pairwise_singleton _ _, fun a ha b hb => ?_⟩
    obtain rfl := List.mem_singleton.mp hb
    rcases List.eq_nil_or_concat' history with rfl | ⟨older, last, rfl⟩
    · cases ha
    · rw [List.getLast?_concat] at hother
      have hne : last.tick ≠ b.tick := fun heq => hother (congrArg some heq)
      have hlast := hlater last (List.mem_append_right _ (List.mem_singleton_self last))
      rcases List.mem_append.mp ha with hin | hin
      · have hlt := (List.pairwise_append.mp h).2.2 a hin last (List.mem_singleton_self last)
        omega
      · obtain rfl := List.mem_singleton.mp hin
        omega

theorem mem_record {history : List (RemoteCellState K)} {state a : RemoteCellState K}
    (ha : a ∈ record history state) : a ∈ history ∨ a = state := by
  unfold record at ha
  split at ha
  · rcases List.mem_append.mp ha with hin | hin
    · exact .inl (List.mem_of_mem_dropLast hin)
    · exact .inr (List.mem_singleton.mp hin)
  · rcases List.mem_append.mp ha with hin | hin
    · exact .inl hin
    · exact .inr (List.mem_singleton.mp hin)

/-- What the client keeps of the states it was told. -/
def buffered (l : List (RemoteCellState K)) : List (RemoteCellState K) :=
  l.foldl bufferRemoteCellState []

/-- Everything the client was told. -/
def recorded (l : List (RemoteCellState K)) : List (RemoteCellState K) := l.foldl record []

theorem buffered_concat (l : List (RemoteCellState K)) (state : RemoteCellState K) :
    buffered (l ++ [state]) = bufferRemoteCellState (buffered l) state := List.foldl_concat ..

theorem recorded_concat (l : List (RemoteCellState K)) (state : RemoteCellState K) :
    recorded (l ++ [state]) = record (recorded l) state := List.foldl_concat ..

/-- The client keeps the last eight states. -/
theorem buffered_eq (l : List (RemoteCellState K)) :
    buffered l = (recorded l).drop ((recorded l).length - remoteMaxBufferStates) := by
  induction l using List.reverseRecOn with
  | nil => rfl
  | append_singleton l state ih =>
      rw [buffered_concat, recorded_concat, ih]
      exact buffer_drop _ _

theorem recorded_ordered {l : List (RemoteCellState K)}
    (h : l.Pairwise fun a b => a.tick ≤ b.tick) :
    Ordered (recorded l) ∧ ∀ a ∈ recorded l, a ∈ l := by
  induction l using List.reverseRecOn with
  | nil => exact ⟨List.Pairwise.nil, fun a ha => ha⟩
  | append_singleton l state ih =>
      obtain ⟨hl, -, hlater⟩ := List.pairwise_append.mp h
      obtain ⟨hordered, hmem⟩ := ih hl
      rw [recorded_concat]
      refine ⟨record_ordered hordered fun a ha =>
        hlater a (hmem a ha) state (List.mem_singleton_self state), fun a ha => ?_⟩
      rcases mem_record ha with hin | rfl
      · exact List.mem_append_left _ (hmem a hin)
      · exact List.mem_append_right _ (List.mem_singleton_self _)

theorem recorded_ne_nil {l : List (RemoteCellState K)} (h : l ≠ []) : recorded l ≠ [] := by
  rcases List.eq_nil_or_concat' l with rfl | ⟨older, last, rfl⟩
  · exact absurd rfl h
  · rw [recorded_concat]
    unfold record
    split <;> simp

variable [Field K] [LinearOrder K] [IsStrictOrderedRing K]

/-- As long as the ticks of the messages do not decrease, the client draws a cell where the line
through everything it was told is, from the oldest state that it keeps on, and in this state
before that. -/
theorem sample_arrivals {l : List (RemoteCellState K)} (hne : l ≠ [])
    (hl : l.Pairwise fun a b => a.tick ≤ b.tick) :
    ∃ first rest h₀ hs, buffered l = first :: rest ∧ recorded l = h₀ :: hs ∧
      buffered l = (recorded l).drop ((recorded l).length - remoteMaxBufferStates) ∧
      Ordered (recorded l) ∧ ∀ (v : CellView K) (t : K),
        (first.tick ≤ t → trySampleRemoteCellState v (buffered l) t = (interpolate h₀ hs t, true)) ∧
        (t ≤ first.tick → trySampleRemoteCellState v (buffered l) t = (first.values, true)) := by
  have hkept := buffered_eq l
  have hordered := (recorded_ordered hl).1
  obtain ⟨h₀, hs, hhistory⟩ := List.exists_cons_of_ne_nil (recorded_ne_nil hne)
  have hsuffix : buffered l <:+ recorded l := by
    rw [hkept]
    exact List.drop_suffix _ _
  have hsome : buffered l ≠ [] := by
    rw [hkept]
    intro hnil
    have hle := List.drop_eq_nil_iff.mp hnil
    rw [hhistory, List.length_cons, remoteMaxBufferStates] at hle
    omega
  obtain ⟨first, rest, hstates⟩ := List.exists_cons_of_ne_nil hsome
  refine ⟨first, rest, h₀, hs, hstates, hhistory, hkept, hordered, fun v t => ?_⟩
  rw [hstates, hhistory] at hsuffix
  rw [hhistory] at hordered
  have hdrawn := trySample_eq v (hordered.sublist hsuffix.sublist) t
  rw [hstates, hdrawn]
  exact ⟨fun ht => by rw [interpolate_suffix hordered hsuffix ht],
    fun ht => by rw [interpolate_before ht]⟩

end BallServer.Ball.Remote
