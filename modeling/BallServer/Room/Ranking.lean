import BallServer.Room.Program
import Mathlib.Algebra.Order.Floor.Ring
import Mathlib.Data.Rat.Floor
import Mathlib.Data.Set.Function

/-!
# Ranks and rewards

At the end of a game the room asks the scene for the weights, sorts its players and numbers
them.  The rank decides the score, the coins and the experience of a player.

Main results:

- Theorem {lit}`assignRanks_obj`: the rank of a player is its place in the sorted array.
- Theorem {lit}`scores_twice`: the sum of the scores of the first ranks.
- Theorem {lit}`build_rank_list_lawful`: the ranks and what they are worth.
-/

namespace BallServer.RoomService

open Room

/-- {lit}`build_rank_list` after the scene has answered; {lit}`none` if the loop over the
weights raises. -/
def rankWeighed (r : Room) (arr : List Nat) (stats : List (Nat × Int)) :
    Option (Room × List Nat) :=
  match storeWeights r stats with
  | (_, false) => none
  | (r, true) =>
      let settled := arr.insertionSort fun a b => rankBefore r a b = true
      some (assignRanks r 1 settled, settled)

/-- {lit}`build_rank_list`: {lit}`arr` lists the players in the order of {lit}`pairs`.
There is no table if the call of {lit}`get_weight` fails. -/
def buildRankList (r : Room) (arr : List Nat) (stats : Option (List (Nat × ℚ))) :
    Option (Room × List Nat) :=
  rankWeighed (r.modifyAll (settleAlive r.now)) arr
    ((stats.getD []).map fun v => (v.1, ⌊v.2⌋))

/-- What the service does with the answer of the scene. -/
theorem finishWeighed_eq_rankWeighed (s : Sys) (arr : List Nat) (stats : List (Nat × Int)) :
    finishWeighed s arr stats =
      match rankWeighed s.room arr stats with
      | none => raise (s.withRoom (storeWeights s.room stats).1)
      | some (r, settled) => settleEach (s.withRoom r) settled.length settled := by
  unfold finishWeighed rankWeighed
  cases h : storeWeights s.room stats with
  | mk r ok => cases ok <;> rfl

/-! ## Weights -/

/-- The weight of a player after the loop over the table. -/
def weightAfter (stats : List (Nat × Int)) (p : Nat) (w : Int) : Int :=
  stats.foldl (fun w v => if v.1 = p then v.2 else w) w

theorem storeWeights_spec {r : Room} {stats : List (Nat × Int)}
    (hids : ∀ v ∈ stats, v.1 ∈ r.players) :
    ∃ r', storeWeights r stats = (r', true) ∧ r'.players = r.players ∧
      ∀ p, r'.obj p =
        { r.obj p with weightScore := weightAfter stats p (r.obj p).weightScore } := by
  induction stats generalizing r with
  | nil => exact ⟨r, rfl, rfl, fun p => rfl⟩
  | cons v stats ih =>
      obtain ⟨q, w⟩ := v
      have hq : q ∈ r.players := hids (q, w) List.mem_cons_self
      obtain ⟨r', hr', hplayers, hobj⟩ :=
        ih (r := r.modify q fun o => { o with weightScore := w })
          fun v hv => hids v (List.mem_cons_of_mem _ hv)
      refine ⟨r', by rw [storeWeights, if_pos hq, hr'], hplayers, ?_⟩
      intro p
      rw [hobj p]
      by_cases hp : p = q
      · subst hp
        simp [Room.modify, weightAfter]
      · simp [Room.modify, weightAfter, hp, Ne.symm hp]

/-! ## The order of the players -/

section Order

variable (r : Room)

theorem rankBefore_iff (a b : Nat) :
    rankBefore r a b = true ↔
      (r.obj b).weightScore < (r.obj a).weightScore ∨
        (r.obj a).weightScore = (r.obj b).weightScore ∧ a ≤ b := by
  unfold rankBefore
  split_ifs with h <;> simp only [decide_eq_true_eq] <;> omega

theorem rankBefore_total (a b : Nat) : rankBefore r a b = true ∨ rankBefore r b a = true := by
  simp only [rankBefore_iff]
  omega

theorem rankBefore_trans {a b c : Nat} (hab : rankBefore r a b = true)
    (hbc : rankBefore r b c = true) : rankBefore r a c = true := by
  simp only [rankBefore_iff] at *
  omega

theorem rankBefore_antisymm {a b : Nat} (hab : rankBefore r a b = true)
    (hba : rankBefore r b a = true) : a = b := by
  simp only [rankBefore_iff] at *
  omega

/-- The sorted array of the players. -/
def settledOf (arr : List Nat) : List Nat :=
  arr.insertionSort fun a b => rankBefore r a b = true

theorem settledOf_perm (arr : List Nat) : (settledOf r arr).Perm arr :=
  List.perm_insertionSort _ arr

theorem settledOf_pairwise (arr : List Nat) :
    (settledOf r arr).Pairwise fun a b => rankBefore r a b = true := by
  have : Std.Total fun a b => rankBefore r a b = true := ⟨rankBefore_total r⟩
  have : IsTrans Nat fun a b => rankBefore r a b = true := ⟨fun _ _ _ => rankBefore_trans r⟩
  exact List.pairwise_insertionSort _ arr

/-- Sorting forgets the order of {lit}`pairs`. -/
theorem settledOf_eq_of_perm {arr arr' : List Nat} (h : arr.Perm arr') :
    settledOf r arr = settledOf r arr' := by
  have hperm := (settledOf_perm r arr).trans (h.trans (settledOf_perm r arr').symm)
  exact hperm.eq_of_pairwise (fun a b _ _ => rankBefore_antisymm r)
    (settledOf_pairwise r arr) (settledOf_pairwise r arr')

end Order

/-! ## Ranks -/

/-- The rank of a player is its place in the array. -/
theorem assignRanks_obj (r : Room) (i : Nat) {l : List Nat} (hl : l.Nodup) (p : Nat) :
    (assignRanks r i l).obj p =
      if p ∈ l then { r.obj p with rank := i + l.idxOf p } else r.obj p := by
  induction l generalizing r i with
  | nil => simp [assignRanks]
  | cons q l ih =>
      obtain ⟨hq, hl⟩ := List.nodup_cons.mp hl
      rw [assignRanks, ih _ _ hl]
      by_cases hp : p = q
      · subst hp
        simp [hq, Room.modify]
      · have hne : q ≠ p := Ne.symm hp
        by_cases hmem : p ∈ l
        · simp [hmem, Room.modify, hp, List.idxOf_cons_ne _ hne]
          omega
        · simp [hmem, Room.modify, hp]

/-- In a sorted array a player stands before another one exactly if it
is to be ranked before it. -/
theorem idxOf_lt_iff {r : Room} {l : List Nat}
    (hsorted : l.Pairwise fun a b => rankBefore r a b = true) {p q : Nat}
    (hp : p ∈ l) (hq : q ∈ l) :
    l.idxOf p < l.idxOf q ↔ p ≠ q ∧ rankBefore r p q = true := by
  have hbefore : ∀ {x y}, x ∈ l → y ∈ l → l.idxOf x < l.idxOf y → rankBefore r x y = true := by
    intro x y hx hy hlt
    have h := List.pairwise_iff_getElem.mp hsorted (l.idxOf x) (l.idxOf y)
      (List.idxOf_lt_length_of_mem hx) (List.idxOf_lt_length_of_mem hy) hlt
    rwa [List.getElem_idxOf, List.getElem_idxOf] at h
  constructor
  · intro hlt
    refine ⟨?_, hbefore hp hq hlt⟩
    rintro rfl
    exact lt_irrefl _ hlt
  · rintro ⟨hne, hpq⟩
    rcases lt_trichotomy (l.idxOf p) (l.idxOf q) with hlt | heq | hgt
    · exact hlt
    · exact absurd ((List.idxOf_inj hp).mp heq) hne
    · exact absurd (rankBefore_antisymm r hpq (hbefore hq hp hgt)) hne

/-! ## Rewards -/

/-- {lit}`math.ceil(total_player / 2)`. -/
theorem ceil_half (n : Nat) : ⌈(n : ℚ) / 2⌉ = ((n : Int) + 1) / 2 := by
  rw [Int.ceil_eq_iff]
  obtain ⟨m, rfl | rfl⟩ := n.even_or_odd' 
  · have h : ((2 * m : Nat) + 1 : Int) / 2 = m := by omega
    rw [h]
    push_cast
    constructor <;> linarith
  · have h : ((2 * m + 1 : Nat) + 1 : Int) / 2 = m + 1 := by omega
    rw [h]
    push_cast
    constructor <;> linarith

/-- A better rank gets more of everything. -/
theorem calcReward_strict {n i j : Nat} (hi : 1 ≤ i) (hij : i < j) (hj : j ≤ n) :
    (calcReward n j).1 < (calcReward n i).1 ∧
      (calcReward n j).2.1 < (calcReward n i).2.1 ∧
        (calcReward n j).2.2 < (calcReward n i).2.2 := by
  unfold calcReward
  rw [if_neg (by omega), if_neg (by omega)]
  dsimp only
  refine ⟨?_, ?_, ?_⟩
  · split_ifs <;> omega
  · omega
  · omega

/-- The first half wins and the second half loses. -/
theorem calcReward_sign {n i : Nat} (hi : 1 ≤ i) :
    ((i : Int) ≤ ((n : Int) + 1) / 2 → 0 < (calcReward n i).1) ∧
      (((n : Int) + 1) / 2 < (i : Int) → (calcReward n i).1 < 0) := by
  unfold calcReward
  rw [if_neg (by omega)]
  dsimp only
  constructor
  · intro h
    rw [if_neg (by omega)]
    omega
  · intro h
    rw [if_pos h]
    omega

/-- The scores of the ranks from {lit}`i` on, {lit}`k` of them. -/
def scores (n : Nat) : Nat → Nat → Int
  | _, 0 => 0
  | i, k + 1 => (calcReward n i).1 + scores n (i + 1) k

theorem scores_concat (n i k : Nat) :
    scores n i (k + 1) = scores n i k + (calcReward n (i + k)).1 := by
  induction k generalizing i with
  | zero => simp [scores]
  | succ k ih =>
      rw [scores, ih (i + 1), scores, show i + 1 + k = i + (k + 1) by omega]
      omega

/-- Twice the sum of the scores of the first ranks: it grows up to the middle and falls
after it. -/
theorem scores_twice (n w k : Nat) (hw : ((n : Int) + 1) / 2 = w) :
    2 * scores n 1 k =
      if k ≤ w then 10 * ((k : Int) * (2 * w - k + 1))
      else 10 * ((w : Int) * (w + 1) - (k - w) * (k - w + 1)) := by
  induction k with
  | zero => simp [scores]
  | succ k ih =>
      have hreward : (calcReward n (1 + k)).1 =
          if (w : Int) < (1 + k : Nat) then -((1 + k : Nat) - (w : Int)) * 10
          else ((w : Int) - (1 + k : Nat) + 1) * 10 := by
        unfold calcReward
        rw [if_neg (by omega), hw]
      rw [scores_concat, mul_add, ih, hreward]
      rcases lt_trichotomy k w with hlt | rfl | hgt
      · rw [if_pos hlt.le, if_neg (by omega), if_pos (by omega)]
        push_cast
        ring
      · rw [if_pos le_rfl, if_pos (by omega), if_neg (by omega)]
        push_cast
        ring
      · rw [if_neg (by omega), if_pos (by omega), if_neg (by omega)]
        push_cast
        ring

theorem scores_even {n : Nat} (h : Even n) : scores n 1 n = 0 := by
  obtain ⟨m, rfl⟩ := h
  have hsum := scores_twice (m + m) m (m + m) (by omega)
  by_cases hm : m = 0
  · subst hm
    rfl
  · rw [if_neg (by omega)] at hsum
    have hzero : 2 * scores (m + m) 1 (m + m) = 0 := by
      rw [hsum]
      push_cast
      ring
    omega

theorem scores_odd {n : Nat} (h : Odd n) : scores n 1 n = 10 * (((n : Int) + 1) / 2) := by
  obtain ⟨m, rfl⟩ := h
  have hw : (((2 * m + 1 : Nat) : Int) + 1) / 2 = (m + 1 : Nat) := by omega
  have hsum := scores_twice (2 * m + 1) (m + 1) (2 * m + 1) hw
  rw [hw]
  by_cases hm : m = 0
  · subst hm
    decide
  · rw [if_neg (by omega)] at hsum
    push_cast at hsum ⊢
    ring_nf at hsum ⊢
    omega

/-- The sum of the scores over the players of an array that has been numbered. -/
theorem scores_settled (n i : Nat) (l : List Nat) (rank : Nat → Nat)
    (hrank : ∀ j, (hj : j < l.length) → rank l[j] = i + j) :
    l.foldr (fun p t => (calcReward n (rank p)).1 + t) 0 = scores n i l.length := by
  induction l generalizing i with
  | nil => rfl
  | cons p l ih =>
      have hp : rank p = i := hrank 0 (by simp)
      have hrest : ∀ j, (hj : j < l.length) → rank l[j] = i + 1 + j := by
        intro j hj
        have := hrank (j + 1) (by simpa using hj)
        simp only [List.getElem_cons_succ] at this
        omega
      rw [List.foldr_cons, ih (i + 1) hrest, hp]
      rfl

theorem foldr_perm {l l' : List Nat} (h : l.Perm l') (f : Nat → Int) :
    l.foldr (fun p t => f p + t) 0 = l'.foldr (fun p t => f p + t) 0 := by
  induction h with
  | nil => rfl
  | cons x _ ih => simp [ih]
  | swap x y l =>
      simp only [List.foldr_cons]
      omega
  | trans _ _ ih ih' => exact ih.trans ih'

/-- {lit}`build_rank_list` without an error, its sorted array and its ranks. -/
theorem buildRankList_spec {r : Room} {stats : Option (List (Nat × ℚ))}
    (hnodup : r.players.Nodup) (hids : ∀ v ∈ stats.getD [], v.1 ∈ r.players) :
    ∃ r' settled, (∀ arr, arr.Perm r.players →
        buildRankList r arr stats = some (r', settled)) ∧
      settled.Perm r.players ∧
      (settled.Pairwise fun a b => rankBefore r' a b = true) ∧
      ∀ p ∈ r.players, (r'.obj p).rank = settled.idxOf p + 1 ∧
        (r'.obj p).weightScore =
          weightAfter ((stats.getD []).map fun v => (v.1, ⌊v.2⌋)) p (r.obj p).weightScore := by
  have hids' : ∀ v ∈ (stats.getD []).map (fun v => (v.1, ⌊v.2⌋)),
      v.1 ∈ (r.modifyAll (settleAlive r.now)).players := by
    intro v hv
    obtain ⟨u, hu, rfl⟩ := List.mem_map.mp hv
    exact hids u hu
  obtain ⟨r₁, hr₁, hplayers, hobj⟩ := storeWeights_spec hids'
  have hperm : (settledOf r₁ r.players).Perm r.players := settledOf_perm r₁ _
  have hsettled : (settledOf r₁ r.players).Nodup := hperm.nodup_iff.mpr hnodup
  have hweight : ∀ p, ((assignRanks r₁ 1 (settledOf r₁ r.players)).obj p).weightScore =
      (r₁.obj p).weightScore := by
    intro p
    rw [assignRanks_obj _ _ hsettled]
    split_ifs <;> rfl
  have hbefore : ∀ a b, rankBefore (assignRanks r₁ 1 (settledOf r₁ r.players)) a b =
      rankBefore r₁ a b := by
    intro a b
    simp only [rankBefore, hweight]
  refine ⟨assignRanks r₁ 1 (settledOf r₁ r.players), settledOf r₁ r.players, ?_, hperm, ?_, ?_⟩
  · intro arr harr
    have hsame := settledOf_eq_of_perm r₁ harr
    simp only [buildRankList, rankWeighed, hr₁]
    rw [← hsame]
    rfl
  · exact (settledOf_pairwise r₁ _).imp fun h => (hbefore _ _).trans h
  · intro p hp
    constructor
    · rw [assignRanks_obj _ _ hsettled, if_pos (hperm.mem_iff.mpr hp)]
      exact Nat.add_comm _ _
    · rw [hweight, hobj]
      simp only [Room.modifyAll, if_pos hp]
      congr 1
      unfold settleAlive
      split_ifs <;> rfl

/-- The ranks of a room are the numbers from 1 on, by weight and then by number, whatever
the order of {lit}`pairs`; a better rank is worth more, the first half wins, and the scores
add up to what the middle of an odd room gets. -/
theorem build_rank_list_lawful (r : Room) (stats : Option (List (Nat × ℚ)))
    (hnodup : r.players.Nodup)
    (hids : ∀ v ∈ stats.getD [], v.1 ∈ r.players) :
    ∃ r' settled,
      (∀ arr, arr.Perm r.players → buildRankList r arr stats = some (r', settled)) ∧
      settled.Perm r.players ∧
      (∀ p ∈ r.players, (r'.obj p).weightScore =
        weightAfter ((stats.getD []).map fun v => (v.1, ⌊v.2⌋)) p (r.obj p).weightScore) ∧
      Set.BijOn (fun p => (r'.obj p).rank) {p | p ∈ r.players}
        (Set.Icc 1 r.players.length) ∧
      (∀ p ∈ r.players, ∀ q ∈ r.players, (r'.obj p).rank < (r'.obj q).rank ↔
        (r'.obj q).weightScore < (r'.obj p).weightScore ∨
          (r'.obj p).weightScore = (r'.obj q).weightScore ∧ p < q) ∧
      (∀ p ∈ r.players, ∀ q ∈ r.players, (r'.obj p).rank < (r'.obj q).rank →
        (calcReward settled.length (r'.obj q).rank).1 <
            (calcReward settled.length (r'.obj p).rank).1 ∧
          (calcReward settled.length (r'.obj q).rank).2.1 <
            (calcReward settled.length (r'.obj p).rank).2.1 ∧
          (calcReward settled.length (r'.obj q).rank).2.2 <
            (calcReward settled.length (r'.obj p).rank).2.2) ∧
      (∀ p ∈ r.players,
        (((r'.obj p).rank : Int) ≤ ⌈(r.players.length : ℚ) / 2⌉ →
          0 < (calcReward settled.length (r'.obj p).rank).1) ∧
        (⌈(r.players.length : ℚ) / 2⌉ < ((r'.obj p).rank : Int) →
          (calcReward settled.length (r'.obj p).rank).1 < 0)) ∧
      (Even r.players.length →
        r.players.foldr (fun p t => (calcReward settled.length (r'.obj p).rank).1 + t) 0 = 0) ∧
      (Odd r.players.length →
        r.players.foldr (fun p t => (calcReward settled.length (r'.obj p).rank).1 + t) 0 =
          10 * ⌈(r.players.length : ℚ) / 2⌉) := by
  obtain ⟨r', settled, hlist, hperm, hsorted, hobj⟩ := buildRankList_spec hnodup hids
  have hlen : settled.length = r.players.length := hperm.length_eq
  have hsettled : settled.Nodup := hperm.nodup_iff.mpr hnodup
  have hmem : ∀ p, p ∈ r.players → p ∈ settled := fun p => hperm.mem_iff.mpr
  have hidx : ∀ p ∈ r.players, settled.idxOf p < settled.length :=
    fun p hp => List.idxOf_lt_length_of_mem (hmem p hp)
  have hsum : r.players.foldr
      (fun p t => (calcReward settled.length (r'.obj p).rank).1 + t) 0 =
        scores r.players.length 1 r.players.length := by
    rw [← foldr_perm hperm fun p => (calcReward settled.length (r'.obj p).rank).1, ← hlen]
    refine scores_settled _ 1 settled (fun p => (r'.obj p).rank) ?_
    intro j hj
    have hj' := (hobj settled[j] (hperm.mem_iff.mp (List.getElem_mem hj))).1
    rw [hj', hsettled.idxOf_getElem j hj]
    exact Nat.add_comm _ _
  refine ⟨r', settled, hlist, hperm, fun p hp => (hobj p hp).2, ⟨?_, ?_, ?_⟩, ?_, ?_, ?_, ?_, ?_⟩
  · intro p hp
    have := hidx p hp
    simp only [Set.mem_Icc, (hobj p hp).1]
    omega
  · intro p hp q hq heq
    simp only [(hobj p hp).1, (hobj q hq).1, Nat.add_right_cancel_iff] at heq
    exact (List.idxOf_inj (hmem p hp)).mp heq
  · rintro k ⟨hk, hkn⟩
    have hk' : k - 1 < settled.length := by omega
    have hin : settled[k - 1] ∈ r.players := hperm.mem_iff.mp (List.getElem_mem hk')
    refine ⟨settled[k - 1], hin, ?_⟩
    dsimp only
    rw [(hobj _ hin).1, hsettled.idxOf_getElem (k - 1) hk']
    omega
  · intro p hp q hq
    have hiff := idxOf_lt_iff hsorted (hmem p hp) (hmem q hq)
    rw [rankBefore_iff] at hiff
    have hrank : (r'.obj p).rank < (r'.obj q).rank ↔ settled.idxOf p < settled.idxOf q := by
      rw [(hobj p hp).1, (hobj q hq).1]
      omega
    rw [hrank, hiff]
    constructor
    · rintro ⟨hpq, hlt | ⟨heq, hle⟩⟩
      · exact .inl hlt
      · exact .inr ⟨heq, lt_of_le_of_ne hle hpq⟩
    · rintro (hlt | ⟨heq, hlt⟩)
      · exact ⟨fun h => by subst h; exact lt_irrefl _ hlt, .inl hlt⟩
      · exact ⟨hlt.ne, .inr ⟨heq, hlt.le⟩⟩
  · intro p hp q hq hlt
    have hle := hidx q hq
    rw [(hobj q hq).1] at hlt ⊢
    rw [(hobj p hp).1] at hlt ⊢
    exact calcReward_strict (by omega) hlt (by omega)
  · intro p hp
    have hsign := calcReward_sign (n := r.players.length) (i := (r'.obj p).rank)
      (by rw [(hobj p hp).1]; omega)
    rw [hlen, ceil_half]
    exact hsign
  · intro heven
    rw [hsum]
    exact scores_even heven
  · intro hodd
    rw [hsum, ceil_half]
    exact scores_odd hodd

/-- Three players of a room, two of them of the same weight. -/
def threePlayers : Room where
  roomState := .finishing
  allocVersion := 0
  sceneAddr := none
  battleGateway := none
  players := [7, 3, 5]
  obj p := newPlayer ⟨p, 0, ""⟩
  now := 0

theorem build_rank_list_three :
    ∃ r' settled, buildRankList threePlayers [5, 7, 3] (some [(5, 5 / 2), (3, 2)]) =
        some (r', settled) ∧ (r'.obj 3).rank < (r'.obj 5).rank := by
  obtain ⟨r', settled, hlist, -, hweight, -, hrank, -⟩ :=
    build_rank_list_lawful threePlayers (some [(5, 5 / 2), (3, 2)]) (by decide) (by decide)
  have h3 := hweight 3 (by decide)
  have h5 := hweight 5 (by decide)
  have hfloor : ⌊(5 / 2 : ℚ)⌋ = 2 ∧ ⌊(2 : ℚ)⌋ = 2 := by
    constructor <;> norm_num [Int.floor_eq_iff]
  refine ⟨r', settled, hlist _ (by decide), ?_⟩
  rw [hrank 3 (by decide) 5 (by decide), h3, h5]
  exact .inr ⟨by simp [weightAfter, hfloor], by decide⟩

end BallServer.RoomService
