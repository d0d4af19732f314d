import BallServer.GridIndex.Query

/-!
# Columns of the grid

What a grid keeps for one key is its column: the record of the key and the object each
bucket has for it.  An operation on an object changes only the column of its key, and
what it does to the column depends on nothing else.  So operations on objects with
different keys can be swapped.

The order of the entries in a bucket is not part of a column, and it does not matter for
what a query finds.

Main results:

- Definition {lit}`Alike`: grids that differ in the order of their entries at most.
- Theorems {lit}`update_comm` and {lit}`upsert_comm`: operations that can be swapped.
- Theorem {lit}`scan_perm`: queries on grids that are alike.
-/

namespace BallServer.Grid

open BallServer

variable {ι K : Type} [Field K] [LinearOrder K] [DecidableEq ι]

/-- Two grids of one layout with the same column of a key. -/
structure SameColumn (g g' : GridIndex ι K) (k : Key ι) : Prop where
  toLayout : g.toLayout = g'.toLayout
  record : g.records k = g'.records k
  stored : ∀ n, g.stored n k = g'.stored n k

/-- Two grids with the same columns. -/
def Alike (g g' : GridIndex ι K) : Prop := ∀ k, SameColumn g g' k

variable {g g' g'' : GridIndex ι K} {k : Key ι}

theorem SameColumn.refl (g : GridIndex ι K) (k : Key ι) : SameColumn g g k :=
  ⟨rfl, rfl, fun _ => rfl⟩

theorem SameColumn.symm (h : SameColumn g g' k) : SameColumn g' g k :=
  ⟨h.toLayout.symm, h.record.symm, fun n => (h.stored n).symm⟩

theorem SameColumn.trans (h : SameColumn g g' k) (h' : SameColumn g' g'' k) : SameColumn g g'' k :=
  ⟨h.toLayout.trans h'.toLayout, h.record.trans h'.record,
    fun n => (h.stored n).trans (h'.stored n)⟩

theorem Alike.refl (g : GridIndex ι K) : Alike g g := fun k => .refl g k

theorem Alike.symm (h : Alike g g') : Alike g' g := fun k => (h k).symm

theorem Alike.trans (h : Alike g g') (h' : Alike g' g'') : Alike g g'' :=
  fun k => (h k).trans (h' k)

/-- Grids that are alike have one layout. -/
theorem Alike.toLayout (h : Alike g g') : g.toLayout = g'.toLayout :=
  (h (.table 0)).toLayout

/-! ## Operations with the same arguments -/

theorem SameColumn.foldl_put (h : SameColumn g g' k) (key : Key ι) (r : Nat)
    (cs : List (Int × Int)) :
    SameColumn (cs.foldl (GridIndex.put key r) g) (cs.foldl (GridIndex.put key r) g') k := by
  constructor
  · simp [h.toLayout]
  · simp [h.record]
  · intro n
    rw [GridIndex.stored_foldl_put, GridIndex.stored_foldl_put, h.stored n, h.toLayout]

theorem SameColumn.foldl_drop (h : SameColumn g g' k) (key : Key ι) (cs : List (Int × Int)) :
    SameColumn (cs.foldl (GridIndex.drop key) g) (cs.foldl (GridIndex.drop key) g') k := by
  constructor
  · simp [h.toLayout]
  · simp [h.record]
  · intro n
    rw [GridIndex.stored_foldl_drop, GridIndex.stored_foldl_drop, h.stored n, h.toLayout]

theorem SameColumn.setRecord (h : SameColumn g g' k) (key : Key ι) (rec : Option Record) :
    SameColumn (g.setRecord key rec) (g'.setRecord key rec) k := by
  refine ⟨h.toLayout, ?_, h.stored⟩
  by_cases hk : k = key
  · subst hk
    simp
  · simp [hk, h.record]

theorem SameColumn.enter (h : SameColumn g g' k) (key : Key ι) (r : Nat) (range : CellRange) :
    SameColumn (g.enter key r range) (g'.enter key r range) k :=
  (h.foldl_put key r range.cells).setRecord key _

/-- The column of a key after the key or another one has moved. -/
theorem SameColumn.moveTo (h : SameColumn g g' k) (key : Key ι) (r : Nat) (rec : Record)
    (range : CellRange) :
    SameColumn (g.moveTo key r rec range).1 (g'.moveTo key r rec range).1 k := by
  have hset := h.setRecord key (some { rec with obj := r })
  unfold GridIndex.moveTo
  simp only
  split_ifs with hsame hoverlap
  · exact hset
  · exact ((hset.foldl_drop key _).foldl_put key r _).setRecord key _
  · exact ((hset.foldl_drop key rec.range.cells).foldl_put key r range.cells).setRecord key _

theorem SameColumn.remove {key : Key ι} (hkey : SameColumn g g' key) (h : SameColumn g g' k) :
    SameColumn (g.remove key).1 (g'.remove key).1 k := by
  unfold GridIndex.remove
  rw [← hkey.record]
  cases g.records key with
  | none => exact h
  | some rec => exact (h.foldl_drop key rec.range.cells).setRecord key none

variable [FloorRing K] {heap heap' : Nat → Obj ι K} {r r' : Nat}

/-- An update looks at the column of its own key only. -/
theorem SameColumn.update (hobj : heap r = heap' r)
    (hkey : SameColumn g g' (objectKey heap r)) (h : SameColumn g g' k) :
    SameColumn (g.update heap r).1 (g'.update heap' r).1 k := by
  have hk : objectKey heap' r = objectKey heap r := by simp only [objectKey, hobj]
  unfold GridIndex.update
  simp only [hk, ← hobj, ← h.toLayout, ← hkey.record]
  cases g.rangeForObj (heap r).toPlace with
  | none =>
      cases g.records (objectKey heap r) with
      | none => exact h
      | some rec => exact hkey.remove h
  | some range =>
      cases g.records (objectKey heap r) with
      | none => exact h.enter _ r range
      | some rec => exact h.moveTo _ r rec range

theorem SameColumn.add (hobj : heap r = heap' r)
    (hkey : SameColumn g g' (objectKey heap r)) (h : SameColumn g g' k) :
    SameColumn (g.add heap r).1 (g'.add heap' r).1 k := by
  have hk : objectKey heap' r = objectKey heap r := by simp only [objectKey, hobj]
  unfold GridIndex.add
  simp only [hk, ← hobj, ← h.toLayout, ← hkey.record]
  cases g.rangeForObj (heap r).toPlace with
  | none => exact h
  | some range =>
      cases g.records (objectKey heap r) with
      | none => exact h.enter _ r range
      | some rec =>
          exact (hkey.setRecord _ _).update hobj (h.setRecord (objectKey heap r) _)

theorem SameColumn.upsert (hobj : heap r = heap' r)
    (hkey : SameColumn g g' (objectKey heap r)) (h : SameColumn g g' k) :
    SameColumn (g.upsert heap r).1 (g'.upsert heap' r).1 k := by
  have hk : objectKey heap' r = objectKey heap r := by simp only [objectKey, hobj]
  unfold GridIndex.upsert
  simp only [hk, ← hkey.record]
  cases g.records (objectKey heap r) with
  | none => exact hkey.add hobj h
  | some rec => exact hkey.update hobj h

/-! ## Other columns stay -/

omit [FloorRing K] in
theorem foldl_put_other {key : Key ι} (hk : k ≠ key) (g : GridIndex ι K) (r : Nat)
    (cs : List (Int × Int)) : SameColumn (cs.foldl (GridIndex.put key r) g) g k := by
  refine ⟨by simp, by simp, fun n => ?_⟩
  rw [GridIndex.stored_foldl_put, if_neg fun h => hk h.1]

omit [FloorRing K] in
theorem foldl_drop_other {key : Key ι} (hk : k ≠ key) (g : GridIndex ι K)
    (cs : List (Int × Int)) : SameColumn (cs.foldl (GridIndex.drop key) g) g k := by
  refine ⟨by simp, by simp, fun n => ?_⟩
  rw [GridIndex.stored_foldl_drop, if_neg fun h => hk h.1]

omit [FloorRing K] in
theorem setRecord_other {key : Key ι} (hk : k ≠ key) (g : GridIndex ι K) (rec : Option Record) :
    SameColumn (g.setRecord key rec) g k :=
  ⟨rfl, by simp [hk], fun _ => rfl⟩

omit [FloorRing K] in
theorem remove_other {key : Key ι} (hk : k ≠ key) (g : GridIndex ι K) :
    SameColumn (g.remove key).1 g k := by
  unfold GridIndex.remove
  cases g.records key with
  | none => exact .refl g k
  | some rec => exact (setRecord_other hk _ none).trans (foldl_drop_other hk g rec.range.cells)

omit [FloorRing K] in
theorem enter_other {key : Key ι} (hk : k ≠ key) (g : GridIndex ι K) (r : Nat)
    (range : CellRange) : SameColumn (g.enter key r range) g k :=
  (setRecord_other hk _ _).trans (foldl_put_other hk g r range.cells)

omit [FloorRing K] in
/-- The columns of other keys stay. -/
theorem moveTo_other {key : Key ι} (hk : k ≠ key) (g : GridIndex ι K) (r : Nat) (rec : Record)
    (range : CellRange) : SameColumn (g.moveTo key r rec range).1 g k := by
  have hset := setRecord_other hk g (some { rec with obj := r })
  unfold GridIndex.moveTo
  simp only
  split_ifs
  · exact hset
  · exact (setRecord_other hk _ _).trans ((foldl_put_other hk _ r _).trans
      ((foldl_drop_other hk _ _).trans hset))
  · exact (setRecord_other hk _ _).trans ((foldl_put_other hk _ r range.cells).trans
      ((foldl_drop_other hk _ rec.range.cells).trans hset))

/-- An update changes the column of its own key only. -/
theorem update_other (hk : k ≠ objectKey heap r) (g : GridIndex ι K) :
    SameColumn (g.update heap r).1 g k := by
  unfold GridIndex.update
  simp only
  split
  · exact remove_other hk g
  · exact .refl g k
  · exact enter_other hk g r _
  · exact moveTo_other hk g r _ _

theorem add_other (hk : k ≠ objectKey heap r) (g : GridIndex ι K) :
    SameColumn (g.add heap r).1 g k := by
  unfold GridIndex.add
  simp only
  split
  · exact .refl g k
  · exact enter_other hk g r _
  · exact (update_other hk _).trans (setRecord_other hk g _)

theorem upsert_other (hk : k ≠ objectKey heap r) (g : GridIndex ι K) :
    SameColumn (g.upsert heap r).1 g k := by
  unfold GridIndex.upsert
  split
  · exact update_other hk g
  · exact add_other hk g

/-! ## Swapping -/

omit [FloorRing K] in
/-- Two operations that change the columns of different keys only, and these in a way that
depends on nothing else, can be swapped. -/
theorem alike_comm (f₁ f₁' f₂ f₂' : GridIndex ι K → GridIndex ι K) {k₁ k₂ : Key ι}
    (hne : k₁ ≠ k₂)
    (h₁ : ∀ g g', SameColumn g g' k₁ → SameColumn (f₁ g) (f₁' g') k₁)
    (h₂ : ∀ g g', SameColumn g g' k₂ → SameColumn (f₂ g) (f₂' g') k₂)
    (ho₁ : ∀ g k, k ≠ k₁ → SameColumn (f₁ g) g k) (ho₁' : ∀ g k, k ≠ k₁ → SameColumn (f₁' g) g k)
    (ho₂ : ∀ g k, k ≠ k₂ → SameColumn (f₂ g) g k) (ho₂' : ∀ g k, k ≠ k₂ → SameColumn (f₂' g) g k)
    (g : GridIndex ι K) : Alike (f₂ (f₁ g)) (f₁' (f₂' g)) := by
  intro k
  by_cases hk₁ : k = k₁
  · subst hk₁
    exact (ho₂ _ k hne).trans (h₁ g (f₂' g) (ho₂' g k hne).symm)
  · by_cases hk₂ : k = k₂
    · subst hk₂
      exact (h₂ (f₁ g) g (ho₁ g k hk₁)).trans (ho₁' _ k hk₁).symm
    · exact (ho₂ _ k hk₂).trans ((ho₁ g k hk₁).trans
        ((ho₂' g k hk₂).symm.trans (ho₁' _ k hk₁).symm))

/-- Objects with different keys can be handed to a grid in any order. -/
theorem update_comm {heap₁ heap₁' heap₂ heap₂' : Nat → Obj ι K} (hr : heap₁ r = heap₁' r)
    (hr' : heap₂ r' = heap₂' r') (hne : objectKey heap₁ r ≠ objectKey heap₂ r')
    (g : GridIndex ι K) :
    Alike ((g.update heap₁ r).1.update heap₂ r').1 ((g.update heap₂' r').1.update heap₁' r).1 := by
  have hk : objectKey heap₁' r = objectKey heap₁ r := by simp only [objectKey, hr]
  have hk' : objectKey heap₂' r' = objectKey heap₂ r' := by simp only [objectKey, hr']
  exact alike_comm (fun g => (g.update heap₁ r).1) (fun g => (g.update heap₁' r).1)
    (fun g => (g.update heap₂ r').1) (fun g => (g.update heap₂' r').1) hne
    (fun _ _ h => h.update hr h) (fun _ _ h => h.update hr' h)
    (fun g _ h => update_other h g) (fun g _ h => update_other (hk ▸ h) g)
    (fun g _ h => update_other h g) (fun g _ h => update_other (hk' ▸ h) g) g

/-- Two upserts of different keys can be swapped. -/
theorem upsert_comm {heap₁ heap₁' heap₂ heap₂' : Nat → Obj ι K} (hr : heap₁ r = heap₁' r)
    (hr' : heap₂ r' = heap₂' r') (hne : objectKey heap₁ r ≠ objectKey heap₂ r')
    (g : GridIndex ι K) :
    Alike ((g.upsert heap₁ r).1.upsert heap₂ r').1 ((g.upsert heap₂' r').1.upsert heap₁' r).1 := by
  have hk : objectKey heap₁' r = objectKey heap₁ r := by simp only [objectKey, hr]
  have hk' : objectKey heap₂' r' = objectKey heap₂ r' := by simp only [objectKey, hr']
  exact alike_comm (fun g => (g.upsert heap₁ r).1) (fun g => (g.upsert heap₁' r).1)
    (fun g => (g.upsert heap₂ r').1) (fun g => (g.upsert heap₂' r').1) hne
    (fun _ _ h => h.upsert hr h) (fun _ _ h => h.upsert hr' h)
    (fun g _ h => upsert_other h g) (fun g _ h => upsert_other (hk ▸ h) g)
    (fun g _ h => upsert_other h g) (fun g _ h => upsert_other (hk' ▸ h) g) g

/-- The same update of grids that are alike. -/
theorem Alike.update (h : Alike g g') (hobj : heap r = heap' r) :
    Alike (g.update heap r).1 (g'.update heap' r).1 :=
  fun k => (h _).update hobj (h k)

theorem Alike.upsert (h : Alike g g') (hobj : heap r = heap' r) :
    Alike (g.upsert heap r).1 (g'.upsert heap' r).1 :=
  fun k => (h _).upsert hobj (h k)

omit [FloorRing K] in
theorem Alike.remove (h : Alike g g') (key : Key ι) : Alike (g.remove key).1 (g'.remove key).1 :=
  fun k => (h key).remove (h k)

/-! ## Queries -/

omit [Field K] [LinearOrder K] [FloorRing K] in
/-- The loop over one bucket: its keys are different, so none hides another. -/
theorem foldl_collect_eq (hit : Nat → Bool) {es : List (Sigma fun _ : Key ι => Nat)}
    (hes : es.NodupKeys) (acc : List Nat × List (Key ι)) :
    (es.foldl (collect hit) acc).1 =
        acc.1 ++ (es.filter fun e => e.1 ∉ acc.2 ∧ hit e.2 = true).map Sigma.snd ∧
      ∀ k, k ∈ (es.foldl (collect hit) acc).2 ↔
        k ∈ acc.2 ∨ ∃ e ∈ es, e.1 = k ∧ hit e.2 = true := by
  induction es generalizing acc with
  | nil => simp
  | cons e es ih =>
      rw [List.nodupKeys_cons] at hes
      obtain ⟨hfresh, hes⟩ := hes
      have hne : ∀ e' ∈ es, e'.1 ≠ e.1 := by
        intro e' he' heq
        exact hfresh (heq ▸ List.mem_keys_of_mem he')
      obtain ⟨hlist, hseen⟩ := ih hes (collect hit acc e)
      rw [List.foldl_cons, hlist]
      unfold collect at hseen ⊢
      by_cases hold : e.1 ∈ acc.2
      · simp only [if_pos hold] at hseen ⊢
        refine ⟨by simp [hold], fun k => ?_⟩
        rw [hseen, List.exists_mem_cons_iff]
        constructor
        · rintro (h | h)
          · exact .inl h
          · exact .inr (.inr h)
        · rintro (h | ⟨rfl, -⟩ | h)
          · exact .inl h
          · exact .inl hold
          · exact .inr h
      · by_cases hhit : hit e.2 = true
        · simp only [if_neg hold, if_pos hhit] at hseen ⊢
          constructor
          · have hfilter : (es.filter fun e' => e'.1 ∉ e.1 :: acc.2 ∧ hit e'.2 = true) =
                es.filter fun e' => e'.1 ∉ acc.2 ∧ hit e'.2 = true := by
              apply List.filter_congr
              intro e' he'
              simp [hne e' he']
            rw [hfilter]
            simp [hold, hhit]
          · intro k
            rw [hseen, List.exists_mem_cons_iff, List.mem_cons]
            constructor
            · rintro ((rfl | h) | h)
              · exact .inr (.inl ⟨rfl, hhit⟩)
              · exact .inl h
              · exact .inr (.inr h)
            · rintro (h | ⟨rfl, -⟩ | h)
              · exact .inl (.inr h)
              · exact .inl (.inl rfl)
              · exact .inr h
        · simp only [if_neg hold, if_neg hhit] at hseen ⊢
          refine ⟨by simp [hhit], fun k => ?_⟩
          rw [hseen, List.exists_mem_cons_iff]
          constructor
          · rintro (h | h)
            · exact .inl h
            · exact .inr (.inr h)
          · rintro (h | ⟨-, h⟩ | h)
            · exact .inl h
            · exact absurd h hhit
            · exact .inr h

/-- The entries of a bucket, if there is one. -/
def GridIndex.entriesOf (g : GridIndex ι K) (c : Int × Int) : List (Sigma fun _ : Key ι => Nat) :=
  match g.getBucket c with
  | none => []
  | some b => b.entries

omit [DecidableEq ι] [FloorRing K] in
/-- A bucket has one entry for a key. -/
theorem nodupKeys_entriesOf (g : GridIndex ι K) (c : Int × Int) : (g.entriesOf c).NodupKeys := by
  unfold GridIndex.entriesOf
  split
  · exact List.nodupKeys_nil
  · rename_i b _
    exact b.nodupKeys

omit [FloorRing K] in
/-- A query on a grid does not depend on the order of the entries of its buckets. -/
theorem scan_perm (h : ∀ c, (g.entriesOf c).Perm (g'.entriesOf c)) (range : CellRange)
    (hit : Nat → Bool) : (g.scan range hit).Perm (g'.scan range hit) := by
  have hscan : ∀ g : GridIndex ι K, g.scan range hit =
      (range.cells.foldl (fun acc c => (g.entriesOf c).foldl (collect hit) acc) ([], [])).1 := by
    intro g
    unfold GridIndex.scan GridIndex.entriesOf
    congr 2
    funext acc c
    cases g.getBucket c <;> rfl
  have hfold : ∀ (cs : List (Int × Int)) (acc acc' : List Nat × List (Key ι)),
      acc.1.Perm acc'.1 → (∀ k, k ∈ acc.2 ↔ k ∈ acc'.2) →
      (cs.foldl (fun acc c => (g.entriesOf c).foldl (collect hit) acc) acc).1.Perm
        (cs.foldl (fun acc c => (g'.entriesOf c).foldl (collect hit) acc) acc').1 := by
    intro cs
    induction cs with
    | nil => exact fun _ _ hlist _ => hlist
    | cons c cs ih =>
        intro acc acc' hlist hseen
        obtain ⟨heq, hkeys⟩ := foldl_collect_eq hit (nodupKeys_entriesOf g c) acc
        obtain ⟨heq', hkeys'⟩ := foldl_collect_eq hit (nodupKeys_entriesOf g' c) acc'
        apply ih
        · rw [heq, heq']
          have hfilter : (g.entriesOf c).filter (fun e => e.1 ∉ acc.2 ∧ hit e.2 = true) =
              (g.entriesOf c).filter fun e => e.1 ∉ acc'.2 ∧ hit e.2 = true := by
            apply List.filter_congr
            intro e _
            simp [hseen e.1]
          rw [hfilter]
          exact hlist.append (((h c).filter _).map _)
        · intro k
          rw [hkeys, hkeys', hseen]
          apply or_congr_right
          constructor
          · rintro ⟨e, he, hk⟩
            exact ⟨e, (h c).mem_iff.mp he, hk⟩
          · rintro ⟨e, he, hk⟩
            exact ⟨e, (h c).mem_iff.mpr he, hk⟩
  rw [hscan, hscan]
  exact hfold range.cells _ _ .rfl fun _ => .rfl

omit [FloorRing K] in
/-- Grids that are alike have the same entries up to their order. -/
theorem Alike.entriesOf (h : Alike g g') (c : Int × Int) :
    (g.entriesOf c).Perm (g'.entriesOf c) := by
  have hlookup : ∀ (g : GridIndex ι K) k, (g.entriesOf c).dlookup k =
      g.stored (g.bucketKey c) k := by
    intro g k
    unfold GridIndex.entriesOf GridIndex.getBucket GridIndex.stored
    cases g.buckets (g.bucketKey c) <;> rfl
  refine List.lookup_ext (nodupKeys_entriesOf g c) (nodupKeys_entriesOf g' c) fun k r => ?_
  rw [hlookup, hlookup, (h k).stored, h.toLayout]

end BallServer.Grid
