import SLikeNet.RangeList
import Mathlib.Data.List.Chain
import Mathlib.Data.Finset.Card

/-! When `RangeList::Insert` keeps its ranges maximally coalesced: a number just after one range
is not joined to it when a later range exists that does not begin right behind the number. -/

namespace SLikeNet

namespace RangeNode

/-- At least one number lies between the two ranges. -/
def Apart (a b : RangeNode) : Prop := a.maxIndex.val + 1 < b.minIndex.val

instance (a b : RangeNode) : Decidable (a.Apart b) := inferInstanceAs (Decidable (_ < _))

end RangeNode

namespace RangeList

/-- Consecutive ranges are never adjacent. -/
def Coalesced (r : RangeList) : Prop := r.ranges.IsChain RangeNode.Apart

instance (r : RangeList) : Decidable r.Coalesced :=
  inferInstanceAs (Decidable (r.ranges.IsChain RangeNode.Apart))

def insertAll (indices : List Uint24) : RangeList := indices.foldl insert empty

theorem insertAll_concat (indices : List Uint24) (index : Uint24) :
    insertAll (indices ++ [index]) = (insertAll indices).insert index := by
  simp [insertAll]

theorem covers_insertAll {indices : List Uint24} {x : Uint24} :
    (insertAll indices).Covers x ↔ x ∈ indices := by
  induction indices using List.reverseRecOn with
  | nil => simp [insertAll, empty, Covers]
  | append_singleton indices index ih =>
    rw [insertAll_concat, covers_insert, ih, List.mem_append, List.mem_singleton, or_comm]

/-- The numbers that end a maximal run of consecutive numbers. -/
def runEnds (indices : List Uint24) : Finset Uint24 :=
  indices.toFinset.filter fun x => ∀ y ∈ indices, y.val ≠ x.val + 1

/-- The number comes right after one that is there and is not followed by one that is there,
while a larger one exists: `Insert` looks at the range of the larger one only. -/
def LeavesSeam (before : List Uint24) (index : Uint24) : Prop :=
  index ∉ before ∧ (∃ l ∈ before, l.val + 1 = index.val) ∧
    (∀ y ∈ before, y.val ≠ index.val + 1) ∧ ∃ y ∈ before, index.val + 1 < y.val

instance (before : List Uint24) (index : Uint24) : Decidable (LeavesSeam before index) :=
  inferInstanceAs (Decidable (_ ∧ _ ∧ _ ∧ _))

theorem isChain_grown {xs zs : List RangeNode} {l : RangeNode} {m : Uint24} :
    (xs ++ ⟨l.minIndex, m⟩ :: zs).IsChain RangeNode.Apart ↔
      (xs ++ [l]).IsChain RangeNode.Apart ∧
        (⟨l.minIndex, m⟩ :: zs : List RangeNode).IsChain RangeNode.Apart := by
  simp only [List.isChain_append, List.isChain_singleton, List.head?_cons, Option.mem_def,
    Option.some.injEq, forall_eq', true_and]
  constructor
  · rintro ⟨hxs, hzs, hlast⟩
    exact ⟨⟨hxs, hlast⟩, hzs⟩
  · rintro ⟨⟨hxs, hlast⟩, hzs⟩
    exact ⟨hxs, hzs, hlast⟩

theorem isChain_lowered {a b : Uint24} {y : RangeNode} {ys : List RangeNode}
    (hb : b = y.maxIndex) :
    (⟨a, b⟩ :: ys : List RangeNode).IsChain RangeNode.Apart ↔
      (y :: ys).IsChain RangeNode.Apart := by
  subst hb
  simp only [List.isChain_cons]
  exact Iff.rfl

theorem apart_of_lt_pred {index : Uint24} {y : RangeNode} (hy : index < y.minIndex)
    (hbefore : index < y.minIndex.pred) : RangeNode.Apart ⟨index, index⟩ y := by
  have hpred := Uint24.val_pred_of_lt hy
  have hbefore : index.val < y.minIndex.pred.val := hbefore
  rw [RangeNode.Apart]
  show index.val + 1 < y.minIndex.val
  omega

theorem apart_of_ne_succ {l : RangeNode} {index b : Uint24} (hl : l.maxIndex < index)
    (hne : l.maxIndex + 1 ≠ index) : RangeNode.Apart l ⟨index, b⟩ := by
  have hsucc := Uint24.val_succ_of_lt hl
  have hne := mt Uint24.eq_iff.mpr hne
  rw [Uint24.lt_iff] at hl
  rw [Uint24.add_one] at hne
  rw [RangeNode.Apart]
  show l.maxIndex.val + 1 < index.val
  omega

/-- Inserting around a place keeps the seams that are there, and leaves a new one exactly where
the number comes right after the range before it and not right before the range behind it. -/
theorem isChain_joinAt {xs ys : List RangeNode} {index : Uint24}
    (hx : ∀ n ∈ xs, n.maxIndex < index) (hy : ∀ n ∈ ys, index < n.minIndex) :
    (joinAt xs index ys).IsChain RangeNode.Apart ↔
      (xs ++ ys).IsChain RangeNode.Apart ∧
        ¬ ∃ l ∈ xs.getLast?, ∃ y ∈ ys.head?,
          l.maxIndex.val + 1 = index.val ∧ index.val + 1 < y.minIndex.val := by
  -- between the neighbours of the place lies the number itself
  have hmid : ∀ l ∈ xs.getLast?, ∀ y ∈ ys.head?, RangeNode.Apart l y := by
    intro l hl y hyh
    have h1 := hx l (List.mem_of_mem_getLast? hl)
    have h2 := hy y (List.mem_of_mem_head? hyh)
    rw [Uint24.lt_iff] at h1 h2
    rw [RangeNode.Apart]
    omega
  rw [List.isChain_append, and_iff_left hmid]
  cases xs using List.reverseRecOn with
  | nil =>
    cases ys with
    | nil => simp [joinAt]
    | cons y ys =>
      have hyi := hy y (by simp)
      simp only [joinAt, List.getLast?_nil, Option.mem_def, reduceCtorEq, false_and,
        exists_false, not_false_eq_true, and_true, List.isChain_nil, true_and]
      split
      · rename_i hbefore
        rw [List.isChain_cons_cons, and_iff_right (apart_of_lt_pred hyi hbefore)]
      · exact isChain_lowered rfl
  | append_singleton xs l =>
    have hli := hx l (by simp)
    have hli' := Uint24.lt_iff.mp hli
    simp only [joinAt, List.getLast?_concat, List.dropLast_concat, Option.mem_def,
      Option.some.injEq, exists_eq_left']
    cases ys with
    | nil =>
      simp only [List.head?_nil, reduceCtorEq, false_and, exists_false, not_false_eq_true,
        and_true, List.isChain_nil]
      split
      · rw [isChain_grown, and_iff_left (List.isChain_singleton _)]
      · rename_i hne
        have hapart : RangeNode.Apart l ⟨index, index⟩ := apart_of_ne_succ hli (Ne.symm hne)
        simp [List.isChain_append, hapart]
    | cons y ys =>
      have hyi := hy y (by simp)
      have hpred := Uint24.val_pred_of_lt hyi
      simp only [List.head?_cons, Option.some.injEq, exists_eq_left']
      split
      · rename_i hbefore
        have hapart := apart_of_lt_pred hyi hbefore
        have hleft : RangeNode.Apart l ⟨index, index⟩ ↔ ¬ l.maxIndex.val + 1 = index.val := by
          rw [RangeNode.Apart]
          show l.maxIndex.val + 1 < index.val ↔ _
          omega
        have hfar : index.val + 1 < y.minIndex.val := hapart
        rw [List.isChain_append, List.isChain_cons_cons, and_iff_right hapart]
        simp [hleft, hfar, and_assoc]
      · rename_i hnot
        have hnot : ¬ index.val < y.minIndex.pred.val := hnot
        have hnear : ¬ index.val + 1 < y.minIndex.val := by omega
        split
        · rw [isChain_grown, isChain_lowered rfl]
          simp [hnear]
        · rename_i hne
          have hapart : RangeNode.Apart l ⟨index, y.maxIndex⟩ := apart_of_ne_succ hli hne
          rw [List.isChain_append, isChain_lowered rfl]
          simp [hapart, hnear]

/-- Inserting either finds the number in a range or joins it at the place between the ranges
below it and the ranges above it. -/
theorem insert_cases (r : RangeList) (index : Uint24) :
    (r.Covers index ∧ (r.insert index).ranges = r.ranges) ∨
      ∃ xs ys, r.ranges = xs ++ ys ∧ (∀ n ∈ xs, n.maxIndex < index) ∧
        (∀ n ∈ ys, index < n.minIndex) ∧ (r.insert index).ranges = joinAt xs index ys := by
  have hmono := r.ascending.monotone index
  cases hfound : (OrderedList.getIndexFromKey RangeNode.comp r.ranges index).2 with
  | true =>
    left
    refine ⟨isWithinRange_iff.mp hfound, ?_⟩
    show insertIndex r.ranges index = r.ranges
    rw [insertIndex]
    split
    · rename_i hnil
      have hcov := isWithinRange_iff.mp hfound
      simp [Covers, hnil] at hcov
    · simp only [hfound, if_true]
  | false =>
    right
    obtain ⟨xs, ys, heq, hplace, hgt, hlt⟩ := OrderedList.getIndexFromKey_split hmono hfound
    have hx : ∀ n ∈ xs, n.maxIndex < index := fun n hn =>
      (RangeNode.comp_eq_gt (r.ascending.min_le_max n (by simp [heq, hn]))).mp (hgt n hn)
    have hy : ∀ n ∈ ys, index < n.minIndex := fun n hn => RangeNode.comp_eq_lt.mp (hlt n hn)
    refine ⟨xs, ys, heq, hx, hy, ?_⟩
    show insertIndex r.ranges index = _
    rw [heq] at hplace hfound ⊢
    exact insertIndex_split hx hy hplace hfound

theorem mem_getLast?_of_next {xs : List RangeNode} {l : RangeNode} {index : ℕ}
    (hxs : Ascending xs) (hl : l ∈ xs) (hx : ∀ n ∈ xs, n.maxIndex.val < index)
    (hnext : index ≤ l.maxIndex.val + 1) : l ∈ xs.getLast? := by
  obtain ⟨as, bs, rfl⟩ := List.append_of_mem hl
  obtain ⟨-, hlbs, -⟩ := ascending_append.mp hxs
  obtain ⟨-, hbs, hlater⟩ := ascending_cons.mp hlbs
  cases bs with
  | nil => simp
  | cons b bs =>
    have h1 := hlater b (by simp)
    have h2 := hbs.min_le_max b (by simp)
    have h3 := hx b (by simp)
    rw [Uint24.lt_iff] at h1
    rw [Uint24.le_iff] at h2
    omega

theorem seam_iff_leavesSeam {r : RangeList} {before : List Uint24}
    (hbefore : ∀ x, r.Covers x ↔ x ∈ before) {xs ys : List RangeNode} {index : Uint24}
    (heq : r.ranges = xs ++ ys) (hx : ∀ n ∈ xs, n.maxIndex < index)
    (hy : ∀ n ∈ ys, index < n.minIndex) :
    (∃ l ∈ xs.getLast?, ∃ y ∈ ys.head?,
        l.maxIndex.val + 1 = index.val ∧ index.val + 1 < y.minIndex.val) ↔
      LeavesSeam before index := by
  have hasc := r.ascending
  rw [heq] at hasc
  obtain ⟨hxs, hys, hxy⟩ := ascending_append.mp hasc
  simp only [Uint24.lt_iff] at hx hy
  have hcov : ∀ x, x ∈ before ↔ ∃ n ∈ xs ++ ys, n.Covers x := by
    intro x
    rw [← hbefore, Covers, heq]
  have hends : ∀ n ∈ xs ++ ys, n.minIndex ∈ before ∧ n.maxIndex ∈ before := by
    intro n hn
    have hle := hasc.min_le_max n hn
    exact ⟨(hcov _).mpr ⟨n, hn, Nat.le_refl _, hle⟩, (hcov _).mpr ⟨n, hn, hle, Nat.le_refl _⟩⟩
  constructor
  · rintro ⟨l, hl, y, hyh, hnext, hfar⟩
    have hlmem := List.mem_of_mem_getLast? hl
    have hymem := List.mem_of_mem_head? hyh
    have hbetween : ∀ x ∈ before, x.val < index.val ∨ index.val + 1 < x.val := by
      intro x hxb
      obtain ⟨n, hn, hmin, hmax⟩ := (hcov x).mp hxb
      rw [Uint24.le_iff] at hmin hmax
      rcases List.mem_append.mp hn with hn | hn
      · left
        have := hx n hn
        omega
      · right
        -- the head of the later ranges has the smallest numbers
        obtain ⟨y', ys', rfl⟩ := List.exists_cons_of_ne_nil (List.ne_nil_of_mem hn)
        obtain rfl : y' = y := by simpa using hyh
        obtain ⟨hle, -, hlt⟩ := ascending_cons.mp hys
        rcases List.mem_cons.mp hn with rfl | hn
        · omega
        · have := hlt n hn
          rw [Uint24.le_iff] at hle
          rw [Uint24.lt_iff] at this
          omega
    refine ⟨fun hmem => ?_, ⟨l.maxIndex, (hends l (by simp [hlmem])).2, hnext⟩, fun y' hy' => ?_,
      ⟨y.minIndex, (hends y (by simp [hymem])).1, hfar⟩⟩
    · have := hbetween index hmem
      omega
    · have := hbetween y' hy'
      omega
  · rintro ⟨hnot, ⟨x, hxb, hnext⟩, hgap, ⟨z, hzb, hlarger⟩⟩
    obtain ⟨l, hl, hlmin, hlmax⟩ := (hcov x).mp hxb
    obtain ⟨y, hymem, hymin, hymax⟩ := (hcov z).mp hzb
    simp only [Uint24.le_iff] at hlmin hlmax hymin hymax
    -- the number before is the end of the last of the lower ranges
    have hlxs : l ∈ xs := by
      rcases List.mem_append.mp hl with hl | hl
      · exact hl
      · have := hy l hl
        omega
    have hlend := hx l hlxs
    have hlast := mem_getLast?_of_next hxs hlxs hx (by omega)
    have hyys : y ∈ ys := by
      rcases List.mem_append.mp hymem with hm | hm
      · have := hx y hm
        omega
      · exact hm
    obtain ⟨y', ys', rfl⟩ := List.exists_cons_of_ne_nil (List.ne_nil_of_mem hyys)
    refine ⟨l, hlast, y', rfl, by omega, ?_⟩
    have h1 := hy y' (by simp)
    have h2 := hgap y'.minIndex (hends y' (by simp)).1
    omega

theorem coalesced_insert {r : RangeList} {before : List Uint24}
    (hbefore : ∀ x, r.Covers x ↔ x ∈ before) (index : Uint24) :
    (r.insert index).Coalesced ↔ r.Coalesced ∧ ¬ LeavesSeam before index := by
  rw [Coalesced, Coalesced]
  rcases insert_cases r index with ⟨hcov, hsame⟩ | ⟨xs, ys, heq, hx, hy, hjoin⟩
  · rw [hsame]
    have hno : ¬ LeavesSeam before index := fun h => h.1 ((hbefore index).mp hcov)
    exact (and_iff_left hno).symm
  · rw [hjoin, isChain_joinAt hx hy, heq, seam_iff_leavesSeam hbefore heq hx hy]

theorem pairwise_apart {ranges : List RangeNode} (hasc : Ascending ranges)
    (h : ranges.IsChain RangeNode.Apart) : ranges.Pairwise RangeNode.Apart := by
  induction ranges with
  | nil => exact .nil
  | cons a ranges ih =>
    obtain ⟨-, hrest, -⟩ := ascending_cons.mp hasc
    obtain ⟨hhead, htail⟩ := List.isChain_cons.mp h
    refine List.pairwise_cons.mpr ⟨fun c hc => ?_, ih hrest htail⟩
    cases ranges with
    | nil => simp at hc
    | cons b ranges =>
      have hab := hhead b rfl
      obtain ⟨hle, -, hlater⟩ := ascending_cons.mp hrest
      rcases List.mem_cons.mp hc with rfl | hc
      · exact hab
      · have hbc := hlater c hc
        rw [Uint24.le_iff] at hle
        rw [Uint24.lt_iff] at hbc
        rw [RangeNode.Apart] at hab ⊢
        omega

theorem runEnds_insertAll {indices : List Uint24} (h : (insertAll indices).Coalesced) :
    runEnds indices = ((insertAll indices).ranges.map RangeNode.maxIndex).toFinset := by
  have hasc := (insertAll indices).ascending
  have hcov : ∀ x, x ∈ indices ↔ ∃ n ∈ (insertAll indices).ranges, n.Covers x :=
    fun x => covers_insertAll.symm
  have hpair := pairwise_apart hasc h
  ext x
  simp only [runEnds, Finset.mem_filter, List.mem_toFinset, List.mem_map]
  constructor
  · rintro ⟨hmem, hend⟩
    obtain ⟨n, hn, hmin, hmax⟩ := (hcov x).mp hmem
    refine ⟨n, hn, ?_⟩
    rcases Nat.lt_or_eq_of_le hmax with hlt | heq
    · -- the number behind would be in the range
      have hsucc := Uint24.val_succ_of_lt (a := x) (b := n.maxIndex) hlt
      rw [Uint24.le_iff] at hmin
      have hnext : n.Covers x.succ := by
        simp only [RangeNode.Covers, Uint24.le_iff]
        omega
      exact absurd hsucc (hend _ ((hcov _).mpr ⟨n, hn, hnext⟩))
    · exact (Uint24.eq_iff.mpr heq).symm
  · rintro ⟨n, hn, rfl⟩
    have hle := hasc.min_le_max n hn
    refine ⟨(hcov _).mpr ⟨n, hn, hle, Nat.le_refl _⟩, fun y hy hnext => ?_⟩
    obtain ⟨m, hm, hmin, hmax⟩ := (hcov y).mp hy
    obtain ⟨as, bs, heq⟩ := List.append_of_mem hn
    rw [heq] at hm hpair
    obtain ⟨-, hnbs, hbefore⟩ := List.pairwise_append.mp hpair
    have hbehind := (List.pairwise_cons.mp hnbs).1
    simp only [Uint24.le_iff] at hle hmin hmax
    rcases List.mem_append.mp hm with hm | hm
    · have := hbefore m hm n (by simp)
      rw [RangeNode.Apart] at this
      omega
    · rcases List.mem_cons.mp hm with rfl | hm
      · omega
      · have := hbehind m hm
        rw [RangeNode.Apart] at this
        omega

theorem card_runEnds {indices : List Uint24} (h : (insertAll indices).Coalesced) :
    (runEnds indices).card = (insertAll indices).ranges.length := by
  have hasc := (insertAll indices).ascending
  have hnodup : ((insertAll indices).ranges.map RangeNode.maxIndex).Nodup := by
    rw [List.Nodup, List.pairwise_map]
    apply List.Pairwise.imp_of_mem _ hasc.ascending
    intro a b _ hb hab heq
    have hle := hasc.min_le_max b hb
    rw [Uint24.lt_iff] at hab
    rw [Uint24.le_iff, ← heq] at hle
    omega
  rw [runEnds_insertAll h, List.toFinset_card_of_nodup hnodup, List.length_map]

theorem coalesced_insertAll {indices : List Uint24} :
    (insertAll indices).Coalesced ↔
      ∀ before index after, indices = before ++ index :: after → ¬ LeavesSeam before index := by
  induction indices using List.reverseRecOn with
  | nil => simp [insertAll, empty, Coalesced]
  | append_singleton indices last ih =>
    rw [insertAll_concat, coalesced_insert (fun x => covers_insertAll), ih]
    constructor
    · rintro ⟨hall, hlast⟩ before index after heq
      cases after using List.reverseRecOn with
      | nil =>
        obtain ⟨rfl, hs⟩ := List.append_inj' heq rfl
        cases hs
        exact hlast
      | append_singleton after z =>
        apply hall before index after
        rw [← List.cons_append, ← List.append_assoc] at heq
        exact (List.append_inj' heq rfl).1
    · intro hall
      refine ⟨fun before index after heq => ?_, hall indices last [] rfl⟩
      exact hall before index (after ++ [last]) (by rw [heq, List.append_assoc, List.cons_append])

/-- After any calls of `Insert`, consecutive ranges are never adjacent, and there are as many as
there are maximal runs of the numbers, exactly when no call left a seam. -/
theorem insertAll_coalesced_iff (indices : List Uint24) :
    ((insertAll indices).Coalesced ∧
        (insertAll indices).ranges.length = (runEnds indices).card) ↔
      ∀ before index after, indices = before ++ index :: after → ¬ LeavesSeam before index := by
  rw [← coalesced_insertAll]
  exact ⟨And.left, fun h => ⟨h, (card_runEnds h).symm⟩⟩

/-- Inserting 0, 5 and 1 keeps 0 and 1 in two ranges. -/
theorem seam_between_ranges :
    ¬ ∀ indices : List Uint24, (insertAll indices).Coalesced ∧
      (insertAll indices).ranges.length = (runEnds indices).card := by
  intro h
  have hrun := (h [0, 5, 1]).1
  revert hrun
  decide

end RangeList

end SLikeNet
