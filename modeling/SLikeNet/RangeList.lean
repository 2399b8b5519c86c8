import SLikeNet.Uint24
import SLikeNet.OrderedList
import Mathlib.Data.List.Induction

/-! `DataStructures::RangeList` of `DS_RangeList.h`, the sets of datagram numbers that
acknowledgements and negative acknowledgements carry. -/

namespace SLikeNet

namespace Uint24

/-- `operator--` -/
def pred (a : Uint24) : Uint24 := a - 1

theorem val_succ_of_lt {a b : Uint24} (h : a < b) : a.succ.val = a.val + 1 := by
  rw [val_succ]
  exact Nat.mod_eq_of_lt (Nat.lt_of_le_of_lt h b.isLt)

theorem add_one (a : Uint24) : a + 1 = a.succ := rfl

theorem val_pred_of_lt {a b : Uint24} (h : a < b) : b.pred.val = b.val - 1 := by
  have h1 : (1 : Uint24).val = 1 := rfl
  have hb := b.isLt
  rw [lt_iff] at h
  rw [pred, val_sub, h1]
  omega

end Uint24

structure RangeNode where
  minIndex : Uint24
  maxIndex : Uint24
deriving DecidableEq

namespace RangeNode

/-- `RangeNodeComp` -/
def comp (a : Uint24) (b : RangeNode) : Ordering :=
  if a < b.minIndex then .lt else if b.maxIndex < a then .gt else .eq

def Covers (n : RangeNode) (x : Uint24) : Prop := n.minIndex ≤ x ∧ x ≤ n.maxIndex

instance (n : RangeNode) (x : Uint24) : Decidable (n.Covers x) :=
  inferInstanceAs (Decidable (_ ∧ _))

/-- The values the loop `for (x = minIndex; x <= maxIndex; x++)` takes. -/
def numbers (n : RangeNode) : List Uint24 :=
  (List.range (n.maxIndex.val + 1 - n.minIndex.val)).map fun i => .ofNat (n.minIndex.val + i)

theorem mem_numbers {n : RangeNode} {x : Uint24} : x ∈ n.numbers ↔ n.Covers x := by
  have hmax := n.maxIndex.isLt
  simp only [numbers, List.mem_map, List.mem_range, Covers, Uint24.le_iff]
  constructor
  · rintro ⟨i, hi, rfl⟩
    rw [Uint24.val_ofNat_of_lt (by omega)]
    omega
  · rintro ⟨hmin, hle⟩
    refine ⟨x.val - n.minIndex.val, by omega, ?_⟩
    rw [Nat.add_sub_cancel' hmin, Uint24.ofNat_val]

theorem comp_eq_lt {a : Uint24} {n : RangeNode} : comp a n = .lt ↔ a < n.minIndex := by
  unfold comp
  split
  · simp [*]
  · split <;> simp [*]

theorem comp_eq_gt {a : Uint24} {n : RangeNode} (h : n.minIndex ≤ n.maxIndex) :
    comp a n = .gt ↔ n.maxIndex < a := by
  simp only [Uint24.le_iff, Uint24.lt_iff, comp] at h ⊢
  split
  · simp only [reduceCtorEq, false_iff]
    omega
  · split <;> simp [*]

theorem comp_eq_eq {a : Uint24} {n : RangeNode} : comp a n = .eq ↔ n.Covers a := by
  simp only [comp, Covers, Uint24.le_iff, Uint24.lt_iff]
  split
  · simp only [reduceCtorEq, false_iff]
    omega
  · split
    · simp only [reduceCtorEq, false_iff]
      omega
    · simp only [true_iff]
      omega

end RangeNode

/-- The ranges as `Insert` keeps them and `Deserialize` demands them. -/
structure Ascending (ranges : List RangeNode) : Prop where
  min_le_max : ∀ n ∈ ranges, n.minIndex ≤ n.maxIndex
  ascending : ranges.Pairwise fun a b => a.maxIndex < b.minIndex

instance (ranges : List RangeNode) : Decidable (Ascending ranges) :=
  decidable_of_iff ((∀ n ∈ ranges, n.minIndex ≤ n.maxIndex) ∧
      ranges.Pairwise fun a b => a.maxIndex < b.minIndex)
    ⟨fun h => ⟨h.1, h.2⟩, fun h => ⟨h.1, h.2⟩⟩

theorem Ascending.nil : Ascending [] := ⟨by simp, .nil⟩

theorem ascending_append {xs ys : List RangeNode} : Ascending (xs ++ ys) ↔
    Ascending xs ∧ Ascending ys ∧ ∀ a ∈ xs, ∀ b ∈ ys, a.maxIndex < b.minIndex := by
  constructor
  · rintro ⟨hle, hasc⟩
    obtain ⟨h1, h2, h3⟩ := List.pairwise_append.mp hasc
    exact ⟨⟨fun n hn => hle n (by simp [hn]), h1⟩, ⟨fun n hn => hle n (by simp [hn]), h2⟩, h3⟩
  · rintro ⟨⟨hx, h1⟩, ⟨hy, h2⟩, h3⟩
    refine ⟨fun n hn => ?_, List.pairwise_append.mpr ⟨h1, h2, h3⟩⟩
    exact (List.mem_append.mp hn).elim (hx n) (hy n)

theorem ascending_cons {n : RangeNode} {ys : List RangeNode} : Ascending (n :: ys) ↔
    n.minIndex ≤ n.maxIndex ∧ Ascending ys ∧ ∀ b ∈ ys, n.maxIndex < b.minIndex := by
  constructor
  · rintro ⟨hle, hasc⟩
    obtain ⟨h1, h2⟩ := List.pairwise_cons.mp hasc
    exact ⟨hle n (by simp), ⟨fun m hm => hle m (by simp [hm]), h2⟩, h1⟩
  · rintro ⟨hn, ⟨hy, h2⟩, h1⟩
    refine ⟨fun m hm => ?_, List.pairwise_cons.mpr ⟨h1, h2⟩⟩
    rcases List.mem_cons.mp hm with rfl | hm
    · exact hn
    · exact hy m hm

theorem Ascending.monotone {ranges : List RangeNode} (h : Ascending ranges) (key : Uint24) :
    OrderedList.Monotone RangeNode.comp ranges key := by
  apply List.Pairwise.imp_of_mem _ h.ascending
  intro a b ha hb hab
  have hale := h.min_le_max a ha
  have hble := h.min_le_max b hb
  rw [RangeNode.comp_eq_lt, RangeNode.comp_eq_lt, RangeNode.comp_eq_gt hale,
    RangeNode.comp_eq_gt hble]
  simp only [Uint24.lt_iff, Uint24.le_iff] at *
  omega

structure RangeList where
  ranges : List RangeNode
  ascending : Ascending ranges

namespace RangeList

def empty : RangeList := ⟨[], .nil⟩

def Covers (r : RangeList) (x : Uint24) : Prop := ∃ n ∈ r.ranges, n.Covers x

instance (r : RangeList) (x : Uint24) : Decidable (r.Covers x) :=
  inferInstanceAs (Decidable (∃ n ∈ r.ranges, n.Covers x))

def isWithinRange (r : RangeList) (value : Uint24) : Bool :=
  (OrderedList.getIndexFromKey RangeNode.comp r.ranges value).2

theorem isWithinRange_iff {r : RangeList} {x : Uint24} : r.isWithinRange x = true ↔ r.Covers x := by
  rw [isWithinRange, OrderedList.getIndexFromKey_eq_true_iff (r.ascending.monotone x)]
  simp only [RangeNode.comp_eq_eq]
  exact Iff.rfl

/-- All numbers of the ranges, in the order in which the loops over them meet them. -/
def numbers (r : RangeList) : List Uint24 := r.ranges.flatMap RangeNode.numbers

theorem mem_numbers {r : RangeList} {x : Uint24} : x ∈ r.numbers ↔ r.Covers x := by
  simp only [numbers, List.mem_flatMap, RangeNode.mem_numbers]
  exact Iff.rfl

/-- `Insert` on the ranges. -/
def insertIndex (ranges : List RangeNode) (index : Uint24) : List RangeNode :=
  if ranges = [] then [⟨index, index⟩]
  else
    let found := OrderedList.getIndexFromKey RangeNode.comp ranges index
    if found.2 then ranges
    else if found.1 = ranges.length then
      match ranges[found.1 - 1]? with
      | none => ranges
      | some last =>
        if index = last.maxIndex + 1 then
          ranges.set (found.1 - 1) { last with maxIndex := last.maxIndex.succ }
        else if index > last.maxIndex + 1 then ranges ++ [⟨index, index⟩]
        else ranges
    else
      match ranges[found.1]? with
      | none => ranges
      | some node =>
        if index < node.minIndex - 1 then ranges.insertIdx found.1 ⟨index, index⟩
        else if index = node.minIndex - 1 then
          -- decrease minIndex and join left
          let lowered := { node with minIndex := node.minIndex.pred }
          match found.1, ranges[found.1 - 1]? with
          | i + 1, some left =>
            if left.maxIndex + 1 = lowered.minIndex then
              ((ranges.set (i + 1) lowered).set i
                { left with maxIndex := lowered.maxIndex }).eraseIdx (i + 1)
            else ranges.set (i + 1) lowered
          | i, _ => ranges.set i lowered
        else if index = node.maxIndex + 1 then
          -- increase maxIndex and join right
          let raised := { node with maxIndex := node.maxIndex.succ }
          match ranges[found.1 + 1]? with
          | some right =>
            if right.minIndex = raised.maxIndex + 1 then
              ((ranges.set found.1 raised).set (found.1 + 1)
                { right with minIndex := raised.minIndex }).eraseIdx found.1
            else ranges.set found.1 raised
          | none => ranges.set found.1 raised
        else ranges

/-- What inserting does around the place of a number that no range covers. -/
def joinAt (xs : List RangeNode) (index : Uint24) (ys : List RangeNode) : List RangeNode :=
  match xs.getLast?, ys with
  | none, [] => [⟨index, index⟩]
  | some l, [] =>
    if index = l.maxIndex + 1 then xs.dropLast ++ [⟨l.minIndex, index⟩]
    else xs ++ [⟨index, index⟩]
  | none, y :: ys =>
    if index < y.minIndex - 1 then ⟨index, index⟩ :: y :: ys else ⟨index, y.maxIndex⟩ :: ys
  | some l, y :: ys =>
    if index < y.minIndex - 1 then xs ++ ⟨index, index⟩ :: y :: ys
    else if l.maxIndex + 1 = index then xs.dropLast ++ ⟨l.minIndex, y.maxIndex⟩ :: ys
    else xs ++ ⟨index, y.maxIndex⟩ :: ys

theorem insertIndex_split {xs ys : List RangeNode} {index : Uint24}
    (hx : ∀ n ∈ xs, n.maxIndex < index) (hy : ∀ n ∈ ys, index < n.minIndex)
    (hplace : (OrderedList.getIndexFromKey RangeNode.comp (xs ++ ys) index).1 = xs.length)
    (hnone : (OrderedList.getIndexFromKey RangeNode.comp (xs ++ ys) index).2 = false) :
    insertIndex (xs ++ ys) index = joinAt xs index ys := by
  have hfound : OrderedList.getIndexFromKey RangeNode.comp (xs ++ ys) index = (xs.length, false) :=
    Prod.ext hplace hnone
  cases ys with
  | nil =>
    cases xs using List.reverseRecOn with
    | nil => rfl
    | append_singleton xs l =>
      have hl := hx l (by simp)
      have hsucc := Uint24.val_succ_of_lt hl
      simp only [List.append_nil] at hfound ⊢
      simp only [insertIndex, hfound, joinAt, List.append_eq_nil_iff, List.cons_ne_self, and_false,
        if_false, Bool.false_eq_true, if_true, List.length_append, List.length_singleton,
        Nat.add_sub_cancel, List.getElem?_concat_length, List.getLast?_concat,
        List.dropLast_concat]
      by_cases he : index = l.maxIndex + 1
      · simp [he, Uint24.add_one]
      · have hgt : index > l.maxIndex + 1 := by
          have hne := mt Uint24.eq_iff.mpr he
          rw [Uint24.add_one] at *
          rw [Uint24.lt_iff] at hl
          rw [gt_iff_lt, Uint24.lt_iff]
          omega
        simp only [he, if_false, hgt, if_true]
  | cons y ys =>
    have hlt := hy y (by simp)
    have hpred := Uint24.val_pred_of_lt hlt
    have hne : xs ++ y :: ys ≠ [] := by simp
    have hlen : xs.length ≠ (xs ++ y :: ys).length := by simp
    have hget : (xs ++ y :: ys)[xs.length]? = some y := by simp
    have heq : ¬ index < y.minIndex - 1 → index = y.minIndex - 1 := by
      intro hno
      rw [Uint24.eq_iff]
      show index.val = y.minIndex.pred.val
      rw [Uint24.lt_iff] at hlt
      have hno : ¬ index.val < y.minIndex.pred.val := hno
      omega
    simp only [insertIndex, hfound, hne, if_false, Bool.false_eq_true, hlen, hget]
    by_cases hbefore : index < y.minIndex - 1
    · have hins : (xs ++ y :: ys).insertIdx xs.length ⟨index, index⟩ =
          xs ++ ⟨index, index⟩ :: y :: ys := by
        clear * -
        induction xs with
        | nil => rfl
        | cons x xs ih => exact congrArg (List.cons x) ih
      simp only [hbefore, if_true, hins, joinAt]
      cases hlast : xs.getLast? with
      | none =>
        obtain rfl := List.getLast?_eq_none_iff.mp hlast
        exact (if_pos hbefore).symm
      | some l => exact (if_pos hbefore).symm
    · have hidx := heq hbefore
      simp only [hbefore, if_false]
      rw [if_pos hidx]
      have hlow : y.minIndex.pred = index := hidx.symm
      cases xs using List.reverseRecOn with
      | nil => simp [joinAt, hbefore, hlow]
      | append_singleton xs l =>
        simp [joinAt, hbefore, hlow, List.eraseIdx_append_of_length_le]

theorem ascending_joinAt {xs ys : List RangeNode} {index : Uint24} (h : Ascending (xs ++ ys))
    (hx : ∀ n ∈ xs, n.maxIndex < index) (hy : ∀ n ∈ ys, index < n.minIndex) :
    Ascending (joinAt xs index ys) := by
  obtain ⟨hxs, hys, hxy⟩ := ascending_append.mp h
  have hself : index ≤ index := Nat.le_refl _
  cases xs using List.reverseRecOn with
  | nil =>
    cases ys with
    | nil => exact ascending_cons.mpr ⟨hself, .nil, by simp⟩
    | cons y ys =>
      obtain ⟨hle, hys', hlt⟩ := ascending_cons.mp hys
      have hyi := hy y (by simp)
      simp only [joinAt, List.getLast?_nil]
      split
      · exact ascending_cons.mpr ⟨hself, hys, hy⟩
      · exact ascending_cons.mpr ⟨Nat.le_trans (Nat.le_of_lt hyi) hle, hys', hlt⟩
  | append_singleton xs l =>
    obtain ⟨hxs', hl, hxl⟩ := ascending_append.mp hxs
    have hlle := (ascending_cons.mp hl).1
    have hli := hx l (by simp)
    have hlow : l.minIndex ≤ index := Nat.le_trans hlle (Nat.le_of_lt hli)
    simp only [joinAt, List.getLast?_concat, List.dropLast_concat]
    cases ys with
    | nil =>
      dsimp only
      split
      · apply ascending_append.mpr
        refine ⟨hxs', ascending_cons.mpr ⟨hlow, .nil, by simp⟩, ?_⟩
        simpa using hxl
      · apply ascending_append.mpr
        refine ⟨hxs, ascending_cons.mpr ⟨hself, .nil, by simp⟩, ?_⟩
        simpa using hx
    | cons y ys =>
      obtain ⟨hle, hys', hlt⟩ := ascending_cons.mp hys
      have hyi := hy y (by simp)
      have hup : index ≤ y.maxIndex := Nat.le_trans (Nat.le_of_lt hyi) hle
      dsimp only
      split
      · apply ascending_append.mpr
        refine ⟨hxs, ascending_cons.mpr ⟨hself, hys, hy⟩, fun a ha b hb => ?_⟩
        rcases List.mem_cons.mp hb with rfl | hb
        · exact hx a ha
        · exact hxy a ha b hb
      · split
        · apply ascending_append.mpr
          refine ⟨hxs', ascending_cons.mpr ⟨Nat.le_trans hlow hup, hys', hlt⟩, fun a ha b hb => ?_⟩
          rcases List.mem_cons.mp hb with rfl | hb
          · exact hxl a ha l (by simp)
          · exact hxy a (by simp [ha]) b (by simp [hb])
        · apply ascending_append.mpr
          refine ⟨hxs, ascending_cons.mpr ⟨hup, hys', hlt⟩, fun a ha b hb => ?_⟩
          rcases List.mem_cons.mp hb with rfl | hb
          · exact hx a ha
          · exact hxy a ha b (by simp [hb])

theorem exists_covers_append {xs ys : List RangeNode} {x : Uint24} :
    (∃ n ∈ xs ++ ys, n.Covers x) ↔ (∃ n ∈ xs, n.Covers x) ∨ ∃ n ∈ ys, n.Covers x := by
  simp only [List.mem_append, or_and_right, exists_or]

theorem exists_covers_cons {n : RangeNode} {ys : List RangeNode} {x : Uint24} :
    (∃ m ∈ n :: ys, m.Covers x) ↔ n.Covers x ∨ ∃ m ∈ ys, m.Covers x := by
  simp only [List.mem_cons, exists_eq_or_imp]

theorem covers_self {index x : Uint24} : (⟨index, index⟩ : RangeNode).Covers x ↔ x = index := by
  simp only [RangeNode.Covers, Uint24.le_iff, Uint24.eq_iff]
  omega

theorem covers_joinAt {xs ys : List RangeNode} {index x : Uint24} (h : Ascending (xs ++ ys))
    (hx : ∀ n ∈ xs, n.maxIndex < index) (hy : ∀ n ∈ ys, index < n.minIndex) :
    (∃ n ∈ joinAt xs index ys, n.Covers x) ↔ x = index ∨ ∃ n ∈ xs ++ ys, n.Covers x := by
  obtain ⟨hxs, hys, hxy⟩ := ascending_append.mp h
  -- extending a range to a number next to it adds exactly that number
  have grow_left : ∀ y ∈ ys, ¬ index < y.minIndex - 1 →
      ((⟨index, y.maxIndex⟩ : RangeNode).Covers x ↔ x = index ∨ y.Covers x) := by
    intro y hmem hno
    have hyi := hy y hmem
    have hle := hys.min_le_max y hmem
    have hpred := Uint24.val_pred_of_lt hyi
    have hno : ¬ index.val < y.minIndex.pred.val := hno
    simp only [RangeNode.Covers, Uint24.le_iff, Uint24.lt_iff, Uint24.eq_iff] at *
    omega
  cases xs using List.reverseRecOn with
  | nil =>
    cases ys with
    | nil => simp [joinAt, covers_self]
    | cons y ys =>
      simp only [joinAt, List.getLast?_nil, List.nil_append]
      split
      · rw [exists_covers_cons, covers_self]
      · rename_i hno
        rw [exists_covers_cons, exists_covers_cons, grow_left y (by simp) hno, or_assoc]
  | append_singleton xs l =>
    have hli := hx l (by simp)
    have hle := hxs.min_le_max l (by simp)
    have hsucc := Uint24.val_succ_of_lt hli
    simp only [joinAt, List.getLast?_concat, List.dropLast_concat]
    cases ys with
    | nil =>
      dsimp only
      split
      · rename_i hidx
        have grow : (⟨l.minIndex, index⟩ : RangeNode).Covers x ↔ x = index ∨ l.Covers x := by
          subst hidx
          rw [Uint24.add_one] at hli ⊢
          simp only [RangeNode.Covers, Uint24.le_iff, Uint24.lt_iff, Uint24.eq_iff] at *
          omega
        simp only [List.append_nil, exists_covers_append, exists_covers_cons, grow]
        simp only [List.not_mem_nil, false_and, exists_false, or_false]
        exact or_left_comm
      · simp only [List.append_nil, exists_covers_append, exists_covers_cons, covers_self]
        simp only [List.not_mem_nil, false_and, exists_false, or_false]
        exact or_comm
    | cons y ys =>
      dsimp only
      split
      · simp only [exists_covers_append, exists_covers_cons, covers_self]
        exact or_left_comm
      · rename_i hno
        split
        · rename_i hidx
          have hcat : (⟨l.minIndex, y.maxIndex⟩ : RangeNode).Covers x ↔
              l.Covers x ∨ x = index ∨ y.Covers x := by
            rw [← grow_left y (by simp) hno]
            have hyi := hy y (by simp)
            have hyle := hys.min_le_max y (by simp)
            rw [Uint24.add_one] at hidx
            subst hidx
            simp only [RangeNode.Covers, Uint24.le_iff, Uint24.lt_iff] at *
            omega
          simp only [exists_covers_append, exists_covers_cons, hcat, List.not_mem_nil, false_and,
            exists_false, or_false]
          rw [or_assoc, or_assoc, or_assoc, or_left_comm (b := x = index), or_left_comm (b := x = index)]
        · simp only [exists_covers_append, exists_covers_cons, grow_left y (by simp) hno]
          rw [or_assoc (a := x = index), or_left_comm]

theorem insertIndex_spec {ranges : List RangeNode} (h : Ascending ranges) (index : Uint24) :
    Ascending (insertIndex ranges index) ∧
      ∀ x, (∃ n ∈ insertIndex ranges index, n.Covers x) ↔
        x = index ∨ ∃ n ∈ ranges, n.Covers x := by
  have hmono := h.monotone index
  cases hfound : (OrderedList.getIndexFromKey RangeNode.comp ranges index).2 with
  | true =>
    have hcov : ∃ n ∈ ranges, n.Covers index := by
      simpa only [RangeNode.comp_eq_eq] using
        (OrderedList.getIndexFromKey_eq_true_iff hmono).mp hfound
    have hsame : insertIndex ranges index = ranges := by
      have hne : ranges ≠ [] := by
        rintro rfl
        simp at hcov
      simp only [insertIndex, hne, if_false, hfound, if_true]
    rw [hsame]
    refine ⟨h, fun x => ⟨.inr, ?_⟩⟩
    rintro (rfl | hx)
    · exact hcov
    · exact hx
  | false =>
    obtain ⟨xs, ys, rfl, hplace, hgt, hlt⟩ := OrderedList.getIndexFromKey_split hmono hfound
    have hx : ∀ n ∈ xs, n.maxIndex < index := fun n hn =>
      (RangeNode.comp_eq_gt (h.min_le_max n (by simp [hn]))).mp (hgt n hn)
    have hy : ∀ n ∈ ys, index < n.minIndex := fun n hn => RangeNode.comp_eq_lt.mp (hlt n hn)
    rw [insertIndex_split hx hy hplace hfound]
    exact ⟨ascending_joinAt h hx hy, fun x => covers_joinAt h hx hy⟩

def insert (r : RangeList) (index : Uint24) : RangeList :=
  ⟨insertIndex r.ranges index, (insertIndex_spec r.ascending index).1⟩

theorem covers_insert {r : RangeList} {index x : Uint24} :
    (r.insert index).Covers x ↔ x = index ∨ r.Covers x :=
  (insertIndex_spec r.ascending index).2 x

end RangeList

end SLikeNet
