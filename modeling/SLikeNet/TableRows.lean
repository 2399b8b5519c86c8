import SLikeNet.Table

/-! `GetRowByIndex` of a table, which walks over the leaves of the B+ tree. -/

namespace SLikeNet

namespace Table

variable {R : Type}

/-- The leaves of the B+ tree from `GetListHead` on, with the keys in order. -/
structure Leaves (R : Type) where
  pages : List (List (ℕ × Row R))
  sorted : pages.flatten.Pairwise fun a b => a.1 < b.1

/-- `GetRowCount`, the sizes of the leaves one after the other. -/
def getRowCount (leaves : Leaves R) : ℕ :=
  leaves.pages.foldl (fun count page => count + page.length) 0

/-- The loop of `GetRowByIndex`; the row comes with its key. -/
def getRowByIndexFrom : List (List (ℕ × Row R)) → ℕ → Option (ℕ × Row R)
  | [], _ => none
  | cur :: next, rowIndex =>
    if rowIndex < cur.length then cur[rowIndex]?
    -- only the index just behind this leaf goes on to the next one
    else if rowIndex ≤ cur.length then getRowByIndexFrom next (rowIndex - cur.length)
    else none

def getRowByIndex (leaves : Leaves R) (rowIndex : ℕ) : Option (ℕ × Row R) :=
  getRowByIndexFrom leaves.pages rowIndex

/-- As many rows as the index says have a smaller id than the row that is returned. -/
def FollowsKeyOrder (leaves : Leaves R) (rowIndex : ℕ) : Prop :=
  if rowIndex < getRowCount leaves then
    ∃ entry ∈ leaves.pages.flatten, getRowByIndex leaves rowIndex = some entry ∧
      leaves.pages.flatten.countP (fun other => other.1 < entry.1) = rowIndex
  else getRowByIndex leaves rowIndex = none

def firstSize : List (List (ℕ × Row R)) → ℕ
  | [] => 0
  | page :: _ => page.length

theorem getRowCount_eq (leaves : Leaves R) :
    getRowCount leaves = leaves.pages.flatten.length := by
  have hfold : ∀ (pages : List (List (ℕ × Row R))) (count : ℕ),
      pages.foldl (fun count page => count + page.length) count =
        count + pages.flatten.length := by
    intro pages
    induction pages with
    | nil => exact fun _ => rfl
    | cons page pages ih =>
      intro count
      rw [List.foldl_cons, ih, List.flatten_cons, List.length_append, Nat.add_assoc]
  rw [getRowCount, hfold, Nat.zero_add]

theorem getRowByIndexFrom_zero (pages : List (List (ℕ × Row R))) :
    getRowByIndexFrom pages 0 = pages.flatten[0]? := by
  induction pages with
  | nil => rfl
  | cons page pages ih =>
    rw [getRowByIndexFrom, List.flatten_cons]
    by_cases hpos : 0 < page.length
    · rw [if_pos hpos, List.getElem?_append_left hpos]
    · have hnil : page = [] := List.length_eq_zero_iff.mp (Nat.eq_zero_of_not_pos hpos)
      subst hnil
      exact ih

theorem getRowByIndexFrom_eq (pages : List (List (ℕ × Row R))) (rowIndex : ℕ) :
    getRowByIndexFrom pages rowIndex =
      if rowIndex ≤ firstSize pages then pages.flatten[rowIndex]? else none := by
  cases pages with
  | nil =>
    rw [getRowByIndexFrom]
    split <;> simp
  | cons page pages =>
    rw [getRowByIndexFrom, firstSize, List.flatten_cons]
    by_cases hlt : rowIndex < page.length
    · rw [if_pos hlt, if_pos (Nat.le_of_lt hlt), List.getElem?_append_left hlt]
    · rw [if_neg hlt]
      by_cases hle : rowIndex ≤ page.length
      · obtain rfl : rowIndex = page.length := by omega
        rw [if_pos hle, if_pos hle, Nat.sub_self, getRowByIndexFrom_zero,
          List.getElem?_append_right (Nat.le_refl _), Nat.sub_self]
      · rw [if_neg hle, if_neg hle]

theorem countP_lt_of_sorted {rows : List (ℕ × Row R)} (h : rows.Pairwise fun a b => a.1 < b.1)
    {i : ℕ} {entry : ℕ × Row R} (hentry : rows[i]? = some entry) :
    rows.countP (fun other => other.1 < entry.1) = i := by
  induction rows generalizing i with
  | nil => simp at hentry
  | cons first rows ih =>
    obtain ⟨hfirst, hrows⟩ := List.pairwise_cons.mp h
    cases i with
    | zero =>
      obtain rfl : first = entry := by simpa using hentry
      rw [List.countP_eq_zero]
      intro other hother
      rcases List.mem_cons.mp hother with rfl | hother
      · simp
      · have hlt := hfirst other hother
        simp only [decide_eq_true_eq]
        omega
    | succ i =>
      rw [List.getElem?_cons_succ] at hentry
      have hlt := hfirst entry (List.mem_of_getElem? hentry)
      rw [List.countP_cons_of_pos (by simpa using hlt), ih hrows hentry]

/-- An index is answered as the order of the keys says exactly if it lies in the first leaf or just
behind it, or outside the table. -/
theorem followsKeyOrder_iff (leaves : Leaves R) (rowIndex : ℕ) :
    FollowsKeyOrder leaves rowIndex ↔
      rowIndex ≤ firstSize leaves.pages ∨ getRowCount leaves ≤ rowIndex := by
  rw [FollowsKeyOrder, getRowByIndex, getRowByIndexFrom_eq, getRowCount_eq]
  by_cases hin : rowIndex < leaves.pages.flatten.length
  · rw [if_pos hin]
    by_cases hle : rowIndex ≤ firstSize leaves.pages
    · rw [if_pos hle]
      refine ⟨fun _ => .inl hle, fun _ => ?_⟩
      have hentry := List.getElem?_eq_getElem hin
      exact ⟨_, List.getElem_mem hin, hentry, countP_lt_of_sorted leaves.sorted hentry⟩
    · rw [if_neg hle]
      constructor
      · rintro ⟨entry, -, hnone, -⟩
        cases hnone
      · rintro (h | h)
        · exact absurd h hle
        · omega
  · rw [if_neg hin]
    have hnone : leaves.pages.flatten[rowIndex]? = none :=
      List.getElem?_eq_none (Nat.le_of_not_lt hin)
    rw [hnone, ite_self]
    exact ⟨fun _ => .inr (Nat.le_of_not_lt hin), fun _ => rfl⟩

/-- Rows 0 to 16 that were added in this order: a full leaf is split into one of 8 rows and, with
the new row, one of 9. -/
def seventeenRows : Leaves Int where
  pages := [(List.range 8).map fun i => (i, []), (List.range 9).map fun i => (i + 8, [])]
  sorted := by decide

theorem tenth_row_missed :
    ¬ ∀ (leaves : Leaves Int) (rowIndex : ℕ), FollowsKeyOrder leaves rowIndex := by
  intro h
  have hrow := h seventeenRows 9
  rw [FollowsKeyOrder, if_pos (by decide)] at hrow
  obtain ⟨entry, -, hsome, -⟩ := hrow
  have hnone : getRowByIndex seventeenRows 9 = none := by decide
  rw [hnone] at hsome
  cases hsome

end Table

end SLikeNet
