import SLikeNet.QueryFilters

/-! The result of `QueryTable`: the columns and the rows that were asked for, unless a filter looks
at a null string or asks for an order of or a difference in binary data. -/

namespace SLikeNet

namespace Table

variable {R : Type} {table : Table R}

/-! ### Rows -/

theorem mem_insertRow_iff {rowId : ℕ} {row : Row R} {rows : List (ℕ × Row R)}
    (h : rowId ∉ rows.map Prod.fst) (entry : ℕ × Row R) :
    entry ∈ insertRow rowId row rows ↔ entry = (rowId, row) ∨ entry ∈ rows := by
  induction rows with
  | nil => simp [insertRow]
  | cons first rows ih =>
    rw [List.map_cons, List.mem_cons, not_or] at h
    rw [insertRow, if_neg h.1]
    by_cases hlt : rowId < first.1
    · rw [if_pos hlt, List.mem_cons]
    · rw [if_neg hlt, List.mem_cons, ih h.2, List.mem_cons]
      tauto

theorem getRow_eq_some_iff {rowId : ℕ} {row : Row R} {rows : List (ℕ × Row R)}
    (h : (rows.map Prod.fst).Nodup) : getRow rowId rows = some row ↔ (rowId, row) ∈ rows := by
  induction rows with
  | nil => simp [getRow]
  | cons first rows ih =>
    obtain ⟨id, firstRow⟩ := first
    rw [List.map_cons, List.nodup_cons] at h
    rw [getRow] at ih ⊢
    by_cases heq : id = rowId
    · subst heq
      have hnot : (id, row) ∉ rows := fun hmem => h.1 (List.mem_map.mpr ⟨_, hmem, rfl⟩)
      simp [hnot, eq_comm]
    · have hne : ¬rowId = id := fun h => heq h.symm
      simp [heq, hne, ih h.2]

/-- The columns have names, the rows different keys, and the cells the types of their columns. -/
structure Valid (table : Table R) : Prop where
  columnNames : ∀ column ∈ table.columns, column.columnName ≠ []
  rowIds : (table.rows.map Prod.fst).Nodup
  typedRows : ∀ entry ∈ table.rows, table.TypedRow entry.2

/-! ### The columns of the result -/

/-- The columns that are asked for, which are all where no list is given. -/
def chosenColumns (table : Table R) (columnIndicesSubset : List ℕ) : List ℕ :=
  if columnIndicesSubset = [] then List.range table.columns.length else columnIndicesSubset

theorem chosenColumns_lt {columnIndicesSubset : List ℕ}
    (hcolumns : ∀ i ∈ columnIndicesSubset, i < table.columns.length) :
    ∀ i ∈ table.chosenColumns columnIndicesSubset, i < table.columns.length := by
  intro i hi
  rw [chosenColumns] at hi
  by_cases hnil : columnIndicesSubset = []
  · rw [if_pos hnil] at hi
    exact List.mem_range.mp hi
  · rw [if_neg hnil] at hi
    exact hcolumns i hi

theorem addColumns (htable : table.Valid) (columnIndices : List ℕ) (columns : List ColumnDescriptor) :
    columnIndices.foldl table.addColumnOf ⟨columns, []⟩ =
      ⟨columns ++ columnIndices.filterMap (table.columns[·]?), []⟩ := by
  induction columnIndices generalizing columns with
  | nil => simp
  | cons columnIndex columnIndices ih =>
    rw [List.foldl_cons, addColumnOf]
    cases hcolumn : table.columns[columnIndex]? with
    | none =>
      rw [List.filterMap_cons, hcolumn]
      exact ih columns
    | some column =>
      have hname := htable.columnNames column (List.mem_of_getElem? hcolumn)
      have hadd : (⟨columns, []⟩ : Table R).addColumn column.columnName column.columnType =
          ⟨columns ++ [column], []⟩ := by
        rw [addColumn, if_neg hname]
        rfl
      show columnIndices.foldl table.addColumnOf (Table.addColumn _ _ _) = _
      rw [hadd, ih, List.filterMap_cons, hcolumn, List.append_assoc]
      rfl

theorem setByType_of_hasType {cell : Cell R} {columnType : ColumnType}
    (h : cell.HasType columnType) : cell.setByType columnType = cell := by
  cases cell with
  | empty => cases columnType <;> rfl
  | number i =>
    obtain rfl : columnType = .numeric := h
    rfl
  | string c =>
    obtain rfl : columnType = .string := h
    rfl
  | binary c =>
    obtain rfl : columnType = .binary := h
    rfl
  | pointer ptr =>
    obtain rfl : columnType = .pointer := h
    rfl

/-- The cells of a row in the columns that are asked for. -/
def cellsOf (row : Row R) (columnIndices : List ℕ) : Row R :=
  columnIndices.map fun columnIndex => row.getD columnIndex .empty

/-- `AddRowColumns` copies the cells as they are, since the result's columns have their types. -/
theorem copied_cells {row : Row R} (hrow : table.TypedRow row) {columnIndices : List ℕ}
    (hcolumns : ∀ i ∈ columnIndices, i < table.columns.length) :
    List.zipWith (fun columnIndex (column : ColumnDescriptor) =>
        (row.getD columnIndex .empty).setByType column.columnType) columnIndices
      (columnIndices.filterMap (table.columns[·]?)) = cellsOf row columnIndices := by
  induction columnIndices with
  | nil => rfl
  | cons columnIndex columnIndices ih =>
    have hlt := hcolumns columnIndex (List.mem_cons_self ..)
    have hlt' : columnIndex < row.length := List.Forall₂.length_eq hrow ▸ hlt
    have hcell := List.Forall₂.get hrow hlt hlt'
    have hget : row.getD columnIndex .empty = row[columnIndex] := by
      rw [List.getD_eq_getElem?_getD, List.getElem?_eq_getElem hlt', Option.getD_some]
    rw [cellsOf, List.map_cons, List.filterMap_cons, List.getElem?_eq_getElem hlt]
    simp only [List.zipWith_cons_cons]
    rw [ih fun i hi => hcolumns i (List.mem_cons_of_mem _ hi), hget]
    exact congrArg (· :: cellsOf row columnIndices) (setByType_of_hasType hcell)

/-! ### The rows of the result -/

theorem row_unique (htable : table.Valid) {rowId : ℕ} {row row' : Row R}
    (h : (rowId, row) ∈ table.rows) (h' : (rowId, row') ∈ table.rows) : row = row' := by
  rw [← getRow_eq_some_iff htable.rowIds] at h h'
  exact Option.some.inj (h.symm.trans h')

/-- The rows that a query goes through. -/
def entries (table : Table R) (rowIds : List ℕ) : List (ℕ × Row R) :=
  if rowIds = [] then table.rows
  else rowIds.filterMap fun rowId => (getRow rowId table.rows).map fun row => (rowId, row)

theorem mem_entries_iff (htable : table.Valid) (rowIds : List ℕ) (entry : ℕ × Row R) :
    entry ∈ table.entries rowIds ↔ entry ∈ table.rows ∧ (rowIds = [] ∨ entry.1 ∈ rowIds) := by
  rw [entries]
  by_cases hnil : rowIds = []
  · simp [hnil]
  · rw [if_neg hnil, List.mem_filterMap]
    constructor
    · rintro ⟨rowId, hrowId, hentry⟩
      obtain ⟨row, hrow, rfl⟩ := Option.map_eq_some_iff.mp hentry
      exact ⟨(getRow_eq_some_iff htable.rowIds).mp hrow, Or.inr hrowId⟩
    · rintro ⟨hentry, hrowId⟩
      refine ⟨entry.1, hrowId.resolve_left hnil, ?_⟩
      rw [(getRow_eq_some_iff htable.rowIds).mpr hentry, Option.map_some]

theorem nodup_entries (htable : table.Valid) {rowIds : List ℕ} (hrowIds : rowIds.Nodup) :
    ((table.entries rowIds).map Prod.fst).Nodup := by
  rw [entries]
  by_cases hnil : rowIds = []
  · rw [if_pos hnil]
    exact htable.rowIds
  · rw [if_neg hnil]
    have hsub : ((rowIds.filterMap fun rowId =>
        (getRow rowId table.rows).map fun row => (rowId, row)).map Prod.fst).Sublist rowIds := by
      clear hrowIds hnil
      induction rowIds with
      | nil => simp
      | cons rowId rowIds ih =>
        cases hget : getRow rowId table.rows with
        | none => simpa [hget] using ih.cons rowId
        | some row => simpa [hget] using ih
    exact hrowIds.sublist hsub

section QueryTable

variable [BEq R] [LT R] [LE R] [DecidableLT R] [DecidableLE R]

def Passes (table : Table R) (filters : List (FilterQuery R)) (row : Row R) : Prop :=
  filters = [] ∨ table.queryFilters row filters false = true

theorem queryRow_columns (columnIndices : List ℕ) (filters : List (FilterQuery R))
    (result : Table R) (entry : ℕ × Row R) :
    (table.queryRow columnIndices filters result entry).columns = result.columns := by
  rw [queryRow]
  split
  · rfl
  · rfl

theorem mem_queryRow_iff (htyped : ∀ entry ∈ table.rows, table.TypedRow entry.2)
    {columnIndices : List ℕ} (hcolumns : ∀ i ∈ columnIndices, i < table.columns.length)
    (filters : List (FilterQuery R)) {result : Table R}
    (hresult : result.columns = columnIndices.filterMap (table.columns[·]?)) {entry : ℕ × Row R}
    (hentry : entry ∈ table.rows) (hnew : entry.1 ∉ result.rows.map Prod.fst)
    (other : ℕ × Row R) :
    other ∈ (table.queryRow columnIndices filters result entry).rows ↔
      other ∈ result.rows ∨
        (table.Passes filters entry.2 ∧ other = (entry.1, cellsOf entry.2 columnIndices)) := by
  rw [queryRow]
  by_cases hpasses : filters = [] ∨ table.queryFilters entry.2 filters false = true
  · rw [if_pos hpasses, addRowColumns, hresult, copied_cells (htyped entry hentry) hcolumns,
      mem_insertRow_iff hnew, Passes, or_comm]
    simp [hpasses]
  · rw [if_neg hpasses, Passes]
    simp [hpasses]

theorem foldl_queryRow_columns (columnIndices : List ℕ) (filters : List (FilterQuery R))
    (result : Table R) (list : List (ℕ × Row R)) :
    (list.foldl (table.queryRow columnIndices filters) result).columns = result.columns := by
  induction list generalizing result with
  | nil => rfl
  | cons entry list ih => rw [List.foldl_cons, ih, queryRow_columns]

theorem mem_foldl_queryRow_iff (htyped : ∀ entry ∈ table.rows, table.TypedRow entry.2)
    {columnIndices : List ℕ} (hcolumns : ∀ i ∈ columnIndices, i < table.columns.length)
    (filters : List (FilterQuery R)) {list : List (ℕ × Row R)} :
    ∀ {result : Table R}, result.columns = columnIndices.filterMap (table.columns[·]?) →
      (∀ entry ∈ list, entry ∈ table.rows) → (list.map Prod.fst).Nodup →
      (∀ entry ∈ list, entry.1 ∉ result.rows.map Prod.fst) → ∀ other : ℕ × Row R,
        (other ∈ (list.foldl (table.queryRow columnIndices filters) result).rows ↔
          other ∈ result.rows ∨ ∃ entry ∈ list, table.Passes filters entry.2 ∧
            other = (entry.1, cellsOf entry.2 columnIndices)) := by
  induction list with
  | nil => simp
  | cons first list ih =>
    intro result hresult hsub hnodup hnew other
    rw [List.map_cons, List.nodup_cons] at hnodup
    have hrow := mem_queryRow_iff htyped hcolumns filters hresult (hsub first (List.mem_cons_self ..))
      (hnew first (List.mem_cons_self ..))
    have hnew' : ∀ entry ∈ list,
        entry.1 ∉ (table.queryRow columnIndices filters result first).rows.map Prod.fst := by
      intro entry hentry hmem
      obtain ⟨other, hother, heq⟩ := List.mem_map.mp hmem
      rcases (hrow other).mp hother with hold | ⟨-, rfl⟩
      · exact hnew entry (List.mem_cons_of_mem _ hentry) (List.mem_map.mpr ⟨other, hold, heq⟩)
      · exact hnodup.1 (List.mem_map.mpr ⟨entry, hentry, heq.symm⟩)
    rw [List.foldl_cons, ih ((queryRow_columns _ _ _ _).trans hresult)
      (fun entry hentry => hsub entry (List.mem_cons_of_mem _ hentry)) hnodup.2 hnew', hrow]
    simp only [List.mem_cons, exists_eq_or_imp, or_assoc]

/-! ### The query -/

/-- What a query is to give: the columns that are asked for, and the row of each identifier that is
asked for and passes all filters, with its cells in these columns. -/
structure IsQueryResult (table : Table R) (columnIndicesSubset : List ℕ)
    (filters : List (FilterQuery R)) (rowIds : List ℕ) (result : Table R) : Prop where
  columns : result.columns =
    (table.chosenColumns columnIndicesSubset).filterMap (table.columns[·]?)
  rows : ∀ rowId cells, (rowId, cells) ∈ result.rows ↔
    ∃ row, (rowId, row) ∈ table.rows ∧ (rowIds = [] ∨ rowId ∈ rowIds) ∧
      (∀ f ∈ filters, table.Holds row f) ∧
      cells = cellsOf row (table.chosenColumns columnIndicesSubset)

theorem queryTable_eq (htable : table.Valid) {columnIndicesSubset : List ℕ}
    (hcolumns : ∀ i ∈ columnIndicesSubset, i < table.columns.length) (hnonempty : table.columns ≠ [])
    (filters : List (FilterQuery R)) (rowIds : List ℕ) :
    table.queryTable columnIndicesSubset filters rowIds =
      (table.entries rowIds).foldl
        (table.queryRow (table.chosenColumns columnIndicesSubset) filters)
        ⟨(table.chosenColumns columnIndicesSubset).filterMap (table.columns[·]?), []⟩ := by
  have hchosen : (if columnIndicesSubset ≠ [] then
      columnIndicesSubset.filter (· < table.columns.length)
      else List.range table.columns.length) = table.chosenColumns columnIndicesSubset := by
    rw [chosenColumns]
    by_cases hnil : columnIndicesSubset = []
    · simp [hnil]
    · rw [if_pos hnil, if_neg hnil, List.filter_eq_self]
      exact fun i hi => decide_eq_true (hcolumns i hi)
  have hne : table.chosenColumns columnIndicesSubset ≠ [] := by
    rw [chosenColumns]
    by_cases hnil : columnIndicesSubset = []
    · rw [if_pos hnil]
      intro hrange
      have hlength := congrArg List.length hrange
      rw [List.length_range, List.length_nil] at hlength
      exact hnonempty (List.eq_nil_of_length_eq_zero hlength)
    · rwa [if_neg hnil]
  rw [queryTable]
  simp only [hchosen, if_neg hne]
  have hadd := addColumns htable (table.chosenColumns columnIndicesSubset) []
  rw [List.nil_append] at hadd
  rw [empty, hadd, entries]

theorem mem_queryTable_iff (htable : table.Valid) {columnIndicesSubset : List ℕ}
    (hcolumns : ∀ i ∈ columnIndicesSubset, i < table.columns.length)
    (hnonempty : table.columns ≠ []) (filters : List (FilterQuery R)) {rowIds : List ℕ}
    (hrowIds : rowIds.Nodup) (other : ℕ × Row R) :
    other ∈ (table.queryTable columnIndicesSubset filters rowIds).rows ↔
      ∃ entry ∈ table.rows, (rowIds = [] ∨ entry.1 ∈ rowIds) ∧ table.Passes filters entry.2 ∧
        other = (entry.1, cellsOf entry.2 (table.chosenColumns columnIndicesSubset)) := by
  rw [queryTable_eq htable hcolumns hnonempty]
  refine (mem_foldl_queryRow_iff htable.typedRows (chosenColumns_lt hcolumns) filters rfl
    (fun entry hentry => ((mem_entries_iff htable rowIds entry).mp hentry).1)
    (nodup_entries htable hrowIds) (by simp) other).trans ?_
  simp only [List.not_mem_nil, false_or, mem_entries_iff htable, and_assoc]

theorem isQueryResult_iff (htable : table.Valid) {columnIndicesSubset : List ℕ}
    (hcolumns : ∀ i ∈ columnIndicesSubset, i < table.columns.length)
    (hnonempty : table.columns ≠ []) (filters : List (FilterQuery R)) {rowIds : List ℕ}
    (hrowIds : rowIds.Nodup) :
    table.IsQueryResult columnIndicesSubset filters rowIds
        (table.queryTable columnIndicesSubset filters rowIds) ↔
      ∀ entry ∈ table.rows, (rowIds = [] ∨ entry.1 ∈ rowIds) →
        (table.Passes filters entry.2 ↔ ∀ f ∈ filters, table.Holds entry.2 f) := by
  have hmem := mem_queryTable_iff htable hcolumns hnonempty filters hrowIds
  constructor
  · rintro ⟨-, hrows⟩ ⟨rowId, row⟩ hentry hselected
    have hrow := hrows rowId (cellsOf row (table.chosenColumns columnIndicesSubset))
    rw [hmem] at hrow
    constructor
    · intro hpasses
      obtain ⟨row', hrow', -, hholds, -⟩ :=
        hrow.mp ⟨(rowId, row), hentry, hselected, hpasses, rfl⟩
      rwa [row_unique htable hentry hrow']
    · intro hholds
      obtain ⟨⟨rowId', row'⟩, hentry', -, hpasses, heq⟩ :=
        hrow.mpr ⟨row, hentry, hselected, hholds, rfl⟩
      obtain ⟨rfl, -⟩ := Prod.mk.inj heq
      rwa [row_unique htable hentry hentry']
  · intro h
    refine ⟨?_, fun rowId cells => ?_⟩
    · rw [queryTable_eq htable hcolumns hnonempty, foldl_queryRow_columns]
    · rw [hmem]
      constructor
      · rintro ⟨⟨rowId', row⟩, hentry, hselected, hpasses, heq⟩
        obtain ⟨rfl, rfl⟩ := Prod.mk.inj heq
        exact ⟨row, hentry, hselected, (h _ hentry hselected).mp hpasses, rfl⟩
      · rintro ⟨row, hentry, hselected, hholds, rfl⟩
        exact ⟨(rowId, row), hentry, hselected, (h _ hentry hselected).mpr hholds, rfl⟩

theorem queryTable_no_columns (hcolumns : table.columns = []) {columnIndicesSubset : List ℕ}
    (hvalid : ∀ i ∈ columnIndicesSubset, i < table.columns.length)
    (filters : List (FilterQuery R)) (rowIds : List ℕ) :
    columnIndicesSubset = [] ∧ table.queryTable columnIndicesSubset filters rowIds = empty := by
  have hnil : columnIndicesSubset = [] := by
    refine List.eq_nil_iff_forall_not_mem.mpr fun i hi => ?_
    have hlt := hvalid i hi
    rw [hcolumns] at hlt
    exact Nat.not_lt_zero i hlt
  refine ⟨hnil, ?_⟩
  rw [queryTable]
  simp [hnil, hcolumns]

/-- The result of a query is the one that is asked for just when no row is selected from a table
without columns, and `QueryRow` is wrong about no row that is selected. -/
theorem queryTable_iff (htable : table.Valid) {columnIndicesSubset : List ℕ}
    (hcolumns : ∀ i ∈ columnIndicesSubset, i < table.columns.length)
    {filters : List (FilterQuery R)} (hfilters : ∀ f ∈ filters, table.TypedFilter f)
    {rowIds : List ℕ} (hrowIds : rowIds.Nodup) :
    table.IsQueryResult columnIndicesSubset filters rowIds
        (table.queryTable columnIndicesSubset filters rowIds) ↔
      ∀ entry ∈ table.rows, (rowIds = [] ∨ entry.1 ∈ rowIds) →
        if table.columns = [] then ¬∀ f ∈ filters, table.Holds entry.2 f
        else ¬table.WronglyIncluded entry.2 filters ∧ ¬table.WronglyExcluded entry.2 filters := by
  by_cases hnonempty : table.columns = []
  · obtain ⟨hnil, hresult⟩ := queryTable_no_columns hnonempty hcolumns filters rowIds
    simp only [if_pos hnonempty]
    constructor
    · rintro ⟨-, hrows⟩ entry hentry hselected hholds
      have hmem := (hrows entry.1 _).mpr ⟨entry.2, hentry, hselected, hholds, rfl⟩
      rw [hresult] at hmem
      exact List.not_mem_nil hmem
    · intro h
      rw [hresult]
      refine ⟨?_, fun rowId cells => ?_⟩
      · simp [empty, hnonempty]
      · constructor
        · exact fun hmem => absurd hmem List.not_mem_nil
        · rintro ⟨row, hentry, hselected, hholds, -⟩
          exact absurd hholds (h (rowId, row) hentry hselected)
  · simp only [if_neg hnonempty]
    rw [isQueryResult_iff htable hcolumns hnonempty filters hrowIds]
    refine forall₂_congr fun entry hentry => forall_congr' fun _ => ?_
    exact queryFilters_iff (htable.typedRows entry hentry) filters hfilters

end QueryTable

/-- A table with one column, and with one row that has one value there. -/
def oneCell (columnType : ColumnType) (cell : Cell Int) : Table Int := ⟨[⟨[97], columnType⟩], [(0, [cell])]⟩

theorem valid_oneCell {columnType : ColumnType} {cell : Cell Int} (h : cell.HasType columnType) :
    (oneCell columnType cell).Valid where
  columnNames := by simp [oneCell]
  rowIds := by simp [oneCell]
  typedRows := by simp [oneCell, TypedRow, h]

def onFirstColumn (operation : FilterQueryType) (cellValue : Cell Int) : FilterQuery Int :=
  ⟨[], 0, cellValue, operation⟩

@[simp] theorem filterCell_oneCell (columnType : ColumnType) (cell cellValue : Cell Int)
    (operation : FilterQueryType) :
    (oneCell columnType cell).filterCell [cell] (onFirstColumn operation cellValue) = cell := rfl

theorem queryTable_number :
    (oneCell .numeric (.number 5)).IsQueryResult [0] [onFirstColumn .greaterThan (.number 3)] [0]
      ((oneCell .numeric (.number 5)).queryTable [0]
        [onFirstColumn .greaterThan (.number 3)] [0]) := by
  have hvalid : (oneCell .numeric (.number 5)).Valid := valid_oneCell (show _ = _ from rfl)
  refine (queryTable_iff hvalid (by simp [oneCell]) ?_ (by simp)).mpr ?_
  · simp [TypedFilter, onFirstColumn, filterColumn, oneCell, Cell.HasType, getColumnType]
  · intro entry hentry _
    obtain rfl : entry = (0, [.number 5]) := List.mem_singleton.mp hentry
    rw [if_neg (by simp [oneCell])]
    simp [WronglyIncluded, WronglyExcluded, DistinguishesBinary, OrdersBinary, LooksAtNull,
      Cell.isNullString]

/-- A row whose binary data is the filter's passes a filter for different data; and one whose string
is a null pointer, which is no empty cell, does not pass a filter for cells that are not empty. -/
theorem queryTable_wrong :
    (((oneCell .binary (.binary [1])).queryTable []
        [onFirstColumn .notEqual (.binary [1])] []).rows = [(0, [(Cell.binary [1] : Cell Int)])] ∧
      ¬(oneCell .binary (.binary [1])).IsQueryResult [] [onFirstColumn .notEqual (.binary [1])] []
        ((oneCell .binary (.binary [1])).queryTable []
          [onFirstColumn .notEqual (.binary [1])] [])) ∧
    ((oneCell .string (.string none)).queryTable []
        [onFirstColumn .notEmpty (.string (some []))] []).rows = [] ∧
      ¬(oneCell .string (.string none)).IsQueryResult []
        [onFirstColumn .notEmpty (.string (some []))] []
        ((oneCell .string (.string none)).queryTable []
          [onFirstColumn .notEmpty (.string (some []))] []) := by
  have hbinary : ((oneCell .binary (.binary [1])).queryTable []
      [onFirstColumn .notEqual (.binary [1])] []).rows = [(0, [(Cell.binary [1] : Cell Int)])] := by
    decide +kernel
  have hnull : ((oneCell .string (.string none)).queryTable []
      [onFirstColumn .notEmpty (.string (some []))] []).rows = [] := by decide +kernel
  refine ⟨⟨hbinary, fun h => ?_⟩, hnull, fun h => ?_⟩
  · obtain ⟨row, hrow, -, hholds, -⟩ :=
      (h.rows 0 [.binary [1]]).mp (by rw [hbinary]; simp)
    obtain rfl : row = [.binary [1]] := by simpa [oneCell] using hrow
    have hfilter := hholds _ (List.mem_singleton.mpr rfl)
    rw [Holds, filterCell_oneCell] at hfilter
    exact hfilter rfl
  · have hrow := (h.rows 0 _).mpr ⟨[.string none], by simp [oneCell], Or.inl rfl, ?_, rfl⟩
    · rw [hnull] at hrow
      exact List.not_mem_nil hrow
    · intro f hf
      rw [List.mem_singleton.mp hf, Holds, filterCell_oneCell]
      intro h
      cases h

end Table

end SLikeNet
