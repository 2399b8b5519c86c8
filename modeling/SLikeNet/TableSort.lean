import Mathlib.Data.List.Induction
import Mathlib.Data.List.Perm.Subperm
import Mathlib.Data.Int.Order.Basic
import Mathlib.Order.Lattice
import SLikeNet.OrderedList
import SLikeNet.QueryFilters

/-! `SortTable`: the rows of a table in an ordered list, which refuses a row that compares as equal
to one it has. -/

namespace SLikeNet

namespace Table

/-! ### `SortTable` -/

inductive SortQueryType
  | increasingOrder
  | decreasingOrder
deriving DecidableEq

structure SortQuery where
  columnIndex : ℕ
  operation : SortQueryType

variable {R : Type}

/-- The entry of `columnIndices` for a query, none for a column that is not checked. -/
def sortColumn (table : Table R) (query : SortQuery) : Option ℕ :=
  if query.columnIndex < table.columns.length ∧
      table.getColumnType query.columnIndex ≠ .binary then some query.columnIndex
  else none

section RowSort

variable [LT R] [DecidableLT R]

def compareCells (columnType : ColumnType) (first second : Cell R) : Ordering :=
  match columnType, first, second with
  | .numeric, .number a, .number b => if b < a then .gt else if a < b then .lt else .eq
  | .string, .string (some a), .string (some b) => strcmp a b
  | _, _, _ => .eq

/-- One round of the loop of `RowSort`. -/
def compareColumn (table : Table R) (query : SortQuery) (first second : Row R) : Ordering :=
  match table.sortColumn query with
  | none => .eq
  | some columnIndex =>
    let a := first.getD columnIndex .empty
    let b := second.getD columnIndex .empty
    -- an empty cell comes last, whatever the operation
    if a.isEmpty = true ∧ b.isEmpty = false then .gt
    else if a.isEmpty = false ∧ b.isEmpty = true then .lt
    else
      match query.operation with
      | .increasingOrder => compareCells (table.getColumnType columnIndex) a b
      | .decreasingOrder => compareCells (table.getColumnType columnIndex) b a

def rowSort (table : Table R) : List SortQuery → Row R → Row R → Ordering
  | [], _, _ => .eq
  | query :: sortQueries, first, second =>
    match table.compareColumn query first second with
    | .eq => table.rowSort sortQueries first second
    | order => order

/-- What `SortTable` writes to `out`. -/
def sortTable (table : Table R) (sortQueries : List SortQuery) : List (ℕ × Row R) :=
  let anyValid := sortQueries.any fun query => (table.sortColumn query).isSome
  -- without a column to compare the rows stay in the order of their keys
  if anyValid = false then table.rows
  else
    table.rows.foldl
      (OrderedList.insert fun first second => table.rowSort sortQueries first.2 second.2) []

end RowSort

/-! ### What the order of the rows means -/

variable [LinearOrder R]

def Cell.Filled : ColumnType → Cell R → Prop
  | .numeric, .number _ => True
  | .string, .string (some _) => True
  | _, _ => False

def Cell.Below : Cell R → Cell R → Prop
  | .number a, .number b => a < b
  | .string (some a), .string (some b) => a < b
  | _, _ => False

/-- The value of the first row comes before that of the second one in the order of the query. -/
def Before (query : SortQuery) (first second : Row R) : Prop :=
  let a := first.getD query.columnIndex .empty
  let b := second.getD query.columnIndex .empty
  match query.operation with
  | .increasingOrder => a.Below b
  | .decreasingOrder => b.Below a

/-- The order of rows by one query after the other. -/
def LexicographicallyLe : List SortQuery → Row R → Row R → Prop
  | [], _, _ => True
  | query :: sortQueries, first, second =>
    Before query first second ∨
      ¬ Before query second first ∧ LexicographicallyLe sortQueries first second

/-- The queries are on numeric or string columns without empty cells. -/
def Sortable (table : Table R) (sortQueries : List SortQuery) : Prop :=
  ∀ query ∈ sortQueries, query.columnIndex < table.columns.length ∧
    ∀ entry ∈ table.rows, (entry.2.getD query.columnIndex .empty).Filled
      (table.getColumnType query.columnIndex)

/-- Every row once, in the order of the queries. -/
def IsSortedPermutation (table : Table R) (sortQueries : List SortQuery)
    (out : List (ℕ × Row R)) : Prop :=
  out.Perm table.rows ∧
    out.Pairwise fun first second => LexicographicallyLe sortQueries first.2 second.2

def Tied (sortQueries : List SortQuery) (first second : Row R) : Prop :=
  ∀ query ∈ sortQueries, ¬ Before query first second ∧ ¬ Before query second first

/-! ### The comparison of rows -/

omit [LinearOrder R] in
theorem Cell.Filled.cases {columnType : ColumnType} {a : Cell R} (h : a.Filled columnType) :
    (columnType = .numeric ∧ ∃ i, a = .number i) ∨
      columnType = .string ∧ ∃ c, a = .string (some c) := by
  unfold Cell.Filled at h
  split at h
  · exact .inl ⟨rfl, _, rfl⟩
  · exact .inr ⟨rfl, _, rfl⟩
  · exact h.elim

omit [LinearOrder R] in
theorem Cell.Filled.isEmpty_eq {columnType : ColumnType} {a : Cell R} (h : a.Filled columnType) :
    a.isEmpty = false := by
  rcases h.cases with ⟨-, i, rfl⟩ | ⟨-, c, rfl⟩ <;> rfl

theorem compareCells_spec {columnType : ColumnType} {a b : Cell R} (ha : a.Filled columnType)
    (hb : b.Filled columnType) :
    (compareCells columnType a b = .lt ↔ a.Below b) ∧
      (compareCells columnType a b = .gt ↔ b.Below a) := by
  rcases ha.cases with ⟨rfl, i, rfl⟩ | ⟨rfl, c, rfl⟩
  · rcases hb.cases with ⟨-, j, rfl⟩ | ⟨hstring, -⟩
    · show ((if j < i then Ordering.gt else if i < j then .lt else .eq) = .lt ↔ i < j) ∧
        ((if j < i then Ordering.gt else if i < j then .lt else .eq) = .gt ↔ j < i)
      by_cases hgt : j < i
      · simp [hgt, lt_asymm hgt]
      · by_cases hlt : i < j
        · simp [hgt, hlt]
        · simp [hgt, hlt]
    · cases hstring
  · rcases hb.cases with ⟨hnumeric, -⟩ | ⟨-, d, rfl⟩
    · cases hnumeric
    · have hspec := strcmp_spec c d
      exact ⟨hspec.1, hspec.2.2⟩

theorem not_below_trans {columnType : ColumnType} {a b c : Cell R} (ha : a.Filled columnType)
    (hb : b.Filled columnType) (hc : c.Filled columnType) (hba : ¬ b.Below a)
    (hcb : ¬ c.Below b) : ¬ c.Below a := by
  rcases ha.cases with ⟨rfl, i, rfl⟩ | ⟨rfl, s, rfl⟩
  · obtain ⟨-, j, rfl⟩ := hb.cases.resolve_right fun h => ColumnType.noConfusion h.1
    obtain ⟨-, k, rfl⟩ := hc.cases.resolve_right fun h => ColumnType.noConfusion h.1
    exact not_lt.mpr (le_trans (not_lt.mp hba) (not_lt.mp hcb))
  · obtain ⟨-, s', rfl⟩ := hb.cases.resolve_left fun h => ColumnType.noConfusion h.1
    obtain ⟨-, s'', rfl⟩ := hc.cases.resolve_left fun h => ColumnType.noConfusion h.1
    exact List.not_lt.mpr (List.le_trans (List.not_lt.mp hba) (List.not_lt.mp hcb))

def FilledAt (table : Table R) (query : SortQuery) (row : Row R) : Prop :=
  (row.getD query.columnIndex .empty).Filled (table.getColumnType query.columnIndex)

variable {table : Table R} {query : SortQuery} {sortQueries : List SortQuery}

omit [LinearOrder R] in
theorem sortColumn_of_filled (hcolumn : query.columnIndex < table.columns.length) {row : Row R}
    (h : table.FilledAt query row) : table.sortColumn query = some query.columnIndex := by
  refine if_pos ⟨hcolumn, fun hbinary => ?_⟩
  rcases Cell.Filled.cases h with ⟨hnumeric, -⟩ | ⟨hstring, -⟩
  · rw [hbinary] at hnumeric
    cases hnumeric
  · rw [hbinary] at hstring
    cases hstring

theorem compareColumn_spec (hcolumn : query.columnIndex < table.columns.length)
    {first second : Row R} (hfirst : table.FilledAt query first)
    (hsecond : table.FilledAt query second) :
    (table.compareColumn query first second = .lt ↔ Before query first second) ∧
      (table.compareColumn query first second = .gt ↔ Before query second first) := by
  have hempty := Cell.Filled.isEmpty_eq hfirst
  have hempty' := Cell.Filled.isEmpty_eq hsecond
  rw [compareColumn, sortColumn_of_filled hcolumn hfirst]
  dsimp only
  rw [hempty, hempty', if_neg (by decide), if_neg (by decide), Before, Before]
  cases query.operation with
  | increasingOrder => exact compareCells_spec hfirst hsecond
  | decreasingOrder => exact compareCells_spec hsecond hfirst

theorem totalOn_compareColumn (hcolumn : query.columnIndex < table.columns.length) :
    OrderedList.TotalOn (table.compareColumn query) (table.FilledAt query) := by
  refine .of_rel (fun ha hb => (compareColumn_spec hcolumn ha hb).1)
    (fun ha hb => (compareColumn_spec hcolumn ha hb).2) fun {a b c} ha hb hc => ?_
  rw [Before, Before, Before]
  cases query.operation with
  | increasingOrder => exact not_below_trans ha hb hc
  | decreasingOrder => exact fun hab hbc => not_below_trans hc hb ha hbc hab

theorem rowSort_cons (query : SortQuery) (sortQueries : List SortQuery) :
    table.rowSort (query :: sortQueries) = fun first second =>
      (table.compareColumn query first second).then (table.rowSort sortQueries first second) := by
  funext first second
  rw [rowSort]
  cases table.compareColumn query first second <;> rfl

def AllFilled (table : Table R) (sortQueries : List SortQuery) (row : Row R) : Prop :=
  ∀ query ∈ sortQueries, query.columnIndex < table.columns.length ∧ table.FilledAt query row

theorem totalOn_rowSort (hcolumns : ∀ query ∈ sortQueries,
    query.columnIndex < table.columns.length) :
    OrderedList.TotalOn (table.rowSort sortQueries) (table.AllFilled sortQueries) := by
  induction sortQueries with
  | nil =>
    exact ⟨fun _ _ => rfl, fun _ _ _ _ _ => by rw [rowSort]; decide⟩
  | cons query sortQueries ih =>
    have hhead := totalOn_compareColumn (hcolumns query (by simp))
    have htail := ih fun q hq => hcolumns q (List.mem_cons_of_mem _ hq)
    rw [rowSort_cons]
    refine OrderedList.TotalOn.then ⟨fun ha hb => ?_, fun ha hb hc => ?_⟩
      ⟨fun ha hb => ?_, fun ha hb hc => ?_⟩
    · exact hhead.swap (ha query (by simp)).2 (hb query (by simp)).2
    · exact hhead.trans (ha query (by simp)).2 (hb query (by simp)).2 (hc query (by simp)).2
    · exact htail.swap (fun q hq => ha q (List.mem_cons_of_mem _ hq))
        fun q hq => hb q (List.mem_cons_of_mem _ hq)
    · exact htail.trans (fun q hq => ha q (List.mem_cons_of_mem _ hq))
        (fun q hq => hb q (List.mem_cons_of_mem _ hq)) fun q hq => hc q (List.mem_cons_of_mem _ hq)

theorem rowSort_spec {first second : Row R} (hfirst : table.AllFilled sortQueries first)
    (hsecond : table.AllFilled sortQueries second) :
    (table.rowSort sortQueries first second ≠ .gt ↔
        LexicographicallyLe sortQueries first second) ∧
      (table.rowSort sortQueries first second = .eq ↔ Tied sortQueries first second) := by
  induction sortQueries with
  | nil =>
    rw [rowSort, LexicographicallyLe]
    exact ⟨by simp, by simp [Tied]⟩
  | cons query sortQueries ih =>
    obtain ⟨hcolumn, hcell⟩ := hfirst query (by simp)
    obtain ⟨hlt, hgt⟩ := compareColumn_spec hcolumn hcell (hsecond query (by simp)).2
    obtain ⟨hle, heq⟩ := ih (fun q hq => hfirst q (List.mem_cons_of_mem _ hq))
      fun q hq => hsecond q (List.mem_cons_of_mem _ hq)
    have htied : Tied (query :: sortQueries) first second ↔
        (¬ Before query first second ∧ ¬ Before query second first) ∧
          Tied sortQueries first second := List.forall_mem_cons
    rw [rowSort_cons, LexicographicallyLe, htied, ← hlt, ← hgt, ← hle, ← heq]
    dsimp only
    cases table.compareColumn query first second with
    | lt => simp
    | eq => simp
    | gt => simp

theorem pairwise_not_tied_iff {rows : List (ℕ × Row R)}
    (hcolumns : ∀ query ∈ sortQueries, query.columnIndex < table.columns.length)
    (hfilled : ∀ entry ∈ rows, table.AllFilled sortQueries entry.2) :
    (rows.Pairwise fun first second => table.rowSort sortQueries second.2 first.2 ≠ .eq) ↔
      rows.Pairwise fun first second => ¬ Tied sortQueries first.2 second.2 := by
  apply List.Pairwise.iff_of_mem
  intro first second hfirst hsecond
  rw [(totalOn_rowSort hcolumns).swap (hfilled first hfirst) (hfilled second hsecond),
    ← (rowSort_spec (hfilled first hfirst) (hfilled second hsecond)).2]
  cases table.rowSort sortQueries first.2 second.2 <;> simp

theorem sortTable_of_rows_nil (hrows : table.rows = []) : table.sortTable sortQueries = [] := by
  rw [sortTable, hrows]
  split <;> rfl

/-- `SortTable` writes every row once, in the order of the queries, exactly if there are no queries
or no two rows have the same values on all of their columns. -/
theorem sortTable_iff (table : Table R) (sortQueries : List SortQuery)
    (hsortable : table.Sortable sortQueries) :
    IsSortedPermutation table sortQueries (table.sortTable sortQueries) ↔
      sortQueries = [] ∨
        table.rows.Pairwise fun first second => ¬ Tied sortQueries first.2 second.2 := by
  by_cases hrows : table.rows = []
  · rw [IsSortedPermutation, sortTable_of_rows_nil hrows, hrows]
    simp
  · obtain ⟨entry, hentry⟩ := List.exists_mem_of_ne_nil _ hrows
    cases sortQueries with
    | nil =>
      refine ⟨fun _ => .inl rfl, fun _ => ⟨.refl _, ?_⟩⟩
      exact List.pairwise_of_forall fun _ _ => trivial
    | cons query sortQueries =>
      have hcolumns : ∀ q ∈ query :: sortQueries, q.columnIndex < table.columns.length :=
        fun q hq => (hsortable q hq).1
      have hfilled : ∀ entry ∈ table.rows, table.AllFilled (query :: sortQueries) entry.2 :=
        fun entry hentry q hq => ⟨hcolumns q hq, (hsortable q hq).2 entry hentry⟩
      have hvalid : ((query :: sortQueries).any fun q => (table.sortColumn q).isSome) = true := by
        obtain ⟨hcolumn, hcell⟩ := hfilled entry hentry query (by simp)
        rw [List.any_cons, sortColumn_of_filled hcolumn hcell]
        rfl
      have htotal := totalOn_rowSort hcolumns
      have hentries : OrderedList.TotalOn
          (fun first second : ℕ × Row R => table.rowSort (query :: sortQueries) first.2 second.2)
          fun entry => table.AllFilled (query :: sortQueries) entry.2 :=
        ⟨fun ha hb => htotal.swap ha hb, fun ha hb hc => htotal.trans ha hb hc⟩
      obtain ⟨hsorted, -, hperm⟩ := OrderedList.foldl_insert hentries hfilled
      rw [sortTable, hvalid, if_neg (by decide), IsSortedPermutation, hperm,
        pairwise_not_tied_iff hcolumns hfilled]
      constructor
      · exact fun h => .inr h.1
      · rintro (hnil | hpairwise)
        · cases hnil
        · refine ⟨hpairwise, hsorted.pairwise.imp_of_mem fun {first second} ha hb hlt => ?_⟩
          refine (rowSort_spec (hsorted.all _ ha) (hsorted.all _ hb)).1.mp ?_
          rw [hlt]
          decide

def numberRows (numbers : List Int) : Table Int :=
  ⟨[⟨[97], .numeric⟩], numbers.zipIdx.map fun (i, rowId) => (rowId, [.number i])⟩

theorem sortable_numberRows (numbers : List Int) (operation : SortQueryType) :
    (numberRows numbers).Sortable [⟨0, operation⟩] := by
  intro query hquery
  obtain rfl := List.mem_singleton.mp hquery
  refine ⟨by simp [numberRows], fun entry hentry => ?_⟩
  obtain ⟨⟨i, rowId⟩, -, rfl⟩ := List.mem_map.mp hentry
  trivial

theorem sortTable_two_numbers :
    IsSortedPermutation (numberRows [5, 3]) [⟨0, .increasingOrder⟩]
      ((numberRows [5, 3]).sortTable [⟨0, .increasingOrder⟩]) := by
  refine (sortTable_iff _ _ (sortable_numberRows _ _)).mpr (.inr ?_)
  simp [numberRows, Tied, Before, Cell.Below]

theorem equal_row_lost :
    ¬ ∀ (table : Table Int) (sortQueries : List SortQuery), table.Sortable sortQueries →
      IsSortedPermutation table sortQueries (table.sortTable sortQueries) := by
  intro h
  have hlength := (h _ _ (sortable_numberRows [5, 5] .increasingOrder)).1.length_eq
  revert hlength
  decide

end Table

end SLikeNet
