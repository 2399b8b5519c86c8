import Mathlib.Data.List.Basic

/-! `DataStructures::Table`, a set of columns and of rows with a cell for each column, and
`QueryTable`. Numbers are of a type of which only the comparisons matter. -/

namespace SLikeNet

namespace Table

inductive ColumnType
  | numeric
  | string
  | binary
  | pointer
deriving DecidableEq

/-- A cell with the field that its column's type uses. A string is the bytes before its NUL, or a
null pointer; of binary data `i` is the length. -/
inductive Cell (R : Type)
  | empty
  | number (i : R)
  | string (c : Option (List UInt8))
  | binary (c : List UInt8)
  | pointer (ptr : ℕ)
deriving DecidableEq

structure ColumnDescriptor where
  columnName : List UInt8
  columnType : ColumnType
deriving DecidableEq

abbrev Row (R : Type) := List (Cell R)

inductive FilterQueryType
  | equal
  | notEqual
  | greaterThan
  | greaterThanEq
  | lessThan
  | lessThanEq
  | isEmpty
  | notEmpty
deriving DecidableEq

/-- The name of the column is empty where its index is given. -/
structure FilterQuery (R : Type) where
  columnName : List UInt8
  columnIndex : ℕ
  cellValue : Cell R
  operation : FilterQueryType

end Table

/-- The rows are the entries of the B+ tree, in the order of their keys. -/
structure Table (R : Type) where
  columns : List Table.ColumnDescriptor
  rows : List (ℕ × Table.Row R)

namespace Table

variable {R : Type}

def empty : Table R := ⟨[], []⟩

/-- `BPlusTree::Insert` for a key that is not present; one that is stays as it is. -/
def insertRow (rowId : ℕ) (row : Row R) : List (ℕ × Row R) → List (ℕ × Row R)
  | [] => [(rowId, row)]
  | entry :: rows =>
    if rowId < entry.1 then (rowId, row) :: entry :: rows
    else if rowId = entry.1 then entry :: rows
    else entry :: insertRow rowId row rows

/-- `BPlusTree::Get` -/
def getRow (rowId : ℕ) (rows : List (ℕ × Row R)) : Option (Row R) :=
  (rows.find? fun entry => entry.1 = rowId).map Prod.snd

/-- `AddColumn`; the rows get a further cell. -/
def addColumn (table : Table R) (columnName : List UInt8) (columnType : ColumnType) : Table R :=
  if columnName = [] then table
  else
    ⟨table.columns ++ [⟨columnName, columnType⟩],
      table.rows.map fun entry => (entry.1, entry.2 ++ [.empty])⟩

/-- `ColumnIndex` -/
def columnIndexOf (table : Table R) (columnName : List UInt8) : Option ℕ :=
  table.columns.findIdx? fun column => column.columnName = columnName

/-- `GetColumnType`, the first type for an index outside the columns. -/
def getColumnType (table : Table R) (columnIndex : ℕ) : ColumnType :=
  (table.columns[columnIndex]?.map ColumnDescriptor.columnType).getD .numeric

/-- `SetByType` with the fields of another cell. -/
def Cell.setByType (cell : Cell R) (columnType : ColumnType) : Cell R :=
  match columnType, cell with
  | .numeric, .number i => .number i
  | .string, .string c => .string c
  | .binary, .binary c => .binary c
  | .pointer, .pointer ptr => .pointer ptr
  | _, _ => .empty

/-- `AddRowColumns` of the result table: the types are those of its own columns. -/
def addRowColumns (table : Table R) (rowId : ℕ) (row : Row R) (columnIndices : List ℕ) :
    Table R :=
  let newRow := List.zipWith (fun columnIndex column =>
    (row.getD columnIndex .empty).setByType column.columnType) columnIndices table.columns
  { table with rows := insertRow rowId newRow table.rows }

def strcmp : List UInt8 → List UInt8 → Ordering
  | [], [] => .eq
  | [], _ :: _ => .lt
  | _ :: _, [] => .gt
  | a :: as, b :: bs => if a < b then .lt else if b < a then .gt else strcmp as bs

/-- The column of a filter, by its name if that is given. -/
def filterColumn (table : Table R) (filter : FilterQuery R) : Option ℕ :=
  let columnIndex :=
    if filter.columnName ≠ [] then table.columnIndexOf filter.columnName
    else some filter.columnIndex
  columnIndex.filter fun i => i < table.columns.length

section QueryRow

variable [BEq R] [LT R] [LE R] [DecidableLT R] [DecidableLE R]

/-- The `switch` over the operations; an order of binary data leaves `pass` as it is. -/
def filterPass (columnType : ColumnType) (operation : FilterQueryType) (cell value : Cell R)
    (pass : Bool) : Bool :=
  match operation, columnType, cell, value with
  | .equal, .numeric, .number a, .number b => a == b
  | .equal, .string, .string (some a), .string (some b) => strcmp a b = .eq
  | .equal, .binary, .binary a, .binary b => a = b
  | .equal, .pointer, .pointer a, .pointer b => a = b
  | .notEqual, .numeric, .number a, .number b => a != b
  | .notEqual, .string, .string (some a), .string (some b) => strcmp a b ≠ .eq
  | .notEqual, .binary, .binary a, .binary b => a = b
  | .notEqual, .pointer, .pointer a, .pointer b => a ≠ b
  | .greaterThan, .numeric, .number a, .number b => b < a
  | .greaterThan, .string, .string (some a), .string (some b) => strcmp a b = .gt
  | .greaterThan, .pointer, .pointer a, .pointer b => b < a
  | .greaterThanEq, .numeric, .number a, .number b => b ≤ a
  | .greaterThanEq, .string, .string (some a), .string (some b) => strcmp a b ≠ .lt
  | .greaterThanEq, .pointer, .pointer a, .pointer b => b ≤ a
  | .lessThan, .numeric, .number a, .number b => a < b
  | .lessThan, .string, .string (some a), .string (some b) => strcmp a b = .lt
  | .lessThan, .pointer, .pointer a, .pointer b => a < b
  | .lessThanEq, .numeric, .number a, .number b => a ≤ b
  | .lessThanEq, .string, .string (some a), .string (some b) => strcmp a b ≠ .gt
  | .lessThanEq, .pointer, .pointer a, .pointer b => a ≤ b
  | .isEmpty, _, _, _ => false
  | .notEmpty, _, _, _ => true
  | _, _, _, _ => pass

def Cell.isEmpty : Cell R → Bool
  | .empty => true
  | _ => false

/-- A cell whose `c` is a null pointer. -/
def Cell.isNull : Cell R → Bool
  | .string (some _) => false
  | .binary _ => false
  | _ => true

/-- One round of the loop over the filters: a null string skips the look at `pass` as well, which
is `none` here. -/
def filterRound (table : Table R) (row : Row R) (filter : FilterQuery R) (pass : Bool) :
    Option Bool :=
  match table.filterColumn filter with
  | none => some (filter.operation = .isEmpty)
  | some columnIndex =>
    let cell := row.getD columnIndex .empty
    let columnType := table.getColumnType columnIndex
    if cell.isEmpty then some (filter.operation = .isEmpty)
    else if columnType = .string ∧ (cell.isNull ∨ filter.cellValue.isNull) then none
    else some (filterPass columnType filter.operation cell filter.cellValue pass)

def queryFilters (table : Table R) (row : Row R) : List (FilterQuery R) → Bool → Bool
  | [], pass => pass
  | filter :: filters, pass =>
    match table.filterRound row filter pass with
    | none => table.queryFilters row filters pass
    | some true => table.queryFilters row filters true
    | some false => false

def queryRow (table : Table R) (columnIndicesToReturn : List ℕ)
    (inclusionFilters : List (FilterQuery R)) (result : Table R) (entry : ℕ × Row R) : Table R :=
  if inclusionFilters = [] ∨ table.queryFilters entry.2 inclusionFilters false then
    result.addRowColumns entry.1 entry.2 columnIndicesToReturn
  else result

/-- The result gets a column of the table's name and type. -/
def addColumnOf (table result : Table R) (columnIndex : ℕ) : Table R :=
  match table.columns[columnIndex]? with
  | some column => result.addColumn column.columnName column.columnType
  | none => result

/-- A list without elements stands for a null pointer. -/
def queryTable (table : Table R) (columnIndicesSubset : List ℕ)
    (inclusionFilters : List (FilterQuery R)) (rowIds : List ℕ) : Table R :=
  let columnIndicesToReturn :=
    if columnIndicesSubset ≠ [] then columnIndicesSubset.filter (· < table.columns.length)
    else List.range table.columns.length
  if columnIndicesToReturn = [] then empty
  else
    let result := columnIndicesToReturn.foldl table.addColumnOf empty
    let entries :=
      if rowIds = [] then table.rows
      else rowIds.filterMap fun rowId => (getRow rowId table.rows).map fun row => (rowId, row)
    entries.foldl (table.queryRow columnIndicesToReturn inclusionFilters) result

end QueryRow

end Table

end SLikeNet
