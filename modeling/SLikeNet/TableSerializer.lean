import SLikeNet.Library.BitCodec
import SLikeNet.StringCompressor
import SLikeNet.Table

/-! `TableSerializer`: a table as the bits of its columns and rows, and the table that is made of
them. The numbers of a table are `double`s, as the 64 bits that they have in memory. -/

namespace SLikeNet

open BitCursor PacketReads BitCodec

namespace Table

/-- `_TABLE_MAX_COLUMN_NAME_LENGTH` -/
def maxColumnNameLength : ℕ := 64

def ColumnType.toCode : ColumnType → ℕ
  | .numeric => 0
  | .string => 1
  | .binary => 2
  | .pointer => 3

/-- A type that is none of these is treated as binary data. -/
def ColumnType.ofCode : ℕ → ColumnType
  | 0 => .numeric
  | 1 => .string
  | 3 => .pointer
  | _ => .binary

end Table

namespace TableSerializer

open Table

/-! ### Writing -/

section Writing

variable (root : HuffmanEncodingTreeNode)

/-- `Write` of a number of so many bytes. -/
def writeNumber (bytes value : ℕ) : Write := append (BitStream.toBits (bytes * 8) value)

def writeBool (b : Bool) : Write := append [b]

def writeAlignedBytes (bytes : List UInt8) : Write := fun out =>
  some (BitStream.align out ++ bitsOf bytes)

def encodeString (input : Option (List UInt8)) (maxCharsToWrite : Int) : Write :=
  StringCompressor.encodeString root input maxCharsToWrite

/-- The part of `SerializeCell` for a cell that is not empty. -/
def serializeValue : ColumnType → Cell UInt64 → Write
  | .numeric, .number i => writeNumber 8 i.toNat
  | .string, .string c => encodeString root (c.map fun c => c ++ [0]) 65535
  | .pointer, .pointer ptr => writeNumber 8 ptr
  | .binary, .binary c => writeNumber 4 c.length >=> writeAlignedBytes c
  | _, _ => fun _ => none

def serializeCell (cell : Cell UInt64) (columnType : ColumnType) : Write :=
  if cell = .empty then writeBool true else writeBool false >=> serializeValue root columnType cell

/-- The loop of `SerializeRow`. -/
def serializeCells : ℕ → List ColumnDescriptor → Row UInt64 → Write
  | _, [], _ => some
  | _, _ :: _, [] => fun _ => none
  | cellIndex, column :: columns, cell :: cells =>
    writeNumber 4 cellIndex >=>
      (serializeCell root cell column.columnType >=> serializeCells (cellIndex + 1) columns cells)

def serializeRow (row : Row UInt64) (keyIn : ℕ) (columns : List ColumnDescriptor) : Write :=
  writeNumber 4 keyIn >=> (writeNumber 4 columns.length >=> serializeCells root 0 columns row)

def serializeColumn (column : ColumnDescriptor) : Write :=
  encodeString root (some (column.columnName ++ [0])) maxColumnNameLength >=>
    writeNumber 1 column.columnType.toCode

def serializeEach {α : Type} (serialize : α → Write) : List α → Write
  | [] => some
  | a :: rest => serialize a >=> serializeEach serialize rest

def serializeColumns (table : Table UInt64) : Write :=
  writeNumber 4 table.columns.length >=> serializeEach (serializeColumn root) table.columns

def serializeTable (table : Table UInt64) : Write :=
  serializeColumns root table >=> (writeNumber 4 table.rows.length >=>
    serializeEach (fun entry => serializeRow root entry.2 entry.1 table.columns) table.rows)

end Writing

/-! ### Reading -/

section Reading

variable (root : HuffmanEncodingTreeNode)

/-- The bytes that begin at the next byte boundary, which are skipped in the stream. -/
def copyBytes (n : ℕ) : Access (List UInt8) := fun c =>
  (slice c.memory ((c.readOffset + 7) / 8) n).map fun bytes => (bytes, c.advance (n * 8))

/-- The string that a buffer holds ends at its first NUL. -/
def cString (buffer : List UInt8) : List UInt8 := buffer.takeWhile fun value => value ≠ 0

def deserializeBinary (binaryLength : ℕ) : Access (Option (Cell UInt64)) := do
  alignReadToByteBoundary
  let c ← get
  if (numberOfUnreadBits c + 7) / 8 < binaryLength then pure none
  else (fun bytes => some (.binary bytes)) <$> copyBytes binaryLength

/-- The part of `DeserializeCell` for a cell that is not empty. -/
def deserializeValue (columnType : ColumnType) : Access (Option (Cell UInt64)) :=
  match columnType with
  | .numeric => (Option.map fun value => .number (UInt64.ofNat value)) <$> readNumber 8
  | .string => (Option.map fun c => .string (some (cString c))) <$> decodeString root 65535
  | .pointer => (Option.map fun ptr => .pointer ptr) <$> readNumber 8
  | .binary => do
    match ← readNumber 4 with
    | none => pure none
    | some binaryLength =>
      if 10000000 < binaryLength then pure none else deserializeBinary binaryLength

def deserializeCell (columnType : ColumnType) : Access (Option (Cell UInt64)) := do
  match ← readBool with
  | none => pure none
  | some true => pure (some .empty)
  | some false => deserializeValue root columnType

/-- The cell of a row at an index that was read, if both the row and the columns have it. -/
def deserializeCellAt (columns : List ColumnDescriptor) (row : Row UInt64) (cellIndex : ℕ) :
    Access (Option (Row UInt64)) :=
  match if cellIndex < row.length then columns[cellIndex]? else none with
  | none => pure none
  | some column =>
    (Option.map fun cell => row.set cellIndex cell) <$> deserializeCell root column.columnType

/-- The loop of `DeserializeRow`. -/
def deserializeCells (columns : List ColumnDescriptor) : ℕ → Row UInt64 → Access (Option (Row UInt64))
  | 0, row => pure (some row)
  | numEntries + 1, row => do
    match ← readNumber 4 with
    | none => pure none
    | some cellIndex =>
      match ← deserializeCellAt root columns row cellIndex with
      | none => pure none
      | some row => deserializeCells columns numEntries row

/-- `DeserializeRow`. Where it fails behind `AddRow`, the row is removed again. -/
def deserializeRow (out : Table UInt64) : Access (Option (Table UInt64)) := do
  match ← readNumber 4 with
  | none => pure none
  | some key =>
    if (getRow key out.rows).isSome then pure none
    else do
      match ← readNumber 4 with
      | none => pure none
      | some numEntries =>
        if out.columns.length < numEntries then pure none
        else
          (Option.map fun row => { out with rows := insertRow key row out.rows }) <$>
            deserializeCells root out.columns numEntries (List.replicate out.columns.length .empty)

/-- The loop of `DeserializeTable`. -/
def deserializeRows : ℕ → Table UInt64 → Access (Bool × Table UInt64)
  | 0, out => pure (true, out)
  | rowSize + 1, out => do
    match ← deserializeRow root out with
    | none => pure (false, out)
    | some out => deserializeRows rowSize out

/-- The loop of `DeserializeColumns`. A type that is not read stays what it was, and a name that
cannot be decoded is empty. -/
def deserializeColumnsFrom : ℕ → ℕ → Table UInt64 → Access (Table UInt64)
  | 0, _, out => pure out
  | columnSize + 1, columnType, out => do
    let columnName ← decodeString root 32
    let read ← readNumber 1
    deserializeColumnsFrom columnSize (read.getD columnType)
      (out.addColumn (cString (columnName.getD [])) (.ofCode (read.getD columnType)))

/-- `DeserializeColumns`; the variable for the type is not initialised. -/
def deserializeColumns (columnType : ℕ) : Access (Option (Table UInt64)) := do
  match ← readNumber 4 with
  | none => pure none
  | some columnSize =>
    if 10000 < columnSize then pure none
    else some <$> deserializeColumnsFrom root columnSize columnType Table.empty

def deserializeTable (columnType : ℕ) (out : Table UInt64) : Access (Bool × Table UInt64) := do
  match ← deserializeColumns root columnType with
  | none => pure (false, out)
  | some out =>
    match ← readNumber 4 with
    | none => pure (false, out)
    | some rowSize => if 100000 < rowSize then pure (false, out) else deserializeRows root rowSize out

end Reading

end TableSerializer

end SLikeNet
