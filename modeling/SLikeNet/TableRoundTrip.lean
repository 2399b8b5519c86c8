import Mathlib.Data.List.TakeWhile
import SLikeNet.TableSerializer

/-! What `SerializeTable` writes, `DeserializeTable` reads back, except that the names of the
columns are cut to 31 characters. -/

namespace SLikeNet

open BitCursor PacketReads BitCodec HuffmanEncodingTree

namespace TableSerializer

open Table

variable {root : HuffmanEncodingTreeNode}

/-! ### Numbers and strings -/

theorem readsBack_number {bytes value : ℕ} (hpos : 0 < bytes) (hvalue : value < 256 ^ bytes) :
    ReadsBack (writeNumber bytes value) (readNumber bytes) (some value) := by
  refine readsBack_append fun c hahead => ?_
  rw [BitStream.length_toBits]
  exact readNumber_ahead hpos hvalue hahead

theorem readsBack_bool (b : Bool) : ReadsBack (writeBool b) readBool (some b) :=
  readsBack_append fun _ hahead => readBool_ahead hahead

theorem readsBack_string (h : Complete root) {s : List UInt8} (hs : 0 ∉ s) {n : ℕ}
    (hlength : s.length < n) (hn : n ≤ 65535) (m : ℕ) :
    ReadsBack (encodeString root (some (s ++ [0])) n) (decodeString root m)
      (some (s.take (m - 1))) := by
  intro before
  have hchars : StringCompressor.charsToWrite (s ++ [0]) n = s.length := by
    have heq := StringCompressor.charsToWrite_eq hs (by omega : 1 ≤ n) (Or.inl (by omega))
    rwa [Nat.min_eq_left (by omega)] at heq
  have hcodes : ((s.take s.length).flatMap (encoding root)).length + 7 < 2 ^ 32 := by
    have hle := StringCompressor.length_flatMap_encoding_le h (s.take s.length)
    rw [List.take_length] at hle ⊢
    omega
  obtain ⟨pad, more, value, hencode, hlt, -, hpad, hmore⟩ :=
    StringCompressor.encodeString_eq h before hchars (Nat.le_refl _) (by omega) hcodes
  rw [List.take_length] at hencode hlt
  exact ⟨_, hencode, fun c _ hahead =>
    StringCompressor.decodeString_eq h s hpad hmore hlt m hahead⟩

theorem cString_of_not_mem {s : List UInt8} (hs : 0 ∉ s) : cString s = s :=
  List.takeWhile_eq_self_iff.mpr fun _ hvalue =>
    decide_eq_true fun hzero => hs (hzero ▸ hvalue)

/-! ### Cells -/

/-- What a cell of a column may hold. -/
def Holds : ColumnType → Cell UInt64 → Prop
  | _, .empty => True
  | .numeric, .number _ => True
  | .string, .string c => ∃ s, c = some s ∧ 0 ∉ s ∧ s.length ≤ 65534
  | .pointer, .pointer ptr => ptr < 2 ^ 64
  | .binary, .binary c => 1 ≤ c.length ∧ c.length ≤ 10000000
  | _, _ => False

theorem writeAlignedBytes_eq (bytes : List UInt8) (before : List Bool) :
    writeAlignedBytes bytes before = some (before ++
      (List.replicate (BitStream.padding before.length) false ++ bitsOf bytes)) := by
  rw [writeAlignedBytes, BitStream.align, List.append_assoc]

theorem copyBytes_ahead {bytes : List UInt8} {before : List Bool} {c : Cursor}
    (hoffset : c.readOffset = before.length)
    (hahead : c.Ahead (List.replicate (BitStream.padding before.length) false ++ bitsOf bytes)) :
    copyBytes bytes.length (c.advance (BitStream.padding c.readOffset)) =
        some (bytes, (c.advance (BitStream.padding c.readOffset)).advance (bytes.length * 8)) ∧
      bytes.length * 8 ≤ numberOfUnreadBits (c.advance (BitStream.padding c.readOffset)) := by
  have hdata := hahead.right
  rw [List.length_replicate, ← hoffset] at hdata
  obtain ⟨k, hk⟩ : ∃ k, c.readOffset + BitStream.padding c.readOffset = k * 8 := by
    refine ⟨(c.readOffset + BitStream.padding c.readOffset) / 8, ?_⟩
    unfold BitStream.padding
    omega
  have hoffset' : (c.advance (BitStream.padding c.readOffset)).readOffset = k * 8 := hk
  have hwithin := hdata.within
  rw [length_bitsOf, hoffset'] at hwithin
  have hslice := slice_ahead hoffset' hdata
  constructor
  · rw [copyBytes, hoffset', show (k * 8 + 7) / 8 = k by omega, hslice]
    rfl
  · unfold numberOfUnreadBits
    rw [hoffset']
    omega

theorem readsBack_binary (bytes : List UInt8) :
    ReadsBack (writeAlignedBytes bytes) (deserializeBinary bytes.length) (some (.binary bytes)) := by
  intro before
  refine ⟨_, writeAlignedBytes_eq bytes before, fun c hoffset hahead => ?_⟩
  obtain ⟨hcopy, hunread⟩ := copyBytes_ahead hoffset hahead
  have hlook : (get : Access Cursor) (c.advance (BitStream.padding c.readOffset)) =
      some (c.advance (BitStream.padding c.readOffset),
        c.advance (BitStream.padding c.readOffset)) := rfl
  have halign : alignReadToByteBoundary c = some ((), c.advance (BitStream.padding c.readOffset)) :=
    rfl
  refine (bind_of_run halign).trans ?_
  refine (bind_of_run hlook).trans ?_
  rw [if_neg (by omega)]
  refine (map_of_run _ hcopy).trans ?_
  rw [Cursor.advance_advance, List.length_append, List.length_replicate, length_bitsOf, hoffset]

theorem readsBack_value (h : Complete root) {columnType : ColumnType} {cell : Cell UInt64}
    (hholds : Holds columnType cell) (hne : cell ≠ .empty) :
    ReadsBack (serializeValue root columnType cell) (deserializeValue root columnType)
      (some cell) := by
  cases columnType with
  | numeric =>
    cases cell with
    | number i =>
      have hnumber := (readsBack_number (by decide : 0 < 8) (UInt64.toNat_lt i)).map
        (Option.map fun value => (Cell.number (UInt64.ofNat value) : Cell UInt64))
      rw [Option.map_some, UInt64.ofNat_toNat] at hnumber
      exact hnumber
    | empty => exact absurd rfl hne
    | _ => cases hholds
  | string =>
    cases cell with
    | string c =>
      obtain ⟨c, rfl, hc, hlength⟩ := hholds
      have hstring := (readsBack_string h hc (by omega : c.length < 65535) (Nat.le_refl _)
        65535).map (Option.map fun c => (Cell.string (some (cString c)) : Cell UInt64))
      rw [List.take_of_length_le (by omega), Option.map_some, cString_of_not_mem hc] at hstring
      exact hstring
    | empty => exact absurd rfl hne
    | _ => cases hholds
  | binary =>
    cases cell with
    | binary c =>
      obtain ⟨-, hlength⟩ := hholds
      refine (readsBack_number (by decide : 0 < 4) (by omega)).bind ?_
      show ReadsBack _ (if 10000000 < c.length then pure none else deserializeBinary c.length) _
      rw [if_neg (by omega)]
      exact readsBack_binary c
    | empty => exact absurd rfl hne
    | _ => cases hholds
  | pointer =>
    cases cell with
    | pointer ptr =>
      have hlt : ptr < 256 ^ 8 := hholds
      exact (readsBack_number (by decide : 0 < 8) hlt).map
        (Option.map fun ptr => (Cell.pointer ptr : Cell UInt64))
    | empty => exact absurd rfl hne
    | _ => cases hholds

theorem readsBack_cell (h : Complete root) {columnType : ColumnType} {cell : Cell UInt64}
    (hholds : Holds columnType cell) :
    ReadsBack (serializeCell root cell columnType) (deserializeCell root columnType)
      (some cell) := by
  unfold serializeCell
  by_cases hempty : cell = .empty
  · rw [if_pos hempty, hempty]
    intro before
    obtain ⟨written, hwrite, hread⟩ := readsBack_bool true before
    exact ⟨written, hwrite, fun c hoffset hahead => bind_of_run (hread c hoffset hahead)⟩
  · rw [if_neg hempty]
    exact (readsBack_bool false).bind (readsBack_value h hholds hempty)

/-! ### Rows -/

/-- The columns that are read have the types of those that were written. -/
def SameTypes (columns columns' : List ColumnDescriptor) : Prop :=
  columns'.map ColumnDescriptor.columnType = columns.map ColumnDescriptor.columnType

theorem SameTypes.length_eq {columns columns' : List ColumnDescriptor}
    (h : SameTypes columns columns') : columns'.length = columns.length := by
  have hlength := congrArg List.length h
  rwa [List.length_map, List.length_map] at hlength

theorem SameTypes.getElem? {columns columns' : List ColumnDescriptor}
    (h : SameTypes columns columns') {i : ℕ} {column : ColumnDescriptor}
    (hcolumn : columns[i]? = some column) :
    ∃ column', columns'[i]? = some column' ∧ column'.columnType = column.columnType := by
  have hmap : (columns'.map ColumnDescriptor.columnType)[i]? =
      (columns.map ColumnDescriptor.columnType)[i]? := by rw [h]
  rw [List.getElem?_map, List.getElem?_map, hcolumn] at hmap
  obtain ⟨column', hcolumn', htype⟩ := Option.map_eq_some_iff.mp hmap
  exact ⟨column', hcolumn', htype⟩

theorem readsBack_cells (h : Complete root) {all columns' : List ColumnDescriptor}
    (hsame : SameTypes all columns') (hcount : all.length ≤ 10000) {columns : List ColumnDescriptor}
    {cells : Row UInt64} (hcells : List.Forall₂ (fun column => Holds column.columnType) columns cells)
    {done : Row UInt64} (hall : all.drop done.length = columns) :
    ReadsBack (serializeCells root done.length columns cells)
      (deserializeCells root columns' columns.length
        (done ++ List.replicate columns.length .empty))
      (some (done ++ cells)) := by
  induction hcells generalizing done with
  | nil =>
    rw [List.length_nil, List.replicate_zero]
    exact readsBack_pure _
  | @cons column cell columns cells hholds _ ih =>
    have hcolumn : all[done.length]? = some column := by
      rw [← List.head?_drop, hall, List.head?_cons]
    obtain ⟨column', hcolumn', htype⟩ := hsame.getElem? hcolumn
    have hindex : done.length < all.length := (List.getElem?_eq_some_iff.mp hcolumn).1
    have hat : ReadsBack (serializeCell root cell column.columnType)
        (deserializeCellAt root columns' (done ++ List.replicate (columns.length + 1) .empty)
          done.length)
        (some ((done ++ [cell]) ++ List.replicate columns.length .empty)) := by
      have hcell := (readsBack_cell h hholds).map
        (Option.map fun cell => (done ++ List.replicate (columns.length + 1) Cell.empty).set
          done.length cell)
      have hset : (done ++ List.replicate (columns.length + 1) Cell.empty).set done.length cell =
          (done ++ [cell]) ++ List.replicate columns.length Cell.empty := by
        rw [List.set_append_right _ _ (Nat.le_refl _), Nat.sub_self, List.replicate_succ,
          List.set_cons_zero, List.append_assoc]
        rfl
      rw [Option.map_some, hset, ← htype] at hcell
      unfold deserializeCellAt
      rw [if_pos (by rw [List.length_append, List.length_replicate]; omega), hcolumn', ← htype]
      exact hcell
    have hrest := @ih (done ++ [cell]) (by
      rw [List.length_append, List.length_singleton, ← List.drop_drop, hall]
      rfl)
    have hvalue : done ++ cell :: cells = done ++ [cell] ++ cells := by
      rw [List.append_assoc]
      rfl
    rw [List.length_append, List.length_singleton] at hrest
    rw [List.length_cons, hvalue]
    refine (readsBack_number (by decide : 0 < 4) (by omega : done.length < 256 ^ 4)).bind ?_
    exact hat.bind hrest

theorem getRow_eq_none {key : ℕ} {rows : List (ℕ × Row UInt64)} (h : ∀ entry ∈ rows, entry.1 < key) :
    getRow key rows = none := by
  rw [getRow, Option.map_eq_none_iff, List.find?_eq_none]
  intro entry hentry hkey
  exact absurd (of_decide_eq_true hkey) (Nat.ne_of_lt (h entry hentry))

theorem insertRow_append {key : ℕ} {row : Row UInt64} {rows : List (ℕ × Row UInt64)}
    (h : ∀ entry ∈ rows, entry.1 < key) : insertRow key row rows = rows ++ [(key, row)] := by
  induction rows with
  | nil => rfl
  | cons entry rows ih =>
    have hlt := h entry List.mem_cons_self
    rw [insertRow, if_neg (Nat.lt_asymm hlt), if_neg (Nat.ne_of_gt hlt),
      ih fun entry' hentry' => h entry' (List.mem_cons_of_mem _ hentry')]
    rfl

/-- The cells of a row are those that its columns may hold. -/
def RowHolds (columns : List ColumnDescriptor) (row : Row UInt64) : Prop :=
  List.Forall₂ (fun column => Holds column.columnType) columns row

theorem readsBack_row (h : Complete root) {columns : List ColumnDescriptor} {out : Table UInt64}
    (hsame : SameTypes columns out.columns) (hcount : columns.length ≤ 10000) {key : ℕ}
    {row : Row UInt64} (hkey : key < 2 ^ 32) (hrow : RowHolds columns row)
    (hlast : ∀ entry ∈ out.rows, entry.1 < key) :
    ReadsBack (serializeRow root row key columns) (deserializeRow root out)
      (some ⟨out.columns, out.rows ++ [(key, row)]⟩) := by
  have hlength := hsame.length_eq
  have hcells := (@readsBack_cells root h columns out.columns hsame hcount columns row hrow []
    rfl).map (Option.map fun row => ({ out with rows := insertRow key row out.rows } : Table UInt64))
  rw [Option.map_some, List.nil_append, List.nil_append, insertRow_append hlast] at hcells
  refine (readsBack_number (by decide : 0 < 4) (show key < 256 ^ 4 from hkey)).bind ?_
  have hnew : (getRow key out.rows).isSome = false := by rw [getRow_eq_none hlast]; rfl
  dsimp only
  rw [hnew, if_neg Bool.false_ne_true]
  refine (readsBack_number (by decide : 0 < 4) (by omega : columns.length < 256 ^ 4)).bind ?_
  dsimp only
  rw [if_neg (by omega), hlength]
  exact hcells

theorem readsBack_rows (h : Complete root) {columns : List ColumnDescriptor}
    (hcount : columns.length ≤ 10000) {entries : List (ℕ × Row UInt64)}
    (hentries : ∀ entry ∈ entries, entry.1 < 2 ^ 32 ∧ RowHolds columns entry.2)
    {out : Table UInt64} (hsame : SameTypes columns out.columns)
    (hsorted : (out.rows ++ entries).Pairwise fun entry entry' => entry.1 < entry'.1) :
    ReadsBack (serializeEach (fun entry => serializeRow root entry.2 entry.1 columns) entries)
      (deserializeRows root entries.length out) (true, ⟨out.columns, out.rows ++ entries⟩) := by
  induction entries generalizing out with
  | nil =>
    rw [List.append_nil]
    exact readsBack_pure _
  | cons entry entries ih =>
    obtain ⟨hkey, hrow⟩ := hentries entry List.mem_cons_self
    have hlast : ∀ entry' ∈ out.rows, entry'.1 < entry.1 := fun entry' hentry' =>
      (List.pairwise_append.mp hsorted).2.2 entry' hentry' entry List.mem_cons_self
    have happend : out.rows ++ entry :: entries = out.rows ++ [entry] ++ entries := by
      rw [List.append_assoc]
      rfl
    rw [happend] at hsorted ⊢
    have hrest := @ih (fun entry' hentry' => hentries entry' (List.mem_cons_of_mem _ hentry'))
      ⟨out.columns, out.rows ++ [entry]⟩ hsame hsorted
    exact (readsBack_row h hsame hcount hkey hrow hlast).bind hrest

/-! ### Columns -/

/-- `DecodeString` is given a limit of 32 for the names. -/
def cutName (column : ColumnDescriptor) : ColumnDescriptor :=
  { column with columnName := column.columnName.take 31 }

def Named (column : ColumnDescriptor) : Prop :=
  0 ∉ column.columnName ∧ 1 ≤ column.columnName.length ∧ column.columnName.length ≤ 63

instance : DecidablePred Named := fun _ => inferInstanceAs (Decidable (_ ∧ _ ∧ _))

theorem ofCode_toCode (columnType : ColumnType) : .ofCode columnType.toCode = columnType := by
  cases columnType <;> rfl

theorem toCode_lt (columnType : ColumnType) : columnType.toCode < 256 ^ 1 := by
  cases columnType <;> decide

theorem readsBack_columns (h : Complete root) {columns : List ColumnDescriptor}
    (hnamed : ∀ column ∈ columns, Named column) (columnType : ℕ) (out : List ColumnDescriptor) :
    ReadsBack (serializeEach (serializeColumn root) columns)
      (deserializeColumnsFrom root columns.length columnType ⟨out, []⟩)
      ⟨out ++ columns.map cutName, []⟩ := by
  induction columns generalizing columnType out with
  | nil =>
    rw [List.map_nil, List.append_nil]
    exact readsBack_pure _
  | cons column columns ih =>
    obtain ⟨hzero, hpos, hlength⟩ := hnamed column List.mem_cons_self
    have hrest := ih (fun column' hcolumn' => hnamed column' (List.mem_cons_of_mem _ hcolumn'))
      column.columnType.toCode (out ++ [cutName column])
    have happend : out ++ (column :: columns).map cutName =
        out ++ [cutName column] ++ columns.map cutName := by
      rw [List.append_assoc]
      rfl
    have hcut : 0 ∉ column.columnName.take 31 := fun hmem => hzero (List.mem_of_mem_take hmem)
    have hne : column.columnName.take 31 ≠ [] := by
      intro hnil
      have hlength' := congrArg List.length hnil
      rw [List.length_take, List.length_nil] at hlength'
      omega
    have hadd : (Table.mk out [] : Table UInt64).addColumn
        (cString ((some (column.columnName.take 31)).getD []))
        (.ofCode ((some column.columnType.toCode).getD columnType)) =
        ⟨out ++ [cutName column], []⟩ := by
      rw [Option.getD_some, Option.getD_some, cString_of_not_mem hcut, ofCode_toCode,
        addColumn, if_neg hne]
      rfl
    rw [happend]
    show ReadsBack ((encodeString root (some (column.columnName ++ [0])) maxColumnNameLength >=>
      writeNumber 1 column.columnType.toCode) >=> serializeEach (serializeColumn root) columns) _ _
    rw [append_assoc]
    have hname := readsBack_string h hzero (by omega : column.columnName.length < 64)
      (by decide) 32
    refine hname.bind ((readsBack_number (by decide : 0 < 1) (toCode_lt column.columnType)).bind ?_)
    rw [hadd]
    exact hrest

/-! ### Tables -/

/-- The tables of which the round trip is asked. -/
structure Serializable (table : Table UInt64) : Prop where
  columns_le : table.columns.length ≤ 10000
  named : ∀ column ∈ table.columns, Named column
  rows_le : table.rows.length ≤ 100000
  keys : table.rows.Pairwise fun entry entry' => entry.1 < entry'.1
  rows : ∀ entry ∈ table.rows, entry.1 < 2 ^ 32 ∧ RowHolds table.columns entry.2

theorem readsBack_table (h : Complete root) {table : Table UInt64} (htable : Serializable table)
    (columnType : ℕ) (out : Table UInt64) :
    ReadsBack (serializeTable root table) (deserializeTable root columnType out)
      (true, ⟨table.columns.map cutName, table.rows⟩) := by
  have hcolumns := htable.columns_le
  have hrows := htable.rows_le
  have hsame : SameTypes table.columns (table.columns.map cutName) := by
    unfold SameTypes
    rw [List.map_map]
    rfl
  have hread := readsBack_columns h htable.named columnType []
  have hhead : ReadsBack (serializeColumns root table) (deserializeColumns root columnType)
      (some ⟨table.columns.map cutName, []⟩) := by
    refine (readsBack_number (by decide : 0 < 4) (by omega)).bind ?_
    dsimp only
    rw [if_neg (by omega)]
    exact hread.map some
  refine hhead.bind ((readsBack_number (by decide : 0 < 4) (by omega)).bind ?_)
  dsimp only
  rw [if_neg (by omega)]
  exact @readsBack_rows _ h _ hcolumns _ htable.rows ⟨table.columns.map cutName, []⟩ hsame
    htable.keys

/-- `DeserializeTable` makes the same table of what `SerializeTable` writes to an empty stream. -/
def RoundTrips (root : HuffmanEncodingTreeNode) (table : Table UInt64) : Prop :=
  ∃ out, serializeTable root table [] = some out ∧
    ∀ memory numberOfBits, out <+: bitsOf memory → out.length ≤ numberOfBits →
      numberOfBits ≤ memory.length * 8 → ∀ columnType table', ∃ c,
      deserializeTable root columnType table' ⟨memory, numberOfBits, 0⟩ = some ((true, table), c)

/-- The stream stays below its limit. -/
def Fits (root : HuffmanEncodingTreeNode) (table : Table UInt64) : Prop :=
  ∀ out, serializeTable root table [] = some out → out.length < StringCompressor.streamLimit

theorem cutName_eq_self_iff (column : ColumnDescriptor) :
    cutName column = column ↔ column.columnName.length ≤ 31 := by
  constructor
  · intro hcut
    rw [← congrArg ColumnDescriptor.columnName hcut]
    exact List.length_take_le _ _
  · intro hshort
    rw [cutName, List.take_of_length_le hshort]

theorem map_cutName_eq_self_iff (columns : List ColumnDescriptor) :
    columns.map cutName = columns ↔ ∀ column ∈ columns, column.columnName.length ≤ 31 := by
  have hmap := @List.map_inj_left _ _ columns cutName id
  rw [List.map_id] at hmap
  exact hmap.trans (forall₂_congr fun column _ => cutName_eq_self_iff column)

theorem roundTrips_iff_names (h : Complete root) {table : Table UInt64}
    (htable : Serializable table) :
    RoundTrips root table ↔ ∀ column ∈ table.columns, column.columnName.length ≤ 31 := by
  have hread := fun columnType out => (readsBack_table h htable columnType out).yields
  obtain ⟨written, hwrite⟩ := (hread 0 Table.empty).exists_out
  rw [← map_cutName_eq_self_iff]
  constructor
  · rintro ⟨out, hout, htrip⟩
    obtain ⟨memory, hmemory, hbits⟩ := exists_memory out
    obtain ⟨c, hc⟩ := (hread 0 Table.empty).from_empty hout hmemory hbits (Nat.le_refl _)
    obtain ⟨c', hc'⟩ := htrip memory _ hmemory hbits (Nat.le_refl _) 0 Table.empty
    have heq := (Prod.mk.inj (Option.some.inj (hc.symm.trans hc'))).1
    exact congrArg Table.columns (Prod.mk.inj heq).2
  · intro hcut
    rw [hcut] at hread
    exact ⟨written, hwrite, fun memory numberOfBits hmemory hbits hinside columnType table' =>
      (hread columnType table').from_empty hwrite hmemory hbits hinside⟩

/-- A table makes the round trip if and only if no name of a column is cut. -/
theorem roundTrips_iff (frequencyTable : UInt8 → UInt32) :
    ∃ root, generateFromFrequencyTable frequencyTable = some root ∧
      ∀ table, Serializable table → Fits root table →
        (RoundTrips root table ↔ ∀ column ∈ table.columns, column.columnName.length ≤ 31) := by
  obtain ⟨left, right, hrun, hcomplete⟩ := generateFromFrequencyTable_eq frequencyTable
  exact ⟨_, hrun, fun table htable _ => roundTrips_iff_names hcomplete htable⟩

/-- A table with one column and a row with a number. -/
def numberTable : Table UInt64 := ⟨[⟨[110], .numeric⟩], [(7, [.number 5])]⟩

theorem serializable_numberTable : Serializable numberTable where
  columns_le := by decide
  named := by decide
  rows_le := by decide
  keys := by decide
  rows := by
    intro entry hentry
    obtain rfl := List.mem_singleton.mp hentry
    exact ⟨by decide, .cons trivial .nil⟩

theorem takes_string (h : Complete root) {s : List UInt8} (hs : 0 ∉ s) {n : ℕ}
    (hlength : s.length < n) (hn : n ≤ 65535) :
    Takes (encodeString root (some (s ++ [0])) n) (33 + (s.length * 255 + 7)) := by
  intro before out hout
  have hchars : StringCompressor.charsToWrite (s ++ [0]) n = s.length := by
    have heq := StringCompressor.charsToWrite_eq hs (by omega : 1 ≤ n) (Or.inl (by omega))
    rwa [Nat.min_eq_left (by omega)] at heq
  have hcodes := StringCompressor.length_flatMap_encoding_le h (s.take s.length)
  obtain ⟨pad, -, -, hencode, -, hpad, -⟩ := StringCompressor.encodeString_eq h before hchars
    (Nat.le_refl _) (by omega) (by rw [List.take_length] at hcodes ⊢; omega)
  obtain rfl := Option.some.inj (hencode.symm.trans hout)
  have hhead : ∀ value, (StreamWrites.writeCompressed 4 value).length ≤ 4 * 8 + 1 := fun value =>
    StreamWrites.length_writeCompressedFrom_le _ 3
  have hhead := hhead ((s.take s.length).flatMap (encoding root) ++ pad).length
  have hwritten : (StringCompressor.writtenBits ((s.take s.length).flatMap (encoding root)) pad).length =
      (StreamWrites.writeCompressed 4 ((s.take s.length).flatMap (encoding root) ++ pad).length).length +
        (((s.take s.length).flatMap (encoding root)).length + pad.length) := by
    have hdata := @List.length_append _ ((s.take s.length).flatMap (encoding root)) pad
    rw [StringCompressor.writtenBits, List.length_append, ← hdata]
  rw [List.length_take, Nat.min_self] at hcodes
  rw [List.length_append, hwritten]
  omega

theorem takes_number (bytes value : ℕ) : Takes (writeNumber bytes value) (bytes * 8) := by
  have htakes := takes_append (BitStream.toBits (bytes * 8) value)
  rwa [BitStream.length_toBits] at htakes

theorem fits_numberTable (h : Complete root) : Fits root numberTable := by
  have hcolumns : Takes (serializeColumns root numberTable) (4 * 8 + (33 + (1 * 255 + 7) + 1 * 8 + 0)) :=
    (takes_number 4 1).bind (((takes_string h (s := [110]) (by decide) (by decide : 1 < 64)
      (by decide)).bind (takes_number 1 0)).bind takes_some)
  have hrow : Takes (serializeRow root [.number 5] 7 numberTable.columns) (4 * 8 + (4 * 8 +
      (4 * 8 + (1 + 8 * 8 + 0)))) :=
    (takes_number 4 7).bind ((takes_number 4 1).bind ((takes_number 4 0).bind
      (((takes_append [false]).bind (takes_number 8 5)).bind takes_some)))
  have htable : Takes (serializeTable root numberTable) _ :=
    hcolumns.bind ((takes_number 4 1).bind (hrow.bind takes_some))
  intro out hout
  have hle := htable [] out hout
  unfold StringCompressor.streamLimit
  rw [List.length_nil] at hle
  omega

theorem roundTrips_numberTable : ∃ root, generateFromFrequencyTable (fun _ => 1) = some root ∧
    RoundTrips root numberTable := by
  obtain ⟨root, hrun, hiff⟩ := roundTrips_iff fun _ => 1
  obtain ⟨left, right, hrun', hcomplete⟩ := generateFromFrequencyTable_eq fun _ => 1
  obtain rfl := Option.some.inj (hrun.symm.trans hrun')
  exact ⟨_, hrun, (hiff _ serializable_numberTable (fits_numberTable hcomplete)).mpr (by decide)⟩

/-- A table with a column whose name has 32 characters. -/
def longNameTable : Table UInt64 := ⟨[⟨List.replicate 32 110, .numeric⟩], []⟩

theorem longName_cut : ∃ root, generateFromFrequencyTable (fun _ => 1) = some root ∧
    Serializable longNameTable ∧ ¬ RoundTrips root longNameTable := by
  obtain ⟨left, right, hrun, hcomplete⟩ := generateFromFrequencyTable_eq fun _ => 1
  have htable : Serializable longNameTable :=
    ⟨by decide, by decide, by decide, by decide, by intro entry hentry; cases hentry⟩
  refine ⟨_, hrun, htable, fun htrip => ?_⟩
  have hnames := (roundTrips_iff_names hcomplete htable).mp htrip
  exact absurd (hnames _ List.mem_cons_self) (by decide)

end TableSerializer

end SLikeNet
