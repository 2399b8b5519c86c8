import Mathlib.Data.List.Perm.Subperm
import SLikeNet.TableRoundTrip

/-! `SerializeColumns` and `SerializeRow` with columns to skip. The columns are counted anew without
those that are skipped, while the cells keep the index that they had. -/

namespace SLikeNet

open BitCursor PacketReads BitCodec HuffmanEncodingTree

namespace TableSerializer

open Table

/-! ### Writing -/

section Writing

variable (root : HuffmanEncodingTreeNode) (skipColumnIndices : List ℕ)

/-- The loop of `SerializeColumns` from an index on. -/
def serializeKeptColumns : ℕ → List ColumnDescriptor → Write
  | _, [] => some
  | i, column :: columns =>
    if i ∈ skipColumnIndices then serializeKeptColumns (i + 1) columns
    else serializeColumn root column >=> serializeKeptColumns (i + 1) columns

/-- The difference is one of unsigned numbers. -/
def serializeColumnsSkipping (columns : List ColumnDescriptor) : Write :=
  writeNumber 4 ((columns.length + (2 ^ 32 - skipColumnIndices.length % 2 ^ 32)) % 2 ^ 32) >=>
    serializeKeptColumns root skipColumnIndices 0 columns

/-- The loop of `SerializeRow` from an index on. -/
def serializeKeptCells : ℕ → List ColumnDescriptor → Row UInt64 → Write
  | _, [], _ => some
  | _, _ :: _, [] => fun _ => none
  | cellIndex, column :: columns, cell :: cells =>
    if cellIndex ∈ skipColumnIndices then serializeKeptCells (cellIndex + 1) columns cells
    else
      -- the index is the one in the whole table
      writeNumber 4 cellIndex >=>
        (serializeCell root cell column.columnType >=>
          serializeKeptCells (cellIndex + 1) columns cells)

def serializeRowSkipping (row : Row UInt64) (keyIn : ℕ) (columns : List ColumnDescriptor) : Write :=
  let numEntries := (List.range columns.length).countP fun cellIndex =>
    decide (cellIndex ∉ skipColumnIndices)
  writeNumber 4 keyIn >=>
    (writeNumber 4 numEntries >=> serializeKeptCells root skipColumnIndices 0 columns row)

def serializeSkipping (table : Table UInt64) : Write :=
  serializeColumnsSkipping root skipColumnIndices table.columns >=>
    serializeEach (fun entry =>
      serializeRowSkipping root skipColumnIndices entry.2 entry.1 table.columns) table.rows

end Writing

/-- The columns with `DeserializeColumns`, and so many rows with `DeserializeRow`. -/
def deserializeParts (root : HuffmanEncodingTreeNode) (rowSize columnType : ℕ) :
    Access (Bool × Table UInt64) := do
  match ← deserializeColumns root columnType with
  | none => pure (false, Table.empty)
  | some out => deserializeRows root rowSize out

/-! ### What is meant -/

/-- The entries from an index on that are not skipped. -/
def keptFrom {α : Type} (skipColumnIndices : List ℕ) : ℕ → List α → List α
  | _, [] => []
  | i, a :: l =>
    if i ∈ skipColumnIndices then keptFrom skipColumnIndices (i + 1) l
    else a :: keptFrom skipColumnIndices (i + 1) l

def projection (skipColumnIndices : List ℕ) (table : Table UInt64) : Table UInt64 where
  columns := keptFrom skipColumnIndices 0 table.columns
  rows := table.rows.map fun entry => (entry.1, keptFrom skipColumnIndices 0 entry.2)

/-- What is written of a table to an empty stream is read as its projection. -/
def ProjectionRoundTrips (root : HuffmanEncodingTreeNode) (skipColumnIndices : List ℕ)
    (table : Table UInt64) : Prop :=
  ∃ out, serializeSkipping root skipColumnIndices table [] = some out ∧
    ∀ memory numberOfBits, out <+: bitsOf memory → out.length ≤ numberOfBits →
      numberOfBits ≤ memory.length * 8 → ∀ columnType, ∃ c,
        deserializeParts root table.rows.length columnType ⟨memory, numberOfBits, 0⟩ =
          some ((true, projection skipColumnIndices table), c)

/-- A set of indices of columns. -/
structure SkipSet (columns : List ColumnDescriptor) (skipColumnIndices : List ℕ) : Prop where
  nodup : skipColumnIndices.Nodup
  lt : ∀ i ∈ skipColumnIndices, i < columns.length

/-- The rows of a table with these columns, in the order of their keys, whose cells in the columns
that are kept are within the limits for a cell. -/
structure ProjectableRows (columns : List ColumnDescriptor) (skipColumnIndices : List ℕ)
    (rows : List (ℕ × Row UInt64)) : Prop where
  keys : rows.Pairwise fun entry entry' => entry.1 < entry'.1
  rows : ∀ entry ∈ rows, entry.1 < 2 ^ 32 ∧ entry.2.length = columns.length ∧
    RowHolds (keptFrom skipColumnIndices 0 columns) (keptFrom skipColumnIndices 0 entry.2)

/-- Every column that is skipped stands behind every column that is kept. -/
def SkipsLast (columns : List ColumnDescriptor) (skipColumnIndices : List ℕ) : Prop :=
  ∀ i ∈ skipColumnIndices, ∀ j < columns.length, j ∉ skipColumnIndices → j < i

def ProjectionFits (root : HuffmanEncodingTreeNode) (skipColumnIndices : List ℕ)
    (table : Table UInt64) : Prop :=
  ∀ out, serializeSkipping root skipColumnIndices table [] = some out →
    out.length < StringCompressor.streamLimit

/-! ### What is kept -/

variable {root : HuffmanEncodingTreeNode} {skipColumnIndices : List ℕ}
  {columns : List ColumnDescriptor}

theorem keptFrom_eq_take {α : Type} {m : ℕ} {l : List α} {i : ℕ}
    (h : ∀ j < l.length, i + j ∈ skipColumnIndices ↔ m ≤ i + j) :
    keptFrom skipColumnIndices i l = l.take (m - i) := by
  induction l generalizing i with
  | nil => rw [keptFrom, List.take_nil]
  | cons a l ih =>
    have hhere := h 0 (Nat.succ_pos _)
    rw [Nat.add_zero] at hhere
    have hrest := @ih (i + 1) fun j hj => by
      have hnext := h (j + 1) (Nat.succ_lt_succ hj)
      rwa [← Nat.add_assoc, Nat.add_right_comm] at hnext
    rw [keptFrom, hrest]
    by_cases hskip : i ∈ skipColumnIndices
    · rw [if_pos hskip, Nat.sub_eq_zero_of_le (hhere.mp hskip),
        Nat.sub_eq_zero_of_le (Nat.le_succ_of_le (hhere.mp hskip)), List.take_zero, List.take_zero]
    · have hlt : i < m := Nat.lt_of_not_le fun hle => hskip (hhere.mpr hle)
      rw [if_neg hskip, show m - i = m - (i + 1) + 1 by omega, List.take_succ_cons]

theorem serializeKeptColumns_eq (i : ℕ) (columns : List ColumnDescriptor) :
    serializeKeptColumns root skipColumnIndices i columns =
      serializeEach (serializeColumn root) (keptFrom skipColumnIndices i columns) := by
  induction columns generalizing i with
  | nil => rfl
  | cons column columns ih =>
    rw [serializeKeptColumns, keptFrom]
    split
    · exact ih (i + 1)
    · rw [ih (i + 1)]
      rfl

theorem serializeKeptCells_eq_take {m : ℕ} {columns : List ColumnDescriptor} {cells : Row UInt64}
    {i : ℕ} (hlength : cells.length = columns.length)
    (h : ∀ j < columns.length, i + j ∈ skipColumnIndices ↔ m ≤ i + j) :
    serializeKeptCells root skipColumnIndices i columns cells =
      serializeCells root i (columns.take (m - i)) (cells.take (m - i)) := by
  induction columns generalizing i cells with
  | nil =>
    obtain rfl := List.length_eq_zero_iff.mp hlength
    rw [List.take_nil, List.take_nil]
    rfl
  | cons column columns ih =>
    cases cells with
    | nil => exact absurd hlength (by simp)
    | cons cell cells =>
      have hhere := h 0 (Nat.succ_pos _)
      rw [Nat.add_zero] at hhere
      have hrest := @ih cells (i + 1) (Nat.succ.inj hlength) fun j hj => by
        have hnext := h (j + 1) (Nat.succ_lt_succ hj)
        rwa [← Nat.add_assoc, Nat.add_right_comm] at hnext
      rw [serializeKeptCells, hrest]
      by_cases hskip : i ∈ skipColumnIndices
      · rw [if_pos hskip, Nat.sub_eq_zero_of_le (hhere.mp hskip),
          Nat.sub_eq_zero_of_le (Nat.le_succ_of_le (hhere.mp hskip)), List.take_zero,
          List.take_zero, List.take_zero, List.take_zero]
        rfl
      · have hlt : i < m := Nat.lt_of_not_le fun hle => hskip (hhere.mpr hle)
        rw [if_neg hskip, show m - i = m - (i + 1) + 1 by omega, List.take_succ_cons,
          List.take_succ_cons]
        rfl

theorem SkipsLast.exists_kept (h : SkipsLast columns skipColumnIndices) :
    ∃ m ≤ columns.length, ∀ i < columns.length, i ∈ skipColumnIndices ↔ m ≤ i := by
  have hall : ∀ n ≤ columns.length, ∃ m ≤ n, ∀ i < n, i ∈ skipColumnIndices ↔ m ≤ i := by
    intro n hn
    induction n with
    | zero => exact ⟨0, Nat.le_refl 0, fun i hi => absurd hi (Nat.not_lt_zero i)⟩
    | succ n ih =>
      obtain ⟨m, hm, hiff⟩ := ih (Nat.le_of_succ_le hn)
      by_cases hskip : n ∈ skipColumnIndices
      · refine ⟨m, Nat.le_succ_of_le hm, fun i hi => ?_⟩
        rcases Nat.lt_succ_iff_lt_or_eq.mp hi with hbefore | rfl
        · exact hiff i hbefore
        · exact ⟨fun _ => hm, fun _ => hskip⟩
      · refine ⟨n + 1, Nat.le_refl _, fun i hi => ⟨fun hmem => ?_, fun hle => by omega⟩⟩
        have hbefore := h i hmem n hn hskip
        omega
  exact hall columns.length (Nat.le_refl _)

def keptIndices (skipColumnIndices : List ℕ) (n : ℕ) : List ℕ :=
  (List.range n).filter fun i => decide (i ∉ skipColumnIndices)

theorem mem_keptIndices {n i : ℕ} :
    i ∈ keptIndices skipColumnIndices n ↔ i < n ∧ i ∉ skipColumnIndices := by
  rw [keptIndices, List.mem_filter, List.mem_range, decide_eq_true_eq]

theorem SkipSet.length_keptIndices (h : SkipSet columns skipColumnIndices) :
    (keptIndices skipColumnIndices columns.length).length + skipColumnIndices.length =
      columns.length := by
  have hskipped : ((List.range columns.length).filter fun i =>
      !decide (i ∉ skipColumnIndices)).Perm skipColumnIndices := by
    refine (List.perm_ext_iff_of_nodup (List.nodup_range.filter _) h.nodup).mpr fun i => ?_
    rw [List.mem_filter, List.mem_range]
    simp only [decide_not, Bool.not_not, decide_eq_true_eq]
    exact ⟨fun hmem => hmem.2, fun hmem => ⟨h.lt i hmem, hmem⟩⟩
  have hall := List.length_eq_length_filter_add (l := List.range columns.length)
    fun i => decide (i ∉ skipColumnIndices)
  rw [List.length_range, hskipped.length_eq] at hall
  exact hall.symm

theorem length_keptFrom {α : Type} (i : ℕ) (l : List α) :
    (keptFrom skipColumnIndices i l).length =
      ((List.range' i l.length).filter fun i => decide (i ∉ skipColumnIndices)).length := by
  induction l generalizing i with
  | nil => rfl
  | cons a l ih =>
    rw [keptFrom, List.length_cons, List.range'_succ, List.filter_cons]
    by_cases hskip : i ∈ skipColumnIndices
    · rw [if_pos hskip, if_neg (by simpa using hskip), ih (i + 1)]
    · rw [if_neg hskip, if_pos (by simpa using hskip), List.length_cons, List.length_cons,
        ih (i + 1)]

theorem length_kept {α : Type} (l : List α) :
    (keptFrom skipColumnIndices 0 l).length = (keptIndices skipColumnIndices l.length).length := by
  rw [length_keptFrom, keptIndices, List.range_eq_range']

/-! ### The columns -/

theorem SkipSet.columnSize_eq (hskip : SkipSet columns skipColumnIndices)
    (hbits : columns.length < 2 ^ 32) :
    (columns.length + (2 ^ 32 - skipColumnIndices.length % 2 ^ 32)) % 2 ^ 32 =
      (keptFrom skipColumnIndices 0 columns).length := by
  have hsum := hskip.length_keptIndices
  rw [length_kept]
  omega

theorem named_kept (hnamed : ∀ column ∈ columns, Named column) (i : ℕ) :
    ∀ column ∈ keptFrom skipColumnIndices i columns, Named column := by
  induction columns generalizing i with
  | nil => exact fun column hmem => absurd hmem List.not_mem_nil
  | cons first columns ih =>
    have hrest := ih (fun column hmem => hnamed column (List.mem_cons_of_mem _ hmem)) (i + 1)
    rw [keptFrom]
    split
    · exact hrest
    · exact List.forall_mem_cons.mpr ⟨hnamed first List.mem_cons_self, hrest⟩

theorem readsBack_keptColumns (h : Complete root) (hskip : SkipSet columns skipColumnIndices)
    (hbits : columns.length < 2 ^ 32) (hnamed : ∀ column ∈ columns, Named column)
    (hcount : (keptFrom skipColumnIndices 0 columns).length ≤ 10000) (columnType : ℕ) :
    ReadsBack (serializeColumnsSkipping root skipColumnIndices columns)
      (deserializeColumns root columnType)
      (some ⟨(keptFrom skipColumnIndices 0 columns).map cutName, []⟩) := by
  rw [serializeColumnsSkipping, hskip.columnSize_eq hbits, serializeKeptColumns_eq]
  refine (readsBack_number (by decide : 0 < 4) (by omega)).bind ?_
  dsimp only
  rw [if_neg (by omega)]
  exact (readsBack_columns h (named_kept hnamed 0) columnType []).map some

theorem yields_tooMany (h : Complete root) (hskip : SkipSet columns skipColumnIndices)
    (hbits : columns.length < 2 ^ 32) (hnamed : ∀ column ∈ columns, Named column)
    (hcount : 10000 < (keptFrom skipColumnIndices 0 columns).length) (columnType : ℕ) :
    Yields (serializeColumnsSkipping root skipColumnIndices columns)
      (deserializeColumns root columnType) none := by
  have hlt : (keptFrom skipColumnIndices 0 columns).length < 256 ^ 4 := by
    have hsum := hskip.length_keptIndices
    rw [length_kept]
    omega
  rw [serializeColumnsSkipping, hskip.columnSize_eq hbits, serializeKeptColumns_eq]
  have hkept := @named_kept skipColumnIndices columns hnamed 0
  have hrest := (readsBack_columns h hkept columnType []).yields
  exact (readsBack_number (by decide : 0 < 4) hlt).yields.bind_pure (if_pos hcount) hrest

/-! ### Columns that are skipped at the end -/

theorem serializeEach_map {α β : Type} {f : α → Write} {g : β → Write} {k : α → β} {l : List α}
    (h : ∀ a ∈ l, f a = g (k a)) : serializeEach f l = serializeEach g (l.map k) := by
  induction l with
  | nil => rfl
  | cons a l ih =>
    rw [serializeEach, h a List.mem_cons_self, ih fun b hb => h b (List.mem_cons_of_mem _ hb)]
    rfl

theorem serializeRowSkipping_eq {m : ℕ} {row : Row UInt64} {keyIn : ℕ}
    (hlength : row.length = columns.length)
    (hiff : ∀ j < columns.length, j ∈ skipColumnIndices ↔ m ≤ j) :
    serializeRowSkipping root skipColumnIndices row keyIn columns =
      serializeRow root (row.take m) keyIn (columns.take m) := by
  have hkept : keptFrom skipColumnIndices 0 columns = columns.take m :=
    keptFrom_eq_take fun j hj => by
      rw [Nat.zero_add]
      exact hiff j hj
  have hsize : (List.range columns.length).countP (fun cellIndex =>
      decide (cellIndex ∉ skipColumnIndices)) = (columns.take m).length := by
    rw [List.countP_eq_length_filter, ← hkept, length_kept]
    rfl
  rw [serializeRowSkipping, serializeRow, hsize,
    @serializeKeptCells_eq_take root skipColumnIndices m columns row 0 hlength fun j hj => by
      rw [Nat.zero_add]
      exact hiff j hj,
    Nat.sub_zero]

theorem readsBack_firstColumns (h : Complete root) {rows : List (ℕ × Row UInt64)}
    (hskip : SkipSet columns skipColumnIndices) (hbits : columns.length < 2 ^ 32)
    (hnamed : ∀ column ∈ columns, Named column)
    (hcount : (keptFrom skipColumnIndices 0 columns).length ≤ 10000)
    (hlast : SkipsLast columns skipColumnIndices)
    (hrows : ProjectableRows columns skipColumnIndices rows) (columnType : ℕ) :
    ReadsBack (serializeSkipping root skipColumnIndices ⟨columns, rows⟩)
      (deserializeParts root rows.length columnType)
      (true, ⟨(keptFrom skipColumnIndices 0 columns).map cutName,
        (projection skipColumnIndices ⟨columns, rows⟩).rows⟩) := by
  obtain ⟨m, hm, hiff⟩ := hlast.exists_kept
  have hkept : ∀ {α : Type} (l : List α), l.length = columns.length →
      keptFrom skipColumnIndices 0 l = l.take m := by
    intro α l hlength
    refine keptFrom_eq_take fun j hj => ?_
    rw [Nat.zero_add]
    exact hiff j (hlength ▸ hj)
  have hcolumns := hkept columns rfl
  have hwrites : serializeEach (fun entry : ℕ × Row UInt64 =>
      serializeRowSkipping root skipColumnIndices entry.2 entry.1 columns) rows =
      serializeEach (fun entry => serializeRow root entry.2 entry.1 (columns.take m))
        (projection skipColumnIndices ⟨columns, rows⟩).rows := by
    refine serializeEach_map fun entry hentry => ?_
    have hlength := (hrows.rows entry hentry).2.1
    rw [serializeRowSkipping_eq hlength hiff, hkept entry.2 hlength]
  refine (readsBack_keptColumns h hskip hbits hnamed hcount columnType).bind ?_
  rw [hwrites]
  have hlength : (projection skipColumnIndices ⟨columns, rows⟩).rows.length = rows.length :=
    List.length_map _
  rw [← hlength]
  have hsame : SameTypes (columns.take m) ((keptFrom skipColumnIndices 0 columns).map cutName) := by
    rw [hcolumns, SameTypes, List.map_map]
    rfl
  refine readsBack_rows h (by rw [← hcolumns]; exact hcount) ?_ hsame ?_
  · intro entry hentry
    obtain ⟨entry, hmem, rfl⟩ := List.mem_map.mp hentry
    obtain ⟨hkey, -, hholds⟩ := hrows.rows entry hmem
    rw [hcolumns] at hholds
    exact ⟨hkey, hholds⟩
  · rw [List.nil_append]
    exact List.pairwise_map.mpr hrows.keys

/-! ### A column that is kept behind one that is skipped -/

def emptyRow (columns : List ColumnDescriptor) : Row UInt64 :=
  List.replicate columns.length .empty

theorem serializeKeptCells_empty (i : ℕ) (columns : List ColumnDescriptor) :
    serializeKeptCells root skipColumnIndices i columns (emptyRow columns) =
      serializeEach (fun cellIndex => writeNumber 4 cellIndex >=> writeBool true)
        ((List.range' i columns.length).filter fun i => decide (i ∉ skipColumnIndices)) := by
  induction columns generalizing i with
  | nil => rfl
  | cons column columns ih =>
    have hempty : emptyRow (column :: columns) = .empty :: emptyRow columns := rfl
    rw [hempty, serializeKeptCells, List.length_cons, List.range'_succ, List.filter_cons]
    by_cases hskip : i ∈ skipColumnIndices
    · rw [if_pos hskip, if_neg (by simpa using hskip), ih (i + 1)]
    · rw [if_neg hskip, if_pos (by simpa using hskip), ih (i + 1), serializeEach, append_assoc]
      rfl

theorem yields_emptyCells (indices : List ℕ) :
    Yields (serializeEach (fun cellIndex => writeNumber 4 cellIndex >=> writeBool true) indices)
      (pure ()) () := by
  induction indices with
  | nil => exact (readsBack_pure ()).yields
  | cons cellIndex indices ih =>
    have hnumber : Yields (writeNumber 4 cellIndex >=> writeBool true) (pure ()) () :=
      fun before => ⟨_, by rw [← List.append_assoc]; rfl, fun c _ _ => ⟨c, rfl⟩⟩
    exact @Yields.bind_pure _ _ _ _ _ _ (fun _ => pure ()) _ _ _ _ hnumber rfl ih

theorem deserializeCellAt_of_le {columns' : List ColumnDescriptor} {cellIndex : ℕ}
    (hle : columns'.length ≤ cellIndex) :
    deserializeCellAt root columns' (emptyRow columns') cellIndex = pure none := by
  rw [deserializeCellAt, if_neg]
  rw [emptyRow, List.length_replicate]
  omega

theorem readsBack_emptyCellAt (h : Complete root) {columns' : List ColumnDescriptor}
    {cellIndex : ℕ} (hlt : cellIndex < columns'.length) :
    ReadsBack (writeBool true) (deserializeCellAt root columns' (emptyRow columns') cellIndex)
      (some (emptyRow columns')) := by
  have hcell := (@readsBack_cell root h columns'[cellIndex].columnType .empty trivial).map
    (Option.map fun cell => (emptyRow columns').set cellIndex cell)
  have hset : (emptyRow columns').set cellIndex .empty = emptyRow columns' := by
    rw [emptyRow, List.set_replicate_self]
  rw [Option.map_some, hset] at hcell
  unfold deserializeCellAt
  rw [if_pos (by rw [emptyRow, List.length_replicate]; exact hlt), List.getElem?_eq_getElem hlt]
  exact hcell

theorem yields_refusedCells (h : Complete root) {columns' : List ColumnDescriptor}
    {indices : List ℕ} (hlt : ∀ cellIndex ∈ indices, cellIndex < 2 ^ 32)
    (hlarge : ∃ cellIndex ∈ indices, columns'.length ≤ cellIndex) :
    Yields (serializeEach (fun cellIndex => writeNumber 4 cellIndex >=> writeBool true) indices)
      (deserializeCells root columns' indices.length (emptyRow columns')) none := by
  induction indices with
  | nil =>
    obtain ⟨cellIndex, hmem, -⟩ := hlarge
    exact absurd hmem List.not_mem_nil
  | cons cellIndex indices ih =>
    rw [serializeEach, append_assoc]
    have hindex := readsBack_number (by decide : 0 < 4)
      (show cellIndex < 256 ^ 4 from hlt cellIndex List.mem_cons_self)
    refine hindex.bind_yields ?_
    dsimp only
    by_cases hrefused : columns'.length ≤ cellIndex
    · have hbool : Yields (writeBool true) (pure none : Access (Option (Row UInt64))) none :=
        fun before => ⟨_, rfl, fun c _ _ => ⟨c, rfl⟩⟩
      rw [deserializeCellAt_of_le hrefused]
      exact hbool.bind_pure rfl (yields_emptyCells indices)
    · have hat := readsBack_emptyCellAt h (Nat.lt_of_not_le hrefused)
      refine hat.bind_yields (ih (fun k hk => hlt k (List.mem_cons_of_mem _ hk)) ?_)
      obtain ⟨k, hk, hle⟩ := hlarge
      rcases List.mem_cons.mp hk with rfl | hmem
      · exact absurd hle hrefused
      · exact ⟨k, hmem, hle⟩

/-- The indices that are kept do not fit into as many columns if one that is skipped stands in
front of one that is kept. -/
theorem exists_large {i j : ℕ} (hi : i ∈ skipColumnIndices) (hj : j < columns.length)
    (hkept : j ∉ skipColumnIndices) (hij : i < j) :
    ∃ cellIndex ∈ keptIndices skipColumnIndices columns.length,
      (keptFrom skipColumnIndices 0 columns).length ≤ cellIndex := by
  by_contra hnone
  simp only [not_exists, not_and, Nat.not_le] at hnone
  rw [length_kept] at hnone
  have hjm := hnone j (mem_keptIndices.mpr ⟨hj, hkept⟩)
  have hsubset : keptIndices skipColumnIndices columns.length ⊆
      (List.range (keptIndices skipColumnIndices columns.length).length).erase i := by
    intro k hk
    refine (List.mem_erase_of_ne fun heq => ?_).mpr (List.mem_range.mpr (hnone k hk))
    exact (mem_keptIndices.mp hk).2 (heq ▸ hi)
  have hnodup : (keptIndices skipColumnIndices columns.length).Nodup := List.nodup_range.filter _
  have hle := (hnodup.subperm hsubset).length_le
  have hir := List.mem_range.mpr (Nat.lt_trans hij hjm)
  rw [List.length_erase_of_mem hir, List.length_range] at hle
  omega

def emptyRowTable (columns : List ColumnDescriptor) : Table UInt64 :=
  ⟨columns, [(0, emptyRow columns)]⟩

theorem rowHolds_emptyRow (i : ℕ) (columns : List ColumnDescriptor) :
    RowHolds (keptFrom skipColumnIndices i columns)
      (keptFrom skipColumnIndices i (emptyRow columns)) := by
  induction columns generalizing i with
  | nil => exact .nil
  | cons column columns ih =>
    have hempty : emptyRow (column :: columns) = .empty :: emptyRow columns := rfl
    rw [hempty, keptFrom, keptFrom]
    split
    · exact ih (i + 1)
    · refine .cons ?_ (ih (i + 1))
      cases column.columnType <;> trivial

theorem projectableRows_emptyRow (columns : List ColumnDescriptor) (skipColumnIndices : List ℕ) :
    ProjectableRows columns skipColumnIndices (emptyRowTable columns).rows where
  keys := List.pairwise_singleton _ _
  rows entry hentry := by
    obtain rfl := List.mem_singleton.mp hentry
    exact ⟨Nat.two_pow_pos 32, List.length_replicate, rowHolds_emptyRow 0 columns⟩

theorem yields_refusedRow (h : Complete root) (hbits : columns.length < 2 ^ 32)
    (hlarge : ∃ cellIndex ∈ keptIndices skipColumnIndices columns.length,
      (keptFrom skipColumnIndices 0 columns).length ≤ cellIndex) {columns' : List ColumnDescriptor}
    (hcolumns : columns'.length = (keptFrom skipColumnIndices 0 columns).length) :
    Yields (serializeEach (fun entry => serializeRowSkipping root skipColumnIndices entry.2 entry.1
        columns) (emptyRowTable columns).rows)
      (deserializeRows root 1 ⟨columns', []⟩) (false, ⟨columns', []⟩) := by
  have hsize : (List.range columns.length).countP (fun cellIndex =>
      decide (cellIndex ∉ skipColumnIndices)) = columns'.length := by
    rw [List.countP_eq_length_filter, hcolumns, length_kept]
    rfl
  have hsmall : columns'.length < 256 ^ 4 := by
    rw [← hsize]
    have hle := @List.countP_le_length _ (fun cellIndex => decide (cellIndex ∉ skipColumnIndices))
      (List.range columns.length)
    rw [List.length_range] at hle
    omega
  have hlt : ∀ cellIndex ∈ keptIndices skipColumnIndices columns.length, cellIndex < 2 ^ 32 :=
    fun cellIndex hmem => Nat.lt_trans (mem_keptIndices.mp hmem).1 hbits
  have hcells := @yields_refusedCells root h columns' _ hlt (by rw [hcolumns]; exact hlarge)
  have hindices : (keptIndices skipColumnIndices columns.length).length = columns'.length := by
    rw [hcolumns, length_kept]
  rw [hindices] at hcells
  have hrow : Yields (serializeRowSkipping root skipColumnIndices (emptyRow columns) 0 columns)
      (deserializeRow root ⟨columns', []⟩) none := by
    unfold serializeRowSkipping
    rw [serializeKeptCells_empty, ← List.range_eq_range', hsize]
    refine (readsBack_number (by decide : 0 < 4) (by decide)).bind_yields ?_
    refine (readsBack_number (by decide : 0 < 4) hsmall).bind_yields ?_
    dsimp only
    rw [if_neg (Nat.lt_irrefl _)]
    exact hcells.map (Option.map fun row =>
      (⟨columns', insertRow 0 row []⟩ : Table UInt64))
  exact hrow.bind_pure rfl (readsBack_pure ()).yields

theorem yields_emptyRow (columns : List ColumnDescriptor) :
    Yields (serializeEach (fun entry => serializeRowSkipping root skipColumnIndices entry.2 entry.1
      columns) (emptyRowTable columns).rows) (pure ()) () := by
  have hnumber : ∀ value, Yields (writeNumber 4 value) (pure ()) () :=
    fun value before => ⟨_, rfl, fun c _ _ => ⟨c, rfl⟩⟩
  have hthen : ∀ {first second : Write}, Yields first (pure ()) () → Yields second (pure ()) () →
      Yields (first >=> second) (pure ()) () := fun hfirst hsecond =>
    @Yields.bind_pure _ _ _ _ _ _ (fun _ => pure ()) _ _ _ _ hfirst rfl hsecond
  have hcells : Yields (serializeKeptCells root skipColumnIndices 0 columns (emptyRow columns))
      (pure ()) () := by
    rw [serializeKeptCells_empty]
    exact yields_emptyCells _
  exact hthen (hthen (hnumber 0) (hthen (hnumber _) hcells)) (readsBack_pure ()).yields

/-! ### The round trip -/

theorem ProjectionRoundTrips.eq_of_yields {table : Table UInt64}
    (h : ProjectionRoundTrips root skipColumnIndices table) {read : Bool × Table UInt64}
    (hyields : Yields (serializeSkipping root skipColumnIndices table)
      (deserializeParts root table.rows.length 0) read) :
    read = (true, projection skipColumnIndices table) := by
  obtain ⟨out, hout, htrip⟩ := h
  obtain ⟨memory, hmemory, hbits⟩ := exists_memory out
  obtain ⟨c, hc⟩ := hyields.from_empty hout hmemory hbits (Nat.le_refl _)
  obtain ⟨c', hc'⟩ := htrip memory _ hmemory hbits (Nat.le_refl _) 0
  exact (Prod.mk.inj (Option.some.inj (hc.symm.trans hc'))).1

theorem ProjectionRoundTrips.kept_le (h : Complete root)
    (hskip : SkipSet columns skipColumnIndices) (hbits : columns.length < 2 ^ 32)
    (hnamed : ∀ column ∈ columns, Named column)
    (htrip : ProjectionRoundTrips root skipColumnIndices (emptyRowTable columns)) :
    (keptFrom skipColumnIndices 0 columns).length ≤ 10000 := by
  by_contra hmany
  have hrefused := yields_tooMany h hskip hbits hnamed (Nat.lt_of_not_le hmany) 0
  have heq := htrip.eq_of_yields (hrefused.bind_pure rfl (yields_emptyRow columns))
  exact absurd (Prod.mk.inj heq).1 Bool.false_ne_true

theorem ProjectionRoundTrips.skipsLast (h : Complete root)
    (hskip : SkipSet columns skipColumnIndices) (hbits : columns.length < 2 ^ 32)
    (hnamed : ∀ column ∈ columns, Named column)
    (htrip : ProjectionRoundTrips root skipColumnIndices (emptyRowTable columns)) :
    SkipsLast columns skipColumnIndices := by
  intro i hi j hj hkept
  by_contra hle
  have hne : i ≠ j := fun heq => hkept (heq ▸ hi)
  have hlarge := exists_large hi hj hkept (by omega)
  have hcolumns := readsBack_keptColumns h hskip hbits hnamed
    (htrip.kept_le h hskip hbits hnamed) 0
  have hrow := yields_refusedRow h hbits hlarge (List.length_map cutName)
  have heq := htrip.eq_of_yields (hcolumns.bind_yields hrow)
  exact absurd (Prod.mk.inj heq).1 Bool.false_ne_true

theorem projectionRoundTrips_iff_last (h : Complete root)
    (hskip : SkipSet columns skipColumnIndices) (hbits : columns.length < 2 ^ 32)
    (hnamed : ∀ column ∈ columns, Named column)
    (hroom : ProjectionFits root skipColumnIndices (emptyRowTable columns)) :
    (∀ rows, ProjectableRows columns skipColumnIndices rows →
        ProjectionFits root skipColumnIndices ⟨columns, rows⟩ →
          ProjectionRoundTrips root skipColumnIndices ⟨columns, rows⟩) ↔
      (keptFrom skipColumnIndices 0 columns).length ≤ 10000 ∧
        (∀ column ∈ keptFrom skipColumnIndices 0 columns, column.columnName.length ≤ 31) ∧
          SkipsLast columns skipColumnIndices := by
  constructor
  · intro hall
    have hprojectable := projectableRows_emptyRow columns skipColumnIndices
    have htrip := hall _ hprojectable hroom
    have hcount := htrip.kept_le h hskip hbits hnamed
    have hlast := htrip.skipsLast h hskip hbits hnamed
    refine ⟨hcount, (map_cutName_eq_self_iff _).mp ?_, hlast⟩
    have hread := readsBack_firstColumns h hskip hbits hnamed hcount hlast hprojectable 0
    have heq := htrip.eq_of_yields hread.yields
    exact congrArg Table.columns (Prod.mk.inj heq).2
  · rintro ⟨hcount, hnames, hlast⟩ rows hrows -
    have hread := fun columnType =>
      (readsBack_firstColumns h hskip hbits hnamed hcount hlast hrows columnType).yields
    obtain ⟨out, hout⟩ := (hread 0).exists_out
    rw [(map_cutName_eq_self_iff _).mpr hnames] at hread
    exact ⟨out, hout, fun memory numberOfBits hmemory hbits hinside columnType =>
      (hread columnType).from_empty hout hmemory hbits hinside⟩

/-- Whatever rows a table has, they come back as its projection if and only if at most 10000 columns
are kept, none of their names is cut, and the columns that are skipped are the last ones. -/
theorem projectionRoundTrips_iff (frequencyTable : UInt8 → UInt32) :
    ∃ root, generateFromFrequencyTable frequencyTable = some root ∧
      ∀ (columns : List ColumnDescriptor) (skipColumnIndices : List ℕ),
        SkipSet columns skipColumnIndices → columns.length < 2 ^ 32 →
          (∀ column ∈ columns, Named column) →
            ProjectionFits root skipColumnIndices (emptyRowTable columns) →
              ((∀ rows, ProjectableRows columns skipColumnIndices rows →
                  ProjectionFits root skipColumnIndices ⟨columns, rows⟩ →
                    ProjectionRoundTrips root skipColumnIndices ⟨columns, rows⟩) ↔
                (keptFrom skipColumnIndices 0 columns).length ≤ 10000 ∧
                  (∀ column ∈ keptFrom skipColumnIndices 0 columns,
                    column.columnName.length ≤ 31) ∧
                  SkipsLast columns skipColumnIndices) := by
  obtain ⟨left, right, hrun, hcomplete⟩ := generateFromFrequencyTable_eq frequencyTable
  exact ⟨_, hrun, fun columns skipColumnIndices hskip hbits hnamed hroom =>
    projectionRoundTrips_iff_last hcomplete hskip hbits hnamed hroom⟩

def twoColumns : List ColumnDescriptor := [⟨[97], .numeric⟩, ⟨[98], .numeric⟩]

theorem named_twoColumns : ∀ column ∈ twoColumns, Named column := by decide

theorem skipSet_twoColumns {i : ℕ} (h : i < 2) : SkipSet twoColumns [i] where
  nodup := List.nodup_singleton i
  lt j hj := by
    obtain rfl := List.mem_singleton.mp hj
    exact h

theorem takes_column (h : Complete root) {name : UInt8} (hname : name ≠ 0) :
    Takes (serializeColumn root ⟨[name], .numeric⟩) 303 := by
  have hstring := takes_string h (s := [name]) (by simpa using hname.symm)
    (Nat.lt_of_sub_eq_succ rfl : [name].length < 64) (by decide)
  intro before out hout
  have hle := (hstring.bind (takes_number 1 0)) before out hout
  rw [List.length_singleton] at hle
  omega

theorem takes_numericCell {cell : Cell UInt64} (h : cell = .empty ∨ ∃ i, cell = .number i) :
    Takes (serializeCell root cell .numeric) 65 := by
  intro before out hout
  rcases h with rfl | ⟨i, rfl⟩
  · have hle := takes_append [true] before out hout
    exact Nat.le_trans hle (Nat.add_le_add_left (by decide) _)
  · exact ((takes_append [false]).bind (takes_number 8 i.toNat)) before out hout

theorem fits_twoColumns (h : Complete root) {i : ℕ} (hi : i = 0 ∨ i = 1) {row : Row UInt64}
    (hlength : row.length = 2) (hrow : ∀ cell ∈ row, cell = .empty ∨ ∃ i, cell = .number i) :
    ProjectionFits root [i] ⟨twoColumns, [(0, row)]⟩ := by
  obtain ⟨first, second, rfl⟩ : ∃ first second, row = [first, second] :=
    List.length_eq_two.mp hlength
  obtain ⟨name, cell, hname, hcell, hcolumns, hcells⟩ : ∃ (name : UInt8) (cell : Cell UInt64),
      name ≠ 0 ∧ (cell = .empty ∨ ∃ i, cell = .number i) ∧
        serializeKeptColumns root [i] 0 twoColumns =
          (serializeColumn root ⟨[name], .numeric⟩ >=> some) ∧
        ∃ cellIndex, serializeKeptCells root [i] 0 twoColumns [first, second] =
          (writeNumber 4 cellIndex >=> (serializeCell root cell .numeric >=> some)) := by
    rcases hi with rfl | rfl
    · exact ⟨98, second, by decide, hrow second (by simp), rfl, 1, rfl⟩
    · exact ⟨97, first, by decide, hrow first (by simp), rfl, 0, rfl⟩
  obtain ⟨cellIndex, hcells⟩ := hcells
  have hcolumnsTake := (takes_number 4
    ((twoColumns.length + (2 ^ 32 - [i].length % 2 ^ 32)) % 2 ^ 32)).bind
      ((takes_column h hname).bind takes_some)
  have hcellsTake := (takes_number 4 cellIndex).bind
    ((@takes_numericCell root cell hcell).bind takes_some)
  have htakes := hcolumnsTake.bind (((takes_number 4 0).bind ((takes_number 4
    ((List.range twoColumns.length).countP fun cellIndex => decide (cellIndex ∉ [i]))).bind
      hcellsTake)).bind takes_some)
  rw [← hcolumns, ← hcells] at htakes
  intro out hout
  have hle := htakes [] out hout
  rw [List.length_nil] at hle
  unfold StringCompressor.streamLimit
  omega

theorem projectableRows_numbers :
    ProjectableRows twoColumns [1] [(0, [.number 5, .number 9])] where
  keys := List.pairwise_singleton _ _
  rows entry hentry := by
    obtain rfl := List.mem_singleton.mp hentry
    exact ⟨Nat.two_pow_pos 32, rfl, .cons trivial .nil⟩

theorem projectionRoundTrips_firstColumn :
    ∃ root, generateFromFrequencyTable (fun _ => 1) = some root ∧
      ProjectionRoundTrips root [1] ⟨twoColumns, [(0, [.number 5, .number 9])]⟩ := by
  obtain ⟨root, hrun, hiff⟩ := projectionRoundTrips_iff fun _ => 1
  obtain ⟨left, right, hrun', hcomplete⟩ := generateFromFrequencyTable_eq fun _ => 1
  obtain rfl := Option.some.inj (hrun.symm.trans hrun')
  have hempty : ProjectionFits _ [1] (emptyRowTable twoColumns) :=
    fits_twoColumns hcomplete (.inr rfl) rfl (by simp [emptyRow, twoColumns])
  have hall := (hiff twoColumns [1] (skipSet_twoColumns (by decide)) (by decide)
    named_twoColumns hempty).mpr ⟨by decide, by decide, by unfold SkipsLast; decide⟩
  exact ⟨_, hrun, hall _ projectableRows_numbers
    (fits_twoColumns hcomplete (.inr rfl) rfl (by simp))⟩

/-- With the first of two columns skipped, a row of empty cells is not read back. -/
theorem second_column_lost : ∃ root, generateFromFrequencyTable (fun _ => 1) = some root ∧
    SkipSet twoColumns [0] ∧ ProjectableRows twoColumns [0] (emptyRowTable twoColumns).rows ∧
      ProjectionFits root [0] (emptyRowTable twoColumns) ∧
        ¬ ProjectionRoundTrips root [0] (emptyRowTable twoColumns) := by
  obtain ⟨left, right, hrun, hcomplete⟩ := generateFromFrequencyTable_eq fun _ => 1
  have hskip : SkipSet twoColumns [0] := skipSet_twoColumns (by decide)
  have hempty : ProjectionFits _ [0] (emptyRowTable twoColumns) :=
    fits_twoColumns hcomplete (.inl rfl) rfl (by simp [emptyRow, twoColumns])
  refine ⟨_, hrun, hskip, projectableRows_emptyRow _ _, hempty, fun htrip => ?_⟩
  have hlarge := @exists_large [0] twoColumns 0 1 (List.mem_singleton.mpr rfl) (by decide)
    (by decide) (by decide)
  have hrow := yields_refusedRow hcomplete (by decide) hlarge (List.length_map cutName)
  have hcolumns := readsBack_keptColumns hcomplete hskip (by decide) named_twoColumns (by decide) 0
  have heq := htrip.eq_of_yields (hcolumns.bind_yields hrow)
  exact absurd (Prod.mk.inj heq).1 Bool.false_ne_true

end TableSerializer

end SLikeNet
