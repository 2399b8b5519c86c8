import SLikeNet.TableRoundTrip

/-! Lists of filter queries as bits, and the list that is made of them. A list is made again only
if all of its queries are the same. -/

namespace SLikeNet

open BitCursor PacketReads BitCodec HuffmanEncodingTree

def Table.FilterQueryType.toCode : Table.FilterQueryType → ℕ
  | .equal => 0
  | .notEqual => 1
  | .greaterThan => 2
  | .greaterThanEq => 3
  | .lessThan => 4
  | .lessThanEq => 5
  | .isEmpty => 6
  | .notEmpty => 7

namespace TableSerializer

/-- The fields of a cell: `i` is a `double`, as its bits, and `c` is `none` for a null pointer. -/
structure CellFields where
  isEmpty : Bool
  i : UInt64
  c : Option (List UInt8)
  ptr : ℕ
deriving DecidableEq

/-- A filter query with the fields of its cell, and its operation as the number that is sent. -/
structure SentQuery where
  columnName : List UInt8
  columnIndex : ℕ
  operation : ℕ
  cellValue : CellFields
deriving DecidableEq

/-- What the memory holds that a query is read into. -/
structure FreshMemory where
  columnIndex : ℕ
  operation : ℕ
  bytes : ℕ → List UInt8

/-- A whole number as a `double`, which is exact below `2 ^ 53`. -/
def doubleOf (n : ℕ) : UInt64 :=
  if n = 0 then 0
  else UInt64.ofNat ((n.log2 + 1023) * 2 ^ 52 + (n - 2 ^ n.log2) * 2 ^ (52 - n.log2))

/-- The conversion of a `double` to `unsigned int`, for one that is not negative. -/
def unsignedOf (i : UInt64) : ℕ :=
  if i.toNat / 2 ^ 52 % 2048 < 1023 then 0
  else (2 ^ 52 + i.toNat % 2 ^ 52) / 2 ^ (1075 - i.toNat / 2 ^ 52 % 2048)

namespace CellFields

def new : CellFields := ⟨true, 0, none, 0⟩

def setNumber (input : UInt64) : CellFields := ⟨false, input, none, 0⟩

/-- `Set` of a string, which is stored with its NUL. -/
def setString (input : List UInt8) : CellFields :=
  ⟨false, doubleOf (input.length + 1), some (input ++ [0]), 0⟩

def setBinary (input : List UInt8) : CellFields := ⟨false, doubleOf input.length, some input, 0⟩

end CellFields

/-! ### Writing -/

section Writing

variable (root : HuffmanEncodingTreeNode)

def maxBinaryCell : ℕ := 10000000

def writeCompressedNumber (value : ℕ) : Write := append (StreamWrites.writeCompressed 4 value)

def writeAlignedBytesSafe (inByteArray : Option (List UInt8)) (inputLength maxBytesToWrite : ℕ) :
    Write :=
  match inByteArray with
  | none => writeCompressedNumber 0
  | some bytes =>
    if inputLength = 0 then writeCompressedNumber 0
    else writeCompressedNumber inputLength >=>
      writeAlignedBytes (bytes.take (min inputLength maxBytesToWrite))

/-- The part of `SerializeFilterQuery` for the value. -/
def serializeCellValue (cell : CellFields) : Write :=
  writeBool cell.isEmpty >=>
    if cell.isEmpty then some
    else writeNumber 8 cell.i.toNat >=>
      (writeAlignedBytesSafe cell.c (unsignedOf cell.i) maxBinaryCell >=> writeNumber 8 cell.ptr)

def serializeFilterQuery (query : SentQuery) : Write :=
  encodeString root (some (query.columnName ++ [0])) Table.maxColumnNameLength >=>
    (writeCompressedNumber query.columnIndex >=>
      (writeNumber 1 query.operation >=> serializeCellValue query.cellValue))

/-- `SerializeFilterQueryList`. The loop serializes the query that the pointer points to, which is
the first one, as often as there are queries. -/
def serializeFilterQueryList : List SentQuery → Write
  | [] => writeBool false
  | query :: queries =>
    writeBool true >=> (writeCompressedNumber (query :: queries).length >=>
      serializeEach (fun _ => serializeFilterQuery root query) (query :: queries))

end Writing

/-! ### Reading -/

section Reading

variable (root : HuffmanEncodingTreeNode) (fresh : FreshMemory)

def readAlignedBytes (numberOfBytesToRead : ℕ) : Access (Option (List UInt8)) := do
  alignReadToByteBoundary
  let c ← get
  if numberOfUnreadBits c / 8 < numberOfBytesToRead then pure none
  else some <$> copyBytes numberOfBytesToRead

/-- The bytes with their number, `none` for a null pointer. Bytes that are not there are those of
the new memory. -/
def readAlignedBytesSafeAlloc (maxBytesToRead : ℕ) : Access (Option (List UInt8 × ℕ)) := do
  match ← readCompressed 4 with
  | none => pure none
  | some inputLength =>
    if min inputLength maxBytesToRead = 0 then pure none
    else
      (fun read => some (read.getD (fresh.bytes (min inputLength maxBytesToRead)),
        min inputLength maxBytesToRead)) <$> readAlignedBytes (min inputLength maxBytesToRead)

/-- The part of `DeserializeFilterQuery` for the value, which is a new cell. The pointer that was
read says whether `i` is a length. -/
def deserializeCellValue : Access (Bool × CellFields) := do
  match ← readBool with
  | none => pure (false, .new)
  | some true => pure (true, .new)
  | some false => do
    let i ← readNumber 8
    let data ← readAlignedBytesSafeAlloc fresh maxBinaryCell
    (fun ptr => (ptr.isSome,
      { isEmpty := false
        i := match data with
          | some (_, inputLength) => doubleOf inputLength
          | none => UInt64.ofNat (i.getD 0)
        c := data.map Prod.fst
        ptr := ptr.getD 0 })) <$> readNumber 8

def deserializeFilterQuery : Access (Bool × SentQuery) := do
  let columnName ← decodeString root Table.maxColumnNameLength
  let columnIndex ← readCompressed 4
  let operation ← readNumber 1
  (fun read => (read.1,
    { columnName := cString (columnName.getD [])
      columnIndex := columnIndex.getD fresh.columnIndex
      operation := operation.getD fresh.operation
      cellValue := read.2 })) <$> deserializeCellValue fresh

/-- The loop of `DeserializeFilterQueryList`; the result is that of the last query. -/
def deserializeQueries : ℕ → Bool → Access (Bool × List SentQuery)
  | 0, b => pure (b, [])
  | numQueries + 1, _ => do
    let read ← deserializeFilterQuery root fresh
    (fun rest => (rest.1, read.2 :: rest.2)) <$> deserializeQueries numQueries read.1

/-- `DeserializeFilterQueryList` without the extra queries behind those that are read.
`numQueries` is what the caller's variable holds before. -/
def deserializeFilterQueryList (numQueries maxQueries : ℕ) : Access (Bool × List SentQuery) := do
  match ← readBool with
  | none => pure (true, [])
  | some false => pure (true, [])
  | some true => do
    let read ← readCompressed 4
    deserializeQueries root fresh (min (read.getD numQueries) maxQueries) read.isSome

end Reading

/-! ### Numbers and bytes -/

variable {root : HuffmanEncodingTreeNode} {fresh : FreshMemory}

theorem log2_bounds {n : ℕ} (hpos : n ≠ 0) (hlt : n < 2 ^ 32) :
    2 ^ n.log2 ≤ n ∧ n < 2 ^ n.log2 * 2 ∧ n.log2 < 32 := by
  refine ⟨Nat.log2_self_le hpos, ?_, (Nat.log2_lt hpos).mpr hlt⟩
  rw [← Nat.pow_succ]
  exact Nat.lt_log2_self

theorem unsignedOf_doubleOf {n : ℕ} (hlt : n < 2 ^ 32) : unsignedOf (doubleOf n) = n := by
  by_cases hzero : n = 0
  · subst hzero
    rfl
  · obtain ⟨hle, hbelow, hlog⟩ := log2_bounds hzero hlt
    have hpow : 2 ^ n.log2 * 2 ^ (52 - n.log2) = 2 ^ 52 := by
      rw [← Nat.pow_add]
      congr 1
      omega
    have hmantissa : (n - 2 ^ n.log2) * 2 ^ (52 - n.log2) < 2 ^ 52 := by
      rw [← hpow]
      exact Nat.mul_lt_mul_of_pos_right (by omega) (Nat.two_pow_pos _)
    have hbits : (doubleOf n).toNat =
        (n.log2 + 1023) * 2 ^ 52 + (n - 2 ^ n.log2) * 2 ^ (52 - n.log2) := by
      rw [doubleOf, if_neg hzero, UInt64.toNat_ofNat']
      exact Nat.mod_eq_of_lt (by omega)
    have hwhole : 2 ^ 52 + (n - 2 ^ n.log2) * 2 ^ (52 - n.log2) = n * 2 ^ (52 - n.log2) := by
      rw [← hpow, ← Nat.add_mul, Nat.add_sub_cancel' hle]
    have hexponent : (doubleOf n).toNat / 2 ^ 52 % 2048 = n.log2 + 1023 := by omega
    have hrest : (doubleOf n).toNat % 2 ^ 52 = (n - 2 ^ n.log2) * 2 ^ (52 - n.log2) := by omega
    have hshift : 1075 - (n.log2 + 1023) = 52 - n.log2 := by omega
    rw [unsignedOf, hexponent, if_neg (by omega), hrest, hwhole, hshift,
      Nat.mul_div_cancel _ (Nat.two_pow_pos _)]

theorem readsBack_compressed {value : ℕ} (hvalue : value < 2 ^ 32) :
    ReadsBack (writeCompressedNumber value) (readCompressed 4) (some value) :=
  readsBack_append fun _ hahead =>
    StreamWrites.readCompressed_ahead (by decide) (by omega) hahead

theorem readsBack_alignedBytes (bytes : List UInt8) :
    ReadsBack (writeAlignedBytes bytes) (readAlignedBytes bytes.length) (some bytes) := by
  intro before
  refine ⟨_, writeAlignedBytes_eq bytes before, fun c hoffset hahead => ?_⟩
  obtain ⟨hcopy, hunread⟩ := copyBytes_ahead hoffset hahead
  have halign : alignReadToByteBoundary c = some ((), c.advance (BitStream.padding c.readOffset)) :=
    rfl
  have hlook : (get : Access Cursor) (c.advance (BitStream.padding c.readOffset)) =
      some (c.advance (BitStream.padding c.readOffset),
        c.advance (BitStream.padding c.readOffset)) := rfl
  refine (bind_of_run halign).trans ?_
  refine (bind_of_run hlook).trans ?_
  rw [if_neg (by omega)]
  refine (map_of_run _ hcopy).trans ?_
  rw [Cursor.advance_advance, List.length_append, List.length_replicate, length_bitsOf, hoffset]

theorem readsBack_null (inputLength : ℕ) :
    ReadsBack (writeAlignedBytesSafe none inputLength maxBinaryCell)
      (readAlignedBytesSafeAlloc fresh maxBinaryCell) none := by
  intro before
  obtain ⟨written, hwrite, hread⟩ := readsBack_compressed (by decide : 0 < 2 ^ 32) before
  exact ⟨written, hwrite, fun c hoffset hahead => bind_of_run (hread c hoffset hahead)⟩

theorem readsBack_bytes {bytes : List UInt8} (hne : bytes ≠ []) (hlt : bytes.length < 2 ^ 32) :
    ReadsBack (writeAlignedBytesSafe (some bytes) bytes.length maxBinaryCell)
      (readAlignedBytesSafeAlloc fresh maxBinaryCell)
      (some (bytes.take maxBinaryCell, (bytes.take maxBinaryCell).length)) := by
  have hpos : bytes.length ≠ 0 := fun hzero => hne (List.length_eq_zero_iff.mp hzero)
  have hlength : (bytes.take maxBinaryCell).length = min bytes.length maxBinaryCell := by
    rw [List.length_take, Nat.min_comm]
  have htake : bytes.take (min bytes.length maxBinaryCell) = bytes.take maxBinaryCell := by
    rw [Nat.min_comm, ← List.take_take, List.take_length]
  have hread := (readsBack_alignedBytes (bytes.take maxBinaryCell)).map fun read =>
    some (read.getD (fresh.bytes (min bytes.length maxBinaryCell)),
      min bytes.length maxBinaryCell)
  rw [Option.getD_some, hlength] at hread
  rw [writeAlignedBytesSafe, if_neg hpos, htake, hlength]
  refine (readsBack_compressed hlt).bind ?_
  dsimp only
  rw [if_neg (by unfold maxBinaryCell; omega)]
  exact hread

/-! ### Values -/

/-- What the value of a cell becomes. -/
def restored (cell : CellFields) : CellFields :=
  if cell.isEmpty then .new
  else
    match cell.c with
    | none => cell
    | some bytes =>
      if bytes = [] then { cell with c := none }
      else
        { cell with
          i := doubleOf (bytes.take maxBinaryCell).length
          c := some (bytes.take maxBinaryCell) }

/-- The values that `Set` stores, or one that was cleared. -/
inductive IsValue : CellFields → Prop
  | cleared (i : UInt64) (ptr : ℕ) : IsValue ⟨true, i, none, ptr⟩
  | number (input : UInt64) : IsValue (.setNumber input)
  | string (input : List UInt8) : 0 ∉ input → input.length + 1 < 2 ^ 31 →
      IsValue (.setString input)
  | binary (input : List UInt8) : input.length < 2 ^ 31 → IsValue (.setBinary input)

theorem IsValue.length {cell : CellFields} (h : IsValue cell) {bytes : List UInt8}
    (hc : cell.c = some bytes) : cell.i = doubleOf bytes.length ∧ bytes.length < 2 ^ 32 := by
  cases h with
  | cleared i ptr => cases hc
  | number input => cases hc
  | string input hzero hlength =>
    obtain rfl := Option.some.inj hc
    rw [List.length_append]
    exact ⟨rfl, by rw [List.length_singleton]; omega⟩
  | binary input hlength =>
    obtain rfl := Option.some.inj hc
    exact ⟨rfl, by omega⟩

theorem IsValue.ptr {cell : CellFields} (h : IsValue cell) (hfull : cell.isEmpty = false) :
    cell.ptr = 0 := by
  cases h with
  | cleared i ptr => cases hfull
  | _ => rfl

theorem readsBack_cellValue {cell : CellFields} (h : IsValue cell) :
    ReadsBack (serializeCellValue cell) (deserializeCellValue fresh) (true, restored cell) := by
  unfold serializeCellValue
  cases hempty : cell.isEmpty with
  | true =>
    rw [if_pos rfl, restored, if_pos hempty]
    exact (readsBack_bool true).bind (readsBack_pure _)
  | false =>
    have hptr : cell.ptr < 256 ^ 8 := by
      rw [h.ptr hempty]
      decide
    rw [if_neg Bool.false_ne_true, restored, if_neg (by rw [hempty]; exact Bool.false_ne_true)]
    refine (readsBack_bool false).bind ?_
    refine (readsBack_number (by decide : 0 < 8) (UInt64.toNat_lt cell.i)).bind ?_
    have hlast := readsBack_number (by decide : 0 < 8) hptr
    -- without a pointer `i` stays the number that was read
    have hnull := hlast.map fun ptr =>
      (ptr.isSome, (⟨false, cell.i, none, ptr.getD 0⟩ : CellFields))
    cases hc : cell.c with
    | none =>
      refine (readsBack_null _).bind ?_
      have hcell : cell = ⟨false, cell.i, none, cell.ptr⟩ := by rw [← hempty, ← hc]
      simp only [Option.getD_some, UInt64.ofNat_toNat]
      rw [hcell]
      exact hnull
    | some bytes =>
      obtain ⟨hi, hlt⟩ := h.length hc
      have hunsigned : unsignedOf cell.i = bytes.length := by rw [hi, unsignedOf_doubleOf hlt]
      dsimp only
      rw [hunsigned]
      by_cases hnil : bytes = []
      · subst hnil
        rw [if_pos rfl]
        refine (readsBack_null 0).bind ?_
        simp only [Option.getD_some, UInt64.ofNat_toNat]
        rw [hempty]
        exact hnull
      · rw [if_neg hnil, hempty]
        refine (readsBack_bytes hnil hlt).bind ?_
        exact hlast.map fun ptr => (ptr.isSome, ({
          isEmpty := false
          i := doubleOf (bytes.take maxBinaryCell).length
          c := some (bytes.take maxBinaryCell)
          ptr := ptr.getD 0 } : CellFields))

/-! ### Queries -/

/-- Two cells that the table takes for the same: of an empty one nothing else is looked at. -/
def CellFields.Same (first second : CellFields) : Prop :=
  first.isEmpty = second.isEmpty ∧ (first.isEmpty = false → first = second)

def SentQuery.Same (first second : SentQuery) : Prop :=
  first.columnName = second.columnName ∧ first.columnIndex = second.columnIndex ∧
    first.operation = second.operation ∧ first.cellValue.Same second.cellValue

/-- A string or binary value has a byte, and not more than ten megabytes. -/
def CellFields.Kept (cell : CellFields) : Prop :=
  ∀ bytes, cell.c = some bytes → 1 ≤ bytes.length ∧ bytes.length ≤ maxBinaryCell

/-- The queries of which the round trip is asked. -/
structure Sendable (query : SentQuery) : Prop where
  name : 0 ∉ query.columnName ∧ query.columnName.length < Table.maxColumnNameLength
  index : query.columnIndex < 2 ^ 32
  operation : ∃ operation : Table.FilterQueryType, query.operation = operation.toCode
  value : IsValue query.cellValue

theorem CellFields.Same.trans {first second third : CellFields} (h : first.Same second)
    (h' : second.Same third) : first.Same third :=
  ⟨h.1.trans h'.1, fun hfull => (h.2 hfull).trans (h'.2 (h.1 ▸ hfull))⟩

theorem CellFields.Same.symm {first second : CellFields} (h : first.Same second) :
    second.Same first :=
  ⟨h.1.symm, fun hfull => (h.2 (h.1 ▸ hfull)).symm⟩

theorem SentQuery.Same.trans {first second third : SentQuery} (h : first.Same second)
    (h' : second.Same third) : first.Same third :=
  ⟨h.1.trans h'.1, h.2.1.trans h'.2.1, h.2.2.1.trans h'.2.2.1, h.2.2.2.trans h'.2.2.2⟩

theorem SentQuery.Same.symm {first second : SentQuery} (h : first.Same second) :
    second.Same first :=
  ⟨h.1.symm, h.2.1.symm, h.2.2.1.symm, h.2.2.2.symm⟩

theorem same_restored_iff {cell : CellFields} (h : IsValue cell) :
    cell.Same (restored cell) ↔ cell.Kept := by
  cases hempty : cell.isEmpty with
  | true =>
    have hc : cell.c = none := by
      cases h with
      | cleared i ptr => rfl
      | _ => cases hempty
    rw [restored, if_pos hempty]
    refine ⟨fun _ bytes hbytes => absurd (hc.symm.trans hbytes) nofun, fun _ => ⟨hempty, ?_⟩⟩
    exact fun hfull => absurd (hempty.symm.trans hfull) (by decide)
  | false =>
    rw [restored, if_neg (by rw [hempty]; exact Bool.false_ne_true), CellFields.Same]
    cases hc : cell.c with
    | none =>
      refine ⟨fun _ bytes hbytes => absurd (hc.symm.trans hbytes) nofun, fun _ => ⟨rfl, ?_⟩⟩
      exact fun _ => rfl
    | some bytes =>
      dsimp only
      constructor
      · rintro ⟨-, hsame⟩ bytes' hbytes'
        obtain rfl := Option.some.inj (hc.symm.trans hbytes')
        have hc' := congrArg CellFields.c (hsame hempty)
        rw [hc] at hc'
        split at hc'
        · exact absurd hc' nofun
        · rename_i hne
          have hlength := congrArg List.length (Option.some.inj hc')
          rw [List.length_take] at hlength
          have hpos := List.length_pos_iff.mpr hne
          omega
      · intro hkept
        obtain ⟨hpos, hle⟩ := hkept bytes hc
        have hne : bytes ≠ [] := List.length_pos_iff.mp hpos
        rw [if_neg hne, List.take_of_length_le hle, ← (h.length hc).1, ← hc]
        exact ⟨rfl, fun _ => rfl⟩

theorem CellFields.Kept.of_same {first second : CellFields} (h : second.Kept)
    (hvalue : IsValue first) (hsame : first.Same second) : first.Kept := by
  cases hvalue with
  | cleared i ptr => exact fun bytes hbytes => absurd hbytes nofun
  | number input => exact fun bytes hbytes => absurd hbytes nofun
  | string input => exact hsame.2 rfl ▸ h
  | binary input => exact hsame.2 rfl ▸ h

def restoredQuery (query : SentQuery) : SentQuery :=
  { query with cellValue := restored query.cellValue }

theorem toCode_operation_lt (operation : Table.FilterQueryType) : operation.toCode < 256 ^ 1 := by
  cases operation <;> decide

theorem readsBack_query (h : Complete root) {query : SentQuery} (hquery : Sendable query) :
    ReadsBack (serializeFilterQuery root query) (deserializeFilterQuery root fresh)
      (true, restoredQuery query) := by
  obtain ⟨⟨hzero, hlength⟩, hindex, ⟨operation, hoperation⟩, hvalue⟩ := hquery
  have hname := readsBack_string h hzero hlength (by decide) Table.maxColumnNameLength
  rw [List.take_of_length_le (Nat.le_sub_one_of_lt hlength)] at hname
  refine hname.bind ((readsBack_compressed hindex).bind ?_)
  refine (readsBack_number (by decide : 0 < 1) (hoperation ▸ toCode_operation_lt operation)).bind ?_
  have hread := (@readsBack_cellValue fresh _ hvalue).map fun read => (read.1,
    ({ columnName := cString ((some query.columnName).getD [])
       columnIndex := (some query.columnIndex).getD fresh.columnIndex
       operation := (some query.operation).getD fresh.operation
       cellValue := read.2 } : SentQuery))
  have hsame : cString ((some query.columnName).getD []) = query.columnName :=
    cString_of_not_mem hzero
  rw [hsame] at hread ⊢
  exact hread

theorem readsBack_queries (h : Complete root) {query : SentQuery} (hquery : Sendable query)
    (queries : List SentQuery) :
    ReadsBack (serializeEach (fun _ => serializeFilterQuery root query) queries)
      (deserializeQueries root fresh queries.length true)
      (true, List.replicate queries.length (restoredQuery query)) := by
  induction queries with
  | nil => exact readsBack_pure _
  | cons _ queries ih =>
    refine (readsBack_query h hquery).bind ?_
    exact ih.map fun rest => (rest.1, restoredQuery query :: rest.2)

theorem readsBack_queryList (h : Complete root) {query : SentQuery} {queries : List SentQuery}
    (hquery : Sendable query) {numQueries maxQueries : ℕ}
    (hmax : (query :: queries).length ≤ maxQueries) (hbits : maxQueries < 2 ^ 32) :
    ReadsBack (serializeFilterQueryList root (query :: queries))
      (deserializeFilterQueryList root fresh numQueries maxQueries)
      (true, List.replicate (query :: queries).length (restoredQuery query)) := by
  refine (readsBack_bool true).bind ((readsBack_compressed (by omega)).bind ?_)
  rw [Option.getD_some, Nat.min_eq_left hmax]
  exact readsBack_queries h hquery (query :: queries)

/-! ### The round trip -/

/-- `DeserializeFilterQueryList` makes the same queries of what `SerializeFilterQueryList` writes
to an empty stream. -/
def ListRoundTrips (root : HuffmanEncodingTreeNode) (maxQueries : ℕ) (queries : List SentQuery) :
    Prop :=
  ∃ out, serializeFilterQueryList root queries [] = some out ∧
    ∀ memory numberOfBits, out <+: bitsOf memory → out.length ≤ numberOfBits →
      numberOfBits ≤ memory.length * 8 → ∀ fresh numQueries, ∃ queries' c,
        deserializeFilterQueryList root fresh numQueries maxQueries ⟨memory, numberOfBits, 0⟩ =
            some ((true, queries'), c) ∧
          List.Forall₂ SentQuery.Same queries queries'

theorem forall₂_replicate_iff {queries : List SentQuery} {query : SentQuery} :
    List.Forall₂ SentQuery.Same queries (List.replicate queries.length query) ↔
      ∀ query' ∈ queries, query'.Same query := by
  induction queries with
  | nil => simp
  | cons query' queries ih =>
    rw [List.length_cons, List.replicate_succ, List.forall₂_cons, ih, List.forall_mem_cons]

theorem same_restoredQuery_iff {query : SentQuery} (h : Sendable query) :
    query.Same (restoredQuery query) ↔ query.cellValue.Kept := by
  rw [← same_restored_iff h.value]
  exact ⟨fun hsame => hsame.2.2.2, fun hsame => ⟨rfl, rfl, rfl, hsame⟩⟩

theorem all_same_restoredQuery_iff {query : SentQuery} {queries : List SentQuery}
    (hqueries : ∀ first ∈ query :: queries, Sendable first) :
    (∀ first ∈ query :: queries, first.Same (restoredQuery query)) ↔
      ∀ first ∈ query :: queries, first.cellValue.Kept ∧
        ∀ second ∈ query :: queries, second.Same first := by
  have hquery := hqueries query List.mem_cons_self
  constructor
  · intro hsame first hfirst
    have hkept := (same_restoredQuery_iff hquery).mp (hsame query List.mem_cons_self)
    have hback := (hsame query List.mem_cons_self).symm
    have hfirstSame := (hsame first hfirst).trans hback
    have hvalue := (hqueries first hfirst).value
    refine ⟨hkept.of_same hvalue hfirstSame.2.2.2, fun second hsecond => ?_⟩
    exact ((hsame second hsecond).trans hback).trans hfirstSame.symm
  · intro hall first hmem
    obtain ⟨hkept, hsame⟩ := hall query List.mem_cons_self
    exact (hsame first hmem).trans ((same_restoredQuery_iff hquery).mpr hkept)

theorem listRoundTrips_nil (root : HuffmanEncodingTreeNode) (maxQueries : ℕ) :
    ListRoundTrips root maxQueries [] := by
  refine ⟨_, rfl, ?_⟩
  intro memory numberOfBits hmemory hlength hinside fresh numQueries
  have hread := readBool_ahead (c := ⟨memory, numberOfBits, 0⟩)
    ⟨hmemory, by rw [Nat.zero_add]; exact hlength, hinside⟩
  exact ⟨[], _, bind_of_run hread, .nil⟩

theorem listRoundTrips_iff_same (h : Complete root) {maxQueries : ℕ} {queries : List SentQuery}
    (hqueries : ∀ query ∈ queries, Sendable query) (hmax : queries.length ≤ maxQueries)
    (hbits : maxQueries < 2 ^ 32) :
    ListRoundTrips root maxQueries queries ↔
      ∀ query ∈ queries, query.cellValue.Kept ∧ ∀ query' ∈ queries, query'.Same query := by
  cases queries with
  | nil =>
    exact ⟨fun _ _ hmem => absurd hmem List.not_mem_nil, fun _ => listRoundTrips_nil _ _⟩
  | cons query queries =>
    have hread := fun fresh numQueries => (@readsBack_queryList root fresh h query queries
      (hqueries query List.mem_cons_self) numQueries maxQueries hmax hbits).yields
    obtain ⟨written, hwrite⟩ := (hread ⟨0, 0, fun _ => []⟩ 0).exists_out
    rw [← all_same_restoredQuery_iff hqueries, ← forall₂_replicate_iff]
    constructor
    · rintro ⟨out, hout, htrip⟩
      obtain ⟨memory, hmemory, hlength⟩ := exists_memory out
      obtain ⟨c, hc⟩ :=
        (hread ⟨0, 0, fun _ => []⟩ 0).from_empty hout hmemory hlength (Nat.le_refl _)
      obtain ⟨queries', c', hc', hsame⟩ :=
        htrip memory _ hmemory hlength (Nat.le_refl _) ⟨0, 0, fun _ => []⟩ 0
      have heq := (Prod.mk.inj (Option.some.inj (hc.symm.trans hc'))).1
      exact (Prod.mk.inj heq).2 ▸ hsame
    · intro hsame
      refine ⟨written, hwrite, ?_⟩
      intro memory numberOfBits hmemory hlength hinside fresh numQueries
      obtain ⟨c, hc⟩ := (hread fresh numQueries).from_empty hwrite hmemory hlength hinside
      exact ⟨_, c, hc, hsame⟩

def ListFits (root : HuffmanEncodingTreeNode) (queries : List SentQuery) : Prop :=
  ∀ out, serializeFilterQueryList root queries [] = some out →
    out.length < StringCompressor.streamLimit

/-- A list of queries makes the round trip if and only if its queries are all the same and no value
loses its bytes. -/
theorem listRoundTrips_iff (frequencyTable : UInt8 → UInt32) :
    ∃ root, generateFromFrequencyTable frequencyTable = some root ∧
      ∀ (maxQueries : ℕ) (queries : List SentQuery), (∀ query ∈ queries, Sendable query) →
        queries.length ≤ maxQueries → maxQueries < 2 ^ 32 → ListFits root queries →
          (ListRoundTrips root maxQueries queries ↔
            ∀ query ∈ queries, query.cellValue.Kept ∧
              ∀ query' ∈ queries, query'.Same query) := by
  obtain ⟨left, right, hrun, hcomplete⟩ := generateFromFrequencyTable_eq frequencyTable
  exact ⟨_, hrun, fun maxQueries queries hqueries hmax hbits _ =>
    listRoundTrips_iff_same hcomplete hqueries hmax hbits⟩

def numberQuery (columnIndex : ℕ) : SentQuery := ⟨[110], columnIndex, 0, .setNumber 5⟩

theorem sendable_numberQuery {columnIndex : ℕ} (h : columnIndex < 2 ^ 32) :
    Sendable (numberQuery columnIndex) where
  name := ⟨by simp [numberQuery], by simp [numberQuery, Table.maxColumnNameLength]⟩
  index := h
  operation := ⟨.equal, rfl⟩
  value := .number 5

theorem takes_compressed (value : ℕ) : Takes (writeCompressedNumber value) 33 := by
  intro before out hout
  have hle := takes_append (StreamWrites.writeCompressed 4 value) before out hout
  have hbits : (StreamWrites.writeCompressed 4 value).length ≤ 33 :=
    StreamWrites.length_writeCompressedFrom_le _ 3
  omega

theorem takes_numberQuery (h : Complete root) (columnIndex : ℕ) :
    Takes (serializeFilterQuery root (numberQuery columnIndex)) 1000 := by
  have htakes : Takes (serializeFilterQuery root (numberQuery columnIndex)) _ :=
    (takes_string h (s := [110]) (by decide) (by decide : 1 < 64) (by decide)).bind
      ((takes_compressed columnIndex).bind ((takes_number 1 0).bind ((takes_append [false]).bind
        ((takes_number 8 _).bind ((takes_compressed 0).bind (takes_number 8 0))))))
  intro before out hout
  have hle := htakes before out hout
  simp at hle
  omega

theorem listFits_numberQueries (h : Complete root) (first second : ℕ) :
    ListFits root [numberQuery first, numberQuery second] := by
  have htakes : Takes (serializeFilterQueryList root [numberQuery first, numberQuery second]) _ :=
    (takes_append [true]).bind ((takes_compressed 2).bind ((takes_numberQuery h first).bind
      ((takes_numberQuery h first).bind takes_some)))
  intro out hout
  have hle := htakes [] out hout
  unfold StringCompressor.streamLimit
  simp at hle
  omega

theorem sendable_numberQueries {first second : ℕ} (h : first < 2 ^ 32) (h' : second < 2 ^ 32) :
    ∀ query ∈ [numberQuery first, numberQuery second], Sendable query := by
  intro query hmem
  rcases List.mem_pair.mp hmem with rfl | rfl
  · exact sendable_numberQuery h
  · exact sendable_numberQuery h'

theorem listRoundTrips_same : ∃ root, generateFromFrequencyTable (fun _ => 1) = some root ∧
    ListRoundTrips root 2 [numberQuery 3, numberQuery 3] := by
  obtain ⟨root, hrun, hiff⟩ := listRoundTrips_iff fun _ => 1
  obtain ⟨left, right, hrun', hcomplete⟩ := generateFromFrequencyTable_eq fun _ => 1
  obtain rfl := Option.some.inj (hrun.symm.trans hrun')
  refine ⟨_, hrun, (hiff 2 _ (sendable_numberQueries (by decide) (by decide)) (by decide)
    (by decide) (listFits_numberQueries hcomplete 3 3)).mpr fun query hmem => ?_⟩
  obtain rfl : query = numberQuery 3 := by simpa using hmem
  refine ⟨fun bytes hbytes => absurd hbytes nofun, fun query' hmem' => ?_⟩
  obtain rfl : query' = numberQuery 3 := by simpa using hmem'
  exact ⟨rfl, rfl, rfl, rfl, fun _ => rfl⟩

/-- Of two queries for different columns the second one becomes the first. -/
theorem second_query_lost : ∃ root, generateFromFrequencyTable (fun _ => 1) = some root ∧
    (∀ query ∈ [numberQuery 0, numberQuery 1], Sendable query) ∧
      ListFits root [numberQuery 0, numberQuery 1] ∧
        ¬ ListRoundTrips root 2 [numberQuery 0, numberQuery 1] := by
  obtain ⟨left, right, hrun, hcomplete⟩ := generateFromFrequencyTable_eq fun _ => 1
  have hqueries := @sendable_numberQueries 0 1 (by decide) (by decide)
  refine ⟨_, hrun, hqueries, listFits_numberQueries hcomplete 0 1, fun htrip => ?_⟩
  have hall := (listRoundTrips_iff_same hcomplete hqueries (by decide) (by decide)).mp htrip
  have hsame := (hall (numberQuery 0) (by simp)).2 (numberQuery 1) (by simp)
  exact absurd hsame.2.1 (by decide)

end TableSerializer

end SLikeNet
