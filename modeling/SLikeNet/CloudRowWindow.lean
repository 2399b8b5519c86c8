import SLikeNet.CloudQueryResult
import SLikeNet.StreamOverwrite

/-! `CloudServer::ProcessAndTransmitGetRequest`: the window of rows that a query asks for, of this
server and of the others, whose number is written over the one that was written first. -/

namespace SLikeNet

open BitCursor PacketReads BitCodec TableSerializer

/-- A query, the rows of this server that match it, and those in the responses of the others. -/
structure CloudRows where
  cloudQuery : CloudQuery
  cloudDataResultList : List CloudQueryRow
  remoteServerResponses : List (List CloudQueryRow)

/-- `written` has the rows that were serialized. -/
structure RemoteRows where
  skipRows : ℕ
  remainingRows : ℕ
  additionalRowsWritten : ℕ
  written : List CloudQueryRow

namespace RemoteRows

/-- `--remainingRows` is behind the test of `unlimitedRows`. -/
def write (unlimitedRows : Bool) (row : CloudQueryRow) (s : RemoteRows) : RemoteRows :=
  { s with
    remainingRows := if unlimitedRows then s.remainingRows else s.remainingRows - 1
    additionalRowsWritten := s.additionalRowsWritten + 1
    written := s.written ++ [row] }

/-- The loop over the rows of a response. -/
def writeRows (unlimitedRows : Bool) : List CloudQueryRow → RemoteRows → RemoteRows
  | [], s => s
  | row :: rowsReturned, s =>
    if s.skipRows > 0 then
      writeRows unlimitedRows rowsReturned { s with skipRows := s.skipRows - 1 }
    else
      let s := s.write unlimitedRows row
      if unlimitedRows = false ∧ s.remainingRows = 0 then s
      else writeRows unlimitedRows rowsReturned s

def writeResponses (unlimitedRows : Bool) : List (List CloudQueryRow) → RemoteRows → RemoteRows
  | [], s => s
  | rowsReturned :: responses, s =>
    let s := writeRows unlimitedRows rowsReturned s
    if unlimitedRows = false ∧ s.remainingRows = 0 then s
    else writeResponses unlimitedRows responses s

end RemoteRows

namespace CloudRows

section Window

variable (r : CloudRows)

def startingRowIndex : ℕ := r.cloudQuery.startingRowIndex.toNat

def maxRowsToReturn : ℕ := r.cloudQuery.maxRowsToReturn.toNat

def unlimitedRows : Bool := r.maxRowsToReturn = 0

/-- `localNumRows`, up to where the rows of this server are written. -/
def localNumRows : ℕ :=
  let localNumRows := r.cloudDataResultList.length
  if r.unlimitedRows = false ∧ localNumRows > r.startingRowIndex ∧
      localNumRows - r.startingRowIndex > r.maxRowsToReturn then
    r.startingRowIndex + r.maxRowsToReturn
  else localNumRows

def localRowsToWrite : ℕ :=
  if r.localNumRows > r.startingRowIndex then r.localNumRows - r.startingRowIndex else 0

def skipRows : ℕ :=
  if r.localNumRows > r.startingRowIndex then 0 else r.startingRowIndex - r.localNumRows

/-- The rows with the indices from `startingRowIndex` to `localNumRows`. -/
def localRows : List CloudQueryRow :=
  (r.cloudDataResultList.take r.localNumRows).drop r.startingRowIndex

/-- The remaining rows, of the other servers. -/
def remoteRows : RemoteRows :=
  let s : RemoteRows :=
    ⟨r.skipRows, if r.unlimitedRows then 0 else r.maxRowsToReturn - r.localRowsToWrite, 0, []⟩
  if r.unlimitedRows = true ∨ r.maxRowsToReturn > r.localRowsToWrite then
    s.writeResponses r.unlimitedRows r.remoteServerResponses
  else s

/-- `ID_CLOUD_GET_RESPONSE` -/
def idCloudGetResponse : ℕ := 118

/-- `ProcessAndTransmitGetRequest`: what is sent, if the bits of the stream can be counted. -/
def processAndTransmitGetRequest : Option (List Bool) := do
  let cloudQueryResult : CloudQueryResult :=
    ⟨r.cloudQuery, [], [], r.cloudQuery.subscribeToResults⟩
  let out ← writeNumber 1 idCloudGetResponse []
  let out ← cloudQueryResult.serializeHeader out
  let bitStreamOffset := out.length
  let out ← writeNumber 4 r.localRowsToWrite out
  let out ← serializeEach CloudQueryRow.serialize r.localRows out
  let remote := r.remoteRows
  let out ← serializeEach CloudQueryRow.serialize remote.written out
  let out :=
    if remote.additionalRowsWritten > 0 then
      StreamMemory.overwrite bitStreamOffset (r.localRowsToWrite + remote.additionalRowsWritten) out
    else out
  if out.length < CloudQueryResult.streamLimit then some out else none

/-! ### The window -/

/-- The rows of this server and of the others, in the order of the servers. -/
def allRows : List CloudQueryRow := r.cloudDataResultList ++ r.remoteServerResponses.flatten

/-- The rows that the query asks for. -/
def window : List CloudQueryRow :=
  if r.maxRowsToReturn = 0 then r.allRows.drop r.startingRowIndex
  else (r.allRows.drop r.startingRowIndex).take r.maxRowsToReturn

def result : CloudQueryResult := ⟨r.cloudQuery, r.window, [], r.cloudQuery.subscribeToResults⟩

/-- The client, behind the message id, reads the rows of the window. -/
def WindowExact : Prop :=
  ∃ out, r.processAndTransmitGetRequest = some out ∧ ∀ memory numberOfBits,
    out <+: bitsOf memory → out.length ≤ numberOfBits → numberOfBits ≤ memory.length * 8 →
      ∀ u, ∃ fuel c', CloudQueryResult.deserialize u fuel ⟨memory, numberOfBits, 8⟩ =
        some (r.result, c')

/-- The names of the keys are C strings of less than 65536 bytes, and the lengths of the data
numbers of 32 bits. -/
structure Valid : Prop where
  count : r.cloudQuery.keys.length < 65536
  keys : ∀ key ∈ r.cloudQuery.keys, key.Named
  rows : ∀ row ∈ r.window, row.key.Named ∧ row.data.length < 2 ^ 32

/-- The number of the rows stands behind as many bits of a byte as this limit leaves to the length
of the name that follows. -/
def keyLimit : ℕ := if r.cloudQuery.keys = [] then 4096 else 512

/-- Fewer rows than the client's counter has values, a name in front that keeps its length where the
number of the rows is written over, and a stream below its limit. -/
structure Readable : Prop where
  rows : r.window.length < 65536
  first : (r.cloudDataResultList.drop r.startingRowIndex).length < r.window.length →
    ∀ row, r.window.head? = some row → row.key.primaryKey.length < r.keyLimit
  limit : r.result.endsAt 8 < CloudQueryResult.streamLimit

end Window

end CloudRows

namespace RemoteRows

variable {unlimitedRows : Bool} {s : RemoteRows}

theorem remains_of_not_full (h : ¬(unlimitedRows = false ∧ s.remainingRows = 0)) :
    unlimitedRows = true ∨ 0 < s.remainingRows := by
  cases unlimitedRows with
  | true => exact .inl rfl
  | false => exact .inr (Nat.pos_of_ne_zero fun hzero => h ⟨rfl, hzero⟩)

theorem writeRows_append (rows rows' : List CloudQueryRow)
    (h : unlimitedRows = true ∨ 0 < s.remainingRows) :
    writeRows unlimitedRows (rows ++ rows') s =
      if unlimitedRows = false ∧ (writeRows unlimitedRows rows s).remainingRows = 0 then
        writeRows unlimitedRows rows s
      else writeRows unlimitedRows rows' (writeRows unlimitedRows rows s) := by
  have hgo : ∀ s : RemoteRows, unlimitedRows = true ∨ 0 < s.remainingRows →
      ¬(unlimitedRows = false ∧ s.remainingRows = 0) := by
    rintro s (hun | hpos) ⟨hfalse, hzero⟩
    · rw [hun] at hfalse
      cases hfalse
    · omega
  induction rows generalizing s with
  | nil => rw [List.nil_append, writeRows, if_neg (hgo s h)]
  | cons row rows ih =>
    rw [List.cons_append, writeRows, writeRows]
    by_cases hskip : s.skipRows > 0
    · rw [if_pos hskip, if_pos hskip]
      exact ih h
    · rw [if_neg hskip, if_neg hskip]
      dsimp only
      generalize s.write unlimitedRows row = next
      by_cases hend : unlimitedRows = false ∧ next.remainingRows = 0
      · rw [if_pos hend, if_pos hend, if_pos hend]
      · rw [if_neg hend, if_neg hend]
        exact ih (remains_of_not_full hend)

theorem writeResponses_eq (responses : List (List CloudQueryRow))
    (h : unlimitedRows = true ∨ 0 < s.remainingRows) :
    writeResponses unlimitedRows responses s = writeRows unlimitedRows responses.flatten s := by
  induction responses generalizing s with
  | nil => rfl
  | cons rowsReturned responses ih =>
    rw [writeResponses, List.flatten_cons, writeRows_append _ _ h]
    split
    · rfl
    · next hgo => exact ih (remains_of_not_full hgo)

/-- Of the rows, those behind the skipped ones are written, as many as remain. -/
theorem writeRows_spec (rows : List CloudQueryRow)
    (h : unlimitedRows = true ∨ 0 < s.remainingRows) :
    let new := if unlimitedRows then rows.drop s.skipRows
      else (rows.drop s.skipRows).take s.remainingRows
    (writeRows unlimitedRows rows s).written = s.written ++ new ∧
      (writeRows unlimitedRows rows s).additionalRowsWritten =
        s.additionalRowsWritten + new.length := by
  induction rows generalizing s with
  | nil => simp [writeRows]
  | cons row rows ih =>
    dsimp only
    rw [writeRows]
    by_cases hskip : s.skipRows > 0
    · obtain ⟨skip, hskip'⟩ := Nat.exists_eq_succ_of_ne_zero (Nat.ne_of_gt hskip)
      rw [if_pos hskip, hskip', List.drop_succ_cons]
      exact @ih { s with skipRows := skip + 1 - 1 } h
    · have hzero : s.skipRows = 0 := by omega
      have hwrite : (s.write unlimitedRows row).skipRows = 0 := hzero
      rw [if_neg hskip, hzero, List.drop_zero]
      dsimp only
      by_cases hend : unlimitedRows = false ∧ (s.write unlimitedRows row).remainingRows = 0
      · obtain ⟨rfl, hlast⟩ := hend
        have hone : s.remainingRows = 1 := by
          have hpos := h.resolve_left Bool.false_ne_true
          change s.remainingRows - 1 = 0 at hlast
          omega
        rw [if_pos ⟨rfl, hlast⟩, hone]
        exact ⟨rfl, rfl⟩
      · rw [if_neg hend]
        obtain ⟨hwritten, hadditional⟩ := ih (remains_of_not_full hend)
        rw [hwritten, hadditional, hwrite, List.drop_zero]
        cases unlimitedRows with
        | true => simp [write, Nat.add_comm, Nat.add_left_comm]
        | false =>
          obtain ⟨remaining, hremaining⟩ := Nat.exists_eq_succ_of_ne_zero
            (Nat.ne_of_gt (h.resolve_left Bool.false_ne_true))
          simp [write, hremaining, Nat.add_comm, Nat.add_left_comm]

end RemoteRows

namespace CloudRows

/-! ### The rows that are written -/

section Window

variable (r : CloudRows)

theorem localRowsToWrite_eq : r.localRowsToWrite =
    if r.maxRowsToReturn = 0 then r.cloudDataResultList.length - r.startingRowIndex
    else min r.maxRowsToReturn (r.cloudDataResultList.length - r.startingRowIndex) := by
  rw [localRowsToWrite, localNumRows, unlimitedRows]
  by_cases hmax : r.maxRowsToReturn = 0
  · simp only [hmax, decide_true, Bool.true_eq_false, false_and, if_false, if_true]
    split <;> omega
  · simp only [hmax, decide_false, true_and, if_false]
    split
    · rw [if_pos (by omega)]
      omega
    · split <;> omega

theorem skipRows_eq : r.skipRows = r.startingRowIndex - r.cloudDataResultList.length := by
  rw [skipRows, localNumRows, unlimitedRows]
  by_cases hmax : r.maxRowsToReturn = 0
  · simp only [hmax, decide_true, Bool.true_eq_false, false_and, if_false]
    split <;> omega
  · simp only [hmax, decide_false, true_and]
    split
    · rw [if_pos (by omega)]
      omega
    · split <;> omega

theorem localRows_eq : r.localRows =
    if r.maxRowsToReturn = 0 then r.cloudDataResultList.drop r.startingRowIndex
    else (r.cloudDataResultList.drop r.startingRowIndex).take r.maxRowsToReturn := by
  rw [localRows, localNumRows, unlimitedRows]
  by_cases hmax : r.maxRowsToReturn = 0
  · simp only [hmax, decide_true, Bool.true_eq_false, false_and, if_false, if_true]
    rw [List.take_length]
  · simp only [hmax, decide_false, true_and, if_false]
    split
    · rw [List.drop_take, Nat.add_sub_cancel_left]
    · rw [List.take_length, List.take_of_length_le]
      rw [List.length_drop]
      omega

theorem remoteRows_spec :
    let new := if r.maxRowsToReturn = 0 then r.remoteServerResponses.flatten.drop r.skipRows
      else (r.remoteServerResponses.flatten.drop r.skipRows).take
        (r.maxRowsToReturn - r.localRowsToWrite)
    r.remoteRows.written = new ∧ r.remoteRows.additionalRowsWritten = new.length := by
  rw [remoteRows, unlimitedRows]
  by_cases hmax : r.maxRowsToReturn = 0
  · have h := @RemoteRows.writeRows_spec true ⟨r.skipRows, 0, 0, []⟩
      r.remoteServerResponses.flatten (.inl rfl)
    simp only [hmax, decide_true, true_or, if_true]
    rw [RemoteRows.writeResponses_eq _ (.inl rfl)]
    simpa using h
  · simp only [hmax, decide_false, Bool.false_eq_true, false_or, if_false]
    by_cases hmore : r.maxRowsToReturn > r.localRowsToWrite
    · have hpos : 0 < r.maxRowsToReturn - r.localRowsToWrite := by omega
      have h := @RemoteRows.writeRows_spec false
        ⟨r.skipRows, r.maxRowsToReturn - r.localRowsToWrite, 0, []⟩
        r.remoteServerResponses.flatten (.inr hpos)
      rw [if_pos hmore, RemoteRows.writeResponses_eq _ (.inr hpos)]
      simpa using h
    · rw [if_neg hmore, show r.maxRowsToReturn - r.localRowsToWrite = 0 by omega, List.take_zero]
      exact ⟨rfl, rfl⟩

theorem localRows_append : r.localRows ++ r.remoteRows.written = r.window := by
  rw [(r.remoteRows_spec).1, localRows_eq, localRowsToWrite_eq, skipRows_eq, window, allRows,
    List.drop_append]
  by_cases hmax : r.maxRowsToReturn = 0
  · simp only [hmax, if_true]
  · simp only [hmax, if_false]
    rw [List.take_append, List.length_drop]
    congr 2
    omega

theorem length_localRows : r.localRows.length = r.localRowsToWrite := by
  rw [localRows_eq, localRowsToWrite_eq]
  split
  · rw [List.length_drop]
  · rw [List.length_take, List.length_drop]

theorem length_window :
    r.window.length = r.localRowsToWrite + r.remoteRows.additionalRowsWritten := by
  rw [← localRows_append, List.length_append, length_localRows, (r.remoteRows_spec).2,
    (r.remoteRows_spec).1]

theorem additionalRowsWritten_pos_iff : r.remoteRows.additionalRowsWritten > 0 ↔
    (r.cloudDataResultList.drop r.startingRowIndex).length < r.window.length := by
  have hwindow := r.length_window
  have hlocal := r.localRowsToWrite_eq
  rw [List.length_drop]
  by_cases hmax : r.maxRowsToReturn = 0
  · rw [if_pos hmax] at hlocal
    omega
  · rw [if_neg hmax] at hlocal
    have hle : r.window.length ≤ r.maxRowsToReturn := by
      rw [window, if_neg hmax, List.length_take]
      omega
    omega

end Window

/-! ### What is sent -/

theorem uniform_writeAlignedBytes (bytes : List UInt8) : Uniform (writeAlignedBytes bytes) := by
  intro before before' hlength out hout
  obtain rfl := Option.some.inj hout
  refine ⟨List.replicate (BitStream.padding before.length) false ++ bitsOf bytes, ?_, ?_⟩
  · rw [BitStream.align, List.append_assoc]
  · rw [writeAlignedBytes, BitStream.align, hlength, List.append_assoc]

theorem uniform_behind_length (row : CloudQueryRow) : ∃ rest, Uniform rest ∧
    row.serialize = writeNumber 2 (row.key.primaryKey.length % 65536) >=> rest := by
  rw [CloudQueryRow.serialize, CloudKey.serialize, serializeString, append_assoc, append_assoc]
  refine ⟨_, ?_, rfl⟩
  have haddress : ∀ systemAddress, Uniform (serializeAddress systemAddress) := fun _ =>
    (uniform_append _).bind ((uniform_append _).bind (uniform_append _))
  refine (uniform_writeAlignedBytes _).bind ((uniform_append _).bind ((haddress _).bind
    ((haddress _).bind ((uniform_append _).bind ((uniform_append _).bind ?_)))))
  exact (uniform_append _).bind (uniform_writeAlignedBytes _)

theorem uniform_row (row : CloudQueryRow) : Uniform row.serialize := by
  obtain ⟨rest, hrest, hrow⟩ := uniform_behind_length row
  rw [hrow]
  exact (uniform_append _).bind hrest

theorem uniform_rows (rows : List CloudQueryRow) :
    Uniform (serializeEach CloudQueryRow.serialize rows) := by
  induction rows with
  | nil => exact uniform_some
  | cons row rows ih => exact (uniform_row row).bind ih

theorem serializeEach_append (rows rows' : List CloudQueryRow) :
    serializeEach CloudQueryRow.serialize (rows ++ rows') =
      serializeEach CloudQueryRow.serialize rows >=>
        serializeEach CloudQueryRow.serialize rows' := by
  induction rows with
  | nil => rfl
  | cons row rows ih => rw [List.cons_append, serializeEach, serializeEach, ih, append_assoc]

/-- The loop of `SerializeCloudQueryRows` writes one row after the other, if its counter gets to the
end. -/
theorem serializeCloudQueryRows_from {rows : List CloudQueryRow} (hcount : rows.length < 65536)
    {rest : List CloudQueryRow} : ∀ {i : ℕ} {before : List Bool}, rows.drop i = rest →
      i ≤ rows.length → FuelledLoop.countedLoop 65536 rows.length
        (CloudQueryResult.serializeRowAt rows) (rest.length + 1) i before =
          serializeEach CloudQueryRow.serialize rest before := by
  induction rest with
  | nil =>
    intro i before hrest hi
    rw [List.drop_eq_nil_iff] at hrest
    rw [FuelledLoop.countedLoop, if_neg (by omega)]
    rfl
  | cons row rest ih =>
    intro i before hrest hi
    have hlt : i < rows.length := by
      by_contra hge
      rw [List.drop_eq_nil_of_le (by omega)] at hrest
      cases hrest
    rw [List.drop_eq_getElem_cons hlt, List.cons.injEq] at hrest
    rw [FuelledLoop.countedLoop, if_pos hlt, Nat.mod_eq_of_lt (by omega),
      CloudQueryResult.serializeRowAt, List.getElem?_eq_getElem hlt, hrest.1]
    show (row.serialize before).bind _ = (row.serialize before).bind _
    congr 1
    funext out
    exact ih hrest.2 hlt

theorem serializeCloudQueryRows_eq {rows : List CloudQueryRow} (hcount : rows.length < 65536)
    (before : List Bool) :
    CloudQueryResult.serializeCloudQueryRows (rows.length + 1) rows.length rows before =
      serializeEach CloudQueryRow.serialize rows before :=
  serializeCloudQueryRows_from hcount rfl (Nat.zero_le _)

variable {r : CloudRows} {header rows out : List Bool}

/-- The rows of the window stand behind the number of those of this server, over which the number of
all is written. -/
theorem processAndTransmitGetRequest_eq
    (hheader : r.result.serializeHeader (BitStream.toBits 8 idCloudGetResponse) = some header)
    (hrows : serializeEach CloudQueryRow.serialize r.window
      (header ++ BitStream.toBits 32 r.localRowsToWrite) = some out) :
    r.processAndTransmitGetRequest =
      if out.length < CloudQueryResult.streamLimit then
        some (if (r.cloudDataResultList.drop r.startingRowIndex).length < r.window.length then
          StreamMemory.overwrite header.length r.window.length out else out)
      else none := by
  rw [← r.localRows_append, serializeEach_append] at hrows
  obtain ⟨middle, hlocal, hremote⟩ := exists_of_then hrows
  have hheader' : (⟨r.cloudQuery, [], [], r.cloudQuery.subscribeToResults⟩ :
      CloudQueryResult).serializeHeader (BitStream.toBits 8 idCloudGetResponse) = some header :=
    hheader
  have hfirst : writeNumber 1 idCloudGetResponse [] =
      some (BitStream.toBits 8 idCloudGetResponse) := rfl
  have hnumber : writeNumber 4 r.localRowsToWrite header =
      some (header ++ BitStream.toBits 32 r.localRowsToWrite) := rfl
  rw [processAndTransmitGetRequest, hfirst]
  simp only [Option.bind_eq_bind, Option.bind_some, hheader', hnumber, hlocal, hremote,
    additionalRowsWritten_pos_iff, ← length_window]
  split
  · rw [StreamMemory.length_overwrite]
  · rfl

/-! ### What the client reads -/

theorem read_of_front {α : Type} {offset next : ℕ} {write : Write} {read : Access α} {a : α}
    (h : ReadsBackAt offset next write read a) {before out : List Bool}
    (hbefore : before.length = offset) (hwrite : write before = some out) {memory : List UInt8}
    {numberOfBits : ℕ} (hmemory : out <+: bitsOf memory) (hbits : out.length ≤ numberOfBits)
    (hinside : numberOfBits ≤ memory.length * 8) :
    out.length = next ∧ read ⟨memory, numberOfBits, before.length⟩ =
      some (a, ⟨memory, numberOfBits, out.length⟩) := by
  obtain ⟨written, hwrite', hnext, hread⟩ := h before hbefore
  obtain rfl := Option.some.inj (hwrite.symm.trans hwrite')
  obtain ⟨rest, hrest⟩ := hmemory
  have hahead : (Cursor.mk memory numberOfBits before.length).Ahead written := by
    refine ⟨⟨rest, ?_⟩, ?_, hinside⟩
    · show written ++ rest = (bitsOf memory).drop before.length
      rw [← hrest, List.append_assoc, List.drop_left]
    · rw [List.length_append] at hbits
      exact hbits
  refine ⟨hnext, (hread _ rfl hahead).trans ?_⟩
  rw [List.length_append]
  rfl

variable {u : CloudUninitialised} {memory : List UInt8} {numberOfBits fuel : ℕ} {c c' : Cursor}
  {result : CloudQueryResult}

theorem length_of_readAlignedBytes {n : ℕ} {bytes : List UInt8}
    (h : readAlignedBytes n c = some (some bytes, c')) : bytes.length = n := by
  rw [readAlignedBytes] at h
  split at h
  · cases h
  · obtain ⟨_, c₁, _, h⟩ := exists_of_bind h
    obtain ⟨c₂, c₃, -, h⟩ := exists_of_bind h
    split at h
    · cases h
    · obtain ⟨⟨copied, c₄⟩, hcopy, heq⟩ := Option.bind_eq_some_iff.mp h
      cases heq
      obtain ⟨slice, hslice, heq⟩ := Option.map_eq_some_iff.mp hcopy
      cases heq
      rw [BitCursor.slice] at hslice
      split at hslice
      · obtain rfl := Option.some.inj hslice
        rw [List.length_take, List.length_drop]
        omega
      · cases hslice

theorem length_of_deserializeString {str : List UInt8} {length : ℕ} {c₁ : Cursor}
    (h : deserializeString u c = some (str, c'))
    (hlength : readOr 2 u.stringLength c = some (length, c₁)) : str.length ≤ length := by
  obtain ⟨l, c₂, hl, h⟩ := exists_of_bind h
  obtain ⟨rfl, rfl⟩ := Prod.mk.inj (Option.some.inj (hl.symm.trans hlength))
  split at h
  · obtain ⟨⟨read, c₃⟩, hread, heq⟩ := Option.bind_eq_some_iff.mp h
    cases heq
    cases read with
    | none => exact Nat.zero_le _
    | some bytes =>
      rw [← length_of_readAlignedBytes hread]
      exact (List.takeWhile_prefix _).length_le
  · change (alignReadToByteBoundary c₂).bind (fun p => some ([], p.2)) = _ at h
    obtain ⟨p, -, heq⟩ := Option.bind_eq_some_iff.mp h
    cases heq
    exact Nat.zero_le _

theorem rows_lt_of_deserialize
    (h : CloudQueryResult.deserialize u fuel c = some (result, c')) :
    result.rowsReturned.length < 65536 := by
  obtain ⟨-, -, numRows, c₁, c₂, hrows⟩ := CloudQueryResult.exists_parts_of_result h
  rw [CloudQueryResult.deserializeCloudQueryRows] at hrows
  by_cases hmany : 65536 ≤ numRows
  · rw [FuelledLoop.countedLoop_none hmany fuel 0 _ (by decide)] at hrows
    cases hrows
  · have hlength := FuelledLoop.countedLoop_some (fun i s => s.1.length = i)
      (fun i s s' _ hs hstep => by
        obtain ⟨p, -, rfl⟩ := Option.map_eq_some_iff.mp hstep
        simp [hs]) (by decide) (Nat.zero_le _) rfl hrows
    exact lt_of_eq_of_lt hlength (Nat.lt_of_not_le hmany)

theorem named_of_deserializeString {str : List UInt8}
    (h : deserializeString .zero c = some (str, c')) : 0 ∉ str ∧ str.length < 65536 := by
  obtain ⟨l, c₁, hl, hrest⟩ := exists_of_bind h
  refine ⟨?_, (length_of_deserializeString h hl).trans_lt (CloudQueryResult.readOr_lt hl)⟩
  split at hrest
  · obtain ⟨⟨read, c₂⟩, -, heq⟩ := Option.bind_eq_some_iff.mp hrest
    cases heq
    intro hmem
    exact absurd (List.mem_takeWhile_imp hmem) (by decide)
  · change (alignReadToByteBoundary c₁).bind (fun p => some ([], p.2)) = _ at hrest
    obtain ⟨p, -, heq⟩ := Option.bind_eq_some_iff.mp hrest
    cases heq
    exact List.not_mem_nil

theorem named_of_deserializeKeys {numKeys : ℕ} {cmdk : CloudKey} {keys : List CloudKey}
    (h : deserializeKeys .zero numKeys cmdk c = some (keys, c')) : ∀ key ∈ keys, key.Named := by
  induction numKeys generalizing cmdk c keys with
  | zero =>
    cases h
    exact fun key hkey => absurd hkey List.not_mem_nil
  | succ numKeys ih =>
    obtain ⟨key, c₁, hkey, h⟩ := exists_of_bind h
    obtain ⟨rest, c₂, hrest, h⟩ := exists_of_bind h
    cases h
    obtain ⟨c₃, hname⟩ := CloudQueryResult.exists_name_of_key hkey
    exact List.forall_mem_cons.mpr ⟨named_of_deserializeString hname, ih hrest⟩

theorem length_of_deserializeData {length : ℕ} {data : List UInt8}
    (h : deserializeData .zero length c = some (data, c')) : data.length ≤ length := by
  rw [deserializeData] at h
  split at h
  · obtain ⟨⟨read, c₂⟩, hread, heq⟩ := Option.bind_eq_some_iff.mp h
    cases heq
    cases read with
    | none => exact List.length_take_le _ _
    | some bytes => exact (length_of_readAlignedBytes hread).le
  · cases h
    exact Nat.zero_le _

theorem valid_of_row {row : CloudQueryRow}
    (h : CloudQueryRow.deserialize .zero c = some (row, c')) :
    row.key.Named ∧ row.data.length < 2 ^ 32 := by
  obtain ⟨⟨c₁, hname⟩, length, c₂, c₃, c₄, hlength, hdata⟩ :=
    CloudQueryResult.exists_parts_of_row h
  exact ⟨named_of_deserializeString hname,
    (length_of_deserializeData hdata).trans_lt (CloudQueryResult.readOr_lt hlength)⟩

theorem valid_of_deserialize
    (h : CloudQueryResult.deserialize .zero fuel c = some (r.result, c')) : r.Valid := by
  obtain ⟨-, ⟨c₁, hquery⟩, numRows, c₂, c₃, hrows⟩ := CloudQueryResult.exists_parts_of_result h
  refine ⟨(CloudQueryResult.deserialize_bounds h).1, ?_, ?_⟩
  · obtain ⟨numKeys, c₄, c₅, c₆, -, hkeys⟩ := CloudQueryResult.exists_keys_of_query hquery
    exact named_of_deserializeKeys hkeys
  · show ∀ row ∈ r.result.rowsReturned, row.key.Named ∧ row.data.length < 2 ^ 32
    exact FuelledLoop.countedLoop_some
      (fun _ s => ∀ row ∈ s.1, row.key.Named ∧ row.data.length < 2 ^ 32)
      (fun i s s' _ hs hstep => by
        obtain ⟨p, hp, rfl⟩ := Option.map_eq_some_iff.mp hstep
        intro row hrow
        obtain hrow | hrow := List.mem_append.mp hrow
        · exact hs row hrow
        · rw [List.mem_singleton.mp hrow]
          exact valid_of_row hp) (by decide) (Nat.zero_le _)
      (fun row hrow => absurd hrow List.not_mem_nil) hrows

theorem length_of_first (hvalid : r.Valid) {n length : ℕ} (hn : 0 < n) (hn' : n < 2 ^ 32)
    (hlength : length < 65536)
    (hheader : r.result.serializeHeader (BitStream.toBits 8 idCloudGetResponse) = some header)
    (hmemory : header ++ BitStream.toBits 32 n ++ BitStream.toBits 16 length <+: bitsOf memory)
    (hbits : (header ++ BitStream.toBits 32 n ++ BitStream.toBits 16 length).length ≤ numberOfBits)
    (hinside : numberOfBits ≤ memory.length * 8)
    (h : CloudQueryResult.deserialize u fuel ⟨memory, numberOfBits, 8⟩ = some (result, c')) :
    ∃ row, result.rowsReturned.head? = some row ∧ row.key.primaryKey.length ≤ length := by
  obtain ⟨query, hquery, hflag⟩ := exists_of_then hheader
  obtain rfl : query ++ [r.result.subscribeToResults] = header := Option.some.inj hflag
  have hfront : ∀ {bits : List Bool},
      bits <+: query ++ [r.result.subscribeToResults] ++ BitStream.toBits 32 n ++
        BitStream.toBits 16 length → bits <+: bitsOf memory ∧ bits.length ≤ numberOfBits :=
    fun hp => ⟨hp.trans hmemory, hp.length_le.trans hbits⟩
  have hnumber := hfront (List.prefix_append _ _)
  have hflag' := hfront ((List.prefix_append _ _).trans (List.prefix_append _ _))
  have hquery' := hfront ((List.prefix_append _ _).trans
    ((List.prefix_append _ _).trans (List.prefix_append _ _)))
  obtain ⟨q, c₁, hq, h⟩ := exists_of_bind h
  obtain ⟨rfl, rfl⟩ := Prod.mk.inj (Option.some.inj (hq.symm.trans
    (read_of_front (at_query 8 hvalid.keys hvalid.count) rfl hquery hquery'.1 hquery'.2
      hinside).2))
  obtain ⟨flag, c₂, hf, h⟩ := exists_of_bind h
  obtain ⟨rfl, rfl⟩ := Prod.mk.inj (Option.some.inj (hf.symm.trans
    (read_of_front (at_bool _ r.result.subscribeToResults u.flag) rfl rfl hflag'.1 hflag'.2
      hinside).2))
  obtain ⟨numRows, c₃, hr, h⟩ := exists_of_bind h
  obtain ⟨rfl, rfl⟩ := Prod.mk.inj (Option.some.inj (hr.symm.trans
    (read_of_front (at_number _ (by decide : 0 < 4) hn' 0) rfl rfl hnumber.1 hnumber.2
      hinside).2))
  obtain ⟨rows, c₄, hrows, h⟩ := exists_of_bind h
  cases h
  rw [CloudQueryResult.deserializeCloudQueryRows] at hrows
  cases fuel with
  | zero => cases hrows
  | succ fuel =>
    rw [FuelledLoop.countedLoop, if_pos hn] at hrows
    obtain ⟨s, hs, hrest⟩ := Option.bind_eq_some_iff.mp hrows
    obtain ⟨⟨row, c₅⟩, hrow, rfl⟩ := Option.map_eq_some_iff.mp hs
    refine ⟨row, ?_, ?_⟩
    · exact FuelledLoop.countedLoop_some (fun _ s => s.1.head? = some row)
        (fun i s s' _ hhead hstep => by
          obtain ⟨p, -, rfl⟩ := Option.map_eq_some_iff.mp hstep
          simp [List.head?_append, hhead]) (by decide) hn rfl hrest
    · obtain ⟨⟨c₆, hname⟩, -⟩ := CloudQueryResult.exists_parts_of_row hrow
      exact length_of_deserializeString hname (read_of_front
        (at_number _ (by decide : 0 < 2) hlength u.stringLength) rfl rfl hmemory hbits hinside).2

/-! ### The stream before the number is written over -/

/-- The bits of the rows of the window, behind the header and a number of 32 bits. -/
structure Written (r : CloudRows) (header rows : List Bool) : Prop where
  header_eq : r.result.serializeHeader (BitStream.toBits 8 idCloudGetResponse) = some header
  length_header : header.length = r.cloudQuery.endsAt 8 + 1
  rows_eq : ∀ before, before.length = header.length + 32 →
    serializeEach CloudQueryRow.serialize r.window before = some (before ++ rows)
  length_eq : (header ++ BitStream.toBits 32 r.window.length ++ rows).length = r.result.endsAt 8
  readsBack : ∀ {memory numberOfBits},
    header ++ BitStream.toBits 32 r.window.length ++ rows <+: bitsOf memory →
      (header ++ BitStream.toBits 32 r.window.length ++ rows).length ≤ numberOfBits →
        numberOfBits ≤ memory.length * 8 → ∀ u, ∃ c',
          CloudQueryResult.deserialize u (r.window.length + 1) ⟨memory, numberOfBits, 8⟩ =
            some (r.result, c')

theorem exists_written (hvalid : r.Valid) (hcount : r.window.length < 65536) :
    ∃ header rows, Written r header rows := by
  have hresult : r.result.Valid := ⟨hvalid.keys, hvalid.rows, hcount.trans (by decide)⟩
  have hread := fun u => @CloudQueryResult.at_result u r.result hresult hvalid.count hcount rfl 8
  have hid := BitStream.length_toBits 8 idCloudGetResponse
  obtain ⟨written, hwrite, hend, -⟩ := hread .zero (BitStream.toBits 8 idCloudGetResponse) hid
  obtain ⟨header, hheader, hrest⟩ := exists_of_then hwrite
  obtain ⟨number, hnumber, hrows⟩ := exists_of_then hrest
  obtain rfl : header ++ BitStream.toBits 32 r.window.length = number := Option.some.inj hnumber
  have hall := (serializeCloudQueryRows_eq hcount _).symm.trans hrows
  obtain ⟨rows, heq, -⟩ := uniform_rows _ _ _ rfl _ hall
  rw [heq] at hwrite hall hend
  refine ⟨header, rows, hheader, ?_, fun before hbefore => ?_, hend, ?_⟩
  · obtain ⟨query, hquery, hflag⟩ := exists_of_then hheader
    obtain ⟨written', hquery', hend', -⟩ :=
      @at_query .zero 8 _ hvalid.keys hvalid.count (BitStream.toBits 8 idCloudGetResponse) hid
    obtain rfl := Option.some.inj hflag
    obtain rfl := Option.some.inj (hquery.symm.trans hquery')
    rw [List.length_append, hend']
    rfl
  · obtain ⟨rows', heq', hbehind⟩ := uniform_rows _ _ before
      (by rw [List.length_append, BitStream.length_toBits, hbefore]) _ hall
    rw [List.append_cancel_left heq']
    exact hbehind
  · intro memory numberOfBits hmemory hbits hinside u
    have hresult' := (read_of_front (hread u) hid hwrite hmemory hbits hinside).2
    rw [hid] at hresult'
    exact ⟨_, hresult'⟩

theorem Written.cons (h : Written r header rows) (hvalid : r.Valid) {row : CloudQueryRow}
    (hhead : r.window.head? = some row) :
    ∃ rest, rows = BitStream.toBits 16 row.key.primaryKey.length ++ rest := by
  obtain ⟨tail, hwindow⟩ := List.head?_eq_some_iff.mp hhead
  have hname := (hvalid.rows row (hwindow ▸ List.mem_cons_self)).1.2
  have hrows := h.rows_eq (header ++ BitStream.toBits 32 0)
    (by rw [List.length_append, BitStream.length_toBits])
  generalize header ++ BitStream.toBits 32 0 = before at hrows
  rw [hwindow] at hrows
  obtain ⟨middle, hrow, htail⟩ := exists_of_then hrows
  obtain ⟨behind, hbehind, hserialize⟩ := uniform_behind_length row
  rw [hserialize, Nat.mod_eq_of_lt hname] at hrow
  obtain ⟨number, hnumber, hrest⟩ := exists_of_then hrow
  obtain rfl : before ++ BitStream.toBits 16 row.key.primaryKey.length = number :=
    Option.some.inj hnumber
  obtain ⟨written, rfl, -⟩ := hbehind _ _ rfl middle hrest
  obtain ⟨written', heq, -⟩ := uniform_rows tail _ _ rfl _ htail
  rw [List.append_assoc, List.append_assoc] at heq
  exact ⟨written ++ written', List.append_cancel_left heq⟩

theorem mod_endsAt_keys {keys : List CloudKey} (hkeys : keys ≠ []) (offset : ℕ) :
    keys.foldl CloudKey.endsAt offset % 8 = 0 := by
  induction keys generalizing offset with
  | nil => exact absurd rfl hkeys
  | cons key keys ih =>
    rw [List.foldl_cons]
    by_cases hnone : keys = []
    · have hmod := aligned_mod (offset + 16)
      rw [hnone, List.foldl_nil, CloudKey.endsAt, stringEnd]
      omega
    · exact ih hnone _

theorem Written.keyLimit_eq (h : Written r header rows) :
    header.length % 8 ≠ 0 ∧ 2 ^ (8 + header.length % 8) = r.keyLimit := by
  rw [h.length_header, CloudQuery.endsAt, keyLimit]
  by_cases hkeys : r.cloudQuery.keys = []
  · have hmod : ((r.cloudQuery.keys.foldl CloudKey.endsAt (8 + 3 +
        (if r.cloudQuery.startingRowIndex = 0 then 0 else 32) +
        (if r.cloudQuery.maxRowsToReturn = 0 then 0 else 32) + 16)) + 1) % 8 = 4 := by
      rw [hkeys, List.foldl_nil]
      split <;> split <;> rfl
    rw [hmod, if_pos hkeys]
    decide
  · have hmod := mod_endsAt_keys hkeys (8 + 3 +
        (if r.cloudQuery.startingRowIndex = 0 then 0 else 32) +
        (if r.cloudQuery.maxRowsToReturn = 0 then 0 else 32) + 16)
    rw [Nat.add_mod, hmod, if_neg hkeys]
    decide

theorem Written.sent (h : Written r header rows) : r.processAndTransmitGetRequest =
    if (header ++ BitStream.toBits 32 r.window.length ++ rows).length <
        CloudQueryResult.streamLimit then
      some (if (r.cloudDataResultList.drop r.startingRowIndex).length < r.window.length then
        StreamMemory.overwrite header.length r.window.length
          (header ++ BitStream.toBits 32 r.localRowsToWrite ++ rows)
        else header ++ BitStream.toBits 32 r.localRowsToWrite ++ rows)
    else none := by
  rw [processAndTransmitGetRequest_eq h.header_eq (h.rows_eq _ (by
    rw [List.length_append, BitStream.length_toBits]))]
  simp only [List.length_append, BitStream.length_toBits]

/-! ### When the window is exact -/

theorem WindowExact.readable (h : r.WindowExact) : r.Valid ∧ r.Readable := by
  obtain ⟨out, hout, hexact⟩ := h
  obtain ⟨memory, hmemory, hbits⟩ := exists_memory out
  obtain ⟨fuel, c', hread⟩ := hexact memory _ hmemory hbits (Nat.le_refl _) .zero
  have hcount : r.window.length < 65536 := rows_lt_of_deserialize hread
  have hvalid := valid_of_deserialize hread
  obtain ⟨header, rows, hwritten⟩ := exists_written hvalid hcount
  rw [hwritten.sent] at hout
  split at hout
  swap
  · cases hout
  next hlimit =>
  obtain rfl := Option.some.inj hout
  refine ⟨hvalid, hcount, fun hremote row hhead => ?_, hwritten.length_eq ▸ hlimit⟩
  by_contra hlong
  obtain ⟨rest, hrest⟩ := hwritten.cons hvalid hhead
  obtain ⟨hoffset, hkeyLimit⟩ := hwritten.keyLimit_eq
  have hpos : 0 < r.window.length := Nat.lt_of_le_of_lt (Nat.zero_le _) hremote
  have hlocal := r.length_window
  rw [if_pos hremote, hrest, ← List.append_assoc,
    StreamMemory.overwrite_eq hoffset (by omega)] at hmemory hbits
  have hfront := List.prefix_append (header ++ BitStream.toBits 32 r.window.length ++
    BitStream.toBits 16 (row.key.primaryKey.length % 2 ^ (8 + header.length % 8))) rest
  have hmod := Nat.mod_lt row.key.primaryKey.length (Nat.two_pow_pos (8 + header.length % 8))
  have hlt : 2 ^ (8 + header.length % 8) < 65536 := by
    rw [hkeyLimit, keyLimit]
    split <;> decide
  obtain ⟨row', hhead', hle⟩ := length_of_first hvalid hpos (by omega) (by omega)
    hwritten.header_eq (hfront.trans hmemory) (hfront.length_le.trans hbits) (Nat.le_refl _) hread
  obtain rfl := Option.some.inj (hhead.symm.trans hhead')
  omega

theorem Readable.windowExact (hvalid : r.Valid) (h : r.Readable) : r.WindowExact := by
  obtain ⟨header, rows, hwritten⟩ := exists_written hvalid h.rows
  have hlimit := h.limit
  rw [← hwritten.length_eq] at hlimit
  refine ⟨header ++ BitStream.toBits 32 r.window.length ++ rows, ?_,
    fun memory numberOfBits hmemory hbits hinside u => ?_⟩
  · rw [hwritten.sent, if_pos hlimit]
    have hlocal := r.length_window
    by_cases hremote : (r.cloudDataResultList.drop r.startingRowIndex).length < r.window.length
    · have hpos : 0 < r.window.length := Nat.lt_of_le_of_lt (Nat.zero_le _) hremote
      obtain ⟨row, hhead⟩ : ∃ row, r.window.head? = some row :=
        ⟨_, List.head?_eq_getElem? .. ▸ List.getElem?_eq_getElem hpos⟩
      obtain ⟨rest, hrest⟩ := hwritten.cons hvalid hhead
      obtain ⟨hoffset, hkeyLimit⟩ := hwritten.keyLimit_eq
      have hcount := h.rows
      rw [if_pos hremote, hrest, ← List.append_assoc, ← List.append_assoc,
        StreamMemory.overwrite_eq hoffset (by omega), hkeyLimit,
        Nat.mod_eq_of_lt (h.first hremote row hhead)]
    · have hnone : r.remoteRows.additionalRowsWritten = 0 := by
        by_contra hne
        exact hremote (r.additionalRowsWritten_pos_iff.mp (Nat.pos_of_ne_zero hne))
      rw [if_neg hremote, hlocal, hnone, Nat.add_zero]
  · exact ⟨_, hwritten.readsBack hmemory hbits hinside u⟩

/-- The client gets the rows of the window exactly if there are not too many of them, and the name
in front is short where the window has rows of other servers. -/
theorem windowExact_iff (r : CloudRows) : r.WindowExact ↔ r.Valid ∧ r.Readable :=
  ⟨WindowExact.readable, fun h => h.2.windowExact h.1⟩

/-- A query for one key, with a row of this server and one of another. -/
def twoRows (primaryKey : List UInt8) : CloudRows where
  cloudQuery := ⟨[⟨primaryKey, 0⟩], 0, 0, false⟩
  cloudDataResultList := [{ CloudUninitialised.zero.row with key := ⟨primaryKey, 0⟩ }]
  remoteServerResponses := [[{ CloudUninitialised.zero.row with key := ⟨primaryKey, 0⟩ }]]

theorem long_name_damaged : ¬(twoRows (List.replicate 512 97)).WindowExact := by
  intro h
  have hshort := h.readable.2.first (by decide) _ rfl
  change (List.replicate 512 (97 : UInt8)).length < 512 at hshort
  rw [List.length_replicate] at hshort
  exact absurd hshort (Nat.lt_irrefl 512)

end CloudRows

end SLikeNet
