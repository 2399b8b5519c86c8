import SLikeNet.Library.FuelledLoop
import SLikeNet.RemoteSystem
import SLikeNet.TableRoundTrip

/-! `CloudQueryResult::Serialize`: the result of a query of the cloud as bits, and the result that
is made of them. -/

namespace SLikeNet

open BitCursor PacketReads BitCodec TableSerializer

/-- `primaryKey` has the bytes of the string in front of its NUL. -/
structure CloudKey where
  primaryKey : List UInt8
  secondaryKey : UInt32
deriving DecidableEq

structure CloudQuery where
  keys : List CloudKey
  startingRowIndex : UInt32
  maxRowsToReturn : UInt32
  subscribeToResults : Bool
deriving DecidableEq

/-- `length` is the length of `data`. -/
structure CloudQueryRow where
  key : CloudKey
  data : List UInt8
  serverSystemAddress : SystemAddress
  clientSystemAddress : SystemAddress
  serverGUID : RakNetGUID
  clientGUID : RakNetGUID
deriving DecidableEq

structure CloudQueryResult where
  cloudQuery : CloudQuery
  rowsReturned : List CloudQueryRow
  resultKeyIndices : List UInt32
  subscribeToResults : Bool
deriving DecidableEq

/-- What variables hold that a failed read leaves alone. -/
structure CloudUninitialised where
  stringLength : ℕ
  ipVersion : ℕ
  binaryAddress : ℕ
  length : ℕ
  flag : Bool
  key : CloudKey
  row : CloudQueryRow

/-- Every variable happens to be zero. -/
def CloudUninitialised.zero : CloudUninitialised :=
  ⟨0, 0, 0, 0, false, ⟨[], 0⟩,
    ⟨⟨[], 0⟩, [], .unassigned, .unassigned, .unassigned, .unassigned⟩⟩

/-! ### Writing -/

/-- `RakString::Serialize` -/
def serializeString (str : List UInt8) : Write :=
  writeNumber 2 (str.length % 65536) >=> writeAlignedBytes (str.take (str.length % 65536))

/-- `Write(SystemAddress)` hides the address from routers. -/
def serializeAddress (systemAddress : SystemAddress) : Write :=
  writeNumber 1 4 >=> (writeNumber 4 (~~~systemAddress.ip).toNat >=>
    writeNumber 2 systemAddress.port.toNat)

def serializeGuid (guid : RakNetGUID) : Write := writeNumber 8 guid.g.toNat

def CloudKey.serialize (key : CloudKey) : Write :=
  serializeString key.primaryKey >=> writeNumber 4 key.secondaryKey.toNat

/-- A number that is written only where the flag in front says that it is not zero. -/
def serializeUnlessZero (value : UInt32) : Write :=
  if value = 0 then some else writeNumber 4 value.toNat

def CloudQuery.serialize (query : CloudQuery) : Write :=
  writeBool (query.startingRowIndex = 0) >=> (writeBool (query.maxRowsToReturn = 0) >=>
    (writeBool query.subscribeToResults >=> (serializeUnlessZero query.startingRowIndex >=>
      (serializeUnlessZero query.maxRowsToReturn >=>
        (writeNumber 2 (query.keys.length % 65536) >=>
          serializeEach CloudKey.serialize (query.keys.take (query.keys.length % 65536)))))))

def CloudQueryRow.serialize (row : CloudQueryRow) : Write :=
  row.key.serialize >=> (serializeAddress row.serverSystemAddress >=>
    (serializeAddress row.clientSystemAddress >=> (serializeGuid row.serverGUID >=>
      (serializeGuid row.clientGUID >=> (writeNumber 4 row.data.length >=>
        writeAlignedBytes row.data)))))

namespace CloudQueryResult

def serializeHeader (result : CloudQueryResult) : Write :=
  result.cloudQuery.serialize >=> writeBool result.subscribeToResults

/-- The body of the loop of `SerializeCloudQueryRows`. -/
def serializeRowAt (rowsReturned : List CloudQueryRow) (i : ℕ) : Write := fun out =>
  rowsReturned[i]?.bind fun row => row.serialize out

/-- The loop has a counter of 16 bits. -/
def serializeCloudQueryRows (fuel numRows : ℕ) (rowsReturned : List CloudQueryRow) : Write :=
  FuelledLoop.countedLoop 65536 numRows (serializeRowAt rowsReturned) fuel 0

def streamLimit : ℕ := 2 ^ 32

/-- `numberOfBitsUsed` counts the bits of a stream up to its limit. -/
def serialize (fuel : ℕ) (result : CloudQueryResult) : Write :=
  result.serializeHeader >=> (writeNumber 4 (result.rowsReturned.length % 2 ^ 32) >=>
    (serializeCloudQueryRows fuel (result.rowsReturned.length % 2 ^ 32) result.rowsReturned >=>
      fun out => if out.length < streamLimit then some out else none))

end CloudQueryResult

/-! ### Reading -/

section Reading

variable (u : CloudUninitialised)

def readOr (bytes value : ℕ) : Access ℕ := (fun read => read.getD value) <$> readNumber bytes

def readBoolOr (value : Bool) : Access Bool := (fun read => read.getD value) <$> readBool

/-- `ReadAlignedBytes` -/
def readAlignedBytes (n : ℕ) : Access (Option (List UInt8)) :=
  if n = 0 then pure none
  else do
    alignReadToByteBoundary
    let c ← get
    if numberOfUnreadBits c / 8 < n then pure none else some <$> copyBytes n

/-- `RakString::Deserialize` -/
def deserializeString : Access (List UInt8) := do
  let l ← readOr 2 u.stringLength
  if 0 < l then (fun read => cString (read.getD [])) <$> readAlignedBytes l
  else (fun _ => []) <$> alignReadToByteBoundary

def deserializeAddress (systemAddress : SystemAddress) : Access SystemAddress := do
  let ipVersion ← readOr 1 u.ipVersion
  if ipVersion = 4 then do
    let binaryAddress ← readOr 4 u.binaryAddress
    let port ← readOr 2 systemAddress.port.toNat
    pure ⟨~~~UInt32.ofNat binaryAddress, UInt16.ofNat port⟩
  else pure systemAddress

def deserializeGuid (guid : RakNetGUID) : Access RakNetGUID :=
  (fun g => ⟨UInt64.ofNat g⟩) <$> readOr 8 guid.g.toNat

def CloudKey.deserialize (key : CloudKey) : Access CloudKey := do
  let primaryKey ← deserializeString u
  let secondaryKey ← readOr 4 key.secondaryKey.toNat
  pure ⟨primaryKey, UInt32.ofNat secondaryKey⟩

/-- The loop of `CloudQuery::Serialize` over one variable for the keys. -/
def deserializeKeys : ℕ → CloudKey → Access (List CloudKey)
  | 0, _ => pure []
  | numKeys + 1, cmdk => do
    let key ← cmdk.deserialize u
    let keys ← deserializeKeys numKeys key
    pure (key :: keys)

def deserializeUnlessZero (isZero : Bool) : Access UInt32 :=
  if isZero then pure 0 else UInt32.ofNat <$> readOr 4 0

/-- `CloudQuery::Serialize(false)` of a new query. -/
def CloudQuery.deserialize : Access CloudQuery := do
  let startingRowIndexIsZero ← readBoolOr true
  let maxRowsToReturnIsZero ← readBoolOr true
  let subscribeToResults ← readBoolOr false
  let startingRowIndex ← deserializeUnlessZero startingRowIndexIsZero
  let maxRowsToReturn ← deserializeUnlessZero maxRowsToReturnIsZero
  let numKeys ← readOr 2 0
  let keys ← deserializeKeys u numKeys u.key
  pure ⟨keys, startingRowIndex, maxRowsToReturn, subscribeToResults⟩

/-- What is allocated for the data of a row is left as it is where the read fails. -/
def deserializeData (length : ℕ) : Access (List UInt8) :=
  if 0 < length then
    (fun read => read.getD (u.row.data.take length)) <$> readAlignedBytes length
  else pure []

/-- `CloudQueryRow::Serialize(false)` of a new row. -/
def CloudQueryRow.deserialize : Access CloudQueryRow := do
  let key ← u.row.key.deserialize u
  let serverSystemAddress ← deserializeAddress u u.row.serverSystemAddress
  let clientSystemAddress ← deserializeAddress u u.row.clientSystemAddress
  let serverGUID ← deserializeGuid u.row.serverGUID
  let clientGUID ← deserializeGuid u.row.clientGUID
  let length ← readOr 4 u.length
  let data ← deserializeData u length
  pure ⟨key, data, serverSystemAddress, clientSystemAddress, serverGUID, clientGUID⟩

namespace CloudQueryResult

def deserializeRowAt (_ : ℕ) (s : List CloudQueryRow × Cursor) :
    Option (List CloudQueryRow × Cursor) :=
  (CloudQueryRow.deserialize u s.2).map fun p => (s.1 ++ [p.1], p.2)

def deserializeCloudQueryRows (fuel numRows : ℕ) : Access (List CloudQueryRow) := fun c =>
  FuelledLoop.countedLoop 65536 numRows (deserializeRowAt u) fuel 0 ([], c)

/-- `CloudQueryResult::Serialize(false)` of a new result. -/
def deserialize (fuel : ℕ) : Access CloudQueryResult := do
  let cloudQuery ← CloudQuery.deserialize u
  let subscribeToResults ← readBoolOr u.flag
  let numRows ← readOr 4 0
  let rowsReturned ← deserializeCloudQueryRows u fuel numRows
  pure ⟨cloudQuery, rowsReturned, [], subscribeToResults⟩

end CloudQueryResult

end Reading

/-! ### Where the parts end -/

/-- The next byte boundary. -/
def aligned (offset : ℕ) : ℕ := offset + BitStream.padding offset

def stringEnd (offset : ℕ) (str : List UInt8) : ℕ := aligned (offset + 16) + str.length * 8

def CloudKey.endsAt (offset : ℕ) (key : CloudKey) : ℕ := stringEnd offset key.primaryKey + 32

/-- The addresses, the GUIDs and the length have 272 bits. -/
def CloudQueryRow.endsAt (offset : ℕ) (row : CloudQueryRow) : ℕ :=
  row.key.endsAt offset + 272 + row.data.length * 8

def CloudQuery.endsAt (offset : ℕ) (query : CloudQuery) : ℕ :=
  query.keys.foldl CloudKey.endsAt (offset + 3 + (if query.startingRowIndex = 0 then 0 else 32) +
    (if query.maxRowsToReturn = 0 then 0 else 32) + 16)

def CloudQueryResult.endsAt (offset : ℕ) (result : CloudQueryResult) : ℕ :=
  result.rowsReturned.foldl CloudQueryRow.endsAt (result.cloudQuery.endsAt offset + 1 + 32)

/-! ### The round trip -/

/-- A C string of less than 65536 bytes. -/
def CloudKey.Named (key : CloudKey) : Prop := 0 ∉ key.primaryKey ∧ key.primaryKey.length < 65536

/-- The lengths are numbers of 32 bits. -/
structure CloudQueryResult.Valid (result : CloudQueryResult) : Prop where
  keys : ∀ key ∈ result.cloudQuery.keys, key.Named
  rows : ∀ row ∈ result.rowsReturned, row.key.Named ∧ row.data.length < 2 ^ 32
  count : result.rowsReturned.length < 2 ^ 32

/-- What is written behind any bits is read back from there, up to where the writer ended. -/
def CloudQueryResult.RoundTrips (result : CloudQueryResult) (before : List Bool) : Prop :=
  ∃ fuel out, result.serialize fuel before = some out ∧
    ∀ memory numberOfBits, out <+: bitsOf memory → out.length ≤ numberOfBits →
      numberOfBits ≤ memory.length * 8 → ∀ u, ∃ fuel',
        CloudQueryResult.deserialize u fuel' ⟨memory, numberOfBits, before.length⟩ =
          some (result, ⟨memory, numberOfBits, out.length⟩)

/-! ### Strings and numbers -/

section Parts

variable {u : CloudUninitialised}

theorem at_number (offset : ℕ) {bytes value : ℕ} (hpos : 0 < bytes) (hvalue : value < 256 ^ bytes)
    (old : ℕ) : ReadsBackAt offset (offset + bytes * 8) (writeNumber bytes value)
      (readOr bytes old) value := by
  have hbits : ReadsBackAt offset (offset + (BitStream.toBits (bytes * 8) value).length)
      (writeNumber bytes value) (readNumber bytes) (some value) := by
    refine readsBackAt_append offset fun c hahead => ?_
    rw [BitStream.length_toBits]
    exact readNumber_ahead hpos hvalue hahead
  rw [BitStream.length_toBits] at hbits
  exact hbits.map fun read => read.getD old

theorem at_uint32 (offset : ℕ) (value : UInt32) (old : ℕ) :
    ReadsBackAt offset (offset + 32) (writeNumber 4 value.toNat) (readOr 4 old) value.toNat :=
  at_number offset (by decide : 0 < 4) value.toNat_lt old

theorem at_bool (offset : ℕ) (b old : Bool) :
    ReadsBackAt offset (offset + 1) (writeBool b) (readBoolOr old) b := by
  have hbit : ReadsBackAt offset (offset + 1) (writeBool b) readBool (some b) :=
    readsBackAt_append offset fun c hahead => readBool_ahead hahead
  exact hbit.map fun read => read.getD old

theorem at_align (offset : ℕ) :
    ReadsBackAt offset (aligned offset) (writeAlignedBytes []) alignReadToByteBoundary () := by
  intro before hbefore
  refine ⟨List.replicate (BitStream.padding before.length) false, ?_, ?_, fun c hoffset _ => ?_⟩
  · rw [writeAlignedBytes, BitStream.align]
    exact congrArg some (List.append_nil _)
  · rw [List.length_append, List.length_replicate, hbefore]
    rfl
  · rw [List.length_replicate, ← hoffset]
    rfl

theorem at_bytes (offset : ℕ) {bytes : List UInt8} (hpos : bytes.length ≠ 0) :
    ReadsBackAt offset (aligned offset + bytes.length * 8) (writeAlignedBytes bytes)
      (readAlignedBytes bytes.length) (some bytes) := by
  intro before hbefore
  refine ⟨List.replicate (BitStream.padding before.length) false ++ bitsOf bytes, ?_, ?_,
    fun c hoffset hahead => ?_⟩
  · rw [writeAlignedBytes, BitStream.align, List.append_assoc]
  · rw [List.length_append, List.length_append, List.length_replicate, length_bitsOf, hbefore,
      ← Nat.add_assoc]
    rfl
  have hdata := hahead.right
  rw [List.length_replicate, ← hoffset] at hdata
  obtain ⟨k, hk⟩ : ∃ k, c.readOffset + BitStream.padding c.readOffset = k * 8 := by
    refine ⟨(c.readOffset + BitStream.padding c.readOffset) / 8, ?_⟩
    unfold BitStream.padding
    omega
  have hoffset' : (c.advance (BitStream.padding c.readOffset)).readOffset = k * 8 := hk
  have hwithin := hdata.within
  rw [length_bitsOf, hoffset'] at hwithin
  have hslice := slice_ahead hoffset' hdata
  have hcopy : copyBytes bytes.length (c.advance (BitStream.padding c.readOffset)) =
      some (bytes, (c.advance (BitStream.padding c.readOffset)).advance (bytes.length * 8)) := by
    rw [copyBytes, hoffset', show (k * 8 + 7) / 8 = k by omega, hslice]
    rfl
  have hlook : (get : Access Cursor) (c.advance (BitStream.padding c.readOffset)) =
      some (c.advance (BitStream.padding c.readOffset),
        c.advance (BitStream.padding c.readOffset)) := rfl
  have halign : alignReadToByteBoundary c = some ((), c.advance (BitStream.padding c.readOffset)) :=
    rfl
  rw [readAlignedBytes, if_neg hpos]
  refine (bind_of_run halign).trans ?_
  refine (bind_of_run hlook).trans ?_
  rw [if_neg]
  · refine (map_of_run _ hcopy).trans ?_
    rw [Cursor.advance_advance, List.length_append, List.length_replicate, length_bitsOf, hoffset]
  · unfold numberOfUnreadBits
    rw [hoffset']
    omega

theorem at_string (offset : ℕ) {str : List UInt8} (hstr : 0 ∉ str) (hlength : str.length < 65536) :
    ReadsBackAt offset (stringEnd offset str) (serializeString str) (deserializeString u) str := by
  rw [serializeString, Nat.mod_eq_of_lt hlength, List.take_length]
  refine (at_number offset (by decide : 0 < 2) hlength u.stringLength).bind ?_
  cases str with
  | nil => exact (at_align (offset + 16)).map fun _ => []
  | cons value str =>
    rw [if_pos (by simp)]
    have hbytes := (at_bytes (offset + 16) (by simp : (value :: str).length ≠ 0)).map
      fun read => cString (read.getD [])
    rw [Option.getD_some, cString_of_not_mem hstr] at hbytes
    exact hbytes

theorem at_address (offset : ℕ) (systemAddress old : SystemAddress) :
    ReadsBackAt offset (offset + 56) (serializeAddress systemAddress) (deserializeAddress u old)
      systemAddress := by
  refine (at_number offset (by decide : 0 < 1) (by decide : 4 < 256 ^ 1) u.ipVersion).bind ?_
  rw [if_pos rfl]
  refine (at_uint32 (offset + 8) (~~~systemAddress.ip) u.binaryAddress).bind ?_
  have hip : ~~~UInt32.ofNat (~~~systemAddress.ip).toNat = systemAddress.ip := by
    rw [UInt32.ofNat_toNat, UInt32.not_not]
  rw [hip]
  have hport := (at_number (offset + 8 + 32) (by decide : 0 < 2) systemAddress.port.toNat_lt
    old.port.toNat).bind_pure fun port => (⟨systemAddress.ip, UInt16.ofNat port⟩ : SystemAddress)
  rw [UInt16.ofNat_toNat] at hport
  exact hport

theorem at_guid (offset : ℕ) (guid old : RakNetGUID) :
    ReadsBackAt offset (offset + 64) (serializeGuid guid) (deserializeGuid old) guid := by
  have hguid := (at_number offset (by decide : 0 < 8) guid.g.toNat_lt old.g.toNat).map
    fun g => (⟨UInt64.ofNat g⟩ : RakNetGUID)
  rw [UInt64.ofNat_toNat] at hguid
  exact hguid

theorem at_key (offset : ℕ) {key : CloudKey} (hkey : key.Named) (old : CloudKey) :
    ReadsBackAt offset (key.endsAt offset) key.serialize (old.deserialize u) key := by
  refine (at_string offset hkey.1 hkey.2).bind ?_
  have hsecondary := (at_uint32 (stringEnd offset key.primaryKey) key.secondaryKey
    old.secondaryKey.toNat).bind_pure fun secondaryKey =>
      (⟨key.primaryKey, UInt32.ofNat secondaryKey⟩ : CloudKey)
  rw [UInt32.ofNat_toNat] at hsecondary
  exact hsecondary

/-! ### Keys and the query -/

theorem at_keys (offset : ℕ) {keys : List CloudKey} (hkeys : ∀ key ∈ keys, key.Named)
    (cmdk : CloudKey) : ReadsBackAt offset (keys.foldl CloudKey.endsAt offset)
      (serializeEach CloudKey.serialize keys) (deserializeKeys u keys.length cmdk) keys := by
  induction keys generalizing offset cmdk with
  | nil => exact readsBackAt_pure offset []
  | cons key keys ih =>
    refine (at_key offset (hkeys key List.mem_cons_self) cmdk).bind ?_
    exact (ih (key.endsAt offset) (fun k hk => hkeys k (List.mem_cons_of_mem _ hk)) key).bind_pure
      fun keys => key :: keys

theorem at_unlessZero (offset : ℕ) (value : UInt32) :
    ReadsBackAt offset (offset + if value = 0 then 0 else 32) (serializeUnlessZero value)
      (deserializeUnlessZero (value = 0)) value := by
  by_cases hzero : value = 0
  · rw [serializeUnlessZero, deserializeUnlessZero, if_pos hzero, if_pos hzero,
      if_pos (decide_eq_true hzero), hzero]
    exact readsBackAt_pure offset 0
  · rw [serializeUnlessZero, deserializeUnlessZero, if_neg hzero, if_neg hzero,
      if_neg (by simpa using hzero)]
    have hvalue := (at_uint32 offset value 0).map UInt32.ofNat
    rw [UInt32.ofNat_toNat] at hvalue
    exact hvalue

theorem at_query (offset : ℕ) {query : CloudQuery} (hkeys : ∀ key ∈ query.keys, key.Named)
    (hcount : query.keys.length < 65536) :
    ReadsBackAt offset (query.endsAt offset) query.serialize (CloudQuery.deserialize u) query := by
  rw [CloudQuery.serialize, Nat.mod_eq_of_lt hcount, List.take_length]
  refine (at_bool offset _ true).bind ?_
  refine (at_bool (offset + 1) _ true).bind ?_
  refine (at_bool (offset + 1 + 1) _ false).bind ?_
  refine (at_unlessZero (offset + 3) query.startingRowIndex).bind ?_
  refine (at_unlessZero _ query.maxRowsToReturn).bind ?_
  refine (at_number _ (by decide : 0 < 2) hcount 0).bind ?_
  exact (at_keys _ hkeys u.key).bind_pure fun keys =>
    (⟨keys, query.startingRowIndex, query.maxRowsToReturn, query.subscribeToResults⟩ : CloudQuery)

/-! ### Rows and the result -/

theorem aligned_mod (offset : ℕ) : aligned offset % 8 = 0 := by
  unfold aligned BitStream.padding
  omega

theorem aligned_eq {offset : ℕ} (h : offset % 8 = 0) : aligned offset = offset := by
  rw [aligned, BitStream.padding_of_aligned h, Nat.add_zero]

/-- Data of no bytes is written with an alignment and read without, which is the same at a byte
boundary. -/
theorem at_data {offset : ℕ} (haligned : offset % 8 = 0) (data : List UInt8) :
    ReadsBackAt offset (offset + data.length * 8) (writeAlignedBytes data)
      (deserializeData u data.length) data := by
  cases data with
  | nil =>
    intro before hbefore
    refine ⟨[], ?_, by rw [List.append_nil, hbefore]; rfl, fun c _ _ => rfl⟩
    rw [writeAlignedBytes, BitStream.align_of_aligned (by omega)]
    rfl
  | cons value data =>
    rw [deserializeData, if_pos (by simp)]
    have hbytes := (at_bytes offset (by simp : (value :: data).length ≠ 0)).map
      fun read => read.getD (u.row.data.take (value :: data).length)
    rw [aligned_eq haligned] at hbytes
    exact hbytes

theorem at_row (offset : ℕ) {row : CloudQueryRow} (hkey : row.key.Named)
    (hlength : row.data.length < 2 ^ 32) :
    ReadsBackAt offset (row.endsAt offset) row.serialize (CloudQueryRow.deserialize u) row := by
  have haligned : (row.key.endsAt offset + 56 + 56 + 64 + 64 + 32) % 8 = 0 := by
    have hmod := aligned_mod (offset + 16)
    unfold CloudKey.endsAt stringEnd
    omega
  refine (at_key offset hkey u.row.key).bind ?_
  refine (at_address _ row.serverSystemAddress u.row.serverSystemAddress).bind ?_
  refine (at_address _ row.clientSystemAddress u.row.clientSystemAddress).bind ?_
  refine (at_guid _ row.serverGUID u.row.serverGUID).bind ?_
  refine (at_guid _ row.clientGUID u.row.clientGUID).bind ?_
  refine (at_number _ (by decide : 0 < 4) hlength u.length).bind ?_
  exact (at_data haligned row.data).bind_pure fun data =>
    (⟨row.key, data, row.serverSystemAddress, row.clientSystemAddress, row.serverGUID,
      row.clientGUID⟩ : CloudQueryRow)

namespace CloudQueryResult

theorem rows_from {numRows : ℕ} (hcount : numRows < 65536) {rows : List CloudQueryRow}
    (hlength : rows.length = numRows) (hrows : ∀ row ∈ rows, row.key.Named ∧
      row.data.length < 2 ^ 32) {rest : List CloudQueryRow} :
    ∀ {i offset : ℕ} {before : List Bool}, rows.drop i = rest → i ≤ numRows →
      before.length = offset → ∃ written,
      FuelledLoop.countedLoop 65536 numRows (serializeRowAt rows) (rest.length + 1) i before =
        some (before ++ written) ∧
      (before ++ written).length = rest.foldl CloudQueryRow.endsAt offset ∧
      ∀ (c : Cursor) (read : List CloudQueryRow), c.readOffset = before.length →
        c.Ahead written →
        FuelledLoop.countedLoop 65536 numRows (deserializeRowAt u) (rest.length + 1) i (read, c) =
          some (read ++ rest, c.advance written.length) := by
  induction rest with
  | nil =>
    intro i offset before hrest hi hbefore
    have hend : ¬ i < numRows := by
      rw [List.drop_eq_nil_iff] at hrest
      omega
    refine ⟨[], ?_, by rw [List.append_nil]; exact hbefore, fun c read _ _ => ?_⟩
    · rw [FuelledLoop.countedLoop, if_neg hend, List.append_nil]
    · rw [FuelledLoop.countedLoop, if_neg hend, List.append_nil]
      rfl
  | cons row rest ih =>
    intro i offset before hrest hi hbefore
    have hlt : i < numRows := by
      by_contra hge
      rw [List.drop_eq_nil_of_le (by omega)] at hrest
      cases hrest
    have hget : rows[i]? = some row := by
      have hhead := congrArg List.head? hrest
      rwa [List.head?_drop] at hhead
    have htail : rows.drop (i + 1) = rest := by
      have htail := congrArg List.tail hrest
      rwa [List.tail_drop] at htail
    obtain ⟨hkey, hdata⟩ := hrows row (List.mem_of_getElem? hget)
    obtain ⟨written, hwrite, hmiddle, hread⟩ := @at_row u offset row hkey hdata before hbefore
    obtain ⟨written', hwrite', hnext, hread'⟩ := ih htail (by omega) hmiddle
    have hnextIndex : (i + 1) % 65536 = i + 1 := Nat.mod_eq_of_lt (by omega)
    refine ⟨written ++ written', ?_, by rw [← List.append_assoc, hnext]; rfl,
      fun c read hoffset hahead => ?_⟩
    · rw [FuelledLoop.countedLoop, if_pos hlt, hnextIndex, serializeRowAt, hget, Option.bind_some,
        hwrite, ← List.append_assoc]
      exact hwrite'
    · have hoffset' : (c.advance written.length).readOffset = (before ++ written).length := by
        rw [List.length_append, ← hoffset]
        rfl
      rw [FuelledLoop.countedLoop, if_pos hlt, hnextIndex, deserializeRowAt,
        hread c hoffset hahead.left]
      refine (hread' _ (read ++ [row]) hoffset' hahead.right).trans ?_
      rw [Cursor.advance_advance, List.length_append, List.append_assoc]
      rfl

theorem at_rows (offset : ℕ) {rows : List CloudQueryRow} (hcount : rows.length < 65536)
    (hrows : ∀ row ∈ rows, row.key.Named ∧ row.data.length < 2 ^ 32) :
    ReadsBackAt offset (rows.foldl CloudQueryRow.endsAt offset)
      (serializeCloudQueryRows (rows.length + 1) rows.length rows)
      (deserializeCloudQueryRows u (rows.length + 1) rows.length) rows := by
  intro before hbefore
  obtain ⟨written, hwrite, hnext, hread⟩ :=
    @rows_from u rows.length hcount rows rfl hrows rows 0 offset before rfl (Nat.zero_le _) hbefore
  exact ⟨written, hwrite, hnext, fun c hoffset hahead => hread c [] hoffset hahead⟩

variable {result : CloudQueryResult} {before : List Bool}

theorem at_result (hvalid : result.Valid) (hkeys : result.cloudQuery.keys.length < 65536)
    (hrows : result.rowsReturned.length < 65536) (hindices : result.resultKeyIndices = [])
    (offset : ℕ) : ReadsBackAt offset (result.endsAt offset)
      (result.serializeHeader >=> (writeNumber 4 result.rowsReturned.length >=>
        serializeCloudQueryRows (result.rowsReturned.length + 1) result.rowsReturned.length
          result.rowsReturned))
      (deserialize u (result.rowsReturned.length + 1)) result := by
  obtain ⟨query, rows, indices, subscribes⟩ := result
  obtain rfl : indices = [] := hindices
  rw [serializeHeader, append_assoc]
  refine (at_query offset hvalid.keys hkeys).bind ?_
  refine (at_bool _ subscribes u.flag).bind ?_
  refine (at_number _ (by decide : 0 < 4) hvalid.count 0).bind ?_
  exact (at_rows (query.endsAt offset + 1 + 4 * 8) hrows hvalid.rows).bind_pure fun rowsReturned =>
    (⟨query, rowsReturned, [], subscribes⟩ : CloudQueryResult)

/-! ### What is read is never longer -/

theorem readOr_lt {bytes value : ℕ} {c c' : Cursor} (h : readOr bytes 0 c = some (value, c')) :
    value < 2 ^ (bytes * 8) := by
  obtain ⟨bits, c₁, hbits, hvalue⟩ : ∃ bits c₁, readBits (bytes * 8) c = some (bits, c₁) ∧
      value = (bits.map BitStream.ofBits).getD 0 := by
    obtain ⟨p, hp, hmap⟩ := Option.bind_eq_some_iff.mp h
    obtain ⟨q, hq, hmap'⟩ := Option.bind_eq_some_iff.mp hp
    refine ⟨q.1, q.2, hq, ?_⟩
    cases hmap'
    cases hmap
    rfl
  cases bits with
  | none =>
    rw [hvalue]
    exact Nat.two_pow_pos _
  | some bits =>
    have hlength : bits.length ≤ bytes * 8 := by
      rw [readBits] at hbits
      split at hbits
      · cases hbits
      obtain ⟨c₂, c₃, hlook, hrest⟩ := exists_of_bind hbits
      by_cases hshort : numberOfUnreadBits c₂ < bytes * 8
      · rw [if_pos hshort] at hrest
        cases hrest
      · rw [if_neg hshort] at hrest
        obtain ⟨p, hp, hmap⟩ := Option.bind_eq_some_iff.mp hrest
        unfold fetch at hp
        split at hp
        · cases hp
          cases hmap
          exact List.length_take_le _ _
        · cases hp
    rw [hvalue]
    exact lt_of_lt_of_le (BitStream.ofBits_lt bits) (Nat.pow_le_pow_right (by decide) hlength)

theorem length_deserializeKeys {numKeys : ℕ} {cmdk : CloudKey} {c c' : Cursor}
    {keys : List CloudKey} (h : deserializeKeys u numKeys cmdk c = some (keys, c')) :
    keys.length = numKeys := by
  induction numKeys generalizing cmdk c keys with
  | zero =>
    cases h
    rfl
  | succ numKeys ih =>
    obtain ⟨key, c₁, -, h⟩ := exists_of_bind h
    obtain ⟨rest, c₂, hrest, h⟩ := exists_of_bind h
    cases h
    rw [List.length_cons, ih hrest]

theorem exists_name_of_key {key old : CloudKey} {c c' : Cursor}
    (h : old.deserialize u c = some (key, c')) :
    ∃ c₁, deserializeString u c = some (key.primaryKey, c₁) := by
  obtain ⟨primaryKey, c₁, hprimary, h⟩ := exists_of_bind h
  obtain ⟨secondaryKey, c₂, -, h⟩ := exists_of_bind h
  cases h
  exact ⟨c₁, hprimary⟩

theorem exists_keys_of_query {query : CloudQuery} {c c' : Cursor}
    (h : CloudQuery.deserialize u c = some (query, c')) :
    ∃ numKeys c₁ c₂ c₃, readOr 2 0 c₁ = some (numKeys, c₂) ∧
      deserializeKeys u numKeys u.key c₂ = some (query.keys, c₃) := by
  obtain ⟨startingRowIndexIsZero, c₁, -, h⟩ := exists_of_bind h
  obtain ⟨maxRowsToReturnIsZero, c₂, -, h⟩ := exists_of_bind h
  obtain ⟨subscribeToResults, c₃, -, h⟩ := exists_of_bind h
  obtain ⟨startingRowIndex, c₄, -, h⟩ := exists_of_bind h
  obtain ⟨maxRowsToReturn, c₅, -, h⟩ := exists_of_bind h
  obtain ⟨numKeys, c₆, hnum, h⟩ := exists_of_bind h
  obtain ⟨keys, c₇, hkeys, h⟩ := exists_of_bind h
  cases h
  exact ⟨numKeys, c₅, c₆, c', hnum, hkeys⟩

theorem exists_parts_of_row {row : CloudQueryRow} {c c' : Cursor}
    (h : CloudQueryRow.deserialize u c = some (row, c')) :
    (∃ c₁, deserializeString u c = some (row.key.primaryKey, c₁)) ∧
      ∃ length c₁ c₂ c₃, readOr 4 u.length c₁ = some (length, c₂) ∧
        deserializeData u length c₂ = some (row.data, c₃) := by
  obtain ⟨key, c₁, hkey, h⟩ := exists_of_bind h
  obtain ⟨serverSystemAddress, c₂, -, h⟩ := exists_of_bind h
  obtain ⟨clientSystemAddress, c₃, -, h⟩ := exists_of_bind h
  obtain ⟨serverGUID, c₄, -, h⟩ := exists_of_bind h
  obtain ⟨clientGUID, c₅, -, h⟩ := exists_of_bind h
  obtain ⟨length, c₆, hlength, h⟩ := exists_of_bind h
  obtain ⟨data, c₇, hdata, h⟩ := exists_of_bind h
  cases h
  exact ⟨exists_name_of_key hkey, length, c₅, c₆, c', hlength, hdata⟩

theorem exists_parts_of_result {fuel : ℕ} {c c' : Cursor}
    (h : deserialize u fuel c = some (result, c')) :
    result.resultKeyIndices = [] ∧
      (∃ c₁, CloudQuery.deserialize u c = some (result.cloudQuery, c₁)) ∧
        ∃ numRows c₂ c₃, deserializeCloudQueryRows u fuel numRows c₂ =
          some (result.rowsReturned, c₃) := by
  obtain ⟨cloudQuery, c₁, hquery, h⟩ := exists_of_bind h
  obtain ⟨subscribeToResults, c₂, -, h⟩ := exists_of_bind h
  obtain ⟨numRows, c₃, -, h⟩ := exists_of_bind h
  obtain ⟨rowsReturned, c₄, hrows, h⟩ := exists_of_bind h
  cases h
  exact ⟨rfl, ⟨c₁, hquery⟩, numRows, c₃, c', hrows⟩

theorem deserialize_bounds {fuel : ℕ} {c c' : Cursor}
    (h : deserialize u fuel c = some (result, c')) :
    result.cloudQuery.keys.length < 65536 ∧ result.resultKeyIndices = [] := by
  obtain ⟨hindices, ⟨c₁, hquery⟩, -⟩ := exists_parts_of_result h
  obtain ⟨numKeys, c₂, c₃, c₄, hnum, hkeys⟩ := exists_keys_of_query hquery
  rw [length_deserializeKeys hkeys]
  exact ⟨readOr_lt hnum, hindices⟩

theorem rows_lt_of_serialize {fuel : ℕ} {out : List Bool} (hvalid : result.Valid)
    (h : result.serialize fuel before = some out) : result.rowsReturned.length < 65536 := by
  by_contra hge
  obtain ⟨header, -, h⟩ := exists_of_then h
  obtain ⟨number, -, h⟩ := exists_of_then h
  obtain ⟨rows, hrows, -⟩ := exists_of_then h
  rw [Nat.mod_eq_of_lt hvalid.count, serializeCloudQueryRows,
    FuelledLoop.countedLoop_none (by omega) fuel 0 number (by decide)] at hrows
  cases hrows

theorem length_of_serialize {fuel : ℕ} {out : List Bool} (hvalid : result.Valid)
    (hkeys : result.cloudQuery.keys.length < 65536)
    (hrows : result.rowsReturned.length < 65536) (hindices : result.resultKeyIndices = [])
    (h : result.serialize fuel before = some out) :
    out.length = result.endsAt before.length ∧ out.length < streamLimit := by
  obtain ⟨written, hwrite, hnext, -⟩ :=
    @at_result .zero result hvalid hkeys hrows hindices before.length before rfl
  obtain ⟨header, hheader, h⟩ := exists_of_then h
  obtain ⟨number, hnumber, h⟩ := exists_of_then h
  obtain ⟨rows, hloop, h⟩ := exists_of_then h
  obtain ⟨header', hheader', hwrite⟩ := exists_of_then hwrite
  obtain rfl := Option.some.inj (hheader.symm.trans hheader')
  obtain ⟨number', hnumber', hwrite⟩ := exists_of_then hwrite
  rw [Nat.mod_eq_of_lt hvalid.count] at hnumber hloop
  obtain rfl := Option.some.inj (hnumber.symm.trans hnumber')
  have hsame : rows = before ++ written := FuelledLoop.countedLoop_unique hloop hwrite
  by_cases hlimit : rows.length < streamLimit
  · rw [if_pos hlimit] at h
    obtain rfl := Option.some.inj h
    exact ⟨by rw [hsame, hnext], hlimit⟩
  · rw [if_neg hlimit] at h
    cases h

/-- A result makes the round trip exactly where its keys and rows are counted in 16 bits, it has no
row indices and the stream stays below its limit. -/
theorem result_roundTrips_iff (hvalid : result.Valid) (before : List Bool) :
    result.RoundTrips before ↔
      result.cloudQuery.keys.length < 65536 ∧ result.rowsReturned.length < 65536 ∧
        result.resultKeyIndices = [] ∧ result.endsAt before.length < streamLimit := by
  constructor
  · rintro ⟨fuel, out, hout, htrip⟩
    obtain ⟨memory, hmemory, hbits⟩ := exists_memory out
    obtain ⟨fuel', hread⟩ := htrip memory _ hmemory hbits (Nat.le_refl _) .zero
    obtain ⟨hkeys, hindices⟩ := deserialize_bounds hread
    have hrows := rows_lt_of_serialize hvalid hout
    obtain ⟨hlength, hlimit⟩ := length_of_serialize hvalid hkeys hrows hindices hout
    exact ⟨hkeys, hrows, hindices, hlength ▸ hlimit⟩
  · rintro ⟨hkeys, hrows, hindices, hlimit⟩
    have hat := fun u => @at_result u result hvalid hkeys hrows hindices before.length before rfl
    obtain ⟨written, hwrite, hnext, -⟩ := hat .zero
    refine ⟨result.rowsReturned.length + 1, before ++ written, ?_,
      fun memory numberOfBits hmemory hbits hinside u => ?_⟩
    · rw [serialize, Nat.mod_eq_of_lt hvalid.count, ← append_assoc, ← append_assoc]
      refine Option.bind_eq_some_iff.mpr ⟨before ++ written, ?_, ?_⟩
      · rw [append_assoc]
        exact hwrite
      · rw [if_pos (hnext ▸ hlimit)]
    · obtain ⟨written', hwrite', -, hread⟩ := hat u
      obtain rfl : written = written' :=
        List.append_cancel_left (Option.some.inj (hwrite.symm.trans hwrite'))
      refine ⟨result.rowsReturned.length + 1, ?_⟩
      obtain ⟨rest, hrest⟩ := hmemory
      rw [hread ⟨memory, numberOfBits, before.length⟩ rfl ⟨⟨rest, ?_⟩, ?_, hinside⟩,
        List.length_append]
      · rfl
      · show written ++ rest = (bitsOf memory).drop before.length
        rw [← hrest, List.append_assoc, List.drop_left]
      · rw [List.length_append] at hbits
        exact hbits

/-- A query of one key, with so many rows of no data. -/
def emptyRows (numRows : ℕ) : CloudQueryResult where
  cloudQuery := ⟨[⟨[107], 1⟩], 0, 0, true⟩
  rowsReturned := List.replicate numRows CloudUninitialised.zero.row
  resultKeyIndices := []
  subscribeToResults := true

theorem valid_emptyRows {numRows : ℕ} (h : numRows < 2 ^ 32) : (emptyRows numRows).Valid where
  keys := by
    intro key hkey
    obtain rfl := List.mem_singleton.mp hkey
    exact ⟨by decide, by decide⟩
  rows := by
    intro row hrow
    obtain rfl := List.eq_of_mem_replicate hrow
    exact ⟨⟨by decide, by decide⟩, by decide⟩
  count := by
    rw [emptyRows, List.length_replicate]
    exact h

theorem roundTrips_two_rows : (emptyRows 2).RoundTrips [true] :=
  (result_roundTrips_iff (valid_emptyRows (by decide)) [true]).mpr
    ⟨by decide, by decide, rfl, by decide⟩

/-- The loop over the rows does not end. -/
theorem many_rows_not_roundTrips :
    ¬ ∀ (result : CloudQueryResult) (before : List Bool), result.Valid →
      result.RoundTrips before := by
  intro h
  have hvalid := valid_emptyRows (by decide : 65536 < 2 ^ 32)
  obtain ⟨fuel, out, hout, -⟩ := h (emptyRows 65536) [] hvalid
  have hrows := rows_lt_of_serialize hvalid hout
  rw [emptyRows, List.length_replicate] at hrows
  omega

end CloudQueryResult

end Parts

end SLikeNet
