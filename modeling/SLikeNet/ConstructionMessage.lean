import SLikeNet.Library.BitStream

/-! `ID_REPLICA_MANAGER_CONSTRUCTION`: the message of `SendConstruction` and
`BroadcastDestructionList`, and what `OnConstruction` makes of it. -/

namespace SLikeNet

open BitStream

/-! ### The message -/

/-- What is written at an offset of the stream. -/
abbrev OffsetWriter := ℕ → List Bool

namespace OffsetWriter

def bits (bs : List Bool) : OffsetWriter := fun _ => bs

def number (width n : ℕ) : OffsetWriter := bits (toBits width n)

def align : OffsetWriter := fun offset => List.replicate (padding offset) false

def andThen (first second : OffsetWriter) : OffsetWriter := fun offset =>
  first offset ++ second (offset + (first offset).length)

/-- `offsetStart` is written, and overwritten with `offsetEnd` after what follows it. -/
def backPatched (body : OffsetWriter) : OffsetWriter := fun offsetStart =>
  let written := body (offsetStart + 32)
  toBits 32 (offsetStart + 32 + written.length) ++ written

def all {α : Type} (write : α → OffsetWriter) : List α → OffsetWriter
  | [] => fun _ => []
  | a :: rest => (write a).andThen (all write rest)

end OffsetWriter

open OffsetWriter

/-- A replica of the list `newObjects`, with what its callbacks write: `construction` is that of
`SerializeConstruction` or of `SerializeConstructionExisting`. -/
structure NewObject where
  networkId : UInt64
  actuallyCreateObject : Bool
  creatingSystemGUID : UInt64
  allocationID : List Bool
  construction : List Bool
  postConstruction : List Bool

structure DeletedObject where
  networkId : UInt64
  deletingSystemGUID : UInt64
  destruction : List Bool

namespace ConstructionMessage

def writeAllocation (o : NewObject) : OffsetWriter :=
  backPatched (align.andThen ((bits o.allocationID).andThen align))

def writeContent (o : NewObject) : OffsetWriter :=
  if o.actuallyCreateObject then
    (number 64 o.creatingSystemGUID.toNat).andThen
      ((writeAllocation o).andThen (bits o.construction))
  else bits o.construction

def writeObject (o : NewObject) : OffsetWriter :=
  backPatched ((number 64 o.networkId.toNat).andThen ((bits [o.actuallyCreateObject]).andThen
    (align.andThen ((writeContent o).andThen align))))

def writePost (o : NewObject) : OffsetWriter :=
  if o.postConstruction = [] then bits [false]
  else (bits [true]).andThen (align.andThen (backPatched ((number 64 o.networkId.toNat).andThen
    (align.andThen ((bits o.postConstruction).andThen align)))))

def writeDeleted (o : DeletedObject) : OffsetWriter :=
  (number 64 o.networkId.toNat).andThen (backPatched ((number 64 o.deletingSystemGUID.toNat).andThen
    ((bits o.destruction).andThen align)))

/-- Without the identifier of the message and the world. `BroadcastDestructionList` writes the same
for an empty list of new objects. -/
def sendConstruction (newObjects : List NewObject) (deletedObjects : List DeletedObject) :
    OffsetWriter :=
  (number 16 (newObjects.length % 65536)).andThen ((all writeObject newObjects).andThen
    ((all writePost newObjects).andThen (align.andThen
      ((number 16 (deletedObjects.length % 65536)).andThen (all writeDeleted deletedObjects)))))

/-! ### The receiver -/

/-- The callbacks that read from the stream. -/
inductive Callback
  | allocReplica
  | deserializeConstruction
  | deserializeConstructionExisting
  | postDeserializeConstruction
  | postDeserializeConstructionExisting
  | deserializeDestruction

/-- The side that has received the message. A callback is given the stream and its read offset, and
has a result and an offset at which it leaves the stream; `refused` stands for
`DeallocReplicaNoBroadcastDestruction`, and the other functions for those they are named after,
with the objects of `networkIDManager` in the state. -/
structure Receiver (State : Type) where
  getObjectFromID : State → UInt64 → Bool
  onDownloadExisting : UInt64 → State → State
  queryRemoteConstruction : UInt64 → UInt64 → State → Bool
  refused : UInt64 → State → State
  referenceInternal : UInt64 → UInt64 → State → State
  onDownload : UInt64 → State → State
  destroy : UInt64 → UInt64 → Bool → State → State
  call : Callback → UInt64 → List Bool → ℕ → State → Bool × ℕ × State

variable {State : Type}

/-- `Read`, where the stream has so many bits. The source goes on with what the variable was before
where it has not. -/
def read (width : ℕ) (message : List Bool) (offset : ℕ) : Option (ℕ × ℕ) :=
  if offset + width ≤ message.length then
    some (ofBits ((message.drop offset).take width), offset + width)
  else none

def aligned (offset : ℕ) : ℕ := offset + padding offset

/-- The object with what is to be created of it. -/
def createObject (r : Receiver State) (message : List Bool) (networkId creatingSystemGuid : UInt64)
    (allocation : ℕ) (construction : ℕ) (s : State) : Option UInt64 × State :=
  let (allocated, _, s) := r.call .allocReplica networkId message allocation s
  if allocated then
    if r.queryRemoteConstruction networkId creatingSystemGuid s then
      let (constructed, _, s) := r.call .deserializeConstruction networkId message construction s
      if constructed then (some networkId, r.referenceInternal networkId creatingSystemGuid s)
      else (none, r.refused networkId s)
    else (none, r.refused networkId s)
  else (none, s)

/-- One step of the first loop of `OnConstruction`: the entries of `actuallyCreateObjectList` and
`constructionTickStack`, the read offset and the state. -/
def onObject (r : Receiver State) (message : List Bool) (offset : ℕ) (s : State) :
    Option ((Bool × Option UInt64) × ℕ × State) := do
  let (streamEnd, offset) ← read 32 message offset
  let (networkId, offset) ← read 64 message offset
  let networkId := UInt64.ofNat networkId
  let (flag, offset) ← read 1 message offset
  let offset := aligned offset
  if flag = 1 then do
    let (guid, offset) ← read 64 message offset
    let (writeAllocationIDEnd, offset) ← read 32 message offset
    if r.getObjectFromID s networkId then
      pure ((true, none), streamEnd, r.onDownloadExisting networkId s)
    else
      let (tick, s) := createObject r message networkId (UInt64.ofNat guid) (aligned offset)
        writeAllocationIDEnd s
      -- The refusals go on without the alignment, the others with it.
      pure ((true, tick), if tick.isSome then aligned streamEnd else streamEnd, s)
  else if r.getObjectFromID s networkId then
    let (_, _, s) := r.call .deserializeConstructionExisting networkId message offset s
    pure ((false, some networkId), aligned streamEnd, s)
  else pure ((false, none), aligned streamEnd, s)

def onObjects (r : Receiver State) (message : List Bool) : ℕ → ℕ → State →
    Option (List (Bool × Option UInt64) × ℕ × State)
  | 0, offset, s => some ([], offset, s)
  | count + 1, offset, s => do
    let (entry, offset, s) ← onObject r message offset s
    let (entries, offset, s) ← onObjects r message count offset s
    pure (entry :: entries, offset, s)

def postCallback (actuallyCreateObject : Bool) : Callback :=
  if actuallyCreateObject then .postDeserializeConstruction
  else .postDeserializeConstructionExisting

/-- What the second loop does with an entry of `constructionTickStack`. -/
def postConstruction (r : Receiver State) (entry : Bool × Option UInt64) (message : List Bool)
    (offset : ℕ) (s : State) : State :=
  match entry.2 with
  | none => s
  | some networkId => (r.call (postCallback entry.1) networkId message offset s).2.2

def onPost (r : Receiver State) (message : List Bool) (entry : Bool × Option UInt64) (offset : ℕ)
    (s : State) : Option (ℕ × State) := do
  let (pdcWritten, offset) ← read 1 message offset
  if pdcWritten = 1 then do
    let (streamEnd, offset) ← read 32 message (aligned offset)
    let (_, offset) ← read 64 message offset
    pure (streamEnd, postConstruction r entry message (aligned offset) s)
  else pure (offset, postConstruction r entry [] 0 s)

def onPosts (r : Receiver State) (message : List Bool) : List (Bool × Option UInt64) → ℕ → State →
    Option (ℕ × State)
  | [], offset, s => some (offset, s)
  | entry :: entries, offset, s => do
    let (offset, s) ← onPost r message entry offset s
    onPosts r message entries offset s

/-- The objects that the message has created are known to the connections. -/
def onDownloads (r : Receiver State) : List (Bool × Option UInt64) → State → State
  | [], s => s
  | (true, some networkId) :: entries, s => onDownloads r entries (r.onDownload networkId s)
  | _ :: entries, s => onDownloads r entries s

/-- One step of the loop over the destructions. -/
def onDeleted (r : Receiver State) (message : List Bool) (offset : ℕ) (s : State) :
    Option (ℕ × State) := do
  let (networkId, offset) ← read 64 message offset
  let networkId := UInt64.ofNat networkId
  let (streamEnd, offset) ← read 32 message offset
  if r.getObjectFromID s networkId then do
    let (guid, offset) ← read 64 message offset
    let (result, offset, s) := r.call .deserializeDestruction networkId message offset s
    pure (aligned offset, r.destroy networkId (UInt64.ofNat guid) result s)
  else pure (streamEnd, s)

def onDestructions (r : Receiver State) (message : List Bool) : ℕ → ℕ → State → Option State
  | 0, _, s => some s
  | count + 1, offset, s => do
    let (offset, s) ← onDeleted r message offset s
    onDestructions r message count offset s

/-- The message behind `packetDataOffset`. -/
def onConstruction (r : Receiver State) (message : List Bool) (offset : ℕ) (s : State) :
    Option State := do
  let (constructionObjectListSize, offset) ← read 16 message offset
  let (entries, offset, s) ← onObjects r message constructionObjectListSize offset s
  let (offset, s) ← onPosts r message entries offset s
  let s := onDownloads r entries s
  let (destructionObjectListSize, offset) ← read 16 message (aligned offset)
  onDestructions r message destructionObjectListSize offset s

end ConstructionMessage

end SLikeNet
