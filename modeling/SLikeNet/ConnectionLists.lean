import SLikeNet.OrderedList

/-! The lists of a `Connection_RM3` and the functions that move the records of replicas between
them. `referenceIndex` gives the index by which `constructedReplicaList` is ordered. -/

namespace SLikeNet

/-- A record on the heap; `address` tells records apart. -/
structure LastSerializationResult where
  address : ℕ
  replica : ℕ
deriving DecidableEq

inductive ConstructionMode
  | queryReplicaForConstruction
  | queryReplicaForConstructionAndDestruction
  | queryConnectionForReplicaList
deriving DecidableEq

inductive RM3ConstructionState
  | sendConstruction
  | alreadyExistsRemotely
  | alreadyExistsRemotelyDoNotConstruct
  | neverConstruct
  | noAction

inductive RM3DestructionState
  | sendDestruction
  | doNotQueryDestruction
  | noAction

structure ConnectionRM3 where
  constructionMode : ConstructionMode
  constructedReplicaList : List LastSerializationResult
  queryToConstructReplicaList : List LastSerializationResult
  queryToSerializeReplicaList : List LastSerializationResult
  queryToDestructReplicaList : List LastSerializationResult
deriving DecidableEq

section Lists

variable (referenceIndex : ℕ → ℕ)

def replica3LSRComp (replica3 : ℕ) (data : LastSerializationResult) : Ordering :=
  compare (referenceIndex replica3) (referenceIndex data.replica)

/-- `OrderedList::Insert`, and whether it did. -/
def insertConstructed (lsr : LastSerializationResult) (list : List LastSerializationResult) :
    List LastSerializationResult × Bool :=
  let found := OrderedList.getIndexFromKey (replica3LSRComp referenceIndex) list lsr.replica
  if found.2 then (list, false) else (list.insertIdx found.1 lsr, true)

/-- `GetIndexFromKey` and `RemoveAtIndex`. -/
def removeConstructed (replica3 : ℕ) (list : List LastSerializationResult) :
    List LastSerializationResult :=
  let found := OrderedList.getIndexFromKey (replica3LSRComp referenceIndex) list replica3
  if found.2 then list.eraseIdx found.1 else list

end Lists

/-- The loops that remove the first record of a replica. -/
def removeReplica (replica3 : ℕ) (list : List LastSerializationResult) :
    List LastSerializationResult :=
  list.eraseP fun lsr => lsr.replica == replica3

namespace ConnectionRM3

/-- A new connection. -/
def new (constructionMode : ConstructionMode) : ConnectionRM3 := ⟨constructionMode, [], [], [], []⟩

def queriesReplicas (c : ConnectionRM3) : Bool :=
  c.constructionMode ≠ .queryConnectionForReplicaList

def onLocalReference (address replica3 : ℕ) (c : ConnectionRM3) : ConnectionRM3 :=
  { c with
    queryToConstructReplicaList := c.queryToConstructReplicaList ++ [⟨address, replica3⟩] }

section Transitions

variable (referenceIndex : ℕ → ℕ)

def onDereference (hasNetworkIDManager : Bool) (replica3 : ℕ) (c : ConnectionRM3) :
    ConnectionRM3 :=
  if hasNetworkIDManager then
    { c with
      constructedReplicaList := removeConstructed referenceIndex replica3 c.constructedReplicaList
      queryToConstructReplicaList := removeReplica replica3 c.queryToConstructReplicaList
      queryToSerializeReplicaList := removeReplica replica3 c.queryToSerializeReplicaList
      queryToDestructReplicaList := removeReplica replica3 c.queryToDestructReplicaList }
  else c

/-- What `OnDownloadFromThisSystem` does in the modes that query the replicas. -/
def downloadedToQuery (lsr : LastSerializationResult) (c : ConnectionRM3) : ConnectionRM3 :=
  if c.queriesReplicas then
    { c with
      queryToConstructReplicaList := removeReplica lsr.replica c.queryToConstructReplicaList
      queryToDestructReplicaList := c.queryToDestructReplicaList ++ [lsr] }
  else c

def onDownloadFromThisSystem (address replica3 : ℕ) (c : ConnectionRM3) : ConnectionRM3 :=
  let lsr := ⟨address, replica3⟩
  let c' := c.downloadedToQuery lsr
  let inserted := insertConstructed referenceIndex lsr c'.constructedReplicaList
  if inserted.2 then
    { c' with
      constructedReplicaList := inserted.1
      queryToSerializeReplicaList := c'.queryToSerializeReplicaList ++ [lsr] }
  else c'

def onDownloadFromOtherSystem (address replica3 : ℕ) (c : ConnectionRM3) : ConnectionRM3 :=
  if c.queriesReplicas then
    if c.queryToConstructReplicaList.any fun lsr => lsr.replica == replica3 then c
    else c.onLocalReference address replica3
  else c

def onNeverConstruct (queryToConstructIdx : ℕ) (c : ConnectionRM3) : ConnectionRM3 :=
  { c with
    queryToConstructReplicaList := c.queryToConstructReplicaList.eraseIdx queryToConstructIdx }

/-- The record goes from `queryToConstructReplicaList` to the three other lists. -/
def moveToConstructed (queryToConstructIdx : ℕ) (c : ConnectionRM3) : ConnectionRM3 :=
  match c.queryToConstructReplicaList[queryToConstructIdx]? with
  | none => c
  | some lsr =>
    { c with
      queryToConstructReplicaList := c.queryToConstructReplicaList.eraseIdx queryToConstructIdx
      constructedReplicaList := (insertConstructed referenceIndex lsr c.constructedReplicaList).1
      queryToDestructReplicaList := c.queryToDestructReplicaList ++ [lsr]
      queryToSerializeReplicaList := c.queryToSerializeReplicaList ++ [lsr] }

def onConstructToThisConnection (queryToConstructIdx : ℕ) (c : ConnectionRM3) : ConnectionRM3 :=
  c.moveToConstructed referenceIndex queryToConstructIdx

def onReplicaAlreadyExists (queryToConstructIdx : ℕ) (c : ConnectionRM3) : ConnectionRM3 :=
  c.moveToConstructed referenceIndex queryToConstructIdx

/-- The other `OnConstructToThisConnection`, for `QUERY_CONNECTION_FOR_REPLICA_LIST`. Unlike
`OnDownloadFromThisSystem` it does not look whether `Insert` took the record. -/
def onConstructReplicaToThisConnection (address replica3 : ℕ) (c : ConnectionRM3) :
    ConnectionRM3 :=
  let lsr := ⟨address, replica3⟩
  { c with
    constructedReplicaList := (insertConstructed referenceIndex lsr c.constructedReplicaList).1
    queryToSerializeReplicaList := c.queryToSerializeReplicaList ++ [lsr] }

def onNeverSerialize (lsr : LastSerializationResult) (c : ConnectionRM3) : ConnectionRM3 :=
  { c with queryToSerializeReplicaList := c.queryToSerializeReplicaList.erase lsr }

def onDownloadExisting (address replica3 : ℕ) (c : ConnectionRM3) : ConnectionRM3 :=
  if c.queriesReplicas then
    match c.queryToConstructReplicaList.findIdx? fun lsr => lsr.replica == replica3 with
    | some idx => c.onConstructToThisConnection referenceIndex idx
    | none => c
  else c.onConstructReplicaToThisConnection referenceIndex address replica3

def onSendDestructionFromQuery (queryToDestructIdx : ℕ) (c : ConnectionRM3) : ConnectionRM3 :=
  match c.queryToDestructReplicaList[queryToDestructIdx]? with
  | none => c
  | some lsr =>
    { c with
      queryToDestructReplicaList := c.queryToDestructReplicaList.eraseIdx queryToDestructIdx
      queryToSerializeReplicaList := removeReplica lsr.replica c.queryToSerializeReplicaList
      constructedReplicaList := removeReplica lsr.replica c.constructedReplicaList
      queryToConstructReplicaList := c.queryToConstructReplicaList ++ [lsr] }

def onDoNotQueryDestruction (queryToDestructIdx : ℕ) (c : ConnectionRM3) : ConnectionRM3 :=
  { c with
    queryToDestructReplicaList := c.queryToDestructReplicaList.eraseIdx queryToDestructIdx }

/-! ### `AutoConstructByQuery` -/

/-- The loop that asks `QueryConstruction` of every replica. Each turn takes a record from the list
or passes it; `answers` are the answers by the number of turns that are left. -/
def queryConstructions (answers : ℕ → RM3ConstructionState) :
    ℕ → ℕ → ConnectionRM3 → ConnectionRM3
  | 0, _, c => c
  | turns + 1, index, c =>
    match answers turns with
    | .alreadyExistsRemotely =>
      queryConstructions answers turns index (c.onReplicaAlreadyExists referenceIndex index)
    | .alreadyExistsRemotelyDoNotConstruct =>
      queryConstructions answers turns index (c.onReplicaAlreadyExists referenceIndex index)
    | .sendConstruction =>
      queryConstructions answers turns index (c.onConstructToThisConnection referenceIndex index)
    | .neverConstruct => queryConstructions answers turns index (c.onNeverConstruct index)
    | .noAction => queryConstructions answers turns (index + 1) c

/-- The loop that asks `QueryDestruction`. -/
def queryDestructions (answers : ℕ → RM3DestructionState) :
    ℕ → ℕ → ConnectionRM3 → ConnectionRM3
  | 0, _, c => c
  | turns + 1, index, c =>
    match answers turns with
    | .sendDestruction =>
      queryDestructions answers turns index (c.onSendDestructionFromQuery index)
    | .doNotQueryDestruction =>
      queryDestructions answers turns index (c.onDoNotQueryDestruction index)
    | .noAction => queryDestructions answers turns (index + 1) c

/-- What becomes of a replica that `QueryReplicaList` wants to be destroyed. -/
def removeDestroyed (c : ConnectionRM3) (replica3 : ℕ) : ConnectionRM3 :=
  if (OrderedList.getIndexFromKey (replica3LSRComp referenceIndex) c.constructedReplicaList
      replica3).2 then
    { c with
      constructedReplicaList := removeConstructed referenceIndex replica3 c.constructedReplicaList
      queryToSerializeReplicaList := removeReplica replica3 c.queryToSerializeReplicaList }
  else c

/-- The replicas that `QueryReplicaList` wants to be created get records from `address` on. -/
def createReplicas : ℕ → List ℕ → ConnectionRM3 → ConnectionRM3
  | _, [], c => c
  | address, replica3 :: replicas, c =>
    createReplicas (address + 1) replicas
      (c.onConstructReplicaToThisConnection referenceIndex address replica3)

end Transitions

/-- The answers of the callbacks in `AutoConstructByQuery`. -/
structure QueryAnswers where
  queryConstruction : ℕ → RM3ConstructionState
  queryDestruction : ℕ → RM3DestructionState
  newReplicas : List ℕ
  destroyedReplicas : List ℕ

/-- The loop over `queryToDestructReplicaList`, after the one over
`queryToConstructReplicaList`. -/
def autoDestructByQuery (answers : QueryAnswers) (c : ConnectionRM3) : ConnectionRM3 :=
  if c.constructionMode = .queryReplicaForConstructionAndDestruction then
    queryDestructions answers.queryDestruction c.queryToDestructReplicaList.length 0 c
  else c

def autoConstructByQuery (referenceIndex : ℕ → ℕ) (address : ℕ) (answers : QueryAnswers)
    (c : ConnectionRM3) : ConnectionRM3 :=
  if c.queriesReplicas then
    autoDestructByQuery answers (queryConstructions referenceIndex answers.queryConstruction
      c.queryToConstructReplicaList.length 0 c)
  else
    answers.destroyedReplicas.foldl (removeDestroyed referenceIndex)
      (createReplicas referenceIndex address answers.newReplicas c)

end ConnectionRM3

end SLikeNet
