import SLikeNet.ConnectionLists
import Mathlib.Logic.Function.Basic

/-! `ReplicaManager3` with its worlds, the replicas that they reference and their connections.
A replica and a record on the heap are told apart by the order in which they were allocated. The
answers of callbacks and of `GET_OBJECT_FROM_ID` are inputs. -/

namespace SLikeNet

/-- `(uint32_t)-1` -/
def unassignedReferenceIndex : ℕ := 4294967295

structure Replica3 where
  referenceIndex : ℕ
  worldId : ℕ
  hasReplicaManager : Bool
  hasNetworkIDManager : Bool
  alive : Bool
deriving DecidableEq

/-- The constructor `Replica3::Replica3`. -/
def Replica3.new : Replica3 := ⟨unassignedReferenceIndex, 0, false, false, true⟩

structure RM3World where
  userReplicaList : List ℕ
  connectionList : List ConnectionRM3
deriving DecidableEq

structure ReplicaManager3 where
  replica : ℕ → Replica3
  worldsArray : ℕ → RM3World
  nextReferenceIndex : ℕ
  nextReplica : ℕ
  nextAddress : ℕ

namespace ReplicaManager3

def start : ReplicaManager3 where
  replica := fun _ => { Replica3.new with alive := false }
  worldsArray := fun _ => ⟨[], []⟩
  nextReferenceIndex := 0
  nextReplica := 0
  nextAddress := 0

def userReplicaList (s : ReplicaManager3) (worldId : ℕ) : List ℕ :=
  (s.worldsArray worldId).userReplicaList

def connectionList (s : ReplicaManager3) (worldId : ℕ) : List ConnectionRM3 :=
  (s.worldsArray worldId).connectionList

def referenceIndex (s : ReplicaManager3) (replica3 : ℕ) : ℕ := (s.replica replica3).referenceIndex

def setReplica (replica3 : ℕ) (value : Replica3) (s : ReplicaManager3) : ReplicaManager3 :=
  { s with replica := Function.update s.replica replica3 value }

/-- Every connection of a world changes; the one at `j` may take the address at `j`. -/
def updateConnections (worldId : ℕ) (f : ℕ → ConnectionRM3 → ConnectionRM3)
    (s : ReplicaManager3) : ReplicaManager3 :=
  { s with
    worldsArray := Function.update s.worldsArray worldId
      ⟨s.userReplicaList worldId, (s.connectionList worldId).mapIdx f⟩
    nextAddress := s.nextAddress + (s.connectionList worldId).length }

def updateConnection (worldId index : ℕ) (f : ConnectionRM3 → ConnectionRM3)
    (s : ReplicaManager3) : ReplicaManager3 :=
  s.updateConnections worldId fun j c => if j = index then f c else c

/-- The user allocates a replica. -/
def newReplica (s : ReplicaManager3) : ReplicaManager3 :=
  { s with
    replica := Function.update s.replica s.nextReplica .new
    nextReplica := s.nextReplica + 1 }

def nextIndex (s : ReplicaManager3) (replica3 : ℕ) : ℕ :=
  if s.referenceIndex replica3 = unassignedReferenceIndex then
    (s.nextReferenceIndex + 1) % 4294967296
  else s.nextReferenceIndex

def assignedIndex (s : ReplicaManager3) (replica3 : ℕ) : ℕ :=
  if s.referenceIndex replica3 = unassignedReferenceIndex then s.nextReferenceIndex
  else s.referenceIndex replica3

def referenceInternal (replica3 worldId : ℕ) (s : ReplicaManager3) : ReplicaManager3 :=
  if replica3 ∈ s.userReplicaList worldId then s
  else
    { s with
      replica := Function.update s.replica replica3
        { s.replica replica3 with
          hasReplicaManager := true
          hasNetworkIDManager := true
          referenceIndex := s.assignedIndex replica3 }
      nextReferenceIndex := s.nextIndex replica3
      worldsArray := Function.update s.worldsArray worldId
        ⟨s.userReplicaList worldId ++ [replica3], s.connectionList worldId⟩ }

/-- `replica3->worldId = worldId` -/
def setWorldId (replica3 worldId : ℕ) (s : ReplicaManager3) : ReplicaManager3 :=
  s.setReplica replica3 { s.replica replica3 with worldId := worldId }

def reference (replica3 worldId : ℕ) (s : ReplicaManager3) : ReplicaManager3 :=
  let s' := (s.referenceInternal replica3 worldId).setWorldId replica3 worldId
  if replica3 ∈ s.userReplicaList worldId then s'
  else
    s'.updateConnections worldId fun j c =>
      if c.queriesReplicas then c.onLocalReference (s.nextAddress + j) replica3 else c

def dereference (replica3 worldId : ℕ) (s : ReplicaManager3) : ReplicaManager3 :=
  { s with
    worldsArray := Function.update s.worldsArray worldId
      ⟨(s.userReplicaList worldId).erase replica3,
        (s.connectionList worldId).map (ConnectionRM3.onDereference s.referenceIndex
          (s.replica replica3).hasNetworkIDManager replica3)⟩ }

/-- `Replica3::~Replica3` -/
def destroy (replica3 : ℕ) (s : ReplicaManager3) : ReplicaManager3 :=
  let s' :=
    if (s.replica replica3).hasReplicaManager then
      s.dereference replica3 (s.replica replica3).worldId
    else s
  s'.setReplica replica3 { s'.replica replica3 with alive := false }

/-- The new connection learns of the replicas of its world, whose records are at `address` on. -/
def referenceAll : ℕ → List ℕ → ConnectionRM3 → ConnectionRM3
  | _, [], c => c
  | address, replica3 :: replicas, c =>
    referenceAll (address + 1) replicas (c.onLocalReference address replica3)

def pushedConnection (s : ReplicaManager3) (worldId : ℕ) (constructionMode : ConstructionMode) :
    ConnectionRM3 :=
  if (ConnectionRM3.new constructionMode).queriesReplicas then
    referenceAll s.nextAddress (s.userReplicaList worldId) (.new constructionMode)
  else .new constructionMode

/-- `PushConnection` of a connection whose GUID is new. -/
def pushConnection (worldId : ℕ) (constructionMode : ConstructionMode) (s : ReplicaManager3) :
    ReplicaManager3 :=
  { s with
    worldsArray := Function.update s.worldsArray worldId
      ⟨s.userReplicaList worldId,
        s.connectionList worldId ++ [s.pushedConnection worldId constructionMode]⟩
    nextAddress := s.nextAddress + (s.userReplicaList worldId).length }

def autoConstructByQuery (worldId index : ℕ) (answers : ConnectionRM3.QueryAnswers)
    (s : ReplicaManager3) : ReplicaManager3 :=
  let s' := s.updateConnection worldId index
    (ConnectionRM3.autoConstructByQuery s.referenceIndex s.nextAddress answers)
  { s' with nextAddress := s'.nextAddress + answers.newReplicas.length }

def onNeverSerialize (worldId index : ℕ) (lsr : LastSerializationResult) (s : ReplicaManager3) :
    ReplicaManager3 :=
  s.updateConnection worldId index (ConnectionRM3.onNeverSerialize lsr)

/-! ### `OnConstruction` -/

/-- One entry of the construction list: what the packet says, whether its network id is that of a
replica, whether `AllocReplica` makes one, whether it is accepted, and whether `DeallocReplica`
deletes one that is not. -/
structure ConstructionEntry where
  actuallyCreateObject : Bool
  existingReplica : Option ℕ
  allocated : Bool
  accepted : Bool
  deallocated : Bool

/-- The replica that an entry makes is registered. -/
def ConstructionEntry.registers (entry : ConstructionEntry) : Bool :=
  entry.actuallyCreateObject && entry.existingReplica.isNone && entry.allocated && entry.accepted

/-- The existing replica whose id an entry that is to be created has. -/
def ConstructionEntry.existing (entry : ConstructionEntry) : Option ℕ :=
  if entry.actuallyCreateObject then entry.existingReplica else none

/-- `SetNetworkIDManager` and `replicaManager=this` for the replica that `AllocReplica` made. -/
def adoptReplica (replica3 : ℕ) (s : ReplicaManager3) : ReplicaManager3 :=
  s.setReplica replica3
    { s.replica replica3 with hasReplicaManager := true, hasNetworkIDManager := true }

/-- The first loop over the entries: the state, and the replicas that were registered. -/
def constructEntry (worldId index : ℕ) (r : ReplicaManager3 × List ℕ)
    (entry : ConstructionEntry) : ReplicaManager3 × List ℕ :=
  if entry.actuallyCreateObject then
    match entry.existingReplica with
    | some replica3 =>
      let s' := r.1.setReplica replica3 { r.1.replica replica3 with hasReplicaManager := true }
      (s'.updateConnection worldId index
        (ConnectionRM3.onDownloadExisting r.1.referenceIndex r.1.nextAddress replica3), r.2)
    | none =>
      if entry.allocated then
        let s' := r.1.newReplica.adoptReplica r.1.nextReplica
        if entry.accepted then
          (s'.referenceInternal r.1.nextReplica worldId, r.2 ++ [r.1.nextReplica])
        else if entry.deallocated then (s'.destroy r.1.nextReplica, r.2)
        else (s', r.2)
      else r
  else r

/-- The connections learn of a replica that was downloaded. -/
def announceDownload (worldId index : ℕ) (s : ReplicaManager3) (replica3 : ℕ) :
    ReplicaManager3 :=
  s.updateConnections worldId fun j c =>
    if j = index then
      c.onDownloadFromThisSystem s.referenceIndex (s.nextAddress + j) replica3
    else c.onDownloadFromOtherSystem (s.nextAddress + j) replica3

/-- One entry of the destruction list: the replica that has the network id, the answer of
`DeserializeDestruction` and whether it deleted the replica, and whether `DeallocReplica` does. -/
structure DestructionEntry where
  replica : Option ℕ
  deserialized : Bool
  deletedEarly : Bool
  deallocated : Bool

def destructEntry (worldId index : ℕ) (s : ReplicaManager3) (entry : DestructionEntry) :
    ReplicaManager3 :=
  match entry.replica with
  | none => s
  | some replica3 =>
    if entry.deserialized then
      if entry.deletedEarly then s.destroy replica3
      else
        let s' := s.dereference replica3 (s.replica replica3).worldId
        if entry.deallocated then s'.destroy replica3 else s'
    else
      s.updateConnection worldId index
        (ConnectionRM3.onDereference s.referenceIndex (s.replica replica3).hasNetworkIDManager
          replica3)

/-- A construction message of the connection at `index`. -/
def onConstruction (worldId index : ℕ) (constructions : List ConstructionEntry)
    (destructions : List DestructionEntry) (s : ReplicaManager3) : ReplicaManager3 :=
  let constructed := constructions.foldl (constructEntry worldId index) (s, [])
  destructions.foldl (destructEntry worldId index)
    (constructed.2.foldl (announceDownload worldId index) constructed.1)

inductive Operation
  | newReplica
  | reference (replica3 worldId : ℕ)
  | dereference (replica3 worldId : ℕ)
  | destroy (replica3 : ℕ)
  | pushConnection (worldId : ℕ) (constructionMode : ConstructionMode)
  | autoConstructByQuery (worldId index : ℕ) (answers : ConnectionRM3.QueryAnswers)
  | onNeverSerialize (worldId index : ℕ) (lsr : LastSerializationResult)
  | onConstruction (worldId index : ℕ) (constructions : List ConstructionEntry)
    (destructions : List DestructionEntry)

def perform (s : ReplicaManager3) : Operation → ReplicaManager3
  | .newReplica => s.newReplica
  | .reference replica3 worldId => s.reference replica3 worldId
  | .dereference replica3 worldId => s.dereference replica3 worldId
  | .destroy replica3 => s.destroy replica3
  | .pushConnection worldId constructionMode => s.pushConnection worldId constructionMode
  | .autoConstructByQuery worldId index answers => s.autoConstructByQuery worldId index answers
  | .onNeverSerialize worldId index lsr => s.onNeverSerialize worldId index lsr
  | .onConstruction worldId index constructions destructions =>
    s.onConstruction worldId index constructions destructions

end ReplicaManager3

end SLikeNet
