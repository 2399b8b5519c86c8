import SLikeNet.MessageBytes

/-! `ReplicaManager3` on the packets of one connection, between `RakPeer::Receive`, which takes
them from `packetReturnQueue`, and the objects they are for. A packet of another connection, which
may be pushed back too, is one that this connection passes on. -/

namespace SLikeNet

namespace MessageID

def replicaManagerConstruction : UInt8 := 39
def replicaManagerSerialize : UInt8 := 41
def replicaManagerDownloadStarted : UInt8 := 42
def replicaManagerDownloadComplete : UInt8 := 43

end MessageID

/-- `passes` counts how often `Receive` has taken the packet from the queue, which nothing in the
code knows. -/
structure ReplicaPacket where
  data : List UInt8
  wasGeneratedLocally : Bool
  passes : ℕ

inductive RM3AuthorityMode
  | none
  | localAuthority
  | remoteAuthority

/-- What does not change while a connection lasts; `isAuthority` if its system is the authority. -/
structure ConnectionSettings where
  worldId : UInt8
  authorityMode : RM3AuthorityMode
  isAuthority : Bool
  queryGroupDownloadMessages : Bool

/-- What the objects get of a packet. -/
inductive ReplicaUpdate
  | construction (packetData : List UInt8) (packetDataOffset : ℕ)
  | serialize (packetData : List UInt8) (timestamp : ℕ) (packetDataOffset : ℕ)
deriving DecidableEq

/-- `firstDifferentials` are the clock differentials by which packets were shifted when they were
taken from the queue for the first time; nothing in the code keeps them. -/
structure ReplicaConnection where
  packetReturnQueue : List ReplicaPacket
  groupConstructionAndSerialize : Bool
  downloadGroup : List ReplicaPacket
  gotDownloadComplete : Bool
  processed : List ReplicaUpdate
  firstDifferentials : List UInt64

/-- The handler that `OnReceive` calls, with the offset of the packet's data. -/
inductive ReplicaHandler
  | continueProcessing
  | stopProcessingAndDeallocate
  | onConstruction (packetDataOffset : ℕ)
  | onSerialize (packetDataOffset : ℕ)
  | onDownloadStarted (packetDataOffset : ℕ)
  | onDownloadComplete (packetDataOffset : ℕ)
deriving DecidableEq

/-- The time at the start of a timestamped packet. -/
def encodedTimestamp (data : List UInt8) : ℕ := ofBytes ((data.drop 1).take 8)

/-- `Receive` shifts the timestamp of every packet that is long enough to have one. -/
def shiftIncomingTimestamp (differential : UInt64) (data : List UInt8) : List UInt8 :=
  if 9 ≤ data.length ∧ data.getD 0 0 = MessageID.timestamp then
    data.take 1 ++ toBytes 8 (UInt64.ofNat (encodedTimestamp data) - differential).toNat ++
      data.drop 9
  else data

namespace ReplicaPacket

def take (packet : ReplicaPacket) (differential : UInt64) : ReplicaPacket :=
  { packet with
    data := shiftIncomingTimestamp differential packet.data
    passes := packet.passes + 1 }

def handler (worldId : UInt8) (packet : ReplicaPacket) (packetIdentifier incomingWorldId : UInt8)
    (packetDataOffset : ℕ) : ReplicaHandler :=
  if incomingWorldId ≠ worldId then .continueProcessing
  else if packetIdentifier = MessageID.replicaManagerConstruction then
    .onConstruction packetDataOffset
  else if packetIdentifier = MessageID.replicaManagerSerialize then .onSerialize packetDataOffset
  else if packetIdentifier = MessageID.replicaManagerDownloadStarted then
    if packet.wasGeneratedLocally then .continueProcessing else .onDownloadStarted packetDataOffset
  else if packetIdentifier = MessageID.replicaManagerDownloadComplete then
    if packet.wasGeneratedLocally then .continueProcessing
    else .onDownloadComplete packetDataOffset
  else .continueProcessing

/-- `OnReceive` up to the call of the handler. -/
def onReceive (worldId : UInt8) (packet : ReplicaPacket) : ReplicaHandler :=
  if packet.data.length < 2 then .continueProcessing
  else if packet.data.getD 0 0 = MessageID.timestamp then
    if packet.data.length > 10 then
      packet.handler worldId (packet.data.getD 9 0) (packet.data.getD 10 0) 11
    else .stopProcessingAndDeallocate
  else packet.handler worldId (packet.data.getD 0 0) (packet.data.getD 1 0) 2

/-- The timestamp that `OnReceive` hands on, zero where the packet has none. -/
def timestamp (packet : ReplicaPacket) : ℕ :=
  if packet.data.getD 0 0 = MessageID.timestamp then encodedTimestamp packet.data else 0

end ReplicaPacket

namespace ConnectionSettings

/-- Constructions that `SetAuthorityMode` has rejected before anything else is looked at. -/
def rejectsConstruction (settings : ConnectionSettings) : Bool :=
  match settings.authorityMode with
  | .none => false
  | .localAuthority => true
  | .remoteAuthority => !settings.isAuthority

/-- What the objects get of a packet that is not held. -/
def update (settings : ConnectionSettings) (packet : ReplicaPacket) : Option ReplicaUpdate :=
  match packet.onReceive settings.worldId with
  | .onConstruction offset =>
    if settings.rejectsConstruction then none else some (.construction packet.data offset)
  | .onSerialize offset => some (.serialize packet.data packet.timestamp offset)
  | _ => none

end ConnectionSettings

namespace ReplicaConnection

/-- `OnConstruction` and `OnSerialize` hold the packets of a download that goes on. -/
def onUpdate (connection : ReplicaConnection) (packet : ReplicaPacket) (update : ReplicaUpdate) :
    ReplicaConnection :=
  if connection.groupConstructionAndSerialize then
    { connection with downloadGroup := connection.downloadGroup ++ [packet] }
  else { connection with processed := connection.processed ++ [update] }

def onConstruction (connection : ReplicaConnection) (settings : ConnectionSettings)
    (packet : ReplicaPacket) (packetDataOffset : ℕ) : ReplicaConnection :=
  if settings.rejectsConstruction then connection
  else connection.onUpdate packet (.construction packet.data packetDataOffset)

def onSerialize (connection : ReplicaConnection) (packet : ReplicaPacket)
    (packetDataOffset : ℕ) : ReplicaConnection :=
  connection.onUpdate packet (.serialize packet.data packet.timestamp packetDataOffset)

def onDownloadStarted (connection : ReplicaConnection) (settings : ConnectionSettings)
    (packet : ReplicaPacket) : ReplicaConnection :=
  if settings.queryGroupDownloadMessages ∧ connection.groupConstructionAndSerialize = false then
    { connection with
      groupConstructionAndSerialize := true
      downloadGroup := connection.downloadGroup ++ [packet] }
  else { connection with groupConstructionAndSerialize := false }

/-- `PushBackPacket` with `pushAtHead` false. -/
def onDownloadComplete (connection : ReplicaConnection) (packet : ReplicaPacket) :
    ReplicaConnection :=
  if connection.groupConstructionAndSerialize ∧ connection.downloadGroup ≠ [] then
    { connection with
      packetReturnQueue := connection.packetReturnQueue ++ connection.downloadGroup ++ [packet]
      downloadGroup := [] }
  else { connection with gotDownloadComplete := true }

/-- The plugin's answer to a packet that `Receive` has taken from the queue. -/
def onReceive (connection : ReplicaConnection) (settings : ConnectionSettings)
    (packet : ReplicaPacket) : ReplicaConnection :=
  match packet.onReceive settings.worldId with
  | .continueProcessing | .stopProcessingAndDeallocate => connection
  | .onConstruction offset => connection.onConstruction settings packet offset
  | .onSerialize offset => connection.onSerialize packet offset
  | .onDownloadStarted _ => connection.onDownloadStarted settings packet
  | .onDownloadComplete _ => connection.onDownloadComplete packet

/-- The rest of the queue is left, and the clock differentials of the packets taken so far. -/
def pop (connection : ReplicaConnection) (packets : List ReplicaPacket)
    (differentials : List UInt64) : ReplicaConnection :=
  { connection with packetReturnQueue := packets, firstDifferentials := differentials }

/-- One round of the loop in `Receive`, where `GetBestClockDifferential` answers `differential`. -/
def receive (settings : ConnectionSettings) (connection : ReplicaConnection)
    (differential : UInt64) : ReplicaConnection :=
  match connection.packetReturnQueue with
  | [] => connection
  | packet :: packets =>
    (connection.pop packets
      (if packet.passes = 0 then connection.firstDifferentials ++ [differential]
        else connection.firstDifferentials)).onReceive settings (packet.take differential)

end ReplicaConnection

/-- A packet comes in, or `Receive` takes one from the queue. -/
inductive ReplicaInput
  | arrive (data : List UInt8) (wasGeneratedLocally : Bool)
  | receive (differential : UInt64)

namespace ReplicaConnection

def step (settings : ConnectionSettings) (connection : ReplicaConnection) :
    ReplicaInput → ReplicaConnection
  | .arrive data wasGeneratedLocally =>
    { connection with
      packetReturnQueue := connection.packetReturnQueue ++ [⟨data, wasGeneratedLocally, 0⟩] }
  | .receive differential => connection.receive settings differential

/-- `Connection_RM3` as its constructor leaves it. -/
def new : ReplicaConnection := ⟨[], false, [], false, [], []⟩

def run (settings : ConnectionSettings) (inputs : List ReplicaInput) : ReplicaConnection :=
  inputs.foldl (step settings) new

end ReplicaConnection

end SLikeNet
