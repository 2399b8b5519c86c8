import SLikeNet.Library.IndexChains

/-! The systems that a peer is connected to or connecting with: `remoteSystemList`, the hash
table over it by address, and the list of the active ones. -/

namespace SLikeNet

/-- An IPv4 address and port; equality is that of `SystemAddress`. -/
structure SystemAddress where
  ip : UInt32
  port : UInt16
deriving DecidableEq

namespace SystemAddress

/-- `UNASSIGNED_SYSTEM_ADDRESS` -/
def unassigned : SystemAddress := ⟨0, 0⟩

def equalsExcludingPort (a b : SystemAddress) : Bool := decide (a.ip = b.ip)

end SystemAddress

structure RakNetGUID where
  g : UInt64
deriving DecidableEq

/-- `UNASSIGNED_RAKNET_GUID` -/
def RakNetGUID.unassigned : RakNetGUID := ⟨0xFFFFFFFFFFFFFFFF⟩

inductive ConnectMode
  | noAction
  | disconnectAsap
  | disconnectAsapSilently
  | disconnectOnNoAck
  | requestedConnection
  | handlingConnectionRequest
  | unverifiedSender
  | connected
deriving DecidableEq

structure PingAndClockDifferential where
  pingTime : UInt16
  clockDifferential : UInt64
deriving DecidableEq

/-- The MTU sizes that a connection attempt tries, largest first. -/
def mtuSizes : List ℕ := [1492, 1200, 576]

/-- `MAXIMUM_MTU_SIZE` -/
def maximumMtuSize : ℕ := 1492

/-- The last of `mtuSizes`. -/
def defaultMtuSize : ℕ := 576

/-- `PING_TIMES_ARRAY_SIZE` -/
abbrev pingTimesArraySize : ℕ := 5

structure RemoteSystemStruct where
  isActive : Bool
  systemAddress : SystemAddress
  guid : RakNetGUID
  mtuSize : ℕ
  connectMode : ConnectMode
  weInitiatedTheConnection : Bool
  connectionTime : ℕ
  pingAndClockDifferential : Fin pingTimesArraySize → PingAndClockDifferential
  pingAndClockDifferentialWriteIndex : Fin pingTimesArraySize

/-- What `Startup` fixes for the life of the peer. -/
structure PeerConfig where
  maximumNumberOfPeers : ℕ
  maximumIncomingConnections : ℕ
  incomingPassword : List UInt8
  limitConnectionFrequencyFromTheSameIP : Bool
  allowConnectionResponseIPMigration : Bool
  myGuid : RakNetGUID
  /-- The addresses of this machine, up to the first unassigned one. -/
  ipList : List SystemAddress
  /-- `SystemAddress::ToInteger` -/
  toInteger : SystemAddress → ℕ

/-- `REMOTE_SYSTEM_LOOKUP_HASH_MULTIPLE` -/
def remoteSystemLookupHashMultiple : ℕ := 8

def PeerConfig.remoteSystemLookupHashIndex (cfg : PeerConfig) (sa : SystemAddress) : ℕ :=
  cfg.toInteger sa % (cfg.maximumNumberOfPeers * remoteSystemLookupHashMultiple)

/-- The connection table. `activeSystemList` holds the entries below `activeSystemListSize`. -/
structure RemoteSystems where
  remoteSystemList : ℕ → RemoteSystemStruct
  remoteSystemLookup : ℕ → List ℕ
  activeSystemList : List ℕ
  firstExternalID : SystemAddress

namespace RemoteSystems

variable (cfg : PeerConfig)

def addressOf (s : RemoteSystems) (i : ℕ) : SystemAddress := (s.remoteSystemList i).systemAddress

def setRemoteSystem (s : RemoteSystems) (i : ℕ) (r : RemoteSystemStruct) : RemoteSystems :=
  { s with remoteSystemList := Function.update s.remoteSystemList i r }

/-- After `Startup`. -/
def initial : RemoteSystems where
  remoteSystemList _ :=
    { isActive := false
      systemAddress := .unassigned
      guid := .unassigned
      mtuSize := defaultMtuSize
      connectMode := .noAction
      weInitiatedTheConnection := false
      connectionTime := 0
      pingAndClockDifferential := fun _ => ⟨65535, 0⟩
      pingAndClockDifferentialWriteIndex := 0 }
  remoteSystemLookup _ := []
  activeSystemList := []
  firstExternalID := .unassigned

/-! ### The hash table -/

def getRemoteSystemIndex (s : RemoteSystems) (sa : SystemAddress) : Option ℕ :=
  IndexChains.lookup s.addressOf (s.remoteSystemLookup (cfg.remoteSystemLookupHashIndex sa)) sa

def dereferenceRemoteSystem (s : RemoteSystems) (sa : SystemAddress) : RemoteSystems :=
  { s with
    remoteSystemLookup :=
      Function.update s.remoteSystemLookup (cfg.remoteSystemLookupHashIndex sa)
        (IndexChains.unlink s.addressOf
          (s.remoteSystemLookup (cfg.remoteSystemLookupHashIndex sa)) sa) }

/-- The first part of `ReferenceRemoteSystem`: the reference by the old address goes if it
still points to this slot. -/
def dropOldReference (s : RemoteSystems) (remoteSystemListIndex : ℕ) : RemoteSystems :=
  if s.addressOf remoteSystemListIndex ≠ .unassigned ∧
      s.getRemoteSystemIndex cfg (s.addressOf remoteSystemListIndex) =
        some remoteSystemListIndex then
    s.dereferenceRemoteSystem cfg (s.addressOf remoteSystemListIndex)
  else s

def setSystemAddress (s : RemoteSystems) (i : ℕ) (sa : SystemAddress) : RemoteSystems :=
  s.setRemoteSystem i { s.remoteSystemList i with systemAddress := sa }

/-- The last part: a new reference at the end of the chain. -/
def appendReference (s : RemoteSystems) (sa : SystemAddress) (remoteSystemListIndex : ℕ) :
    RemoteSystems :=
  { s with
    remoteSystemLookup :=
      Function.update s.remoteSystemLookup (cfg.remoteSystemLookupHashIndex sa)
        (s.remoteSystemLookup (cfg.remoteSystemLookupHashIndex sa) ++ [remoteSystemListIndex]) }

def referenceRemoteSystem (s : RemoteSystems) (sa : SystemAddress) (remoteSystemListIndex : ℕ) :
    RemoteSystems :=
  (((s.dropOldReference cfg remoteSystemListIndex).dereferenceRemoteSystem cfg sa).setSystemAddress
    remoteSystemListIndex sa).appendReference cfg sa remoteSystemListIndex

/-! ### The active systems -/

def addToActiveSystemList (s : RemoteSystems) (remoteSystemListIndex : ℕ) : RemoteSystems :=
  { s with activeSystemList := s.activeSystemList ++ [remoteSystemListIndex] }

def removeFromActiveSystemList (s : RemoteSystems) (sa : SystemAddress) : RemoteSystems :=
  match s.activeSystemList.findIdx? fun i => decide (s.addressOf i = sa) with
  | some i => { s with activeSystemList := s.activeSystemList.swapRemove i }
  | none => s

/-- `GetRemoteSystemFromSystemAddress` in the network thread, active systems only. -/
def getRemoteSystemFromSystemAddress (s : RemoteSystems) (sa : SystemAddress) : Option ℕ :=
  if sa = .unassigned then none
  else
    match s.getRemoteSystemIndex cfg sa with
    | some i => if (s.remoteSystemList i).isActive then some i else none
    | none => none

/-- `GetRemoteSystemFromGUID`, active systems only. -/
def getRemoteSystemFromGUID (s : RemoteSystems) (guid : RakNetGUID) : Option ℕ :=
  if guid = .unassigned then none
  else
    (List.range cfg.maximumNumberOfPeers).find? fun i =>
      decide ((s.remoteSystemList i).guid = guid) && (s.remoteSystemList i).isActive

/-- The scan of the user thread: `GetIndexFromSystemAddress`, as far as active systems go. -/
def scanForActive (s : RemoteSystems) (sa : SystemAddress) : Option ℕ :=
  (List.range cfg.maximumNumberOfPeers).find? fun i =>
    (s.remoteSystemList i).isActive && decide (s.addressOf i = sa)

/-! ### Slots are taken and given back -/

/-- `IsLoopbackAddress(systemAddress, false)` -/
def isLoopbackAddress (s : RemoteSystems) (sa : SystemAddress) : Bool :=
  cfg.ipList.any (fun ip => ip.equalsExcludingPort sa) || sa.equalsExcludingPort s.firstExternalID

/-- An active system with the same IP address was connected less than 100 ms ago. -/
def thisIPConnectedRecently (s : RemoteSystems) (sa : SystemAddress) (time : ℕ) : Bool :=
  cfg.limitConnectionFrequencyFromTheSameIP && !s.isLoopbackAddress cfg sa &&
    (List.range cfg.maximumNumberOfPeers).any fun i =>
      (s.remoteSystemList i).isActive && (s.addressOf i).equalsExcludingPort sa &&
        decide (time ≥ (s.remoteSystemList i).connectionTime) &&
        decide (time - (s.remoteSystemList i).connectionTime < 100)

/-- What `AssignSystemAddressToRemoteSystemList` writes into the slot, next to the address. -/
def activate (s : RemoteSystems) (assignedIndex : ℕ) (connectionMode : ConnectMode)
    (incomingMTU : ℕ) (guid : RakNetGUID) (time : ℕ) : RemoteSystems :=
  s.setRemoteSystem assignedIndex
    { s.remoteSystemList assignedIndex with
      isActive := true
      guid := guid
      mtuSize := if incomingMTU > defaultMtuSize then incomingMTU else defaultMtuSize
      connectMode := connectionMode
      weInitiatedTheConnection := false
      connectionTime := time
      pingAndClockDifferential := fun _ => ⟨65535, 0⟩
      pingAndClockDifferentialWriteIndex := 0 }

/-- The outcome of `AssignSystemAddressToRemoteSystemList`. -/
inductive Assignment
  | connectedRecently
  | noFreeSlot
  | assigned (index : ℕ)
deriving DecidableEq

def assignSystemAddressToRemoteSystemList (s : RemoteSystems) (systemAddress : SystemAddress)
    (connectionMode : ConnectMode) (incomingMTU : ℕ) (guid : RakNetGUID) (time : ℕ) :
    Assignment × RemoteSystems :=
  if s.thisIPConnectedRecently cfg systemAddress time then (.connectedRecently, s)
  else
    match (List.range cfg.maximumNumberOfPeers).find? fun i => !(s.remoteSystemList i).isActive with
    | none => (.noFreeSlot, s)
    | some assignedIndex =>
      (.assigned assignedIndex,
        ((s.referenceRemoteSystem cfg systemAddress assignedIndex).activate assignedIndex
          connectionMode incomingMTU guid time).addToActiveSystemList assignedIndex)

def deactivate (s : RemoteSystems) (index : ℕ) : RemoteSystems :=
  s.setRemoteSystem index { s.remoteSystemList index with isActive := false, guid := .unassigned }

/-- `CloseConnectionInternal2` without a notification, performed immediately. -/
def closeConnectionImmediately (s : RemoteSystems) (target : SystemAddress) : RemoteSystems :=
  if target = .unassigned then s
  else
    match s.getRemoteSystemIndex cfg target with
    | none => s
    | some index =>
      if (s.remoteSystemList index).isActive then
        (s.removeFromActiveSystemList target).deactivate index
      else s

/-- `BCS_CHANGE_SYSTEM_ADDRESS` -/
def changeSystemAddress (s : RemoteSystems) (guid : RakNetGUID) (systemAddress : SystemAddress) :
    RemoteSystems :=
  match s.getRemoteSystemFromGUID cfg guid with
  | none => s
  | some i =>
    match s.getRemoteSystemIndex cfg (s.addressOf i) with
    | some existingSystemIndex => s.referenceRemoteSystem cfg systemAddress existingSystemIndex
    | none => s

end RemoteSystems

end SLikeNet
