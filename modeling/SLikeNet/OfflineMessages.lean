import SLikeNet.RakPeer

/-! `ProcessOfflineNetworkPacket`: datagrams that do not go through a reliability layer. Next to
what each of them does, the model keeps the places of the datagram that are read without a
stream, and the fields that are used although the datagram ends before them. -/

namespace SLikeNet

/-- A datagram in the buffer that it was received into. -/
structure Datagram where
  data : List UInt8
  /-- What the buffer holds behind the datagram. -/
  beyond : ℕ → UInt8
  pos : 0 < data.length

namespace Datagram

def length (d : Datagram) : ℕ := d.data.length

def byte (d : Datagram) (i : ℕ) : UInt8 := d.data.getD i (d.beyond (i - d.length))

/-- The identifier of the message. -/
def id (d : Datagram) : UInt8 := d.byte 0

/-- The bytes of the buffer that start at an offset, as `memcmp` and `memcpy` see them. -/
def bytesFrom (d : Datagram) (offset n : ℕ) : List UInt8 :=
  (List.range n).map fun i => d.byte (offset + i)

/-- `memcmp` with `OFFLINE_MESSAGE_DATA_ID`, and the offsets it reads. -/
def compareAt (d : Datagram) (offset : ℕ) : Bool × List ℕ :=
  (decide (d.bytesFrom offset 16 = offlineMessageDataId), List.range' offset 16)

/-- The identifiers of the messages that carry `OFFLINE_MESSAGE_DATA_ID` right behind them. -/
def offlineIds : List UInt8 :=
  [MessageID.openConnectionReply1, MessageID.openConnectionReply2, MessageID.openConnectionRequest1,
    MessageID.openConnectionRequest2, MessageID.connectionAttemptFailed,
    MessageID.noFreeIncomingConnections, MessageID.connectionBanned, MessageID.alreadyConnected,
    MessageID.ipRecentlyConnected]

/-- `isOfflineMessage`, and the offsets that are read to find out. -/
def isOfflineMessage (d : Datagram) : Bool × List ℕ :=
  if d.length ≤ 2 then (true, [])
  else if (d.id = MessageID.unconnectedPing ∨ d.id = MessageID.unconnectedPingOpenConnections) ∧
      d.length ≥ 1 + 8 + 16 then
    d.compareAt (1 + 8)
  else if d.id = MessageID.unconnectedPong ∧ d.length ≥ 1 + 4 + 8 + 16 then
    d.compareAt (1 + 8 + 8)
  else if d.id = MessageID.outOfBandInternal ∧ d.length ≥ 1 + 8 + 16 then
    d.compareAt (1 + 8)
  else if d.id ∈ offlineIds ∧ d.length ≥ 1 + 8 + 16 then d.compareAt 1
  else if d.id = MessageID.incompatibleProtocolVersion ∧ d.length = 1 * 2 + 8 + 16 then
    d.compareAt (1 * 2)
  else (false, [])

end Datagram

/-- The fields of a datagram. -/
inductive OfflineField
  | guid
  | mtu
  | bindingAddress
  | securityFlag
  | cookie
  | protocolVersion
deriving DecidableEq

/-- The outcome of handling a datagram. -/
structure Handled where
  peer : RakPeer
  /-- The offsets of the datagram that are read without a stream. -/
  accessed : List ℕ
  /-- The fields that are used although their read failed. -/
  missing : List OfflineField

/-- What is known when a datagram arrives. -/
structure ReceiveEnv where
  timeMS : ℕ
  time : UInt64
  /-- What `IsBanned` says of the sender. -/
  isBanned : Bool
  offlinePingResponse : List UInt8
  uninitialised : Uninitialised

/-- The field is listed if its read failed. -/
def missingField {α : Type} (field : OfflineField) (read : Option α) : List OfflineField :=
  if read.isNone then [field] else []

def missingAddress (unread : Unread) : List OfflineField :=
  if addressCutOff unread then [.bindingAddress] else []

namespace RakPeer

variable (cfg : PeerConfig) (env : ReceiveEnv)

/-- A short answer of this peer to a system that is not connected. -/
def refuse (s : RakPeer) (systemAddress : SystemAddress) (id : UInt8) : RakPeer :=
  s.sendDatagram systemAddress (offlineHeader id ++ cfg.myGuid.bytes)

def unconnectedPing (s : RakPeer) (systemAddress : SystemAddress) (d : Datagram) : Handled :=
  if d.id = MessageID.unconnectedPing ∨ s.allowIncomingConnections cfg then
    let sendPingTime := readBytes 8 (d.data.drop 1)
    let remoteGuid := readUInt64 (sendPingTime.2.drop 16)
    let s := s.sendDatagram systemAddress
      ([MessageID.unconnectedPong] ++ sendPingTime.1.getD [] ++ cfg.myGuid.bytes ++
        offlineMessageDataId ++ env.offlinePingResponse)
    ⟨s.addPacketToProducer
        ⟨[d.id], systemAddress, s.systems.getRemoteSystemIndex cfg systemAddress,
          (readGuid (sendPingTime.2.drop 16)).1⟩, [],
      missingField .guid remoteGuid.1⟩
  else ⟨s, [], []⟩

/-- `MAX_OFFLINE_DATA_LENGTH` -/
def maxOfflineDataLength : ℕ := 400

def unconnectedPong (s : RakPeer) (systemAddress : SystemAddress) (d : Datagram) : Handled :=
  let ping := readBytes 8 (d.data.drop 1)
  let rest := d.length - 1 - 8 - 8 - 16
  -- The time is cut to the four bytes of a `TimeMS`.
  let data := [MessageID.unconnectedPong] ++ (ping.1.getD []).drop 4 ++
    d.bytesFrom (1 + 8 + 8 + 16) rest
  ⟨s.addPacketToProducer
      ⟨data, systemAddress, s.systems.getRemoteSystemIndex cfg systemAddress, (readGuid ping.2).1⟩,
    List.range' (1 + 8 + 8 + 16) rest,
    missingField .guid (readUInt64 ping.2).1⟩

def outOfBandInternal (s : RakPeer) (systemAddress : SystemAddress) (d : Datagram) : Handled :=
  let dataLength := d.length - 16 - 8 - 1
  let data :=
    if d.byte (16 + 1 + 8) = MessageID.advertiseSystem then
      [MessageID.advertiseSystem] ++ d.bytesFrom (16 + 1 * 2 + 8) (dataLength - 1)
    else [MessageID.outOfBandInternal] ++ d.bytesFrom (16 + 1 + 8) dataLength
  ⟨s.addPacketToProducer
      ⟨data, systemAddress, s.systems.getRemoteSystemIndex cfg systemAddress,
        (readGuid (d.data.drop 1)).1⟩,
    (16 + 1 + 8) :: List.range' (16 + 1 + 8) dataLength,
    missingField .guid (readUInt64 (d.data.drop 1)).1⟩

def openConnectionReply1 (s : RakPeer) (systemAddress : SystemAddress) (d : Datagram) : Handled :=
  let serverGuid := readGuid (d.data.drop (1 + 16))
  let security := readUInt8 serverGuid.2
  let serverHasSecurity := security.1.getD env.uninitialised.serverHasSecurity
  let cookie := if serverHasSecurity ≠ 0 then readUInt32 security.2 else (none, security.2)
  let mtu := readUInt16 cookie.2
  match s.requested systemAddress with
  | none => ⟨s, [], missingField .securityFlag security.1⟩
  | some rcs =>
    ⟨s.sendDatagram systemAddress
        (offlineHeader MessageID.openConnectionRequest2 ++
          (if serverHasSecurity ≠ 0 then
            toBytes 4 (cookie.1.getD env.uninitialised.cookie).toNat ++ [0] else []) ++
          rcs.systemAddress.bytes ++ toBytes 2 (mtu.1.getD env.uninitialised.mtu).toNat ++
          cfg.myGuid.bytes),
      [],
      missingField .securityFlag security.1 ++
        (if serverHasSecurity ≠ 0 then missingField .cookie cookie.1 else []) ++
        missingField .mtu mtu.1⟩

/-- `ID_CONNECTION_REQUEST` to the system in a slot, which we asked for. -/
def sendConnectionRequestTo (s : RakPeer) (i : ℕ) (rcs : RequestedConnectionStruct)
    (systemAddress : SystemAddress) : RakPeer :=
  (s.modifyRemoteSystem i fun r =>
      { r with weInitiatedTheConnection := true, connectMode := .requestedConnection }).sendImmediate
    cfg systemAddress
    ([MessageID.connectionRequest] ++ cfg.myGuid.bytes ++ toBytes 8 env.time.toNat ++ [0] ++
      rcs.outgoingPassword)

def openConnectionReply2 (s : RakPeer) (systemAddress : SystemAddress) (d : Datagram) : Handled :=
  let guid := readGuid (d.data.drop (1 + 16))
  let bindingAddress := readSystemAddress env.uninitialised guid.2
  let mtu := readUInt16 bindingAddress.2.2
  let missingGuid := missingField .guid (readUInt64 (d.data.drop (1 + 16))).1
  match s.requested systemAddress with
  | none => ⟨s, [], []⟩
  | some rcs =>
    match s.systems.getRemoteSystemFromSystemAddress cfg systemAddress with
    | some i =>
      -- Both systems connect to each other: whatever mode the slot is in.
      ⟨(s.sendConnectionRequestTo cfg env i rcs systemAddress).removeRequest systemAddress, [], []⟩
    | none =>
      match s.systems.assignSystemAddressToRemoteSystemList cfg systemAddress .unverifiedSender
          (mtu.1.getD env.uninitialised.mtu).toNat guid.1 env.timeMS with
      | (.connectedRecently, systems) =>
        -- Nothing is sent, and the user is not told.
        ⟨{ s with systems := systems }.removeRequest systemAddress, [], []⟩
      | (.noFreeSlot, systems) =>
        ⟨({ s with systems := systems }.addPacketToProducer
            ⟨[MessageID.connectionAttemptFailed], rcs.systemAddress, none, guid.1⟩).removeRequest
            systemAddress, [], missingGuid⟩
      | (.assigned i, systems) =>
        ⟨({ s with systems := systems }.sendConnectionRequestTo cfg env i rcs
            systemAddress).removeRequest systemAddress, [],
          missingGuid ++ missingAddress guid.2 ++ missingField .mtu mtu.1⟩

def connectionFailureReply (s : RakPeer) (systemAddress : SystemAddress) (d : Datagram) : Handled :=
  let unread := d.data.drop (1 + 16 +
    (if d.id = MessageID.incompatibleProtocolVersion then 1 else 0))
  match s.requested systemAddress with
  | none => ⟨s, [], []⟩
  | some _ =>
    ⟨(s.removeRequest systemAddress).addPacketToProducer
        ⟨[d.id], systemAddress, none, (readGuid unread).1⟩, [],
      missingField .guid (readUInt64 unread).1⟩

def openConnectionRequest1 (s : RakPeer) (systemAddress : SystemAddress) (d : Datagram) : Handled :=
  if d.byte (1 + 16) ≠ raknetProtocolVersion then
    ⟨s.sendDatagram systemAddress
        ([MessageID.incompatibleProtocolVersion, raknetProtocolVersion] ++ offlineMessageDataId ++
          cfg.myGuid.bytes), [1 + 16], []⟩
  else
    ⟨s.sendDatagram systemAddress
        (offlineHeader MessageID.openConnectionReply1 ++ cfg.myGuid.bytes ++ [0] ++
          toBytes 2 (if d.length + udpHeaderSize > maximumMtuSize then maximumMtuSize
            else d.length + udpHeaderSize)), [1 + 16], []⟩

/-- How an `ID_OPEN_CONNECTION_REQUEST_2` is answered. -/
inductive RequestOutcome
  | allowConnection
  | replyAgain
  | alreadyConnected
deriving DecidableEq

def requestOutcome (s : RakPeer) (rssFromSA rssFromGuid : Option ℕ) : RequestOutcome :=
  match rssFromSA, rssFromGuid with
  | some i, some j =>
    if i = j ∧ (s.remoteSystem i).connectMode = .unverifiedSender then .replyAgain
    else .alreadyConnected
  | none, some _ => .alreadyConnected
  | some _, none => .alreadyConnected
  | none, none => .allowConnection

/-- `ID_OPEN_CONNECTION_REPLY_2` -/
def sendOpenConnectionReply2 (s : RakPeer) (systemAddress : SystemAddress) (mtu : UInt16) :
    RakPeer :=
  s.sendDatagram systemAddress
    (offlineHeader MessageID.openConnectionReply2 ++ cfg.myGuid.bytes ++ systemAddress.bytes ++
      toBytes 2 mtu.toNat ++ [0])

def openConnectionRequest2 (s : RakPeer) (systemAddress : SystemAddress) (d : Datagram) : Handled :=
  let bindingAddress := readSystemAddress env.uninitialised (d.data.drop (1 + 16))
  let mtuRead := readUInt16 bindingAddress.2.2
  let mtu := mtuRead.1.getD env.uninitialised.mtu
  let guid := readGuid mtuRead.2
  let missingGuid := missingField .guid (readUInt64 mtuRead.2).1
  let missingMtu := missingField .mtu mtuRead.1
  match s.requestOutcome (s.systems.getRemoteSystemFromSystemAddress cfg systemAddress)
      (s.systems.getRemoteSystemFromGUID cfg guid.1) with
  | .replyAgain =>
    ⟨s.sendOpenConnectionReply2 cfg systemAddress mtu, [], missingGuid ++ missingMtu⟩
  | .alreadyConnected => ⟨s.refuse cfg systemAddress MessageID.alreadyConnected, [], missingGuid⟩
  | .allowConnection =>
    if s.allowIncomingConnections cfg then
      match s.systems.assignSystemAddressToRemoteSystemList cfg systemAddress .unverifiedSender
          mtu.toNat guid.1 env.timeMS with
      | (.connectedRecently, systems) =>
        ⟨{ s with systems := systems }.refuse cfg systemAddress MessageID.ipRecentlyConnected, [],
          missingGuid⟩
      | (.noFreeSlot, systems) =>
        -- The answer is the same as where a slot was free.
        ⟨{ s with systems := systems }.sendOpenConnectionReply2 cfg systemAddress mtu, [],
          missingGuid ++ missingMtu⟩
      | (.assigned _, systems) =>
        ⟨{ s with systems := systems }.sendOpenConnectionReply2 cfg systemAddress mtu, [],
          missingGuid ++ missingMtu ++ missingAddress (d.data.drop (1 + 16))⟩
    else
      ⟨s.refuse cfg systemAddress MessageID.noFreeIncomingConnections, [], missingGuid⟩

/-- The identifiers of the messages that end a connection attempt. -/
def connectionFailureIds : List UInt8 :=
  [MessageID.connectionAttemptFailed, MessageID.noFreeIncomingConnections,
    MessageID.connectionBanned, MessageID.alreadyConnected, MessageID.invalidPassword,
    MessageID.ipRecentlyConnected, MessageID.incompatibleProtocolVersion]

/-- An offline message, by its kind. -/
def processOfflineMessage (s : RakPeer) (systemAddress : SystemAddress) (d : Datagram) : Handled :=
  if (d.id = MessageID.unconnectedPingOpenConnections ∨ d.id = MessageID.unconnectedPing) ∧
      d.length ≥ 1 + 8 + 16 then
    s.unconnectedPing cfg env systemAddress d
  else if d.id = MessageID.unconnectedPong ∧ d.length ≥ 1 + 8 + 8 + 16 ∧
      d.length < 1 + 8 + 8 + 16 + maxOfflineDataLength then
    s.unconnectedPong cfg systemAddress d
  else if d.id = MessageID.outOfBandInternal ∧ d.length > 16 + 1 + 8 ∧
      d.length < maxOfflineDataLength + 16 + 1 + 8 then
    s.outOfBandInternal cfg systemAddress d
  else if d.id = MessageID.openConnectionReply1 then
    s.openConnectionReply1 cfg env systemAddress d
  else if d.id = MessageID.openConnectionReply2 then
    s.openConnectionReply2 cfg env systemAddress d
  else if d.id ∈ connectionFailureIds then s.connectionFailureReply systemAddress d
  else if d.id = MessageID.openConnectionRequest1 ∧ d.length > 1 + 16 then
    s.openConnectionRequest1 cfg systemAddress d
  else if d.id = MessageID.openConnectionRequest2 then
    s.openConnectionRequest2 cfg env systemAddress d
  else ⟨s, [], []⟩

/-- Whether the datagram was handled here, and what came of it. -/
def processOfflineNetworkPacket (s : RakPeer) (systemAddress : SystemAddress) (d : Datagram) :
    Bool × Handled :=
  if env.isBanned then (true, ⟨s.refuse cfg systemAddress MessageID.connectionBanned, [], []⟩)
  else if d.isOfflineMessage.1 then
    let h := s.processOfflineMessage cfg env systemAddress d
    (true, { h with accessed := 0 :: d.isOfflineMessage.2 ++ h.accessed })
  else (false, ⟨s, 0 :: d.isOfflineMessage.2, []⟩)

end RakPeer

end SLikeNet
