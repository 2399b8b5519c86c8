import SLikeNet.OfflineMessages

/-! `RunUpdateCycle`: the queue of requested connections, the failure conditions of the active
systems, and the messages that their reliability layers deliver; and the peer as a whole, one
input after the other. -/

namespace SLikeNet

/-- What `Send` makes of an `ID_OPEN_CONNECTION_REQUEST_1`: an error for its size, a send that
takes more than 100 ms, or neither. -/
inductive SendOutcome
  | sent
  | tooLarge
  | slow
deriving DecidableEq

/-- What is known of a slot when it is updated: the clock, the answers of its reliability
layer, and whether it is time to ping. -/
structure UpdateEnv where
  timeMS : ℕ
  time : UInt64
  isDeadConnection : Bool
  isOutgoingDataWaiting : Bool
  areAcksWaiting : Bool
  ackTimeout : Bool
  isTimeToPing : Bool

/-- What is known when a message is delivered. -/
structure MessageEnv where
  time : UInt64
  uninitialised : Uninitialised

namespace RakPeer

variable (cfg : PeerConfig)

/-! ### Requested connections -/

/-- What is left of a request, what the user is told and what is sent. -/
structure ProcessedRequest where
  kept : Option RequestedConnectionStruct
  packets : List UserPacket
  sent : List Sent

def mtuSizeIndex (rcs : RequestedConnectionStruct) : ℕ :=
  if rcs.requestsMade / (rcs.sendConnectionAttemptCount / mtuSizes.length) ≥ mtuSizes.length then
    mtuSizes.length - 1
  else rcs.requestsMade / (rcs.sendConnectionAttemptCount / mtuSizes.length)

def openConnectionRequest1Data (mtuSizeIndex : ℕ) : List UInt8 :=
  let data := offlineHeader MessageID.openConnectionRequest1 ++ [raknetProtocolVersion]
  data ++ List.replicate (mtuSizes.getD mtuSizeIndex 0 - udpHeaderSize - data.length) 0

def afterRequest (rcs : RequestedConnectionStruct) (timeMS : ℕ) :
    SendOutcome → RequestedConnectionStruct
  | .sent =>
    { rcs with
      requestsMade := (rcs.requestsMade + 1) % 256
      nextRequestTime := (timeMS + rcs.timeBetweenSendConnectionAttemptsMS) % 2 ^ 32 }
  | .tooLarge =>
    { rcs with
      requestsMade :=
        (mtuSizeIndex rcs + 1) * (rcs.sendConnectionAttemptCount / mtuSizes.length) % 256
      nextRequestTime := timeMS }
  | .slow =>
    let lowestMtuIndex :=
      rcs.sendConnectionAttemptCount / mtuSizes.length * (mtuSizes.length - 1)
    if lowestMtuIndex < 2 ^ 31 ∧ lowestMtuIndex > (rcs.requestsMade + 1) % 256 then
      { rcs with requestsMade := lowestMtuIndex % 256, nextRequestTime := timeMS }
    else
      { rcs with
        requestsMade := (rcs.sendConnectionAttemptCount + 1) % 256
        nextRequestTime := (timeMS + rcs.timeBetweenSendConnectionAttemptsMS) % 2 ^ 32 }

def processRequest (timeMS : ℕ) (outcome : SendOutcome) (rcs : RequestedConnectionStruct) :
    ProcessedRequest :=
  if rcs.nextRequestTime < timeMS then
    let condition1 := decide (rcs.requestsMade = (rcs.sendConnectionAttemptCount + 1) % 2 ^ 32)
    let condition2 := decide (rcs.systemAddress = .unassigned)
    if condition1 || condition2 then
      ⟨none,
        if condition1 && !condition2 then
          [⟨[MessageID.connectionAttemptFailed], rcs.systemAddress, none, .unassigned⟩]
        else [], []⟩
    else
      ⟨some (afterRequest rcs timeMS outcome), [],
        [.datagram rcs.systemAddress (openConnectionRequest1Data (mtuSizeIndex rcs))]⟩
  else ⟨some rcs, [], []⟩

/-- The loop over `requestedConnectionQueue`. -/
def requestConnections (s : RakPeer) (timeMS : ℕ) (outcome : SystemAddress → SendOutcome) :
    RakPeer :=
  let processed := s.requestedConnectionQueue.map fun rcs =>
    processRequest timeMS (outcome rcs.systemAddress) rcs
  { s with
    requestedConnectionQueue := processed.filterMap ProcessedRequest.kept
    packets := s.packets ++ (processed.map ProcessedRequest.packets).flatten
    sent := s.sent ++ (processed.map ProcessedRequest.sent).flatten }

/-! ### Failure conditions -/

def failed (env : UpdateEnv) (r : RemoteSystemStruct) : Bool :=
  env.isDeadConnection ||
    ((decide (r.connectMode = .disconnectAsap) || decide (r.connectMode = .disconnectAsapSilently)) &&
      !env.isOutgoingDataWaiting) ||
    (decide (r.connectMode = .disconnectOnNoAck) && (!env.areAcksWaiting || env.ackTimeout)) ||
    ((decide (r.connectMode = .requestedConnection) ||
        decide (r.connectMode = .handlingConnectionRequest) ||
        decide (r.connectMode = .unverifiedSender)) &&
      decide (env.timeMS > r.connectionTime) && decide (env.timeMS - r.connectionTime > 10000))

/-- What the user is told of a connection that failed, by its mode. -/
def failureMessage : ConnectMode → Option UInt8
  | .requestedConnection => some MessageID.connectionAttemptFailed
  | .connected => some MessageID.connectionLost
  | .disconnectAsap => some MessageID.disconnectionNotification
  | .disconnectOnNoAck => some MessageID.disconnectionNotification
  | .noAction | .disconnectAsapSilently | .handlingConnectionRequest | .unverifiedSender => none

def notifyFailure (s : RakPeer) (i : ℕ) : RakPeer :=
  match failureMessage (s.remoteSystem i).connectMode with
  | none => s
  | some id => s.addPacketToProducer (s.packetFrom i [id])

/-- The update of an active system, up to its messages. -/
def updateRemoteSystem (s : RakPeer) (i : ℕ) (env : UpdateEnv) : RakPeer :=
  if (s.remoteSystem i).isActive then
    if failed env (s.remoteSystem i) then
      (s.notifyFailure i).closeConnectionInternal cfg (s.remoteSystem i).systemAddress
    else if (s.remoteSystem i).connectMode = .connected ∧ env.isTimeToPing then
      s.pingInternal cfg (s.remoteSystem i).systemAddress env.time
    else s
  else s

/-! ### Messages -/

def ipListBytes : List UInt8 :=
  ((List.range maximumNumberOfInternalIds).map fun i =>
    (cfg.ipList.getD i .unassigned).bytes).flatten

def onConnectionRequest (s : RakPeer) (i : ℕ) (incomingTimestamp time : UInt64) : RakPeer :=
  let systemAddress := (s.remoteSystem i).systemAddress
  s.sendImmediate cfg systemAddress
    ([MessageID.connectionRequestAccepted] ++ systemAddress.bytes ++
      toBytes 2 ((s.systems.getRemoteSystemIndex cfg systemAddress).getD 65535) ++ ipListBytes cfg ++
      toBytes 8 incomingTimestamp.toNat ++ toBytes 8 time.toNat)

def parseConnectionRequestPacket (s : RakPeer) (i : ℕ) (data : List UInt8) (env : MessageEnv) :
    RakPeer :=
  let incomingTimestamp := readUInt64 (readGuid (data.drop 1)).2
  match incomingTimestamp.1 with
  | none => s
  | some timestamp =>
    -- The password is what follows the security flag.
    if (readUInt8 incomingTimestamp.2).2 = cfg.incomingPassword then
      (s.setConnectMode i .handlingConnectionRequest).onConnectionRequest cfg i timestamp env.time
    else
      (s.sendImmediate cfg (s.remoteSystem i).systemAddress
        (MessageID.invalidPassword :: cfg.myGuid.bytes)).setConnectMode i .disconnectAsapSilently

/-- An `ID_CONNECTION_REQUEST` from a system that is past the request: the timestamp is looked
for behind an `OFFLINE_MESSAGE_DATA_ID`, which the message does not have. -/
def replyToConnectionRequest (s : RakPeer) (i : ℕ) (data : List UInt8) (env : MessageEnv) :
    RakPeer :=
  s.onConnectionRequest cfg i
    ((readUInt64 (data.drop (1 + 16 + 8))).1.getD env.uninitialised.incomingTimestamp) env.time

def setFirstExternalID (s : RakPeer) (sa : SystemAddress) : RakPeer :=
  if s.systems.firstExternalID = .unassigned then
    { s with systems := { s.systems with firstExternalID := sa } }
  else s

/-- `sendPingTime` and `sendPongTime`. -/
def readTimes (u : Uninitialised) (unread : Unread) : UInt64 × UInt64 :=
  let ping := readUInt64 unread
  (ping.1.getD u.sendPingTime, (readUInt64 ping.2).1.getD u.sendPongTime)

def newIncomingTimes (data : List UInt8) (u : Uninitialised) : UInt64 × UInt64 :=
  readTimes u (skipInternalIds u (readSystemAddress u (data.drop 1)).2.2)

/-- `ID_NEW_INCOMING_CONNECTION`, which completes a handshake that the other system began. -/
def newIncomingConnection (s : RakPeer) (i : ℕ) (data : List UInt8) (env : MessageEnv) : RakPeer :=
  let times := newIncomingTimes data env.uninitialised
  let s := ((s.setConnectMode i .connected).pingInternal cfg (s.remoteSystem i).systemAddress
    env.time).modifyRemoteSystem i (onConnectedPong times.1 times.2 env.time)
  let s := s.setFirstExternalID (readSystemAddress env.uninitialised (data.drop 1)).2.1
  s.addPacketToProducer (s.packetFrom i data)

def acceptedTimes (data : List UInt8) (u : Uninitialised) : UInt64 × UInt64 :=
  readTimes u (skipInternalIds u (readUInt16 (readSystemAddress u (data.drop 1)).2.2).2)

/-- What an accepted request changes in the slot. -/
def acceptConnection (s : RakPeer) (i : ℕ) (data : List UInt8) (env : MessageEnv) : RakPeer :=
  let times := acceptedTimes data env.uninitialised
  ((s.modifyRemoteSystem i (onConnectedPong times.1 times.2 env.time)).setConnectMode i
    .connected).setFirstExternalID (readSystemAddress env.uninitialised (data.drop 1)).2.1

/-- `ID_CONNECTION_REQUEST_ACCEPTED` where it is allowed, which completes a handshake that this
system began. -/
def connectionRequestAccepted (s : RakPeer) (i : ℕ) (data : List UInt8) (env : MessageEnv) :
    RakPeer :=
  let systemAddress := (s.remoteSystem i).systemAddress
  let alreadyConnected := decide ((s.remoteSystem i).connectMode = .handlingConnectionRequest)
  let s := s.acceptConnection i data env
  let s := (s.addPacketToProducer
    { s.packetFrom i data with
      systemIndex := s.systems.getRemoteSystemIndex cfg systemAddress }).sendImmediate cfg
    systemAddress
    ([MessageID.newIncomingConnection] ++ systemAddress.bytes ++ ipListBytes cfg ++
      toBytes 8 (acceptedTimes data env.uninitialised).2.toNat ++ toBytes 8 env.time.toNat)
  if alreadyConnected then s else s.pingInternal cfg systemAddress env.time

/-- Whether an `ID_CONNECTION_REQUEST_ACCEPTED` is from someone we wanted to connect to. -/
def allowConnection (connectMode : ConnectMode) : Bool :=
  decide (connectMode = .handlingConnectionRequest) ||
    decide (connectMode = .requestedConnection) || cfg.allowConnectionResponseIPMigration

def connectedPing (s : RakPeer) (i : ℕ) (data : List UInt8) (env : MessageEnv) : RakPeer :=
  s.sendImmediate cfg (s.remoteSystem i).systemAddress
    ([MessageID.connectedPong] ++ (readBytes 8 (data.drop 1)).1.getD [] ++ toBytes 8 env.time.toNat)

def pongTimes (data : List UInt8) (u : Uninitialised) : UInt64 × UInt64 :=
  readTimes u (data.drop 1)

def connectedPong (s : RakPeer) (i : ℕ) (data : List UInt8) (env : MessageEnv) : RakPeer :=
  let times := pongTimes data env.uninitialised
  s.modifyRemoteSystem i (onConnectedPong times.1 times.2 env.time)

/-- The identifiers that are handed to the user as they are. -/
def isUserMessage (id : UInt8) : Bool :=
  decide (id ≥ MessageID.timestamp) || decide (id = MessageID.sndReceiptAcked) ||
    decide (id = MessageID.sndReceiptLoss)

/-- A message from a system that has shown the password, or that we asked for a connection. -/
def processMessage (s : RakPeer) (i : ℕ) (id : UInt8) (data : List UInt8) (env : MessageEnv) :
    RakPeer :=
  let connectMode := (s.remoteSystem i).connectMode
  if id = MessageID.connectionRequest then
    if connectMode = .requestedConnection then s.parseConnectionRequestPacket cfg i data env
    else s.replyToConnectionRequest cfg i data env
  else if id = MessageID.newIncomingConnection ∧ data.length > 1 + 4 + 2 + 8 * 2 then
    if connectMode = .handlingConnectionRequest then s.newIncomingConnection cfg i data env else s
  else if id = MessageID.connectedPong ∧ data.length = 1 + 8 * 2 then s.connectedPong i data env
  else if id = MessageID.connectedPing ∧ data.length = 1 + 8 then s.connectedPing cfg i data env
  else if id = MessageID.disconnectionNotification then s.setConnectMode i .disconnectOnNoAck
  else if id = MessageID.detectLostConnections ∧ data.length = 1 then s
  else if id = MessageID.invalidPassword then
    if connectMode = .requestedConnection then
      (s.addPacketToProducer (s.packetFrom i data)).setConnectMode i .disconnectAsapSilently
    else s
  else if id = MessageID.connectionRequestAccepted then
    if data.length > 1 + 4 + 2 + 2 + 8 * 2 ∧ allowConnection cfg connectMode then
      s.connectionRequestAccepted cfg i data env
    else s
  else if isUserMessage id ∧ (s.remoteSystem i).isActive then
    s.addPacketToProducer (s.packetFrom i data)
  else s

/-- A message that the reliability layer of a slot delivers. A slot that was closed delivers
none: its layer was reset. -/
def receiveMessage (s : RakPeer) (i : ℕ) (data : List UInt8) (env : MessageEnv) : RakPeer :=
  match data with
  | [] => s
  | id :: _ =>
    if (s.remoteSystem i).isActive = false ∨ id = MessageID.connectionAttemptFailed then s
    else if (s.remoteSystem i).connectMode = .unverifiedSender then
      if id = MessageID.connectionRequest then s.parseConnectionRequestPacket cfg i data env
      else s.closeConnectionInternal cfg (s.remoteSystem i).systemAddress
    else s.processMessage cfg i id data env

end RakPeer

/-- The address that a datagram came from. -/
structure Sender where
  systemAddress : SystemAddress
  assigned : systemAddress ≠ .unassigned

/-- What can happen to a peer. -/
inductive PeerInput
  | connect (c : RakPeer.ConnectInput)
  | cancelConnectionAttempt (target : SystemAddress)
  /-- `CloseConnection`, with or without a notification, as the update cycle carries it out. -/
  | notifyAndFlagForShutdown (systemAddress : SystemAddress)
  | closeConnection (target : SystemAddress)
  | datagram (sender : Sender) (d : Datagram) (env : ReceiveEnv)
  /-- A datagram that the reliability layer of the system with this address finds malicious. -/
  | maliciousDatagram (systemAddress : SystemAddress)
  | requestConnections (timeMS : ℕ) (outcome : SystemAddress → SendOutcome)
  | update (i : ℕ) (env : UpdateEnv)
  | message (i : ℕ) (data : List UInt8) (env : MessageEnv)

namespace RakPeer

variable (cfg : PeerConfig)

def step (s : RakPeer) : PeerInput → RakPeer
  | .connect c => (s.sendConnectionRequest cfg c).2
  | .cancelConnectionAttempt target => s.cancelConnectionAttempt target
  | .notifyAndFlagForShutdown systemAddress => s.notifyAndFlagForShutdown cfg systemAddress
  | .closeConnection target => s.closeConnectionInternal cfg target
  | .datagram sender d env =>
    (s.processOfflineNetworkPacket cfg env sender.systemAddress d).2.peer
  | .maliciousDatagram systemAddress => s.closeConnectionInternal cfg systemAddress
  | .requestConnections timeMS outcome => s.requestConnections timeMS outcome
  | .update i env => s.updateRemoteSystem cfg i env
  | .message i data env => s.receiveMessage cfg i data env

end RakPeer

end SLikeNet
