import SLikeNet.MessageBytes

/-! `RakPeer`: the connection table, the queue of requested connections, the packets handed to
the user and what goes out, with the operations that both kinds of incoming data share. -/

namespace SLikeNet

structure RequestedConnectionStruct where
  systemAddress : SystemAddress
  nextRequestTime : ℕ
  requestsMade : ℕ
  sendConnectionAttemptCount : ℕ
  timeBetweenSendConnectionAttemptsMS : ℕ
  outgoingPassword : List UInt8

/-- A `Packet`, as `AddPacketToProducer` takes it. -/
structure UserPacket where
  data : List UInt8
  systemAddress : SystemAddress
  systemIndex : Option ℕ
  guid : RakNetGUID
deriving DecidableEq

/-- By which the user names a system: the GUID, or the address where the GUID is unassigned. -/
structure AddressOrGUID where
  rakNetGuid : RakNetGUID
  systemAddress : SystemAddress

/-- What leaves the peer: a datagram to an unconnected system, or a message that the
reliability layer of an active one takes over. -/
inductive Sent
  | datagram (systemAddress : SystemAddress) (data : List UInt8)
  | message (systemAddress : SystemAddress) (data : List UInt8)

structure RakPeer where
  systems : RemoteSystems
  requestedConnectionQueue : List RequestedConnectionStruct
  packets : List UserPacket
  sent : List Sent

namespace RakPeer

variable (cfg : PeerConfig)

def initial : RakPeer := ⟨.initial, [], [], []⟩

def remoteSystem (s : RakPeer) (i : ℕ) : RemoteSystemStruct := s.systems.remoteSystemList i

def modifyRemoteSystem (s : RakPeer) (i : ℕ) (f : RemoteSystemStruct → RemoteSystemStruct) :
    RakPeer :=
  { s with systems := s.systems.setRemoteSystem i (f (s.remoteSystem i)) }

def setConnectMode (s : RakPeer) (i : ℕ) (connectMode : ConnectMode) : RakPeer :=
  s.modifyRemoteSystem i fun r => { r with connectMode := connectMode }

def addPacketToProducer (s : RakPeer) (packet : UserPacket) : RakPeer :=
  { s with packets := s.packets ++ [packet] }

/-- A packet to the user from the system in a slot. -/
def packetFrom (s : RakPeer) (i : ℕ) (data : List UInt8) : UserPacket :=
  ⟨data, (s.remoteSystem i).systemAddress, some i, (s.remoteSystem i).guid⟩

def sendDatagram (s : RakPeer) (systemAddress : SystemAddress) (data : List UInt8) : RakPeer :=
  { s with sent := s.sent ++ [.datagram systemAddress data] }

/-- `SendImmediate` to one system, which takes nothing once the connection is to be closed. -/
def sendImmediate (s : RakPeer) (systemAddress : SystemAddress) (data : List UInt8) : RakPeer :=
  match s.systems.getRemoteSystemIndex cfg systemAddress with
  | none => s
  | some i =>
    if (s.remoteSystem i).isActive ∧ (s.remoteSystem i).connectMode ≠ .disconnectAsap ∧
        (s.remoteSystem i).connectMode ≠ .disconnectAsapSilently ∧
        (s.remoteSystem i).connectMode ≠ .disconnectOnNoAck then
      { s with sent := s.sent ++ [.message systemAddress data] }
    else s

def pingInternal (s : RakPeer) (target : SystemAddress) (time : UInt64) : RakPeer :=
  s.sendImmediate cfg target (MessageID.connectedPing :: toBytes 8 time.toNat)

/-! ### Connections -/

def getNumberOfRemoteInitiatedConnections (s : RakPeer) : ℕ :=
  s.systems.activeSystemList.countP fun i =>
    (s.remoteSystem i).isActive && decide ((s.remoteSystem i).connectMode = .connected) &&
      !(s.remoteSystem i).weInitiatedTheConnection

def allowIncomingConnections (s : RakPeer) : Bool :=
  decide (s.getNumberOfRemoteInitiatedConnections < cfg.maximumIncomingConnections)

def requested (s : RakPeer) (systemAddress : SystemAddress) : Option RequestedConnectionStruct :=
  s.requestedConnectionQueue.find? fun rcs => decide (rcs.systemAddress = systemAddress)

def removeRequest (s : RakPeer) (systemAddress : SystemAddress) : RakPeer :=
  { s with
    requestedConnectionQueue :=
      s.requestedConnectionQueue.eraseP fun rcs => decide (rcs.systemAddress = systemAddress) }

inductive ConnectionAttemptResult
  | connectionAttemptStarted
  | alreadyConnectedToEndpoint
  | connectionAttemptAlreadyInProgress
deriving DecidableEq

/-- What `Connect` is given, and when. The password has at most 255 bytes. -/
structure ConnectInput where
  systemAddress : SystemAddress
  passwordData : List UInt8
  sendConnectionAttemptCount : ℕ
  timeBetweenSendConnectionAttemptsMS : ℕ
  timeMS : ℕ

/-- `SendConnectionRequest`, which `Connect` comes to. -/
def sendConnectionRequest (s : RakPeer) (c : ConnectInput) : ConnectionAttemptResult × RakPeer :=
  if c.systemAddress ≠ .unassigned ∧ (s.systems.scanForActive cfg c.systemAddress).isSome then
    (.alreadyConnectedToEndpoint, s)
  else if (s.requested c.systemAddress).isSome then (.connectionAttemptAlreadyInProgress, s)
  else
    (.connectionAttemptStarted,
      { s with
        requestedConnectionQueue := s.requestedConnectionQueue ++
          [{ systemAddress := c.systemAddress
             nextRequestTime := c.timeMS
             requestsMade := 0
             sendConnectionAttemptCount := c.sendConnectionAttemptCount
             timeBetweenSendConnectionAttemptsMS := c.timeBetweenSendConnectionAttemptsMS
             outgoingPassword := c.passwordData.take 255 }] })

def cancelConnectionAttempt (s : RakPeer) (target : SystemAddress) : RakPeer :=
  s.removeRequest target

/-- `CloseConnectionInternal2` without a notification, performed immediately. -/
def closeConnectionInternal (s : RakPeer) (target : SystemAddress) : RakPeer :=
  { s with systems := s.systems.closeConnectionImmediately cfg target }

def flagForShutdown (s : RakPeer) (systemAddress : SystemAddress) : RakPeer :=
  match s.systems.getRemoteSystemFromSystemAddress cfg systemAddress with
  | none => s
  | some i => s.setConnectMode i .disconnectAsap

/-- `NotifyAndFlagForShutdown`: the notification is sent before the mode that allows no more
sends is set, whatever the mode was. -/
def notifyAndFlagForShutdown (s : RakPeer) (systemAddress : SystemAddress) : RakPeer :=
  (s.sendImmediate cfg systemAddress [MessageID.disconnectionNotification]).flagForShutdown cfg
    systemAddress

/-! ### Pings -/

/-- The write index wraps at the end of the array. -/
def nextWriteIndex (k : Fin pingTimesArraySize) : Fin pingTimesArraySize :=
  ⟨(k.val + 1) % pingTimesArraySize, Nat.mod_lt _ (Nat.succ_pos _)⟩

/-- The entry of a pong: the time both ways, and how far the other clock is ahead. Each time is
halved on its own, so that the sum does not overflow. -/
def pingOf (sendPingTime sendPongTime time : UInt64) : PingAndClockDifferential where
  pingTime := (if time > sendPingTime then time - sendPingTime else 0).toUInt16
  clockDifferential := sendPongTime - (time / 2 + sendPingTime / 2)

def onConnectedPong (sendPingTime sendPongTime time : UInt64) (r : RemoteSystemStruct) :
    RemoteSystemStruct :=
  { r with
    pingAndClockDifferential :=
      Function.update r.pingAndClockDifferential r.pingAndClockDifferentialWriteIndex
        (pingOf sendPingTime sendPongTime time)
    pingAndClockDifferentialWriteIndex := nextWriteIndex r.pingAndClockDifferentialWriteIndex }

/-- The loop of `GetClockDifferentialInt` from `counter` on. -/
def clockDifferentialFrom (pings : Fin pingTimesArraySize → PingAndClockDifferential) :
    List (Fin pingTimesArraySize) → UInt16 → UInt64 → UInt64
  | [], _, clockDifferential => clockDifferential
  | counter :: rest, lowestPingSoFar, clockDifferential =>
    if (pings counter).pingTime = 65535 then clockDifferential
    else if (pings counter).pingTime < lowestPingSoFar then
      clockDifferentialFrom pings rest (pings counter).pingTime (pings counter).clockDifferential
    else clockDifferentialFrom pings rest lowestPingSoFar clockDifferential

def getClockDifferentialInt (r : RemoteSystemStruct) : UInt64 :=
  clockDifferentialFrom r.pingAndClockDifferential (List.finRange pingTimesArraySize) 65535 0

/-- `GetRemoteSystem` in the user thread, where a system that is not active will do as well. -/
def getRemoteSystem (s : RakPeer) (systemIdentifier : AddressOrGUID) : Option ℕ :=
  if systemIdentifier.rakNetGuid ≠ .unassigned then
    (List.range cfg.maximumNumberOfPeers).find? fun i =>
      decide ((s.remoteSystem i).guid = systemIdentifier.rakNetGuid)
  else if systemIdentifier.systemAddress = .unassigned then none
  else
    match s.systems.scanForActive cfg systemIdentifier.systemAddress with
    | some i => some i
    | none =>
      (List.range cfg.maximumNumberOfPeers).find? fun i =>
        decide (s.systems.addressOf i = systemIdentifier.systemAddress)

def getClockDifferential (s : RakPeer) (systemIdentifier : AddressOrGUID) : UInt64 :=
  match s.getRemoteSystem cfg systemIdentifier with
  | none => 0
  | some i => getClockDifferentialInt (s.remoteSystem i)

end RakPeer

end SLikeNet
