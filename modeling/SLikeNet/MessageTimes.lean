import SLikeNet.UpdateCycle

/-! The times that the messages between two systems carry: what is written into each message and
what is read back from it. -/

namespace SLikeNet

/-! ### Bytes -/

theorem readBytes_append {n : ℕ} {bytes : List UInt8} (h : bytes.length = n) (rest : Unread) :
    readBytes n (bytes ++ rest) = (some bytes, rest) := by
  rw [readBytes_of_le (by rw [List.length_append]; omega), List.take_left' h, List.drop_left' h]

theorem readUInt16_toBytes (n : ℕ) (rest : Unread) : (readUInt16 (toBytes 2 n ++ rest)).2 = rest := by
  rw [readUInt16, readNat, readBytes_append (length_toBytes 2 n)]

theorem readUInt64_toBytes (t : UInt64) (rest : Unread) :
    readUInt64 (toBytes 8 t.toNat ++ rest) = (some t, rest) := by
  rw [readUInt64, readNat, readBytes_append (length_toBytes 8 _)]
  show (some (UInt64.ofNat (ofBytes (toBytes 8 t.toNat))), rest) = _
  rw [ofBytes_toBytes (UInt64.toNat_lt t), UInt64.ofNat_toNat]

theorem readSystemAddress_bytes (u : Uninitialised) (sa : SystemAddress) (rest : Unread) :
    (readSystemAddress u (sa.bytes ++ rest)).2.2 = rest := by
  unfold readSystemAddress SystemAddress.bytes
  rw [List.append_assoc, List.append_assoc, List.singleton_append, readUInt8_cons]
  dsimp only
  rw [Option.getD_some, if_pos rfl]
  dsimp only
  rw [readUInt32, readNat, readBytes_append (length_toBytes 4 _), readUInt16_toBytes]

theorem skipInternalIds_ipListBytes (cfg : PeerConfig) (u : Uninitialised) (rest : Unread) :
    skipInternalIds u (RakPeer.ipListBytes cfg ++ rest) = rest := by
  have hskip : ∀ addresses : List SystemAddress,
      Nat.iterate (fun unread => (readSystemAddress u unread).2.2) addresses.length
        ((addresses.map SystemAddress.bytes).flatten ++ rest) = rest := by
    intro addresses
    induction addresses with
    | nil => rfl
    | cons sa addresses ih =>
      rw [List.length_cons, Function.iterate_succ_apply, List.map_cons, List.flatten_cons,
        List.append_assoc, readSystemAddress_bytes, ih]
  have hall := hskip ((List.range maximumNumberOfInternalIds).map fun i =>
    cfg.ipList.getD i .unassigned)
  rw [List.length_map, List.length_range, List.map_map] at hall
  exact hall

namespace RakPeer

variable (cfg : PeerConfig)

/-! ### Messages -/

def connectionRequestMessage (guid : RakNetGUID) (time : UInt64) (password : List UInt8) :
    List UInt8 :=
  [MessageID.connectionRequest] ++ guid.bytes ++ toBytes 8 time.toNat ++ [0] ++ password

def connectedPingMessage (time : UInt64) : List UInt8 :=
  MessageID.connectedPing :: toBytes 8 time.toNat

def connectedPongMessage (sendPingTime : List UInt8) (time : UInt64) : List UInt8 :=
  [MessageID.connectedPong] ++ sendPingTime ++ toBytes 8 time.toNat

def connectionRequestAcceptedMessage (systemAddress : SystemAddress) (systemIndex : ℕ)
    (incomingTimestamp time : UInt64) : List UInt8 :=
  [MessageID.connectionRequestAccepted] ++ systemAddress.bytes ++ toBytes 2 systemIndex ++
    ipListBytes cfg ++ toBytes 8 incomingTimestamp.toNat ++ toBytes 8 time.toNat

def newIncomingConnectionMessage (systemAddress : SystemAddress) (sendPongTime time : UInt64) :
    List UInt8 :=
  [MessageID.newIncomingConnection] ++ systemAddress.bytes ++ ipListBytes cfg ++
    toBytes 8 sendPongTime.toNat ++ toBytes 8 time.toNat

/-- The time in an `ID_CONNECTION_REQUEST`, as `ParseConnectionRequestPacket` reads it. -/
def requestTime (data : List UInt8) : Option UInt64 := (readUInt64 (readGuid (data.drop 1)).2).1

/-- The bytes that an `ID_CONNECTED_PONG` gives back. -/
def pingTime (data : List UInt8) : Option (List UInt8) := (readBytes 8 (data.drop 1)).1

/-- The times that a message which answers another one carries: when that one was sent, and when
it was answered. -/
def answerTimes (data : List UInt8) (u : Uninitialised) : Option (UInt64 × UInt64) :=
  if data.head? = some MessageID.connectionRequestAccepted then some (acceptedTimes data u)
  else if data.head? = some MessageID.newIncomingConnection then some (newIncomingTimes data u)
  else if data.head? = some MessageID.connectedPong then some (pongTimes data u)
  else none

/-! ### Reading back -/

theorem requestTime_connectionRequestMessage (guid : RakNetGUID) (time : UInt64)
    (password : List UInt8) :
    requestTime (connectionRequestMessage guid time password) = some time := by
  have hdata : (connectionRequestMessage guid time password).drop 1 =
      toBytes 8 guid.g.toNat ++ (toBytes 8 time.toNat ++ ([0] ++ password)) := by
    simp only [connectionRequestMessage, RakNetGUID.bytes, List.append_assoc, List.cons_append,
      List.nil_append, List.drop_one, List.tail_cons]
  rw [requestTime, readGuid_snd, hdata, readUInt64_toBytes, readUInt64_toBytes]

theorem pingTime_connectedPingMessage (time : UInt64) :
    pingTime (connectedPingMessage time) = some (toBytes 8 time.toNat) := by
  have hdata : (connectedPingMessage time).drop 1 = toBytes 8 time.toNat ++ [] := by
    rw [connectedPingMessage, List.append_nil, List.drop_one, List.tail_cons]
  rw [pingTime, hdata, readBytes_append (length_toBytes 8 _)]

theorem readTimes_toBytes (u : Uninitialised) (sendPingTime sendPongTime : UInt64) :
    readTimes u (toBytes 8 sendPingTime.toNat ++ toBytes 8 sendPongTime.toNat) =
      (sendPingTime, sendPongTime) := by
  have hpong := readUInt64_toBytes sendPongTime []
  rw [List.append_nil] at hpong
  rw [readTimes, readUInt64_toBytes, hpong]
  rfl

theorem answerTimes_connectedPongMessage (sendPingTime time : UInt64) (u : Uninitialised) :
    answerTimes (connectedPongMessage (toBytes 8 sendPingTime.toNat) time) u =
      some (sendPingTime, time) := by
  have hdata : (connectedPongMessage (toBytes 8 sendPingTime.toNat) time).drop 1 =
      toBytes 8 sendPingTime.toNat ++ toBytes 8 time.toNat := by
    simp only [connectedPongMessage, List.cons_append, List.nil_append,
      List.drop_one, List.tail_cons]
  show some (pongTimes _ u) = _
  rw [pongTimes, hdata, readTimes_toBytes]

theorem answerTimes_connectionRequestAcceptedMessage (systemAddress : SystemAddress)
    (systemIndex : ℕ) (incomingTimestamp time : UInt64) (u : Uninitialised) :
    answerTimes (connectionRequestAcceptedMessage cfg systemAddress systemIndex incomingTimestamp
      time) u = some (incomingTimestamp, time) := by
  have hdata : (connectionRequestAcceptedMessage cfg systemAddress systemIndex incomingTimestamp
      time).drop 1 = systemAddress.bytes ++ (toBytes 2 systemIndex ++ (ipListBytes cfg ++
        (toBytes 8 incomingTimestamp.toNat ++ toBytes 8 time.toNat))) := by
    simp only [connectionRequestAcceptedMessage, List.append_assoc, List.cons_append,
      List.nil_append, List.drop_one, List.tail_cons]
  show some (acceptedTimes _ u) = _
  rw [acceptedTimes, hdata, readSystemAddress_bytes, readUInt16_toBytes,
    skipInternalIds_ipListBytes, readTimes_toBytes]

theorem answerTimes_newIncomingConnectionMessage (systemAddress : SystemAddress)
    (sendPongTime time : UInt64) (u : Uninitialised) :
    answerTimes (newIncomingConnectionMessage cfg systemAddress sendPongTime time) u =
      some (sendPongTime, time) := by
  have hdata : (newIncomingConnectionMessage cfg systemAddress sendPongTime time).drop 1 =
      systemAddress.bytes ++ (ipListBytes cfg ++
        (toBytes 8 sendPongTime.toNat ++ toBytes 8 time.toNat)) := by
    simp only [newIncomingConnectionMessage, List.append_assoc, List.cons_append,
      List.nil_append, List.drop_one, List.tail_cons]
  show some (newIncomingTimes _ u) = _
  rw [newIncomingTimes, hdata, readSystemAddress_bytes, skipInternalIds_ipListBytes,
    readTimes_toBytes]

end RakPeer

end SLikeNet
