import SLikeNet.Send

/-! `UpdateInternal`: the cull of unreliable packets, the loops that pack datagrams out of
the resend list and the send queue, and the datagrams that leave. -/

namespace SLikeNet

/-- What an update is given: the clock, the bandwidth limit of the caller, and the answers
of the congestion manager for this update. -/
structure UpdateInput where
  time : ℕ
  bitsPerSecondLimit : ℕ
  forceSendACKs : Bool
  /-- `GetTransmissionBandwidth` -/
  transmissionBandwidth : ℤ
  /-- `GetRTOForRetransmission`, which does not depend on the packet -/
  rto : ℕ
  time_lt : time < 2 ^ 64
  le_rto : 30000 ≤ rto
  rto_le : rto ≤ 2000000

/-- A `uint32_t` read as an `int`. -/
def toInt32 (n : ℕ) : ℤ := if n < 2 ^ 31 then n else (n : ℤ) - 2 ^ 32

namespace ReliabilityLayer

variable (u : UpdateInput)

/-- `SLNet::TimeMS(time/1000)` against the time of the last datagram. -/
def ackTimeout (s : ReliabilityLayer) (curTime : ℕ) : Bool :=
  decide ((2 ^ 64 - curTime + s.timeLastDatagramArrived) % 2 ^ 64 > 10000) &&
    decide ((2 ^ 64 - s.timeLastDatagramArrived + curTime) % 2 ^ 64 > s.timeoutTime)

/-- Whether the cull at this time takes the packet. -/
def expired (s : ReliabilityLayer) (p : PacketPtr) : Bool :=
  decide (u.time > addTime (s.packets p).creationTime s.unreliableTimeout)

/-- The packets that the cull of unreliable messages takes: it stops at the first one
that has not exceeded the timeout. -/
def culled (s : ReliabilityLayer) : List PacketPtr := s.unreliableLinkedList.takeWhile (s.expired u)

def cullPacket (s : ReliabilityLayer) (p : PacketPtr) : ReliabilityLayer :=
  (s.freeInternalPacketData p).removeFromUnreliableLinkedList p

/-- Whether this update culls, given the time since the last one. -/
def cullIsDue (s : ReliabilityLayer) (timeSinceLastTick : ℕ) : Bool :=
  decide (s.unreliableTimeout > 0) && decide (timeSinceLastTick ≥ s.timeToNextUnreliableCull)

def cullUnreliable (s : ReliabilityLayer) (timeSinceLastTick : ℕ) : ReliabilityLayer :=
  if s.cullIsDue timeSinceLastTick then
    { (s.culled u).foldl cullPacket s with timeToNextUnreliableCull := s.unreliableTimeout / 2 }
  else if s.unreliableTimeout > 0 then
    { s with timeToNextUnreliableCull := s.timeToNextUnreliableCull - timeSinceLastTick }
  else s

def clearExpiredBps (s : ReliabilityLayer) : ReliabilityLayer :=
  if u.time > addTime s.lastBpsClear 100000 then
    { s with
      userMessageBytesSent := s.userMessageBytesSent.clearExpired1 u.time
      lastBpsClear := u.time }
  else s

/-- Every node whose time has come leaves the history with a loss receipt. -/
def reportLosses (s : ReliabilityLayer) : ReliabilityLayer :=
  let lost := s.unreliableWithAckReceiptHistory.filter fun n => isDue u.time n.nextActionTime
  { s with
    unreliableWithAckReceiptHistory :=
      s.unreliableWithAckReceiptHistory.filter fun n => !isDue u.time n.nextActionTime
    outputQueue :=
      s.outputQueue ++ lost.map fun n => n.receipt .loss }

def resetPacketsAndDatagrams (s : ReliabilityLayer) : ReliabilityLayer :=
  { s with
    datagrams :=
      { DatagramBuffer.empty with allDatagramSizesSoFar := s.datagrams.allDatagramSizesSoFar } }

def clearAllDatagramSizes (s : ReliabilityLayer) : ReliabilityLayer :=
  { s with datagrams := { s.datagrams with allDatagramSizesSoFar := 0 } }

def pushPacket (s : ReliabilityLayer) (p : PacketPtr) (isReliable : Bool) : ReliabilityLayer :=
  let bits := (s.packets p).bitsForThisPacket
  { s with
    datagrams :=
      { s.datagrams with
        datagramSizeSoFar := (s.datagrams.datagramSizeSoFar + bits) % 2 ^ 32
        allDatagramSizesSoFar := (s.datagrams.allDatagramSizesSoFar + bits) % 2 ^ 32
        packetsToSendThisUpdate := s.datagrams.packetsToSendThisUpdate ++ [p]
        packetsToDeallocThisUpdate := s.datagrams.packetsToDeallocThisUpdate ++ [!isReliable] } }

def pushDatagram (s : ReliabilityLayer) : ReliabilityLayer :=
  if s.datagrams.datagramSizeSoFar > 0 then
    { s with
      datagrams :=
        { s.datagrams with
          packetsToSendThisUpdateDatagramBoundaries :=
            s.datagrams.packetsToSendThisUpdateDatagramBoundaries ++
              [s.datagrams.packetsToSendThisUpdate.length]
          datagramsToSendThisUpdateIsPair := s.datagrams.datagramsToSendThisUpdateIsPair ++ [false]
          datagramSizesInBytes :=
            s.datagrams.datagramSizesInBytes ++ [bitsToBytes s.datagrams.datagramSizeSoFar]
          datagramSizeSoFar := 0 } }
  else s

/-- The next packet does not fit into the open datagram. -/
def exceedsDatagram (s : ReliabilityLayer) (p : PacketPtr) : Bool :=
  decide ((s.datagrams.datagramSizeSoFar + (s.packets p).nextPacketBitLength) % 2 ^ 32 >
    s.mtu.maxDatagramSizeExcludingMessageHeaderBits)

def setNextActionTime (s : ReliabilityLayer) (p : PacketPtr) : ReliabilityLayer :=
  s.modifyPacket p fun q =>
    { q with retransmissionTime := u.rto, nextActionTime := addTime u.rto u.time }

def incrementTimesSent (s : ReliabilityLayer) (p : PacketPtr) : ReliabilityLayer :=
  s.modifyPacket p fun q => { q with timesSent := (q.timesSent + 1) % 2 ^ 8 }

/-- Sends the head of the resend list again and puts it back at the tail. -/
def resendPacket (s : ReliabilityLayer) (p : PacketPtr) : ReliabilityLayer :=
  ((((s.removeFromList p false).pushPacket p true).incrementTimesSent p).setNextActionTime u p
    ).addToListTail p false

/-- Fills one datagram from the resend list. Says also whether anything was pushed. -/
def resendDatagram : ℕ → Bool → ReliabilityLayer → Bool × ReliabilityLayer
  | 0, pushedAnything, s => (pushedAnything, s)
  | fuel + 1, pushedAnything, s =>
    match s.resendLinkedList.head with
    | none => (pushedAnything, s)
    | some p =>
      if isDue u.time (s.packets p).nextActionTime then
        if s.exceedsDatagram p then (pushedAnything, s.pushDatagram)
        else resendDatagram fuel true (s.resendPacket u p)
      else (pushedAnything, s.pushDatagram)

/-- A resent packet is not due again in the same update, so the number of packets on the
list bounds the steps of both loops. -/
def resendLoop (retransmissionBandwidth : ℤ) : ℕ → ReliabilityLayer → ReliabilityLayer
  | 0, s => s
  | fuel + 1, s =>
    if (bitsToBytes s.datagrams.allDatagramSizesSoFar : ℤ) < retransmissionBandwidth then
      let r := resendDatagram u (s.messagesInResendBuffer + 1) false s
      if r.1 then resendLoop retransmissionBandwidth fuel r.2 else r.2
    else s

/-- `outgoingPacketBuffer.Pop(0)` -/
def popOutgoing (s : ReliabilityLayer) : ReliabilityLayer :=
  match s.outgoingPacketBuffer.pop 0 with
  | none => s
  | some r => { s with outgoingPacketBuffer := r.2 }

def setHeaderLength (s : ReliabilityLayer) (p : PacketPtr) : ReliabilityLayer :=
  s.modifyPacket p fun q => { q with headerLength := q.getMessageHeaderLengthBits }

/-- The reliable packet takes its number, its slot and its place on the resend list. -/
def assignReliable (s : ReliabilityLayer) (p : PacketPtr) : ReliabilityLayer :=
  let number := s.sendReliableMessageNumberIndex
  let s := (s.modifyPacket p fun q =>
    { q with messageNumberAssigned := true, reliableMessageNumber := number }).setNextActionTime u p
  let s :=
    { s with
      resendBuffer := Function.update s.resendBuffer (resendSlot number) (some p)
      messagesInResendBuffer := (s.messagesInResendBuffer + 1) % 2 ^ 32
      bytesInResendBuffer :=
        (s.bytesInResendBuffer + bitsToBytes (s.packets p).dataBitLength) % 2 ^ 64
      history :=
        { s.history with
          sent := s.history.sent ++ [p]
          -- the source has only an assertion where the slot is occupied
          overwritten := s.history.overwritten ++ (s.resendBuffer (resendSlot number)).toList } }
  { s.addToListTail p true with sendReliableMessageNumberIndex := number.succ }

/-- The node is for the datagram that the packet is about to go into. -/
def recordUnreliableWithAckReceipt (s : ReliabilityLayer) (p : PacketPtr) : ReliabilityLayer :=
  let boundaries := s.datagrams.packetsToSendThisUpdateDatagramBoundaries
  { s with
    unreliableWithAckReceiptHistory := s.unreliableWithAckReceiptHistory ++
      [{ datagramNumber := s.nextDatagramSequenceNumber + .ofNat boundaries.length
         sendReceiptSerial := (s.packets p).sendReceiptSerial
         nextActionTime := addTime u.rto u.time
         origin := p }] }

/-- The bookkeeping of the first send of a packet, by its reliability. -/
def registerSend (s : ReliabilityLayer) (p : PacketPtr) : ReliabilityLayer :=
  if (s.packets p).reliability.isReliable then s.assignReliable u p
  else if (s.packets p).reliability = .unreliableWithAckReceipt then
    s.recordUnreliableWithAckReceipt u p
  else s

def countBytesSent (s : ReliabilityLayer) (p : PacketPtr) : ReliabilityLayer :=
  { s with
    userMessageBytesSent :=
      s.userMessageBytesSent.push1 u.time (bitsToBytes (s.packets p).dataBitLength) }

/-- Sends the packet at the head of the send queue for the first time. -/
def sendPacket (s : ReliabilityLayer) (p : PacketPtr) : ReliabilityLayer :=
  let isReliable := (s.packets p).reliability.isReliable
  (((s.popOutgoing.registerSend u p).countBytesSent u p).pushPacket p isReliable).incrementTimesSent p

/-- Fills one datagram from the send queue. Every step but the last one pops a packet. -/
def fillDatagram : ℕ → ReliabilityLayer → ReliabilityLayer
  | 0, s => s
  | fuel + 1, s =>
    match s.outgoingPacketBuffer.peek with
    | none => s
    | some p =>
      if (s.packets p).data = none then fillDatagram fuel s.popOutgoing
      else
        let s := s.setHeaderLength p
        if s.exceedsDatagram p then s
        else
          let s := s.sendPacket u p
          if s.resendBufferOverflow then s else fillDatagram fuel s

def isLimitedByOutgoingBandwidthLimit (s : ReliabilityLayer) : Bool :=
  decide (u.bitsPerSecondLimit ≠ 0) &&
    decide (bitsToBytes u.bitsPerSecondLimit < s.userMessageBytesSent.lastSec1)

def mayFillDatagram (s : ReliabilityLayer) : Bool :=
  !s.resendBufferOverflow &&
    (decide ((bitsToBytes s.datagrams.allDatagramSizesSoFar : ℤ) < u.transmissionBandwidth) ||
      (s.countdownToNextPacketPair == 0 &&
        s.datagrams.datagramsToSendThisUpdateIsPair.length == 1))

/-- One round of the send loop up to its test for an empty datagram. -/
def sendDatagram (s : ReliabilityLayer) : ReliabilityLayer :=
  if s.isLimitedByOutgoingBandwidthLimit u then s
  else fillDatagram u s.outgoingPacketBuffer.size s

def sendLoop : ℕ → ReliabilityLayer → ReliabilityLayer
  | 0, s => s
  | fuel + 1, s =>
    if s.mayFillDatagram u then
      let s := s.sendDatagram u
      if s.datagrams.datagramSizeSoFar = 0 then s else sendLoop fuel s.pushDatagram
    else s

/-- Both loops, as the bandwidths allow them. -/
def packDatagrams (s : ReliabilityLayer) : ReliabilityLayer :=
  let retransmissionBandwidth := toInt32 s.unacknowledgedBytes
  let s :=
    if retransmissionBandwidth > 0 ∨ u.transmissionBandwidth > 0 then
      resendLoop u retransmissionBandwidth (s.messagesInResendBuffer + 1) s.clearAllDatagramSizes
    else s
  if (bitsToBytes s.datagrams.allDatagramSizesSoFar : ℤ) < u.transmissionBandwidth then
    sendLoop u (s.outgoingPacketBuffer.size + 1) s.clearAllDatagramSizes
  else s

/-- `AddFirstToDatagramHistory` with the list that `AddSubsequentToDatagramHistory` makes of
the other message numbers. -/
def addToDatagramHistory (s : ReliabilityLayer) (messageNumbers : List Uint24) :
    ReliabilityLayer :=
  let s :=
    if s.datagramHistory.length > 512 then
      { s with
        datagramHistory := s.datagramHistory.tail
        datagramHistoryPopCount := s.datagramHistoryPopCount.succ }
    else s
  { s with datagramHistory := s.datagramHistory ++ [⟨messageNumbers, u.time⟩] }

/-- The message numbers that the history keeps for a datagram. -/
def recordedNumbers (s : ReliabilityLayer) (datagram : List PacketPtr) : List Uint24 :=
  (datagram.filter fun p => (s.packets p).recorded).map fun p => (s.packets p).reliableMessageNumber

def emitDatagram (s : ReliabilityLayer) (datagram : List PacketPtr) : ReliabilityLayer :=
  let s := s.addToDatagramHistory u (s.recordedNumbers datagram)
  { s with
    nextDatagramSequenceNumber := s.nextDatagramSequenceNumber.succ
    history := { s.history with wire := s.history.wire ++ [datagram] } }

/-- The loop over the datagrams of this update, which takes the next number for each. -/
def emitDatagrams (s : ReliabilityLayer) : ReliabilityLayer :=
  (List.range s.datagrams.packetsToSendThisUpdateDatagramBoundaries.length).foldl
    (fun t datagramIndex => t.emitDatagram u (t.datagrams.datagram datagramIndex)) s

/-- Unlinks and frees a packet that `ClearPacketsAndDatagrams` finds flagged. -/
def clearPacket (s : ReliabilityLayer) (entry : PacketPtr × Bool) : ReliabilityLayer :=
  if entry.2 then (s.removeFromUnreliableLinkedList entry.1).freeInternalPacketData entry.1 else s

def clearPacketsAndDatagrams (s : ReliabilityLayer) : ReliabilityLayer :=
  let entries := s.datagrams.packetsToSendThisUpdate.zip s.datagrams.packetsToDeallocThisUpdate
  let s := entries.foldl clearPacket s
  { s with datagrams := { s.datagrams with packetsToDeallocThisUpdate := [] } }

/-- `hasDataToSendOrResend` -/
def hasDataToSendOrResend (s : ReliabilityLayer) : Bool :=
  s.resendLinkedList.head.isSome || decide (s.outgoingPacketBuffer.size > 0)

/-- The part of `UpdateInternal` that runs only with data to send or resend. -/
def sendDatagrams (s : ReliabilityLayer) : ReliabilityLayer :=
  ((s.resetPacketsAndDatagrams.packDatagrams u).emitDatagrams u).clearPacketsAndDatagrams

/-- Capped at 100 milliseconds. -/
def timeSinceLastTick (s : ReliabilityLayer) : ℕ :=
  min ((2 ^ 64 - s.lastUpdateTime + u.time) % 2 ^ 64) 100000

/-- The start of `UpdateInternal`, up to the cull. -/
def beginUpdate (s : ReliabilityLayer) : ReliabilityLayer :=
  { s with lastUpdateTime := u.time }.cullUnreliable u (s.timeSinceLastTick u)

/-- A reliable message has waited too long for an acknowledgement. -/
def acksHaveTimedOut (s : ReliabilityLayer) : Bool :=
  decide (s.messagesInResendBuffer ≠ 0) && s.ackTimeout (u.time / 1000 % 2 ^ 32)

/-- The rest of `UpdateInternal`, from the test for a dead connection on. -/
def finishUpdate (s : ReliabilityLayer) : ReliabilityLayer :=
  if s.acksHaveTimedOut u then { s with deadConnection := true }
  else if s.hasDataToSendOrResend then ((s.clearExpiredBps u).reportLosses u).sendDatagrams u
  else (s.clearExpiredBps u).reportLosses u

def updateInternal (s : ReliabilityLayer) : ReliabilityLayer :=
  if !u.forceSendACKs && decide (u.time ≤ s.lastUpdateTime) then
    { s with lastUpdateTime := u.time }
  else (s.beginUpdate u).finishUpdate u

end ReliabilityLayer

end SLikeNet
