import SLikeNet.ReliabilityLayer

/-! `Send`, `SplitPacket` and the weights of the send queue. -/

namespace SLikeNet

namespace ReliabilityLayer

/-- The value that `InitHeapWeights` gives to a priority level. -/
def initHeapWeight (priorityLevel : ℕ) : ℕ := 2 ^ priorityLevel * priorityLevel + priorityLevel

def initHeapWeights (priority : PacketPriority) : ℕ := initHeapWeight priority.level

/-- `GetNextWeight` with the array it leaves behind. -/
def getNextWeight (s : ReliabilityLayer) (priority : PacketPriority) :
    ℕ × (PacketPriority → ℕ) :=
  let next := s.outgoingPacketBufferNextWeights priority
  match s.outgoingPacketBuffer.peek, s.outgoingPacketBuffer.peekWeight with
  | some p, some weight =>
    let peekPL := (s.packets p).priority.level
    let min := (2 ^ 64 - 2 ^ peekPL * peekPL + weight + peekPL) % 2 ^ 64
    let next :=
      if next < min then (min + initHeapWeight priority.level) % 2 ^ 64 else next
    (next, Function.update s.outgoingPacketBufferNextWeights priority
      ((next + 2 ^ priority.level * (priority.level + 1) + priority.level) % 2 ^ 64))
  | _, _ => (next, initHeapWeights)

/-- Puts a packet of the pool on the unreliable list and into the send queue. -/
def pushOutgoing (s : ReliabilityLayer)
    (push : Heap ℕ PacketPtr false → ℕ → PacketPtr → Heap ℕ PacketPtr false) (p : PacketPtr) :
    ReliabilityLayer :=
  let s := s.addToUnreliableLinkedList p
  let w := s.getNextWeight (s.packets p).priority
  { s with
    outgoingPacketBuffer := push s.outgoingPacketBuffer w.1 p
    outgoingPacketBufferNextWeights := w.2 }

/-- The block size of `SplitPacket`, and the longest message that `Send` does not split. -/
def maximumSendBlockBytes (s : ReliabilityLayer) : ℕ :=
  s.mtu.maxDatagramSizeExcludingMessageHeaderBytes - bitsToBytes getMaxMessageHeaderLengthBits

/-- The fragment of `packet` with the given index, as `SplitPacket` fills it in. -/
def fragment (s : ReliabilityLayer) (packet : InternalPacket) (splitPacketIndex : ℕ) :
    InternalPacket :=
  let dataByteLength := bitsToBytes packet.dataBitLength
  let byteOffset := splitPacketIndex * s.maximumSendBlockBytes
  let bytesToSend := min (dataByteLength - byteOffset) s.maximumSendBlockBytes
  { packet with
    messageNumberAssigned := false
    data := packet.data.map (List.drop byteOffset)
    dataBitLength :=
      if bytesToSend ≠ s.maximumSendBlockBytes then
        packet.dataBitLength - splitPacketIndex * (s.maximumSendBlockBytes * 8)
      else bytesToSend * 8
    splitPacketIndex := splitPacketIndex
    splitPacketId := s.splitPacketId
    splitPacketCount := (dataByteLength - 1) / s.maximumSendBlockBytes + 1
    headerLength :=
      bitsToBytes { packet.toTransmissionHeader with
        splitPacketCount := 1 }.getMessageHeaderLengthBits }

/-- The record that `Send` accepted a message. -/
def recordMessage (s : ReliabilityLayer) (fragments : List PacketPtr) : ReliabilityLayer :=
  { s with history := { s.history with messages := s.history.messages ++ [fragments] } }

/-- `SplitPacket`: every fragment is allocated before the first one is pushed. -/
def splitPacket (s : ReliabilityLayer) (packet : InternalPacket) : ReliabilityLayer :=
  let splitPacketCount := (bitsToBytes packet.dataBitLength - 1) / s.maximumSendBlockBytes + 1
  let fragments := List.range' s.allocated splitPacketCount
  let allocated :=
    (List.range splitPacketCount).foldl (fun t i => t.allocate (s.fragment packet i)) s
  let s :=
    { allocated with
      splitPacketId := (s.splitPacketId + 1) % 2 ^ 16
      outgoingPacketBuffer := s.outgoingPacketBuffer.startSeries }
  fragments.foldl (fun t p => t.pushOutgoing Heap.pushSeries p) (s.recordMessage fragments)

/-- The end of `Send` for a message that is not split. -/
def pushWhole (s : ReliabilityLayer) (packet : InternalPacket) : ReliabilityLayer :=
  ((s.recordMessage [s.allocated]).allocate packet).pushOutgoing Heap.push s.allocated

/-- The arguments of `Send`; the time is `CCTimeType` and the receipt a `uint32_t`. -/
structure SendInput where
  data : List UInt8
  numberOfBitsToSend : ℕ
  priority : PacketPriority
  reliability : PacketReliability
  orderingChannel : ℕ
  currentTime : ℕ
  receipt : ℕ
  isLt : numberOfBitsToSend < 2 ^ 32

/-- The packet of `Send` before its ordering indices are assigned. -/
def newPacket (i : SendInput) (reliability : PacketReliability) : InternalPacket where
  toTransmissionHeader :=
    { TransmissionHeader.fromPool reliability with dataBitLength := i.numberOfBitsToSend }
  messageNumberAssigned := false
  creationTime := i.currentTime
  nextActionTime := 0
  retransmissionTime := 0
  headerLength := 0
  data := some i.data
  timesSent := 0
  priority := i.priority
  sendReceiptSerial := i.receipt

/-- `Send`; the result is its return value and the state it leaves. -/
def send (s : ReliabilityLayer) (i : SendInput) : Bool × ReliabilityLayer :=
  let orderingChannel := if i.orderingChannel ≥ 32 then 0 else i.orderingChannel
  let numberOfBytesToSend := bitsToBytes i.numberOfBitsToSend
  if i.numberOfBitsToSend = 0 then (false, s)
  else
    let split := decide (numberOfBytesToSend > s.maximumSendBlockBytes)
    let packet := newPacket i (if split then i.reliability.upgradeForSplit else i.reliability)
    let w := (s.writeIndices orderingChannel).assign orderingChannel packet.toTransmissionHeader
    let packet := { packet with toTransmissionHeader := w.1 }
    let s := { s with writeIndices := Function.update s.writeIndices orderingChannel w.2 }
    (true, if split then s.splitPacket packet else s.pushWhole packet)

end ReliabilityLayer

end SLikeNet
