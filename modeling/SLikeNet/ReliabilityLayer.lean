import SLikeNet.Heap
import SLikeNet.Packet
import SLikeNet.Library.CircularList
import SLikeNet.Library.Segments
import Mathlib.Data.Nat.Notation

/-! The sending side of `ReliabilityLayer`: its packets, queues and counters, and the
operations on its lists. -/

namespace SLikeNet

/-- `BITS_TO_BYTES` on a `BitSize_t`. -/
def bitsToBytes (bits : ℕ) : ℕ := (bits + 7) % 2 ^ 32 / 8

/-- `CCTimeType` wraps at 64 bits. -/
def addTime (a b : ℕ) : ℕ := (a + b) % 2 ^ 64

/-- `time - nextActionTime < (((CCTimeType)-1)/2)` -/
def isDue (time nextActionTime : ℕ) : Bool :=
  decide ((2 ^ 64 - nextActionTime + time) % 2 ^ 64 < (2 ^ 64 - 1) / 2)

/-- `congestionManager.GetMTU()`: at most `MAXIMUM_MTU_SIZE`, and enough for a datagram header,
the longest message header and one byte. -/
structure Mtu where
  bytes : ℕ
  le_bytes : 33 ≤ bytes
  bytes_le : bytes ≤ 1492

namespace Mtu

/-- `GetMaxDatagramSizeExcludingMessageHeaderBytes`: without `GetDataHeaderByteLength`. -/
def maxDatagramSizeExcludingMessageHeaderBytes (mtu : Mtu) : ℕ := mtu.bytes - (2 + 3 + 4)

def maxDatagramSizeExcludingMessageHeaderBits (mtu : Mtu) : ℕ :=
  mtu.maxDatagramSizeExcludingMessageHeaderBytes * 8

end Mtu

namespace PacketPriority

def level : PacketPriority → ℕ
  | immediate => 0
  | high => 1
  | medium => 2
  | low => 3

end PacketPriority

def TransmissionHeader.getMessageHeaderLengthBits (h : TransmissionHeader) : ℕ :=
  8 * 1 + 8 * 2 + (if h.reliability.isReliable then 8 * 3 else 0) +
    (if h.reliability.isSequenced then 8 * 3 else 0) +
    (if h.reliability.isSequenced || h.reliability.isOrdered then 8 * 3 + 8 * 1 else 0) +
    (if h.splitPacketCount > 0 then 8 * 4 + 8 * 2 + 8 * 4 else 0)

/-- Longest for a split packet that is reliable and sequenced. -/
def getMaxMessageHeaderLengthBits : ℕ :=
  ({ TransmissionHeader.fromPool .reliableSequenced with splitPacketCount := 1 } :
    TransmissionHeader).getMessageHeaderLengthBits

/-- `InternalPacket`; `data` is `none` where the pointer is null. -/
structure InternalPacket extends TransmissionHeader where
  messageNumberAssigned : Bool
  creationTime : ℕ
  nextActionTime : ℕ
  retransmissionTime : ℕ
  headerLength : ℕ
  data : Option (List UInt8)
  timesSent : ℕ
  priority : PacketPriority
  sendReceiptSerial : ℕ

namespace InternalPacket

def nextPacketBitLength (p : InternalPacket) : ℕ := (p.headerLength + p.dataBitLength) % 2 ^ 32

/-- `BITS_TO_BYTES(headerLength+dataBitLength)`, the share of `unacknowledgedBytes`. -/
def bytes (p : InternalPacket) : ℕ := bitsToBytes (p.headerLength + p.dataBitLength)

/-- `PushPacket` counts header and data in whole bytes. -/
def bitsForThisPacket (p : InternalPacket) : ℕ :=
  (bitsToBytes p.dataBitLength + bitsToBytes p.headerLength) * 8

/-- What `UpdateInternal` records in the datagram history. -/
def recorded (p : InternalPacket) : Bool :=
  p.reliability != .unreliable && p.reliability != .unreliableSequenced

/-- What stands on the list of unreliable packets. -/
def onUnreliableList (p : InternalPacket) : Bool :=
  p.reliability == .unreliable || p.reliability == .unreliableSequenced ||
    p.reliability == .unreliableWithAckReceipt

/-- `reliability>=RELIABLE_WITH_ACK_RECEIPT` on the packet that stands for its message. -/
def wantsReceipt (p : InternalPacket) : Bool :=
  (p.reliability == .reliableWithAckReceipt || p.reliability == .reliableOrderedWithAckReceipt) &&
    (p.splitPacketCount == 0 || p.splitPacketIndex + 1 == p.splitPacketCount)

end InternalPacket

/-- The address of a packet. The pool of the model hands out each address once. -/
abbrev PacketPtr := ℕ

structure DatagramHistoryNode where
  head : List Uint24
  timeSent : ℕ
deriving DecidableEq

/-- `origin` is the packet that the node stands for, for reference in proofs only. -/
structure UnreliableWithAckReceiptNode where
  datagramNumber : Uint24
  sendReceiptSerial : ℕ
  nextActionTime : ℕ
  origin : PacketPtr
deriving DecidableEq

inductive ReceiptId
  | acked
  | loss
deriving DecidableEq

/-- `ID_SND_RECEIPT_ACKED` or `ID_SND_RECEIPT_LOSS` on the output queue. -/
structure Receipt where
  id : ReceiptId
  sendReceiptSerial : ℕ
  origin : PacketPtr
deriving DecidableEq

def UnreliableWithAckReceiptNode.receipt (n : UnreliableWithAckReceiptNode) (id : ReceiptId) :
    Receipt :=
  ⟨id, n.sendReceiptSerial, n.origin⟩

/-- `BPSTracker`, as it counts `USER_MESSAGE_BYTES_SENT`. -/
structure BPSTracker where
  dataQueue : List (ℕ × ℕ)
  lastSec1 : ℕ
deriving DecidableEq

namespace BPSTracker

def push1 (b : BPSTracker) (time value1 : ℕ) : BPSTracker where
  dataQueue := b.dataQueue ++ [(time, value1)]
  lastSec1 := (b.lastSec1 + value1) % 2 ^ 64

def clearLoop (time : ℕ) : List (ℕ × ℕ) → ℕ → BPSTracker
  | [], lastSec1 => ⟨[], lastSec1⟩
  | e :: dataQueue, lastSec1 =>
    if addTime e.1 1000000 < time then
      clearLoop time dataQueue ((2 ^ 64 - e.2 + lastSec1) % 2 ^ 64)
    else ⟨e :: dataQueue, lastSec1⟩

def clearExpired1 (b : BPSTracker) (time : ℕ) : BPSTracker := clearLoop time b.dataQueue b.lastSec1

end BPSTracker

/-- The packets that one update sends, and where its datagrams end. -/
structure DatagramBuffer where
  packetsToSendThisUpdate : List PacketPtr
  packetsToDeallocThisUpdate : List Bool
  packetsToSendThisUpdateDatagramBoundaries : List ℕ
  datagramsToSendThisUpdateIsPair : List Bool
  datagramSizesInBytes : List ℕ
  datagramSizeSoFar : ℕ
  allDatagramSizesSoFar : ℕ

namespace DatagramBuffer

def empty : DatagramBuffer := ⟨[], [], [], [], [], 0, 0⟩

/-- The packets of the datagram with index `datagramIndex`. -/
def datagram (b : DatagramBuffer) (datagramIndex : ℕ) : List PacketPtr :=
  Segments.segment b.packetsToSendThisUpdate b.packetsToSendThisUpdateDatagramBoundaries datagramIndex

end DatagramBuffer

/-- What has happened on a layer. The source has no such record. -/
structure History where
  /-- the packets of each message that `Send` accepted -/
  messages : List (List PacketPtr)
  /-- the reliable packets in the order in which they took their numbers -/
  sent : List PacketPtr
  /-- the packets of each datagram; the first datagram has number zero -/
  wire : List (List PacketPtr)
  /-- the reliable packets whose number was acknowledged while they were outstanding -/
  acknowledged : List PacketPtr
  /-- the packets in datagrams that an acknowledgement covered -/
  covered : List PacketPtr
  /-- the packets that lost their slot of the resend buffer to another one -/
  overwritten : List PacketPtr

def History.empty : History := ⟨[], [], [], [], [], []⟩

structure ReliabilityLayer where
  mtu : Mtu
  packets : PacketPtr → InternalPacket
  allocated : ℕ
  outgoingPacketBuffer : Heap ℕ PacketPtr false
  outgoingPacketBufferNextWeights : PacketPriority → ℕ
  writeIndices : ℕ → WriteIndices
  splitPacketId : ℕ
  unreliableLinkedList : List PacketPtr
  unreliableTimeout : ℕ
  timeToNextUnreliableCull : ℕ
  resendBuffer : Fin 512 → Option PacketPtr
  resendLinkedList : CircularList PacketPtr
  sendReliableMessageNumberIndex : Uint24
  unacknowledgedBytes : ℕ
  messagesInResendBuffer : ℕ
  bytesInResendBuffer : ℕ
  nextDatagramSequenceNumber : Uint24
  datagramHistory : List DatagramHistoryNode
  datagramHistoryPopCount : Uint24
  unreliableWithAckReceiptHistory : List UnreliableWithAckReceiptNode
  outputQueue : List Receipt
  datagrams : DatagramBuffer
  countdownToNextPacketPair : ℕ
  lastUpdateTime : ℕ
  lastBpsClear : ℕ
  userMessageBytesSent : BPSTracker
  timeLastDatagramArrived : ℕ
  timeoutTime : ℕ
  deadConnection : Bool
  history : History

/-- The slot of a message number, `number & RESEND_BUFFER_ARRAY_MASK`. -/
def resendSlot (number : Uint24) : Fin 512 := ⟨number.val % 512, Nat.mod_lt _ (by decide)⟩

namespace ReliabilityLayer

/-- `AllocateFromInternalPacketPool`, followed by the assignments to the new packet. -/
def allocate (s : ReliabilityLayer) (p : InternalPacket) : ReliabilityLayer :=
  { s with
    packets := Function.update s.packets s.allocated p
    allocated := s.allocated + 1 }

def modifyPacket (s : ReliabilityLayer) (p : PacketPtr) (f : InternalPacket → InternalPacket) :
    ReliabilityLayer :=
  { s with packets := Function.update s.packets p (f (s.packets p)) }

def addToUnreliableLinkedList (s : ReliabilityLayer) (p : PacketPtr) : ReliabilityLayer :=
  if (s.packets p).onUnreliableList then
    { s with unreliableLinkedList := s.unreliableLinkedList ++ [p] }
  else s

def removeFromUnreliableLinkedList (s : ReliabilityLayer) (p : PacketPtr) : ReliabilityLayer :=
  if (s.packets p).onUnreliableList then
    { s with unreliableLinkedList := s.unreliableLinkedList.erase p }
  else s

def freeInternalPacketData (s : ReliabilityLayer) (p : PacketPtr) : ReliabilityLayer :=
  s.modifyPacket p fun q => { q with data := none }

def removeFromList (s : ReliabilityLayer) (p : PacketPtr) (modifyUnacknowledgedBytes : Bool) :
    ReliabilityLayer :=
  { s with
    resendLinkedList := s.resendLinkedList.remove p
    unacknowledgedBytes :=
      if modifyUnacknowledgedBytes then
        (2 ^ 32 - (s.packets p).bytes + s.unacknowledgedBytes) % 2 ^ 32
      else s.unacknowledgedBytes }

/-- Also `InsertPacketIntoResendList`, which does nothing else. -/
def addToListTail (s : ReliabilityLayer) (p : PacketPtr) (modifyUnacknowledgedBytes : Bool) :
    ReliabilityLayer :=
  { s with
    resendLinkedList := s.resendLinkedList.addTail p
    unacknowledgedBytes :=
      if modifyUnacknowledgedBytes then (s.unacknowledgedBytes + (s.packets p).bytes) % 2 ^ 32
      else s.unacknowledgedBytes }

def resendBufferOverflow (s : ReliabilityLayer) : Bool :=
  (s.resendBuffer (resendSlot s.sendReliableMessageNumberIndex)).isSome

/-- The packet is a sent reliable message that no acknowledgement has reached. -/
def Outstanding (s : ReliabilityLayer) (p : PacketPtr) : Prop :=
  p ∈ s.history.sent ∧ p ∉ s.history.acknowledged

instance (s : ReliabilityLayer) (p : PacketPtr) : Decidable (s.Outstanding p) :=
  inferInstanceAs (Decidable (_ ∧ _))

end ReliabilityLayer

end SLikeNet
