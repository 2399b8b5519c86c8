import SLikeNet.Uint24

/-! Messages as `PacketPriority.h` and `InternalPacket.h` describe them. -/

namespace SLikeNet

inductive PacketReliability
  | unreliable
  | unreliableSequenced
  | reliable
  | reliableOrdered
  | reliableSequenced
  | unreliableWithAckReceipt
  | reliableWithAckReceipt
  | reliableOrderedWithAckReceipt
deriving DecidableEq

inductive PacketPriority
  | immediate
  | high
  | medium
  | low
deriving DecidableEq

namespace PacketReliability

def isSequenced (r : PacketReliability) : Bool :=
  r == reliableSequenced || r == unreliableSequenced

def isOrdered (r : PacketReliability) : Bool :=
  r == reliableOrdered || r == reliableOrderedWithAckReceipt

/-- The types that take a reliable message number. -/
def isReliable (r : PacketReliability) : Bool :=
  r == reliable || r == reliableSequenced || r == reliableOrdered ||
    r == reliableWithAckReceipt || r == reliableOrderedWithAckReceipt

/-- `WriteToBitStreamFromInternalPacket` does not write the receipt to the remote system. -/
def onWire : PacketReliability → PacketReliability
  | unreliableWithAckReceipt => unreliable
  | reliableWithAckReceipt => reliable
  | reliableOrderedWithAckReceipt => reliableOrdered
  | r => r

/-- Split packets cannot be unreliable. -/
def upgradeForSplit : PacketReliability → PacketReliability
  | unreliable => reliable
  | unreliableWithAckReceipt => reliableWithAckReceipt
  | unreliableSequenced => reliableSequenced
  | r => r

theorem isSequenced_onWire (r : PacketReliability) : r.onWire.isSequenced = r.isSequenced := by
  cases r <;> rfl

end PacketReliability

/-- `InternalPacketFixedSizeTransmissionHeader` -/
structure TransmissionHeader where
  reliableMessageNumber : Uint24
  orderingIndex : Uint24
  sequencingIndex : Uint24
  orderingChannel : Nat
  splitPacketId : Nat
  splitPacketIndex : Nat
  splitPacketCount : Nat
  dataBitLength : Nat
  reliability : PacketReliability
deriving DecidableEq

/-- A header as `AllocateFromInternalPacketPool` leaves it, zero where the source sets nothing. -/
def TransmissionHeader.fromPool (reliability : PacketReliability) : TransmissionHeader where
  reliableMessageNumber := Uint24.max
  orderingIndex := 0
  sequencingIndex := 0
  orderingChannel := 0
  splitPacketId := 0
  splitPacketIndex := 0
  splitPacketCount := 0
  dataBitLength := 0
  reliability := reliability

/-- `InternalPacket` and what else derives from the transmission header. -/
class HasTransmissionHeader (P : Type*) where
  header : P → TransmissionHeader

export HasTransmissionHeader (header)

instance : HasTransmissionHeader TransmissionHeader := ⟨id⟩

/-- The write indices of one ordering channel. -/
structure WriteIndices where
  orderedWriteIndex : Uint24
  sequencedWriteIndex : Uint24
deriving DecidableEq

/-- The part of `Send` that numbers a message on its ordering channel. -/
def WriteIndices.assign (w : WriteIndices) (channel : Nat) (h : TransmissionHeader) :
    TransmissionHeader × WriteIndices :=
  if h.reliability.isSequenced then
    ({ h with
        orderingChannel := channel
        orderingIndex := w.orderedWriteIndex
        sequencingIndex := w.sequencedWriteIndex },
      { w with sequencedWriteIndex := w.sequencedWriteIndex.succ })
  else if h.reliability.isOrdered then
    ({ h with orderingChannel := channel, orderingIndex := w.orderedWriteIndex },
      { orderedWriteIndex := w.orderedWriteIndex.succ, sequencedWriteIndex := 0 })
  else (h, w)

end SLikeNet
