import SLikeNet.Heap
import SLikeNet.Packet

/-! One ordering channel of the receiver: the blending of ordered and sequenced
messages in `HandleSocketReceiveFromConnectedPlayer`. -/

namespace SLikeNet

/-- `IsOlderOrderedPacket` -/
def isOlderOrderedPacket (newPacketOrderingIndex waitingForPacketOrderingIndex : Uint24) : Bool :=
  if waitingForPacketOrderingIndex > Uint24.max / 2 then
    decide (newPacketOrderingIndex ≥ waitingForPacketOrderingIndex - Uint24.max / 2 + 1) &&
      decide (newPacketOrderingIndex < waitingForPacketOrderingIndex)
  else
    decide (newPacketOrderingIndex ≥ waitingForPacketOrderingIndex - (Uint24.max / 2 + 1)) ||
      decide (newPacketOrderingIndex < waitingForPacketOrderingIndex)

/-- What becomes of an arriving message. -/
inductive Disposition (P : Type*)
  /-- Pushed to `outputQueue`, with what came off the heap behind it. -/
  | returned (packets : List P)
  | buffered
  /-- "Sequenced rejected: lower than highest known value" -/
  | lateSequenced
  /-- "Rejected older resend" -/
  | olderResend
deriving DecidableEq

namespace Disposition

def output {P : Type*} : Disposition P → List P
  | returned packets => packets
  | _ => []

def isDiscarded {P : Type*} : Disposition P → Bool
  | lateSequenced | olderResend => true
  | _ => false

end Disposition

structure OrderingChannel (P : Type*) where
  orderedReadIndex : Uint24
  highestSequencedReadIndex : Uint24
  orderingHeap : Heap Nat P false
  heapIndexOffset : Uint24

namespace OrderingChannel

variable {P : Type*} [HasTransmissionHeader P]

/-- The channel after `InitializeVariables`. -/
def initial : OrderingChannel P := ⟨0, 0, Heap.empty, 0⟩

/-- "Sequenced has a lower heap weight, ordered has max sequenced weight" -/
def heapWeight (c : OrderingChannel P) (p : P) : Nat :=
  let orderedHoleCount := ((header p).orderingIndex - c.heapIndexOffset).val
  orderedHoleCount * 1048576 +
    if (header p).reliability.isSequenced then (header p).sequencingIndex.val else 1048576 - 1

/-- "Return off heap until order lost": every turn pops the heap, so its size bounds them. -/
def returnOffHeap : Nat → OrderingChannel P → List P × OrderingChannel P
  | 0, c => ([], c)
  | fuel + 1, c =>
    match c.orderingHeap.peek, c.orderingHeap.pop 0 with
    | some head, some (p, heap) =>
      if (header head).orderingIndex = c.orderedReadIndex then
        let c' :=
          if (header p).reliability = .reliableOrdered then
            { c with orderingHeap := heap, orderedReadIndex := c.orderedReadIndex.succ }
          else
            { c with
              orderingHeap := heap
              highestSequencedReadIndex := (header p).sequencingIndex }
        let (ps, c'') := returnOffHeap fuel c'
        (p :: ps, c'')
      else ([], c)
    | _, _ => ([], c)

/-- What the receive loop does with a message it has not refused as a duplicate. -/
def handle (c : OrderingChannel P) (p : P) : Disposition P × OrderingChannel P :=
  if (header p).reliability = .reliableSequenced ∨ (header p).reliability = .unreliableSequenced ∨
      (header p).reliability = .reliableOrdered then
    if (header p).orderingIndex = c.orderedReadIndex then
      if (header p).reliability.isSequenced then
        if isOlderOrderedPacket (header p).sequencingIndex c.highestSequencedReadIndex = false then
          (.returned [p],
            { c with highestSequencedReadIndex := (header p).sequencingIndex + 1 })
        else (.lateSequenced, c)
      else
        let c' :=
          { c with
            orderedReadIndex := c.orderedReadIndex.succ
            highestSequencedReadIndex := 0 }
        let (ps, c'') := returnOffHeap c'.orderingHeap.size c'
        (.returned (p :: ps), c'')
    else if isOlderOrderedPacket (header p).orderingIndex c.orderedReadIndex = false then
      let c' :=
        if c.orderingHeap.size = 0 then { c with heapIndexOffset := c.orderedReadIndex } else c
      (.buffered, { c' with orderingHeap := c'.orderingHeap.push (c'.heapWeight p) p })
    else (.olderResend, c)
  else (.returned [p], c)

end OrderingChannel

end SLikeNet
