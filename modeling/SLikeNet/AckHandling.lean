import SLikeNet.UpdateInternal
import SLikeNet.RangeList

/-! The part of `HandleSocketReceiveFromConnectedPlayer` that takes acknowledgements and
negative acknowledgements, and the steps of a sending layer. -/

namespace SLikeNet

namespace CCRakNetSlidingWindow

def lessThan (a b : Uint24) : Bool :=
  let halfSpan := Uint24.max / 2
  b != a && decide (b - a < halfSpan)

end CCRakNetSlidingWindow

/-- How `HandleSocketReceiveFromConnectedPlayer` returns: `true`, or `false` with
`*isMaliciousDatagram` set. -/
inductive Verdict
  | accepted
  | malicious
deriving DecidableEq

namespace ReliabilityLayer

/-- The distance of a datagram number from the oldest one in the history. -/
def offsetIntoList (s : ReliabilityLayer) (datagramNumber : Uint24) : ℕ :=
  (datagramNumber - s.datagramHistoryPopCount).val

/-- `GetMessageNumberNodeByDatagramIndex`, with the whole list of the node. -/
def getMessageNumberNodeByDatagramIndex (s : ReliabilityLayer) (index : Uint24) : List Uint24 :=
  if s.datagramHistory = [] then []
  else if CCRakNetSlidingWindow.lessThan index s.datagramHistoryPopCount then []
  else
    match s.datagramHistory[s.offsetIntoList index]? with
    | none => []
    | some node => node.head

def removeFromDatagramHistory (s : ReliabilityLayer) (index : Uint24) : ReliabilityLayer :=
  { s with
    datagramHistory :=
      s.datagramHistory.modify (s.offsetIntoList index) fun node => { node with head := [] } }

def pushReceipt (s : ReliabilityLayer) (p : PacketPtr) : ReliabilityLayer :=
  if (s.packets p).wantsReceipt then
    { s with outputQueue := s.outputQueue ++ [⟨.acked, (s.packets p).sendReceiptSerial, p⟩] }
  else s

/-- The record that the message number was acknowledged. -/
def acknowledge (s : ReliabilityLayer) (messageNumber : Uint24) : ReliabilityLayer :=
  { s with
    history :=
      { s.history with
        acknowledged := s.history.acknowledged ++ s.history.sent.filter fun p =>
          decide ((s.packets p).reliableMessageNumber = messageNumber) &&
            !s.history.acknowledged.contains p } }

/-- Takes the packet out of its slot and off the resend list. -/
def removeFromResendBuffer (s : ReliabilityLayer) (p : PacketPtr) (messageNumber : Uint24) :
    ReliabilityLayer :=
  let s :=
    { s with
      resendBuffer := Function.update s.resendBuffer (resendSlot messageNumber) none
      messagesInResendBuffer := (2 ^ 32 - 1 + s.messagesInResendBuffer) % 2 ^ 32
      bytesInResendBuffer :=
        (2 ^ 64 - bitsToBytes (s.packets p).dataBitLength + s.bytesInResendBuffer) % 2 ^ 64 }
  ((s.pushReceipt p).removeFromList p (s.packets p).reliability.isReliable).freeInternalPacketData p

/-- `RemovePacketFromResendListAndDeleteOlderReliableSequenced` -/
def removePacketFromResendList (s : ReliabilityLayer) (messageNumber : Uint24) :
    ReliabilityLayer :=
  let s := s.acknowledge messageNumber
  match s.resendBuffer (resendSlot messageNumber) with
  | none => s
  | some p =>
    if (s.packets p).reliableMessageNumber = messageNumber then
      s.removeFromResendBuffer p messageNumber
    else s

/-- Acknowledges what the history records for a datagram, and clears its node. -/
def ackDatagram (s : ReliabilityLayer) (datagramNumber : Uint24) : ReliabilityLayer :=
  match s.getMessageNumberNodeByDatagramIndex datagramNumber with
  | [] => s
  | node =>
    (node.foldl removePacketFromResendList s).removeFromDatagramHistory datagramNumber

/-- Lets the packets behind the message numbers of a node be resent at once. -/
def nakMessage (timeRead : ℕ) (s : ReliabilityLayer) (messageNumber : Uint24) : ReliabilityLayer :=
  match s.resendBuffer (resendSlot messageNumber) with
  | none => s
  | some p =>
    if (s.packets p).nextActionTime ≠ 0 then
      s.modifyPacket p fun q => { q with nextActionTime := timeRead }
    else s

def nakDatagram (timeRead : ℕ) (s : ReliabilityLayer) (datagramNumber : Uint24) :
    ReliabilityLayer :=
  (s.getMessageNumberNodeByDatagramIndex datagramNumber).foldl (nakMessage timeRead) s

/-- The loop over the numbers of one range. It says whether it left the history, which ends
the processing of the whole datagram. -/
def rangeLoop (onDatagram : ReliabilityLayer → Uint24 → ReliabilityLayer) :
    ReliabilityLayer → List Uint24 → Bool × ReliabilityLayer
  | s, [] => (false, s)
  | s, datagramNumber :: numbers =>
    if s.offsetIntoList datagramNumber ≥ s.datagramHistory.length then (true, s)
    else rangeLoop onDatagram (onDatagram s datagramNumber) numbers

def rangesLoop (onDatagram : ReliabilityLayer → Uint24 → ReliabilityLayer) :
    ReliabilityLayer → List RangeNode → Verdict × ReliabilityLayer
  | s, [] => (.accepted, s)
  | s, r :: ranges =>
    if r.maxIndex = .ofNat 0xFFFFFFFF then (.malicious, s)
    else
      let l := rangeLoop onDatagram s r.numbers
      if l.1 then (.accepted, l.2) else rangesLoop onDatagram l.2 ranges

/-- The nodes for datagrams that are acknowledged leave the history with a receipt. -/
def reportAcked (s : ReliabilityLayer) (incomingAcks : RangeList) : ReliabilityLayer :=
  let acked :=
    s.unreliableWithAckReceiptHistory.filter fun n => incomingAcks.isWithinRange n.datagramNumber
  { s with
    unreliableWithAckReceiptHistory :=
      s.unreliableWithAckReceiptHistory.filter fun n =>
        !incomingAcks.isWithinRange n.datagramNumber
    outputQueue := s.outputQueue ++ acked.map fun n => n.receipt .acked }

/-- The unbounded number of the oldest datagram in the history. -/
def historyStart (s : ReliabilityLayer) : ℕ := s.history.wire.length - s.datagramHistory.length

/-- The datagrams of the history window whose number the ranges cover. -/
def coveredDatagrams (s : ReliabilityLayer) (ranges : RangeList) : List (List PacketPtr) :=
  ((s.history.wire.zipIdx.drop s.historyStart).filter fun d =>
    decide (ranges.Covers (.ofNat d.2))).map Prod.fst

/-- The record of the packets that the acknowledgement covers. -/
def cover (s : ReliabilityLayer) (ranges : RangeList) : ReliabilityLayer :=
  { s with
    history :=
      { s.history with
        covered := s.history.covered ++ (s.coveredDatagrams ranges).flatten } }

/-- An acknowledgement whose ranges were deserialized. -/
def handleAck (s : ReliabilityLayer) (incomingAcks : RangeList) : Verdict × ReliabilityLayer :=
  let s := (s.cover incomingAcks).reportAcked incomingAcks
  if s.datagramHistory = [] then (.accepted, s)
  else rangesLoop ackDatagram s incomingAcks.ranges

/-- A negative acknowledgement whose ranges were deserialized. -/
def handleNak (s : ReliabilityLayer) (incomingNAKs : RangeList) (timeRead : ℕ) :
    Verdict × ReliabilityLayer :=
  if s.datagramHistory = [] then (.accepted, s)
  else rangesLoop (nakDatagram timeRead) s incomingNAKs.ranges

/-- A datagram from the remote system arrives. -/
def datagramArrived (s : ReliabilityLayer) (timeMS : ℕ) : ReliabilityLayer :=
  { s with timeLastDatagramArrived := timeMS % 2 ^ 32 }

/-- `SetUnreliableTimeout` -/
def setUnreliableTimeout (s : ReliabilityLayer) (timeoutMS : ℕ) : ReliabilityLayer :=
  { s with unreliableTimeout := timeoutMS % 2 ^ 32 * 1000 }

/-- A layer after `Reset`. -/
def initial (mtu : Mtu) (lastUpdateTime timeLastDatagramArrived timeoutTime : ℕ) :
    ReliabilityLayer where
  mtu := mtu
  packets _ := newPacket ⟨[], 0, .immediate, .unreliable, 0, 0, 0, by decide⟩ .unreliable
  allocated := 0
  outgoingPacketBuffer := .empty
  outgoingPacketBufferNextWeights := initHeapWeights
  writeIndices _ := ⟨0, 0⟩
  splitPacketId := 0
  unreliableLinkedList := []
  unreliableTimeout := 0
  timeToNextUnreliableCull := 0
  resendBuffer _ := none
  resendLinkedList := ⟨none, id, id⟩
  sendReliableMessageNumberIndex := 0
  unacknowledgedBytes := 0
  messagesInResendBuffer := 0
  bytesInResendBuffer := 0
  nextDatagramSequenceNumber := 0
  datagramHistory := []
  datagramHistoryPopCount := 0
  unreliableWithAckReceiptHistory := []
  outputQueue := []
  datagrams := .empty
  countdownToNextPacketPair := 15
  lastUpdateTime := lastUpdateTime
  lastBpsClear := 0
  userMessageBytesSent := ⟨[], 0⟩
  timeLastDatagramArrived := timeLastDatagramArrived
  timeoutTime := timeoutTime
  deadConnection := false
  history := .empty

end ReliabilityLayer

/-- What can happen to a sending layer. -/
inductive SenderInput
  | send (input : ReliabilityLayer.SendInput)
  | update (input : UpdateInput)
  | ack (incomingAcks : RangeList) (timeMS : ℕ)
  | nak (incomingNAKs : RangeList) (timeRead timeMS : ℕ)
  | setUnreliableTimeout (timeoutMS : ℕ)

namespace ReliabilityLayer

def step (s : ReliabilityLayer) : SenderInput → ReliabilityLayer
  | .send input => (s.send input).2
  | .update input => s.updateInternal input
  | .ack incomingAcks timeMS => ((s.datagramArrived timeMS).handleAck incomingAcks).2
  | .nak incomingNAKs timeRead timeMS =>
    ((s.datagramArrived timeMS).handleNak incomingNAKs timeRead).2
  | .setUnreliableTimeout timeoutMS => s.setUnreliableTimeout timeoutMS

end ReliabilityLayer

end SLikeNet
