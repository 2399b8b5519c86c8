import SLikeNet.Acknowledgements
import SLikeNet.AckWindow

/-! A sending layer and the remote system that acknowledges its datagrams and asks for those that
are missing, with any delay, loss and repetition of what the remote system sends. -/

namespace SLikeNet

open BitStream

namespace CCRakNetSlidingWindow

def greaterThan (a b : Uint24) : Bool :=
  let halfSpan := Uint24.max / 2
  b != a && decide (halfSpan < b - a)

/-- `OnGotPacket`: `skippedMessageCount` and `expectedNextSequenceNumber`, or `none` where it
returns false. -/
def onGotPacket (expectedNextSequenceNumber datagramSequenceNumber : Uint24) :
    Option (ℕ × Uint24) :=
  if datagramSequenceNumber = expectedNextSequenceNumber then some (0, datagramSequenceNumber + 1)
  else if greaterThan datagramSequenceNumber expectedNextSequenceNumber then
    let skippedMessageCount := (datagramSequenceNumber - expectedNextSequenceNumber).val
    if skippedMessageCount > 1000 then
      if skippedMessageCount > 50000 then none else some (1000, datagramSequenceNumber + 1)
    else some (skippedMessageCount, datagramSequenceNumber + 1)
  else some (0, expectedNextSequenceNumber)

end CCRakNetSlidingWindow

/-- The remote system, as far as it answers datagrams. -/
structure RemotePeer where
  mtu : Mtu
  acknowlegements : RangeList
  naks : RangeList
  expectedNextSequenceNumber : Uint24

namespace RemotePeer

/-- The loop over `skippedMessageOffset`. -/
def insertSkipped (datagramNumber : Uint24) : ℕ → RangeList → RangeList
  | 0, naks => naks
  | offset + 1, naks =>
    insertSkipped datagramNumber offset (naks.insert (datagramNumber - .ofNat (offset + 1)))

/-- What `HandleSocketReceiveFromConnectedPlayer` does with the number of a datagram. -/
def gotDatagram (r : RemotePeer) (datagramNumber : Uint24) : RemotePeer :=
  match CCRakNetSlidingWindow.onGotPacket r.expectedNextSequenceNumber datagramNumber with
  | none => r
  | some (skippedMessageCount, expectedNextSequenceNumber) =>
    { r with
      expectedNextSequenceNumber := expectedNextSequenceNumber
      naks := insertSkipped datagramNumber skippedMessageCount r.naks
      acknowlegements := r.acknowlegements.insert datagramNumber }

end RemotePeer

/-- The part of `UpdateInternal` that sends the negative acknowledgements. -/
def sendNAKs (maxDatagramPayload : ℕ) (naks : RangeList) : List (List Bool) × RangeList :=
  if naks.ranges.length > 0 then
    let sent := naks.serialize DatagramHeaderFormat.nak.serialize maxDatagramPayload
    ([sent.1], sent.2)
  else ([], naks)

/-- The ranges of a negative acknowledgement. -/
def readNegative (stream : List Bool) : Option RangeList :=
  match DatagramHeaderFormat.deserialize (.ofStream stream) with
  | (some .nak, r) => RangeList.deserialize r
  | _ => none

namespace ReliabilityLayer

/-- `HandleSocketReceiveFromConnectedPlayer` for a datagram with acknowledgements. -/
def receiveAck (s : ReliabilityLayer) (stream : List Bool) (timeMS : ℕ) :
    Verdict × ReliabilityLayer :=
  let s := s.datagramArrived timeMS
  match readAcknowledgement stream with
  | none => (.malicious, s)
  | some incomingAcks => s.handleAck incomingAcks

def receiveNak (s : ReliabilityLayer) (stream : List Bool) (timeRead timeMS : ℕ) :
    Verdict × ReliabilityLayer :=
  let s := s.datagramArrived timeMS
  -- Without outstanding datagrams the ranges are not looked at.
  if s.datagramHistory = [] then (.accepted, s)
  else
    match readNegative stream with
    | none => (.malicious, s)
    | some incomingNAKs => s.handleNak incomingNAKs timeRead

end ReliabilityLayer

/-- Both systems, what the remote one has sent, and whether it was reported. -/
structure AckTraffic where
  sender : ReliabilityLayer
  peer : RemotePeer
  acks : List (List Bool)
  naks : List (List Bool)
  malicious : Bool

/-- A datagram of the sender is given by its place among those it has sent; an acknowledgement by
its place among those of the remote system. -/
inductive TrafficEvent
  | send (input : ReliabilityLayer.SendInput)
  | update (input : UpdateInput)
  | setUnreliableTimeout (timeoutMS : ℕ)
  | arrives (datagram : ℕ)
  | sendACKs
  | sendNAKs
  | ack (datagram timeMS : ℕ)
  | nak (datagram timeRead timeMS : ℕ)

namespace AckTraffic

/-- The two systems before the first datagram. -/
def initial (mtu remoteMtu : Mtu) (lastUpdateTime timeLastDatagramArrived timeoutTime : ℕ) :
    AckTraffic :=
  ⟨.initial mtu lastUpdateTime timeLastDatagramArrived timeoutTime, ⟨remoteMtu, .empty, .empty, 0⟩,
    [], [], false⟩

/-- The sender has handled a datagram. -/
def handled (t : AckTraffic) (result : Verdict × ReliabilityLayer) : AckTraffic :=
  { t with sender := result.2, malicious := t.malicious || decide (result.1 = .malicious) }

def step (t : AckTraffic) : TrafficEvent → AckTraffic
  | .send input => { t with sender := t.sender.step (.send input) }
  | .update input => { t with sender := t.sender.step (.update input) }
  | .setUnreliableTimeout timeoutMS =>
    { t with sender := t.sender.step (.setUnreliableTimeout timeoutMS) }
  | .arrives datagram =>
    if datagram < t.sender.history.wire.length then
      { t with peer := t.peer.gotDatagram (.ofNat datagram) }
    else t
  | .sendACKs =>
    let sent := SLikeNet.sendACKs t.peer.mtu.maxDatagramSizeExcludingMessageHeaderBits
      t.peer.acknowlegements
    { t with peer := { t.peer with acknowlegements := sent.2 }, acks := t.acks ++ sent.1 }
  | .sendNAKs =>
    let sent := SLikeNet.sendNAKs t.peer.mtu.maxDatagramSizeExcludingMessageHeaderBits t.peer.naks
    { t with peer := { t.peer with naks := sent.2 }, naks := t.naks ++ sent.1 }
  | .ack datagram timeMS =>
    match t.acks[datagram]? with
    | none => t
    | some stream => t.handled (t.sender.receiveAck stream timeMS)
  | .nak datagram timeRead timeMS =>
    match t.naks[datagram]? with
    | none => t
    | some stream => t.handled (t.sender.receiveNak stream timeRead timeMS)

end AckTraffic

end SLikeNet
