import SLikeNet.ByteQueue
import SLikeNet.MessageBytes

/-! `PacketizedTCP`: messages over the byte streams of `TCPInterface`. A connection is named by its
`SystemAddress`. Plugins and packets that are pushed back are left out, as are the queues from which
the user takes the notifications. -/

namespace SLikeNet

/-- A packet of `TCPInterface`: bytes that came from the network. -/
structure TCPChunk where
  systemAddress : ℕ
  data : List UInt8
deriving DecidableEq

inductive TCPPacketData
  | message (data : List UInt8)
  | downloadProgress (partIndex totalParts : ℕ) (oneChunk : List UInt8)
deriving DecidableEq

/-- A packet of `waitingPackets`. -/
structure TCPPacket where
  systemAddress : ℕ
  data : TCPPacketData
deriving DecidableEq

namespace ByteQueue

/-- The header at the head. Where there are less than four bytes the others do not matter. -/
def peekHeader (q : ByteQueue) : ℕ :=
  let bytes := q.peekBytes 4
  ofBytes (bytes ++ List.replicate (4 - bytes.length) 0)

/-- Enough data is available for the message at the head. -/
def HasMessage (q : ByteQueue) : Prop := q.getBytesWritten ≥ q.peekHeader + 4

instance (q : ByteQueue) : Decidable q.HasMessage := inferInstanceAs (Decidable (_ ≥ _))

/-- The message at the head. -/
def readMessage (q : ByteQueue) : List UInt8 × ByteQueue :=
  (q.incrementReadOffset 4).readBytes q.peekHeader

/-- The loop over the messages, of at most `fuel` turns. -/
def readMessages : ℕ → ByteQueue → List (List UInt8) × ByteQueue
  | 0, q => ([], q)
  | fuel + 1, q =>
    if q.HasMessage then
      (q.readMessage.1 :: (readMessages fuel q.readMessage.2).1,
        (readMessages fuel q.readMessage.2).2)
    else ([], q)

/-- The packet with the progress of a message that is not there yet, with what follows the
header. -/
def downloadProgress (q : ByteQueue) : TCPPacketData × ByteQueue :=
  let q' := q.incrementReadOffset 4
  (.downloadProgress (q.getBytesWritten / 65536) (q.peekHeader / 65536) (q'.peekBytes 65536),
    q'.decrementReadOffset 4)

/-- What is made of `length` bytes that were written. -/
def packetize (length : ℕ) (q : ByteQueue) : List TCPPacketData × ByteQueue :=
  if q.HasMessage then
    let read := q.readMessages q.getBytesWritten
    (read.1.map .message, read.2)
  else if q.getBytesWritten / 65536 ≠ sub q.getBytesWritten length / 65536 then
    ([q.downloadProgress.1], q.downloadProgress.2)
  else ([], q)

end ByteQueue

/-- The queues of `TCPInterface` and what `PacketizedTCP` has. -/
structure PacketizedTCP where
  newIncomingConnections : List ℕ
  lostConnections : List ℕ
  completedConnectionAttempts : List ℕ
  incomingMessages : List TCPChunk
  connections : ℕ → Option ByteQueue
  waitingPackets : List TCPPacket

namespace PacketizedTCP

def initial : PacketizedTCP := ⟨[], [], [], [], fun _ => none, []⟩

/-! ### The sender -/

/-- What `Send` gives to `TCPInterface`: the length in network order and the data. -/
def send (data : List UInt8) : List UInt8 := toBytes 4 data.length ++ data

def totalLengthOfUserData (data : List (List UInt8)) : ℕ :=
  ByteQueue.wrap data.flatten.length

/-- What `SendList` gives to `TCPInterface`. The loop that copies the parameters writes behind its
arrays of 512 entries where there are more than 511. -/
def sendList (data : List (List UInt8)) : Option (List UInt8) :=
  if totalLengthOfUserData data = 0 then some []
  else if data.length > 511 then none
  else some (toBytes 4 (totalLengthOfUserData data) ++ (data.take 511).flatten)

/-! ### The receiver -/

/-- A connection that is in the list stays as it is. -/
def addToConnectionList (sa : ℕ) (s : PacketizedTCP) : PacketizedTCP :=
  match s.connections sa with
  | none => { s with connections := Function.update s.connections sa (some .empty) }
  | some _ => s

def removeFromConnectionList (sa : ℕ) (s : PacketizedTCP) : PacketizedTCP :=
  { s with connections := Function.update s.connections sa none }

def hasNewIncomingConnection (s : PacketizedTCP) : PacketizedTCP :=
  match s.newIncomingConnections with
  | [] => s
  | sa :: rest => addToConnectionList sa { s with newIncomingConnections := rest }

def hasLostConnection (s : PacketizedTCP) : PacketizedTCP :=
  match s.lostConnections with
  | [] => s
  | sa :: rest => removeFromConnectionList sa { s with lostConnections := rest }

def hasCompletedConnectionAttempt (s : PacketizedTCP) : PacketizedTCP :=
  match s.completedConnectionAttempts with
  | [] => s
  | sa :: rest => addToConnectionList sa { s with completedConnectionAttempts := rest }

/-- One notification of each kind is taken. -/
def pushNotificationsToQueues (s : PacketizedTCP) : PacketizedTCP :=
  s.hasNewIncomingConnection.hasLostConnection.hasCompletedConnectionAttempt

/-- What `Receive` does with a chunk that it took; the chunk of a system that is not in the list is
deallocated. -/
def handle (chunk : TCPChunk) (s : PacketizedTCP) : Option PacketizedTCP :=
  match s.connections chunk.systemAddress with
  | none => some s
  | some q => do
    let q ← q.writeBytes chunk.data
    let (packets, q) := q.packetize chunk.data.length
    some { s with
      connections := Function.update s.connections chunk.systemAddress (some q)
      waitingPackets := s.waitingPackets ++ packets.map (TCPPacket.mk chunk.systemAddress) }

end PacketizedTCP

/-! ### Connections -/

/-- The present connection of a `SystemAddress`: whether it is up, the messages that the other end
has sent, the bytes on their way, the messages that `Receive` returned, and the bytes that it has
not kept. -/
structure TCPLink where
  up : Bool
  sent : List (List UInt8)
  inFlight : List UInt8
  returned : List (List UInt8)
  discarded : List UInt8

namespace TCPLink

def closed : TCPLink := ⟨false, [], [], [], []⟩

def opened : TCPLink := ⟨true, [], [], [], []⟩

end TCPLink

/-- A system with `PacketizedTCP` and its connections. `receiving` says that its user is in the loop
of `Receive`, and `undefined` that memory was accessed that is not allocated. -/
structure TCPWorld where
  tcp : PacketizedTCP
  link : ℕ → TCPLink
  receiving : Bool
  undefined : Bool

namespace TCPWorld

inductive Operation
  | connect (sa : ℕ) (incoming : Bool)
  | send (sa : ℕ) (data : List UInt8)
  | sendList (sa : ℕ) (data : List (List UInt8))
  | arrive (sa length : ℕ)
  | lose (sa : ℕ)
  | closeConnection (sa : ℕ)
  | pushNotifications
  | receive
  | receiveInt

def start : TCPWorld := ⟨.initial, fun _ => .closed, false, false⟩

def setLink (sa : ℕ) (link : TCPLink) (s : TCPWorld) : TCPWorld :=
  { s with link := Function.update s.link sa link }

/-- `TCPInterface` queues the notification of a new connection. -/
def connect (sa : ℕ) (incoming : Bool) (s : TCPWorld) : TCPWorld :=
  let tcp :=
    if incoming then
      { s.tcp with newIncomingConnections := s.tcp.newIncomingConnections ++ [sa] }
    else
      { s.tcp with completedConnectionAttempts := s.tcp.completedConnectionAttempts ++ [sa] }
  { s with tcp := tcp }.setLink sa .opened

/-- The other end has sent a message as the bytes. -/
def sent (sa : ℕ) (message bytes : List UInt8) (s : TCPWorld) : TCPWorld :=
  s.setLink sa { s.link sa with
    sent := (s.link sa).sent ++ [message]
    inFlight := (s.link sa).inFlight ++ bytes }

def sendList (sa : ℕ) (data : List (List UInt8)) (s : TCPWorld) : TCPWorld :=
  match PacketizedTCP.sendList data with
  | none => { s with undefined := true }
  | some bytes => s.sent sa data.flatten bytes

/-- `TCPInterface` queues the next bytes of a connection. -/
def arrive (sa length : ℕ) (s : TCPWorld) : TCPWorld :=
  let chunk : TCPChunk := ⟨sa, (s.link sa).inFlight.take length⟩
  { s with tcp := { s.tcp with incomingMessages := s.tcp.incomingMessages ++ [chunk] } }.setLink sa
    { s.link sa with inFlight := (s.link sa).inFlight.drop length }

def lose (sa : ℕ) (s : TCPWorld) : TCPWorld :=
  { s with tcp := { s.tcp with lostConnections := s.tcp.lostConnections ++ [sa] } }.setLink sa
    { s.link sa with up := false }

def closeConnection (sa : ℕ) (s : TCPWorld) : TCPWorld :=
  { s with tcp := s.tcp.removeFromConnectionList sa }.setLink sa { s.link sa with up := false }

/-- The first waiting packet is returned to the user. -/
def returnOutgoingPacket (s : TCPWorld) : TCPWorld :=
  match s.tcp.waitingPackets with
  | [] => s
  | packet :: rest =>
    let s' := { s with tcp := { s.tcp with waitingPackets := rest } }
    match packet.data with
    | .message data =>
      s'.setLink packet.systemAddress { s.link packet.systemAddress with
        returned := (s.link packet.systemAddress).returned ++ [data] }
    | .downloadProgress _ _ _ => s'

/-- `Receive` until its loop: a packet that waits is returned before. -/
def receive (s : TCPWorld) : TCPWorld :=
  let s' := { s with tcp := s.tcp.pushNotificationsToQueues }
  if s'.tcp.waitingPackets = [] then { s' with receiving := true } else s'.returnOutgoingPacket

/-- A chunk that is not kept is noted. -/
def noteDiscarded (chunk : TCPChunk) (s : TCPWorld) : TCPWorld :=
  match s.tcp.connections chunk.systemAddress with
  | none => s.setLink chunk.systemAddress { s.link chunk.systemAddress with
      discarded := (s.link chunk.systemAddress).discarded ++ chunk.data }
  | some _ => s

/-- One turn of the loop of `Receive`, or its end. -/
def receiveInt (s : TCPWorld) : TCPWorld :=
  match s.tcp.incomingMessages with
  | [] => { s with receiving := false }.returnOutgoingPacket
  | chunk :: rest =>
    match PacketizedTCP.handle chunk { s.tcp with incomingMessages := rest } with
    | none => { s with undefined := true }
    | some tcp => { s.noteDiscarded chunk with tcp := tcp }

def perform (s : TCPWorld) : Operation → TCPWorld
  | .connect sa incoming => s.connect sa incoming
  | .send sa data => s.sent sa data (PacketizedTCP.send data)
  | .sendList sa data => s.sendList sa data
  | .arrive sa length => s.arrive sa length
  | .lose sa => s.lose sa
  | .closeConnection sa => s.closeConnection sa
  | .pushNotifications => { s with tcp := s.tcp.pushNotificationsToQueues }
  | .receive => s.receive
  | .receiveInt => s.receiveInt

end TCPWorld

end SLikeNet
