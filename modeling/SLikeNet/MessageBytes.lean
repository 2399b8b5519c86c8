import Mathlib.Algebra.Group.Nat.Defs
import Mathlib.Logic.Function.Iterate
import SLikeNet.RemoteSystem

/-! The bytes of the messages by which two peers come to be connected: identifiers, fields in
network order, and the reads of `BitStream` that leave their target as it was when the stream
is too short. -/

namespace SLikeNet

namespace MessageID

def connectedPing : UInt8 := 0
def unconnectedPing : UInt8 := 1
def unconnectedPingOpenConnections : UInt8 := 2
def connectedPong : UInt8 := 3
def detectLostConnections : UInt8 := 4
def openConnectionRequest1 : UInt8 := 5
def openConnectionReply1 : UInt8 := 6
def openConnectionRequest2 : UInt8 := 7
def openConnectionReply2 : UInt8 := 8
def connectionRequest : UInt8 := 9
def outOfBandInternal : UInt8 := 13
def sndReceiptAcked : UInt8 := 14
def sndReceiptLoss : UInt8 := 15
def connectionRequestAccepted : UInt8 := 16
def connectionAttemptFailed : UInt8 := 17
def alreadyConnected : UInt8 := 18
def newIncomingConnection : UInt8 := 19
def noFreeIncomingConnections : UInt8 := 20
def disconnectionNotification : UInt8 := 21
def connectionLost : UInt8 := 22
def connectionBanned : UInt8 := 23
def invalidPassword : UInt8 := 24
def incompatibleProtocolVersion : UInt8 := 25
def ipRecentlyConnected : UInt8 := 26
def timestamp : UInt8 := 27
def unconnectedPong : UInt8 := 28
def advertiseSystem : UInt8 := 29

end MessageID

/-- `RAKNET_PROTOCOL_VERSION` -/
def raknetProtocolVersion : UInt8 := 6

/-- `UDP_HEADER_SIZE` -/
def udpHeaderSize : ℕ := 28

/-- `MAXIMUM_NUMBER_OF_INTERNAL_IDS` -/
def maximumNumberOfInternalIds : ℕ := 10

def offlineMessageDataId : List UInt8 :=
  [0x00, 0xFF, 0xFF, 0x00, 0xFE, 0xFE, 0xFE, 0xFE, 0xFD, 0xFD, 0xFD, 0xFD, 0x12, 0x34, 0x56, 0x78]

/-! ### Writing -/

/-- A number in `width` bytes, the highest first. -/
def toBytes : ℕ → ℕ → List UInt8
  | 0, _ => []
  | width + 1, n => UInt8.ofNat (n / 256 ^ width) :: toBytes width n

def ofBytes (bytes : List UInt8) : ℕ := bytes.foldl (fun n b => 256 * n + b.toNat) 0

@[simp] theorem length_toBytes (width n : ℕ) : (toBytes width n).length = width := by
  induction width with
  | zero => rfl
  | succ width ih => rw [toBytes, List.length_cons, ih]

theorem foldl_toBytes (width n start : ℕ) :
    (toBytes width n).foldl (fun n b => 256 * n + b.toNat) start =
      256 ^ width * start + n % 256 ^ width := by
  induction width generalizing start with
  | zero =>
    show start = 1 * start + n % 1
    omega
  | succ width ih =>
    have hbyte : (UInt8.ofNat (n / 256 ^ width)).toNat = n / 256 ^ width % 256 := UInt8.toNat_ofNat'
    have hsplit : n % 256 ^ (width + 1) =
        n % 256 ^ width + 256 ^ width * (n / 256 ^ width % 256) := by
      rw [Nat.pow_succ, Nat.mod_mul]
    rw [toBytes, List.foldl_cons, ih, hbyte, hsplit, Nat.pow_succ, Nat.mul_add, Nat.mul_assoc]
    omega

theorem ofBytes_toBytes {width n : ℕ} (h : n < 256 ^ width) : ofBytes (toBytes width n) = n := by
  rw [ofBytes, foldl_toBytes, Nat.mul_zero, Nat.zero_add, Nat.mod_eq_of_lt h]

def RakNetGUID.bytes (guid : RakNetGUID) : List UInt8 := toBytes 8 guid.g.toNat

/-- `BitStream::Write(SystemAddress)`: the IP address is hidden from routers. -/
def SystemAddress.bytes (sa : SystemAddress) : List UInt8 :=
  [4] ++ toBytes 4 (~~~sa.ip).toNat ++ toBytes 2 sa.port.toNat

/-- The header of the messages to systems that are not connected. -/
def offlineHeader (id : UInt8) : List UInt8 := [id] ++ offlineMessageDataId

/-! ### Reading -/

/-- What an uninitialised variable holds where a failed read leaves it alone. -/
structure Uninitialised where
  ipVersion : UInt8
  binaryAddress : UInt32
  serverHasSecurity : UInt8
  cookie : UInt32
  mtu : UInt16
  incomingTimestamp : UInt64
  sendPingTime : UInt64
  sendPongTime : UInt64

/-- The bytes that a stream has not read yet. -/
abbrev Unread := List UInt8

/-- A read of `n` bytes, which reads nothing where fewer are left. -/
def readBytes (n : ℕ) (unread : Unread) : Option (List UInt8) × Unread :=
  if unread.length < n then (none, unread) else (some (unread.take n), unread.drop n)

def readNat (n : ℕ) (unread : Unread) : Option ℕ × Unread :=
  ((readBytes n unread).1.map ofBytes, (readBytes n unread).2)

def readUInt8 (unread : Unread) : Option UInt8 × Unread :=
  ((readNat 1 unread).1.map UInt8.ofNat, (readNat 1 unread).2)

def readUInt16 (unread : Unread) : Option UInt16 × Unread :=
  ((readNat 2 unread).1.map UInt16.ofNat, (readNat 2 unread).2)

def readUInt32 (unread : Unread) : Option UInt32 × Unread :=
  ((readNat 4 unread).1.map UInt32.ofNat, (readNat 4 unread).2)

def readUInt64 (unread : Unread) : Option UInt64 × Unread :=
  ((readNat 8 unread).1.map UInt64.ofNat, (readNat 8 unread).2)

/-- `RakNetGUID` starts out unassigned. -/
def readGuid (unread : Unread) : RakNetGUID × Unread :=
  (((readUInt64 unread).1.map RakNetGUID.mk).getD .unassigned, (readUInt64 unread).2)

theorem readBytes_of_lt {n : ℕ} {unread : Unread} (h : unread.length < n) :
    readBytes n unread = (none, unread) :=
  if_pos h

theorem readBytes_of_le {n : ℕ} {unread : Unread} (h : n ≤ unread.length) :
    readBytes n unread = (some (unread.take n), unread.drop n) :=
  if_neg (Nat.not_lt.mpr h)

theorem readUInt64_of_lt {unread : Unread} (h : unread.length < 8) :
    readUInt64 unread = (none, unread) := by
  rw [readUInt64, readNat, readBytes_of_lt h]
  rfl

theorem readUInt64_of_le {unread : Unread} (h : 8 ≤ unread.length) :
    readUInt64 unread = (some (UInt64.ofNat (ofBytes (unread.take 8))), unread.drop 8) := by
  rw [readUInt64, readNat, readBytes_of_le h]
  rfl

theorem readUInt8_cons (b : UInt8) (rest : Unread) : readUInt8 (b :: rest) = (some b, rest) := by
  rw [readUInt8, readNat, readBytes_of_le (Nat.le_add_left 1 rest.length)]
  show (some (UInt8.ofNat (256 * 0 + b.toNat)), rest) = _
  rw [Nat.mul_zero, Nat.zero_add, UInt8.ofNat_toNat]

theorem readGuid_snd (unread : Unread) : (readGuid unread).2 = (readUInt64 unread).2 := rfl

/-- `BitStream::Read(SystemAddress)` into an unassigned address, and whether it succeeds. -/
def readSystemAddress (u : Uninitialised) (unread : Unread) : Bool × SystemAddress × Unread :=
  let version := readUInt8 unread
  if version.1.getD u.ipVersion = 4 then
    let binaryAddress := readUInt32 version.2
    let port := readUInt16 binaryAddress.2
    (port.1.isSome, ⟨~~~binaryAddress.1.getD u.binaryAddress, port.1.getD 0⟩, port.2)
  else (false, .unassigned, version.2)

/-- The stream ends before the address does: before its version, or before the six bytes that
follow version 4. An address of another version is refused, and nothing follows. -/
def addressCutOff : Unread → Bool
  | [] => true
  | version :: rest => decide (version = 4) && decide (rest.length < 4 + 2)

/-- The internal addresses of the remote system, which nothing here uses. -/
def skipInternalIds (u : Uninitialised) (unread : Unread) : Unread :=
  Nat.iterate (fun unread => (readSystemAddress u unread).2.2) maximumNumberOfInternalIds unread

end SLikeNet
