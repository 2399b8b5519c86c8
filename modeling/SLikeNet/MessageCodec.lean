import SLikeNet.ReliabilityLayer
import SLikeNet.DatagramHeaderFormat

/-! `WriteToBitStreamFromInternalPacket` and `CreateInternalPacketFromBitStream`: the messages
of a datagram on a bit stream. -/

namespace SLikeNet

open BitStream

/-- `MAX_SPLIT_PACKET_COUNT` -/
def maxSplitPacketCount : ℕ := 100000

namespace PacketReliability

def toByte : PacketReliability → ℕ
  | unreliable => 0
  | unreliableSequenced => 1
  | reliable => 2
  | reliableOrdered => 3
  | reliableSequenced => 4
  | unreliableWithAckReceipt => 5
  | reliableWithAckReceipt => 6
  | reliableOrderedWithAckReceipt => 7

/-- The value of three bits; there are eight reliabilities. -/
def ofByte : ℕ → PacketReliability
  | 0 => unreliable
  | 1 => unreliableSequenced
  | 2 => reliable
  | 3 => reliableOrdered
  | 4 => reliableSequenced
  | 5 => unreliableWithAckReceipt
  | 6 => reliableWithAckReceipt
  | _ => reliableOrderedWithAckReceipt

theorem toByte_lt (r : PacketReliability) : r.toByte < 2 ^ 3 := by
  cases r <;> decide

theorem ofByte_toByte (r : PacketReliability) : ofByte r.toByte = r := by
  cases r <;> rfl

/-- The types for which `CreateInternalPacketFromBitStream` reads a message number. -/
def readsNumber (r : PacketReliability) : Bool :=
  r == reliable || r == reliableSequenced || r == reliableOrdered

theorem readsNumber_onWire (r : PacketReliability) : r.onWire.readsNumber = r.isReliable := by
  cases r <;> rfl

end PacketReliability

/-- What a datagram carries of an `InternalPacket`. -/
structure TransmittedMessage extends TransmissionHeader where
  data : List UInt8
deriving DecidableEq

namespace TransmittedMessage

def payload (m : TransmittedMessage) : List UInt8 := m.data.take (bitsToBytes m.dataBitLength)

def byteBits (data : List UInt8) : List Bool := data.flatMap fun b => toBits 8 b.toNat

/-- Whether the message has an ordering index and a channel. -/
def hasChannel (r : PacketReliability) : Bool := r.isSequenced || r.isOrdered

/-- `WriteToBitStreamFromInternalPacket` -/
def write (stream : List Bool) (m : TransmittedMessage) : List Bool :=
  let s := align stream ++ toBits 3 m.reliability.onWire.toByte
  let s := s ++ [decide (m.splitPacketCount > 0)]
  let s := align s ++ toBits 16 m.dataBitLength
  let s := if m.reliability.isReliable then m.reliableMessageNumber.write s else s
  let s := align s
  let s := if m.reliability.isSequenced then m.sequencingIndex.write s else s
  let s := if hasChannel m.reliability then m.orderingIndex.write s ++ toBits 8 m.orderingChannel
    else s
  let s := if m.splitPacketCount > 0 then
      s ++ toBits 32 m.splitPacketCount ++ toBits 16 m.splitPacketId ++ toBits 32 m.splitPacketIndex
    else s
  align s ++ byteBits m.payload

/-- Reads into a variable that keeps its value where the stream has too few bits. -/
def readOr {α : Type*} (read : Reader → Option α × Reader) (old : α) (r : Reader) : α × Reader :=
  ((read r).1.getD old, (read r).2)

def readNatOr (width old : ℕ) (r : Reader) : ℕ × Reader := readOr (·.readNat width) old r

/-- The reliability, whether the packet is split, and the length of its data. There are
always enough bits for these. -/
def readStart (r : Reader) : (PacketReliability × Bool × ℕ) × Reader :=
  let tempChar := readNatOr 3 0 r.align
  let hasSplitPacket := readOr Reader.readBool false tempChar.2
  let dataBitLength := readNatOr 16 0 hasSplitPacket.2.align
  ((.ofByte tempChar.1, hasSplitPacket.1, dataBitLength.1), dataBitLength.2)

def readNumber (reliability : PacketReliability) (r : Reader) : Uint24 × Reader :=
  let number := if reliability.readsNumber then readOr Uint24.read .max r else (.max, r)
  (number.1, number.2.align)

def readSequencingIndex (reliability : PacketReliability) (old : Uint24) (r : Reader) :
    Uint24 × Reader :=
  if reliability.isSequenced then readOr Uint24.read old r else (old, r)

/-- The ordering index, the channel, and `readSuccess` of the channel. -/
def readChannel (reliability : PacketReliability) (old : TransmissionHeader) (r : Reader) :
    (Uint24 × ℕ × Bool) × Reader :=
  if hasChannel reliability then
    let orderingIndex := readOr Uint24.read old.orderingIndex r
    let orderingChannel := orderingIndex.2.readNat 8
    ((orderingIndex.1, orderingChannel.1.getD old.orderingChannel, orderingChannel.1.isSome),
      orderingChannel.2)
  else ((old.orderingIndex, 0, true), r)

/-- The split fields, and `readSuccess` of the last one. -/
def readSplit (hasSplitPacket readSuccess : Bool) (r : Reader) : (ℕ × ℕ × ℕ × Bool) × Reader :=
  if hasSplitPacket then
    let splitPacketCount := readNatOr 32 0 r
    let splitPacketId := readNatOr 16 0 splitPacketCount.2
    let splitPacketIndex := splitPacketId.2.readNat 32
    ((splitPacketCount.1, splitPacketId.1, splitPacketIndex.1.getD 0, splitPacketIndex.1.isSome),
      splitPacketIndex.2)
  else ((0, 0, 0, readSuccess), r)

def bytesOf : ℕ → List Bool → List UInt8
  | 0, _ => []
  | n + 1, bits => .ofNat (ofBits (bits.take 8)) :: bytesOf n (bits.drop 8)

/-- `ReadAlignedBytes` -/
def readAlignedBytes (r : Reader) (numberOfBytesToRead : ℕ) : Option (List UInt8) × Reader :=
  let bits := r.align.read (8 * numberOfBytesToRead)
  (bits.1.map (bytesOf numberOfBytesToRead), bits.2)

/-- What is accepted of a header that was read. -/
def validates (h : TransmissionHeader) (hasSplitPacket readSuccess : Bool) : Bool :=
  readSuccess && decide (h.dataBitLength ≠ 0) && decide (h.orderingChannel < 32) &&
    (!hasSplitPacket ||
      (decide (h.splitPacketIndex < h.splitPacketCount) &&
        decide (h.splitPacketCount ≤ maxSplitPacketCount) &&
        (decide (h.dataBitLength % 8 = 0) ||
          decide (h.splitPacketIndex + 1 = h.splitPacketCount))))

/-- The header as it is read. What the stream does not hold stays as in the packet of the
pool, `pool`. -/
def readHeader (pool : TransmissionHeader) (r : Reader) :
    (TransmissionHeader × Bool × Bool) × Reader :=
  let start := readStart r
  let reliability := start.1.1
  let number := readNumber reliability start.2
  let sequencing := readSequencingIndex reliability pool.sequencingIndex number.2
  let channel := readChannel reliability pool sequencing.2
  let split := readSplit start.1.2.1 channel.1.2.2 channel.2
  (({ reliableMessageNumber := number.1
      orderingIndex := channel.1.1
      sequencingIndex := sequencing.1
      orderingChannel := channel.1.2.1
      splitPacketId := split.1.2.1
      splitPacketIndex := split.1.2.2.1
      splitPacketCount := split.1.1
      dataBitLength := start.1.2.2
      reliability := reliability },
    start.1.2.1, split.1.2.2.2), split.2)

/-- `CreateInternalPacketFromBitStream` -/
def create (pool : TransmissionHeader) (r : Reader) : Option TransmittedMessage × Reader :=
  if r.unread.length < 4 * 8 then (none, r)
  else
    let header := readHeader pool r
    if validates header.1.1 header.1.2.1 header.1.2.2 then
      let data := readAlignedBytes header.2 (bitsToBytes header.1.1.dataBitLength)
      (data.1.map fun bytes => { header.1.1 with data := bytes }, data.2)
    else (none, header.2)

/-- Parses messages until `CreateInternalPacketFromBitStream` returns 0; `pool` gives the
packet that is allocated each time. -/
def createAll (pool : ℕ → TransmissionHeader) : ℕ → Reader → List TransmittedMessage
  | 0, _ => []
  | calls + 1, r =>
    match create (pool calls) r with
    | (none, _) => []
    | (some m, r) => m :: createAll pool calls r

/-- A message that the sender may write. -/
structure Transmittable (m : TransmittedMessage) : Prop where
  dataBitLength_pos : 1 ≤ m.dataBitLength
  dataBitLength_le : m.dataBitLength ≤ 65535
  le_length : bitsToBytes m.dataBitLength ≤ m.data.length
  orderingChannel_lt : m.orderingChannel < 32
  splitPacketId_lt : m.splitPacketId < 2 ^ 16
  splitPacketIndex_lt : m.splitPacketCount > 0 → m.splitPacketIndex < m.splitPacketCount
  splitPacketCount_le : m.splitPacketCount ≤ maxSplitPacketCount
  interior_aligned : m.splitPacketCount > 0 →
    m.dataBitLength % 8 = 0 ∨ m.splitPacketIndex + 1 = m.splitPacketCount

/-- The message that was read is the one that was sent, in all that its reliability transmits. -/
structure ReadAs (sent received : TransmittedMessage) : Prop where
  reliability_eq : received.reliability = sent.reliability.onWire
  dataBitLength_eq : received.dataBitLength = sent.dataBitLength
  reliableMessageNumber_eq : sent.reliability.isReliable = true →
    received.reliableMessageNumber = sent.reliableMessageNumber
  sequencingIndex_eq : sent.reliability.isSequenced = true →
    received.sequencingIndex = sent.sequencingIndex
  channel_eq : hasChannel sent.reliability = true →
    received.orderingIndex = sent.orderingIndex ∧ received.orderingChannel = sent.orderingChannel
  splitPacketCount_eq : received.splitPacketCount = sent.splitPacketCount
  split_eq : sent.splitPacketCount > 0 →
    received.splitPacketId = sent.splitPacketId ∧ received.splitPacketIndex = sent.splitPacketIndex
  data_eq : received.data = sent.payload

def startBits (m : TransmittedMessage) : List Bool :=
  toBits 3 m.reliability.onWire.toByte ++ (decide (m.splitPacketCount > 0) ::
    (List.replicate 4 false ++ toBits 16 m.dataBitLength))

def numberBits (m : TransmittedMessage) : List Bool :=
  if m.reliability.isReliable then m.reliableMessageNumber.bytes else []

def sequencingBits (m : TransmittedMessage) : List Bool :=
  if m.reliability.isSequenced then m.sequencingIndex.bytes else []

def channelBits (m : TransmittedMessage) : List Bool :=
  if hasChannel m.reliability then m.orderingIndex.bytes ++ toBits 8 m.orderingChannel else []

def splitBits (m : TransmittedMessage) : List Bool :=
  if m.splitPacketCount > 0 then
    toBits 32 m.splitPacketCount ++ (toBits 16 m.splitPacketId ++ toBits 32 m.splitPacketIndex)
  else []

/-- The message on a stream that is aligned. -/
def bits (m : TransmittedMessage) : List Bool :=
  m.startBits ++ (m.numberBits ++ (m.sequencingBits ++ (m.channelBits ++ (m.splitBits ++
    byteBits m.payload))))

theorem length_startBits (m : TransmittedMessage) : m.startBits.length = 24 := by
  simp only [startBits, List.length_append, List.length_cons, length_toBits,
    List.length_replicate]

theorem length_numberBits (m : TransmittedMessage) :
    m.numberBits.length = if m.reliability.isReliable then 8 * 3 else 0 := by
  unfold numberBits
  split
  · exact Uint24.length_bytes _
  · rfl

theorem length_sequencingBits (m : TransmittedMessage) :
    m.sequencingBits.length = if m.reliability.isSequenced then 8 * 3 else 0 := by
  unfold sequencingBits
  split
  · exact Uint24.length_bytes _
  · rfl

theorem length_channelBits (m : TransmittedMessage) :
    m.channelBits.length = if hasChannel m.reliability then 8 * 3 + 8 * 1 else 0 := by
  unfold channelBits
  split
  · rw [List.length_append, Uint24.length_bytes, length_toBits]
  · rfl

theorem length_splitBits (m : TransmittedMessage) :
    m.splitBits.length = if m.splitPacketCount > 0 then 8 * 4 + 8 * 2 + 8 * 4 else 0 := by
  unfold splitBits
  split
  · simp only [List.length_append, length_toBits]
  · rfl

theorem length_byteBits (data : List UInt8) : (byteBits data).length = 8 * data.length := by
  induction data with
  | nil => rfl
  | cons b data ih =>
    rw [byteBits, List.flatMap_cons, List.length_append, length_toBits, List.length_cons]
    show 8 + (byteBits data).length = _
    rw [ih]
    omega

theorem length_payload {m : TransmittedMessage} (h : Transmittable m) :
    m.payload.length = bitsToBytes m.dataBitLength := by
  rw [payload, List.length_take]
  exact Nat.min_eq_left h.le_length

theorem length_bits_payload (m : TransmittedMessage) :
    m.bits.length = m.getMessageHeaderLengthBits + 8 * m.payload.length := by
  simp only [bits, List.length_append, length_startBits, length_numberBits, length_sequencingBits,
    length_channelBits, length_splitBits, length_byteBits]
  unfold TransmissionHeader.getMessageHeaderLengthBits hasChannel
  omega

theorem length_bits {m : TransmittedMessage} (h : Transmittable m) :
    m.bits.length = m.getMessageHeaderLengthBits + 8 * bitsToBytes m.dataBitLength := by
  rw [length_bits_payload, length_payload h]

theorem getMessageHeaderLengthBits_aligned (h : TransmissionHeader) :
    h.getMessageHeaderLengthBits % 8 = 0 := by
  unfold TransmissionHeader.getMessageHeaderLengthBits
  split_ifs <;> rfl

theorem write_start {stream : List Bool} (h : stream.length % 8 = 0) (m : TransmittedMessage) :
    align (align stream ++ toBits 3 m.reliability.onWire.toByte ++
        [decide (m.splitPacketCount > 0)]) ++ toBits 16 m.dataBitLength =
      stream ++ m.startBits := by
  have hpadding : padding (stream ++ toBits 3 m.reliability.onWire.toByte ++
      [decide (m.splitPacketCount > 0)]).length = 4 := by
    simp only [padding, List.length_append, length_toBits, List.length_singleton]
    omega
  rw [align_of_aligned h, align, hpadding]
  simp only [startBits, List.append_assoc, List.cons_append, List.nil_append]

theorem write_if {stream : List Bool} (h : stream.length % 8 = 0) (c : Bool) (n : Uint24) :
    (if c then n.write stream else stream) = stream ++ if c then n.bytes else [] := by
  cases c with
  | true => exact Uint24.write_of_aligned h n
  | false => exact (List.append_nil stream).symm

theorem aligned_if {bits : List Bool} {c : Prop} [Decidable c] {n : ℕ}
    (hlen : bits.length = if c then n else 0) (hn : n % 8 = 0) : bits.length % 8 = 0 := by
  rw [hlen]
  split
  · exact hn
  · exact Nat.zero_mod 8

theorem write_eq {stream : List Bool} (h : stream.length % 8 = 0) (m : TransmittedMessage) :
    write stream m = stream ++ m.bits := by
  have hstart := append_aligned h (by rw [m.length_startBits])
  have hnumber := append_aligned hstart (aligned_if m.length_numberBits rfl)
  have hsequencing := append_aligned hnumber (aligned_if m.length_sequencingBits rfl)
  have hchannel := append_aligned hsequencing (aligned_if m.length_channelBits rfl)
  have hsplit := append_aligned hchannel (aligned_if m.length_splitBits rfl)
  have hwritesplit : (if m.splitPacketCount > 0 then
      stream ++ m.startBits ++ m.numberBits ++ m.sequencingBits ++ m.channelBits ++
        toBits 32 m.splitPacketCount ++ toBits 16 m.splitPacketId ++ toBits 32 m.splitPacketIndex
      else stream ++ m.startBits ++ m.numberBits ++ m.sequencingBits ++ m.channelBits) =
      stream ++ m.startBits ++ m.numberBits ++ m.sequencingBits ++ m.channelBits ++
        m.splitBits := by
    unfold splitBits
    split
    · simp only [List.append_assoc]
    · rw [List.append_nil]
  have hwritechannel : (if hasChannel m.reliability then
      m.orderingIndex.write (stream ++ m.startBits ++ m.numberBits ++ m.sequencingBits) ++
        toBits 8 m.orderingChannel
      else stream ++ m.startBits ++ m.numberBits ++ m.sequencingBits) =
      stream ++ m.startBits ++ m.numberBits ++ m.sequencingBits ++ m.channelBits := by
    unfold channelBits
    split
    · rw [Uint24.write_of_aligned hsequencing, List.append_assoc _ (Uint24.bytes _)]
    · rw [List.append_nil]
  unfold write
  dsimp only
  rw [write_start h, write_if hstart]
  change align (if m.splitPacketCount > 0 then _ else _) ++ byteBits m.payload = _
  rw [show (stream ++ m.startBits ++ if m.reliability.isReliable then
    m.reliableMessageNumber.bytes else []) = stream ++ m.startBits ++ m.numberBits from rfl,
    align_of_aligned hnumber, write_if hnumber]
  rw [show (stream ++ m.startBits ++ m.numberBits ++ if m.reliability.isSequenced then
    m.sequencingIndex.bytes else []) = stream ++ m.startBits ++ m.numberBits ++ m.sequencingBits
    from rfl, hwritechannel, hwritesplit, align_of_aligned hsplit]
  simp only [bits, List.append_assoc]

theorem readOr_eq {α : Type*} {read : Reader → Option α × Reader} {old a : α} {r r' : Reader}
    (h : read r = (some a, r')) : readOr read old r = (a, r') := by
  rw [readOr, h]
  rfl

theorem readBool_cons {b : Bool} {bits : List Bool} {offset : ℕ} :
    Reader.readBool ⟨b :: bits, offset⟩ = (some b, ⟨bits, offset + 1⟩) :=
  rfl

theorem readNatOr_toBits {width n : ℕ} (hn : n < 2 ^ width) (old : ℕ) (rest : List Bool)
    (offset : ℕ) :
    readNatOr width old ⟨toBits width n ++ rest, offset⟩ = (n, ⟨rest, offset + width⟩) :=
  readOr_eq (Reader.readNat_toBits hn rest offset)

theorem readStart_bits {m : TransmittedMessage} (hlen : m.dataBitLength < 2 ^ 16) {offset : ℕ}
    (h : offset % 8 = 0) (rest : List Bool) :
    readStart ⟨m.startBits ++ rest, offset⟩ =
      ((m.reliability.onWire, decide (m.splitPacketCount > 0), m.dataBitLength),
        ⟨rest, offset + 24⟩) := by
  have hpadding : padding (offset + 3 + 1) = 4 := by
    unfold padding
    omega
  have halign := Reader.align_padding (toBits 16 m.dataBitLength ++ rest) (offset + 3 + 1)
  rw [hpadding] at halign
  rw [readStart, Reader.align_of_aligned h]
  simp only [startBits, List.append_assoc, List.cons_append]
  rw [readNatOr_toBits m.reliability.onWire.toByte_lt]
  dsimp only
  rw [readOr_eq readBool_cons]
  dsimp only
  rw [halign, readNatOr_toBits hlen]
  dsimp only
  rw [PacketReliability.ofByte_toByte]

theorem readOr_if {c : Bool} {n old : Uint24} {offset : ℕ} (h : offset % 8 = 0)
    (rest : List Bool) :
    (if c then readOr Uint24.read old ⟨(if c then n.bytes else []) ++ rest, offset⟩
      else (old, ⟨(if c then n.bytes else []) ++ rest, offset⟩)) =
      (if c then n else old, ⟨rest, offset + if c then 24 else 0⟩) := by
  cases c with
  | true => exact readOr_eq (Uint24.read_bytes h n rest)
  | false => rfl

theorem readNumber_bits {m : TransmittedMessage} {offset : ℕ} (h : offset % 8 = 0)
    (rest : List Bool) :
    readNumber m.reliability.onWire ⟨m.numberBits ++ rest, offset⟩ =
      (if m.reliability.isReliable then m.reliableMessageNumber else .max,
        ⟨rest, offset + m.numberBits.length⟩) := by
  have haligned : (offset + if m.reliability.isReliable then 24 else 0) % 8 = 0 := by
    split <;> omega
  rw [readNumber, PacketReliability.readsNumber_onWire, length_numberBits, numberBits, readOr_if h]
  dsimp only
  rw [Reader.align_of_aligned haligned]

theorem readSequencingIndex_bits {m : TransmittedMessage} (old : Uint24) {offset : ℕ}
    (h : offset % 8 = 0) (rest : List Bool) :
    readSequencingIndex m.reliability.onWire old ⟨m.sequencingBits ++ rest, offset⟩ =
      (if m.reliability.isSequenced then m.sequencingIndex else old,
        ⟨rest, offset + m.sequencingBits.length⟩) := by
  rw [readSequencingIndex, PacketReliability.isSequenced_onWire, length_sequencingBits,
    sequencingBits, readOr_if h]

theorem hasChannel_onWire (r : PacketReliability) : hasChannel r.onWire = hasChannel r := by
  cases r <;> rfl

theorem readChannel_bits {m : TransmittedMessage} (hchannel : m.orderingChannel < 32)
    (old : TransmissionHeader) {offset : ℕ} (h : offset % 8 = 0) (rest : List Bool) :
    readChannel m.reliability.onWire old ⟨m.channelBits ++ rest, offset⟩ =
      ((if hasChannel m.reliability then m.orderingIndex else old.orderingIndex,
        if hasChannel m.reliability then m.orderingChannel else 0, true),
        ⟨rest, offset + m.channelBits.length⟩) := by
  rw [readChannel, hasChannel_onWire, length_channelBits, channelBits]
  cases hasChannel m.reliability with
  | true =>
    have hlt : m.orderingChannel < 2 ^ 8 := by omega
    simp only [if_true, List.append_assoc]
    rw [readOr_eq (Uint24.read_bytes h m.orderingIndex _)]
    dsimp only
    rw [Reader.readNat_toBits hlt]
    rfl
  | false => rfl

theorem readSplit_bits {m : TransmittedMessage} (hm : Transmittable m) (offset : ℕ)
    (rest : List Bool) :
    readSplit (decide (m.splitPacketCount > 0)) true ⟨m.splitBits ++ rest, offset⟩ =
      ((m.splitPacketCount, if m.splitPacketCount > 0 then m.splitPacketId else 0,
        if m.splitPacketCount > 0 then m.splitPacketIndex else 0, true),
        ⟨rest, offset + m.splitBits.length⟩) := by
  rw [readSplit, length_splitBits, splitBits]
  by_cases hsplit : m.splitPacketCount > 0
  · have hcount := hm.splitPacketCount_le
    have hindex := hm.splitPacketIndex_lt hsplit
    unfold maxSplitPacketCount at hcount
    simp only [hsplit, decide_true, if_true, List.append_assoc]
    rw [readNatOr_toBits (by omega)]
    dsimp only
    rw [readNatOr_toBits hm.splitPacketId_lt]
    dsimp only
    rw [Reader.readNat_toBits (by omega)]
    rfl
  · have hzero : m.splitPacketCount = 0 := by omega
    simp only [hzero]
    rfl

theorem bytesOf_byteBits (data : List UInt8) : bytesOf data.length (byteBits data) = data := by
  induction data with
  | nil => rfl
  | cons b data ih =>
    have hcons : byteBits (b :: data) = toBits 8 b.toNat ++ byteBits data := rfl
    rw [hcons, List.length_cons, bytesOf, List.take_left' (length_toBits 8 _),
      List.drop_left' (length_toBits 8 _), ih, ofBits_toBits_of_lt b.toNat_lt, UInt8.ofNat_toNat]

theorem readAlignedBytes_bits (data : List UInt8) {offset : ℕ} (h : offset % 8 = 0)
    (rest : List Bool) :
    readAlignedBytes ⟨byteBits data ++ rest, offset⟩ data.length =
      (some data, ⟨rest, offset + (byteBits data).length⟩) := by
  rw [readAlignedBytes, Reader.align_of_aligned h,
    Reader.read_append (length_byteBits data) rest offset, length_byteBits]
  dsimp only
  rw [Option.map_some, bytesOf_byteBits]

/-- What is read of the header of a message that was written. -/
def headerOnWire (pool : TransmissionHeader) (m : TransmittedMessage) : TransmissionHeader where
  reliableMessageNumber := if m.reliability.isReliable then m.reliableMessageNumber else .max
  orderingIndex := if hasChannel m.reliability then m.orderingIndex else pool.orderingIndex
  sequencingIndex := if m.reliability.isSequenced then m.sequencingIndex else pool.sequencingIndex
  orderingChannel := if hasChannel m.reliability then m.orderingChannel else 0
  splitPacketId := if m.splitPacketCount > 0 then m.splitPacketId else 0
  splitPacketIndex := if m.splitPacketCount > 0 then m.splitPacketIndex else 0
  splitPacketCount := m.splitPacketCount
  dataBitLength := m.dataBitLength
  reliability := m.reliability.onWire

theorem readHeader_bits {m : TransmittedMessage} (hm : Transmittable m) (pool : TransmissionHeader)
    {offset : ℕ} (h : offset % 8 = 0) (rest : List Bool) :
    readHeader pool ⟨m.startBits ++ (m.numberBits ++ (m.sequencingBits ++ (m.channelBits ++
        (m.splitBits ++ rest)))), offset⟩ =
      ((headerOnWire pool m, decide (m.splitPacketCount > 0), true),
        ⟨rest, offset + m.getMessageHeaderLengthBits⟩) := by
  have hlen := hm.dataBitLength_le
  have hnumber : (offset + 24) % 8 = 0 := by omega
  have hsequencing : (offset + 24 + m.numberBits.length) % 8 = 0 := by
    rw [length_numberBits]
    split <;> omega
  have hchannel : (offset + 24 + m.numberBits.length + m.sequencingBits.length) % 8 = 0 := by
    rw [length_sequencingBits]
    split <;> omega
  have hoffset : offset + 24 + m.numberBits.length + m.sequencingBits.length +
      m.channelBits.length + m.splitBits.length = offset + m.getMessageHeaderLengthBits := by
    rw [length_numberBits, length_sequencingBits, length_channelBits, length_splitBits]
    unfold TransmissionHeader.getMessageHeaderLengthBits hasChannel
    omega
  rw [← hoffset, readHeader, readStart_bits (by omega) h]
  dsimp only
  rw [readNumber_bits hnumber]
  dsimp only
  rw [readSequencingIndex_bits _ hsequencing]
  dsimp only
  rw [readChannel_bits hm.orderingChannel_lt _ hchannel]
  dsimp only
  rw [readSplit_bits hm]
  rfl

theorem validates_headerOnWire {m : TransmittedMessage} (hm : Transmittable m)
    (pool : TransmissionHeader) :
    validates (headerOnWire pool m) (decide (m.splitPacketCount > 0)) true = true := by
  have hpos := hm.dataBitLength_pos
  have hchannel : (headerOnWire pool m).orderingChannel < 32 := by
    unfold headerOnWire
    dsimp only
    split
    · exact hm.orderingChannel_lt
    · decide
  have hlength : (headerOnWire pool m).dataBitLength ≠ 0 := Nat.one_le_iff_ne_zero.mp hpos
  simp only [validates, Bool.and_eq_true, Bool.or_eq_true, decide_eq_true_eq,
    Bool.not_eq_true', decide_eq_false_iff_not]
  refine ⟨⟨⟨trivial, hlength⟩, hchannel⟩, ?_⟩
  by_cases hsplit : m.splitPacketCount > 0
  · have hindex : (headerOnWire pool m).splitPacketIndex = m.splitPacketIndex := if_pos hsplit
    apply Or.inr
    rw [hindex]
    exact ⟨⟨hm.splitPacketIndex_lt hsplit, hm.splitPacketCount_le⟩, hm.interior_aligned hsplit⟩
  · exact .inl hsplit

theorem create_bits {m : TransmittedMessage} (hm : Transmittable m) (pool : TransmissionHeader)
    {offset : ℕ} (h : offset % 8 = 0) (rest : List Bool) :
    create pool ⟨m.bits ++ rest, offset⟩ =
      (some { headerOnWire pool m with data := m.payload },
        ⟨rest, offset + m.bits.length⟩) := by
  have hpos := hm.dataBitLength_pos
  have hmax := hm.dataBitLength_le
  have hlength := length_bits hm
  have hpayload : m.payload.length = bitsToBytes m.dataBitLength := length_payload hm
  have henough : ¬ (m.bits ++ rest).length < 4 * 8 := by
    have hdata : 1 ≤ bitsToBytes m.dataBitLength := by
      unfold bitsToBytes
      omega
    have hheader : 24 ≤ m.getMessageHeaderLengthBits := by
      unfold TransmissionHeader.getMessageHeaderLengthBits
      omega
    rw [List.length_append]
    omega
  have haligned : (offset + m.getMessageHeaderLengthBits) % 8 = 0 := by
    rw [Nat.add_mod, h, getMessageHeaderLengthBits_aligned]
  unfold create
  rw [if_neg henough, bits]
  simp only [List.append_assoc]
  rw [readHeader_bits hm pool h]
  dsimp only
  rw [if_pos (validates_headerOnWire hm pool)]
  have hread := readAlignedBytes_bits m.payload haligned rest
  rw [hpayload] at hread
  have hdata : (headerOnWire pool m).dataBitLength = m.dataBitLength := rfl
  have hoffset : offset + m.getMessageHeaderLengthBits + (byteBits m.payload).length =
      offset + m.bits.length := by
    rw [hlength, length_byteBits, hpayload, Nat.add_assoc]
  rw [hdata, hread, hoffset]
  rfl

theorem readAs_headerOnWire (pool : TransmissionHeader) (m : TransmittedMessage) :
    ReadAs m { headerOnWire pool m with data := m.payload } where
  reliability_eq := rfl
  dataBitLength_eq := rfl
  reliableMessageNumber_eq h := if_pos h
  sequencingIndex_eq h := if_pos h
  channel_eq h := ⟨if_pos h, if_pos h⟩
  splitPacketCount_eq := rfl
  split_eq h := ⟨if_pos h, if_pos h⟩
  data_eq := rfl

theorem bits_aligned {m : TransmittedMessage} (hm : Transmittable m) : m.bits.length % 8 = 0 := by
  rw [length_bits hm, Nat.add_mod, getMessageHeaderLengthBits_aligned]
  omega

theorem foldl_write_aligned {stream : List Bool} (h : stream.length % 8 = 0)
    {messages : List TransmittedMessage} (hm : ∀ m ∈ messages, Transmittable m) :
    (messages.foldl write stream).length % 8 = 0 ∧
      messages.foldl write stream = stream ++ messages.flatMap bits := by
  induction messages generalizing stream with
  | nil => exact ⟨h, (List.append_nil stream).symm⟩
  | cons m messages ih =>
    have haligned := append_aligned h (bits_aligned (hm m (by simp)))
    obtain ⟨hlen, heq⟩ := ih haligned fun n hn => hm n (by simp [hn])
    rw [List.foldl_cons, write_eq h, List.flatMap_cons, ← List.append_assoc]
    exact ⟨hlen, heq⟩

theorem createAll_bits {messages : List TransmittedMessage}
    (hm : ∀ m ∈ messages, Transmittable m) (pool : ℕ → TransmissionHeader) {calls : ℕ}
    (hcalls : messages.length < calls) {offset : ℕ} (h : offset % 8 = 0) :
    List.Forall₂ ReadAs messages (createAll pool calls ⟨messages.flatMap bits, offset⟩) := by
  induction messages generalizing calls offset with
  | nil =>
    obtain ⟨calls, rfl⟩ := Nat.exists_eq_succ_of_ne_zero (Nat.ne_of_gt hcalls)
    exact .nil
  | cons m messages ih =>
    obtain ⟨calls, rfl⟩ := Nat.exists_eq_succ_of_ne_zero (Nat.ne_zero_of_lt hcalls)
    have hbits := bits_aligned (hm m (by simp))
    rw [List.flatMap_cons, createAll, create_bits (hm m (by simp)) _ h]
    apply List.Forall₂.cons (readAs_headerOnWire _ m)
    apply ih (fun n hn => hm n (by simp [hn])) (Nat.lt_of_succ_lt_succ hcalls)
    rw [Nat.add_mod, h, hbits]

/-- Messages written behind the header of a datagram are read back, each with what its
reliability transmits, and each takes the bits that `GetMessageHeaderLengthBits` and its data
account for. -/
theorem messages_round_trip (isPacketPair isContinuousSend needsBAndAs : Bool)
    (datagramNumber : Uint24) {messages : List TransmittedMessage}
    (hm : ∀ m ∈ messages, Transmittable m) (pool : ℕ → TransmissionHeader) {calls : ℕ}
    (hcalls : messages.length < calls) :
    let header := DatagramHeaderFormat.data isPacketPair isContinuousSend needsBAndAs datagramNumber
    let received := DatagramHeaderFormat.deserialize
      (.ofStream (messages.foldl write header.serialize))
    received.1 = some header ∧
      List.Forall₂ ReadAs messages (createAll pool calls received.2) ∧
      ∀ pre m post, messages = pre ++ m :: post →
        (write (pre.foldl write header.serialize) m).length =
          (pre.foldl write header.serialize).length +
            (m.getMessageHeaderLengthBits + 8 * bitsToBytes m.dataBitLength) := by
  intro header received
  have haligned : header.serialize.length % 8 = 0 :=
    DatagramHeaderFormat.serialize_data_aligned _ _ _ _
  have hreceived : received = (some header, ⟨messages.flatMap bits, 32⟩) := by
    show DatagramHeaderFormat.deserialize _ = _
    rw [(foldl_write_aligned haligned hm).2]
    exact DatagramHeaderFormat.deserialize_data _ _ _ _ _
  rw [hreceived]
  refine ⟨rfl, createAll_bits hm pool hcalls rfl, ?_⟩
  intro pre m post heq
  subst heq
  have hpre : (pre.foldl write header.serialize).length % 8 = 0 :=
    (foldl_write_aligned haligned fun n hn => hm n (List.mem_append_left _ hn)).1
  rw [write_eq hpre, List.length_append, length_bits (hm m (by simp))]

def orderedFragment : TransmittedMessage where
  reliableMessageNumber := 77
  orderingIndex := 5
  sequencingIndex := 0
  orderingChannel := 3
  splitPacketId := 9
  splitPacketIndex := 1
  splitPacketCount := 2
  dataBitLength := 11
  reliability := .reliableOrderedWithAckReceipt
  data := [200, 160]

theorem orderedFragment_transmittable : Transmittable orderedFragment := by
  constructor <;> decide

theorem orderedFragment_round_trip :
    (∀ m ∈ [orderedFragment], Transmittable m) ∧ [orderedFragment].length < 2 ∧
      List.Forall₂ ReadAs [orderedFragment] (createAll (fun _ => .fromPool .unreliable) 2
        (DatagramHeaderFormat.deserialize (.ofStream ([orderedFragment].foldl write
          (DatagramHeaderFormat.data false false true 41).serialize))).2) := by
  have hm : ∀ m ∈ [orderedFragment], Transmittable m := by
    intro m hmem
    rw [List.mem_singleton.mp hmem]
    exact orderedFragment_transmittable
  exact ⟨hm, by decide, (messages_round_trip false false true 41 hm _ (by decide)).2.1⟩

end TransmittedMessage

end SLikeNet
