import SLikeNet.OrderedList
import SLikeNet.MessageCodec

/-! Reassembly of split messages: `SplitPacketSort`, `InsertIntoSplitPacketList` and
`BuildPacketFromSplitPacketList`. A result `none` stands for an access outside an array or
through a null pointer. -/

namespace SLikeNet

/-- A parsed fragment; `creationTime` is not used again. -/
abbrev Fragment := TransmittedMessage

structure SplitPacketSort where
  data : List (Option Fragment)
  allocationSize : ℕ
  addedPacketsCount : ℕ
  packetId : ℕ

namespace SplitPacketSort

def preallocate (internalPacket : Fragment) : SplitPacketSort where
  data := List.replicate internalPacket.splitPacketCount none
  allocationSize := internalPacket.splitPacketCount
  addedPacketsCount := 0
  packetId := internalPacket.splitPacketId

def allPacketsAdded (s : SplitPacketSort) : Bool := s.allocationSize == s.addedPacketsCount

/-- `Add` with its return value. -/
def add (s : SplitPacketSort) (internalPacket : Fragment) : Option (Bool × SplitPacketSort) :=
  if internalPacket.splitPacketIndex ≥ s.allocationSize ∨
      s.packetId ≠ internalPacket.splitPacketId then some (false, s)
  else
    match s.data[internalPacket.splitPacketIndex]? with
    | none => none
    | some (some _) => some (false, s)
    | some none =>
      some (true,
        { s with
          data := s.data.set internalPacket.splitPacketIndex (some internalPacket)
          addedPacketsCount := (s.addedPacketsCount + 1) % 2 ^ 32 })

/-- The packet in a slot, for an access that the source makes through its pointer. -/
def get (s : SplitPacketSort) (index : ℕ) : Option Fragment := (s.data[index]?).join

def fragmentsFrom (s : SplitPacketSort) : ℕ → ℕ → Option (List Fragment)
  | 0, _ => some []
  | count + 1, j =>
    match s.get j with
    | none => none
    | some splitPacket => (s.fragmentsFrom count (j + 1)).map (splitPacket :: ·)

/-- The packets that the loops over all slots visit. -/
def fragments (s : SplitPacketSort) : Option (List Fragment) := s.fragmentsFrom s.allocationSize 0

end SplitPacketSort

structure SplitPacketChannel where
  lastUpdateTime : ℕ
  splitPacketList : SplitPacketSort
  firstPacket : Option Fragment

namespace SplitPacketChannel

/-- `SplitPacketChannelComp` -/
def comp (key : ℕ) (channel : SplitPacketChannel) : Ordering :=
  if key < channel.splitPacketList.packetId then .lt
  else if key = channel.splitPacketList.packetId then .eq
  else .gt

/-- One `memcpy` into the new buffer. -/
def copyAt (buffer : List UInt8) (byteOffset : ℕ) (bytes : List UInt8) : Option (List UInt8) :=
  if byteOffset + bytes.length ≤ buffer.length then
    some (buffer.take byteOffset ++ bytes ++ buffer.drop (byteOffset + bytes.length))
  else none

/-- The copy loop: where it ends and what it leaves in the buffer. -/
def copyLoop : List Fragment → ℕ → List UInt8 → Option (ℕ × List UInt8)
  | [], byteOffset, buffer => some (byteOffset, buffer)
  | splitPacket :: rest, byteOffset, buffer =>
    match copyAt buffer byteOffset splitPacket.payload with
    | none => none
    | some buffer => copyLoop rest (byteOffset + bitsToBytes splitPacket.dataBitLength) buffer

def totalBitLength (fragments : List Fragment) : ℕ :=
  (fragments.map fun f => f.dataBitLength).sum % 2 ^ 64

def totalByteLength (fragments : List Fragment) : ℕ :=
  (fragments.map fun f => bitsToBytes f.dataBitLength).sum % 2 ^ 64

/-- `CreateInternalPacketCopy` of the first packet, with the length and the data it gets. -/
def createInternalPacketCopy (original : Fragment) (dataBitLength : ℕ) (data : List UInt8) :
    TransmittedMessage where
  reliableMessageNumber := original.reliableMessageNumber
  orderingIndex := original.orderingIndex
  sequencingIndex := original.sequencingIndex
  orderingChannel := original.orderingChannel
  splitPacketId := 0
  splitPacketIndex := 0
  splitPacketCount := 0
  dataBitLength := dataBitLength
  reliability := original.reliability
  data := data

/-- `BuildPacketFromSplitPacketList` on a channel whose packets have all been added. A message
that no conforming sender can have produced is dropped. -/
def build (channel : SplitPacketChannel) : Option (Option TransmittedMessage) :=
  match channel.splitPacketList.get 0, channel.splitPacketList.fragments with
  | some first, some fragments =>
    let totalBits := totalBitLength fragments
    let totalBytes := totalByteLength fragments
    if totalBits > maxSplitPacketCount * (1492 * 8) ∨ totalBytes > maxSplitPacketCount * 1492 then
      some none
    else
      match copyLoop fragments 0 (List.replicate totalBytes 0) with
      | none => none
      | some (_, data) => some (some (createInternalPacketCopy first (totalBits % 2 ^ 32) data))
  | _, _ => none

end SplitPacketChannel

/-- `ID_DOWNLOAD_PROGRESS` -/
structure DownloadProgress where
  addedPackets : ℕ
  splitPacketCount : ℕ
  byteLength : ℕ
  data : List UInt8

structure SplitPacketChannelList where
  channels : List SplitPacketChannel
  splitMessageProgressInterval : ℕ
  outputQueue : List DownloadProgress

namespace SplitPacketChannelList

def initial (splitMessageProgressInterval : ℕ) : SplitPacketChannelList :=
  ⟨[], splitMessageProgressInterval, []⟩

/-- `OrderedList::Insert`: the place of the new element and the list. -/
def insertChannel (channels : List SplitPacketChannel) (key : ℕ) (channel : SplitPacketChannel) :
    ℕ × List SplitPacketChannel :=
  let found := OrderedList.getIndexFromKey SplitPacketChannel.comp channels key
  if found.2 then (2 ^ 32 - 1, channels)
  else if found.1 ≥ channels.length then (channels.length, channels ++ [channel])
  else (found.1, channels.insertIdx found.1 channel)

/-- The place of the channel of a packet, which is allocated where there is none. -/
def findChannel (channels : List SplitPacketChannel) (internalPacket : Fragment) (time : ℕ) :
    ℕ × List SplitPacketChannel :=
  let found := OrderedList.getIndexFromKey SplitPacketChannel.comp channels
    internalPacket.splitPacketId
  if found.2 then (found.1, channels)
  else
    insertChannel channels internalPacket.splitPacketId
      ⟨time, SplitPacketSort.preallocate internalPacket, none⟩

/-- Returns download progress to the user, if the first packet is there, the list is not
complete, and there are enough packets to justify it. -/
def reportProgress (s : SplitPacketChannelList) (channel : SplitPacketChannel)
    (internalPacket : Fragment) : SplitPacketChannelList :=
  match channel.firstPacket with
  | none => s
  | some firstPacket =>
    let added := channel.splitPacketList.addedPacketsCount
    if s.splitMessageProgressInterval ≠ 0 ∧ added ≠ firstPacket.splitPacketCount ∧
        added % s.splitMessageProgressInterval = 0 then
      { s with
        outputQueue := s.outputQueue ++
          [{ addedPackets := added
             splitPacketCount := internalPacket.splitPacketCount
             byteLength := bitsToBytes firstPacket.dataBitLength
             data := firstPacket.payload }] }
    else s

/-- `InsertIntoSplitPacketList` -/
def insertIntoSplitPacketList (s : SplitPacketChannelList) (internalPacket : Fragment) (time : ℕ) :
    Option SplitPacketChannelList :=
  let found := findChannel s.channels internalPacket time
  match found.2[found.1]? with
  | none => none
  | some channel =>
    if internalPacket.splitPacketCount ≠ channel.splitPacketList.allocationSize then
      some { s with channels := found.2 }
    else
      match channel.splitPacketList.add internalPacket with
      | none => none
      | some (false, _) => some { s with channels := found.2 }
      | some (true, splitPacketList) =>
        let channel :=
          { lastUpdateTime := time
            splitPacketList := splitPacketList
            firstPacket :=
              if internalPacket.splitPacketIndex = 0 then some internalPacket
              else channel.firstPacket }
        some ({ s with channels := found.2.set found.1 channel }.reportProgress channel
          internalPacket)

/-- `BuildPacketFromSplitPacketList`; it also sends the acknowledgements, which concern
another part of the layer. -/
def buildPacketFromSplitPacketList (s : SplitPacketChannelList) (splitPacketId : ℕ) :
    Option (Option TransmittedMessage × SplitPacketChannelList) :=
  let found := OrderedList.getIndexFromKey SplitPacketChannel.comp s.channels splitPacketId
  match s.channels[found.1]? with
  | none => none
  | some channel =>
    if channel.splitPacketList.allPacketsAdded then
      match channel.build with
      | none => none
      | some internalPacket =>
        some (internalPacket, { s with channels := s.channels.eraseIdx found.1 })
    else some (none, s)

/-- 255 designates a packet that is neither sequenced nor ordered. -/
def designateChannel (internalPacket : Fragment) : Fragment :=
  if internalPacket.reliability ≠ .reliableOrdered ∧
      internalPacket.reliability ≠ .reliableSequenced ∧
      internalPacket.reliability ≠ .unreliableSequenced then
    { internalPacket with orderingChannel := 255 }
  else internalPacket

/-- What `HandleSocketReceiveFromConnectedPlayer` does with a fragment. -/
def receive (s : SplitPacketChannelList) (internalPacket : Fragment) (time : ℕ) :
    Option (Option TransmittedMessage × SplitPacketChannelList) :=
  match s.insertIntoSplitPacketList (designateChannel internalPacket) time with
  | none => none
  | some s => s.buildPacketFromSplitPacketList internalPacket.splitPacketId

end SplitPacketChannelList

end SLikeNet
