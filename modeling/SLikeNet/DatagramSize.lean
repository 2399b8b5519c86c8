import SLikeNet.Frame
import SLikeNet.MessageCodec
import SLikeNet.Acknowledgements

/-! The size of what an update hands to `SendBitStream`, and of the messages that wait to be
sent or sent again. -/

namespace SLikeNet

open BitStream

/-- `PadWithZeroToByteLength` -/
def padWithZeroToByteLength (stream : List Bool) (bytes : ℕ) : List Bool :=
  if bitsToBytes stream.length < bytes then
    align stream ++ List.replicate (8 * (bytes - bitsToBytes (align stream).length)) false
  else stream

namespace InternalPacket

/-- What `WriteToBitStreamFromInternalPacket` reads of a packet. -/
def message (p : InternalPacket) : TransmittedMessage :=
  { p.toTransmissionHeader with data := p.data.getD [] }

end InternalPacket

/-- What an update finds outside the part of the layer that is modelled: the ranges to send,
and flags of the congestion manager and of the update before. -/
structure UpdateContext where
  acknowlegements : RangeList
  NAKs : RangeList
  shouldSendACKs : Bool
  bandwidthExceededStatistic : Bool
  isInSlowStart : Bool

namespace ReliabilityLayer

/-- The stream of the datagram with the given index, as it is handed to `SendBitStream`. -/
def dataStream (s : ReliabilityLayer) (c : UpdateContext) (datagramIndex : ℕ) : List Bool :=
  let isPair := fun i => s.datagrams.datagramsToSendThisUpdateIsPair.getD i false
  let dhf := DatagramHeaderFormat.data (isPair datagramIndex)
    (c.bandwidthExceededStatistic || decide (datagramIndex > 0)) c.isInSlowStart
    (s.nextDatagramSequenceNumber + .ofNat datagramIndex)
  let messages := (s.datagrams.datagram datagramIndex).map fun p => (s.packets p).message
  let stream := messages.foldl TransmittedMessage.write dhf.serialize
  if isPair datagramIndex && decide (datagramIndex > 0) && isPair (datagramIndex - 1) then
    padWithZeroToByteLength stream (s.datagrams.datagramSizesInBytes.getD (datagramIndex - 1) 0)
  else stream

/-- The state in which the packing loops of an update start. -/
def startPacking (s : ReliabilityLayer) (u : UpdateInput) : ReliabilityLayer :=
  (((s.beginUpdate u).clearExpiredBps u).reportLosses u).resetPacketsAndDatagrams

/-- The streams of the datagrams that `sendDatagrams` sends. -/
def dataStreams (s : ReliabilityLayer) (u : UpdateInput) (c : UpdateContext) : List (List Bool) :=
  let s := (s.startPacking u).packDatagrams u
  (List.range s.datagrams.packetsToSendThisUpdateDatagramBoundaries.length).map (s.dataStream c)

/-- Everything that `UpdateInternal` hands to `SendBitStream`. -/
def sentStreams (s : ReliabilityLayer) (u : UpdateInput) (c : UpdateContext) :
    List (List Bool) :=
  let maxBits := s.mtu.maxDatagramSizeExcludingMessageHeaderBits
  if !u.forceSendACKs && decide (u.time ≤ s.lastUpdateTime) then []
  else if (s.beginUpdate u).acksHaveTimedOut u then []
  else
    (if u.forceSendACKs || c.shouldSendACKs then (sendACKs maxBits c.acknowlegements).1 else []) ++
      (if c.NAKs.ranges.length > 0 then
        [(c.NAKs.serialize DatagramHeaderFormat.nak.serialize maxBits).1] else []) ++
      if (s.beginUpdate u).hasDataToSendOrResend then s.dataStreams u c else []

variable {s t : ReliabilityLayer} {p : PacketPtr} {u : UpdateInput}

/-- The bits that a packet takes on the wire; what it carries never changes. -/
def wireBits (s : ReliabilityLayer) (p : PacketPtr) : ℕ :=
  (s.packets p).getMessageHeaderLengthBits + 8 * bitsToBytes (s.packets p).dataBitLength

theorem Keeps.wireBits_eq (h : Keeps s t) : t.wireBits = s.wireBits := by
  funext p
  rw [wireBits, h.header_eq p]
  rfl

theorem wireBits_aligned (s : ReliabilityLayer) (p : PacketPtr) : s.wireBits p % 8 = 0 := by
  have haligned := TransmittedMessage.getMessageHeaderLengthBits_aligned
    (s.packets p).toTransmissionHeader
  unfold wireBits
  omega

/-- `PushPacket` counts what goes on the wire once the header length is known. -/
theorem bitsForThisPacket_eq
    (hheader : (s.packets p).headerLength = (s.packets p).getMessageHeaderLengthBits) :
    (s.packets p).bitsForThisPacket = s.wireBits p := by
  have haligned := TransmittedMessage.getMessageHeaderLengthBits_aligned
    (s.packets p).toTransmissionHeader
  have hle := ResendView.getMessageHeaderLengthBits_le (s.packets p).toTransmissionHeader
  rw [InternalPacket.bitsForThisPacket, hheader, wireBits]
  unfold bitsToBytes
  omega

theorem datagramSizeSoFar_pushDatagram (s : ReliabilityLayer) :
    s.pushDatagram.datagrams.datagramSizeSoFar = 0 := by
  unfold pushDatagram
  split
  · rfl
  · rename_i hzero
    exact Nat.eq_zero_of_not_pos hzero

/-- The datagrams of an update, also the open one, stay within the payload of a datagram. -/
structure Packing (s : ReliabilityLayer) : Prop where
  boundaries_le : ∀ b ∈ s.datagrams.packetsToSendThisUpdateDatagramBoundaries,
    b ≤ s.datagrams.packetsToSendThisUpdate.length
  closed_le : ∀ d ∈ Segments.segments s.datagrams.packetsToSendThisUpdate
      s.datagrams.packetsToSendThisUpdateDatagramBoundaries,
    (d.map s.wireBits).sum ≤ s.mtu.maxDatagramSizeExcludingMessageHeaderBits
  open_eq : s.datagrams.datagramSizeSoFar = ((Segments.openSegment
    s.datagrams.packetsToSendThisUpdate
    s.datagrams.packetsToSendThisUpdateDatagramBoundaries).map s.wireBits).sum
  open_aligned : s.datagrams.datagramSizeSoFar % 8 = 0
  open_le : s.datagrams.datagramSizeSoFar ≤ s.mtu.maxDatagramSizeExcludingMessageHeaderBits
  sizes_le : ∀ b ∈ s.datagrams.datagramSizesInBytes,
    8 * b ≤ s.mtu.maxDatagramSizeExcludingMessageHeaderBits

namespace Packing

theorem keeps (h : Packing s) (hkeeps : Keeps s t) (hdatagrams : t.datagrams = s.datagrams) :
    Packing t := by
  constructor
  · rw [hdatagrams]
    exact h.boundaries_le
  · rw [hdatagrams, hkeeps.wireBits_eq, hkeeps.mtu_eq]
    exact h.closed_le
  · rw [hdatagrams, hkeeps.wireBits_eq]
    exact h.open_eq
  · rw [hdatagrams]
    exact h.open_aligned
  · rw [hdatagrams, hkeeps.mtu_eq]
    exact h.open_le
  · rw [hdatagrams, hkeeps.mtu_eq]
    exact h.sizes_le

theorem reset (s : ReliabilityLayer) : Packing s.resetPacketsAndDatagrams where
  boundaries_le b hb := by cases hb
  closed_le d hd := by cases hd
  open_eq := rfl
  open_aligned := rfl
  open_le := Nat.zero_le _
  sizes_le b hb := by cases hb

theorem of_empty (hempty : s.datagrams = .empty) : Packing s := by
  constructor <;> rw [hempty]
  · intro b hb
    cases hb
  · intro d hd
    cases hd
  · rfl
  · rfl
  · exact Nat.zero_le _
  · intro b hb
    cases hb

theorem clearAllDatagramSizes (h : Packing s) : Packing s.clearAllDatagramSizes :=
  ⟨h.boundaries_le, h.closed_le, h.open_eq, h.open_aligned, h.open_le, h.sizes_le⟩

theorem pushDatagram (h : Packing s) : Packing s.pushDatagram := by
  unfold ReliabilityLayer.pushDatagram
  split
  · constructor
    · intro b hb
      rcases List.mem_append.mp hb with hb | hb
      · exact h.boundaries_le b hb
      · exact Nat.le_of_eq (List.mem_singleton.mp hb)
    · intro d hd
      rw [Segments.segments_close] at hd
      rcases List.mem_append.mp hd with hd | hd
      · exact h.closed_le d hd
      · rw [List.mem_singleton.mp hd]
        exact (Nat.le_of_eq h.open_eq.symm).trans h.open_le
    · show 0 = _
      rw [Segments.openSegment_close]
      rfl
    · rfl
    · exact Nat.zero_le _
    · intro b hb
      rcases List.mem_append.mp hb with hb | hb
      · exact h.sizes_le b hb
      · have hle := h.open_le
        have haligned := h.open_aligned
        rw [List.mem_singleton.mp hb]
        show 8 * bitsToBytes _ ≤ s.mtu.maxDatagramSizeExcludingMessageHeaderBits
        unfold bitsToBytes
        omega
  · exact h

theorem pushPacket (h : Packing s) (isReliable : Bool)
    (hbits : (s.packets p).bitsForThisPacket = s.wireBits p)
    (hfits : s.datagrams.datagramSizeSoFar + s.wireBits p ≤
      s.mtu.maxDatagramSizeExcludingMessageHeaderBits) :
    Packing (s.pushPacket p isReliable) := by
  have hmtu : s.mtu.maxDatagramSizeExcludingMessageHeaderBits < 2 ^ 32 := by
    have hle := s.mtu.bytes_le
    unfold Mtu.maxDatagramSizeExcludingMessageHeaderBits
      Mtu.maxDatagramSizeExcludingMessageHeaderBytes
    omega
  have hsize : (s.pushPacket p isReliable).datagrams.datagramSizeSoFar =
      s.datagrams.datagramSizeSoFar + s.wireBits p := by
    show (s.datagrams.datagramSizeSoFar + (s.packets p).bitsForThisPacket) % 2 ^ 32 = _
    rw [hbits]
    exact Nat.mod_eq_of_lt (Nat.lt_of_le_of_lt hfits hmtu)
  have hwire : (s.pushPacket p isReliable).wireBits = s.wireBits := rfl
  constructor
  · intro b hb
    exact Nat.le_trans (h.boundaries_le b hb) (by
      show _ ≤ (s.datagrams.packetsToSendThisUpdate ++ [p]).length
      rw [List.length_append]
      exact Nat.le_add_right _ _)
  · intro d hd
    have hsegments := Segments.segments_append h.boundaries_le [p]
    exact h.closed_le d (hsegments ▸ hd)
  · rw [hsize, hwire]
    show _ = ((Segments.openSegment (s.datagrams.packetsToSendThisUpdate ++ [p])
      s.datagrams.packetsToSendThisUpdateDatagramBoundaries).map _).sum
    rw [Segments.openSegment_append h.boundaries_le, List.map_append, List.sum_append, h.open_eq,
      List.map_singleton, List.sum_singleton]
  · have haligned := h.open_aligned
    have hp := s.wireBits_aligned p
    rw [hsize]
    omega
  · rw [hsize]
    exact hfits
  · exact h.sizes_le

/-- A packet that `exceedsDatagram` lets through fits with its last byte filled up. -/
theorem fits (h : Packing s)
    (hheader : (s.packets p).headerLength = (s.packets p).getMessageHeaderLengthBits)
    (hsized : s.resendView.Sized p) (hfits : s.exceedsDatagram p = false) :
    s.datagrams.datagramSizeSoFar + s.wireBits p ≤
      s.mtu.maxDatagramSizeExcludingMessageHeaderBits := by
  have hheaderBits := ResendView.getMessageHeaderLengthBits_le (s.packets p).toTransmissionHeader
  have haligned := TransmittedMessage.getMessageHeaderLengthBits_aligned
    (s.packets p).toTransmissionHeader
  have hopen := h.open_aligned
  have hle := h.open_le
  have hmtu := s.mtu.bytes_le
  have hbytes : bitsToBytes (s.packets p).dataBitLength ≤
      s.mtu.maxDatagramSizeExcludingMessageHeaderBytes - 23 := hsized.2
  have hlt : (s.packets p).dataBitLength < 2 ^ 32 := hsized.1
  have hnot := of_decide_eq_false hfits
  rw [InternalPacket.nextPacketBitLength, hheader] at hnot
  rw [wireBits]
  unfold Mtu.maxDatagramSizeExcludingMessageHeaderBits at *
  unfold Mtu.maxDatagramSizeExcludingMessageHeaderBytes at *
  unfold bitsToBytes at *
  omega

theorem resendPacket (h : Packing s) {l : List PacketPtr} (hinv : ResendView.Inv s.resendView l)
    (hhead : s.resendLinkedList.head = some p) (hfits : s.exceedsDatagram p = false) :
    Packing (s.resendPacket u p) := by
  obtain ⟨rest, rfl⟩ := hinv.represents.head_mem hhead
  have hheader : (s.packets p).headerLength = (s.packets p).getMessageHeaderLengthBits :=
    hinv.headerLength_eq p List.mem_cons_self
  have hroom := h.fits hheader (hinv.sized p List.mem_cons_self) hfits
  have hremoved : Packing (s.removeFromList p false) :=
    h.keeps (.of_packets_eq rfl rfl rfl rfl rfl) rfl
  have hpushed := hremoved.pushPacket true (bitsForThisPacket_eq hheader) hroom
  have htimes := hpushed.keeps (keeps_incrementTimesSent _ p) rfl
  have htime := htimes.keeps (keeps_setNextActionTime (u := u) _ p) rfl
  exact htime.keeps (.of_packets_eq rfl rfl rfl rfl rfl) rfl

theorem sendPacket (h : Packing s) {l : List PacketPtr} (hinv : ResendView.Inv s.resendView l)
    (hpeek : s.outgoingPacketBuffer.peek = some p)
    (hheader : (s.packets p).headerLength = (s.packets p).getMessageHeaderLengthBits)
    (hfits : s.exceedsDatagram p = false) : Packing (s.sendPacket u p) := by
  have hroom := h.fits hheader (hinv.queue_sized p (peek_mem hpeek)) hfits
  have hpopped : s.popOutgoing.datagrams = s.datagrams := by
    unfold popOutgoing
    split <;> rfl
  have hregistered : ∀ t : ReliabilityLayer, (t.registerSend u p).datagrams = t.datagrams := by
    intro t
    unfold registerSend
    split
    · rfl
    · split <;> rfl
  have hkeeps : Keeps s ((s.popOutgoing.registerSend u p).countBytesSent u p) :=
    ((keeps_popOutgoing s).trans (keeps_registerSend _ p)).trans
      (.of_packets_eq rfl rfl rfl rfl rfl)
  have hdatagrams : ((s.popOutgoing.registerSend u p).countBytesSent u p).datagrams =
      s.datagrams := (hregistered _).trans hpopped
  have hbefore := h.keeps hkeeps hdatagrams
  unfold ReliabilityLayer.sendPacket
  dsimp only
  generalize (s.popOutgoing.registerSend u p).countBytesSent u p = t at hkeeps hdatagrams hbefore ⊢
  have hheader' : (t.packets p).headerLength = (t.packets p).getMessageHeaderLengthBits := by
    rcases hkeeps.headerLength_eq p with heq | heq
    · rw [heq, hheader, hkeeps.header_eq p]
      rfl
    · exact heq
  rw [← hdatagrams, ← hkeeps.wireBits_eq, ← hkeeps.mtu_eq] at hroom
  exact (hbefore.pushPacket _ (bitsForThisPacket_eq hheader') hroom).keeps
    (keeps_incrementTimesSent _ p) rfl

theorem packStep (h : Packing s) {l : List PacketPtr} (hinv : ResendView.Inv s.resendView l)
    (hstep : PackStep u s t) : Packing t := by
  cases hstep with
  | clearAllDatagramSizes => exact h.clearAllDatagramSizes
  | pushDatagram => exact h.pushDatagram
  | resend p hhead _ hfits => exact h.resendPacket hinv hhead hfits
  | drop p =>
    refine h.keeps (keeps_popOutgoing s) ?_
    unfold popOutgoing
    split <;> rfl
  | setHeaderLength p => exact h.keeps (keeps_setHeaderLength s p) rfl
  | send p hpeek hheader hfits => exact h.sendPacket hinv hpeek hheader hfits

end Packing

/-- No packet has a longer header than a reliable sequenced fragment, and `BITS_TO_BYTES` does
not wrap on its data. -/
def Measured (s : ReliabilityLayer) : Prop :=
  ∀ p, (s.packets p).headerLength ≤ 184 ∧ (s.packets p).dataBitLength + 7 < 2 ^ 32

theorem Measured.keeps (h : Measured s) (hkeeps : Keeps s t) : Measured t := by
  intro p
  have hdata : (t.packets p).dataBitLength = (s.packets p).dataBitLength := by
    rw [hkeeps.header_eq p]
  rw [hdata]
  refine ⟨?_, (h p).2⟩
  rcases hkeeps.headerLength_eq p with heq | heq
  · rw [heq]
    exact (h p).1
  · rw [heq]
    exact (ResendView.getMessageHeaderLengthBits_le _).2

theorem fragment_measured (s : ReliabilityLayer) {packet : InternalPacket}
    (hdata : packet.dataBitLength + 7 < 2 ^ 32) (i : ℕ) :
    (s.fragment packet i).headerLength ≤ 184 ∧ (s.fragment packet i).dataBitLength + 7 < 2 ^ 32 := by
  constructor
  · show bitsToBytes { packet.toTransmissionHeader with
      splitPacketCount := 1 }.getMessageHeaderLengthBits ≤ 184
    have hle := (ResendView.getMessageHeaderLengthBits_le
      { packet.toTransmissionHeader with splitPacketCount := 1 }).2
    unfold bitsToBytes
    omega
  · have hblock : s.maximumSendBlockBytes ≤ 1492 := by
      have hmtu := s.mtu.bytes_le
      rw [maximumSendBlockBytes_eq]
      unfold Mtu.maxDatagramSizeExcludingMessageHeaderBytes
      omega
    unfold fragment
    dsimp only
    split
    · omega
    · rename_i hfull
      rw [not_not.mp hfull]
      omega

theorem Measured.send (h : Measured s) {i : SendInput} (hdata : i.numberOfBitsToSend + 7 < 2 ^ 32) :
    Measured (s.send i).2 := by
  rcases send_cases s i with ⟨-, heq⟩ | ⟨t, packet, hkeeps, -, -, hlength, hbits, hcases⟩
  · rw [heq]
    exact h
  have ht := h.keeps hkeeps
  rw [← hbits] at hdata
  rcases hcases with ⟨-, heq⟩ | ⟨-, heq⟩
  · rw [heq, splitPacket_eq]
    refine Measured.keeps (fun p => ?_) (.foldl (keeps_pushOutgoing Heap.pushSeries) _ _)
    rw [withFragments_packets]
    split
    · exact fragment_measured t hdata _
    · exact ht p
  · rw [heq]
    refine Measured.keeps (fun (p : ℕ) => ?_) (keeps_pushOutgoing Heap.push _ _)
    show (Function.update t.packets t.allocated packet p).headerLength ≤ 184 ∧
      (Function.update t.packets t.allocated packet p).dataBitLength + 7 < 2 ^ 32
    by_cases hp : p = t.allocated
    · rw [hp, Function.update_self, hlength]
      exact ⟨Nat.zero_le _, hdata⟩
    · rw [Function.update_of_ne hp]
      exact ht p

/-- The bytes of every message that is sent can be counted in a `BitSize_t`; `RakPeer::Send`
returns 0 for a bit stream whose count of bytes has wrapped to 0. -/
def CountableSends (inputs : List SenderInput) : Prop :=
  ∀ input, .send input ∈ inputs → input.numberOfBitsToSend + 7 < 2 ^ 32

theorem run_measured (mtu : Mtu) (lastUpdateTime timeLastDatagramArrived timeoutTime : ℕ)
    {inputs : List SenderInput} (hsends : CountableSends inputs) :
    Measured (inputs.foldl step
      (initial mtu lastUpdateTime timeLastDatagramArrived timeoutTime)) := by
  induction inputs using List.reverseRecOn with
  | nil => exact fun _ => ⟨Nat.zero_le 184, (by decide : 0 + 7 < 2 ^ 32)⟩
  | append_singleton inputs i ih =>
    have h := ih fun input hinput => hsends input (List.mem_append_left _ hinput)
    rw [List.foldl_append]
    rcases step_cases (inputs.foldl step _) i with ⟨input, rfl⟩ | hkeeps
    · exact h.send (hsends input (List.mem_append_right _ List.mem_cons_self))
    · exact h.keeps hkeeps

theorem waiting_le {l : List PacketPtr} (hinv : ResendView.Inv s.resendView l)
    (hmeasured : Measured s) (hp : p ∈ s.outgoingPacketBuffer.contents ∨ p ∈ l) :
    (s.packets p).headerLength + (s.packets p).dataBitLength ≤
      s.mtu.maxDatagramSizeExcludingMessageHeaderBits := by
  have hsized : s.resendView.Sized p := by
    rcases hp with hp | hp
    · exact hinv.queue_sized p hp
    · exact hinv.sized p hp
  have hlt : (s.packets p).dataBitLength < 2 ^ 32 := hsized.1
  have hbytes : bitsToBytes (s.packets p).dataBitLength ≤
      s.mtu.maxDatagramSizeExcludingMessageHeaderBytes - 23 := hsized.2
  have hlength := hmeasured p
  have hmin := s.mtu.le_bytes
  have hmax := s.mtu.bytes_le
  unfold Mtu.maxDatagramSizeExcludingMessageHeaderBits
  unfold Mtu.maxDatagramSizeExcludingMessageHeaderBytes at *
  unfold bitsToBytes at hbytes
  omega

theorem exceedsDatagram_empty (hsized : s.resendView.Sized p)
    (hheader : (s.packets p).headerLength = (s.packets p).getMessageHeaderLengthBits)
    (hempty : s.datagrams.datagramSizeSoFar = 0) : s.exceedsDatagram p = false := by
  have hlt : (s.packets p).dataBitLength < 2 ^ 32 := hsized.1
  have hbytes : bitsToBytes (s.packets p).dataBitLength ≤
      s.mtu.maxDatagramSizeExcludingMessageHeaderBytes - 23 := hsized.2
  have hlength := ResendView.getMessageHeaderLengthBits_le (s.packets p).toTransmissionHeader
  have hmin := s.mtu.le_bytes
  have hmax := s.mtu.bytes_le
  apply decide_eq_false
  rw [hempty, Nat.zero_add, InternalPacket.nextPacketBitLength, Nat.mod_mod, hheader]
  unfold Mtu.maxDatagramSizeExcludingMessageHeaderBits
  unfold Mtu.maxDatagramSizeExcludingMessageHeaderBytes at *
  unfold bitsToBytes at hbytes
  omega

theorem bitsToBytes_le {bits bytes : ℕ} (h : bits ≤ 8 * bytes) : bitsToBytes bits ≤ bytes := by
  unfold bitsToBytes
  omega

theorem padWithZeroToByteLength_le {stream : List Bool} {bytes m : ℕ} (hm : m ≤ 1492)
    (haligned : stream.length % 8 = 0) (hstream : stream.length ≤ 8 * m) (hbytes : bytes ≤ m) :
    (padWithZeroToByteLength stream bytes).length ≤ 8 * m := by
  unfold padWithZeroToByteLength
  split
  · rw [align_of_aligned haligned, List.length_append, List.length_replicate]
    unfold bitsToBytes
    omega
  · exact hstream

theorem foldl_write_length {stream : List Bool} (h : stream.length % 8 = 0)
    (packets : List InternalPacket) :
    ((packets.map InternalPacket.message).foldl TransmittedMessage.write stream).length % 8 = 0 ∧
      ((packets.map InternalPacket.message).foldl TransmittedMessage.write stream).length ≤
        stream.length + (packets.map fun p =>
          p.getMessageHeaderLengthBits + 8 * bitsToBytes p.dataBitLength).sum := by
  induction packets generalizing stream with
  | nil => exact ⟨h, Nat.le_refl _⟩
  | cons p packets ih =>
    have hpayload : p.message.payload.length ≤ bitsToBytes p.dataBitLength := List.length_take_le _ _
    have hlength : p.message.bits.length =
        p.getMessageHeaderLengthBits + 8 * p.message.payload.length :=
      p.message.length_bits_payload
    have haligned := TransmittedMessage.getMessageHeaderLengthBits_aligned p.toTransmissionHeader
    have hnext : (stream ++ p.message.bits).length % 8 = 0 := by
      rw [List.length_append, hlength]
      omega
    obtain ⟨hmod, hle⟩ := ih hnext
    rw [List.map_cons, List.foldl_cons, TransmittedMessage.write_eq h]
    refine ⟨hmod, ?_⟩
    rw [List.length_append, hlength] at hle
    rw [List.map_cons, List.sum_cons]
    omega

theorem Packing.dataStream_le (h : Packing s) (c : UpdateContext) {datagramIndex : ℕ}
    (hindex : datagramIndex < s.datagrams.packetsToSendThisUpdateDatagramBoundaries.length) :
    (s.dataStream c datagramIndex).length ≤ 8 * s.mtu.bytes := by
  have hmin := s.mtu.le_bytes
  have hmax := s.mtu.bytes_le
  have hsegment : (((s.datagrams.datagram datagramIndex).map s.wireBits).sum) ≤
      s.mtu.maxDatagramSizeExcludingMessageHeaderBits :=
    h.closed_le _ (List.mem_of_getElem? (Segments.getElem?_segments hindex))
  unfold Mtu.maxDatagramSizeExcludingMessageHeaderBits
    Mtu.maxDatagramSizeExcludingMessageHeaderBytes at hsegment
  unfold dataStream
  dsimp only
  generalize hdhf : DatagramHeaderFormat.data _ _ _ _ = dhf
  have hheader : dhf.serialize.length = 32 := by
    rw [← hdhf]
    exact DatagramHeaderFormat.length_serialize_data ..
  have hwritten := foldl_write_length (show dhf.serialize.length % 8 = 0 by rw [hheader])
    ((s.datagrams.datagram datagramIndex).map s.packets)
  rw [List.map_map, List.map_map, hheader] at hwritten
  have hle : _ ≤ 8 * s.mtu.bytes := hwritten.2.trans (by
    show 32 + ((s.datagrams.datagram datagramIndex).map s.wireBits).sum ≤ _
    omega)
  split
  · apply padWithZeroToByteLength_le hmax hwritten.1 hle
    rw [List.getD_eq_getElem?_getD]
    cases hsize : s.datagrams.datagramSizesInBytes[datagramIndex - 1]? with
    | none => exact Nat.zero_le _
    | some bytes =>
      have hbytes := h.sizes_le bytes (List.mem_of_getElem? hsize)
      unfold Mtu.maxDatagramSizeExcludingMessageHeaderBits
        Mtu.maxDatagramSizeExcludingMessageHeaderBytes at hbytes
      show bytes ≤ s.mtu.bytes
      omega
  · exact hle

theorem serialize_le (mtu : Mtu) (a : RangeList) {header : DatagramHeaderFormat}
    (hheader : header.serialize.length ≤ 8) :
    (a.serialize header.serialize mtu.maxDatagramSizeExcludingMessageHeaderBits).1.length ≤
      8 * mtu.bytes := by
  have hmin := mtu.le_bytes
  have hbits := RangeList.written_bits mtu.maxDatagramSizeExcludingMessageHeaderBits 0 a.ranges
  unfold RangeList.serialize
  dsimp only
  rw [RangeNode.foldl_write rfl, List.nil_append, List.length_append, List.length_append,
    length_toBits, align, List.length_append, List.length_replicate]
  unfold padding
  rcases hbits with hnil | ⟨-, hbits⟩
  · rw [hnil]
    show _ + 0 ≤ _
    omega
  · unfold Mtu.maxDatagramSizeExcludingMessageHeaderBits
      Mtu.maxDatagramSizeExcludingMessageHeaderBytes at *
    omega

theorem sendACKsLoop_le (mtu : Mtu) (rounds : ℕ) (a : RangeList) :
    ∀ stream ∈ (sendACKsLoop mtu.maxDatagramSizeExcludingMessageHeaderBits rounds a).1,
      stream.length ≤ 8 * mtu.bytes := by
  induction rounds generalizing a with
  | zero => exact nofun
  | succ rounds ih =>
    intro stream hstream
    unfold sendACKsLoop at hstream
    split at hstream
    · rcases List.mem_cons.mp hstream with rfl | hstream
      · exact serialize_le mtu a (Nat.le_refl 8)
      · exact ih _ stream hstream
    · cases hstream

theorem keeps_startPacking (s : ReliabilityLayer) (u : UpdateInput) :
    Keeps s (s.startPacking u) :=
  (((keeps_beginUpdate s).trans (keeps_clearExpiredBps _)).trans (keeps_reportLosses _)).trans
    (keeps_resetPacketsAndDatagrams _)

theorem resendView_resetPacketsAndDatagrams (s : ReliabilityLayer) :
    s.resetPacketsAndDatagrams.resendView = s.resendView := rfl

theorem startPacking_inv {l : List PacketPtr} (h : ResendView.Inv s.resendView l) :
    ResendView.Inv (s.startPacking u).resendView l := by
  rw [startPacking, resendView_resetPacketsAndDatagrams, resendView_reportLosses,
    resendView_clearExpiredBps, resendView_beginUpdate]
  exact h

theorem packSteps_packing {l : List PacketPtr} (hinv : ResendView.Inv s.resendView l)
    (hmeasured : Measured s) (hsteps : PackSteps u (s.startPacking u) t) :
    (∃ l, ResendView.Inv t.resendView l) ∧ Measured t ∧ Packing t := by
  induction hsteps with
  | refl =>
    exact ⟨⟨l, startPacking_inv hinv⟩, hmeasured.keeps (keeps_startPacking s u), Packing.reset _⟩
  | tail _ hstep ih =>
    obtain ⟨⟨l, hinv⟩, hmeasured, hpacking⟩ := ih
    exact ⟨packStep_inv hstep ⟨l, hinv⟩, hmeasured.keeps (keeps_packStep hstep),
      hpacking.packStep hinv hstep⟩

theorem dataStreams_le {l : List PacketPtr} (hinv : ResendView.Inv s.resendView l)
    (hmeasured : Measured s) (c : UpdateContext) :
    ∀ stream ∈ s.dataStreams u c, stream.length ≤ 8 * s.mtu.bytes := by
  intro stream hstream
  have hsteps := packDatagrams_steps (u := u) (s.startPacking u)
  obtain ⟨-, -, hpacking⟩ := packSteps_packing hinv hmeasured hsteps
  obtain ⟨datagramIndex, hindex, rfl⟩ := List.mem_map.mp hstream
  have hmtu : ((s.startPacking u).packDatagrams u).mtu = s.mtu :=
    (packDatagrams_induction (P := Keeps s) (fun _ _ hstep h => h.trans (keeps_packStep hstep))
      (keeps_startPacking s u)).mtu_eq
  rw [← hmtu]
  exact hpacking.dataStream_le c (List.mem_range.mp hindex)

theorem sentStreams_le {l : List PacketPtr} (hinv : ResendView.Inv s.resendView l)
    (hmeasured : Measured s) (u : UpdateInput) (c : UpdateContext) :
    ∀ stream ∈ s.sentStreams u c, stream.length ≤ 8 * s.mtu.bytes := by
  intro stream hstream
  unfold sentStreams at hstream
  dsimp only at hstream
  split at hstream
  · cases hstream
  split at hstream
  · cases hstream
  rcases List.mem_append.mp hstream with hstream | hstream
  · rcases List.mem_append.mp hstream with hstream | hstream
    · split at hstream
      · exact sendACKsLoop_le s.mtu _ _ stream hstream
      · cases hstream
    · split at hstream
      · rw [List.mem_singleton.mp hstream]
        exact serialize_le s.mtu _ (by decide)
      · cases hstream
  · split at hstream
    · exact dataStreams_le hinv hmeasured c stream hstream
    · cases hstream

/-- No stream that an update sends and no message that waits is too long for the MTU. -/
structure RespectsMtu (s : ReliabilityLayer) (mtu : Mtu) : Prop where
  streams_le : ∀ (u : UpdateInput) (c : UpdateContext), ∀ stream ∈ s.sentStreams u c,
    bitsToBytes stream.length ≤ mtu.bytes
  waiting_le : ∃ l, s.resendLinkedList.Represents l ∧
    ∀ p, p ∈ s.outgoingPacketBuffer.contents ∨ p ∈ l →
      (s.packets p).headerLength + (s.packets p).dataBitLength ≤
        mtu.maxDatagramSizeExcludingMessageHeaderBits
  not_blocked : ∀ (u : UpdateInput) (t : ReliabilityLayer), PackSteps u (s.startPacking u) t →
    t.datagrams.datagramSizeSoFar = 0 → ∀ p,
      (t.resendLinkedList.head = some p → t.exceedsDatagram p = false) ∧
        (t.outgoingPacketBuffer.peek = some p → (t.setHeaderLength p).exceedsDatagram p = false)

/-- In every reachable state all streams fit the MTU, and so does every message that waits; the
loops of an update never stop at a message when their datagram is empty. -/
theorem datagrams_respect_mtu (mtu : Mtu) (lastUpdateTime timeLastDatagramArrived timeoutTime : ℕ)
    (inputs : List SenderInput) (hsends : CountableSends inputs) :
    RespectsMtu (inputs.foldl step
      (initial mtu lastUpdateTime timeLastDatagramArrived timeoutTime)) mtu := by
  have hmtu := run_mtu mtu lastUpdateTime timeLastDatagramArrived timeoutTime inputs
  have hmeasured := run_measured mtu lastUpdateTime timeLastDatagramArrived timeoutTime hsends
  obtain ⟨l, hinv⟩ := run_inv mtu lastUpdateTime timeLastDatagramArrived timeoutTime inputs
  generalize inputs.foldl step _ = s at hmtu hmeasured hinv ⊢
  subst hmtu
  constructor
  · exact fun u c stream hstream => bitsToBytes_le (sentStreams_le hinv hmeasured u c stream hstream)
  · exact ⟨l, hinv.represents, fun p hp => waiting_le hinv hmeasured hp⟩
  · intro u t hsteps hempty p
    obtain ⟨⟨l, hinv⟩, -, -⟩ := packSteps_packing hinv hmeasured hsteps
    constructor
    · intro hhead
      obtain ⟨rest, rfl⟩ := hinv.represents.head_mem hhead
      exact exceedsDatagram_empty (hinv.sized p List.mem_cons_self)
        (hinv.headerLength_eq p List.mem_cons_self) hempty
    · intro hpeek
      have hinv' := setHeaderLength_inv hinv hpeek
      refine exceedsDatagram_empty (hinv'.queue_sized p (peek_mem hpeek)) ?_ hempty
      simp only [setHeaderLength, modifyPacket, Function.update_self]

/-- The longest message whose bytes can be counted, over a small MTU. -/
theorem longest_respects_mtu :
    CountableSends [.send ⟨[], 2 ^ 32 - 8, .low, .reliableOrdered, 0, 0, 0, by decide⟩] ∧
      RespectsMtu ([SenderInput.send ⟨[], 2 ^ 32 - 8, .low, .reliableOrdered, 0, 0, 0, by decide⟩].foldl
        step (initial ⟨35, by decide, by decide⟩ 0 0 10000)) ⟨35, by decide, by decide⟩ := by
  have hsends : CountableSends
      [.send ⟨[], 2 ^ 32 - 8, .low, .reliableOrdered, 0, 0, 0, by decide⟩] := by
    intro input hinput
    rw [SenderInput.send.inj (List.mem_singleton.mp hinput)]
    decide
  exact ⟨hsends, datagrams_respect_mtu _ _ _ _ _ hsends⟩

end ReliabilityLayer

end SLikeNet
