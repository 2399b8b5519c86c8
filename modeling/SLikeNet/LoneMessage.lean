import SLikeNet.DatagramHistory
import SLikeNet.DatagramSize

/-! An update that finds one message in the send queue and nothing outstanding sends it in a
datagram of its own. -/

namespace SLikeNet

namespace ReliabilityLayer

open ResendView

variable {s t : ReliabilityLayer} {p : PacketPtr} {u : UpdateInput}

/-- One message waits in the send queue, and no reliable message is outstanding. -/
structure LoneMessage (s : ReliabilityLayer) (p : PacketPtr) : Prop where
  inv : Inv s.resendView []
  queue : s.outgoingPacketBuffer.contents = [p]
  data : (s.packets p).data ≠ none

/-- Neither the congestion manager nor the caller holds the update back. -/
structure Unlimited (u : UpdateInput) : Prop where
  transmissionBandwidth : 0 < u.transmissionBandwidth
  bitsPerSecondLimit : u.bitsPerSecondLimit = 0

theorem peek_eq_head (h : Heap ℕ PacketPtr false) : h.peek = h.contents.head? := by
  rw [Heap.peek, Heap.contents, List.head?_map]

theorem size_eq_length (h : Heap ℕ PacketPtr false) : h.size = h.contents.length := by
  rw [Heap.size, Heap.contents, List.length_map]

theorem resendBufferOverflow_of_nil (h : Inv s.resendView []) : s.resendBufferOverflow = false := by
  unfold resendBufferOverflow
  cases hslot : s.resendBuffer (resendSlot s.sendReliableMessageNumberIndex) with
  | none => rfl
  | some p => cases ((h.slot_iff _ p).mp hslot).1

/-- The message as it stands in its datagram, which the send loop is about to close. -/
def sendLone (s : ReliabilityLayer) (u : UpdateInput) (p : PacketPtr) : ReliabilityLayer :=
  (s.setHeaderLength p).sendPacket u p

namespace LoneMessage

theorem peek (h : LoneMessage s p) : s.outgoingPacketBuffer.peek = some p := by
  rw [peek_eq_head, h.queue]
  rfl

theorem fillDatagram (h : LoneMessage s p) (hempty : s.datagrams.datagramSizeSoFar = 0) :
    fillDatagram u 1 s = s.sendLone u p := by
  have hheader : ((s.setHeaderLength p).packets p).headerLength =
      ((s.setHeaderLength p).packets p).getMessageHeaderLengthBits := by
    simp only [setHeaderLength, modifyPacket, Function.update_self]
  have hinv := setHeaderLength_inv h.inv h.peek
  have hsized := hinv.queue_sized p (peek_mem (s := s.setHeaderLength p) h.peek)
  have hfits : (s.setHeaderLength p).exceedsDatagram p = false :=
    exceedsDatagram_empty hsized hheader hempty
  unfold ReliabilityLayer.fillDatagram
  rw [h.peek]
  dsimp only
  rw [if_neg h.data, hfits, if_neg Bool.false_ne_true]
  split
  · rfl
  · rfl

theorem contents_sendLone (h : LoneMessage s p) :
    (s.sendLone u p).outgoingPacketBuffer.contents = [] := by
  have hperm := popOutgoing_perm (s := s.setHeaderLength p) h.peek
  rw [show (s.setHeaderLength p).outgoingPacketBuffer.contents = [p] from h.queue] at hperm
  rw [sendLone, outgoing_sendPacket]
  exact (List.perm_nil.mp ((List.perm_cons p).mp hperm).symm)

theorem datagrams_sendLone (hempty : s.datagrams = .empty) :
    (s.sendLone u p).datagrams.packetsToSendThisUpdate = [p] ∧
      (s.sendLone u p).datagrams.packetsToSendThisUpdateDatagramBoundaries = [] := by
  have hpackets := packetsToSendThisUpdate_sendPacket (u := u) (s.setHeaderLength p) p
  have hboundaries : ∀ (t : ReliabilityLayer) (b : Bool), (((t.countBytesSent u p).pushPacket p b
      ).incrementTimesSent p).datagrams.packetsToSendThisUpdateDatagramBoundaries =
        t.datagrams.packetsToSendThisUpdateDatagramBoundaries := fun _ _ => rfl
  constructor
  · rw [sendLone, hpackets, show (s.setHeaderLength p).datagrams = .empty from hempty]
    rfl
  · refine (hboundaries _ _).trans ?_
    rw [datagrams_registerSend, show (s.setHeaderLength p).datagrams = .empty from hempty]
    rfl

theorem datagramSizeSoFar_sendLone (h : LoneMessage s p) (hempty : s.datagrams = .empty) :
    0 < (s.sendLone u p).datagrams.datagramSizeSoFar := by
  have hheader : ((s.setHeaderLength p).packets p).headerLength =
      ((s.setHeaderLength p).packets p).getMessageHeaderLengthBits := by
    simp only [setHeaderLength, modifyPacket, Function.update_self]
  have hinv := setHeaderLength_inv h.inv h.peek
  have hsized := hinv.queue_sized p (peek_mem (s := s.setHeaderLength p) h.peek)
  have hreset : Packing (s.setHeaderLength p) := .of_empty hempty
  have hpacking := hreset.sendPacket (u := u) hinv h.peek hheader
    (exceedsDatagram_empty hsized hheader
      (by rw [show (s.setHeaderLength p).datagrams = .empty from hempty]; rfl))
  obtain ⟨hpackets, hboundaries⟩ := datagrams_sendLone (u := u) (p := p) hempty
  have hopen := hpacking.open_eq
  have hle := (getMessageHeaderLengthBits_le
    ((s.sendLone u p).packets p).toTransmissionHeader).1
  rw [show (s.setHeaderLength p).sendPacket u p = s.sendLone u p from rfl, hpackets, hboundaries,
    show Segments.openSegment [p] [] = [p] from rfl, List.map_singleton, List.sum_singleton,
    wireBits] at hopen
  omega

end LoneMessage

theorem sendLoop_of_nil (hqueue : s.outgoingPacketBuffer.contents = [])
    (hempty : s.datagrams.datagramSizeSoFar = 0) (fuel : ℕ) : sendLoop u fuel s = s := by
  have hsend : s.sendDatagram u = s := by
    unfold sendDatagram
    split
    · rfl
    · rw [size_eq_length, hqueue]
      rfl
  cases fuel with
  | zero => rfl
  | succ fuel =>
    unfold sendLoop
    rw [hsend]
    split
    · exact if_pos hempty
    · rfl

theorem outgoing_pushDatagram (s : ReliabilityLayer) :
    s.pushDatagram.outgoingPacketBuffer = s.outgoingPacketBuffer := by
  unfold pushDatagram
  split <;> rfl

namespace LoneMessage

theorem sendLoop (h : LoneMessage s p) (hu : Unlimited u) (hempty : s.datagrams = .empty) :
    sendLoop u 2 s = (s.sendLone u p).pushDatagram := by
  have hmay : s.mayFillDatagram u = true := by
    unfold mayFillDatagram
    rw [resendBufferOverflow_of_nil h.inv, hempty, Bool.not_false, Bool.true_and, Bool.or_eq_true]
    exact .inl (decide_eq_true hu.transmissionBandwidth)
  have hsend : s.sendDatagram u = s.sendLone u p := by
    have hfree : s.isLimitedByOutgoingBandwidthLimit u = false := by
      unfold isLimitedByOutgoingBandwidthLimit
      rw [hu.bitsPerSecondLimit]
      rfl
    unfold sendDatagram
    rw [hfree, if_neg Bool.false_ne_true, size_eq_length, h.queue]
    exact h.fillDatagram (by rw [hempty]; rfl)
  have hsize := h.datagramSizeSoFar_sendLone (u := u) hempty
  unfold ReliabilityLayer.sendLoop
  rw [hmay, if_pos rfl]
  dsimp only
  rw [hsend, if_neg (Nat.ne_of_gt hsize)]
  apply sendLoop_of_nil
  · rw [outgoing_pushDatagram, h.contents_sendLone]
  · exact datagramSizeSoFar_pushDatagram _

theorem packDatagrams (h : LoneMessage s p) (hu : Unlimited u)
    (hempty : s.clearAllDatagramSizes.datagrams = .empty) :
    s.packDatagrams u = (s.clearAllDatagramSizes.sendLone u p).pushDatagram := by
  have hzero : s.unacknowledgedBytes = 0 := h.inv.unacknowledgedBytes_eq
  have hsizes : (bitsToBytes s.clearAllDatagramSizes.datagrams.allDatagramSizesSoFar : ℤ) = 0 := by
    show ((bitsToBytes 0 : ℕ) : ℤ) = 0
    rfl
  have hresend : ∀ fuel, resendLoop u (toInt32 0) fuel s.clearAllDatagramSizes =
      s.clearAllDatagramSizes := by
    intro fuel
    cases fuel with
    | zero => rfl
    | succ fuel =>
      unfold resendLoop
      rw [hsizes, if_neg (show ¬ (0 : ℤ) < toInt32 0 from lt_irrefl 0)]
  have hclear : LoneMessage s.clearAllDatagramSizes p := ⟨h.inv, h.queue, h.data⟩
  unfold ReliabilityLayer.packDatagrams
  dsimp only
  have hpos : toInt32 s.unacknowledgedBytes > 0 ∨ u.transmissionBandwidth > 0 :=
    .inr hu.transmissionBandwidth
  rw [if_pos hpos, hzero, hresend]
  rw [hsizes, if_pos hu.transmissionBandwidth, size_eq_length,
    show s.clearAllDatagramSizes.outgoingPacketBuffer.contents = [p] from h.queue]
  exact hclear.sendLoop hu hempty

theorem sendLone_inv (h : LoneMessage s p) : Inv (s.sendLone u p).resendView
    (if (s.packets p).reliability.isReliable then [p] else []) := by
  have hpacket : (s.setHeaderLength p).packets p = { s.packets p with
      headerLength := (s.packets p).getMessageHeaderLengthBits } := by
    simp only [setHeaderLength, modifyPacket, Function.update_self]
  have hheader := setHeaderLength_inv h.inv h.peek
  have hinv := sendPacket_inv (u := u) hheader h.peek (by rw [hpacket])
    (resendBufferOverflow_of_nil hheader)
  rw [hpacket] at hinv
  exact hinv

theorem emitDatagrams (h : LoneMessage s p) (hempty : s.datagrams = .empty) :
    (s.sendLone u p).pushDatagram.emitDatagrams u =
      (s.sendLone u p).pushDatagram.emitDatagram u [p] := by
  obtain ⟨hpackets, hboundaries⟩ := datagrams_sendLone (u := u) (p := p) hempty
  have hsize := h.datagramSizeSoFar_sendLone (u := u) hempty
  generalize s.sendLone u p = t at hpackets hboundaries hsize ⊢
  have hpackets' : t.pushDatagram.datagrams.packetsToSendThisUpdate = [p] := by
    rw [ReliabilityLayer.pushDatagram, if_pos hsize]
    exact hpackets
  have hboundaries' :
      t.pushDatagram.datagrams.packetsToSendThisUpdateDatagramBoundaries = [1] := by
    rw [ReliabilityLayer.pushDatagram, if_pos hsize]
    dsimp only
    rw [hboundaries, hpackets]
    rfl
  generalize t.pushDatagram = r at hpackets' hboundaries' ⊢
  have hdatagram : r.datagrams.datagram 0 = [p] := by
    rw [DatagramBuffer.datagram, hpackets', hboundaries']
    rfl
  rw [ReliabilityLayer.emitDatagrams, hboundaries', ← hdatagram]
  rfl

end LoneMessage

/-- The update sent the one message in one datagram. -/
structure SentAlone (s : ReliabilityLayer) (p : PacketPtr) (t : ReliabilityLayer) : Prop where
  wire_eq : t.history.wire = s.history.wire ++ [[p]]
  length_eq : t.datagramHistory.length = min (s.datagramHistory.length + 1) 513
  inv : Inv t.resendView (if (s.packets p).reliability.isReliable then [p] else [])
  queue : t.outgoingPacketBuffer.contents = []

theorem SentAlone.of_eq {r : ReliabilityLayer} (h : SentAlone s p t)
    (hwindow : s.datagramWindow = r.datagramWindow) (hpackets : s.packets = r.packets) :
    SentAlone r p t := by
  obtain ⟨hhistory, -, -, hwire⟩ := DatagramWindow.mk.inj hwindow
  refine ⟨?_, ?_, ?_, h.queue⟩
  · rw [h.wire_eq, hwire]
  · rw [h.length_eq, hhistory]
  · rw [← hpackets]
    exact h.inv

theorem wire_emitDatagram (s : ReliabilityLayer) (datagram : List PacketPtr) :
    (s.emitDatagram u datagram).history.wire = s.history.wire ++ [datagram] := by
  unfold emitDatagram addToDatagramHistory
  dsimp only
  split <;> rfl

theorem length_datagramHistory_emitDatagram (hle : s.datagramHistory.length ≤ 513)
    (datagram : List PacketPtr) : (s.emitDatagram u datagram).datagramHistory.length =
      min (s.datagramHistory.length + 1) 513 := by
  unfold emitDatagram addToDatagramHistory
  dsimp only
  split
  · show (s.datagramHistory.tail ++ [_]).length = _
    rw [List.length_append, List.length_tail, List.length_singleton]
    omega
  · show (s.datagramHistory ++ [_]).length = _
    rw [List.length_append, List.length_singleton]
    omega

theorem LoneMessage.sendDatagrams (h : LoneMessage s p) (hu : Unlimited u)
    (hle : s.datagramHistory.length ≤ 513) : SentAlone s p (s.sendDatagrams u) := by
  have hreset : LoneMessage s.resetPacketsAndDatagrams p := ⟨h.inv, h.queue, h.data⟩
  have hstart : LoneMessage s.resetPacketsAndDatagrams.clearAllDatagramSizes p :=
    ⟨h.inv, h.queue, h.data⟩
  have hempty : s.resetPacketsAndDatagrams.clearAllDatagramSizes.datagrams = .empty := rfl
  have hinv := hstart.sendLone_inv (u := u)
  have hqueue := hstart.contents_sendLone (u := u)
  have hwindow : (s.resetPacketsAndDatagrams.clearAllDatagramSizes.sendLone u p).datagramWindow =
      s.datagramWindow := datagramWindow_sendPacket _ p
  unfold ReliabilityLayer.sendDatagrams
  rw [hreset.packDatagrams hu hempty, hstart.emitDatagrams hempty]
  rw [← resendView_pushDatagram] at hinv
  rw [← outgoing_pushDatagram] at hqueue
  rw [← datagramWindow_pushDatagram] at hwindow
  generalize (s.resetPacketsAndDatagrams.clearAllDatagramSizes.sendLone u p).pushDatagram = t
    at hinv hqueue hwindow ⊢
  obtain ⟨hhistory, -, -, hwire⟩ := DatagramWindow.mk.inj hwindow
  have hview := (resendView_clearPacketsAndDatagrams (t.emitDatagram u [p])).trans
    (resendView_emitDatagram t [p])
  obtain ⟨hhistory', -, -, hwire'⟩ := DatagramWindow.mk.inj
    (datagramWindow_clearPacketsAndDatagrams (t.emitDatagram u [p]))
  refine ⟨?_, ?_, ?_, ?_⟩
  · rw [hwire', wire_emitDatagram, hwire]
  · rw [hhistory', length_datagramHistory_emitDatagram (by rw [hhistory]; exact hle), hhistory]
  · rw [hview]
    exact hinv
  · exact (congrArg ResendView.queue hview).trans hqueue

/-- The settings and times that no packing step changes. -/
def clock (s : ReliabilityLayer) : ℕ × ℕ := (s.unreliableTimeout, s.lastUpdateTime)

theorem clock_foldl {β : Type*} {f : ReliabilityLayer → β → ReliabilityLayer}
    (hf : ∀ s b, (f s b).clock = s.clock) (bs : List β) (s : ReliabilityLayer) :
    (bs.foldl f s).clock = s.clock :=
  foldl_induction (P := fun t => t.clock = s.clock) (fun t b ht => (hf t b).trans ht) bs rfl

theorem clock_pushOutgoing
    (push : Heap ℕ PacketPtr false → ℕ → PacketPtr → Heap ℕ PacketPtr false)
    (s : ReliabilityLayer) (p : PacketPtr) : (s.pushOutgoing push p).clock = s.clock := by
  show (s.addToUnreliableLinkedList p).clock = _
  unfold addToUnreliableLinkedList
  split <;> rfl

theorem clock_sendPacket (s : ReliabilityLayer) (p : PacketPtr) :
    (s.sendPacket u p).clock = s.clock := by
  have hpush : ∀ (t : ReliabilityLayer) (b : Bool),
      (((t.countBytesSent u p).pushPacket p b).incrementTimesSent p).clock = t.clock :=
    fun _ _ => rfl
  have hregister : ∀ t : ReliabilityLayer, (t.registerSend u p).clock = t.clock := by
    intro t
    unfold registerSend
    split
    · rfl
    · split <;> rfl
  refine (hpush _ _).trans ((hregister _).trans ?_)
  unfold popOutgoing
  split <;> rfl

theorem clock_packStep (hstep : PackStep u s t) : t.clock = s.clock := by
  cases hstep with
  | clearAllDatagramSizes => rfl
  | pushDatagram =>
    unfold pushDatagram
    split <;> rfl
  | resend p => rfl
  | drop p =>
    unfold popOutgoing
    split <;> rfl
  | setHeaderLength p => rfl
  | send p => exact clock_sendPacket s p

theorem clock_sendDatagrams (s : ReliabilityLayer) : (s.sendDatagrams u).clock = s.clock := by
  have hpack : (s.resetPacketsAndDatagrams.packDatagrams u).clock = s.clock :=
    packDatagrams_induction (P := fun t => t.clock = s.clock)
      (fun _ _ hstep ht => (clock_packStep hstep).trans ht) rfl
  have hemit : ∀ t : ReliabilityLayer, (t.emitDatagrams u).clock = t.clock := by
    refine fun t => clock_foldl (fun r i => ?_) _ t
    unfold emitDatagram addToDatagramHistory
    dsimp only
    split <;> rfl
  have hclear : ∀ t : ReliabilityLayer, t.clearPacketsAndDatagrams.clock = t.clock := by
    refine fun t => clock_foldl (f := clearPacket) (fun r entry => ?_) _ t
    unfold clearPacket removeFromUnreliableLinkedList
    split
    · split <;> rfl
    · rfl
  exact (hclear _).trans ((hemit _).trans hpack)

theorem clock_send (s : ReliabilityLayer) (i : SendInput) : (s.send i).2.clock = s.clock := by
  unfold send
  dsimp only
  split
  · rfl
  · split
    · rw [splitPacket_eq, clock_foldl (clock_pushOutgoing Heap.pushSeries)]
      rfl
    · exact clock_pushOutgoing Heap.push _ _

theorem LoneMessage.finishUpdate (h : LoneMessage s p) (hu : Unlimited u)
    (hle : s.datagramHistory.length ≤ 513) :
    SentAlone s p (s.finishUpdate u) ∧ (s.finishUpdate u).clock = s.clock := by
  have halive : s.acksHaveTimedOut u = false := by
    have hnone : s.messagesInResendBuffer = 0 := h.inv.messagesInResendBuffer_eq
    unfold acksHaveTimedOut
    rw [hnone]
    rfl
  have hdata : s.hasDataToSendOrResend = true := by
    unfold hasDataToSendOrResend
    rw [size_eq_length, h.queue, Bool.or_eq_true]
    exact .inr rfl
  have hview := (resendView_reportLosses (u := u) (s.clearExpiredBps u)).trans
    (resendView_clearExpiredBps s)
  have hwindow := (datagramWindow_reportLosses (u := u) (s.clearExpiredBps u)).trans
    (datagramWindow_clearExpiredBps s)
  have hpackets : ((s.clearExpiredBps u).reportLosses u).packets = s.packets := by
    unfold clearExpiredBps
    split <;> rfl
  have hclock : ((s.clearExpiredBps u).reportLosses u).clock = s.clock := by
    unfold clearExpiredBps
    split <;> rfl
  unfold ReliabilityLayer.finishUpdate
  rw [halive, if_neg Bool.false_ne_true, hdata, if_pos rfl]
  generalize (s.clearExpiredBps u).reportLosses u = r at hview hwindow hpackets hclock ⊢
  obtain ⟨hhistory, -, -, -⟩ := DatagramWindow.mk.inj hwindow
  have hlone : LoneMessage r p :=
    ⟨by rw [hview]; exact h.inv, (congrArg ResendView.queue hview).trans h.queue,
      by rw [hpackets]; exact h.data⟩
  refine ⟨?_, (clock_sendDatagrams r).trans hclock⟩
  exact (hlone.sendDatagrams hu (by rw [hhistory]; exact hle)).of_eq hwindow hpackets

theorem LoneMessage.updateInternal (h : LoneMessage s p) (hu : Unlimited u)
    (htimeout : s.unreliableTimeout = 0) (htime : s.lastUpdateTime < u.time)
    (hle : s.datagramHistory.length ≤ 513) :
    SentAlone s p (s.updateInternal u) ∧ (s.updateInternal u).clock = (0, u.time) := by
  have hbegin : s.beginUpdate u = { s with lastUpdateTime := u.time } := by
    have hdue : ∀ n, cullIsDue { s with lastUpdateTime := u.time } n = false := by
      intro n
      unfold cullIsDue
      rw [htimeout]
      rfl
    unfold beginUpdate cullUnreliable
    rw [hdue, if_neg Bool.false_ne_true]
    exact if_neg (by rw [htimeout]; exact lt_irrefl 0)
  have hlone : LoneMessage { s with lastUpdateTime := u.time } p := ⟨h.inv, h.queue, h.data⟩
  obtain ⟨hsent, hclock⟩ := hlone.finishUpdate hu hle
  unfold ReliabilityLayer.updateInternal
  rw [if_neg (by rw [decide_eq_false (Nat.not_le_of_lt htime), Bool.and_false]; exact
    Bool.false_ne_true), hbegin]
  exact ⟨hsent.of_eq rfl rfl, hclock.trans (congrArg (·, u.time) htimeout)⟩

/-- Nothing waits, nothing is outstanding, and no message is culled. -/
structure Quiet (s : ReliabilityLayer) : Prop where
  inv : Inv s.resendView []
  queue : s.outgoingPacketBuffer.contents = []
  timeout : s.unreliableTimeout = 0

theorem send_whole (s : ReliabilityLayer) {i : SendInput} (hbits : i.numberOfBitsToSend = 8) :
    ∃ (writeIndices : ℕ → WriteIndices) (packet : InternalPacket), packet.data = some i.data ∧
      packet.reliability = i.reliability ∧
        (s.send i).2 = { s with writeIndices := writeIndices }.pushWhole packet := by
  have hwhole : ¬ bitsToBytes i.numberOfBitsToSend > s.maximumSendBlockBytes := by
    have hmtu := s.mtu.le_bytes
    rw [hbits, maximumSendBlockBytes_eq]
    unfold Mtu.maxDatagramSizeExcludingMessageHeaderBytes
    show ¬ 1 > _
    omega
  unfold send
  dsimp only
  rw [if_neg (by omega), decide_eq_false hwhole]
  generalize (if i.orderingChannel ≥ 32 then 0 else i.orderingChannel) = channel
  refine ⟨_, _, rfl, ?_, rfl⟩
  exact (assign_header (s.writeIndices channel) channel _).2

theorem packets_pushWhole (s : ReliabilityLayer) (packet : InternalPacket) :
    (s.pushWhole packet).packets s.allocated = packet := by
  have hpush : ∀ t : ReliabilityLayer,
      (t.pushOutgoing Heap.push s.allocated).packets = t.packets := by
    intro t
    show (t.addToUnreliableLinkedList s.allocated).packets = _
    unfold addToUnreliableLinkedList
    split <;> rfl
  rw [pushWhole, hpush]
  exact Function.update_self ..

theorem contents_pushWhole (packet : InternalPacket)
    (hqueue : s.outgoingPacketBuffer.contents = []) :
    (s.pushWhole packet).outgoingPacketBuffer.contents = [s.allocated] := by
  obtain ⟨queue, hperm, hview⟩ := pushOutgoing_view pushes_push
    ((s.recordMessage [s.allocated]).allocate packet) s.allocated
  rw [show ((s.recordMessage [s.allocated]).allocate packet).resendView.queue = [] from hqueue]
    at hperm
  exact (congrArg ResendView.queue hview).trans (List.perm_singleton.mp hperm)

theorem Quiet.send (h : Quiet s) {i : SendInput} (hbits : i.numberOfBitsToSend = 8) :
    LoneMessage (s.send i).2 s.allocated ∧
      ((s.send i).2.packets s.allocated).reliability = i.reliability := by
  obtain ⟨writeIndices, packet, hdata, hreliability, heq⟩ := send_whole s hbits
  have hinv := send_inv h.inv i
  have hpackets := packets_pushWhole { s with writeIndices := writeIndices } packet
  have hqueue := contents_pushWhole (s := { s with writeIndices := writeIndices }) packet h.queue
  rw [← heq] at hpackets hqueue
  refine ⟨⟨hinv, hqueue, ?_⟩, ?_⟩
  · rw [show (s.send i).2.packets s.allocated = packet from hpackets, hdata]
    exact Option.some_ne_none _
  · rw [show (s.send i).2.packets s.allocated = packet from hpackets, hreliability]

theorem Quiet.round (h : Quiet s) {i : SendInput} (hbits : i.numberOfBitsToSend = 8)
    (hu : Unlimited u) (htime : s.lastUpdateTime < u.time)
    (hle : s.datagramHistory.length ≤ 513) :
    SentAlone (s.send i).2 s.allocated ((s.send i).2.updateInternal u) ∧
      ((s.send i).2.packets s.allocated).reliability = i.reliability ∧
        ((s.send i).2.updateInternal u).clock = (0, u.time) := by
  obtain ⟨hlone, hreliability⟩ := h.send hbits
  obtain ⟨htimeout, hlast⟩ := Prod.mk.inj (clock_send s i)
  obtain ⟨hhistory, -, -, -⟩ := DatagramWindow.mk.inj (datagramWindow_send s i)
  obtain ⟨hsent, hclock⟩ := hlone.updateInternal hu (htimeout.trans h.timeout)
    (by rw [hlast]; exact htime) (by rw [hhistory]; exact hle)
  exact ⟨hsent, hreliability, hclock⟩

end ReliabilityLayer

end SLikeNet
