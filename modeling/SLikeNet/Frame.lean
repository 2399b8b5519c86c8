import SLikeNet.ResendBookkeeping

/-! What the operations of a layer other than `Send` leave as it is: the messages that were
accepted, and the packets behind them apart from their numbers. What `Send` does. -/

namespace SLikeNet

namespace ReliabilityLayer

/-- The state after operations that accept no message. A packet may take a number, and its
header length may have been computed again. -/
structure Keeps (s t : ReliabilityLayer) : Prop where
  mtu_eq : t.mtu = s.mtu
  allocated_eq : t.allocated = s.allocated
  splitPacketId_eq : t.splitPacketId = s.splitPacketId
  messages_eq : t.history.messages = s.history.messages
  header_eq : ∀ p, (t.packets p).toTransmissionHeader =
    { (s.packets p).toTransmissionHeader with
      reliableMessageNumber := (t.packets p).reliableMessageNumber }
  headerLength_eq : ∀ p, (t.packets p).headerLength = (s.packets p).headerLength ∨
    (t.packets p).headerLength = (t.packets p).getMessageHeaderLengthBits

namespace Keeps

variable {s t u : ReliabilityLayer}

theorem refl (s : ReliabilityLayer) : Keeps s s :=
  ⟨rfl, rfl, rfl, rfl, fun _ => rfl, fun _ => .inl rfl⟩

theorem trans (hst : Keeps s t) (htu : Keeps t u) : Keeps s u where
  mtu_eq := htu.mtu_eq.trans hst.mtu_eq
  allocated_eq := htu.allocated_eq.trans hst.allocated_eq
  splitPacketId_eq := htu.splitPacketId_eq.trans hst.splitPacketId_eq
  messages_eq := htu.messages_eq.trans hst.messages_eq
  header_eq p := by
    rw [htu.header_eq p, hst.header_eq p]
  headerLength_eq p := by
    rcases htu.headerLength_eq p with heq | heq
    · rcases hst.headerLength_eq p with heq' | heq'
      · exact .inl (heq.trans heq')
      · refine .inr (heq.trans (heq'.trans ?_))
        rw [htu.header_eq p]
        rfl
    · exact .inr heq

theorem of_packets_eq (hmtu : t.mtu = s.mtu) (hallocated : t.allocated = s.allocated)
    (hid : t.splitPacketId = s.splitPacketId) (hmessages : t.history.messages = s.history.messages)
    (hpackets : t.packets = s.packets) : Keeps s t :=
  ⟨hmtu, hallocated, hid, hmessages, fun p => by rw [hpackets], fun p => .inl (by rw [hpackets])⟩

theorem modifyPacket (s : ReliabilityLayer) (p : PacketPtr) {f : InternalPacket → InternalPacket}
    (hf : (f (s.packets p)).toTransmissionHeader =
      { (s.packets p).toTransmissionHeader with
        reliableMessageNumber := (f (s.packets p)).reliableMessageNumber })
    (hlength : (f (s.packets p)).headerLength = (s.packets p).headerLength ∨
      (f (s.packets p)).headerLength = (f (s.packets p)).getMessageHeaderLengthBits) :
    Keeps s (s.modifyPacket p f) := by
  refine ⟨rfl, rfl, rfl, rfl, ?_, ?_⟩
  · intro q
    by_cases hq : q = p
    · rw [hq]
      simp only [ReliabilityLayer.modifyPacket, Function.update_self]
      exact hf
    · simp only [ReliabilityLayer.modifyPacket, Function.update_of_ne hq]
  · intro q
    by_cases hq : q = p
    · rw [hq]
      simp only [ReliabilityLayer.modifyPacket, Function.update_self]
      exact hlength
    · simp only [ReliabilityLayer.modifyPacket, Function.update_of_ne hq, true_or]

theorem foldl {β : Type*} {f : ReliabilityLayer → β → ReliabilityLayer}
    (hf : ∀ s b, Keeps s (f s b)) (bs : List β) (s : ReliabilityLayer) : Keeps s (bs.foldl f s) :=
  foldl_induction (fun t b ht => ht.trans (hf t b)) bs (refl s)

end Keeps

variable {s t : ReliabilityLayer} {p : PacketPtr} {u : UpdateInput}

theorem keeps_addToUnreliableLinkedList (s : ReliabilityLayer) (p : PacketPtr) :
    Keeps s (s.addToUnreliableLinkedList p) := by
  unfold addToUnreliableLinkedList
  split <;> exact .of_packets_eq rfl rfl rfl rfl rfl

theorem keeps_removeFromUnreliableLinkedList (s : ReliabilityLayer) (p : PacketPtr) :
    Keeps s (s.removeFromUnreliableLinkedList p) := by
  unfold removeFromUnreliableLinkedList
  split <;> exact .of_packets_eq rfl rfl rfl rfl rfl

theorem keeps_freeInternalPacketData (s : ReliabilityLayer) (p : PacketPtr) :
    Keeps s (s.freeInternalPacketData p) :=
  .modifyPacket s p rfl (.inl rfl)

theorem keeps_pushOutgoing
    (push : Heap ℕ PacketPtr false → ℕ → PacketPtr → Heap ℕ PacketPtr false)
    (s : ReliabilityLayer) (p : PacketPtr) : Keeps s (s.pushOutgoing push p) :=
  (keeps_addToUnreliableLinkedList s p).trans (.of_packets_eq rfl rfl rfl rfl rfl)

theorem keeps_pushDatagram (s : ReliabilityLayer) : Keeps s s.pushDatagram := by
  unfold pushDatagram
  split <;> exact .of_packets_eq rfl rfl rfl rfl rfl

theorem keeps_incrementTimesSent (s : ReliabilityLayer) (p : PacketPtr) :
    Keeps s (s.incrementTimesSent p) :=
  .modifyPacket s p rfl (.inl rfl)

theorem keeps_setNextActionTime (s : ReliabilityLayer) (p : PacketPtr) :
    Keeps s (s.setNextActionTime u p) :=
  .modifyPacket s p rfl (.inl rfl)

theorem keeps_resendPacket (s : ReliabilityLayer) (p : PacketPtr) :
    Keeps s (s.resendPacket u p) := by
  have hpush : Keeps s ((s.removeFromList p false).pushPacket p true) :=
    .of_packets_eq rfl rfl rfl rfl rfl
  have htime := (hpush.trans (keeps_incrementTimesSent _ p)).trans
    (keeps_setNextActionTime (u := u) _ p)
  exact htime.trans (.of_packets_eq rfl rfl rfl rfl rfl)

theorem keeps_popOutgoing (s : ReliabilityLayer) : Keeps s s.popOutgoing := by
  unfold popOutgoing
  split <;> exact .of_packets_eq rfl rfl rfl rfl rfl

theorem keeps_setHeaderLength (s : ReliabilityLayer) (p : PacketPtr) :
    Keeps s (s.setHeaderLength p) :=
  .modifyPacket s p rfl (.inr rfl)

theorem keeps_assignReliable (s : ReliabilityLayer) (p : PacketPtr) :
    Keeps s (s.assignReliable u p) := by
  let number := s.sendReliableMessageNumberIndex
  have hnumber : Keeps s (s.modifyPacket p fun q =>
      { q with messageNumberAssigned := true, reliableMessageNumber := number }) :=
    .modifyPacket s p rfl (.inl rfl)
  have htime := hnumber.trans (keeps_setNextActionTime (u := u) _ p)
  exact htime.trans (.of_packets_eq rfl rfl rfl rfl rfl)

theorem keeps_registerSend (s : ReliabilityLayer) (p : PacketPtr) :
    Keeps s (s.registerSend u p) := by
  unfold registerSend
  split
  · exact keeps_assignReliable s p
  · split <;> exact .of_packets_eq rfl rfl rfl rfl rfl

theorem keeps_sendPacket (s : ReliabilityLayer) (p : PacketPtr) : Keeps s (s.sendPacket u p) := by
  have hpush : ∀ (t : ReliabilityLayer) (b : Bool),
      Keeps t (((t.countBytesSent u p).pushPacket p b).incrementTimesSent p) := by
    intro t b
    have hpush : Keeps t ((t.countBytesSent u p).pushPacket p b) :=
      .of_packets_eq rfl rfl rfl rfl rfl
    exact hpush.trans (keeps_incrementTimesSent _ p)
  unfold sendPacket
  exact ((keeps_popOutgoing s).trans (keeps_registerSend _ p)).trans (hpush _ _)

theorem keeps_packStep (hstep : PackStep u s t) : Keeps s t := by
  cases hstep with
  | clearAllDatagramSizes => exact .of_packets_eq rfl rfl rfl rfl rfl
  | pushDatagram => exact keeps_pushDatagram s
  | resend p => exact keeps_resendPacket s p
  | drop p => exact keeps_popOutgoing s
  | setHeaderLength p => exact keeps_setHeaderLength s p
  | send p => exact keeps_sendPacket s p

theorem keeps_emitDatagram (s : ReliabilityLayer) (datagram : List PacketPtr) :
    Keeps s (s.emitDatagram u datagram) := by
  unfold emitDatagram addToDatagramHistory
  dsimp only
  split <;> exact .of_packets_eq rfl rfl rfl rfl rfl

theorem keeps_clearPacket (s : ReliabilityLayer) (entry : PacketPtr × Bool) :
    Keeps s (s.clearPacket entry) := by
  unfold clearPacket
  split
  · exact (keeps_removeFromUnreliableLinkedList s _).trans (keeps_freeInternalPacketData _ _)
  · exact .refl s

theorem keeps_resetPacketsAndDatagrams (s : ReliabilityLayer) :
    Keeps s s.resetPacketsAndDatagrams :=
  .of_packets_eq rfl rfl rfl rfl rfl

theorem keeps_clearExpiredBps (s : ReliabilityLayer) : Keeps s (s.clearExpiredBps u) := by
  unfold clearExpiredBps
  split <;> exact .of_packets_eq rfl rfl rfl rfl rfl

theorem keeps_reportLosses (s : ReliabilityLayer) : Keeps s (s.reportLosses u) :=
  .of_packets_eq rfl rfl rfl rfl rfl

theorem keeps_sendDatagrams (s : ReliabilityLayer) : Keeps s (s.sendDatagrams u) := by
  have hpack : Keeps s.resetPacketsAndDatagrams (s.resetPacketsAndDatagrams.packDatagrams u) :=
    packDatagrams_induction (fun _ _ hstep h => h.trans (keeps_packStep hstep)) (.refl _)
  have hemit : ∀ t : ReliabilityLayer, Keeps t (t.emitDatagrams u) :=
    fun t => .foldl (fun t _ => keeps_emitDatagram t _) _ t
  have hclear : ∀ t : ReliabilityLayer, Keeps t t.clearPacketsAndDatagrams :=
    fun t => (Keeps.foldl keeps_clearPacket _ t).trans (.of_packets_eq rfl rfl rfl rfl rfl)
  exact (keeps_resetPacketsAndDatagrams s).trans (hpack.trans ((hemit _).trans (hclear _)))

theorem keeps_beginUpdate (s : ReliabilityLayer) : Keeps s (s.beginUpdate u) := by
  have hstart : Keeps s { s with lastUpdateTime := u.time } := .of_packets_eq rfl rfl rfl rfl rfl
  apply hstart.trans
  unfold beginUpdate cullUnreliable
  split
  · refine (Keeps.foldl ?_ _ _).trans (.of_packets_eq rfl rfl rfl rfl rfl)
    exact fun t q => (keeps_freeInternalPacketData t q).trans
      (keeps_removeFromUnreliableLinkedList _ q)
  · split <;> exact .of_packets_eq rfl rfl rfl rfl rfl

theorem keeps_updateInternal (s : ReliabilityLayer) : Keeps s (s.updateInternal u) := by
  have hclear : ∀ t : ReliabilityLayer, Keeps t ((t.clearExpiredBps u).reportLosses u) :=
    fun t => (keeps_clearExpiredBps t).trans (keeps_reportLosses _)
  unfold updateInternal
  split
  · exact .of_packets_eq rfl rfl rfl rfl rfl
  · apply (keeps_beginUpdate s).trans
    unfold finishUpdate
    split
    · exact .of_packets_eq rfl rfl rfl rfl rfl
    · split
      · exact (hclear _).trans (keeps_sendDatagrams _)
      · exact hclear _

theorem keeps_removeFromResendBuffer (s : ReliabilityLayer) (p : PacketPtr) (number : Uint24) :
    Keeps s (s.removeFromResendBuffer p number) := by
  have hremove : ∀ (t : ReliabilityLayer) (b : Bool),
      Keeps t (((t.pushReceipt p).removeFromList p b).freeInternalPacketData p) := by
    intro t b
    have hreceipt : Keeps t (t.pushReceipt p) := by
      unfold pushReceipt
      split <;> exact .of_packets_eq rfl rfl rfl rfl rfl
    have hlist : Keeps (t.pushReceipt p) ((t.pushReceipt p).removeFromList p b) :=
      .of_packets_eq rfl rfl rfl rfl rfl
    exact hreceipt.trans (hlist.trans (keeps_freeInternalPacketData _ p))
  unfold removeFromResendBuffer
  dsimp only
  refine Keeps.trans ?_ (hremove _ _)
  exact .of_packets_eq rfl rfl rfl rfl rfl

theorem keeps_removePacketFromResendList (s : ReliabilityLayer) (number : Uint24) :
    Keeps s (s.removePacketFromResendList number) := by
  have hacknowledge : Keeps s (s.acknowledge number) := .of_packets_eq rfl rfl rfl rfl rfl
  apply hacknowledge.trans
  unfold removePacketFromResendList
  dsimp only
  split
  · exact .refl _
  · split
    · exact keeps_removeFromResendBuffer _ _ number
    · exact .refl _

theorem keeps_handleAck (s : ReliabilityLayer) (incomingAcks : RangeList) :
    Keeps s (s.handleAck incomingAcks).2 := by
  have hcover : Keeps s ((s.cover incomingAcks).reportAcked incomingAcks) :=
    .of_packets_eq rfl rfl rfl rfl rfl
  unfold handleAck
  dsimp only
  split
  · exact hcover
  · apply rangesLoop_induction _ _ hcover
    intro t d ht
    apply ht.trans
    unfold ackDatagram
    split
    · exact .refl t
    · exact (Keeps.foldl keeps_removePacketFromResendList _ t).trans
        (.of_packets_eq rfl rfl rfl rfl rfl)

theorem keeps_handleNak (s : ReliabilityLayer) (incomingNAKs : RangeList) (timeRead : ℕ) :
    Keeps s (s.handleNak incomingNAKs timeRead).2 := by
  unfold handleNak
  split
  · exact .refl s
  · apply rangesLoop_induction _ _ (.refl s)
    intro t d ht
    apply ht.trans
    apply Keeps.foldl
    intro t number
    unfold nakMessage
    split
    · exact .refl t
    · split
      · exact .modifyPacket t _ rfl (.inl rfl)
      · exact .refl t

theorem step_cases (s : ReliabilityLayer) (i : SenderInput) :
    (∃ input, i = .send input) ∨ Keeps s (s.step i) := by
  cases i with
  | send input => exact .inl ⟨input, rfl⟩
  | update input => exact .inr (keeps_updateInternal s)
  | ack incomingAcks timeMS =>
    exact .inr ((.of_packets_eq rfl rfl rfl rfl rfl : Keeps s (s.datagramArrived timeMS)).trans
      (keeps_handleAck _ incomingAcks))
  | nak incomingNAKs timeRead timeMS =>
    exact .inr ((.of_packets_eq rfl rfl rfl rfl rfl : Keeps s (s.datagramArrived timeMS)).trans
      (keeps_handleNak _ incomingNAKs timeRead))
  | setUnreliableTimeout timeoutMS => exact .inr (.of_packets_eq rfl rfl rfl rfl rfl)

/-- The state of `SplitPacket` when the fragments are allocated and none is pushed yet. -/
def withFragments (s : ReliabilityLayer) (packet : InternalPacket) (count : ℕ) :
    ReliabilityLayer :=
  { s with
    packets := fun p =>
      if s.allocated ≤ p ∧ p < s.allocated + count then s.fragment packet (p - s.allocated)
      else s.packets p
    allocated := s.allocated + count
    splitPacketId := (s.splitPacketId + 1) % 2 ^ 16
    outgoingPacketBuffer := s.outgoingPacketBuffer.startSeries
    history :=
      { s.history with messages := s.history.messages ++ [List.range' s.allocated count] } }

theorem withFragments_packets (s : ReliabilityLayer) (packet : InternalPacket) (count : ℕ)
    (p : PacketPtr) :
    (s.withFragments packet count).packets p =
      if s.allocated ≤ p ∧ p < s.allocated + count then s.fragment packet (p - s.allocated)
      else s.packets p := rfl

theorem splitPacket_eq (s : ReliabilityLayer) (packet : InternalPacket) :
    s.splitPacket packet =
      (List.range' s.allocated
          ((bitsToBytes packet.dataBitLength - 1) / s.maximumSendBlockBytes + 1)).foldl
        (fun t p => t.pushOutgoing Heap.pushSeries p)
        (s.withFragments packet
          ((bitsToBytes packet.dataBitLength - 1) / s.maximumSendBlockBytes + 1)) := by
  unfold splitPacket
  dsimp only
  rw [foldl_allocate]
  rfl

theorem assign_splitPacketCount (w : WriteIndices) (channel : ℕ) (h : TransmissionHeader) :
    (w.assign channel h).1.splitPacketCount = h.splitPacketCount := by
  unfold WriteIndices.assign
  split
  · rfl
  · split <;> rfl

theorem send_cases (s : ReliabilityLayer) (i : SendInput) :
    i.numberOfBitsToSend = 0 ∧ (s.send i).2 = s ∨
      ∃ (t : ReliabilityLayer) (packet : InternalPacket), Keeps s t ∧
        t.outgoingPacketBuffer = s.outgoingPacketBuffer ∧ packet.splitPacketCount = 0 ∧
        packet.headerLength = 0 ∧ packet.dataBitLength = i.numberOfBitsToSend ∧
        (bitsToBytes i.numberOfBitsToSend > s.maximumSendBlockBytes ∧
            (s.send i).2 = t.splitPacket packet ∨
          bitsToBytes i.numberOfBitsToSend ≤ s.maximumSendBlockBytes ∧
            (s.send i).2 = t.pushWhole packet) := by
  unfold send
  dsimp only
  split
  · rename_i hzero
    exact .inl ⟨hzero, rfl⟩
  right
  generalize (if i.orderingChannel ≥ 32 then 0 else i.orderingChannel) = channel
  generalize hpacket : newPacket i _ = packet
  have hcount : packet.splitPacketCount = 0 := by rw [← hpacket]; rfl
  have hlength : packet.headerLength = 0 := by rw [← hpacket]; rfl
  have hbits : packet.dataBitLength = i.numberOfBitsToSend := by rw [← hpacket]; rfl
  have hassigned := assign_header (s.writeIndices channel) channel packet.toTransmissionHeader
  have hsplit := assign_splitPacketCount (s.writeIndices channel) channel
    packet.toTransmissionHeader
  generalize (s.writeIndices channel).assign channel packet.toTransmissionHeader = w
    at hassigned hsplit
  refine ⟨{ s with writeIndices := Function.update s.writeIndices channel w.2 },
    { packet with toTransmissionHeader := w.1 }, .of_packets_eq rfl rfl rfl rfl rfl, rfl,
    hsplit.trans hcount, hlength, hassigned.1.trans hbits, ?_⟩
  by_cases hlong : bitsToBytes i.numberOfBitsToSend > s.maximumSendBlockBytes
  · exact .inl ⟨hlong, if_pos (decide_eq_true hlong)⟩
  · exact .inr ⟨Nat.le_of_not_lt hlong, if_neg (by rw [decide_eq_false hlong]; exact nofun)⟩

theorem Keeps.maximumSendBlockBytes_eq (h : Keeps s t) :
    t.maximumSendBlockBytes = s.maximumSendBlockBytes := by
  rw [ReliabilityLayer.maximumSendBlockBytes_eq, ReliabilityLayer.maximumSendBlockBytes_eq,
    h.mtu_eq]

theorem step_mtu (s : ReliabilityLayer) (i : SenderInput) : (s.step i).mtu = s.mtu := by
  rcases step_cases s i with ⟨input, rfl⟩ | hkeeps
  · show (s.send input).2.mtu = s.mtu
    rcases send_cases s input with ⟨-, heq⟩ | ⟨t, packet, hkeeps, -, -, -, -, hcases⟩
    · rw [heq]
    · rcases hcases with ⟨-, heq⟩ | ⟨-, heq⟩
      · rw [heq, splitPacket_eq]
        exact (Keeps.foldl (keeps_pushOutgoing Heap.pushSeries) _ _).mtu_eq.trans hkeeps.mtu_eq
      · rw [heq]
        exact (keeps_pushOutgoing Heap.push _ _).mtu_eq.trans hkeeps.mtu_eq
  · exact hkeeps.mtu_eq

theorem run_mtu (mtu : Mtu) (lastUpdateTime timeLastDatagramArrived timeoutTime : ℕ)
    (inputs : List SenderInput) :
    (inputs.foldl step
      (initial mtu lastUpdateTime timeLastDatagramArrived timeoutTime)).mtu = mtu :=
  foldl_induction (P := fun s => s.mtu = mtu) (fun s i h => (step_mtu s i).trans h) inputs rfl

end ReliabilityLayer

end SLikeNet
