import SLikeNet.ResendView

/-! Every operation of a layer keeps its resend bookkeeping. -/

namespace SLikeNet

namespace ReliabilityLayer

open ResendView

variable {s : ReliabilityLayer} {l : List PacketPtr} {p : PacketPtr}

theorem resendView_modifyPacket (s : ReliabilityLayer) (p : PacketPtr)
    {f : InternalPacket → InternalPacket}
    (hf : ∀ q, (f q).toTransmissionHeader = q.toTransmissionHeader ∧
      (f q).headerLength = q.headerLength) :
    (s.modifyPacket p f).resendView = s.resendView := by
  have hpackets : (fun q => ((Function.update s.packets p (f (s.packets p)) q).toTransmissionHeader,
      (Function.update s.packets p (f (s.packets p)) q).headerLength)) =
      fun q => ((s.packets q).toTransmissionHeader, (s.packets q).headerLength) := by
    funext q
    by_cases hq : q = p
    · subst hq
      rw [Function.update_self, (hf _).1, (hf _).2]
    · rw [Function.update_of_ne hq]
  simp only [resendView, modifyPacket, hpackets]

theorem peek_perm {h : Heap ℕ PacketPtr false} (hpeek : h.peek = some p) :
    ∃ h' : Heap ℕ PacketPtr false, h.pop 0 = some (p, h') ∧
      h.contents.Perm (p :: h'.contents) := by
  obtain ⟨n, hn, rfl⟩ := Option.map_eq_some_iff.mp hpeek
  obtain ⟨h', hpop, hperm, -, -⟩ := Heap.pop_eq hn
  exact ⟨h', hpop, hperm.map _⟩

theorem popOutgoing_perm (hpeek : s.outgoingPacketBuffer.peek = some p) :
    s.outgoingPacketBuffer.contents.Perm (p :: s.popOutgoing.outgoingPacketBuffer.contents) := by
  obtain ⟨h', hpop, hperm⟩ := peek_perm hpeek
  simpa only [popOutgoing, hpop] using hperm

theorem resendView_popOutgoing (s : ReliabilityLayer) :
    s.popOutgoing.resendView =
      { s.resendView with queue := s.popOutgoing.outgoingPacketBuffer.contents } := by
  unfold popOutgoing
  split <;> rfl

theorem popOutgoing_inv (h : Inv s.resendView l)
    (hpeek : s.outgoingPacketBuffer.peek = some p) : Inv s.popOutgoing.resendView l := by
  rw [resendView_popOutgoing]
  exact h.dequeue (popOutgoing_perm hpeek)

theorem resendView_addToUnreliableLinkedList (s : ReliabilityLayer) (p : PacketPtr) :
    (s.addToUnreliableLinkedList p).resendView = s.resendView := by
  unfold addToUnreliableLinkedList
  split <;> rfl

theorem resendView_removeFromUnreliableLinkedList (s : ReliabilityLayer) (p : PacketPtr) :
    (s.removeFromUnreliableLinkedList p).resendView = s.resendView := by
  unfold removeFromUnreliableLinkedList
  split <;> rfl

theorem resendView_freeInternalPacketData (s : ReliabilityLayer) (p : PacketPtr) :
    (s.freeInternalPacketData p).resendView = s.resendView :=
  resendView_modifyPacket s p fun _ => ⟨rfl, rfl⟩

theorem resendView_foldl {β : Type*} {f : ReliabilityLayer → β → ReliabilityLayer}
    (hf : ∀ s b, (f s b).resendView = s.resendView) (bs : List β) (s : ReliabilityLayer) :
    (bs.foldl f s).resendView = s.resendView := by
  induction bs generalizing s with
  | nil => rfl
  | cons b bs ih => exact (ih _).trans (hf s b)

/-- The two ways of the source to push into the send queue add one packet to it. -/
def Pushes (push : Heap ℕ PacketPtr false → ℕ → PacketPtr → Heap ℕ PacketPtr false) : Prop :=
  ∀ h w p, (push h w p).contents.Perm (p :: h.contents)

theorem pushes_push : Pushes Heap.push := fun h w p => (Heap.push_perm h w p).map _

theorem pushes_pushSeries : Pushes Heap.pushSeries := fun h w p => (Heap.pushSeries_perm h w p).map _

/-- A fresh packet of the pool that may stand in the send queue. -/
structure Fresh (v : ResendView) (p : PacketPtr) : Prop where
  lt : p < v.allocated
  not_mem_queue : p ∉ v.queue
  not_mem_sent : p ∉ v.sent
  sized : v.Sized p

theorem pushOutgoing_view
    {push : Heap ℕ PacketPtr false → ℕ → PacketPtr → Heap ℕ PacketPtr false}
    (hpush : Pushes push) (s : ReliabilityLayer) (p : PacketPtr) :
    ∃ queue, queue.Perm (p :: s.resendView.queue) ∧
      (s.pushOutgoing push p).resendView = { s.resendView with queue := queue } := by
  have hview := resendView_addToUnreliableLinkedList s p
  have hbuffer : (s.addToUnreliableLinkedList p).outgoingPacketBuffer.contents =
      s.resendView.queue := congrArg ResendView.queue hview
  refine ⟨(s.pushOutgoing push p).outgoingPacketBuffer.contents, ?_, ?_⟩
  · rw [← hbuffer]
    exact hpush _ _ p
  · rw [← hview]
    rfl

theorem pushOutgoing_inv
    {push : Heap ℕ PacketPtr false → ℕ → PacketPtr → Heap ℕ PacketPtr false}
    (hpush : Pushes push) (h : Inv s.resendView l) (hp : Fresh s.resendView p) :
    Inv (s.pushOutgoing push p).resendView l := by
  obtain ⟨queue, hperm, hview⟩ := pushOutgoing_view hpush s p
  rw [hview]
  exact h.enqueue hperm hp.lt hp.not_mem_queue hp.not_mem_sent hp.sized

theorem foldl_pushOutgoing_inv {ps : List PacketPtr} (hnd : ps.Nodup) (h : Inv s.resendView l)
    (hps : ∀ p ∈ ps, Fresh s.resendView p) :
    Inv (ps.foldl (fun t p => t.pushOutgoing Heap.pushSeries p) s).resendView l := by
  induction ps generalizing s with
  | nil => exact h
  | cons p ps ih =>
    obtain ⟨hp, hnd⟩ := List.nodup_cons.mp hnd
    apply ih hnd (pushOutgoing_inv pushes_pushSeries h (hps p (by simp)))
    intro q hq
    obtain ⟨queue, hperm, hview⟩ := pushOutgoing_view pushes_pushSeries s p
    have hfresh := hps q (by simp [hq])
    rw [hview]
    refine ⟨hfresh.lt, fun hmem => ?_, hfresh.not_mem_sent, hfresh.sized⟩
    rcases List.mem_cons.mp (hperm.mem_iff.mp hmem) with rfl | hmem
    · exact hp hq
    · exact hfresh.not_mem_queue hmem

theorem resendView_allocate (s : ReliabilityLayer) (q : InternalPacket) :
    (s.allocate q).resendView =
      { s.resendView with
        packets := Function.update s.resendView.packets s.allocated
          (q.toTransmissionHeader, q.headerLength)
        allocated := s.allocated + 1 } := by
  have hpackets : (fun p => ((Function.update s.packets s.allocated q p).toTransmissionHeader,
      (Function.update s.packets s.allocated q p).headerLength)) =
      Function.update s.resendView.packets s.allocated
        (q.toTransmissionHeader, q.headerLength) := by
    funext p
    by_cases hp : p = s.allocated
    · subst hp
      simp only [Function.update_self]
    · simp only [Function.update_of_ne hp, resendView]
  simp only [resendView, allocate] at hpackets ⊢
  rw [hpackets]

theorem allocate_inv (h : Inv s.resendView l) (q : InternalPacket) :
    Inv (s.allocate q).resendView l := by
  rw [resendView_allocate]
  exact h.allocate _

theorem foldl_allocate (f : ℕ → InternalPacket) (n : ℕ) (s : ReliabilityLayer) :
    ((List.range n).foldl (fun t i => t.allocate (f i)) s) =
      { s with
        packets := fun p =>
          if s.allocated ≤ p ∧ p < s.allocated + n then f (p - s.allocated) else s.packets p
        allocated := s.allocated + n } := by
  induction n with
  | zero =>
    have hpackets : (fun p => if s.allocated ≤ p ∧ p < s.allocated + 0 then f (p - s.allocated)
        else s.packets p) = s.packets := by
      funext (p : ℕ)
      exact if_neg (by omega)
    rw [hpackets]
    rfl
  | succ n ih =>
    rw [List.range_succ, List.foldl_append, ih]
    simp only [List.foldl_cons, List.foldl_nil, allocate, Nat.add_assoc]
    congr 1
    funext (p : ℕ)
    by_cases hp : p = s.allocated + n
    · have hin : s.allocated ≤ p ∧ p < s.allocated + (n + 1) := by omega
      rw [if_pos hin, hp, Function.update_self, Nat.add_sub_cancel_left]
    · have hin : s.allocated ≤ p ∧ p < s.allocated + (n + 1) ↔
          s.allocated ≤ p ∧ p < s.allocated + n := by omega
      rw [Function.update_of_ne hp]
      simp only [hin]

theorem assign_header (w : WriteIndices) (channel : ℕ) (h : TransmissionHeader) :
    (w.assign channel h).1.dataBitLength = h.dataBitLength ∧
      (w.assign channel h).1.reliability = h.reliability := by
  unfold WriteIndices.assign
  split
  · exact ⟨rfl, rfl⟩
  · split <;> exact ⟨rfl, rfl⟩

theorem maximumSendBlockBytes_eq (s : ReliabilityLayer) :
    s.maximumSendBlockBytes = s.mtu.maxDatagramSizeExcludingMessageHeaderBytes - 23 := rfl

theorem fragment_sized (s : ReliabilityLayer) {packet : InternalPacket} (i : ℕ)
    (hlt : packet.dataBitLength < 2 ^ 32)
    (hsplit : bitsToBytes packet.dataBitLength > s.maximumSendBlockBytes) :
    (s.fragment packet i).dataBitLength < 2 ^ 32 ∧
      bitsToBytes (s.fragment packet i).dataBitLength ≤ s.maximumSendBlockBytes := by
  have hmtu := s.mtu.bytes_le
  have hmin := s.mtu.le_bytes
  have hblock : s.maximumSendBlockBytes = s.mtu.bytes - 32 := by
    rw [maximumSendBlockBytes_eq]
    unfold Mtu.maxDatagramSizeExcludingMessageHeaderBytes
    omega
  have hmul : i * (s.maximumSendBlockBytes * 8) = i * s.maximumSendBlockBytes * 8 := by
    rw [Nat.mul_assoc]
  simp only [fragment, hmul]
  generalize i * s.maximumSendBlockBytes = byteOffset
  rw [hblock] at hsplit ⊢
  unfold bitsToBytes at *
  split
  · omega
  · omega

theorem foldl_allocate_inv (f : ℕ → InternalPacket) (n : ℕ) (h : Inv s.resendView l) :
    Inv ((List.range n).foldl (fun t i => t.allocate (f i)) s).resendView l := by
  induction n with
  | zero => exact h
  | succ n ih =>
    rw [List.range_succ, List.foldl_append]
    exact allocate_inv ih _

theorem splitPacket_inv (h : Inv s.resendView l) {packet : InternalPacket}
    (hlt : packet.dataBitLength < 2 ^ 32)
    (hsplit : bitsToBytes packet.dataBitLength > s.maximumSendBlockBytes) :
    Inv (s.splitPacket packet).resendView l := by
  have hinv := foldl_allocate_inv (s.fragment packet)
    ((bitsToBytes packet.dataBitLength - 1) / s.maximumSendBlockBytes + 1) h
  unfold splitPacket
  dsimp only
  generalize (bitsToBytes packet.dataBitLength - 1) / s.maximumSendBlockBytes + 1 = n at hinv ⊢
  rw [foldl_allocate] at hinv ⊢
  apply foldl_pushOutgoing_inv List.nodup_range'
  · exact hinv
  intro (p : ℕ) hp
  obtain ⟨hge, hltp⟩ := List.mem_range'_1.mp hp
  have hnot : ¬ p < s.allocated := by omega
  refine ⟨hltp, fun hq => hnot (h.queue_lt p hq), fun hs => hnot (h.sent_lt p hs), ?_⟩
  have hsized := s.fragment_sized (p - s.allocated) hlt hsplit
  simp only [Sized, dataBytes, resendView, recordMessage, if_pos (And.intro hge hltp)]
  exact hsized

theorem resendView_recordMessage (s : ReliabilityLayer) (fragments : List PacketPtr) :
    (s.recordMessage fragments).resendView = s.resendView := rfl

theorem pushWhole_inv (h : Inv s.resendView l) {packet : InternalPacket}
    (hlt : packet.dataBitLength < 2 ^ 32)
    (hwhole : bitsToBytes packet.dataBitLength ≤ s.maximumSendBlockBytes) :
    Inv (s.pushWhole packet).resendView l := by
  have hirr : ¬ s.allocated < s.allocated := Nat.lt_irrefl _
  apply pushOutgoing_inv pushes_push
  · apply allocate_inv
    rw [resendView_recordMessage]
    exact h
  · rw [resendView_allocate, resendView_recordMessage]
    refine ⟨Nat.lt_succ_self _, fun hq => hirr (h.queue_lt _ hq),
      fun hs => hirr (h.sent_lt _ hs), ?_⟩
    simp only [Sized, dataBytes, recordMessage, Function.update_self]
    exact ⟨hlt, hwhole⟩

theorem send_inv (h : Inv s.resendView l) (i : SendInput) :
    Inv (s.send i).2.resendView l := by
  unfold send
  dsimp only
  split
  · exact h
  generalize (if i.orderingChannel ≥ 32 then 0 else i.orderingChannel) = channel
  generalize hpacket : newPacket i _ = packet
  have hbits : packet.dataBitLength = i.numberOfBitsToSend := by rw [← hpacket]; rfl
  have hassigned := assign_header (s.writeIndices channel) channel packet.toTransmissionHeader
  generalize (s.writeIndices channel).assign channel packet.toTransmissionHeader = w at hassigned
  have hw : w.1.dataBitLength = i.numberOfBitsToSend := hassigned.1.trans hbits
  have hlt : w.1.dataBitLength < 2 ^ 32 := hw ▸ i.isLt
  have hview : ({ s with writeIndices := Function.update s.writeIndices channel w.2 } :
      ReliabilityLayer).resendView = s.resendView := rfl
  rw [← hview] at h
  split
  · rename_i hsplit
    apply splitPacket_inv h hlt
    rw [hw]
    exact of_decide_eq_true hsplit
  · rename_i hsplit
    apply pushWhole_inv h hlt
    rw [hw]
    exact Nat.le_of_not_lt fun hgt => hsplit (decide_eq_true hgt)

variable {u : UpdateInput}

theorem resendView_pushDatagram (s : ReliabilityLayer) :
    s.pushDatagram.resendView = s.resendView := by
  unfold pushDatagram
  split <;> rfl

theorem resendView_setNextActionTime (s : ReliabilityLayer) (p : PacketPtr) :
    (s.setNextActionTime u p).resendView = s.resendView :=
  resendView_modifyPacket s p fun _ => ⟨rfl, rfl⟩

theorem resendView_incrementTimesSent (s : ReliabilityLayer) (p : PacketPtr) :
    (s.incrementTimesSent p).resendView = s.resendView :=
  resendView_modifyPacket s p fun _ => ⟨rfl, rfl⟩

theorem resendView_pushPacket (s : ReliabilityLayer) (p : PacketPtr) (isReliable : Bool) :
    (s.pushPacket p isReliable).resendView = s.resendView := rfl

theorem resendView_removeFromList (s : ReliabilityLayer) (p : PacketPtr) :
    (s.removeFromList p false).resendView =
      { s.resendView with resendLinkedList := s.resendLinkedList.remove p } := rfl

theorem resendView_addToListTail (s : ReliabilityLayer) (p : PacketPtr) :
    (s.addToListTail p false).resendView =
      { s.resendView with resendLinkedList := s.resendView.resendLinkedList.addTail p } := rfl

theorem resendView_resendPacket (s : ReliabilityLayer) (p : PacketPtr) :
    (s.resendPacket u p).resendView =
      { s.resendView with
        resendLinkedList := (s.resendView.resendLinkedList.remove p).addTail p } := by
  rw [resendPacket, resendView_addToListTail, resendView_setNextActionTime,
    resendView_incrementTimesSent, resendView_pushPacket, resendView_removeFromList]
  rfl

theorem resendPacket_inv (h : Inv s.resendView (p :: l)) :
    Inv (s.resendPacket u p).resendView (l ++ [p]) := by
  rw [resendView_resendPacket]
  exact h.resend

theorem resendView_setHeaderLength (s : ReliabilityLayer) (p : PacketPtr) :
    (s.setHeaderLength p).resendView =
      { s.resendView with
        packets := Function.update s.resendView.packets p
          ((s.packets p).toTransmissionHeader, (s.packets p).getMessageHeaderLengthBits) } := by
  simp only [resendView, setHeaderLength, modifyPacket]
  congr 1
  funext q
  by_cases hq : q = p
  · subst hq
    simp only [Function.update_self]
  · simp only [Function.update_of_ne hq]

theorem peek_mem (hpeek : s.outgoingPacketBuffer.peek = some p) : p ∈ s.resendView.queue :=
  (popOutgoing_perm hpeek).mem_iff.mpr (by simp)

theorem setHeaderLength_inv (h : Inv s.resendView l)
    (hpeek : s.outgoingPacketBuffer.peek = some p) :
    Inv (s.setHeaderLength p).resendView l := by
  rw [resendView_setHeaderLength]
  exact h.updatePacket (h.queue_not_sent p (peek_mem hpeek)) _ fun _ => rfl

/-- The view of a packet that takes the next number. -/
def numbered (v : ResendView) (p : PacketPtr) : ResendView :=
  { v with
    packets := Function.update v.packets p
      ({ (v.packets p).1 with reliableMessageNumber := v.sendReliableMessageNumberIndex },
        (v.packets p).2) }

theorem resendView_modifyNumber (s : ReliabilityLayer) (p : PacketPtr) :
    (s.modifyPacket p fun q =>
      { q with
        messageNumberAssigned := true
        reliableMessageNumber := s.sendReliableMessageNumberIndex }).resendView =
      numbered s.resendView p := by
  simp only [resendView, modifyPacket, numbered]
  congr 1
  funext q
  by_cases hq : q = p
  · subst hq
    simp only [Function.update_self]
  · simp only [Function.update_of_ne hq]

theorem assignReliable_inv (h : Inv s.resendView l) (hroom : s.resendBufferOverflow = false)
    (hreliable : (s.packets p).reliability.isReliable = true)
    (hheader : (s.packets p).headerLength = (s.packets p).getMessageHeaderLengthBits)
    (hfresh : Fresh s.resendView p) : Inv (s.assignReliable u p).resendView (l ++ [p]) := by
  have hinv : Inv (numbered s.resendView p) l :=
    h.updatePacket hfresh.not_mem_sent _ fun _ => rfl
  have hpacket : (numbered s.resendView p).packets p =
      ({ (s.packets p).toTransmissionHeader with
        reliableMessageNumber := s.sendReliableMessageNumberIndex }, (s.packets p).headerLength) := by
    simp only [numbered, Function.update_self]
    rfl
  have hfree : s.resendBuffer (resendSlot s.sendReliableMessageNumberIndex) = none := by
    simpa [resendBufferOverflow] using hroom
  have hsized : (numbered s.resendView p).Sized p := by
    have := hfresh.sized
    simp only [Sized, dataBytes, hpacket]
    exact this
  have hassign := hinv.assign (p := p) hfree (by rw [number, hpacket]; rfl)
    (by rw [hpacket]; exact hreliable) (by rw [hpacket]; exact hheader) hsized hfresh.lt
    hfresh.not_mem_queue hfresh.not_mem_sent
  have hview := resendView_modifyNumber s p
  have hview' := (resendView_setNextActionTime (u := u) _ p).trans hview
  rw [← hview'] at hassign
  exact hassign

theorem packets_popOutgoing (s : ReliabilityLayer) : s.popOutgoing.packets = s.packets := by
  unfold popOutgoing
  split <;> rfl

theorem popOutgoing_fresh (h : Inv s.resendView l) (hpeek : s.outgoingPacketBuffer.peek = some p) :
    Fresh s.popOutgoing.resendView p := by
  have hnd := (popOutgoing_perm hpeek).nodup_iff.mp h.queue_nodup
  have hmem := peek_mem hpeek
  rw [resendView_popOutgoing]
  exact ⟨h.queue_lt p hmem, (List.nodup_cons.mp hnd).1, h.queue_not_sent p hmem,
    h.queue_sized p hmem⟩

theorem sendPacket_inv (h : Inv s.resendView l) (hpeek : s.outgoingPacketBuffer.peek = some p)
    (hheader : (s.packets p).headerLength = (s.packets p).getMessageHeaderLengthBits)
    (hroom : s.resendBufferOverflow = false) :
    Inv (s.sendPacket u p).resendView
      (if (s.packets p).reliability.isReliable then l ++ [p] else l) := by
  have hpop := popOutgoing_inv h hpeek
  have hfresh := popOutgoing_fresh h hpeek
  rw [← packets_popOutgoing s] at hheader
  rw [← resendBufferOverflow_popOutgoing] at hroom
  unfold sendPacket
  dsimp only
  rw [resendView_incrementTimesSent, resendView_pushPacket]
  show Inv (s.popOutgoing.registerSend u p).resendView _
  unfold registerSend
  rw [← packets_popOutgoing s]
  split
  · rename_i hreliable
    exact assignReliable_inv hpop hroom hreliable hheader hfresh
  · split
    · exact hpop
    · exact hpop

theorem packStep_inv {t : ReliabilityLayer} (hstep : PackStep u s t)
    (h : ∃ l, Inv s.resendView l) : ∃ l, Inv t.resendView l := by
  obtain ⟨l, h⟩ := h
  cases hstep with
  | clearAllDatagramSizes => exact ⟨l, h⟩
  | pushDatagram =>
    rw [resendView_pushDatagram]
    exact ⟨l, h⟩
  | resend p hhead hdue hfits =>
    obtain ⟨rest, rfl⟩ := h.represents.head_mem hhead
    exact ⟨_, resendPacket_inv h⟩
  | drop p hpeek hnull => exact ⟨l, popOutgoing_inv h hpeek⟩
  | setHeaderLength p hpeek => exact ⟨l, setHeaderLength_inv h hpeek⟩
  | send p hpeek hheader hfits hroom => exact ⟨_, sendPacket_inv h hpeek hheader hroom⟩

theorem packDatagrams_inv (h : ∃ l, Inv s.resendView l) :
    ∃ l, Inv (s.packDatagrams u).resendView l :=
  packDatagrams_induction (fun _ _ => packStep_inv) h

theorem resendView_addToDatagramHistory (s : ReliabilityLayer) (messageNumbers : List Uint24) :
    (s.addToDatagramHistory u messageNumbers).resendView = s.resendView := by
  unfold addToDatagramHistory
  split <;> rfl

theorem resendView_emitDatagram (s : ReliabilityLayer) (datagram : List PacketPtr) :
    (s.emitDatagram u datagram).resendView = s.resendView :=
  resendView_addToDatagramHistory s (s.recordedNumbers datagram)

theorem resendView_emitDatagrams (s : ReliabilityLayer) :
    (s.emitDatagrams u).resendView = s.resendView :=
  resendView_foldl (fun t _ => resendView_emitDatagram t _) _ s

theorem resendView_clearPacketsAndDatagrams (s : ReliabilityLayer) :
    s.clearPacketsAndDatagrams.resendView = s.resendView := by
  apply resendView_foldl (f := clearPacket)
  intro t entry
  unfold clearPacket
  split
  · rw [resendView_freeInternalPacketData, resendView_removeFromUnreliableLinkedList]
  · rfl

theorem sendDatagrams_inv (h : ∃ l, Inv s.resendView l) :
    ∃ l, Inv (s.sendDatagrams u).resendView l := by
  unfold sendDatagrams
  rw [resendView_clearPacketsAndDatagrams, resendView_emitDatagrams]
  exact packDatagrams_inv h

theorem resendView_cullUnreliable (s : ReliabilityLayer) (timeSinceLastTick : ℕ) :
    (s.cullUnreliable u timeSinceLastTick).resendView = s.resendView := by
  unfold cullUnreliable
  split
  · apply resendView_foldl (f := cullPacket)
    intro t p
    rw [cullPacket, resendView_removeFromUnreliableLinkedList, resendView_freeInternalPacketData]
  · split <;> rfl

theorem resendView_clearExpiredBps (s : ReliabilityLayer) :
    (s.clearExpiredBps u).resendView = s.resendView := by
  unfold clearExpiredBps
  split <;> rfl

theorem resendView_reportLosses (s : ReliabilityLayer) :
    (s.reportLosses u).resendView = s.resendView := by
  simp only [reportLosses, resendView]

theorem resendView_beginUpdate (s : ReliabilityLayer) :
    (s.beginUpdate u).resendView = s.resendView :=
  resendView_cullUnreliable { s with lastUpdateTime := u.time } _

theorem finishUpdate_inv (h : ∃ l, Inv s.resendView l) :
    ∃ l, Inv (s.finishUpdate u).resendView l := by
  unfold finishUpdate
  split
  · exact h
  · rw [← resendView_clearExpiredBps (u := u), ← resendView_reportLosses (u := u)] at h
    split
    · exact sendDatagrams_inv h
    · exact h

theorem updateInternal_inv (h : ∃ l, Inv s.resendView l) :
    ∃ l, Inv (s.updateInternal u).resendView l := by
  unfold updateInternal
  split
  · exact h
  · rw [← resendView_beginUpdate (u := u)] at h
    exact finishUpdate_inv h

theorem resendView_pushReceipt (s : ReliabilityLayer) (p : PacketPtr) :
    (s.pushReceipt p).resendView = s.resendView := by
  unfold pushReceipt
  split <;> rfl

theorem resendView_removeFromList_true (s : ReliabilityLayer) (p : PacketPtr) :
    (s.removeFromList p true).resendView =
      { s.resendView with
        resendLinkedList := s.resendView.resendLinkedList.remove p
        unacknowledgedBytes :=
          (2 ^ 32 - s.resendView.bytes p + s.resendView.unacknowledgedBytes) % 2 ^ 32 } := rfl

theorem resendView_removeFromResendBuffer (s : ReliabilityLayer) (p : PacketPtr)
    (number : Uint24) (hreliable : (s.packets p).reliability.isReliable = true) :
    (s.removeFromResendBuffer p number).resendView =
      { s.resendView with
        resendBuffer := Function.update s.resendView.resendBuffer (resendSlot number) none
        resendLinkedList := s.resendView.resendLinkedList.remove p
        unacknowledgedBytes :=
          (2 ^ 32 - s.resendView.bytes p + s.resendView.unacknowledgedBytes) % 2 ^ 32
        messagesInResendBuffer := (2 ^ 32 - 1 + s.resendView.messagesInResendBuffer) % 2 ^ 32
        bytesInResendBuffer :=
          (2 ^ 64 - s.resendView.dataBytes p + s.resendView.bytesInResendBuffer) % 2 ^ 64 } := by
  rw [removeFromResendBuffer, resendView_freeInternalPacketData]
  simp only [hreliable]
  rw [resendView_removeFromList_true, resendView_pushReceipt]
  rfl

theorem removePacketFromResendList_inv (h : Inv s.resendView l) (number : Uint24) :
    ∃ l', Inv (s.removePacketFromResendList number).resendView l' := by
  have hview : (s.acknowledge number).resendView =
      { s.resendView with
        acknowledged := s.resendView.acknowledged ++ Inv.acknowledging s.resendView number } := rfl
  -- the outstanding packet with this number is the one in its slot
  have hslot : ∀ q ∈ l, s.resendView.number q = number →
      s.resendBuffer (resendSlot number) = some q := by
    intro q hq hnum
    exact (h.slot_iff _ q).mpr ⟨hq, by rw [hnum]⟩
  unfold removePacketFromResendList
  dsimp only
  split
  · rename_i hnone
    refine ⟨l, ?_⟩
    rw [hview]
    apply h.acknowledge_none
    intro q hq hnum
    have := hslot q hq hnum
    rw [show s.resendBuffer (resendSlot number) = none from hnone] at this
    cases this
  · rename_i p hsome
    have hsome : s.resendBuffer (resendSlot number) = some p := hsome
    obtain ⟨hp, -⟩ := (h.slot_iff _ p).mp hsome
    split
    · rename_i hnum
      have hnum : s.resendView.number p = number := hnum
      subst hnum
      refine ⟨l.erase p, ?_⟩
      have hreliable : (s.packets p).reliability.isReliable = true := by
        obtain ⟨k, hk⟩ := List.getElem?_of_mem (h.mem_sent hp)
        exact (h.sent_number k p hk).2
      rw [resendView_removeFromResendBuffer (s.acknowledge _) p _ hreliable]
      exact h.acknowledge hp
    · rename_i hnum
      refine ⟨l, ?_⟩
      rw [hview]
      apply h.acknowledge_none
      intro q hq hq'
      have := hslot q hq hq'
      rw [hsome] at this
      obtain rfl := Option.some.inj this
      exact hnum hq'

theorem rangesLoop_induction {P : ReliabilityLayer → Prop}
    {onDatagram : ReliabilityLayer → Uint24 → ReliabilityLayer}
    (hstep : ∀ s d, P s → P (onDatagram s d)) (ranges : List RangeNode) {s : ReliabilityLayer}
    (h : P s) : P (rangesLoop onDatagram s ranges).2 := by
  have hrange : ∀ (numbers : List Uint24) (s : ReliabilityLayer), P s →
      P (rangeLoop onDatagram s numbers).2 := by
    intro numbers
    induction numbers with
    | nil => exact fun _ h => h
    | cons d numbers ih =>
      intro s h
      simp only [rangeLoop]
      split
      · exact h
      · exact ih _ (hstep s d h)
  induction ranges generalizing s with
  | nil => exact h
  | cons r ranges ih =>
    simp only [rangesLoop]
    split
    · exact h
    · split
      · exact hrange _ _ h
      · exact ih (hrange _ _ h)

theorem foldl_induction {β : Type*} {P : ReliabilityLayer → Prop}
    {f : ReliabilityLayer → β → ReliabilityLayer} (hf : ∀ s b, P s → P (f s b)) (bs : List β)
    {s : ReliabilityLayer} (h : P s) : P (bs.foldl f s) := by
  induction bs generalizing s with
  | nil => exact h
  | cons b bs ih => exact ih (hf s b h)

theorem ackDatagram_inv (d : Uint24) (h : ∃ l, Inv s.resendView l) :
    ∃ l, Inv (s.ackDatagram d).resendView l := by
  unfold ackDatagram
  split
  · exact h
  · apply foldl_induction (P := fun s => ∃ l, Inv s.resendView l) _ _ h
    exact fun t number ⟨l, ht⟩ => removePacketFromResendList_inv ht number

theorem handleAck_inv (incomingAcks : RangeList) (h : ∃ l, Inv s.resendView l) :
    ∃ l, Inv (s.handleAck incomingAcks).2.resendView l := by
  unfold handleAck
  dsimp only
  split
  · exact h
  · have h' : ∃ l, Inv ((s.cover incomingAcks).reportAcked incomingAcks).resendView l := h
    apply rangesLoop_induction (P := fun s => ∃ l, Inv s.resendView l) _ _ h'
    exact fun t d => ackDatagram_inv d

theorem resendView_nakDatagram (timeRead : ℕ) (s : ReliabilityLayer) (d : Uint24) :
    (s.nakDatagram timeRead d).resendView = s.resendView := by
  apply resendView_foldl (f := nakMessage timeRead)
  intro t number
  unfold nakMessage
  split
  · rfl
  · split
    · exact resendView_modifyPacket _ _ fun _ => ⟨rfl, rfl⟩
    · rfl

theorem handleNak_inv (incomingNAKs : RangeList) (timeRead : ℕ) (h : ∃ l, Inv s.resendView l) :
    ∃ l, Inv (s.handleNak incomingNAKs timeRead).2.resendView l := by
  unfold handleNak
  split
  · exact h
  · apply rangesLoop_induction (P := fun s => ∃ l, Inv s.resendView l) _ _ h
    intro t d ht
    rw [resendView_nakDatagram]
    exact ht

theorem step_inv (i : SenderInput) (h : ∃ l, Inv s.resendView l) :
    ∃ l, Inv (s.step i).resendView l := by
  cases i with
  | send input =>
    obtain ⟨l, h⟩ := h
    exact ⟨l, send_inv h input⟩
  | update input => exact updateInternal_inv h
  | ack incomingAcks timeMS => exact handleAck_inv incomingAcks h
  | nak incomingNAKs timeRead timeMS => exact handleNak_inv incomingNAKs timeRead h
  | setUnreliableTimeout timeoutMS => exact h

theorem initial_inv (mtu : Mtu) (lastUpdateTime timeLastDatagramArrived timeoutTime : ℕ) :
    Inv (initial mtu lastUpdateTime timeLastDatagramArrived timeoutTime).resendView [] where
  represents := ⟨rfl, List.nodup_nil, List.isChain_nil⟩
  mem_iff p := by simp [resendView, initial, History.empty]
  slot_iff i p := by simp [resendView, initial]
  sent_nodup := List.nodup_nil
  sent_number k p hk := by simp [resendView, initial, History.empty] at hk
  index_eq := rfl
  window k p hk := by simp [resendView, initial, History.empty] at hk
  overwritten_eq := rfl
  unacknowledgedBytes_eq := rfl
  messagesInResendBuffer_eq := rfl
  bytesInResendBuffer_eq := rfl
  headerLength_eq p hp := by cases hp
  sized p hp := by cases hp
  queue_sized p hp := by cases hp
  queue_nodup := List.nodup_nil
  queue_lt p hp := by cases hp
  queue_not_sent p hp := by cases hp
  sent_lt p hp := by cases hp
  acknowledged_sent p hp := by cases hp

theorem run_inv (mtu : Mtu) (lastUpdateTime timeLastDatagramArrived timeoutTime : ℕ)
    (inputs : List SenderInput) :
    ∃ l, Inv (inputs.foldl step
      (initial mtu lastUpdateTime timeLastDatagramArrived timeoutTime)).resendView l :=
  foldl_induction (P := fun s => ∃ l, Inv s.resendView l) (fun _ i => step_inv i) inputs
    ⟨[], initial_inv _ _ _ _⟩

/-- The resend list is `l`, and `l` is what the resend buffer and the counters hold. -/
structure BookkeepingOf (s : ReliabilityLayer) (l : List PacketPtr) : Prop where
  represents : s.resendLinkedList.Represents l
  mem_iff_outstanding : ∀ p, p ∈ l ↔ s.Outstanding p
  mem_iff_slot : ∀ p, p ∈ l ↔ ∃ i, s.resendBuffer i = some p
  slot_eq : ∀ (i : Fin 512) (p : PacketPtr), s.resendBuffer i = some p →
    (s.packets p).reliableMessageNumber.val % 512 = i
  never_overwritten : s.history.overwritten = []
  unacknowledgedBytes_eq : s.unacknowledgedBytes = (l.map fun p => (s.packets p).bytes).sum
  bytes_le : ∀ p ∈ l, (s.packets p).bytes ≤ s.unacknowledgedBytes
  messagesInResendBuffer_eq : s.messagesInResendBuffer = l.length
  bytesInResendBuffer_eq : s.bytesInResendBuffer =
    (l.map fun p => bitsToBytes (s.packets p).dataBitLength).sum

theorem bookkeepingOf_inv (h : Inv s.resendView l) : BookkeepingOf s l where
  represents := h.represents
  mem_iff_outstanding := h.mem_iff
  mem_iff_slot p := by
    constructor
    · intro hp
      exact ⟨_, (h.slot_iff _ p).mpr ⟨hp, rfl⟩⟩
    · rintro ⟨i, hi⟩
      exact ((h.slot_iff i p).mp hi).1
  slot_eq i p hi := congrArg Fin.val ((h.slot_iff i p).mp hi).2
  never_overwritten := h.overwritten_eq
  unacknowledgedBytes_eq := h.unacknowledgedBytes_eq
  bytes_le p hp := by
    have hsum := h.unacknowledgedBytes_eq
    have hle : s.resendView.bytes p ≤ (l.map s.resendView.bytes).sum :=
      List.single_le_sum (by simp) _ (List.mem_map_of_mem hp)
    rw [← hsum] at hle
    exact hle
  messagesInResendBuffer_eq := h.messagesInResendBuffer_eq
  bytesInResendBuffer_eq := h.bytesInResendBuffer_eq

/-- In every reachable state the resend list, the resend buffer and the outstanding
messages are the same set, and the counters are its size and its sums. -/
theorem resend_bookkeeping (mtu : Mtu) (lastUpdateTime timeLastDatagramArrived timeoutTime : ℕ)
    (inputs : List SenderInput) :
    ∃ l, BookkeepingOf (inputs.foldl step
      (initial mtu lastUpdateTime timeLastDatagramArrived timeoutTime)) l := by
  obtain ⟨l, h⟩ := run_inv mtu lastUpdateTime timeLastDatagramArrived timeoutTime inputs
  exact ⟨l, bookkeepingOf_inv h⟩

end ReliabilityLayer

end SLikeNet
