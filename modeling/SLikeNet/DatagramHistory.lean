import SLikeNet.AckLoop

/-! The datagram history holds the last datagrams that left, and its nodes still name every
outstanding message that these datagrams carried. -/

namespace SLikeNet

namespace ReliabilityLayer

open ResendView

variable {s t r : ReliabilityLayer} {l : List PacketPtr} {p : PacketPtr} {n : ℕ} {u : UpdateInput}

/-- The packet has left the send queue. -/
def Left (s : ReliabilityLayer) (p : PacketPtr) : Prop :=
  p < s.allocated ∧ p ∉ s.outgoingPacketBuffer.contents

/-- Packets below `n` that have left the send queue do not return to it, keep their numbers, and
do not become outstanding. -/
structure Settles (n : ℕ) (s t : ReliabilityLayer) : Prop where
  not_queued : ∀ p < n, p ∉ s.outgoingPacketBuffer.contents → p ∉ t.outgoingPacketBuffer.contents
  number_eq : ∀ p < n, p ∉ s.outgoingPacketBuffer.contents →
    t.messageNumbers p = s.messageNumbers p
  outstanding : ∀ p < n, p ∉ s.outgoingPacketBuffer.contents → t.Outstanding p → s.Outstanding p

namespace Settles

theorem refl (n : ℕ) (s : ReliabilityLayer) : Settles n s s :=
  ⟨fun _ _ h => h, fun _ _ _ => rfl, fun _ _ _ h => h⟩

theorem trans (hst : Settles n s t) (htr : Settles n t r) : Settles n s r where
  not_queued p hp hs := htr.not_queued p hp (hst.not_queued p hp hs)
  number_eq p hp hs :=
    (htr.number_eq p hp (hst.not_queued p hp hs)).trans (hst.number_eq p hp hs)
  outstanding p hp hs hr :=
    hst.outstanding p hp hs (htr.outstanding p hp (hst.not_queued p hp hs) hr)

theorem left (h : Settles s.allocated s t) (hle : s.allocated ≤ t.allocated) (hp : s.Left p) :
    t.Left p :=
  ⟨Nat.lt_of_lt_of_le hp.1 hle, h.not_queued p hp.1 hp.2⟩

theorem of_view (hqueue : t.resendView.queue = s.resendView.queue)
    (hnumber : t.messageNumbers = s.messageNumbers)
    (hsent : t.resendView.sent = s.resendView.sent)
    (hacknowledged : t.resendView.acknowledged = s.resendView.acknowledged) : Settles n s t where
  not_queued p _ hp := by
    rw [show t.outgoingPacketBuffer.contents = s.outgoingPacketBuffer.contents from hqueue]
    exact hp
  number_eq p _ _ := by rw [hnumber]
  outstanding p _ _ hp := by
    rw [Outstanding, show t.history.sent = s.history.sent from hsent,
      show t.history.acknowledged = s.history.acknowledged from hacknowledged] at hp
    exact hp

theorem of_resendView_eq (h : t.resendView = s.resendView) : Settles n s t := by
  refine of_view (by rw [h]) ?_ (by rw [h]) (by rw [h])
  show t.resendView.number = s.resendView.number
  rw [h]

theorem of_onlyAcknowledges {acknowledged : Uint24 → Prop}
    (h : OnlyAcknowledges s t acknowledged) : Settles n s t where
  not_queued p _ hp := by rwa [h.outgoing_eq]
  number_eq p _ _ := by rw [h.numbers_eq]
  outstanding p _ _ hp := ((h.outstanding_iff p).mp hp).1

theorem foldl {β : Type*} {f : ReliabilityLayer → β → ReliabilityLayer} {bs : List β}
    (hf : ∀ s, ∀ b ∈ bs, Settles n s (f s b)) (s : ReliabilityLayer) :
    Settles n s (bs.foldl f s) := by
  induction bs generalizing s with
  | nil => exact refl n s
  | cons b bs ih =>
    exact (hf s b List.mem_cons_self).trans
      (ih (fun s b' hb' => hf s b' (List.mem_cons_of_mem b hb')) _)

end Settles

theorem settles_pushOutgoing
    {push : Heap ℕ PacketPtr false → ℕ → PacketPtr → Heap ℕ PacketPtr false}
    (hpush : Pushes push) (s : ReliabilityLayer) (hp : n ≤ p) :
    Settles n s (s.pushOutgoing push p) := by
  obtain ⟨queue, hperm, hview⟩ := pushOutgoing_view hpush s p
  have hqueue : (s.pushOutgoing push p).outgoingPacketBuffer.contents = queue :=
    congrArg ResendView.queue hview
  refine ⟨fun q hq hs hmem => ?_, fun q _ _ => ?_, fun q _ _ hout => ?_⟩
  · rw [hqueue] at hmem
    rcases List.mem_cons.mp (hperm.mem_iff.mp hmem) with rfl | hmem
    · exact Nat.not_le_of_lt hq hp
    · exact hs hmem
  · exact congrFun (congrArg ResendView.number hview) q
  · rw [Outstanding, show (s.pushOutgoing push p).history.sent = s.history.sent from
        congrArg ResendView.sent hview,
      show (s.pushOutgoing push p).history.acknowledged = s.history.acknowledged from
        congrArg ResendView.acknowledged hview] at hout
    exact hout

theorem settles_splitPacket (s : ReliabilityLayer) (packet : InternalPacket) :
    Settles s.allocated s (s.splitPacket packet) ∧
      s.allocated ≤ (s.splitPacket packet).allocated := by
  rw [splitPacket_eq]
  generalize (bitsToBytes packet.dataBitLength - 1) / s.maximumSendBlockBytes + 1 = count
  have hfragments : Settles s.allocated s (s.withFragments packet count) := by
    refine ⟨fun _ _ h => h, fun (q : ℕ) hq _ => ?_, fun _ _ _ h => h⟩
    rw [messageNumbers, withFragments_packets, if_neg (by omega)]
    rfl
  refine ⟨hfragments.trans (.foldl (fun t q hq => ?_) _), ?_⟩
  · exact settles_pushOutgoing pushes_pushSeries t (List.mem_range'_1.mp hq).1
  · rw [(Keeps.foldl (keeps_pushOutgoing Heap.pushSeries) _ _).allocated_eq]
    exact Nat.le_add_right s.allocated count

theorem settles_pushWhole (s : ReliabilityLayer) (packet : InternalPacket) :
    Settles s.allocated s (s.pushWhole packet) ∧
      s.allocated ≤ (s.pushWhole packet).allocated := by
  have hallocate : Settles s.allocated s ((s.recordMessage [s.allocated]).allocate packet) := by
    refine ⟨fun _ _ h => h, fun q hq _ => ?_, fun _ _ _ h => h⟩
    show (Function.update s.packets s.allocated packet q).reliableMessageNumber = _
    rw [Function.update_of_ne (Nat.ne_of_lt hq)]
    rfl
  refine ⟨hallocate.trans (settles_pushOutgoing pushes_push _ (Nat.le_refl _)), ?_⟩
  rw [show (s.pushWhole packet).allocated = s.allocated + 1 from
    (keeps_pushOutgoing Heap.push _ _).allocated_eq]
  exact Nat.le_succ _

theorem settles_send (s : ReliabilityLayer) (i : SendInput) :
    Settles s.allocated s (s.send i).2 ∧ s.allocated ≤ (s.send i).2.allocated := by
  unfold send
  dsimp only
  split
  · exact ⟨.refl _ s, Nat.le_refl _⟩
  generalize (if i.orderingChannel ≥ 32 then 0 else i.orderingChannel) = channel
  generalize newPacket i _ = packet
  generalize (s.writeIndices channel).assign channel packet.toTransmissionHeader = w
  have hindices : Settles s.allocated s
      { s with writeIndices := Function.update s.writeIndices channel w.2 } :=
    .of_resendView_eq rfl
  split
  · obtain ⟨hsettles, hle⟩ := settles_splitPacket
      { s with writeIndices := Function.update s.writeIndices channel w.2 }
      { packet with toTransmissionHeader := w.1 }
    exact ⟨hindices.trans hsettles, hle⟩
  · obtain ⟨hsettles, hle⟩ := settles_pushWhole
      { s with writeIndices := Function.update s.writeIndices channel w.2 }
      { packet with toTransmissionHeader := w.1 }
    exact ⟨hindices.trans hsettles, hle⟩

theorem settles_popOutgoing (hpeek : s.outgoingPacketBuffer.peek = some p) :
    Settles n s s.popOutgoing := by
  have hperm := popOutgoing_perm hpeek
  have hview := resendView_popOutgoing s
  refine ⟨fun q _ hq hmem => hq (hperm.mem_iff.mpr (List.mem_cons_of_mem p hmem)),
    fun q _ _ => ?_, fun q _ _ hout => ?_⟩
  · rw [messageNumbers, packets_popOutgoing]
    rfl
  · rw [Outstanding, show s.popOutgoing.history.sent = s.history.sent from
        congrArg ResendView.sent hview,
      show s.popOutgoing.history.acknowledged = s.history.acknowledged from
        congrArg ResendView.acknowledged hview] at hout
    exact hout

theorem settles_setHeaderLength (s : ReliabilityLayer) (p : PacketPtr) :
    Settles n s (s.setHeaderLength p) := by
  refine .of_view rfl ?_ rfl rfl
  funext q
  show (Function.update s.packets p _ q).reliableMessageNumber = _
  by_cases hq : q = p
  · rw [hq, Function.update_self]
    rfl
  · rw [Function.update_of_ne hq]
    rfl

theorem settles_resendPacket (s : ReliabilityLayer) (p : PacketPtr) :
    Settles n s (s.resendPacket u p) := by
  have hview := resendView_resendPacket (u := u) s p
  refine .of_view (by rw [hview]) ?_ (by rw [hview]) (by rw [hview])
  show (s.resendPacket u p).resendView.number = s.resendView.number
  rw [hview]
  rfl

theorem registerSend_other (s : ReliabilityLayer) {p q : PacketPtr} (hq : q ≠ p) :
    (s.registerSend u p).messageNumbers q = s.messageNumbers q ∧
      ((s.registerSend u p).Outstanding q → s.Outstanding q) := by
  unfold registerSend
  split
  · constructor
    · show (Function.update (Function.update s.packets p _) p _ q).reliableMessageNumber = _
      rw [Function.update_of_ne hq, Function.update_of_ne hq]
      rfl
    · rintro ⟨hsent, hacknowledged⟩
      have hsent : q ∈ s.history.sent ++ [p] := hsent
      rw [List.mem_append, List.mem_singleton] at hsent
      exact ⟨hsent.resolve_right hq, hacknowledged⟩
  · split <;> exact ⟨rfl, id⟩

theorem outgoing_registerSend (s : ReliabilityLayer) (p : PacketPtr) :
    (s.registerSend u p).outgoingPacketBuffer = s.outgoingPacketBuffer := by
  unfold registerSend
  split
  · rfl
  · split <;> rfl

theorem settles_sendPacket (hpeek : s.outgoingPacketBuffer.peek = some p) :
    Settles n s (s.sendPacket u p) := by
  have hpop := settles_popOutgoing (n := n) hpeek
  have hmem : p ∈ s.outgoingPacketBuffer.contents := peek_mem hpeek
  have hpush : ∀ (t : ReliabilityLayer) (b : Bool),
      Settles n t (((t.countBytesSent u p).pushPacket p b).incrementTimesSent p) :=
    fun t b => .of_resendView_eq (resendView_incrementTimesSent _ p)
  refine Settles.trans ⟨?_, ?_, ?_⟩ (hpush (s.popOutgoing.registerSend u p) _)
  · intro q hq hs
    rw [outgoing_registerSend]
    exact hpop.not_queued q hq hs
  · intro q hq hs
    have hne : q ≠ p := fun heq => hs (heq ▸ hmem)
    exact (registerSend_other _ hne).1.trans (hpop.number_eq q hq hs)
  · intro q hq hs hout
    have hne : q ≠ p := fun heq => hs (heq ▸ hmem)
    exact hpop.outstanding q hq hs ((registerSend_other _ hne).2 hout)

theorem settles_packStep (hstep : PackStep u s t) : Settles n s t := by
  cases hstep with
  | clearAllDatagramSizes => exact .of_resendView_eq rfl
  | pushDatagram => exact .of_resendView_eq (resendView_pushDatagram s)
  | resend p hhead hdue hfits => exact settles_resendPacket s p
  | drop p hpeek hnull => exact settles_popOutgoing hpeek
  | setHeaderLength p hpeek => exact settles_setHeaderLength s p
  | send p hpeek hheader hfits hroom => exact settles_sendPacket hpeek

section Window

theorem datagramWindow_foldl {β : Type*} {f : ReliabilityLayer → β → ReliabilityLayer}
    (hf : ∀ s b, (f s b).datagramWindow = s.datagramWindow) (bs : List β) (s : ReliabilityLayer) :
    (bs.foldl f s).datagramWindow = s.datagramWindow :=
  foldl_induction (P := fun t => t.datagramWindow = s.datagramWindow)
    (fun t b ht => (hf t b).trans ht) bs rfl

theorem datagramWindow_pushOutgoing
    (push : Heap ℕ PacketPtr false → ℕ → PacketPtr → Heap ℕ PacketPtr false)
    (s : ReliabilityLayer) (p : PacketPtr) :
    (s.pushOutgoing push p).datagramWindow = s.datagramWindow := by
  show (s.addToUnreliableLinkedList p).datagramWindow = _
  unfold addToUnreliableLinkedList
  split <;> rfl

theorem datagramWindow_send (s : ReliabilityLayer) (i : SendInput) :
    (s.send i).2.datagramWindow = s.datagramWindow := by
  unfold send
  dsimp only
  split
  · rfl
  · split
    · rw [splitPacket_eq, datagramWindow_foldl (datagramWindow_pushOutgoing Heap.pushSeries)]
      rfl
    · exact datagramWindow_pushOutgoing Heap.push _ _

theorem datagramWindow_popOutgoing (s : ReliabilityLayer) :
    s.popOutgoing.datagramWindow = s.datagramWindow := by
  unfold popOutgoing
  split <;> rfl

theorem datagramWindow_registerSend (s : ReliabilityLayer) (p : PacketPtr) :
    (s.registerSend u p).datagramWindow = s.datagramWindow := by
  unfold registerSend
  split
  · rfl
  · split <;> rfl

theorem datagramWindow_pushDatagram (s : ReliabilityLayer) :
    s.pushDatagram.datagramWindow = s.datagramWindow := by
  unfold pushDatagram
  split <;> rfl

theorem datagramWindow_sendPacket (s : ReliabilityLayer) (p : PacketPtr) :
    (s.sendPacket u p).datagramWindow = s.datagramWindow := by
  have hpush : ∀ (t : ReliabilityLayer) (b : Bool),
      (((t.countBytesSent u p).pushPacket p b).incrementTimesSent p).datagramWindow =
        t.datagramWindow := fun _ _ => rfl
  exact (hpush _ _).trans
    ((datagramWindow_registerSend _ p).trans (datagramWindow_popOutgoing s))

theorem datagramWindow_packStep (hstep : PackStep u s t) :
    t.datagramWindow = s.datagramWindow := by
  cases hstep with
  | clearAllDatagramSizes => rfl
  | pushDatagram => exact datagramWindow_pushDatagram s
  | resend p => rfl
  | drop p => exact datagramWindow_popOutgoing s
  | setHeaderLength p => rfl
  | send p => exact datagramWindow_sendPacket s p

theorem datagramWindow_removeFromUnreliableLinkedList (s : ReliabilityLayer) (p : PacketPtr) :
    (s.removeFromUnreliableLinkedList p).datagramWindow = s.datagramWindow := by
  unfold removeFromUnreliableLinkedList
  split <;> rfl

theorem datagramWindow_beginUpdate (s : ReliabilityLayer) :
    (s.beginUpdate u).datagramWindow = s.datagramWindow := by
  unfold beginUpdate cullUnreliable
  split
  · exact datagramWindow_foldl
      (fun t p => datagramWindow_removeFromUnreliableLinkedList (t.freeInternalPacketData p) p) _ _
  · split <;> rfl

theorem datagramWindow_clearExpiredBps (s : ReliabilityLayer) :
    (s.clearExpiredBps u).datagramWindow = s.datagramWindow := by
  unfold clearExpiredBps
  split <;> rfl

theorem datagramWindow_reportLosses (s : ReliabilityLayer) :
    (s.reportLosses u).datagramWindow = s.datagramWindow := rfl

theorem datagramWindow_clearPacketsAndDatagrams (s : ReliabilityLayer) :
    s.clearPacketsAndDatagrams.datagramWindow = s.datagramWindow := by
  apply datagramWindow_foldl (f := clearPacket)
  intro t entry
  unfold clearPacket
  split
  · exact datagramWindow_removeFromUnreliableLinkedList t entry.1
  · rfl

theorem datagramWindow_nakDatagram (timeRead : ℕ) (s : ReliabilityLayer) (d : Uint24) :
    (s.nakDatagram timeRead d).datagramWindow = s.datagramWindow := by
  apply datagramWindow_foldl (f := nakMessage timeRead)
  intro t number
  unfold nakMessage
  split
  · rfl
  · split <;> rfl

end Window

/-- The history is the end of the wire, and every node has the numbers of the messages of its
datagram that are still outstanding. -/
structure HistoryInv (s : ReliabilityLayer) : Prop where
  popCount_eq : s.datagramHistoryPopCount = .ofNat s.historyStart
  next_eq : s.nextDatagramSequenceNumber = .ofNat s.history.wire.length
  length_le : s.datagramHistory.length ≤ 513
  length_le_wire : s.datagramHistory.length ≤ s.history.wire.length
  left : ∀ datagram ∈ s.history.wire, ∀ p ∈ datagram, s.Left p
  recorded : ∀ i node, s.datagramHistory[i]? = some node → ∀ datagram,
    s.history.wire[s.historyStart + i]? = some datagram →
      ∀ p ∈ datagram, s.Outstanding p → s.messageNumbers p ∈ node.head

namespace HistoryInv

theorem settle (h : HistoryInv s) (hwindow : t.datagramWindow = s.datagramWindow)
    (hsettles : Settles s.allocated s t) (hle : s.allocated ≤ t.allocated) : HistoryInv t := by
  obtain ⟨hhistory, hpop, hnext, hwire⟩ := DatagramWindow.mk.inj hwindow
  have hstart : t.historyStart = s.historyStart := by
    rw [historyStart, hhistory, hwire]
    rfl
  refine ⟨?_, ?_, ?_, ?_, ?_, ?_⟩
  · rw [hpop, hstart, h.popCount_eq]
  · rw [hnext, hwire, h.next_eq]
  · rw [hhistory]
    exact h.length_le
  · rw [hhistory, hwire]
    exact h.length_le_wire
  · intro datagram hd p hp
    rw [hwire] at hd
    exact hsettles.left hle (h.left datagram hd p hp)
  · intro i node hnode datagram hd p hp hout
    rw [hhistory] at hnode
    rw [hstart, hwire] at hd
    obtain ⟨hlt, hq⟩ := h.left datagram (List.mem_of_getElem? hd) p hp
    rw [hsettles.number_eq p hlt hq]
    exact h.recorded i node hnode datagram hd p hp (hsettles.outstanding p hlt hq hout)

theorem tail (h : HistoryInv s) (hpos : 0 < s.datagramHistory.length) : HistoryInv
    { s with
      datagramHistory := s.datagramHistory.tail
      datagramHistoryPopCount := s.datagramHistoryPopCount.succ } := by
  have hle := h.length_le
  have hlew := h.length_le_wire
  have hlength : s.datagramHistory.tail.length = s.datagramHistory.length - 1 := List.length_tail
  have hstart : s.history.wire.length - s.datagramHistory.tail.length = s.historyStart + 1 := by
    rw [hlength, historyStart]
    omega
  refine ⟨?_, h.next_eq, ?_, ?_, h.left, ?_⟩
  · show s.datagramHistoryPopCount.succ = .ofNat (_ - _)
    rw [hstart, h.popCount_eq, Uint24.succ_ofNat]
  · show s.datagramHistory.tail.length ≤ 513
    omega
  · show s.datagramHistory.tail.length ≤ s.history.wire.length
    omega
  · intro i node hnode datagram hd
    rw [List.getElem?_tail] at hnode
    apply h.recorded (i + 1) node hnode datagram
    rw [historyStart] at hd
    dsimp only at hd
    rwa [hstart, Nat.add_assoc, Nat.add_comm 1 i] at hd

theorem append (h : HistoryInv s) (hlength : s.datagramHistory.length ≤ 512)
    {datagram : List PacketPtr} {node : DatagramHistoryNode} (hleft : ∀ p ∈ datagram, s.Left p)
    (hnode : ∀ p ∈ datagram, s.Outstanding p → s.messageNumbers p ∈ node.head) : HistoryInv
    { s with
      datagramHistory := s.datagramHistory ++ [node]
      nextDatagramSequenceNumber := s.nextDatagramSequenceNumber.succ
      history := { s.history with wire := s.history.wire ++ [datagram] } } := by
  have hle := h.length_le_wire
  have hhistory : (s.datagramHistory ++ [node]).length = s.datagramHistory.length + 1 :=
    List.length_append
  have hwire : (s.history.wire ++ [datagram]).length = s.history.wire.length + 1 :=
    List.length_append
  have hstart : (s.history.wire ++ [datagram]).length - (s.datagramHistory ++ [node]).length =
      s.historyStart := by
    rw [hhistory, hwire, historyStart]
    omega
  refine ⟨?_, ?_, ?_, ?_, ?_, ?_⟩
  · show _ = Uint24.ofNat (_ - _)
    rw [hstart]
    exact h.popCount_eq
  · show s.nextDatagramSequenceNumber.succ = .ofNat (s.history.wire ++ [datagram]).length
    rw [hwire, h.next_eq, Uint24.succ_ofNat]
  · show (s.datagramHistory ++ [node]).length ≤ 513
    omega
  · show (s.datagramHistory ++ [node]).length ≤ (s.history.wire ++ [datagram]).length
    omega
  · intro d hd p hp
    rcases List.mem_append.mp hd with hd | hd
    · exact h.left d hd p hp
    · rw [List.mem_singleton.mp hd] at hp
      exact hleft p hp
  · intro i n hn d hd p hp hout
    rw [historyStart] at hd
    dsimp only at hd
    rw [hstart] at hd
    have hstart : s.historyStart + s.datagramHistory.length = s.history.wire.length := by
      rw [historyStart]
      omega
    rw [List.getElem?_append] at hn hd
    by_cases hi : i < s.datagramHistory.length
    · rw [if_pos hi] at hn
      rw [if_pos (by omega)] at hd
      exact h.recorded i n hn d hd p hp hout
    · rw [if_neg hi, List.getElem?_singleton] at hn
      rw [if_neg (by omega), List.getElem?_singleton] at hd
      split at hn
      · rename_i hzero
        rw [if_pos (by omega)] at hd
        obtain rfl := Option.some.inj hn
        obtain rfl := Option.some.inj hd
        exact hnode p hp hout
      · cases hn

end HistoryInv

theorem recorded_of_isReliable {q : InternalPacket} (h : q.reliability.isReliable = true) :
    q.recorded = true := by
  unfold InternalPacket.recorded
  cases hr : q.reliability <;> rw [hr] at h <;> first | rfl | cases h

theorem mem_recordedNumbers (hinv : Inv s.resendView l) {datagram : List PacketPtr}
    (hp : p ∈ datagram) (hout : s.Outstanding p) :
    s.messageNumbers p ∈ s.recordedNumbers datagram := by
  obtain ⟨k, hk⟩ := List.getElem?_of_mem hout.1
  have hreliable : (s.packets p).reliability.isReliable = true := (hinv.sent_number k p hk).2
  exact List.mem_map_of_mem (List.mem_filter.mpr ⟨hp, recorded_of_isReliable hreliable⟩)

theorem historyInv_emitDatagram (h : HistoryInv s) (hinv : Inv s.resendView l)
    {datagram : List PacketPtr} (hleft : ∀ p ∈ datagram, s.Left p) :
    HistoryInv (s.emitDatagram u datagram) := by
  have hnode : ∀ p ∈ datagram, s.Outstanding p → s.messageNumbers p ∈ s.recordedNumbers datagram :=
    fun p hp => mem_recordedNumbers hinv hp
  have hle := h.length_le
  unfold emitDatagram addToDatagramHistory
  dsimp only
  split
  · exact (h.tail (by omega)).append
      (by show s.datagramHistory.tail.length ≤ 512; rw [List.length_tail]; omega)
      hleft hnode
  · exact h.append (by omega) hleft hnode

/-- What one update has pushed so far has left the send queue. -/
def AllPushedLeft (s : ReliabilityLayer) : Prop :=
  ∀ p ∈ s.datagrams.packetsToSendThisUpdate, s.Left p

theorem datagrams_registerSend (s : ReliabilityLayer) (p : PacketPtr) :
    (s.popOutgoing.registerSend u p).datagrams = s.datagrams := by
  have hpop : s.popOutgoing.datagrams = s.datagrams := by
    unfold popOutgoing
    split <;> rfl
  rw [← hpop]
  unfold registerSend
  split
  · rfl
  · split <;> rfl

theorem outgoing_sendPacket (s : ReliabilityLayer) (p : PacketPtr) :
    (s.sendPacket u p).outgoingPacketBuffer = s.popOutgoing.outgoingPacketBuffer := by
  have hpush : ∀ (t : ReliabilityLayer) (b : Bool),
      (((t.countBytesSent u p).pushPacket p b).incrementTimesSent p).outgoingPacketBuffer =
        t.outgoingPacketBuffer := fun _ _ => rfl
  exact (hpush _ _).trans (outgoing_registerSend _ p)

theorem packetsToSendThisUpdate_sendPacket (s : ReliabilityLayer) (p : PacketPtr) :
    (s.sendPacket u p).datagrams.packetsToSendThisUpdate =
      s.datagrams.packetsToSendThisUpdate ++ [p] := by
  have hpush : ∀ (t : ReliabilityLayer) (b : Bool),
      (((t.countBytesSent u p).pushPacket p b).incrementTimesSent p).datagrams.packetsToSendThisUpdate =
        t.datagrams.packetsToSendThisUpdate ++ [p] := fun _ _ => rfl
  exact (hpush _ _).trans (by rw [datagrams_registerSend])

theorem pushed_packStep (hinv : Inv s.resendView l) (hstep : PackStep u s t) :
    ∀ p ∈ t.datagrams.packetsToSendThisUpdate,
      p ∈ s.datagrams.packetsToSendThisUpdate ∨ t.Left p := by
  have hsettles : Settles s.allocated s t := settles_packStep hstep
  have hallocated : s.allocated ≤ t.allocated := Nat.le_of_eq (keeps_packStep hstep).allocated_eq.symm
  cases hstep with
  | clearAllDatagramSizes => exact fun p hp => .inl hp
  | pushDatagram =>
    unfold pushDatagram
    split <;> exact fun p hp => .inl hp
  | resend p hhead hdue hfits =>
    intro q hq
    have hq : q ∈ s.datagrams.packetsToSendThisUpdate ++ [p] := hq
    refine (List.mem_append.mp hq).imp id fun hq => ?_
    rw [List.mem_singleton.mp hq]
    obtain ⟨rest, rfl⟩ := hinv.represents.head_mem hhead
    have hsent := hinv.mem_sent (p := p) List.mem_cons_self
    exact hsettles.left hallocated
      ⟨hinv.sent_lt p hsent, fun hqueue => hinv.queue_not_sent p hqueue hsent⟩
  | drop p hpeek hnull =>
    unfold popOutgoing
    split <;> exact fun p hp => .inl hp
  | setHeaderLength p hpeek => exact fun p hp => .inl hp
  | send p hpeek hheader hfits hroom =>
    intro q hq
    rw [packetsToSendThisUpdate_sendPacket] at hq
    refine (List.mem_append.mp hq).imp id fun hq => ?_
    rw [List.mem_singleton.mp hq]
    have hfresh := popOutgoing_fresh hinv hpeek
    refine ⟨Nat.lt_of_lt_of_le (hinv.queue_lt p (peek_mem hpeek)) hallocated, ?_⟩
    rw [outgoing_sendPacket]
    exact hfresh.not_mem_queue

/-- What holds while an update packs its datagrams. -/
structure PackingInv (s : ReliabilityLayer) : Prop where
  history : HistoryInv s
  bookkeeping : ∃ l, Inv s.resendView l
  pushed : s.AllPushedLeft

theorem packingInv_packStep (h : PackingInv s) (hstep : PackStep u s t) : PackingInv t := by
  have hallocated : s.allocated ≤ t.allocated := Nat.le_of_eq (keeps_packStep hstep).allocated_eq.symm
  obtain ⟨l, hinv⟩ := h.bookkeeping
  refine ⟨h.history.settle (datagramWindow_packStep hstep) (settles_packStep hstep) hallocated,
    packStep_inv hstep h.bookkeeping, fun p hp => ?_⟩
  rcases pushed_packStep hinv hstep p hp with hp | hp
  · exact (settles_packStep hstep).left hallocated (h.pushed p hp)
  · exact hp

theorem packingInv_emitDatagram (h : PackingInv s) (datagramIndex : ℕ) :
    PackingInv (s.emitDatagram u (s.datagrams.datagram datagramIndex)) := by
  obtain ⟨l, hinv⟩ := h.bookkeeping
  have hleft : ∀ p ∈ s.datagrams.datagram datagramIndex, s.Left p :=
    fun p hp => h.pushed p (List.mem_of_mem_take (List.mem_of_mem_drop hp))
  have hview := resendView_emitDatagram (u := u) s (s.datagrams.datagram datagramIndex)
  have hsettles : Settles s.allocated s (s.emitDatagram u (s.datagrams.datagram datagramIndex)) :=
    .of_resendView_eq hview
  have hallocated := congrArg ResendView.allocated hview
  refine ⟨historyInv_emitDatagram h.history hinv hleft, ⟨l, by rwa [hview]⟩, fun p hp => ?_⟩
  apply hsettles.left (Nat.le_of_eq hallocated.symm)
  apply h.pushed p
  unfold emitDatagram addToDatagramHistory at hp
  dsimp only at hp
  split at hp <;> exact hp

theorem historyInv_sendDatagrams (h : HistoryInv s) (hinv : ∃ l, Inv s.resendView l) :
    HistoryInv (s.sendDatagrams u) := by
  have hstart : PackingInv s.resetPacketsAndDatagrams :=
    ⟨h.settle rfl (.of_resendView_eq rfl) (Nat.le_refl _), hinv, List.forall_mem_nil _⟩
  have hpacked : PackingInv (s.resetPacketsAndDatagrams.packDatagrams u) :=
    packDatagrams_induction (fun _ _ hstep ht => packingInv_packStep ht hstep) hstart
  have hemitted : PackingInv ((s.resetPacketsAndDatagrams.packDatagrams u).emitDatagrams u) := by
    unfold emitDatagrams
    exact foldl_induction (P := PackingInv) (fun _ i ht => packingInv_emitDatagram ht i) _ hpacked
  have hview := resendView_clearPacketsAndDatagrams
    ((s.resetPacketsAndDatagrams.packDatagrams u).emitDatagrams u)
  exact hemitted.history.settle (datagramWindow_clearPacketsAndDatagrams _)
    (.of_resendView_eq hview) (Nat.le_of_eq (congrArg ResendView.allocated hview).symm)

theorem HistoryInv.of_eq (h : HistoryInv s) (hwindow : t.datagramWindow = s.datagramWindow)
    (hview : t.resendView = s.resendView) : HistoryInv t :=
  h.settle hwindow (.of_resendView_eq hview)
    (Nat.le_of_eq (congrArg ResendView.allocated hview).symm)

theorem historyInv_finishUpdate (h : HistoryInv s) (hinv : ∃ l, Inv s.resendView l) :
    HistoryInv (s.finishUpdate u) := by
  unfold finishUpdate
  split
  · exact h.of_eq rfl rfl
  · have hclear : HistoryInv ((s.clearExpiredBps u).reportLosses u) :=
      (h.of_eq (datagramWindow_clearExpiredBps s) (resendView_clearExpiredBps s)).of_eq
        (datagramWindow_reportLosses _) (resendView_reportLosses _)
    split
    · apply historyInv_sendDatagrams hclear
      rwa [resendView_reportLosses, resendView_clearExpiredBps]
    · exact hclear

theorem historyInv_updateInternal (h : HistoryInv s) (hinv : ∃ l, Inv s.resendView l) :
    HistoryInv (s.updateInternal u) := by
  unfold updateInternal
  split
  · exact h.of_eq rfl rfl
  · apply historyInv_finishUpdate (h.of_eq (datagramWindow_beginUpdate s) (resendView_beginUpdate s))
    rwa [resendView_beginUpdate]

theorem getMessageNumberNodeByDatagramIndex_eq (hle : s.datagramHistory.length ≤ 513)
    {d : Uint24} {node : DatagramHistoryNode}
    (hnode : s.datagramHistory[s.offsetIntoList d]? = some node) :
    s.getMessageNumberNodeByDatagramIndex d = node.head := by
  obtain ⟨hlt, -⟩ := List.getElem?_eq_some_iff.mp hnode
  have hd := d.isLt
  have hpop := s.datagramHistoryPopCount.isLt
  have hold : CCRakNetSlidingWindow.lessThan d s.datagramHistoryPopCount = false := by
    rw [offsetIntoList, Uint24.val_sub] at hlt
    have hhalf : (Uint24.max / 2).val = 8388607 := rfl
    unfold CCRakNetSlidingWindow.lessThan
    dsimp only
    by_cases heq : s.datagramHistoryPopCount = d
    · rw [heq, bne_self_eq_false, Bool.false_and]
    · have hne : s.datagramHistoryPopCount.val ≠ d.val := fun h => heq (Uint24.ext h)
      rw [Bool.and_eq_false_iff, decide_eq_false_iff_not, Uint24.lt_iff, Uint24.val_sub, hhalf]
      right
      omega
  unfold getMessageNumberNodeByDatagramIndex
  rw [if_neg (List.ne_nil_of_length_pos (by omega)), hold, if_neg Bool.false_ne_true, hnode]

theorem historyInv_ackDatagram (h : HistoryInv s) (d : Uint24) : HistoryInv (s.ackDatagram d) := by
  unfold ackDatagram
  split
  · exact h
  rename_i hcons
  have hfold := onlyAcknowledges_foldl (s.getMessageNumberNodeByDatagramIndex d) s
  generalize (s.getMessageNumberNodeByDatagramIndex d).foldl removePacketFromResendList s = t
    at hfold ⊢
  have ht : HistoryInv t :=
    h.settle hfold.window_eq (.of_onlyAcknowledges hfold) (Nat.le_of_eq hfold.allocated_eq.symm)
  have hlength : (t.removeFromDatagramHistory d).datagramHistory.length =
      t.datagramHistory.length := List.length_modify ..
  have hstart : (t.removeFromDatagramHistory d).historyStart = t.historyStart := by
    unfold historyStart
    rw [hlength]
    rfl
  refine ⟨?_, ht.next_eq, ?_, ?_, ht.left, ?_⟩
  · rw [hstart]
    exact ht.popCount_eq
  · rw [hlength]
    exact ht.length_le
  · rw [hlength]
    exact ht.length_le_wire
  · intro i node hnode datagram hd p hp hout
    rw [hstart] at hd
    have hnode : (t.datagramHistory.modify (t.offsetIntoList d)
        fun node => { node with head := [] })[i]? = some node := hnode
    rw [List.getElem?_modify] at hnode
    obtain ⟨old, hold, hnode⟩ := Option.map_eq_some_iff.mp hnode
    have hmem : t.messageNumbers p ∈ old.head := ht.recorded i old hold datagram hd p hp hout
    by_cases hi : t.offsetIntoList d = i
    · subst hi
      have hold := getMessageNumberNodeByDatagramIndex_eq ht.length_le hold
      rw [hfold.node_eq] at hold
      rw [← hold, hfold.numbers_eq] at hmem
      exact absurd hmem ((hfold.outstanding_iff p).mp hout).2
    · rw [if_neg hi] at hnode
      rw [← hnode]
      exact hmem

theorem historyInv_handleAck (h : HistoryInv s) (incomingAcks : RangeList) :
    HistoryInv (s.handleAck incomingAcks).2 := by
  have hcover : HistoryInv ((s.cover incomingAcks).reportAcked incomingAcks) := h.of_eq rfl rfl
  unfold handleAck
  dsimp only
  split
  · exact hcover
  · exact rangesLoop_induction (P := HistoryInv) (fun _ d ht => historyInv_ackDatagram ht d) _ hcover

theorem historyInv_handleNak (h : HistoryInv s) (incomingNAKs : RangeList) (timeRead : ℕ) :
    HistoryInv (s.handleNak incomingNAKs timeRead).2 := by
  unfold handleNak
  split
  · exact h
  · refine rangesLoop_induction (P := HistoryInv) (fun t d ht => ?_) _ h
    exact ht.of_eq (datagramWindow_nakDatagram timeRead t d) (resendView_nakDatagram timeRead t d)

theorem historyInv_step (h : HistoryInv s) (hinv : ∃ l, Inv s.resendView l) (i : SenderInput) :
    HistoryInv (s.step i) := by
  cases i with
  | send input =>
    obtain ⟨hsettles, hle⟩ := settles_send s input
    exact h.settle (datagramWindow_send s input) hsettles hle
  | update input => exact historyInv_updateInternal h hinv
  | ack incomingAcks timeMS =>
    have harrived : HistoryInv (s.datagramArrived timeMS) := h.of_eq rfl rfl
    exact historyInv_handleAck harrived incomingAcks
  | nak incomingNAKs timeRead timeMS =>
    have harrived : HistoryInv (s.datagramArrived timeMS) := h.of_eq rfl rfl
    exact historyInv_handleNak harrived incomingNAKs timeRead
  | setUnreliableTimeout timeoutMS => exact h.of_eq rfl rfl

theorem historyInv_initial (mtu : Mtu) (lastUpdateTime timeLastDatagramArrived timeoutTime : ℕ) :
    HistoryInv (initial mtu lastUpdateTime timeLastDatagramArrived timeoutTime) :=
  ⟨rfl, rfl, Nat.zero_le _, Nat.zero_le _, List.forall_mem_nil _, fun _ _ hnode => by cases hnode⟩

theorem run_historyInv (mtu : Mtu) (lastUpdateTime timeLastDatagramArrived timeoutTime : ℕ)
    (inputs : List SenderInput) :
    HistoryInv (inputs.foldl step
      (initial mtu lastUpdateTime timeLastDatagramArrived timeoutTime)) := by
  have hrun : ∀ (inputs : List SenderInput) (s : ReliabilityLayer),
      (∃ l, Inv s.resendView l) ∧ HistoryInv s →
        (∃ l, Inv (inputs.foldl step s).resendView l) ∧ HistoryInv (inputs.foldl step s) :=
    fun inputs _ hs => foldl_induction
      (P := fun t => (∃ l, Inv t.resendView l) ∧ HistoryInv t)
      (fun _ i ht => ⟨step_inv i ht.1, historyInv_step ht.2 ht.1 i⟩) inputs hs
  exact (hrun inputs _ ⟨⟨[], initial_inv _ _ _ _⟩, historyInv_initial _ _ _ _⟩).2

end ReliabilityLayer

end SLikeNet
