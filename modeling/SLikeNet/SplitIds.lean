import SLikeNet.Frame

/-! The ids that `SplitPacket` stamps on the messages it splits, and how long it takes until an
id comes back. -/

namespace SLikeNet

namespace ReliabilityLayer

variable {s t : ReliabilityLayer}

/-- The messages that were split, in the order in which they were stamped. -/
def splitMessages (s : ReliabilityLayer) : List (List PacketPtr) :=
  s.history.messages.filter fun m => decide (2 ≤ m.length)

/-- The id counts the split messages, and their fragments carry it. -/
structure Stamped (s : ReliabilityLayer) : Prop where
  splitPacketId_eq : s.splitPacketId = s.splitMessages.length % 2 ^ 16
  stamp : ∀ (k : ℕ) (m : List PacketPtr), s.splitMessages[k]? = some m → ∀ p ∈ m,
    p < s.allocated ∧ (s.packets p).splitPacketId = k % 2 ^ 16
  exists_message : ∀ p < s.allocated, 0 < (s.packets p).splitPacketCount →
    ∃ (k : ℕ) (m : List PacketPtr), s.splitMessages[k]? = some m ∧ p ∈ m

theorem Keeps.splitMessages_eq (h : Keeps s t) : t.splitMessages = s.splitMessages := by
  rw [splitMessages, h.messages_eq]
  rfl

theorem Keeps.split_eq (h : Keeps s t) (p : PacketPtr) :
    (t.packets p).splitPacketId = (s.packets p).splitPacketId ∧
      (t.packets p).splitPacketCount = (s.packets p).splitPacketCount := by
  rw [h.header_eq p]
  exact ⟨rfl, rfl⟩

theorem Stamped.keeps (h : Stamped s) (hkeeps : Keeps s t) : Stamped t := by
  constructor
  · rw [hkeeps.splitPacketId_eq, hkeeps.splitMessages_eq]
    exact h.splitPacketId_eq
  · intro k m hm p hp
    rw [hkeeps.splitMessages_eq] at hm
    rw [hkeeps.allocated_eq, (hkeeps.split_eq p).1]
    exact h.stamp k m hm p hp
  · intro p hp hcount
    rw [hkeeps.allocated_eq] at hp
    rw [(hkeeps.split_eq p).2] at hcount
    rw [hkeeps.splitMessages_eq]
    exact h.exists_message p hp hcount

theorem contents_pushOutgoing
    {push : Heap ℕ PacketPtr false → ℕ → PacketPtr → Heap ℕ PacketPtr false}
    (hpush : Pushes push) (s : ReliabilityLayer) (p : PacketPtr) :
    (s.pushOutgoing push p).outgoingPacketBuffer.contents.Perm
      (p :: s.outgoingPacketBuffer.contents) := by
  obtain ⟨queue, hperm, hview⟩ := pushOutgoing_view hpush s p
  rw [show (s.pushOutgoing push p).outgoingPacketBuffer.contents = queue from
    congrArg ResendView.queue hview]
  exact hperm

theorem mem_foldl_pushOutgoing {ps : List PacketPtr} {q : PacketPtr}
    (hq : q ∈ ps ∨ q ∈ s.outgoingPacketBuffer.contents) :
    q ∈ (ps.foldl (fun t p => t.pushOutgoing Heap.pushSeries p) s).outgoingPacketBuffer.contents := by
  induction ps generalizing s with
  | nil =>
    rcases hq with hq | hq
    · cases hq
    · exact hq
  | cons p ps ih =>
    apply ih
    have hperm := contents_pushOutgoing pushes_pushSeries s p
    rcases hq with hq | hq
    · rcases List.mem_cons.mp hq with rfl | hq
      · exact .inr (hperm.mem_iff.mpr List.mem_cons_self)
      · exact .inl hq
    · exact .inr (hperm.mem_iff.mpr (List.mem_cons_of_mem p hq))

/-- What `SplitPacket` does to a message that is longer than a block. -/
structure Splits (s t : ReliabilityLayer) (count : ℕ) : Prop where
  two_le : 2 ≤ count
  mtu_eq : t.mtu = s.mtu
  allocated_eq : t.allocated = s.allocated + count
  splitPacketId_eq : t.splitPacketId = (s.splitPacketId + 1) % 2 ^ 16
  splitMessages_eq : t.splitMessages = s.splitMessages ++ [List.range' s.allocated count]
  old : ∀ p < s.allocated, (t.packets p).splitPacketId = (s.packets p).splitPacketId ∧
    (t.packets p).splitPacketCount = (s.packets p).splitPacketCount
  new : ∀ p ∈ List.range' s.allocated count,
    (t.packets p).splitPacketId = s.splitPacketId ∧ 0 < (t.packets p).splitPacketCount
  queued : ∀ p, p ∈ List.range' s.allocated count ∨ p ∈ s.outgoingPacketBuffer.contents →
    p ∈ t.outgoingPacketBuffer.contents

theorem splitPacket_splits {packet : InternalPacket}
    (hsplit : bitsToBytes packet.dataBitLength > s.maximumSendBlockBytes) :
    ∃ count, Splits s (s.splitPacket packet) count := by
  have hblock : 0 < s.maximumSendBlockBytes := by
    have hmin := s.mtu.le_bytes
    rw [maximumSendBlockBytes_eq]
    unfold Mtu.maxDatagramSizeExcludingMessageHeaderBytes
    omega
  have htwo : 2 ≤ (bitsToBytes packet.dataBitLength - 1) / s.maximumSendBlockBytes + 1 := by
    have hpos : 0 < (bitsToBytes packet.dataBitLength - 1) / s.maximumSendBlockBytes :=
      Nat.div_pos (by omega) hblock
    omega
  refine ⟨(bitsToBytes packet.dataBitLength - 1) / s.maximumSendBlockBytes + 1, ?_⟩
  rw [splitPacket_eq]
  generalize (bitsToBytes packet.dataBitLength - 1) / s.maximumSendBlockBytes + 1 = count at htwo ⊢
  -- pushing the fragments keeps everything but the queue
  have hkeeps := Keeps.foldl (keeps_pushOutgoing Heap.pushSeries) (List.range' s.allocated count)
    (s.withFragments packet count)
  have hmessages : (s.withFragments packet count).splitMessages =
      s.splitMessages ++ [List.range' s.allocated count] := by
    rw [splitMessages, withFragments, List.filter_append, List.filter_singleton,
      List.length_range', decide_eq_true htwo]
    rfl
  constructor
  · exact htwo
  · exact hkeeps.mtu_eq
  · exact hkeeps.allocated_eq
  · exact hkeeps.splitPacketId_eq
  · rw [hkeeps.splitMessages_eq, hmessages]
  · intro p hp
    have hat := hkeeps.split_eq p
    rw [withFragments_packets, if_neg (fun h => absurd h.1 (Nat.not_le_of_lt hp))] at hat
    exact hat
  · intro p hp
    have hat := hkeeps.split_eq p
    rw [withFragments_packets, if_pos (List.mem_range'_1.mp hp)] at hat
    rw [hat.1, hat.2]
    exact ⟨rfl, Nat.succ_pos _⟩
  · exact fun p hp => mem_foldl_pushOutgoing hp

theorem Stamped.splits (h : Stamped s) {count : ℕ} (hsplits : Splits s t count) : Stamped t := by
  constructor
  · rw [hsplits.splitPacketId_eq, h.splitPacketId_eq, hsplits.splitMessages_eq,
      List.length_append, List.length_singleton, Nat.mod_add_mod]
  · intro k m hm p hp
    rw [hsplits.splitMessages_eq] at hm
    rw [hsplits.allocated_eq]
    by_cases hk : k < s.splitMessages.length
    · rw [List.getElem?_append_left hk] at hm
      obtain ⟨hlt, hid⟩ := h.stamp k m hm p hp
      exact ⟨Nat.lt_add_right count hlt, (hsplits.old p hlt).1.trans hid⟩
    · rw [List.getElem?_append_right (Nat.le_of_not_lt hk)] at hm
      have hzero : k - s.splitMessages.length = 0 := by
        have hlt := (List.getElem?_eq_some_iff.mp hm).1
        rw [List.length_singleton] at hlt
        omega
      rw [hzero] at hm
      obtain rfl := Option.some.inj hm
      refine ⟨(List.mem_range'_1.mp hp).2, ?_⟩
      rw [(hsplits.new p hp).1, h.splitPacketId_eq]
      congr 1
      omega
  · intro p hp hcount
    rw [hsplits.splitMessages_eq]
    by_cases hold : p < s.allocated
    · rw [(hsplits.old p hold).2] at hcount
      obtain ⟨k, m, hm, hmem⟩ := h.exists_message p hold hcount
      refine ⟨k, m, ?_, hmem⟩
      rw [List.getElem?_append_left (List.getElem?_eq_some_iff.mp hm).1]
      exact hm
    · refine ⟨s.splitMessages.length, _, List.getElem?_concat_length, ?_⟩
      rw [hsplits.allocated_eq] at hp
      exact List.mem_range'_1.mpr ⟨Nat.le_of_not_lt hold, hp⟩

theorem Stamped.pushWhole (h : Stamped s) {packet : InternalPacket}
    (hwhole : packet.splitPacketCount = 0) : Stamped (s.pushWhole packet) := by
  have hkeeps := keeps_pushOutgoing Heap.push ((s.recordMessage [s.allocated]).allocate packet)
    s.allocated
  apply Stamped.keeps _ hkeeps
  have hmessages : ((s.recordMessage [s.allocated]).allocate packet).splitMessages =
      s.splitMessages := by
    rw [splitMessages, allocate, recordMessage, List.filter_append]
    exact List.append_nil _
  have hold : ∀ p < s.allocated,
      ((s.recordMessage [s.allocated]).allocate packet).packets p = s.packets p :=
    fun p hp => Function.update_of_ne (Nat.ne_of_lt hp) ..
  constructor
  · rw [hmessages]
    exact h.splitPacketId_eq
  · intro k m hm p hp
    rw [hmessages] at hm
    obtain ⟨hlt, hid⟩ := h.stamp k m hm p hp
    rw [hold p hlt]
    exact ⟨Nat.lt_succ_of_lt hlt, hid⟩
  · intro p hp hcount
    rw [hmessages]
    rcases Nat.lt_succ_iff_lt_or_eq.mp hp with hlt | rfl
    · rw [hold p hlt] at hcount
      exact h.exists_message p hlt hcount
    · have hnew : ((s.recordMessage [s.allocated]).allocate packet).packets
          (s.recordMessage [s.allocated]).allocated = packet := Function.update_self ..
      rw [hnew, hwhole] at hcount
      exact absurd hcount (Nat.lt_irrefl 0)

theorem Stamped.send (h : Stamped s) (input : SendInput) : Stamped (s.send input).2 := by
  rcases send_cases s input with ⟨-, heq⟩ | ⟨t, packet, hkeeps, -, hcount, -, hbits, hcases⟩
  · rw [heq]
    exact h
  · rcases hcases with ⟨hlong, heq⟩ | ⟨-, heq⟩
    · rw [← hbits, ← hkeeps.maximumSendBlockBytes_eq] at hlong
      obtain ⟨count, hsplits⟩ := splitPacket_splits hlong
      rw [heq]
      exact (h.keeps hkeeps).splits hsplits
    · rw [heq]
      exact (h.keeps hkeeps).pushWhole hcount

theorem Stamped.step (h : Stamped s) (i : SenderInput) : Stamped (s.step i) := by
  rcases step_cases s i with ⟨input, rfl⟩ | hkeeps
  · exact h.send input
  · exact h.keeps hkeeps

theorem initial_stamped (mtu : Mtu) (lastUpdateTime timeLastDatagramArrived timeoutTime : ℕ) :
    Stamped (initial mtu lastUpdateTime timeLastDatagramArrived timeoutTime) where
  splitPacketId_eq := rfl
  stamp k m hm := by cases hm
  exists_message p hp := absurd hp (Nat.not_lt_zero p)

theorem run_stamped (mtu : Mtu) (lastUpdateTime timeLastDatagramArrived timeoutTime : ℕ)
    (inputs : List SenderInput) :
    Stamped (inputs.foldl step
      (initial mtu lastUpdateTime timeLastDatagramArrived timeoutTime)) :=
  foldl_induction (fun _ i h => h.step i) inputs (initial_stamped _ _ _ _)

/-- The packet waits in the send queue or in the resend buffer. -/
def Held (s : ReliabilityLayer) (p : PacketPtr) : Prop :=
  p ∈ s.outgoingPacketBuffer.contents ∨ ∃ i, s.resendBuffer i = some p

/-- A fragment that is still held and has the id that `SplitPacket` stamps next belongs to a
message that was stamped at least 2^16 messages before. -/
theorem split_id_reused_late (mtu : Mtu)
    (lastUpdateTime timeLastDatagramArrived timeoutTime : ℕ) (inputs : List SenderInput)
    {s : ReliabilityLayer}
    (hs : s = inputs.foldl step (initial mtu lastUpdateTime timeLastDatagramArrived timeoutTime))
    {p : PacketPtr} (hp : s.Held p) (hfragment : 0 < (s.packets p).splitPacketCount)
    (hid : (s.packets p).splitPacketId = s.splitPacketId) :
    ∃ (k : ℕ) (m : List PacketPtr), s.splitMessages[k]? = some m ∧ p ∈ m ∧
      k + 2 ^ 16 ≤ s.splitMessages.length := by
  have hstamped := run_stamped mtu lastUpdateTime timeLastDatagramArrived timeoutTime inputs
  obtain ⟨l, hinv⟩ := run_inv mtu lastUpdateTime timeLastDatagramArrived timeoutTime inputs
  rw [← hs] at hstamped hinv
  have hlt : p < s.allocated := by
    rcases hp with hp | ⟨i, hi⟩
    · exact hinv.queue_lt p hp
    · exact hinv.sent_lt p (hinv.mem_sent ((hinv.slot_iff i p).mp hi).1)
  obtain ⟨k, m, hm, hmem⟩ := hstamped.exists_message p hlt hfragment
  have hstamp := (hstamped.stamp k m hm p hmem).2
  rw [hid, hstamped.splitPacketId_eq] at hstamp
  have hk := (List.getElem?_eq_some_iff.mp hm).1
  exact ⟨k, m, hm, hmem, by omega⟩

/-- A message of three bytes, which small datagrams carry in two fragments. -/
def threeByteInput : SendInput := ⟨[72, 101, 121], 24, .low, .reliable, 0, 0, 0, by decide⟩

/-- So many messages have been split, and the first fragment of all is still queued. -/
structure Backlogged (count : ℕ) (s : ReliabilityLayer) : Prop where
  block_eq : s.maximumSendBlockBytes = 2
  length_eq : s.splitMessages.length = count
  allocated_pos : 0 < s.allocated
  queued : 0 ∈ s.outgoingPacketBuffer.contents
  fragment : 0 < (s.packets 0).splitPacketCount
  id_eq : (s.packets 0).splitPacketId = 0

theorem send_threeByteInput (hblock : s.maximumSendBlockBytes = 2) :
    ∃ t count, Keeps s t ∧ t.outgoingPacketBuffer = s.outgoingPacketBuffer ∧
      Splits t (s.send threeByteInput).2 count := by
  rcases send_cases s threeByteInput with ⟨hzero, -⟩ | ⟨t, packet, hkeeps, hqueue, -, -, hbits, hcases⟩
  · cases hzero
  · have hlong : bitsToBytes threeByteInput.numberOfBitsToSend > s.maximumSendBlockBytes := by
      rw [hblock]
      decide
    rcases hcases with ⟨-, heq⟩ | ⟨hle, -⟩
    · rw [← hbits, ← hkeeps.maximumSendBlockBytes_eq] at hlong
      obtain ⟨count, hsplits⟩ := splitPacket_splits hlong
      rw [heq]
      exact ⟨t, count, hkeeps, hqueue, hsplits⟩
    · exact absurd hlong (Nat.not_lt_of_le hle)

theorem Splits.maximumSendBlockBytes_eq {count : ℕ} (h : Splits s t count) :
    t.maximumSendBlockBytes = s.maximumSendBlockBytes := by
  rw [ReliabilityLayer.maximumSendBlockBytes_eq, ReliabilityLayer.maximumSendBlockBytes_eq,
    h.mtu_eq]

theorem Backlogged.send {count : ℕ} (h : Backlogged count s) :
    Backlogged (count + 1) (s.send threeByteInput).2 := by
  obtain ⟨t, n, hkeeps, hqueue, hsplits⟩ := send_threeByteInput h.block_eq
  have hpos : 0 < t.allocated := by
    rw [hkeeps.allocated_eq]
    exact h.allocated_pos
  have hold := hsplits.old 0 hpos
  have hsplit := hkeeps.split_eq 0
  constructor
  · rw [hsplits.maximumSendBlockBytes_eq, hkeeps.maximumSendBlockBytes_eq, h.block_eq]
  · rw [hsplits.splitMessages_eq, List.length_append, hkeeps.splitMessages_eq, h.length_eq]
    rfl
  · rw [hsplits.allocated_eq]
    exact Nat.lt_add_right n hpos
  · apply hsplits.queued
    rw [hqueue]
    exact .inr h.queued
  · rw [hold.2, hsplit.2]
    exact h.fragment
  · rw [hold.1, hsplit.1]
    exact h.id_eq

theorem exists_backlogged {count : ℕ} (hpos : 1 ≤ count) :
    ∃ inputs : List SenderInput, Backlogged count
      (inputs.foldl ReliabilityLayer.step (initial ⟨34, Nat.le_succ 33, by decide⟩ 0 0 10000)) := by
  induction count, hpos using Nat.le_induction with
  | base =>
    refine ⟨[.send threeByteInput], ?_⟩
    obtain ⟨t, n, hkeeps, -, hsplits⟩ := send_threeByteInput
      (show (initial ⟨34, Nat.le_succ 33, by decide⟩ 0 0 10000).maximumSendBlockBytes = 2 from rfl)
    have hfirst : 0 ∈ List.range' t.allocated n := by
      apply List.mem_range'_1.mpr
      rw [hkeeps.allocated_eq]
      exact ⟨Nat.le_refl 0, Nat.lt_of_lt_of_le Nat.two_pos (Nat.le_add_left_of_le hsplits.two_le)⟩
    have hnew := hsplits.new 0 hfirst
    constructor
    · rw [List.foldl_cons, List.foldl_nil]
      exact hsplits.maximumSendBlockBytes_eq.trans hkeeps.maximumSendBlockBytes_eq
    · exact (congrArg List.length hsplits.splitMessages_eq).trans (by
        rw [List.length_append, hkeeps.splitMessages_eq]
        rfl)
    · show 0 < (send _ threeByteInput).2.allocated
      rw [hsplits.allocated_eq]
      exact Nat.lt_of_lt_of_le Nat.two_pos (Nat.le_add_left_of_le hsplits.two_le)
    · exact hsplits.queued 0 (.inl hfirst)
    · exact hnew.2
    · exact hnew.1.trans hkeeps.splitPacketId_eq
  | succ count _ ih =>
    obtain ⟨inputs, hbacklogged⟩ := ih
    refine ⟨inputs ++ [.send threeByteInput], ?_⟩
    rw [List.foldl_append]
    exact hbacklogged.send

/-- Such a fragment exists: the first one, when 2^16 messages have been split. -/
theorem first_id_reused_late :
    ∃ (inputs : List SenderInput) (k : ℕ) (m : List PacketPtr),
      (inputs.foldl ReliabilityLayer.step
          (initial ⟨34, Nat.le_succ 33, by decide⟩ 0 0 10000)).splitMessages[k]? = some m ∧
        0 ∈ m ∧ k + 2 ^ 16 ≤ (inputs.foldl ReliabilityLayer.step
          (initial ⟨34, Nat.le_succ 33, by decide⟩ 0 0 10000)).splitMessages.length := by
  obtain ⟨inputs, hbacklogged⟩ := exists_backlogged (show 1 ≤ 2 ^ 16 by omega)
  refine ⟨inputs, split_id_reused_late _ 0 0 10000 inputs rfl (.inl hbacklogged.queued)
    hbacklogged.fragment ?_⟩
  rw [hbacklogged.id_eq, (run_stamped _ 0 0 10000 inputs).splitPacketId_eq, hbacklogged.length_eq]
  exact (Nat.mod_self _).symm

/-- After 2^16 split messages the id of the first one comes back, although its fragments are
still queued. -/
theorem split_id_reused :
    ¬ ∀ (mtu : Mtu) (lastUpdateTime timeLastDatagramArrived timeoutTime : ℕ)
      (inputs : List SenderInput) (i : SendInput) (s : ReliabilityLayer) (p : PacketPtr),
      s = inputs.foldl ReliabilityLayer.step
        (initial mtu lastUpdateTime timeLastDatagramArrived timeoutTime) →
      bitsToBytes i.numberOfBitsToSend > s.maximumSendBlockBytes → s.Held p →
        0 < (s.packets p).splitPacketCount → (s.packets p).splitPacketId ≠ s.splitPacketId := by
  intro hclaim
  obtain ⟨inputs, hbacklogged⟩ := exists_backlogged (show 1 ≤ 2 ^ 16 by omega)
  refine hclaim _ _ _ _ inputs threeByteInput _ 0 rfl ?_ (.inl hbacklogged.queued)
    hbacklogged.fragment ?_
  · rw [hbacklogged.block_eq]
    decide
  · rw [hbacklogged.id_eq, (run_stamped _ _ _ _ inputs).splitPacketId_eq, hbacklogged.length_eq]
    exact (Nat.mod_self _).symm

end ReliabilityLayer

end SLikeNet
