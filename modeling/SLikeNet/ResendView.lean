import SLikeNet.PackSteps
import Mathlib.Data.Fintype.Card
import Mathlib.Algebra.Order.BigOperators.Group.List
import Mathlib.Algebra.Order.Group.Nat

/-! The state of the resend bookkeeping apart from the rest of a layer, and its invariant:
the resend list, the resend buffer and their counters agree with the reliable messages that
were sent and not acknowledged. -/

namespace SLikeNet

/-- The part of a layer that the resend bookkeeping is about: of each packet its
transmission header and the length of its message header. -/
structure ResendView where
  mtu : Mtu
  packets : PacketPtr → TransmissionHeader × ℕ
  allocated : ℕ
  queue : List PacketPtr
  resendBuffer : Fin 512 → Option PacketPtr
  resendLinkedList : CircularList PacketPtr
  sendReliableMessageNumberIndex : Uint24
  unacknowledgedBytes : ℕ
  messagesInResendBuffer : ℕ
  bytesInResendBuffer : ℕ
  sent : List PacketPtr
  acknowledged : List PacketPtr
  overwritten : List PacketPtr

namespace ReliabilityLayer

def resendView (s : ReliabilityLayer) : ResendView where
  mtu := s.mtu
  packets p := ((s.packets p).toTransmissionHeader, (s.packets p).headerLength)
  allocated := s.allocated
  queue := s.outgoingPacketBuffer.contents
  resendBuffer := s.resendBuffer
  resendLinkedList := s.resendLinkedList
  sendReliableMessageNumberIndex := s.sendReliableMessageNumberIndex
  unacknowledgedBytes := s.unacknowledgedBytes
  messagesInResendBuffer := s.messagesInResendBuffer
  bytesInResendBuffer := s.bytesInResendBuffer
  sent := s.history.sent
  acknowledged := s.history.acknowledged
  overwritten := s.history.overwritten

end ReliabilityLayer

namespace ResendView

variable {v : ResendView} {l : List PacketPtr} {p : PacketPtr}

def number (v : ResendView) (p : PacketPtr) : Uint24 := (v.packets p).1.reliableMessageNumber

def dataBytes (v : ResendView) (p : PacketPtr) : ℕ := bitsToBytes (v.packets p).1.dataBitLength

def bytes (v : ResendView) (p : PacketPtr) : ℕ :=
  bitsToBytes ((v.packets p).2 + (v.packets p).1.dataBitLength)

/-- The message is one that `Send` does not split. -/
def Sized (v : ResendView) (p : PacketPtr) : Prop :=
  (v.packets p).1.dataBitLength < 2 ^ 32 ∧
    v.dataBytes p ≤ v.mtu.maxDatagramSizeExcludingMessageHeaderBytes - 23

/-- The state is that of a layer whose resend list is `l`. -/
structure Inv (v : ResendView) (l : List PacketPtr) : Prop where
  represents : v.resendLinkedList.Represents l
  mem_iff : ∀ p, p ∈ l ↔ p ∈ v.sent ∧ p ∉ v.acknowledged
  slot_iff : ∀ i p, v.resendBuffer i = some p ↔ p ∈ l ∧ resendSlot (v.number p) = i
  sent_nodup : v.sent.Nodup
  sent_number : ∀ (k : ℕ) (p : PacketPtr), v.sent[k]? = some p →
    v.number p = .ofNat k ∧ (v.packets p).1.reliability.isReliable = true
  index_eq : v.sendReliableMessageNumberIndex = .ofNat v.sent.length
  window : ∀ (k : ℕ) (p : PacketPtr), v.sent[k]? = some p → p ∈ l → v.sent.length ≤ k + 512
  overwritten_eq : v.overwritten = []
  unacknowledgedBytes_eq : v.unacknowledgedBytes = (l.map v.bytes).sum
  messagesInResendBuffer_eq : v.messagesInResendBuffer = l.length
  bytesInResendBuffer_eq : v.bytesInResendBuffer = (l.map v.dataBytes).sum
  headerLength_eq : ∀ p ∈ l, (v.packets p).2 = (v.packets p).1.getMessageHeaderLengthBits
  sized : ∀ p ∈ l, v.Sized p
  queue_sized : ∀ p ∈ v.queue, v.Sized p
  queue_nodup : v.queue.Nodup
  queue_lt : ∀ p ∈ v.queue, p < v.allocated
  queue_not_sent : ∀ p ∈ v.queue, p ∉ v.sent
  sent_lt : ∀ p ∈ v.sent, p < v.allocated
  acknowledged_sent : ∀ p ∈ v.acknowledged, p ∈ v.sent

theorem getMessageHeaderLengthBits_le (h : TransmissionHeader) :
    24 ≤ h.getMessageHeaderLengthBits ∧ h.getMessageHeaderLengthBits ≤ 184 := by
  unfold TransmissionHeader.getMessageHeaderLengthBits
  split_ifs <;> omega

theorem bytes_le (hsized : v.Sized p)
    (hheader : (v.packets p).2 = (v.packets p).1.getMessageHeaderLengthBits) :
    v.bytes p ≤ 1492 := by
  obtain ⟨hlt, hle⟩ := hsized
  have hmtu := v.mtu.bytes_le
  have hh := getMessageHeaderLengthBits_le (v.packets p).1
  rw [← hheader] at hh
  unfold dataBytes at hle
  unfold Mtu.maxDatagramSizeExcludingMessageHeaderBytes at hle
  unfold bytes
  unfold bitsToBytes at *
  omega

theorem dataBytes_le (hsized : v.Sized p) : v.dataBytes p ≤ 1492 := by
  have hmtu := v.mtu.bytes_le
  have := hsized.2
  unfold Mtu.maxDatagramSizeExcludingMessageHeaderBytes at this
  omega

theorem sum_le {f : PacketPtr → ℕ} {n : ℕ} (h : ∀ p ∈ l, f p ≤ n) : (l.map f).sum ≤ l.length * n := by
  have := List.sum_le_card_nsmul (l.map f) n (by simpa using h)
  simpa using this

namespace Inv

theorem slot_injective (h : Inv v l) {p q : PacketPtr} (hp : p ∈ l) (hq : q ∈ l)
    (hslot : resendSlot (v.number p) = resendSlot (v.number q)) : p = q := by
  have h1 := (h.slot_iff _ p).mpr ⟨hp, hslot⟩
  have h2 := (h.slot_iff _ q).mpr ⟨hq, rfl⟩
  exact Option.some.inj (h1.symm.trans h2)

theorem length_le (h : Inv v l) : l.length ≤ 512 := by
  have hnd : (l.map fun p => resendSlot (v.number p)).Nodup :=
    List.Nodup.map_on (fun p hp q hq he => h.slot_injective hp hq he) h.represents.nodup
  have := hnd.length_le_card
  rwa [List.length_map, Fintype.card_fin] at this

theorem sum_bytes_lt (h : Inv v l) : (l.map v.bytes).sum ≤ 512 * 1492 := by
  have := sum_le fun p hp => bytes_le (h.sized p hp) (h.headerLength_eq p hp)
  have := h.length_le
  calc (l.map v.bytes).sum ≤ l.length * 1492 := by assumption
    _ ≤ 512 * 1492 := by omega

theorem sum_dataBytes_lt (h : Inv v l) : (l.map v.dataBytes).sum ≤ 512 * 1492 := by
  have := sum_le fun p hp => dataBytes_le (h.sized p hp)
  have := h.length_le
  calc (l.map v.dataBytes).sum ≤ l.length * 1492 := by assumption
    _ ≤ 512 * 1492 := by omega

theorem mem_sent (h : Inv v l) (hp : p ∈ l) : p ∈ v.sent := ((h.mem_iff p).mp hp).1

theorem requeue (h : Inv v l) {queue : List PacketPtr} (hnd : queue.Nodup)
    (hsized : ∀ p ∈ queue, v.Sized p) (hlt : ∀ p ∈ queue, p < v.allocated)
    (hsent : ∀ p ∈ queue, p ∉ v.sent) : Inv { v with queue := queue } l :=
  { h with
    queue_sized := hsized
    queue_nodup := hnd
    queue_lt := hlt
    queue_not_sent := hsent }

theorem dequeue (h : Inv v l) {queue : List PacketPtr} (hperm : v.queue.Perm (p :: queue)) :
    Inv { v with queue := queue } l := by
  have hmem : ∀ q ∈ queue, q ∈ v.queue := fun q hq => hperm.mem_iff.mpr (by simp [hq])
  apply h.requeue
  · exact ((hperm.nodup_iff).mp h.queue_nodup).of_cons
  · exact fun q hq => h.queue_sized q (hmem q hq)
  · exact fun q hq => h.queue_lt q (hmem q hq)
  · exact fun q hq => h.queue_not_sent q (hmem q hq)

theorem updatePacket (h : Inv v l) (hp : p ∉ v.sent) (e : TransmissionHeader × ℕ)
    (hsized : p ∈ v.queue → e.1.dataBitLength = (v.packets p).1.dataBitLength) :
    Inv { v with packets := Function.update v.packets p e } l := by
  have hother : ∀ q ∈ v.sent, Function.update v.packets p e q = v.packets q := fun q hq =>
    Function.update_of_ne (fun he : q = p => hp (he ▸ hq)) _ _
  have hlist : ∀ q ∈ l, Function.update v.packets p e q = v.packets q := fun q hq =>
    hother q (h.mem_sent hq)
  refine
    { represents := h.represents
      mem_iff := h.mem_iff
      slot_iff := ?_
      sent_nodup := h.sent_nodup
      sent_number := ?_
      index_eq := h.index_eq
      window := h.window
      overwritten_eq := h.overwritten_eq
      unacknowledgedBytes_eq := ?_
      messagesInResendBuffer_eq := h.messagesInResendBuffer_eq
      bytesInResendBuffer_eq := ?_
      headerLength_eq := ?_
      sized := ?_
      queue_sized := ?_
      queue_nodup := h.queue_nodup
      queue_lt := h.queue_lt
      queue_not_sent := h.queue_not_sent
      sent_lt := h.sent_lt
      acknowledged_sent := h.acknowledged_sent }
  · intro i q
    show v.resendBuffer i = some q ↔ q ∈ l ∧ resendSlot (Function.update v.packets p e q).1.1 = i
    rw [h.slot_iff]
    apply and_congr_right
    intro hq
    rw [hlist q hq]
    exact Iff.rfl
  · intro k q hq
    have := h.sent_number k q hq
    simp only [number, hother q (List.mem_of_getElem? hq)]
    exact this
  · rw [h.unacknowledgedBytes_eq]
    congr 1
    apply List.map_congr_left
    intro q hq
    simp only [bytes, hlist q hq]
  · rw [h.bytesInResendBuffer_eq]
    congr 1
    apply List.map_congr_left
    intro q hq
    simp only [dataBytes, hlist q hq]
  · intro q hq
    simp only [hlist q hq]
    exact h.headerLength_eq q hq
  · intro q hq
    have := h.sized q hq
    simp only [Sized, dataBytes, hlist q hq]
    exact this
  · intro q hq
    have hs := h.queue_sized q hq
    by_cases hqp : q = p
    · subst hqp
      simp only [Sized, dataBytes, Function.update_self, hsized hq]
      exact hs
    · simp only [Sized, dataBytes, Function.update_of_ne hqp]
      exact hs

theorem allocate (h : Inv v l) (e : TransmissionHeader × ℕ) :
    Inv { v with
      packets := Function.update v.packets v.allocated e
      allocated := v.allocated + 1 } l := by
  have hfresh : v.allocated ∉ v.sent := fun hs => Nat.lt_irrefl _ (h.sent_lt _ hs)
  have hout : v.allocated ∉ v.queue := fun hq => Nat.lt_irrefl _ (h.queue_lt _ hq)
  have hu := h.updatePacket hfresh e (fun hq => absurd hq hout)
  exact
    { hu with
      queue_lt := fun p hp => Nat.lt_succ_of_lt (h.queue_lt p hp)
      sent_lt := fun p hp => Nat.lt_succ_of_lt (h.sent_lt p hp) }

theorem enqueue (h : Inv v l) {queue : List PacketPtr} (hperm : queue.Perm (p :: v.queue))
    (hlt : p < v.allocated) (hq : p ∉ v.queue) (hs : p ∉ v.sent) (hsized : v.Sized p) :
    Inv { v with queue := queue } l := by
  apply h.requeue
  · exact hperm.nodup_iff.mpr (List.nodup_cons.mpr ⟨hq, h.queue_nodup⟩)
  all_goals
    intro q hmem
    rcases List.mem_cons.mp (hperm.mem_iff.mp hmem) with rfl | hmem
  · exact hsized
  · exact h.queue_sized q hmem
  · exact hlt
  · exact h.queue_lt q hmem
  · exact hs
  · exact h.queue_not_sent q hmem

theorem slot_ne (h : Inv v l) (hfree : v.resendBuffer (resendSlot v.sendReliableMessageNumberIndex) = none)
    {q : PacketPtr} (hq : q ∈ l) :
    resendSlot (v.number q) ≠ resendSlot v.sendReliableMessageNumberIndex := by
  intro he
  rw [(h.slot_iff _ q).mpr ⟨hq, he⟩] at hfree
  cases hfree

theorem resendSlot_ofNat_add (k : ℕ) : resendSlot (.ofNat (k + 512)) = resendSlot (.ofNat k) := by
  apply Fin.ext
  show (k + 512) % 2 ^ 24 % 512 = k % 2 ^ 24 % 512
  omega

theorem assign (h : Inv v l)
    (hfree : v.resendBuffer (resendSlot v.sendReliableMessageNumberIndex) = none)
    (hnumber : v.number p = v.sendReliableMessageNumberIndex)
    (hreliable : (v.packets p).1.reliability.isReliable = true)
    (hheader : (v.packets p).2 = (v.packets p).1.getMessageHeaderLengthBits)
    (hsized : v.Sized p) (hlt : p < v.allocated) (hq : p ∉ v.queue) (hs : p ∉ v.sent) :
    Inv { v with
      resendBuffer :=
        Function.update v.resendBuffer (resendSlot v.sendReliableMessageNumberIndex) (some p)
      resendLinkedList := v.resendLinkedList.addTail p
      sendReliableMessageNumberIndex := v.sendReliableMessageNumberIndex.succ
      unacknowledgedBytes := (v.unacknowledgedBytes + v.bytes p) % 2 ^ 32
      messagesInResendBuffer := (v.messagesInResendBuffer + 1) % 2 ^ 32
      bytesInResendBuffer := (v.bytesInResendBuffer + v.dataBytes p) % 2 ^ 64
      sent := v.sent ++ [p]
      overwritten := v.overwritten ++
        (v.resendBuffer (resendSlot v.sendReliableMessageNumberIndex)).toList } (l ++ [p]) := by
  have hpl : p ∉ l := fun hmem => hs (h.mem_sent hmem)
  have hmem : ∀ q, q ∈ l ++ [p] ↔ q ∈ l ∨ q = p := by simp
  have hsum := h.sum_bytes_lt
  have hdata := h.sum_dataBytes_lt
  have hlen := h.length_le
  have hb := bytes_le hsized hheader
  have hd := dataBytes_le hsized
  refine
    { represents := h.represents.addTail hpl
      mem_iff := ?_
      slot_iff := ?_
      sent_nodup := ?_
      sent_number := ?_
      index_eq := ?_
      window := ?_
      overwritten_eq := ?_
      unacknowledgedBytes_eq := ?_
      messagesInResendBuffer_eq := ?_
      bytesInResendBuffer_eq := ?_
      headerLength_eq := ?_
      sized := ?_
      queue_sized := h.queue_sized
      queue_nodup := h.queue_nodup
      queue_lt := h.queue_lt
      queue_not_sent := ?_
      sent_lt := ?_
      acknowledged_sent := fun q hq' => List.mem_append_left _ (h.acknowledged_sent q hq') }
  · intro q
    rw [hmem, h.mem_iff]
    simp only [List.mem_append, List.mem_singleton]
    constructor
    · rintro (⟨h1, h2⟩ | rfl)
      · exact ⟨.inl h1, h2⟩
      · exact ⟨.inr rfl, fun hack => hs (h.acknowledged_sent _ hack)⟩
    · rintro ⟨h1 | h1, h2⟩
      · exact .inl ⟨h1, h2⟩
      · exact .inr h1
  · intro i q
    show Function.update v.resendBuffer _ _ i = some q ↔ q ∈ l ++ [p] ∧ resendSlot (v.number q) = i
    rw [hmem]
    by_cases hi : i = resendSlot v.sendReliableMessageNumberIndex
    · subst hi
      rw [Function.update_self, Option.some.injEq]
      constructor
      · rintro rfl
        exact ⟨.inr rfl, by rw [hnumber]⟩
      · rintro ⟨hq' | rfl, hslot⟩
        · exact absurd hslot (h.slot_ne hfree hq')
        · rfl
    · rw [Function.update_of_ne hi, h.slot_iff]
      constructor
      · exact fun hq' => ⟨.inl hq'.1, hq'.2⟩
      · rintro ⟨hq' | rfl, hslot⟩
        · exact ⟨hq', hslot⟩
        · rw [hnumber] at hslot
          exact absurd hslot.symm hi
  · simp only [List.nodup_append, List.nodup_singleton, List.mem_singleton]
    exact ⟨h.sent_nodup, trivial, fun a ha b hb' he => hs (by rwa [← hb', ← he])⟩
  · intro k q hk
    rw [List.getElem?_append] at hk
    split at hk
    · exact h.sent_number k q hk
    · rw [List.getElem?_singleton] at hk
      split at hk
      · obtain rfl := Option.some.inj hk
        have hk' : k = v.sent.length := by omega
        subst hk'
        exact ⟨hnumber.trans h.index_eq, hreliable⟩
      · cases hk
  · rw [h.index_eq, Uint24.succ_ofNat, List.length_append, List.length_singleton]
  · intro k q hk hq'
    rw [List.length_append, List.length_singleton]
    rw [List.getElem?_append] at hk
    split at hk
    · rcases (hmem q).mp hq' with hq' | rfl
      · have hw := h.window k q hk hq'
        have hne := h.slot_ne hfree hq'
        rw [(h.sent_number k q hk).1, h.index_eq] at hne
        have : v.sent.length ≠ k + 512 := fun he => hne (by rw [he, resendSlot_ofNat_add])
        omega
      · exact absurd (List.mem_of_getElem? hk) hs
    · omega
  · rw [h.overwritten_eq, hfree]
    rfl
  · rw [h.unacknowledgedBytes_eq, List.map_append, List.sum_append, List.map_singleton,
      List.sum_singleton]
    exact Nat.mod_eq_of_lt (by omega)
  · rw [h.messagesInResendBuffer_eq, List.length_append, List.length_singleton]
    exact Nat.mod_eq_of_lt (by omega)
  · rw [h.bytesInResendBuffer_eq, List.map_append, List.sum_append, List.map_singleton,
      List.sum_singleton]
    exact Nat.mod_eq_of_lt (by omega)
  · intro q hq'
    rcases (hmem q).mp hq' with hq' | rfl
    · exact h.headerLength_eq q hq'
    · exact hheader
  · intro q hq'
    rcases (hmem q).mp hq' with hq' | rfl
    · exact h.sized q hq'
    · exact hsized
  · intro q hq' hmem'
    rcases List.mem_append.mp hmem' with hmem' | hmem'
    · exact h.queue_not_sent q hq' hmem'
    · exact hq (by rwa [← List.mem_singleton.mp hmem'])
  · intro q hmem'
    rcases List.mem_append.mp hmem' with hmem' | hmem'
    · exact h.sent_lt q hmem'
    · rwa [List.mem_singleton.mp hmem']

theorem resend (h : Inv v (p :: l)) :
    Inv { v with resendLinkedList := (v.resendLinkedList.remove p).addTail p } (l ++ [p]) := by
  have hperm : (l ++ [p]).Perm (p :: l) := List.perm_append_singleton p l
  have hpl : p ∉ l := (List.nodup_cons.mp h.represents.nodup).1
  exact
    { h with
      represents := (h.represents.remove_head).addTail hpl
      mem_iff := fun q => hperm.mem_iff.trans (h.mem_iff q)
      slot_iff := fun i q => (h.slot_iff i q).trans (and_congr_left' hperm.mem_iff.symm)
      window := fun k q hk hq => h.window k q hk (hperm.mem_iff.mp hq)
      unacknowledgedBytes_eq := h.unacknowledgedBytes_eq.trans (hperm.map v.bytes).sum_eq.symm
      messagesInResendBuffer_eq := h.messagesInResendBuffer_eq.trans hperm.length_eq.symm
      bytesInResendBuffer_eq := h.bytesInResendBuffer_eq.trans (hperm.map v.dataBytes).sum_eq.symm
      headerLength_eq := fun q hq => h.headerLength_eq q (hperm.mem_iff.mp hq)
      sized := fun q hq => h.sized q (hperm.mem_iff.mp hq) }

theorem number_injective (h : Inv v l) {p q : PacketPtr} (hp : p ∈ l) (hq : q ∈ l)
    (he : v.number p = v.number q) : p = q := h.slot_injective hp hq (by rw [he])

/-- The packets that acknowledging a number adds to the acknowledged ones. -/
def acknowledging (v : ResendView) (number : Uint24) : List PacketPtr :=
  v.sent.filter fun p => decide (v.number p = number) && !v.acknowledged.contains p

theorem mem_acknowledging (h : Inv v l) {number : Uint24} {q : PacketPtr} :
    q ∈ acknowledging v number ↔ q ∈ l ∧ v.number q = number := by
  rw [h.mem_iff]
  simp only [acknowledging, List.mem_filter, Bool.and_eq_true, decide_eq_true_eq,
    Bool.not_eq_true', List.contains_eq_mem, decide_eq_false_iff_not]
  tauto

theorem acknowledge_none (h : Inv v l) {number : Uint24} (hnone : ∀ q ∈ l, v.number q ≠ number) :
    Inv { v with acknowledged := v.acknowledged ++ acknowledging v number } l := by
  have hempty : acknowledging v number = [] := by
    apply List.eq_nil_iff_forall_not_mem.mpr
    intro q hq
    have := h.mem_acknowledging.mp hq
    exact hnone q this.1 this.2
  rw [hempty, List.append_nil]
  exact h

theorem acknowledge (h : Inv v l) (hp : p ∈ l) :
    Inv { v with
      resendBuffer := Function.update v.resendBuffer (resendSlot (v.number p)) none
      resendLinkedList := v.resendLinkedList.remove p
      unacknowledgedBytes := (2 ^ 32 - v.bytes p + v.unacknowledgedBytes) % 2 ^ 32
      messagesInResendBuffer := (2 ^ 32 - 1 + v.messagesInResendBuffer) % 2 ^ 32
      bytesInResendBuffer := (2 ^ 64 - v.dataBytes p + v.bytesInResendBuffer) % 2 ^ 64
      acknowledged := v.acknowledged ++ acknowledging v (v.number p) } (l.erase p) := by
  have hnd := h.represents.nodup
  have hmem : ∀ q, q ∈ l.erase p ↔ q ∈ l ∧ q ≠ p := by
    intro q
    rw [hnd.mem_erase_iff, and_comm]
  have hsub : ∀ q ∈ l.erase p, q ∈ l := fun q hq => ((hmem q).mp hq).1
  have hsum := h.sum_bytes_lt
  have hdata := h.sum_dataBytes_lt
  have hlen := h.length_le
  have hsumeq := ((List.perm_cons_erase hp).map v.bytes).sum_eq
  have hdataeq := ((List.perm_cons_erase hp).map v.dataBytes).sum_eq
  have hleneq := (List.perm_cons_erase hp).length_eq
  rw [List.map_cons, List.sum_cons] at hsumeq hdataeq
  rw [List.length_cons] at hleneq
  refine
    { represents := h.represents.remove hp
      mem_iff := ?_
      slot_iff := ?_
      sent_nodup := h.sent_nodup
      sent_number := h.sent_number
      index_eq := h.index_eq
      window := fun k q hk hq => h.window k q hk (hsub q hq)
      overwritten_eq := h.overwritten_eq
      unacknowledgedBytes_eq := ?_
      messagesInResendBuffer_eq := ?_
      bytesInResendBuffer_eq := ?_
      headerLength_eq := fun q hq => h.headerLength_eq q (hsub q hq)
      sized := fun q hq => h.sized q (hsub q hq)
      queue_sized := h.queue_sized
      queue_nodup := h.queue_nodup
      queue_lt := h.queue_lt
      queue_not_sent := h.queue_not_sent
      sent_lt := h.sent_lt
      acknowledged_sent := ?_ }
  · intro q
    rw [hmem, List.mem_append, h.mem_acknowledging, h.mem_iff, not_or, not_and]
    constructor
    · rintro ⟨⟨h1, h2⟩, hne⟩
      refine ⟨h1, h2, fun hq hnum => hne ?_⟩
      exact h.number_injective ((h.mem_iff q).mpr hq) hp hnum
    · rintro ⟨h1, h2, h3⟩
      refine ⟨⟨h1, h2⟩, ?_⟩
      rintro rfl
      exact h3 ⟨h1, h2⟩ rfl
  · intro i q
    show Function.update v.resendBuffer _ none i = some q ↔ q ∈ l.erase p ∧ resendSlot (v.number q) = i
    rw [hmem]
    by_cases hi : i = resendSlot (v.number p)
    · subst hi
      rw [Function.update_self]
      constructor
      · intro hno
        cases hno
      · rintro ⟨⟨hq, hne⟩, hslot⟩
        exact absurd (h.slot_injective hq hp hslot) hne
    · rw [Function.update_of_ne hi, h.slot_iff]
      constructor
      · rintro ⟨hq, hslot⟩
        refine ⟨⟨hq, ?_⟩, hslot⟩
        rintro rfl
        exact hi hslot.symm
      · exact fun hq => ⟨hq.1.1, hq.2⟩
  · rw [h.unacknowledgedBytes_eq, hsumeq]
    show (2 ^ 32 - v.bytes p + (v.bytes p + ((l.erase p).map v.bytes).sum)) % 2 ^ 32 =
      ((l.erase p).map v.bytes).sum
    have hb := bytes_le (h.sized p hp) (h.headerLength_eq p hp)
    omega
  · rw [h.messagesInResendBuffer_eq, hleneq]
    show (2 ^ 32 - 1 + ((l.erase p).length + 1)) % 2 ^ 32 = (l.erase p).length
    omega
  · rw [h.bytesInResendBuffer_eq, hdataeq]
    show (2 ^ 64 - v.dataBytes p + (v.dataBytes p + ((l.erase p).map v.dataBytes).sum)) % 2 ^ 64 =
      ((l.erase p).map v.dataBytes).sum
    have hd := dataBytes_le (h.sized p hp)
    omega
  · intro q hq
    rcases List.mem_append.mp hq with hq | hq
    · exact h.acknowledged_sent q hq
    · exact h.mem_sent (h.mem_acknowledging.mp hq).1

end Inv

end ResendView

end SLikeNet
