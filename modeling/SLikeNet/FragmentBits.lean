import SLikeNet.Frame
import SLikeNet.SplitRoundTrip
import Mathlib.Algebra.BigOperators.Ring.List

/-! The bit lengths of the fragments of `SplitPacket`: a last block that is full counts all bits
of its last byte. -/

namespace SLikeNet

namespace ReliabilityLayer

/-- The `dataBitLength` of the packets that `SplitPacket` allocates, in their order. -/
def fragmentBits (s : ReliabilityLayer) (packet : InternalPacket) : List ℕ :=
  (List.range' s.allocated ((s.splitPacket packet).allocated - s.allocated)).map fun p =>
    ((s.splitPacket packet).packets p).dataBitLength

theorem fragmentBits_eq (s : ReliabilityLayer) (packet : InternalPacket) :
    s.fragmentBits packet =
      (List.range ((bitsToBytes packet.dataBitLength - 1) / s.maximumSendBlockBytes + 1)).map
        fun i => (s.fragment packet i).dataBitLength := by
  rw [fragmentBits, splitPacket_eq]
  generalize (bitsToBytes packet.dataBitLength - 1) / s.maximumSendBlockBytes + 1 = count
  have hkeeps := Keeps.foldl (keeps_pushOutgoing Heap.pushSeries) (List.range' s.allocated count)
    (s.withFragments packet count)
  have hallocated : (s.withFragments packet count).allocated = s.allocated + count := rfl
  rw [hkeeps.allocated_eq, hallocated, Nat.add_sub_cancel_left]
  -- pushing keeps the lengths
  have hlength : ∀ p ∈ List.range' s.allocated count,
      (((List.range' s.allocated count).foldl (fun t p => t.pushOutgoing Heap.pushSeries p)
        (s.withFragments packet count)).packets p).dataBitLength =
        (s.fragment packet (p - s.allocated)).dataBitLength := by
    intro p hp
    rw [hkeeps.header_eq p, withFragments_packets, if_pos (List.mem_range'_1.mp hp)]
  rw [List.map_congr_left hlength, List.range'_eq_map_range, List.map_map]
  apply List.map_congr_left
  intro i _
  rw [Function.comp_apply, Nat.add_sub_cancel_left]

theorem maximumSendBlockBytes_pos (s : ReliabilityLayer) : 0 < s.maximumSendBlockBytes := by
  have hmin := s.mtu.le_bytes
  show 0 < s.mtu.maxDatagramSizeExcludingMessageHeaderBytes - 23
  unfold Mtu.maxDatagramSizeExcludingMessageHeaderBytes
  omega

theorem dataBitLength_fragment (s : ReliabilityLayer) (packet : InternalPacket) (i : ℕ) :
    (s.fragment packet i).dataBitLength =
      if min (bitsToBytes packet.dataBitLength - i * s.maximumSendBlockBytes)
          s.maximumSendBlockBytes ≠ s.maximumSendBlockBytes then
        packet.dataBitLength - i * s.maximumSendBlockBytes * 8
      else s.maximumSendBlockBytes * 8 := by
  rw [Nat.mul_assoc]
  show (if _ then _ else _) = _
  split
  · rfl
  · rename_i h
    rw [not_not.mp h]

/-- The lengths add up to that of the message unless its last block is a full one, which counts
as whole bytes. -/
theorem sum_fragmentBits (s : ReliabilityLayer) (packet : InternalPacket)
    (hpos : 1 ≤ bitsToBytes packet.dataBitLength) (hlt : packet.dataBitLength < 2 ^ 32) :
    (s.fragmentBits packet).sum =
      if bitsToBytes packet.dataBitLength % s.maximumSendBlockBytes = 0 then
        8 * bitsToBytes packet.dataBitLength
      else packet.dataBitLength := by
  have hbits : 8 * bitsToBytes packet.dataBitLength < packet.dataBitLength + 8 ∧
      packet.dataBitLength ≤ 8 * bitsToBytes packet.dataBitLength := by
    unfold bitsToBytes at hpos ⊢
    omega
  have hblock := s.maximumSendBlockBytes_pos
  have hfragment := s.dataBitLength_fragment packet
  rw [fragmentBits_eq]
  generalize bitsToBytes packet.dataBitLength = bytes at *
  generalize s.maximumSendBlockBytes = block at *
  obtain ⟨last, hlast⟩ : ∃ last, (bytes - 1) / block = last := ⟨_, rfl⟩
  have hdiv := Nat.div_add_mod (bytes - 1) block
  have hmod := Nat.mod_lt (bytes - 1) hblock
  rw [hlast, Nat.mul_comm] at hdiv
  have hmid : ((List.range last).map fun i => (s.fragment packet i).dataBitLength).sum =
      last * block * 8 := by
    have hwhole : ∀ i ∈ List.range last, (s.fragment packet i).dataBitLength = block * 8 := by
      intro i hi
      have hle : (i + 1) * block ≤ last * block :=
        Nat.mul_le_mul_right _ (List.mem_range.mp hi)
      rw [Nat.add_mul, Nat.one_mul] at hle
      rw [hfragment, if_neg]
      omega
    rw [List.map_congr_left hwhole, List.map_const', List.sum_replicate_nat, List.length_range,
      Nat.mul_assoc]
  rw [hlast, List.range_succ, List.map_append, List.sum_append, hmid, List.map_singleton,
    List.sum_singleton, hfragment]
  have hrest : bytes % block = 0 ↔ bytes = last * block + block := by
    constructor
    · intro h
      obtain ⟨k, hk⟩ := Nat.dvd_of_mod_eq_zero h
      rw [Nat.mul_comm] at hk
      have hlow : last < k := by
        by_contra hle
        have := Nat.mul_le_mul_right block (Nat.le_of_not_lt hle)
        omega
      have hhigh : k < last + 2 := by
        by_contra hle
        have := Nat.mul_le_mul_right block (Nat.le_of_not_lt hle)
        rw [Nat.add_mul] at this
        omega
      obtain rfl : k = last + 1 := by omega
      rw [hk, Nat.add_mul, Nat.one_mul]
    · intro h
      rw [h, ← Nat.succ_mul, Nat.mul_mod_left]
  split <;> split <;> omega

end ReliabilityLayer

open SplitPacketChannelList SplitPacketChannel

theorem rebuilt_dataBitLength {m : SplitMessage} {first : Fragment} {fs : List Fragment}
    (hlen : (first :: fs).length = m.splitPacketCount)
    (harrive : ∀ j f, (first :: fs)[j]? = some f → ∃ g, m.Arrives j g ∧ f = designateChannel g)
    {p : TransmittedMessage} (hp : rebuilt first (first :: fs) = some p) :
    p.dataBitLength = (m.layer.fragmentBits m.packet).sum := by
  have hcount : (bitsToBytes m.packet.dataBitLength - 1) / m.layer.maximumSendBlockBytes + 1 =
      m.splitPacketCount := by
    rw [← m.length_payload]
    rfl
  have hbits : (first :: fs).map (fun f => f.dataBitLength) =
      m.layer.fragmentBits m.packet := by
    rw [ReliabilityLayer.fragmentBits_eq, hcount, ← hlen]
    apply List.ext_getElem?
    intro j
    rw [List.getElem?_map, List.getElem?_map]
    by_cases hj : j < (first :: fs).length
    · have hat := List.getElem?_eq_getElem hj
      obtain ⟨g, ⟨-, number, hread⟩, hg⟩ := harrive j _ hat
      rw [hat, List.getElem?_range hj, hg, Option.map_some, Option.map_some, designateChannel_eq]
      exact congrArg some hread.dataBitLength_eq
    · rw [List.getElem?_eq_none (Nat.le_of_not_lt hj), List.getElem?_eq_none
        (by rw [List.length_range]; exact Nat.le_of_not_lt hj)]
      rfl
  have hsum : (m.layer.fragmentBits m.packet).sum < 2 ^ 32 := by
    have hmax : m.payload.length ≤ maxSplitPacketCount * 1460 :=
      Nat.le_trans m.splitPacketCount_bounds.2
        (Nat.mul_le_mul m.splitPacketCount_le m.blockBytes_bounds.2)
    have hlt := m.dataBitLength_lt
    have hpos := m.payload_pos
    rw [m.length_payload] at hmax hpos
    rw [ReliabilityLayer.sum_fragmentBits _ _ hpos hlt]
    unfold maxSplitPacketCount at hmax
    split <;> omega
  have htotal : totalBitLength (first :: fs) % 2 ^ 32 =
      (m.layer.fragmentBits m.packet).sum := by
    rw [totalBitLength, hbits, Nat.mod_mod_of_dvd _ (Nat.pow_dvd_pow 2 (by decide)),
      Nat.mod_eq_of_lt hsum]
  rw [← htotal]
  unfold rebuilt at hp
  split at hp
  · cases hp
  · rw [← Option.some.inj hp]
    rfl

theorem Traffic.received_dataBitLength {ι : Type*} [DecidableEq ι] {traffic : Traffic ι}
    {interval : ℕ} {arrived : List (ι × ℕ)} {a : ι × ℕ} {s t : SplitPacketChannelList}
    {p : TransmittedMessage} (haccepted : Accepted traffic (arrived ++ [a]))
    (hrun : traffic.run interval arrived = some s)
    (hreceive : s.receive (traffic.received a) (traffic.time a) = some (some p, t)) :
    p.dataBitLength =
      ((traffic.messages a.1).layer.fragmentBits (traffic.messages a.1).packet).sum := by
  obtain ⟨s', hrun', hpending⟩ := traffic.run_pending interval arrived haccepted.left
  obtain rfl : s' = s := Option.some.inj (hrun'.symm.trans hrun)
  obtain ⟨r, t', hreceive', -, hbuilt, hwaits⟩ := hpending.receive_built haccepted
  have hr : r = some p := by
    have heq := hreceive'.symm.trans hreceive
    exact (Prod.ext_iff.mp (Option.some.inj heq)).1
  by_cases hall : traffic.Complete (arrived ++ [a]) a.1
  · obtain ⟨f, fs, hlen, harrives, heq⟩ := hbuilt hall
    exact rebuilt_dataBitLength hlen (fun j g hg => ⟨_, harrives j g hg⟩) (heq.symm.trans hr)
  · rw [hwaits hall] at hr
    cases hr

/-- The fragments of a message, and the packet that they are put together into, have the bit
length of the message exactly when its last byte is full or its last block is not. -/
theorem bit_length_preserved_iff {ι : Type*} [DecidableEq ι] (s : ReliabilityLayer)
    (packet : InternalPacket) (hpos : 1 ≤ bitsToBytes packet.dataBitLength)
    (hlt : packet.dataBitLength < 2 ^ 32) :
    ((s.fragmentBits packet).sum = packet.dataBitLength ∧
      ∀ (traffic : Traffic ι) (interval : ℕ) (arrived : List (ι × ℕ)) (a : ι × ℕ)
        (before after : SplitPacketChannelList) (p : TransmittedMessage),
        (traffic.messages a.1).layer = s → (traffic.messages a.1).packet = packet →
        Traffic.Accepted traffic (arrived ++ [a]) → traffic.run interval arrived = some before →
        before.receive (traffic.received a) (traffic.time a) = some (some p, after) →
          p.dataBitLength = packet.dataBitLength) ↔
      packet.dataBitLength % 8 = 0 ∨
        bitsToBytes packet.dataBitLength % s.maximumSendBlockBytes ≠ 0 := by
  have hsum : (s.fragmentBits packet).sum = packet.dataBitLength ↔
      packet.dataBitLength % 8 = 0 ∨
        bitsToBytes packet.dataBitLength % s.maximumSendBlockBytes ≠ 0 := by
    rw [s.sum_fragmentBits packet hpos hlt]
    split
    · rename_i hfull
      rw [or_iff_left (not_not.mpr hfull)]
      unfold bitsToBytes at hpos ⊢
      omega
    · rename_i hpart
      exact ⟨fun _ => .inr hpart, fun _ => rfl⟩
  rw [← hsum]
  refine ⟨And.left, fun h => ⟨h, ?_⟩⟩
  intro traffic interval arrived a before after p hlayer hpacket haccepted hrun hreceive
  rw [Traffic.received_dataBitLength haccepted hrun hreceive, hlayer, hpacket]
  exact h

theorem twoBytes_bit_length :
    1 ≤ bitsToBytes Traffic.twoBytes.packet.dataBitLength ∧
      ((Traffic.twoBytes.layer.fragmentBits Traffic.twoBytes.packet).sum = 16 ∧
        ∀ (traffic : Traffic Unit) (interval : ℕ) (arrived : List (Unit × ℕ)) (a : Unit × ℕ)
          (before after : SplitPacketChannelList) (p : TransmittedMessage),
          (traffic.messages a.1).layer = Traffic.twoBytes.layer →
          (traffic.messages a.1).packet = Traffic.twoBytes.packet →
          Traffic.Accepted traffic (arrived ++ [a]) →
          traffic.run interval arrived = some before →
          before.receive (traffic.received a) (traffic.time a) = some (some p, after) →
            p.dataBitLength = 16) :=
  ⟨by decide, (bit_length_preserved_iff Traffic.twoBytes.layer Traffic.twoBytes.packet
    (by decide) (by decide)).mpr (.inl (by decide))⟩

/-- With an MTU of 576, a message of two blocks that lacks one bit is split into fragments that
have it. -/
theorem full_last_block :
    ¬ ∀ (s : ReliabilityLayer) (packet : InternalPacket),
      1 ≤ packet.dataBitLength → packet.dataBitLength < 2 ^ 31 →
        (s.fragmentBits packet).sum = packet.dataBitLength := by
  intro h
  have hsum := h (.initial ⟨576, by decide, by decide⟩ 0 0 10000)
    (ReliabilityLayer.newPacket
      ⟨List.replicate 1088 0, 8703, .high, .reliableOrdered, 0, 0, 0, by decide⟩ .reliableOrdered)
    (by decide) (by decide)
  rw [ReliabilityLayer.sum_fragmentBits _ _ (by decide) (by decide)] at hsum
  revert hsum
  decide

end SLikeNet
