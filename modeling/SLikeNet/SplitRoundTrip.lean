import SLikeNet.Reassembly
import SLikeNet.AckHandling
import Mathlib.Algebra.BigOperators.Ring.List

/-! What `SplitPacket` takes apart, reassembly puts together, in whatever order the fragments
of however many messages arrive. -/

namespace SLikeNet

/-- A message that `SplitPacket` is called with, and the state it is called in. -/
structure SplitMessage where
  layer : ReliabilityLayer
  packet : InternalPacket
  payload : List UInt8
  data_eq : packet.data = some payload
  length_payload : payload.length = bitsToBytes packet.dataBitLength
  payload_pos : 1 ≤ payload.length
  dataBitLength_lt : packet.dataBitLength < 2 ^ 32
  count_le : (bitsToBytes packet.dataBitLength - 1) / layer.maximumSendBlockBytes + 1 ≤
    maxSplitPacketCount

/-- The message as the receiver reads it. -/
def TransmittedMessage.onWire (m : TransmittedMessage) : TransmittedMessage :=
  { m with
    reliability := m.reliability.onWire
    data := m.payload }

theorem TransmittedMessage.onWire_readAs (m : TransmittedMessage) :
    TransmittedMessage.ReadAs m m.onWire := by
  constructor <;> intros <;> first | rfl | exact ⟨rfl, rfl⟩

namespace SplitMessage

def blockBytes (m : SplitMessage) : ℕ := m.layer.maximumSendBlockBytes

def splitPacketCount (m : SplitMessage) : ℕ := (m.payload.length - 1) / m.blockBytes + 1

def splitPacketId (m : SplitMessage) : ℕ := m.layer.splitPacketId

/-- The fragment with an index as it is written to the wire, with the number it has taken. -/
def sentFragment (m : SplitMessage) (index : ℕ) (number : Uint24) : TransmittedMessage where
  toTransmissionHeader :=
    { (m.layer.fragment m.packet index).toTransmissionHeader with reliableMessageNumber := number }
  data := (m.layer.fragment m.packet index).data.getD []

theorem blockBytes_bounds (m : SplitMessage) : 1 ≤ m.blockBytes ∧ m.blockBytes ≤ 1460 := by
  have hmin := m.layer.mtu.le_bytes
  have hmax := m.layer.mtu.bytes_le
  show 1 ≤ m.layer.mtu.maxDatagramSizeExcludingMessageHeaderBytes - 23 ∧
    m.layer.mtu.maxDatagramSizeExcludingMessageHeaderBytes - 23 ≤ 1460
  unfold Mtu.maxDatagramSizeExcludingMessageHeaderBytes
  omega

theorem splitPacketCount_bounds (m : SplitMessage) :
    (m.splitPacketCount - 1) * m.blockBytes < m.payload.length ∧
      m.payload.length ≤ m.splitPacketCount * m.blockBytes := by
  have hpos := m.payload_pos
  have hdiv := Nat.div_add_mod (m.payload.length - 1) m.blockBytes
  have hmod := Nat.mod_lt (m.payload.length - 1) m.blockBytes_bounds.1
  unfold splitPacketCount
  rw [Nat.add_sub_cancel, Nat.add_mul, Nat.one_mul, Nat.mul_comm]
  omega

theorem splitPacketCount_le (m : SplitMessage) : m.splitPacketCount ≤ maxSplitPacketCount := by
  unfold splitPacketCount
  rw [m.length_payload]
  exact m.count_le

variable {m : SplitMessage} {index : ℕ}

theorem offset_lt (h : index < m.splitPacketCount) : index * m.blockBytes < m.payload.length := by
  have hle : index * m.blockBytes ≤ (m.splitPacketCount - 1) * m.blockBytes :=
    Nat.mul_le_mul_right _ (by omega)
  exact Nat.lt_of_le_of_lt hle m.splitPacketCount_bounds.1

theorem dataBitLength_fragment (m : SplitMessage) (index : ℕ) (number : Uint24) :
    (m.sentFragment index number).dataBitLength =
      if min (m.payload.length - index * m.blockBytes) m.blockBytes ≠ m.blockBytes then
        m.packet.dataBitLength - index * m.blockBytes * 8
      else min (m.payload.length - index * m.blockBytes) m.blockBytes * 8 := by
  rw [m.length_payload, Nat.mul_assoc]
  rfl

theorem bytes_fragment (h : index < m.splitPacketCount) (number : Uint24) :
    1 ≤ (m.sentFragment index number).dataBitLength ∧
      (m.sentFragment index number).dataBitLength ≤ 8 * 1460 ∧
      bitsToBytes (m.sentFragment index number).dataBitLength =
        min (m.payload.length - index * m.blockBytes) m.blockBytes := by
  have hoffset := offset_lt h
  have hblock := m.blockBytes_bounds
  have hlt := m.dataBitLength_lt
  have hpos := m.payload_pos
  rw [dataBitLength_fragment]
  rw [m.length_payload] at hoffset hpos ⊢
  generalize index * m.blockBytes = byteOffset at *
  unfold bitsToBytes at *
  split <;> omega

theorem fragment_aligned (h : index < m.splitPacketCount) (number : Uint24) :
    (m.sentFragment index number).dataBitLength % 8 = 0 ∨ index + 1 = m.splitPacketCount := by
  rw [dataBitLength_fragment]
  split
  · rename_i hne
    apply Or.inr
    have hbounds := m.splitPacketCount_bounds
    by_contra hlast
    have hle : (index + 1) * m.blockBytes ≤ (m.splitPacketCount - 1) * m.blockBytes :=
      Nat.mul_le_mul_right _ (by omega)
    rw [Nat.add_mul, Nat.one_mul] at hle
    omega
  · exact .inl (Nat.mul_mod_left _ 8)

theorem payload_fragment (h : index < m.splitPacketCount) (number : Uint24) :
    (m.sentFragment index number).payload =
      (m.payload.drop (index * m.blockBytes)).take m.blockBytes := by
  have hdata : (m.sentFragment index number).data = m.payload.drop (index * m.blockBytes) := by
    show (m.packet.data.map (List.drop _)).getD [] = _
    rw [m.data_eq]
    rfl
  rw [TransmittedMessage.payload, (bytes_fragment h number).2.2, hdata, ← List.length_drop,
    List.take_eq_take_iff]
  omega

theorem flatMap_blocks (l : List UInt8) (block n : ℕ) :
    (List.range n).flatMap (fun i => (l.drop (i * block)).take block) = l.take (n * block) := by
  induction n with
  | zero => rw [Nat.zero_mul, List.take_zero]; rfl
  | succ n ih =>
    rw [List.range_succ, List.flatMap_append, ih, List.flatMap_singleton, Nat.add_mul, Nat.one_mul,
      List.take_add]

theorem payloads_eq (m : SplitMessage) (number : ℕ → Uint24) :
    (List.range m.splitPacketCount).flatMap
      (fun index => (m.sentFragment index (number index)).payload) = m.payload := by
  have hblocks : (List.range m.splitPacketCount).flatMap
      (fun index => (m.sentFragment index (number index)).payload) =
      (List.range m.splitPacketCount).flatMap
        (fun index => (m.payload.drop (index * m.blockBytes)).take m.blockBytes) := by
    apply List.flatMap_congr
    intro index hindex
    exact payload_fragment (List.mem_range.mp hindex) _
  rw [hblocks, flatMap_blocks, List.take_of_length_le m.splitPacketCount_bounds.2]

/-- A packet of the receiver that stands for a fragment of the message. -/
def Arrives (m : SplitMessage) (index : ℕ) (f : Fragment) : Prop :=
  index < m.splitPacketCount ∧
    ∃ number, TransmittedMessage.ReadAs (m.sentFragment index number) f

theorem sentFragment_split (m : SplitMessage) (index : ℕ) (number : Uint24) :
    (m.sentFragment index number).splitPacketCount = m.splitPacketCount ∧
      (m.sentFragment index number).splitPacketId = m.splitPacketId ∧
      (m.sentFragment index number).splitPacketIndex = index := by
  refine ⟨?_, rfl, rfl⟩
  show (bitsToBytes m.packet.dataBitLength - 1) / m.blockBytes + 1 = _
  rw [← m.length_payload]
  rfl

theorem Arrives.split {f : Fragment} (h : m.Arrives index f) :
    f.splitPacketCount = m.splitPacketCount ∧ f.splitPacketId = m.splitPacketId ∧
      f.splitPacketIndex = index := by
  obtain ⟨hindex, number, hread⟩ := h
  obtain ⟨hcount, hid, hat⟩ := m.sentFragment_split index number
  have hsplit := hread.split_eq (by rw [hcount]; exact Nat.succ_pos _)
  exact ⟨hread.splitPacketCount_eq.trans hcount, hsplit.1.trans hid, hsplit.2.trans hat⟩

theorem Arrives.parsed {f : Fragment} (h : m.Arrives index f) : Parsed f := by
  obtain ⟨hcount, hid, hat⟩ := h.split
  obtain ⟨hindex, number, hread⟩ := h
  obtain ⟨hpos, hle, hbytes⟩ := bytes_fragment hindex number
  have hdata : f.payload = (m.sentFragment index number).payload := by
    rw [TransmittedMessage.payload, hread.data_eq, hread.dataBitLength_eq]
    exact List.take_of_length_le (List.length_take_le _ _)
  constructor
  · rw [hread.dataBitLength_eq]
    exact hpos
  · rw [hread.dataBitLength_eq]
    omega
  · rw [hdata, hread.dataBitLength_eq, hbytes, payload_fragment hindex, List.length_take,
      List.length_drop, Nat.min_comm]
  · rw [hat, hcount]
    exact hindex
  · rw [hcount]
    exact m.splitPacketCount_le
  · rw [hread.dataBitLength_eq, hat, hcount]
    exact fragment_aligned hindex number

/-- The packet that is put together has the payload of the message, the fields of its first
fragment as this was inserted, and those that the reliability transmits as they were sent. -/
structure Rebuilt (m : SplitMessage) (first : Fragment) (p : TransmittedMessage) : Prop where
  data_eq : p.data = m.payload
  inserted_eq : p.reliability = first.reliability ∧ p.orderingChannel = first.orderingChannel ∧
    p.orderingIndex = first.orderingIndex ∧ p.sequencingIndex = first.sequencingIndex
  reliability_eq : p.reliability = m.packet.reliability.onWire
  channel_eq : TransmittedMessage.hasChannel m.packet.reliability = true →
    p.orderingChannel = m.packet.orderingChannel ∧ p.orderingIndex = m.packet.orderingIndex
  sequencingIndex_eq : m.packet.reliability.isSequenced = true →
    p.sequencingIndex = m.packet.sequencingIndex

end SplitMessage

open SplitPacketChannelList SplitPacketChannel

theorem designateChannel_of_hasChannel {f : Fragment} {r : PacketReliability}
    (hr : f.reliability = r.onWire) (h : TransmittedMessage.hasChannel r = true) :
    designateChannel f = f := by
  unfold designateChannel
  apply if_neg
  rw [hr]
  cases r <;> first | decide | cases h

theorem payload_designateChannel (f : Fragment) : (designateChannel f).payload = f.payload := by
  rw [designateChannel_eq]
  rfl

theorem flatMap_eq_range {α β : Type*} {l : List α} {g : α → List β} {h : ℕ → List β}
    (heq : ∀ j a, l[j]? = some a → g a = h j) :
    l.flatMap g = (List.range l.length).flatMap h := by
  have hmap : l.map g = (List.range l.length).map h := by
    apply List.ext_getElem?
    intro j
    rw [List.getElem?_map, List.getElem?_map]
    by_cases hj : j < l.length
    · have hat := List.getElem?_eq_getElem hj
      rw [hat, List.getElem?_range hj, Option.map_some, Option.map_some, heq j _ hat]
    · rw [List.getElem?_eq_none (Nat.le_of_not_lt hj), List.getElem?_eq_none
        (by rw [List.length_range]; exact Nat.le_of_not_lt hj)]
      rfl
  rw [List.flatMap_def, hmap, ← List.flatMap_def]

theorem totals {m : SplitMessage} {fs : List Fragment} (hlen : fs.length = m.splitPacketCount)
    (harrive : ∀ j f, fs[j]? = some f → ∃ g, m.Arrives j g ∧ f = designateChannel g) :
    fs.flatMap TransmittedMessage.payload = m.payload ∧
      totalByteLength fs = m.payload.length ∧
      totalBitLength fs ≤ 8 * m.payload.length := by
  have hparsed : ∀ f ∈ fs, Parsed f := by
    intro f hf
    obtain ⟨j, hj⟩ := List.getElem?_of_mem hf
    obtain ⟨g, hg, rfl⟩ := harrive j f hj
    exact designateChannel_parsed hg.parsed
  have hpayload : fs.flatMap TransmittedMessage.payload = m.payload := by
    rw [← m.payloads_eq fun _ => 0, ← hlen]
    apply flatMap_eq_range
    intro j f hj
    obtain ⟨g, ⟨hindex, number, hread⟩, rfl⟩ := harrive j f hj
    rw [payload_designateChannel, SplitMessage.payload_fragment hindex,
      ← SplitMessage.payload_fragment hindex number, TransmittedMessage.payload, hread.data_eq,
      hread.dataBitLength_eq]
    exact List.take_of_length_le (List.length_take_le _ _)
  have hbytes : (fs.map fun f => bitsToBytes f.dataBitLength).sum = m.payload.length := by
    rw [← hpayload, List.length_flatMap]
    congr 1
    apply List.map_congr_left
    intro f hf
    exact (hparsed f hf).length_payload.symm
  have hmax : m.payload.length ≤ maxSplitPacketCount * 1460 :=
    Nat.le_trans m.splitPacketCount_bounds.2
      (Nat.mul_le_mul m.splitPacketCount_le m.blockBytes_bounds.2)
  unfold maxSplitPacketCount at hmax
  have hbits : (fs.map fun f => f.dataBitLength).sum ≤ 8 * m.payload.length := by
    rw [← hbytes, ← List.sum_map_mul_left]
    apply List.sum_le_sum
    intro f hf
    have hle := (hparsed f hf).dataBitLength_le
    unfold bitsToBytes
    omega
  refine ⟨hpayload, ?_, ?_⟩
  · unfold totalByteLength
    rw [hbytes, Nat.mod_eq_of_lt (by omega)]
  · exact Nat.le_trans (Nat.mod_le _ _) hbits

theorem rebuilt_message {m : SplitMessage} {first : Fragment} {fs : List Fragment}
    (hlen : (first :: fs).length = m.splitPacketCount)
    (harrive : ∀ j f, (first :: fs)[j]? = some f → ∃ g, m.Arrives j g ∧ f = designateChannel g) :
    ∃ p, rebuilt first (first :: fs) = some p ∧ m.Rebuilt first p := by
  obtain ⟨hpayload, hbytes, hbits⟩ := totals hlen harrive
  have hmax : m.payload.length ≤ maxSplitPacketCount * 1460 :=
    Nat.le_trans m.splitPacketCount_bounds.2
      (Nat.mul_le_mul m.splitPacketCount_le m.blockBytes_bounds.2)
  have hfits : ¬ (totalBitLength (first :: fs) > maxSplitPacketCount * (1492 * 8) ∨
      totalByteLength (first :: fs) > maxSplitPacketCount * 1492) := by
    rw [hbytes]
    unfold maxSplitPacketCount at *
    omega
  obtain ⟨g, ⟨hindex, number, hread⟩, rfl⟩ := harrive 0 first rfl
  have hreliability : g.reliability = m.packet.reliability.onWire := hread.reliability_eq
  refine ⟨_, if_neg hfits, ?_⟩
  constructor
  · exact hpayload
  · exact ⟨rfl, rfl, rfl, rfl⟩
  · show (designateChannel g).reliability = _
    rw [designateChannel_eq]
    exact hreliability
  · intro hchannel
    obtain ⟨hindex, hat⟩ := hread.channel_eq hchannel
    show (designateChannel g).orderingChannel = _ ∧ (designateChannel g).orderingIndex = _
    rw [designateChannel_of_hasChannel hreliability hchannel]
    exact ⟨hat, hindex⟩
  · intro hsequenced
    show (designateChannel g).sequencingIndex = _
    rw [designateChannel_eq]
    exact hread.sequencingIndex_eq hsequenced

theorem receiveAll_concat {s t u : SplitPacketChannelList} {arrivals : List (Fragment × ℕ)}
    {a : Fragment × ℕ} {r : Option TransmittedMessage} (h : s.receiveAll arrivals = some t)
    (hreceive : t.receive a.1 a.2 = some (r, u)) : s.receiveAll (arrivals ++ [a]) = some u := by
  induction arrivals generalizing s with
  | nil =>
    obtain rfl := Option.some.inj h
    rw [List.nil_append, receiveAll, hreceive]
    rfl
  | cons b arrivals ih =>
    rw [receiveAll] at h
    rw [List.cons_append, receiveAll]
    split at h
    · cases h
    · exact ih h

/-- Messages with different ids, and the fragments of each as they arrive. -/
structure Traffic (ι : Type*) where
  messages : ι → SplitMessage
  received : ι × ℕ → Fragment
  time : ι × ℕ → ℕ
  ids_injective : Function.Injective fun k => (messages k).splitPacketId
  arrives : ∀ k index, index < (messages k).splitPacketCount →
    (messages k).Arrives index (received (k, index))

namespace Traffic

variable {ι : Type*} [DecidableEq ι] {traffic : Traffic ι} {arrived : List (ι × ℕ)}
  {s t : SplitPacketChannelList}

/-- The state after the fragments have arrived one after another. -/
def run (traffic : Traffic ι) (splitMessageProgressInterval : ℕ) (arrived : List (ι × ℕ)) :
    Option SplitPacketChannelList :=
  (initial splitMessageProgressInterval).receiveAll
    (arrived.map fun a => (traffic.received a, traffic.time a))

/-- No number is accepted twice, and every number is one of a fragment. -/
structure Accepted (traffic : Traffic ι) (arrived : List (ι × ℕ)) : Prop where
  nodup : arrived.Nodup
  index_lt : ∀ a ∈ arrived, a.2 < (traffic.messages a.1).splitPacketCount

def Complete (traffic : Traffic ι) (arrived : List (ι × ℕ)) (k : ι) : Prop :=
  ∀ index < (traffic.messages k).splitPacketCount, (k, index) ∈ arrived

/-- The slots of a message's channel after some of its fragments have arrived. -/
def slots (traffic : Traffic ι) (arrived : List (ι × ℕ)) (k : ι) : List (Option Fragment) :=
  (List.range (traffic.messages k).splitPacketCount).map fun index =>
    if (k, index) ∈ arrived then some (designateChannel (traffic.received (k, index))) else none

/-- The channels are those of the messages of which some but not all fragments have arrived,
and their slots hold these fragments. -/
structure Pending (traffic : Traffic ι) (arrived : List (ι × ℕ)) (s : SplitPacketChannelList) :
    Prop where
  safe : s.Safe
  channel : ∀ c ∈ s.channels, ∃ k, c.packetId = (traffic.messages k).splitPacketId ∧
    c.splitPacketList.data = traffic.slots arrived k ∧ ¬ traffic.Complete arrived k
  present : ∀ a ∈ arrived, ¬ traffic.Complete arrived a.1 →
    ∃ c ∈ s.channels, c.packetId = (traffic.messages a.1).splitPacketId

theorem length_slots (traffic : Traffic ι) (arrived : List (ι × ℕ)) (k : ι) :
    (traffic.slots arrived k).length = (traffic.messages k).splitPacketCount := by
  rw [slots, List.length_map, List.length_range]

theorem getElem?_slots (traffic : Traffic ι) (arrived : List (ι × ℕ)) {k : ι} {index : ℕ}
    (h : index < (traffic.messages k).splitPacketCount) :
    (traffic.slots arrived k)[index]? = some
      (if (k, index) ∈ arrived then some (designateChannel (traffic.received (k, index)))
        else none) := by
  rw [slots, List.getElem?_map, List.getElem?_range h]
  rfl

theorem slots_other {a : ι × ℕ} {k : ι} (hk : k ≠ a.1) :
    traffic.slots (arrived ++ [a]) k = traffic.slots arrived k := by
  apply List.map_congr_left
  intro index _
  have hne : (k, index) ≠ a := fun he => hk (he ▸ rfl)
  simp only [List.mem_append, List.mem_singleton, hne, or_false]

omit [DecidableEq ι] in
theorem complete_other {a : ι × ℕ} {k : ι} (hk : k ≠ a.1) :
    traffic.Complete (arrived ++ [a]) k ↔ traffic.Complete arrived k := by
  apply forall_congr'
  intro index
  apply imp_congr_right
  intro _
  have hne : (k, index) ≠ a := fun he => hk (he ▸ rfl)
  simp only [List.mem_append, List.mem_singleton, hne, or_false]

theorem slots_self {a : ι × ℕ} :
    traffic.slots (arrived ++ [a]) a.1 =
      (traffic.slots arrived a.1).set a.2 (some (designateChannel (traffic.received a))) := by
  apply List.ext_getElem?
  intro index
  by_cases hindex : index < (traffic.messages a.1).splitPacketCount
  · rw [getElem?_slots _ _ hindex, List.getElem?_set]
    by_cases hat : a.2 = index
    · subst hat
      have hmem : (a.1, a.2) ∈ arrived ++ [a] := by simp
      rw [if_pos hmem, if_pos rfl, if_pos (by rw [length_slots]; exact hindex)]
    · have hne : (a.1, index) ≠ a := fun he => hat (he ▸ rfl)
      rw [if_neg hat, getElem?_slots _ _ hindex]
      simp only [List.mem_append, List.mem_singleton, hne, or_false]
  · rw [List.getElem?_eq_none, List.getElem?_eq_none]
    · rw [List.length_set, length_slots]
      omega
    · rw [length_slots]
      omega

theorem allPacketsAdded_iff {c : SplitPacketChannel} {k : ι} (h : c.splitPacketList.WellFormed)
    (hdata : c.splitPacketList.data = traffic.slots arrived k) :
    c.splitPacketList.allPacketsAdded = true ↔ traffic.Complete arrived k := by
  have hadded : c.splitPacketList.allPacketsAdded = true ↔
      ∀ o ∈ c.splitPacketList.data, o.isSome := by
    rw [← List.countP_eq_length, ← h.added_eq, h.length_eq]
    exact beq_iff_eq.trans eq_comm
  rw [hadded, hdata]
  constructor
  · intro hall index hindex
    have hsome := hall _ (List.mem_of_getElem? (getElem?_slots traffic arrived hindex))
    by_contra hnot
    rw [if_neg hnot] at hsome
    cases hsome
  · intro hcomplete o ho
    obtain ⟨index, hindex, rfl⟩ := List.mem_map.mp ho
    rw [if_pos (hcomplete index (List.mem_range.mp hindex))]
    rfl

theorem Pending.slotsAfter {a : ι × ℕ} (h : Pending traffic arrived s)
    (ha : Accepted traffic (arrived ++ [a])) {xs ys : List SplitPacketChannel}
    {c : SplitPacketChannel}
    (hold : s.channels = xs ++ c :: ys ∨ s.channels = xs ++ ys ∧
      c = newChannel (designateChannel (traffic.received a)) (traffic.time a))
    (hother : ∀ d ∈ xs ++ ys, d.packetId ≠ (traffic.messages a.1).splitPacketId)
    (hid : c.packetId = (traffic.messages a.1).splitPacketId) :
    SplitPacketChannelList.slotsAfter c (designateChannel (traffic.received a)) =
      traffic.slots (arrived ++ [a]) a.1 := by
  have hindex := ha.index_lt a (by simp)
  have hnew : a ∉ arrived := fun hmem =>
    (List.disjoint_of_nodup_append ha.nodup) hmem (List.mem_singleton_self a)
  obtain ⟨hcount, -, hat⟩ := (traffic.arrives a.1 a.2 hindex).split
  have hcount' : (designateChannel (traffic.received a)).splitPacketCount =
      (traffic.messages a.1).splitPacketCount := by rw [designateChannel_eq]; exact hcount
  have hat' : (designateChannel (traffic.received a)).splitPacketIndex = a.2 := by
    rw [designateChannel_eq]; exact hat
  have hnotComplete : ¬ traffic.Complete arrived a.1 := fun hall => hnew (hall a.2 hindex)
  have hslots : c.splitPacketList.data = traffic.slots arrived a.1 ∧
      c.splitPacketList.allocationSize = (traffic.messages a.1).splitPacketCount := by
    rcases hold with hold | ⟨hold, rfl⟩
    · obtain ⟨k, hk, hdata, -⟩ := h.channel c (by simp [hold])
      obtain rfl : k = a.1 := traffic.ids_injective (hk.symm.trans hid)
      refine ⟨hdata, ?_⟩
      rw [← (h.safe.wellFormed c (by simp [hold])).length_eq, hdata, length_slots]
    · refine ⟨?_, hcount'⟩
      -- a fragment that arrived before would have left a channel with this id
      have hnone : ∀ index, (a.1, index) ∉ arrived := by
        intro index hmem
        obtain ⟨d, hd, hdid⟩ := h.present _ hmem hnotComplete
        exact hother d (hold ▸ hd) hdid
      show List.replicate _ none = _
      rw [hcount', slots, eq_comm, List.eq_replicate_iff]
      refine ⟨by rw [List.length_map, List.length_range], ?_⟩
      intro o ho
      obtain ⟨index, -, rfl⟩ := List.mem_map.mp ho
      exact if_neg (hnone index)
  have hfree : (traffic.slots arrived a.1)[a.2]? = some none := by
    rw [getElem?_slots _ _ hindex, if_neg hnew]
  rw [slots_self, SplitPacketChannelList.slotsAfter, if_pos (hcount'.trans hslots.2.symm),
    SplitPacketSort.filled, hat', hslots.1, if_pos hfree]

theorem Pending.rest {a : ι × ℕ} (h : Pending traffic arrived s) {xs ys : List SplitPacketChannel}
    (hsub : ∀ d ∈ xs ++ ys, d ∈ s.channels)
    (hother : ∀ d ∈ xs ++ ys, d.packetId ≠ (traffic.messages a.1).splitPacketId) :
    ∀ d ∈ xs ++ ys, ∃ k, d.packetId = (traffic.messages k).splitPacketId ∧
      d.splitPacketList.data = traffic.slots (arrived ++ [a]) k ∧
      ¬ traffic.Complete (arrived ++ [a]) k := by
  intro d hd
  obtain ⟨k, hk, hdata, hnot⟩ := h.channel d (hsub d hd)
  have hne : k ≠ a.1 := fun he => hother d hd (he ▸ hk)
  exact ⟨k, hk, hdata.trans (slots_other hne).symm, fun hall => hnot ((complete_other hne).mp hall)⟩

theorem arrives_of_slots {k : ι} {fs : List Fragment}
    (hdata : fs.map some = traffic.slots arrived k) :
    fs.length = (traffic.messages k).splitPacketCount ∧
      ∀ j f, fs[j]? = some f → (traffic.messages k).Arrives j (traffic.received (k, j)) ∧
        f = designateChannel (traffic.received (k, j)) := by
  have hlen : fs.length = (traffic.messages k).splitPacketCount := by
    rw [← length_slots traffic arrived k, ← hdata, List.length_map]
  refine ⟨hlen, ?_⟩
  intro j f hf
  have hindex : j < (traffic.messages k).splitPacketCount := by
    rw [← hlen]
    exact (List.getElem?_eq_some_iff.mp hf).1
  have hslot := getElem?_slots traffic arrived hindex
  rw [← hdata, List.getElem?_map, hf] at hslot
  refine ⟨traffic.arrives k j hindex, ?_⟩
  have hslot := Option.some.inj hslot
  split at hslot
  · exact Option.some.inj hslot
  · cases hslot

/-- One fragment arrives: only the last one that is missing has a packet built, from all the
fragments of its message in their order. -/
theorem Pending.receive_built {a : ι × ℕ} (h : Pending traffic arrived s)
    (ha : Accepted traffic (arrived ++ [a])) :
    ∃ r t, s.receive (traffic.received a) (traffic.time a) = some (r, t) ∧
      Pending traffic (arrived ++ [a]) t ∧
      (traffic.Complete (arrived ++ [a]) a.1 →
        ∃ f fs, (f :: fs).length = (traffic.messages a.1).splitPacketCount ∧
          (∀ j g, (f :: fs)[j]? = some g →
            (traffic.messages a.1).Arrives j (traffic.received (a.1, j)) ∧
              g = designateChannel (traffic.received (a.1, j))) ∧
          r = rebuilt f (f :: fs)) ∧
      (¬ traffic.Complete (arrived ++ [a]) a.1 → r = none) := by
  have harrive := traffic.arrives a.1 a.2 (ha.index_lt a (by simp))
  have hreceived : (traffic.received a).splitPacketId = (traffic.messages a.1).splitPacketId :=
    harrive.split.2.1
  obtain ⟨t, xs, c, c', ys, hinsert, hsafe, hchannels, hold, hid, hid', -, hdata⟩ :=
    insert_spec h.safe (designateChannel_parsed harrive.parsed) (traffic.time a)
  rw [designateChannel_eq] at hid hid'
  replace hid : c.packetId = (traffic.messages a.1).splitPacketId := hid.trans hreceived
  replace hid' : c'.packetId = (traffic.messages a.1).splitPacketId := hid'.trans hreceived
  have hother : ∀ d ∈ xs ++ ys, d.packetId ≠ (traffic.messages a.1).splitPacketId := by
    have hsorted := List.pairwise_append.mp (hchannels ▸ hsafe.sorted)
    intro d hd
    rw [← hid']
    rcases List.mem_append.mp hd with hd | hd
    · exact Nat.ne_of_lt (hsorted.2.2 d hd c' List.mem_cons_self)
    · exact Nat.ne_of_gt ((List.pairwise_cons.mp hsorted.2.1).1 d hd)
  have hsub : ∀ d ∈ xs ++ ys, d ∈ s.channels := by
    rcases hold with hold | ⟨hold, -⟩
    · rw [hold]
      exact ((List.Sublist.refl xs).append (List.sublist_cons_self c ys)).subset
    · rw [hold]
      exact fun d hd => hd
  have hrest := h.rest hsub hother
  have hpresent : ∀ b ∈ arrived ++ [a], b.1 ≠ a.1 → ¬ traffic.Complete (arrived ++ [a]) b.1 →
      ∃ d ∈ xs ++ ys, d.packetId = (traffic.messages b.1).splitPacketId := by
    intro b hb hne hnot
    have hb : b ∈ arrived := by
      rcases List.mem_append.mp hb with hb | hb
      · exact hb
      · exact absurd (congrArg Prod.fst (List.mem_singleton.mp hb)) hne
    obtain ⟨d, hd, hdid⟩ :=
      h.present b hb fun hall => hnot ((complete_other hne).mpr hall)
    refine ⟨d, ?_, hdid⟩
    rcases hold with hold | ⟨hold, -⟩
    · rw [hold] at hd
      rcases List.mem_append.mp hd with hd | hd
      · exact List.mem_append_left _ hd
      · rcases List.mem_cons.mp hd with rfl | hd
        · exact absurd (traffic.ids_injective (hdid.symm.trans hid)) hne
        · exact List.mem_append_right _ hd
    · exact hold ▸ hd
  replace hdata := hdata.trans (h.slotsAfter ha hold hother hid)
  have hwell := hsafe.wellFormed c' (by simp [hchannels])
  have hcomplete := allPacketsAdded_iff hwell hdata
  obtain ⟨hbuilds, hwaits⟩ := build_spec hsafe hchannels
  rw [hid', ← hreceived] at hbuilds hwaits
  unfold SplitPacketChannelList.receive
  rw [hinsert]
  dsimp only
  cases hadded : c'.splitPacketList.allPacketsAdded with
  | true =>
    have hall := hcomplete.mp hadded
    obtain ⟨f, fs, hfs, hbuild⟩ := hbuilds hadded
    obtain ⟨hlen, harrives⟩ := arrives_of_slots (hfs.symm.trans hdata)
    refine ⟨_, _, hbuild, ?_, fun _ => ⟨f, fs, hlen, harrives, rfl⟩, fun hnot => absurd hall hnot⟩
    refine ⟨hsafe.erase hchannels, hrest, ?_⟩
    intro b hb hnot
    by_cases hb1 : b.1 = a.1
    · exact absurd (hb1 ▸ hall) hnot
    · exact hpresent b hb hb1 hnot
  | false =>
    have hnot : ¬ traffic.Complete (arrived ++ [a]) a.1 := fun hall => by
      rw [hcomplete.mpr hall] at hadded
      cases hadded
    refine ⟨none, t, hwaits hadded, ?_, fun hall => absurd hall hnot, fun _ => rfl⟩
    refine ⟨hsafe, ?_, ?_⟩
    · intro d hd
      rw [hchannels] at hd
      rcases List.mem_append.mp hd with hd | hd
      · exact hrest d (List.mem_append_left _ hd)
      · rcases List.mem_cons.mp hd with rfl | hd
        · exact ⟨a.1, hid', hdata, hnot⟩
        · exact hrest d (List.mem_append_right _ hd)
    · intro b hb hnotb
      rw [hchannels]
      by_cases hb1 : b.1 = a.1
      · exact ⟨c', by simp, by rw [hb1, hid']⟩
      · obtain ⟨d, hd, hdid⟩ := hpresent b hb hb1 hnotb
        exact ⟨d, by simp at hd ⊢; tauto, hdid⟩

theorem Pending.receive {a : ι × ℕ} (h : Pending traffic arrived s)
    (ha : Accepted traffic (arrived ++ [a])) :
    ∃ r t, s.receive (traffic.received a) (traffic.time a) = some (r, t) ∧
      Pending traffic (arrived ++ [a]) t ∧
      (traffic.Complete (arrived ++ [a]) a.1 →
        ∃ p, r = some p ∧
          (traffic.messages a.1).Rebuilt (designateChannel (traffic.received (a.1, 0))) p) ∧
      (¬ traffic.Complete (arrived ++ [a]) a.1 → r = none) := by
  obtain ⟨r, t, hreceive, hpending, hbuilt, hwaits⟩ := h.receive_built ha
  refine ⟨r, t, hreceive, hpending, fun hall => ?_, hwaits⟩
  obtain ⟨f, fs, hlen, harrives, rfl⟩ := hbuilt hall
  obtain ⟨p, hp, hrebuilt⟩ := rebuilt_message hlen fun j g hg => ⟨_, harrives j g hg⟩
  rw [(harrives 0 f rfl).2] at hrebuilt
  exact ⟨p, hp, hrebuilt⟩

omit [DecidableEq ι] in
theorem Accepted.left {arrived arrived' : List (ι × ℕ)}
    (h : Accepted traffic (arrived ++ arrived')) : Accepted traffic arrived :=
  ⟨(List.nodup_append.mp h.nodup).1, fun a ha => h.index_lt a (List.mem_append_left _ ha)⟩

theorem run_pending (traffic : Traffic ι) (splitMessageProgressInterval : ℕ)
    (arrived : List (ι × ℕ)) (h : Accepted traffic arrived) :
    ∃ s, traffic.run splitMessageProgressInterval arrived = some s ∧
      Pending traffic arrived s := by
  induction arrived using List.reverseRecOn with
  | nil =>
    refine ⟨initial splitMessageProgressInterval, rfl, initial_safe _, ?_, ?_⟩
    · intro c hc
      cases hc
    · intro a ha
      cases ha
  | append_singleton arrived a ih =>
    obtain ⟨s, hrun, hpending⟩ := ih h.left
    obtain ⟨r, t, hreceive, hpending, -, -⟩ := hpending.receive h
    refine ⟨t, ?_, hpending⟩
    rw [run, List.map_append]
    exact receiveAll_concat hrun hreceive

/-- Whatever fragments have arrived, in whatever order, the next one yields a packet exactly if
it is the last one of its message, and then the packet is the message and its channel is gone. -/
theorem split_reassembled (traffic : Traffic ι) (splitMessageProgressInterval : ℕ)
    (arrived : List (ι × ℕ)) (a : ι × ℕ) (h : Accepted traffic (arrived ++ [a])) :
    ∃ s r t, traffic.run splitMessageProgressInterval arrived = some s ∧
      s.receive (traffic.received a) (traffic.time a) = some (r, t) ∧
      (¬ traffic.Complete (arrived ++ [a]) a.1 → r = none) ∧
      (traffic.Complete (arrived ++ [a]) a.1 →
        (∃ p, r = some p ∧
          (traffic.messages a.1).Rebuilt (designateChannel (traffic.received (a.1, 0))) p) ∧
          ∀ c ∈ t.channels, c.packetId ≠ (traffic.messages a.1).splitPacketId) := by
  obtain ⟨s, hrun, hpending⟩ := traffic.run_pending splitMessageProgressInterval arrived h.left
  obtain ⟨r, t, hreceive, hpending, hbuilt, hwaits⟩ := hpending.receive h
  refine ⟨s, r, t, hrun, hreceive, hwaits, fun hall => ⟨hbuilt hall, ?_⟩⟩
  intro c hc hid
  obtain ⟨k, hk, -, hnot⟩ := hpending.channel c hc
  obtain rfl : k = a.1 := traffic.ids_injective (hk.symm.trans hid)
  exact hnot hall

/-- The smallest blocks there are: the two bytes travel apart, and the second one is faster. -/
def twoBytes : SplitMessage where
  layer := .initial ⟨33, Nat.le_refl 33, by decide⟩ 0 0 10000
  packet :=
    ReliabilityLayer.newPacket ⟨[72, 105], 16, .high, .reliableWithAckReceipt, 0, 0, 7, by decide⟩
      .reliableWithAckReceipt
  payload := [72, 105]
  data_eq := rfl
  length_payload := rfl
  payload_pos := by decide
  dataBitLength_lt := by decide
  count_le := by decide

theorem twoBytes_splitPacketCount : twoBytes.splitPacketCount = 2 := by
  decide

def twoBytesTraffic : Traffic Unit where
  messages _ := twoBytes
  received a := (twoBytes.sentFragment a.2 ⟨a.2 % 2 ^ 24, Nat.mod_lt _ (by decide)⟩).onWire
  time a := a.2
  ids_injective := fun _ _ _ => rfl
  arrives _ index h := ⟨h, _, TransmittedMessage.onWire_readAs _⟩

theorem twoBytes_reassembled :
    ∃ s r t, twoBytesTraffic.run 0 [((), 1)] = some s ∧
      s.receive (twoBytesTraffic.received ((), 0)) 0 = some (r, t) ∧
      (¬ twoBytesTraffic.Complete [((), 1), ((), 0)] () → r = none) ∧
      (twoBytesTraffic.Complete [((), 1), ((), 0)] () →
        (∃ p, r = some p ∧
          twoBytes.Rebuilt (designateChannel (twoBytesTraffic.received ((), 0))) p) ∧
          ∀ c ∈ t.channels, c.packetId ≠ 0) := by
  have haccepted : Accepted twoBytesTraffic ([((), 1)] ++ [((), 0)]) := by
    refine ⟨by decide, ?_⟩
    intro a ha
    rw [show (twoBytesTraffic.messages a.1).splitPacketCount = 2 from twoBytes_splitPacketCount]
    rcases List.mem_cons.mp ha with rfl | ha
    · exact Nat.one_lt_two
    · rw [List.mem_singleton.mp ha]
      exact Nat.two_pos
  exact split_reassembled twoBytesTraffic 0 [((), 1)] ((), 0) haccepted

end Traffic

end SLikeNet
