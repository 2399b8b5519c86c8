import SLikeNet.SplitPacketSort
import Mathlib.Algebra.Order.BigOperators.Group.List
import Mathlib.Algebra.Order.Group.Nat

/-! Reassembly is safe: whatever fragments the parser lets through, no access leaves an array,
and the copy fills the new buffer exactly. -/

namespace SLikeNet

/-- A fragment that `CreateInternalPacketFromBitStream` lets through. -/
structure Parsed (f : Fragment) : Prop where
  dataBitLength_pos : 1 ≤ f.dataBitLength
  dataBitLength_le : f.dataBitLength ≤ 65535
  length_payload : f.payload.length = bitsToBytes f.dataBitLength
  splitPacketIndex_lt : f.splitPacketIndex < f.splitPacketCount
  splitPacketCount_le : f.splitPacketCount ≤ maxSplitPacketCount
  interior_aligned : f.dataBitLength % 8 = 0 ∨ f.splitPacketIndex + 1 = f.splitPacketCount

theorem length_bytesOf (n : ℕ) (bits : List Bool) :
    (TransmittedMessage.bytesOf n bits).length = n := by
  induction n generalizing bits with
  | zero => rfl
  | succ n ih => rw [TransmittedMessage.bytesOf, List.length_cons, ih]

theorem readSplit_of_not {hasSplitPacket : Bool} (h : ¬ hasSplitPacket = true) (readSuccess : Bool)
    (r : BitStream.Reader) :
    (TransmittedMessage.readSplit hasSplitPacket readSuccess r).1.1 = 0 := by
  unfold TransmittedMessage.readSplit
  rw [if_neg h]

/-- What `CreateInternalPacketFromBitStream` returns with split fields is a parsed fragment. -/
theorem create_parsed {pool : TransmissionHeader} {r : BitStream.Reader} {f : Fragment}
    (h : (TransmittedMessage.create pool r).1 = some f) (hsplit : f.splitPacketCount > 0) :
    Parsed f := by
  unfold TransmittedMessage.create at h
  split at h
  · cases h
  generalize hheader : TransmittedMessage.readHeader pool r = header at h
  dsimp only at h
  split at h
  · rename_i hvalid
    obtain ⟨bytes, hbytes, rfl⟩ := Option.map_eq_some_iff.mp h
    obtain ⟨bits, -, rfl⟩ := Option.map_eq_some_iff.mp hbytes
    have hlt : header.1.1.dataBitLength < 2 ^ 16 := by
      rw [← hheader]
      show (Option.getD _ 0) < 2 ^ 16
      generalize hread : Prod.fst (BitStream.Reader.readNat _ 16) = length
      cases length with
      | none => exact Nat.two_pow_pos 16
      | some n => exact BitStream.Reader.readNat_lt hread
    have hhas : header.1.1.splitPacketCount > 0 → header.1.2.1 = true := by
      rw [← hheader]
      intro hpos
      by_contra hnot
      have hzero : (TransmittedMessage.readHeader pool r).1.1.splitPacketCount = 0 := by
        show (TransmittedMessage.readSplit _ _ _).1.1 = 0
        exact readSplit_of_not hnot _ _
      omega
    simp only [TransmittedMessage.validates, Bool.and_eq_true, Bool.or_eq_true, decide_eq_true_eq,
      Bool.not_eq_true', hhas hsplit, Bool.true_eq_false, false_or] at hvalid
    obtain ⟨⟨⟨-, hne⟩, -⟩, ⟨hindex, hcount⟩, haligned⟩ := hvalid
    refine ⟨Nat.one_le_iff_ne_zero.mpr hne, Nat.le_of_lt_succ hlt, ?_, hindex, hcount, haligned⟩
    show (List.take (bitsToBytes header.1.1.dataBitLength) _).length = _
    rw [List.length_take, length_bytesOf, Nat.min_self]
  · cases h

namespace SplitPacketSort

/-- The slots hold fragments of one message, and the counters agree with them. -/
structure WellFormed (s : SplitPacketSort) : Prop where
  length_eq : s.data.length = s.allocationSize
  added_eq : s.addedPacketsCount = s.data.countP Option.isSome
  allocationSize_pos : 0 < s.allocationSize
  allocationSize_le : s.allocationSize ≤ maxSplitPacketCount
  parsed : ∀ (j : ℕ) (f : Fragment), s.data[j]? = some (some f) → Parsed f

theorem WellFormed.added_le {s : SplitPacketSort} (h : s.WellFormed) :
    s.addedPacketsCount ≤ s.allocationSize := by
  rw [h.added_eq, ← h.length_eq]
  exact List.countP_le_length

theorem WellFormed.parsed_of_data {s : SplitPacketSort} (h : s.WellFormed) {fs : List Fragment}
    (hdata : s.data = fs.map some) : ∀ f ∈ fs, Parsed f := by
  intro f hf
  have hmem : some f ∈ s.data := by
    rw [hdata]
    exact List.mem_map_of_mem hf
  obtain ⟨j, hj⟩ := List.getElem?_of_mem hmem
  exact h.parsed j f hj

theorem preallocate_wellFormed {f : Fragment} (hf : Parsed f) : (preallocate f).WellFormed where
  length_eq := List.length_replicate
  added_eq := by
    show 0 = (List.replicate f.splitPacketCount none).countP Option.isSome
    rw [List.countP_replicate]
    rfl
  allocationSize_pos := Nat.zero_lt_of_lt hf.splitPacketIndex_lt
  allocationSize_le := hf.splitPacketCount_le
  parsed j g hg := by
    obtain ⟨-, hg⟩ := List.mem_replicate.mp (List.mem_of_getElem? hg)
    cases hg

/-- The slots after `Add`, which fills a free slot only. -/
def filled (s : SplitPacketSort) (f : Fragment) : List (Option Fragment) :=
  if s.data[f.splitPacketIndex]? = some none then s.data.set f.splitPacketIndex (some f)
  else s.data

theorem add_spec {s : SplitPacketSort} (h : s.WellFormed) {f : Fragment} (hf : Parsed f)
    (hid : s.packetId = f.splitPacketId) (hcount : f.splitPacketCount = s.allocationSize) :
    ∃ added t, s.add f = some (added, t) ∧
      (if added then t else s).WellFormed ∧
      (if added then t else s).data = s.filled f ∧
      (if added then t else s).packetId = s.packetId ∧
      (if added then t else s).allocationSize = s.allocationSize := by
  have hlt : f.splitPacketIndex < s.data.length := by
    rw [h.length_eq, ← hcount]
    exact hf.splitPacketIndex_lt
  have hslot := List.getElem?_eq_getElem hlt
  have hcheck : ¬ (f.splitPacketIndex ≥ s.allocationSize ∨ s.packetId ≠ f.splitPacketId) := by
    rw [← h.length_eq, not_or, not_not]
    exact ⟨Nat.not_le_of_lt hlt, hid⟩
  unfold add filled
  rw [if_neg hcheck]
  generalize hcontent : s.data[f.splitPacketIndex] = content at hslot
  rw [hslot]
  cases content with
  | some g => exact ⟨false, s, rfl, h, rfl, rfl, rfl⟩
  | none =>
    refine ⟨true, _, rfl, ?_, rfl, rfl, rfl⟩
    have hadded : s.addedPacketsCount < s.allocationSize := by
      rw [h.added_eq, ← h.length_eq]
      apply Nat.lt_of_le_of_ne List.countP_le_length
      intro hall
      have hsome := List.countP_eq_length.mp hall none (List.mem_of_getElem? hslot)
      cases hsome
    have hmax := h.allocationSize_le
    unfold maxSplitPacketCount at hmax
    constructor
    · show (s.data.set _ _).length = _
      rw [List.length_set]
      exact h.length_eq
    · show (s.addedPacketsCount + 1) % 2 ^ 32 = (s.data.set _ _).countP _
      rw [List.countP_set hlt, hcontent, ← h.added_eq, Nat.mod_eq_of_lt (by omega)]
      rfl
    · exact h.allocationSize_pos
    · exact h.allocationSize_le
    · intro j g hg
      replace hg : (s.data.set f.splitPacketIndex (some f))[j]? = some (some g) := hg
      rw [List.getElem?_set] at hg
      split at hg
      · obtain rfl := Option.some.inj (Option.some.inj hg)
        exact hf
      · exact h.parsed j g hg

theorem fragmentsFrom_eq {s : SplitPacketSort} {fs : List Fragment} {rest : List (Option Fragment)}
    {j : ℕ} (h : s.data.drop j = fs.map some ++ rest) : s.fragmentsFrom fs.length j = some fs := by
  induction fs generalizing j with
  | nil => rfl
  | cons f fs ih =>
    have hget : s.get j = some f := by
      have := congrArg (fun l => l[0]?) h
      simp only [List.getElem?_drop, Nat.add_zero, List.map_cons, List.cons_append,
        List.getElem?_cons_zero] at this
      rw [get, this]
      rfl
    have hnext : s.data.drop (j + 1) = fs.map some ++ rest := by
      rw [← List.drop_drop, h]
      rfl
    rw [List.length_cons, fragmentsFrom, hget]
    show (s.fragmentsFrom fs.length (j + 1)).map _ = _
    rw [ih hnext]
    rfl

theorem eq_map_some {l : List (Option Fragment)} (h : ∀ o ∈ l, o.isSome) :
    l = (l.filterMap id).map some := by
  induction l with
  | nil => rfl
  | cons o l ih =>
    cases o with
    | none =>
      have hnone := h none (by simp)
      cases hnone
    | some f =>
      have hl := ih fun o ho => h o (by simp [ho])
      exact congrArg (some f :: ·) hl

theorem WellFormed.complete {s : SplitPacketSort} (h : s.WellFormed)
    (hadded : s.allPacketsAdded = true) :
    ∃ f fs, s.data = (f :: fs).map some ∧ s.get 0 = some f ∧ s.fragments = some (f :: fs) := by
  have hall : ∀ o ∈ s.data, o.isSome := by
    apply List.countP_eq_length.mp
    rw [← h.added_eq, h.length_eq]
    exact (beq_iff_eq.mp hadded).symm
  have hfs := eq_map_some hall
  generalize s.data.filterMap id = fs at hfs
  have hlen : s.allocationSize = fs.length := by
    rw [← h.length_eq, hfs, List.length_map]
  have hpos := h.allocationSize_pos
  have hfragments : s.fragments = some fs := by
    rw [fragments, hlen]
    apply fragmentsFrom_eq
    rw [hfs, List.append_nil]
    rfl
  cases fs with
  | nil => exact absurd hpos (by rw [hlen]; decide)
  | cons f fs =>
    refine ⟨f, fs, hfs, ?_, hfragments⟩
    rw [get, hfs]
    rfl

end SplitPacketSort

namespace SplitPacketChannel

theorem copyLoop_eq {fs : List Fragment}
    (hpayload : ∀ f ∈ fs, f.payload.length = bitsToBytes f.dataBitLength)
    {byteOffset : ℕ} {buffer : List UInt8}
    (hfits : byteOffset + (fs.map fun f => bitsToBytes f.dataBitLength).sum ≤ buffer.length) :
    copyLoop fs byteOffset buffer =
      some (byteOffset + (fs.map fun f => bitsToBytes f.dataBitLength).sum,
        buffer.take byteOffset ++ fs.flatMap TransmittedMessage.payload ++
          buffer.drop (byteOffset + (fs.map fun f => bitsToBytes f.dataBitLength).sum)) := by
  induction fs generalizing byteOffset buffer with
  | nil =>
    simp only [copyLoop, List.map_nil, List.sum_nil, Nat.add_zero, List.flatMap_nil,
      List.append_nil, List.take_append_drop]
  | cons f fs ih =>
    have hf := hpayload f (by simp)
    rw [List.map_cons, List.sum_cons] at hfits ⊢
    have hroom : byteOffset + f.payload.length ≤ buffer.length := by omega
    have htake : (buffer.take byteOffset).length = byteOffset := by
      rw [List.length_take]
      omega
    have hcopied : (buffer.take byteOffset ++ f.payload).length =
        byteOffset + bitsToBytes f.dataBitLength := by
      rw [List.length_append, htake, hf]
    rw [copyLoop, copyAt, if_pos hroom]
    show copyLoop fs (byteOffset + bitsToBytes f.dataBitLength)
      (buffer.take byteOffset ++ f.payload ++ buffer.drop (byteOffset + f.payload.length)) = _
    rw [ih (fun g hg => hpayload g (by simp [hg]))]
    · have hnil : (buffer.take byteOffset ++ f.payload).drop (byteOffset +
          bitsToBytes f.dataBitLength + (fs.map fun f => bitsToBytes f.dataBitLength).sum) = [] := by
        apply List.drop_eq_nil_of_le
        rw [hcopied]
        omega
      rw [List.take_left' hcopied, List.drop_append, hnil, hcopied, hf, List.drop_drop,
        Nat.add_sub_cancel_left, List.flatMap_cons]
      simp only [List.nil_append, List.append_assoc, Nat.add_assoc]
    · rw [List.length_append, hcopied, List.length_drop]
      omega

def packetId (channel : SplitPacketChannel) : ℕ := channel.splitPacketList.packetId

theorem comp_eq_eq {key : ℕ} {channel : SplitPacketChannel} :
    comp key channel = .eq ↔ channel.packetId = key := by
  unfold comp packetId
  split
  · simp only [reduceCtorEq, false_iff]
    omega
  · split
    · simp only [true_iff]
      omega
    · simp only [reduceCtorEq, false_iff]
      omega

theorem comp_eq_lt {key : ℕ} {channel : SplitPacketChannel} :
    comp key channel = .lt ↔ key < channel.packetId := by
  unfold comp packetId
  split
  · simp only [true_iff]
    assumption
  · split
    · simp only [reduceCtorEq, false_iff]
      assumption
    · simp only [reduceCtorEq, false_iff]
      assumption

theorem comp_eq_gt {key : ℕ} {channel : SplitPacketChannel} :
    comp key channel = .gt ↔ channel.packetId < key := by
  unfold comp packetId
  split
  · simp only [reduceCtorEq, false_iff]
    omega
  · split
    · simp only [reduceCtorEq, false_iff]
      omega
    · simp only [true_iff]
      omega

/-- The list is sorted by packet id, without duplicates. -/
def Sorted (channels : List SplitPacketChannel) : Prop :=
  channels.Pairwise fun a b => a.packetId < b.packetId

theorem Sorted.monotone {channels : List SplitPacketChannel} (h : Sorted channels) (key : ℕ) :
    OrderedList.Monotone comp channels key := by
  apply List.Pairwise.imp _ h
  intro a b hab
  rw [comp_eq_lt, comp_eq_lt, comp_eq_gt, comp_eq_gt]
  omega

/-- What a complete channel is built into. -/
def rebuilt (first : Fragment) (fragments : List Fragment) : Option TransmittedMessage :=
  if totalBitLength fragments > maxSplitPacketCount * (1492 * 8) ∨
      totalByteLength fragments > maxSplitPacketCount * 1492 then none
  else
    some (createInternalPacketCopy first (totalBitLength fragments % 2 ^ 32)
      (fragments.flatMap TransmittedMessage.payload))

/-- The loop of `BuildPacketFromSplitPacketList` copies the payloads and ends at
`totalByteLength`. -/
theorem copyLoop_total {fs : List Fragment} (hparsed : ∀ f ∈ fs, Parsed f)
    (hlen : fs.length ≤ maxSplitPacketCount) :
    copyLoop fs 0 (List.replicate (totalByteLength fs) 0) =
      some (totalByteLength fs, fs.flatMap TransmittedMessage.payload) := by
  have hbytes : ∀ n ∈ fs.map fun f => bitsToBytes f.dataBitLength, n ≤ 8192 := by
    intro n hn
    obtain ⟨f, hf, rfl⟩ := List.mem_map.mp hn
    have hle := (hparsed f hf).dataBitLength_le
    show bitsToBytes f.dataBitLength ≤ 8192
    unfold bitsToBytes
    omega
  have hsum : (fs.map fun f => bitsToBytes f.dataBitLength).sum ≤ fs.length * 8192 := by
    simpa using List.sum_le_card_nsmul _ _ hbytes
  unfold maxSplitPacketCount at hlen
  have htotal : totalByteLength fs = (fs.map fun f => bitsToBytes f.dataBitLength).sum := by
    unfold totalByteLength
    exact Nat.mod_eq_of_lt (by omega)
  have hpayload : ∀ f ∈ fs, f.payload.length = bitsToBytes f.dataBitLength := fun f hf =>
    (hparsed f hf).length_payload
  rw [copyLoop_eq hpayload (by rw [List.length_replicate, htotal, Nat.zero_add]), ← htotal]
  simp only [Nat.zero_add, List.take_zero, List.nil_append]
  rw [List.drop_eq_nil_of_le (by rw [List.length_replicate]), List.append_nil]

theorem build_eq {channel : SplitPacketChannel} (h : channel.splitPacketList.WellFormed)
    (hadded : channel.splitPacketList.allPacketsAdded = true) :
    ∃ f fs, channel.splitPacketList.data = (f :: fs).map some ∧
      channel.build = some (rebuilt f (f :: fs)) := by
  obtain ⟨f, fs, hdata, hget, hfragments⟩ := h.complete hadded
  have hparsed := h.parsed_of_data hdata
  have hlen : (f :: fs).length ≤ maxSplitPacketCount := by
    have hle := h.allocationSize_le
    rwa [← h.length_eq, hdata, List.length_map] at hle
  refine ⟨f, fs, hdata, ?_⟩
  unfold build rebuilt
  rw [hget, hfragments]
  dsimp only
  split
  · rfl
  · rw [copyLoop_total hparsed hlen]

end SplitPacketChannel

namespace SplitPacketChannelList

open SplitPacketChannel

/-- What holds of the list in every reachable state. -/
structure Safe (s : SplitPacketChannelList) : Prop where
  sorted : Sorted s.channels
  wellFormed : ∀ c ∈ s.channels, c.splitPacketList.WellFormed

def newChannel (f : Fragment) (time : ℕ) : SplitPacketChannel :=
  ⟨time, SplitPacketSort.preallocate f, none⟩

theorem findChannel_spec {channels : List SplitPacketChannel} (h : Sorted channels) (f : Fragment)
    (time : ℕ) :
    ∃ xs c ys, findChannel channels f time = (xs.length, xs ++ c :: ys) ∧
      Sorted (xs ++ c :: ys) ∧ c.packetId = f.splitPacketId ∧
      (channels = xs ++ c :: ys ∨ channels = xs ++ ys ∧ c = newChannel f time) := by
  have hmono := h.monotone f.splitPacketId
  unfold findChannel
  cases hfound : (OrderedList.getIndexFromKey comp channels f.splitPacketId).2 with
  | true =>
    obtain ⟨xs, c, ys, hsplit, hplace, heq⟩ := OrderedList.getIndexFromKey_at hmono hfound
    refine ⟨xs, c, ys, ?_, hsplit ▸ h, comp_eq_eq.mp heq, .inl hsplit⟩
    dsimp only
    rw [hfound, if_pos rfl, hplace, hsplit]
  | false =>
    obtain ⟨xs, ys, hsplit, hplace, hgt, hlt⟩ := OrderedList.getIndexFromKey_split hmono hfound
    refine ⟨xs, newChannel f time, ys, ?_, ?_, rfl, .inr ⟨hsplit, rfl⟩⟩
    · dsimp only
      rw [hfound, if_neg Bool.false_ne_true]
      unfold insertChannel
      dsimp only
      rw [hfound, if_neg Bool.false_ne_true, hplace, hsplit]
      split
      · rename_i hge
        have hys : ys = [] := by
          rw [List.length_append] at hge
          exact List.eq_nil_of_length_eq_zero (by omega)
        rw [hys, List.append_nil]
        rfl
      · rw [insertIdx_length]
        rfl
    · have hchannels := List.pairwise_append.mp (hsplit ▸ h)
      apply List.pairwise_append.mpr
      refine ⟨hchannels.1, List.pairwise_cons.mpr ⟨?_, hchannels.2.1⟩, ?_⟩
      · exact fun b hb => comp_eq_lt.mp (hlt b hb)
      · intro a ha b hb
        rcases List.mem_cons.mp hb with rfl | hb
        · exact comp_eq_gt.mp (hgt a ha)
        · exact hchannels.2.2 a ha b hb

/-- The slots of a channel after `InsertIntoSplitPacketList`: every fragment of a message has to
agree on the count. -/
def slotsAfter (c : SplitPacketChannel) (f : Fragment) : List (Option Fragment) :=
  if f.splitPacketCount = c.splitPacketList.allocationSize then c.splitPacketList.filled f
  else c.splitPacketList.data

theorem channels_reportProgress (s : SplitPacketChannelList) (c : SplitPacketChannel)
    (f : Fragment) : (s.reportProgress c f).channels = s.channels := by
  unfold reportProgress
  split
  · rfl
  · dsimp only
    split <;> rfl

/-- Inserting a parsed fragment changes one channel, whose slots it may fill. -/
theorem insert_spec {s : SplitPacketChannelList} (h : s.Safe) {f : Fragment} (hf : Parsed f)
    (time : ℕ) :
    ∃ t xs c c' ys, s.insertIntoSplitPacketList f time = some t ∧ t.Safe ∧
      t.channels = xs ++ c' :: ys ∧
      (s.channels = xs ++ c :: ys ∨ s.channels = xs ++ ys ∧ c = newChannel f time) ∧
      c.packetId = f.splitPacketId ∧ c'.packetId = f.splitPacketId ∧
      c'.splitPacketList.allocationSize = c.splitPacketList.allocationSize ∧
      c'.splitPacketList.data = slotsAfter c f := by
  obtain ⟨xs, c, ys, hfind, hsorted, hid, hold⟩ := findChannel_spec h.sorted f time
  have hwell : ∀ d ∈ xs ++ c :: ys, d.splitPacketList.WellFormed := by
    intro d hd
    rcases hold with hold | ⟨hold, rfl⟩
    · exact h.wellFormed d (hold ▸ hd)
    · rcases List.mem_append.mp hd with hd | hd
      · exact h.wellFormed d (hold ▸ List.mem_append_left _ hd)
      · rcases List.mem_cons.mp hd with rfl | hd
        · exact SplitPacketSort.preallocate_wellFormed hf
        · exact h.wellFormed d (hold ▸ List.mem_append_right _ hd)
  have hat : (xs ++ c :: ys)[xs.length]? = some c := by
    rw [List.getElem?_append_right (Nat.le_refl _), Nat.sub_self]
    rfl
  unfold insertIntoSplitPacketList
  rw [hfind]
  dsimp only
  rw [hat]
  dsimp only
  by_cases hcount : f.splitPacketCount = c.splitPacketList.allocationSize
  · rw [if_neg (not_not.mpr hcount)]
    obtain ⟨added, t, hadd, hwell', hdata, hpacket, hsize⟩ :=
      SplitPacketSort.add_spec (hwell c (by simp)) hf hid hcount
    have hslots : slotsAfter c f = c.splitPacketList.filled f := if_pos hcount
    rw [hadd]
    rw [← hslots] at hdata
    cases added with
    | false =>
      refine ⟨_, xs, c, c, ys, rfl, ⟨hsorted, hwell⟩, rfl, hold, hid, hid, rfl, hdata⟩
    | true =>
      have hset : ∀ d, (xs ++ c :: ys).set xs.length d = xs ++ d :: ys := by
        intro d
        rw [List.set_append_right _ _ (Nat.le_refl _), Nat.sub_self]
        rfl
      let c' : SplitPacketChannel :=
        ⟨time, t, if f.splitPacketIndex = 0 then some f else c.firstPacket⟩
      have hpacket : c'.packetId = c.packetId := hpacket
      refine ⟨_, xs, c, c', ys, rfl, ?_, ?_, hold, hid, hpacket.trans hid, hsize, hdata⟩
      · constructor
        · rw [channels_reportProgress]
          dsimp only
          rw [hset]
          have hids : (xs ++ c :: ys).map packetId = (xs ++ c' :: ys).map packetId := by
            rw [List.map_append, List.map_append, List.map_cons, List.map_cons, hpacket]
          have hpairs := List.pairwise_map.mpr hsorted
          rw [hids] at hpairs
          exact List.pairwise_map.mp hpairs
        · rw [channels_reportProgress]
          dsimp only
          rw [hset]
          intro d hd
          rcases List.mem_append.mp hd with hd | hd
          · exact hwell d (List.mem_append_left _ hd)
          · rcases List.mem_cons.mp hd with rfl | hd
            · exact hwell'
            · exact hwell d (List.mem_append_right _ (List.mem_cons_of_mem _ hd))
      · rw [channels_reportProgress]
        exact hset _
  · have hslots : slotsAfter c f = c.splitPacketList.data := if_neg hcount
    rw [if_pos hcount]
    exact ⟨_, xs, c, c, ys, rfl, ⟨hsorted, hwell⟩, rfl, hold, hid, hid, rfl, hslots.symm⟩

theorem getIndexFromKey_self {xs ys : List SplitPacketChannel} {c : SplitPacketChannel}
    (h : Sorted (xs ++ c :: ys)) :
    OrderedList.getIndexFromKey comp (xs ++ c :: ys) c.packetId = (xs.length, true) := by
  have hmono := h.monotone c.packetId
  have htrue := (OrderedList.getIndexFromKey_eq_true_iff hmono).mpr
    ⟨c, by simp, comp_eq_eq.mpr rfl⟩
  obtain ⟨xs', d, ys', hsplit, hplace, hd⟩ := OrderedList.getIndexFromKey_at hmono htrue
  have hid := comp_eq_eq.mp hd
  apply Prod.ext _ htrue
  rw [hplace]
  rcases List.append_eq_append_iff.mp hsplit with ⟨as, hxs, htail⟩ | ⟨as, hxs, htail⟩
  · cases as with
    | nil => rw [hxs, List.append_nil]
    | cons a as =>
      -- `c` stands before `d`, so its id is smaller
      obtain ⟨rfl, -⟩ := List.cons.inj htail
      have hlt := (List.pairwise_append.mp (hsplit ▸ h)).2.2 c (by simp [hxs]) d (by simp)
      omega
  · cases as with
    | nil => rw [hxs, List.append_nil]
    | cons a as =>
      obtain ⟨rfl, -⟩ := List.cons.inj htail
      have hlt := (List.pairwise_append.mp h).2.2 d (by simp [hxs]) c (by simp)
      omega

theorem Safe.erase {s : SplitPacketChannelList} (h : s.Safe) {xs ys : List SplitPacketChannel}
    {c : SplitPacketChannel} (hchannels : s.channels = xs ++ c :: ys) :
    ({ s with channels := xs ++ ys } : SplitPacketChannelList).Safe := by
  have hsub : (xs ++ ys).Sublist s.channels := by
    rw [hchannels]
    exact (List.Sublist.refl xs).append (List.sublist_cons_self c ys)
  exact ⟨h.sorted.sublist hsub, fun d hd => h.wellFormed d (hsub.subset hd)⟩

theorem build_spec {s : SplitPacketChannelList} (h : s.Safe) {xs ys : List SplitPacketChannel}
    {c : SplitPacketChannel} (hchannels : s.channels = xs ++ c :: ys) :
    (c.splitPacketList.allPacketsAdded = true →
      ∃ f fs, c.splitPacketList.data = (f :: fs).map some ∧
        s.buildPacketFromSplitPacketList c.packetId =
          some (rebuilt f (f :: fs), { s with channels := xs ++ ys })) ∧
      (c.splitPacketList.allPacketsAdded = false →
        s.buildPacketFromSplitPacketList c.packetId = some (none, s)) := by
  have hfound := getIndexFromKey_self (hchannels ▸ h.sorted)
  have hat : (xs ++ c :: ys)[xs.length]? = some c := by
    rw [List.getElem?_append_right (Nat.le_refl _), Nat.sub_self]
    rfl
  have herase : (xs ++ c :: ys).eraseIdx xs.length = xs ++ ys := by
    rw [List.eraseIdx_append_of_length_le (Nat.le_refl _), Nat.sub_self]
    rfl
  unfold buildPacketFromSplitPacketList
  rw [hchannels, hfound]
  dsimp only
  rw [hat, herase]
  dsimp only
  constructor
  · intro hadded
    obtain ⟨f, fs, hdata, hbuild⟩ := build_eq (h.wellFormed c (by simp [hchannels])) hadded
    refine ⟨f, fs, hdata, ?_⟩
    rw [if_pos hadded, hbuild]
  · intro hadded
    rw [if_neg (by rw [hadded]; exact Bool.false_ne_true)]

theorem designateChannel_eq (f : Fragment) :
    designateChannel f = { f with orderingChannel := (designateChannel f).orderingChannel } := by
  unfold designateChannel
  split <;> rfl

theorem designateChannel_parsed {f : Fragment} (hf : Parsed f) : Parsed (designateChannel f) := by
  rw [designateChannel_eq]
  exact
    { dataBitLength_pos := hf.dataBitLength_pos
      dataBitLength_le := hf.dataBitLength_le
      length_payload := hf.length_payload
      splitPacketIndex_lt := hf.splitPacketIndex_lt
      splitPacketCount_le := hf.splitPacketCount_le
      interior_aligned := hf.interior_aligned }

/-- Receiving a fragment, with the state between the insertion and the attempt to build. -/
theorem receive_spec {s : SplitPacketChannelList} (h : s.Safe) {f : Fragment} (hf : Parsed f)
    (time : ℕ) :
    ∃ t r t', s.insertIntoSplitPacketList (designateChannel f) time = some t ∧ t.Safe ∧
      t.buildPacketFromSplitPacketList f.splitPacketId = some (r, t') ∧ t'.Safe := by
  obtain ⟨t, xs, c, c', ys, hinsert, hsafe, hchannels, -, -, hid, -, -⟩ :=
    insert_spec h (designateChannel_parsed hf) time
  have hid : c'.packetId = f.splitPacketId := by rw [hid, designateChannel_eq]
  obtain ⟨hall, hnot⟩ := build_spec hsafe hchannels
  rw [hid] at hall hnot
  cases hadded : c'.splitPacketList.allPacketsAdded with
  | true =>
    obtain ⟨g, gs, -, hbuild⟩ := hall hadded
    exact ⟨t, _, _, hinsert, hsafe, hbuild, hsafe.erase hchannels⟩
  | false => exact ⟨t, none, t, hinsert, hsafe, hnot hadded, hsafe⟩

/-- Receives fragments one after another, each at its time. -/
def receiveAll (s : SplitPacketChannelList) : List (Fragment × ℕ) → Option SplitPacketChannelList
  | [] => some s
  | arrival :: arrivals =>
    match s.receive arrival.1 arrival.2 with
    | none => none
    | some (_, s) => s.receiveAll arrivals

theorem receiveAll_safe {arrivals : List (Fragment × ℕ)} (hparsed : ∀ a ∈ arrivals, Parsed a.1)
    {s : SplitPacketChannelList} (h : s.Safe) : ∃ t, s.receiveAll arrivals = some t ∧ t.Safe := by
  induction arrivals generalizing s with
  | nil => exact ⟨s, rfl, h⟩
  | cons a arrivals ih =>
    obtain ⟨t, r, t', hinsert, -, hbuild, hsafe⟩ := receive_spec h (hparsed a (by simp)) a.2
    obtain ⟨t'', hrest, hsafe⟩ := ih (fun b hb => hparsed b (by simp [hb])) hsafe
    refine ⟨t'', ?_, hsafe⟩
    rw [receiveAll, receive, hinsert]
    dsimp only
    rw [hbuild]
    exact hrest

/-- The list of channels is sorted, the counters agree with the slots, and what a complete
channel would copy fills the buffer that it allocates. -/
structure Consistent (s : SplitPacketChannelList) : Prop where
  sorted : Sorted s.channels
  length_eq : ∀ c ∈ s.channels,
    c.splitPacketList.data.length = c.splitPacketList.allocationSize
  added_eq : ∀ c ∈ s.channels,
    c.splitPacketList.addedPacketsCount = c.splitPacketList.data.countP Option.isSome
  added_le : ∀ c ∈ s.channels,
    c.splitPacketList.addedPacketsCount ≤ c.splitPacketList.allocationSize
  complete : ∀ c ∈ s.channels, c.splitPacketList.allPacketsAdded = true →
    ∃ fs, c.splitPacketList.data = fs.map some ∧ c.splitPacketList.fragments = some fs ∧
      copyLoop fs 0 (List.replicate (totalByteLength fs) 0) =
        some (totalByteLength fs, fs.flatMap TransmittedMessage.payload)

theorem Safe.consistent {s : SplitPacketChannelList} (h : s.Safe) : s.Consistent where
  sorted := h.sorted
  length_eq c hc := (h.wellFormed c hc).length_eq
  added_eq c hc := (h.wellFormed c hc).added_eq
  added_le c hc := (h.wellFormed c hc).added_le
  complete c hc hadded := by
    obtain ⟨f, fs, hdata, -, hfragments⟩ := (h.wellFormed c hc).complete hadded
    refine ⟨f :: fs, hdata, hfragments, ?_⟩
    apply copyLoop_total
    · exact (h.wellFormed c hc).parsed_of_data hdata
    · have hle := (h.wellFormed c hc).allocationSize_le
      rwa [← (h.wellFormed c hc).length_eq, hdata, List.length_map] at hle

theorem initial_safe (splitMessageProgressInterval : ℕ) :
    (initial splitMessageProgressInterval).Safe :=
  ⟨List.Pairwise.nil, fun c hc => by cases hc⟩

/-- Whatever fragments the parser lets through, no access leaves an array in any state
reached, and every such state is consistent, also between insertion and build. -/
theorem reassembly_safe (splitMessageProgressInterval : ℕ) {arrivals : List (Fragment × ℕ)}
    (hparsed : ∀ a ∈ arrivals, Parsed a.1) {f : Fragment} (hf : Parsed f) (time : ℕ) :
    ∃ s t r t', (initial splitMessageProgressInterval).receiveAll arrivals = some s ∧
      s.Consistent ∧
      s.insertIntoSplitPacketList (designateChannel f) time = some t ∧ t.Consistent ∧
      t.buildPacketFromSplitPacketList f.splitPacketId = some (r, t') ∧ t'.Consistent := by
  obtain ⟨s, hrun, hsafe⟩ := receiveAll_safe hparsed (initial_safe splitMessageProgressInterval)
  obtain ⟨t, r, t', hinsert, ht, hbuild, ht'⟩ := receive_spec hsafe hf time
  exact ⟨s, t, r, t', hrun, hsafe.consistent, hinsert, ht.consistent, hbuild, ht'.consistent⟩

/-- Two fragments that claim the same id and index, the second with a larger count. -/
def hostileFragment (splitPacketCount : ℕ) : Fragment where
  toTransmissionHeader :=
    { TransmissionHeader.fromPool .reliable with
      splitPacketId := 0x1234
      splitPacketIndex := 3
      splitPacketCount := splitPacketCount
      dataBitLength := 8 }
  data := [7]

theorem hostileFragment_parsed {splitPacketCount : ℕ} (h : 3 < splitPacketCount)
    (hmax : splitPacketCount ≤ maxSplitPacketCount) : Parsed (hostileFragment splitPacketCount) where
  dataBitLength_pos := Nat.le_add_left 1 7
  dataBitLength_le := Nat.le_of_ble_eq_true rfl
  length_payload := by simp [TransmittedMessage.payload, hostileFragment, bitsToBytes]
  splitPacketIndex_lt := h
  splitPacketCount_le := hmax
  interior_aligned := .inl (Nat.mod_self 8)

theorem hostileFragments_safe :
    ∃ s t r t', (initial 0).receiveAll [(hostileFragment 4, 0)] = some s ∧ s.Consistent ∧
      s.insertIntoSplitPacketList (designateChannel (hostileFragment 1000)) 1 = some t ∧
      t.Consistent ∧ t.buildPacketFromSplitPacketList 0x1234 = some (r, t') ∧ t'.Consistent := by
  apply reassembly_safe 0 _ (hostileFragment_parsed (by decide) (by decide)) 1
  intro a ha
  rw [List.mem_singleton.mp ha]
  exact hostileFragment_parsed (by decide) (by decide)

end SplitPacketChannelList

end SLikeNet
