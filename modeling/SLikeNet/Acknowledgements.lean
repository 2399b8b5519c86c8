import SLikeNet.RangeList
import SLikeNet.DatagramHeaderFormat

/-! `Serialize` and `Deserialize` of `RangeList`, and `SendACKs`, which writes the whole list
of acknowledgements into as many datagrams as it takes. -/

namespace SLikeNet

open BitStream

namespace RangeNode

/-- One byte says whether the maximum is left out. -/
def write (stream : List Bool) (n : RangeNode) : List Bool :=
  if n.minIndex = n.maxIndex then n.minIndex.write (stream ++ toBits 8 1)
  else n.maxIndex.write (n.minIndex.write (stream ++ toBits 8 0))

/-- What `Serialize` counts for a node, with `sizeof(range_type)` for the three bytes of a
number. -/
def bitsWritten (n : RangeNode) : ℕ :=
  4 * 8 + 8 + if n.minIndex = n.maxIndex then 0 else 4 * 8

def bits (n : RangeNode) : List Bool :=
  if n.minIndex = n.maxIndex then toBits 8 1 ++ n.minIndex.bytes
  else toBits 8 0 ++ n.minIndex.bytes ++ n.maxIndex.bytes

theorem bits_aligned (n : RangeNode) : n.bits.length % 8 = 0 := by
  unfold bits
  split <;> simp only [List.length_append, length_toBits, Uint24.length_bytes]

theorem write_eq {stream : List Bool} (h : stream.length % 8 = 0) (n : RangeNode) :
    write stream n = stream ++ n.bits := by
  have hbyte : ∀ k, (stream ++ toBits 8 k).length % 8 = 0 := by
    intro k
    rw [List.length_append, length_toBits]
    omega
  have hmin : ∀ k, (stream ++ toBits 8 k ++ n.minIndex.bytes).length % 8 = 0 := by
    intro k
    rw [List.length_append, Uint24.length_bytes, Nat.add_mod, hbyte]
  unfold write bits
  split
  · rw [Uint24.write_of_aligned (hbyte 1), List.append_assoc]
  · rw [Uint24.write_of_aligned (hbyte 0), Uint24.write_of_aligned (hmin 0)]
    simp only [List.append_assoc]

theorem foldl_write {stream : List Bool} (h : stream.length % 8 = 0) (ranges : List RangeNode) :
    ranges.foldl write stream = stream ++ ranges.flatMap bits := by
  induction ranges generalizing stream with
  | nil => rw [List.flatMap_nil, List.append_nil]; rfl
  | cons n ranges ih =>
    have haligned : (stream ++ n.bits).length % 8 = 0 := by
      rw [List.length_append, Nat.add_mod, h, n.bits_aligned]
    rw [List.foldl_cons, write_eq h, ih haligned, List.flatMap_cons, List.append_assoc]

/-- `DeserializeSingleRange` -/
def deserializeSingleRange (r : Reader) : Option (RangeNode × Reader) :=
  match r.readNat 8 with
  | (none, _) => none
  | (some maxEqualToMin, r) =>
    match Uint24.read r with
    | (none, _) => none
    | (some min, r) =>
      if maxEqualToMin = 0 then
        match Uint24.read r with
        | (none, _) => none
        | (some max, r) => if max ≤ min then none else some (⟨min, max⟩, r)
      else some (⟨min, min⟩, r)

theorem min_le_max_of_deserialize {r r' : Reader} {n : RangeNode}
    (h : deserializeSingleRange r = some (n, r')) : n.minIndex ≤ n.maxIndex := by
  unfold deserializeSingleRange at h
  split at h
  · cases h
  split at h
  · cases h
  split at h
  · split at h
    · cases h
    split at h
    · cases h
    · rename_i hgt
      obtain ⟨rfl, -⟩ := Prod.mk.inj (Option.some.inj h)
      exact Nat.le_of_not_le hgt
  · obtain ⟨rfl, -⟩ := Prod.mk.inj (Option.some.inj h)
    exact Nat.le_refl _

theorem deserialize_bits {n : RangeNode} (hn : n.minIndex ≤ n.maxIndex) {offset : ℕ}
    (h : offset % 8 = 0) (rest : List Bool) :
    deserializeSingleRange ⟨n.bits ++ rest, offset⟩ =
      some (n, ⟨rest, offset + n.bits.length⟩) := by
  have h8 : (offset + 8) % 8 = 0 := by omega
  have h32 : (offset + 8 + 24) % 8 = 0 := by omega
  obtain ⟨min, max⟩ := n
  unfold bits
  split
  · rename_i heq
    obtain rfl : min = max := heq
    rw [List.append_assoc, deserializeSingleRange, Reader.readNat_toBits (by decide)]
    dsimp only
    rw [Uint24.read_bytes h8]
    dsimp only
    rw [if_neg (by decide), List.length_append, length_toBits, Uint24.length_bytes]
  · rename_i hne
    have hlt : ¬ max ≤ min := fun hle => hne (Uint24.ext (Nat.le_antisymm hn hle))
    rw [List.append_assoc, List.append_assoc, deserializeSingleRange,
      Reader.readNat_toBits (by decide)]
    dsimp only
    rw [Uint24.read_bytes h8]
    dsimp only
    rw [if_pos rfl, Uint24.read_bytes h32]
    dsimp only
    rw [if_neg hlt]
    simp only [List.length_append, length_toBits, Uint24.length_bytes, Nat.add_assoc]

end RangeNode

theorem Ascending.suffix {xs ys : List RangeNode} (h : Ascending (xs ++ ys)) : Ascending ys :=
  (ascending_append.mp h).2.1

theorem Ascending.drop {ranges : List RangeNode} (h : Ascending ranges) (k : ℕ) :
    Ascending (ranges.drop k) := by
  rw [← List.take_append_drop k ranges] at h
  exact h.suffix

namespace RangeList

/-- The ranges that the loop of `Serialize` writes: it stops where a range with two numbers
might not fit. The count of bits stays near `maxBits`, so it does not wrap. -/
def written (maxBits : ℕ) : ℕ → List RangeNode → List RangeNode
  | _, [] => []
  | bitsWritten, n :: ranges =>
    if 2 * 8 + bitsWritten + 4 * 8 * 2 + 1 > maxBits then []
    else n :: written maxBits (bitsWritten + n.bitsWritten) ranges

/-- `Serialize` with `clearSerialized`; `countWritten` is an `unsigned short`. -/
def serialize (r : RangeList) (stream : List Bool) (maxBits : ℕ) : List Bool × RangeList :=
  let ranges := written maxBits 0 r.ranges
  let countWritten := ranges.length % 2 ^ 16
  (align stream ++ toBits 16 countWritten ++ ranges.foldl RangeNode.write [],
    ⟨r.ranges.drop countWritten, r.ascending.drop countWritten⟩)

/-- The rest of the loop of `Deserialize`, after a range that ended at `absMin`. -/
def deserializeLoop : ℕ → Uint24 → Reader → Option (List RangeNode)
  | 0, _, _ => some []
  | count + 1, absMin, r =>
    match RangeNode.deserializeSingleRange r with
    | none => none
    | some (n, r) =>
      if n.minIndex ≤ absMin then none
      else (deserializeLoop count n.maxIndex r).map (n :: ·)

def deserializeRanges (r : Reader) : Option (List RangeNode) :=
  match r.align.readNat 16 with
  | (none, _) => none
  | (some 0, _) => some []
  | (some (count + 1), r) =>
    match RangeNode.deserializeSingleRange r with
    | none => none
    | some (n, r) => (deserializeLoop count n.maxIndex r).map (n :: ·)

theorem ascending_deserializeLoop {count : ℕ} {absMin : Uint24} {r : Reader}
    {ranges : List RangeNode} (h : deserializeLoop count absMin r = some ranges) :
    Ascending ranges ∧ ∀ n ∈ ranges, absMin < n.minIndex := by
  induction count generalizing absMin r ranges with
  | zero =>
    obtain rfl := Option.some.inj h
    exact ⟨.nil, fun n hn => by cases hn⟩
  | succ count ih =>
    unfold deserializeLoop at h
    split at h
    · cases h
    rename_i n r' hsingle
    split at h
    · cases h
    rename_i hgt
    obtain ⟨rest, hrest, rfl⟩ := Option.map_eq_some_iff.mp h
    obtain ⟨hasc, hlt⟩ := ih hrest
    have hn := RangeNode.min_le_max_of_deserialize hsingle
    refine ⟨ascending_cons.mpr ⟨hn, hasc, hlt⟩, fun m hm => ?_⟩
    rcases List.mem_cons.mp hm with rfl | hm
    · exact Nat.lt_of_not_le hgt
    · have := hlt m hm
      simp only [Uint24.lt_iff, Uint24.le_iff] at *
      omega

/-- What `Deserialize` accepts is a list of ranges as `Insert` would keep it. -/
theorem ascending_deserializeRanges {r : Reader} {ranges : List RangeNode}
    (h : deserializeRanges r = some ranges) : Ascending ranges := by
  unfold deserializeRanges at h
  split at h
  · cases h
  · obtain rfl := Option.some.inj h
    exact .nil
  · split at h
    · cases h
    rename_i hsingle
    obtain ⟨rest, hrest, rfl⟩ := Option.map_eq_some_iff.mp h
    obtain ⟨hasc, hlt⟩ := ascending_deserializeLoop hrest
    exact ascending_cons.mpr ⟨RangeNode.min_le_max_of_deserialize hsingle, hasc, hlt⟩

/-- `Deserialize` -/
def deserialize (r : Reader) : Option RangeList :=
  match h : deserializeRanges r with
  | none => none
  | some ranges => some ⟨ranges, ascending_deserializeRanges h⟩

theorem deserialize_eq {r : Reader} {a : RangeList} (h : deserializeRanges r = some a.ranges) :
    deserialize r = some a := by
  unfold deserialize
  split
  · rename_i hnone
    rw [hnone] at h
    cases h
  · rename_i ranges hsome
    obtain rfl : ranges = a.ranges := Option.some.inj (hsome.symm.trans h)
    rfl

theorem deserializeLoop_bits {ranges : List RangeNode} (hasc : Ascending ranges) {absMin : Uint24}
    (habs : ∀ n ∈ ranges, absMin < n.minIndex) {offset : ℕ} (h : offset % 8 = 0)
    (rest : List Bool) :
    deserializeLoop ranges.length absMin ⟨ranges.flatMap RangeNode.bits ++ rest, offset⟩ =
      some ranges := by
  induction ranges generalizing absMin offset with
  | nil => rfl
  | cons n ranges ih =>
    obtain ⟨hn, hasc', hlt⟩ := ascending_cons.mp hasc
    have hoffset : (offset + n.bits.length) % 8 = 0 := by
      rw [Nat.add_mod, h, n.bits_aligned]
    have hgt : ¬ n.minIndex ≤ absMin := Nat.not_le_of_lt (habs n (by simp))
    rw [List.flatMap_cons, List.append_assoc, List.length_cons, deserializeLoop,
      RangeNode.deserialize_bits hn h]
    dsimp only
    rw [if_neg hgt, ih hasc' hlt hoffset]
    rfl

/-- `Deserialize` reads back the ranges that were written behind an aligned header. -/
theorem deserializeRanges_bits {ranges : List RangeNode} (hasc : Ascending ranges)
    (hlen : ranges.length < 2 ^ 16) {offset : ℕ} (h : offset % 8 = 0) (rest : List Bool) :
    deserializeRanges
      ⟨toBits 16 ranges.length ++ (ranges.flatMap RangeNode.bits ++ rest), offset⟩ =
      some ranges := by
  have h16 : (offset + 16) % 8 = 0 := by omega
  rw [deserializeRanges, Reader.align_of_aligned h, Reader.readNat_toBits hlen]
  cases ranges with
  | nil => rfl
  | cons n ranges =>
    obtain ⟨hn, hasc', hlt⟩ := ascending_cons.mp hasc
    have hoffset : (offset + 16 + n.bits.length) % 8 = 0 := by
      rw [Nat.add_mod, h16, n.bits_aligned]
    rw [List.flatMap_cons, List.append_assoc]
    show (match RangeNode.deserializeSingleRange _ with
      | none => none
      | some (n, r) => (deserializeLoop ranges.length n.maxIndex r).map (n :: ·)) = _
    rw [RangeNode.deserialize_bits hn h16]
    dsimp only
    rw [deserializeLoop_bits hasc' hlt hoffset]
    rfl

theorem written_append (maxBits bitsWritten : ℕ) (ranges : List RangeNode) :
    ∃ rest, ranges = written maxBits bitsWritten ranges ++ rest := by
  induction ranges generalizing bitsWritten with
  | nil => exact ⟨[], rfl⟩
  | cons n ranges ih =>
    unfold written
    split
    · exact ⟨n :: ranges, rfl⟩
    · obtain ⟨rest, hrest⟩ := ih (bitsWritten + n.bitsWritten)
      exact ⟨rest, congrArg (n :: ·) hrest⟩

/-- The ranges that are written stay below the bits that `Serialize` counts for them. -/
theorem written_bits (maxBits bitsWritten : ℕ) (ranges : List RangeNode) :
    written maxBits bitsWritten ranges = [] ∨
      bitsWritten + 40 * (written maxBits bitsWritten ranges).length + 41 ≤ maxBits ∧
        bitsWritten + ((written maxBits bitsWritten ranges).flatMap RangeNode.bits).length + 25 ≤
          maxBits := by
  induction ranges generalizing bitsWritten with
  | nil => exact .inl rfl
  | cons n ranges ih =>
    have hcount : 40 ≤ n.bitsWritten ∧ n.bits.length ≤ n.bitsWritten ∧ n.bits.length ≤ 56 := by
      unfold RangeNode.bitsWritten RangeNode.bits
      split <;> simp only [List.length_append, length_toBits, Uint24.length_bytes] <;> omega
    unfold written
    split
    · exact .inl rfl
    · apply Or.inr
      rw [List.length_cons, List.flatMap_cons, List.length_append]
      rcases ih (bitsWritten + n.bitsWritten) with hnil | hrest
      · rw [hnil]
        simp only [List.flatMap_nil, List.length_nil]
        omega
      · omega

theorem length_written_lt {maxBits : ℕ} (hmax : maxBits ≤ 8 * 1492) (ranges : List RangeNode) :
    (written maxBits 0 ranges).length < 2 ^ 16 := by
  rcases written_bits maxBits 0 ranges with hnil | hbits
  · rw [hnil]
    decide
  · omega

theorem written_ne_nil {maxBits : ℕ} (hmin : 81 ≤ maxBits) {ranges : List RangeNode}
    (h : ranges ≠ []) : written maxBits 0 ranges ≠ [] := by
  cases ranges with
  | nil => exact absurd rfl h
  | cons n ranges =>
    unfold written
    rw [if_neg (by omega)]
    exact List.cons_ne_nil _ _

theorem covers_append {a : RangeList} {xs ys : List RangeNode} (h : a.ranges = xs ++ ys)
    (x : Uint24) : a.Covers x ↔ (∃ n ∈ xs, n.Covers x) ∨ ∃ n ∈ ys, n.Covers x := by
  unfold Covers
  rw [h]
  simp only [List.mem_append, or_and_right, exists_or]

end RangeList

/-- The ranges that the remote system reads out of an acknowledgement. -/
def readAcknowledgement (stream : List Bool) : Option RangeList :=
  match DatagramHeaderFormat.deserialize (.ofStream stream) with
  | (some .ack, r) => RangeList.deserialize r
  | _ => none

/-- `SendACKs` after some rounds of its loop: the datagrams sent and the list left. -/
def sendACKsLoop (maxDatagramPayload : ℕ) : ℕ → RangeList → List (List Bool) × RangeList
  | 0, acknowlegements => ([], acknowlegements)
  | rounds + 1, acknowlegements =>
    if acknowlegements.ranges.length > 0 then
      let sent := acknowlegements.serialize DatagramHeaderFormat.ack.serialize maxDatagramPayload
      let rest := sendACKsLoop maxDatagramPayload rounds sent.2
      (sent.1 :: rest.1, rest.2)
    else ([], acknowlegements)

/-- Every round takes a range off the list, so it is empty after as many rounds. -/
def sendACKs (maxDatagramPayload : ℕ) (acknowlegements : RangeList) :
    List (List Bool) × RangeList :=
  sendACKsLoop maxDatagramPayload acknowlegements.ranges.length acknowlegements

theorem serialize_ack {maxBits : ℕ} (hmax : maxBits ≤ 8 * 1492) (a : RangeList) :
    ∃ sent rest : RangeList, a.ranges = sent.ranges ++ rest.ranges ∧
      sent.ranges = RangeList.written maxBits 0 a.ranges ∧
      a.serialize DatagramHeaderFormat.ack.serialize maxBits =
        (DatagramHeaderFormat.ack.serialize ++ (toBits 16 sent.ranges.length ++
          sent.ranges.flatMap RangeNode.bits), rest) := by
  obtain ⟨rest, hrest⟩ := RangeList.written_append maxBits 0 a.ranges
  have hasc := a.ascending
  rw [hrest] at hasc
  have hlen := RangeList.length_written_lt hmax a.ranges
  have hdrop : a.ranges.drop (RangeList.written maxBits 0 a.ranges).length = rest := by
    have happ : (RangeList.written maxBits 0 a.ranges ++ rest).drop
        (RangeList.written maxBits 0 a.ranges).length = rest := List.drop_left
    rwa [← hrest] at happ
  refine ⟨⟨_, (ascending_append.mp hasc).1⟩, ⟨rest, hasc.suffix⟩, hrest, rfl, ?_⟩
  have haligned : DatagramHeaderFormat.ack.serialize.length % 8 = 0 := rfl
  rw [RangeList.serialize, align_of_aligned haligned, RangeNode.foldl_write rfl]
  simp only [Nat.mod_eq_of_lt hlen, hdrop, List.nil_append, List.append_assoc]

theorem readAcknowledgement_sent {sent : RangeList} (hlen : sent.ranges.length < 2 ^ 16) :
    readAcknowledgement (DatagramHeaderFormat.ack.serialize ++
      (toBits 16 sent.ranges.length ++ sent.ranges.flatMap RangeNode.bits)) = some sent := by
  have hheader : DatagramHeaderFormat.deserialize (.ofStream (DatagramHeaderFormat.ack.serialize ++
      (toBits 16 sent.ranges.length ++ sent.ranges.flatMap RangeNode.bits))) =
      (some .ack, ⟨toBits 16 sent.ranges.length ++ sent.ranges.flatMap RangeNode.bits, 8⟩) := rfl
  have hbits := RangeList.deserializeRanges_bits sent.ascending hlen (Nat.mod_self 8) []
  rw [List.append_nil] at hbits
  rw [readAcknowledgement, hheader]
  exact RangeList.deserialize_eq hbits

/-- `Deserialize` accepts every datagram, and the numbers that it reads are `numbers`. -/
structure ReadAs (streams : List (List Bool)) (numbers : Uint24 → Prop) : Prop where
  accepted : ∀ stream ∈ streams, (readAcknowledgement stream).isSome
  covers : ∀ x, (∃ stream ∈ streams, ∃ r, readAcknowledgement stream = some r ∧ r.Covers x) ↔
    numbers x

theorem readAs_nil {a : RangeList} (h : a.ranges = []) : ReadAs [] a.Covers where
  accepted stream hs := by cases hs
  covers x := by
    constructor
    · rintro ⟨stream, hs, -⟩
      cases hs
    · rintro ⟨n, hn, -⟩
      rw [h] at hn
      cases hn

theorem readAs_cons {a sent rest : RangeList} {stream : List Bool} {streams : List (List Bool)}
    (hsplit : a.ranges = sent.ranges ++ rest.ranges)
    (hread : readAcknowledgement stream = some sent) (h : ReadAs streams rest.Covers) :
    ReadAs (stream :: streams) a.Covers := by
  constructor
  · intro t ht
    rcases List.mem_cons.mp ht with rfl | ht
    · rw [hread]
      rfl
    · exact h.accepted t ht
  · intro x
    rw [RangeList.covers_append hsplit]
    show _ ↔ sent.Covers x ∨ rest.Covers x
    rw [← h.covers]
    constructor
    · rintro ⟨t, ht, r, hr, hx⟩
      rcases List.mem_cons.mp ht with rfl | ht
      · rw [hread] at hr
        obtain rfl := Option.some.inj hr
        exact .inl hx
      · exact .inr ⟨t, ht, r, hr, hx⟩
    · rintro (hx | ⟨t, ht, r, hr, hx⟩)
      · exact ⟨_, List.mem_cons_self, sent, hread, hx⟩
      · exact ⟨t, List.mem_cons_of_mem _ ht, r, hr, hx⟩

/-- The loop of `SendACKs` empties the list, and the remote system reads out of its
datagrams exactly the numbers of the list. -/
theorem sendACKsLoop_spec {maxBits : ℕ} (hmin : 81 ≤ maxBits) (hmax : maxBits ≤ 8 * 1492)
    {rounds : ℕ} {a : RangeList} (hrounds : a.ranges.length ≤ rounds) :
    (sendACKsLoop maxBits rounds a).2.ranges = [] ∧
      ReadAs (sendACKsLoop maxBits rounds a).1 a.Covers := by
  induction rounds generalizing a with
  | zero =>
    have hnil : a.ranges = [] := List.eq_nil_of_length_eq_zero (Nat.le_zero.mp hrounds)
    exact ⟨hnil, readAs_nil hnil⟩
  | succ rounds ih =>
    unfold sendACKsLoop
    by_cases hsize : a.ranges.length > 0
    · obtain ⟨sent, rest, hsplit, hwritten, hserialize⟩ := serialize_ack hmax a
      have hne : sent.ranges ≠ [] := by
        rw [hwritten]
        exact RangeList.written_ne_nil hmin (List.ne_nil_of_length_pos hsize)
      have hpos := List.length_pos_of_ne_nil hne
      have hlen : sent.ranges.length < 2 ^ 16 := by
        rcases RangeList.written_bits maxBits 0 a.ranges with hnil | hbits
        · exact absurd (hwritten.trans hnil) hne
        · rw [← hwritten] at hbits
          omega
      have hcount := congrArg List.length hsplit
      rw [List.length_append] at hcount
      obtain ⟨hempty, hrest⟩ := ih (a := rest) (by omega)
      rw [if_pos hsize, hserialize]
      exact ⟨hempty, readAs_cons hsplit (readAcknowledgement_sent hlen) hrest⟩
    · have hnil : a.ranges = [] := List.eq_nil_of_length_eq_zero (by omega)
      rw [if_neg hsize]
      exact ⟨hnil, readAs_nil hnil⟩

/-- What can happen to the list of acknowledgements of a receiver. -/
inductive AcknowledgementInput
  | sendAcknowledgementPacket (messageNumber : Uint24)
  | sendACKs

def acknowledgementStep (maxDatagramPayload : ℕ) (acknowlegements : RangeList) :
    AcknowledgementInput → RangeList
  | .sendAcknowledgementPacket messageNumber => acknowlegements.insert messageNumber
  | .sendACKs => (sendACKs maxDatagramPayload acknowlegements).2

/-- The numbers inserted since the last call of `SendACKs`. -/
def insertedSince : List AcknowledgementInput → List Uint24 :=
  List.foldl
    (fun inserted i =>
      match i with
      | .sendAcknowledgementPacket messageNumber => inserted ++ [messageNumber]
      | .sendACKs => [])
    []

/-- The list of a run covers what was inserted since the last call of `SendACKs`. -/
theorem covers_run {maxBits : ℕ} (hmin : 81 ≤ maxBits) (hmax : maxBits ≤ 8 * 1492)
    (inputs : List AcknowledgementInput) (x : Uint24) :
    (inputs.foldl (acknowledgementStep maxBits) .empty).Covers x ↔ x ∈ insertedSince inputs := by
  induction inputs using List.reverseRecOn with
  | nil =>
    constructor
    · rintro ⟨n, hn, -⟩
      cases hn
    · intro hx
      cases hx
  | append_singleton inputs i ih =>
    unfold insertedSince at ih ⊢
    rw [List.foldl_append, List.foldl_append, List.foldl_cons, List.foldl_cons, List.foldl_nil,
      List.foldl_nil]
    cases i with
    | sendAcknowledgementPacket messageNumber =>
      show (RangeList.insert _ messageNumber).Covers x ↔ _
      rw [RangeList.covers_insert, ih, List.mem_append, List.mem_singleton, or_comm]
    | sendACKs =>
      have hempty := (sendACKsLoop_spec hmin hmax
        (a := inputs.foldl (acknowledgementStep maxBits) .empty) (Nat.le_refl _)).1
      constructor
      · rintro ⟨n, hn, -⟩
        rw [show (acknowledgementStep maxBits _ .sendACKs).ranges = [] from hempty] at hn
        cases hn
      · intro hx
        cases hx

/-- After any run, a call of `SendACKs` ends with an empty list, everything it sends is
accepted by `Deserialize`, and what is read out of it are the numbers inserted since the call
before. -/
theorem acknowledgements_on_wire {maxBits : ℕ} (hmin : 81 ≤ maxBits) (hmax : maxBits ≤ 8 * 1492)
    (inputs : List AcknowledgementInput) :
    (sendACKs maxBits (inputs.foldl (acknowledgementStep maxBits) .empty)).2.ranges = [] ∧
      ReadAs (sendACKs maxBits (inputs.foldl (acknowledgementStep maxBits) .empty)).1
        fun x => x ∈ insertedSince inputs := by
  obtain ⟨hempty, hread⟩ := sendACKsLoop_spec hmin hmax
    (a := inputs.foldl (acknowledgementStep maxBits) .empty) (Nat.le_refl _)
  exact ⟨hempty, hread.accepted, fun x => (hread.covers x).trans (covers_run hmin hmax inputs x)⟩

/-- With the smallest payload every datagram carries one range. -/
theorem smallest_acknowledgements_on_wire :
    (81 ≤ 81 ∧ 81 ≤ 8 * 1492) ∧
      ReadAs (sendACKs 81 ([AcknowledgementInput.sendAcknowledgementPacket 5,
        .sendAcknowledgementPacket 9, .sendAcknowledgementPacket 6].foldl
          (acknowledgementStep 81) .empty)).1 fun x => x ∈ [(5 : Uint24), 9, 6] :=
  ⟨by decide, (acknowledgements_on_wire (by decide) (by decide)
    [.sendAcknowledgementPacket 5, .sendAcknowledgementPacket 9,
      .sendAcknowledgementPacket 6]).2⟩

end SLikeNet
