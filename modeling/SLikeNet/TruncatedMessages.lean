import SLikeNet.MessageCodec

/-! When a message that the parser accepts was read in full: a read that fails in the middle is
forgotten as soon as a later one succeeds. -/

namespace SLikeNet

open BitStream

/-- The second reader is behind the first one by whole bytes of it, and by the given number of
bits if the first one has them. -/
def ReadsUpTo (r r' : Reader) (bits : ℕ) : Prop :=
  ∃ n, r' = ⟨r.unread.drop n, r.readOffset + n⟩ ∧ n % 8 = 0 ∧ n ≤ bits ∧ n ≤ r.unread.length ∧
    (bits ≤ r.unread.length → n = bits)

namespace ReadsUpTo

variable {r r' r'' : Reader} {bits bits' : ℕ}

theorem refl (r : Reader) : ReadsUpTo r r 0 :=
  ⟨0, rfl, rfl, Nat.le_refl 0, Nat.zero_le _, fun _ => rfl⟩

theorem trans (h : ReadsUpTo r r' bits) (h' : ReadsUpTo r' r'' bits') :
    ReadsUpTo r r'' (bits + bits') := by
  obtain ⟨n, rfl, haligned, hle, hlen, hall⟩ := h
  obtain ⟨n', rfl, haligned', hle', hlen', hall'⟩ := h'
  rw [List.length_drop] at hlen' hall'
  refine ⟨n + n', ?_, by omega, by omega, by omega, ?_⟩
  · rw [List.drop_drop, Nat.add_assoc]
  · intro h
    have h1 := hall (by omega)
    have h2 := hall' (by omega)
    omega

theorem aligned (h : ReadsUpTo r r' bits) (hr : r.readOffset % 8 = 0) :
    r'.readOffset % 8 = 0 := by
  obtain ⟨n, rfl, haligned, -⟩ := h
  show (r.readOffset + n) % 8 = 0
  omega

theorem align_eq (h : ReadsUpTo r r' bits) (hr : r.readOffset % 8 = 0) : r'.align = r' :=
  Reader.align_of_aligned (h.aligned hr)

theorem readOffset_eq_iff (h : ReadsUpTo r r' bits) :
    r'.readOffset = r.readOffset + bits ↔ bits ≤ r.unread.length := by
  obtain ⟨n, rfl, -, hle, hlen, hall⟩ := h
  show r.readOffset + n = r.readOffset + bits ↔ _
  omega

theorem of_read (r : Reader) (bits : ℕ) (h : bits % 8 = 0) : ReadsUpTo r (r.read bits).2 bits := by
  rw [Reader.read]
  split
  · exact ⟨0, rfl, rfl, Nat.zero_le _, Nat.zero_le _, by omega⟩
  · exact ⟨bits, rfl, h, Nat.le_refl _, by omega, fun _ => rfl⟩

theorem of_readNat (r : Reader) (bits : ℕ) (h : bits % 8 = 0) :
    ReadsUpTo r (r.readNat bits).2 bits :=
  of_read r bits h

theorem of_readUint24 (h : r.readOffset % 8 = 0) : ReadsUpTo r (Uint24.read r).2 24 := by
  have halign : r.align = r := Reader.align_of_aligned h
  rw [Uint24.read, halign]
  exact of_read r 24 rfl

end ReadsUpTo

namespace TransmittedMessage

/-- The bits of the header fields that come after the length of the data. -/
def fieldBits (reliability : PacketReliability) (hasSplitPacket : Bool) : ℕ :=
  (if reliability.readsNumber then 24 else 0) + (if reliability.isSequenced then 24 else 0) +
    (if hasChannel reliability then 24 + 8 else 0) + if hasSplitPacket then 32 + 16 + 32 else 0

/-- The reliability and the split flag in the first byte of a message. -/
def declaredReliability (r : Reader) : PacketReliability := .ofByte (ofBits (r.align.unread.take 3))

def declaresSplit (r : Reader) : Bool := (r.align.unread[3]?).getD false

theorem padding_lt (offset : ℕ) : padding offset < 8 := Nat.mod_lt _ (by decide)

theorem readStart_spec {r : Reader} (h : 32 ≤ r.unread.length) :
    24 ≤ r.align.unread.length ∧
      (readStart r).2 = ⟨r.align.unread.drop 24, r.align.readOffset + 24⟩ ∧
      (readStart r).1.1 = declaredReliability r ∧ (readStart r).1.2.1 = declaresSplit r := by
  have hlen : 24 ≤ r.align.unread.length := by
    have hpad := padding_lt r.readOffset
    show 24 ≤ (r.unread.drop _).length
    rw [List.length_drop]
    omega
  have hpos : r.align.readOffset % 8 = 0 := by
    show (r.readOffset + (8 - r.readOffset % 8) % 8) % 8 = 0
    omega
  rw [declaredReliability, declaresSplit]
  unfold readStart
  generalize r.align = a at *
  obtain ⟨unread, offset⟩ := a
  match unread, hlen with
  | b0 :: b1 :: b2 :: b3 :: rest, hlen =>
    refine ⟨hlen, ?_, ?_, ?_⟩
    · have hrest : 20 ≤ rest.length := by
        simp only [List.length_cons] at hlen
        omega
      have hpad : padding (offset + 3 + 1) = 4 := by
        have hpos : offset % 8 = 0 := hpos
        rw [padding]
        omega
      have hread : (Reader.mk (b0 :: b1 :: b2 :: b3 :: rest) offset).read 3 =
          (some [b0, b1, b2], ⟨b3 :: rest, offset + 3⟩) :=
        @Reader.read_append 3 [b0, b1, b2] rfl (b3 :: rest) offset
      simp only [readNatOr, readOr, Reader.readNat, hread, Reader.readBool, Reader.align, hpad]
      rw [Reader.read, if_neg (by rw [List.length_drop]; omega)]
      simp [Nat.add_assoc]
    · rfl
    · rfl

theorem readNumber_upTo (reliability : PacketReliability) {r : Reader}
    (h : r.readOffset % 8 = 0) :
    ReadsUpTo r (readNumber reliability r).2 (if reliability.readsNumber then 24 else 0) := by
  unfold readNumber
  dsimp only
  split
  · have hread := ReadsUpTo.of_readUint24 h
    show ReadsUpTo r (Uint24.read r).2.align 24
    rw [hread.align_eq h]
    exact hread
  · have halign : r.align = r := Reader.align_of_aligned h
    rw [halign]
    exact .refl r

theorem readSequencingIndex_upTo (reliability : PacketReliability) (old : Uint24) {r : Reader}
    (h : r.readOffset % 8 = 0) :
    ReadsUpTo r (readSequencingIndex reliability old r).2
      (if reliability.isSequenced then 24 else 0) := by
  unfold readSequencingIndex
  split
  · exact .of_readUint24 h
  · exact .refl r

theorem readChannel_upTo (reliability : PacketReliability) (old : TransmissionHeader) {r : Reader}
    (h : r.readOffset % 8 = 0) :
    ReadsUpTo r (readChannel reliability old r).2
      (if hasChannel reliability then 24 + 8 else 0) := by
  unfold readChannel
  split
  · exact (ReadsUpTo.of_readUint24 h).trans (.of_readNat _ 8 rfl)
  · exact .refl r

theorem readSplit_upTo {hasSplitPacket readSuccess : Bool} {r : Reader} :
    ReadsUpTo r (readSplit hasSplitPacket readSuccess r).2
      (if hasSplitPacket then 32 + 16 + 32 else 0) := by
  unfold readSplit
  split
  · exact ((ReadsUpTo.of_readNat r 32 rfl).trans (.of_readNat _ 16 rfl)).trans
      (.of_readNat _ 32 rfl)
  · exact .refl r

theorem readHeader_upTo (pool : TransmissionHeader) {r : Reader} (h : 32 ≤ r.unread.length) :
    ReadsUpTo (readStart r).2 (readHeader pool r).2
      (fieldBits (declaredReliability r) (declaresSplit r)) := by
  obtain ⟨-, hstart, hreliability, hsplit⟩ := readStart_spec h
  have haligned : (readStart r).2.readOffset % 8 = 0 := by
    rw [hstart]
    show (r.readOffset + (8 - r.readOffset % 8) % 8 + 24) % 8 = 0
    omega
  unfold readHeader fieldBits
  dsimp only
  rw [hreliability, hsplit]
  have h1 := readNumber_upTo (declaredReliability r) haligned
  have h2 := h1.trans (readSequencingIndex_upTo (declaredReliability r) pool.sequencingIndex
    (h1.aligned haligned))
  have h3 := h2.trans (readChannel_upTo (declaredReliability r) pool (h2.aligned haligned))
  exact h3.trans readSplit_upTo

theorem create_accepted {pool : TransmissionHeader} {r : Reader} {m : TransmittedMessage}
    (h : (create pool r).1 = some m) :
    32 ≤ r.unread.length ∧ m.reliability = declaredReliability r ∧
      decide (m.splitPacketCount > 0) = declaresSplit r ∧
      8 * bitsToBytes m.dataBitLength ≤ (readHeader pool r).2.align.unread.length ∧
      (create pool r).2.readOffset =
        (readHeader pool r).2.align.readOffset + 8 * bitsToBytes m.dataBitLength := by
  rw [create] at h ⊢
  split at h
  · cases h
  rename_i hshort
  have hlen : 32 ≤ r.unread.length := by omega
  obtain ⟨-, -, hreliability, hsplit⟩ := readStart_spec hlen
  rw [if_neg hshort]
  dsimp only at h ⊢
  split at h
  · rename_i hvalid
    rw [if_pos hvalid]
    obtain ⟨bytes, hbytes, rfl⟩ := Option.map_eq_some_iff.mp h
    refine ⟨hlen, hreliability, ?_, ?_⟩
    · rw [← hsplit]
      show decide ((readHeader pool r).1.1.splitPacketCount > 0) = (readHeader pool r).1.2.1
      have hcount : (readHeader pool r).1.2.1 = false →
          (readHeader pool r).1.1.splitPacketCount = 0 := by
        intro hno
        have hno : (readStart r).1.2.1 = false := hno
        simp only [readHeader, readSplit, hno, Bool.false_eq_true, if_false]
      simp only [validates, Bool.and_eq_true, Bool.or_eq_true, decide_eq_true_eq,
        Bool.not_eq_true'] at hvalid
      rcases hvalid.2 with hno | ⟨⟨hindex, -⟩, -⟩
      · rw [hcount hno, hno]
        rfl
      · cases hyes : (readHeader pool r).1.2.1 with
        | false =>
          rw [hcount hyes] at hindex
          omega
        | true =>
          rw [decide_eq_true_eq]
          omega
    · obtain ⟨bits, hread, -⟩ := Option.map_eq_some_iff.mp hbytes
      rw [Reader.read] at hread
      split at hread
      · cases hread
      · rename_i henough
        refine ⟨Nat.le_of_not_lt henough, ?_⟩
        show ((readHeader pool r).2.align.read _).2.readOffset = _
        rw [Reader.read, if_neg henough]
  · cases h

/-- A message that was accepted was read in full, with all of its fields in the buffer, exactly
if the buffer holds the fields that its first byte declares. -/
theorem create_full_iff {pool : TransmissionHeader} {r : Reader} {m : TransmittedMessage}
    (h : (create pool r).1 = some m) :
    ((create pool r).2.readOffset = r.align.readOffset + (8 + 16 +
          fieldBits m.reliability (decide (m.splitPacketCount > 0)) +
          8 * bitsToBytes m.dataBitLength) ∧
        8 + 16 + fieldBits m.reliability (decide (m.splitPacketCount > 0)) +
          8 * bitsToBytes m.dataBitLength ≤ r.align.unread.length) ↔
      8 + 16 + fieldBits (declaredReliability r) (declaresSplit r) ≤ r.align.unread.length := by
  obtain ⟨hlen, hreliability, hsplit, hdata, hoffset⟩ := create_accepted h
  obtain ⟨hstartLen, hstart, -, -⟩ := readStart_spec hlen
  have hheader := readHeader_upTo pool hlen
  have haligned : (readStart r).2.readOffset % 8 = 0 := by
    rw [hstart]
    show (r.readOffset + (8 - r.readOffset % 8) % 8 + 24) % 8 = 0
    omega
  rw [hheader.align_eq haligned] at hdata hoffset
  rw [hreliability, hsplit, hoffset]
  have hiff := hheader.readOffset_eq_iff
  obtain ⟨n, hn, -, -, hle, hall⟩ := hheader
  rw [hstart] at hiff hle hall hn
  rw [hn] at hdata hiff ⊢
  simp only [List.length_drop] at hdata hiff hle hall ⊢
  omega

/-- An unreliable message of one byte. -/
def loneByte : Reader := .ofStream (byteBits [0, 0, 8, 65])

def loneByteMessage : TransmittedMessage :=
  { TransmissionHeader.fromPool .unreliable with dataBitLength := 8, data := [65] }

theorem loneByte_full :
    ((create (.fromPool .unreliable) loneByte).2.readOffset = loneByte.align.readOffset + (8 + 16 +
          fieldBits loneByteMessage.reliability (decide (loneByteMessage.splitPacketCount > 0)) +
          8 * bitsToBytes loneByteMessage.dataBitLength) ∧
        8 + 16 +
          fieldBits loneByteMessage.reliability (decide (loneByteMessage.splitPacketCount > 0)) +
          8 * bitsToBytes loneByteMessage.dataBitLength ≤ loneByte.align.unread.length) ↔
      8 + 16 + fieldBits (declaredReliability loneByte) (declaresSplit loneByte) ≤
        loneByte.align.unread.length :=
  create_full_iff (by decide)

/-- A reliable message of one byte that ends before its message number is accepted. -/
theorem truncated_accepted :
    ¬ ∀ (pool : TransmissionHeader) (r : Reader) (m : TransmittedMessage),
      (create pool r).1 = some m →
        (create pool r).2.readOffset = r.align.readOffset + (8 + 16 +
            fieldBits m.reliability (decide (m.splitPacketCount > 0)) +
            8 * bitsToBytes m.dataBitLength) ∧
          8 + 16 + fieldBits m.reliability (decide (m.splitPacketCount > 0)) +
            8 * bitsToBytes m.dataBitLength ≤ r.align.unread.length := by
  intro h
  have hread := (h (.fromPool .unreliable) (.ofStream (byteBits [64, 0, 8, 65]))
    { TransmissionHeader.fromPool .reliable with dataBitLength := 8, data := [65] } (by decide)).2
  revert hread
  decide

end TransmittedMessage

end SLikeNet
