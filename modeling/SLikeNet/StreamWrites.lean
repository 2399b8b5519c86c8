import SLikeNet.PacketReads

/-! The writes of `BitStream`, as the bits that they append, and what the reads make of these. -/

namespace SLikeNet

open BitCursor PacketReads

namespace StreamWrites

/-- `WriteBits` of right-aligned data: of a byte that is not written whole, the lowest bits. -/
def rightAlignedBits (data : List Bool) (numberOfBitsToWrite : ℕ) : List Bool :=
  data.take (numberOfBitsToWrite / 8 * 8) ++
    if numberOfBitsToWrite % 8 = 0 then []
    else ((data.drop (numberOfBitsToWrite / 8 * 8)).take 8).drop (8 - numberOfBitsToWrite % 8)

def byteOf (bits : List Bool) (k : ℕ) : List Bool := (bits.drop (k * 8)).take 8

/-- `WriteCompressed` of an unsigned number, whose bits in network order these are, from
`currentByte` down. -/
def writeCompressedFrom (bits : List Bool) : ℕ → List Bool
  | 0 =>
    if (byteOf bits 0).take 4 = List.replicate 4 false then true :: (byteOf bits 0).drop 4
    else false :: byteOf bits 0
  | currentByte + 1 =>
    if byteOf bits (currentByte + 1) = List.replicate 8 false then
      true :: writeCompressedFrom bits currentByte
    else false :: rightAlignedBits bits ((currentByte + 2) * 8)

def writeCompressed (bytes value : ℕ) : List Bool :=
  writeCompressedFrom (BitStream.toBits (bytes * 8) value) (bytes - 1)

theorem rightAlignedBits_of_whole (data : List Bool) {n : ℕ} (h : n % 8 = 0) :
    rightAlignedBits data n = data.take n := by
  rw [rightAlignedBits, if_pos h, List.append_nil, Nat.div_mul_cancel (Nat.dvd_of_mod_eq_zero h)]

/-! ### Compressed numbers -/

variable {c : Cursor} {bits : List Bool}

theorem take_byteOf (bits : List Bool) (k : ℕ) :
    bits.take (k * 8) ++ byteOf bits k = bits.take ((k + 1) * 8) := by
  rw [byteOf, ← List.take_add, Nat.succ_mul]

theorem length_byteOf {k : ℕ} (h : k < bits.length / 8) : (byteOf bits k).length = 8 := by
  rw [byteOf, List.length_take, List.length_drop]
  omega

theorem readCompressedFrom_ahead {currentByte : ℕ} (hlength : currentByte < bits.length / 8)
    (h : c.Ahead (writeCompressedFrom bits currentByte)) :
    readCompressedFrom currentByte c =
      some (some (bits.take ((currentByte + 1) * 8)),
        c.advance (writeCompressedFrom bits currentByte).length) := by
  induction currentByte generalizing c with
  | zero =>
    have hbyte := length_byteOf hlength
    unfold writeCompressedFrom at h ⊢
    by_cases hhalf : (byteOf bits 0).take 4 = List.replicate 4 false
    · rw [if_pos hhalf] at h ⊢
      have hdrop : ((byteOf bits 0).drop 4).length = 4 := by rw [List.length_drop, hbyte]
      have hread := readBits_ahead h.tail hdrop (by decide)
      have hwhole : List.replicate 4 false ++ (byteOf bits 0).drop 4 = bits.take 8 := by
        rw [← hhalf, List.take_append_drop]
        rfl
      refine (bind_of_run (readBool_ahead h)).trans ((map_of_run _ hread).trans ?_)
      have hend : (true :: (byteOf bits 0).drop 4).length = 1 + 4 := by rw [List.length_cons, hdrop]
      rw [Option.map_some, hwhole, Cursor.advance_advance, hend]
    · rw [if_neg hhalf] at h ⊢
      have hread := readBits_ahead h.tail hbyte (by decide)
      refine (bind_of_run (readBool_ahead h)).trans (hread.trans ?_)
      have hend : (false :: byteOf bits 0).length = 1 + 8 := by rw [List.length_cons, hbyte]
      rw [Cursor.advance_advance, hend]
      rfl
  | succ currentByte ih =>
    unfold writeCompressedFrom at h ⊢
    by_cases hzero : byteOf bits (currentByte + 1) = List.replicate 8 false
    · rw [if_pos hzero] at h ⊢
      have hread := ih (by omega) h.tail
      refine (bind_of_run (readBool_ahead h)).trans ((map_of_run _ hread).trans ?_)
      have htake := take_byteOf bits (currentByte + 1)
      rw [hzero] at htake
      rw [Option.map_some, htake, Cursor.advance_advance, List.length_cons, Nat.add_comm 1]
    · have hwhole := rightAlignedBits_of_whole bits (Nat.mul_mod_left (currentByte + 2) 8)
      have hbits : (bits.take ((currentByte + 2) * 8)).length = (currentByte + 2) * 8 := by
        rw [List.length_take]
        omega
      rw [if_neg hzero, hwhole] at h ⊢
      have hread := readBits_ahead h.tail hbits (by omega)
      refine (bind_of_run (readBool_ahead h)).trans (hread.trans ?_)
      have hend : (false :: bits.take ((currentByte + 2) * 8)).length = 1 + (currentByte + 2) * 8 := by
        rw [List.length_cons, hbits, Nat.add_comm]
      rw [Cursor.advance_advance, hend]

theorem readCompressed_ahead {bytes value : ℕ} (hpos : 0 < bytes) (hvalue : value < 256 ^ bytes)
    (h : c.Ahead (writeCompressed bytes value)) :
    readCompressed bytes c = some (some value, c.advance (writeCompressed bytes value).length) := by
  have hlength := BitStream.length_toBits (bytes * 8) value
  have hread := readCompressedFrom_ahead (by rw [hlength]; omega) h
  refine (map_of_run _ hread).trans ?_
  have htake : (BitStream.toBits (bytes * 8) value).take ((bytes - 1 + 1) * 8) =
      BitStream.toBits (bytes * 8) value := by
    rw [Nat.sub_add_cancel hpos]
    exact List.take_of_length_le hlength.le
  have hlt : value < 2 ^ (bytes * 8) := by
    rw [Nat.mul_comm, Nat.pow_mul]
    exact hvalue
  rw [htake, Option.map_some, BitStream.ofBits_toBits_of_lt hlt]
  rfl

theorem length_writeCompressedFrom_le (bits : List Bool) (currentByte : ℕ) :
    (writeCompressedFrom bits currentByte).length ≤ (currentByte + 1) * 8 + 1 := by
  induction currentByte with
  | zero =>
    have hbyte : (byteOf bits 0).length ≤ 8 := List.length_take_le _ _
    unfold writeCompressedFrom
    split
    · rw [List.length_cons, List.length_drop]
      omega
    · rw [List.length_cons]
      omega
  | succ currentByte ih =>
    have htake := List.length_take_le ((currentByte + 2) * 8) bits
    unfold writeCompressedFrom
    split
    · rw [List.length_cons]
      omega
    · rw [rightAlignedBits_of_whole bits (Nat.mul_mod_left _ 8), List.length_cons]
      omega

end StreamWrites

end SLikeNet
