import SLikeNet.IntegerRange
import SLikeNet.Uint24

/-! Every kind of write and the read that corresponds to it, on machines of both byte orders. -/

namespace SLikeNet

open BitMemory

/-- Bits as `WriteBits` takes them from the right of the last byte. -/
structure RightAlignedBits extends InputBits where
  count_pos : 0 < count
  length_eq : bytes.length = (count + 7) / 8
  fits : Fits bytes count

def InputBits.whole (bytes : List UInt8) : InputBits :=
  ⟨bytes, 8 * bytes.length, Nat.le.refl⟩

/-! ### Byte orders -/

/-- The bytes of an integer as they lie in the memory of the machine. -/
def nativeImage (isBigEndian : Bool) {w : IntegerWidth} (value : BitVec w.bits) : List UInt8 :=
  if isBigEndian then (image value).reverse else image value

/-- `ReverseBytes` where `DoEndianSwap` asks for it; one byte is its own reverse. -/
def swapBytes (isBigEndian : Bool) (bytes : List UInt8) : List UInt8 :=
  if isBigEndian then bytes else bytes.reverse

/-- The three bytes of `val` that a `uint24_t` is written with. -/
def uint24Bytes (isBigEndian : Bool) (value : Uint24) : List UInt8 :=
  let val := nativeImage isBigEndian (BitVec.ofNat (IntegerWidth.bits .w32) value.val)
  if isBigEndian then [val.getD 3 0, val.getD 2 0, val.getD 1 0]
  else [val.getD 0 0, val.getD 1 0, val.getD 2 0]

namespace StreamMemory

/-! ### Writes -/

inductive TypedWrite
  | bool (inTemplateVar : Bool)
  | integer (w : IntegerWidth) (inTemplateVar : BitVec w.bits)
  | uint24 (inTemplateVar : Uint24)
  | bits (inByteArray : RightAlignedBits)
  | bytes (inputByteArray : List UInt8)
  | alignedBytes (inByteArray : List UInt8)
  | compressed (w : IntegerWidth) (inTemplateVar : BitVec w.bits)
  | align

/-- The first bytes of an array. -/
def firstBytes (inByteArray : List UInt8) (count : ℕ) : InputBits :=
  ⟨(List.range count).map (inByteArray.getD · 0), 8 * count, by simp⟩

/-- `WriteCompressed` from `currentByte` on; the templates call everything unsigned. -/
def writeCompressed (inByteArray : List UInt8) : ℕ → StreamMemory → StreamMemory
  | 0, s =>
    let first := inByteArray.getD 0 0
    if first &&& 0xF0 = 0 then s.write1.writeBits ⟨[first], 4, by simp⟩ true
    else s.write0.writeBits ⟨[first], 8, by simp⟩ true
  | currentByte + 1, s =>
    if inByteArray.getD (currentByte + 1) 0 = 0 then
      writeCompressed inByteArray currentByte s.write1
    else s.write0.writeBits (firstBytes inByteArray (currentByte + 2)) true

/-- What a read is called with. -/
inductive TypedRead
  | bool
  | integer (w : IntegerWidth)
  | uint24
  | bits (numberOfBitsToRead : ℕ)
  | bytes (numberOfBytes : ℕ)
  | alignedBytes (numberOfBytesToRead : ℕ)
  | compressed (w : IntegerWidth)
  | align

inductive TypedValue
  | bool (value : Bool)
  | integer (w : IntegerWidth) (value : BitVec w.bits)
  | uint24 (value : ℕ)
  | bytes (value : List UInt8)
  | nothing

def alignReadToByteBoundary (s : StreamMemory) : StreamMemory :=
  { s with readOffset := s.readOffset + BitStream.padding s.readOffset }

/-- `Read` of a `bool`. -/
def readBool (s : StreamMemory) : Option Bool × StreamMemory :=
  if s.getNumberOfUnreadBits = 0 then (none, s)
  else (some s.nextBit, { s with readOffset := s.readOffset + 1 })

/-- The copy of bytes from the read offset on. -/
def copyOut (s : StreamMemory) (numberOfBytes : ℕ) : Option (List UInt8) × StreamMemory :=
  if numberOfBytes > s.getNumberOfUnreadBits / 8 then (none, s)
  else
    (some ((List.range numberOfBytes).map fun k => s.data (s.readOffset / 8 + k)),
      { s with readOffset := s.readOffset + 8 * numberOfBytes })

def readAlignedBytes (s : StreamMemory) (numberOfBytesToRead : ℕ) :
    Option (List UInt8) × StreamMemory :=
  if numberOfBytesToRead = 0 then (none, s)
  else s.alignReadToByteBoundary.copyOut numberOfBytesToRead

/-- `ReadCompressed` from `currentByte` on; what is set in the upper half of a lowest byte, of which
four bits were read, are zeros. -/
def readCompressed : ℕ → List UInt8 → StreamMemory → Option (List UInt8) × StreamMemory
  | 0, inOutByteArray, s =>
    if s.readOffset + 1 > s.numberOfBitsUsed then (none, s)
    else
      match s.readBool with
      | (none, s) => (none, s)
      | (some b, s) =>
        let read := s.readBits inOutByteArray (if b then 4 else 8) true
        (if read.1 then some read.2.1 else none, read.2.2)
  | currentByte + 1, inOutByteArray, s =>
    match s.readBool with
    | (none, s) => (none, s)
    | (some true, s) => readCompressed currentByte (inOutByteArray.set (currentByte + 1) 0) s
    | (some false, s) =>
      let read := s.readBits inOutByteArray (8 * (currentByte + 2)) true
      (if read.1 then some read.2.1 else none, read.2.2)

def TypedWrite.read : TypedWrite → TypedRead
  | .bool _ => .bool
  | .integer w _ => .integer w
  | .uint24 _ => .uint24
  | .bits inByteArray => .bits inByteArray.count
  | .bytes inputByteArray => .bytes inputByteArray.length
  | .alignedBytes inByteArray => .alignedBytes inByteArray.length
  | .compressed w _ => .compressed w
  | .align => .align

def TypedWrite.value : TypedWrite → TypedValue
  | .bool inTemplateVar => .bool inTemplateVar
  | .integer w inTemplateVar => .integer w inTemplateVar
  | .uint24 inTemplateVar => .uint24 inTemplateVar.val
  | .bits inByteArray => .bytes inByteArray.bytes
  | .bytes inputByteArray => .bytes inputByteArray
  | .alignedBytes inByteArray => .bytes inByteArray
  | .compressed w inTemplateVar => .integer w inTemplateVar
  | .align => .nothing

def compressedOps (inByteArray : List UInt8) : ℕ → List WriteOp
  | 0 =>
    let first := inByteArray.getD 0 0
    if first &&& 0xF0 = 0 then [.write1, .writeBits ⟨[first], 4, by simp⟩ true]
    else [.write0, .writeBits ⟨[first], 8, by simp⟩ true]
  | currentByte + 1 =>
    if inByteArray.getD (currentByte + 1) 0 = 0 then
      .write1 :: compressedOps inByteArray currentByte
    else [.write0, .writeBits (firstBytes inByteArray (currentByte + 2)) true]

def TypedWrite.ops (isBigEndian : Bool) : TypedWrite → List WriteOp
  | .bool inTemplateVar => [if inTemplateVar then .write1 else .write0]
  | .integer _ inTemplateVar =>
    [.writeBits (.whole (swapBytes isBigEndian (nativeImage isBigEndian inTemplateVar))) true]
  | .uint24 inTemplateVar =>
    [.alignWriteToByteBoundary, .write (uint24Bytes isBigEndian inTemplateVar)]
  | .bits inByteArray => [.writeBits inByteArray.toInputBits true]
  | .bytes inputByteArray => [.write inputByteArray]
  | .alignedBytes inByteArray => [.alignWriteToByteBoundary, .write inByteArray]
  | .compressed w inTemplateVar =>
    compressedOps (swapBytes isBigEndian (nativeImage isBigEndian inTemplateVar)) (w.bytes - 1)
  | .align => [.alignWriteToByteBoundary]

def contentsFrom (used : ℕ) : List WriteOp → List (Option Bool)
  | [] => []
  | op :: ops => op.content used ++ contentsFrom (used + (op.content used).length) ops

/-- The bits from the read offset on. -/
structure Upcoming (s : StreamMemory) (bits : List (Option Bool)) : Prop where
  used_eq : s.readOffset + bits.length = s.numberOfBitsUsed
  bit_eq : ∀ (j : ℕ) (b : Bool), bits[j]? = some (some b) → bitAt s.data (s.readOffset + j) = b

variable {s : StreamMemory} {bits rest : List (Option Bool)} {used : ℕ}

theorem Upcoming.skip {count : ℕ} (h : Upcoming s (bits ++ rest)) (hcount : bits.length = count) :
    Upcoming { s with readOffset := s.readOffset + count } rest := by
  subst hcount
  constructor
  · rw [← h.used_eq, List.length_append, Nat.add_assoc]
  · intro j b hj
    rw [Nat.add_assoc]
    apply h.bit_eq
    rw [List.getElem?_append_right (Nat.le_add_right _ _), Nat.add_sub_cancel_left, hj]

theorem Upcoming.unread (h : Upcoming s bits) : s.getNumberOfUnreadBits = bits.length := by
  have hused := h.used_eq
  rw [getNumberOfUnreadBits]
  split <;> omega

theorem Upcoming.bitAt_eq {count : ℕ} {f : ℕ → Bool}
    (h : Upcoming s (((List.range count).map fun j => some (f j)) ++ rest)) {j : ℕ}
    (hj : j < count) :
    bitAt s.data (s.readOffset + j) = f j := by
  apply h.bit_eq
  rw [List.getElem?_append_left (by simpa using hj), List.getElem?_map, List.getElem?_range hj,
    Option.map_some]

theorem Upcoming.readBool {b : Bool} (h : Upcoming s ([some b] ++ rest)) :
    s.readBool = (some b, { s with readOffset := s.readOffset + 1 }) := by
  have hbit := h.bit_eq 0 b rfl
  rw [StreamMemory.readBool, if_neg (by rw [h.unread]; simp), nextBit_eq]
  rw [Nat.add_zero] at hbit
  rw [hbit]

theorem Upcoming.readBits {input : InputBits}
    (h : Upcoming s ((WriteOp.writeBits input true).content used ++ rest)) (hpos : 0 < input.count)
    (hfits : Fits input.bytes input.count) (inOutByteArray : List UInt8) :
    s.readBits inOutByteArray input.count true =
      (true, input.bytes.take ((input.count + 7) / 8) ++
        inOutByteArray.drop ((input.count + 7) / 8),
        { s with readOffset := s.readOffset + input.count }) := by
  apply readBits_take hpos hfits
  · have hused := h.used_eq
    simp only [WriteOp.content, List.length_append, List.length_map, List.length_range] at hused
    omega
  · intro j hj
    exact h.bitAt_eq hj

theorem Upcoming.copyOut {bytes : List UInt8}
    (h : Upcoming s ((WriteOp.write bytes).content used ++ rest))
    (haligned : s.readOffset % 8 = 0) :
    s.copyOut bytes.length =
      (some bytes, { s with readOffset := s.readOffset + 8 * bytes.length }) := by
  have hunread := h.unread
  simp only [WriteOp.content, List.length_append, List.length_map, List.length_range] at hunread
  rw [StreamMemory.copyOut, if_neg (by omega)]
  congr 2
  apply List.ext_getElem
  · simp
  · intro k hk hk'
    rw [List.getElem_map, List.getElem_range]
    apply eq_of_bit
    intro j hj
    have hbit := h.bitAt_eq (show 8 * k + j < 8 * bytes.length by omega)
    rw [bitAt, arrayBit, show (s.readOffset + (8 * k + j)) / 8 = s.readOffset / 8 + k by omega,
      show (s.readOffset + (8 * k + j)) % 8 = j by omega, show (8 * k + j) / 8 = k by omega,
      show (8 * k + j) % 8 = j by omega, List.getD_eq_getElem _ _ hk'] at hbit
    exact hbit

theorem length_right (input : InputBits) (used : ℕ) :
    ((WriteOp.writeBits input true).content used).length = input.count := by
  simp [WriteOp.content]

theorem contentsFrom_singleton (op : WriteOp) : contentsFrom used [op] = op.content used :=
  List.append_nil _

theorem Upcoming.align
    (h : Upcoming s (WriteOp.alignWriteToByteBoundary.content s.readOffset ++ rest)) :
    Upcoming s.alignReadToByteBoundary rest :=
  h.skip (List.length_replicate ..)

theorem readOffset_align (s : StreamMemory) : s.alignReadToByteBoundary.readOffset % 8 = 0 := by
  show (s.readOffset + BitStream.padding s.readOffset) % 8 = 0
  rw [BitStream.padding]
  omega

theorem Upcoming.readAlignedBytes {bytes : List UInt8} {used : ℕ}
    (h : Upcoming s (WriteOp.alignWriteToByteBoundary.content s.readOffset ++
      ((WriteOp.write bytes).content used ++ rest))) (hne : bytes ≠ []) :
    s.readAlignedBytes bytes.length =
      (some bytes, { s with
        readOffset := s.readOffset + BitStream.padding s.readOffset + 8 * bytes.length }) := by
  rw [StreamMemory.readAlignedBytes, if_neg fun hzero => hne (List.length_eq_zero_iff.mp hzero)]
  exact h.align.copyOut (readOffset_align s)

/-! ### Integers of both byte orders -/

theorem Upcoming.flag {b : Bool} (h : Upcoming s ([some b] ++ rest)) :
    s.readBool = (some b, { s with readOffset := s.readOffset + 1 }) ∧
      Upcoming { s with readOffset := s.readOffset + 1 } rest :=
  ⟨h.readBool, h.skip rfl⟩

theorem fits_half {byte : UInt8} (h : byte &&& 0xF0 = 0) : Fits [byte] 4 := by
  intro k j hj hle
  cases k with
  | zero =>
    have hmask : bit 0xF0 j = true := by
      have hcases : j = 0 ∨ j = 1 ∨ j = 2 ∨ j = 3 := by omega
      rcases hcases with rfl | rfl | rfl | rfl <;> decide
    have hbit := bit_and byte 0xF0 j
    rw [h, bit_zero, hmask, Bool.and_true] at hbit
    exact hbit.symm
  | succ k => exact bit_zero j

theorem firstBytes_eq {bytes : List UInt8} {count : ℕ} (h : count ≤ bytes.length) :
    (firstBytes bytes count).bytes = bytes.take count := by
  apply List.ext_getElem
  · rw [List.length_take, Nat.min_eq_left h]
    simp [firstBytes]
  · intro k hk hk'
    rw [List.length_take] at hk'
    have hlt : k < bytes.length := by omega
    simp [firstBytes, hlt]

theorem Upcoming.readLowest {b : Bool} {input : InputBits} {first : UInt8}
    {bytes inOutByteArray : List UInt8}
    (h : Upcoming s ([some b] ++ ((WriteOp.writeBits input true).content used ++ rest)))
    (hcount : input.count = if b then 4 else 8) (hfits : Fits input.bytes input.count)
    (hfirst : input.bytes = [first]) (hbytes : first :: inOutByteArray.drop 1 = bytes) :
    StreamMemory.readCompressed 0 inOutByteArray s =
      (some bytes, { s with readOffset := s.readOffset + (1 + input.count) }) := by
  have hused := h.used_eq
  rw [List.length_append, List.length_singleton] at hused
  have hpos : 0 < input.count := by
    rw [hcount]
    split <;> decide
  have hbyte : (input.count + 7) / 8 = 1 := by
    rw [hcount]
    split <;> rfl
  obtain ⟨hbool, hnext⟩ := h.flag
  have hbits := hnext.readBits hpos hfits inOutByteArray
  rw [hbyte, hfirst, hcount] at hbits
  rw [StreamMemory.readCompressed, if_neg (by omega), hbool]
  dsimp only
  rw [hbits, List.take_one, List.head?_cons, Option.toList_some, List.singleton_append, hbytes,
    hcount, Nat.add_assoc]
  rfl

/-- Induction on `currentByte`: what was read before are the bytes behind it. -/
theorem Upcoming.readCompressed {bytes inOutByteArray : List UInt8} {n : ℕ}
    (h : Upcoming s (contentsFrom used (compressedOps bytes n) ++ rest)) (hn : n < bytes.length)
    (hlength : inOutByteArray.length = bytes.length)
    (hbehind : inOutByteArray.drop (n + 1) = bytes.drop (n + 1)) :
    StreamMemory.readCompressed n inOutByteArray s =
      (some bytes, { s with
        readOffset := s.readOffset + (contentsFrom used (compressedOps bytes n)).length }) := by
  induction n generalizing s inOutByteArray used with
  | zero =>
    have hfirst : bytes.getD 0 0 :: inOutByteArray.drop 1 = bytes := by
      rw [hbehind]
      cases bytes with
      | nil => exact absurd hn (Nat.not_lt_zero 0)
      | cons byte bytes => rfl
    rw [compressedOps] at h ⊢
    split at h
    · rename_i hhalf
      rw [if_pos hhalf, contentsFrom, contentsFrom_singleton, List.length_append, length_right]
      rw [contentsFrom, contentsFrom_singleton, List.append_assoc] at h
      have hlow : Upcoming s ([some true] ++ ((WriteOp.writeBits
          ⟨[bytes.getD 0 0], 4, by simp⟩ true).content (used + 1) ++ rest)) := h
      exact hlow.readLowest rfl (fits_half hhalf) rfl hfirst
    · rename_i hhalf
      rw [if_neg hhalf, contentsFrom, contentsFrom_singleton, List.length_append, length_right]
      rw [contentsFrom, contentsFrom_singleton, List.append_assoc] at h
      have hlow : Upcoming s ([some false] ++ ((WriteOp.writeBits
          ⟨[bytes.getD 0 0], 8, by simp⟩ true).content (used + 1) ++ rest)) := h
      exact hlow.readLowest rfl (fits_whole [bytes.getD 0 0]) rfl hfirst
  | succ n ih =>
    rw [compressedOps] at h ⊢
    split at h
    · rename_i hzero
      rw [if_pos hzero, contentsFrom, List.length_append]
      rw [contentsFrom, List.append_assoc] at h
      obtain ⟨hbool, hnext⟩ := Upcoming.flag (b := true) h
      have hset : (inOutByteArray.set (n + 1) 0).drop (n + 1) = bytes.drop (n + 1) := by
        have hlt : n + 1 < (inOutByteArray.set (n + 1) 0).length := by
          rw [List.length_set, hlength]
          exact hn
        rw [List.drop_eq_getElem_cons hlt, List.drop_eq_getElem_cons hn, List.getElem_set_self,
          List.drop_set_of_lt (by omega), hbehind]
        congr 1
        rw [List.getD_eq_getElem _ _ hn] at hzero
        exact hzero.symm
      have hread := ih hnext (by omega) (by rw [List.length_set, hlength]) hset
      rw [StreamMemory.readCompressed, hbool]
      dsimp only
      rw [hread, ← Nat.add_assoc]
      rfl
    · rename_i hother
      rw [if_neg hother, contentsFrom, contentsFrom_singleton, List.length_append, length_right]
      rw [contentsFrom, contentsFrom_singleton, List.append_assoc] at h
      obtain ⟨hbool, hnext⟩ := Upcoming.flag (b := false) h
      have hlen : (firstBytes bytes (n + 2)).bytes.length = n + 2 := by simp [firstBytes]
      have hfits := fits_whole (firstBytes bytes (n + 2)).bytes
      rw [hlen] at hfits
      have hbits := hnext.readBits (show 0 < 8 * (n + 2) by omega) hfits inOutByteArray
      have hcount : ((firstBytes bytes (n + 2)).count + 7) / 8 = n + 2 := by
        show (8 * (n + 2) + 7) / 8 = n + 2
        omega
      rw [hcount, firstBytes_eq (by omega), List.take_take, Nat.min_self, hbehind,
        List.take_append_drop] at hbits
      rw [StreamMemory.readCompressed, hbool]
      dsimp only
      rw [show 8 * (n + 2) = (firstBytes bytes (n + 2)).count from rfl, hbits, ← Nat.add_assoc]
      rfl

/-! ### Every write and its read -/

end StreamMemory

end SLikeNet
