import SLikeNet.LeftAlignedBits
import Mathlib.Data.Nat.Size

/-! `WriteBitsFromIntegerRange` and `ReadBitsFromIntegerRange`: an integer as its distance to the
least one of a range, in as many bits as the range needs. -/

namespace SLikeNet

open BitMemory

/-- The integers that the template is used with. -/
inductive IntegerWidth
  | w8
  | w16
  | w32
  | w64

namespace IntegerWidth

def bytes : IntegerWidth → ℕ
  | w8 => 1
  | w16 => 2
  | w32 => 4
  | w64 => 8

def bits (w : IntegerWidth) : ℕ := 8 * w.bytes

end IntegerWidth

/-! ### `NumberOfLeadingZeroes` -/

/-- The tests of one upper half after the other. -/
def leadingZeroes : List ℕ → ℕ → ℕ → ℕ
  | [], n, x => if x >>> 1 ≠ 0 then n - 2 else n - x
  | half :: halves, n, x =>
    let y := x >>> half
    if y ≠ 0 then leadingZeroes halves (n - half) y else leadingZeroes halves n x

/-- `NumberOfLeadingZeroes` of the four widths. -/
def numberOfLeadingZeroes : (w : IntegerWidth) → BitVec w.bits → ℕ
  | .w8, x => leadingZeroes [4, 2] 8 x.toNat
  | .w16, x => leadingZeroes [8, 4, 2] 16 x.toNat
  | .w32, x => leadingZeroes [16, 8, 4, 2] 32 x.toNat
  | .w64, x => leadingZeroes [32, 16, 8, 4, 2] 64 x.toNat

/-! ### Integers in a stream -/

/-- The bytes of an integer from the lowest one on. -/
def image {w : IntegerWidth} (value : BitVec w.bits) : List UInt8 :=
  (List.range w.bytes).map fun k => UInt8.ofNat (value.toNat >>> (8 * k))

def ofImage (w : IntegerWidth) (bytes : List UInt8) : BitVec w.bits :=
  BitVec.ofNat _ (bytes.foldr (fun byte n => byte.toNat + 256 * n) 0)

/-- The comparison of the signed or of the unsigned integers. -/
def lower {w : IntegerWidth} (isSigned : Bool) (a b : BitVec w.bits) : Bool :=
  if isSigned then a.slt b else a.ult b

def requiredBits {w : IntegerWidth} (minimum maximum : BitVec w.bits) : ℕ :=
  w.bits - numberOfLeadingZeroes w (maximum - minimum)

theorem length_image {w : IntegerWidth} (value : BitVec w.bits) :
    (image value).length = w.bytes := by
  rw [image, List.length_map, List.length_range]

namespace StreamMemory

/-- The loop of `ReadBits`, which goes once for every byte that is started. -/
def readBitsLoop (alignBitsToRight : Bool) (data : ℕ → UInt8) : ℕ → ℕ → ℕ → List UInt8
  | 0, _, _ => []
  | bytes + 1, numberOfBitsToRead, readOffset =>
    let byte := byteAt data readOffset numberOfBitsToRead
    if numberOfBitsToRead ≥ 8 then
      byte :: readBitsLoop alignBitsToRight data bytes (numberOfBitsToRead - 8) (readOffset + 8)
    else if alignBitsToRight then [byte >>> UInt8.ofNat (8 - numberOfBitsToRead)]
    else [byte]

/-- `ReadBits` into the front of an array. -/
def readBits (s : StreamMemory) (inOutByteArray : List UInt8) (numberOfBitsToRead : ℕ)
    (alignBitsToRight : Bool) : Bool × List UInt8 × StreamMemory :=
  if numberOfBitsToRead = 0 then (false, inOutByteArray, s)
  else if s.getNumberOfUnreadBits < numberOfBitsToRead then (false, inOutByteArray, s)
  else
    let bytes :=
      if s.readOffset % 8 = 0 ∧ numberOfBitsToRead % 8 = 0 then
        (List.range (numberOfBitsToRead / 8)).map fun k => s.data (s.readOffset / 8 + k)
      else
        readBitsLoop alignBitsToRight s.data ((numberOfBitsToRead + 7) / 8) numberOfBitsToRead
          s.readOffset
    (true, bytes ++ inOutByteArray.drop bytes.length,
      { s with readOffset := s.readOffset + numberOfBitsToRead })

variable {w : IntegerWidth}

/-- `Write` of an integer, the highest byte first. -/
def writeInteger (s : StreamMemory) (value : BitVec w.bits) : StreamMemory :=
  s.writeBits ⟨(image value).reverse, w.bits, by rw [List.length_reverse, length_image]; rfl⟩ true

/-- `Read` of an integer. -/
def readInteger (s : StreamMemory) (value : BitVec w.bits) : Bool × BitVec w.bits × StreamMemory :=
  let read := s.readBits (List.replicate w.bytes 0) w.bits true
  (read.1, if read.1 then ofImage w read.2.1.reverse else value, read.2.2)

/-- `WriteBitsFromIntegerRange` -/
def writeBitsFromIntegerRange (s : StreamMemory) (isSigned : Bool)
    (value minimum maximum : BitVec w.bits) (allowOutsideRange : Bool) : StreamMemory :=
  if allowOutsideRange ∧ (lower isSigned value minimum ∨ lower isSigned maximum value) then
    s.write1.writeInteger value
  else
    let s := if allowOutsideRange then s.write0 else s
    s.writeBits ⟨image (value - minimum), requiredBits minimum maximum,
      by rw [length_image]; exact Nat.sub_le _ _⟩ true

/-- `ReadBitsFromIntegerRange`; the first bit is read without a look at the result. -/
def readBitsFromIntegerRange (s : StreamMemory) (value minimum maximum : BitVec w.bits)
    (allowOutsideRange : Bool) : Bool × BitVec w.bits × StreamMemory :=
  let outside := if allowOutsideRange then s.readBit else (false, s)
  if outside.1 then outside.2.readInteger value
  else
    let read := outside.2.readBits (List.replicate w.bytes 0) (requiredBits minimum maximum) true
    (read.1, if read.1 then ofImage w read.2.1 + minimum else value, read.2.2)

end StreamMemory

/-! ### The number of bits of a range -/

/-- The halves of a width down to two bits. -/
inductive Halves : List ℕ → ℕ → Prop
  | two : Halves [] 2
  | double {halves : List ℕ} {half : ℕ} : Halves halves half → Halves (half :: halves) (2 * half)

theorem size_shiftRight {x half : ℕ} (h : x >>> half ≠ 0) :
    Nat.size x = Nat.size (x >>> half) + half := by
  rw [Nat.shiftRight_eq_div_pow] at h ⊢
  generalize hy : x / 2 ^ half = y at h ⊢
  have hpos : 0 < 2 ^ half := Nat.two_pow_pos half
  have hlow : 2 ^ half * y ≤ x := hy ▸ Nat.mul_div_le x (2 ^ half)
  have hhigh : x < 2 ^ half * (y + 1) := hy ▸ Nat.lt_mul_div_succ x hpos
  apply Nat.le_antisymm
  · rw [Nat.size_le, Nat.pow_add, Nat.mul_comm]
    have hsize : y + 1 ≤ 2 ^ Nat.size y := Nat.lt_size_self y
    exact Nat.lt_of_lt_of_le hhigh (Nat.mul_le_mul_left _ hsize)
  · obtain ⟨k, hk⟩ : ∃ k, Nat.size y = k + 1 :=
      Nat.exists_eq_succ_of_ne_zero fun hzero => h (Nat.size_eq_zero.mp hzero)
    have hle : 2 ^ k ≤ y := Nat.lt_size.mp (by omega)
    rw [hk, show k + 1 + half = half + k + 1 by omega, Nat.succ_le_iff, Nat.lt_size, Nat.pow_add]
    exact Nat.le_trans (Nat.mul_le_mul_left _ hle) hlow

/-- Induction on the halves: of the upper and the lower half the one with the highest set bit is
looked at further. -/
theorem leadingZeroes_eq {halves : List ℕ} {width n x : ℕ} (h : Halves halves width)
    (hx : x < 2 ^ width) (hn : width ≤ n) : leadingZeroes halves n x = n - Nat.size x := by
  induction h generalizing n x with
  | two =>
    have hcases : x = 0 ∨ x = 1 ∨ x = 2 ∨ x = 3 := by omega
    rcases hcases with rfl | rfl | rfl | rfl <;> rfl
  | @double halves half _ ih =>
    rw [leadingZeroes]
    split
    · rename_i hupper
      have hlt : x >>> half < 2 ^ half := by
        rw [Nat.shiftRight_eq_div_pow]
        apply Nat.div_lt_of_lt_mul
        rwa [← Nat.pow_add, ← Nat.two_mul]
      rw [ih hlt (by omega), size_shiftRight hupper]
      omega
    · rename_i hupper
      have hlt : x < 2 ^ half := by
        rw [ne_eq, not_not, Nat.shiftRight_eq_div_pow, Nat.div_eq_zero_iff] at hupper
        exact hupper.resolve_left (Nat.two_pow_pos half).ne'
      exact ih hlt (by omega)

theorem numberOfLeadingZeroes_eq {w : IntegerWidth} (x : BitVec w.bits) :
    numberOfLeadingZeroes w x = w.bits - Nat.size x.toNat := by
  have htwo : Halves [2] 4 := .double .two
  have hfour : Halves [4, 2] 8 := .double htwo
  have height : Halves [8, 4, 2] 16 := .double hfour
  have hsixteen : Halves [16, 8, 4, 2] 32 := .double height
  have hthirtyTwo : Halves [32, 16, 8, 4, 2] 64 := .double hsixteen
  have hx := x.isLt
  cases w with
  | w8 => exact leadingZeroes_eq hfour hx (Nat.le_refl _)
  | w16 => exact leadingZeroes_eq height hx (Nat.le_refl _)
  | w32 => exact leadingZeroes_eq hsixteen hx (Nat.le_refl _)
  | w64 => exact leadingZeroes_eq hthirtyTwo hx (Nat.le_refl _)

theorem requiredBits_eq {w : IntegerWidth} (minimum maximum : BitVec w.bits) :
    requiredBits minimum maximum = Nat.size (maximum - minimum).toNat := by
  have hle : Nat.size (maximum - minimum).toNat ≤ w.bits :=
    Nat.size_le.mpr (maximum - minimum).isLt
  rw [requiredBits, numberOfLeadingZeroes_eq]
  omega

theorem toNat_sub_eq {n : ℕ} (a b : BitVec n) :
    (a - b).toNat = if b.toNat ≤ a.toNat then a.toNat - b.toNat
      else 2 ^ n - b.toNat + a.toNat := by
  have ha := a.isLt
  have hb := b.isLt
  rw [BitVec.toNat_sub]
  split
  · rename_i hle
    rw [show 2 ^ n - b.toNat + a.toNat = a.toNat - b.toNat + 2 ^ n by omega, Nat.add_mod_right,
      Nat.mod_eq_of_lt (by omega)]
  · exact Nat.mod_eq_of_lt (by omega)

theorem toNat_sub_le {w : IntegerWidth} {isSigned : Bool} {value minimum maximum : BitVec w.bits}
    (hmin : lower isSigned value minimum = false) (hmax : lower isSigned maximum value = false) :
    (value - minimum).toNat ≤ (maximum - minimum).toNat := by
  have hvalue := value.isLt
  have hminimum := minimum.isLt
  have hmaximum := maximum.isLt
  rw [toNat_sub_eq, toNat_sub_eq]
  cases isSigned with
  | false =>
    simp only [lower, BitVec.ult, decide_eq_false_iff_not, Bool.false_eq_true, if_false] at hmin
    simp only [lower, BitVec.ult, decide_eq_false_iff_not, Bool.false_eq_true, if_false] at hmax
    split <;> split <;> omega
  | true =>
    simp only [lower, BitVec.slt, decide_eq_false_iff_not, if_true,
      BitVec.toInt_eq_toNat_cond] at hmin hmax
    generalize 2 ^ w.bits = size at *
    split at hmin <;> split at hmin <;> split at hmax <;> split <;> split <;> omega

/-! ### Bytes that are read back -/

/-- The bits of an array that are not meant are zeros. -/
def Fits (bytes : List UInt8) (count : ℕ) : Prop :=
  ∀ k j, j < 8 → count ≤ 8 * k + (7 - j) → bit (bytes.getD k 0) j = false

theorem Fits.tail {byte : UInt8} {bytes : List UInt8} {count : ℕ}
    (h : Fits (byte :: bytes) (count + 8)) : Fits bytes count := by
  intro k j hj hle
  have hnext := h (k + 1) j hj (by omega)
  rwa [List.getD_cons_succ] at hnext

theorem Fits.drop_eq {bytes : List UInt8} {count : ℕ} (h : Fits bytes count) :
    bytes.drop ((count + 7) / 8) = List.replicate (bytes.length - (count + 7) / 8) 0 := by
  refine List.eq_replicate_iff.mpr ⟨List.length_drop, fun byte hbyte => ?_⟩
  obtain ⟨k, hk, rfl⟩ := List.getElem_of_mem hbyte
  rw [List.getElem_drop]
  apply eq_of_bit
  intro j hj
  rw [List.length_drop] at hk
  have hzero := h ((count + 7) / 8 + k) j hj (by omega)
  rw [List.getD_eq_getElem _ _ (by omega)] at hzero
  rw [hzero, bit_zero]

namespace StreamMemory

theorem readBitsLoop_aligned (alignBitsToRight : Bool) (data : ℕ → UInt8) (count start : ℕ) :
    readBitsLoop alignBitsToRight data count (8 * count) (8 * start) =
      (List.range count).map fun k => data (start + k) := by
  induction count generalizing start with
  | zero => rfl
  | succ count ih =>
    have hbyte : byteAt data (8 * start) (8 * (count + 1)) = data start := by
      apply eq_of_bit
      intro j hj
      rw [bit_byteAt data _ hj (by omega), bitAt]
      congr 2 <;> omega
    rw [readBitsLoop, if_pos (by omega), hbyte, show 8 * (count + 1) - 8 = 8 * count by omega,
      show 8 * start + 8 = 8 * (start + 1) by omega, ih, List.range_succ_eq_map, List.map_cons,
      List.map_map]
    congr 1
    apply List.map_congr_left
    intro k _
    show data (start + 1 + k) = data (start + (k + 1))
    congr 1
    omega

theorem readBitsLoop_eq {data : ℕ → UInt8} {bytes : List UInt8} {count start : ℕ}
    (hcount : count ≤ 8 * bytes.length) (hfits : Fits bytes count)
    (hbits : ∀ j < count, bitAt data (start + j) =
      if j / 8 = count / 8 then bit (bytes.getD (j / 8) 0) (j % 8 + (8 - count % 8))
      else bit (bytes.getD (j / 8) 0) (j % 8)) :
    readBitsLoop true data ((count + 7) / 8) count start = bytes.take ((count + 7) / 8) := by
  induction bytes generalizing count start with
  | nil =>
    obtain rfl : count = 0 := Nat.le_zero.mp hcount
    rfl
  | cons byte bytes ih =>
    rcases Nat.eq_zero_or_pos count with rfl | hpos
    · rfl
    rw [show (count + 7) / 8 = (count - 1) / 8 + 1 by omega, readBitsLoop, List.take_succ_cons]
    by_cases hwhole : count ≥ 8
    · obtain ⟨rest, rfl⟩ := Nat.exists_eq_add_of_le' hwhole
      have hbyte : byteAt data start (rest + 8) = byte := by
        apply eq_of_bit
        intro j hj
        rw [bit_byteAt data _ hj (by omega), hbits j (by omega),
          if_neg (by omega), show j / 8 = 0 by omega, List.getD_cons_zero, Nat.mod_eq_of_lt hj]
      have hrest : readBitsLoop true data ((rest + 7) / 8) rest (start + 8) =
          bytes.take ((rest + 7) / 8) := by
        apply ih (by rw [List.length_cons] at hcount; omega) hfits.tail
        intro j hj
        have hbit := hbits (j + 8) (by omega)
        rw [show start + 8 + j = start + (j + 8) by omega, hbit,
          show (j + 8) / 8 = j / 8 + 1 by omega, show (rest + 8) / 8 = rest / 8 + 1 by omega,
          List.getD_cons_succ, Nat.add_mod_right, Nat.add_mod_right]
        congr 1
        exact propext Nat.succ_inj
      rw [if_pos (by omega), hbyte, show rest + 8 - 8 = rest by omega,
        show (rest + 8 - 1) / 8 = (rest + 7) / 8 by omega,
        hrest]
    · have hbyte : byteAt data start count >>> UInt8.ofNat (8 - count) = byte := by
        apply eq_of_bit
        intro j hj
        rw [bit_shiftRight _ (by omega) hj]
        by_cases hused : 8 - count ≤ j
        · rw [decide_eq_true hused, Bool.true_and, bit_byteAt data _ (by omega) (by omega),
            hbits _ (by omega), if_pos (by omega), show (j - (8 - count)) / 8 = 0 by omega,
            List.getD_cons_zero]
          congr 1
          omega
        · have hzero := hfits 0 j hj (by omega)
          rw [List.getD_cons_zero] at hzero
          rw [decide_eq_false hused, Bool.false_and, hzero]
      rw [if_neg hwhole, if_pos rfl, hbyte, show (count - 1) / 8 = 0 by omega, List.take_zero]

theorem readBits_take {s : StreamMemory} {input : InputBits} (hpos : 0 < input.count)
    (hfits : Fits input.bytes input.count)
    (hunread : s.readOffset + input.count ≤ s.numberOfBitsUsed)
    (hbits : ∀ j < input.count, bitAt s.data (s.readOffset + j) = input.value true j)
    (inOutByteArray : List UInt8) :
    s.readBits inOutByteArray input.count true =
      (true, input.bytes.take ((input.count + 7) / 8) ++
        inOutByteArray.drop ((input.count + 7) / 8),
        { s with readOffset := s.readOffset + input.count }) := by
  have hloop := readBitsLoop_eq input.count_le hfits fun j hj => by
    rw [hbits j hj, InputBits.value, arrayBit]
    congr 1
    exact propext (and_iff_right rfl)
  have hbytes : (if s.readOffset % 8 = 0 ∧ input.count % 8 = 0 then
        (List.range (input.count / 8)).map fun k => s.data (s.readOffset / 8 + k)
      else readBitsLoop true s.data ((input.count + 7) / 8) input.count s.readOffset) =
      input.bytes.take ((input.count + 7) / 8) := by
    split
    · rename_i haligned
      have hwhole := readBitsLoop_aligned true s.data (input.count / 8) (s.readOffset / 8)
      rw [show 8 * (input.count / 8) = input.count by omega,
        show 8 * (s.readOffset / 8) = s.readOffset by omega] at hwhole
      rw [← hwhole, ← hloop]
      congr 1
      omega
    · exact hloop
  have hle := input.count_le
  have hlength : (input.bytes.take ((input.count + 7) / 8)).length = (input.count + 7) / 8 := by
    rw [List.length_take]
    omega
  have hunread' : ¬ s.getNumberOfUnreadBits < input.count := by
    rw [getNumberOfUnreadBits]
    split <;> omega
  rw [readBits, if_neg (by omega), if_neg hunread']
  dsimp only
  rw [hbytes, hlength]

theorem readBits_eq {s : StreamMemory} {input : InputBits} {size : ℕ}
    (hsize : input.bytes.length = size) (hpos : 0 < input.count)
    (hfits : Fits input.bytes input.count)
    (hunread : s.readOffset + input.count ≤ s.numberOfBitsUsed)
    (hbits : ∀ j < input.count, bitAt s.data (s.readOffset + j) = input.value true j) :
    s.readBits (List.replicate size 0) input.count true =
      (true, input.bytes, { s with readOffset := s.readOffset + input.count }) := by
  subst hsize
  rw [readBits_take hpos hfits hunread hbits, List.drop_replicate, ← hfits.drop_eq,
    List.take_append_drop]

end StreamMemory

/-! ### The image of an integer -/

theorem bit_image {w : IntegerWidth} (value : BitVec w.bits) (k : ℕ) {j : ℕ} (hj : j < 8) :
    bit ((image value).getD k 0) j = value.toNat.testBit (8 * k + (7 - j)) := by
  by_cases hk : k < w.bytes
  · rw [List.getD_eq_getElem _ _ (by rwa [length_image])]
    simp only [image, List.getElem_map, List.getElem_range]
    rw [bit, UInt8.toNat_ofNat', Nat.testBit_mod_two_pow, decide_eq_true (by omega),
      Bool.true_and, Nat.testBit_shiftRight]
  · rw [List.getD_eq_default _ _ (by rw [length_image]; omega), bit_zero]
    refine (Nat.testBit_lt_two_pow (Nat.lt_of_lt_of_le value.isLt ?_)).symm
    apply Nat.pow_le_pow_right (by decide)
    rw [IntegerWidth.bits]
    omega

theorem testBit_foldr (bytes : List UInt8) (k : ℕ) {i : ℕ} (hi : i < 8) :
    (bytes.foldr (fun (byte : UInt8) n => byte.toNat + 256 * n) 0).testBit (8 * k + i) =
      bit (bytes.getD k 0) (7 - i) := by
  induction bytes generalizing k with
  | nil => simp [bit]
  | cons byte bytes ih =>
    rw [List.foldr_cons, Nat.add_comm, show 256 = 2 ^ 8 from rfl,
      Nat.testBit_two_pow_mul_add _ (UInt8.toNat_lt byte)]
    cases k with
    | zero =>
      rw [if_pos (by omega), List.getD_cons_zero, bit]
      congr 1
      omega
    | succ k =>
      rw [if_neg (by omega), List.getD_cons_succ, ← ih]
      congr 1
      omega

theorem ofImage_image {w : IntegerWidth} (value : BitVec w.bits) :
    ofImage w (image value) = value := by
  apply BitVec.eq_of_toNat_eq
  rw [ofImage, BitVec.toNat_ofNat]
  apply Nat.eq_of_testBit_eq
  intro i
  rw [Nat.testBit_mod_two_pow]
  by_cases hi : i < w.bits
  · have hbit := testBit_foldr (image value) (i / 8) (Nat.mod_lt i (by decide : 0 < 8))
    rw [Nat.div_add_mod] at hbit
    rw [decide_eq_true hi, Bool.true_and, hbit, bit_image value _ (by omega)]
    congr 1
    omega
  · rw [decide_eq_false hi, Bool.false_and, Nat.testBit_lt_two_pow]
    exact Nat.lt_of_lt_of_le value.isLt (Nat.pow_le_pow_right (by decide) (by omega))

theorem fits_image {w : IntegerWidth} {value : BitVec w.bits} {count : ℕ}
    (h : value.toNat < 2 ^ count) : Fits (image value) count := by
  intro k j hj hle
  rw [bit_image value k hj, Nat.testBit_lt_two_pow]
  exact Nat.lt_of_lt_of_le h (Nat.pow_le_pow_right (by decide) hle)

theorem fits_whole (bytes : List UInt8) : Fits bytes (8 * bytes.length) := by
  intro k j hj hle
  rw [List.getD_eq_default _ _ (by omega), bit_zero]

namespace StreamMemory

/-! ### Round trips -/

/-- Behind the used bits of the last byte that was started there are zeros. -/
def Clean (s : StreamMemory) : Prop :=
  ∀ p, s.numberOfBitsUsed ≤ p → p / 8 * 8 < s.numberOfBitsUsed → bitAt s.data p = false

variable {s s' : StreamMemory} {count : ℕ} {overlay : ℕ → Bool}

theorem Clean.bitAt_eq (h : Clean s) (hputs : Puts s s' count overlay) {p : ℕ}
    (hle : s.numberOfBitsUsed ≤ p) (hp : p / 8 * 8 < s.numberOfBitsUsed + count) :
    bitAt s'.data p = overlay p := by
  rw [hputs.overlays.bit_eq p hp]
  by_cases hstarted : p / 8 * 8 < s.numberOfBitsUsed
  · rw [h p hle hstarted, Bool.and_false, Bool.false_or]
  · rw [decide_eq_false hstarted, Bool.false_and, Bool.false_or]

theorem Clean.write0 (h : Clean s) : Clean s.write0 := by
  intro p hle hp
  have hle : s.numberOfBitsUsed + 1 ≤ p := hle
  exact h.bitAt_eq (puts_write0 s) (by omega) hp

theorem Clean.write1 (h : Clean s) : Clean s.write1 := by
  intro p hle hp
  have hle : s.numberOfBitsUsed + 1 ≤ p := hle
  rw [h.bitAt_eq (puts_write1 s) (by omega) hp, decide_eq_false (by omega)]

theorem Clean.bitAt_writeBits (h : Clean s) (input : InputBits) {j : ℕ} (hj : j < input.count) :
    bitAt (s.writeBits input true).data (s.numberOfBitsUsed + j) = input.value true j := by
  rw [h.bitAt_eq (puts_writeBits s input true) (Nat.le_add_right _ _) (by omega),
    decide_eq_true (by omega), Bool.true_and, Nat.add_sub_cancel_left, storedBit_true (by omega),
    decide_eq_true hj, Bool.true_and]

theorem Clean.readBits_writeBits (h : Clean s) (input : InputBits) {size : ℕ}
    (hsize : input.bytes.length = size) (hpos : 0 < input.count)
    (hfits : Fits input.bytes input.count) :
    { s.writeBits input true with readOffset := s.numberOfBitsUsed }.readBits
        (List.replicate size 0) input.count true =
      (true, input.bytes,
        { s.writeBits input true with readOffset := s.numberOfBitsUsed + input.count }) := by
  have hused := (puts_writeBits s input true).used_eq
  exact readBits_eq (s := { s.writeBits input true with readOffset := s.numberOfBitsUsed }) hsize
    hpos hfits (Nat.le_of_eq hused.symm) fun j hj => h.bitAt_writeBits input hj

theorem readBit_writeBits {s : StreamMemory} (input : InputBits) {used : ℕ}
    (hused : s.numberOfBitsUsed = used + 1) :
    { s.writeBits input true with readOffset := used }.readBit =
      (bitAt s.data used, { s.writeBits input true with readOffset := used + 1 }) := by
  have hputs := puts_writeBits s input true
  have hunread : { s.writeBits input true with readOffset := used }.getNumberOfUnreadBits ≠ 0 := by
    have hlater := hputs.used_eq
    rw [getNumberOfUnreadBits]
    dsimp only
    split <;> omega
  rw [readBit, if_neg hunread, nextBit_eq]
  dsimp only
  rw [hputs.overlays.bitAt_eq (by omega)]

variable {w : IntegerWidth} {isSigned allowOutsideRange : Bool}
  {value minimum maximum : BitVec w.bits}

/-- A reader behind the bits that were used before the write gets the integer. -/
def ReadsBack (s : StreamMemory) (isSigned : Bool) (old value minimum maximum : BitVec w.bits)
    (allowOutsideRange : Bool) : Prop :=
  let written := s.writeBitsFromIntegerRange isSigned value minimum maximum allowOutsideRange
  let read := { written with readOffset := s.numberOfBitsUsed }.readBitsFromIntegerRange old
    minimum maximum allowOutsideRange
  read.1 = true ∧ read.2.1 = value

theorem read_write_outside (hclean : Clean s) (old : BitVec w.bits)
    (houtside : lower isSigned value minimum ∨ lower isSigned maximum value) :
    { s.writeBitsFromIntegerRange isSigned value minimum maximum true with
        readOffset := s.numberOfBitsUsed }.readBitsFromIntegerRange old minimum maximum true =
      (true, value,
        { s.writeBitsFromIntegerRange isSigned value minimum maximum true with
          readOffset := s.numberOfBitsUsed + 1 + w.bits }) := by
  have hbit : bitAt s.write1.data s.numberOfBitsUsed = true := by
    rw [hclean.bitAt_eq (puts_write1 s) (Nat.le_refl _) (by omega), decide_eq_true rfl]
  have hlength : (image value).reverse.length = w.bytes := by
    rw [List.length_reverse, length_image]
  have hfits : Fits (image value).reverse w.bits := by
    have hwhole := fits_whole (image value).reverse
    rwa [hlength] at hwhole
  have hpos : 0 < w.bits := by cases w <;> decide
  have hread := hclean.write1.readBits_writeBits
    ⟨(image value).reverse, w.bits, by rw [hlength]; rfl⟩ hlength hpos hfits
  dsimp only at hread
  rw [writeBitsFromIntegerRange, if_pos ⟨rfl, houtside⟩, readBitsFromIntegerRange, writeInteger]
  dsimp only
  rw [if_pos rfl, readBit_writeBits _ rfl, hbit]
  dsimp only
  rw [if_pos rfl, readInteger, show s.numberOfBitsUsed + 1 = s.write1.numberOfBitsUsed from rfl,
    hread]
  dsimp only
  rw [if_pos rfl, List.reverse_reverse, ofImage_image]

theorem read_write_inside (hclean : Clean s) (old : BitVec w.bits)
    (hmin : lower isSigned value minimum = false) (hmax : lower isSigned maximum value = false)
    (hne : minimum ≠ maximum) :
    { s.writeBitsFromIntegerRange isSigned value minimum maximum allowOutsideRange with
        readOffset := s.numberOfBitsUsed }.readBitsFromIntegerRange old minimum maximum
          allowOutsideRange =
      (true, value,
        { s.writeBitsFromIntegerRange isSigned value minimum maximum allowOutsideRange with
          readOffset := s.numberOfBitsUsed + (if allowOutsideRange then 1 else 0) +
            requiredBits minimum maximum }) := by
  have hrequired := requiredBits_eq minimum maximum
  have hpos : 0 < requiredBits minimum maximum := by
    rw [hrequired, Nat.size_pos]
    apply Nat.pos_of_ne_zero
    intro hzero
    have hsub : maximum - minimum = 0#w.bits := BitVec.eq_of_toNat_eq hzero
    have hsame := BitVec.sub_add_cancel maximum minimum
    rw [hsub, BitVec.zero_add] at hsame
    exact hne hsame
  have hfits : Fits (image (value - minimum)) (requiredBits minimum maximum) := by
    apply fits_image
    rw [hrequired]
    exact Nat.lt_of_le_of_lt (toNat_sub_le hmin hmax) (Nat.lt_size_self _)
  have hcount : requiredBits minimum maximum ≤ 8 * (image (value - minimum)).length := by
    rw [length_image]
    exact Nat.sub_le _ _
  rw [writeBitsFromIntegerRange, if_neg (by rw [hmin, hmax]; simp), readBitsFromIntegerRange]
  dsimp only
  cases allowOutsideRange with
  | false =>
    have hread := hclean.readBits_writeBits
      ⟨image (value - minimum), requiredBits minimum maximum, hcount⟩
      (length_image _) hpos hfits
    dsimp only at hread
    simp only [Bool.false_eq_true, if_false]
    rw [hread]
    dsimp only
    rw [if_pos rfl, ofImage_image, BitVec.sub_add_cancel, Nat.add_zero]
  | true =>
    have hread := hclean.write0.readBits_writeBits
      ⟨image (value - minimum), requiredBits minimum maximum, hcount⟩
      (length_image _) hpos hfits
    have hbit : bitAt s.write0.data s.numberOfBitsUsed = false :=
      hclean.bitAt_eq (puts_write0 s) (Nat.le_refl _) (by omega)
    dsimp only at hread
    simp only [if_true]
    rw [readBit_writeBits _ rfl, hbit]
    dsimp only
    rw [if_neg (by decide), show s.numberOfBitsUsed + 1 = s.write0.numberOfBitsUsed from rfl,
      hread]
    dsimp only
    rw [if_pos rfl, ofImage_image, BitVec.sub_add_cancel]

theorem read_write_single (hclean : Clean s) (old : BitVec w.bits)
    (hmin : lower isSigned value minimum = false) (hmax : lower isSigned minimum value = false) :
    ({ s.writeBitsFromIntegerRange isSigned value minimum minimum allowOutsideRange with
        readOffset := s.numberOfBitsUsed }.readBitsFromIntegerRange old minimum minimum
          allowOutsideRange).1 = false := by
  have hrequired : requiredBits minimum minimum = 0 := by
    rw [requiredBits_eq, BitVec.sub_self]
    exact Nat.size_zero
  rw [writeBitsFromIntegerRange, if_neg (by rw [hmin, hmax]; simp), readBitsFromIntegerRange]
  dsimp only
  cases allowOutsideRange with
  | false =>
    simp only [Bool.false_eq_true, if_false]
    rw [readBits, if_pos hrequired]
  | true =>
    have hbit : bitAt s.write0.data s.numberOfBitsUsed = false :=
      hclean.bitAt_eq (puts_write0 s) (Nat.le_refl _) (by omega)
    simp only [if_true]
    rw [readBit_writeBits _ rfl, hbit]
    dsimp only
    rw [if_neg (by decide), readBits, if_pos hrequired]

/-- A value is read back exactly if its range has more than one integer or it lies outside. -/
theorem readsBack_iff (hclean : Clean s) (isSigned allowOutsideRange : Bool)
    (old value minimum maximum : BitVec w.bits)
    (hvalue : allowOutsideRange = true ∨
      lower isSigned value minimum = false ∧ lower isSigned maximum value = false) :
    ReadsBack s isSigned old value minimum maximum allowOutsideRange ↔
      minimum ≠ maximum ∨
        lower isSigned value minimum = true ∨ lower isSigned maximum value = true := by
  rw [ReadsBack]
  by_cases hinside : lower isSigned value minimum = false ∧ lower isSigned maximum value = false
  · obtain ⟨hmin, hmax⟩ := hinside
    by_cases hne : minimum = maximum
    · subst hne
      rw [read_write_single hclean old hmin hmax, hmin, hmax]
      simp
    · rw [read_write_inside hclean old hmin hmax hne]
      simp [hne]
  · have houtside : lower isSigned value minimum = true ∨ lower isSigned maximum value = true := by
      rw [not_and_or, Bool.not_eq_false, Bool.not_eq_false] at hinside
      exact hinside
    obtain rfl := hvalue.resolve_right hinside
    rw [read_write_outside hclean old houtside]
    simp [houtside]

/-- A signed byte of the whole range, behind a bit. -/
theorem readsBack_signed_byte :
    ReadsBack (w := .w8) (StreamMemory.mk (fun _ => 0xFF) 0 0).write1 true 0 100 128 127 false :=
  (readsBack_iff (Clean.write1 fun _ _ hp => absurd hp (Nat.not_lt_zero _)) true false 0 100 128 127
    (.inr ⟨by decide, by decide⟩)).mpr (.inl (by decide))

/-- A range of the integer 5 alone. -/
theorem single_integer_lost :
    ¬ ∀ (w : IntegerWidth) (isSigned allowOutsideRange : Bool)
      (old value minimum maximum : BitVec w.bits),
      lower isSigned maximum minimum = false →
        (allowOutsideRange = true ∨
          lower isSigned value minimum = false ∧ lower isSigned maximum value = false) →
        ReadsBack ⟨fun _ => 0, 0, 0⟩ isSigned old value minimum maximum allowOutsideRange := by
  intro h
  have hread := (h .w8 false false 0 5 5 5 (by decide) (.inr ⟨by decide, by decide⟩)).1
  revert hread
  decide

end StreamMemory

end SLikeNet
