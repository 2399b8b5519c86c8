import SLikeNet.Library.BitOverlay

/-! The writes of `BitStream` on the bytes that `data` points to, of which there are enough, and
the bits that are read back from them. -/

namespace SLikeNet

open BitMemory

structure StreamMemory where
  data : ℕ → UInt8
  numberOfBitsUsed : ℕ
  readOffset : ℕ

/-- An array that is passed to `WriteBits`, and how many of its bits. -/
structure InputBits where
  bytes : List UInt8
  count : ℕ
  count_le : count ≤ 8 * bytes.length

namespace StreamMemory

def write0 (s : StreamMemory) : StreamMemory :=
  { s with
    data :=
      if s.numberOfBitsUsed % 8 = 0 then Function.update s.data (s.numberOfBitsUsed / 8) 0
      else s.data
    numberOfBitsUsed := s.numberOfBitsUsed + 1 }

def write1 (s : StreamMemory) : StreamMemory :=
  { s with
    data :=
      if s.numberOfBitsUsed % 8 = 0 then Function.update s.data (s.numberOfBitsUsed / 8) 0x80
      else
        Function.update s.data (s.numberOfBitsUsed / 8)
          (s.data (s.numberOfBitsUsed / 8) ||| 0x80 >>> UInt8.ofNat (s.numberOfBitsUsed % 8))
    numberOfBitsUsed := s.numberOfBitsUsed + 1 }

/-- The loop of `WriteBits`. -/
def writeBitsLoop (rightAlignedBits : Bool) : List UInt8 → ℕ → StreamMemory → StreamMemory
  | [], _, s => s
  | inputByte :: input, numberOfBitsToWrite, s =>
    if numberOfBitsToWrite = 0 then s
    else
      let dataByte :=
        if numberOfBitsToWrite < 8 ∧ rightAlignedBits then
          inputByte <<< UInt8.ofNat (8 - numberOfBitsToWrite)
        else inputByte
      writeBitsLoop rightAlignedBits input (numberOfBitsToWrite - 8)
        { s with
          data := putByte s.data s.numberOfBitsUsed dataByte numberOfBitsToWrite
          numberOfBitsUsed := s.numberOfBitsUsed + min numberOfBitsToWrite 8 }

/-- `WriteBits` -/
def writeBits (s : StreamMemory) (input : InputBits) (rightAlignedBits : Bool) : StreamMemory :=
  if s.numberOfBitsUsed % 8 = 0 ∧ input.count % 8 = 0 then
    { s with
      data := copyBytes s.data (s.numberOfBitsUsed / 8) (input.bytes.getD · 0) (input.count / 8)
      numberOfBitsUsed := s.numberOfBitsUsed + input.count }
  else writeBitsLoop rightAlignedBits input.bytes input.count s

/-- `Write` of an array of bytes. -/
def write (s : StreamMemory) (inputByteArray : List UInt8) : StreamMemory :=
  if inputByteArray.length = 0 then s
  else if s.numberOfBitsUsed % 8 = 0 then
    { s with
      data := copyBytes s.data (s.numberOfBitsUsed / 8) (inputByteArray.getD · 0)
        inputByteArray.length
      numberOfBitsUsed := s.numberOfBitsUsed + 8 * inputByteArray.length }
  else s.writeBits ⟨inputByteArray, 8 * inputByteArray.length, Nat.le_refl _⟩ true

def alignWriteToByteBoundary (s : StreamMemory) : StreamMemory :=
  { s with numberOfBitsUsed := s.numberOfBitsUsed + BitStream.padding s.numberOfBitsUsed }

def getNumberOfUnreadBits (s : StreamMemory) : ℕ :=
  if s.readOffset > s.numberOfBitsUsed then 0 else s.numberOfBitsUsed - s.readOffset

/-- The test of the bit at the read offset. -/
def nextBit (s : StreamMemory) : Bool :=
  decide (s.data (s.readOffset / 8) &&& 0x80 >>> UInt8.ofNat (s.readOffset % 8) ≠ 0)

def readBit (s : StreamMemory) : Bool × StreamMemory :=
  if s.getNumberOfUnreadBits = 0 then (false, s)
  else (s.nextBit, { s with readOffset := s.readOffset + 1 })

theorem nextBit_eq (s : StreamMemory) : s.nextBit = bitAt s.data s.readOffset :=
  (bit_eq_decide _ (Nat.mod_lt _ (by decide))).symm

/-! ### What a write puts behind the used bits -/

/-- Bit `j` of the bytes as the loop of `WriteBits` stores them. -/
def storedBit (rightAlignedBits : Bool) (input : List UInt8) (count j : ℕ) : Bool :=
  if count < 8 * (j / 8) + 8 ∧ rightAlignedBits then
    bit (input.getD (j / 8) 0 <<< UInt8.ofNat (8 - count % 8)) (j % 8)
  else bit (input.getD (j / 8) 0) (j % 8)

/-- The second stream is the first one after some bits were put behind its used ones. -/
structure Puts (s s' : StreamMemory) (count : ℕ) (overlay : ℕ → Bool) : Prop where
  used_eq : s'.numberOfBitsUsed = s.numberOfBitsUsed + count
  readOffset_eq : s'.readOffset = s.readOffset
  overlays : Overlays s.data s'.data s.numberOfBitsUsed (s.numberOfBitsUsed + count) overlay

variable {s s' : StreamMemory} {input : List UInt8}

theorem puts_write0 (s : StreamMemory) : Puts s s.write0 1 fun _ => false := by
  have h := overlays_putBit s.data s.numberOfBitsUsed false
  refine ⟨rfl, rfl, ?_⟩
  apply h.congr
  intro p _
  rw [Bool.and_false]

theorem puts_write1 (s : StreamMemory) :
    Puts s s.write1 1 fun p => decide (p = s.numberOfBitsUsed) := by
  have h := overlays_putBit s.data s.numberOfBitsUsed true
  refine ⟨rfl, rfl, ?_⟩
  apply h.congr
  intro p _
  rw [Bool.and_true]

theorem puts_alignWriteToByteBoundary (s : StreamMemory) :
    Puts s s.alignWriteToByteBoundary (BitStream.padding s.numberOfBitsUsed) fun _ => false :=
  ⟨rfl, rfl, .pad _ _⟩

theorem Puts.congr {count : ℕ} {overlay overlay' : ℕ → Bool} (h : Puts s s' count overlay)
    (hsame : ∀ p, p / 8 * 8 < s.numberOfBitsUsed + count → overlay' p = overlay p) :
    Puts s s' count overlay' :=
  ⟨h.used_eq, h.readOffset_eq, h.overlays.congr hsame⟩

theorem Puts.trans {s'' : StreamMemory} {count count' : ℕ} {overlay overlay' : ℕ → Bool}
    (h : Puts s s' count overlay) (h' : Puts s' s'' count' overlay') :
    Puts s s'' (count + count') fun p =>
      (decide (p / 8 * 8 < s.numberOfBitsUsed + count) && overlay p) || overlay' p := by
  refine ⟨?_, h'.readOffset_eq.trans h.readOffset_eq, ?_⟩
  · rw [h'.used_eq, h.used_eq, Nat.add_assoc]
  · have hnext := h'.overlays
    rw [h.used_eq] at hnext
    rw [← Nat.add_assoc]
    exact h.overlays.trans hnext

theorem puts_zero (s : StreamMemory) : Puts s s 0 fun _ => false :=
  ⟨rfl, rfl, .refl _ _⟩

theorem puts_writeBitsLoop (rightAlignedBits : Bool) {count : ℕ}
    (hcount : count ≤ 8 * input.length) (s : StreamMemory) :
    Puts s (writeBitsLoop rightAlignedBits input count s) count fun p =>
      decide (s.numberOfBitsUsed ≤ p ∧ p < s.numberOfBitsUsed + 8 * ((count + 7) / 8)) &&
        storedBit rightAlignedBits input count (p - s.numberOfBitsUsed) := by
  have hnone : ∀ used p, (decide (used ≤ p ∧ p < used + 8 * ((0 + 7) / 8)) : Bool) = false :=
    fun used p => decide_eq_false (by omega)
  induction input generalizing count s with
  | nil =>
    obtain rfl : count = 0 := Nat.le_zero.mp hcount
    apply (puts_zero s).congr
    intro p _
    rw [hnone, Bool.false_and]
  | cons inputByte input ih =>
    rw [writeBitsLoop]
    by_cases hzero : count = 0
    · subst hzero
      rw [if_pos rfl]
      apply (puts_zero s).congr
      intro p _
      rw [hnone, Bool.false_and]
    rw [if_neg hzero]
    dsimp only
    generalize hbyte : (if count < 8 ∧ rightAlignedBits = true then
      inputByte <<< UInt8.ofNat (8 - count) else inputByte) = dataByte
    have hfirst : Puts s { s with
        data := putByte s.data s.numberOfBitsUsed dataByte count
        numberOfBitsUsed := s.numberOfBitsUsed + min count 8 } (min count 8)
        (byteBits s.numberOfBitsUsed dataByte) :=
      ⟨rfl, rfl, overlays_putByte _ _ _ (Nat.pos_of_ne_zero hzero)⟩
    have hcount' : count - 8 ≤ 8 * input.length := by
      rw [List.length_cons] at hcount
      omega
    have hrest := hfirst.trans (ih hcount' _)
    rw [show min count 8 + (count - 8) = count by omega] at hrest
    apply hrest.congr
    intro p hp
    dsimp only
    generalize s.numberOfBitsUsed = used at hp ⊢
    by_cases hle : used ≤ p
    swap
    · rw [byteBits, decide_eq_false (show ¬ (used ≤ p ∧ p < used + 8 * _) by omega),
        decide_eq_false (show ¬ (used ≤ p ∧ p < used + 8) by omega),
        decide_eq_false (show ¬ (used + min count 8 ≤ p ∧ _) by omega)]
      simp only [Bool.false_and, Bool.and_false, Bool.or_false]
    by_cases hin : p < used + 8
    · -- the first byte
      have hj : (p - used) / 8 = 0 := by omega
      have hmod : (p - used) % 8 = p - used := by omega
      have hstored : storedBit rightAlignedBits (inputByte :: input) count (p - used) =
          bit dataByte (p - used) := by
        rw [storedBit, hj, hmod, List.getD_cons_zero, ← hbyte, Nat.mul_zero, Nat.zero_add]
        by_cases hpart : count < 8 ∧ rightAlignedBits = true
        · rw [if_pos hpart, if_pos hpart, Nat.mod_eq_of_lt hpart.1]
        · rw [if_neg hpart, if_neg hpart]
      rw [byteBits, hstored, decide_eq_true (show used ≤ p ∧ p < used + 8 * _ by omega),
        decide_eq_true (show used ≤ p ∧ p < used + 8 by omega),
        decide_eq_true (show p / 8 * 8 < used + min count 8 by omega),
        decide_eq_false (show ¬ (used + min count 8 ≤ p ∧ _) by omega)]
      simp only [Bool.true_and, Bool.false_and, Bool.or_false]
    · have hj : (p - used) / 8 = (p - (used + 8)) / 8 + 1 := by omega
      have hmod : (p - used) % 8 = (p - (used + 8)) % 8 := by omega
      rw [byteBits, decide_eq_false (show ¬ (used ≤ p ∧ p < used + 8) by omega)]
      simp only [Bool.false_and, Bool.and_false, Bool.false_or]
      by_cases hmin : min count 8 = 8
      · rw [hmin, storedBit, storedBit, hj, hmod, List.getD_cons_succ,
          show (count - 8) % 8 = count % 8 by omega]
        congr 1
        · exact decide_eq_decide.mpr (by omega)
        · congr 1
          exact propext (and_congr_left' (by omega))
      · rw [decide_eq_false (by omega), decide_eq_false (by omega), Bool.false_and,
          Bool.false_and]

theorem puts_writeBits (s : StreamMemory) (input : InputBits) (rightAlignedBits : Bool) :
    Puts s (s.writeBits input rightAlignedBits) input.count fun p =>
      decide (s.numberOfBitsUsed ≤ p ∧ p < s.numberOfBitsUsed + 8 * ((input.count + 7) / 8)) &&
        storedBit rightAlignedBits input.bytes input.count (p - s.numberOfBitsUsed) := by
  rw [writeBits]
  split
  · rename_i haligned
    have hcount : 8 * (input.count / 8) = input.count := by omega
    have hcopy := overlays_copyBytes s.data (input.bytes.getD · 0) haligned.1 (input.count / 8)
    rw [hcount] at hcopy
    refine ⟨rfl, rfl, hcopy.congr fun p _ => ?_⟩
    rw [show 8 * ((input.count + 7) / 8) = input.count by omega]
    by_cases hin : s.numberOfBitsUsed ≤ p ∧ p < s.numberOfBitsUsed + input.count
    · rw [storedBit, if_neg (by omega)]
      rfl
    · rw [decide_eq_false hin, Bool.false_and, Bool.false_and]
  · exact puts_writeBitsLoop rightAlignedBits input.count_le s

end StreamMemory

end SLikeNet
