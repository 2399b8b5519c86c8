import Mathlib.Data.List.GetD
import SLikeNet.Library.BitStream

/-! A stream of bits in a memory of bytes, the highest bit of each byte first: a byte that was
started holds zeros behind the stream, so that the next bits can be put in with an `or`. -/

namespace BitMemory

open BitStream

/-- Bit `j` of a byte, from the highest. -/
def bit (b : UInt8) (j : ℕ) : Bool := b.toNat.testBit (7 - j)

theorem bit_or (a b : UInt8) (j : ℕ) : bit (a ||| b) j = (bit a j || bit b j) := by
  simp [bit, UInt8.toNat_or, Nat.testBit_or]

theorem bit_shiftRight (a : UInt8) {k j : ℕ} (hk : k < 8) (hj : j < 8) :
    bit (a >>> UInt8.ofNat k) j = (decide (k ≤ j) && bit a (j - k)) := by
  have hshift : (a >>> UInt8.ofNat k).toNat = a.toNat >>> k := by
    rw [UInt8.toNat_shiftRight, UInt8.toNat_ofNat', Nat.mod_mod_of_dvd _ (by decide),
      Nat.mod_eq_of_lt hk]
  rw [bit, hshift, Nat.testBit_shiftRight]
  by_cases hle : k ≤ j
  · rw [decide_eq_true hle, Bool.true_and, bit]
    congr 1
    omega
  · rw [decide_eq_false hle, Bool.false_and]
    refine Nat.testBit_lt_two_pow (Nat.lt_of_lt_of_le (UInt8.toNat_lt a) ?_)
    exact Nat.pow_le_pow_right (by decide) (by omega)

theorem bit_shiftLeft (a : UInt8) {k j : ℕ} (hk : k < 8) (hj : j < 8) :
    bit (a <<< UInt8.ofNat k) j = (decide (j + k < 8) && bit a (j + k)) := by
  have hshift : (a <<< UInt8.ofNat k).toNat = a.toNat <<< k % 2 ^ 8 := by
    rw [UInt8.toNat_shiftLeft, UInt8.toNat_ofNat', Nat.mod_mod_of_dvd _ (by decide),
      Nat.mod_eq_of_lt hk]
  rw [bit, hshift, Nat.testBit_mod_two_pow, Nat.testBit_shiftLeft, decide_eq_true (by omega),
    Bool.true_and, bit]
  by_cases hlt : j + k < 8
  · rw [decide_eq_true hlt, decide_eq_true (by omega)]
    congr 2
    omega
  · rw [decide_eq_false hlt, decide_eq_false (by omega), Bool.false_and, Bool.false_and]

theorem eq_of_bit {a b : UInt8} (h : ∀ j < 8, bit a j = bit b j) : a = b := by
  refine UInt8.toNat_inj.mp (Nat.eq_of_testBit_eq fun i => ?_)
  by_cases hi : i < 8
  · have hbit := h (7 - i) (by omega)
    rwa [bit, bit, show 7 - (7 - i) = i by omega] at hbit
  · have hle : 2 ^ 8 ≤ 2 ^ i := Nat.pow_le_pow_right (by decide) (by omega)
    rw [Nat.testBit_lt_two_pow (Nat.lt_of_lt_of_le (UInt8.toNat_lt a) hle),
      Nat.testBit_lt_two_pow (Nat.lt_of_lt_of_le (UInt8.toNat_lt b) hle)]

theorem bit_and (a b : UInt8) (j : ℕ) : bit (a &&& b) j = (bit a j && bit b j) := by
  simp [bit, UInt8.toNat_and, Nat.testBit_and]

theorem bit_zero (j : ℕ) : bit 0 j = false := by simp [bit]

/-- A bit is tested with a mask that has only this one. -/
theorem bit_eq_decide (b : UInt8) {k : ℕ} (hk : k < 8) :
    bit b k = decide (b &&& 0x80 >>> UInt8.ofNat k ≠ 0) := by
  have hmask : ∀ j < 8, bit (0x80 >>> UInt8.ofNat k) j = decide (k = j) := by
    intro j hj
    have htop : ∀ j < 8, bit 0x80 j = decide (j = 0) := by decide
    rw [bit_shiftRight _ hk hj, htop _ (by omega), ← Bool.decide_and]
    exact decide_eq_decide.mpr (by omega)
  have hbit : ∀ j < 8, bit (b &&& 0x80 >>> UInt8.ofNat k) j = (bit b j && decide (k = j)) := by
    intro j hj
    rw [bit_and, hmask j hj]
  cases hb : bit b k with
  | true =>
    refine (decide_eq_true ?_).symm
    intro hzero
    have hset := hbit k hk
    rw [hzero, bit_zero, hb, decide_eq_true rfl] at hset
    exact Bool.noConfusion hset
  | false =>
    refine (decide_eq_false (not_not.mpr (eq_of_bit fun j hj => ?_))).symm
    rw [hbit j hj, bit_zero]
    by_cases hjk : k = j
    · rw [← hjk, hb, Bool.false_and]
    · rw [decide_eq_false hjk, Bool.and_false]

/-! ### Memory -/

/-- Bit `i` of a memory. -/
def bitAt (memory : ℕ → UInt8) (i : ℕ) : Bool := bit (memory (i / 8)) (i % 8)

/-- The bytes that were started hold the bits, and zeros behind them. -/
def Holds (memory : ℕ → UInt8) (bits : List Bool) : Prop :=
  ∀ i, i / 8 * 8 < bits.length → bitAt memory i = bits.getD i false

theorem holds_nil (memory : ℕ → UInt8) : Holds memory [] := fun _ hi => absurd hi (Nat.not_lt_zero _)

theorem Holds.bitAt_eq {memory : ℕ → UInt8} {bits : List Bool} (h : Holds memory bits) {i : ℕ}
    (hi : i < bits.length) : bitAt memory i = bits.getD i false :=
  h i (by omega)

/-- At most eight bits are appended, which stand at the front of a byte: the byte goes into the
last one that was started, and what does not fit there starts the next one. -/
theorem Holds.append {memory memory' : ℕ → UInt8} {bits new : List Bool} {byte : UInt8}
    (h : Holds memory bits) (hbyte : ∀ j < 8, bit byte j = new.getD j false)
    (hnew : new.length ≤ 8)
    (hkeep : ∀ k < bits.length / 8, memory' k = memory k)
    (hfirst : memory' (bits.length / 8) =
      if bits.length % 8 = 0 then byte
      else memory (bits.length / 8) ||| byte >>> UInt8.ofNat (bits.length % 8))
    (hsecond : 8 < bits.length % 8 + new.length →
      memory' (bits.length / 8 + 1) = byte <<< UInt8.ofNat (8 - bits.length % 8)) :
    Holds memory' (bits ++ new) := by
  intro i hi
  rw [List.length_append] at hi
  have hbits : ∀ j, bits.length ≤ j → bits.getD j false = false :=
    fun j hj => List.getD_eq_default _ _ hj
  have hafter : ∀ j, 8 ≤ j → new.getD j false = false :=
    fun j hj => List.getD_eq_default _ _ (Nat.le_trans hnew hj)
  rcases Nat.lt_trichotomy (i / 8) (bits.length / 8) with hbefore | hlast | hnext
  · rw [bitAt, hkeep _ hbefore, List.getD_append _ _ _ _ (by omega)]
    exact h i (by omega)
  · rw [bitAt, hlast, hfirst]
    by_cases haligned : bits.length % 8 = 0
    · rw [if_pos haligned, hbyte _ (by omega), List.getD_append_right _ _ _ _ (by omega)]
      congr 1
      omega
    · have hold := h i (by omega)
      rw [bitAt, hlast] at hold
      rw [if_neg haligned, bit_or, hold, bit_shiftRight _ (by omega) (by omega)]
      by_cases hle : bits.length ≤ i
      · rw [hbits i hle, Bool.false_or, decide_eq_true (by omega), Bool.true_and,
          hbyte _ (by omega), List.getD_append_right _ _ _ _ hle]
        congr 1
        omega
      · rw [decide_eq_false (by omega), Bool.false_and, Bool.or_false,
          List.getD_append _ _ _ _ (by omega)]
  · have hnext' : i / 8 = bits.length / 8 + 1 := by omega
    rw [bitAt, hnext', hsecond (by omega), bit_shiftLeft _ (by omega) (by omega),
      List.getD_append_right _ _ _ _ (by omega)]
    by_cases hlt : i % 8 + (8 - bits.length % 8) < 8
    · rw [decide_eq_true hlt, Bool.true_and, hbyte _ hlt]
      congr 1
      omega
    · rw [decide_eq_false hlt, Bool.false_and, hafter _ (by omega)]

/-! ### Reading -/

/-- The eight bits of a memory from an offset on, of which the first `n` count: the second byte is
looked at only where the first one does not hold them all. -/
def byteAt (memory : ℕ → UInt8) (offset n : ℕ) : UInt8 :=
  if offset % 8 > 0 ∧ n > 8 - offset % 8 then
    memory (offset / 8) <<< UInt8.ofNat (offset % 8) |||
      memory (offset / 8 + 1) >>> UInt8.ofNat (8 - offset % 8)
  else memory (offset / 8) <<< UInt8.ofNat (offset % 8)

theorem bit_byteAt (memory : ℕ → UInt8) (offset : ℕ) {n j : ℕ} (hj : j < 8) (hn : j < n) :
    bit (byteAt memory offset n) j = bitAt memory (offset + j) := by
  have hfirst : j + offset % 8 < 8 → bitAt memory (offset + j) =
      bit (memory (offset / 8)) (j + offset % 8) := by
    intro hlt
    rw [bitAt]
    congr 2 <;> omega
  unfold byteAt
  split
  · rw [bit_or, bit_shiftLeft _ (by omega) hj, bit_shiftRight _ (by omega) hj]
    by_cases hlt : j + offset % 8 < 8
    · rw [decide_eq_true hlt, decide_eq_false (by omega), Bool.true_and, Bool.false_and,
        Bool.or_false, hfirst hlt]
    · rw [decide_eq_false hlt, decide_eq_true (by omega), Bool.true_and, Bool.false_and,
        Bool.false_or, bitAt]
      congr 2 <;> omega
  · rename_i hone
    have hlt : j + offset % 8 < 8 := by omega
    rw [bit_shiftLeft _ (by omega) hj, decide_eq_true hlt, Bool.true_and, hfirst hlt]

end BitMemory
