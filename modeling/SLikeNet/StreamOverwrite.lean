import SLikeNet.StreamAppend
import Mathlib.Algebra.Group.Nat.Defs
import Mathlib.Data.List.GetD

/-! A number that is written over bits of a stream, between two calls of `SetWriteOffset`. -/

namespace SLikeNet

open BitMemory

namespace StreamMemory

/-- The bytes of a stream with these bits, and zeros behind them. -/
def dataOf (bits : List Bool) (k : ℕ) : UInt8 :=
  UInt8.ofNat (BitStream.ofBits ((List.range 8).map fun j => bits.getD (8 * k + j) false))

/-- A number of 32 bits in network order. -/
def uint32Bytes (value : ℕ) : InputBits :=
  ⟨(List.range 4).map fun i => UInt8.ofNat (value / 256 ^ (3 - i)), 32, by simp⟩

theorem count_uint32Bytes (value : ℕ) : (uint32Bytes value).count = 32 := rfl

/-- `SetWriteOffset` to the offset, `Write` of a number of 32 bits, and `SetWriteOffset` to the end
again. -/
def overwrite (offset value : ℕ) (bits : List Bool) : List Bool :=
  ((StreamMemory.mk (dataOf bits) offset 0).writeBits (uint32Bytes value) true).usedBits bits.length

/-! ### Bits of numbers -/

theorem getD_toBits (width n i : ℕ) :
    (BitStream.toBits width n).getD i false =
      (decide (i < width) && n.testBit (width - 1 - i)) := by
  induction width generalizing i with
  | zero => rfl
  | succ width ih =>
    rw [BitStream.toBits]
    cases i with
    | zero => simp
    | succ i =>
      rw [List.getD_cons_succ, ih, Nat.add_sub_cancel, Nat.sub_sub, Nat.add_comm 1 i]
      simp

theorem bit_ofNat (n : ℕ) {j : ℕ} (hj : j < 8) : bit (UInt8.ofNat n) j = n.testBit (7 - j) := by
  rw [bit, UInt8.toNat_ofNat', Nat.testBit_mod_two_pow, decide_eq_true (by omega), Bool.true_and]

theorem bitAt_dataOf (bits : List Bool) (p : ℕ) : bitAt (dataOf bits) p = bits.getD p false := by
  have hmod := Nat.mod_lt p (by decide : 0 < 8)
  rw [bitAt, dataOf, bit_ofNat _ hmod]
  generalize hbyte : (List.range 8).map (fun j => bits.getD (8 * (p / 8) + j) false) = byte
  have hlength : byte.length = 8 := by rw [← hbyte, List.length_map, List.length_range]
  have hget := getD_toBits byte.length (BitStream.ofBits byte) (p % 8)
  rw [BitStream.toBits_ofBits, hlength, decide_eq_true hmod, Bool.true_and] at hget
  rw [show 7 - p % 8 = 8 - 1 - p % 8 by omega, ← hget, ← hbyte,
    List.getD_eq_getElem _ _ (by simpa using hmod), List.getElem_map, List.getElem_range]
  congr 1
  omega

theorem storedBit_uint32Bytes (value : ℕ) {j : ℕ} (hj : j < 32) :
    storedBit true (uint32Bytes value).bytes 32 j = value.testBit (31 - j) := by
  have hbyte : j / 8 <
      ((List.range 4).map fun i => UInt8.ofNat (value / 256 ^ (3 - i))).length := by
    rw [List.length_map, List.length_range]
    omega
  rw [storedBit, if_neg (by omega), uint32Bytes, List.getD_eq_getElem _ _ hbyte, List.getElem_map,
    List.getElem_range, bit_ofNat _ (Nat.mod_lt j (by decide)), show 256 = 2 ^ 8 by rfl,
    ← Nat.pow_mul, Nat.testBit_div_two_pow]
  congr 1
  omega

/-! ### What is left alone -/

theorem putByte_frame (memory : ℕ → UInt8) (byte : UInt8) {used width k : ℕ} (hpos : 0 < width)
    (hk : used + min width 8 ≤ k * 8) : putByte memory used byte width k = memory k := by
  rw [putByte]
  split
  · rw [Function.update_of_ne (by omega)]
  · dsimp only
    split
    · rw [Function.update_of_ne (by omega), Function.update_of_ne (by omega)]
    · rw [Function.update_of_ne (by omega)]

theorem writeBitsLoop_frame (rightAlignedBits : Bool) {input : List UInt8} {count k : ℕ}
    (s : StreamMemory) (hk : s.numberOfBitsUsed + count ≤ k * 8) :
    (writeBitsLoop rightAlignedBits input count s).data k = s.data k := by
  induction input generalizing count s with
  | nil => rfl
  | cons inputByte input ih =>
    rw [writeBitsLoop]
    by_cases hzero : count = 0
    · rw [if_pos hzero]
    · rw [if_neg hzero]
      dsimp only
      rw [ih _ (by dsimp only; omega)]
      exact putByte_frame _ _ (Nat.pos_of_ne_zero hzero) (by omega)

variable {offset value : ℕ} {bits : List Bool}

theorem length_overwrite (offset value : ℕ) (bits : List Bool) :
    (overwrite offset value bits).length = bits.length := by
  rw [overwrite, usedBits, List.length_map, List.length_range]

/-- In the byte of the offset the old bits show through, and in the last byte that is written the
bits behind the number become zeros. -/
theorem getD_overwrite (hoffset : offset % 8 ≠ 0) {p : ℕ} (hp : p < bits.length) :
    (overwrite offset value bits).getD p false =
      if p / 8 * 8 < offset + 32 then
        (decide (p / 8 * 8 < offset) && bits.getD p false) ||
          (decide (offset ≤ p ∧ p < offset + 32) && value.testBit (31 - (p - offset)))
      else bits.getD p false := by
  have hputs := puts_writeBits (.mk (dataOf bits) offset 0) (uint32Bytes value) true
  have hcount : 8 * (((uint32Bytes value).count + 7) / 8) = 32 := by
    rw [count_uint32Bytes]
  have hbit := hputs.overlays.bit_eq p
  rw [hcount] at hbit
  dsimp only at hbit
  rw [overwrite, usedBits, List.getD_eq_getElem _ _ (by simpa using hp), List.getElem_map,
    List.getElem_range]
  split
  · next hlt =>
    rw [hbit hlt, bitAt_dataOf]
    congr 1
    by_cases hin : offset ≤ p ∧ p < offset + 32
    · rw [decide_eq_true hin]
      congr 1
      exact storedBit_uint32Bytes value (by omega)
    · rw [decide_eq_false hin, Bool.false_and, Bool.false_and]
  · next hge =>
    rw [← bitAt_dataOf, bitAt, bitAt, writeBits, if_neg (fun h => hoffset h.1)]
    congr 1
    exact writeBitsLoop_frame true _ (by show offset + 32 ≤ _; omega)

theorem getD_numbers (before rest : List Bool) (m n p : ℕ) :
    (before ++ BitStream.toBits 32 m ++ BitStream.toBits 16 n ++ rest).getD p false =
      if p < before.length then before.getD p false
      else if p < before.length + 32 then m.testBit (31 - (p - before.length))
      else if p < before.length + 32 + 16 then n.testBit (15 - (p - (before.length + 32)))
      else rest.getD (p - (before.length + 32 + 16)) false := by
  have hnumber : (before ++ BitStream.toBits 32 m).length = before.length + 32 := by
    rw [List.length_append, BitStream.length_toBits]
  have hboth : (before ++ BitStream.toBits 32 m ++ BitStream.toBits 16 n).length =
      before.length + 32 + 16 := by
    rw [List.length_append, hnumber, BitStream.length_toBits]
  split_ifs with h₁ h₂ h₃
  · rw [List.getD_append _ _ _ _ (by omega), List.getD_append _ _ _ _ (by omega),
      List.getD_append _ _ _ _ h₁]
  · rw [List.getD_append _ _ _ _ (by omega), List.getD_append _ _ _ _ (by omega),
      List.getD_append_right _ _ _ _ (by omega), getD_toBits, decide_eq_true (by omega),
      Bool.true_and]
  · rw [List.getD_append _ _ _ _ (by omega), List.getD_append_right _ _ _ _ (by omega),
      getD_toBits, hnumber, decide_eq_true (by omega), Bool.true_and]
  · rw [List.getD_append_right _ _ _ _ (by omega), hboth]

/-- A number that is written over another one, where both leave their first byte empty: what follows
loses the bits up to the end of the byte. -/
theorem overwrite_eq {before rest : List Bool} {old length : ℕ} (hoffset : before.length % 8 ≠ 0)
    (hold : old < 2 ^ 24) :
    overwrite before.length value
        (before ++ BitStream.toBits 32 old ++ BitStream.toBits 16 length ++ rest) =
      before ++ BitStream.toBits 32 value ++
        BitStream.toBits 16 (length % 2 ^ (8 + before.length % 8)) ++ rest := by
  apply List.ext_getElem
  · simp only [length_overwrite, List.length_append, BitStream.length_toBits]
  intro p hp hp'
  rw [length_overwrite] at hp
  have hover := @getD_overwrite before.length value _ hoffset p hp
  rw [List.getD_eq_getElem _ _ (by rwa [length_overwrite]), getD_numbers] at hover
  rw [hover, ← List.getD_eq_getElem _ false hp', getD_numbers, Nat.testBit_mod_two_pow]
  by_cases hbefore : p < before.length
  · rw [if_pos hbefore, if_pos hbefore, if_pos (by omega), decide_eq_true (by omega),
      decide_eq_false (by omega), Bool.true_and, Bool.false_and, Bool.or_false]
  rw [if_neg hbefore, if_neg hbefore]
  by_cases hnumber : p < before.length + 32
  · rw [if_pos hnumber, if_pos hnumber, if_pos (by omega),
      decide_eq_true (show before.length ≤ p ∧ p < before.length + 32 by omega), Bool.true_and]
    by_cases hstarted : p / 8 * 8 < before.length
    · have hzero : old.testBit (31 - (p - before.length)) = false :=
        Nat.testBit_lt_two_pow (hold.trans_le (Nat.pow_le_pow_right (by decide) (by omega)))
      rw [hzero, Bool.and_false, Bool.false_or]
    · rw [decide_eq_false hstarted, Bool.false_and, Bool.false_or]
  rw [if_neg hnumber, if_neg hnumber, decide_eq_false (by omega), decide_eq_false (by omega),
    Bool.false_and, Bool.false_and, Bool.or_false]
  by_cases hlast : p < before.length + 32 + 16
  · rw [if_pos hlast, if_pos hlast]
    by_cases hbyte : p / 8 * 8 < before.length + 32
    · rw [if_pos hbyte, decide_eq_false (by omega), Bool.false_and]
    · rw [if_neg hbyte, decide_eq_true (by omega), Bool.true_and]
  · rw [if_neg hlast, if_neg hlast, if_neg (by omega)]

end StreamMemory

end SLikeNet
