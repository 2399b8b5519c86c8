import SLikeNet.Library.BitMemory
import Mathlib.Logic.Function.Basic

/-! Bits that are put into a memory of bytes behind those that are used: a byte that was started
takes new bits with an `or`, a new byte is stored as a whole, so that what is there behind the
used bits of a started byte shows through. -/

namespace BitMemory

/-- Behind the used bits the second memory has the bits of the overlay, in the byte that was
started before together with what was there. -/
structure Overlays (memory memory' : ℕ → UInt8) (used used' : ℕ) (overlay : ℕ → Bool) :
    Prop where
  le : used ≤ used'
  before : ∀ p < used, overlay p = false
  bit_eq : ∀ p, p / 8 * 8 < used' →
    bitAt memory' p = ((decide (p / 8 * 8 < used) && bitAt memory p) || overlay p)

namespace Overlays

variable {memory memory' memory'' : ℕ → UInt8} {used used' used'' : ℕ}
  {overlay overlay' : ℕ → Bool}

theorem refl (memory : ℕ → UInt8) (used : ℕ) : Overlays memory memory used used fun _ => false := by
  refine ⟨Nat.le_refl used, fun _ _ => rfl, fun p hp => ?_⟩
  rw [decide_eq_true hp, Bool.true_and, Bool.or_false]

/-- Of the first overlay, what lies in the bytes that it started stays. -/
theorem trans (h : Overlays memory memory' used used' overlay)
    (h' : Overlays memory' memory'' used' used'' overlay') :
    Overlays memory memory'' used used''
      fun p => (decide (p / 8 * 8 < used') && overlay p) || overlay' p := by
  refine ⟨Nat.le_trans h.le h'.le, fun p hp => ?_, fun p hp => ?_⟩
  · rw [h.before p hp, h'.before p (Nat.lt_of_lt_of_le hp h.le), Bool.and_false, Bool.or_false]
  · rw [h'.bit_eq p hp]
    by_cases hstarted : p / 8 * 8 < used'
    · rw [decide_eq_true hstarted, Bool.true_and, Bool.true_and, h.bit_eq p hstarted,
        Bool.or_assoc]
    · have hbefore : ¬ p / 8 * 8 < used := fun hlt => hstarted (Nat.lt_of_lt_of_le hlt h.le)
      rw [decide_eq_false hstarted, decide_eq_false hbefore, Bool.false_and, Bool.false_and,
        Bool.false_and, Bool.false_or, Bool.false_or]

/-- Used bits stay. -/
theorem bitAt_eq (h : Overlays memory memory' used used' overlay) {p : ℕ} (hp : p < used) :
    bitAt memory' p = bitAt memory p := by
  have hle := h.le
  rw [h.bit_eq p (by omega), h.before p hp, decide_eq_true (by omega), Bool.true_and,
    Bool.or_false]

/-- Only the bytes that are started count. -/
theorem congr (h : Overlays memory memory' used used' overlay)
    (hsame : ∀ p, p / 8 * 8 < used' → overlay' p = overlay p) :
    Overlays memory memory' used used' overlay' := by
  have hle := h.le
  refine ⟨hle, fun p hp => ?_, fun p hp => ?_⟩
  · rw [hsame p (by omega), h.before p hp]
  · rw [hsame p hp, h.bit_eq p hp]

/-- The bits that get used up to a byte boundary are those that are there. -/
theorem pad (memory : ℕ → UInt8) (used : ℕ) :
    Overlays memory memory used (used + BitStream.padding used) fun _ => false := by
  refine ⟨Nat.le_add_right _ _, fun _ _ => rfl, fun p hp => ?_⟩
  rw [BitStream.padding] at hp
  rw [decide_eq_true (by omega), Bool.true_and, Bool.or_false]

end Overlays

/-- A byte of which at most eight bits are meant is put behind the used bits: into the byte that
was started, and where it is too long for this one into the next. -/
def putByte (memory : ℕ → UInt8) (used : ℕ) (byte : UInt8) (width : ℕ) : ℕ → UInt8 :=
  if used % 8 = 0 then Function.update memory (used / 8) byte
  else
    let first := Function.update memory (used / 8)
      (memory (used / 8) ||| byte >>> UInt8.ofNat (used % 8))
    if 8 - used % 8 < width then
      Function.update first (used / 8 + 1) (byte <<< UInt8.ofNat (8 - used % 8))
    else first

/-- The bits of a byte behind an offset. -/
def byteBits (used : ℕ) (byte : UInt8) (p : ℕ) : Bool :=
  decide (used ≤ p ∧ p < used + 8) && bit byte (p - used)

theorem overlays_putByte (memory : ℕ → UInt8) (used : ℕ) (byte : UInt8) {width : ℕ}
    (hpos : 0 < width) :
    Overlays memory (putByte memory used byte width) used (used + min width 8)
      (byteBits used byte) := by
  refine ⟨Nat.le_add_right _ _, fun p hp => ?_, fun p hp => ?_⟩
  · rw [byteBits, decide_eq_false (by omega), Bool.false_and]
  rw [putByte, byteBits]
  by_cases haligned : used % 8 = 0
  · rw [if_pos haligned, bitAt]
    by_cases hlast : p / 8 = used / 8
    · rw [hlast, Function.update_self, decide_eq_false (by omega), decide_eq_true (by omega),
        Bool.false_and, Bool.false_or, Bool.true_and]
      congr 1
      omega
    · rw [Function.update_of_ne hlast, decide_eq_true (by omega), decide_eq_false (by omega),
        Bool.true_and, Bool.false_and, Bool.or_false]
      rfl
  · rw [if_neg haligned]
    dsimp only
    rcases Nat.lt_trichotomy (p / 8) (used / 8) with hbefore | hlast | hnext
    · have hsame : bitAt (if 8 - used % 8 < width then
          Function.update (Function.update memory (used / 8)
            (memory (used / 8) ||| byte >>> UInt8.ofNat (used % 8))) (used / 8 + 1)
            (byte <<< UInt8.ofNat (8 - used % 8))
        else Function.update memory (used / 8)
          (memory (used / 8) ||| byte >>> UInt8.ofNat (used % 8))) p = bitAt memory p := by
        rw [bitAt]
        split
        · rw [Function.update_of_ne (by omega), Function.update_of_ne (by omega)]
          rfl
        · rw [Function.update_of_ne (by omega)]
          rfl
      rw [hsame, decide_eq_true (by omega), decide_eq_false (by omega), Bool.true_and,
        Bool.false_and, Bool.or_false]
    · have hor : bitAt (if 8 - used % 8 < width then
          Function.update (Function.update memory (used / 8)
            (memory (used / 8) ||| byte >>> UInt8.ofNat (used % 8))) (used / 8 + 1)
            (byte <<< UInt8.ofNat (8 - used % 8))
        else Function.update memory (used / 8)
          (memory (used / 8) ||| byte >>> UInt8.ofNat (used % 8))) p =
          (bitAt memory p || bit (byte >>> UInt8.ofNat (used % 8)) (p % 8)) := by
        rw [bitAt, bitAt, hlast]
        split
        · rw [Function.update_of_ne (by omega), Function.update_self, bit_or]
        · rw [Function.update_self, bit_or]
      rw [hor, decide_eq_true (by omega), Bool.true_and,
        bit_shiftRight _ (by omega) (by omega)]
      congr 1
      by_cases hle : used ≤ p
      · rw [decide_eq_true (by omega), decide_eq_true (by omega)]
        congr 2
        omega
      · rw [decide_eq_false (by omega), decide_eq_false (by omega), Bool.false_and,
          Bool.false_and]
    · have hnext' : p / 8 = used / 8 + 1 := by omega
      rw [if_pos (by omega), bitAt, hnext', Function.update_self,
        bit_shiftLeft _ (by omega) (by omega),
        decide_eq_false (show ¬ (used / 8 + 1) * 8 < used by omega), Bool.false_and, Bool.false_or]
      by_cases hlt : p < used + 8
      · rw [decide_eq_true (by omega), decide_eq_true (by omega), Bool.true_and, Bool.true_and]
        congr 1
        omega
      · rw [decide_eq_false (by omega), decide_eq_false (by omega), Bool.false_and,
          Bool.false_and]

/-- Whole bytes are copied to a byte boundary. -/
def copyBytes (memory : ℕ → UInt8) (start : ℕ) (bytes : ℕ → UInt8) (count : ℕ) : ℕ → UInt8 :=
  fun k => if start ≤ k ∧ k < start + count then bytes (k - start) else memory k

theorem overlays_copyBytes (memory bytes : ℕ → UInt8) {used : ℕ} (haligned : used % 8 = 0)
    (count : ℕ) :
    Overlays memory (copyBytes memory (used / 8) bytes count) used (used + 8 * count)
      fun p => decide (used ≤ p ∧ p < used + 8 * count) && bitAt bytes (p - used) := by
  refine ⟨Nat.le_add_right _ _, fun p hp => ?_, fun p hp => ?_⟩
  · rw [decide_eq_false (by omega), Bool.false_and]
  rw [bitAt, copyBytes]
  by_cases hle : used ≤ p
  · have hbyte : p / 8 - used / 8 = (p - used) / 8 := by omega
    have hbit : p % 8 = (p - used) % 8 := by omega
    rw [if_pos (by omega), decide_eq_false (by omega), decide_eq_true (by omega),
      Bool.false_and, Bool.false_or, Bool.true_and, bitAt, hbyte, hbit]
  · rw [if_neg (by omega), decide_eq_true (by omega), decide_eq_false (by omega),
      Bool.true_and, Bool.false_and, Bool.or_false]
    rfl

/-- One bit is put behind the used ones; in a byte that was started nothing is done for a zero. -/
def putBit (memory : ℕ → UInt8) (used : ℕ) (b : Bool) : ℕ → UInt8 :=
  if used % 8 = 0 then Function.update memory (used / 8) (if b then 0x80 else 0)
  else if b then
    Function.update memory (used / 8) (memory (used / 8) ||| 0x80 >>> UInt8.ofNat (used % 8))
  else memory

theorem bit_ite (b : Bool) {j : ℕ} (hj : j < 8) :
    bit (if b then 0x80 else 0) j = (decide (j = 0) && b) := by
  have htop : ∀ j < 8, bit 0x80 j = decide (j = 0) := by decide
  cases b with
  | true => rw [if_pos rfl, htop j hj, Bool.and_true]
  | false => rw [if_neg (by decide), bit_zero, Bool.and_false]

theorem overlays_putBit (memory : ℕ → UInt8) (used : ℕ) (b : Bool) :
    Overlays memory (putBit memory used b) used (used + 1) fun p => decide (p = used) && b := by
  have hput : putBit memory used b = putByte memory used (if b then 0x80 else 0) 1 := by
    rw [putBit, putByte]
    by_cases haligned : used % 8 = 0
    · rw [if_pos haligned, if_pos haligned]
    · rw [if_neg haligned, if_neg haligned]
      dsimp only
      rw [if_neg (show ¬ 8 - used % 8 < 1 by omega)]
      cases b with
      | true => rfl
      | false =>
        rw [if_neg (by decide), if_neg (by decide), UInt8.zero_shiftRight, UInt8.or_zero,
          Function.update_eq_self]
  have hone := overlays_putByte memory used (if b then 0x80 else 0) Nat.one_pos
  rw [← hput] at hone
  apply hone.congr
  intro p _
  rw [byteBits]
  by_cases hin : used ≤ p ∧ p < used + 8
  · rw [decide_eq_true hin, Bool.true_and, bit_ite b (by omega)]
    congr 1
    exact decide_eq_decide.mpr (by omega)
  · rw [decide_eq_false hin, decide_eq_false (by omega), Bool.false_and, Bool.false_and]

end BitMemory
