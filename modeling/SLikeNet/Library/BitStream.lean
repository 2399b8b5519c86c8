import Mathlib.Data.List.Basic
import Mathlib.Data.Nat.Bitwise

/-! Streams of bits, written at the end and read from the front, where a byte boundary is
counted from the start of the stream. -/

namespace BitStream

/-- The lowest `width` bits of a number, most significant first. -/
def toBits : ℕ → ℕ → List Bool
  | 0, _ => []
  | width + 1, n => n.testBit width :: toBits width n

def ofBits : List Bool → ℕ
  | [] => 0
  | b :: bits => b.toNat * 2 ^ bits.length + ofBits bits

@[simp] theorem length_toBits (width n : ℕ) : (toBits width n).length = width := by
  induction width with
  | zero => rfl
  | succ width ih => rw [toBits, List.length_cons, ih]

theorem ofBits_toBits (width n : ℕ) : ofBits (toBits width n) = n % 2 ^ width := by
  induction width with
  | zero => rw [Nat.pow_zero, Nat.mod_one]; rfl
  | succ width ih =>
    have hbit : (n.testBit width).toNat = n / 2 ^ width % 2 := by
      rw [Nat.testBit_eq_decide_div_mod_eq]
      rcases Nat.mod_two_eq_zero_or_one (n / 2 ^ width) with h | h
      · rw [h]; rfl
      · rw [h]; rfl
    rw [toBits, ofBits, length_toBits, ih, hbit, Nat.mod_pow_succ, Nat.mul_comm, Nat.add_comm]

theorem ofBits_toBits_of_lt {width n : ℕ} (h : n < 2 ^ width) : ofBits (toBits width n) = n := by
  rw [ofBits_toBits, Nat.mod_eq_of_lt h]

theorem ofBits_lt (bits : List Bool) : ofBits bits < 2 ^ bits.length := by
  induction bits with
  | nil => exact Nat.one_pos
  | cons b bits ih =>
    rw [ofBits, List.length_cons, Nat.pow_succ]
    cases b with
    | true =>
      simp only [Bool.toNat_true]
      omega
    | false =>
      simp only [Bool.toNat_false]
      omega

theorem testBit_ofBits {bits : List Bool} (b : Bool) :
    (ofBits (b :: bits)).testBit bits.length = b := by
  have hlt := ofBits_lt bits
  rw [ofBits, Nat.mul_comm, Nat.testBit_two_pow_mul_add _ hlt, if_neg (Nat.lt_irrefl _),
    Nat.sub_self]
  cases b <;> rfl

theorem toBits_congr {width n m : ℕ} (h : n % 2 ^ width = m % 2 ^ width) :
    toBits width n = toBits width m := by
  induction width generalizing n m with
  | zero => rfl
  | succ width ih =>
    have hbit := congrArg (fun k => k.testBit width) h
    simp only [Nat.testBit_mod_two_pow, Nat.lt_succ_self, decide_true, Bool.true_and] at hbit
    have hrest : n % 2 ^ width = m % 2 ^ width := by
      have hdvd : 2 ^ width ∣ 2 ^ (width + 1) := Nat.pow_dvd_pow 2 (Nat.le_succ width)
      rw [← Nat.mod_mod_of_dvd n hdvd, h, Nat.mod_mod_of_dvd m hdvd]
    rw [toBits, toBits, hbit, ih hrest]

theorem toBits_ofBits (bits : List Bool) : toBits bits.length (ofBits bits) = bits := by
  induction bits with
  | nil => rfl
  | cons b bits ih =>
    have hrest : ofBits (b :: bits) % 2 ^ bits.length = ofBits bits % 2 ^ bits.length := by
      rw [ofBits, Nat.add_comm, Nat.add_mul_mod_self_right]
    rw [List.length_cons, toBits, testBit_ofBits, toBits_congr hrest, ih]

/-- The bits up to the next byte boundary. -/
def padding (offset : ℕ) : ℕ := (8 - offset % 8) % 8

/-- `AlignWriteToByteBoundary`; a new byte starts as zero. -/
def align (bits : List Bool) : List Bool := bits ++ List.replicate (padding bits.length) false

theorem padding_of_aligned {offset : ℕ} (h : offset % 8 = 0) : padding offset = 0 := by
  rw [padding, h]

theorem align_of_aligned {bits : List Bool} (h : bits.length % 8 = 0) : align bits = bits := by
  rw [align, padding_of_aligned h, List.replicate_zero, List.append_nil]

theorem append_aligned {xs ys : List Bool} (hx : xs.length % 8 = 0) (hy : ys.length % 8 = 0) :
    (xs ++ ys).length % 8 = 0 := by
  rw [List.length_append, Nat.add_mod, hx, hy]

/-- A stream that is being read. -/
structure Reader where
  unread : List Bool
  readOffset : ℕ

namespace Reader

def ofStream (bits : List Bool) : Reader := ⟨bits, 0⟩

/-- `AlignReadToByteBoundary` -/
def align (r : Reader) : Reader :=
  ⟨r.unread.drop (padding r.readOffset), r.readOffset + padding r.readOffset⟩

/-- Reads nothing where too few bits are left. -/
def read (r : Reader) (width : ℕ) : Option (List Bool) × Reader :=
  if r.unread.length < width then (none, r)
  else (some (r.unread.take width), ⟨r.unread.drop width, r.readOffset + width⟩)

def readNat (r : Reader) (width : ℕ) : Option ℕ × Reader :=
  ((r.read width).1.map ofBits, (r.read width).2)

def readBool (r : Reader) : Option Bool × Reader :=
  match r.unread with
  | [] => (none, r)
  | b :: rest => (some b, ⟨rest, r.readOffset + 1⟩)

theorem align_padding (rest : List Bool) (offset : ℕ) :
    (Reader.mk (List.replicate (padding offset) false ++ rest) offset).align =
      ⟨rest, offset + padding offset⟩ := by
  rw [align]
  congr 1
  exact List.drop_left' List.length_replicate

theorem align_of_aligned {unread : List Bool} {offset : ℕ} (h : offset % 8 = 0) :
    (Reader.mk unread offset).align = ⟨unread, offset⟩ := by
  rw [align, padding_of_aligned h]
  rfl

theorem read_append {width : ℕ} {bits : List Bool} (hlen : bits.length = width)
    (rest : List Bool) (offset : ℕ) :
    (Reader.mk (bits ++ rest) offset).read width = (some bits, ⟨rest, offset + width⟩) := by
  subst hlen
  rw [read, if_neg]
  · rw [List.take_left, List.drop_left]
  · rw [List.length_append]
    omega

theorem readNat_toBits {width n : ℕ} (h : n < 2 ^ width) (rest : List Bool) (offset : ℕ) :
    (Reader.mk (toBits width n ++ rest) offset).readNat width = (some n, ⟨rest, offset + width⟩) := by
  rw [readNat, read_append (length_toBits width n)]
  show (some (ofBits (toBits width n)), _) = _
  rw [ofBits_toBits_of_lt h]

theorem readNat_lt {r : Reader} {width n : ℕ} (h : (r.readNat width).1 = some n) :
    n < 2 ^ width := by
  obtain ⟨bits, hbits, rfl⟩ := Option.map_eq_some_iff.mp h
  unfold read at hbits
  split at hbits
  · cases hbits
  · rename_i henough
    have hlt := ofBits_lt bits
    obtain rfl := Option.some.inj hbits
    rwa [List.length_take, Nat.min_eq_left (Nat.le_of_not_lt henough)] at hlt

end Reader

end BitStream
