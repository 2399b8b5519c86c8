import Mathlib.Data.List.Basic
import SLikeNet.Library.BitStream

/-! Reading a memory of bytes bit by bit through a cursor, where a read outside the memory has no
result: what is safe reads inside it, and leaves the cursor inside. -/

namespace BitCursor

/-- A memory, how many of its bits may be read, and the bit that is read next. -/
structure Cursor where
  memory : List UInt8
  numberOfBits : ℕ
  readOffset : ℕ

abbrev Access (α : Type) := StateT Cursor Option α

def bitsOf (memory : List UInt8) : List Bool :=
  memory.flatMap fun byte => BitStream.toBits 8 byte.toNat

/-- The next bits of the memory. -/
def fetch (n : ℕ) : Access (List Bool) := fun c =>
  if c.readOffset + n ≤ c.memory.length * 8 then
    some (((bitsOf c.memory).drop c.readOffset).take n, { c with readOffset := c.readOffset + n })
  else none

/-- The bytes at a place of the memory. -/
def slice (memory : List UInt8) (start n : ℕ) : Option (List UInt8) :=
  if start + n ≤ memory.length then some ((memory.drop start).take n) else none

/-- Memory with the bytes copied over it from `start` on. -/
def overwrite (memory : List UInt8) (start : ℕ) (bytes : List UInt8) : Option (List UInt8) :=
  if start + bytes.length ≤ memory.length then
    some (memory.take start ++ bytes ++ memory.drop (start + bytes.length))
  else none

theorem slice_eq {memory : List UInt8} {start n : ℕ} (h : start + n ≤ memory.length) :
    slice memory start n = some ((memory.drop start).take n) := if_pos h

def Cursor.Inside (c : Cursor) : Prop :=
  c.numberOfBits ≤ c.memory.length * 8 ∧ c.readOffset ≤ c.memory.length * 8

/-- A read that never leaves the memory, whatever it is about to find there. -/
def Safe {α : Type} (m : Access α) : Prop :=
  ∀ c : Cursor, c.Inside → ∃ a offset, m c = some (a, { c with readOffset := offset }) ∧
    offset ≤ c.memory.length * 8

variable {α β : Type}

theorem Safe.bind {m : Access α} {f : α → Access β} (hm : Safe m) (hf : ∀ a, Safe (f a)) :
    Safe (m >>= f) := by
  intro c hc
  obtain ⟨a, offset, hrun, hle⟩ := hm c hc
  obtain ⟨b, offset', hrun', hle'⟩ := hf a { c with readOffset := offset } ⟨hc.1, hle⟩
  refine ⟨b, offset', ?_, hle'⟩
  show (m c).bind (fun p => f p.1 p.2) = _
  rw [hrun]
  exact hrun'

theorem Safe.map {m : Access α} (hm : Safe m) (f : α → β) : Safe (f <$> m) := by
  intro c hc
  obtain ⟨a, offset, hrun, hle⟩ := hm c hc
  refine ⟨f a, offset, ?_, hle⟩
  show (m c).bind (fun p => some (f p.1, p.2)) = _
  rw [hrun]
  rfl

theorem bind_of_run {m : Access α} {f : α → Access β} {a : α} {c c' : Cursor}
    (h : m c = some (a, c')) : (m >>= f) c = f a c' := by
  show (m c).bind (fun p => f p.1 p.2) = _
  rw [h]
  rfl

theorem exists_of_bind {m : Access α} {f : α → Access β} {c : Cursor} {p : β × Cursor}
    (h : (m >>= f) c = some p) : ∃ a c', m c = some (a, c') ∧ f a c' = some p := by
  obtain ⟨q, hq, hrest⟩ := Option.bind_eq_some_iff.mp h
  exact ⟨q.1, q.2, hq, hrest⟩

theorem map_of_run {m : Access α} {a : α} {c c' : Cursor} (f : α → β) (h : m c = some (a, c')) :
    (f <$> m) c = some (f a, c') := by
  show (m c).bind (fun p => some (f p.1, p.2)) = _
  rw [h]
  rfl

theorem Safe.ite {p : Prop} [Decidable p] {m m' : Access α} (hm : Safe m) (hm' : Safe m') :
    Safe (if p then m else m') := by
  by_cases h : p
  · rwa [if_pos h]
  · rwa [if_neg h]

/-! ### Bits that stand ahead -/

def Cursor.advance (c : Cursor) (n : ℕ) : Cursor := { c with readOffset := c.readOffset + n }

/-- These bits are the next ones that may be read. -/
structure Cursor.Ahead (c : Cursor) (bits : List Bool) : Prop where
  next : bits <+: (bitsOf c.memory).drop c.readOffset
  within : c.readOffset + bits.length ≤ c.numberOfBits
  inside : c.numberOfBits ≤ c.memory.length * 8

theorem bitsOf_cons (byte : UInt8) (memory : List UInt8) :
    bitsOf (byte :: memory) = BitStream.toBits 8 byte.toNat ++ bitsOf memory := rfl

theorem length_bitsOf (memory : List UInt8) : (bitsOf memory).length = memory.length * 8 := by
  induction memory with
  | nil => rfl
  | cons byte memory ih =>
    rw [bitsOf_cons, List.length_append, BitStream.length_toBits, ih, List.length_cons]
    omega

theorem Cursor.advance_advance (c : Cursor) (n m : ℕ) :
    (c.advance n).advance m = c.advance (n + m) := by
  unfold Cursor.advance
  rw [Nat.add_assoc]

theorem Cursor.advance_start (memory : List UInt8) (numberOfBits n : ℕ) :
    (Cursor.mk memory numberOfBits 0).advance n = ⟨memory, numberOfBits, n⟩ := by
  rw [Cursor.advance, Nat.zero_add]

theorem Cursor.Ahead.left {c : Cursor} {bits bits' : List Bool} (h : c.Ahead (bits ++ bits')) :
    c.Ahead bits := by
  have hwithin := h.within
  rw [List.length_append] at hwithin
  exact ⟨(List.prefix_append _ _).trans h.next, by omega, h.inside⟩

theorem Cursor.Ahead.right {c : Cursor} {bits bits' : List Bool} (h : c.Ahead (bits ++ bits')) :
    (c.advance bits.length).Ahead bits' := by
  obtain ⟨rest, hrest⟩ := h.next
  have hwithin := h.within
  rw [List.length_append] at hwithin
  refine ⟨⟨rest, ?_⟩, ?_, h.inside⟩
  · show bits' ++ rest = (bitsOf c.memory).drop (c.readOffset + bits.length)
    rw [← List.drop_drop, ← hrest, List.append_assoc, List.drop_left]
  · show c.readOffset + bits.length + bits'.length ≤ c.numberOfBits
    omega

theorem Cursor.Ahead.tail {c : Cursor} {b : Bool} {bits : List Bool} (h : c.Ahead (b :: bits)) :
    (c.advance 1).Ahead bits := @Cursor.Ahead.right c [b] bits h

theorem fetch_ahead {c : Cursor} {bits : List Bool} {n : ℕ} (h : c.Ahead bits)
    (hn : bits.length = n) : fetch n c = some (bits, c.advance n) := by
  obtain ⟨rest, hrest⟩ := h.next
  have hwithin := h.within
  have hinside := h.inside
  rw [fetch, if_pos (by omega), ← hrest, ← hn, List.take_left]
  rfl

theorem drop_bitsOf (memory : List UInt8) (k : ℕ) :
    (bitsOf memory).drop (k * 8) = bitsOf (memory.drop k) := by
  induction memory generalizing k with
  | nil => simp [bitsOf]
  | cons byte memory ih =>
    cases k with
    | zero => rfl
    | succ k =>
      rw [bitsOf_cons, Nat.succ_mul, Nat.add_comm, ← List.drop_drop,
        List.drop_left' (BitStream.length_toBits 8 byte.toNat), ih]
      rfl

/-- Bytes are read where their bits stand. -/
theorem prefix_of_bitsOf {bytes memory : List UInt8} (h : bitsOf bytes <+: bitsOf memory) :
    bytes <+: memory := by
  induction bytes generalizing memory with
  | nil => exact List.nil_prefix
  | cons byte bytes ih =>
    have hlength := h.length_le
    rw [length_bitsOf, length_bitsOf, List.length_cons] at hlength
    cases memory with
    | nil => exact absurd hlength (by simp)
    | cons byte' memory =>
      obtain ⟨rest, hrest⟩ := h
      rw [bitsOf_cons, bitsOf_cons, List.append_assoc] at hrest
      obtain ⟨hfirst, htail⟩ := List.append_inj hrest (by
        rw [BitStream.length_toBits, BitStream.length_toBits])
      have hbyte := congrArg BitStream.ofBits hfirst
      rw [BitStream.ofBits_toBits_of_lt (UInt8.toNat_lt byte),
        BitStream.ofBits_toBits_of_lt (UInt8.toNat_lt byte')] at hbyte
      rw [UInt8.toNat_inj.mp hbyte]
      exact List.cons_prefix_cons.mpr ⟨rfl, ih ⟨rest, htail⟩⟩

/-- Bytes that stand ahead at a byte boundary are found there in the memory. -/
theorem slice_ahead {c : Cursor} {bytes : List UInt8} {k : ℕ} (hoffset : c.readOffset = k * 8)
    (hahead : c.Ahead (bitsOf bytes)) : slice c.memory k bytes.length = some bytes := by
  have hwithin := hahead.within
  have hinside := hahead.inside
  rw [length_bitsOf, hoffset] at hwithin
  have hnext := hahead.next
  rw [hoffset, drop_bitsOf] at hnext
  obtain ⟨rest, hrest⟩ := prefix_of_bitsOf hnext
  rw [slice_eq (by omega), ← hrest, List.take_left]

/-- Every sequence of bits that ends at a byte boundary is what some memory holds. -/
theorem exists_bitsOf_eq (n : ℕ) : ∀ bits : List Bool, bits.length = n * 8 →
    ∃ memory, bitsOf memory = bits := by
  induction n with
  | zero =>
    intro bits hlength
    obtain rfl := List.eq_nil_of_length_eq_zero (by omega : bits.length = 0)
    exact ⟨[], rfl⟩
  | succ n ih =>
    intro bits hlength
    obtain ⟨memory, hmemory⟩ := ih (bits.drop 8) (by rw [List.length_drop]; omega)
    have htake : (bits.take 8).length = 8 := by rw [List.length_take]; omega
    have hlt := BitStream.ofBits_lt (bits.take 8)
    have hbyte : BitStream.toBits 8 (UInt8.ofNat (BitStream.ofBits (bits.take 8))).toNat =
        bits.take 8 := by
      have hbits := BitStream.toBits_ofBits (bits.take 8)
      rw [htake] at hlt hbits
      rw [UInt8.toNat_ofNat', Nat.mod_eq_of_lt hlt, hbits]
    refine ⟨UInt8.ofNat (BitStream.ofBits (bits.take 8)) :: memory, ?_⟩
    show BitStream.toBits 8 _ ++ bitsOf memory = bits
    rw [hbyte, hmemory, List.take_append_drop]

/-- Some memory holds the bits and fills the last byte up. -/
theorem exists_memory (bits : List Bool) :
    ∃ memory, bits <+: bitsOf memory ∧ bits.length ≤ memory.length * 8 := by
  obtain ⟨memory, hmemory⟩ := exists_bitsOf_eq (bits.length / 8 + 1)
    (bits ++ List.replicate ((bits.length / 8 + 1) * 8 - bits.length) false) (by
      rw [List.length_append, List.length_replicate]
      omega)
  refine ⟨memory, ?_, ?_⟩
  · rw [hmemory]
    exact List.prefix_append _ _
  · rw [← length_bitsOf, hmemory, List.length_append]
    omega

end BitCursor
